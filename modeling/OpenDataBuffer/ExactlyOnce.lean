import OpenDataBuffer.CommitOrder
import OpenDataBuffer.FlushCalls
import OpenDataBuffer.Outcomes
import OpenDataBuffer.Watchers

/-!
# Every accepted write terminates exactly once

The laws of the ledger, the order in which the committer works and the order in
which the stages close, put together: nothing is lost, nothing is answered
twice, and when the resolver has exited everything has been answered.
-/

namespace OpenDataBuffer

variable {p : Producer} {s : State}

/-- What every reachable state keeps about terminating exactly once. -/
structure TerminatesOnce (s : State) : Prop where
  /-- An accepted message is in one batch or dropped batch, or waits for one. -/
  cut : s.hist.accepted =
    s.hist.cuts.flatMap Cut.msgs ++ (s.rotator.batch.msgs ++ s.appendCh.queue)
  accepted : s.hist.accepted.Nodup
  /-- An emitted batch is in flight or has got its resolver item. -/
  items : s.flight + handedBatches s.hist.handed = ↑(emittedOf s.hist.cuts)
  /-- Emitted batches are all different, so none gets two items. -/
  emitted : (emittedOf s.hist.cuts).Nodup
  outcome : ∀ pr ∈ s.hist.handed, pr.item.outcome = .committed ↔ pr.item.err = none
  /-- No watcher is resolved twice. -/
  resolved : (s.hist.resolved.map Prod.fst).Nodup
  owned : ∀ w ∈ s.hist.resolved.map Prod.fst, w ∈ s.hist.accepted.map AppendMessage.watcher
  /-- A flush request that was taken is acknowledged or still owed its value. -/
  acks : ↑(s.hist.acked.map Prod.fst) + s.ledger.owedAcks =
    (↑(s.hist.taken.map Prod.fst) : Multiset Nat)
  /-- No flush request gets two values. -/
  acked : (s.hist.acked.map Prod.fst).Nodup
  /-- No send was made on a closed channel of the pipeline. -/
  sends : s.panicked ≠ some .pendingCh ∧ s.panicked ≠ some .encodedCh ∧
    s.panicked ≠ some .uploadCompletionCh ∧ s.panicked ≠ some .resolverCh
  /-- The committer leaves nothing in `ready`. -/
  committer : s.committer.phase = .exited → s.committer.ready = []

/-- What holds when `resolverDone` is closed. -/
structure AllTerminated (s : State) : Prop where
  cut : s.hist.accepted = s.hist.cuts.flatMap Cut.msgs
  items : handedBatches s.hist.handed = ↑(emittedOf s.hist.cuts)
  resolved : ∀ m ∈ s.hist.accepted, ∃ e, s.watcherResult m.watcher = some e
  acked : (s.hist.acked.map Prod.fst).Perm (s.hist.taken.map Prod.fst)

/-- Emitted batches are told apart by their ordinals. -/
theorem Conserved.emitted_nodup {L : Ledger} (h : Conserved L) : (emittedOf L.cuts).Nodup := by
  have hnodup : ((emittedOf L.cuts).map Batch.ordinal).Nodup := by
    rw [h.numbered]
    exact List.nodup_range
  exact hnodup.of_map _

/-- Behind an exited resolver all stages have ended. -/
theorem Stages.resolver_ended (h : Stages p s) (hexited : s.resolver = .exited) :
    s.committer.phase = .exited ∧ s.pendingClosed := by
  have hcommitter := h.resolver_closed (h.resolver_exited hexited)
  have hclosed := (h.completions_closed_of_exited hcommitter).1
  exact ⟨hcommitter, (h.encoding_ended (h.uploading_ended hclosed).1).1⟩

/-- When the pipeline has ended no flush is owed an answer. -/
theorem acksOf_zero_of_ended (hflight : s.flight = 0) (hpending : s.pendingClosed)
    (hexited : s.resolver = .exited) : s.ledger.owedAcks = 0 := by
  have hserving : s.rotator.phase.serving = none ∧ s.rotator.phase.refusing = none := by
    rcases hpending with hphase | hphase <;> rw [hphase] <;> exact ⟨rfl, rfl⟩
  show optionally s.rotator.phase.serving + (optionally s.rotator.phase.refusing +
    (acksOf s.flight + optionally s.resolver.ackDue)) = 0
  rw [hserving.1, hserving.2, hflight, hexited]
  simp [ResolverPhase.ackDue]

/-- With everything ended, every accepted watcher is on record. -/
theorem resolved_of_ended (hb : Books s) (hflight : s.flight = 0) (hpending : s.pendingClosed)
    (hopen : s.rotator.batch.msgs = [] ∧ s.appendCh.queue = []) (hexited : s.resolver = .exited) :
    (↑(s.hist.resolved.map Prod.fst) : Multiset Nat) =
      ↑(s.hist.accepted.map AppendMessage.watcher) := by
  have hall : (↑(s.hist.resolved.map Prod.fst) : Multiset Nat) +
      (↑s.resolver.left + ↑s.rotator.phase.dropLeft) +
      (watchersOf (messagesOf s.flight) +
        watchersOf ↑(s.rotator.batch.msgs ++ s.appendCh.queue)) =
        ↑(s.hist.accepted.map AppendMessage.watcher) := hb.conserved.watchers
  have hdrop : s.rotator.phase.dropLeft = [] := by
    rcases hpending with hphase | hphase <;> rw [hphase] <;> rfl
  rw [hflight, hopen.1, hopen.2, hdrop, hexited] at hall
  simpa [ResolverPhase.left, watchersOf] using hall

/-- Everything terminates at most once, in every run. -/
theorem reachable_terminatesOnce {allowed : State → Label → Prop} {store : ObjectStore}
    {items : List EnqueueItem} (hrun : RunWhere p allowed (newProducer p store items) s) :
    TerminatesOnce s := by
  have hb := reachable_books hrun
  have ha := reachable_appendCalls hrun
  have hst := reachable_stages hrun
  have hc := hb.conserved
  refine ⟨hc.partition, ha.unique.of_map _, hc.flight, hc.emitted_nodup, ?_, resolved_nodup hb ha,
    ?_, hc.acks, ?_, ?_, (reachable_commitOrder hrun).ready_empty hst hc⟩
  · intro pr hpr
    exact reachable_decided (fun _ _ hv => hv.committed_iff) hrun (Or.inr hpr)
  · intro w hw
    rw [← Multiset.mem_coe, show (↑(s.hist.accepted.map AppendMessage.watcher) : Multiset Nat) =
      _ from hc.watchers.symm]
    exact Multiset.mem_add.mpr (Or.inl (Multiset.mem_add.mpr (Or.inl hw)))
  · have hle : (↑(s.hist.acked.map Prod.fst) : Multiset Nat) ≤ ↑(s.hist.taken.map Prod.fst) := by
      rw [show (↑(s.hist.taken.map Prod.fst) : Multiset Nat) = _ from hc.acks.symm]
      exact Multiset.le_add_right _ _
    have honce := (reachable_flushCalls hrun).once
    exact Multiset.coe_nodup.mp (Multiset.nodup_of_le hle (Multiset.coe_nodup.mpr honce))
  · rcases hst.panic with hpanic | hpanic <;> rw [hpanic] <;> simp

/-- Behind the resolver everything has terminated. -/
theorem reachable_allTerminated {allowed : State → Label → Prop} {store : ObjectStore}
    {items : List EnqueueItem} (hrun : RunWhere p allowed (newProducer p store items) s)
    (hexited : s.resolver = .exited) : AllTerminated s := by
  have hb := reachable_books hrun
  have ha := reachable_appendCalls hrun
  have hst := reachable_stages hrun
  have hc := hb.conserved
  obtain ⟨hcommitter, hpending⟩ := hst.resolver_ended hexited
  have hflight := (reachable_commitOrder hrun).flight_empty hst hc hcommitter
  obtain ⟨hopened, hqueue⟩ := hst.nothing_open hb.custody.coherent hpending
  refine ⟨?_, ?_, ?_, ?_⟩
  · have hpart : s.hist.accepted = s.hist.cuts.flatMap Cut.msgs ++
        (s.rotator.batch.msgs ++ s.appendCh.queue) := hc.partition
    simpa [hopened, hqueue] using hpart
  · have hitems : s.flight + handedBatches s.hist.handed = ↑(emittedOf s.hist.cuts) := hc.flight
    rwa [hflight, zero_add] at hitems
  · intro m hm
    have hall := resolved_of_ended hb hflight hpending ⟨hopened, hqueue⟩ hexited
    have hmem : m.watcher ∈ s.hist.resolved.map Prod.fst := by
      rw [← Multiset.mem_coe, hall]
      exact Multiset.mem_coe.mpr (List.mem_map_of_mem hm)
    obtain ⟨⟨w, e⟩, hr, rfl⟩ := List.mem_map.mp hmem
    exact ⟨e, (watcherResult_iff hb ha).mpr hr⟩
  · have hacks : ↑(s.hist.acked.map Prod.fst) + s.ledger.owedAcks =
        (↑(s.hist.taken.map Prod.fst) : Multiset Nat) := hc.acks
    rw [acksOf_zero_of_ended hflight hpending hexited, add_zero] at hacks
    exact Multiset.coe_eq_coe.mp hacks

/-- **Every accepted write terminates exactly once.**  In every reachable state
nothing is lost and nothing is answered twice; and once the resolver has exited,
every accepted message, every batch and every flush request has been answered. -/
theorem accepted_terminates_once {store : ObjectStore} {items : List EnqueueItem}
    (hrun : Run p (newProducer p store items) s) :
    TerminatesOnce s ∧ (s.resolver = .exited → AllTerminated s) :=
  ⟨reachable_terminatesOnce hrun, reachable_allTerminated hrun⟩

/-- The sample run to the end of its resolver. -/
theorem accepted_terminates_once_sample :
    sampleClosed.resolver = .exited ∧ TerminatesOnce sampleClosed ∧ AllTerminated sampleClosed := by
  obtain ⟨honce, hall⟩ := accepted_terminates_once sample_run.run
  exact ⟨rfl, honce, hall rfl⟩

end OpenDataBuffer
