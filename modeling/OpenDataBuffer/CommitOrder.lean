import OpenDataBuffer.LedgerRefinement
import OpenDataBuffer.Stages

/-!
# The order in which the committer works

While the producer is not halted, the batches the committer has cut off and
those it has handed over are exactly the ordinals below its cursor; so what it
holds back in `ready`, and what is still upstream, starts at the cursor.  Once
halted, `ready` stays empty and no further group is cut.

From this and the order in which the stages close follows that the committer
leaves nothing behind: when it exits, `ready` is empty
(`CommitOrder.ready_empty`).
-/

namespace OpenDataBuffer

/-- Where the committer can stand before a halt. -/
def CommitterPhase.Running : CommitterPhase → Prop
  | .notifying _ => False
  | .resolving _ after => after = .drainAgain
  | _ => True

/-- Where the committer can stand after a halt. -/
def CommitterPhase.Stopped : CommitterPhase → Prop
  | .receiving => True
  | .notifying _ => True
  | .resolving _ after => after ≠ .drainAgain
  | .exited => True
  | _ => False

/-- The committer is not in the middle of its work. -/
def CommitterPhase.Idle (phase : CommitterPhase) : Prop := phase = .receiving ∨ phase = .exited

structure CommitOrder (s : State) : Prop where
  mirror : s.halted = s.committer.halted
  running : s.committer.halted = false → s.committer.phase.Running
  stopped : s.committer.halted = true → s.committer.phase.Stopped ∧ s.committer.ready = []
  order : s.committer.halted = false →
    (s.committer.phase.inHand + handedBatches s.hist.handed).map Batch.ordinal =
      ↑(List.range s.committer.next)
  waiting : s.committer.phase.Idle → s.committer.next ∉ ordinalsOf s.committer.ready

variable {p : Producer} {s t : State} {l : Label}

/-- The committer and what it handed over are as before. -/
theorem CommitOrder.of_same (h : CommitOrder s) (hcommitter : t.committer = s.committer)
    (hhalted : t.halted = s.halted) (hhanded : t.hist.handed = s.hist.handed) :
    CommitOrder t := by
  refine ⟨?_, ?_, ?_, ?_, ?_⟩
  · rw [hhalted, hcommitter]
    exact h.mirror
  · rw [hcommitter]
    exact h.running
  · rw [hcommitter]
    exact h.stopped
  · rw [hcommitter, hhanded]
    exact h.order
  · rw [hcommitter]
    exact h.waiting

/-- At a point that a halted producer cannot reach, it is not halted. -/
theorem CommitOrder.not_halted (h : CommitOrder s) (hphase : ¬ s.committer.phase.Stopped) :
    s.committer.halted = false := by
  cases hhalted : s.committer.halted with
  | false => rfl
  | true => exact absurd (h.stopped hhalted).1 hphase

/-- At a point that only a halted producer can reach, it is halted. -/
theorem CommitOrder.is_halted (h : CommitOrder s) (hphase : ¬ s.committer.phase.Running) :
    s.committer.halted = true := by
  cases hhalted : s.committer.halted with
  | true => rfl
  | false => exact absurd (h.running hhalted) hphase

/-- The committer moves on with the batches it has, in the middle of its work. -/
theorem CommitOrder.moves (h : CommitOrder s) (hhalted : s.committer.halted = false)
    (c : Committer) (hsame : c.halted = s.committer.halted) (hnext : c.next = s.committer.next)
    (hinHand : c.phase.inHand = s.committer.phase.inHand) (hrunning : c.phase.Running)
    (hbusy : ¬ c.phase.Idle) : CommitOrder { s with committer := c } where
  mirror := h.mirror.trans hsame.symm
  running := fun _ => hrunning
  stopped := fun hh => by rw [hsame, hhalted] at hh; cases hh
  order := fun _ => by
    have horder := h.order hhalted
    rw [← hinHand, ← hnext] at horder
    exact horder
  waiting := fun hidle => absurd hidle hbusy

/-- The committer of a halted producer moves on; nothing is ready any more. -/
theorem CommitOrder.moves_halted (h : CommitOrder s) (hhalted : s.committer.halted = true)
    (c : Committer) (hsame : c.halted = s.committer.halted) (hready : c.ready = s.committer.ready)
    (hstopped : c.phase.Stopped) : CommitOrder { s with committer := c } where
  mirror := h.mirror.trans hsame.symm
  running := fun hh => by rw [hsame, hhalted] at hh; cases hh
  stopped := fun _ => ⟨hstopped, hready.trans (h.stopped hhalted).2⟩
  order := fun hh => by rw [hsame, hhalted] at hh; cases hh
  waiting := fun _ => by
    rw [hready, (h.stopped hhalted).2]
    exact List.not_mem_nil

/-- The ordinals below a cursor and those of a run that starts at it. -/
theorem range_append_range' {a b : Nat} (h : a ≤ b) :
    (↑(List.range' a (b - a)) : Multiset Nat) + ↑(List.range a) = ↑(List.range b) := by
  have hb : b = a + (b - a) := by omega
  rw [add_comm, Multiset.coe_add, List.range'_eq_map_range, ← List.range_add, ← hb]

/-- `drain` comes to rest only when it cut nothing off. -/
theorem idle_afterCollect {closed : Bool} {c : Collected} (h : (p.afterCollect closed c).Idle) :
    c.group = [] ∧ c.failed = [] := by
  unfold Producer.afterCollect at h
  by_cases hgroup : c.group = []
  · by_cases hfailed : c.failed = []
    · exact ⟨hgroup, hfailed⟩
    · rw [if_pos hgroup, if_neg hfailed] at h
      rcases h with h | h <;> cases h
  · rw [if_neg hgroup] at h
    rcases h with h | h <;> cases h

theorem running_afterDrain (closed : Bool) : (afterDrain closed).Running := by
  unfold afterDrain
  split <;> trivial

theorem running_afterCollect (closed : Bool) (c : Collected) :
    (p.afterCollect closed c).Running := by
  unfold Producer.afterCollect
  split
  · split
    · exact running_afterDrain closed
    · rfl
  · trivial

theorem stopped_afterDrain (closed : Bool) : (afterDrain closed).Stopped := by
  unfold afterDrain
  split <;> trivial

/-- A cut takes the ordinals from the cursor on, so all ordinals below the new cursor
are cut off. -/
theorem CommitOrder.collect (h : CommitOrder s) (hd : Distinct s)
    (hphase : s.committer.phase = .draining) :
    CommitOrder { s with committer :=
      { s.committer with
        next := (OpenDataBuffer.collect p.batchSize s.committer.next s.committer.ready).next
        ready := (OpenDataBuffer.collect p.batchSize s.committer.next s.committer.ready).ready
        phase := p.afterCollect s.committer.closed
          (OpenDataBuffer.collect p.batchSize s.committer.next s.committer.ready) } } := by
  obtain ⟨cut, hcut⟩ := collect_cutOff p.batchSize s.committer.next s.committer.ready hd.ready_nodup
  have hhalted : s.committer.halted = false := h.not_halted (by rw [hphase]; exact id)
  refine ⟨h.mirror, fun _ => running_afterCollect _ _, ?_, fun _ => ?_, ?_⟩
  · intro hh
    exact absurd (hhalted.symm.trans hh) (by simp)
  · have hnow : s.committer.phase.inHand = 0 := by rw [hphase]; rfl
    have horder := h.order hhalted
    rw [hnow, zero_add] at horder
    show ((p.afterCollect s.committer.closed _).inHand + handedBatches s.hist.handed).map
      Batch.ordinal = _
    rw [inHand_afterCollect, Multiset.map_add, hcut.map_ordinal, horder]
    exact range_append_range' hcut.next_le
  · intro hidle
    obtain ⟨hgroup, hfailed⟩ := idle_afterCollect hidle
    exact hcut.stops hgroup hfailed (atLeastOne_pos _)

/-- A step of the committer keeps the order. -/
theorem CommitOrder.committerStep (h : CommitOrder s) (hd : Distinct s)
    (hs : CommitterStep p s l t) : CommitOrder t := by
  cases hs with
  | @receive uc rest hphase hhalted hqueue =>
      have hmoved := h.moves hhalted { s.committer with
        ready := insertReady uc s.committer.ready, phase := .gathering } rfl rfl
        (by rw [hphase]; rfl) trivial (by simp [CommitterPhase.Idle])
      exact hmoved.of_same rfl rfl rfl
  | @receiveHalted uc rest hphase hhalted hqueue =>
      have hmoved := h.moves_halted hhalted (s.committer.at
        (.resolving [haltedResolution .abandoned uc] .nextCompletion)) rfl rfl nofun
      exact hmoved.of_same rfl rfl rfl
  | receiveClosed hphase hqueue hclosed =>
      by_cases hhalted : s.committer.halted = true
      · exact h.moves_halted hhalted _ rfl rfl (by simp [hhalted, CommitterPhase.Stopped])
      · have hhalted : s.committer.halted = false := by simpa using hhalted
        exact h.moves hhalted _ rfl rfl (by simp [hhalted, hphase]; rfl)
          (by simp [hhalted]; trivial)
          (by simp [hhalted, CommitterPhase.Idle])
  | @gather uc rest hphase hqueue =>
      have hhalted : s.committer.halted = false := h.not_halted (by rw [hphase]; exact id)
      have hmoved := h.moves hhalted { s.committer with
        ready := insertReady uc s.committer.ready } rfl rfl rfl (by rw [hphase]; trivial)
        (by simp [hphase, CommitterPhase.Idle])
      exact hmoved.of_same rfl rfl rfl
  | gatherDone hphase hqueue =>
      have hhalted : s.committer.halted = false := h.not_halted (by rw [hphase]; exact id)
      exact h.moves hhalted _ rfl rfl (by rw [hphase]; rfl) trivial (by simp [CommitterPhase.Idle])
  | collect hphase => exact h.collect hd hphase
  | halt hphase hcall herr hswept =>
      refine ⟨rfl, ?_, fun _ => ⟨trivial, rfl⟩, ?_, ?_⟩
      · intro hh
        cases hh
      · intro hh
        cases hh
      · rintro (hidle | hidle) <;> cases hidle
  | @notify left hphase =>
      have hhalted : s.committer.halted = true := h.is_halted (by rw [hphase]; exact id)
      have hmoved := h.moves_halted hhalted (s.committer.at (.resolving left .drainDone)) rfl
        rfl nofun
      exact hmoved.of_same rfl rfl rfl
  | @resolved after hphase =>
      by_cases hafter : after = .drainAgain
      · subst hafter
        have hhalted : s.committer.halted = false :=
          h.not_halted (by rw [hphase]; exact fun hne => hne rfl)
        exact h.moves hhalted _ rfl rfl (by rw [hphase]; rfl) trivial
          (by simp [CommitterPhase.Idle, afterResolve])
      · have hhalted : s.committer.halted = true := h.is_halted (by rw [hphase]; exact hafter)
        refine h.moves_halted hhalted _ rfl rfl ?_
        cases after with
        | drainAgain => exact absurd rfl hafter
        | drainDone => exact stopped_afterDrain _
        | nextCompletion => trivial
  | resolveClosed hphase hclosed => exact h.of_same rfl rfl rfl
  | @casApplies group failed call n obj version hphase hcall hmatch hnames =>
      have hhalted : s.committer.halted = false := h.not_halted (by rw [hphase]; exact id)
      have hmoved := h.moves hhalted (s.committer.at (.cas group failed
        { call with phase := .enqueueing (.writing n obj.data version true) })) rfl rfl
        (by rw [hphase]; rfl) trivial (by simp [CommitterPhase.Idle])
      exact hmoved.of_same rfl rfl rfl
  | cas hphase hcas =>
      have hhalted : s.committer.halted = false := h.not_halted (by rw [hphase]; exact id)
      exact h.moves hhalted _ rfl rfl (by rw [hphase]; rfl) trivial (by simp [CommitterPhase.Idle])
  | settle hphase hcall herr =>
      have hhalted : s.committer.halted = false := h.not_halted (by rw [hphase]; exact id)
      exact h.moves hhalted _ rfl rfl (by rw [hphase]; exact handedBatches_settled _ _ _) rfl
        (by simp [CommitterPhase.Idle])

/-- An outcome that the resolver takes stays cut off. -/
theorem CommitOrder.resolverStep (h : CommitOrder s) (hs : ResolverStep p s l t) :
    CommitOrder t := by
  cases hs with
  | @take pr left after hphase hsend hopen =>
      refine ⟨h.mirror, ?_, ?_, ?_, ?_⟩
      · intro hhalted
        have hrunning := h.running hhalted
        rw [hsend] at hrunning
        exact hrunning
      · intro hhalted
        obtain ⟨hstopped, hready⟩ := h.stopped hhalted
        rw [hsend] at hstopped
        exact ⟨hstopped, hready⟩
      · intro hhalted
        have horder := h.order hhalted
        rw [hsend] at horder
        refine Eq.trans (congrArg _ ?_) horder
        show handedBatches left + handedBatches (s.hist.handed ++ [pr]) =
          pr.batch ::ₘ handedBatches left + handedBatches s.hist.handed
        rw [handedBatches_append, handedBatches_cons, handedBatches_nil, Multiset.cons_zero,
          ← Multiset.singleton_add]
        abel
      · rintro (hidle | hidle) <;> cases hidle
  | _ => exact h.of_same rfl rfl rfl

/-- **Step rule for the order of commits.** -/
theorem CommitOrder.step (h : CommitOrder s) (hd : Distinct s) (hs : ProducerStep p s l t) :
    CommitOrder t := by
  cases hs with
  | append _ hs => cases hs <;> exact h.of_same rfl rfl rfl
  | flush _ hs => cases hs <;> exact h.of_same rfl rfl rfl
  | close _ hs => cases hs <;> exact h.of_same rfl rfl rfl
  | rotator _ hs => cases hs <;> exact h.of_same rfl rfl rfl
  | encoder _ hs => cases hs <;> exact h.of_same rfl rfl rfl
  | uploader _ hs => cases hs <;> exact h.of_same rfl rfl rfl
  | committer _ hs => exact h.committerStep hd hs
  | resolver _ hs => exact h.resolverStep hs
  | others hs => cases hs <;> exact h.of_same rfl rfl rfl

theorem commitOrder_newProducer (store : ObjectStore) (items : List EnqueueItem) :
    CommitOrder (newProducer p store items) where
  mirror := rfl
  running := fun _ => trivial
  stopped := fun hhalted => by cases hhalted
  order := fun _ => rfl
  waiting := fun _ => List.not_mem_nil

/-- **The committer works in order, in every run.** -/
theorem reachable_commitOrder {allowed : State → Label → Prop} {store : ObjectStore}
    {items : List EnqueueItem} (hrun : RunWhere p allowed (newProducer p store items) s) :
    CommitOrder s := by
  have hboth := hrun.invariant (P := fun x => Custody x ∧ CommitOrder x)
    ⟨custody_newProducer store items, commitOrder_newProducer store items⟩
    (fun _ _ _ h _ hs => ⟨h.1.step hs, h.2.step h.1.conserved.distinct hs⟩)
  exact hboth.2

/-! ## The halt -/

/-- **What halts a producer.** -/
theorem halted_step (hs : ProducerStep p s l t) :
    t.halted = s.halted ∨ ∃ group failed call err swept, l = .moves .committer ∧
      s.committer.phase = .cas group failed call ∧ call.phase = .returned (some err) ∧
        err ≠ .shutdown ∧ swept.Perm s.committer.ready ∧ t.halted = true ∧ t.hist = s.hist ∧
        t.committer.phase = .notifying (haltedAll group failed swept) := by
  cases hs with
  | committer _ hs =>
      cases hs with
      | halt hphase hcall herr hswept =>
          exact Or.inr ⟨_, _, _, _, _, rfl, hphase, hcall, herr, hswept, rfl, rfl, rfl⟩
      | _ => exact Or.inl rfl
  | append _ hs => cases hs <;> exact Or.inl rfl
  | flush _ hs => cases hs <;> exact Or.inl rfl
  | close _ hs => cases hs <;> exact Or.inl rfl
  | rotator _ hs => cases hs <;> exact Or.inl rfl
  | encoder _ hs => cases hs <;> exact Or.inl rfl
  | uploader _ hs => cases hs <;> exact Or.inl rfl
  | resolver _ hs => cases hs <;> exact Or.inl rfl
  | others hs => cases hs <;> exact Or.inl rfl

/-- A halted producer stays halted. -/
theorem halted_mono (hs : ProducerStep p s l t) (hhalted : s.halted = true) : t.halted = true := by
  rcases halted_step hs with hsame | ⟨_, _, _, _, _, _, _, _, _, _, hnow, _⟩
  · exact hsame.trans hhalted
  · exact hnow

/-! ## Nothing is left behind -/

/-- What is not cut off yet and what is below the cursor are all the ordinals. -/
theorem CommitOrder.remaining (h : CommitOrder s) (hc : Conserved s.ledger)
    (hhalted : s.committer.halted = false) :
    (s.upstream + batchesOf s.committer.ready).map Batch.ordinal +
      ↑(List.range s.committer.next) = ↑(List.range s.rotator.ordinal) := by
  have hnumbered : (↑((emittedOf s.hist.cuts).map Batch.ordinal) : Multiset Nat) =
      ↑(List.range s.rotator.ordinal) := congrArg _ hc.numbered
  have hflight : s.flight + handedBatches s.hist.handed = ↑(emittedOf s.hist.cuts) := hc.flight
  rw [← hnumbered, ← Multiset.map_coe, ← hflight, State.flight, ← h.order hhalted,
    ← Multiset.map_add]
  exact congrArg _ (by abel)

/-- What is not cut off yet is not below the cursor. -/
theorem CommitOrder.next_le (h : CommitOrder s) (hc : Conserved s.ledger)
    (hhalted : s.committer.halted = false) {b : Batch}
    (hb : b ∈ s.upstream + batchesOf s.committer.ready) : s.committer.next ≤ b.ordinal := by
  have hnodup : ((s.upstream + batchesOf s.committer.ready).map Batch.ordinal +
      ↑(List.range s.committer.next)).Nodup := by
    rw [h.remaining hc hhalted]
    exact Multiset.coe_nodup.mpr List.nodup_range
  have hnot : b.ordinal ∉ (↑(List.range s.committer.next) : Multiset Nat) := fun hin =>
    Multiset.disjoint_left.mp (Multiset.nodup_add.mp hnodup).2.2 (Multiset.mem_map_of_mem _ hb) hin
  rw [Multiset.mem_coe, List.mem_range] at hnot
  omega

/-- While there is work left for the committer, somebody holds the ordinal at
its cursor. -/
theorem CommitOrder.next_held (h : CommitOrder s) (hc : Conserved s.ledger)
    (hhalted : s.committer.halted = false) {b : Batch}
    (hb : b ∈ s.upstream + batchesOf s.committer.ready) :
    ∃ b' ∈ s.upstream + batchesOf s.committer.ready, b'.ordinal = s.committer.next := by
  have hall := h.remaining hc hhalted
  have hle := h.next_le hc hhalted hb
  have hlt : b.ordinal ∈ (↑(List.range s.rotator.ordinal) : Multiset Nat) := by
    rw [← hall]
    exact Multiset.mem_add.mpr (Or.inl (Multiset.mem_map_of_mem _ hb))
  rw [Multiset.mem_coe, List.mem_range] at hlt
  have hnext : s.committer.next ∈ (s.upstream + batchesOf s.committer.ready).map Batch.ordinal +
      ↑(List.range s.committer.next) := by
    rw [hall, Multiset.mem_coe, List.mem_range]
    omega
  rcases Multiset.mem_add.mp hnext with hin | hin
  · exact Multiset.mem_map.mp hin
  · rw [Multiset.mem_coe, List.mem_range] at hin
    omega

/-- Behind a closed `uploadCompletionCh` nothing is upstream of its queue. -/
theorem Stages.upstream_ended (h : Stages p s) (hclosed : s.uploadCompletionCh.closed = true) :
    s.upstream = batchesOf s.uploadCompletionCh.queue := by
  obtain ⟨hpool, huploaders⟩ := h.uploading_ended hclosed
  obtain ⟨hpending, hencoders⟩ := h.encoding_ended hpool
  have hrotator : s.rotator.phase.flight = 0 := by
    rcases hpending with hphase | hphase <;> rw [hphase] <;> rfl
  rw [State.upstream, hrotator,
    ListUpdate.sum_map_eq_zero (fun e he => by rw [hencoders e he]; rfl),
    ListUpdate.sum_map_eq_zero (fun u hu => by rw [huploaders u hu]; rfl)]
  simp

/-- Behind a closed `pendingCh` no message waits for a batch. -/
theorem Stages.nothing_open (h : Stages p s) (hc : Coherent s) (hpending : s.pendingClosed) :
    s.rotator.batch.msgs = [] ∧ s.appendCh.queue = [] := by
  have hcoherent := hc.rotator
  rcases hpending with hphase | hphase <;> rw [hphase] at hcoherent <;>
    exact ⟨hcoherent, (h.last_of_reason hphase trivial).2⟩

/-- **The committer leaves nothing behind.** -/
theorem CommitOrder.ready_empty (h : CommitOrder s) (hst : Stages p s) (hc : Conserved s.ledger)
    (hexited : s.committer.phase = .exited) : s.committer.ready = [] := by
  obtain ⟨hclosed, hqueue⟩ := hst.completions_closed_of_exited hexited
  have hupstream : s.upstream = 0 := by rw [hst.upstream_ended hclosed, hqueue, batchesOf_nil]
  cases hhalted : s.committer.halted with
  | true => exact (h.stopped hhalted).2
  | false =>
      cases hready : s.committer.ready with
      | nil => rfl
      | cons uc rest =>
          have hmem : uc.batch ∈ s.upstream + batchesOf s.committer.ready := by
            rw [hupstream, hready, zero_add, batchesOf_cons]
            exact Multiset.mem_cons_self _ _
          obtain ⟨b, hb, hnext⟩ := h.next_held hc hhalted hmem
          rw [hupstream, zero_add] at hb
          obtain ⟨uc', huc', rfl⟩ := List.mem_map.mp (Multiset.mem_coe.mp hb)
          exact absurd (List.mem_map.mpr ⟨uc', huc', hnext⟩) (h.waiting (Or.inr hexited))

/-- Once the committer has exited, no batch is in flight. -/
theorem CommitOrder.flight_empty (h : CommitOrder s) (hst : Stages p s)
    (hc : Conserved s.ledger) (hexited : s.committer.phase = .exited) : s.flight = 0 := by
  obtain ⟨hclosed, hqueue⟩ := hst.completions_closed_of_exited hexited
  rw [State.flight, hst.upstream_ended hclosed, hqueue, h.ready_empty hst hc hexited, hexited]
  rfl

end OpenDataBuffer
