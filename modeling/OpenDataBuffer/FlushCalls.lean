import OpenDataBuffer.Books

/-!
# Flush calls

A flush request is taken at most once and answered at most once; its result
channel, with room for one value, is empty until then.  The value a call goes on
with is the one that was sent for it, and it returns nil only when, at some
point after the answer, no batch was counted.
-/

namespace OpenDataBuffer

open ListUpdate

/-- The call has got the answer `v`, or will find it in its channel. -/
def FlushCall.Has (c : FlushCall) (v : Option BufferError) : Prop :=
  v ∈ c.result ∨ c.phase = .draining v ∨ ∃ ch, c.phase = .parked v ch

/-- At a point without an answer, the answer can only be in the channel. -/
theorem FlushCall.has_of_at {c : FlushCall} {phase : FlushPhase} {v : Option BufferError}
    (hdraining : ∀ v, phase ≠ .draining v) (hparked : ∀ v ch, phase ≠ .parked v ch)
    (h : (c.at phase).Has v) : c.Has v := by
  rcases h with h | h | ⟨ch, h⟩
  · exact Or.inl h
  · exact absurd h (hdraining v)
  · exact absurd h (hparked v ch)

/-- The messages a call covers are resolved. -/
def State.AllResolved (s : State) (n : Nat) : Prop :=
  ∀ m ∈ s.hist.accepted.take n, ∃ e, (m.watcher, e) ∈ s.hist.resolved

structure FlushCalls (s : State) : Prop where
  once : (s.hist.taken.map Prod.fst).Nodup
  taken : ∀ f ∈ s.hist.taken.map Prod.fst, ∃ c, s.flushes[f]? = some c ∧ c.phase ≠ .requesting
  empty : ∀ (f : Nat) (c : FlushCall), s.flushes[f]? = some c → f ∉ s.hist.acked.map Prod.fst →
    c.result = []
  answered : ∀ (f : Nat) (c : FlushCall) (v : Option BufferError), s.flushes[f]? = some c →
    c.Has v → (f, v) ∈ s.hist.acked
  returned : ∀ (f : Nat) (c : FlushCall), s.flushes[f]? = some c → c.phase = .returned none →
    (f, none) ∈ s.hist.acked ∧ s.AllResolved c.begun

variable {p : Producer} {s t : State} {l : Label}

/-- When a flush began, no more was accepted than now. -/
theorem Books.begun_le (h : Books s) {f : Nat} {c : FlushCall} (hcall : s.flushes[f]? = some c) :
    c.begun ≤ s.hist.accepted.length :=
  h.barrier.begun_le _ (List.mem_map_of_mem (List.mem_of_getElem? hcall))

/-- Messages that are resolved stay resolved. -/
theorem State.AllResolved.grow {n : Nat} (h : s.AllResolved n) (hn : n ≤ s.hist.accepted.length)
    (hg : Grows s.ledger t.ledger) : t.AllResolved n := by
  intro m hm
  have htake : t.hist.accepted.take n = s.hist.accepted.take n := hg.take_eq hn
  rw [htake] at hm
  obtain ⟨e, he⟩ := h m hm
  exact ⟨e, hg.resolved.subset he⟩

/-- A step of somebody else. -/
theorem FlushCalls.of_same (h : FlushCalls s) (hb : Books s) (hg : Grows s.ledger t.ledger)
    (hcalls : t.flushes = s.flushes) (htaken : t.hist.taken = s.hist.taken)
    (hacked : t.hist.acked = s.hist.acked) : FlushCalls t := by
  refine ⟨?_, ?_, ?_, ?_, ?_⟩
  · rw [htaken]
    exact h.once
  · rw [htaken, hcalls]
    exact h.taken
  · rw [hacked, hcalls]
    exact h.empty
  · rw [hacked, hcalls]
    exact h.answered
  · rw [hacked, hcalls]
    intro f c hcall hphase
    obtain ⟨hack, hall⟩ := h.returned f c hcall hphase
    exact ⟨hack, hall.grow (hb.begun_le hcall) hg⟩

/-- A call moves on. -/
theorem FlushCalls.moves (h : FlushCalls s) {f : Nat} {c : FlushCall} (c' : FlushCall)
    (hcall : s.flushes[f]? = some c) (hphase : c.phase ≠ .requesting → c'.phase ≠ .requesting)
    (hresult : c.result = [] → c'.result = []) (hhas : ∀ v, c'.Has v → c.Has v)
    (hreturned : c'.phase = .returned none →
      (f, none) ∈ s.hist.acked ∧ s.AllResolved c'.begun) :
    FlushCalls { s with flushes := s.flushes.set f c' } where
  once := h.once
  taken := by
    intro g hg
    obtain ⟨d, hd, hne⟩ := h.taken g hg
    by_cases hgf : g = f
    · subst hgf
      obtain rfl : d = c := Option.some.inj (hd.symm.trans hcall)
      exact ⟨c', getElem?_set_same hcall, hphase hne⟩
    · refine ⟨d, ?_, hne⟩
      rw [List.getElem?_set_ne (Ne.symm hgf)]
      exact hd
  empty := by
    intro g d hd hnot
    rcases getElem?_set_cases hd with ⟨rfl, rfl⟩ | ⟨_, hold⟩
    · exact hresult (h.empty g c hcall hnot)
    · exact h.empty g d hold hnot
  answered := by
    intro g d v hd hv
    rcases getElem?_set_cases hd with ⟨rfl, rfl⟩ | ⟨_, hold⟩
    · exact h.answered g c v hcall (hhas v hv)
    · exact h.answered g d v hold hv
  returned := by
    intro g d hd hret
    rcases getElem?_set_cases hd with ⟨rfl, rfl⟩ | ⟨_, hold⟩
    · exact hreturned hret
    · exact h.returned g d hold hret

/-- A call begins. -/
theorem FlushCalls.begin (h : FlushCalls s) :
    FlushCalls { s with flushes := s.flushes ++ [s.newFlush] } where
  once := h.once
  taken := by
    intro f hf
    obtain ⟨d, hd, hne⟩ := h.taken f hf
    refine ⟨d, ?_, hne⟩
    rw [List.getElem?_append_left (List.getElem?_eq_some_iff.mp hd).1]
    exact hd
  empty := by
    intro f d hd hnot
    rcases getElem?_concat_cases hd with ⟨_, rfl⟩ | hold
    · rfl
    · exact h.empty f d hold hnot
  answered := by
    intro f d v hd hv
    rcases getElem?_concat_cases hd with ⟨_, rfl⟩ | hold
    · rcases hv with hv | hv | ⟨ch, hv⟩ <;> cases hv
    · exact h.answered f d v hold hv
  returned := by
    intro f d hd hret
    rcases getElem?_concat_cases hd with ⟨_, rfl⟩ | hold
    · cases hret
    · exact h.returned f d hold hret

/-- The rotator takes the request of a call. -/
theorem FlushCalls.requested (h : FlushCalls s) {f a : Nat} {c : FlushCall}
    (hcall : s.flushes[f]? = some c) (hphase : c.phase = .requesting) :
    FlushCalls { s with
      flushes := s.flushes.set f (c.at .awaiting)
      hist := { s.hist with taken := s.hist.taken ++ [(f, a)] } } := by
  have hmoved := h.moves (c.at .awaiting) hcall (by simp) id
    (fun _ => FlushCall.has_of_at (by simp) (by simp)) (by simp)
  have hfresh : f ∉ s.hist.taken.map Prod.fst := by
    intro hf
    obtain ⟨d, hd, hne⟩ := h.taken f hf
    obtain rfl : d = c := Option.some.inj (hd.symm.trans hcall)
    exact hne hphase
  refine ⟨?_, ?_, hmoved.empty, hmoved.answered, hmoved.returned⟩
  · rw [List.map_append, List.nodup_append]
    refine ⟨h.once, List.nodup_singleton _, ?_⟩
    intro g hg g' hg' heq
    obtain rfl : g' = f := by simpa using hg'
    exact hfresh (heq ▸ hg)
  · intro g hg
    rw [List.map_append] at hg
    rcases List.mem_append.mp hg with hold | hnew
    · exact hmoved.taken g hold
    · obtain rfl : g = f := by simpa using hnew
      exact ⟨c.at .awaiting, getElem?_set_same hcall, by simp⟩

/-- A call is answered. -/
theorem FlushCalls.acknowledged (h : FlushCalls s) {f : Nat} {v : Option BufferError}
    {c : FlushCall} (hcall : s.flushes[f]? = some c) :
    FlushCalls { s with
      flushes := s.flushes.set f (c.holding [v])
      hist := { s.hist with acked := s.hist.acked ++ [(f, v)] } } where
  once := h.once
  taken := by
    intro g hg
    obtain ⟨d, hd, hne⟩ := h.taken g hg
    by_cases hgf : g = f
    · subst hgf
      obtain rfl : d = c := Option.some.inj (hd.symm.trans hcall)
      exact ⟨d.holding [v], getElem?_set_same hcall, hne⟩
    · refine ⟨d, ?_, hne⟩
      rw [List.getElem?_set_ne (Ne.symm hgf)]
      exact hd
  empty := by
    intro g d hd hnot
    rw [List.map_append, List.mem_append, not_or] at hnot
    rcases getElem?_set_cases hd with ⟨rfl, rfl⟩ | ⟨_, hold⟩
    · exact absurd (List.mem_singleton.mpr rfl) hnot.2
    · exact h.empty g d hold hnot.1
  answered := by
    intro g d v' hd hv
    rcases getElem?_set_cases hd with ⟨rfl, rfl⟩ | ⟨_, hold⟩
    · rcases hv with hv | hv
      · obtain rfl : v' = v := by simpa using hv
        exact List.mem_append_right _ (List.mem_singleton.mpr rfl)
      · exact List.mem_append_left _ (h.answered g c v' hcall (Or.inr hv))
    · exact List.mem_append_left _ (h.answered g d v' hold hv)
  returned := by
    intro g d hd hret
    rcases getElem?_set_cases hd with ⟨rfl, rfl⟩ | ⟨_, hold⟩
    · obtain ⟨hack, hall⟩ := h.returned g c hcall hret
      exact ⟨List.mem_append_left _ hack, hall⟩
    · obtain ⟨hack, hall⟩ := h.returned g d hold hret
      exact ⟨List.mem_append_left _ hack, hall⟩

/-- **A call that was told nil and then finds no batch counted** leaves none of
its messages unresolved. -/
theorem Books.all_resolved (h : Books s) {f : Nat} {c : FlushCall}
    (hcall : s.flushes[f]? = some c) (hack : (f, none) ∈ s.hist.acked)
    (hzero : s.budget.batchesUsed = 0) : s.AllResolved c.begun := by
  obtain ⟨a, n, hasked, hcleared, _⟩ := h.barrier.acked f hack
  have hbegun : s.ledger.begun[f]? = some c.begun := by
    show (s.flushes.map FlushCall.begun)[f]? = some c.begun
    rw [List.getElem?_map, hcall]
    rfl
  obtain rfl : c.begun = n := Option.some.inj (hbegun.symm.trans hasked.begun)
  intro m hm
  rcases hcleared m hm with hres | ⟨b, hb, hmb⟩
  · exact hres
  · obtain ⟨pr, _, rfl, hall⟩ := h.drained hzero hb
    refine ⟨pr.err, hall m.watcher ?_⟩
    rw [pr.batch.watchers_eq]
    exact List.mem_map_of_mem hmb

/-- A flush call goes on with what it was told. -/
theorem FlushCalls.flushStep (h : FlushCalls s) (hb : Books s) (hs : FlushStep s l t) :
    FlushCalls t := by
  cases hs with
  | begin => exact h.begin
  | @ctxDone f c text hcall hctx =>
      exact h.moves _ hcall id id (fun _ => id) (h.returned f c hcall)
  | requestDone hcall hphase hdone =>
      exact h.moves _ hcall (by simp) id (fun _ => FlushCall.has_of_at (by simp) (by simp))
        (by simp)
  | requestCtx hcall hphase hctx =>
      exact h.moves _ hcall (by simp) id (fun _ => FlushCall.has_of_at (by simp) (by simp))
        (by simp)
  | @receiveAck f c v rest hcall hphase hresult =>
      refine h.moves _ hcall (by simp) (by simp [hresult]) ?_ (by simp)
      intro v' hv'
      refine Or.inl ?_
      rw [hresult]
      rcases hv' with hv' | hv' | ⟨ch, hv'⟩
      · exact List.mem_cons_of_mem v hv'
      · obtain rfl : v = v' := by simpa using hv'
        exact List.mem_cons_self
      · cases hv'
  | awaitDone hcall hphase hdone =>
      exact h.moves _ hcall (by simp) id (fun _ => FlushCall.has_of_at (by simp) (by simp))
        (by simp)
  | awaitCtx hcall hphase hctx =>
      exact h.moves _ hcall (by simp) id (fun _ => FlushCall.has_of_at (by simp) (by simp))
        (by simp)
  | @drained f c v b hcall hphase hgrant =>
      obtain ⟨hzero, rfl⟩ := ProducerBudget.waitDrained_granted hgrant
      refine h.moves _ hcall (by simp) id (fun _ => FlushCall.has_of_at (by simp) (by simp)) ?_
      intro hret
      obtain rfl : v = none := by simpa using hret
      have hack := h.answered f c none hcall (Or.inr (Or.inl hphase))
      exact ⟨hack, (hb.all_resolved hcall hack hzero : s.AllResolved c.begun)⟩
  | @park f ch c v b hcall hphase hwait =>
      have hmoved := h.moves (c.at (.parked v ch)) hcall (by simp) id ?_ (by simp)
      · exact { hmoved with }
      · rintro v' (hv' | hv' | ⟨ch', hv'⟩)
        · exact Or.inl hv'
        · cases hv'
        · obtain ⟨rfl, _⟩ : v = v' ∧ ch = ch' := by simpa using hv'
          exact Or.inr (Or.inl hphase)
  | @wake f ch c v hcall hphase hclosed =>
      refine h.moves _ hcall (by simp) id ?_ (by simp)
      rintro v' (hv' | hv' | ⟨ch', hv'⟩)
      · exact Or.inl hv'
      · obtain rfl : v = v' := by simpa using hv'
        exact Or.inr (Or.inr ⟨ch, hphase⟩)
      · cases hv'
  | parkedCtx hcall hphase hctx =>
      exact h.moves _ hcall (by simp) id (fun _ => FlushCall.has_of_at (by simp) (by simp))
        (by simp)
  | parkedShutdown hcall hphase hshutdown =>
      exact h.moves _ hcall (by simp) id (fun _ => FlushCall.has_of_at (by simp) (by simp))
        (by simp)

/-- **Step rule for the flush calls.** -/
theorem FlushCalls.step (h : FlushCalls s) (hb : Books s) (hs : ProducerStep p s l t) :
    FlushCalls t := by
  have hg := hb.grows hs
  cases hs with
  | append _ hs => cases hs <;> exact h.of_same hb hg rfl rfl rfl
  | flush _ hs => exact h.flushStep hb hs
  | close _ hs =>
      cases hs with
      | begin hphase => exact { h.begin with }
      | _ => exact h.of_same hb hg rfl rfl rfl
  | rotator _ hs =>
      cases hs with
      | takeFlush hphase hcall hrequest => exact { h.requested hcall hrequest with }
      | ack hphase hcall hroom => exact { h.acknowledged hcall with }
      | _ => exact h.of_same hb hg rfl rfl rfl
  | encoder _ hs => cases hs <;> exact h.of_same hb hg rfl rfl rfl
  | uploader _ hs => cases hs <;> exact h.of_same hb hg rfl rfl rfl
  | committer _ hs => cases hs <;> exact h.of_same hb hg rfl rfl rfl
  | resolver _ hs =>
      cases hs with
      | ack hphase hack hcall hroom => exact { h.acknowledged hcall with }
      | _ => exact h.of_same hb hg rfl rfl rfl
  | others hs => cases hs <;> exact h.of_same hb hg rfl rfl rfl

theorem flushCalls_newProducer (store : ObjectStore) (items : List EnqueueItem) :
    FlushCalls (newProducer p store items) where
  once := List.nodup_nil
  taken := by simp [newProducer]
  empty := by simp [newProducer]
  answered := by simp [newProducer]
  returned := by simp [newProducer]

/-- **Flush requests are taken once and answered once, in every run.** -/
theorem reachable_flushCalls {allowed : State → Label → Prop} {store : ObjectStore}
    {items : List EnqueueItem} (hrun : RunWhere p allowed (newProducer p store items) s) :
    FlushCalls s := by
  have hboth := hrun.invariant (P := fun x => Books x ∧ FlushCalls x)
    ⟨books_newProducer store items, flushCalls_newProducer store items⟩
    (fun _ _ _ h _ hs => ⟨h.1.step hs, h.2.step h.1 hs⟩)
  exact hboth.2

/-! ## Requests that wait for their answer -/

/-- The requests that were taken and not answered. -/
def Ledger.owedAcks (L : Ledger) : Multiset Nat :=
  optionally L.serving + (optionally L.refusing + (acksOf L.flight + optionally L.ackDue))

/-- A request that waits for its answer has not been answered, so there is room
in its channel. -/
theorem FlushCalls.room (h : FlushCalls s) (hc : Conserved s.ledger) {f : Nat}
    (howed : f ∈ s.ledger.owedAcks) : ∃ c, s.flushes[f]? = some c ∧ c.result = [] := by
  have hacks : ↑(s.hist.acked.map Prod.fst) + s.ledger.owedAcks =
      (↑(s.hist.taken.map Prod.fst) : Multiset Nat) := hc.acks
  have htaken : f ∈ s.hist.taken.map Prod.fst := by
    rw [← Multiset.mem_coe, ← hacks]
    exact Multiset.mem_add.mpr (Or.inr howed)
  have hnodup : (↑(s.hist.acked.map Prod.fst) + s.ledger.owedAcks : Multiset Nat).Nodup := by
    rw [hacks]
    exact Multiset.coe_nodup.mpr h.once
  have hnot : f ∉ s.hist.acked.map Prod.fst := fun hin =>
    Multiset.disjoint_left.mp (Multiset.nodup_add.mp hnodup).2.2 (Multiset.mem_coe.mpr hin) howed
  obtain ⟨c, hcall, _⟩ := h.taken f htaken
  exact ⟨c, hcall, h.empty f c hcall hnot⟩

end OpenDataBuffer
