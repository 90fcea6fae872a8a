import OpenDataBuffer.Ledger

/-!
# The flush barrier on the ledger

A flush call covers the messages that were accepted when it began.  The rotator
takes its request at some later point, when some of them have already left the
accumulator; it then drains the queue, so the rest are in the accumulator when
it emits or finds nothing to emit.

Two things follow for the acknowledgement.  The covered messages are all in
emitted batches, or resolved because their batch was dropped (`Cleared`); and if
the value is nil, those that had not left the accumulator when the request was
taken are resolved with nil (`Flushed`).
-/

namespace OpenDataBuffer

/-- The first `n` accepted messages are resolved or in emitted batches. -/
def Cleared (L : Ledger) (n : Nat) : Prop :=
  ∀ m ∈ L.accepted.take n,
    (∃ e, (m.watcher, e) ∈ L.resolved) ∨ ∃ b ∈ emittedOf L.cuts, m ∈ b.msgs

/-- The first `n` accepted messages, without the first `a`. -/
def window (accepted : List AppendMessage) (a n : Nat) : List AppendMessage :=
  (accepted.take n).drop a

/-- The messages of the window are durable. -/
def Flushed (L : Ledger) (a n : Nat) : Prop :=
  ∀ m ∈ window L.accepted a n, (m.watcher, none) ∈ L.resolved

/-- Flush call `f` covers `n` messages, and its request was taken when `a` had
left the accumulator. -/
structure Asked (L : Ledger) (f a n : Nat) : Prop where
  taken : (f, a) ∈ L.taken
  begun : L.begun[f]? = some n
  covers : n ≤ L.accepted.length

/-- Batch `b` carries what flush call `f` covers and had not left the
accumulator. -/
def Carries (L : Ledger) (b : Batch) (f : Nat) : Prop :=
  ∃ a n, Asked L f a n ∧ Cleared L n ∧ ∀ m ∈ window L.accepted a n, m ∈ b.msgs

/-- What a nil acknowledgement of flush call `f` stands for. -/
def Acknowledged (L : Ledger) (f : Nat) : Prop :=
  ∃ a n, Asked L f a n ∧ Cleared L n ∧ Flushed L a n

/-! ## Growth keeps what was established -/

section Growth

variable {L L' : Ledger} (hg : Grows L L')

include hg

/-- The first accepted messages stay the first. -/
theorem Grows.take_eq {n : Nat} (hn : n ≤ L.accepted.length) :
    L'.accepted.take n = L.accepted.take n := by
  obtain ⟨more, hmore⟩ := hg.accepted
  rw [← hmore, List.take_append_of_le_length hn]

theorem Asked.grow {f a n : Nat} (h : Asked L f a n) : Asked L' f a n := by
  refine ⟨hg.taken.subset h.taken, ?_, h.covers.trans hg.accepted.length_le⟩
  obtain ⟨more, hmore⟩ := hg.begun
  have hlt := (List.getElem?_eq_some_iff.mp h.begun).1
  rw [← hmore, List.getElem?_append_left hlt, h.begun]

theorem Cleared.grow {n : Nat} (hn : n ≤ L.accepted.length) (h : Cleared L n) : Cleared L' n := by
  intro m hm
  rw [hg.take_eq hn] at hm
  rcases h m hm with ⟨e, he⟩ | ⟨b, hb, hmb⟩
  · exact Or.inl ⟨e, hg.resolved.subset he⟩
  · exact Or.inr ⟨b, hg.emitted_subset hb, hmb⟩

theorem Flushed.grow {a n : Nat} (hn : n ≤ L.accepted.length) (h : Flushed L a n) :
    Flushed L' a n := by
  intro m hm
  rw [window, hg.take_eq hn] at hm
  exact hg.resolved.subset (h m hm)

theorem Carries.grow {b : Batch} {f : Nat} (h : Carries L b f) : Carries L' b f := by
  obtain ⟨a, n, hasked, hcleared, hwin⟩ := h
  refine ⟨a, n, hasked.grow hg, hcleared.grow hg hasked.covers, ?_⟩
  rw [window, hg.take_eq hasked.covers]
  exact hwin

theorem Acknowledged.grow {f : Nat} (h : Acknowledged L f) : Acknowledged L' f := by
  obtain ⟨a, n, hasked, hcleared, hflushed⟩ := h
  exact ⟨a, n, hasked.grow hg, hcleared.grow hg hasked.covers, hflushed.grow hg hasked.covers⟩

end Growth

/-! ## The barrier -/

/-- The request the rotator serves: nothing has been cut since it was taken. -/
structure Serves (L : Ledger) (f : Nat) : Prop where
  settled : L.dropLeft = []
  asked : ∃ n, Asked L f (cutLength L.cuts) n ∧
    (L.drained = true → n ≤ cutLength L.cuts + L.opened.length)

/-- What every flush request is good for, on its way through the ledger. -/
structure Barrier (L : Ledger) : Prop where
  begun_le : ∀ n ∈ L.begun, n ≤ L.accepted.length
  serving : ∀ f, L.serving = some f → Serves L f
  emitted : ∀ b ∈ emittedOf L.cuts, ∀ f, b.flushAck = some f → Carries L b f
  due : ∀ f, L.ackDue = some f →
    ∃ pr ∈ L.handed, L.settling = some pr ∧ pr.batch.flushAck = some f
  acked : ∀ f, (f, none) ∈ L.acked → Acknowledged L f

section Window

variable {L : Ledger}

/-- The messages that are not in the queue. -/
theorem Conserved.mem_take (h : Conserved L) {n : Nat} {m : AppendMessage}
    (hn : n ≤ cutLength L.cuts + L.opened.length) (hm : m ∈ L.accepted.take n) :
    (∃ cut ∈ L.cuts, m ∈ cut.msgs) ∨ m ∈ L.opened := by
  have hlen : n ≤ (L.cuts.flatMap Cut.msgs ++ L.opened).length := by
    rw [List.length_append]
    exact hn
  rw [h.partition, ← List.append_assoc, List.take_append_of_le_length hlen] at hm
  rcases List.mem_append.mp (List.mem_of_mem_take hm) with hcut | hopened
  · exact Or.inl (List.mem_flatMap.mp hcut)
  · exact Or.inr hopened

/-- The messages behind the cuts that are not in the queue are in the
accumulator. -/
theorem Conserved.window_opened (h : Conserved L) {n : Nat} {m : AppendMessage}
    (hn : n ≤ cutLength L.cuts + L.opened.length)
    (hm : m ∈ window L.accepted (cutLength L.cuts) n) : m ∈ L.opened := by
  have hdrop : L.accepted.drop (cutLength L.cuts) = L.opened ++ L.queue := by
    rw [h.partition, cutLength, List.drop_left]
  have hlen : n - cutLength L.cuts ≤ L.opened.length := by omega
  rw [window, List.drop_take, hdrop, List.take_append_of_le_length hlen] at hm
  exact List.mem_of_mem_take hm

/-- Cut messages are resolved or in emitted batches, once no drop is half
done. -/
theorem Conserved.cut_cleared (h : Conserved L) (hdrop : L.dropLeft = []) {m : AppendMessage}
    {cut : Cut} (hcut : cut ∈ L.cuts) (hm : m ∈ cut.msgs) :
    (∃ e, (m.watcher, e) ∈ L.resolved) ∨ ∃ b ∈ emittedOf L.cuts, m ∈ b.msgs := by
  cases cut with
  | emitted b => exact Or.inr ⟨b, mem_emittedOf.mpr hcut, hm⟩
  | dropped msgs =>
      rcases h.dropped_resolved (mem_droppedOf.mpr hcut) hm with hres | hleft
      · exact Or.inl ⟨_, hres⟩
      · simp [hdrop] at hleft

end Window

section Step

variable {L L' : Ledger}

/-- The rotator keeps serving a request while messages come in. -/
theorem Serves.grow {f : Nat} (h : Serves L f) (hg : Grows L L') (hcuts : L'.cuts = L.cuts)
    (hdrop : L'.dropLeft = L.dropLeft) (hdrained : L'.drained = L.drained)
    (hopened : L.opened.length ≤ L'.opened.length) : Serves L' f := by
  obtain ⟨hsettled, n, hasked, hn⟩ := h
  refine ⟨hdrop.trans hsettled, n, ?_, ?_⟩
  · rw [hcuts]
    exact hasked.grow hg
  · intro hd
    have := hn (hdrained.symm.trans hd)
    rw [hcuts]
    omega

/-- A step that leaves the batches and the acknowledgements alone. -/
theorem Barrier.of_grows (h : Barrier L) (hg : Grows L L') (hcuts : L'.cuts = L.cuts)
    (hbegun : ∀ n ∈ L'.begun, n ≤ L'.accepted.length)
    (hserving : ∀ f, L'.serving = some f → Serves L' f)
    (hdue : L'.ackDue = L.ackDue) (hsettling : L'.settling = L.settling)
    (hacked : L'.acked = L.acked) : Barrier L' where
  begun_le := hbegun
  serving := hserving
  emitted := fun b hb f hf => (h.emitted b (hcuts ▸ hb) f hf).grow hg
  due := by
    intro f hf
    obtain ⟨pr, hpr, hset, hack⟩ := h.due f (hdue ▸ hf)
    exact ⟨pr, hg.handed.subset hpr, hsettling.trans hset, hack⟩
  acked := fun f hf => (h.acked f (hacked ▸ hf)).grow hg

/-- All messages that a drained request covers have left the queue. -/
theorem Barrier.covered (h : Barrier L) (hc : Conserved L) {f : Nat}
    (hserving : L.serving = some f) (hdrained : L.drained = true) :
    ∃ n, Asked L f (cutLength L.cuts) n ∧
      (∀ m ∈ L.accepted.take n, ((∃ e, (m.watcher, e) ∈ L.resolved) ∨
        ∃ b ∈ emittedOf L.cuts, m ∈ b.msgs) ∨ m ∈ L.opened) ∧
      ∀ m ∈ window L.accepted (cutLength L.cuts) n, m ∈ L.opened := by
  obtain ⟨hdrop, n, hasked, hn⟩ := h.serving f hserving
  refine ⟨n, hasked, ?_, fun m hm => hc.window_opened (hn hdrained) hm⟩
  intro m hm
  rcases hc.mem_take (hn hdrained) hm with ⟨cut, hcut, hin⟩ | hopened
  · exact Or.inl (hc.cut_cleared hdrop hcut hin)
  · exact Or.inr hopened

/-- The batch emitted for a request carries what the request is about. -/
theorem Barrier.carries (h : Barrier L) (hc : Conserved L) (hg : Grows L L') {b : Batch} {f : Nat}
    (hcuts : L'.cuts = L.cuts ++ [.emitted b]) (hmsgs : b.msgs = L.opened)
    (hserving : L.serving = some f) (hdrained : L.drained = true) : Carries L' b f := by
  obtain ⟨n, hasked, hall, hwin⟩ := h.covered hc hserving hdrained
  have htake := hg.take_eq hasked.covers
  refine ⟨cutLength L.cuts, n, hasked.grow hg, ?_, ?_⟩
  · intro m hm
    rw [htake] at hm
    rcases hall m hm with (⟨e, he⟩ | ⟨b', hb', hm'⟩) | hopened
    · exact Or.inl ⟨e, hg.resolved.subset he⟩
    · exact Or.inr ⟨b', hg.emitted_subset hb', hm'⟩
    · refine Or.inr ⟨b, ?_, hmsgs ▸ hopened⟩
      rw [hcuts, emittedOf_emitted]
      exact List.mem_append_right _ (List.mem_singleton.mpr rfl)
  · intro m hm
    rw [window, htake] at hm
    exact hmsgs ▸ hwin m hm

/-- An empty accumulator leaves nothing to wait for but emitted batches. -/
theorem Barrier.acknowledged_empty (h : Barrier L) (hc : Conserved L) {f : Nat}
    (hserving : L.serving = some f) (hdrained : L.drained = true) (hopened : L.opened = []) :
    Acknowledged L f := by
  obtain ⟨n, hasked, hall, hwin⟩ := h.covered hc hserving hdrained
  rw [hopened] at hall hwin
  refine ⟨cutLength L.cuts, n, hasked, ?_, fun m hm => absurd (hwin m hm) List.not_mem_nil⟩
  intro m hm
  exact (hall m hm).resolve_right List.not_mem_nil

/-- A batch that is committed and resolved makes its messages durable. -/
theorem Barrier.acknowledged_batch (h : Barrier L) (hc : Conserved L) {f : Nat}
    {pr : PendingResolution} (hsettling : L.settling = some pr) (hleft : L.left = [])
    (hdue : L.ackDue = some f) (herr : pr.err = none) : Acknowledged L f := by
  obtain ⟨pr', hpr, hset, hack⟩ := h.due f hdue
  obtain rfl : pr' = pr := Option.some.inj (hset.symm.trans hsettling)
  obtain ⟨a, n, hasked, hcleared, hwin⟩ := h.emitted _ (hc.handed_emitted hpr) f hack
  refine ⟨a, n, hasked, hcleared, ?_⟩
  intro m hm
  have hw : m.watcher ∈ pr'.batch.watchers := by
    rw [pr'.batch.watchers_eq]
    exact List.mem_map_of_mem (hwin m hm)
  rcases hc.handed_resolved hpr hw with hres | hin
  · exact herr ▸ hres
  · simp [hleft] at hin

/-- **Step rule of the barrier.** -/
theorem Barrier.step (h : Barrier L) (hc : Conserved L) (hs : LedgerStep L L') : Barrier L' := by
  have hg := hs.grows
  have hbegun : ∀ n ∈ L.begun, n ≤ L'.accepted.length :=
    fun n hn => (h.begun_le n hn).trans hg.accepted.length_le
  have hacks : ∀ f, (f, none) ∈ L.acked → Acknowledged L' f := fun f hf => (h.acked f hf).grow hg
  cases hs with
  | reserve m hgrant =>
      exact h.of_grows hg rfl hbegun (fun f hf => (h.serving f hf).grow hg rfl rfl rfl le_rfl)
        rfl rfl rfl
  | cancel hheld =>
      exact h.of_grows hg rfl hbegun (fun f hf => (h.serving f hf).grow hg rfl rfl rfl le_rfl)
        rfl rfl rfl
  | accept hheld =>
      exact h.of_grows hg rfl hbegun (fun f hf => (h.serving f hf).grow hg rfl rfl rfl le_rfl)
        rfl rfl rfl
  | take hqueue =>
      exact h.of_grows hg rfl hbegun
        (fun f hf => (h.serving f hf).grow hg rfl rfl rfl (by simp)) rfl rfl rfl
  | handoff hheld hqueue =>
      exact h.of_grows hg rfl hbegun
        (fun f hf => (h.serving f hf).grow hg rfl rfl rfl (by simp)) rfl rfl rfl
  | begin =>
      refine h.of_grows hg rfl ?_ (fun f hf => (h.serving f hf).grow hg rfl rfl rfl le_rfl)
        rfl rfl rfl
      intro n hn
      rcases List.mem_append.mp hn with hold | hnew
      · exact hbegun n hold
      · exact (List.mem_singleton.mp hnew).le
  | request f hserving hlt hdrop =>
      refine h.of_grows hg rfl hbegun ?_ rfl rfl rfl
      intro f' hf'
      obtain rfl : f = f' := Option.some.inj hf'
      refine ⟨hdrop, L.begun[f], ⟨?_, List.getElem?_eq_getElem hlt, ?_⟩, ?_⟩
      · exact List.mem_append_right _ (List.mem_singleton.mpr rfl)
      · exact h.begun_le _ (List.getElem_mem hlt)
      · intro hfalse
        cases hfalse
  | drain hqueue =>
      refine h.of_grows hg rfl hbegun ?_ rfl rfl rfl
      intro f hf
      obtain ⟨hdrop, n, hasked, _⟩ := h.serving f hf
      refine ⟨hdrop, n, hasked.grow hg, fun _ => ?_⟩
      have hlen := congrArg List.length hc.partition
      have hcovers := hasked.covers
      simp only [List.length_append, hqueue, List.length_nil] at hlen
      show n ≤ cutLength L.cuts + L.opened.length
      rw [cutLength]
      omega
  | acquire hroom hslot =>
      exact h.of_grows hg rfl hbegun (fun f hf => (h.serving f hf).grow hg rfl rfl rfl le_rfl)
        rfl rfl rfl
  | emit b hslot hmsgs hack hordinal hdrained hdrop =>
      refine ⟨hbegun, ?_, ?_, h.due, hacks⟩
      · intro f hf
        cases hf
      · intro b' hb' f hf
        simp only [emittedOf_emitted] at hb'
        rcases List.mem_append.mp hb' with hold | hnew
        · exact (h.emitted b' hold f hf).grow hg
        · obtain rfl := List.mem_singleton.mp hnew
          exact h.carries hc hg rfl hmsgs (hack.symm.trans hf) hdrained
  | drop hslot hdrop hrefusing =>
      refine ⟨hbegun, ?_, ?_, h.due, hacks⟩
      · intro f hf
        cases hf
      · intro b hb f hf
        simp only [emittedOf_dropped] at hb
        exact (h.emitted b hb f hf).grow hg
  | dropResolve hdrop =>
      refine h.of_grows hg rfl hbegun ?_ rfl rfl rfl
      intro f hf
      have hnone := (h.serving f hf).settled
      simp [hnone] at hdrop
  | @ackEmpty f hserving hopened hdrained hdrop =>
      refine ⟨hbegun, ?_, fun b hb f hf => (h.emitted b hb f hf).grow hg, h.due, ?_⟩
      · intro f' hf'
        cases hf'
      · intro f' hf'
        rcases List.mem_append.mp hf' with hold | hnew
        · exact hacks f' hold
        · obtain rfl : f' = f := congrArg Prod.fst (List.mem_singleton.mp hnew)
          exact (h.acknowledged_empty hc hserving hdrained hopened).grow hg
  | ackDropped hrefusing =>
      refine ⟨hbegun, fun f hf => (h.serving f hf).grow hg rfl rfl rfl le_rfl,
        fun b hb f hf => (h.emitted b hb f hf).grow hg, h.due, ?_⟩
      intro f' hf'
      rcases List.mem_append.mp hf' with hold | hnew
      · exact hacks f' hold
      · simp at hnew
  | @hand pr rest hflight hsettling =>
      refine ⟨hbegun, fun f hf => (h.serving f hf).grow hg rfl rfl rfl le_rfl,
        fun b hb f hf => (h.emitted b hb f hf).grow hg, ?_, hacks⟩
      intro f hf
      exact ⟨pr, List.mem_append_right _ (List.mem_singleton.mpr rfl), rfl, hf⟩
  | resolve hsettling hleft =>
      exact h.of_grows hg rfl hbegun (fun f hf => (h.serving f hf).grow hg rfl rfl rfl le_rfl)
        rfl rfl rfl
  | @ack pr f hsettling hleft hdue =>
      refine ⟨hbegun, fun f hf => (h.serving f hf).grow hg rfl rfl rfl le_rfl,
        fun b hb f hf => (h.emitted b hb f hf).grow hg, ?_, ?_⟩
      · intro f' hf'
        cases hf'
      · intro f' hf'
        rcases List.mem_append.mp hf' with hold | hnew
        · exact hacks f' hold
        · obtain ⟨rfl, herr⟩ := Prod.mk.inj (List.mem_singleton.mp hnew)
          exact (h.acknowledged_batch hc hsettling hleft hdue herr.symm).grow hg
  | release hsettling hleft hdue =>
      refine ⟨hbegun, fun f hf => (h.serving f hf).grow hg rfl rfl rfl le_rfl,
        fun b hb f hf => (h.emitted b hb f hf).grow hg, ?_, hacks⟩
      intro f hf
      simp [hdue] at hf

end Step

end OpenDataBuffer
