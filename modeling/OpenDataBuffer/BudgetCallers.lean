import OpenDataBuffer.Budget
import OpenDataBuffer.LabelledRuns

/-!
# The budget and its callers

Here the budget stands alone with those who use it: any number of callers of its
waiting methods, and anyone who releases or charges.  A caller takes the lock,
gets what it asks for or is given a channel, and waits on that channel with the
lock released; it may also leave because its context is done or the producer
shuts down.  One step is one region under the lock, or one move of a caller at
its `select`.

`Wakeful` is what every reachable state keeps.  A channel is made once and closed
once (`ProducerBudget.Channels`), and a caller whose channel is open has that
channel as the current one and still cannot be served (`BudgetRequest.Blocked`):
every method that lowers a counter also closes the channel that waits for it
(`ProducerBudget.Keeps`).

The producer is one system of this kind; that is shown of its own model.
-/

namespace OpenDataBuffer

open ProducerBudget LabelledRuns

/-! ## Callers -/

/-- A call of a waiting method: `reserveBytes` for `n` bytes, `acquireBatchSlot`
or `waitDrained`. -/
inductive BudgetRequest
  | bytes (n : Nat)
  | slot
  | drained

/-- One region of the method under the lock. -/
def BudgetRequest.region (b : ProducerBudget) : BudgetRequest → LockRegion
  | .bytes n => b.reserveBytes n
  | .slot => b.acquireBatchSlot
  | .drained => b.waitDrained

/-- Where a caller stands: elsewhere, before the lock, or at the `select`. -/
inductive CallerPhase
  | idle
  | calling (request : BudgetRequest)
  | parked (request : BudgetRequest) (ch : Nat)

structure Callers (ι : Type) where
  budget : ProducerBudget
  caller : ι → CallerPhase

variable {ι : Type} [DecidableEq ι]

/-- The callers with one of them somewhere else. -/
def Callers.at (s : Callers ι) (i : ι) (phase : CallerPhase) : Callers ι :=
  { s with caller := Function.update s.caller i phase }

/-- One step; the label says which caller moves, if one does. -/
inductive CallersStep (s : Callers ι) : Option ι → Callers ι → Prop
  | call {i : ι} (request : BudgetRequest) (hcaller : s.caller i = .idle) :
      CallersStep s (some i) (s.at i (.calling request))
  | granted {i : ι} {request : BudgetRequest} {b : ProducerBudget}
      (hcaller : s.caller i = .calling request) (hregion : request.region s.budget = .granted b) :
      CallersStep s (some i) { s.at i .idle with budget := b }
  | waits {i : ι} {request : BudgetRequest} {b : ProducerBudget} {ch : Nat}
      (hcaller : s.caller i = .calling request) (hregion : request.region s.budget = .wait b ch) :
      CallersStep s (some i) { s.at i (.parked request ch) with budget := b }
  | wakes {i : ι} {request : BudgetRequest} {ch : Nat}
      (hcaller : s.caller i = .parked request ch) (hclosed : ch ∈ s.budget.closed) :
      CallersStep s (some i) (s.at i (.calling request))
  /-- The context is done, or the producer shuts down. -/
  | leaves {i : ι} {request : BudgetRequest} {ch : Nat}
      (hcaller : s.caller i = .parked request ch) : CallersStep s (some i) (s.at i .idle)
  | release (bytes batches : Int) :
      CallersStep s none { s with budget := s.budget.release bytes batches }
  | charge (extra : Int) : CallersStep s none { s with budget := s.budget.addReservation extra }

/-- The runs of the budget and its callers, in any interleaving. -/
abbrev CallersRun (s t : Callers ι) : Prop := Reach CallersStep (fun _ _ => True) s t

/-- A new budget, before the first call. -/
def Callers.new (maxBytes maxBatches : Int) : Callers ι where
  budget := newProducerBudget maxBytes maxBatches
  caller := fun _ => .idle

namespace ProducerBudget

variable {b b' : ProducerBudget}

/-! ## One region under the lock -/

/-- One region of one of the budget's methods. -/
inductive Move (b : ProducerBudget) : ProducerBudget → Prop
  | same : Move b b
  | reserve {n : Int} {b' : ProducerBudget} (hn : 0 ≤ n) (h : b.reserveBytes n = .granted b') :
      Move b b'
  | reserveWaits {n : Int} {b' : ProducerBudget} {ch : Nat} (h : b.reserveBytes n = .wait b' ch) :
      Move b b'
  | acquire {b' : ProducerBudget} (h : b.acquireBatchSlot = .granted b') : Move b b'
  | acquireWaits {b' : ProducerBudget} {ch : Nat} (h : b.acquireBatchSlot = .wait b' ch) : Move b b'
  | drainWaits {b' : ProducerBudget} {ch : Nat} (h : b.waitDrained = .wait b' ch) : Move b b'
  | release (bytes batches : Int) : Move b (b.release bytes batches)
  | charge (extra : Int) : Move b (b.addReservation extra)

/-- What a region keeps for those who wait: a channel stays what it is, with a
counter that has not gone down, or is closed. -/
structure Keeps (b b' : ProducerBudget) : Prop where
  closed : ∀ ch ∈ b.closed, ch ∈ b'.closed
  waiter : ∀ ch, b.waiter = some ch → ch ∈ b'.closed ∨
    b'.waiter = some ch ∧ b.bytesUsed ≤ b'.bytesUsed ∧ b.batchesUsed ≤ b'.batchesUsed
  drain : ∀ ch, b.drainCh = some ch → 0 < b.batchesUsed → ch ∈ b'.closed ∨
    b'.drainCh = some ch ∧ 0 < b'.batchesUsed
  cap : b'.maxBatches = b.maxBatches

/-- The channel that is handed out is the current one. -/
theorem ensureWaiterLocked_waiter (b : ProducerBudget) :
    b.ensureWaiterLocked.1.waiter = some b.ensureWaiterLocked.2 := by
  unfold ensureWaiterLocked
  split
  · assumption
  · rfl

/-- Handing out a channel does not hurt those who wait already. -/
theorem keeps_ensureWaiterLocked (b : ProducerBudget) : Keeps b b.ensureWaiterLocked.1 := by
  unfold ensureWaiterLocked
  split
  · exact ⟨fun _ h => h, fun _ h => Or.inr ⟨h, le_rfl, le_rfl⟩, fun _ h hpos => Or.inr ⟨h, hpos⟩,
      rfl⟩
  · rename_i hnone
    refine ⟨fun _ h => h, fun ch h => ?_, fun _ h hpos => Or.inr ⟨h, hpos⟩, rfl⟩
    rw [hnone] at h
    cases h

/-- Closing the waiter channel: whoever waits on it can go on. -/
theorem wakeWaiter_cases (b : ProducerBudget) :
    (∀ ch ∈ b.closed, ch ∈ b.wakeWaiter.closed) ∧
      (∀ ch, b.waiter = some ch → ch ∈ b.wakeWaiter.closed) ∧
      b.wakeWaiter.drainCh = b.drainCh := by
  unfold wakeWaiter
  split
  · rename_i hnone
    refine ⟨fun _ h => h, fun ch h => ?_, rfl⟩
    rw [hnone] at h
    cases h
  · rename_i ch hsome
    refine ⟨fun _ h => List.mem_cons_of_mem _ h, fun ch' h => ?_, rfl⟩
    rw [hsome] at h
    cases h
    exact List.mem_cons_self

/-- Closing the drain channel, if no batch is left. -/
theorem wakeDrained_cases (b : ProducerBudget) :
    (∀ ch ∈ b.closed, ch ∈ b.wakeDrained.closed) ∧
      ∀ ch, b.drainCh = some ch → ch ∈ b.wakeDrained.closed ∨
        b.wakeDrained.drainCh = some ch ∧ b.batchesUsed ≠ 0 := by
  unfold wakeDrained
  split
  · rename_i hnone
    refine ⟨fun _ h => h, fun ch h => ?_⟩
    rw [hnone] at h
    cases h
  · rename_i ch hsome
    split
    · refine ⟨fun _ h => List.mem_cons_of_mem _ h, fun ch' h => ?_⟩
      rw [hsome] at h
      cases h
      exact Or.inl List.mem_cons_self
    · rename_i hne
      exact ⟨fun _ h => h, fun ch' h => Or.inr ⟨h, hne⟩⟩

/-- Giving something back closes the waiter channel, and the drain channel with the last
batch. -/
theorem keeps_release (b : ProducerBudget) (bytes batches : Int) :
    Keeps b (b.release bytes batches) := by
  have hbatches := release_batchesUsed b bytes batches
  have hcap := release_maxBatches b bytes batches
  revert hbatches hcap
  unfold release
  set b₀ : ProducerBudget := { b with
    bytesUsed := clampZero (b.bytesUsed - bytes)
    batchesUsed := clampZero (b.batchesUsed - batches) } with hb₀
  intro hbatches hcap
  obtain ⟨hclosed, hwaiter, hdrain⟩ := wakeWaiter_cases b₀
  obtain ⟨hclosed', hdrain'⟩ := wakeDrained_cases b₀.wakeWaiter
  refine ⟨fun ch h => hclosed' ch (hclosed ch h), fun ch h => Or.inl (hclosed' ch (hwaiter ch h)),
    fun ch h _ => ?_, hcap⟩
  rcases hdrain' ch (hdrain.trans h) with hdone | ⟨hsame, hne⟩
  · exact Or.inl hdone
  · refine Or.inr ⟨hsame, ?_⟩
    have hnonneg : 0 ≤ clampZero (b.batchesUsed - batches) := by unfold clampZero; omega
    rw [(sameCounters_wakeWaiter b₀).batches] at hne
    have hne' : clampZero (b.batchesUsed - batches) ≠ 0 := hne
    omega

/-- A charge closes the waiter channel too, although it frees nothing. -/
theorem keeps_addReservation (b : ProducerBudget) (extra : Int) :
    Keeps b (b.addReservation extra) := by
  obtain ⟨hclosed, hwaiter, hdrain⟩ :=
    wakeWaiter_cases { b with bytesUsed := clampZero (b.bytesUsed + extra) }
  refine ⟨hclosed, fun ch h => Or.inl (hwaiter ch h), fun ch h hpos => Or.inr ⟨?_, ?_⟩,
    addReservation_maxBatches b extra⟩
  · exact hdrain.trans h
  · rw [addReservation_batchesUsed]
    exact hpos

/-- **Whoever waits is not forgotten.** -/
theorem Move.keeps (h : Move b b') : Keeps b b' := by
  cases h with
  | same => exact ⟨fun _ h => h, fun _ h => Or.inr ⟨h, le_rfl, le_rfl⟩,
      fun _ h hpos => Or.inr ⟨h, hpos⟩, rfl⟩
  | reserve hn hgrant =>
      obtain ⟨_, rfl⟩ := reserveBytes_granted hgrant
      exact ⟨fun _ h => h, fun _ h => Or.inr ⟨h, by simpa using hn, le_rfl⟩,
        fun _ h hpos => Or.inr ⟨h, hpos⟩, rfl⟩
  | reserveWaits hwait =>
      obtain ⟨_, _, rfl, _⟩ := reserveBytes_wait hwait
      exact keeps_ensureWaiterLocked b
  | acquire hgrant =>
      obtain ⟨_, rfl⟩ := acquireBatchSlot_granted hgrant
      refine ⟨fun _ h => h, fun _ h => Or.inr ⟨h, le_rfl, ?_⟩, fun _ h hpos => Or.inr ⟨h, ?_⟩, rfl⟩
      · show b.batchesUsed ≤ b.batchesUsed + 1
        omega
      · show 0 < b.batchesUsed + 1
        omega
  | acquireWaits hwait =>
      obtain ⟨_, rfl, _⟩ := acquireBatchSlot_wait hwait
      exact keeps_ensureWaiterLocked b
  | drainWaits hwait =>
      obtain ⟨_, hsame, hnow, hwaiter, hclosed, hcases⟩ := waitDrained_wait hwait
      refine ⟨fun ch h => hclosed ▸ h, fun ch h => Or.inr ⟨hwaiter.trans h, hsame.bytes.ge,
        hsame.batches.ge⟩, fun ch h hpos => Or.inr ⟨?_, hsame.batches.symm ▸ hpos⟩,
        hsame.maxBatches⟩
      rcases hcases with ⟨hold, _⟩ | ⟨hnone, _⟩
      · rw [hnow, ← hold, h]
      · rw [hnone] at h
        cases h
  | release bytes batches => exact keeps_release b bytes batches
  | charge extra => exact keeps_addReservation b extra

/-! ## Channels -/

/-- Channels are numbered in the order they are made; the current ones are open
and different, and no channel is closed twice. -/
structure Channels (b : ProducerBudget) : Prop where
  made : ∀ ch ∈ b.closed, ch < b.made
  waiter : ∀ ch, b.waiter = some ch → ch < b.made ∧ ch ∉ b.closed
  drain : ∀ ch, b.drainCh = some ch → ch < b.made ∧ ch ∉ b.closed
  different : ∀ ch, b.waiter = some ch → b.drainCh ≠ some ch
  once : b.closed.Nodup

/-- Channels do not depend on the counters. -/
theorem Channels.of_counters (h : Channels b) (bytes batches : Int) :
    Channels { b with bytesUsed := bytes, batchesUsed := batches } := { h with }

/-- A waiter channel that is made is a new one. -/
theorem Channels.ensureWaiter (h : Channels b) : Channels b.ensureWaiterLocked.1 := by
  unfold ensureWaiterLocked
  cases hwaiter : b.waiter with
  | some ch => exact h
  | none =>
      -- the new channel has a number that no channel had
      refine ⟨fun ch hch => Nat.lt_succ_of_lt (h.made ch hch), ?_, ?_, ?_, h.once⟩
      · intro ch hch
        cases hch
        exact ⟨Nat.lt_succ_self _, fun hclosed => absurd (h.made _ hclosed) (Nat.lt_irrefl _)⟩
      · intro ch hch
        exact ⟨Nat.lt_succ_of_lt (h.drain ch hch).1, (h.drain ch hch).2⟩
      · intro ch hch hdrain
        cases hch
        exact absurd (h.drain _ hdrain).1 (Nat.lt_irrefl _)

/-- A channel that was made may be closed. -/
theorem Channels.made_close (h : Channels b) {ch : Nat} (hmade : ch < b.made) :
    ∀ old ∈ ch :: b.closed, old < b.made := by
  intro old hold
  rcases List.mem_cons.mp hold with rfl | hold
  · exact hmade
  · exact h.made old hold

/-- The waiter channel is closed once, and forgotten with that. -/
theorem Channels.wakeWaiter (h : Channels b) : Channels b.wakeWaiter := by
  unfold ProducerBudget.wakeWaiter
  cases hwaiter : b.waiter with
  | none => exact h
  | some ch =>
      obtain ⟨hmade, hopen⟩ := h.waiter ch hwaiter
      refine ⟨h.made_close hmade, nofun, ?_, nofun, List.nodup_cons.mpr ⟨hopen, h.once⟩⟩
      intro other hother
      refine ⟨(h.drain other hother).1, fun hclosed => ?_⟩
      rcases List.mem_cons.mp hclosed with rfl | hclosed
      · exact h.different _ hwaiter hother
      · exact (h.drain other hother).2 hclosed

/-- The drain channel is closed once, and forgotten with that. -/
theorem Channels.wakeDrained (h : Channels b) : Channels b.wakeDrained := by
  unfold ProducerBudget.wakeDrained
  cases hdrain : b.drainCh with
  | none => exact h
  | some ch =>
      obtain ⟨hmade, hopen⟩ := h.drain ch hdrain
      by_cases hzero : b.batchesUsed = 0
      · simp only [if_pos hzero]
        refine ⟨h.made_close hmade, ?_, nofun, fun _ _ => nofun,
          List.nodup_cons.mpr ⟨hopen, h.once⟩⟩
        intro other hother
        refine ⟨(h.waiter other hother).1, fun hclosed => ?_⟩
        rcases List.mem_cons.mp hclosed with rfl | hclosed
        · exact h.different _ hother hdrain
        · exact (h.waiter other hother).2 hclosed
      · simp only [if_neg hzero]
        exact h

/-- A drain channel that is made is a new one. -/
theorem Channels.waitDrained (h : Channels b) {ch : Nat} (hwait : b.waitDrained = .wait b' ch) :
    Channels b' := by
  obtain ⟨-, -, hnow, hwaiter, hclosed, hcases⟩ := waitDrained_wait hwait
  rcases hcases with ⟨hold, hmade⟩ | ⟨hnone, rfl, hmade⟩
  · refine ⟨?_, ?_, ?_, ?_, hclosed ▸ h.once⟩
    · rw [hclosed, hmade]
      exact h.made
    · rw [hwaiter, hclosed, hmade]
      exact h.waiter
    · rw [hnow, hclosed, hmade, ← hold]
      exact h.drain
    · rw [hwaiter, hnow, ← hold]
      exact h.different
  · refine ⟨?_, ?_, ?_, ?_, hclosed ▸ h.once⟩
    · rw [hclosed, hmade]
      exact fun ch hch => Nat.lt_succ_of_lt (h.made ch hch)
    · rw [hwaiter, hclosed, hmade]
      exact fun ch hch => ⟨Nat.lt_succ_of_lt (h.waiter ch hch).1, (h.waiter ch hch).2⟩
    · rw [hnow, hclosed, hmade]
      intro ch hch
      cases hch
      exact ⟨Nat.lt_succ_self _, fun hclosed => absurd (h.made _ hclosed) (Nat.lt_irrefl _)⟩
    · rw [hwaiter, hnow]
      intro ch hch hsame
      cases hsame
      exact absurd (h.waiter _ hch).1 (Nat.lt_irrefl _)

/-- **No region closes a channel twice.** -/
theorem Move.channels (hmove : Move b b') (h : Channels b) : Channels b' := by
  cases hmove with
  | same => exact h
  | reserve hn hgrant =>
      obtain ⟨-, rfl⟩ := reserveBytes_granted hgrant
      exact h.of_counters _ _
  | reserveWaits hwait =>
      obtain ⟨-, -, rfl, -⟩ := reserveBytes_wait hwait
      exact h.ensureWaiter
  | acquire hgrant =>
      obtain ⟨-, rfl⟩ := acquireBatchSlot_granted hgrant
      exact h.of_counters _ _
  | acquireWaits hwait =>
      obtain ⟨-, rfl, -⟩ := acquireBatchSlot_wait hwait
      exact h.ensureWaiter
  | drainWaits hwait => exact h.waitDrained hwait
  | release bytes batches => exact (h.of_counters _ _).wakeWaiter.wakeDrained
  | charge extra => exact (h.of_counters _ _).wakeWaiter

/-! ## Counters -/

/-- A region leaves the cap alone and no counter below zero. -/
structure Counts (b b' : ProducerBudget) : Prop where
  maxBytes : b'.maxBytes = b.maxBytes
  bytes : 0 ≤ b.bytesUsed → 0 ≤ b'.bytesUsed
  batches : 0 ≤ b.batchesUsed → 0 ≤ b'.batchesUsed

theorem clampZero_nonneg (x : Int) : 0 ≤ clampZero x := by
  unfold clampZero
  omega

/-- A region that changes no counter leaves none below zero. -/
theorem SameCounters.counts (h : SameCounters b b') : Counts b b' :=
  ⟨h.maxBytes, fun hnonneg => h.bytes ▸ hnonneg, fun hnonneg => h.batches ▸ hnonneg⟩

/-- **No region leaves a counter below zero.** -/
theorem Move.counts (hmove : Move b b') : Counts b b' := by
  cases hmove with
  | same => exact (sameCounters_refl b).counts
  | reserve hn hgrant =>
      obtain ⟨-, rfl⟩ := reserveBytes_granted hgrant
      exact ⟨rfl, fun hnonneg => Int.add_nonneg hnonneg hn, id⟩
  | reserveWaits hwait =>
      obtain ⟨-, -, rfl, -⟩ := reserveBytes_wait hwait
      exact (sameCounters_ensureWaiter b).counts
  | acquire hgrant =>
      obtain ⟨-, rfl⟩ := acquireBatchSlot_granted hgrant
      exact ⟨rfl, id, fun hnonneg => Int.add_nonneg hnonneg (by decide)⟩
  | acquireWaits hwait =>
      obtain ⟨-, rfl, -⟩ := acquireBatchSlot_wait hwait
      exact (sameCounters_ensureWaiter b).counts
  | drainWaits hwait => exact (waitDrained_wait hwait).2.1.counts
  | release bytes batches =>
      refine ⟨release_maxBytes b bytes batches, fun _ => ?_, fun _ => ?_⟩
      · rw [release_bytesUsed]
        exact clampZero_nonneg _
      · rw [release_batchesUsed]
        exact clampZero_nonneg _
  | charge extra =>
      refine ⟨addReservation_maxBytes b extra, fun _ => ?_, fun hnonneg => ?_⟩
      · rw [addReservation_bytesUsed]
        exact clampZero_nonneg _
      · rwa [addReservation_batchesUsed]

end ProducerBudget

/-! ## Nobody waits in vain -/

/-- What holds of a parked caller whose channel is open: the channel is the
current one of its kind, and there is no room for the request. -/
def BudgetRequest.Blocked (b : ProducerBudget) (ch : Nat) : BudgetRequest → Prop
  | .bytes n => 0 < b.bytesUsed ∧ b.maxBytes < b.bytesUsed + n ∧ b.waiter = some ch
  | .slot => b.maxBatches ≤ b.batchesUsed ∧ b.waiter = some ch
  | .drained => 0 < b.batchesUsed ∧ b.drainCh = some ch

/-- The channel is closed, or it is the current one and the request cannot be
granted. -/
def BudgetRequest.Awaits (b : ProducerBudget) (ch : Nat) (request : BudgetRequest) : Prop :=
  ch ∈ b.closed ∨ request.Blocked b ch

/-- A request that is granted is one region. -/
theorem BudgetRequest.move_of_granted {request : BudgetRequest} {b b' : ProducerBudget}
    (h : request.region b = .granted b') : Move b b' := by
  cases request with
  | bytes n => exact .reserve (Int.natCast_nonneg n) h
  | slot => exact .acquire h
  | drained =>
      obtain ⟨-, rfl⟩ := waitDrained_granted h
      exact .same

/-- A request that has to wait is one region. -/
theorem BudgetRequest.move_of_wait {request : BudgetRequest} {b b' : ProducerBudget} {ch : Nat}
    (h : request.region b = .wait b' ch) : Move b b' := by
  cases request with
  | bytes n => exact .reserveWaits h
  | slot => exact .acquireWaits h
  | drained => exact .drainWaits h

/-- A caller that is told to wait has a reason to. -/
theorem BudgetRequest.awaits_of_wait {request : BudgetRequest} {b b' : ProducerBudget} {ch : Nat}
    (hbytes : 0 ≤ b.bytesUsed) (hbatches : 0 ≤ b.batchesUsed)
    (h : request.region b = .wait b' ch) : request.Awaits b' ch := by
  cases request with
  | bytes n =>
      obtain ⟨hne, hfull, rfl, rfl⟩ := reserveBytes_wait h
      refine Or.inr ⟨?_, ?_, ensureWaiterLocked_waiter b⟩
      · rw [(sameCounters_ensureWaiter b).bytes]
        omega
      · rw [(sameCounters_ensureWaiter b).bytes, (sameCounters_ensureWaiter b).maxBytes]
        exact hfull
  | slot =>
      obtain ⟨hfull, rfl, rfl⟩ := acquireBatchSlot_wait h
      refine Or.inr ⟨?_, ensureWaiterLocked_waiter b⟩
      rw [(sameCounters_ensureWaiter b).maxBatches, (sameCounters_ensureWaiter b).batches]
      exact hfull
  | drained =>
      obtain ⟨hne, hsame, hdrain, _⟩ := waitDrained_wait h
      refine Or.inr ⟨?_, hdrain⟩
      rw [hsame.batches]
      omega

/-- A region leaves the reason to wait alone, or closes the channel. -/
theorem BudgetRequest.Blocked.kept {request : BudgetRequest} {b b' : ProducerBudget} {ch : Nat}
    (hmove : Move b b') (h : request.Blocked b ch) : request.Awaits b' ch := by
  have hkeeps := hmove.keeps
  cases request with
  | bytes n =>
      obtain ⟨hpos, hfull, hwaiter⟩ := h
      have hcap := hmove.counts.maxBytes
      refine (hkeeps.waiter ch hwaiter).imp_right fun ⟨hsame, hbytes, _⟩ => ⟨?_, ?_, hsame⟩
      · omega
      · omega
  | slot =>
      obtain ⟨hfull, hwaiter⟩ := h
      have hcap := hkeeps.cap
      refine (hkeeps.waiter ch hwaiter).imp_right fun ⟨hsame, _, hbatches⟩ => ⟨?_, hsame⟩
      omega
  | drained =>
      obtain ⟨hpos, hdrain⟩ := h
      exact (hkeeps.drain ch hdrain hpos).imp_right And.symm

/-- Whoever waits with a reason does so behind every region. -/
theorem BudgetRequest.Awaits.kept {request : BudgetRequest} {b b' : ProducerBudget} {ch : Nat}
    (hmove : Move b b') (h : request.Awaits b ch) : request.Awaits b' ch :=
  h.elim (fun hclosed => Or.inl (hmove.keeps.closed ch hclosed)) (fun hblocked =>
    hblocked.kept hmove)

/-- What every reachable state keeps. -/
structure Wakeful (s : Callers ι) : Prop where
  bytes : 0 ≤ s.budget.bytesUsed
  batches : 0 ≤ s.budget.batchesUsed
  channels : s.budget.Channels
  parked : ∀ i request ch, s.caller i = .parked request ch → request.Awaits s.budget ch

omit [DecidableEq ι] in
theorem wakeful_new (maxBytes maxBatches : Int) :
    Wakeful (Callers.new maxBytes maxBatches : Callers ι) where
  bytes := Int.le_refl 0
  batches := Int.le_refl 0
  channels := ⟨nofun, nofun, nofun, nofun, List.nodup_nil⟩
  parked := nofun

/-- A region of the budget under which one caller moves. -/
theorem Wakeful.region {s : Callers ι} (h : Wakeful s) {b : ProducerBudget}
    (hmove : Move s.budget b)
    {i : ι} {phase : CallerPhase}
    (hphase : ∀ request ch, phase = .parked request ch → request.Awaits b ch) :
    Wakeful { s.at i phase with budget := b } where
  bytes := hmove.counts.bytes h.bytes
  batches := hmove.counts.batches h.batches
  channels := hmove.channels h.channels
  parked := by
    intro j request ch hj
    have hj : Function.update s.caller i phase j = .parked request ch := hj
    by_cases hij : j = i
    · subst hij
      rw [Function.update_self] at hj
      exact hphase request ch hj
    · rw [Function.update_of_ne hij] at hj
      exact (h.parked j request ch hj).kept hmove

omit [DecidableEq ι] in
/-- A region of the budget that no caller is in. -/
theorem Wakeful.outside {s : Callers ι} (h : Wakeful s) {b : ProducerBudget}
    (hmove : Move s.budget b) : Wakeful { s with budget := b } where
  bytes := hmove.counts.bytes h.bytes
  batches := hmove.counts.batches h.batches
  channels := hmove.channels h.channels
  parked := fun i request ch hi => (h.parked i request ch hi).kept hmove

/-- **Step rule for the callers.** -/
theorem Wakeful.step {s t : Callers ι} {l : Option ι} (h : Wakeful s) (hs : CallersStep s l t) :
    Wakeful t := by
  cases hs with
  | call request hcaller => exact h.region .same nofun
  | granted hcaller hregion => exact h.region (BudgetRequest.move_of_granted hregion) nofun
  | waits hcaller hregion =>
      apply h.region (BudgetRequest.move_of_wait hregion)
      intro request ch hphase
      cases hphase
      exact BudgetRequest.awaits_of_wait h.bytes h.batches hregion
  | wakes hcaller hclosed => exact h.region .same nofun
  | leaves hcaller => exact h.region .same nofun
  | release bytes batches => exact h.outside (.release bytes batches)
  | charge extra => exact h.outside (.charge extra)

/-- **Nobody waits in vain, in every run.** -/
theorem CallersRun.wakeful {s t : Callers ι} (hrun : CallersRun s t) (h : Wakeful s) : Wakeful t :=
  hrun.invariant h (fun _ _ _ hx _ hs => hx.step hs)

/-- **No wake-up is lost.**  In every state that any number of callers can reach
in any interleaving, a parked caller whose channel is open waits on the current
channel and cannot be served, and no channel has been closed twice. -/
theorem budget_no_lost_wakeup {maxBytes maxBatches : Int} {s : Callers ι}
    (hrun : CallersRun (Callers.new maxBytes maxBatches) s) :
    (∀ i request ch, s.caller i = .parked request ch → ch ∉ s.budget.closed →
      request.Blocked s.budget ch) ∧
    s.budget.closed.Nodup := by
  have hwakeful := CallersRun.wakeful hrun (wakeful_new maxBytes maxBatches)
  refine ⟨fun i request ch hparked hopen => ?_, hwakeful.channels.once⟩
  exact (hwakeful.parked i request ch hparked).resolve_left hopen

/-- Two reservations of three bytes with a cap of four: the second one waits,
and its channel is open. -/
theorem budget_no_lost_wakeup_sample :
    ∃ s : Callers Bool, CallersRun (Callers.new 4 1) s ∧
      s.caller true = .parked (.bytes 3) 0 ∧ (BudgetRequest.bytes 3).Blocked s.budget 0 := by
  have hrun := (Reach.refl : CallersRun (Callers.new 4 1 : Callers Bool) (Callers.new 4 1))
    |>.tail trivial (.call (i := false) (.bytes 3) rfl)
    |>.tail trivial (.granted (i := false) rfl rfl)
    |>.tail trivial (.call (i := true) (.bytes 3) rfl)
    |>.tail trivial (.waits (i := true) rfl rfl)
  exact ⟨_, hrun, rfl, (budget_no_lost_wakeup hrun).1 true (.bytes 3) 0 rfl (by decide)⟩

end OpenDataBuffer
