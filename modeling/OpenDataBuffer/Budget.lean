import OpenDataBuffer.BufferErrors

/-!
# The in-flight budget

`producerBudget` counts reserved bytes and batches in flight.  Its methods are
loops around a region that holds the mutex; a definition here is one such
region, from `Lock` to `Unlock`.  A region of a waiting method either grants
the request or names the channel the caller then waits on.

The wake-up channels carry no data.  They are numbered in the order they are
made, and `closed` lists the ones that have been closed.
-/

namespace OpenDataBuffer

structure ProducerBudget where
  bytesUsed : Int
  batchesUsed : Int
  maxBytes : Int
  maxBatches : Int
  waiter : Option Nat
  drainCh : Option Nat
  /-- How many channels have been made. -/
  made : Nat
  closed : List Nat
  deriving DecidableEq

def newProducerBudget (maxBytes maxBatches : Int) : ProducerBudget where
  bytesUsed := 0
  batchesUsed := 0
  maxBytes := if maxBytes < 1 then 1 else maxBytes
  maxBatches := if maxBatches < 1 then 1 else maxBatches
  waiter := none
  drainCh := none
  made := 0
  closed := []

/-- What a region of a waiting method decides. -/
inductive LockRegion
  | granted (b : ProducerBudget)
  | wait (b : ProducerBudget) (ch : Nat)

/-- The counters never go below zero. -/
def clampZero (x : Int) : Int := if x < 0 then 0 else x

/-- The clamp does nothing to a counter that is not negative. -/
theorem clampZero_of_nonneg {x : Int} (h : 0 ≤ x) : clampZero x = x := by
  unfold clampZero
  omega

namespace ProducerBudget

def ensureWaiterLocked (b : ProducerBudget) : ProducerBudget × Nat :=
  match b.waiter with
  | some ch => (b, ch)
  | none => ({ b with waiter := some b.made, made := b.made + 1 }, b.made)

/-- Close the waiter channel, if there is one. -/
def wakeWaiter (b : ProducerBudget) : ProducerBudget :=
  match b.waiter with
  | none => b
  | some ch => { b with waiter := none, closed := ch :: b.closed }

/-- Close the drain channel, if there is one and no batch is left. -/
def wakeDrained (b : ProducerBudget) : ProducerBudget :=
  match b.drainCh with
  | none => b
  | some ch =>
      if b.batchesUsed = 0 then { b with drainCh := none, closed := ch :: b.closed } else b

def reserveBytes (b : ProducerBudget) (n : Int) : LockRegion :=
  if b.bytesUsed = 0 ∨ b.bytesUsed + n ≤ b.maxBytes then
    .granted { b with bytesUsed := b.bytesUsed + n }
  else
    .wait b.ensureWaiterLocked.1 b.ensureWaiterLocked.2

def acquireBatchSlot (b : ProducerBudget) : LockRegion :=
  if b.batchesUsed < b.maxBatches then
    .granted { b with batchesUsed := b.batchesUsed + 1 }
  else
    .wait b.ensureWaiterLocked.1 b.ensureWaiterLocked.2

def release (b : ProducerBudget) (bytes batches : Int) : ProducerBudget :=
  wakeDrained (wakeWaiter { b with
    bytesUsed := clampZero (b.bytesUsed - bytes)
    batchesUsed := clampZero (b.batchesUsed - batches) })

def waitDrained (b : ProducerBudget) : LockRegion :=
  if b.batchesUsed = 0 then .granted b
  else
    match b.drainCh with
    | some ch => .wait b ch
    | none => .wait { b with drainCh := some b.made, made := b.made + 1 } b.made

def addReservation (b : ProducerBudget) (extra : Int) : ProducerBudget :=
  wakeWaiter { b with bytesUsed := clampZero (b.bytesUsed + extra) }

/-- `b'` has the counters and the caps of `b`; only channels differ. -/
structure SameCounters (b b' : ProducerBudget) : Prop where
  bytes : b'.bytesUsed = b.bytesUsed
  batches : b'.batchesUsed = b.batchesUsed
  maxBytes : b'.maxBytes = b.maxBytes
  maxBatches : b'.maxBatches = b.maxBatches

theorem sameCounters_refl (b : ProducerBudget) : SameCounters b b := ⟨rfl, rfl, rfl, rfl⟩

theorem SameCounters.trans {a b c : ProducerBudget} (hab : SameCounters a b)
    (hbc : SameCounters b c) : SameCounters a c :=
  ⟨hbc.bytes.trans hab.bytes, hbc.batches.trans hab.batches,
    hbc.maxBytes.trans hab.maxBytes, hbc.maxBatches.trans hab.maxBatches⟩

/-- Making a channel to wait on changes no counter. -/
theorem sameCounters_ensureWaiter (b : ProducerBudget) :
    SameCounters b b.ensureWaiterLocked.1 := by
  unfold ensureWaiterLocked
  split <;> exact ⟨rfl, rfl, rfl, rfl⟩

/-- Closing the waiter channel changes no counter. -/
theorem sameCounters_wakeWaiter (b : ProducerBudget) : SameCounters b b.wakeWaiter := by
  unfold wakeWaiter
  split <;> exact ⟨rfl, rfl, rfl, rfl⟩

/-- Closing the drain channel changes no counter. -/
theorem sameCounters_wakeDrained (b : ProducerBudget) : SameCounters b b.wakeDrained := by
  unfold wakeDrained
  split
  · exact sameCounters_refl _
  · split <;> exact ⟨rfl, rfl, rfl, rfl⟩

/-- A reservation is granted to an empty budget or within the cap. -/
theorem reserveBytes_granted {b b' : ProducerBudget} {n : Int}
    (h : b.reserveBytes n = .granted b') :
    (b.bytesUsed = 0 ∨ b.bytesUsed + n ≤ b.maxBytes) ∧
      b' = { b with bytesUsed := b.bytesUsed + n } := by
  unfold reserveBytes at h
  split at h
  · cases h
    exact ⟨‹_›, rfl⟩
  · cases h

/-- A reservation waits if something is reserved already and the sum would pass
the cap. -/
theorem reserveBytes_wait {b b' : ProducerBudget} {n : Int} {ch : Nat}
    (h : b.reserveBytes n = .wait b' ch) :
    b.bytesUsed ≠ 0 ∧ b.maxBytes < b.bytesUsed + n ∧ b' = b.ensureWaiterLocked.1 ∧
      ch = b.ensureWaiterLocked.2 := by
  unfold reserveBytes at h
  split at h
  · cases h
  · cases h
    refine ⟨?_, ?_, rfl, rfl⟩ <;> omega

/-- A slot is granted below the cap only. -/
theorem acquireBatchSlot_granted {b b' : ProducerBudget} (h : b.acquireBatchSlot = .granted b') :
    b.batchesUsed < b.maxBatches ∧ b' = { b with batchesUsed := b.batchesUsed + 1 } := by
  unfold acquireBatchSlot at h
  split at h
  · cases h
    exact ⟨‹_›, rfl⟩
  · cases h

/-- The rotator waits if all slots are taken. -/
theorem acquireBatchSlot_wait {b b' : ProducerBudget} {ch : Nat}
    (h : b.acquireBatchSlot = .wait b' ch) :
    b.maxBatches ≤ b.batchesUsed ∧ b' = b.ensureWaiterLocked.1 ∧
      ch = b.ensureWaiterLocked.2 := by
  unfold acquireBatchSlot at h
  split at h
  · cases h
  · cases h
    exact ⟨by omega, rfl, rfl⟩

/-- `waitDrained` returns if no batch is in flight, and changes nothing. -/
theorem waitDrained_granted {b b' : ProducerBudget} (h : b.waitDrained = .granted b') :
    b.batchesUsed = 0 ∧ b' = b := by
  unfold waitDrained at h
  split at h
  · cases h
    exact ⟨‹_›, rfl⟩
  · split at h <;> cases h

/-- `waitDrained` waits while there is a batch in flight, on the current drain channel
or on one it makes. -/
theorem waitDrained_wait {b b' : ProducerBudget} {ch : Nat} (h : b.waitDrained = .wait b' ch) :
    b.batchesUsed ≠ 0 ∧ SameCounters b b' ∧ b'.drainCh = some ch ∧ b'.waiter = b.waiter ∧
      b'.closed = b.closed ∧ (b.drainCh = some ch ∧ b'.made = b.made ∨
        b.drainCh = none ∧ ch = b.made ∧ b'.made = b.made + 1) := by
  unfold waitDrained at h
  by_cases hne : b.batchesUsed = 0
  · simp [hne] at h
  · rw [if_neg hne] at h
    cases hch : b.drainCh with
    | some old =>
        simp only [hch, LockRegion.wait.injEq] at h
        obtain ⟨rfl, rfl⟩ := h
        exact ⟨hne, sameCounters_refl _, hch, rfl, rfl, Or.inl ⟨rfl, rfl⟩⟩
    | none =>
        simp only [hch, LockRegion.wait.injEq] at h
        obtain ⟨rfl, rfl⟩ := h
        exact ⟨hne, ⟨rfl, rfl, rfl, rfl⟩, rfl, rfl, rfl, Or.inr ⟨rfl, rfl, rfl⟩⟩

/-- Bytes that are given back, clamped at zero. -/
@[simp] theorem release_bytesUsed (b : ProducerBudget) (bytes batches : Int) :
    (b.release bytes batches).bytesUsed = clampZero (b.bytesUsed - bytes) :=
  ((sameCounters_wakeWaiter _).trans (sameCounters_wakeDrained _)).bytes

/-- Slots that are given back, clamped at zero. -/
@[simp] theorem release_batchesUsed (b : ProducerBudget) (bytes batches : Int) :
    (b.release bytes batches).batchesUsed = clampZero (b.batchesUsed - batches) :=
  ((sameCounters_wakeWaiter _).trans (sameCounters_wakeDrained _)).batches

@[simp] theorem release_maxBytes (b : ProducerBudget) (bytes batches : Int) :
    (b.release bytes batches).maxBytes = b.maxBytes :=
  ((sameCounters_wakeWaiter _).trans (sameCounters_wakeDrained _)).maxBytes

@[simp] theorem release_maxBatches (b : ProducerBudget) (bytes batches : Int) :
    (b.release bytes batches).maxBatches = b.maxBatches :=
  ((sameCounters_wakeWaiter _).trans (sameCounters_wakeDrained _)).maxBatches

/-- `addReservation` charges bytes past the cap. -/
@[simp] theorem addReservation_bytesUsed (b : ProducerBudget) (extra : Int) :
    (b.addReservation extra).bytesUsed = clampZero (b.bytesUsed + extra) :=
  (sameCounters_wakeWaiter _).bytes

@[simp] theorem addReservation_batchesUsed (b : ProducerBudget) (extra : Int) :
    (b.addReservation extra).batchesUsed = b.batchesUsed :=
  (sameCounters_wakeWaiter _).batches

@[simp] theorem addReservation_maxBytes (b : ProducerBudget) (extra : Int) :
    (b.addReservation extra).maxBytes = b.maxBytes :=
  (sameCounters_wakeWaiter _).maxBytes

@[simp] theorem addReservation_maxBatches (b : ProducerBudget) (extra : Int) :
    (b.addReservation extra).maxBatches = b.maxBatches :=
  (sameCounters_wakeWaiter _).maxBatches

end ProducerBudget

end OpenDataBuffer
