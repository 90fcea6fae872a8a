import Mathlib.Algebra.Order.BigOperators.Group.Multiset
import OpenDataBuffer.Ledger

/-!
# The counters of the budget

The budget knows two numbers.  The ledger knows what they should be: the cost
of every message that is reserved and not released, the framing charge of every
emitted batch that is not released, and the number of batches with a slot.
`Accounted` says that they are, and that the caps hold; every step of the ledger
keeps it.  On the way each subtraction turns out to be covered by what it gives
back, so the clamps of the budget never act.
-/

namespace OpenDataBuffer

/-! ## Costs -/

/-- The bytes some messages reserve. -/
def costOf (msgs : Multiset AppendMessage) : Int := (msgs.map AppendMessage.byteCost).sum

/-- The framing charges of some batches. -/
def framingOf (batches : Multiset Batch) : Int :=
  (batches.map fun b => (framingExtra b.entriesOf.length : Int)).sum

@[simp] theorem costOf_zero : costOf 0 = 0 := rfl

@[simp] theorem costOf_cons (m : AppendMessage) (msgs : Multiset AppendMessage) :
    costOf (m ::ₘ msgs) = m.byteCost + costOf msgs := by
  simp [costOf]

@[simp] theorem costOf_add (xs ys : Multiset AppendMessage) :
    costOf (xs + ys) = costOf xs + costOf ys := by
  simp [costOf]

theorem costOf_coe (msgs : List AppendMessage) :
    costOf ↑msgs = (msgs.map AppendMessage.byteCost).sum := rfl

theorem costOf_nonneg (msgs : Multiset AppendMessage) : 0 ≤ costOf msgs := by
  refine Multiset.sum_nonneg fun x hx => ?_
  obtain ⟨m, _, rfl⟩ := Multiset.mem_map.mp hx
  exact m.byteCost_nonneg

@[simp] theorem framingOf_cons (b : Batch) (batches : Multiset Batch) :
    framingOf (b ::ₘ batches) = framingExtra b.entriesOf.length + framingOf batches := by
  simp [framingOf]

theorem framingOf_nonneg (batches : Multiset Batch) : 0 ≤ framingOf batches := by
  refine Multiset.sum_nonneg fun x hx => ?_
  obtain ⟨b, _, rfl⟩ := Multiset.mem_map.mp hx
  exact Int.natCast_nonneg _

/-- What the resolver gives back for a batch. -/
theorem Batch.byteCost_split (b : Batch) :
    b.byteCost = costOf ↑b.msgs + framingExtra b.entriesOf.length := by
  rw [b.byteCost_eq, costOf_coe]
  rfl

/-- The messages that weigh anything. -/
def weighty (msgs : Multiset AppendMessage) : Multiset AppendMessage :=
  msgs.filter fun m => m.byteCost ≠ 0

/-- Messages of no cost weigh nothing. -/
theorem weighty_of_costOf {msgs : Multiset AppendMessage} (h : costOf msgs = 0) :
    weighty msgs = 0 := by
  refine Multiset.filter_eq_nil.mpr fun m hm hne => hne ?_
  obtain ⟨rest, rfl⟩ := Multiset.exists_cons_of_mem hm
  have hrest := costOf_nonneg rest
  have hcost := m.byteCost_nonneg
  rw [costOf_cons] at h
  omega

/-- Messages without a cost do not count. -/
theorem costOf_weighty (msgs : Multiset AppendMessage) : costOf (weighty msgs) = costOf msgs := by
  induction msgs using Multiset.induction_on with
  | empty => rfl
  | cons m msgs ih =>
      by_cases hm : m.byteCost = 0
      · have hskip : weighty (m ::ₘ msgs) = weighty msgs :=
          Multiset.filter_cons_of_neg msgs (not_not.mpr hm)
        rw [hskip, ih, costOf_cons, hm, zero_add]
      · have hkeep : weighty (m ::ₘ msgs) = m ::ₘ weighty msgs :=
          Multiset.filter_cons_of_pos msgs hm
        rw [hkeep, costOf_cons, costOf_cons, ih]

/-- The cap on reserved bytes, which a single message may exceed. -/
def Capped (maxBytes : Int) (msgs : Multiset AppendMessage) : Prop :=
  costOf msgs ≤ maxBytes ∨ ∃ m, weighty msgs = {m}

/-- Giving bytes back keeps the cap. -/
theorem Capped.anti {maxBytes : Int} {xs ys : Multiset AppendMessage} (h : Capped maxBytes ys)
    (hpos : 0 ≤ maxBytes) (hle : xs ≤ ys) : Capped maxBytes xs := by
  rcases h with hcost | ⟨m, hm⟩
  · obtain ⟨rest, rfl⟩ := Multiset.le_iff_exists_add.mp hle
    have hrest := costOf_nonneg rest
    rw [costOf_add] at hcost
    exact Or.inl (by omega)
  · have hsub : weighty xs ≤ {m} := hm ▸ Multiset.filter_le_filter _ hle
    rcases Multiset.le_singleton.mp hsub with hnone | hone
    · refine Or.inl ?_
      rw [← costOf_weighty, hnone]
      exact hpos
    · exact Or.inr ⟨m, hone⟩

/-- A reservation is granted to an empty budget, or stays below the cap. -/
theorem capped_reserve {used maxBytes : Int} {msgs : Multiset AppendMessage} (m : AppendMessage)
    (hused : costOf msgs ≤ used) (hpos : 0 ≤ maxBytes)
    (hgrant : used = 0 ∨ used + m.byteCost ≤ maxBytes) : Capped maxBytes (m ::ₘ msgs) := by
  rcases hgrant with hempty | hroom
  · have hnone : weighty msgs = 0 := by
      refine weighty_of_costOf ?_
      have := costOf_nonneg msgs
      omega
    by_cases hm : m.byteCost = 0
    · refine Or.inl ?_
      rw [costOf_cons, hm, ← costOf_weighty msgs, hnone]
      exact hpos
    · refine Or.inr ⟨m, ?_⟩
      have hcons : weighty (m ::ₘ msgs) = m ::ₘ weighty msgs := Multiset.filter_cons_of_pos _ hm
      rw [hcons, hnone]
      rfl
  · refine Or.inl ?_
    rw [costOf_cons]
    omega

/-! ## The counters -/

/-- The counters and caps of a budget fit the messages and batches that are
outstanding, and the slot the rotator may hold on top. -/
structure Fits (bytesUsed batchesUsed maxBytes maxBatches : Int) (slot : Bool)
    (outstanding : Multiset AppendMessage) (unreleased : Multiset Batch) : Prop where
  bytes : bytesUsed = costOf outstanding + framingOf unreleased
  batches : batchesUsed = (unreleased.card : Int) + (if slot then 1 else 0)
  capped : Capped maxBytes outstanding
  slots : batchesUsed ≤ maxBatches
  room : 1 ≤ maxBytes

namespace Fits

variable {bytesUsed batchesUsed maxBytes maxBatches : Int} {slot : Bool}
  {out : Multiset AppendMessage} {un : Multiset Batch}

/-- Counters that fit are not negative. -/
theorem nonneg (h : Fits bytesUsed batchesUsed maxBytes maxBatches slot out un) :
    0 ≤ bytesUsed ∧ 0 ≤ batchesUsed := by
  have hout := costOf_nonneg out
  have hun := framingOf_nonneg un
  refine ⟨by rw [h.bytes]; omega, ?_⟩
  rw [h.batches]
  split <;> omega

/-- A reservation that is granted fits. -/
theorem reserve (h : Fits bytesUsed batchesUsed maxBytes maxBatches slot out un)
    (m : AppendMessage) (hgrant : bytesUsed = 0 ∨ bytesUsed + m.byteCost ≤ maxBytes) :
    Fits (bytesUsed + m.byteCost) batchesUsed maxBytes maxBatches slot (m ::ₘ out) un := by
  have hun := framingOf_nonneg un
  have hbytes := h.bytes
  have hroom := h.room
  refine ⟨?_, h.batches, capped_reserve m (by omega) (by omega) hgrant, h.slots, h.room⟩
  rw [costOf_cons]
  omega

/-- Bytes that are given back were counted. -/
theorem covered {given : Multiset AppendMessage}
    (h : Fits bytesUsed batchesUsed maxBytes maxBatches slot (given + out) un) :
    costOf given ≤ bytesUsed := by
  have hout := costOf_nonneg out
  have hun := framingOf_nonneg un
  rw [h.bytes, costOf_add]
  omega

/-- Bytes that are given back were reserved, so the clamp does nothing. -/
theorem giveBack {given : Multiset AppendMessage}
    (h : Fits bytesUsed batchesUsed maxBytes maxBatches slot (given + out) un) :
    Fits (clampZero (bytesUsed - costOf given)) (clampZero (batchesUsed - 0)) maxBytes maxBatches
      slot out un := by
  have hcovered := h.covered
  have hroom := h.room
  rw [clampZero_of_nonneg (by omega), Int.sub_zero, clampZero_of_nonneg h.nonneg.2]
  refine ⟨?_, h.batches, h.capped.anti (by omega) (Multiset.le_add_left out given), h.slots,
    h.room⟩
  rw [h.bytes, costOf_add]
  omega

/-- A slot is taken while there is one. -/
theorem acquire (h : Fits bytesUsed batchesUsed maxBytes maxBatches false out un)
    (hroom : batchesUsed < maxBatches) :
    Fits bytesUsed (batchesUsed + 1) maxBytes maxBatches true out un := by
  refine ⟨h.bytes, ?_, h.capped, by omega, h.room⟩
  have hbatches := h.batches
  simp only [Bool.false_eq_true, if_false, if_true] at hbatches ⊢
  omega

/-- The framing of a batch is charged with its slot. -/
theorem frame (h : Fits bytesUsed batchesUsed maxBytes maxBatches true out un) (b : Batch) :
    Fits (clampZero (bytesUsed + framingExtra b.entriesOf.length)) batchesUsed maxBytes maxBatches
      false out (b ::ₘ un) := by
  have hnonneg := h.nonneg.1
  rw [clampZero_of_nonneg (by omega)]
  refine ⟨?_, ?_, h.capped, h.slots, h.room⟩
  · rw [h.bytes, framingOf_cons]
    omega
  · have hbatches := h.batches
    simp only [if_true, Bool.false_eq_true, if_false, Multiset.card_cons] at hbatches ⊢
    omega

/-- The cost and the slot of a batch were counted. -/
theorem batch_covered {b : Batch}
    (h : Fits bytesUsed batchesUsed maxBytes maxBatches slot (↑b.msgs + out) (b ::ₘ un)) :
    b.byteCost ≤ bytesUsed ∧ 1 ≤ batchesUsed := by
  have hout := costOf_nonneg out
  have hun := framingOf_nonneg un
  constructor
  · rw [h.bytes, costOf_add, framingOf_cons, b.byteCost_split]
    omega
  · rw [h.batches, Multiset.card_cons]
    split <;> omega

/-- A batch that is released gives back all that was charged for it. -/
theorem release {b : Batch}
    (h : Fits bytesUsed batchesUsed maxBytes maxBatches slot (↑b.msgs + out) (b ::ₘ un)) :
    Fits (clampZero (bytesUsed - b.byteCost)) (clampZero (batchesUsed - 1)) maxBytes maxBatches
      slot out un := by
  obtain ⟨hbytes, hbatches⟩ := h.batch_covered
  have hroom := h.room
  have hslots := h.slots
  rw [clampZero_of_nonneg (by omega), clampZero_of_nonneg (by omega)]
  refine ⟨?_, ?_, h.capped.anti (by omega) (Multiset.le_add_left out _), by omega, h.room⟩
  · rw [h.bytes, costOf_add, framingOf_cons, b.byteCost_split]
    omega
  · rw [h.batches, Multiset.card_cons]
    omega

end Fits

/-! ## What is outstanding -/

/-- The messages of some batches. -/
def messagesOf (batches : Multiset Batch) : Multiset AppendMessage :=
  batches.bind fun b => (b.msgs : Multiset AppendMessage)

@[simp] theorem messagesOf_cons (b : Batch) (batches : Multiset Batch) :
    messagesOf (b ::ₘ batches) = ↑b.msgs + messagesOf batches := by
  simp [messagesOf]

namespace Ledger

/-- The emitted batches that are not released. -/
def unreleased (L : Ledger) : Multiset Batch :=
  L.flight + optionally (L.settling.map PendingResolution.batch)

/-- The messages whose bytes are reserved and not released. -/
def outstanding (L : Ledger) : Multiset AppendMessage :=
  L.held + (↑(L.queue ++ L.opened) + messagesOf L.unreleased)

/-- Everything but the settling batch. -/
theorem unreleased_settling {L : Ledger} {pr : PendingResolution} (h : L.settling = some pr) :
    L.unreleased = pr.batch ::ₘ L.flight := by
  rw [unreleased, h, add_comm]
  rfl

end Ledger

/-- **The counters are what is outstanding.** -/
def Accounted (L : Ledger) : Prop :=
  Fits L.bytesUsed L.batchesUsed L.maxBytes L.maxBatches L.slot L.outstanding L.unreleased

section Releases

variable {L : Ledger}

/-- A message that never entered the pipeline gives back its own bytes. -/
theorem Accounted.cancel {m : AppendMessage} {rest : Multiset AppendMessage} (h : Accounted L)
    (hheld : L.held = m ::ₘ rest) :
    Fits L.bytesUsed L.batchesUsed L.maxBytes L.maxBatches L.slot
      ({m} + (rest + (↑(L.queue ++ L.opened) + messagesOf L.unreleased))) L.unreleased := by
  have hout : L.outstanding =
      {m} + (rest + (↑(L.queue ++ L.opened) + messagesOf L.unreleased)) := by
    rw [Ledger.outstanding, hheld, ← Multiset.singleton_add, add_assoc]
  exact hout ▸ h

/-- A dropped accumulator gives back the bytes of its messages. -/
theorem Accounted.drop (h : Accounted L) :
    Fits L.bytesUsed L.batchesUsed L.maxBytes L.maxBatches L.slot
      (↑L.opened + (L.held + (↑L.queue + messagesOf L.unreleased))) L.unreleased := by
  have hout : L.outstanding = ↑L.opened + (L.held + (↑L.queue + messagesOf L.unreleased)) := by
    rw [Ledger.outstanding, ← Multiset.coe_add]
    abel
  exact hout ▸ h

/-- A settled batch gives back its own bytes and its own slot. -/
theorem Accounted.settled (h : Accounted L) {pr : PendingResolution}
    (hpr : L.settling = some pr) :
    Fits L.bytesUsed L.batchesUsed L.maxBytes L.maxBatches L.slot
      (↑pr.batch.msgs + (L.held + (↑(L.queue ++ L.opened) + messagesOf L.flight)))
      (pr.batch ::ₘ L.flight) := by
  have hun := Ledger.unreleased_settling hpr
  have hout : L.outstanding =
      ↑pr.batch.msgs + (L.held + (↑(L.queue ++ L.opened) + messagesOf L.flight)) := by
    rw [Ledger.outstanding, hun, messagesOf_cons]
    abel
  rw [Accounted, hout, hun] at h
  exact h

/-- With no batch counted, none is in flight or settling. -/
theorem Accounted.no_batches (h : Accounted L) (hzero : L.batchesUsed = 0) :
    L.flight = 0 ∧ L.settling = none := by
  have hbatches := Fits.batches h
  rw [hzero, Ledger.unreleased, Multiset.card_add] at hbatches
  have hflight : L.flight.card = 0 := by split at hbatches <;> omega
  refine ⟨Multiset.card_eq_zero.mp hflight, ?_⟩
  cases hsettling : L.settling with
  | none => rfl
  | some pr =>
      rw [hsettling, Option.map_some, optionally_some, Multiset.card_singleton] at hbatches
      split at hbatches <;> omega

end Releases

/-- Messages change hands; what is outstanding does not change. -/
theorem Accounted.of_outstanding {L L' : Ledger} (h : Accounted L)
    (hout : L'.outstanding = L.outstanding)
    (hsame : (L'.unreleased, L'.bytesUsed, L'.batchesUsed, L'.slot, L'.maxBytes, L'.maxBatches) =
      (L.unreleased, L.bytesUsed, L.batchesUsed, L.slot, L.maxBytes, L.maxBatches)) :
    Accounted L' := by
  simp only [Prod.mk.injEq] at hsame
  obtain ⟨hun, hbytes, hbatches, hslot, hmaxBytes, hmaxBatches⟩ := hsame
  rw [Accounted, hout, hun, hbytes, hbatches, hslot, hmaxBytes, hmaxBatches]
  exact h

/-- **Step rule of the accounts.** -/
theorem Accounted.step {L L' : Ledger} (h : Accounted L) (hs : LedgerStep L L') :
    Accounted L' := by
  cases hs with
  | reserve m hgrant =>
      have hfits := Fits.reserve h m hgrant
      rw [Ledger.outstanding, ← Multiset.cons_add] at hfits
      exact hfits
  | @cancel m rest hheld =>
      have hfits := (h.cancel hheld).giveBack
      rw [← Multiset.cons_zero, costOf_cons, costOf_zero, add_zero] at hfits
      exact hfits
  | @accept m rest hheld =>
      refine h.of_outstanding ?_ rfl
      simp only [Ledger.outstanding, hheld, ← Multiset.coe_add, Multiset.coe_singleton,
        ← Multiset.singleton_add]
      show rest + (↑L.queue + {m} + ↑L.opened + messagesOf L.unreleased) = _
      abel
  | @take m rest hqueue =>
      refine h.of_outstanding ?_ rfl
      simp only [Ledger.outstanding, hqueue, ← Multiset.coe_add, ← Multiset.cons_coe,
        ← Multiset.singleton_add]
      show L.held + (↑rest + (↑L.opened + {m}) + messagesOf L.unreleased) = _
      abel
  | @handoff m rest hheld hqueue =>
      refine h.of_outstanding ?_ rfl
      simp only [Ledger.outstanding, hheld, ← Multiset.coe_add, Multiset.coe_singleton,
        ← Multiset.singleton_add]
      show rest + (↑L.queue + (↑L.opened + {m}) + messagesOf L.unreleased) = _
      abel
  | begin => exact h
  | request f hserving hbegun hdrop => exact h
  | drain hqueue => exact h
  | acquire hroom hslot =>
      rw [Accounted, hslot] at h
      exact h.acquire hroom
  | emit b hslot hmsgs hack hordinal hdrained hdrop =>
      rw [Accounted, hslot] at h
      have hfits := h.frame b
      have hout : L.outstanding =
          L.held + (↑(L.queue ++ ([] : List AppendMessage)) + messagesOf (b ::ₘ L.unreleased)) := by
        rw [Ledger.outstanding, messagesOf_cons, hmsgs, List.append_nil, ← Multiset.coe_add,
          add_assoc]
      rw [hout, Ledger.unreleased, ← Multiset.cons_add] at hfits
      exact hfits
  | drop hslot hdrop hrefusing =>
      have hfits := h.drop.giveBack
      rw [← List.append_nil L.queue] at hfits
      exact hfits
  | dropResolve hdrop => exact h
  | ackEmpty hserving hopened hdrained hdrop => exact h
  | ackDropped hrefusing => exact h
  | @hand pr rest hflight hsettling =>
      have hun : rest + {pr.batch} = L.unreleased := by
        rw [Ledger.unreleased, hflight, hsettling, ← Multiset.singleton_add]
        exact (add_comm _ _).trans (add_zero _).symm
      refine h.of_outstanding ?_ (Prod.ext hun rfl)
      exact congrArg (fun un => L.held + (↑(L.queue ++ L.opened) + messagesOf un)) hun
  | resolve hsettling hleft => exact h
  | ack hsettling hleft hdue => exact h
  | release hsettling hleft hdue =>
      have hfits := (h.settled hsettling).release
      rw [← add_zero L.flight] at hfits
      exact hfits

end OpenDataBuffer
