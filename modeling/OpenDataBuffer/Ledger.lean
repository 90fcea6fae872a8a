import Mathlib.Algebra.BigOperators.Group.Multiset.Basic
import Mathlib.Data.Multiset.Bind
import Mathlib.Tactic.Abel
import OpenDataBuffer.PipelineSteps

/-!
# The ledger: who holds what

The ledger is the producer with everything forgotten but custody.  A message is
held by the call that reserved its bytes, then queued, then in the open
accumulator; a batch is in flight until its outcome is handed to the resolver,
and settling until the resolver has released it.  Goroutines, pools, channels
and retries are gone: a batch that moves from an encoder to an uploader has not
moved at all.

`LedgerStep` lists the few things that can happen to custody, with the
conditions under which the producer does them.  The laws of the ledger
(`Conserved`) are proved here, once for each of them; that every step of the
producer is one of them, or none, is proved of the model itself.
-/

namespace OpenDataBuffer

structure Ledger where
  bytesUsed : Int
  batchesUsed : Int
  maxBytes : Int
  maxBatches : Int
  /-- Reserved by a call that has not sent its message. -/
  held : Multiset AppendMessage
  queue : List AppendMessage
  /-- The messages in the accumulator. -/
  opened : List AppendMessage
  /-- The next ordinal. -/
  ordinal : Nat
  /-- The rotator holds a batch slot and has not emitted yet. -/
  slot : Bool
  /-- The flush request the rotator serves. -/
  serving : Option Nat
  /-- The queue has been drained for that request. -/
  drained : Bool
  /-- The flush request of a dropped batch, which is going to be refused. -/
  refusing : Option Nat
  /-- Watchers of a dropped batch that are still to be resolved. -/
  dropLeft : List Nat
  flight : Multiset Batch
  settling : Option PendingResolution
  /-- Watchers of the settling batch that are still to be resolved. -/
  left : List Nat
  /-- The acknowledgement the settling batch still owes. -/
  ackDue : Option Nat
  /-- For every flush call, how many messages were accepted when it began. -/
  begun : List Nat
  accepted : List AppendMessage
  cuts : List Cut
  handed : List PendingResolution
  resolved : List (Nat × Option BufferError)
  taken : List (Nat × Nat)
  acked : List (Nat × Option BufferError)

/-- What can happen to custody. -/
inductive LedgerStep (L : Ledger) : Ledger → Prop
  | reserve (m : AppendMessage)
      (hgrant : L.bytesUsed = 0 ∨ L.bytesUsed + m.byteCost ≤ L.maxBytes) :
      LedgerStep L { L with bytesUsed := L.bytesUsed + m.byteCost, held := m ::ₘ L.held }
  | cancel {m : AppendMessage} {rest : Multiset AppendMessage} (hheld : L.held = m ::ₘ rest) :
      LedgerStep L { L with
        bytesUsed := clampZero (L.bytesUsed - m.byteCost)
        batchesUsed := clampZero (L.batchesUsed - 0)
        held := rest }
  | accept {m : AppendMessage} {rest : Multiset AppendMessage} (hheld : L.held = m ::ₘ rest) :
      LedgerStep L { L with
        held := rest, queue := L.queue ++ [m], accepted := L.accepted ++ [m] }
  | take {m : AppendMessage} {rest : List AppendMessage} (hqueue : L.queue = m :: rest) :
      LedgerStep L { L with queue := rest, opened := L.opened ++ [m] }
  | handoff {m : AppendMessage} {rest : Multiset AppendMessage} (hheld : L.held = m ::ₘ rest)
      (hqueue : L.queue = []) :
      LedgerStep L { L with
        held := rest, opened := L.opened ++ [m], accepted := L.accepted ++ [m] }
  | begin : LedgerStep L { L with begun := L.begun ++ [L.accepted.length] }
  | request (f : Nat) (hserving : L.serving = none) (hbegun : f < L.begun.length)
      (hdrop : L.dropLeft = []) :
      LedgerStep L { L with
        serving := some f, drained := false, taken := L.taken ++ [(f, cutLength L.cuts)] }
  | drain (hqueue : L.queue = []) : LedgerStep L { L with drained := true }
  | acquire (hroom : L.batchesUsed < L.maxBatches) (hslot : L.slot = false) :
      LedgerStep L { L with slot := true, batchesUsed := L.batchesUsed + 1 }
  | emit (b : Batch) (hslot : L.slot = true) (hmsgs : b.msgs = L.opened)
      (hack : b.flushAck = L.serving) (hordinal : b.ordinal = L.ordinal)
      (hdrained : L.drained = true) (hdrop : L.dropLeft = []) :
      LedgerStep L { L with
        bytesUsed := clampZero (L.bytesUsed + framingExtra b.entriesOf.length)
        slot := false, opened := [], ordinal := L.ordinal + 1, serving := none
        flight := b ::ₘ L.flight, cuts := L.cuts ++ [.emitted b] }
  | drop (hslot : L.slot = false) (hdrop : L.dropLeft = []) (hrefusing : L.refusing = none) :
      LedgerStep L { L with
        bytesUsed := clampZero (L.bytesUsed - (L.opened.map AppendMessage.byteCost).sum)
        batchesUsed := clampZero (L.batchesUsed - 0)
        opened := [], serving := none, refusing := L.serving
        dropLeft := L.opened.map AppendMessage.watcher
        cuts := L.cuts ++ [.dropped L.opened] }
  | dropResolve {w : Nat} {left : List Nat} (hdrop : L.dropLeft = w :: left) :
      LedgerStep L { L with
        dropLeft := left, resolved := L.resolved ++ [(w, some .shutdown)] }
  | ackEmpty {f : Nat} (hserving : L.serving = some f) (hopened : L.opened = [])
      (hdrained : L.drained = true) (hdrop : L.dropLeft = []) :
      LedgerStep L { L with serving := none, acked := L.acked ++ [(f, none)] }
  | ackDropped {f : Nat} (hrefusing : L.refusing = some f) :
      LedgerStep L { L with refusing := none, acked := L.acked ++ [(f, some .shutdown)] }
  | hand {pr : PendingResolution} {rest : Multiset Batch} (hflight : L.flight = pr.batch ::ₘ rest)
      (hsettling : L.settling = none) :
      LedgerStep L { L with
        flight := rest, settling := some pr, left := pr.batch.watchers
        ackDue := pr.batch.flushAck, handed := L.handed ++ [pr] }
  | resolve {pr : PendingResolution} {w : Nat} {left : List Nat}
      (hsettling : L.settling = some pr) (hleft : L.left = w :: left) :
      LedgerStep L { L with left := left, resolved := L.resolved ++ [(w, pr.err)] }
  | ack {pr : PendingResolution} {f : Nat} (hsettling : L.settling = some pr)
      (hleft : L.left = []) (hdue : L.ackDue = some f) :
      LedgerStep L { L with ackDue := none, acked := L.acked ++ [(f, pr.err)] }
  | release {pr : PendingResolution} (hsettling : L.settling = some pr) (hleft : L.left = [])
      (hdue : L.ackDue = none) :
      LedgerStep L { L with
        settling := none
        bytesUsed := clampZero (L.bytesUsed - pr.batch.byteCost)
        batchesUsed := clampZero (L.batchesUsed - 1) }

/-- An optional value as a multiset. -/
def optionally {α : Type} (o : Option α) : Multiset α := ↑o.toList

@[simp] theorem optionally_none {α : Type} : optionally (none : Option α) = 0 := rfl

@[simp] theorem optionally_some {α : Type} (a : α) : optionally (some a) = {a} := rfl

/-- The acknowledgements that batches carry. -/
def acksOf (batches : Multiset Batch) : Multiset Nat :=
  (batches.map fun b => optionally b.flushAck).sum

@[simp] theorem acksOf_zero : acksOf 0 = 0 := by simp [acksOf]

/-- The flush that a batch carries, and those of the others. -/
@[simp] theorem acksOf_cons (b : Batch) (batches : Multiset Batch) :
    acksOf (b ::ₘ batches) = optionally b.flushAck + acksOf batches := by
  simp [acksOf]

@[simp] theorem emittedOf_emitted (cuts : List Cut) (b : Batch) :
    emittedOf (cuts ++ [.emitted b]) = emittedOf cuts ++ [b] := by
  simp [emittedOf, Cut.batch?]

@[simp] theorem emittedOf_dropped (cuts : List Cut) (msgs : List AppendMessage) :
    emittedOf (cuts ++ [.dropped msgs]) = emittedOf cuts := by
  simp [emittedOf, Cut.batch?]

@[simp] theorem droppedOf_emitted (cuts : List Cut) (b : Batch) :
    droppedOf (cuts ++ [.emitted b]) = droppedOf cuts := by
  simp [droppedOf, Cut.drop?]

@[simp] theorem droppedOf_dropped (cuts : List Cut) (msgs : List AppendMessage) :
    droppedOf (cuts ++ [.dropped msgs]) = droppedOf cuts ++ [msgs] := by
  simp [droppedOf, Cut.drop?]

/-- An emitted batch is a cut of its own. -/
theorem mem_emittedOf {cuts : List Cut} {b : Batch} : b ∈ emittedOf cuts ↔ .emitted b ∈ cuts := by
  constructor
  · intro h
    obtain ⟨cut, hcut, hb⟩ := List.mem_filterMap.mp h
    cases cut with
    | emitted b' =>
        have hbb : b' = b := by simpa [Cut.batch?] using hb
        exact hbb ▸ hcut
    | dropped msgs => simp [Cut.batch?] at hb
  · intro h
    exact List.mem_filterMap.mpr ⟨_, h, rfl⟩

/-- A dropped batch is a cut of its own. -/
theorem mem_droppedOf {cuts : List Cut} {msgs : List AppendMessage} :
    msgs ∈ droppedOf cuts ↔ .dropped msgs ∈ cuts := by
  constructor
  · intro h
    obtain ⟨cut, hcut, hb⟩ := List.mem_filterMap.mp h
    cases cut with
    | emitted b => simp [Cut.drop?] at hb
    | dropped msgs' =>
        have hmm : msgs' = msgs := by simpa [Cut.drop?] using hb
        exact hmm ▸ hcut
  · intro h
    exact List.mem_filterMap.mpr ⟨_, h, rfl⟩

/-- The resolutions owed to some watchers of one batch. -/
def owed (err : Option BufferError) (watchers : List Nat) :
    Multiset (Nat × Option BufferError) :=
  ↑(watchers.map fun w => (w, err))

@[simp] theorem owed_nil (err : Option BufferError) : owed err [] = 0 := rfl

theorem owed_cons (err : Option BufferError) (w : Nat) (watchers : List Nat) :
    owed err (w :: watchers) = {(w, err)} + owed err watchers := rfl

/-- What is owed to a watcher is the one error for all of the batch. -/
@[simp] theorem mem_owed {err : Option BufferError} {watchers : List Nat}
    {r : Nat × Option BufferError} : r ∈ owed err watchers ↔ r.1 ∈ watchers ∧ r.2 = err := by
  obtain ⟨w, e⟩ := r
  simp only [owed, Multiset.mem_coe, List.mem_map, Prod.mk.injEq]
  constructor
  · rintro ⟨w', hw, rfl, rfl⟩
    exact ⟨hw, rfl⟩
  · rintro ⟨hw, rfl⟩
    exact ⟨w, hw, rfl, rfl⟩

/-- What the watchers of dropped batches are resolved with. -/
def droppedResolutions (cuts : List Cut) : Multiset (Nat × Option BufferError) :=
  (droppedOf cuts : Multiset (List AppendMessage)).bind fun msgs =>
    owed (some .shutdown) (msgs.map AppendMessage.watcher)

/-- What the watchers of batches with a known outcome are resolved with. -/
def handedResolutions (handed : List PendingResolution) : Multiset (Nat × Option BufferError) :=
  (handed : Multiset PendingResolution).bind fun pr => owed pr.err pr.batch.watchers

@[simp] theorem droppedResolutions_emitted (cuts : List Cut) (b : Batch) :
    droppedResolutions (cuts ++ [.emitted b]) = droppedResolutions cuts := by
  simp [droppedResolutions]

/-- Dropping a batch owes `shutdown` to each of its watchers. -/
@[simp] theorem droppedResolutions_dropped (cuts : List Cut) (msgs : List AppendMessage) :
    droppedResolutions (cuts ++ [.dropped msgs]) =
      droppedResolutions cuts + owed (some .shutdown) (msgs.map AppendMessage.watcher) := by
  simp [droppedResolutions, ← Multiset.coe_add]

/-- Handing a batch to the resolver owes its error to each of its watchers. -/
@[simp] theorem handedResolutions_append (handed : List PendingResolution)
    (pr : PendingResolution) : handedResolutions (handed ++ [pr]) =
      handedResolutions handed + owed pr.err pr.batch.watchers := by
  simp [handedResolutions, ← Multiset.coe_add]

/-- Who is owed what, once the batches are handed over. -/
theorem mem_handedResolutions {handed : List PendingResolution} {r : Nat × Option BufferError} :
    r ∈ handedResolutions handed ↔ ∃ pr ∈ handed, r.1 ∈ pr.batch.watchers ∧ r.2 = pr.err := by
  simp [handedResolutions]

/-- Who is owed `shutdown`, once the batches are dropped. -/
theorem mem_droppedResolutions {cuts : List Cut} {r : Nat × Option BufferError} :
    r ∈ droppedResolutions cuts ↔
      ∃ msgs ∈ droppedOf cuts, r.1 ∈ msgs.map AppendMessage.watcher ∧ r.2 = some .shutdown := by
  simp only [droppedResolutions, Multiset.mem_bind, Multiset.mem_coe, mem_owed]

/-- The batches of handed outcomes. -/
def handedBatches (handed : List PendingResolution) : Multiset Batch :=
  ↑(handed.map PendingResolution.batch)

/-- The requests in a list that has got one more pair. -/
theorem coe_fst_concat {α : Type} (pairs : List (Nat × α)) (pair : Nat × α) :
    (↑((pairs ++ [pair]).map Prod.fst) : Multiset Nat) = ↑(pairs.map Prod.fst) + {pair.1} := by
  rw [List.map_append, ← Multiset.coe_add]
  rfl

/-- **The conservation laws.**  Accepted messages are cut, open or queued, in
that order; emitted batches are numbered and are in flight or handed over;
every watcher is resolved once, with the outcome of its batch, and every
acknowledgement is sent once. -/
structure Conserved (L : Ledger) : Prop where
  partition : L.accepted = L.cuts.flatMap Cut.msgs ++ (L.opened ++ L.queue)
  numbered : (emittedOf L.cuts).map Batch.ordinal = List.range L.ordinal
  flight : L.flight + handedBatches L.handed = ↑(emittedOf L.cuts)
  last : ∀ pr, L.settling = some pr → ∃ before, L.handed = before ++ [pr]
  idle : L.settling = none → L.left = [] ∧ L.ackDue = none
  resolutions : ∃ ofHanded ofDropped : Multiset (Nat × Option BufferError),
    ↑L.resolved = ofHanded + ofDropped ∧
    ofHanded + owed (L.settling.bind PendingResolution.err) L.left = handedResolutions L.handed ∧
    ofDropped + owed (some .shutdown) L.dropLeft = droppedResolutions L.cuts
  acks : (↑(L.acked.map Prod.fst) : Multiset Nat) + (optionally L.serving +
    (optionally L.refusing + (acksOf L.flight + optionally L.ackDue))) = ↑(L.taken.map Prod.fst)

/-- **Step rule of the ledger.**  A step moves a message, a batch, a resolution or an
acknowledgement from one account to another. -/
theorem Conserved.step {L L' : Ledger} (h : Conserved L) (hs : LedgerStep L L') :
    Conserved L' := by
  obtain ⟨hpart, hnum, hflight, hlast, hidle, hres, hacks⟩ := h
  cases hs with
  | reserve m hgrant => exact ⟨hpart, hnum, hflight, hlast, hidle, hres, hacks⟩
  | cancel hheld => exact ⟨hpart, hnum, hflight, hlast, hidle, hres, hacks⟩
  | accept hheld =>
      refine ⟨?_, hnum, hflight, hlast, hidle, hres, hacks⟩
      simp [hpart]
  | take hqueue =>
      refine ⟨?_, hnum, hflight, hlast, hidle, hres, hacks⟩
      simp [hpart, hqueue]
  | handoff hheld hqueue =>
      refine ⟨?_, hnum, hflight, hlast, hidle, hres, hacks⟩
      simp [hpart, hqueue]
  | begin => exact ⟨hpart, hnum, hflight, hlast, hidle, hres, hacks⟩
  | request f hserving hbegun hdrop =>
      refine ⟨hpart, hnum, hflight, hlast, hidle, hres, ?_⟩
      simp only [hserving, optionally_none, zero_add] at hacks
      simp only [coe_fst_concat, optionally_some, ← hacks]
      abel
  | drain hqueue => exact ⟨hpart, hnum, hflight, hlast, hidle, hres, hacks⟩
  | acquire hroom hslot => exact ⟨hpart, hnum, hflight, hlast, hidle, hres, hacks⟩
  | emit b hslot hmsgs hack hordinal hdrained hdrop =>
      refine ⟨?_, ?_, ?_, hlast, hidle, ?_, ?_⟩
      · simp [hpart, Cut.msgs, hmsgs]
      · simp [hnum, hordinal, List.range_succ]
      · simp only [emittedOf_emitted, ← Multiset.coe_add, ← hflight, Multiset.coe_singleton,
          ← Multiset.singleton_add]
        abel
      · simpa only [droppedResolutions_emitted] using hres
      · simp only [acksOf_cons, hack, optionally_none, ← hacks]
        abel
  | drop hslot hdrop hrefusing =>
      refine ⟨?_, ?_, ?_, hlast, hidle, ?_, ?_⟩
      · simp [hpart, Cut.msgs]
      · simpa using hnum
      · simpa using hflight
      · obtain ⟨ofHanded, ofDropped, hsplit, hhanded, hdropped⟩ := hres
        refine ⟨ofHanded, ofDropped, hsplit, hhanded, ?_⟩
        rw [hdrop, owed_nil, add_zero] at hdropped
        rw [droppedResolutions_dropped, hdropped]
      · rw [← hacks, hrefusing]
        simp only [optionally_none]
        abel
  | @dropResolve w left hdrop =>
      refine ⟨hpart, hnum, hflight, hlast, hidle, ?_, hacks⟩
      obtain ⟨ofHanded, ofDropped, hsplit, hhanded, hdropped⟩ := hres
      refine ⟨ofHanded, ofDropped + {(w, some .shutdown)}, ?_, hhanded, ?_⟩
      · rw [← Multiset.coe_add, hsplit, Multiset.coe_singleton, add_assoc]
      · rw [← hdropped, hdrop, owed_cons, add_assoc]
  | @ackEmpty f hserving hopened hdrained hdrop =>
      refine ⟨hpart, hnum, hflight, hlast, hidle, hres, ?_⟩
      rw [← hacks, hserving]
      simp only [coe_fst_concat, optionally_some, optionally_none]
      abel
  | @ackDropped f hrefusing =>
      refine ⟨hpart, hnum, hflight, hlast, hidle, hres, ?_⟩
      rw [← hacks, hrefusing]
      simp only [coe_fst_concat, optionally_some, optionally_none]
      abel
  | @hand pr rest hfl hsettling =>
      obtain ⟨hleft, hdue⟩ := hidle hsettling
      refine ⟨hpart, hnum, ?_, ?_, ?_, ?_, ?_⟩
      · rw [← hflight, hfl]
        simp only [handedBatches, List.map_append, List.map_cons, List.map_nil,
          ← Multiset.coe_add, Multiset.coe_singleton, ← Multiset.singleton_add]
        abel
      · intro pr' hpr'
        cases hpr'
        exact ⟨L.handed, rfl⟩
      · intro hnone
        cases hnone
      · obtain ⟨ofHanded, ofDropped, hsplit, hhanded, hdropped⟩ := hres
        refine ⟨ofHanded, ofDropped, hsplit, ?_, hdropped⟩
        rw [hleft, owed_nil, add_zero] at hhanded
        rw [handedResolutions_append, hhanded]
        rfl
      · rw [← hacks, hfl, hdue]
        simp only [acksOf_cons, optionally_none, add_zero]
        abel
  | @resolve pr w left hsettling hleft =>
      refine ⟨hpart, hnum, hflight, hlast, ?_, ?_, hacks⟩
      · intro hnone
        simp [hsettling] at hnone
      · obtain ⟨ofHanded, ofDropped, hsplit, hhanded, hdropped⟩ := hres
        refine ⟨ofHanded + {(w, pr.err)}, ofDropped, ?_, ?_, hdropped⟩
        · rw [← Multiset.coe_add, hsplit, Multiset.coe_singleton]
          abel
        · rw [← hhanded, hleft, hsettling, Option.bind_some, owed_cons, add_assoc]
  | @ack pr f hsettling hleft hdue =>
      refine ⟨hpart, hnum, hflight, hlast, ?_, hres, ?_⟩
      · intro hnone
        simp [hsettling] at hnone
      · rw [← hacks, hdue]
        simp only [coe_fst_concat, optionally_some, optionally_none]
        abel
  | release hsettling hleft hdue =>
      refine ⟨hpart, hnum, hflight, ?_, fun _ => ⟨hleft, hdue⟩, ?_, hacks⟩
      · intro pr hpr
        cases hpr
      · simpa only [hleft, owed_nil] using hres

/-! ## History only grows -/

/-- What is recorded stays recorded. -/
structure Grows (L L' : Ledger) : Prop where
  begun : L.begun <+: L'.begun
  accepted : L.accepted <+: L'.accepted
  cuts : L.cuts <+: L'.cuts
  handed : L.handed <+: L'.handed
  resolved : L.resolved <+: L'.resolved
  taken : L.taken <+: L'.taken
  acked : L.acked <+: L'.acked

theorem Grows.refl (L : Ledger) : Grows L L :=
  ⟨List.prefix_rfl, List.prefix_rfl, List.prefix_rfl, List.prefix_rfl, List.prefix_rfl,
    List.prefix_rfl, List.prefix_rfl⟩

/-- What has been recorded stays recorded over several steps. -/
theorem Grows.trans {L L' L'' : Ledger} (h : Grows L L') (h' : Grows L' L'') : Grows L L'' :=
  ⟨h.begun.trans h'.begun, h.accepted.trans h'.accepted, h.cuts.trans h'.cuts,
    h.handed.trans h'.handed, h.resolved.trans h'.resolved, h.taken.trans h'.taken,
    h.acked.trans h'.acked⟩

/-- A step adds to the records and takes nothing back. -/
theorem LedgerStep.grows {L L' : Ledger} (hs : LedgerStep L L') : Grows L L' := by
  cases hs <;> constructor <;> simp

/-- An emitted batch stays emitted. -/
theorem Grows.emitted_subset {L L' : Ledger} (h : Grows L L') :
    emittedOf L.cuts ⊆ emittedOf L'.cuts := by
  intro b hb
  exact mem_emittedOf.mpr (h.cuts.subset (mem_emittedOf.mp hb))

/-! ## What the laws say about single batches and watchers -/

section Consequences

variable {L : Ledger}

/-- A batch in flight has been emitted. -/
theorem Conserved.flight_emitted (h : Conserved L) {b : Batch} (hb : b ∈ L.flight) :
    b ∈ emittedOf L.cuts := by
  rw [← Multiset.mem_coe, ← h.flight]
  exact Multiset.mem_add.mpr (Or.inl hb)

/-- A batch that is handed to the resolver has been emitted. -/
theorem Conserved.handed_emitted (h : Conserved L) {pr : PendingResolution} (hpr : pr ∈ L.handed) :
    pr.batch ∈ emittedOf L.cuts := by
  rw [← Multiset.mem_coe, ← h.flight]
  exact Multiset.mem_add.mpr (Or.inr (Multiset.mem_coe.mpr (List.mem_map_of_mem hpr)))

/-- Emitted batches are told apart by their ordinals. -/
theorem Conserved.emitted_inj (h : Conserved L) {b b' : Batch} (hb : b ∈ emittedOf L.cuts)
    (hb' : b' ∈ emittedOf L.cuts) (hordinal : b.ordinal = b'.ordinal) : b = b' := by
  have hnodup : ((emittedOf L.cuts).map Batch.ordinal).Nodup := by
    rw [h.numbered]
    exact List.nodup_range
  exact List.inj_on_of_nodup_map hnodup hb hb' hordinal

/-- A resolution is the outcome of a batch or the refusal of a dropped one. -/
theorem Conserved.of_resolved (h : Conserved L) {w : Nat} {e : Option BufferError}
    (hr : (w, e) ∈ L.resolved) :
    (∃ pr ∈ L.handed, w ∈ pr.batch.watchers ∧ e = pr.err) ∨
      (∃ msgs ∈ droppedOf L.cuts, w ∈ msgs.map AppendMessage.watcher ∧ e = some .shutdown) := by
  obtain ⟨ofHanded, ofDropped, hsplit, hhanded, hdropped⟩ := h.resolutions
  have hmem : (w, e) ∈ ofHanded + ofDropped := hsplit ▸ Multiset.mem_coe.mpr hr
  rcases Multiset.mem_add.mp hmem with hin | hin
  · have hall : (w, e) ∈ handedResolutions L.handed :=
      hhanded ▸ Multiset.mem_add.mpr (Or.inl hin)
    exact Or.inl (mem_handedResolutions.mp hall)
  · have hall : (w, e) ∈ droppedResolutions L.cuts :=
      hdropped ▸ Multiset.mem_add.mpr (Or.inl hin)
    exact Or.inr (mem_droppedResolutions.mp hall)

/-- The watchers of a handed batch are resolved, but for those that are left. -/
theorem Conserved.handed_resolved (h : Conserved L) {pr : PendingResolution} {w : Nat}
    (hpr : pr ∈ L.handed) (hw : w ∈ pr.batch.watchers) :
    (w, pr.err) ∈ L.resolved ∨ w ∈ L.left := by
  obtain ⟨ofHanded, ofDropped, hsplit, hhanded, _⟩ := h.resolutions
  have hall : (w, pr.err) ∈ handedResolutions L.handed :=
    mem_handedResolutions.mpr ⟨pr, hpr, hw, rfl⟩
  rw [← hhanded] at hall
  rcases Multiset.mem_add.mp hall with hin | hin
  · refine Or.inl (Multiset.mem_coe.mp ?_)
    rw [hsplit]
    exact Multiset.mem_add.mpr (Or.inl hin)
  · exact Or.inr (mem_owed.mp hin).1

/-- The watchers of a dropped batch are refused, but for those that are left. -/
theorem Conserved.dropped_resolved (h : Conserved L) {msgs : List AppendMessage}
    {m : AppendMessage} (hmsgs : msgs ∈ droppedOf L.cuts) (hm : m ∈ msgs) :
    (m.watcher, some .shutdown) ∈ L.resolved ∨ m.watcher ∈ L.dropLeft := by
  obtain ⟨ofHanded, ofDropped, hsplit, _, hdropped⟩ := h.resolutions
  have hall : (m.watcher, some BufferError.shutdown) ∈ droppedResolutions L.cuts :=
    mem_droppedResolutions.mpr ⟨msgs, hmsgs, List.mem_map_of_mem hm, rfl⟩
  rw [← hdropped] at hall
  rcases Multiset.mem_add.mp hall with hin | hin
  · refine Or.inl (Multiset.mem_coe.mp ?_)
    rw [hsplit]
    exact Multiset.mem_add.mpr (Or.inr hin)
  · exact Or.inr (mem_owed.mp hin).1

end Consequences

end OpenDataBuffer
