import OpenDataBuffer.Collecting
import OpenDataBuffer.ListUpdate

/-!
# The ledger of a producer

`State.ledger` reads custody off a state: every goroutine holds what the point
of its code it stands at says.  Two small invariants about single goroutines
make the reading right: where the rotator's accumulator is empty and where it
is not (`RotatorPhase.Coherent`), and that the item the resolver works on is
the last one handed to it (`ResolverPhase.Holds`).
-/

namespace OpenDataBuffer

open ListUpdate

/-! ## What each goroutine holds -/

/-- The reservation of an `AppendContext` call that has not sent. -/
def AppendPhase.held : AppendPhase → Multiset AppendMessage
  | .sending msg => {msg}
  | .aborting msg _ => {msg}
  | _ => 0

def heldBy (appends : List AppendCall) : Multiset AppendMessage :=
  (appends.map fun c => c.phase.held).sum

namespace RotatorPhase

def slot : RotatorPhase → Bool
  | .reconciling _ _ => true
  | _ => false

def serving : RotatorPhase → Option Nat
  | .draining f => some f
  | .acquiring _ ack => ack
  | .parked _ ack _ => ack
  | .dropping _ ack => ack
  | .acking _ f none => some f
  | .reconciling _ ack => ack
  | _ => none

def refusing : RotatorPhase → Option Nat
  | .resolvingDrop _ ack _ => ack
  | .acking _ f (some _) => some f
  | _ => none

def drained : RotatorPhase → Bool
  | .draining _ => false
  | _ => true

def dropLeft : RotatorPhase → List Nat
  | .resolvingDrop _ _ left => left
  | _ => []

def flight : RotatorPhase → Multiset Batch
  | .sendingPending pb => {pb.toBatch}
  | _ => 0

/-- Where the accumulator is empty, and where it is not. -/
def Coherent : RotatorPhase → List AppendMessage → Prop
  | .selecting, _ => True
  | .draining _, _ => True
  | .acquiring _ _, msgs => msgs ≠ []
  | .parked _ _ _, msgs => msgs ≠ []
  | .dropping _ _, msgs => msgs ≠ []
  | .reconciling _ _, msgs => msgs ≠ []
  | .acking _ _ err, msgs => msgs = [] ∧ (err = none ∨ err = some .shutdown)
  | _, msgs => msgs = []

end RotatorPhase

def EncoderPhase.flight : EncoderPhase → Multiset Batch
  | .encoding pb => {pb.toBatch}
  | .sendingEncoded eb => {eb.toBatch}
  | .sendingCompletion uc => {uc.batch}
  | _ => 0

def UploaderPhase.flight : UploaderPhase → Multiset Batch
  | .putting eb _ _ => {eb.toBatch}
  | .backoff eb _ => {eb.toBatch}
  | .sendingCompletion uc => {uc.batch}
  | _ => 0

/-- What the committer has cut off and not handed over. -/
def CommitterPhase.inHand : CommitterPhase → Multiset Batch
  | .cas group failed _ => batchesOf group + handedBatches failed
  | .notifying left => handedBatches left
  | .resolving left _ => handedBatches left
  | _ => 0

namespace ResolverPhase

def item? : ResolverPhase → Option ResolverItem
  | .observing ri => some ri
  | .resolving ri _ => some ri
  | .acking ri => some ri
  | .releasing ri => some ri
  | _ => none

def left : ResolverPhase → List Nat
  | .observing ri => ri.watchers
  | .resolving _ left => left
  | _ => []

def ackDue : ResolverPhase → Option Nat
  | .observing ri => ri.flushAck
  | .resolving ri _ => ri.flushAck
  | .acking ri => ri.flushAck
  | _ => none

/-- The item at hand is the last one handed over. -/
def Holds (r : ResolverPhase) (handed : List PendingResolution) : Prop :=
  ∀ ri, r.item? = some ri → ∃ pr, handed.getLast? = some pr ∧ ri = pr.item

end ResolverPhase

/-! ## The state as a ledger -/

/-- The batches before the committer. -/
def State.upstream (s : State) : Multiset Batch :=
  s.rotator.phase.flight + ((s.encoders.map EncoderPhase.flight).sum +
    ((s.uploaders.map UploaderPhase.flight).sum + batchesOf s.uploadCompletionCh.queue))

/-- All batches without a handed outcome. -/
def State.flight (s : State) : Multiset Batch :=
  s.upstream + (batchesOf s.committer.ready + s.committer.phase.inHand)

/-- The outcome the resolver works on. -/
def State.settling (s : State) : Option PendingResolution :=
  match s.resolver.item? with
  | some _ => s.hist.handed.getLast?
  | none => none

def State.ledger (s : State) : Ledger where
  bytesUsed := s.budget.bytesUsed
  batchesUsed := s.budget.batchesUsed
  maxBytes := s.budget.maxBytes
  maxBatches := s.budget.maxBatches
  held := heldBy s.appends
  queue := s.appendCh.queue
  opened := s.rotator.batch.msgs
  ordinal := s.rotator.ordinal
  slot := s.rotator.phase.slot
  serving := s.rotator.phase.serving
  drained := s.rotator.phase.drained
  refusing := s.rotator.phase.refusing
  dropLeft := s.rotator.phase.dropLeft
  flight := s.flight
  settling := s.settling
  left := s.resolver.left
  ackDue := s.resolver.ackDue
  begun := s.flushes.map FlushCall.begun
  accepted := s.hist.accepted
  cuts := s.hist.cuts
  handed := s.hist.handed
  resolved := s.hist.resolved
  taken := s.hist.taken
  acked := s.hist.acked

/-- The two invariants about single goroutines. -/
structure Coherent (s : State) : Prop where
  rotator : s.rotator.phase.Coherent s.rotator.batch.msgs
  resolver : s.resolver.Holds s.hist.handed

/-! ## Small facts about the phases -/

section Flight

variable {s : State}

/-- A batch that an encoder works on is in flight, besides what waits for the
committer. -/
theorem encoder_flight {i : Nat} {e : EncoderPhase} {b : Batch} (henc : s.encoders[i]? = some e)
    (hflight : e.flight = {b}) :
    ∃ rest, s.flight = b ::ₘ (batchesOf s.uploadCompletionCh.queue + rest) := by
  obtain ⟨rest, hsum, _⟩ := ListUpdate.sum_map_set EncoderPhase.flight henc
  refine ⟨s.rotator.phase.flight + (rest + ((s.uploaders.map UploaderPhase.flight).sum +
    (batchesOf s.committer.ready + s.committer.phase.inHand))), ?_⟩
  rw [State.flight, State.upstream, hsum, hflight, ← Multiset.singleton_add]
  abel

/-- A batch that an uploader works on is in flight, besides what waits for the
committer. -/
theorem uploader_flight {j : Nat} {u : UploaderPhase} {b : Batch}
    (hup : s.uploaders[j]? = some u) (hflight : u.flight = {b}) :
    ∃ rest, s.flight = b ::ₘ (batchesOf s.uploadCompletionCh.queue + rest) := by
  obtain ⟨rest, hsum, _⟩ := ListUpdate.sum_map_set UploaderPhase.flight hup
  refine ⟨s.rotator.phase.flight + ((s.encoders.map EncoderPhase.flight).sum + (rest +
    (batchesOf s.committer.ready + s.committer.phase.inHand))), ?_⟩
  rw [State.flight, State.upstream, hsum, hflight, ← Multiset.singleton_add]
  abel

end Flight

theorem afterEmit_coherent {reason : FlushReason} {msgs : List AppendMessage} (h : msgs = []) :
    (afterEmit reason).Coherent msgs := by
  unfold afterEmit
  split
  · exact h
  · trivial

/-- A point of `emit` with its request, without a slot and with nothing in
flight. -/
structure Quiet (phase : RotatorPhase) (ack refusal : Option Nat) : Prop where
  serving : phase.serving = ack
  refusing : phase.refusing = refusal
  slot : phase.slot = false
  drained : phase.drained = true
  dropLeft : phase.dropLeft = []
  flight : phase.flight = 0

theorem quiet_afterEmit (reason : FlushReason) : Quiet (afterEmit reason) none none := by
  unfold afterEmit
  split <;> exact ⟨rfl, rfl, rfl, rfl, rfl, rfl⟩

theorem quiet_emit (reason : FlushReason) (ack : Option Nat) (b : OpenBatch) :
    Quiet (emit reason ack b) ack none := by
  unfold emit
  split
  · cases ack with
    | none => exact quiet_afterEmit reason
    | some f => exact ⟨rfl, rfl, rfl, rfl, rfl, rfl⟩
  · exact ⟨rfl, rfl, rfl, rfl, rfl, rfl⟩

theorem quiet_afterAdd (p : Producer) (b : OpenBatch) : Quiet (p.afterAdd b) none none := by
  unfold Producer.afterAdd
  split
  · exact quiet_emit .size none b
  · exact ⟨rfl, rfl, rfl, rfl, rfl, rfl⟩

theorem quiet_afterDrop (reason : FlushReason) (ack : Option Nat) :
    Quiet (afterDrop reason ack) none ack := by
  unfold afterDrop
  cases ack with
  | none => exact quiet_afterEmit reason
  | some f => exact ⟨rfl, rfl, rfl, rfl, rfl, rfl⟩

/-- `emit` goes for a slot only with a nonempty batch. -/
theorem emit_coherent (reason : FlushReason) (ack : Option Nat) (b : OpenBatch) :
    (emit reason ack b).Coherent b.msgs := by
  unfold emit
  by_cases hempty : b.acc.isEmpty = true
  · have hmsgs := (OpenBatch.isEmpty_iff b).mp hempty
    rw [if_pos hempty]
    cases ack with
    | none => exact afterEmit_coherent hmsgs
    | some f => exact ⟨hmsgs, Or.inl rfl⟩
  · rw [if_neg hempty]
    exact fun hmsgs => hempty ((OpenBatch.isEmpty_iff b).mpr hmsgs)

/-- The rotator is at the `select`, or emits the batch with the new message. -/
theorem afterAdd_coherent (p : Producer) (b : OpenBatch) : (p.afterAdd b).Coherent b.msgs := by
  unfold Producer.afterAdd
  split
  · exact emit_coherent .size none b
  · trivial

theorem afterDrop_coherent {reason : FlushReason} {ack : Option Nat} {msgs : List AppendMessage}
    (h : msgs = []) : (afterDrop reason ack).Coherent msgs := by
  unfold afterDrop
  cases ack with
  | none => exact afterEmit_coherent h
  | some f => exact ⟨h, Or.inr rfl⟩

/-! ## The goroutine invariants hold in every run -/

/-- The rotator and the resolver with its hand-overs are as before. -/
theorem Coherent.of_same {s t : State} (h : Coherent s) (hrot : t.rotator = s.rotator)
    (hres : t.resolver = s.resolver) (hhanded : t.hist.handed = s.hist.handed) : Coherent t :=
  ⟨by rw [hrot]; exact h.rotator, by rw [hres, hhanded]; exact h.resolver⟩

/-- The rotator knows where its accumulator is empty. -/
theorem RotatorStep.coherent {p : Producer} {s t : State} {l : Label} (hs : RotatorStep p s l t)
    (h : s.rotator.phase.Coherent s.rotator.batch.msgs) :
    t.rotator.phase.Coherent t.rotator.batch.msgs := by
  cases hs with
  | receive hphase hqueue => exact afterAdd_coherent _ _
  | handoff hphase hcap hqueue hopen hcall hsend => exact afterAdd_coherent _ _
  | receiveClosed hphase hqueue hclosed => exact emit_coherent _ _ _
  | takeFlush hphase hcall hrequest => trivial
  | drainReceive hphase hqueue => trivial
  | drainHandoff hphase hcap hqueue hopen hcall hsend => trivial
  | drainDone hphase hqueue => exact emit_coherent _ _ _
  | timer hphase hstarted => exact emit_coherent _ _ _
  | acquire hphase hgrant => rw [hphase] at h; exact h
  | park hphase hwait => rw [hphase] at h; exact h
  | wake hphase hclosed => rw [hphase] at h; exact h
  | refused hphase hshutdown => rw [hphase] at h; exact h
  | drop hphase => rfl
  | dropResolve hphase => rw [hphase] at h; exact h
  | dropDone hphase => rw [hphase] at h; exact afterDrop_coherent h
  | ack hphase hcall hroom => rw [hphase] at h; exact afterEmit_coherent h.1
  | reconcile hphase => rfl
  | sendClosed hphase hclosed => exact h
  | closePending hphase => rw [hphase] at h; exact h
  | closeDone hphase => rw [hphase] at h; exact h

/-- The rotator keeps the view coherent: each phase says what its batch is. -/
theorem Coherent.rotatorStep {p : Producer} {s t : State} {l : Label} (h : Coherent s)
    (hs : RotatorStep p s l t) : Coherent t := by
  have hsame : t.resolver = s.resolver ∧ t.hist.handed = s.hist.handed := by
    cases hs <;> exact ⟨rfl, rfl⟩
  refine ⟨hs.coherent h.rotator, ?_⟩
  rw [hsame.1, hsame.2]
  exact h.resolver

/-- An encoder takes the batch that the rotator hands over. -/
theorem Coherent.encoderStep {p : Producer} {s t : State} {l : Label} (h : Coherent s)
    (hs : EncoderStep p s l t) : Coherent t := by
  cases hs with
  | take henc hsend =>
      have hrot := h.rotator
      rw [hsend] at hrot
      exact ⟨afterEmit_coherent hrot, h.resolver⟩
  | _ => exact h.of_same rfl rfl rfl

/-- What the resolver works on is what counts, not how far it is. -/
theorem ResolverPhase.Holds.same_item {r r' : ResolverPhase} {handed : List PendingResolution}
    (h : r.Holds handed) (hitem : r'.item? = r.item?) : r'.Holds handed := by
  intro ri hri
  rw [hitem] at hri
  exact h ri hri

/-- The resolver works on the last item it was handed. -/
theorem Coherent.resolverStep {p : Producer} {s t : State} {l : Label} (h : Coherent s)
    (hs : ResolverStep p s l t) : Coherent t := by
  cases hs with
  | @take pr left after hphase hsend hopen =>
      refine ⟨h.rotator, ?_⟩
      intro ri hri
      cases hri
      exact ⟨pr, by simp, rfl⟩
  | observe hphase => exact ⟨h.rotator, h.resolver.same_item (by rw [hphase]; rfl)⟩
  | resolve hphase => exact ⟨h.rotator, h.resolver.same_item (by rw [hphase]; rfl)⟩
  | @resolvedAll ri hphase =>
      refine ⟨h.rotator, h.resolver.same_item ?_⟩
      rw [hphase]
      show (afterWatchers ri).item? = some ri
      unfold afterWatchers
      split <;> rfl
  | ack hphase hack hcall hroom => exact ⟨h.rotator, h.resolver.same_item (by rw [hphase]; rfl)⟩
  | release hphase => exact ⟨h.rotator, fun ri hri => by cases hri⟩
  | exit hphase hclosed => exact ⟨h.rotator, fun ri hri => by cases hri⟩
  | closeResolver hdone hopen => exact h.of_same rfl rfl rfl

/-- **Coherence is kept by every step.** -/
theorem Coherent.step {p : Producer} {s t : State} {l : Label} (h : Coherent s)
    (hs : ProducerStep p s l t) : Coherent t := by
  cases hs with
  | append _ hs => cases hs <;> exact h.of_same rfl rfl rfl
  | flush _ hs => cases hs <;> exact h.of_same rfl rfl rfl
  | close _ hs => cases hs <;> exact h.of_same rfl rfl rfl
  | rotator _ hs => exact h.rotatorStep hs
  | encoder _ hs => exact h.encoderStep hs
  | uploader _ hs => cases hs <;> exact h.of_same rfl rfl rfl
  | committer _ hs => cases hs <;> exact h.of_same rfl rfl rfl
  | resolver _ hs => exact h.resolverStep hs
  | others hs => cases hs <;> exact h.of_same rfl rfl rfl

end OpenDataBuffer
