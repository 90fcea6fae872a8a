import OpenDataBuffer.CallerSteps

/-!
# The steps of the rotator, the encoders and the uploaders

A hand-over on an unbuffered channel is one step of both sides; it is listed
with the side that receives.  `appendCh` may have no buffer either, so the
rotator takes messages from its queue or directly from a call that stands at
its send.

An encode returns what `EncodeBatch` returns, or fails for any other reason.
A `Put` takes effect at some point before it returns, or not at all; if it
returns nil it has.
-/

namespace OpenDataBuffer

/-- The rotator behind `batch.add` in its main `select`. -/
def Producer.afterAdd (p : Producer) (batch : OpenBatch) : RotatorPhase :=
  if p.config.FlushSizeBytes ≤ (batch.acc.sizeBytes : Int) then emit .size none batch
  else .selecting

/-- The number of messages that have left the accumulator. -/
def cutLength (cuts : List Cut) : Nat := (cuts.flatMap Cut.msgs).length

/-- The rotator with its accumulator after `add`. -/
@[simp] def Rotator.add (r : Rotator) (msg : AppendMessage) (phase : RotatorPhase) : Rotator :=
  { r with batch := r.batch.add msg, phase := phase }

/-- The rotator at another point of its code. -/
@[simp] def Rotator.at (r : Rotator) (phase : RotatorPhase) : Rotator := { r with phase := phase }

inductive RotatorStep (p : Producer) (s : State) : Label → State → Prop
  | receive {msg : AppendMessage} {rest : List AppendMessage}
      (hphase : s.rotator.phase = .selecting) (hqueue : s.appendCh.queue = msg :: rest) :
      RotatorStep p s (.moves .rotator)
        { s with
          appendCh := { s.appendCh with queue := rest }
          rotator := s.rotator.add msg (p.afterAdd (s.rotator.batch.add msg)) }
  | handoff {i : Nat} {c : AppendCall} {msg : AppendMessage}
      (hphase : s.rotator.phase = .selecting) (hcap : p.config.MaxBufferedInputs = 0)
      (hqueue : s.appendCh.queue = []) (hopen : s.appendCh.closed = false)
      (hcall : s.appends[i]? = some c) (hsend : c.phase = .sending msg) :
      RotatorStep p s (.moves .rotator)
        { s with
          appends := s.appends.set i (c.at .accepted)
          rotator := s.rotator.add msg (p.afterAdd (s.rotator.batch.add msg))
          hist := { s.hist with accepted := s.hist.accepted ++ [msg] } }
  | receiveClosed (hphase : s.rotator.phase = .selecting) (hqueue : s.appendCh.queue = [])
      (hclosed : s.appendCh.closed = true) :
      RotatorStep p s (.moves .rotator)
        { s with rotator := s.rotator.at (emit .shutdown none s.rotator.batch) }
  | takeFlush {f : Nat} {c : FlushCall} (hphase : s.rotator.phase = .selecting)
      (hcall : s.flushes[f]? = some c) (hrequest : c.phase = .requesting) :
      RotatorStep p s (.moves .rotator)
        { s with
          flushes := s.flushes.set f (c.at .awaiting)
          rotator := s.rotator.at (.draining f)
          hist := { s.hist with taken := s.hist.taken ++ [(f, cutLength s.hist.cuts)] } }
  | drainReceive {f : Nat} {msg : AppendMessage} {rest : List AppendMessage}
      (hphase : s.rotator.phase = .draining f) (hqueue : s.appendCh.queue = msg :: rest) :
      RotatorStep p s (.moves .rotator)
        { s with
          appendCh := { s.appendCh with queue := rest }
          rotator := s.rotator.add msg (.draining f) }
  | drainHandoff {f i : Nat} {c : AppendCall} {msg : AppendMessage}
      (hphase : s.rotator.phase = .draining f) (hcap : p.config.MaxBufferedInputs = 0)
      (hqueue : s.appendCh.queue = []) (hopen : s.appendCh.closed = false)
      (hcall : s.appends[i]? = some c) (hsend : c.phase = .sending msg) :
      RotatorStep p s (.moves .rotator)
        { s with
          appends := s.appends.set i (c.at .accepted)
          rotator := s.rotator.add msg (.draining f)
          hist := { s.hist with accepted := s.hist.accepted ++ [msg] } }
  | drainDone {f : Nat} (hphase : s.rotator.phase = .draining f)
      (hqueue : s.appendCh.queue = []) :
      RotatorStep p s (.moves .rotator)
        { s with rotator := s.rotator.at (emit .manual (some f) s.rotator.batch) }
  | timer (hphase : s.rotator.phase = .selecting) (hstarted : s.rotator.batch.acc.started = true) :
      RotatorStep p s (.moves .rotator)
        { s with rotator := s.rotator.at (emit .time none s.rotator.batch) }
  | acquire {reason : FlushReason} {ack : Option Nat} {b : ProducerBudget}
      (hphase : s.rotator.phase = .acquiring reason ack)
      (hgrant : s.budget.acquireBatchSlot = .granted b) :
      RotatorStep p s (.moves .rotator)
        { s with rotator := s.rotator.at (.reconciling reason ack), budget := b }
  | park {reason : FlushReason} {ack : Option Nat} {b : ProducerBudget} {ch : Nat}
      (hphase : s.rotator.phase = .acquiring reason ack)
      (hwait : s.budget.acquireBatchSlot = .wait b ch) :
      RotatorStep p s (.moves .rotator)
        { s with rotator := s.rotator.at (.parked reason ack ch), budget := b }
  | wake {reason : FlushReason} {ack : Option Nat} {ch : Nat}
      (hphase : s.rotator.phase = .parked reason ack ch) (hclosed : ch ∈ s.budget.closed) :
      RotatorStep p s (.moves .rotator)
        { s with rotator := s.rotator.at (.acquiring reason ack) }
  | refused {reason : FlushReason} {ack : Option Nat} {ch : Nat}
      (hphase : s.rotator.phase = .parked reason ack ch) (hshutdown : s.shutdown = true) :
      RotatorStep p s (.moves .rotator)
        { s with rotator := s.rotator.at (.dropping reason ack) }
  | drop {reason : FlushReason} {ack : Option Nat}
      (hphase : s.rotator.phase = .dropping reason ack) :
      RotatorStep p s (.moves .rotator)
        { s with
          rotator :=
            { s.rotator with
              batch := OpenBatch.empty
              phase := .resolvingDrop reason ack s.rotator.batch.acc.watchers }
          budget := s.budget.release s.rotator.batch.acc.byteCost 0
          hist := { s.hist with cuts := s.hist.cuts ++ [.dropped s.rotator.batch.msgs] } }
  | dropResolve {reason : FlushReason} {ack : Option Nat} {w : Nat} {left : List Nat}
      (hphase : s.rotator.phase = .resolvingDrop reason ack (w :: left)) :
      RotatorStep p s (.moves .rotator)
        { s with
          rotator := s.rotator.at (.resolvingDrop reason ack left)
          hist := { s.hist with resolved := s.hist.resolved ++ [(w, some .shutdown)] } }
  | dropDone {reason : FlushReason} {ack : Option Nat}
      (hphase : s.rotator.phase = .resolvingDrop reason ack []) :
      RotatorStep p s (.moves .rotator)
        { s with rotator := s.rotator.at (afterDrop reason ack) }
  | ack {reason : FlushReason} {f : Nat} {err : Option BufferError} {c : FlushCall}
      (hphase : s.rotator.phase = .acking reason f err) (hcall : s.flushes[f]? = some c)
      (hroom : c.result = []) :
      RotatorStep p s (.moves .rotator)
        { s with
          flushes := s.flushes.set f (c.holding [err])
          rotator := s.rotator.at (afterEmit reason)
          hist := { s.hist with acked := s.hist.acked ++ [(f, err)] } }
  | reconcile {reason : FlushReason} {ack : Option Nat}
      (hphase : s.rotator.phase = .reconciling reason ack) :
      RotatorStep p s (.moves .rotator)
        { s with
          rotator :=
            { batch := OpenBatch.empty
              ordinal := s.rotator.ordinal + 1
              phase := .sendingPending (s.rotator.batch.pending s.rotator.ordinal reason ack) }
          budget := s.budget.addReservation (framingExtra s.rotator.batch.acc.entries.length)
          hist := { s.hist with
            cuts := s.hist.cuts ++
              [.emitted (s.rotator.batch.batch s.rotator.ordinal reason ack)] } }
  | sendClosed {pb : PendingBatch} (hphase : s.rotator.phase = .sendingPending pb)
      (hclosed : s.pendingClosed) :
      RotatorStep p s (.panics .pendingCh) { s with panicked := some .pendingCh }
  | closePending (hphase : s.rotator.phase = .closingPending) :
      RotatorStep p s (.moves .rotator) { s with rotator := s.rotator.at .closingDone }
  | closeDone (hphase : s.rotator.phase = .closingDone) :
      RotatorStep p s (.moves .rotator) { s with rotator := s.rotator.at .exited }

/-- The rotator takes the request of flush call `f`. -/
structure TakesRequest (p : Producer) (s : State) (f : Nat) (t : State) : Prop where
  step : RotatorStep p s (.moves .rotator) t
  phase : t.rotator.phase = .draining f
  taken : t.hist.taken = s.hist.taken ++ [(f, cutLength s.hist.cuts)]

/-- The record the encoder sends on after a successful encode. -/
def Producer.encodedBatch (p : Producer) (pb : PendingBatch) (payload : Bytes) :
    EncodedBatch where
  toBatch := pb.toBatch
  payload := payload
  location := p.location pb.ordinal
  size := payload.length

/-- The synthetic completion of a batch that could not be encoded. -/
def encodeFailure (pb : PendingBatch) (err : BufferError) : UploadCompletion where
  eb := { toBatch := pb.toBatch, payload := [], location := [], size := 0 }
  putError := some err
  encodeFailed := true

inductive EncoderStep (p : Producer) (s : State) : Label → State → Prop
  | take {i : Nat} {pb : PendingBatch} (henc : s.encoders[i]? = some .receiving)
      (hsend : s.rotator.phase = .sendingPending pb) :
      EncoderStep p s (.moves .encoder)
        { s with
          rotator := s.rotator.at (afterEmit pb.reason)
          encoders := s.encoders.set i (.encoding pb) }
  | exit {i : Nat} (henc : s.encoders[i]? = some .receiving) (hclosed : s.pendingClosed) :
      EncoderStep p s (.moves .encoder) { s with encoders := s.encoders.set i .exited }
  | encoded {i : Nat} {pb : PendingBatch} {payload : Bytes}
      (henc : s.encoders[i]? = some (.encoding pb))
      (hok : EncodeBatch p.zstd pb.entries p.config.BatchCompression = .ok payload) :
      EncoderStep p s (.moves .encoder)
        { s with encoders := s.encoders.set i (.sendingEncoded (p.encodedBatch pb payload)) }
  | encodeFails {i : Nat} {pb : PendingBatch} (err : BufferError)
      (henc : s.encoders[i]? = some (.encoding pb)) :
      EncoderStep p s (.moves .encoder)
        { s with encoders := s.encoders.set i (.sendingCompletion (encodeFailure pb err)) }
  | complete {i : Nat} {uc : UploadCompletion}
      (henc : s.encoders[i]? = some (.sendingCompletion uc))
      (hopen : s.uploadCompletionCh.closed = false)
      (hroom : s.uploadCompletionCh.queue.length < p.completionBuf) :
      EncoderStep p s (.moves .encoder)
        { s with
          encoders := s.encoders.set i .receiving
          uploadCompletionCh :=
            { s.uploadCompletionCh with queue := s.uploadCompletionCh.queue ++ [uc] } }
  | completeClosed {i : Nat} {uc : UploadCompletion}
      (henc : s.encoders[i]? = some (.sendingCompletion uc))
      (hclosed : s.uploadCompletionCh.closed = true) :
      EncoderStep p s (.panics .uploadCompletionCh)
        { s with panicked := some .uploadCompletionCh }
  | sendClosed {i : Nat} {eb : EncodedBatch} (henc : s.encoders[i]? = some (.sendingEncoded eb))
      (hclosed : s.encoderPool ≠ .waiting) :
      EncoderStep p s (.panics .encodedCh) { s with panicked := some .encodedCh }
  | closeEncoded (hpool : s.encoderPool = .waiting) (hall : ∀ e ∈ s.encoders, e = .exited) :
      EncoderStep p s (.moves .encoder) { s with encoderPool := .closedOutput }
  | closePoolDone (hpool : s.encoderPool = .closedOutput) :
      EncoderStep p s (.moves .encoder) { s with encoderPool := .done }

/-- The completion of an upload; the payload is dropped. -/
def uploadCompletion (eb : EncodedBatch) (putError : Option BufferError) : UploadCompletion where
  eb := { eb with payload := [] }
  putError := putError
  encodeFailed := false

/-- `putWithRetry` behind a `Put` that returned an error. -/
def Producer.afterPutError (p : Producer) (eb : EncodedBatch) (attempt : Nat) (err : StoreError) :
    UploaderPhase :=
  if attempt + 1 < p.uploadMaxAttempts then .backoff eb attempt
  else .sendingCompletion (uploadCompletion eb (some (storageErr err.text)))

inductive UploaderStep (p : Producer) (s : State) : Label → State → Prop
  | take {i j : Nat} {eb : EncodedBatch} (henc : s.encoders[i]? = some (.sendingEncoded eb))
      (hup : s.uploaders[j]? = some .receiving) (hopen : s.encoderPool = .waiting) :
      UploaderStep p s (.moves .uploader)
        { s with
          encoders := s.encoders.set i .receiving
          uploaders := s.uploaders.set j (.putting eb 0 false) }
  | exit {j : Nat} (hup : s.uploaders[j]? = some .receiving) (hclosed : s.encoderPool ≠ .waiting) :
      UploaderStep p s (.moves .uploader) { s with uploaders := s.uploaders.set j .exited }
  | putApplies {j attempt : Nat} {eb : EncodedBatch} (version : Version)
      (hup : s.uploaders[j]? = some (.putting eb attempt false))
      (hnames : s.store.Names eb.location ⟨eb.payload, version⟩) :
      UploaderStep p s (.moves .uploader)
        { s with
          uploaders := s.uploaders.set j (.putting eb attempt true)
          store := s.store.write eb.location ⟨eb.payload, version⟩ }
  | putOk {j attempt : Nat} {eb : EncodedBatch}
      (hup : s.uploaders[j]? = some (.putting eb attempt true)) :
      UploaderStep p s (.moves .uploader)
        { s with uploaders := s.uploaders.set j (.sendingCompletion (uploadCompletion eb none)) }
  | putFails {j attempt : Nat} {eb : EncodedBatch} {applied : Bool} (err : StoreError)
      (hup : s.uploaders[j]? = some (.putting eb attempt applied)) :
      UploaderStep p s (.putFails j applied)
        { s with uploaders := s.uploaders.set j (p.afterPutError eb attempt err) }
  | retry {j attempt : Nat} {eb : EncodedBatch}
      (hup : s.uploaders[j]? = some (.backoff eb attempt)) :
      UploaderStep p s (.moves .uploader)
        { s with uploaders := s.uploaders.set j (.putting eb (attempt + 1) false) }
  | abandon {j attempt : Nat} {eb : EncodedBatch}
      (hup : s.uploaders[j]? = some (.backoff eb attempt)) (hshutdown : s.shutdown = true) :
      UploaderStep p s (.moves .uploader)
        { s with uploaders :=
            s.uploaders.set j (.sendingCompletion (uploadCompletion eb (some .shutdown))) }
  | complete {j : Nat} {uc : UploadCompletion}
      (hup : s.uploaders[j]? = some (.sendingCompletion uc))
      (hopen : s.uploadCompletionCh.closed = false)
      (hroom : s.uploadCompletionCh.queue.length < p.completionBuf) :
      UploaderStep p s (.moves .uploader)
        { s with
          uploaders := s.uploaders.set j .receiving
          uploadCompletionCh :=
            { s.uploadCompletionCh with queue := s.uploadCompletionCh.queue ++ [uc] } }
  | completeClosed {j : Nat} {uc : UploadCompletion}
      (hup : s.uploaders[j]? = some (.sendingCompletion uc))
      (hclosed : s.uploadCompletionCh.closed = true) :
      UploaderStep p s (.panics .uploadCompletionCh)
        { s with panicked := some .uploadCompletionCh }
  | closeCompletions (hpool : s.uploaderPool = .waiting) (hall : ∀ u ∈ s.uploaders, u = .exited) :
      UploaderStep p s (.moves .uploader)
        { s with
          uploaderPool := .closedOutput
          uploadCompletionCh := { s.uploadCompletionCh with closed := true } }
  | closePoolDone (hpool : s.uploaderPool = .closedOutput) :
      UploaderStep p s (.moves .uploader) { s with uploaderPool := .done }

end OpenDataBuffer
