import Mathlib.Tactic.Ring
import OpenDataBuffer.Batching
import OpenDataBuffer.Budget
import OpenDataBuffer.ManifestLog

/-!
# The state of a producer

A producer is a rotator, a pool of encoders, a pool of uploaders, a committer
and a resolver, connected by channels, and the calls its users make.  Each
goroutine and each call is described by the point of its code it stands at;
the points are those where another goroutine can take part or interfere: a
channel operation, a mutex region, an atomic variable, a store call.

The last part of the state is history.  It records what happened, in order, so
that statements about whole runs can be made about a single state; no step
looks at it.
-/

namespace OpenDataBuffer

/-! ## Configuration -/

structure ProducerConfig where
  DataPathPrefix : Bytes
  ManifestPath : Bytes
  FlushSizeBytes : Int
  MaxBufferedInputs : Nat
  BatchCompression : CompressionType
  /-- Whether an observer is set. -/
  Observer : Bool
  EncodeConcurrency : Int
  UploadConcurrency : Int
  MaxInFlightBatches : Int
  MaxInFlightBytes : Int
  ManifestAppendBatchSize : Int
  UploadMaxAttempts : Int
  ManifestMaxAttempts : Int

def DefaultMaxInFlightBatches : Int := 64

def DefaultMaxInFlightBytes : Int := 256 * 1024 * 1024

def DefaultUploadMaxAttempts : Int := 6

def DefaultManifestMaxAttempts : Int := 6

/-- The defaults `NewProducer` fills in. -/
def ProducerConfig.withDefaults (c : ProducerConfig) : ProducerConfig :=
  { c with
    MaxInFlightBytes :=
      if c.MaxInFlightBytes < 1 then DefaultMaxInFlightBytes else c.MaxInFlightBytes
    MaxInFlightBatches :=
      if c.MaxInFlightBatches < 1 then DefaultMaxInFlightBatches else c.MaxInFlightBatches
    UploadMaxAttempts :=
      if c.UploadMaxAttempts < 1 then DefaultUploadMaxAttempts else c.UploadMaxAttempts
    ManifestMaxAttempts :=
      if c.ManifestMaxAttempts < 1 then DefaultManifestMaxAttempts else c.ManifestMaxAttempts }

/-- The fallback `if n < 1 { n = 1 }` of the pools, the committer and the
retry loops. -/
def atLeastOne (n : Int) : Nat := if n < 1 then 1 else n.toNat

/-- A bound that is set to at least one is positive. -/
theorem atLeastOne_pos (n : Int) : 0 < atLeastOne n := by
  unfold atLeastOne
  split <;> omega

/-- What stays fixed over the life of a producer.  Its configuration has the
defaults filled in, so both caps of the budget are positive. -/
structure Producer where
  config : ProducerConfig
  runID : Bytes
  zstd : Zstd
  bytes_pos : 1 ≤ config.MaxInFlightBytes
  batches_pos : 1 ≤ config.MaxInFlightBatches

namespace Producer

/-- The producer that `NewProducer` makes of any configuration. -/
def new (c : ProducerConfig) (runID : Bytes) (zstd : Zstd) : Producer where
  config := c.withDefaults
  runID := runID
  zstd := zstd
  bytes_pos := by
    show 1 ≤ if c.MaxInFlightBytes < 1 then DefaultMaxInFlightBytes else c.MaxInFlightBytes
    split
    · decide
    · omega
  batches_pos := by
    show 1 ≤ if c.MaxInFlightBatches < 1 then DefaultMaxInFlightBatches else c.MaxInFlightBatches
    split
    · decide
    · omega

def encodeConcurrency (p : Producer) : Nat := atLeastOne p.config.EncodeConcurrency

def uploadConcurrency (p : Producer) : Nat := atLeastOne p.config.UploadConcurrency

def batchSize (p : Producer) : Nat := atLeastOne p.config.ManifestAppendBatchSize

def uploadMaxAttempts (p : Producer) : Nat := atLeastOne p.config.UploadMaxAttempts

def manifestMaxAttempts (p : Producer) : Nat := atLeastOne p.config.ManifestMaxAttempts

/-- The capacity of `uploadCompletionCh`. -/
def completionBuf (p : Producer) : Nat := atLeastOne p.config.MaxInFlightBatches

end Producer

/-! ## Locations -/

/-- One lower-case hexadecimal digit. -/
def hexDigit (d : Nat) : UInt8 := UInt8.ofNat (if d < 10 then 48 + d else 87 + d)

/-- The `w` lowest hexadecimal digits, highest first. -/
def hexDigits : Nat → Nat → Bytes
  | 0, _ => []
  | w + 1, n => hexDigits w (n / 16) ++ [hexDigit (n % 16)]

/-- The verb `%016x`. -/
def hex016 (n : Nat) : Bytes := hexDigits (max 16 (Nat.log2 n / 4 + 1)) n

/-- `<data_path_prefix>/<runID>/<ordinal:016x>`. -/
def Producer.location (p : Producer) (ordinal : Nat) : Bytes :=
  p.config.DataPathPrefix ++ 47 :: (p.runID ++ 47 :: hex016 ordinal)

theorem hexDigits_length (w n : Nat) : (hexDigits w n).length = w := by
  induction w generalizing n with
  | zero => rfl
  | succ w ih => simp [hexDigits, ih]

/-- Different digits are different characters. -/
theorem hexDigit_inj {a b : Nat} (ha : a < 16) (hb : b < 16) (h : hexDigit a = hexDigit b) :
    a = b := by
  have hnat := congrArg UInt8.toNat h
  simp only [hexDigit, UInt8.toNat_ofNat'] at hnat
  split at hnat <;> split at hnat <;> omega

/-- Numbers that fit into `w` digits are read off their digits. -/
theorem hexDigits_inj {w a b : Nat} (ha : a < 16 ^ w) (hb : b < 16 ^ w)
    (h : hexDigits w a = hexDigits w b) : a = b := by
  induction w generalizing a b with
  | zero => simp at ha hb; omega
  | succ w ih =>
      obtain ⟨hhigh, hlow⟩ := List.append_inj' h rfl
      have hdiv : a / 16 = b / 16 := by
        apply ih _ _ hhigh
        · rw [pow_succ] at ha; omega
        · rw [pow_succ] at hb; omega
      have hmod : a % 16 = b % 16 :=
        hexDigit_inj (by omega) (by omega) (List.singleton_inj.mp hlow)
      omega

/-- A number fits into the width that `%016x` gives it. -/
theorem lt_hex016_width (n : Nat) : n < 16 ^ max 16 (Nat.log2 n / 4 + 1) := by
  have hself : n < 2 ^ (Nat.log2 n + 1) := Nat.lt_log2_self
  have hexp : Nat.log2 n + 1 ≤ 4 * max 16 (Nat.log2 n / 4 + 1) := by omega
  calc n < 2 ^ (Nat.log2 n + 1) := hself
    _ ≤ 2 ^ (4 * max 16 (Nat.log2 n / 4 + 1)) := Nat.pow_le_pow_right (by omega) hexp
    _ = 16 ^ max 16 (Nat.log2 n / 4 + 1) := by rw [pow_mul]; norm_num

/-- Different ordinals are written differently. -/
theorem hex016_inj {a b : Nat} (h : hex016 a = hex016 b) : a = b := by
  have hw : max 16 (Nat.log2 a / 4 + 1) = max 16 (Nat.log2 b / 4 + 1) := by
    have hlen := congrArg List.length h
    rwa [hex016, hex016, hexDigits_length, hexDigits_length] at hlen
  have ha := lt_hex016_width a
  have hb := lt_hex016_width b
  rw [hex016, hex016, hw] at h
  rw [hw] at ha
  exact hexDigits_inj ha hb h

/-- Different ordinals of a run get different locations. -/
theorem Producer.location_inj {p : Producer} {a b : Nat} (h : p.location a = p.location b) :
    a = b := by
  have htail := List.append_cancel_left h
  simp only [List.cons.injEq, true_and] at htail
  have hhex := List.append_cancel_left htail
  simp only [List.cons.injEq, true_and] at hhex
  exact hex016_inj hhex

/-! ## Calls -/

/-- Where an `AppendContext` call stands. -/
inductive AppendPhase
  /-- Before the checks on entry. -/
  | entered
  /-- At the head of the loop of `reserveBytes`. -/
  | reserving
  /-- At the `select` of `reserveBytes`. -/
  | parked (ch : Nat)
  /-- At the `select` with the send on `appendCh`. -/
  | sending (msg : AppendMessage)
  /-- Behind another case of that `select`: the reservation is still held. -/
  | aborting (msg : AppendMessage) (err : BufferError)
  /-- The message is sent; the observer hooks come next. -/
  | accepted
  /-- A handle, or an error. -/
  | returned (err : Option BufferError)

structure AppendCall where
  entries : List Bytes
  metadata : Bytes
  /-- The text of `ctx.Err()` once the context is done. -/
  ctxErr : Option String
  phase : AppendPhase

/-- The call at another point of its code. -/
@[simp] def AppendCall.at (c : AppendCall) (phase : AppendPhase) : AppendCall :=
  { c with phase := phase }

/-- Where a `Flush` call stands. -/
inductive FlushPhase
  /-- At the `select` with the send on `flushCh`. -/
  | requesting
  /-- At the `select` with the receive from `result`. -/
  | awaiting
  /-- At the head of the loop of `waitDrained`. -/
  | draining (flushErr : Option BufferError)
  /-- At the `select` of `waitDrained`. -/
  | parked (flushErr : Option BufferError) (ch : Nat)
  | returned (err : Option BufferError)

structure FlushCall where
  ctxErr : Option String
  /-- The channel `result`, with room for one value. -/
  result : List (Option BufferError)
  phase : FlushPhase
  /-- History: how many messages had been accepted when the call began. -/
  begun : Nat

/-- The call at another point of its code. -/
@[simp] def FlushCall.at (c : FlushCall) (phase : FlushPhase) : FlushCall :=
  { c with phase := phase }

/-- The call with other contents of its `result` channel. -/
@[simp] def FlushCall.holding (c : FlushCall) (result : List (Option BufferError)) : FlushCall :=
  { c with result := result }

/-- The channels `Close` waits for, in its order. -/
inductive DoneChannel
  | rotatorDone
  | encoderPoolDone
  | uploaderPoolDone
  | committerDone
  | resolverDone
  deriving DecidableEq

def dones : List DoneChannel :=
  [.rotatorDone, .encoderPoolDone, .uploaderPoolDone, .committerDone, .resolverDone]

/-- Where the `Close` call stands, with its `Flush` call.  The two have one context. -/
inductive ClosePhase
  | notCalled
  | flushing (flush : Nat)
  | closing (flush : Nat) (flushErr : Option BufferError)
  | waiting (flush : Nat) (flushErr : Option BufferError) (left : List DoneChannel)
  | forcing (flush : Nat) (err : BufferError)
  | returned (flush : Nat) (err : Option BufferError)

/-! ## Goroutines -/

/-- A buffered channel. -/
structure Chan (α : Type) where
  queue : List α
  closed : Bool

/-- Where the rotator stands.  A flush request it serves is carried along. -/
inductive RotatorPhase
  | selecting
  /-- In `drainAppendChInto`. -/
  | draining (ack : Nat)
  /-- At the head of the loop of `acquireBatchSlot`. -/
  | acquiring (reason : FlushReason) (ack : Option Nat)
  /-- At the `select` of `acquireBatchSlot`. -/
  | parked (reason : FlushReason) (ack : Option Nat) (ch : Nat)
  /-- No slot because of shutdown: the bytes are still held. -/
  | dropping (reason : FlushReason) (ack : Option Nat)
  | resolvingDrop (reason : FlushReason) (ack : Option Nat) (left : List Nat)
  /-- About to send on a `flushAck`. -/
  | acking (reason : FlushReason) (ack : Nat) (err : Option BufferError)
  /-- A slot is held, the framing is not charged yet. -/
  | reconciling (reason : FlushReason) (ack : Option Nat)
  | sendingPending (pb : PendingBatch)
  /-- Before `close(pendingCh)`. -/
  | closingPending
  /-- Before `close(rotatorDone)`. -/
  | closingDone
  | exited

structure Rotator where
  batch : OpenBatch
  ordinal : Nat
  phase : RotatorPhase

/-- The end of `emit`: only the shutdown batch is the last one. -/
def afterEmit (reason : FlushReason) : RotatorPhase :=
  if reason = .shutdown then .closingPending else .selecting

/-- `emit` up to the first wait. -/
def emit (reason : FlushReason) (ack : Option Nat) (batch : OpenBatch) : RotatorPhase :=
  if batch.acc.isEmpty then
    match ack with
    | some f => .acking reason f none
    | none => afterEmit reason
  else .acquiring reason ack

/-- `emit` behind the loop that resolves the watchers of a dropped batch. -/
def afterDrop (reason : FlushReason) (ack : Option Nat) : RotatorPhase :=
  match ack with
  | some f => .acking reason f (some .shutdown)
  | none => afterEmit reason

inductive EncoderPhase
  | receiving
  | encoding (pb : PendingBatch)
  | sendingEncoded (eb : EncodedBatch)
  | sendingCompletion (uc : UploadCompletion)
  | exited

inductive UploaderPhase
  | receiving
  /-- In `store.Put`; `applied` tells whether it has taken effect. -/
  | putting (eb : EncodedBatch) (attempt : Nat) (applied : Bool)
  | backoff (eb : EncodedBatch) (attempt : Nat)
  | sendingCompletion (uc : UploadCompletion)
  | exited

/-- A pool's supervisor: in `wg.Wait`, behind the close of the pool's output
channel, behind the close of its done channel. -/
inductive PoolPhase
  | waiting
  | closedOutput
  | done
  deriving DecidableEq

/-- What the committer does once its resolutions are handed over. -/
inductive AfterResolve
  | drainAgain
  | drainDone
  | nextCompletion
  deriving DecidableEq

inductive CommitterPhase
  | receiving
  | gathering
  /-- At the head of the loop of `drain`. -/
  | draining
  | cas (group : List UploadCompletion) (failed : List PendingResolution) (call : CasCall)
  /-- Halted, before the observer is told. -/
  | notifying (left : List PendingResolution)
  | resolving (left : List PendingResolution) (after : AfterResolve)
  | exited

structure Committer where
  next : Nat
  /-- The map `ready`: at most one completion for each ordinal. -/
  ready : List UploadCompletion
  halted : Bool
  /-- `uploadCompletionCh` was found closed. -/
  closed : Bool
  phase : CommitterPhase

inductive ResolverPhase
  | receiving
  | observing (ri : ResolverItem)
  | resolving (ri : ResolverItem) (left : List Nat)
  | acking (ri : ResolverItem)
  | releasing (ri : ResolverItem)
  | exited

/-! ## History and state -/

/-- One emptying of the accumulator. -/
inductive Cut
  | emitted (b : Batch)
  | dropped (msgs : List AppendMessage)

def Cut.msgs : Cut → List AppendMessage
  | .emitted b => b.msgs
  | .dropped msgs => msgs

def Cut.batch? : Cut → Option Batch
  | .emitted b => some b
  | .dropped _ => none

def Cut.drop? : Cut → Option (List AppendMessage)
  | .emitted _ => none
  | .dropped msgs => some msgs

/-- The observer calls that count inputs and batches. -/
inductive ObserverEvent
  | OnAccepted
  | OnFlush (reason : FlushReason) (stats : FlushStats) (err : Option BufferError)
  | OnBatchOutcome (outcome : BatchOutcome)
  | OnHalted (halted : Bool)
  deriving DecidableEq

structure History where
  /-- The messages sent on `appendCh`. -/
  accepted : List AppendMessage
  cuts : List Cut
  /-- The outcomes handed to the resolver. -/
  handed : List PendingResolution
  /-- The calls of `resolve` on watchers. -/
  resolved : List (Nat × Option BufferError)
  /-- The flush requests the rotator took, each with the number of messages
  that had left the accumulator by then. -/
  taken : List (Nat × Nat)
  /-- The values sent on flush acknowledgements. -/
  acked : List (Nat × Option BufferError)
  /-- The manifest; entries of this producer carry their ordinal. -/
  manifest : ManifestLog (Option Nat)
  events : List ObserverEvent

/-- The batches the rotator has emitted. -/
def emittedOf (cuts : List Cut) : List Batch := cuts.filterMap Cut.batch?

/-- The message lists the rotator has dropped. -/
def droppedOf (cuts : List Cut) : List (List AppendMessage) := cuts.filterMap Cut.drop?

/-- The channels on which a send can hit a closed channel. -/
inductive Channel
  | appendCh
  | pendingCh
  | encodedCh
  | uploadCompletionCh
  | resolverCh
  deriving DecidableEq

structure State where
  appends : List AppendCall
  flushes : List FlushCall
  close : ClosePhase
  appendCh : Chan AppendMessage
  rotator : Rotator
  encoders : List EncoderPhase
  encoderPool : PoolPhase
  uploaders : List UploaderPhase
  uploaderPool : PoolPhase
  uploadCompletionCh : Chan UploadCompletion
  committer : Committer
  /-- `resolverCh` is closed. -/
  resolverClosed : Bool
  resolver : ResolverPhase
  budget : ProducerBudget
  /-- `shutdownCh` is closed. -/
  shutdown : Bool
  /-- The atomic flag `p.halted`. -/
  halted : Bool
  store : ObjectStore
  /-- A send on this closed channel ended the process. -/
  panicked : Option Channel
  hist : History

/-- The result a watcher holds: `resolve` keeps its first argument. -/
def State.watcherResult (s : State) (watcher : Nat) : Option (Option BufferError) :=
  (s.hist.resolved.find? (fun r => r.1 == watcher)).map Prod.snd

/-- `pendingCh` is closed. -/
def State.pendingClosed (s : State) : Prop :=
  s.rotator.phase = .closingDone ∨ s.rotator.phase = .exited

/-- One of the channels `Close` waits for is closed. -/
def State.doneClosed (s : State) : DoneChannel → Prop
  | .rotatorDone => s.rotator.phase = .exited
  | .encoderPoolDone => s.encoderPool = .done
  | .uploaderPoolDone => s.uploaderPool = .done
  | .committerDone => s.committer.phase = .exited
  | .resolverDone => s.resolver = .exited

/-- `NewProducer`, with all goroutines started, on a store whose manifest
holds `items`. -/
def newProducer (p : Producer) (store : ObjectStore) (items : List EnqueueItem) : State where
  appends := []
  flushes := []
  close := .notCalled
  appendCh := ⟨[], false⟩
  rotator := ⟨OpenBatch.empty, 0, .selecting⟩
  encoders := List.replicate p.encodeConcurrency .receiving
  encoderPool := .waiting
  uploaders := List.replicate p.uploadConcurrency .receiving
  uploaderPool := .waiting
  uploadCompletionCh := ⟨[], false⟩
  committer := ⟨0, [], false, false, .receiving⟩
  resolverClosed := false
  resolver := .receiving
  budget := newProducerBudget p.config.MaxInFlightBytes p.config.MaxInFlightBatches
  shutdown := false
  halted := false
  store := store
  panicked := none
  hist :=
    { accepted := []
      cuts := []
      handed := []
      resolved := []
      taken := []
      acked := []
      manifest := ⟨items.map (Prod.mk none), 0⟩
      events := [] }

end OpenDataBuffer
