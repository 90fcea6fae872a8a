import Mathlib.Data.List.Induction
import OpenDataBuffer.BatchCodec
import OpenDataBuffer.ManifestCodec

/-!
# Messages, the open accumulator and the records of the pipeline

An `appendMessage` joins the rotator's accumulator, the accumulator becomes a
`pendingBatch`, and the batch then travels as `encodedBatch`,
`uploadCompletion` and `resolverItem`.  Everything these records carry is
determined by the list of messages, so each record also names that list; no
code reads it.  `OpenBatch` and `Batch` hold the proof that their contents are
what the messages make of them, so a batch with the metadata or the watchers of
another one cannot be built.
-/

namespace OpenDataBuffer

inductive FlushReason
  | size
  | time
  | manual
  | shutdown
  deriving DecidableEq, Repr

structure FlushStats where
  Inputs : Nat
  Entries : Nat
  UncompressedBytes : Nat
  deriving DecidableEq, Repr

inductive BatchOutcome
  | committed
  | encodeFailed
  | uploadFailed
  | manifestFailed
  | abandoned
  deriving DecidableEq, Repr

/-- `sum(len(entries)) + len(metadata)`. -/
def appendByteCost (entries : List Bytes) (metadata : Bytes) : Nat :=
  (entries.map List.length).sum + metadata.length

/-- A watcher is named by the `AppendContext` call that made it.  The call
rejects an empty list of entries and computes the cost itself. -/
structure AppendMessage where
  entries : List Bytes
  metadata : Bytes
  ingestionTimeMs : Int64
  watcher : Nat
  byteCost : Int
  nonempty : entries ≠ []
  byteCost_eq : byteCost = appendByteCost entries metadata

/-- A message costs no negative number of bytes. -/
theorem AppendMessage.byteCost_nonneg (msg : AppendMessage) : 0 ≤ msg.byteCost := by
  rw [msg.byteCost_eq]
  exact Int.natCast_nonneg _

structure BatchAccumulator where
  entries : List Bytes
  metadata : List QueueMetadata
  watchers : List Nat
  sizeBytes : Nat
  byteCost : Int
  started : Bool

namespace BatchAccumulator

/-- A new accumulator, and what `reset` leaves. -/
def empty : BatchAccumulator where
  entries := []
  metadata := []
  watchers := []
  sizeBytes := 0
  byteCost := 0
  started := false

def add (b : BatchAccumulator) (msg : AppendMessage) : BatchAccumulator where
  entries := b.entries ++ msg.entries
  metadata := b.metadata ++
    [{ StartIndex := UInt32.ofNat b.entries.length
       IngestionTimeMs := msg.ingestionTimeMs
       Payload := msg.metadata }]
  watchers := b.watchers ++ [msg.watcher]
  sizeBytes := b.sizeBytes + (msg.entries.map List.length).sum + msg.metadata.length
  byteCost := b.byteCost + msg.byteCost
  started := true

def isEmpty (b : BatchAccumulator) : Bool := b.entries.length == 0

def stats (b : BatchAccumulator) : FlushStats where
  Inputs := b.metadata.length
  Entries := b.entries.length
  UncompressedBytes := b.sizeBytes

end BatchAccumulator

/-- The accumulator after adding messages to an empty one. -/
def accumulate (msgs : List AppendMessage) : BatchAccumulator :=
  msgs.foldl BatchAccumulator.add BatchAccumulator.empty

/-- Messages are added one by one. -/
theorem accumulate_append (msgs : List AppendMessage) (msg : AppendMessage) :
    accumulate (msgs ++ [msg]) = (accumulate msgs).add msg := by
  simp [accumulate]

/-- The accumulator holds the entries of its messages, in order. -/
theorem accumulate_entries (msgs : List AppendMessage) :
    (accumulate msgs).entries = msgs.flatMap AppendMessage.entries := by
  induction msgs using List.reverseRecOn with
  | nil => rfl
  | append_singleton msgs msg ih =>
      rw [accumulate_append]
      simp [BatchAccumulator.add, ih]

/-- The accumulator keeps the watchers in the order of the messages. -/
theorem accumulate_watchers (msgs : List AppendMessage) :
    (accumulate msgs).watchers = msgs.map AppendMessage.watcher := by
  induction msgs using List.reverseRecOn with
  | nil => rfl
  | append_singleton msgs msg ih =>
      rw [accumulate_append]
      simp [BatchAccumulator.add, ih]

/-- The accumulator keeps the sum of the costs. -/
theorem accumulate_byteCost (msgs : List AppendMessage) :
    (accumulate msgs).byteCost = (msgs.map AppendMessage.byteCost).sum := by
  induction msgs using List.reverseRecOn with
  | nil => rfl
  | append_singleton msgs msg ih =>
      rw [accumulate_append]
      simp [BatchAccumulator.add, ih]

/-- The ranges carry the metadata and the times of the messages, in order. -/
theorem accumulate_ranges (msgs : List AppendMessage) :
    (accumulate msgs).metadata.map (fun m => (m.Payload, m.IngestionTimeMs))
      = msgs.map fun msg => (msg.metadata, msg.ingestionTimeMs) := by
  induction msgs using List.reverseRecOn with
  | nil => rfl
  | append_singleton msgs msg ih =>
      rw [accumulate_append]
      simp [BatchAccumulator.add, ih]

theorem accumulate_metadata_length (msgs : List AppendMessage) :
    (accumulate msgs).metadata.length = msgs.length := by
  have hlen := congrArg List.length (accumulate_ranges msgs)
  simpa using hlen

/-- The accumulator counts the bytes of its messages as the callers do. -/
theorem accumulate_sizeBytes (msgs : List AppendMessage) :
    ((accumulate msgs).sizeBytes : Int) = (accumulate msgs).byteCost := by
  induction msgs using List.reverseRecOn with
  | nil => rfl
  | append_singleton msgs msg ih =>
      rw [accumulate_append, BatchAccumulator.add]
      simp only [msg.byteCost_eq, appendByteCost, ← ih]
      omega

/-- An accumulator is started if it has a message. -/
theorem accumulate_started (msgs : List AppendMessage) :
    (accumulate msgs).started = !msgs.isEmpty := by
  induction msgs using List.reverseRecOn with
  | nil => rfl
  | append_singleton msgs msg ih =>
      rw [accumulate_append]
      simp [BatchAccumulator.add]

/-- The rotator's accumulator with the messages that are in it. -/
structure OpenBatch where
  acc : BatchAccumulator
  msgs : List AppendMessage
  made : acc = accumulate msgs

namespace OpenBatch

def empty : OpenBatch := ⟨BatchAccumulator.empty, [], rfl⟩

def add (b : OpenBatch) (msg : AppendMessage) : OpenBatch where
  acc := b.acc.add msg
  msgs := b.msgs ++ [msg]
  made := by rw [accumulate_append, b.made]

@[simp] theorem empty_msgs : empty.msgs = [] := rfl

@[simp] theorem add_msgs (b : OpenBatch) (msg : AppendMessage) :
    (b.add msg).msgs = b.msgs ++ [msg] := rfl

/-- An accumulator that looks empty holds no message: none comes without
entries. -/
theorem isEmpty_iff (b : OpenBatch) : b.acc.isEmpty = true ↔ b.msgs = [] := by
  rw [b.made, BatchAccumulator.isEmpty, beq_iff_eq, List.length_eq_zero_iff,
    accumulate_entries, List.flatMap_eq_nil_iff]
  constructor
  · intro h
    exact List.eq_nil_iff_forall_not_mem.mpr fun msg hmsg => msg.nonempty (h msg hmsg)
  · intro h msg hmsg
    simp [h] at hmsg

/-- An open batch is started exactly if it has a message. -/
theorem started_iff (b : OpenBatch) : b.acc.started = true ↔ b.msgs ≠ [] := by
  rw [b.made, accumulate_started]
  simp

end OpenBatch

/-- The rotator's framing charge: a length field for each entry and a footer. -/
def framingExtra (entries : Nat) : Nat := batchEntryLenSize * entries + batchFooterSize

/-- What every record of a batch carries from the rotator to the resolver. -/
structure Batch where
  ordinal : Nat
  metadata : List QueueMetadata
  watchers : List Nat
  stats : FlushStats
  reason : FlushReason
  /-- The `Flush` call to acknowledge. -/
  flushAck : Option Nat
  byteCost : Int
  /-- The messages the batch was made of; no code reads this. -/
  msgs : List AppendMessage
  metadata_eq : metadata = (accumulate msgs).metadata
  watchers_eq : watchers = msgs.map AppendMessage.watcher
  stats_eq : stats = (accumulate msgs).stats
  byteCost_eq : byteCost =
    (msgs.map AppendMessage.byteCost).sum + framingExtra (msgs.flatMap AppendMessage.entries).length

/-- The entries of the batch, as its messages brought them. -/
def Batch.entriesOf (b : Batch) : List Bytes := b.msgs.flatMap AppendMessage.entries

structure PendingBatch extends Batch where
  entries : List Bytes
  entries_eq : entries = toBatch.entriesOf

/-- The batch that `emit` makes of the accumulator. -/
def OpenBatch.batch (b : OpenBatch) (ordinal : Nat) (reason : FlushReason)
    (flushAck : Option Nat) : Batch where
  ordinal := ordinal
  metadata := b.acc.metadata
  watchers := b.acc.watchers
  stats := b.acc.stats
  reason := reason
  flushAck := flushAck
  byteCost := b.acc.byteCost + framingExtra b.acc.entries.length
  msgs := b.msgs
  metadata_eq := by rw [b.made]
  watchers_eq := by rw [b.made, accumulate_watchers]
  stats_eq := by rw [b.made]
  byteCost_eq := by rw [b.made, accumulate_byteCost, accumulate_entries]

/-- The `pendingBatch` that `emit` sends. -/
def OpenBatch.pending (b : OpenBatch) (ordinal : Nat) (reason : FlushReason)
    (flushAck : Option Nat) : PendingBatch where
  toBatch := b.batch ordinal reason flushAck
  entries := b.acc.entries
  entries_eq := by
    show b.acc.entries = b.msgs.flatMap AppendMessage.entries
    rw [b.made, accumulate_entries]

structure EncodedBatch extends Batch where
  payload : Bytes
  location : Bytes
  size : Nat

structure UploadCompletion where
  eb : EncodedBatch
  putError : Option BufferError
  encodeFailed : Bool

/-- The batch a completion belongs to. -/
def UploadCompletion.batch (uc : UploadCompletion) : Batch := uc.eb.toBatch

/-- A batch with its terminal outcome. -/
structure PendingResolution where
  uc : UploadCompletion
  err : Option BufferError
  outcome : BatchOutcome

def PendingResolution.batch (pr : PendingResolution) : Batch := pr.uc.batch

structure ResolverItem where
  reason : FlushReason
  stats : FlushStats
  watchers : List Nat
  flushAck : Option Nat
  err : Option BufferError
  outcome : BatchOutcome
  byteCost : Int

/-- The item the committer's `resolve` sends. -/
def PendingResolution.item (pr : PendingResolution) : ResolverItem where
  reason := pr.uc.eb.reason
  stats := pr.uc.eb.stats
  watchers := pr.uc.eb.watchers
  flushAck := pr.uc.eb.flushAck
  err := pr.err
  outcome := pr.outcome
  byteCost := pr.uc.eb.byteCost

end OpenDataBuffer
