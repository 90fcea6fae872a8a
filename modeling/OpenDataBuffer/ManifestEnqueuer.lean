import OpenDataBuffer.WellFormedManifest
import OpenDataBuffer.VersionedStore

/-!
# The manifest enqueuer

`manifestEnqueuer.enqueueBatch` reads the manifest, appends all its items to
the copy it read and writes the copy back on condition that nobody wrote in
between; on a failed precondition it starts over.  A call is a small machine:
`reading` stands for the `Get` that is about to return, `writing` for the
`PutIfMatch` that is under way.  The functions `afterGet` and `afterPut` are
the code between two store calls; they are what every system in this
development drives an enqueuer with.

`casWithRetry` wraps `enqueueBatch` in a second loop that retries every other
error a bounded number of times.
-/

namespace OpenDataBuffer

/-- `objstore.Version`. -/
structure Version where
  ETag : String
  deriving DecidableEq, Repr

/-- An object store: paths, contents and versions as `objstore` has them. -/
abbrev ObjectStore := VersionedStore.Store Bytes Bytes Version

/-- `objstore.GetResult`: the data and the version of an object. -/
abbrev GetResult := VersionedStore.Versioned Bytes Version

/-- What a `Get` that reaches the store returns. -/
def storeGet (store : ObjectStore) (path : Bytes) : Except StoreError GetResult :=
  match store.objects path with
  | none => .error .notFound
  | some obj => .ok obj

structure EnqueueItem where
  Location : Bytes
  Metadata : List QueueMetadata
  deriving DecidableEq

/-- The queue entry made from an item; `append` overwrites the sequence. -/
def EnqueueItem.entry (item : EnqueueItem) : QueueEntry where
  Sequence := 0
  Location := item.Location
  Metadata := item.Metadata

/-- The item a queue entry came from. -/
def QueueEntry.item (entry : QueueEntry) : EnqueueItem where
  Location := entry.Location
  Metadata := entry.Metadata

/-- The manifest and the version to expect, from the answer to the `Get`. -/
def readManifest (answer : Except StoreError GetResult) :
    Except BufferError (Manifest × Option Version) :=
  match answer with
  | .error .notFound => .ok (emptyManifest, none)
  | .error err => .error (storageErr err.text)
  | .ok result => do
    let m ← manifestFromBytes result.data
    return (m, some result.version)

/-- The round between `Get` and `PutIfMatch`: the bytes to write and the
version to expect. -/
def planAppend (items : List EnqueueItem) (answer : Except StoreError GetResult) :
    Except BufferError (Bytes × Option Version) := do
  let (m, version) ← readManifest answer
  let m' ← m.appendAll (items.map EnqueueItem.entry)
  let data ← m'.toBytes
  return (data, version)

/-- Where an `enqueueBatch` call stands.  `applied` tells whether the store
has carried the pending `PutIfMatch` out. -/
inductive EnqueuePhase
  | reading (conflicts : Nat)
  | writing (conflicts : Nat) (data : Bytes) (version : Option Version) (applied : Bool)
  | returned (conflicts : Nat) (err : Option BufferError)

/-- `enqueueBatch` on entry: no items is a no-op. -/
def enqueueBatch (items : List EnqueueItem) : EnqueuePhase :=
  if items.length = 0 then .returned 0 none else .reading 0

def afterGet (items : List EnqueueItem) (conflicts : Nat)
    (answer : Except StoreError GetResult) : EnqueuePhase :=
  match planAppend items answer with
  | .error err => .returned conflicts (some err)
  | .ok (data, version) => .writing conflicts data version false

def afterPut (conflicts : Nat) (answer : Option StoreError) : EnqueuePhase :=
  match answer with
  | none => .returned conflicts none
  | some .preconditionFailed => .reading (conflicts + 1)
  | some err => .returned conflicts (some (storageErr err.text))

/-- A call does not succeed before it has written. -/
theorem afterGet_ne_ok (items : List EnqueueItem) (n m : Nat)
    (answer : Except StoreError GetResult) : afterGet items n answer ≠ .returned m none := by
  unfold afterGet
  split <;> simp

/-- A call does not succeed on an error of the store. -/
theorem afterPut_ne_ok (n m : Nat) (err : StoreError) :
    afterPut n (some err) ≠ .returned m none := by
  cases err <;> simp [afterPut]

/-- After the answer of a conditional write the write is over. -/
theorem afterPut_ne_writing (n m : Nat) (answer : Option StoreError) (data : Bytes)
    (version : Option Version) (applied : Bool) :
    afterPut n answer ≠ .writing m data version applied := by
  unfold afterPut
  split <;> simp

/-- An item whose queue entry has a body that fits its length field.  The other
lengths are checked by `encodeQueueEntry`. -/
def ItemFits (item : EnqueueItem) : Prop := entryBodyLen item.entry < 2 ^ 32

/-- Numbering entries keeps what they say. -/
theorem sequenced_items (next : UInt64) (items : List EnqueueItem) :
    (sequenced next (items.map EnqueueItem.entry)).map QueueEntry.item = items := by
  induction items generalizing next with
  | nil => rfl
  | cons item rest ih => simp [sequenced, ih, QueueEntry.item, EnqueueItem.entry]

/-- A successful round started from some readable manifest bytes. -/
theorem planAppend_ok {items : List EnqueueItem} {answer : Except StoreError GetResult}
    {data : Bytes} {version : Option Version}
    (h : planAppend items answer = .ok (data, version)) :
    ∃ m m', readManifest answer = .ok (m, version) ∧
      m.appendAll (items.map EnqueueItem.entry) = .ok m' ∧ m'.toBytes = .ok data := by
  simp only [planAppend, bind, Except.bind] at h
  cases hread : readManifest answer with
  | error err => simp [hread] at h
  | ok pair =>
      obtain ⟨m, v⟩ := pair
      simp only [hread] at h
      cases happ : m.appendAll (items.map EnqueueItem.entry) with
      | error err => simp [happ] at h
      | ok m' =>
          simp only [happ] at h
          cases hbytes : m'.toBytes with
          | error err => simp [hbytes] at h
          | ok out =>
              simp only [hbytes, pure, Except.pure, Except.ok.injEq, Prod.mk.injEq] at h
              obtain ⟨rfl, rfl⟩ := h
              exact ⟨m, m', rfl, happ, hbytes⟩

/-- Where a `casWithRetry` call stands: inside `enqueueBatch`, between two
attempts, or done. -/
inductive CasPhase
  | enqueueing (phase : EnqueuePhase)
  | backoff (err : BufferError)
  | returned (err : Option BufferError)

/-- A `casWithRetry` call: the attempt it is in and the conflicts counted by
the attempts before. -/
structure CasCall where
  attempt : Nat
  totalConflicts : Nat
  phase : CasPhase

/-- The code of `casWithRetry` behind a return of `enqueueBatch`; any other
phase of `enqueueBatch` is just where the call stands. -/
def CasCall.settle (maxAttempts : Nat) (call : CasCall) (phase : EnqueuePhase) : CasCall :=
  match phase with
  | .returned c none =>
      { call with totalConflicts := call.totalConflicts + c, phase := .returned none }
  | .returned c (some err) =>
      if call.attempt + 1 < maxAttempts then
        { call with totalConflicts := call.totalConflicts + c, phase := .backoff err }
      else
        { call with totalConflicts := call.totalConflicts + c, phase := .returned (some err) }
  | phase => { call with phase := .enqueueing phase }

/-- `casWithRetry` on entry. -/
def casWithRetry (maxAttempts : Nat) (items : List EnqueueItem) : CasCall :=
  CasCall.settle maxAttempts
    { attempt := 0, totalConflicts := 0, phase := .returned none } (enqueueBatch items)

/-- The backoff timer fired: the next attempt starts. -/
def CasCall.retry (maxAttempts : Nat) (items : List EnqueueItem) (call : CasCall) : CasCall :=
  CasCall.settle maxAttempts { call with attempt := call.attempt + 1 } (enqueueBatch items)

/-- Shutdown cut the backoff short. -/
def CasCall.abandon (call : CasCall) : CasCall :=
  { call with phase := .returned (some .shutdown) }

end OpenDataBuffer
