import OpenDataBuffer.LittleEndian
import OpenDataBuffer.Readers

/-!
# Errors of the buffer and of the object store

`buffer/error.go` wraps a message in one of a few sentinel errors; callers
tell errors apart by the sentinel alone.  `objstore` has two sentinels of its
own, and every other failure of a store is an opaque error with a text.

A Go function that slices or indexes its input can also panic.  `GoFault`
keeps the two ways of not returning a value apart: an error that is returned,
and a slice expression that is out of range.
-/

namespace OpenDataBuffer

open Readers

/-- A Go byte string: `[]byte` or `string`. -/
abbrev Bytes := List UInt8

/-- The errors a buffer function returns. -/
inductive BufferError
  | storage (msg : String)
  | serialization (msg : String)
  | invalidInput (msg : String)
  | fenced
  | shutdown
  | producerHalted
  /-- `ctx.Err()` of a caller's context. -/
  | context (msg : String)
  deriving DecidableEq, Repr

/-- The errors an object store returns. -/
inductive StoreError
  | notFound
  | preconditionFailed
  | other (msg : String)
  deriving DecidableEq, Repr

/-- The text of a store error. -/
def StoreError.text : StoreError → String
  | .notFound => "object not found"
  | .preconditionFailed => "precondition failed"
  | .other msg => msg

def storageErr (msg : String) : BufferError := .storage msg

def serializationErr (msg : String) : BufferError := .serialization msg

def invalidInputErr (msg : String) : BufferError := .invalidInput msg

/-- Why a parser did not return a value. -/
inductive GoFault
  | returned (err : BufferError)
  | outOfRange
  deriving DecidableEq, Repr

/-- The slice expression `data[lo:hi]`. -/
def goSlice (data : Bytes) (lo hi : Nat) : Except GoFault Bytes :=
  match LittleEndian.slice data lo hi with
  | some part => .ok part
  | none => .error .outOfRange

/-- A slice between two known cuts of the data. -/
theorem goSlice_at {data : Bytes} {lo hi : Nat} (before middle after : Bytes)
    (hdata : data = before ++ (middle ++ after)) (hlo : lo = before.length)
    (hhi : hi = before.length + middle.length) : goSlice data lo hi = .ok middle := by
  subst hdata hlo hhi
  simp [goSlice, LittleEndian.slice_append]

/-- The parser did not panic: it returned an error. -/
def GoFault.IsReturned : GoFault → Prop
  | .returned _ => True
  | .outOfRange => False

/-- A slice expression inside the bounds has a value: the data between the two
offsets. -/
theorem goSlice_meets (data : Bytes) {lo hi : Nat} (hlo : lo ≤ hi) (hhi : hi ≤ data.length) :
    Meets GoFault.IsReturned (goSlice data lo hi) fun part =>
      part.length = hi - lo ∧ data.drop lo = part ++ data.drop hi := by
  obtain ⟨part, rfl, hlen, hdrop⟩ := LittleEndian.drop_cut data lo hi hlo hhi
  rw [goSlice, LittleEndian.slice_isSome hlo hhi]
  exact ⟨hlen, hdrop⟩

end OpenDataBuffer
