import OpenDataBuffer.BufferErrors

/-!
# The batch format

A batch object is a block of length-prefixed records, possibly compressed,
followed by a seven-byte footer:

    [record block] [compression: u8] [record count: u32] [version: u16]

`EncodeBatch` and `DecodeBatch` follow `buffer/batch.go`.  The compression
library is a parameter; what the code relies on is the structure `Zstd.Lawful`.

`encodeBatch_ok` says what a successful `EncodeBatch` returns; with it
`decodeBatch_encodeBatch` shows that whatever it produces from fewer than
`2 ^ 32` entries decodes to exactly those entries.
-/

namespace OpenDataBuffer

open LittleEndian

/-- `CompressionType` is a `uint8`; values other than the two below exist and
are rejected. -/
abbrev CompressionType := UInt8

def CompressionNone : CompressionType := 0

def CompressionZstd : CompressionType := 1

def batchEntryLenSize : Nat := 4

def batchVersionSize : Nat := 2

def batchCountSize : Nat := 4

def batchCompSize : Nat := 1

def batchFooterSize : Nat := batchCompSize + batchCountSize + batchVersionSize

def batchVersion : Nat := 1

def maxUint32 : Nat := 2 ^ 32 - 1

/-- The compression library: constructors that may fail, `EncodeAll(src, dst)`
and `DecodeAll(src)`. -/
structure Zstd where
  newWriterErr : Option String
  encodeAll : Bytes → Bytes → Bytes
  closeErr : Option String
  newReaderErr : Option String
  decodeAll : Bytes → Except String Bytes

/-- What the buffer relies on: a reader can be made, output is appended to the
given buffer, and decompression inverts compression. -/
structure Zstd.Lawful (z : Zstd) : Prop where
  newReader : z.newReaderErr = none
  appends : ∀ src dst, z.encodeAll src dst = dst ++ z.encodeAll src []
  roundTrip : ∀ src, z.decodeAll (z.encodeAll src []) = .ok src

/-- The record block: every entry behind its four-byte length. -/
def recordBlock (entries : List Bytes) : Bytes :=
  entries.flatMap fun e => putLE batchEntryLenSize e.length ++ e

/-- The footer `EncodeBatch` appends to the record block. -/
def batchFooter (compression : CompressionType) (count : Nat) : Bytes :=
  compression :: (putLE batchCountSize count ++ putLE batchVersionSize batchVersion)

def EncodeBatch (z : Zstd) (entries : List Bytes) (compression : CompressionType) :
    Except BufferError Bytes :=
  match entries.find? (fun e => maxUint32 < e.length) with
  | some e =>
      let size := e.length
      .error (invalidInputErr s!"entry size {size} exceeds u32 max")
  | none =>
    if compression = CompressionNone then
      .ok (recordBlock entries ++ batchFooter compression entries.length)
    else if compression = CompressionZstd then
      match z.newWriterErr with
      | some msg => .error (serializationErr s!"zstd encoder init failed: {msg}")
      | none =>
        let buf := z.encodeAll (recordBlock entries) []
        match z.closeErr with
        | some msg => .error (serializationErr s!"zstd encoder close failed: {msg}")
        | none => .ok (buf ++ batchFooter compression entries.length)
    else
      .error (serializationErr s!"unsupported compression type: {compression}")

/-- The record loop of `DecodeBatch`: `n` records still to read at `offset`. -/
def decodeRecords (entryData : Bytes) : Nat → Nat → Except GoFault (List Bytes)
  | 0, _ => .ok []
  | n + 1, offset =>
    if entryData.length < offset + batchEntryLenSize then
      .error (.returned (serializationErr "truncated record length"))
    else do
      let lenField ← goSlice entryData offset (offset + batchEntryLenSize)
      let entryLen := getLE lenField
      let start := offset + batchEntryLenSize
      if entryData.length < start + entryLen then
        .error (.returned (serializationErr "truncated record data"))
      else do
        let entry ← goSlice entryData start (start + entryLen)
        let rest ← decodeRecords entryData n (start + entryLen)
        return entry :: rest

/-- The uncompressed record block of a batch, by compression byte. -/
def batchEntryData (z : Zstd) (compression : UInt8) (block : Bytes) : Except GoFault Bytes :=
  if compression = CompressionNone then .ok block
  else if compression = CompressionZstd then
    match z.newReaderErr with
    | some msg => .error (.returned (serializationErr s!"zstd decoder init failed: {msg}"))
    | none =>
      match z.decodeAll block with
      | .error msg => .error (.returned (serializationErr s!"zstd decompression failed: {msg}"))
      | .ok decompressed => .ok decompressed
  else
    .error (.returned (serializationErr s!"unsupported compression type: {compression}"))

def DecodeBatch (z : Zstd) (data : Bytes) : Except GoFault (List Bytes) :=
  if data.length < batchFooterSize then
    .error (.returned (serializationErr "batch too small for footer"))
  else do
    let footerStart := data.length - batchFooterSize
    let footer ← goSlice data footerStart data.length
    let compressionField ← goSlice footer 0 1
    let recordCount ← goSlice footer 1 5
    let versionField ← goSlice footer 5 7
    let version := getLE versionField
    if version ≠ batchVersion then
      .error (.returned (serializationErr s!"unsupported batch version: {version}"))
    else do
      let block ← goSlice data 0 footerStart
      let entryData ← batchEntryData z (UInt8.ofNat (getLE compressionField)) block
      decodeRecords entryData (getLE recordCount) 0

/-- A list of entries whose count and lengths fit their fields. -/
structure BatchFits (entries : List Bytes) : Prop where
  count : entries.length < 2 ^ 32
  length : ∀ e ∈ entries, e.length < 2 ^ 32

/-- The loop reads back the records written before any trailing bytes. -/
theorem decodeRecords_recordBlock (entries : List Bytes) (before after : Bytes)
    (hlen : ∀ e ∈ entries, e.length < 2 ^ 32) :
    decodeRecords (before ++ (recordBlock entries ++ after)) entries.length before.length
      = .ok entries := by
  induction entries generalizing before with
  | nil => rfl
  | cons e rest ih =>
      have he : e.length < 256 ^ 4 := hlen e List.mem_cons_self
      generalize hdata : before ++ (recordBlock (e :: rest) ++ after) = data
      have hshape : data = before ++ (putLE 4 e.length ++ (e ++ (recordBlock rest ++ after))) := by
        rw [← hdata]
        simp [recordBlock, batchEntryLenSize]
      have hfield : goSlice data before.length (before.length + batchEntryLenSize)
          = .ok (putLE 4 e.length) :=
        goSlice_at before _ _ hshape rfl (by simp [batchEntryLenSize])
      have hentry : goSlice data (before.length + batchEntryLenSize)
          (before.length + batchEntryLenSize + e.length) = .ok e :=
        goSlice_at (before ++ putLE 4 e.length) e _ (by simpa using hshape)
          (by simp [batchEntryLenSize]) (by simp [batchEntryLenSize])
      have hrest : decodeRecords data rest.length (before.length + batchEntryLenSize + e.length)
          = .ok rest := by
        have h := ih (before ++ (putLE 4 e.length ++ e))
          (fun x hx => hlen x (List.mem_cons_of_mem _ hx))
        simpa [hshape, batchEntryLenSize, Nat.add_assoc] using h
      have htotal : ¬ data.length < before.length + batchEntryLenSize + e.length := by
        simp [hshape, batchEntryLenSize]
        omega
      have hlenField : ¬ data.length < before.length + batchEntryLenSize := by
        omega
      rw [List.length_cons, decodeRecords, if_neg hlenField, hfield]
      simp only [bind, Except.bind, getLE_putLE he, if_neg htotal, hentry, hrest]
      rfl

/-- The footer is found behind any record block and reads back. -/
theorem decodeBatch_footer (z : Zstd) (block : Bytes) (compression : CompressionType)
    {count : Nat} (hcount : count < 2 ^ 32) :
    DecodeBatch z (block ++ batchFooter compression count)
      = (batchEntryData z compression block).bind fun entryData =>
          decodeRecords entryData count 0 := by
  have hc : count < 256 ^ 4 := hcount
  have hfoot : batchFooter compression count = [compression] ++ (putLE 4 count ++ putLE 2 1) := rfl
  have hsmall : ¬ (block ++ batchFooter compression count).length < batchFooterSize := by
    simp [hfoot, batchFooterSize, batchCompSize, batchCountSize, batchVersionSize]
  have hstart : (block ++ batchFooter compression count).length - batchFooterSize
      = block.length := by
    simp [hfoot, batchFooterSize, batchCompSize, batchCountSize, batchVersionSize]
  have hfooter : goSlice (block ++ batchFooter compression count) block.length
      (block ++ batchFooter compression count).length = .ok (batchFooter compression count) :=
    goSlice_at block _ [] (by simp) rfl (by simp)
  have hcomp : goSlice (batchFooter compression count) 0 1 = .ok [compression] :=
    goSlice_at [] _ _ hfoot rfl rfl
  have hrecords : goSlice (batchFooter compression count) 1 5 = .ok (putLE 4 count) :=
    goSlice_at [compression] _ _ hfoot rfl (by simp)
  have hversion : goSlice (batchFooter compression count) 5 7 = .ok (putLE 2 1) :=
    goSlice_at ([compression] ++ putLE 4 count) _ [] (by simp [hfoot]) (by simp) (by simp)
  have hblock : goSlice (block ++ batchFooter compression count) 0 block.length = .ok block :=
    goSlice_at [] block _ rfl rfl (by simp)
  have hone : getLE (putLE 2 1) = batchVersion := getLE_putLE (by decide)
  have hbyte : UInt8.ofNat (getLE [compression]) = compression := by
    simp [getLE]
  rw [DecodeBatch, if_neg hsmall]
  simp only [bind, Except.bind, hstart, hfooter, hcomp, hrecords, hversion, hone, ne_eq,
    not_true_eq_false, if_false, hblock, hbyte, getLE_putLE hc]

/-- What a successful `EncodeBatch` has checked and what it returns: the record
block, as it is or compressed, and the footer. -/
theorem encodeBatch_ok {z : Zstd} {entries : List Bytes} {compression : CompressionType}
    {payload : Bytes} (h : EncodeBatch z entries compression = .ok payload) :
    (∀ e ∈ entries, e.length < 2 ^ 32) ∧
      (compression = CompressionNone ∧
          payload = recordBlock entries ++ batchFooter CompressionNone entries.length ∨
        compression = CompressionZstd ∧
          payload = z.encodeAll (recordBlock entries) [] ++
            batchFooter CompressionZstd entries.length) := by
  unfold EncodeBatch at h
  cases hfind : entries.find? (fun e => maxUint32 < e.length) with
  | some e => simp [hfind] at h
  | none =>
      have hlen : ∀ e ∈ entries, e.length < 2 ^ 32 := by
        intro e he
        have hle : e.length ≤ maxUint32 := by simpa using List.find?_eq_none.mp hfind e he
        exact Nat.lt_of_le_of_lt hle (by decide)
      refine ⟨hlen, ?_⟩
      simp only [hfind] at h
      by_cases hnone : compression = CompressionNone
      · rw [if_pos hnone, hnone] at h
        exact Or.inl ⟨hnone, (Except.ok.inj h).symm⟩
      · rw [if_neg hnone] at h
        by_cases hzstd : compression = CompressionZstd
        · rw [if_pos hzstd, hzstd] at h
          cases hwriter : z.newWriterErr with
          | some msg => simp [hwriter] at h
          | none =>
              cases hclose : z.closeErr with
              | some msg => simp [hwriter, hclose] at h
              | none =>
                  simp only [hwriter, hclose] at h
                  exact Or.inr ⟨hzstd, (Except.ok.inj h).symm⟩
        · simp [hzstd] at h

/-- What `EncodeBatch` returns decodes to its entries.  Only the count has to
fit: an entry too long for its length field is refused. -/
theorem decodeBatch_encodeBatch {z : Zstd} (hz : z.Lawful) {entries : List Bytes}
    {compression : CompressionType} {payload : Bytes}
    (hcount : entries.length < 2 ^ 32)
    (hencode : EncodeBatch z entries compression = .ok payload) :
    DecodeBatch z payload = .ok entries := by
  obtain ⟨hlen, hshape⟩ := encodeBatch_ok hencode
  have hrecords : decodeRecords (recordBlock entries) entries.length 0 = .ok entries := by
    simpa using decodeRecords_recordBlock entries [] [] hlen
  rcases hshape with ⟨rfl, rfl⟩ | ⟨rfl, rfl⟩
  · rw [decodeBatch_footer z _ _ hcount]
    simpa [batchEntryData, Except.bind] using hrecords
  · rw [decodeBatch_footer z _ _ hcount]
    have hne : CompressionZstd ≠ CompressionNone := by decide
    simpa [batchEntryData, hne, hz.newReader, hz.roundTrip, Except.bind] using hrecords

/-- No entry is refused when all lengths fit. -/
theorem BatchFits.none_too_long {entries : List Bytes} (h : BatchFits entries) :
    entries.find? (fun e => maxUint32 < e.length) = none := by
  apply List.find?_eq_none.mpr
  intro e he
  have hlen : e.length ≤ maxUint32 := Nat.le_pred_of_lt (h.length e he)
  simpa using hlen

/-- Without compression the block is stored as it is. -/
theorem encodeBatch_none (z : Zstd) {entries : List Bytes} (h : BatchFits entries) :
    EncodeBatch z entries CompressionNone
      = .ok (recordBlock entries ++ batchFooter CompressionNone entries.length) := by
  simp [EncodeBatch, h.none_too_long]

theorem recordBlock_length (entries : List Bytes) :
    (recordBlock entries).length = (entries.map fun e => batchEntryLenSize + e.length).sum := by
  simp [recordBlock, List.length_flatMap]

/-- The compression library makes writers and readers, besides being lawful. -/
structure Zstd.Ready (z : Zstd) : Prop extends z.Lawful where
  newWriter : z.newWriterErr = none
  close : z.closeErr = none

/-- With zstd the compressed block is stored. -/
theorem encodeBatch_zstd {z : Zstd} (hz : z.Ready) {entries : List Bytes} (h : BatchFits entries) :
    EncodeBatch z entries CompressionZstd
      = .ok (z.encodeAll (recordBlock entries) [] ++
          batchFooter CompressionZstd entries.length) := by
  have hne : CompressionZstd ≠ CompressionNone := by decide
  simp [EncodeBatch, h.none_too_long, hne, hz.newWriter, hz.close]

/-- **Batch round trip.**  Every list of entries that fits is encoded, and
decodes to itself, with both kinds of compression.  Without compression the
encoding is injective, and each entry costs its length and a length field. -/
theorem batch_round_trip {z : Zstd} (hz : z.Ready) {entries : List Bytes}
    (hfit : BatchFits entries) :
    (∀ compression, compression = CompressionNone ∨ compression = CompressionZstd →
      ∃ payload, EncodeBatch z entries compression = .ok payload ∧
        DecodeBatch z payload = .ok entries) ∧
    (∀ other, BatchFits other →
      EncodeBatch z other CompressionNone = EncodeBatch z entries CompressionNone →
      other = entries) ∧
    ∃ payload, EncodeBatch z entries CompressionNone = .ok payload ∧
      payload.length = (entries.map fun e => 4 + e.length).sum + 7 := by
  have hnone := encodeBatch_none z hfit
  refine ⟨?_, ?_, _, hnone, ?_⟩
  · rintro compression (rfl | rfl)
    · exact ⟨_, hnone, decodeBatch_encodeBatch hz.toLawful hfit.count hnone⟩
    · have hzstd := encodeBatch_zstd hz hfit
      exact ⟨_, hzstd, decodeBatch_encodeBatch hz.toLawful hfit.count hzstd⟩
  · intro other hother hsame
    have hback : DecodeBatch z (recordBlock entries ++ batchFooter CompressionNone entries.length)
        = .ok other :=
      decodeBatch_encodeBatch hz.toLawful hother.count (hsame.trans hnone)
    rw [decodeBatch_encodeBatch hz.toLawful hfit.count hnone] at hback
    exact (Except.ok.inj hback).symm
  · rw [List.length_append, recordBlock_length]
    simp [batchFooter, batchEntryLenSize, batchCountSize, batchVersionSize]

/-- A library that stores its input as it is. -/
def sampleZstd : Zstd where
  newWriterErr := none
  encodeAll := fun src dst => dst ++ src
  closeErr := none
  newReaderErr := none
  decodeAll := .ok

/-- The compressor that does nothing is lawful. -/
theorem sampleZstd_lawful : sampleZstd.Lawful := ⟨rfl, fun _ _ => rfl, fun _ => rfl⟩

/-- Three records, one of them empty. -/
theorem batch_round_trip_sample :
    ∃ payload, EncodeBatch sampleZstd [[7], [], [1, 2]] CompressionZstd = .ok payload ∧
      DecodeBatch sampleZstd payload = .ok [[7], [], [1, 2]] :=
  (batch_round_trip ⟨sampleZstd_lawful, rfl, rfl⟩ ⟨by decide, by decide⟩).1 _ (Or.inr rfl)

end OpenDataBuffer
