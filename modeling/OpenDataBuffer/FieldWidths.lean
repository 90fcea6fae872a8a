import OpenDataBuffer.WellFormedManifest

/-!
# Lengths and counts that are written truly

The two formats write every length and every count into a field of two or four
bytes.  A number too large for its field loses its upper bits without notice,
so the encoders have to refuse it.  They check the length of a record, of a
location and of a metadata payload.  The number of records in a batch, the
length of a queue entry and its number of metadata ranges are converted without
a check.

`ExactBatch` and `ExactEntry` say that all fields of an encoding hold the true
numbers.  An encoding is exact precisely if the unchecked numbers fit, and the
checked ones are refused if they do not.
-/

namespace OpenDataBuffer

open LittleEndian

/-! ## Batches -/

/-- The record count in the footer of a batch. -/
def recordCountField (payload : Bytes) : Nat :=
  getLE (part payload (payload.length - batchVersionSize - batchCountSize)
    (payload.length - batchVersionSize))

/-- Where the record of entry `i` starts in the record block. -/
def recordStart (entries : List Bytes) (i : Nat) : Nat :=
  ((entries.take i).map fun e => batchEntryLenSize + e.length).sum

/-- The length field of the record of entry `i`. -/
def recordLenField (block : Bytes) (entries : List Bytes) (i : Nat) : Nat :=
  getLE (part block (recordStart entries i) (recordStart entries i + batchEntryLenSize))

/-- All fields of an encoded batch hold the true numbers.  With compression the
records are in the block that was compressed. -/
structure ExactBatch (z : Zstd) (entries : List Bytes) (compression : CompressionType)
    (payload : Bytes) : Prop where
  count : recordCountField payload = entries.length
  lengths : ∃ block, payload.take (payload.length - batchFooterSize)
      = (if compression = CompressionNone then block else z.encodeAll block []) ∧
    ∀ i (h : i < entries.length), recordLenField block entries i = entries[i].length

/-- The count field holds the number of entries, reduced to four bytes. -/
theorem recordCountField_footer (block : Bytes) (compression : CompressionType) (count : Nat) :
    recordCountField (block ++ batchFooter compression count) = count % 2 ^ 32 := by
  have hfoot : batchFooter compression count = [compression] ++ (putLE 4 count ++ putLE 2 1) := rfl
  have hlen : (block ++ batchFooter compression count).length = block.length + 7 := by
    simp [hfoot]
  have hfield : part (block ++ batchFooter compression count) (block.length + 7 - 2 - 4)
      (block.length + 7 - 2) = putLE 4 count :=
    part_at (block ++ [compression]) _ (putLE 2 1) (by simp [hfoot])
      (by simp only [List.length_append, List.length_singleton]; omega)
      (by simp only [List.length_append, List.length_singleton, putLE_length]; omega)
  rw [recordCountField, hlen]
  simp only [batchVersionSize, batchCountSize]
  rw [hfield, getLE_putLE_mod]
  norm_num

/-- A record whose length fits stands behind its true length. -/
theorem recordLenField_recordBlock {entries : List Bytes} (hlen : ∀ e ∈ entries, e.length < 2 ^ 32)
    {i : Nat} (h : i < entries.length) :
    recordLenField (recordBlock entries) entries i = entries[i].length := by
  have hfit : entries[i].length < 256 ^ 4 := hlen _ (List.getElem_mem h)
  have hshape : recordBlock entries = recordBlock (entries.take i) ++
      (putLE 4 entries[i].length ++ (entries[i] ++ recordBlock (entries.drop (i + 1)))) := by
    have hsplit := flatMap_split (fun e => putLE batchEntryLenSize e.length ++ e) h
    simpa [recordBlock, batchEntryLenSize] using hsplit
  have hstart : recordStart entries i = (recordBlock (entries.take i)).length := by
    rw [recordBlock_length, recordStart]
  have hfield : part (recordBlock entries) (recordStart entries i)
      (recordStart entries i + batchEntryLenSize) = putLE 4 entries[i].length :=
    part_at _ _ _ hshape hstart (by rw [hstart, putLE_length]; rfl)
  rw [recordLenField, hfield, getLE_putLE hfit]

/-- The footer is cut off again. -/
theorem take_batchFooter (block : Bytes) (compression : CompressionType) (count : Nat) :
    (block ++ batchFooter compression count).take
      ((block ++ batchFooter compression count).length - batchFooterSize) = block := by
  have hcut : (block ++ batchFooter compression count).length - batchFooterSize
      = block.length := by
    simp [batchFooter, batchFooterSize, batchCompSize, batchCountSize, batchVersionSize]
  rw [hcut, List.take_left]

/-- What `EncodeBatch` returns is exact as soon as the count fits. -/
theorem encodeBatch_exact_iff {z : Zstd} {entries : List Bytes} {compression : CompressionType}
    {payload : Bytes} (h : EncodeBatch z entries compression = .ok payload) :
    ExactBatch z entries compression payload ↔ entries.length < 2 ^ 32 := by
  obtain ⟨hlen, hshape⟩ := encodeBatch_ok h
  have hcount : recordCountField payload = entries.length % 2 ^ 32 := by
    rcases hshape with ⟨-, rfl⟩ | ⟨-, rfl⟩ <;> exact recordCountField_footer _ _ _
  constructor
  · intro hexact
    rw [← hexact.count, hcount]
    exact Nat.mod_lt _ (by decide)
  · intro hfit
    refine ⟨by rw [hcount, Nat.mod_eq_of_lt hfit], recordBlock entries, ?_, ?_⟩
    · rcases hshape with ⟨rfl, rfl⟩ | ⟨rfl, rfl⟩
      · rw [if_pos rfl, take_batchFooter]
      · rw [if_neg (by decide), take_batchFooter]
    · exact fun i hi => recordLenField_recordBlock hlen hi

/-- A record too long for its length field is refused. -/
theorem encodeBatch_refuses (z : Zstd) {entries : List Bytes} (compression : CompressionType)
    (h : ∃ e ∈ entries, 2 ^ 32 ≤ e.length) :
    ∃ err, EncodeBatch z entries compression = .error err := by
  cases hencode : EncodeBatch z entries compression with
  | error err => exact ⟨err, rfl⟩
  | ok payload =>
      obtain ⟨e, he, hlong⟩ := h
      exact absurd ((encodeBatch_ok hencode).1 e he) (Nat.not_lt.mpr hlong)

/-! ## Queue entries -/

/-- The length field in front of an encoded entry. -/
def entryLenField (encoded : Bytes) : Nat := getLE (part encoded 0 mEntryLenSize)

def locationLenField (encoded : Bytes) : Nat :=
  getLE (part encoded (mEntryLenSize + mSequenceSize)
    (mEntryLenSize + mSequenceSize + mLocationLenSize))

/-- Where the metadata count of an entry stands. -/
def metadataCountStart (entry : QueueEntry) : Nat :=
  mEntryLenSize + mSequenceSize + mLocationLenSize + entry.Location.length

def metadataCountField (entry : QueueEntry) (encoded : Bytes) : Nat :=
  getLE (part encoded (metadataCountStart entry) (metadataCountStart entry + mMetadataCountSize))

/-- Where the payload length of metadata range `i` stands. -/
def payloadLenStart (entry : QueueEntry) (i : Nat) : Nat :=
  metadataCountStart entry + mMetadataCountSize +
    ((entry.Metadata.take i).map fun m =>
      mStartIndexSize + mIngestionTimeMsSize + mMetadataLenSize + m.Payload.length).sum +
    mStartIndexSize + mIngestionTimeMsSize

def payloadLenField (entry : QueueEntry) (encoded : Bytes) (i : Nat) : Nat :=
  getLE (part encoded (payloadLenStart entry i) (payloadLenStart entry i + mMetadataLenSize))

/-- All length and count fields of an encoded entry hold the true numbers. -/
structure ExactEntry (entry : QueueEntry) (encoded : Bytes) : Prop where
  entryLen : entryLenField encoded = encoded.length - mEntryLenSize
  locationLen : locationLenField encoded = entry.Location.length
  metadataCount : metadataCountField entry encoded = entry.Metadata.length
  payloadLen : ∀ i (h : i < entry.Metadata.length),
    payloadLenField entry encoded i = entry.Metadata[i].Payload.length

/-- The entry length field holds the length of the body, reduced to four bytes. -/
theorem entryLenField_frame (entry : QueueEntry) :
    entryLenField (entryFrame entry) = entryBodyLen entry % 2 ^ 32 := by
  have hfield : part (entryFrame entry) 0 mEntryLenSize = putLE 4 (entryBodyLen entry) :=
    part_at [] _ (entryBody entry) rfl rfl (by simp [mEntryLenSize])
  rw [entryLenField, hfield, getLE_putLE_mod]
  norm_num

/-- The field of the location says its length, if that fits. -/
theorem locationLenField_frame {entry : QueueEntry} (h : entry.Location.length < 2 ^ 16) :
    locationLenField (entryFrame entry) = entry.Location.length := by
  have hfit : entry.Location.length < 256 ^ 2 := h
  have hfield : part (entryFrame entry) (mEntryLenSize + mSequenceSize)
      (mEntryLenSize + mSequenceSize + mLocationLenSize) = putLE 2 entry.Location.length :=
    part_at (putLE 4 (entryBodyLen entry) ++ putLE 8 entry.Sequence.toNat) _
      (entry.Location ++ (putLE 4 entry.Metadata.length ++ entry.Metadata.flatMap metadataFrame))
      (by simp [entryFrame, entryBody, mEntryLenSize, mSequenceSize, mLocationLenSize,
            mMetadataCountSize])
      (by simp [mEntryLenSize, mSequenceSize])
      (by simp [mEntryLenSize, mSequenceSize, mLocationLenSize])
  rw [locationLenField, hfield, getLE_putLE hfit]

/-- The bytes of an entry before its metadata count. -/
def entryHead (entry : QueueEntry) : Bytes :=
  putLE 4 (entryBodyLen entry) ++ (putLE 8 entry.Sequence.toNat ++
    (putLE 2 entry.Location.length ++ entry.Location))

theorem entryHead_length (entry : QueueEntry) :
    (entryHead entry).length = metadataCountStart entry := by
  simp [entryHead, metadataCountStart, mEntryLenSize, mSequenceSize, mLocationLenSize]
  omega

/-- A frame is its head, the count of metadata, and the metadata. -/
theorem entryFrame_head (entry : QueueEntry) :
    entryFrame entry = entryHead entry ++
      (putLE 4 entry.Metadata.length ++ entry.Metadata.flatMap metadataFrame) := by
  simp [entryFrame, entryHead, entryBody, mEntryLenSize, mSequenceSize, mLocationLenSize,
    mMetadataCountSize]

/-- The field of the count says it, if it fits. -/
theorem metadataCountField_frame {entry : QueueEntry} (h : entry.Metadata.length < 2 ^ 32) :
    metadataCountField entry (entryFrame entry) = entry.Metadata.length := by
  have hfit : entry.Metadata.length < 256 ^ 4 := h
  have hfield : part (entryFrame entry) (metadataCountStart entry)
      (metadataCountStart entry + mMetadataCountSize) = putLE 4 entry.Metadata.length :=
    part_at (entryHead entry) _ _ (entryFrame_head entry) (entryHead_length entry).symm
      (by rw [entryHead_length, putLE_length]; rfl)
  rw [metadataCountField, hfield, getLE_putLE hfit]

/-- Each field of a payload says its length, if all of them fit. -/
theorem payloadLenField_frame {entry : QueueEntry}
    (hfit : ∀ m ∈ entry.Metadata, m.Payload.length < 2 ^ 32) {i : Nat}
    (h : i < entry.Metadata.length) :
    payloadLenField entry (entryFrame entry) i = entry.Metadata[i].Payload.length := by
  generalize hm : entry.Metadata[i] = m
  have hmem : m ∈ entry.Metadata := hm ▸ List.getElem_mem h
  have hlen : m.Payload.length < 256 ^ 4 := hfit m hmem
  have hsplit := flatMap_split metadataFrame h
  rw [hm] at hsplit
  generalize hbefore : (entry.Metadata.take i).flatMap metadataFrame = before at hsplit
  have hbeforeLen : before.length = ((entry.Metadata.take i).map fun m =>
      mStartIndexSize + mIngestionTimeMsSize + mMetadataLenSize + m.Payload.length).sum := by
    rw [← hbefore]
    simp [List.length_flatMap, metadataFrame_length, mStartIndexSize, mIngestionTimeMsSize,
      mMetadataLenSize]
  have hstart : payloadLenStart entry i = (entryHead entry ++ (putLE 4 entry.Metadata.length ++
      (before ++ (putLE 4 m.StartIndex.toNat ++
        putLE 8 m.IngestionTimeMs.toUInt64.toNat)))).length := by
    rw [payloadLenStart, ← hbeforeLen]
    simp only [List.length_append, entryHead_length, putLE_length, mMetadataCountSize,
      mStartIndexSize, mIngestionTimeMsSize]
    omega
  have hfield : part (entryFrame entry) (payloadLenStart entry i)
      (payloadLenStart entry i + mMetadataLenSize) = putLE 4 m.Payload.length :=
    part_at _ _ (m.Payload ++ (entry.Metadata.drop (i + 1)).flatMap metadataFrame)
      (by rw [entryFrame_head, hsplit]
          simp [metadataFrame, mStartIndexSize, mIngestionTimeMsSize, mMetadataLenSize])
      hstart (by rw [hstart, putLE_length]; rfl)
  rw [payloadLenField, hfield, getLE_putLE hlen]

/-- An encoded entry is exact as soon as its body fits its length field. -/
theorem encodeQueueEntry_exact_iff {entry : QueueEntry} {encoded : Bytes}
    (h : encodeQueueEntry entry = .ok encoded) :
    ExactEntry entry encoded ↔ entryBodyLen entry < 2 ^ 32 := by
  obtain ⟨rfl, hloc, hpay⟩ := encodeQueueEntry_ok h
  have hbody : (entryFrame entry).length - mEntryLenSize = entryBodyLen entry := by
    rw [entryFrame_length, mEntryLenSize]
    omega
  constructor
  · intro hexact
    rw [← hbody, ← hexact.entryLen, entryLenField_frame]
    exact Nat.mod_lt _ (by decide)
  · intro hfit
    have hcount : entry.Metadata.length < 2 ^ 32 := EntryFits.count ⟨hloc, hpay, hfit⟩
    refine ⟨?_, locationLenField_frame hloc, metadataCountField_frame hcount, ?_⟩
    · rw [entryLenField_frame, hbody, Nat.mod_eq_of_lt hfit]
    · exact fun i hi => payloadLenField_frame hpay hi

/-- A location or a payload too long for its length field is refused. -/
theorem encodeQueueEntry_refuses {entry : QueueEntry}
    (h : 2 ^ 16 ≤ entry.Location.length ∨ ∃ m ∈ entry.Metadata, 2 ^ 32 ≤ m.Payload.length) :
    ∃ err, encodeQueueEntry entry = .error err := by
  cases hencode : encodeQueueEntry entry with
  | error err => exact ⟨err, rfl⟩
  | ok encoded =>
      obtain ⟨-, hloc, hpay⟩ := encodeQueueEntry_ok hencode
      rcases h with hlong | ⟨m, hm, hlong⟩
      · exact absurd hloc (Nat.not_lt.mpr hlong)
      · exact absurd (hpay m hm) (Nat.not_lt.mpr hlong)

/-! ## The encoders -/

/-- **No truncated field, if the unchecked numbers fit.**  A batch of fewer than
`2 ^ 32` entries, and a queue entry with a body of fewer than `2 ^ 32` bytes, is
encoded with true lengths and counts or refused; and the condition is needed. -/
theorem encoders_write_true_fields (z : Zstd) (entries : List Bytes)
    (compression : CompressionType) (entry : QueueEntry) :
    (∀ payload, EncodeBatch z entries compression = .ok payload →
      (ExactBatch z entries compression payload ↔ entries.length < 2 ^ 32)) ∧
    ((∃ e ∈ entries, 2 ^ 32 ≤ e.length) →
      ∃ err, EncodeBatch z entries compression = .error err) ∧
    (∀ encoded, encodeQueueEntry entry = .ok encoded →
      (ExactEntry entry encoded ↔ entryBodyLen entry < 2 ^ 32)) ∧
    (2 ^ 16 ≤ entry.Location.length ∨ (∃ m ∈ entry.Metadata, 2 ^ 32 ≤ m.Payload.length) →
      ∃ err, encodeQueueEntry entry = .error err) := by
  refine ⟨?_, ?_, ?_, ?_⟩
  · exact fun payload h => encodeBatch_exact_iff h
  · exact encodeBatch_refuses z compression
  · exact fun encoded h => encodeQueueEntry_exact_iff h
  · exact encodeQueueEntry_refuses

/-- One record, and an entry without metadata. -/
theorem encoders_write_true_fields_sample :
    ExactBatch sampleZstd [[7]] CompressionNone
        (recordBlock [[7]] ++ batchFooter CompressionNone 1) ∧
      ExactEntry ⟨0, [97], []⟩ (entryFrame ⟨0, [97], []⟩) := by
  obtain ⟨hbatch, -, hentry, -⟩ :=
    encoders_write_true_fields sampleZstd [[7]] CompressionNone ⟨0, [97], []⟩
  exact ⟨(hbatch _ rfl).mpr (by decide), (hentry _ rfl).mpr (by decide)⟩

/-- As many empty records as the count field has values, and none left over. -/
def wideBatch : List Bytes := List.replicate (2 ^ 32) []

theorem wideBatch_length : wideBatch.length = 2 ^ 32 := List.length_replicate

/-- One metadata range with a payload of so many bytes. -/
def wideMetadata (bytes : Nat) : QueueMetadata := ⟨0, 0, List.replicate bytes 0⟩

theorem wideMetadata_length (bytes : Nat) : (wideMetadata bytes).Payload.length = bytes :=
  List.length_replicate

/-- An entry whose only metadata range makes its body as long as the length field
has values. -/
def wideEntry (location : Bytes) : QueueEntry :=
  ⟨0, location, [wideMetadata (2 ^ 32 - 30 - location.length)]⟩

/-- The body of the wide entry is one byte longer than its field can say. -/
theorem wideEntry_bodyLen {location : Bytes} (h : location.length < 2 ^ 16) :
    entryBodyLen (wideEntry location) = 2 ^ 32 := by
  simp only [entryBodyLen, wideEntry, List.map_cons, List.map_nil, List.sum_cons, List.sum_nil,
    wideMetadata_length, mSequenceSize, mLocationLenSize, mMetadataCountSize, mStartIndexSize,
    mIngestionTimeMsSize, mMetadataLenSize]
  omega

/-- The encoder takes the wide entry without an error. -/
theorem encodeQueueEntry_wide {location : Bytes} (h : location.length < 2 ^ 16) :
    encodeQueueEntry (wideEntry location) = .ok (entryFrame (wideEntry location)) := by
  apply encodeQueueEntry_checked h
  intro m hm
  obtain rfl := List.mem_singleton.mp hm
  rw [wideMetadata_length]
  omega

/-- Without the condition: `2 ^ 32` empty entries are encoded with the count `0`
and decode to no entry at all, and a queue entry with a body of `2 ^ 32` bytes is
encoded with the length `0`. -/
theorem encoders_truncate :
    (∃ payload, EncodeBatch sampleZstd wideBatch CompressionNone = .ok payload ∧
      recordCountField payload = 0 ∧ DecodeBatch sampleZstd payload = .ok []) ∧
    ∃ encoded, encodeQueueEntry (wideEntry [97]) = .ok encoded ∧
      encoded.length - mEntryLenSize = 2 ^ 32 ∧ entryLenField encoded = 0 := by
  have hfind : wideBatch.find? (fun e => maxUint32 < e.length) = none := by
    apply List.find?_eq_none.mpr
    intro e he
    rw [List.eq_of_mem_replicate he]
    decide
  have hencode : EncodeBatch sampleZstd wideBatch CompressionNone
      = .ok (recordBlock wideBatch ++ batchFooter CompressionNone wideBatch.length) := by
    rw [EncodeBatch, hfind]
    rfl
  have hfooter : batchFooter CompressionNone wideBatch.length = batchFooter CompressionNone 0 := by
    rw [wideBatch_length]
    decide
  have hbody : entryBodyLen (wideEntry [97]) = 2 ^ 32 := wideEntry_bodyLen (by decide)
  refine ⟨⟨_, hencode, ?_, ?_⟩, _, encodeQueueEntry_wide (by decide), ?_, ?_⟩
  · rw [recordCountField_footer, wideBatch_length]
    decide
  · rw [hfooter, decodeBatch_footer _ _ _ (by decide)]
    rfl
  · rw [entryFrame_length, hbody]
    rfl
  · rw [entryLenField_frame, hbody]
    decide

end OpenDataBuffer
