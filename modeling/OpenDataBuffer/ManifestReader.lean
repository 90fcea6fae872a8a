import OpenDataBuffer.WellFormedManifest

/-!
# What the manifest reader accepts

`DecodeManifestEntries` follows the length fields of the data it is given and
trusts nothing else.  Two of its reads have no bounds check; they stay inside
the data because the footer is longer than they are.

An entry is accepted if its fields lie inside the declared length.  They need
not fill it: the bytes behind the last metadata range are skipped, and so are
the bytes between the last entry and the footer.  `EntryAt` and `EntriesAt` say
what was read where; `looseFrame` is a frame with skipped bytes at its end.
From them follow the bounds of every accepted input.

`Tiled` says on the bytes alone, by following the length fields, that nothing is
skipped.  An accepted input is exactly what the encoder writes for the entries that
were read, and its footer is accepted as well, if it is tiled and has the right
version, and only then.
-/

namespace OpenDataBuffer

open LittleEndian Readers

/-! ## Fields -/

/-- A field read at its place is written back as it was. -/
theorem putLE_field {field : Bytes} {w : Nat} (hlen : field.length = w) :
    putLE w (getLE field) = field := by
  rw [← hlen, putLE_getLE]

theorem field_lt {field : Bytes} {w : Nat} (hlen : field.length = w) : getLE field < 256 ^ w := by
  rw [← hlen]
  exact getLE_lt field

/-- Eight bytes are written as they were read. -/
theorem putLE_uint64_field {field : Bytes} (hlen : field.length = 8) :
    putLE 8 (UInt64.ofNat (getLE field)).toNat = field := by
  rw [UInt64.toNat_ofNat_of_lt' (field_lt hlen), putLE_field hlen]

/-- Four bytes are written as they were read. -/
theorem putLE_uint32_field {field : Bytes} (hlen : field.length = 4) :
    putLE 4 (UInt32.ofNat (getLE field)).toNat = field := by
  rw [UInt32.toNat_ofNat_of_lt' (field_lt hlen), putLE_field hlen]

/-- A field at its place. -/
theorem part_of_drop {data field rest : Bytes} {lo hi : Nat} (h : data.drop lo = field ++ rest)
    (hhi : hi = lo + field.length) : part data lo hi = field := by
  rw [part, List.drop_take, h, hhi, Nat.add_sub_cancel_left, List.take_left]

/-! ## Metadata -/

/-- The ranges `ms` stand at `offset` and end before `entryEnd`. -/
structure MetadataAt (data : Bytes) (entryEnd offset : Nat) (ms : List QueueMetadata) : Prop where
  payloads : ∀ m ∈ ms, m.Payload.length < 2 ^ 32
  inside : offset + (ms.flatMap metadataFrame).length ≤ entryEnd
  bytes : data.drop offset =
    ms.flatMap metadataFrame ++ data.drop (offset + (ms.flatMap metadataFrame).length)

/-- No metadata takes no bytes. -/
theorem MetadataAt.nil (data : Bytes) {entryEnd offset : Nat} (h : offset ≤ entryEnd) :
    MetadataAt data entryEnd offset [] :=
  ⟨by simp, by simpa using h, by simp⟩

/-- One metadata item in front of others. -/
theorem MetadataAt.cons {data : Bytes} {entryEnd offset stop : Nat} {m : QueueMetadata}
    {ms : List QueueMetadata} (hbytes : data.drop offset = metadataFrame m ++ data.drop stop)
    (hstop : stop = offset + (metadataFrame m).length) (hm : m.Payload.length < 2 ^ 32)
    (h : MetadataAt data entryEnd stop ms) : MetadataAt data entryEnd offset (m :: ms) where
  payloads := by
    intro x hx
    rcases List.mem_cons.mp hx with rfl | hx
    · exact hm
    · exact h.payloads x hx
  inside := by
    have hin := h.inside
    simp only [List.flatMap_cons, List.length_append]
    omega
  bytes := by
    have hoffset : stop + (ms.flatMap metadataFrame).length
        = offset + ((m :: ms).flatMap metadataFrame).length := by
      simp only [List.flatMap_cons, List.length_append]
      omega
    rw [hbytes, h.bytes, hoffset, List.flatMap_cons, List.append_assoc]

/-- The frame of a range made of fields is the fields. -/
theorem metadataFrame_of_fields (index time len payload : Bytes) (hindex : index.length = 4)
    (htime : time.length = 8) (hlen : len.length = 4) (hpayload : payload.length = getLE len) :
    metadataFrame ⟨UInt32.ofNat (getLE index), (UInt64.ofNat (getLE time)).toInt64, payload⟩
      = index ++ (time ++ (len ++ payload)) := by
  have hms : putLE 8 (UInt64.ofNat (getLE time)).toInt64.toUInt64.toNat = time :=
    putLE_uint64_field htime
  simp only [metadataFrame, mStartIndexSize, mIngestionTimeMsSize, mMetadataLenSize,
    putLE_uint32_field hindex, hms, hpayload, putLE_field hlen]

/-- The metadata loop returns the ranges that stand at the offset. -/
theorem decodeMetadata_meets {data : Bytes} {entryEnd : Nat} (hend : entryEnd ≤ data.length)
    (n : Nat) {offset : Nat} (hoffset : offset ≤ entryEnd) :
    Meets GoFault.IsReturned (decodeMetadata data entryEnd n offset) fun ms =>
      ms.length = n ∧ MetadataAt data entryEnd offset ms := by
  have hindexSize : mStartIndexSize = 4 := rfl
  have htimeSize : mIngestionTimeMsSize = 8 := rfl
  have hlenSize : mMetadataLenSize = 4 := rfl
  induction n generalizing offset with
  | zero => exact ⟨rfl, MetadataAt.nil data hoffset⟩
  | succ n ih =>
      unfold decodeMetadata
      refine .check trivial fun hc => .bind (goSlice_meets data (by omega) (by omega)) ?_
      rintro index ⟨hindexLen, hindex⟩
      refine .check trivial fun hc => .bind (goSlice_meets data (by omega) (by omega)) ?_
      rintro time ⟨htimeLen, htime⟩
      refine .check trivial fun hc => .bind (goSlice_meets data (by omega) (by omega)) ?_
      rintro len ⟨hlenLen, hlen⟩
      refine .check trivial fun hc => .bind (goSlice_meets data (by omega) (by omega)) ?_
      rintro payload ⟨hpayloadLen, hpayload⟩
      refine .bind (ih (by omega)) ?_
      rintro ms ⟨hcount, hms⟩
      have hframe := metadataFrame_of_fields index time len payload
        (by omega) (by omega) (by omega) (by omega)
      refine .pure ⟨by rw [List.length_cons, hcount], .cons ?_ ?_ ?_ hms⟩
      · rw [hframe, hindex, htime, hlen, hpayload]
        simp
      · rw [hframe]
        simp only [List.length_append]
        omega
      · have hlt : getLE len < 2 ^ 32 := field_lt (w := 4) (by omega)
        show payload.length < 2 ^ 32
        omega

/-! ## Entries -/

/-- A frame whose declared length covers the body and some bytes behind it. -/
def looseFrame (entry : QueueEntry) (slack : Bytes) : Bytes :=
  putLE mEntryLenSize (entryBodyLen entry + slack.length) ++ (entryBody entry ++ slack)

theorem looseFrame_length (entry : QueueEntry) (slack : Bytes) :
    (looseFrame entry slack).length = 4 + entryBodyLen entry + slack.length := by
  simp only [looseFrame, List.length_append, putLE_length, entryBody_length, mEntryLenSize]
  omega

/-- A frame without slack is that of the encoder. -/
theorem looseFrame_nil (entry : QueueEntry) : looseFrame entry [] = entryFrame entry := by
  simp [looseFrame, entryFrame]

/-- The entry was read at `offset`, reading goes on at `stop`: the declared
length reaches from one to the other, the fields of the entry lie inside it, and
it does not pass `bound`. -/
structure EntryAt (data : Bytes) (bound offset : Nat) (entry : QueueEntry) (stop : Nat) :
    Prop where
  declared : offset + mEntryLenSize + getLE (part data offset (offset + mEntryLenSize)) = stop
  inside : offset + mEntryLenSize + entryBodyLen entry ≤ stop
  consumed : offset + 18 ≤ stop
  within : stop ≤ bound
  location : entry.Location.length < 2 ^ 16
  payloads : ∀ m ∈ entry.Metadata, m.Payload.length < 2 ^ 32
  bytes : ∃ slack, data.drop offset = looseFrame entry slack ++ data.drop stop ∧
    stop = offset + (looseFrame entry slack).length

/-- The length of a body, by its fields. -/
theorem entryBodyLen_eq (entry : QueueEntry) : entryBodyLen entry =
    14 + entry.Location.length + (entry.Metadata.flatMap metadataFrame).length := by
  rw [← entryBody_length]
  simp [entryBody, mSequenceSize, mLocationLenSize, mMetadataCountSize]
  omega

/-- The body of an entry made of fields is the fields. -/
theorem entryBody_of_fields (seq locLen location count : Bytes) (ms : List QueueMetadata)
    (hseq : seq.length = 8) (hlocLen : locLen.length = 2)
    (hlocation : location.length = getLE locLen)
    (hcount : count.length = 4) (hms : ms.length = getLE count) :
    entryBody ⟨UInt64.ofNat (getLE seq), location, ms⟩
      = seq ++ (locLen ++ (location ++ (count ++ ms.flatMap metadataFrame))) := by
  simp only [entryBody, mSequenceSize, mLocationLenSize, mMetadataCountSize,
    putLE_uint64_field hseq, hlocation, putLE_field hlocLen, hms, putLE_field hcount]

/-- The reader of one entry returns an entry that stands at the offset.  The
bytes behind `bound` make the two reads without a check safe. -/
theorem decodeQueueEntry_meets {data : Bytes} {bound : Nat}
    (hbound : bound + mFooterSize ≤ data.length) (offset : Nat) :
    Meets GoFault.IsReturned (decodeQueueEntry data offset bound) fun result =>
      EntryAt data bound offset result.1 result.2 := by
  have hlenSize : mEntryLenSize = 4 := rfl
  have hseqSize : mSequenceSize = 8 := rfl
  have hlocSize : mLocationLenSize = 2 := rfl
  have hcountSize : mMetadataCountSize = 4 := rfl
  have hfooter : mFooterSize = 22 := rfl
  unfold decodeQueueEntry
  refine .check trivial fun hc => .bind (goSlice_meets data (by omega) (by omega)) ?_
  rintro len ⟨hlenLen, hlen⟩
  refine .check trivial fun hin => .bind (goSlice_meets data (by omega) (by omega)) ?_
  rintro seq ⟨hseqLen, hseq⟩
  refine .bind (goSlice_meets data (by omega) (by omega)) ?_
  rintro locLen ⟨hlocLenLen, hlocLen⟩
  refine .check trivial fun hfits => .bind (goSlice_meets data (by omega) (by omega)) ?_
  rintro location ⟨hlocationLen, hlocation⟩
  refine .bind (goSlice_meets data (by omega) (by omega)) ?_
  rintro count ⟨hcountLen, hcount⟩
  refine .bind (decodeMetadata_meets (by omega) _ (by omega)) ?_
  rintro ms ⟨hmsLen, hms⟩
  have hmsInside := hms.inside
  have hbody := entryBody_of_fields seq locLen location count ms (by omega) (by omega) (by omega)
    (by omega) hmsLen
  have hbodyLen : entryBodyLen ⟨UInt64.ofNat (getLE seq), location, ms⟩
      = 14 + location.length + (ms.flatMap metadataFrame).length := entryBodyLen_eq _
  have hlocLt : getLE locLen < 2 ^ 16 := field_lt (w := 2) (by omega)
  -- what is left of the declared length behind the last range
  obtain ⟨slack, -, hslackLen, hslack⟩ := drop_cut data
    (offset + mEntryLenSize + mSequenceSize + mLocationLenSize + getLE locLen +
      mMetadataCountSize + (ms.flatMap metadataFrame).length)
    (offset + mEntryLenSize + getLE len) (by omega) (by omega)
  have hlenField : putLE mEntryLenSize (entryBodyLen ⟨UInt64.ofNat (getLE seq), location, ms⟩ +
      slack.length) = len := by
    have hsum : entryBodyLen ⟨UInt64.ofNat (getLE seq), location, ms⟩ + slack.length
        = getLE len := by omega
    rw [hsum, putLE_field (by omega)]
  refine .pure ⟨?_, ?_, ?_, ?_, ?_, hms.payloads, slack, ?_, ?_⟩
  · rw [part_of_drop hlen (by omega)]
  · show offset + mEntryLenSize + entryBodyLen ⟨UInt64.ofNat (getLE seq), location, ms⟩
      ≤ offset + mEntryLenSize + getLE len
    omega
  · show offset + 18 ≤ offset + mEntryLenSize + getLE len
    omega
  · show offset + mEntryLenSize + getLE len ≤ bound
    omega
  · show location.length < 2 ^ 16
    omega
  · rw [looseFrame, hlenField, hbody, hlen, hseq, hlocLen, hlocation, hcount, hms.bytes, hslack]
    simp
  · rw [looseFrame_length]
    show offset + mEntryLenSize + getLE len = offset +
      (4 + entryBodyLen ⟨UInt64.ofNat (getLE seq), location, ms⟩ + slack.length)
    omega

/-- The entries were read one behind the other, from the first offset to the
last. -/
inductive EntriesAt (data : Bytes) (bound : Nat) : Nat → List QueueEntry → Nat → Prop
  | nil {offset : Nat} (h : offset ≤ bound) : EntriesAt data bound offset [] offset
  | cons {offset next stop : Nat} {entry : QueueEntry} {rest : List QueueEntry}
      (head : EntryAt data bound offset entry next) (tail : EntriesAt data bound next rest stop) :
      EntriesAt data bound offset (entry :: rest) stop

/-- The entry loop reads entries one behind the other. -/
theorem decodeEntries_meets {data : Bytes} {bound : Nat}
    (hbound : bound + mFooterSize ≤ data.length) (n : Nat) {offset : Nat}
    (hoffset : offset ≤ bound) :
    Meets GoFault.IsReturned (decodeEntries data bound n offset) fun entries =>
      entries.length = n ∧ ∃ stop, EntriesAt data bound offset entries stop := by
  induction n generalizing offset with
  | zero => exact ⟨rfl, offset, .nil hoffset⟩
  | succ n ih =>
      unfold decodeEntries
      refine .bind (decodeQueueEntry_meets hbound offset) ?_
      rintro ⟨entry, next⟩ hentry
      refine .bind (ih hentry.within) ?_
      rintro rest ⟨hcount, stop, hrest⟩
      exact .pure ⟨by rw [List.length_cons, hcount], stop, .cons hentry hrest⟩

/-- The entry count in the footer. -/
def entriesCountField (data : Bytes) : Nat :=
  getLE (part data (data.length - mFooterSize) (data.length - mFooterSize + mEntriesCountSize))

/-- The reader returns as many entries as the footer says, read one behind the
other and before the footer. -/
theorem decodeManifestEntries_meets (data : Bytes) :
    Meets GoFault.IsReturned (DecodeManifestEntries data) fun entries =>
      mFooterSize ≤ data.length ∧ entries.length = entriesCountField data ∧
        ∃ stop, EntriesAt data (data.length - mFooterSize) 0 entries stop := by
  have hfooter : mFooterSize = 22 := rfl
  have hcountSize : mEntriesCountSize = 4 := rfl
  unfold DecodeManifestEntries
  refine .check trivial fun hc => .bind (goSlice_meets data (by omega) (by omega)) ?_
  rintro count ⟨hcountLen, hcount⟩
  refine (decodeEntries_meets (by omega) _ (Nat.zero_le _)).mono ?_
  rintro entries ⟨hlen, hat⟩
  refine ⟨by omega, ?_, hat⟩
  rw [hlen, entriesCountField, part_of_drop hcount (by omega)]

/-- Entries take at least eighteen bytes each, and stay within the body. -/
theorem EntriesAt.consumed {data : Bytes} {bound offset stop : Nat} {entries : List QueueEntry}
    (h : EntriesAt data bound offset entries stop) :
    offset + 18 * entries.length ≤ stop ∧ stop ≤ bound := by
  induction h with
  | nil h => exact ⟨by simp, h⟩
  | cons head tail ih =>
      have hhead := head.consumed
      simp only [List.length_cons]
      omega

/-- **The reader stays inside the data.**  On every input it returns an error or
a list; no slice expression is out of range.  A list has the length that the
footer says, its entries stand one behind the other before the footer, each in
at least 18 bytes and with its metadata inside its declared length. -/
theorem decodeManifestEntries_safe (data : Bytes) :
    (∃ err, DecodeManifestEntries data = .error (.returned err)) ∨
      ∃ entries stop, DecodeManifestEntries data = .ok entries ∧ mFooterSize ≤ data.length ∧
        EntriesAt data (data.length - mFooterSize) 0 entries stop ∧
        entries.length = entriesCountField data ∧
        entriesCountField data ≤ (data.length - 22) / 18 := by
  rcases (decodeManifestEntries_meets data).cases with ⟨e, he, hreturned⟩ | ⟨entries, hok, hat⟩
  · cases e with
    | returned err => exact Or.inl ⟨err, he⟩
    | outOfRange => exact hreturned.elim
  · obtain ⟨hlen, hcount, stop, hentries⟩ := hat
    refine Or.inr ⟨entries, stop, hok, hlen, hentries, hcount, ?_⟩
    have hused := hentries.consumed
    have hfooter : mFooterSize = 22 := rfl
    omega

/-! ## Where the length fields lead -/

/-- The number in the `w` bytes at an offset. -/
def fieldAt (data : Bytes) (offset w : Nat) : Nat := getLE (part data offset (offset + w))

/-- The offset behind `n` metadata ranges, by their length fields. -/
def metadataEnd (data : Bytes) : Nat → Nat → Nat
  | 0, offset => offset
  | n + 1, offset =>
    let lenStart := offset + mStartIndexSize + mIngestionTimeMsSize
    metadataEnd data n (lenStart + mMetadataLenSize + fieldAt data lenStart mMetadataLenSize)

/-- The offset behind the fields of the entry at `offset`, by the length of its location,
the number of its metadata ranges and their lengths. -/
def fieldsEnd (data : Bytes) (offset : Nat) : Nat :=
  let locLenStart := offset + mEntryLenSize + mSequenceSize
  let countStart := locLenStart + mLocationLenSize + fieldAt data locLenStart mLocationLenSize
  metadataEnd data (fieldAt data countStart mMetadataCountSize) (countStart + mMetadataCountSize)

/-- The offset behind the entry at `offset`, by its declared length. -/
def declaredEnd (data : Bytes) (offset : Nat) : Nat :=
  offset + mEntryLenSize + fieldAt data offset mEntryLenSize

/-- `n` entries from `offset` on fill the data up to `bound`: each of them ends, by its
declared length, where its fields end, and the last one ends at `bound`. -/
def Tiled (data : Bytes) (bound : Nat) : Nat → Nat → Prop
  | 0, offset => offset = bound
  | n + 1, offset =>
    fieldsEnd data offset = declaredEnd data offset ∧ Tiled data bound n (declaredEnd data offset)

instance Tiled.decidable (data : Bytes) (bound : Nat) :
    (n offset : Nat) → Decidable (Tiled data bound n offset)
  | 0, offset => inferInstanceAs (Decidable (offset = bound))
  | n + 1, offset =>
    have := Tiled.decidable data bound n (declaredEnd data offset)
    inferInstanceAs (Decidable (_ ∧ _))

/-- A number is read where it was written. -/
theorem fieldAt_putLE (offset : Nat) (before rest : Bytes) {data : Bytes} {lo w n : Nat}
    (h : data.drop offset = before ++ (putLE w n ++ rest)) (hlo : lo = offset + before.length)
    (hn : n < 256 ^ w) : fieldAt data lo w = n := by
  have hdrop : data.drop lo = putLE w n ++ rest := by
    rw [hlo, ← List.drop_drop, h, List.drop_left]
  rw [fieldAt, part_of_drop hdrop (by rw [putLE_length]), getLE_putLE hn]

/-- The length fields of written ranges lead behind them. -/
theorem metadataEnd_frames {data : Bytes} (ms : List QueueMetadata) (rest : Bytes) {offset : Nat}
    (hpay : ∀ m ∈ ms, m.Payload.length < 2 ^ 32)
    (hbytes : data.drop offset = ms.flatMap metadataFrame ++ rest) :
    metadataEnd data ms.length offset = offset + (ms.flatMap metadataFrame).length := by
  induction ms generalizing offset with
  | nil => rfl
  | cons m ms ih =>
      have hfield : fieldAt data (offset + mStartIndexSize + mIngestionTimeMsSize) mMetadataLenSize
          = m.Payload.length := by
        refine fieldAt_putLE offset (putLE mStartIndexSize m.StartIndex.toNat ++
          putLE mIngestionTimeMsSize m.IngestionTimeMs.toUInt64.toNat)
          (m.Payload ++ (ms.flatMap metadataFrame ++ rest)) ?_ ?_ (hpay m List.mem_cons_self)
        · rw [hbytes, List.flatMap_cons, metadataFrame]
          simp only [List.append_assoc]
        · simp only [List.length_append, putLE_length]
          omega
      have hnext : offset + mStartIndexSize + mIngestionTimeMsSize + mMetadataLenSize +
          m.Payload.length = offset + (metadataFrame m).length := by
        rw [metadataFrame_length, mStartIndexSize, mIngestionTimeMsSize, mMetadataLenSize]
        omega
      have hrest : data.drop (offset + (metadataFrame m).length)
          = ms.flatMap metadataFrame ++ rest := by
        rw [← List.drop_drop, hbytes, List.flatMap_cons, List.append_assoc, List.drop_left]
      have htail := ih (fun x hx => hpay x (List.mem_cons_of_mem _ hx)) hrest
      simp only [List.length_cons, metadataEnd, hfield, hnext, htail, List.flatMap_cons,
        List.length_append]
      omega

/-- The length fields of a written body lead behind it, whatever length is declared. -/
theorem fieldsEnd_body (lenField rest : Bytes) {data : Bytes} {entry : QueueEntry} {offset : Nat}
    (hloc : entry.Location.length < 2 ^ 16)
    (hpay : ∀ m ∈ entry.Metadata, m.Payload.length < 2 ^ 32)
    (hcount : entry.Metadata.length < 2 ^ 32) (hlen : lenField.length = mEntryLenSize)
    (hbytes : data.drop offset = lenField ++ (entryBody entry ++ rest)) :
    fieldsEnd data offset = offset + mEntryLenSize + entryBodyLen entry := by
  have hseqSize : mSequenceSize = 8 := rfl
  have hlocSize : mLocationLenSize = 2 := rfl
  have hcountSize : mMetadataCountSize = 4 := rfl
  have hlocField : fieldAt data (offset + mEntryLenSize + mSequenceSize) mLocationLenSize
      = entry.Location.length := by
    refine fieldAt_putLE offset (lenField ++ putLE mSequenceSize entry.Sequence.toNat)
      (entry.Location ++ (putLE mMetadataCountSize entry.Metadata.length ++
        (entry.Metadata.flatMap metadataFrame ++ rest))) ?_ ?_ hloc
    · rw [hbytes, entryBody]
      simp only [List.append_assoc]
    · rw [List.length_append, hlen, putLE_length]
      omega
  have hcountField : fieldAt data (offset + mEntryLenSize + mSequenceSize + mLocationLenSize +
      entry.Location.length) mMetadataCountSize = entry.Metadata.length := by
    refine fieldAt_putLE offset (lenField ++ (putLE mSequenceSize entry.Sequence.toNat ++
      (putLE mLocationLenSize entry.Location.length ++ entry.Location)))
      (entry.Metadata.flatMap metadataFrame ++ rest) ?_ ?_ hcount
    · rw [hbytes, entryBody]
      simp only [List.append_assoc]
    · simp only [List.length_append, hlen, putLE_length]
      omega
  have hranges : data.drop (offset + mEntryLenSize + mSequenceSize + mLocationLenSize +
      entry.Location.length + mMetadataCountSize) =
      entry.Metadata.flatMap metadataFrame ++ rest := by
    have hat : offset + mEntryLenSize + mSequenceSize + mLocationLenSize + entry.Location.length +
        mMetadataCountSize = offset + (lenField ++ (putLE mSequenceSize entry.Sequence.toNat ++
          (putLE mLocationLenSize entry.Location.length ++ (entry.Location ++
            putLE mMetadataCountSize entry.Metadata.length)))).length := by
      simp only [List.length_append, hlen, putLE_length]
      omega
    have hsplit : data.drop offset = (lenField ++ (putLE mSequenceSize entry.Sequence.toNat ++
        (putLE mLocationLenSize entry.Location.length ++ (entry.Location ++
          putLE mMetadataCountSize entry.Metadata.length)))) ++
        (entry.Metadata.flatMap metadataFrame ++ rest) := by
      rw [hbytes, entryBody]
      simp only [List.append_assoc]
    rw [hat, ← List.drop_drop, hsplit, List.drop_left]
  rw [fieldsEnd, hlocField, hcountField, metadataEnd_frames entry.Metadata rest hpay hranges,
    entryBodyLen_eq]
  omega

namespace EntryAt

variable {data : Bytes} {bound offset stop : Nat} {entry : QueueEntry}

/-- An entry that was read fits its length fields. -/
theorem fits (h : EntryAt data bound offset entry stop)
    (hend : offset + mEntryLenSize ≤ data.length) :
    EntryFits entry := by
  have hfield : (part data offset (offset + mEntryLenSize)).length = 4 := by
    rw [part, List.length_drop, List.length_take, Nat.min_eq_left hend, Nat.add_sub_cancel_left]
    rfl
  have hlt : getLE (part data offset (offset + mEntryLenSize)) < 2 ^ 32 := field_lt (w := 4) hfield
  have hdeclared := h.declared
  have hinside := h.inside
  exact ⟨h.location, h.payloads, by omega⟩

/-- The length fields of an entry that was read lead behind its body. -/
theorem fieldsEnd_eq (h : EntryAt data bound offset entry stop)
    (hend : offset + mEntryLenSize ≤ data.length) :
    fieldsEnd data offset = offset + mEntryLenSize + entryBodyLen entry := by
  obtain ⟨slack, hbytes, -⟩ := h.bytes
  refine fieldsEnd_body (putLE mEntryLenSize (entryBodyLen entry + slack.length))
    (slack ++ data.drop stop) h.location h.payloads (h.fits hend).count (putLE_length _ _) ?_
  rw [hbytes, looseFrame, List.append_assoc, List.append_assoc]

end EntryAt

/-- If the entry reader accepts what was written for an entry, the entry fits its length
field: a longer body would reach past the end that the field declares. -/
theorem decodeQueueEntry_fits {data rest : Bytes} {bound offset : Nat} {entry : QueueEntry}
    {result : QueueEntry × Nat} (hbound : bound + mFooterSize ≤ data.length)
    (hloc : entry.Location.length < 2 ^ 16)
    (hpay : ∀ m ∈ entry.Metadata, m.Payload.length < 2 ^ 32)
    (hcount : entry.Metadata.length < 2 ^ 32)
    (hbytes : data.drop offset = entryFrame entry ++ rest)
    (hread : decodeQueueEntry data offset bound = .ok result) : entryBodyLen entry < 2 ^ 32 := by
  have hat := (decodeQueueEntry_meets hbound offset).ok hread
  have hlenSize : mEntryLenSize = 4 := rfl
  have hend : offset + mEntryLenSize ≤ data.length := by
    have hconsumed := hat.consumed
    have hwithin := hat.within
    omega
  have hwritten : fieldsEnd data offset = offset + mEntryLenSize + entryBodyLen entry :=
    fieldsEnd_body _ rest hloc hpay hcount (putLE_length _ _) (by
      rw [hbytes, entryFrame, List.append_assoc])
  have hsame := hwritten.symm.trans (hat.fieldsEnd_eq hend)
  have hfits := (hat.fits hend).body
  omega

/-- If the entry loop accepts what was written for a list of entries, all of them fit
their length fields. -/
theorem decodeEntries_fits {bound : Nat} (entries : List QueueEntry) (before after : Bytes)
    {read : List QueueEntry}
    (hbound : bound + mFooterSize ≤ (before ++ (entries.flatMap entryFrame ++ after)).length)
    (hend : before.length + (entries.flatMap entryFrame).length ≤ bound)
    (hloc : ∀ e ∈ entries, e.Location.length < 2 ^ 16)
    (hpay : ∀ e ∈ entries, ∀ m ∈ e.Metadata, m.Payload.length < 2 ^ 32)
    (hcount : ∀ e ∈ entries, e.Metadata.length < 2 ^ 32)
    (hread : decodeEntries (before ++ (entries.flatMap entryFrame ++ after)) bound entries.length
      before.length = .ok read) : ∀ e ∈ entries, entryBodyLen e < 2 ^ 32 := by
  induction entries generalizing before read with
  | nil => simp
  | cons e rest ih =>
      have hsplit : before ++ ((e :: rest).flatMap entryFrame ++ after)
          = before ++ (entryFrame e ++ (rest.flatMap entryFrame ++ after)) := by
        rw [List.flatMap_cons, List.append_assoc]
      have hend' : before.length + (entryFrame e).length + (rest.flatMap entryFrame).length
          ≤ bound := by
        simpa [Nat.add_assoc] using hend
      rw [hsplit] at hbound hread
      rw [List.length_cons, decodeEntries] at hread
      cases hhead :
        decodeQueueEntry (before ++ (entryFrame e ++ (rest.flatMap entryFrame ++ after)))
          before.length bound with
      | error err => simp [hhead, bind, Except.bind] at hread
      | ok result =>
          have hbody : entryBodyLen e < 2 ^ 32 :=
            decodeQueueEntry_fits hbound (hloc e List.mem_cons_self) (hpay e List.mem_cons_self)
              (hcount e List.mem_cons_self) List.drop_left hhead
          -- The head is read as it was written, and the tail starts behind it.
          have hfit : EntryFits e := ⟨hloc e List.mem_cons_self, hpay e List.mem_cons_self, hbody⟩
          rw [decodeQueueEntry_frame e before _ bound hfit (by omega)] at hhead
          cases hhead
          have hbehind : before ++ (entryFrame e ++ (rest.flatMap entryFrame ++ after))
              = (before ++ entryFrame e) ++ (rest.flatMap entryFrame ++ after) := by
            rw [List.append_assoc]
          rw [decodeQueueEntry_frame e before _ bound hfit (by omega)] at hread
          simp only [bind, Except.bind] at hread
          cases htail :
            decodeEntries (before ++ (entryFrame e ++ (rest.flatMap entryFrame ++ after)))
              bound rest.length (before.length + (entryFrame e).length) with
          | error err => simp [htail] at hread
          | ok read' =>
              have hrest := ih (before ++ entryFrame e)
                (by rw [← hbehind]; exact hbound) (by simpa using hend')
                (fun x hx => hloc x (List.mem_cons_of_mem _ hx))
                (fun x hx => hpay x (List.mem_cons_of_mem _ hx))
                (fun x hx => hcount x (List.mem_cons_of_mem _ hx))
                (by rw [← hbehind, List.length_append]; exact htail)
              intro x hx
              rcases List.mem_cons.mp hx with rfl | hx
              · exact hbody
              · exact hrest x hx

/-- If the reader accepts a manifest as it was written, all entries fit their length
fields. -/
theorem decodeManifestEntries_fits {entries read : List QueueEntry} {nextSequence epoch : UInt64}
    (htotal : entries.length < 2 ^ 32) (hloc : ∀ e ∈ entries, e.Location.length < 2 ^ 16)
    (hpay : ∀ e ∈ entries, ∀ m ∈ e.Metadata, m.Payload.length < 2 ^ 32)
    (hcount : ∀ e ∈ entries, e.Metadata.length < 2 ^ 32)
    (hread : DecodeManifestEntries (entries.flatMap entryFrame ++
      manifestFooter entries.length nextSequence epoch) = .ok read) :
    ∀ e ∈ entries, entryBodyLen e < 2 ^ 32 := by
  rw [decodeManifestEntries_footer _ _ _ htotal] at hread
  refine decodeEntries_fits entries [] (manifestFooter entries.length nextSequence epoch) ?_ ?_ hloc
    hpay hcount hread
  · rw [List.nil_append, List.length_append, manifestFooter_length]
  · rw [List.length_nil, Nat.zero_add]

/-! ## Strictness -/

/-- The frames of the entries fit between the two offsets; if they fill the
space, the bytes are exactly the frames. -/
theorem EntriesAt.frames {data : Bytes} {bound offset stop : Nat} {entries : List QueueEntry}
    (h : EntriesAt data bound offset entries stop) :
    offset + (entries.flatMap entryFrame).length ≤ stop ∧
      (offset + (entries.flatMap entryFrame).length = stop →
        data.drop offset = entries.flatMap entryFrame ++ data.drop stop) := by
  induction h with
  | nil h => simp
  | cons head tail ih =>
      rename_i offset next stop entry rest
      obtain ⟨slack, hbytes, hnext⟩ := head.bytes
      rw [looseFrame_length] at hnext
      simp only [List.flatMap_cons, List.length_append, entryFrame_length]
      refine ⟨by omega, fun hfull => ?_⟩
      have hslack : slack = [] := List.length_eq_zero_iff.mp (by omega)
      rw [hbytes, hslack, looseFrame_nil, ih.2 (by omega), List.append_assoc]

/-- The entries that were read are tiled exactly if their frames fill the space. -/
theorem EntriesAt.tiled_iff {data : Bytes} {bound offset stop : Nat} {entries : List QueueEntry}
    (hbound : bound ≤ data.length) (h : EntriesAt data bound offset entries stop) :
    Tiled data bound entries.length offset ↔
      offset + (entries.flatMap entryFrame).length = bound := by
  induction h with
  | nil h => simp [Tiled]
  | @cons offset next stop entry rest head tail ih =>
      have hlenSize : mEntryLenSize = 4 := rfl
      have hconsumed := head.consumed
      have hwithin := head.within
      have hinside := head.inside
      have hrest := tail.frames.1
      have hstop := tail.consumed.2
      have hdeclared : declaredEnd data offset = next := head.declared
      simp only [List.length_cons, Tiled, hdeclared, head.fieldsEnd_eq (by omega), ih,
        List.flatMap_cons, List.length_append, entryFrame_length]
      omega

/-- Every entry that was read can be written. -/
theorem EntriesAt.encode {data : Bytes} {bound offset stop : Nat} {entries : List QueueEntry}
    (h : EntriesAt data bound offset entries stop) :
    ∀ e ∈ entries, encodeQueueEntry e = .ok (entryFrame e) := by
  induction h with
  | nil h => simp
  | cons head tail ih =>
      intro e he
      rcases List.mem_cons.mp he with rfl | he
      · exact encodeQueueEntry_checked head.location head.payloads
      · exact ih e he

/-- The version in the footer. -/
def versionField (data : Bytes) : Nat :=
  getLE (part data (data.length - mVersionSize) data.length)

/-- A footer is read exactly if its version is supported. -/
theorem manifestFromBytes_iff {data : Bytes} (h : mFooterSize ≤ data.length) :
    (∃ m, manifestFromBytes data = .ok m) ↔ versionField data = manifestVersion := by
  have hfooter : mFooterSize = 22 := rfl
  unfold manifestFromBytes
  rw [if_neg (by omega), if_neg (by omega)]
  by_cases hversion : versionField data = manifestVersion
  · simp only [versionField] at hversion
    simp [hversion, versionField]
  · simp only [versionField] at hversion
    simp [hversion, versionField]

/-- **When reading is strict.**  Entries that were read can all be written again.
The footer is accepted as well and writing the entries reproduces the body, if
and only if the version is supported and the length fields of as many entries as the
footer counts tile the body. -/
theorem manifest_read_strict {data : Bytes} {entries : List QueueEntry}
    (h : DecodeManifestEntries data = .ok entries) :
    (∀ e ∈ entries, encodeQueueEntry e = .ok (entryFrame e)) ∧
    ((∃ m, manifestFromBytes data = .ok m) ∧
        data.take (data.length - mFooterSize) = entries.flatMap entryFrame ↔
      versionField data = manifestVersion ∧
        Tiled data (data.length - mFooterSize) (entriesCountField data) 0) := by
  obtain ⟨hlen, hcount, stop, hat⟩ := (decodeManifestEntries_meets data).ok h
  refine ⟨hat.encode, ?_⟩
  rw [manifestFromBytes_iff hlen, ← hcount, hat.tiled_iff (Nat.sub_le _ _), Nat.zero_add]
  refine and_congr_right fun _ => ⟨fun hbody => ?_, fun hfull => ?_⟩
  · rw [← hbody, List.length_take, Nat.min_eq_left (Nat.sub_le _ _)]
  · obtain ⟨hle, hframes⟩ := hat.frames
    have hstop := hat.consumed.2
    have hbytes := hframes (by omega)
    rw [List.drop_zero] at hbytes
    rw [← hfull, hbytes, List.take_left]

/-- A manifest of one entry as it is written is read strictly. -/
theorem manifest_read_strict_sample :
    (∃ m, manifestFromBytes (entryFrame ⟨0, [97], []⟩ ++ manifestFooter 1 1 0) = .ok m) ∧
      (entryFrame ⟨0, [97], []⟩ ++ manifestFooter 1 1 0).take 19 = entryFrame ⟨0, [97], []⟩ := by
  have hread : DecodeManifestEntries (entryFrame ⟨0, [97], []⟩ ++ manifestFooter 1 1 0)
      = .ok [⟨0, [97], []⟩] := rfl
  exact (manifest_read_strict hread).2.mpr ⟨rfl, by decide⟩

/-- Without the condition: the reader accepts a version that the footer reader
refuses, a byte between the last entry and the footer, and a byte inside an entry
behind its metadata; writing the entries again gives less than was read. -/
theorem manifest_read_lenient :
    (DecodeManifestEntries (putLE 4 0 ++ (putLE 8 0 ++ (putLE 8 0 ++ putLE 2 2))) = .ok [] ∧
      ∀ m, manifestFromBytes (putLE 4 0 ++ (putLE 8 0 ++ (putLE 8 0 ++ putLE 2 2))) ≠ .ok m) ∧
    (DecodeManifestEntries (9 :: emptyManifest.data) = .ok [] ∧
      (9 :: emptyManifest.data).take 1 ≠ ([] : List QueueEntry).flatMap entryFrame) ∧
    DecodeManifestEntries (looseFrame ⟨0, [97], []⟩ [9] ++ manifestFooter 1 1 0)
        = .ok [⟨0, [97], []⟩] ∧
      (looseFrame ⟨0, [97], []⟩ [9] ++ manifestFooter 1 1 0).take 20
        ≠ [⟨0, [97], []⟩].flatMap entryFrame := by
  refine ⟨⟨rfl, fun m h => ?_⟩, ⟨rfl, by decide⟩, rfl, by decide⟩
  cases h

end OpenDataBuffer
