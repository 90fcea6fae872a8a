import OpenDataBuffer.BatchCodec
import OpenDataBuffer.ManifestReader

/-!
# What the batch reader accepts

`DecodeBatch` reads a footer, takes the rest of the data as the record block,
compressed or not, and follows one length field after another.  `FramedBatch`
says on the bytes alone which inputs have that shape and what their records
hold.  The reader accepts exactly these inputs: what lies behind the last record
is skipped, and nothing but the length fields says where a record ends.

A length field may hold any number below `2 ^ 32`.  The check before each slice
is on the sum of the offset and that number, so a field that is too large gives
an error and never a slice out of range.
-/

namespace OpenDataBuffer

open LittleEndian Readers

/-- `body` starts with that many complete frames, each a four-byte little-endian
length followed by that many bytes. -/
inductive StartsWithFrames : Nat → Bytes → List Bytes → Prop
  | done (rest : Bytes) : StartsWithFrames 0 rest []
  | frame {n : Nat} {lenField entry rest : Bytes} {entries : List Bytes}
      (hfield : lenField.length = batchEntryLenSize) (hentry : entry.length = getLE lenField)
      (hrest : StartsWithFrames n rest entries) :
      StartsWithFrames (n + 1) (lenField ++ (entry ++ rest)) (entry :: entries)

/-- The record block behind a compression byte, decompressed. -/
inductive BatchBody (z : Zstd) (block : Bytes) : UInt8 → Bytes → Prop
  | plain : BatchBody z block CompressionNone block
  | unpacked {body : Bytes} (hreader : z.newReaderErr = none)
      (hdecode : z.decodeAll block = .ok body) : BatchBody z block CompressionZstd body

/-- The record count in the footer of a batch. -/
def batchRecordCount (data : Bytes) : Nat :=
  getLE (part data (data.length - 6) (data.length - 2))

/-- The data has a footer with version 1, a compression byte the reader knows,
and a body that starts with as many complete frames as the footer says. -/
structure FramedBatch (z : Zstd) (data : Bytes) (entries : List Bytes) : Prop where
  footer : 7 ≤ data.length
  version : getLE (data.drop (data.length - 2)) = 1
  body : ∃ compression body, data[data.length - 7]? = some compression ∧
    BatchBody z (data.take (data.length - 7)) compression body ∧
    StartsWithFrames (batchRecordCount data) body entries

/-- Frames are the record block of their contents. -/
theorem StartsWithFrames.recordBlock {n : Nat} {body : Bytes} {entries : List Bytes}
    (h : StartsWithFrames n body entries) :
    entries.length = n ∧ (∀ e ∈ entries, e.length < 2 ^ 32) ∧
      ∃ rest, body = OpenDataBuffer.recordBlock entries ++ rest := by
  induction h with
  | done rest => exact ⟨rfl, by simp, rest, rfl⟩
  | @frame n lenField entry rest entries hfield hentry hrest ih =>
      obtain ⟨hcount, hlen, tail, rfl⟩ := ih
      have hlt : getLE lenField < 2 ^ 32 := field_lt (w := 4) hfield
      refine ⟨by rw [List.length_cons, hcount], ?_, tail, ?_⟩
      · intro e he
        rcases List.mem_cons.mp he with rfl | he
        · exact hentry ▸ hlt
        · exact hlen e he
      · have hput : putLE batchEntryLenSize entry.length = lenField := by
          rw [hentry, putLE_field hfield]
        simp [OpenDataBuffer.recordBlock, hput]

/-- The record loop returns the contents of the frames at the offset. -/
theorem decodeRecords_meets {entryData : Bytes} (n : Nat) {offset : Nat}
    (hoffset : offset ≤ entryData.length) :
    Meets GoFault.IsReturned (decodeRecords entryData n offset)
      (StartsWithFrames n (entryData.drop offset)) := by
  have hsize : batchEntryLenSize = 4 := rfl
  induction n generalizing offset with
  | zero => exact .done _
  | succ n ih =>
      unfold decodeRecords
      refine .check trivial fun hfits => .bind (goSlice_meets entryData (by omega) (by omega)) ?_
      rintro lenField ⟨hfieldLen, hfield⟩
      refine .check trivial fun hinside => .bind (goSlice_meets entryData (by omega) (by omega)) ?_
      rintro entry ⟨hentryLen, hentry⟩
      refine .bind (ih (by omega)) fun entries hentries => .pure ?_
      rw [hfield, hentry]
      exact .frame (by omega) (by omega) hentries

/-- The reader of the body has a value exactly where there is a body. -/
theorem batchEntryData_meets (z : Zstd) (compression : UInt8) (block : Bytes) :
    Meets GoFault.IsReturned (batchEntryData z compression block)
      (BatchBody z block compression) := by
  unfold batchEntryData
  by_cases hnone : compression = CompressionNone
  · rw [if_pos hnone, hnone]
    exact BatchBody.plain
  · rw [if_neg hnone]
    by_cases hzstd : compression = CompressionZstd
    · rw [if_pos hzstd, hzstd]
      cases hreader : z.newReaderErr with
      | some msg => trivial
      | none =>
          cases hdecode : z.decodeAll block with
          | error msg => trivial
          | ok body => exact BatchBody.unpacked hreader hdecode
    · rw [if_neg hzstd]
      trivial

/-- A body is read as it was stored. -/
theorem BatchBody.read {z : Zstd} {block body : Bytes} {compression : UInt8}
    (h : BatchBody z block compression body) : batchEntryData z compression block = .ok body := by
  cases h with
  | plain => rfl
  | unpacked hreader hdecode =>
      have hne : CompressionZstd ≠ CompressionNone := by decide
      simp [batchEntryData, hne, hreader, hdecode]

/-- Data that ends in a footer of version 1, cut into the record block and the
fields of the footer. -/
theorem footer_cut {data : Bytes} (hlen : 7 ≤ data.length)
    (hversion : getLE (data.drop (data.length - 2)) = 1) :
    ∃ compression, data[data.length - 7]? = some compression ∧
      data = data.take (data.length - 7) ++ batchFooter compression (batchRecordCount data) := by
  obtain ⟨comp, hcompEq, hcompLen, hcomp⟩ :=
    drop_cut data (data.length - 7) (data.length - 6) (by omega) (by omega)
  obtain ⟨count, hcountEq, hcountLen, hcount⟩ :=
    drop_cut data (data.length - 6) (data.length - 2) (by omega) (by omega)
  obtain ⟨compression, rfl⟩ : ∃ c, comp = [c] := List.length_eq_one_iff.mp (by omega)
  have hversionBytes : data.drop (data.length - 2) = putLE batchVersionSize batchVersion := by
    have hfield : (data.drop (data.length - 2)).length = 2 := by
      rw [List.length_drop]
      omega
    rw [← putLE_field hfield, hversion]
    rfl
  have hcountBytes : count = putLE batchCountSize (batchRecordCount data) := by
    rw [batchRecordCount, part, ← hcountEq]
    exact (putLE_field (by rw [hcountLen, batchCountSize]; omega)).symm
  have hfooter : data.drop (data.length - 7) = batchFooter compression (batchRecordCount data) := by
    rw [hcomp, hcount, hversionBytes, batchFooter, ← hcountBytes]
    rfl
  refine ⟨compression, ?_, ?_⟩
  · have hhead : (data.drop (data.length - 7))[0]? = some compression := by
      rw [hfooter]
      rfl
    simpa using hhead
  · rw [← hfooter, List.take_append_drop]

/-- The count of records is a field of four bytes. -/
theorem batchRecordCount_lt {data : Bytes} (hlen : 7 ≤ data.length) :
    batchRecordCount data < 2 ^ 32 := by
  have hfield : (part data (data.length - 6) (data.length - 2)).length = 4 := by
    rw [part, List.length_drop, List.length_take]
    omega
  exact field_lt hfield

/-- Everything `DecodeBatch` does with data that has a footer of version 1. -/
theorem decodeBatch_framed (z : Zstd) {data : Bytes} {compression : UInt8}
    (hlen : 7 ≤ data.length) (hversion : getLE (data.drop (data.length - 2)) = 1)
    (hcompression : data[data.length - 7]? = some compression) :
    DecodeBatch z data = (batchEntryData z compression (data.take (data.length - 7))).bind
      fun entryData => decodeRecords entryData (batchRecordCount data) 0 := by
  obtain ⟨c, hc, hcut⟩ := footer_cut hlen hversion
  obtain rfl : compression = c := Option.some.inj (hcompression.symm.trans hc)
  have h := decodeBatch_footer z (data.take (data.length - 7)) compression
    (batchRecordCount_lt hlen)
  rwa [← hcut] at h

/-- Data that is not refused has a footer of version 1. -/
theorem decodeBatch_footer_meets (z : Zstd) (data : Bytes) :
    Meets GoFault.IsReturned (DecodeBatch z data) fun _ =>
      7 ≤ data.length ∧ getLE (data.drop (data.length - 2)) = 1 := by
  have hsize : batchFooterSize = 7 := rfl
  unfold DecodeBatch
  refine .check trivial fun hlen => .bind (goSlice_meets data (by omega) (by omega)) ?_
  rintro footer ⟨hfooterLen, hfooter⟩
  refine .bind (goSlice_meets footer (by omega) (by omega)) fun compressionField _ => ?_
  refine .bind (goSlice_meets footer (by omega) (by omega)) fun recordCount _ => ?_
  refine .bind (goSlice_meets footer (by omega) (by omega)) ?_
  rintro versionField ⟨hversionLen, hversion⟩
  refine .check trivial fun hone => .bind (goSlice_meets data (by omega) (by omega)) ?_
  intro block _
  refine .bind (batchEntryData_meets z _ block) fun entryData _ => ?_
  refine .mono (decodeRecords_meets _ (Nat.zero_le _)) fun entries _ => ⟨by omega, ?_⟩
  have hfield : data.drop (data.length - 2) = versionField := by
    have hat : data.length - 2 = data.length - batchFooterSize + 5 := by omega
    rw [hat, ← List.drop_drop, hfooter, List.drop_length, List.append_nil, hversion,
      List.drop_eq_nil_of_le (by omega), List.append_nil]
  rw [hfield]
  exact not_not.mp hone

/-- `DecodeBatch` returns an error, or what `FramedBatch` says of its input. -/
theorem decodeBatch_meets (z : Zstd) (data : Bytes) :
    Meets GoFault.IsReturned (DecodeBatch z data) (FramedBatch z data) := by
  by_cases hfooter : 7 ≤ data.length ∧ getLE (data.drop (data.length - 2)) = 1
  · obtain ⟨hlen, hversion⟩ := hfooter
    obtain ⟨compression, hcompression, -⟩ := footer_cut hlen hversion
    rw [decodeBatch_framed z hlen hversion hcompression]
    refine .bind (batchEntryData_meets z compression _) fun body hbody => ?_
    refine .mono (decodeRecords_meets _ (Nat.zero_le _)) fun entries hentries => ?_
    exact ⟨hlen, hversion, compression, body, hcompression, hbody, hentries⟩
  · exact (decodeBatch_footer_meets z data).mono fun _ h => absurd h hfooter

/-- **The batch reader accepts exactly the framed inputs.**  It returns the
contents of the frames, in order, and no slice it takes is out of range. -/
theorem decodeBatch_accepts_framed (z : Zstd) (data : Bytes) :
    (∀ entries, DecodeBatch z data = .ok entries ↔ FramedBatch z data entries) ∧
    ∀ fault, DecodeBatch z data = .error fault → ∃ err, fault = .returned err := by
  have hmeets := decodeBatch_meets z data
  refine ⟨fun entries => ⟨hmeets.ok, ?_⟩, ?_⟩
  · rintro ⟨hlen, hversion, compression, body, hcompression, hbody, hframes⟩
    obtain ⟨hcount, hentries, rest, rfl⟩ := hframes.recordBlock
    rw [decodeBatch_framed z hlen hversion hcompression, hbody.read, ← hcount]
    exact decodeRecords_recordBlock entries [] rest hentries
  · intro fault hfault
    rw [hfault] at hmeets
    cases fault with
    | returned err => exact ⟨err, rfl⟩
    | outOfRange => exact absurd hmeets id

end OpenDataBuffer
