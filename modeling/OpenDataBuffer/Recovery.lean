import OpenDataBuffer.Batching
import OpenDataBuffer.FieldWidths
import OpenDataBuffer.ManifestReader
import OpenDataBuffer.Pieces

/-!
# Each append is found again in the stored batch

A batch stores the entries of its messages behind each other in a data object,
and for each message a metadata range with the position of its first entry in
the manifest.  `recoverAppends` is what a reader can do with the two: cut the
entries at the positions and pair each piece with its range.

The accumulator lays both out so that this gives the messages back, and the two
codecs keep them, provided the manifest entry fits its length field.  If it does not,
or one of the entries appended with it does not, nothing of the manifest can be read.
-/

namespace OpenDataBuffer

open LittleEndian Pieces

/-- What a message asks to store: entries, metadata and the time of ingestion. -/
def AppendMessage.request (msg : AppendMessage) : List Bytes × Bytes × Int64 :=
  (msg.entries, msg.metadata, msg.ingestionTimeMs)

/-- The entries cut at the positions of the ranges, each with its range. -/
def recoverAppends (entries : List Bytes) (metadata : List QueueMetadata) :
    List (List Bytes × Bytes × Int64) :=
  (cutAt entries (metadata.map fun m => m.StartIndex.toNat)).zip
    (metadata.map fun m => (m.Payload, m.IngestionTimeMs))

/-- The ranges carry the positions of the messages' entries. -/
theorem accumulate_starts {msgs : List AppendMessage}
    (h : (msgs.flatMap AppendMessage.entries).length < 2 ^ 32) :
    (accumulate msgs).metadata.map (fun m => m.StartIndex.toNat)
      = startsFrom 0 (msgs.map AppendMessage.entries) := by
  induction msgs using List.reverseRecOn with
  | nil => rfl
  | append_singleton msgs msg ih =>
      have hlen : (msgs.flatMap AppendMessage.entries).length < 2 ^ 32 := by
        rw [List.flatMap_append, List.length_append] at h
        omega
      have hstart : (UInt32.ofNat (accumulate msgs).entries.length).toNat
          = (msgs.map AppendMessage.entries).flatten.length := by
        rw [accumulate_entries, UInt32.toNat_ofNat_of_lt' hlen, List.flatMap_def]
      rw [accumulate_append, List.map_append, List.map_singleton, startsFrom_concat]
      simp only [BatchAccumulator.add, List.map_append, List.map_singleton, ih hlen, hstart,
        Nat.zero_add]

/-- The positions increase: no message comes without entries. -/
theorem accumulate_increasing {msgs : List AppendMessage}
    (h : (msgs.flatMap AppendMessage.entries).length < 2 ^ 32) :
    ((accumulate msgs).metadata.map QueueMetadata.StartIndex).Pairwise (· < ·) := by
  have hstarts : ((accumulate msgs).metadata.map fun m => m.StartIndex.toNat).Pairwise
      (· < ·) := by
    rw [accumulate_starts h]
    apply startsFrom_increasing
    intro block hblock
    obtain ⟨msg, -, rfl⟩ := List.mem_map.mp hblock
    exact msg.nonempty
  rw [List.pairwise_map] at hstarts ⊢
  exact hstarts.imp fun hlt => UInt32.lt_iff_toNat_lt.mpr hlt

/-- The first metadata range starts at the first record. -/
theorem accumulate_first {msgs : List AppendMessage}
    (h : (msgs.flatMap AppendMessage.entries).length < 2 ^ 32) {m : QueueMetadata}
    (hm : (accumulate msgs).metadata.head? = some m) : m.StartIndex = 0 := by
  have hhead := congrArg List.head? (accumulate_starts h)
  rw [List.head?_map, hm] at hhead
  cases msgs with
  | nil => simp [startsFrom] at hhead
  | cons msg rest =>
      have hzero : m.StartIndex.toNat = 0 := by simpa [startsFrom] using hhead
      exact UInt32.toNat_inj.mp hzero

/-- The accumulator's entries and ranges give the messages back. -/
theorem recoverAppends_accumulate {msgs : List AppendMessage}
    (h : (msgs.flatMap AppendMessage.entries).length < 2 ^ 32) :
    recoverAppends (accumulate msgs).entries (accumulate msgs).metadata
      = msgs.map AppendMessage.request := by
  have hcut := cutAt_startsFrom [] (msgs.map AppendMessage.entries)
  rw [recoverAppends, accumulate_ranges, accumulate_starts h, accumulate_entries,
    List.flatMap_def]
  simp only [List.nil_append, List.length_nil] at hcut
  rw [hcut, List.zip_map']
  rfl

/-- The manifest entry of a batch with these messages. -/
def batchEntry (location : Bytes) (msgs : List AppendMessage) : QueueEntry where
  Sequence := 0
  Location := location
  Metadata := (accumulate msgs).metadata

/-- There are at most as many ranges as entries. -/
theorem batchEntry_count {location : Bytes} {msgs : List AppendMessage}
    (hcount : (msgs.flatMap AppendMessage.entries).length < 2 ^ 32) :
    (batchEntry location msgs).Metadata.length < 2 ^ 32 := by
  have hle : msgs.length ≤ (msgs.flatMap AppendMessage.entries).length := by
    clear hcount
    induction msgs with
    | nil => simp
    | cons msg rest ih =>
        have hpos := List.length_pos_of_ne_nil msg.nonempty
        simp only [List.length_cons, List.flatMap_cons, List.length_append]
        omega
  show (accumulate msgs).metadata.length < 2 ^ 32
  rw [accumulate_metadata_length]
  omega

/-- If a manifest can be read behind an append, every entry that was appended fits its
length field. -/
theorem appendAll_read_fits {old new : Bytes} {entries es decoded : List QueueEntry}
    {nextSequence epoch : UInt64} {m : Manifest} (hwf : WellFormed old entries nextSequence epoch)
    (hcount : ∀ e ∈ es, e.Metadata.length < 2 ^ 32)
    (happend : Manifest.appendAll
      { data := old, nextSequence := nextSequence, epoch := epoch } es = .ok m)
    (hbytes : m.toBytes = .ok new) (hread : DecodeManifestEntries new = .ok decoded) :
    ∀ e ∈ es, entryBodyLen e < 2 ^ 32 := by
  obtain ⟨rfl, htotal⟩ := toBytes_frames hwf happend hbytes
  obtain ⟨-, -, -, -, -, hfits⟩ := appendAll_ok happend
  -- What `encodeQueueEntry` checks, for the old and for the new entries.
  have hchecked : ∀ e ∈ entries ++ sequenced nextSequence es, e.Location.length < 2 ^ 16 ∧
      (∀ x ∈ e.Metadata, x.Payload.length < 2 ^ 32) ∧ e.Metadata.length < 2 ^ 32 := by
    intro e he
    rcases List.mem_append.mp he with hold | hnew
    · exact ⟨(hwf.fits e hold).location, (hwf.fits e hold).payload, (hwf.fits e hold).count⟩
    · obtain ⟨e0, he0, q, rfl⟩ := mem_sequenced hnew
      exact ⟨(hfits e0 he0).1, (hfits e0 he0).2, hcount e0 he0⟩
  have hall := decodeManifestEntries_fits htotal (fun e he => (hchecked e he).1)
    (fun e he => (hchecked e he).2.1) (fun e he => (hchecked e he).2.2) hread
  intro e he
  obtain ⟨q, hq⟩ := exists_mem_sequenced he
  have hlt := hall _ (List.mem_append_right entries hq)
  rwa [entryBodyLen_sequence] at hlt

/-- **Each append is recovered from the stored batch.**  The accumulator makes one
range for each message, with increasing positions from 0 on, and cutting its
entries there gives the messages back.  The same is true of what `DecodeBatch`
and `DecodeManifestEntries` return once the batch is encoded and its entry is
appended to a manifest, with any other entries before and behind it, exactly if the
appended entries fit their length fields. -/
theorem append_recovered (msgs : List AppendMessage)
    (hcount : (msgs.flatMap AppendMessage.entries).length < 2 ^ 32) :
    (accumulate msgs).metadata.length = msgs.length ∧
    (∀ m, (accumulate msgs).metadata.head? = some m → m.StartIndex = 0) ∧
    ((accumulate msgs).metadata.map QueueMetadata.StartIndex).Pairwise (· < ·) ∧
    recoverAppends (accumulate msgs).entries (accumulate msgs).metadata
      = msgs.map AppendMessage.request ∧
    ∀ (z : Zstd) (compression : CompressionType) (payload : Bytes), z.Lawful →
      EncodeBatch z (accumulate msgs).entries compression = .ok payload →
      ∀ (old : Bytes) (entries : List QueueEntry) (nextSequence epoch : UInt64),
        WellFormed old entries nextSequence epoch →
        ∀ (location : Bytes) (before after : List QueueEntry) (m : Manifest) (new : Bytes),
          (∀ e ∈ before ++ after, e.Metadata.length < 2 ^ 32) →
          Manifest.appendAll { data := old, nextSequence := nextSequence, epoch := epoch }
            (before ++ batchEntry location msgs :: after) = .ok m →
          m.toBytes = .ok new →
          ((∃ stored decoded e, DecodeBatch z payload = .ok stored ∧
            DecodeManifestEntries new = .ok decoded ∧
            decoded[entries.length + before.length]? = some e ∧ e.Location = location ∧
            recoverAppends stored e.Metadata = msgs.map AppendMessage.request) ↔
          ∀ e ∈ before ++ batchEntry location msgs :: after, entryBodyLen e < 2 ^ 32) := by
  refine ⟨accumulate_metadata_length msgs, fun m => accumulate_first hcount,
    accumulate_increasing hcount, recoverAppends_accumulate hcount, ?_⟩
  intro z compression payload hz hencode old entries nextSequence epoch hwf location before after
    m new hothers happend hbytes
  constructor
  · rintro ⟨stored, decoded, e, -, hread, -⟩
    refine appendAll_read_fits hwf (fun x hx => ?_) happend hbytes hread
    rcases List.mem_append.mp hx with hx | hx
    · exact hothers x (List.mem_append_left _ hx)
    · rcases List.mem_cons.mp hx with rfl | hx
      · exact batchEntry_count hcount
      · exact hothers x (List.mem_append_right _ hx)
  · intro hbody
    have hstored : DecodeBatch z payload = .ok (accumulate msgs).entries :=
      decodeBatch_encodeBatch hz (by rw [accumulate_entries]; exact hcount) hencode
    have hnew := toBytes_appendAll hwf hbody happend hbytes
    refine ⟨_, _, { batchEntry location msgs with
      Sequence := nextSequence + UInt64.ofNat before.length }, hstored, hnew.decode, ?_, rfl,
      recoverAppends_accumulate hcount⟩
    rw [List.getElem?_append_right (Nat.le_add_right _ _), Nat.add_sub_cancel_left,
      sequenced_eq_mapIdx]
    simp

/-- A message with two entries and some metadata. -/
def sampleAppend : AppendMessage where
  entries := [[7], []]
  metadata := [1]
  ingestionTimeMs := 5
  watcher := 0
  byteCost := 2
  nonempty := by decide
  byteCost_eq := by decide

/-- Two appends of two records each, read back from their batch. -/
theorem append_recovered_sample :
    ∃ m new stored decoded e,
      emptyManifest.appendAll [batchEntry [97] [sampleAppend, sampleAppend]] = .ok m ∧
      m.toBytes = .ok new ∧
      DecodeBatch sampleZstd (recordBlock [[7], [], [7], []] ++ batchFooter CompressionNone 4)
        = .ok stored ∧
      DecodeManifestEntries new = .ok decoded ∧ decoded[0]? = some e ∧
      recoverAppends stored e.Metadata = [([[7], []], [1], 5), ([[7], []], [1], 5)] := by
  have hfit : ∀ e ∈ [batchEntry [97] [sampleAppend, sampleAppend]], EntryFits e := by
    intro e he
    obtain rfl := List.mem_singleton.mp he
    exact entryFits_of_body (by decide) (by decide)
  obtain ⟨m, new, happend, hbytes, -⟩ := emptyManifest_wellFormed.round hfit (by decide)
  obtain ⟨-, -, -, -, hcodecs⟩ := append_recovered [sampleAppend, sampleAppend] (by decide)
  obtain ⟨stored, decoded, e, hstored, hdecoded, he, -, hrecover⟩ :=
    (hcodecs sampleZstd CompressionNone _ sampleZstd_lawful rfl _ _ _ _ emptyManifest_wellFormed
      [97] [] [] m new (by simp) happend hbytes).mpr fun e he => (hfit e he).body
  exact ⟨m, new, stored, decoded, e, happend, hbytes, hstored, hdecoded, he, hrecover⟩

theorem wideMessage_nonempty : ([[7]] : List Bytes) ≠ [] := by decide

/-- A message with one entry and so many bytes of metadata. -/
def wideMessage (bytes : Nat) : AppendMessage where
  entries := [[7]]
  metadata := List.replicate bytes 0
  ingestionTimeMs := 0
  watcher := 0
  byteCost := appendByteCost [[7]] (List.replicate bytes 0)
  nonempty := wideMessage_nonempty
  byteCost_eq := rfl

/-- The entry of the batch with the wide message. -/
theorem batchEntry_wide (location : Bytes) :
    batchEntry location [wideMessage (2 ^ 32 - 30 - location.length)] = wideEntry location := rfl

/-- The manifest the entry is appended to, as it is stored. -/
theorem appendAll_wide {location : Bytes} (h : location.length < 2 ^ 16) :
    ∃ m, emptyManifest.appendAll [wideEntry location] = .ok m ∧
      m.toBytes = .ok (entryFrame (wideEntry location) ++ manifestFooter 1 1 0) := by
  have hencode : encodeQueueEntry { wideEntry location with Sequence := emptyManifest.nextSequence }
      = .ok (entryFrame (wideEntry location)) := encodeQueueEntry_wide h
  have hlen : (entryFrame (wideEntry location)).length ≠ 0 := by
    rw [entryFrame_length, wideEntry_bodyLen h]
    omega
  refine ⟨{ emptyManifest with
      appended := entryFrame (wideEntry location), nextSequence := 1, appendedCount := 1 }, ?_, ?_⟩
  · rw [Manifest.appendAll, List.foldlM_cons, Manifest.append, hencode]
    rfl
  · rw [Manifest.toBytes, if_neg hlen]
    rfl

/-- Without the condition: an append whose manifest entry has a body of `2 ^ 32`
bytes is encoded, stored and appended to the manifest without an error, and then
nobody can read the manifest. -/
theorem append_lost :
    ∃ payload m new err,
      EncodeBatch sampleZstd (accumulate [wideMessage (2 ^ 32 - 31)]).entries CompressionNone
        = .ok payload ∧
      emptyManifest.appendAll [batchEntry [97] [wideMessage (2 ^ 32 - 31)]] = .ok m ∧
      m.toBytes = .ok new ∧ DecodeManifestEntries new = .error err := by
  have hloc : ([97] : Bytes).length < 2 ^ 16 := by decide
  have hbytes : 2 ^ 32 - 31 = 2 ^ 32 - 30 - ([97] : Bytes).length := by decide
  have hentries : ∀ bytes, (accumulate [wideMessage bytes]).entries = [[7]] := fun _ => rfl
  obtain ⟨m, happend, hstore⟩ := appendAll_wide hloc
  have happend' :
      emptyManifest.appendAll [batchEntry [97] [wideMessage (2 ^ 32 - 31)]] = .ok m := by
    rw [hbytes, batchEntry_wide]
    exact happend
  have hencode : EncodeBatch sampleZstd (accumulate [wideMessage (2 ^ 32 - 31)]).entries
      CompressionNone = .ok (recordBlock [[7]] ++ batchFooter CompressionNone 1) := by
    rw [hentries]
    rfl
  rcases decodeManifestEntries_safe (entryFrame (wideEntry [97]) ++ manifestFooter 1 1 0) with
    ⟨err, herr⟩ | ⟨decoded, -, hread, -⟩
  · exact ⟨_, m, _, _, hencode, happend', hstore, herr⟩
  · -- A reader that accepts it would have read the length of a body that fits.
    have hfits := appendAll_read_fits emptyManifest_wellFormed
      (fun e he => by obtain rfl := List.mem_singleton.mp he; decide) happend hstore hread
    have hbody := wideEntry_bodyLen hloc
    have hlt := hfits (wideEntry [97]) (List.mem_singleton_self _)
    omega

end OpenDataBuffer
