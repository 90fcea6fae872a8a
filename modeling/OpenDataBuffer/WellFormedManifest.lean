import Mathlib.Algebra.Order.BigOperators.Group.List
import OpenDataBuffer.ManifestCodec

/-!
# What manifest bytes mean, and what an append does to them

`WellFormed data entries nextSequence epoch` says that `data` is the frames of
`entries` followed by the footer with their count and the two counters.  The
decoder returns exactly `entries`, the footer reader exactly the counters.

An append does not parse.  Still it keeps the meaning: `toBytes` after
appending `es` is well-formed for the old entries followed by `es`, numbered
from the old next sequence on, with the old epoch.
-/

namespace OpenDataBuffer

open LittleEndian

/-- The bytes hold exactly these entries and these two counters. -/
structure WellFormed (data : Bytes) (entries : List QueueEntry)
    (nextSequence epoch : UInt64) : Prop where
  bytes : data = entries.flatMap entryFrame ++ manifestFooter entries.length nextSequence epoch
  count : entries.length < 2 ^ 32
  fits : ∀ e ∈ entries, EntryFits e

/-- The sequences are consecutive and the last one is `nextSequence - 1`. -/
def Consecutive (entries : List QueueEntry) (nextSequence : UInt64) : Prop :=
  ∀ i (h : i < entries.length),
    entries[i].Sequence + UInt64.ofNat (entries.length - i) = nextSequence

theorem manifestFooter_length (count : Nat) (nextSequence epoch : UInt64) :
    (manifestFooter count nextSequence epoch).length = mFooterSize := by
  simp [manifestFooter, mFooterSize]
  omega

/-- The empty manifest is well formed. -/
theorem emptyManifest_wellFormed : WellFormed emptyManifest.data [] 0 0 :=
  ⟨rfl, by decide, by simp⟩

theorem consecutive_nil (nextSequence : UInt64) : Consecutive [] nextSequence := by
  intro i h
  simp at h

/-- Dropping a prefix keeps the numbering. -/
theorem Consecutive.drop {entries : List QueueEntry} {nextSequence : UInt64}
    (h : Consecutive entries nextSequence) (k : Nat) :
    Consecutive (entries.drop k) nextSequence := by
  intro i hi
  simp only [List.length_drop] at hi
  have hold := h (k + i) (by omega)
  have hcount : entries.length - (k + i) = entries.length - k - i := by omega
  simpa [List.getElem_drop, hcount] using hold

/-- Behind a body stands a footer: the reader takes the count from it and reads the
entries of the body. -/
theorem decodeManifestEntries_footer (body : Bytes) {count : Nat} (nextSequence epoch : UInt64)
    (hcount : count < 2 ^ 32) :
    DecodeManifestEntries (body ++ manifestFooter count nextSequence epoch)
      = decodeEntries (body ++ manifestFooter count nextSequence epoch) body.length count 0 := by
  have hfit : count < 256 ^ 4 := hcount
  have hlen : (body ++ manifestFooter count nextSequence epoch).length
      = body.length + mFooterSize := by
    rw [List.length_append, manifestFooter_length]
  have hfield : goSlice (body ++ manifestFooter count nextSequence epoch) body.length
      (body.length + mEntriesCountSize) = .ok (putLE 4 count) :=
    goSlice_at body _ _ rfl rfl (by simp [mEntriesCountSize])
  rw [DecodeManifestEntries, if_neg (by omega), hlen, Nat.add_sub_cancel]
  simp only [bind, Except.bind, hfield, getLE_putLE hfit]

namespace WellFormed

variable {data : Bytes} {entries : List QueueEntry} {nextSequence epoch : UInt64}

/-- The length of a manifest, by frames and footer. -/
theorem length_eq (h : WellFormed data entries nextSequence epoch) :
    data.length = (entries.flatMap entryFrame).length + mFooterSize := by
  rw [h.bytes, List.length_append, manifestFooter_length]

/-- Well-formed bytes decode to their entries. -/
theorem decode (h : WellFormed data entries nextSequence epoch) :
    DecodeManifestEntries data = .ok entries := by
  have hentries := decodeEntries_frames entries []
    (manifestFooter entries.length nextSequence epoch) (entries.flatMap entryFrame).length
    h.fits (by simp)
  rw [h.bytes, decodeManifestEntries_footer _ _ _ h.count]
  exact hentries

/-- The footer reader returns the two counters. -/
theorem fromBytes (h : WellFormed data entries nextSequence epoch) :
    manifestFromBytes data
      = .ok { data := data, nextSequence := nextSequence, epoch := epoch } := by
  have hlen := h.length_eq
  have hfooter : mFooterSize = 22 := rfl
  have hbytes : data = entries.flatMap entryFrame ++ (putLE 4 entries.length ++
      (putLE 8 nextSequence.toNat ++ (putLE 8 epoch.toNat ++ putLE 2 1))) := h.bytes
  have hversion : part data (data.length - mVersionSize) data.length = putLE 2 1 :=
    part_at (entries.flatMap entryFrame ++ (putLE 4 entries.length ++
      (putLE 8 nextSequence.toNat ++ putLE 8 epoch.toNat))) _ []
      (by simpa using hbytes)
      (by simp only [List.length_append, putLE_length, mVersionSize]; omega)
      (by simp only [List.length_append, putLE_length]; omega)
  have hepoch : part data (data.length - mVersionSize - mEpochSize)
      (data.length - mVersionSize - mEpochSize + mEpochSize) = putLE 8 epoch.toNat :=
    part_at (entries.flatMap entryFrame ++ (putLE 4 entries.length ++
      putLE 8 nextSequence.toNat)) _ _ (by simpa using hbytes)
      (by simp only [List.length_append, putLE_length, mVersionSize, mEpochSize]; omega)
      (by simp only [List.length_append, putLE_length, mVersionSize, mEpochSize]; omega)
  have hseq : part data (data.length - mVersionSize - mEpochSize - mSequenceSize)
      (data.length - mVersionSize - mEpochSize - mSequenceSize + mSequenceSize)
      = putLE 8 nextSequence.toNat :=
    part_at (entries.flatMap entryFrame ++ putLE 4 entries.length) _ _
      (by simpa using hbytes)
      (by simp only [List.length_append, putLE_length, mVersionSize, mEpochSize,
            mSequenceSize]; omega)
      (by simp only [List.length_append, putLE_length, mVersionSize, mEpochSize,
            mSequenceSize]; omega)
  have hone : getLE (putLE 2 1) = manifestVersion := getLE_putLE (by decide)
  rw [manifestFromBytes, if_neg (by omega), if_neg (by omega)]
  simp only [hversion, hepoch, hseq, hone, ne_eq, not_true_eq_false, if_false, uint64_field]

/-- The footer counts the entries. -/
theorem existingEntriesCount (h : WellFormed data entries nextSequence epoch) {m : Manifest}
    (hm : m.data = data) : m.existingEntriesCount = entries.length := by
  have hc : entries.length < 256 ^ 4 := h.count
  have hlen := h.length_eq
  have hfooter : mFooterSize = 22 := rfl
  have hfield : part data (data.length - mFooterSize)
      (data.length - mFooterSize + mEntriesCountSize) = putLE 4 entries.length :=
    part_at (entries.flatMap entryFrame) _ _ (by rw [h.bytes]; rfl) (by omega)
      (by simp only [putLE_length, mEntriesCountSize]; omega)
  rw [Manifest.existingEntriesCount, hm, if_neg (by omega)]
  simp only [hfield, getLE_putLE hc]

end WellFormed

/-- One step of the counter, then `n` more. -/
theorem uint64_ofNat_succ_add (next : UInt64) (n : Nat) :
    next + 1 + UInt64.ofNat n = next + UInt64.ofNat (n + 1) := by
  rw [UInt64.ofNat_add, UInt64.add_assoc, UInt64.add_comm 1 (UInt64.ofNat n)]
  rfl

/-- Number a list of entries from `next` on. -/
def sequenced (next : UInt64) : List QueueEntry → List QueueEntry
  | [] => []
  | e :: rest => { e with Sequence := next } :: sequenced (next + 1) rest

@[simp] theorem sequenced_length (next : UInt64) (es : List QueueEntry) :
    (sequenced next es).length = es.length := by
  induction es generalizing next with
  | nil => rfl
  | cons e rest ih => simp [sequenced, ih]

/-- A numbered entry is one of the entries with a number. -/
theorem mem_sequenced {next : UInt64} {es : List QueueEntry} {e : QueueEntry}
    (h : e ∈ sequenced next es) : ∃ e0 ∈ es, ∃ q, e = { e0 with Sequence := q } := by
  induction es generalizing next with
  | nil => simp [sequenced] at h
  | cons e0 rest ih =>
      rcases List.mem_cons.mp h with rfl | h
      · exact ⟨e0, List.mem_cons_self, next, rfl⟩
      · obtain ⟨e1, he1, q, rfl⟩ := ih h
        exact ⟨e1, List.mem_cons_of_mem _ he1, q, rfl⟩

/-- Every entry is among the numbered ones, under its number. -/
theorem exists_mem_sequenced {next : UInt64} {es : List QueueEntry} {e : QueueEntry}
    (h : e ∈ es) : ∃ q, { e with Sequence := q } ∈ sequenced next es := by
  induction es generalizing next with
  | nil => cases h
  | cons e0 rest ih =>
      rcases List.mem_cons.mp h with rfl | h
      · exact ⟨next, List.mem_cons_self⟩
      · obtain ⟨q, hq⟩ := @ih (next + 1) h
        exact ⟨q, List.mem_cons_of_mem _ hq⟩

/-- Numbering from the next sequence on continues a consecutive list. -/
theorem Consecutive.append {entries : List QueueEntry} {nextSequence : UInt64}
    (h : Consecutive entries nextSequence) (es : List QueueEntry) :
    Consecutive (entries ++ sequenced nextSequence es)
      (nextSequence + UInt64.ofNat es.length) := by
  induction es generalizing entries nextSequence with
  | nil => simpa [sequenced] using h
  | cons e rest ih =>
      have hone : Consecutive (entries ++ [{ e with Sequence := nextSequence }])
          (nextSequence + 1) := by
        intro i hi
        simp only [List.length_append, List.length_singleton] at hi ⊢
        by_cases hlt : i < entries.length
        · have hold := h i hlt
          have hcount : entries.length + 1 - i = (entries.length - i) + 1 := by omega
          rw [List.getElem_append_left hlt, hcount, UInt64.ofNat_add, ← hold, UInt64.add_assoc]
          rfl
        · have hi' : i = entries.length := by omega
          subst hi'
          simp
      have hnext := ih hone
      rw [uint64_ofNat_succ_add] at hnext
      simpa [sequenced] using hnext

/-- Append a list of entries one after the other. -/
def Manifest.appendAll (m : Manifest) (es : List QueueEntry) : Except BufferError Manifest :=
  es.foldlM Manifest.append m

/-- An entry that was encoded has a location and payloads that fit, and its
encoding is its frame. -/
theorem encodeQueueEntry_ok {entry : QueueEntry} {encoded : Bytes}
    (h : encodeQueueEntry entry = .ok encoded) :
    encoded = entryFrame entry ∧ entry.Location.length < 2 ^ 16 ∧
      ∀ m ∈ entry.Metadata, m.Payload.length < 2 ^ 32 := by
  unfold encodeQueueEntry at h
  by_cases hloc : maxUint16 < entry.Location.length
  · simp [hloc] at h
  · rw [if_neg hloc] at h
    cases hfind : entry.Metadata.find? (fun m => maxUint32 < m.Payload.length) with
    | some m => simp [hfind] at h
    | none =>
        simp only [hfind, Except.ok.injEq] at h
        refine ⟨h.symm, ?_, ?_⟩
        · exact Nat.lt_of_le_of_lt (Nat.le_of_not_lt hloc) (by decide)
        · intro m hm
          have hle : m.Payload.length ≤ maxUint32 := by
            simpa using List.find?_eq_none.mp hfind m hm
          exact Nat.lt_of_le_of_lt hle (by decide)

@[simp] theorem entryBodyLen_sequence (entry : QueueEntry) (q : UInt64) :
    entryBodyLen { entry with Sequence := q } = entryBodyLen entry := rfl

/-- What a successful `append` of a list leaves behind. -/
theorem appendAll_ok {m m' : Manifest} {es : List QueueEntry} (h : m.appendAll es = .ok m') :
    m'.data = m.data ∧ m'.epoch = m.epoch ∧
      m'.appended = m.appended ++ (sequenced m.nextSequence es).flatMap entryFrame ∧
      m'.appendedCount = m.appendedCount + es.length ∧
      m'.nextSequence = m.nextSequence + UInt64.ofNat es.length ∧
      ∀ e ∈ es, e.Location.length < 2 ^ 16 ∧ ∀ x ∈ e.Metadata, x.Payload.length < 2 ^ 32 := by
  induction es generalizing m with
  | nil =>
      cases h
      simp [sequenced]
  | cons e rest ih =>
      simp only [Manifest.appendAll, List.foldlM_cons, bind, Except.bind] at h
      cases hone : m.append e with
      | error err => simp [hone] at h
      | ok m1 =>
          simp only [hone] at h
          simp only [Manifest.append, bind, Except.bind] at hone
          cases henc : encodeQueueEntry { e with Sequence := m.nextSequence } with
          | error err => simp [henc] at hone
          | ok encoded =>
              simp only [henc, pure, Except.pure, Except.ok.injEq] at hone
              subst hone
              obtain ⟨rfl, hloc, hpay⟩ := encodeQueueEntry_ok henc
              obtain ⟨hdata, hepoch, happ, hcount, hnext, hfits⟩ := ih h
              refine ⟨hdata, hepoch, ?_, ?_, ?_, ?_⟩
              · simpa [sequenced] using happ
              · simp only [hcount, List.length_cons]
                omega
              · rw [hnext, List.length_cons, uint64_ofNat_succ_add]
              · intro x hx
                rcases List.mem_cons.mp hx with rfl | hx
                · exact ⟨hloc, hpay⟩
                · exact hfits x hx

/-- What `toBytes` writes after a list was appended: the old frames, the new ones and a
footer for all of them, whether the new entries fit their length fields or not. -/
theorem toBytes_frames {data data' : Bytes} {entries es : List QueueEntry}
    {nextSequence epoch : UInt64} {m : Manifest}
    (hwf : WellFormed data entries nextSequence epoch)
    (happend : Manifest.appendAll
      { data := data, nextSequence := nextSequence, epoch := epoch } es = .ok m)
    (hbytes : m.toBytes = .ok data') :
    data' = (entries ++ sequenced nextSequence es).flatMap entryFrame ++
      manifestFooter (entries ++ sequenced nextSequence es).length
        (nextSequence + UInt64.ofNat es.length) epoch ∧
    (entries ++ sequenced nextSequence es).length < 2 ^ 32 := by
  obtain ⟨hdata, hepoch, happ, hcount, hnext, -⟩ := appendAll_ok happend
  simp only [List.nil_append, Nat.zero_add] at happ hcount
  unfold Manifest.toBytes at hbytes
  by_cases hempty : m.appended.length = 0
  · -- no frame is empty, so nothing was appended
    have hes : es = [] := by
      cases es with
      | nil => rfl
      | cons e rest =>
          rw [happ] at hempty
          simp only [sequenced, List.flatMap_cons, List.length_append, entryFrame_length] at hempty
          omega
    subst hes
    rw [if_pos hempty, hdata] at hbytes
    cases hbytes
    exact ⟨by simpa [sequenced] using hwf.bytes, by simpa [sequenced] using hwf.count⟩
  · have hlen := hwf.length_eq
    have hfooter : mFooterSize = 22 := rfl
    have hold := hwf.existingEntriesCount hdata
    have hpos : 0 < data.length := by omega
    have hpre : data.take (data.length - mFooterSize) = entries.flatMap entryFrame := by
      have hcut : data.length - mFooterSize = (entries.flatMap entryFrame).length := by omega
      rw [hcut, hwf.bytes]
      simp
    simp only [if_neg hempty, hold, hcount, hdata, hpos, if_true, hpre] at hbytes
    by_cases hmax : maxUint32 < entries.length + es.length
    · simp [hmax] at hbytes
    · rw [if_neg hmax] at hbytes
      cases hbytes
      refine ⟨?_, ?_⟩
      · simp [happ, hnext, hepoch]
      · simp only [List.length_append, sequenced_length]
        exact Nat.lt_of_le_of_lt (Nat.le_of_not_lt hmax) (by decide)

/-- **Appending keeps manifests well-formed.**  Old entries and epoch stay,
new entries follow them numbered from the old next sequence on. -/
theorem toBytes_appendAll {data data' : Bytes} {entries es : List QueueEntry}
    {nextSequence epoch : UInt64} {m : Manifest}
    (hwf : WellFormed data entries nextSequence epoch)
    (hbody : ∀ e ∈ es, entryBodyLen e < 2 ^ 32)
    (happend : Manifest.appendAll
      { data := data, nextSequence := nextSequence, epoch := epoch } es = .ok m)
    (hbytes : m.toBytes = .ok data') :
    WellFormed data' (entries ++ sequenced nextSequence es)
      (nextSequence + UInt64.ofNat es.length) epoch := by
  obtain ⟨hframes, hcount⟩ := toBytes_frames hwf happend hbytes
  obtain ⟨-, -, -, -, -, hfits⟩ := appendAll_ok happend
  refine ⟨hframes, hcount, fun e he => ?_⟩
  rcases List.mem_append.mp he with hold | hnew
  · exact hwf.fits e hold
  · obtain ⟨e0, he0, q, rfl⟩ := mem_sequenced hnew
    exact ⟨(hfits e0 he0).1, (hfits e0 he0).2, by simpa using hbody e0 he0⟩

/-! ## Appending in one round or in several -/

/-- The empty manifest is read as it is. -/
theorem emptyManifest_fromBytes : manifestFromBytes emptyManifest.data = .ok emptyManifest :=
  emptyManifest_wellFormed.fromBytes

/-- A body that fits holds payloads that fit. -/
theorem entryFits_of_body {entry : QueueEntry} (hloc : entry.Location.length ≤ 65535)
    (hbody : entryBodyLen entry < 2 ^ 32) : EntryFits entry := by
  refine ⟨by omega, ?_, hbody⟩
  intro m hm
  have hle : mStartIndexSize + mIngestionTimeMsSize + mMetadataLenSize + m.Payload.length ≤
      (entry.Metadata.map fun m =>
        mStartIndexSize + mIngestionTimeMsSize + mMetadataLenSize + m.Payload.length).sum :=
    List.le_sum_of_mem (List.mem_map_of_mem hm)
  simp only [entryBodyLen] at hbody
  omega

/-- `encodeQueueEntry` checks the location and the payloads, nothing else. -/
theorem encodeQueueEntry_checked {entry : QueueEntry} (hloc : entry.Location.length < 2 ^ 16)
    (hpay : ∀ m ∈ entry.Metadata, m.Payload.length < 2 ^ 32) :
    encodeQueueEntry entry = .ok (entryFrame entry) := by
  have hshort : ¬ maxUint16 < entry.Location.length := Nat.not_lt.mpr (Nat.le_pred_of_lt hloc)
  have hfind : entry.Metadata.find? (fun m => maxUint32 < m.Payload.length) = none := by
    apply List.find?_eq_none.mpr
    intro m hm
    have hle : m.Payload.length ≤ maxUint32 := Nat.le_pred_of_lt (hpay m hm)
    simpa using hle
  rw [encodeQueueEntry, if_neg hshort, hfind]

/-- Entries that fit can be appended. -/
theorem appendAll_fits (m : Manifest) {es : List QueueEntry} (hfit : ∀ e ∈ es, EntryFits e) :
    ∃ m', m.appendAll es = .ok m' := by
  induction es generalizing m with
  | nil => exact ⟨m, rfl⟩
  | cons e rest ih =>
      have he := hfit e List.mem_cons_self
      have hencode : encodeQueueEntry { e with Sequence := m.nextSequence }
          = .ok (entryFrame { e with Sequence := m.nextSequence }) :=
        encodeQueueEntry_checked he.location he.payload
      obtain ⟨m', hrest⟩ := ih
        { m with
          appended := m.appended ++ entryFrame { e with Sequence := m.nextSequence }
          nextSequence := m.nextSequence + 1
          appendedCount := m.appendedCount + 1 }
        (fun x hx => hfit x (List.mem_cons_of_mem _ hx))
      refine ⟨m', ?_⟩
      rw [Manifest.appendAll, List.foldlM_cons, Manifest.append, hencode]
      exact hrest

/-- Bytes can be made of a manifest whose count fits. -/
theorem toBytes_fits {data : Bytes} {entries es : List QueueEntry} {nextSequence epoch : UInt64}
    {m : Manifest} (hwf : WellFormed data entries nextSequence epoch)
    (happend : Manifest.appendAll
      { data := data, nextSequence := nextSequence, epoch := epoch } es = .ok m)
    (hcount : entries.length + es.length < 2 ^ 32) : ∃ data', m.toBytes = .ok data' := by
  obtain ⟨hdata, -, -, happended, -, -⟩ := appendAll_ok happend
  simp only [Nat.zero_add] at happended
  have hmax : ¬ maxUint32 < entries.length + es.length :=
    Nat.not_lt.mpr (Nat.le_pred_of_lt hcount)
  unfold Manifest.toBytes
  by_cases hempty : m.appended.length = 0
  · exact ⟨_, if_pos hempty⟩
  · rw [if_neg hempty]
    simp only [hwf.existingEntriesCount hdata, happended, if_neg hmax]
    exact ⟨_, rfl⟩

/-- One round on manifest bytes: read the footer, append, write the bytes. -/
def appendRound (data : Bytes) (es : List QueueEntry) : Except BufferError Bytes := do
  let m ← manifestFromBytes data
  let m' ← m.appendAll es
  m'.toBytes

/-- A round with entries that fit succeeds and keeps the bytes well-formed. -/
theorem WellFormed.round {data : Bytes} {entries es : List QueueEntry}
    {nextSequence epoch : UInt64} (hwf : WellFormed data entries nextSequence epoch)
    (hfit : ∀ e ∈ es, EntryFits e) (hcount : entries.length + es.length < 2 ^ 32) :
    ∃ m data', Manifest.appendAll
        { data := data, nextSequence := nextSequence, epoch := epoch } es = .ok m ∧
      m.toBytes = .ok data' ∧ appendRound data es = .ok data' ∧
      WellFormed data' (entries ++ sequenced nextSequence es)
        (nextSequence + UInt64.ofNat es.length) epoch := by
  obtain ⟨m, happend⟩ := appendAll_fits
    { data := data, nextSequence := nextSequence, epoch := epoch } hfit
  obtain ⟨data', hbytes⟩ := toBytes_fits hwf happend hcount
  refine ⟨m, data', happend, hbytes, ?_,
    toBytes_appendAll hwf (fun e he => (hfit e he).body) happend hbytes⟩
  simp only [appendRound, hwf.fromBytes, bind, Except.bind, happend, hbytes]

/-- Numbering goes on behind the numbers already given. -/
theorem sequenced_append (next : UInt64) (xs ys : List QueueEntry) :
    sequenced next (xs ++ ys)
      = sequenced next xs ++ sequenced (next + UInt64.ofNat xs.length) ys := by
  induction xs generalizing next with
  | nil => simp [sequenced]
  | cons x rest ih =>
      simp only [List.cons_append, sequenced, ih, List.length_cons, uint64_ofNat_succ_add]

/-- Entry `i` of a numbered list has number `next + i`. -/
theorem sequenced_eq_mapIdx (next : UInt64) (es : List QueueEntry) :
    sequenced next es = es.mapIdx fun i e => { e with Sequence := next + UInt64.ofNat i } := by
  induction es generalizing next with
  | nil => rfl
  | cons e rest ih =>
      have hzero : next + UInt64.ofNat 0 = next := by simp
      simp only [sequenced, List.mapIdx_cons, ih, uint64_ofNat_succ_add, hzero]

/-- Several rounds do what one round with all their entries does. -/
theorem WellFormed.rounds {data : Bytes} {entries : List QueueEntry}
    {nextSequence epoch : UInt64} (hwf : WellFormed data entries nextSequence epoch)
    (ess : List (List QueueEntry)) (hfit : ∀ e ∈ ess.flatten, EntryFits e)
    (hcount : entries.length + ess.flatten.length < 2 ^ 32) :
    ∃ data', ess.foldlM appendRound data = .ok data' ∧
      WellFormed data' (entries ++ sequenced nextSequence ess.flatten)
        (nextSequence + UInt64.ofNat ess.flatten.length) epoch := by
  induction ess generalizing data entries nextSequence with
  | nil => exact ⟨data, rfl, by simpa [sequenced] using hwf⟩
  | cons es rest ih =>
      simp only [List.flatten_cons, List.length_append, List.mem_append] at hfit hcount
      obtain ⟨m, data1, -, -, hround, hwf1⟩ :=
        hwf.round (fun e he => hfit e (Or.inl he)) (by omega)
      obtain ⟨data2, hrest, hwf2⟩ := ih hwf1 (fun e he => hfit e (Or.inr he))
        (by simp only [List.length_append, sequenced_length]; omega)
      refine ⟨data2, ?_, ?_⟩
      · simp only [List.foldlM_cons, hround, bind, Except.bind]
        exact hrest
      · rw [List.flatten_cons, sequenced_append, List.length_append, UInt64.ofNat_add,
          ← UInt64.add_assoc, ← List.append_assoc]
        exact hwf2

/-- **Appending and decoding agree.**  New entries that fit are appended to any
well-formed manifest, in memory or read back from bytes; the result is
well-formed and decodes to the old entries followed by the new ones, numbered
from the old next sequence on; the footer carries the advanced sequence and the
old epoch; and appending in several rounds gives the same bytes. -/
theorem manifest_append_decode {data : Bytes} {entries : List QueueEntry}
    {nextSequence epoch : UInt64} (hwf : WellFormed data entries nextSequence epoch)
    {m : Manifest} (hm : data = emptyManifest.data ∧ m = emptyManifest ∨
      manifestFromBytes data = .ok m)
    (es : List QueueEntry) (hloc : ∀ e ∈ es, e.Location.length ≤ 65535)
    (hbody : ∀ e ∈ es, entryBodyLen e < 2 ^ 32)
    (hcount : entries.length + es.length < 2 ^ 32) :
    m.nextSequence = nextSequence ∧ m.epoch = epoch ∧
    DecodeManifestEntries data = .ok entries ∧
    ∃ m' data' new, m.appendAll es = .ok m' ∧ m'.toBytes = .ok data' ∧
      (new = es.mapIdx fun i e => { e with Sequence := nextSequence + UInt64.ofNat i }) ∧
      WellFormed data' (entries ++ new) (nextSequence + UInt64.ofNat es.length) epoch ∧
      DecodeManifestEntries data' = .ok (entries ++ new) ∧
      manifestFromBytes data' = .ok
        { data := data', nextSequence := nextSequence + UInt64.ofNat es.length, epoch := epoch } ∧
      ∀ ess : List (List QueueEntry), ess.flatten = es →
        ess.foldlM appendRound data = .ok data' := by
  have hread : manifestFromBytes data = .ok m := by
    rcases hm with ⟨rfl, rfl⟩ | hm
    · exact emptyManifest_fromBytes
    · exact hm
  have hsame := hwf.fromBytes.symm.trans hread
  obtain rfl := Except.ok.inj hsame
  have hfit : ∀ e ∈ es, EntryFits e := fun e he => entryFits_of_body (hloc e he) (hbody e he)
  obtain ⟨m', data', happend, hbytes, -, hwf'⟩ := hwf.round hfit hcount
  refine ⟨rfl, rfl, hwf.decode, m', data', _, happend, hbytes, sequenced_eq_mapIdx _ _, hwf',
    hwf'.decode, hwf'.fromBytes, ?_⟩
  intro ess hess
  subst hess
  obtain ⟨other, hrounds, hother⟩ := hwf.rounds ess hfit hcount
  -- the meaning of the bytes determines them
  rw [hrounds, hother.bytes, ← hwf'.bytes]

/-- Two entries appended to the empty manifest. -/
theorem manifest_append_decode_sample :
    ∃ m data, emptyManifest.appendAll [⟨9, [97], []⟩, ⟨9, [98], [⟨0, 5, [1]⟩]⟩] = .ok m ∧
      m.toBytes = .ok data ∧
      DecodeManifestEntries data = .ok [⟨0, [97], []⟩, ⟨1, [98], [⟨0, 5, [1]⟩]⟩] := by
  obtain ⟨-, -, -, m, data, new, happend, hbytes, rfl, -, hdecode, -⟩ :=
    manifest_append_decode emptyManifest_wellFormed (Or.inl ⟨rfl, rfl⟩)
      [⟨9, [97], []⟩, ⟨9, [98], [⟨0, 5, [1]⟩]⟩] (by decide) (by decide) (by decide)
  exact ⟨m, data, happend, hbytes, hdecode⟩

end OpenDataBuffer
