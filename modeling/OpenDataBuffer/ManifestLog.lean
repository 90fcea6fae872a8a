import OpenDataBuffer.ManifestEnqueuer

/-!
# The manifest as a log

The abstract content of the manifest object is a log of items, each with the
party that appended it, of which a reader has dropped a prefix.  `Holds` ties
the log to the bytes in the store: the object decodes to the part of the log
that is left, with consecutive sequences up to the footer's counter.

Two kinds of write keep the tie, whatever happened between read and write:
an append planned from a manifest read earlier (`Holds.append`), and the
removal of a prefix planned the same way (`Holds.drop`).  In both cases the
version check makes the stale copy current (`Store.Sound.current_data`).
-/

namespace OpenDataBuffer

open VersionedStore

universe u

variable {ω : Type u}

/-- Every item ever appended with its owner, and how many a reader dropped. -/
structure ManifestLog (ω : Type u) where
  log : List (ω × EnqueueItem)
  dropped : Nat

/-- The bytes are a manifest that holds exactly `items`. -/
def ManifestOf (data : Bytes) (items : List EnqueueItem) : Prop :=
  ∃ entries nextSequence epoch, WellFormed data entries nextSequence epoch ∧
    Consecutive entries nextSequence ∧ entries.map QueueEntry.item = items

/-- The manifest object of the store carries the log. -/
structure Holds (store : ObjectStore) (path : Bytes) (L : ManifestLog ω) : Prop where
  sound : store.Sound
  issued : ∀ obj, (path, obj) ∈ store.issued → ∃ items, ManifestOf obj.data items
  missing : store.objects path = none → L.log = [] ∧ L.dropped = 0
  present : ∀ obj, store.objects path = some obj →
    ManifestOf obj.data ((L.log.drop L.dropped).map Prod.snd)
  within : L.dropped ≤ L.log.length

/-- `data` is the append of `items` to the manifest that `version` names. -/
def Planned (store : ObjectStore) (path : Bytes) (items : List EnqueueItem) (data : Bytes)
    (version : Option Version) : Prop :=
  ∃ answer, planAppend items answer = .ok (data, version) ∧
    (answer = .error .notFound ∨ ∃ obj, answer = .ok obj ∧ (path, obj) ∈ store.issued)

/-- What `append` makes of a readable manifest. -/
theorem ManifestOf.planned {old : GetResult} {items new : List EnqueueItem} {data : Bytes}
    {version : Option Version} (hold : ManifestOf old.data items)
    (hfit : ∀ item ∈ new, ItemFits item)
    (hplan : planAppend new (.ok old) = .ok (data, version)) :
    version = some old.version ∧ ManifestOf data (items ++ new) := by
  obtain ⟨entries, next, epoch, hwf, hseq, hitems⟩ := hold
  obtain ⟨m, m', hread, happ, hbytes⟩ := planAppend_ok hplan
  simp only [readManifest, bind, Except.bind, hwf.fromBytes, pure, Except.pure,
    Except.ok.injEq, Prod.mk.injEq] at hread
  obtain ⟨rfl, rfl⟩ := hread
  have hbody : ∀ e ∈ new.map EnqueueItem.entry, entryBodyLen e < 2 ^ 32 := by
    intro e he
    obtain ⟨item, hitem, rfl⟩ := List.mem_map.mp he
    exact hfit item hitem
  refine ⟨rfl, _, _, epoch, toBytes_appendAll hwf hbody happ hbytes, hseq.append _, ?_⟩
  rw [List.map_append, hitems, sequenced_items]

/-- What `append` makes of a missing manifest. -/
theorem planned_missing {new : List EnqueueItem} {data : Bytes} {version : Option Version}
    (hfit : ∀ item ∈ new, ItemFits item)
    (hplan : planAppend new (.error .notFound) = .ok (data, version)) :
    version = none ∧ ManifestOf data new := by
  obtain ⟨m, m', hread, happ, hbytes⟩ := planAppend_ok hplan
  simp only [readManifest, Except.ok.injEq, Prod.mk.injEq] at hread
  obtain ⟨rfl, rfl⟩ := hread
  have hbody : ∀ e ∈ new.map EnqueueItem.entry, entryBodyLen e < 2 ^ 32 := by
    intro e he
    obtain ⟨item, hitem, rfl⟩ := List.mem_map.mp he
    exact hfit item hitem
  refine ⟨rfl, _, _, 0,
    toBytes_appendAll emptyManifest_wellFormed hbody happ hbytes, (consecutive_nil 0).append _, ?_⟩
  rw [List.nil_append, sequenced_items]

/-- A plan made from the manifest just read. -/
theorem Holds.planned {store : ObjectStore} {path : Bytes} {L : ManifestLog ω}
    (h : Holds store path L) {items : List EnqueueItem} {data : Bytes}
    {version : Option Version}
    (hplan : planAppend items (storeGet store path) = .ok (data, version)) :
    Planned store path items data version := by
  refine ⟨storeGet store path, hplan, ?_⟩
  unfold storeGet
  cases hobj : store.objects path with
  | none => exact Or.inl rfl
  | some obj => exact Or.inr ⟨obj, rfl, h.sound.current path obj hobj⟩

/-- Plans outlive writes. -/
theorem Planned.write {store : ObjectStore} {path other : Bytes} {items : List EnqueueItem}
    {data : Bytes} {version : Option Version} (h : Planned store path items data version)
    (obj : GetResult) : Planned (store.write other obj) path items data version := by
  obtain ⟨answer, hplan, hanswer⟩ := h
  refine ⟨answer, hplan, ?_⟩
  rcases hanswer with hmiss | ⟨old, hold, hissued⟩
  · exact Or.inl hmiss
  · exact Or.inr ⟨old, hold, Store.mem_issued_write.mpr (Or.inr hissued)⟩

/-- A planned append whose version still matches produces the manifest with
the items at its end. -/
theorem Holds.planned_data {store : ObjectStore} {path : Bytes} {L : ManifestLog ω}
    (h : Holds store path L) {items : List EnqueueItem} {data : Bytes}
    {version : Option Version} (hfit : ∀ item ∈ items, ItemFits item)
    (hplan : Planned store path items data version)
    (hmatch : store.Matches path version) :
    ManifestOf data ((L.log.drop L.dropped).map Prod.snd ++ items) := by
  obtain ⟨answer, hplan, rfl | ⟨old, rfl, hissued⟩⟩ := hplan
  · obtain ⟨rfl, hdata⟩ := planned_missing hfit hplan
    have hnone : store.objects path = none := by simpa [Store.Matches] using hmatch
    simpa [(h.missing hnone).1] using hdata
  · obtain ⟨read, hread⟩ := h.issued old hissued
    obtain ⟨hversion, hdata⟩ := hread.planned hfit hplan
    subst hversion
    obtain ⟨cur, hcur, hver⟩ : ∃ cur, store.objects path = some cur ∧
        cur.version = old.version := by
      simpa [Store.Matches] using hmatch
    -- the version still matches, so the copy that was read is the current one
    have hsame : cur.data = old.data := h.sound.current_data hissued hcur hver
    have hnow := h.present cur hcur
    rw [hsame] at hnow
    exact (hnow.planned hfit hplan).2

theorem ManifestOf.left_inj {data : Bytes} {xs ys : List EnqueueItem}
    (hx : ManifestOf data xs) (hy : ManifestOf data ys) : xs = ys := by
  obtain ⟨ex, _, _, hwx, _, rfl⟩ := hx
  obtain ⟨ey, _, _, hwy, _, rfl⟩ := hy
  have heq : (Except.ok ex : Except GoFault (List QueueEntry)) = .ok ey :=
    hwx.decode.symm.trans hwy.decode
  cases heq
  rfl

/-- Writing a manifest with known items at the manifest path. -/
theorem Holds.write_manifest {store : ObjectStore} {path : Bytes} {L L' : ManifestLog ω}
    (h : Holds store path L) {obj : GetResult} (hnames : store.Names path obj)
    (hdata : ManifestOf obj.data ((L'.log.drop L'.dropped).map Prod.snd))
    (hwithin : L'.dropped ≤ L'.log.length) :
    Holds (store.write path obj) path L' where
  sound := h.sound.write hnames
  issued := by
    intro other hother
    rcases Store.mem_issued_write.mp hother with ⟨_, rfl⟩ | hother
    · exact ⟨_, hdata⟩
    · exact h.issued other hother
  missing := by
    intro hnone
    simp at hnone
  present := by
    intro cur hcur
    have heq : cur = obj := by simpa using hcur.symm
    rw [heq]
    exact hdata
  within := hwithin

/-- **An append that meets its precondition extends the log.** -/
theorem Holds.append {store : ObjectStore} {path : Bytes} {L : ManifestLog ω}
    (h : Holds store path L) {items : List EnqueueItem} {obj : GetResult}
    {version : Option Version} (owned : List (ω × EnqueueItem))
    (howned : owned.map Prod.snd = items)
    (hfit : ∀ item ∈ items, ItemFits item)
    (hplan : Planned store path items obj.data version)
    (hmatch : store.Matches path version) (hnames : store.Names path obj) :
    Holds (store.write path obj) path { L with log := L.log ++ owned } := by
  refine h.write_manifest hnames ?_ ?_
  · have hdata := h.planned_data hfit hplan hmatch
    rw [List.drop_append_of_le_length h.within, List.map_append, howned]
    exact hdata
  · simp only [List.length_append]
    have := h.within
    omega

/-- Dropping `k` more entries of the log. -/
theorem Holds.drop {store : ObjectStore} {path : Bytes} {L : ManifestLog ω}
    (h : Holds store path L) {read obj : GetResult} {items : List EnqueueItem} {k : Nat}
    (hissued : (path, read) ∈ store.issued) (hread : ManifestOf read.data items)
    (hk : k ≤ items.length) (hdata : ManifestOf obj.data (items.drop k))
    (hmatch : store.Matches path (some read.version)) (hnames : store.Names path obj) :
    Holds (store.write path obj) path { L with dropped := L.dropped + k } := by
  obtain ⟨cur, hcur, hver⟩ : ∃ cur, store.objects path = some cur ∧
      cur.version = read.version := by
    simpa [Store.Matches] using hmatch
  have hsame : cur.data = read.data := h.sound.current_data hissued hcur hver
  have hnow := h.present cur hcur
  rw [hsame] at hnow
  have hitems : items = (L.log.drop L.dropped).map Prod.snd := hread.left_inj hnow
  refine h.write_manifest hnames ?_ ?_
  · simpa [hitems, List.map_drop, List.drop_drop] using hdata
  · have hlen := congrArg List.length hitems
    simp only [List.length_map, List.length_drop] at hlen
    have := h.within
    show L.dropped + k ≤ L.log.length
    omega

/-- Writes to other paths leave the manifest alone. -/
theorem Holds.write_other {store : ObjectStore} {path other : Bytes} {L : ManifestLog ω}
    (h : Holds store path L) {obj : GetResult} (hne : path ≠ other)
    (hnames : store.Names other obj) : Holds (store.write other obj) path L where
  sound := h.sound.write hnames
  issued := by
    intro old hold
    rcases Store.mem_issued_write.mp hold with ⟨heq, _⟩ | hold
    · exact absurd heq hne
    · exact h.issued old hold
  missing := by
    intro hnone
    rw [Store.write_of_ne _ _ hne] at hnone
    exact h.missing hnone
  present := by
    intro cur hcur
    rw [Store.write_of_ne _ _ hne] at hcur
    exact h.present cur hcur
  within := h.within

/-- The manifest object decodes to what is left of the log. -/
theorem Holds.decodes {store : ObjectStore} {path : Bytes} {L : ManifestLog ω}
    (h : Holds store path L) {obj : GetResult} (hobj : store.objects path = some obj) :
    ∃ entries, DecodeManifestEntries obj.data = .ok entries ∧
      entries.map QueueEntry.item = (L.log.drop L.dropped).map Prod.snd := by
  obtain ⟨entries, next, epoch, hwf, -, hitems⟩ := h.present obj hobj
  exact ⟨entries, hwf.decode, hitems⟩

/-! ## Where a log starts -/

/-- A store whose manifest is missing or holds `items`. -/
structure StartsFrom (store : ObjectStore) (path : Bytes) (items : List EnqueueItem) : Prop where
  sound : store.Sound
  issued : ∀ obj, (path, obj) ∈ store.issued → store.objects path = some obj
  missing : store.objects path = none → items = []
  present : ∀ obj, store.objects path = some obj → ManifestOf obj.data items

/-- At the start the log is the items of nobody. -/
theorem StartsFrom.holds {store : ObjectStore} {path : Bytes} {items : List EnqueueItem}
    (h : StartsFrom store path items) :
    Holds store path ⟨items.map (Prod.mk (none : Option Nat)), 0⟩ where
  sound := h.sound
  issued := fun obj hobj => ⟨items, h.present obj (h.issued obj hobj)⟩
  missing := by
    intro hnone
    simp [h.missing hnone]
  present := by
    intro obj hobj
    have hitems : items.map (Prod.snd ∘ Prod.mk (none : Option Nat)) = items := by
      simp [Function.comp_def]
    simpa [hitems] using h.present obj hobj
  within := Nat.zero_le _

/-- A store with nothing in it. -/
def emptyStore : ObjectStore where
  objects := fun _ => none
  issued := []

theorem emptyStore_startsFrom (path : Bytes) : StartsFrom emptyStore path [] where
  sound := ⟨fun _ _ h => by simp [emptyStore] at h, fun _ _ _ h => by simp [emptyStore] at h⟩
  issued := fun _ h => by simp [emptyStore] at h
  missing := fun _ => rfl
  present := fun _ h => by simp [emptyStore] at h

/-- An entry at location "a" without metadata. -/
def sampleItem : EnqueueItem := ⟨[97], []⟩

/-- The first manifest that holds `sampleItem`, under version "1". -/
def sampleManifest : GetResult where
  data := entryFrame sampleItem.entry ++ manifestFooter 1 1 0
  version := ⟨"1"⟩

end OpenDataBuffer
