import Mathlib.Logic.Function.Basic

/-!
# Versioned objects and conditional writes

A store holds at most one object at each path; an object is some data and a
version.  A conditional write names the version it expects, `none` meaning
that no object is there yet, and takes effect only if that is what it finds.

Nothing is assumed about where versions come from except that a version never
names two contents of one path.  Counters have this property, and so do
content hashes.  `issued` records every object ever written, so the property
can be said of the whole past; it is what makes a conditional write safe:
`Sound.current_data` turns a version read long ago into knowledge of the data
that is there now.
-/

namespace VersionedStore

universe u v w

/-- Data and the version it was stored under. -/
structure Versioned (δ : Type u) (ν : Type v) where
  data : δ
  version : ν

/-- The current objects, and every object ever written. -/
structure Store (π : Type w) (δ : Type u) (ν : Type v) where
  objects : π → Option (Versioned δ ν)
  issued : List (π × Versioned δ ν)

variable {π : Type w} {δ : Type u} {ν : Type v} [DecidableEq π]

/-- The effect of a write that takes place. -/
def Store.write (st : Store π δ ν) (path : π) (obj : Versioned δ ν) : Store π δ ν where
  objects := Function.update st.objects path (some obj)
  issued := (path, obj) :: st.issued

omit [DecidableEq π] in
/-- A conditional write that expects `expected` finds it. -/
def Store.Matches (st : Store π δ ν) (path : π) (expected : Option ν) : Prop :=
  (st.objects path).map Versioned.version = expected

instance [DecidableEq ν] (st : Store π δ ν) (path : π) (expected : Option ν) :
    Decidable (st.Matches path expected) := by
  unfold Store.Matches; infer_instance

omit [DecidableEq π] in
/-- Writing `obj` does not give an old version of the path a second content. -/
def Store.Names (st : Store π δ ν) (path : π) (obj : Versioned δ ν) : Prop :=
  ∀ old, (path, old) ∈ st.issued → old.version = obj.version → old.data = obj.data

omit [DecidableEq π] in
/-- A version that was not used yet can be used. -/
theorem Store.names_of_new_version {st : Store π δ ν} {path : π} {obj : Versioned δ ν}
    (h : obj.version ∉ st.issued.map fun x => x.2.version) : st.Names path obj := by
  intro old hold heq
  refine absurd ?_ h
  rw [← heq]
  exact List.mem_map_of_mem (f := fun x : π × Versioned δ ν => x.2.version) hold

omit [DecidableEq π] in
/-- At a path that was not written to yet every version can be used. -/
theorem Store.names_of_new_path {st : Store π δ ν} {path : π} {obj : Versioned δ ν}
    (h : path ∉ st.issued.map Prod.fst) : st.Names path obj :=
  fun _ hold => absurd (List.mem_map_of_mem (f := Prod.fst) hold) h

/-- The current objects were written, and versions name one content each. -/
structure Store.Sound (st : Store π δ ν) : Prop where
  current : ∀ path obj, st.objects path = some obj → (path, obj) ∈ st.issued
  functional : ∀ path old new, (path, old) ∈ st.issued → (path, new) ∈ st.issued →
    old.version = new.version → old.data = new.data

/-- What was written is there. -/
@[simp] theorem Store.write_self (st : Store π δ ν) (path : π) (obj : Versioned δ ν) :
    (st.write path obj).objects path = some obj := by
  simp [Store.write]

/-- What was written elsewhere is still there. -/
theorem Store.write_of_ne (st : Store π δ ν) {path other : π} (obj : Versioned δ ν)
    (h : other ≠ path) : (st.write path obj).objects other = st.objects other := by
  simp [Store.write, h]

/-- A write issues one version. -/
theorem Store.mem_issued_write {st : Store π δ ν} {path other : π} {obj old : Versioned δ ν} :
    (other, old) ∈ (st.write path obj).issued ↔
      (other = path ∧ old = obj) ∨ (other, old) ∈ st.issued := by
  simp [Store.write]

/-- A write under a version that names its data keeps the store sound. -/
theorem Store.Sound.write {st : Store π δ ν} (h : st.Sound) {path : π} {obj : Versioned δ ν}
    (hnames : st.Names path obj) : (st.write path obj).Sound where
  current := by
    intro other cur hcur
    by_cases hp : other = path
    · subst hp
      have heq : cur = obj := by simpa using hcur.symm
      exact Store.mem_issued_write.mpr (Or.inl ⟨rfl, heq⟩)
    · rw [Store.write_of_ne st obj hp] at hcur
      exact Store.mem_issued_write.mpr (Or.inr (h.current other cur hcur))
  functional := by
    intro other old new hold hnew hversion
    rcases Store.mem_issued_write.mp hold with ⟨rfl, rfl⟩ | hold'
    · rcases Store.mem_issued_write.mp hnew with ⟨_, rfl⟩ | hnew'
      · rfl
      · exact (hnames new hnew' hversion.symm).symm
    · rcases Store.mem_issued_write.mp hnew with ⟨rfl, rfl⟩ | hnew'
      · exact hnames old hold' hversion
      · exact h.functional other old new hold' hnew' hversion

omit [DecidableEq π] in
/-- **What a matching version tells.**  If an object read earlier and the
current one carry the same version, the data has not changed. -/
theorem Store.Sound.current_data {st : Store π δ ν} (h : st.Sound) {path : π}
    {read cur : Versioned δ ν} (hread : (path, read) ∈ st.issued)
    (hcur : st.objects path = some cur) (hversion : cur.version = read.version) :
    cur.data = read.data :=
  h.functional path cur read (h.current path cur hcur) hread hversion

end VersionedStore
