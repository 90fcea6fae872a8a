import OpenDataBuffer.ManifestEnqueuer

/-!
# The in-memory object store

`objstore/memory.go` implements the store interface on a map under one lock, so
every operation is one step.  An object carries a counter, and the decimal text
of the counter is its version.

What an operation does at one path is its `effect` there: nothing, a removal, or
new data.  `objects_apply` says once how the object at a path follows from the
effect; the counter of an object that stays goes up by one with every effect
(`version_of_effects`), which is what makes a version tell whether something happened
in between.

A removed object takes its counter with it, and an object created again starts
at 1.  A version read before the removal can therefore match the new object: a
conditional write is safe only as long as the object is not deleted and created
again.  Without deletions the store is one of the versioned stores the rest of
the development works over (`inMemory_keeps_contract`).
-/

namespace OpenDataBuffer

open VersionedStore

structure MemObject where
  data : Bytes
  version : Int64
  deriving DecidableEq

/-- `InMemory`: the map of objects. -/
structure InMemory where
  objects : Bytes → Option MemObject

def NewInMemory : InMemory := ⟨fun _ => none⟩

/-- `Version{ETag: fmt.Sprintf("%d", version)}`. -/
def etagOf (version : Int64) : Version := ⟨toString version.toInt⟩

/-- The assignment `m.objects[path] = obj`. -/
def InMemory.store (m : InMemory) (path : Bytes) (obj : MemObject) : InMemory :=
  ⟨Function.update m.objects path (some obj)⟩

def InMemory.Get (m : InMemory) (path : Bytes) : Except StoreError GetResult :=
  match m.objects path with
  | none => .error .notFound
  | some obj => .ok ⟨obj.data, etagOf obj.version⟩

def InMemory.Put (m : InMemory) (path data : Bytes) : InMemory :=
  match m.objects path with
  | some obj => m.store path ⟨data, obj.version + 1⟩
  | none => m.store path ⟨data, 1⟩

/-- The store afterwards and the error returned. -/
def InMemory.PutIfMatch (m : InMemory) (path data : Bytes) (version : Option Version) :
    InMemory × Option StoreError :=
  match version, m.objects path with
  | none, some _ => (m, some .preconditionFailed)
  | none, none => (m.store path ⟨data, 1⟩, none)
  | some _, none => (m, some .preconditionFailed)
  | some version, some obj =>
    let expected := (etagOf obj.version).ETag
    if version.ETag ≠ expected then (m, some .preconditionFailed)
    else (m.store path ⟨data, obj.version + 1⟩, none)

def InMemory.Delete (m : InMemory) (path : Bytes) : InMemory :=
  ⟨Function.update m.objects path none⟩

/-- A call of one of the four operations. -/
inductive StoreOp
  | get (path : Bytes)
  | put (path data : Bytes)
  | putIfMatch (path data : Bytes) (version : Option Version)
  | delete (path : Bytes)
  deriving DecidableEq

/-- The store after an operation. -/
def InMemory.apply (m : InMemory) : StoreOp → InMemory
  | .get _ => m
  | .put path data => m.Put path data
  | .putIfMatch path data version => (m.PutIfMatch path data version).1
  | .delete path => m.Delete path

/-- The store after a sequence of operations. -/
def InMemory.after (m : InMemory) (ops : List StoreOp) : InMemory := ops.foldl InMemory.apply m

/-- What an operation does at a path: nothing, a removal (`some none`) or new
data.  Deleting what is not there and a refused conditional write do nothing. -/
def InMemory.effect (m : InMemory) (path : Bytes) : StoreOp → Option (Option Bytes)
  | .get _ => none
  | .put p data => if p = path then some (some data) else none
  | .putIfMatch p data version =>
      if p = path ∧ (m.PutIfMatch p data version).2 = none then some (some data) else none
  | .delete p => if p = path ∧ (m.objects p).isSome then some none else none

/-- The effects of a sequence of operations at a path, in order. -/
def InMemory.effects (m : InMemory) (path : Bytes) : List StoreOp → List (Option Bytes)
  | [] => []
  | op :: ops => (m.effect path op).toList ++ (m.apply op).effects path ops

/-- The counter of the next object written at a path. -/
def nextVersion : Option MemObject → Int64
  | none => 1
  | some obj => obj.version + 1

/-- The object at a path after an effect there. -/
def objectAfter (obj : Option MemObject) : Option (Option Bytes) → Option MemObject
  | none => obj
  | some none => none
  | some (some data) => some ⟨data, nextVersion obj⟩

/-! ## One operation -/

@[simp] theorem store_self (m : InMemory) (path : Bytes) (obj : MemObject) :
    (m.store path obj).objects path = some obj := by
  simp [InMemory.store]

theorem store_of_ne (m : InMemory) {path other : Bytes} (obj : MemObject) (h : other ≠ path) :
    (m.store path obj).objects other = m.objects other := by
  simp [InMemory.store, h]

/-- `Put` stores under the next version. -/
theorem put_eq (m : InMemory) (path data : Bytes) :
    m.Put path data = m.store path ⟨data, nextVersion (m.objects path)⟩ := by
  unfold InMemory.Put
  cases m.objects path with
  | none => rfl
  | some obj => rfl

/-- The version a conditional write has to name. -/
def InMemory.currentVersion (m : InMemory) (path : Bytes) : Option Version :=
  (m.objects path).map fun obj => etagOf obj.version

/-- A conditional write that names the current version is a write; every other
one is refused and changes nothing. -/
theorem putIfMatch_cases (m : InMemory) (path data : Bytes) (version : Option Version) :
    m.PutIfMatch path data version =
      if version = m.currentVersion path then (m.Put path data, none)
      else (m, some .preconditionFailed) := by
  rw [put_eq]
  unfold InMemory.PutIfMatch InMemory.currentVersion
  cases version with
  | none =>
      cases m.objects path with
      | none => rfl
      | some obj => rfl
  | some version =>
      cases m.objects path with
      | none => rfl
      | some obj =>
          have hetag : version.ETag = (etagOf obj.version).ETag ↔ version = etagOf obj.version := by
            cases version
            simp [etagOf]
          by_cases hmatch : version = etagOf obj.version
          · simp [hmatch, nextVersion]
          · simp [hmatch, hetag]

/-- `PutIfMatch` succeeds exactly with the current version. -/
theorem putIfMatch_ok_iff (m : InMemory) (path data : Bytes) (version : Option Version) :
    (m.PutIfMatch path data version).2 = none ↔ version = m.currentVersion path := by
  rw [putIfMatch_cases]
  by_cases h : version = m.currentVersion path <;> simp [h]

/-- The object at a path follows from the effect there. -/
theorem objects_apply (m : InMemory) (path : Bytes) (op : StoreOp) :
    (m.apply op).objects path = objectAfter (m.objects path) (m.effect path op) := by
  have hput : ∀ p data, (m.Put p data).objects path =
      objectAfter (m.objects path) (if p = path then some (some data) else none) := by
    intro p data
    rw [put_eq]
    by_cases hp : p = path
    · subst hp
      simp [objectAfter]
    · rw [store_of_ne m _ (Ne.symm hp), if_neg hp]
      rfl
  cases op with
  | get p => rfl
  | put p data => exact hput p data
  | putIfMatch p data version =>
      simp only [InMemory.apply, InMemory.effect, putIfMatch_ok_iff]
      rw [putIfMatch_cases]
      by_cases hmatch : version = m.currentVersion p
      · simpa [hmatch] using hput p data
      · simp [hmatch, objectAfter]
  | delete p =>
      simp only [InMemory.apply, InMemory.Delete, InMemory.effect]
      by_cases hp : p = path
      · subst hp
        cases hobj : m.objects p <;> simp [objectAfter]
      · simp [hp, Ne.symm hp, objectAfter]

/-! ## A sequence of operations -/

/-- The object at a path after a sequence of operations follows from the
effects there. -/
theorem objects_after (m : InMemory) (path : Bytes) (ops : List StoreOp) :
    ((m.after ops).objects path) =
      (m.effects path ops).foldl (fun obj effect => objectAfter obj (some effect))
        (m.objects path) := by
  induction ops generalizing m with
  | nil => rfl
  | cons op ops ih =>
      have hafter : m.after (op :: ops) = (m.apply op).after ops := rfl
      rw [hafter, ih, objects_apply, InMemory.effects, List.foldl_append]
      cases m.effect path op with
      | none => rfl
      | some effect => rfl

/-- Every effect at an object that stays counts its version up by one. -/
theorem version_of_effects (effects : List (Option Bytes)) (hkept : none ∉ effects)
    (obj : MemObject) :
    ∃ last, effects.foldl (fun obj effect => objectAfter obj (some effect)) (some obj) = some last ∧
      last.version = obj.version + Int64.ofNat effects.length := by
  induction effects generalizing obj with
  | nil => exact ⟨obj, rfl, by simp⟩
  | cons effect effects ih =>
      cases effect with
      | none => exact absurd List.mem_cons_self hkept
      | some data =>
          obtain ⟨last, hlast, hversion⟩ := ih (fun h => hkept (List.mem_cons_of_mem _ h))
            ⟨data, obj.version + 1⟩
          refine ⟨last, hlast, ?_⟩
          rw [hversion, List.length_cons, Int64.add_assoc]
          congr 1
          rw [Nat.add_comm, Int64.ofNat_add]
          rfl

/-- The data at a path is what the last effect left there. -/
theorem data_of_effects (effects : List (Option Bytes)) (obj : Option MemObject) :
    (effects.foldl (fun obj effect => objectAfter obj (some effect)) obj).map MemObject.data =
      effects.getLastD (obj.map MemObject.data) := by
  induction effects generalizing obj with
  | nil => rfl
  | cons effect effects ih =>
      rw [List.foldl_cons, ih, List.getLastD_cons]
      cases effect <;> rfl

/-! ## Versions -/

/-- The decimal text of a number determines the number. -/
theorem nat_repr_injective {a b : Nat} (h : a.repr = b.repr) : a = b := by
  have hdigits : Nat.toDigits 10 a = Nat.toDigits 10 b := by
    rw [← Nat.toList_repr, ← Nat.toList_repr, h]
  rw [← Nat.ofDigitChars_ten_toDigits (n := a), hdigits, Nat.ofDigitChars_ten_toDigits]

/-- A natural number is not written with a sign. -/
theorem nat_repr_ne_minus (a : Nat) (text : String) : a.repr ≠ "-" ++ text := by
  intro h
  have hmem : '-' ∈ Nat.toDigits 10 a := by
    rw [← Nat.toList_repr, h]
    simp
  have hdigit := Nat.isDigit_of_mem_toDigits (by decide) (by decide) hmem
  exact absurd hdigit (by decide)

/-- Different integers are written differently. -/
theorem int_repr_injective {a b : Int} (h : a.repr = b.repr) : a = b := by
  rw [Int.repr_eq_if, Int.repr_eq_if] at h
  by_cases ha : 0 ≤ a
  · by_cases hb : 0 ≤ b
    · rw [if_pos ha, if_pos hb] at h
      have := nat_repr_injective h
      omega
    · rw [if_pos ha, if_neg hb] at h
      exact absurd h (nat_repr_ne_minus _ _)
  · by_cases hb : 0 ≤ b
    · rw [if_neg ha, if_pos hb] at h
      exact absurd h.symm (nat_repr_ne_minus _ _)
    · rw [if_neg ha, if_neg hb] at h
      have := nat_repr_injective (String.append_right_inj _ |>.mp h)
      omega

/-- Different versions have different tags. -/
theorem etagOf_injective {a b : Int64} (h : etagOf a = etagOf b) : a = b :=
  Int64.toInt_inj.mp (int_repr_injective (congrArg Version.ETag h))

/-- Counters below `2 ^ 64` are told apart. -/
theorem ofNat_injective {j k : Nat} (hj : j < 2 ^ 64) (hk : k < 2 ^ 64)
    (h : Int64.ofNat j = Int64.ofNat k) : j = k := by
  rw [← Int64.toBitVec_inj, Int64.toBitVec_ofNat', Int64.toBitVec_ofNat', ← BitVec.toNat_inj,
    BitVec.toNat_ofNat, BitVec.toNat_ofNat, Nat.mod_eq_of_lt hj, Nat.mod_eq_of_lt hk] at h
  exact h

/-- A counter comes back to its value only after `2 ^ 64` steps. -/
theorem add_ofNat_eq_self_iff {v : Int64} {n : Nat} (h : n < 2 ^ 64) :
    v + Int64.ofNat n = v ↔ n = 0 := by
  rw [Int64.add_eq_left]
  exact ⟨fun hzero => ofNat_injective h (by decide) hzero, fun hn => hn ▸ rfl⟩

/-- An object that stays has the version it had exactly if nothing happened. -/
theorem currentVersion_after {m : InMemory} {path : Bytes} {obj : MemObject} {ops : List StoreOp}
    (hobj : m.objects path = some obj) (hkept : none ∉ m.effects path ops)
    (hcount : (m.effects path ops).length < 2 ^ 64) :
    (m.after ops).currentVersion path = some (etagOf obj.version) ↔ m.effects path ops = [] := by
  obtain ⟨last, hlast, hversion⟩ := version_of_effects (m.effects path ops) hkept obj
  rw [InMemory.currentVersion, objects_after, hobj, hlast, Option.map_some, Option.some_inj,
    hversion, ← List.length_eq_zero_iff, ← add_ofNat_eq_self_iff hcount]
  exact ⟨etagOf_injective, congrArg etagOf⟩

/-- `Get` returns what is stored, with its tag. -/
theorem get_ok {m : InMemory} {path : Bytes} {read : GetResult} (h : m.Get path = .ok read) :
    ∃ obj, m.objects path = some obj ∧ read = ⟨obj.data, etagOf obj.version⟩ := by
  unfold InMemory.Get at h
  cases hobj : m.objects path with
  | none => simp [hobj] at h
  | some obj =>
      rw [hobj] at h
      exact ⟨obj, rfl, (Except.ok.inj h).symm⟩

/-- `Get` returns the data of the last effect at the path. -/
theorem get_latest (ops : List StoreOp) (path : Bytes) :
    match (NewInMemory.effects path ops).getLastD none with
    | none => (NewInMemory.after ops).Get path = .error .notFound
    | some data => ∃ version, (NewInMemory.after ops).Get path = .ok ⟨data, version⟩ := by
  have hdata := data_of_effects (NewInMemory.effects path ops) (NewInMemory.objects path)
  rw [← objects_after] at hdata
  have hnew : (NewInMemory.objects path).map MemObject.data = none := rfl
  rw [hnew] at hdata
  rw [← hdata]
  unfold InMemory.Get
  cases (NewInMemory.after ops).objects path with
  | none => rfl
  | some obj => exact ⟨_, rfl⟩

/-- **Conditional writes on the in-memory store.**  A version obtained from `Get`
is accepted exactly if nothing happened at the path since, provided that the
object was not deleted and created again in between (and was not written `2 ^ 64`
times).  Without a version a write is accepted exactly if there is no object; a
refused write changes nothing; `Get` returns the data of the latest write. -/
theorem inMemory_conditional_writes (before between : List StoreOp) (path data : Bytes)
    {read : GetResult} (hread : (NewInMemory.after before).Get path = .ok read)
    (hkept : none ∉ (NewInMemory.after before).effects path between ∨
      ((NewInMemory.after before).after between).objects path = none)
    (hcount : ((NewInMemory.after before).effects path between).length < 2 ^ 64) :
    ((((NewInMemory.after before).after between).PutIfMatch path data (some read.version)).2 = none
      ↔ (NewInMemory.after before).effects path between = []) ∧
    (∀ ops path data, ((NewInMemory.after ops).PutIfMatch path data none).2 = none ↔
      (NewInMemory.after ops).objects path = none) ∧
    (∀ ops path data version, ((NewInMemory.after ops).PutIfMatch path data version).2 ≠ none →
      ((NewInMemory.after ops).PutIfMatch path data version).1 = NewInMemory.after ops) ∧
    ∀ ops path, match (NewInMemory.effects path ops).getLastD none with
      | none => (NewInMemory.after ops).Get path = .error .notFound
      | some data => ∃ version, (NewInMemory.after ops).Get path = .ok ⟨data, version⟩ := by
  obtain ⟨obj, hobj, rfl⟩ := get_ok hread
  refine ⟨?_, ?_, ?_, fun ops path => get_latest ops path⟩
  · rw [putIfMatch_ok_iff, eq_comm]
    rcases hkept with hkept | habsent
    · exact currentVersion_after hobj hkept hcount
    · -- the object is gone: the write is refused, and something removed it
      have hnone : ((NewInMemory.after before).after between).currentVersion path = none := by
        rw [InMemory.currentVersion, habsent]
        rfl
      rw [hnone]
      refine ⟨fun h => by simp at h, fun hnothing => ?_⟩
      rw [objects_after, hnothing, hobj] at habsent
      exact absurd habsent (by simp)
  · intro ops path data
    rw [putIfMatch_ok_iff, InMemory.currentVersion, eq_comm, Option.map_eq_none_iff]
  · intro ops path data version hrefused
    rw [ne_eq, putIfMatch_ok_iff] at hrefused
    rw [putIfMatch_cases, if_neg hrefused]

/-- A version read before a write of the same object is refused. -/
theorem inMemory_conditional_writes_stale :
    ∃ read, (NewInMemory.after [.put [112] [1]]).Get [112] = .ok read ∧
      (((NewInMemory.after [.put [112] [1]]).after [.put [112] [2]]).PutIfMatch [112] [3]
        (some read.version)).2 ≠ none := by
  have hread : (NewInMemory.after [.put [112] [1]]).Get [112] = .ok ⟨[1], etagOf 1⟩ := rfl
  refine ⟨_, hread, fun haccepted => ?_⟩
  have h := (inMemory_conditional_writes [.put [112] [1]] [.put [112] [2]] [112] [3] hread
    (Or.inl (by decide)) (by decide)).1.mp haccepted
  exact absurd h (by decide)

/-- The version of a deleted object matches the object created in its place: the
conditional write is accepted and replaces data its caller never read. -/
theorem inMemory_recreated_matches :
    ∃ read, (NewInMemory.after [.put [112] [1]]).Get [112] = .ok read ∧
      (NewInMemory.after [.put [112] [1]]).effects [112] [.delete [112], .put [112] [2]]
        = [none, some [2]] ∧
      (((NewInMemory.after [.put [112] [1]]).after [.delete [112], .put [112] [2]]).PutIfMatch
        [112] [3] (some read.version)).2 = none :=
  ⟨⟨[1], etagOf 1⟩, rfl, by decide, by decide⟩

/-! ## The versioned store it implements -/

/-- What an operation does to a versioned store that keeps its contract: a write
gets a version that names its data, and a conditional write takes place exactly
if it finds the version it names. -/
inductive StoreMove (st : ObjectStore) : StoreOp → ObjectStore → Prop
  | get {path : Bytes} : StoreMove st (.get path) st
  | put {path : Bytes} {obj : GetResult} (hnames : st.Names path obj) :
      StoreMove st (.put path obj.data) (st.write path obj)
  | putIfMatch {path : Bytes} {obj : GetResult} {version : Option Version}
      (hmatch : st.Matches path version) (hnames : st.Names path obj) :
      StoreMove st (.putIfMatch path obj.data version) (st.write path obj)
  | refused {path data : Bytes} {version : Option Version} (hmiss : ¬ st.Matches path version) :
      StoreMove st (.putIfMatch path data version) st

/-- The versioned store `st` holds what `m` holds, after at most `n` writes: at
each path the versions given out so far are texts of smaller counters than the
next one. -/
structure Represents (st : ObjectStore) (m : InMemory) (n : Nat) : Prop where
  objects : ∀ path, st.objects path =
    (m.objects path).map fun obj => ⟨obj.data, etagOf obj.version⟩
  sound : st.Sound
  counter : ∀ path, ∃ k ≤ n, nextVersion (m.objects path) = Int64.ofNat (k + 1) ∧
    ∀ old, (path, old) ∈ st.issued → ∃ j ≤ k, old.version = etagOf (Int64.ofNat j)

theorem represents_new : Represents ⟨fun _ => none, []⟩ NewInMemory 0 where
  objects := fun _ => rfl
  sound := ⟨fun _ _ h => by simp at h, fun _ _ _ h => by simp at h⟩
  counter := fun _ => ⟨0, Nat.le_refl 0, rfl, fun _ h => by simp at h⟩

namespace Represents

variable {st : ObjectStore} {m : InMemory} {n : Nat}

theorem mono (h : Represents st m n) : Represents st m (n + 1) where
  objects := h.objects
  sound := h.sound
  counter := by
    intro path
    obtain ⟨k, hk, hrest⟩ := h.counter path
    exact ⟨k, Nat.le_succ_of_le hk, hrest⟩

/-- Both stores answer a `Get` alike. -/
theorem get_eq (h : Represents st m n) (path : Bytes) : m.Get path = storeGet st path := by
  rw [InMemory.Get, storeGet, h.objects path]
  cases m.objects path with
  | none => rfl
  | some obj => rfl

/-- A version matches in both stores, or in none. -/
theorem matches_iff (h : Represents st m n) (path : Bytes) (version : Option Version) :
    st.Matches path version ↔ version = m.currentVersion path := by
  rw [Store.Matches, InMemory.currentVersion, h.objects path, Option.map_map]
  exact eq_comm

/-- The next version at a path has not been given out there. -/
theorem names (h : Represents st m n) (hn : n + 1 < 2 ^ 64) (path data : Bytes) :
    st.Names path ⟨data, etagOf (nextVersion (m.objects path))⟩ := by
  obtain ⟨k, hk, hnext, hissued⟩ := h.counter path
  intro old hold hversion
  obtain ⟨j, hj, hj'⟩ := hissued old hold
  have hsame : Int64.ofNat j = Int64.ofNat (k + 1) := by
    apply etagOf_injective
    rw [← hj', ← hnext]
    exact hversion
  have := ofNat_injective (by omega) (by omega) hsame
  omega

/-- A write takes the next version at its path. -/
theorem put (h : Represents st m n) (hn : n + 1 < 2 ^ 64) (path data : Bytes) :
    Represents (st.write path ⟨data, etagOf (nextVersion (m.objects path))⟩) (m.Put path data)
      (n + 1) where
  objects := by
    intro other
    rw [put_eq]
    by_cases hother : other = path
    · subst hother
      simp
    · rw [Store.write_of_ne st _ hother, store_of_ne m _ hother, h.objects other]
  sound := h.sound.write (h.names hn path data)
  counter := by
    intro other
    rw [put_eq]
    obtain ⟨k, hk, hnext, hissued⟩ := h.counter other
    by_cases hother : other = path
    · subst hother
      refine ⟨k + 1, Nat.succ_le_succ hk, ?_, ?_⟩
      · rw [store_self, nextVersion, hnext, Int64.ofNat_add (k + 1) 1]
        rfl
      · intro old hold
        rcases Store.mem_issued_write.mp hold with ⟨-, rfl⟩ | hold
        · exact ⟨k + 1, Nat.le_refl _, congrArg etagOf hnext⟩
        · obtain ⟨j, hj, hversion⟩ := hissued old hold
          exact ⟨j, Nat.le_succ_of_le hj, hversion⟩
    · rw [store_of_ne m _ hother]
      refine ⟨k, Nat.le_succ_of_le hk, hnext, fun old hold => ?_⟩
      rcases Store.mem_issued_write.mp hold with ⟨hsame, -⟩ | hold
      · exact absurd hsame hother
      · exact hissued old hold

/-- Every operation but a deletion keeps the contract. -/
theorem step (h : Represents st m n) (hn : n + 1 < 2 ^ 64) {op : StoreOp}
    (hop : ∀ path, op ≠ .delete path) :
    ∃ st', StoreMove st op st' ∧ Represents st' (m.apply op) (n + 1) := by
  cases op with
  | get path => exact ⟨st, .get, h.mono⟩
  | put path data => exact ⟨_, .put (h.names hn path data), h.put hn path data⟩
  | putIfMatch path data version =>
      by_cases hmatch : version = m.currentVersion path
      · refine ⟨_, .putIfMatch ((h.matches_iff path version).mpr hmatch) (h.names hn path data), ?_⟩
        rw [InMemory.apply, putIfMatch_cases, if_pos hmatch]
        exact h.put hn path data
      · refine ⟨st, .refused fun hfound => hmatch ((h.matches_iff path version).mp hfound), ?_⟩
        rw [InMemory.apply, putIfMatch_cases, if_neg hmatch]
        exact h.mono
  | delete path => exact absurd rfl (hop path)

end Represents

/-- A versioned store answers a sequence of operations. -/
inductive StoreRun : ObjectStore → List StoreOp → ObjectStore → Prop
  | nil (st : ObjectStore) : StoreRun st [] st
  | cons {st st' st'' : ObjectStore} {op : StoreOp} {ops : List StoreOp}
      (first : StoreMove st op st') (rest : StoreRun st' ops st'') : StoreRun st (op :: ops) st''

/-- **Without deletions the in-memory store keeps the contract.**  A sequence of
operations, none of them a deletion and too short for a counter to come round,
is a run of a versioned store; that is what the producer and the manifest rely
on. -/
theorem Represents.after {st : ObjectStore} {m : InMemory} {n : Nat} (h : Represents st m n)
    (ops : List StoreOp) (hops : ∀ op ∈ ops, ∀ path, op ≠ .delete path)
    (hn : n + ops.length < 2 ^ 64) :
    ∃ st', StoreRun st ops st' ∧ Represents st' (m.after ops) (n + ops.length) := by
  induction ops generalizing st m n with
  | nil => exact ⟨st, .nil st, h⟩
  | cons op ops ih =>
      rw [List.length_cons] at hn
      obtain ⟨st', hfirst, h'⟩ := h.step (by omega) (hops op List.mem_cons_self)
      obtain ⟨st'', hrest, h''⟩ := ih h' (fun x hx => hops x (List.mem_cons_of_mem _ hx)) (by omega)
      refine ⟨st'', .cons hfirst hrest, ?_⟩
      have hcount : n + (op :: ops).length = n + 1 + ops.length := by
        rw [List.length_cons]
        omega
      rw [hcount]
      exact h''

/-- **The store in memory is a versioned store,** as long as nothing is deleted and the
versions do not wrap around. -/
theorem inMemory_keeps_contract (ops : List StoreOp)
    (hops : ∀ op ∈ ops, ∀ path, op ≠ .delete path) (hlen : ops.length < 2 ^ 64) :
    ∃ st, StoreRun ⟨fun _ => none, []⟩ ops st ∧ st.Sound ∧
      ∀ path, (NewInMemory.after ops).Get path = storeGet st path := by
  obtain ⟨st, hrun, h⟩ := represents_new.after ops hops (by omega)
  exact ⟨st, hrun, h.sound, h.get_eq⟩

end OpenDataBuffer
