import Mathlib.Data.List.Nodup
import Mathlib.Data.List.Perm.Basic
import OpenDataBuffer.ProducerRuns
import OpenDataBuffer.Ledger

/-!
# What `drain` cuts off the ready map

The map `ready` is a list in which every ordinal occurs once.  Putting a
completion in and cutting a run off then lose nothing, and the run is exactly
the ordinals from the old cursor to the new one.
-/

namespace OpenDataBuffer

/-- The batches of some completions. -/
def batchesOf (ucs : List UploadCompletion) : Multiset Batch :=
  ↑(ucs.map UploadCompletion.batch)

@[simp] theorem batchesOf_nil : batchesOf [] = 0 := rfl

@[simp] theorem batchesOf_cons (uc : UploadCompletion) (ucs : List UploadCompletion) :
    batchesOf (uc :: ucs) = uc.batch ::ₘ batchesOf ucs := rfl

@[simp] theorem batchesOf_append (xs ys : List UploadCompletion) :
    batchesOf (xs ++ ys) = batchesOf xs + batchesOf ys := by
  simp [batchesOf]

@[simp] theorem handedBatches_nil : handedBatches [] = 0 := rfl

@[simp] theorem handedBatches_cons (pr : PendingResolution) (prs : List PendingResolution) :
    handedBatches (pr :: prs) = pr.batch ::ₘ handedBatches prs := rfl

@[simp] theorem handedBatches_append (xs ys : List PendingResolution) :
    handedBatches (xs ++ ys) = handedBatches xs + handedBatches ys := by
  simp [handedBatches]

/-- The ordinals of some completions. -/
def ordinalsOf (ucs : List UploadCompletion) : List Nat := ucs.map fun uc => uc.eb.ordinal

/-- Removing an ordinal that is not there. -/
theorem filter_ordinal_of_not_mem {ready : List UploadCompletion} {k : Nat}
    (h : k ∉ ordinalsOf ready) : ready.filter (fun uc => uc.eb.ordinal ≠ k) = ready := by
  rw [List.filter_eq_self]
  intro uc huc
  have hne : uc.eb.ordinal ≠ k := fun heq => h (heq ▸ List.mem_map_of_mem huc)
  simpa using hne

/-- Putting in an ordinal that is not there. -/
theorem insertReady_of_not_mem {uc : UploadCompletion} {ready : List UploadCompletion}
    (h : uc.eb.ordinal ∉ ordinalsOf ready) : insertReady uc ready = uc :: ready := by
  rw [insertReady, filter_ordinal_of_not_mem h]

/-- Taking the completion of one ordinal out of the map. -/
theorem ready_split {ready : List UploadCompletion} {k : Nat} {uc : UploadCompletion}
    (hnodup : (ordinalsOf ready).Nodup)
    (hfind : ready.find? (fun uc => uc.eb.ordinal = k) = some uc) :
    uc.eb.ordinal = k ∧ ready.Perm (uc :: ready.filter fun other => other.eb.ordinal ≠ k) := by
  induction ready with
  | nil => simp at hfind
  | cons x xs ih =>
      obtain ⟨hx, hxs⟩ := List.nodup_cons.mp hnodup
      by_cases hxk : x.eb.ordinal = k
      · have hux : x = uc := by simpa [hxk] using hfind
        subst hux
        refine ⟨hxk, ?_⟩
        have hrest : k ∉ ordinalsOf xs := hxk ▸ hx
        rw [List.filter_cons_of_neg (by simp [hxk]), filter_ordinal_of_not_mem hrest]
      · rw [List.find?_cons_of_neg (by simp [hxk])] at hfind
        obtain ⟨huk, hperm⟩ := ih hxs hfind
        refine ⟨huk, ?_⟩
        rw [List.filter_cons_of_pos (by simp [hxk])]
        exact (hperm.cons x).trans (List.Perm.swap _ _ _)

/-- Taking an ordinal out leaves the others told apart. -/
theorem nodup_filter_ordinals {ready : List UploadCompletion} (k : Nat)
    (hnodup : (ordinalsOf ready).Nodup) :
    (ordinalsOf (ready.filter fun other => other.eb.ordinal ≠ k)).Nodup :=
  hnodup.sublist (List.filter_sublist.map _)

/-! ## The run that is cut off -/

/-- The batches among some completions whose objects are in the store. -/
def uploaded (ucs : List UploadCompletion) : List UploadCompletion :=
  ucs.filter fun uc => uc.putError = none

/-- The outcome of a batch when the manifest takes everything. -/
def UploadCompletion.resolution (uc : UploadCompletion) : PendingResolution :=
  match uc.putError with
  | none => ⟨uc, none, .committed⟩
  | some err => failedResolution uc err

/-- The outcomes of the batches among some completions that have no object. -/
def refused (ucs : List UploadCompletion) : List PendingResolution :=
  (ucs.filter fun uc => !decide (uc.putError = none)).map UploadCompletion.resolution

/-- An outcome is the outcome of the batch of its completion. -/
theorem UploadCompletion.resolution_uc (uc : UploadCompletion) : uc.resolution.uc = uc := by
  unfold UploadCompletion.resolution
  split <;> rfl

/-- A run `cut` of completions leaves the map: `ready` before, `c` after. -/
structure CutOff (room next : Nat) (ready cut : List UploadCompletion) (c : Collected) :
    Prop where
  /-- Nothing is lost. -/
  taken : ready.Perm (cut ++ c.ready)
  /-- What is cut are the ordinals from the cursor on, in order. -/
  numbered : ordinalsOf cut = List.range' next cut.length
  next : c.next = next + cut.length
  group : c.group = uploaded cut
  failed : c.failed = refused cut
  /-- With room left, the cut stops at an ordinal that is not there. -/
  stop : cut.length < room → c.next ∉ ordinalsOf c.ready

/-- An empty cut. -/
theorem cutOff_nil {room next : Nat} {ready : List UploadCompletion}
    (hstop : room ≠ 0 → next ∉ ordinalsOf ready) :
    CutOff room next ready [] ⟨[], [], next, ready⟩ where
  taken := List.Perm.refl _
  numbered := rfl
  next := rfl
  group := rfl
  failed := rfl
  stop := fun h => hstop (Nat.ne_of_gt h)

/-- One more completion in front of a cut. -/
theorem CutOff.cons {room next : Nat} {ready later cut : List UploadCompletion} {c : Collected}
    {uc : UploadCompletion} (h : CutOff room (next + 1) later cut c) (hord : uc.eb.ordinal = next)
    (hperm : ready.Perm (uc :: later)) :
    CutOff (room + 1) next ready (uc :: cut)
      (match uc.putError with
        | some err => { c with failed := failedResolution uc err :: c.failed }
        | none => { c with group := uc :: c.group }) := by
  have htaken : ready.Perm ((uc :: cut) ++ c.ready) := hperm.trans (h.taken.cons uc)
  have hnumbered : ordinalsOf (uc :: cut) = List.range' next (uc :: cut).length := by
    rw [List.length_cons, List.range'_succ, ← h.numbered, ← hord]
    rfl
  have hnext : c.next = next + (uc :: cut).length := by
    rw [h.next, List.length_cons]
    omega
  have hstop : (uc :: cut).length < room + 1 → c.next ∉ ordinalsOf c.ready :=
    fun hroom => h.stop (Nat.lt_of_succ_lt_succ hroom)
  cases hput : uc.putError with
  | none =>
      refine ⟨htaken, hnumbered, hnext, ?_, ?_, hstop⟩
      · simp [uploaded, hput, h.group]
      · simp [refused, hput, h.failed]
  | some err =>
      refine ⟨htaken, hnumbered, hnext, ?_, ?_, hstop⟩
      · simp [uploaded, hput, h.group]
      · simp [refused, hput, h.failed, UploadCompletion.resolution]

/-- **The inner loop of `drain`** cuts off a run of consecutive ordinals. -/
theorem collect_cutOff (room next : Nat) (ready : List UploadCompletion)
    (hnodup : (ordinalsOf ready).Nodup) :
    ∃ cut, CutOff room next ready cut (collect room next ready) := by
  induction room generalizing next ready with
  | zero => exact ⟨[], cutOff_nil fun h => absurd rfl h⟩
  | succ room ih =>
      unfold collect
      cases hfind : ready.find? (fun uc => uc.eb.ordinal = next) with
      | none =>
          refine ⟨[], cutOff_nil fun _ hmem => ?_⟩
          obtain ⟨uc, huc, hord⟩ := List.mem_map.mp hmem
          exact List.find?_eq_none.mp hfind uc huc (by simpa using hord)
      | some uc =>
          obtain ⟨hord, hperm⟩ := ready_split hnodup hfind
          obtain ⟨cut, hcut⟩ := ih (next + 1) _ (nodup_filter_ordinals next hnodup)
          exact ⟨uc :: cut, hcut.cons hord hperm⟩

/-! ## The two halves of a cut -/

/-- The uploaded batches of a run and the failed ones are, together, the run. -/
theorem batchesOf_uploaded_refused (cut : List UploadCompletion) :
    batchesOf (uploaded cut) + handedBatches (refused cut) = batchesOf cut := by
  have hrefused : (refused cut).map PendingResolution.batch =
      (cut.filter fun uc => !decide (uc.putError = none)).map UploadCompletion.batch := by
    rw [refused, List.map_map]
    refine List.map_congr_left fun uc _ => ?_
    exact congrArg UploadCompletion.batch uc.resolution_uc
  rw [handedBatches, hrefused, batchesOf, batchesOf, uploaded, Multiset.coe_add,
    ← List.map_append]
  exact Multiset.coe_eq_coe.mpr ((List.filter_append_perm _ cut).map _)

section Halves

variable {room next : Nat} {ready cut : List UploadCompletion} {c : Collected}

/-- The cursor does not go back. -/
theorem CutOff.next_le (h : CutOff room next ready cut c) : next ≤ c.next :=
  h.next ▸ Nat.le_add_right next cut.length

/-- Nothing is lost: a batch of the map is in the group, failed, or in the map. -/
theorem CutOff.batches (h : CutOff room next ready cut c) :
    batchesOf ready = batchesOf c.group + (handedBatches c.failed + batchesOf c.ready) := by
  have htaken : batchesOf ready = batchesOf (cut ++ c.ready) :=
    Multiset.coe_eq_coe.mpr (h.taken.map _)
  rw [htaken, batchesOf_append, ← batchesOf_uploaded_refused cut, ← h.group, ← h.failed,
    add_assoc]

/-- The batches of the group and the failed ones have the ordinals up to the new
cursor. -/
theorem CutOff.map_ordinal (h : CutOff room next ready cut c) :
    (batchesOf c.group + handedBatches c.failed).map Batch.ordinal =
      ↑(List.range' next (c.next - next)) := by
  have hlen : c.next - next = cut.length := by
    rw [h.next]
    omega
  rw [h.group, h.failed, batchesOf_uploaded_refused, hlen, ← h.numbered, batchesOf,
    Multiset.map_coe, List.map_map]
  rfl

/-- The group is in order. -/
theorem CutOff.sorted (h : CutOff room next ready cut c) :
    (ordinalsOf c.group).Pairwise (· < ·) := by
  have hcut : (ordinalsOf cut).Pairwise (· < ·) := by
    rw [h.numbered]
    exact List.pairwise_lt_range'
  rw [h.group]
  exact hcut.sublist (List.filter_sublist.map _)

/-- What is cut off was in the map. -/
theorem CutOff.cut_mem (h : CutOff room next ready cut c) {uc : UploadCompletion}
    (huc : uc ∈ cut) : uc ∈ ready :=
  h.taken.mem_iff.mpr (List.mem_append_left _ huc)

/-- What stays in the map was in it. -/
theorem CutOff.ready_mem (h : CutOff room next ready cut c) {uc : UploadCompletion}
    (huc : uc ∈ c.ready) : uc ∈ ready :=
  h.taken.mem_iff.mpr (List.mem_append_right _ huc)

/-- A batch of the group was in the map, is uploaded, and lies behind the cursor. -/
theorem CutOff.group_mem (h : CutOff room next ready cut c) {uc : UploadCompletion}
    (huc : uc ∈ c.group) : uc ∈ ready ∧ uc.putError = none ∧ next ≤ uc.eb.ordinal := by
  rw [h.group] at huc
  obtain ⟨hcut, hput⟩ := List.mem_filter.mp huc
  have hord : uc.eb.ordinal ∈ List.range' next cut.length := by
    rw [← h.numbered]
    exact List.mem_map_of_mem hcut
  exact ⟨h.cut_mem hcut, by simpa using hput, (List.mem_range'_1.mp hord).1⟩

/-- A failed batch was in the map, and its outcome carries the upload's error. -/
theorem CutOff.failed_mem (h : CutOff room next ready cut c) {pr : PendingResolution}
    (hpr : pr ∈ c.failed) :
    pr.uc ∈ ready ∧ ∃ err, pr.uc.putError = some err ∧ pr = failedResolution pr.uc err := by
  rw [h.failed] at hpr
  obtain ⟨uc, huc, rfl⟩ := List.mem_map.mp hpr
  obtain ⟨hcut, hput⟩ := List.mem_filter.mp huc
  obtain ⟨err, herr⟩ := Option.ne_none_iff_exists'.mp (by simpa using hput : uc.putError ≠ none)
  rw [uc.resolution_uc]
  exact ⟨h.cut_mem hcut, err, herr, by rw [UploadCompletion.resolution, herr]⟩

/-- A cut of nothing had no room, or no completion of the next ordinal. -/
theorem CutOff.stops (h : CutOff room next ready cut c) (hgroup : c.group = [])
    (hfailed : c.failed = []) (hroom : 0 < room) : c.next ∉ ordinalsOf c.ready := by
  have hnone : cut = [] := by
    have hbatches := batchesOf_uploaded_refused cut
    rw [← h.group, ← h.failed, hgroup, hfailed] at hbatches
    have hlen := congrArg Multiset.card hbatches
    simpa [batchesOf] using hlen.symm
  exact h.stop (by rw [hnone]; exact hroom)

end Halves

end OpenDataBuffer
