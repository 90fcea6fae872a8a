import OpenDataBuffer.CommitOrder
import OpenDataBuffer.Outcomes
import OpenDataBuffer.Uploads

/-!
# What the committer writes to the manifest

The log of the manifest names the ordinals this producer has appended.  In every
run, whatever the store answers: they belong to batches the committer has cut off
or handed over; those that are not of the group at hand are below it; and a batch
is reported as committed only if its ordinal is there.

What is not true in every run is that an ordinal is there only once, because a
`PutIfMatch` that took effect and still returned an error is retried.
`FreshGroups` says under which circumstances it is true.
-/

namespace OpenDataBuffer

/-- The ordinals this producer has appended to the manifest, in order. -/
def State.owned (s : State) : List Nat := s.hist.manifest.log.filterMap Prod.fst

/-- The pending `PutIfMatch` has taken effect, or the call has returned nil. -/
def CasPhase.Applied : CasPhase → Prop
  | .enqueueing (.writing _ _ _ applied) => applied = true
  | .returned err => err = none
  | _ => False

variable {p : Producer} {s t : State} {l : Label} {uc : UploadCompletion}

/-! ## `casWithRetry` -/

/-- `casWithRetry` is behind a write that took effect only if its `enqueueBatch` is. -/
theorem settle_applied {n : Nat} {call : CasCall} {phase : EnqueuePhase}
    (h : (call.settle n phase).phase.Applied) :
    (∃ c, phase = .returned c none) ∨ ∃ c data version, phase = .writing c data version true := by
  unfold CasCall.settle at h
  split at h
  · exact Or.inl ⟨_, rfl⟩
  · split at h
    · exact h.elim
    · cases h
  · rename_i hnone hsome
    cases phase with
    | reading c => exact h.elim
    | writing c data version applied =>
        cases h
        exact Or.inr ⟨c, data, version, rfl⟩
    | returned c err =>
        cases err with
        | none => exact absurd rfl (hnone c)
        | some err => exact absurd rfl (hsome c err)

/-- `enqueueBatch` returns at once only for no items. -/
theorem enqueueBatch_applied {n : Nat} {call : CasCall} {items : List EnqueueItem}
    (h : (call.settle n (enqueueBatch items)).phase.Applied) : items = [] := by
  by_cases hitems : items.length = 0
  · exact List.length_eq_zero_iff.mp hitems
  · rw [enqueueBatch, if_neg hitems] at h
    exact h.elim

/-- Behind a read nothing has been written. -/
theorem afterGet_applied {n c : Nat} {call : CasCall} {items : List EnqueueItem}
    {answer : Except StoreError GetResult} :
    ¬ (call.settle n (afterGet items c answer)).phase.Applied := by
  intro h
  rcases settle_applied h with ⟨c', hret⟩ | ⟨c', data, version, hwrite⟩
  · exact afterGet_ne_ok _ _ _ _ hret
  · unfold afterGet at hwrite
    split at hwrite <;> cases hwrite

/-- A write that is answered with an error does not count as carried out. -/
theorem afterPut_applied {n c : Nat} {call : CasCall} {err : StoreError} :
    ¬ (call.settle n (afterPut c (some err))).phase.Applied := by
  intro h
  rcases settle_applied h with ⟨c', hret⟩ | ⟨c', data, version, hwrite⟩
  · exact afterPut_ne_ok _ _ _ hret
  · exact afterPut_ne_writing _ _ _ _ _ _ hwrite

/-- A call learns that its write took effect only from the store. -/
theorem CasStep.applied {items : List EnqueueItem} {call call' : CasCall}
    (hs : CasStep p s items call l call') (h : call'.phase.Applied) :
    call.phase.Applied ∨ items = [] := by
  cases hs with
  | get hcall => exact absurd h afterGet_applied
  | getFails err hcall herr => exact absurd h afterGet_applied
  | ok hcall =>
      rw [hcall]
      exact Or.inl rfl
  | conflict hcall hmatch => exact absurd h afterPut_applied
  | fails err hcall herr => exact absurd h afterPut_applied
  | retry hcall => exact Or.inr (enqueueBatch_applied h)
  | abandon hcall hshutdown => cases h

/-! ## What one step can do -/

/-- The items of a group are owned by its ordinals. -/
theorem filterMap_ownedItems (group : List UploadCompletion) :
    (ownedItems group).filterMap Prod.fst = ordinalsOf group := by
  simp [ownedItems, ordinalsOf]

/-- Items of the others are owned by no ordinal. -/
theorem filterMap_others (items : List EnqueueItem) :
    (items.map (Prod.mk (none : Option Nat))).filterMap Prod.fst = [] := by
  simp

/-- The log grows by what others append, or by a group that is being written. -/
theorem log_step (hs : ProducerStep p s l t) :
    t.hist.manifest.log = s.hist.manifest.log ∨
      (∃ items : List EnqueueItem,
        t.hist.manifest.log = s.hist.manifest.log ++ items.map (Prod.mk none)) ∨
      ∃ group failed call n data version, s.committer.phase = .cas group failed call ∧
        call.phase = .enqueueing (.writing n data version false) ∧
        t.committer.phase = .cas group failed
          { call with phase := .enqueueing (.writing n data version true) } ∧
        t.hist.manifest.log = s.hist.manifest.log ++ ownedItems group := by
  cases hs with
  | append _ hs => cases hs <;> exact Or.inl rfl
  | flush _ hs => cases hs <;> exact Or.inl rfl
  | close _ hs => cases hs <;> exact Or.inl rfl
  | rotator _ hs => cases hs <;> exact Or.inl rfl
  | encoder _ hs => cases hs <;> exact Or.inl rfl
  | uploader _ hs => cases hs <;> exact Or.inl rfl
  | resolver _ hs => cases hs <;> exact Or.inl rfl
  | others hs =>
      cases hs with
      | write hk hdata hnames => exact Or.inr (Or.inl ⟨_, rfl⟩)
      | object hmanifest hown hnames => exact Or.inl rfl
  | committer _ hs =>
      cases hs with
      | casApplies hphase hcall hmatch hnames =>
          exact Or.inr (Or.inr ⟨_, _, _, _, _, _, hphase, hcall, rfl, rfl⟩)
      | _ => exact Or.inl rfl

/-- The appended ordinals grow by a group that is being written. -/
theorem owned_step (hs : ProducerStep p s l t) :
    t.owned = s.owned ∨ ∃ group failed call n data version,
      s.committer.phase = .cas group failed call ∧
        call.phase = .enqueueing (.writing n data version false) ∧
        t.committer.phase = .cas group failed
          { call with phase := .enqueueing (.writing n data version true) } ∧
        t.owned = s.owned ++ ordinalsOf group := by
  rcases log_step hs with heq | ⟨items, heq⟩ |
    ⟨group, failed, call, n, data, version, hphase, hcall, hnow, heq⟩
  · refine Or.inl ?_
    rw [State.owned, heq]
    rfl
  · refine Or.inl ?_
    rw [State.owned, heq, List.filterMap_append, filterMap_others, List.append_nil]
    rfl
  · refine Or.inr ⟨group, failed, call, n, data, version, hphase, hcall, hnow, ?_⟩
    rw [State.owned, heq, List.filterMap_append, filterMap_ownedItems]
    rfl

/-- An ordinal that was appended stays in the log. -/
theorem owned_mono (hs : ProducerStep p s l t) {k : Nat} (h : k ∈ s.owned) : k ∈ t.owned := by
  rcases owned_step hs with heq | ⟨_, _, _, _, _, _, _, _, _, heq⟩ <;> rw [heq]
  · exact h
  · exact List.mem_append_left _ h

/-- What the committer has cut off or handed over stays cut off or handed over. -/
theorem CommitterStep.cut_mono (hs : CommitterStep p s l t) {b : Batch}
    (h : b ∈ s.committer.phase.inHand + handedBatches s.hist.handed) :
    b ∈ t.committer.phase.inHand + handedBatches t.hist.handed := by
  rcases Multiset.mem_add.mp h with hnow | hhanded
  · refine Multiset.mem_add.mpr (Or.inl ?_)
    cases hs with
    | gather hphase hqueue => exact hnow
    | resolveClosed hphase hclosed => exact hnow
    | cas hphase hcas =>
        rw [hphase] at hnow
        exact hnow
    | casApplies hphase hcall hmatch hnames =>
        rw [hphase] at hnow
        exact hnow
    | settle hphase hcall herr =>
        rw [hphase] at hnow
        show b ∈ handedBatches (settled _ _ _)
        rw [handedBatches_settled]
        exact hnow
    | halt hphase hcall herr hswept =>
        rw [hphase] at hnow
        show b ∈ handedBatches (haltedAll _ _ _)
        rw [handedBatches_haltedAll]
        rcases Multiset.mem_add.mp hnow with hgroup | hfailed
        · exact Multiset.mem_add.mpr (Or.inl hgroup)
        · exact Multiset.mem_add.mpr (Or.inr (Multiset.mem_add.mpr (Or.inl hfailed)))
    | notify hphase =>
        rw [hphase] at hnow
        exact hnow
    | receive hphase hhalted hqueue => exact absurd (hphase ▸ hnow) (Multiset.notMem_zero _)
    | receiveHalted hphase hhalted hqueue => exact absurd (hphase ▸ hnow) (Multiset.notMem_zero _)
    | receiveClosed hphase hqueue hclosed => exact absurd (hphase ▸ hnow) (Multiset.notMem_zero _)
    | gatherDone hphase hqueue => exact absurd (hphase ▸ hnow) (Multiset.notMem_zero _)
    | collect hphase => exact absurd (hphase ▸ hnow) (Multiset.notMem_zero _)
    | resolved hphase => exact absurd (hphase ▸ hnow) (Multiset.notMem_zero _)
  · refine Multiset.mem_add.mpr (Or.inr ?_)
    cases hs <;> exact hhanded

/-- What is cut off stays in hand or is handed over. -/
theorem cut_mono (hs : ProducerStep p s l t) {b : Batch}
    (h : b ∈ s.committer.phase.inHand + handedBatches s.hist.handed) :
    b ∈ t.committer.phase.inHand + handedBatches t.hist.handed := by
  cases hs with
  | append _ hs => cases hs <;> exact h
  | flush _ hs => cases hs <;> exact h
  | close _ hs => cases hs <;> exact h
  | rotator _ hs => cases hs <;> exact h
  | encoder _ hs => cases hs <;> exact h
  | uploader _ hs => cases hs <;> exact h
  | committer _ hs => exact hs.cut_mono h
  | others hs => cases hs <;> exact h
  | resolver _ hs =>
      cases hs with
      | @take pr left after hphase hsend hopen =>
          rw [hsend] at h
          show b ∈ handedBatches left + handedBatches (s.hist.handed ++ [pr])
          simp only [CommitterPhase.inHand, handedBatches_cons, handedBatches_append,
            handedBatches_nil, Multiset.mem_add, Multiset.mem_cons, Multiset.cons_zero,
            Multiset.mem_singleton] at h ⊢
          tauto
      | _ => exact h

/-- Where a group that is being written comes from. -/
inductive CasOrigin (p : Producer) (s t : State) (l : Label) (group : List UploadCompletion)
    (failed : List PendingResolution) (call : CasCall) : Prop
  | same (hphase : s.committer.phase = .cas group failed call) (howned : t.owned = s.owned)
  | moved {call' : CasCall} (hphase : s.committer.phase = .cas group failed call')
      (hcas : CasStep p s (group.map UploadCompletion.item) call' l call)
      (howned : t.owned = s.owned)
  | applied {call' : CasCall} {n : Nat} {data : Bytes} {version : Option Version}
      (hphase : s.committer.phase = .cas group failed call')
      (hcall : call'.phase = .enqueueing (.writing n data version false))
      (hnow : call.phase = .enqueueing (.writing n data version true))
      (howned : t.owned = s.owned ++ ordinalsOf group)
  | collected (hphase : s.committer.phase = .draining) (hne : group ≠ [])
      (hgroup : group = (collect p.batchSize s.committer.next s.committer.ready).group)
      (hfailed : failed = (collect p.batchSize s.committer.next s.committer.ready).failed)
      (hcall : call = casWithRetry p.manifestMaxAttempts (group.map UploadCompletion.item))
      (howned : t.owned = s.owned)

section Origin

variable {group : List UploadCompletion} {failed : List PendingResolution} {call : CasCall}

/-- The committer starts to write a nonempty group. -/
theorem afterCollect_cas {closed : Bool} {c : Collected}
    (h : p.afterCollect closed c = .cas group failed call) :
    group ≠ [] ∧ group = c.group ∧ failed = c.failed ∧
      call = casWithRetry p.manifestMaxAttempts (group.map UploadCompletion.item) := by
  unfold Producer.afterCollect at h
  split at h
  · split at h
    · unfold afterDrain at h
      split at h <;> cases h
    · cases h
  · rename_i hne
    cases h
    exact ⟨hne, rfl, rfl, rfl⟩

/-- Behind a resolution the committer cuts again before it writes. -/
theorem afterResolve_ne_cas {closed : Bool} {after : AfterResolve} :
    afterResolve closed after ≠ .cas group failed call := by
  cases after with
  | drainDone =>
      rw [afterResolve, afterDrain]
      split <;> simp
  | _ => simp [afterResolve]

/-- Where the committer is in a write, the group was there before, or is cut off. -/
theorem CommitterStep.cas_origin (hs : CommitterStep p s l t)
    (hphase : t.committer.phase = .cas group failed call) :
    CasOrigin p s t l group failed call := by
  cases hs with
  | gather hold hqueue => exact .same hphase rfl
  | resolveClosed hold hclosed => exact .same hphase rfl
  | collect hold =>
      obtain ⟨hne, hgroup, hfailed, hcall⟩ := afterCollect_cas hphase
      exact .collected hold hne hgroup hfailed hcall rfl
  | cas hold hcas =>
      cases hphase
      exact .moved hold hcas rfl
  | casApplies hold hcall hmatch hnames =>
      cases hphase
      refine .applied hold hcall rfl ?_
      show (s.hist.manifest.log ++ ownedItems group).filterMap Prod.fst = _
      rw [List.filterMap_append, filterMap_ownedItems]
      rfl
  | receiveClosed hold hqueue hclosed =>
      have hcas : (if s.committer.halted then CommitterPhase.exited else .draining) =
        .cas group failed call := hphase
      split at hcas <;> cases hcas
  | resolved hold => exact absurd hphase afterResolve_ne_cas
  | _ => cases hphase

/-- **Where a group comes from, in every step.** -/
theorem cas_origin (hs : ProducerStep p s l t)
    (hphase : t.committer.phase = .cas group failed call) :
    CasOrigin p s t l group failed call := by
  cases hs with
  | append _ hs => cases hs <;> exact .same hphase rfl
  | flush _ hs => cases hs <;> exact .same hphase rfl
  | close _ hs => cases hs <;> exact .same hphase rfl
  | rotator _ hs => cases hs <;> exact .same hphase rfl
  | encoder _ hs => cases hs <;> exact .same hphase rfl
  | uploader _ hs => cases hs <;> exact .same hphase rfl
  | committer _ hs => exact hs.cas_origin hphase
  | resolver _ hs =>
      cases hs with
      | take hres hsend hopen => cases hphase
      | _ => exact .same hphase rfl
  | others hs =>
      cases hs with
      | object hmanifest hown hnames => exact .same hphase rfl
      | write hk hdata hnames =>
          refine .same hphase ?_
          show (s.hist.manifest.log ++ List.map _ _).filterMap Prod.fst = _
          rw [List.filterMap_append, filterMap_others, List.append_nil]
          rfl

end Origin

/-! ## The invariant -/

structure CommitLog (s : State) : Prop where
  uploaded : ∀ uc ∈ s.committer.phase.group, uc.putError = none
  sorted : (ordinalsOf s.committer.phase.group).Pairwise (· < ·)
  /-- The appended ordinals are cut off or handed over. -/
  held : ∀ k ∈ s.owned,
    ∃ b ∈ s.committer.phase.inHand + handedBatches s.hist.handed, b.ordinal = k
  /-- They are those of the group at hand, or come before it. -/
  earlier : ∀ k ∈ s.owned, k ∈ ordinalsOf s.committer.phase.group ∨
    ∀ uc ∈ s.committer.phase.group, k < uc.eb.ordinal
  written : ∀ group failed call, s.committer.phase = .cas group failed call →
    call.phase.Applied → ∀ uc ∈ group, uc.eb.ordinal ∈ s.owned
  decided : ∀ pr, s.Decided pr → pr.err = none → pr.batch.ordinal ∈ s.owned

/-- At the head of the loop of `drain`, all appended ordinals are below the
cursor. -/
theorem CommitLog.below_next (h : CommitLog s) (hco : CommitOrder s)
    (hphase : s.committer.phase = .draining) {k : Nat} (hk : k ∈ s.owned) :
    k < s.committer.next := by
  have hhalted : s.committer.halted = false := hco.not_halted (by rw [hphase]; exact id)
  obtain ⟨b, hb, rfl⟩ := h.held k hk
  have hmem := Multiset.mem_map_of_mem Batch.ordinal hb
  rw [hco.order hhalted, Multiset.mem_coe, List.mem_range] at hmem
  exact hmem

/-- A batch without an error is in the log. -/
theorem Verdict.logged {pr : PendingResolution} (h : CommitLog s) (hv : Verdict s pr)
    (herr : pr.err = none) : pr.batch.ordinal ∈ s.owned := by
  cases hv with
  | failed hphase hready hput => cases herr
  | settled hphase hcall hor huc =>
      refine h.written _ _ _ hphase ?_ _ huc
      rw [hcall]
      exact herr
  | halted hphase hcall hne huc => cases herr
  | swept hphase hcall hne huc => cases herr
  | late hhalted huc => cases herr

/-- **Step rule for the log.** -/
theorem CommitLog.step (h : CommitLog s) (hco : CommitOrder s) (hd : Distinct s)
    (hs : ProducerStep p s l t) : CommitLog t := by
  obtain ⟨cut, hcut⟩ := collect_cutOff p.batchSize s.committer.next s.committer.ready hd.ready_nodup
  refine ⟨?_, ?_, ?_, ?_, ?_, ?_⟩
  · intro uc huc
    rcases group_step hs with heq | heq | ⟨_, heq⟩ <;> rw [heq] at huc
    · exact absurd huc List.not_mem_nil
    · exact h.uploaded uc huc
    · exact (hcut.group_mem huc).2.1
  · rcases group_step hs with heq | heq | ⟨_, heq⟩ <;> rw [heq]
    · exact List.Pairwise.nil
    · exact h.sorted
    · exact hcut.sorted
  · intro k hk
    have hold : k ∈ s.owned → ∃ b ∈ t.committer.phase.inHand + handedBatches t.hist.handed,
        b.ordinal = k := by
      intro hk
      obtain ⟨b, hb, hordinal⟩ := h.held k hk
      exact ⟨b, cut_mono hs hb, hordinal⟩
    rcases owned_step hs with heq | ⟨group, failed, call, n, data, version, hphase, _, _, heq⟩
    · exact hold (heq ▸ hk)
    · rw [heq] at hk
      rcases List.mem_append.mp hk with hk | hk
      · exact hold hk
      · obtain ⟨uc, huc, rfl⟩ := List.mem_map.mp hk
        refine ⟨uc.batch, cut_mono hs (Multiset.mem_add.mpr (Or.inl ?_)), rfl⟩
        rw [hphase]
        exact Multiset.mem_add.mpr (Or.inl (mem_batchesOf huc))
  · intro k hk
    rcases owned_step hs with
      howned | ⟨group, failed, call, n, data, version, hold, _, hnow, howned⟩
    · rw [howned] at hk
      rcases group_step hs with heq | heq | ⟨hphase, heq⟩ <;> rw [heq]
      · exact Or.inr fun uc huc => absurd huc List.not_mem_nil
      · exact h.earlier k hk
      · refine Or.inr fun uc huc => ?_
        have hlt := h.below_next hco hphase hk
        have hle := (hcut.group_mem huc).2.2
        omega
    · have hsame := h.earlier k
      rw [hold] at hsame
      rw [hnow]
      rw [howned] at hk
      rcases List.mem_append.mp hk with hk | hk
      · exact hsame hk
      · exact Or.inl hk
  · intro group failed call hphase happlied uc huc
    have hmap : group.map UploadCompletion.item ≠ [] :=
      fun hnil => absurd (List.map_eq_nil_iff.mp hnil ▸ huc) List.not_mem_nil
    cases cas_origin hs hphase with
    | same hold howned =>
        rw [howned]
        exact h.written _ _ _ hold happlied uc huc
    | moved hold hcas howned =>
        rw [howned]
        exact h.written _ _ _ hold ((hcas.applied happlied).resolve_right hmap) uc huc
    | applied hold hcall hnow howned =>
        rw [howned]
        exact List.mem_append_right _ (List.mem_map_of_mem huc)
    | collected hold hne hgroup hfailed hcall howned =>
        rw [hcall] at happlied
        exact absurd (enqueueBatch_applied happlied) hmap
  · intro pr hpr herr
    rcases decided_step hd hs hpr with hold | hnew
    · exact owned_mono hs (h.decided pr hold herr)
    · exact owned_mono hs (hnew.logged h herr)

theorem commitLog_newProducer (store : ObjectStore) (items : List EnqueueItem) :
    CommitLog (newProducer p store items) := by
  have hnone : (newProducer p store items).owned = [] := filterMap_others items
  refine ⟨fun uc huc => absurd huc List.not_mem_nil, List.Pairwise.nil, ?_, ?_, ?_, ?_⟩
  · rw [hnone]
    exact fun k hk => absurd hk List.not_mem_nil
  · rw [hnone]
    exact fun k hk => absurd hk List.not_mem_nil
  · intro group failed call hphase
    cases hphase
  · rintro pr (hnow | hhanded)
    · exact absurd hnow List.not_mem_nil
    · exact absurd hhanded List.not_mem_nil

/-- **The committer's log, in every run.** -/
theorem reachable_commitLog {allowed : State → Label → Prop} {store : ObjectStore}
    {items : List EnqueueItem} (hrun : RunWhere p allowed (newProducer p store items) s) :
    CommitLog s := by
  have hall := hrun.invariant (P := fun x => Custody x ∧ CommitOrder x ∧ CommitLog x)
    ⟨custody_newProducer store items, commitOrder_newProducer store items,
      commitLog_newProducer store items⟩
    (fun _ _ _ h _ hs => ⟨h.1.step hs, h.2.1.step h.1.conserved.distinct hs,
      h.2.2.step h.2.1 h.1.conserved.distinct hs⟩)
  exact hall.2.2

end OpenDataBuffer
