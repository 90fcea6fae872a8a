import OpenDataBuffer.LedgerRefinement

/-!
# The outcomes the committer decides on

Every batch gets its outcome from the committer.  `Verdict` lists the five ways
in which that happens, with what the committer knew; `decided_step` says that
there are no others.  Statements about outcomes are proved from this list.
-/

namespace OpenDataBuffer

/-- The outcomes the committer has decided on and not handed over. -/
def CommitterPhase.decided : CommitterPhase → List PendingResolution
  | .cas _ failed _ => failed
  | .notifying left => left
  | .resolving left _ => left
  | _ => []

/-- An outcome that is decided on, handed over or not. -/
def State.Decided (s : State) (pr : PendingResolution) : Prop :=
  pr ∈ s.committer.phase.decided ∨ pr ∈ s.hist.handed

/-- What the committer decides on in one step. -/
inductive Verdict (s : State) : PendingResolution → Prop
  /-- A batch without an object keeps its own error. -/
  | failed {uc : UploadCompletion} {err : BufferError} (hphase : s.committer.phase = .draining)
      (hready : uc ∈ s.committer.ready) (hput : uc.putError = some err) :
      Verdict s (failedResolution uc err)
  /-- A group is committed, or given up because of shutdown. -/
  | settled {group : List UploadCompletion} {failed : List PendingResolution} {call : CasCall}
      {err : Option BufferError} {uc : UploadCompletion}
      (hphase : s.committer.phase = .cas group failed call) (hcall : call.phase = .returned err)
      (herr : err = none ∨ err = some .shutdown) (huc : uc ∈ group) :
      Verdict s ⟨uc, err, groupOutcome err⟩
  /-- A group halts the producer. -/
  | halted {group : List UploadCompletion} {failed : List PendingResolution} {call : CasCall}
      {err : BufferError} {uc : UploadCompletion}
      (hphase : s.committer.phase = .cas group failed call)
      (hcall : call.phase = .returned (some err)) (herr : err ≠ .shutdown) (huc : uc ∈ group) :
      Verdict s (haltedResolution .manifestFailed uc)
  /-- What waits in `ready` when the producer halts is given up. -/
  | swept {group : List UploadCompletion} {failed : List PendingResolution} {call : CasCall}
      {err : BufferError} {uc : UploadCompletion}
      (hphase : s.committer.phase = .cas group failed call)
      (hcall : call.phase = .returned (some err)) (herr : err ≠ .shutdown)
      (huc : uc ∈ s.committer.ready) : Verdict s (haltedResolution .abandoned uc)
  /-- What arrives at a halted committer is given up. -/
  | late {uc : UploadCompletion} (hhalted : s.committer.halted = true)
      (huc : uc ∈ s.uploadCompletionCh.queue) : Verdict s (haltedResolution .abandoned uc)

variable {p : Producer} {s t : State} {l : Label} {pr : PendingResolution}

/-- Behind a cut the failed batches are decided on. -/
theorem decided_afterCollect (closed : Bool) (c : Collected) :
    (p.afterCollect closed c).decided = c.failed := by
  unfold Producer.afterCollect
  by_cases hgroup : c.group = []
  · rw [if_pos hgroup]
    by_cases hfailed : c.failed = []
    · rw [if_pos hfailed, hfailed, afterDrain]
      split <;> rfl
    · rw [if_neg hfailed]
      rfl
  · rw [if_neg hgroup]
    rfl

theorem decided_afterResolve (closed : Bool) (after : AfterResolve) :
    (afterResolve closed after).decided = [] := by
  cases after with
  | drainDone =>
      rw [afterResolve, afterDrain]
      split <;> rfl
  | _ => rfl

/-- The committer decides as `Verdict` says. -/
theorem CommitterStep.decided (hd : Distinct s) (hs : CommitterStep p s l t) (h : t.Decided pr) :
    s.Decided pr ∨ Verdict s pr := by
  rcases h with hnow | hhanded
  · cases hs with
    | receive hphase hhalted hqueue => exact absurd hnow List.not_mem_nil
    | receiveHalted hphase hhalted hqueue =>
        obtain rfl := List.mem_singleton.mp hnow
        exact Or.inr (.late hhalted (hqueue ▸ List.mem_cons_self))
    | receiveClosed hphase hqueue hclosed =>
        have hnone : CommitterPhase.decided (if s.committer.halted then .exited else .draining) =
            [] := by split <;> rfl
        exact absurd (hnone ▸ hnow) List.not_mem_nil
    | gather hphase hqueue => exact Or.inl (Or.inl hnow)
    | gatherDone hphase hqueue => exact absurd hnow List.not_mem_nil
    | collect hphase =>
        have hfailed : pr ∈ (OpenDataBuffer.collect p.batchSize s.committer.next
            s.committer.ready).failed := (decided_afterCollect _ _) ▸ hnow
        obtain ⟨cut, hcut⟩ :=
          collect_cutOff p.batchSize s.committer.next s.committer.ready hd.ready_nodup
        obtain ⟨hready, err, hput, hpr⟩ := hcut.failed_mem hfailed
        rw [hpr]
        exact Or.inr (.failed hphase hready hput)
    | cas hphase hcas =>
        exact Or.inl (Or.inl (by rw [hphase]; exact hnow))
    | casApplies hphase hcall hmatch hnames =>
        exact Or.inl (Or.inl (by rw [hphase]; exact hnow))
    | settle hphase hcall herr =>
        rcases List.mem_append.mp hnow with hgroup | hfailed
        · obtain ⟨uc, huc, rfl⟩ := List.mem_map.mp hgroup
          exact Or.inr (.settled hphase hcall herr huc)
        · exact Or.inl (Or.inl (by rw [hphase]; exact hfailed))
    | halt hphase hcall herr hswept =>
        rcases List.mem_append.mp hnow with hgroup | hrest
        · obtain ⟨uc, huc, rfl⟩ := List.mem_map.mp hgroup
          exact Or.inr (.halted hphase hcall herr huc)
        · rcases List.mem_append.mp hrest with hfailed | hready
          · exact Or.inl (Or.inl (by rw [hphase]; exact hfailed))
          · obtain ⟨uc, huc, rfl⟩ := List.mem_map.mp hready
            exact Or.inr (.swept hphase hcall herr (hswept.mem_iff.mp huc))
    | notify hphase => exact Or.inl (Or.inl (by rw [hphase]; exact hnow))
    | resolved hphase =>
        exact absurd (decided_afterResolve s.committer.closed _ ▸ hnow) List.not_mem_nil
    | resolveClosed hphase hclosed => exact Or.inl (Or.inl hnow)
  · refine Or.inl (Or.inr ?_)
    cases hs <;> exact hhanded

theorem ResolverStep.decided (hs : ResolverStep p s l t) (h : t.Decided pr) : s.Decided pr := by
  cases hs with
  | take hphase hsend hopen =>
      rcases h with hnow | hhanded
      · exact Or.inl (by rw [hsend]; exact List.mem_cons_of_mem _ hnow)
      · rcases List.mem_append.mp hhanded with hold | hnew
        · exact Or.inr hold
        · obtain rfl := List.mem_singleton.mp hnew
          exact Or.inl (by rw [hsend]; exact List.mem_cons_self)
  | _ => exact h

/-- **Every outcome is one of the verdicts.** -/
theorem decided_step (hd : Distinct s) (hs : ProducerStep p s l t) (h : t.Decided pr) :
    s.Decided pr ∨ Verdict s pr := by
  cases hs with
  | append _ hs => cases hs <;> exact Or.inl h
  | flush _ hs => cases hs <;> exact Or.inl h
  | close _ hs => cases hs <;> exact Or.inl h
  | rotator _ hs => cases hs <;> exact Or.inl h
  | encoder _ hs => cases hs <;> exact Or.inl h
  | uploader _ hs => cases hs <;> exact Or.inl h
  | committer _ hs => exact hs.decided hd h
  | resolver _ hs => exact Or.inl (hs.decided h)
  | others hs => cases hs <;> exact Or.inl h

/-- **Rule for outcomes**: what every verdict has, every outcome has. -/
theorem reachable_decided {P : PendingResolution → Prop} {allowed : State → Label → Prop}
    {store : ObjectStore} {items : List EnqueueItem}
    (hverdict : ∀ x pr, Verdict x pr → P pr)
    (hrun : RunWhere p allowed (newProducer p store items) s) (h : s.Decided pr) : P pr := by
  have hboth := hrun.invariant (P := fun x => Custody x ∧ ∀ pr, x.Decided pr → P pr)
    ⟨custody_newProducer store items, ?_⟩ ?_
  · exact hboth.2 pr h
  · rintro pr (hnow | hhanded)
    · exact absurd hnow List.not_mem_nil
    · exact absurd hhanded List.not_mem_nil
  · rintro x _ y ⟨hc, hall⟩ _ hs
    refine ⟨hc.step hs, fun pr hpr => ?_⟩
    rcases decided_step hc.conserved.distinct hs hpr with hold | hnew
    · exact hall pr hold
    · exact hverdict x pr hnew

/-- A batch counts as committed exactly if it has no error. -/
theorem Verdict.committed_iff (h : Verdict s pr) : pr.outcome = .committed ↔ pr.err = none := by
  cases h with
  | failed hphase hready hput =>
      unfold failedResolution
      split <;> simp
  | settled hphase hcall herr huc =>
      unfold groupOutcome
      split <;> simp_all
  | halted hphase hcall herr huc => simp [haltedResolution]
  | swept hphase hcall herr huc => simp [haltedResolution]
  | late hhalted huc => simp [haltedResolution]

end OpenDataBuffer
