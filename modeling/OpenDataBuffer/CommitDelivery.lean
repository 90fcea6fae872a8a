import OpenDataBuffer.CommitFeed

/-!
# Completions on their way through the committer

The completions of the ordinals `0 .. n-1` are given in order, as a list; the cursor
`next` of the committer cuts it in two.  What lies behind the cursor is on its way
(`Delivery.waiting`), what lies before it has its outcome (`Delivery.results`), and
`drain` moves a run of completions from one side to the other (`collect_cut`), in
order, whatever the order in which they arrived.
-/

namespace OpenDataBuffer

variable {p : Producer} {x y : Feed} {s t : State} {l : Label}

/-! ## What `drain` cuts off, in order -/

/-- Uploaded batches are selected one by one. -/
@[simp] theorem uploaded_append (xs ys : List UploadCompletion) :
    uploaded (xs ++ ys) = uploaded xs ++ uploaded ys := by
  simp [uploaded]

/-- More completions, more uploaded batches. -/
theorem uploaded_subset {xs ys : List UploadCompletion} (h : xs ⊆ ys) :
    uploaded xs ⊆ uploaded ys := by
  intro uc huc
  obtain ⟨hmem, hput⟩ := List.mem_filter.mp huc
  exact List.mem_filter.mpr ⟨h hmem, hput⟩

/-- A group and the failed ordinals around it have, together, the outcomes of the
run they were cut from. -/
theorem settled_perm (cut : List UploadCompletion) :
    (settled (uploaded cut) (refused cut) none).Perm (cut.map UploadCompletion.resolution) := by
  have hgroup : (uploaded cut).map (fun uc => (⟨uc, none, groupOutcome none⟩ : PendingResolution))
      = (uploaded cut).map UploadCompletion.resolution := by
    apply List.map_congr_left
    intro uc huc
    have hput : uc.putError = none := by simpa using (List.mem_filter.mp huc).2
    simp [UploadCompletion.resolution, hput, groupOutcome]
  rw [settled, hgroup, refused, ← List.map_append]
  exact (List.filter_append_perm _ cut).map _

/-- Numbered completions are told apart by their ordinals. -/
theorem nodup_of_numbered {xs : List UploadCompletion} {next : Nat}
    (hord : ordinalsOf xs = List.range' next xs.length) : (ordinalsOf xs).Nodup := by
  rw [hord]
  exact List.nodup_range'

/-- The completion of the first ordinal stands first. -/
theorem first_of_numbered {xs : List UploadCompletion} {next : Nat} {uc : UploadCompletion}
    (hord : ordinalsOf xs = List.range' next xs.length) (hmem : uc ∈ xs)
    (hnext : uc.eb.ordinal = next) :
    ∃ rest, xs = uc :: rest ∧ ordinalsOf rest = List.range' (next + 1) rest.length := by
  cases xs with
  | nil => cases hmem
  | cons x rest =>
      have hnodup := nodup_of_numbered hord
      rw [List.length_cons, List.range'_succ] at hord
      obtain ⟨hx, hrest⟩ := List.cons.inj hord
      rcases List.mem_cons.mp hmem with rfl | hlater
      · exact ⟨rest, rfl, hrest⟩
      · have hin : x.eb.ordinal ∈ ordinalsOf rest := by
          have heq : x.eb.ordinal = uc.eb.ordinal := hx.trans hnext.symm
          rw [heq]
          exact List.mem_map_of_mem hlater
        exact absurd hin (List.nodup_cons.mp hnodup).1

/-- The completions in the map are told apart by their ordinals. -/
theorem nodup_ready {ready others xs : List UploadCompletion} {next : Nat}
    (hperm : (ready ++ others).Perm xs) (hord : ordinalsOf xs = List.range' next xs.length) :
    (ordinalsOf ready).Nodup := by
  have hall : (ordinalsOf (ready ++ others)).Nodup :=
    (hperm.map _).nodup_iff.mpr (nodup_of_numbered hord)
  rw [ordinalsOf, List.map_append] at hall
  exact hall.of_append_left

/-- A numbered run among numbered completions that start where it starts is their
first part. -/
theorem numbered_start {cut : List UploadCompletion} {next : Nat}
    (hcut : ordinalsOf cut = List.range' next cut.length) {xs : List UploadCompletion}
    (hord : ordinalsOf xs = List.range' next xs.length) (hsub : cut ⊆ xs) :
    ∃ rest, xs = cut ++ rest := by
  induction cut generalizing next xs with
  | nil => exact ⟨xs, rfl⟩
  | cons uc cut ih =>
      have hnodup := nodup_of_numbered hcut
      rw [List.length_cons, List.range'_succ] at hcut
      obtain ⟨huc, hcut⟩ := List.cons.inj hcut
      obtain ⟨later, rfl, hlater⟩ := first_of_numbered hord (hsub List.mem_cons_self) huc
      have hsub' : cut ⊆ later := by
        intro other hother
        rcases List.mem_cons.mp (hsub (List.mem_cons_of_mem _ hother)) with rfl | hin
        · exact absurd (List.mem_map_of_mem hother) (List.nodup_cons.mp hnodup).1
        · exact hin
      obtain ⟨rest, rfl⟩ := ih hcut hlater hsub'
      exact ⟨rest, rfl⟩

/-- **What `drain` cuts off** is the first part of the completions that are not cut
off yet, in the order of their ordinals, whatever the order in the map. -/
theorem collect_cut (room next : Nat) (ready others xs : List UploadCompletion)
    (hperm : (ready ++ others).Perm xs) (hord : ordinalsOf xs = List.range' next xs.length) :
    ∃ cut rest, xs = cut ++ rest ∧ CutOff room next ready cut (collect room next ready) ∧
      ((collect room next ready).ready ++ others).Perm rest := by
  obtain ⟨cut, hcut⟩ := collect_cutOff room next ready (nodup_ready hperm hord)
  obtain ⟨rest, rfl⟩ := numbered_start hcut.numbered hord
    fun uc huc => hperm.subset (List.mem_append_left _ (hcut.cut_mem huc))
  refine ⟨cut, rest, rfl, hcut, (List.perm_append_left_iff cut).mp ?_⟩
  rw [← List.append_assoc]
  exact (hcut.taken.append_right others).symm.trans hperm

/-! ## The flow of completions -/

/-- The outcomes that the committer holds, those of a group taken to be written. -/
def CommitterPhase.due : CommitterPhase → List PendingResolution
  | .cas group failed _ => settled group failed none
  | .resolving left _ => left
  | _ => []

/-- What a step does to the completions and their outcomes. -/
inductive FeedFlow (p : Producer) (x y : Feed) : Prop
  | rests (hnext : y.state.committer.next = x.state.committer.next)
      (hready : y.state.committer.ready = x.state.committer.ready)
      (harrives : ∃ ucs, x.pending = ucs ++ y.pending ∧
        y.state.uploadCompletionCh.queue = x.state.uploadCompletionCh.queue ++ ucs)
      (hresults : y.state.hist.handed ++ y.state.committer.phase.due =
        x.state.hist.handed ++ x.state.committer.phase.due)
      (hidle : y.state.committer.phase.Idle → x.state.committer.phase.Idle)
  | receives (uc : UploadCompletion)
      (hqueue : x.state.uploadCompletionCh.queue = uc :: y.state.uploadCompletionCh.queue)
      (hready : y.state.committer.ready = insertReady uc x.state.committer.ready)
      (hnext : y.state.committer.next = x.state.committer.next) (hpending : y.pending = x.pending)
      (hresults : y.state.hist.handed ++ y.state.committer.phase.due =
        x.state.hist.handed ++ x.state.committer.phase.due)
      (hbusy : ¬ y.state.committer.phase.Idle)
  | cuts {c : Collected}
      (hcut : c = collect p.batchSize x.state.committer.next x.state.committer.ready)
      (hdraining : x.state.committer.phase = .draining)
      (hnext : y.state.committer.next = c.next) (hready : y.state.committer.ready = c.ready)
      (hphase : y.state.committer.phase = p.afterCollect x.state.committer.closed c)
      (hqueue : y.state.uploadCompletionCh.queue = x.state.uploadCompletionCh.queue)
      (hpending : y.pending = x.pending) (hhanded : y.state.hist.handed = x.state.hist.handed)

theorem CommitterEnv.flow (hs : CommitterEnv p x y) : FeedFlow p x y := by
  rcases hs.committer with ⟨hcommitter, hhanded⟩ | ⟨pr, left, after, hphase, hcommitter, hhanded⟩
  · refine .rests ?_ ?_ hs.arrives ?_ ?_
    · rw [hcommitter]
    · rw [hcommitter]
    · rw [hcommitter, hhanded]
    · rw [hcommitter]
      exact id
  · refine .rests ?_ ?_ hs.arrives ?_ ?_
    · rw [hcommitter]
      rfl
    · rw [hcommitter]
      rfl
    · rw [hcommitter, hhanded, hphase, List.append_assoc]
      rfl
    · rw [hcommitter]
      exact fun hidle => by rcases hidle with h | h <;> cases h

/-- The committer is in the middle of its work. -/
theorem not_idle {phase : CommitterPhase} (hr : phase ≠ .receiving) (he : phase ≠ .exited) :
    ¬ phase.Idle := fun hidle => hidle.elim hr he

theorem SmoothStep.flow (pending : List UploadCompletion) (hs : SmoothStep p s t) :
    FeedFlow p ⟨s, pending⟩ ⟨t, pending⟩ := by
  have hrests : t.uploadCompletionCh.queue = s.uploadCompletionCh.queue →
      t.committer.next = s.committer.next → t.committer.ready = s.committer.ready →
      t.hist.handed = s.hist.handed → t.committer.phase.due = s.committer.phase.due →
      ¬ t.committer.phase.Idle → FeedFlow p ⟨s, pending⟩ ⟨t, pending⟩ := by
    intro hqueue hnext hready hhanded hdue hbusy
    exact .rests hnext hready ⟨[], rfl, by simp [hqueue]⟩ (by simp [hhanded, hdue])
      fun hidle => absurd hidle hbusy
  cases hs with
  | takes hphase hqueue =>
      refine .receives _ hqueue rfl rfl rfl ?_ (not_idle nofun nofun)
      rcases hphase with hphase | hphase <;> simp [hphase, CommitterPhase.due]
  | looks hphase hqueue =>
      refine hrests rfl rfl rfl rfl ?_ (not_idle nofun nofun)
      rcases hphase with hphase | hphase <;> simp [hphase, CommitterPhase.due]
  | cuts hphase hcut => exact .cuts hcut hphase rfl rfl rfl rfl rfl rfl
  | works hphase _ _ =>
      exact hrests rfl rfl rfl rfl (by simp [hphase, CommitterPhase.due]) (not_idle nofun nofun)
  | writes hphase _ _ _ _ =>
      exact hrests rfl rfl rfl rfl (by simp [hphase, CommitterPhase.due]) (not_idle nofun nofun)
  | settles hphase _ =>
      exact hrests rfl rfl rfl rfl (by simp [hphase, CommitterPhase.due]) (not_idle nofun nofun)
  | resolved hphase =>
      exact hrests rfl rfl rfl rfl (by simp [hphase, CommitterPhase.due]) (not_idle nofun nofun)

/-- The completions of the ordinals `0 .. n-1` on their way: those behind the cursor
are in the map, in the channel or still to come, those before it have an outcome. -/
structure Delivery (batches : List UploadCompletion) (x : Feed) : Prop where
  within : x.state.committer.next ≤ batches.length
  waiting : x.uncut.Perm (batches.drop x.state.committer.next)
  results : (x.state.hist.handed ++ x.state.committer.phase.due).Perm
    ((batches.take x.state.committer.next).map UploadCompletion.resolution)
  idle : x.state.committer.phase.Idle → x.state.committer.next ∉ ordinalsOf x.state.committer.ready

/-- Behind a cut the outcomes of the run are due. -/
theorem due_afterCollect (closed : Bool) (c : Collected) :
    (p.afterCollect closed c).due = settled c.group c.failed none := by
  unfold Producer.afterCollect
  by_cases hgroup : c.group = []
  · by_cases hfailed : c.failed = []
    · rw [if_pos hgroup, if_pos hfailed, hgroup, hfailed, afterDrain]
      split <;> rfl
    · rw [if_pos hgroup, if_neg hfailed, hgroup]
      rfl
  · rw [if_neg hgroup]
    rfl

/-- The completions before the cursor, with a run cut off behind it. -/
theorem take_add_cut {batches cut rest : List UploadCompletion} {next : Nat}
    (hsplit : batches.drop next = cut ++ rest) :
    batches.take (next + cut.length) = batches.take next ++ cut := by
  rw [List.take_add, hsplit, List.take_left]

section Delivery

variable {batches : List UploadCompletion} (hord : ordinalsOf batches = List.range batches.length)

include hord

/-- The completions behind the cursor are numbered from it. -/
theorem numbered_drop (k : Nat) :
    ordinalsOf (batches.drop k) = List.range' k (batches.drop k).length := by
  rw [ordinalsOf, List.map_drop, ← ordinalsOf, hord, List.length_drop, List.range_eq_range',
    List.drop_range']
  simp

/-- The completions that are not cut off are told apart by their ordinals. -/
theorem Delivery.nodup (h : Delivery batches x) : (ordinalsOf x.uncut).Nodup :=
  (h.waiting.map _).nodup_iff.mpr (nodup_of_numbered (numbered_drop hord _))

/-- What the committer would cut off next. -/
theorem Delivery.cut (h : Delivery batches x) (room : Nat) :
    ∃ cut rest, batches.drop x.state.committer.next = cut ++ rest ∧
      CutOff room x.state.committer.next x.state.committer.ready cut
        (collect room x.state.committer.next x.state.committer.ready) ∧
      ((collect room x.state.committer.next x.state.committer.ready).ready ++
        (x.state.uploadCompletionCh.queue ++ x.pending)).Perm rest :=
  collect_cut room _ _ _ _ h.waiting (numbered_drop hord _)

/-- **Step rule for the delivery.** -/
theorem Delivery.step (h : Delivery batches x) (hs : FeedFlow p x y) : Delivery batches y := by
  cases hs with
  | rests hnext hready harrives hresults hidle =>
      obtain ⟨ucs, hpending, hqueue⟩ := harrives
      have huncut : y.uncut = x.uncut := by
        simp [Feed.uncut, hready, hqueue, hpending]
      refine ⟨hnext ▸ h.within, ?_, ?_, ?_⟩
      · rw [huncut, hnext]
        exact h.waiting
      · rw [hresults, hnext]
        exact h.results
      · rw [hnext, hready]
        exact fun hy => h.idle (hidle hy)
  | receives uc hqueue hready hnext hpending hresults hbusy =>
      have hnew : uc.eb.ordinal ∉ ordinalsOf x.state.committer.ready := by
        have hnodup := h.nodup hord
        rw [Feed.uncut, hqueue, ordinalsOf, List.map_append] at hnodup
        intro hmem
        exact List.disjoint_of_nodup_append hnodup hmem List.mem_cons_self
      have huncut : y.uncut.Perm x.uncut := by
        rw [Feed.uncut, Feed.uncut, hready, insertReady_of_not_mem hnew, hqueue, hpending]
        exact List.perm_middle.symm
      refine ⟨hnext ▸ h.within, ?_, ?_, fun hy => absurd hy hbusy⟩
      · rw [hnext]
        exact huncut.trans h.waiting
      · rw [hresults, hnext]
        exact h.results
  | cuts hcut hdraining hnext hready hphase hqueue hpending hhanded =>
      obtain ⟨cut, rest, hsplit, hrun, hleft⟩ := h.cut hord p.batchSize
      rw [← hcut] at hrun hleft
      have hlen : x.state.committer.next + cut.length ≤ batches.length := by
        have hlen := congrArg List.length hsplit
        rw [List.length_drop, List.length_append] at hlen
        have := h.within
        omega
      have hrest : batches.drop (x.state.committer.next + cut.length) = rest := by
        rw [← List.drop_drop, hsplit, List.drop_left]
      refine ⟨?_, ?_, ?_, ?_⟩
      · rw [hnext, hrun.next]
        exact hlen
      · rw [Feed.uncut, hready, hqueue, hpending, hnext, hrun.next, hrest]
        exact hleft
      · rw [hnext, hrun.next, take_add_cut hsplit, hhanded, hphase, due_afterCollect, hrun.group,
          hrun.failed, List.map_append]
        have hbefore := h.results
        simp only [hdraining, CommitterPhase.due, List.append_nil] at hbefore
        exact hbefore.append (settled_perm cut)
      · intro hidle
        rw [hphase] at hidle
        obtain ⟨hgroup, hfailed⟩ := idle_afterCollect hidle
        rw [hnext, hready]
        exact hrun.stops hgroup hfailed (atLeastOne_pos _)

end Delivery

end OpenDataBuffer
