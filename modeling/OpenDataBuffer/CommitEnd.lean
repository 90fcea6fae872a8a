import OpenDataBuffer.Confluence
import OpenDataBuffer.Progress

/-!
# Every run of the committer can end

From every state of a run without faults the committer can be brought to its exit:
whatever is on its way can be moved on, and every move lowers `Feed.potential`.
-/

namespace OpenDataBuffer

open LabelledRuns

variable {p : Producer} {x y : Feed} {s t : State} {l : Label}

/-- How far a call is from its return. -/
def CasPhase.remaining : CasPhase → Nat
  | .enqueueing (.reading _) => 3
  | .enqueueing (.writing _ _ _ false) => 2
  | .enqueueing (.writing _ _ _ true) => 1
  | _ => 0

/-- What the committer has to do before it receives again. -/
def CommitterPhase.remaining : CommitterPhase → Nat
  | .receiving => 1
  | .draining => 2
  | .gathering => 3
  | .cas group failed call => (settled group failed none).length + 4 + call.phase.remaining
  | .resolving left _ => left.length + 3
  | .notifying _ => 0
  | .exited => 0

/-- What is left to do: a completion has to arrive, to be received and to be cut off,
and the channel has to be closed and found closed. -/
def Feed.potential (x : Feed) : Nat :=
  20 * x.pending.length + 15 * x.state.uploadCompletionCh.queue.length +
    10 * x.state.committer.ready.length + x.state.committer.phase.remaining +
    (if x.state.uploadCompletionCh.closed then 0 else 5) +
    (if x.state.committer.closed then 0 else 5)

/-- Something can happen that brings the end closer. -/
def Nearer (p : Producer) (x : Feed) : Prop := ∃ l y, FeedStep p x l y ∧ y.potential < x.potential

/-- A step of the committer itself brings the end nearer. -/
theorem Nearer.of_own {pending : List UploadCompletion}
    (hs : CommitterStep p s (.moves .committer) t)
    (hless : Feed.potential ⟨t, pending⟩ < Feed.potential ⟨s, pending⟩) : Nearer p ⟨s, pending⟩ :=
  ⟨_, ⟨t, pending⟩, .own hs id, hless⟩

/-- The committer alone gets ahead. -/
theorem Nearer.of_phase {pending : List UploadCompletion}
    (hs : FeedStep p ⟨s, pending⟩ l ⟨t, pending⟩)
    (hchannel : t.uploadCompletionCh = s.uploadCompletionCh)
    (hready : t.committer.ready = s.committer.ready)
    (hclosed : t.committer.closed = s.committer.closed)
    (hless : t.committer.phase.remaining < s.committer.phase.remaining) :
    Nearer p ⟨s, pending⟩ := by
  refine ⟨l, _, hs, ?_⟩
  simp only [Feed.potential, hchannel, hready, hclosed]
  omega

/-- The map grows by at most one. -/
theorem insertReady_length_le (uc : UploadCompletion) (ready : List UploadCompletion) :
    (insertReady uc ready).length ≤ ready.length + 1 :=
  Nat.succ_le_succ (List.length_filter_le _ _)

/-- At the main receive: something arrives, is received, or the channel is closed. -/
theorem Steady.nearer_receiving {pending : List UploadCompletion} (h : Steady p ⟨s, pending⟩)
    (hphase : s.committer.phase = .receiving) : Nearer p ⟨s, pending⟩ := by
  have hhalted : s.committer.halted = false := h.halted
  have hopen : s.committer.closed = false := h.looking (Or.inl hphase)
  cases hqueue : s.uploadCompletionCh.queue with
  | cons uc rest =>
      refine .of_own (.receive hphase hhalted hqueue) ?_
      have hlen := insertReady_length_le uc s.committer.ready
      simp only [Feed.potential, hqueue, hphase, CommitterPhase.remaining, List.length_cons]
      omega
  | nil =>
      cases hclosed : s.uploadCompletionCh.closed with
      | true =>
          refine .of_own (.receiveClosed hphase hqueue hclosed) ?_
          simp [Feed.potential, hqueue, hphase, CommitterPhase.remaining, hhalted, hopen, hclosed]
      | false =>
          cases pending with
          | cons uc rest =>
              let t : State := { s with uploadCompletionCh := ⟨[uc], false⟩ }
              have henv : CommitterEnv p ⟨s, uc :: rest⟩ ⟨t, rest⟩ := by
                refine ⟨⟨[uc], rfl, ?_⟩, nofun, ?_, Or.inl ⟨rfl, rfl⟩, Or.inl, rfl, rfl⟩
                · simp [t, hqueue]
                · simp [hclosed]
              refine ⟨.call, _, .env henv, ?_⟩
              simp [Feed.potential, t, hqueue, hclosed]
              omega
          | nil =>
              let t : State := { s with uploadCompletionCh := ⟨[], true⟩ }
              have henv : CommitterEnv p ⟨s, []⟩ ⟨t, []⟩ := by
                refine ⟨⟨[], rfl, ?_⟩, fun _ => rfl, fun _ => rfl, Or.inl ⟨rfl, rfl⟩, Or.inl,
                  rfl, rfl⟩
                simp [t, hqueue]
              refine ⟨.call, _, .env henv, ?_⟩
              simp [Feed.potential, t, hqueue, hclosed]

/-- The committer takes what is in the channel, or goes on to `drain`. -/
theorem Steady.nearer_gathering {pending : List UploadCompletion} (h : Steady p ⟨s, pending⟩)
    (hphase : s.committer.phase = .gathering) : Nearer p ⟨s, pending⟩ := by
  have hopen : s.committer.closed = false := h.looking (Or.inr hphase)
  cases hqueue : s.uploadCompletionCh.queue with
  | cons uc rest =>
      refine .of_own (.gather hphase hqueue) ?_
      have hlen := insertReady_length_le uc s.committer.ready
      simp only [Feed.potential, hqueue, List.length_cons]
      omega
  | nil =>
      refine .of_own (.gatherDone hphase hqueue) ?_
      cases hclosed : s.uploadCompletionCh.closed <;>
        simp [Feed.potential, hqueue, hphase, CommitterPhase.remaining, hopen, hclosed]

/-- What is left to do behind a cut, by the size of the cut. -/
theorem remaining_afterCollect (closed : Bool) (c : Collected) :
    (p.afterCollect closed c).remaining ≤ 7 * (settled c.group c.failed none).length + 1 := by
  unfold Producer.afterCollect
  by_cases hgroup : c.group = []
  · by_cases hfailed : c.failed = []
    · rw [if_pos hgroup, if_pos hfailed]
      cases closed with
      | true => exact Nat.zero_le _
      | false => exact Nat.le_add_left _ _
    · have hpos := List.length_pos_iff.mpr hfailed
      rw [if_pos hgroup, if_neg hfailed]
      simp only [CommitterPhase.remaining, settled, List.length_append]
      omega
  · have hpos := List.length_pos_iff.mpr hgroup
    have hcall : (casWithRetry p.manifestMaxAttempts
        (c.group.map UploadCompletion.item)).phase.remaining ≤ 3 := by
      unfold CasPhase.remaining
      split <;> omega
    rw [if_neg hgroup]
    simp only [CommitterPhase.remaining, settled, List.length_append, List.length_map] at hcall ⊢
    omega

section Draining

variable {batches : List UploadCompletion} (hord : ordinalsOf batches = List.range batches.length)

include hord

/-- Cutting a run off leaves less to do, and so does finding none. -/
theorem Delivery.nearer {pending : List UploadCompletion} (h : Delivery batches ⟨s, pending⟩)
    (hphase : s.committer.phase = .draining) : Nearer p ⟨s, pending⟩ := by
  obtain ⟨cut, -, -, hrun, -⟩ := h.cut hord p.batchSize
  refine .of_own (.collect hphase) ?_
  have hremaining := remaining_afterCollect (p := p) s.committer.closed
    (collect p.batchSize s.committer.next s.committer.ready)
  have hsettled := (settled_perm cut).length_eq
  rw [← hrun.group, ← hrun.failed, List.length_map] at hsettled
  rw [hsettled] at hremaining
  have hready : (collect p.batchSize s.committer.next s.committer.ready).ready.length +
      cut.length = s.committer.ready.length := by
    have htaken := hrun.taken.length_eq
    rw [List.length_append] at htaken
    exact (Nat.add_comm _ _).trans htaken.symm
  have hdraining : s.committer.phase.remaining = 2 := by
    rw [hphase]
    rfl
  simp only [Feed.potential, hdraining]
  omega

end Draining

/-- A call of a committer without errors goes on. -/
theorem Steady.nearer_cas {pending : List UploadCompletion} (h : Steady p ⟨s, pending⟩)
    {group : List UploadCompletion} {failed : List PendingResolution} {call : CasCall}
    (hphase : s.committer.phase = .cas group failed call)
    (hplan : Plannable p s) : Nearer p ⟨s, pending⟩ := by
  have hsmooth : s.committer.phase.Smooth p s.store := h.phase
  rw [hphase] at hsmooth
  obtain ⟨hgroup, -, hcall⟩ := hsmooth
  cases hat : call.phase with
  | enqueueing phase =>
      cases phase with
      | reading n =>
          obtain ⟨data, version, hplan⟩ := hplan.cas hphase hgroup (by rw [hat]; rfl)
          refine .of_phase (.own (.cas hphase (.get hat)) id) rfl rfl rfl ?_
          simp [hphase, CommitterPhase.remaining, hat, afterGet, hplan, Producer.settleCas,
            CasCall.settle, CasPhase.remaining]
      | writing n data version applied =>
          cases applied with
          | true =>
              refine .of_phase (.own (.cas hphase (.ok hat)) id) rfl rfl rfl ?_
              simp [hphase, CommitterPhase.remaining, hat, afterPut, Producer.settleCas,
                CasCall.settle, CasPhase.remaining]
          | false =>
              rw [hat] at hcall
              obtain ⟨tag, hnames⟩ := exists_names s.store p.config.ManifestPath data
              have hstep := @CommitterStep.casApplies p s group failed call n ⟨data, tag⟩ version
                hphase hat (planAppend_matches (hcall rfl)) hnames
              refine .of_phase (.own hstep id) rfl rfl rfl ?_
              simp [hphase, CommitterPhase.remaining, hat, CasPhase.remaining]
      | returned n err =>
          rw [hat] at hcall
          exact hcall.elim
  | backoff err =>
      rw [hat] at hcall
      exact hcall.elim
  | returned err =>
      rw [hat] at hcall
      obtain rfl : err = none := hcall
      refine .of_phase (.own (.settle hphase hat (Or.inl rfl)) id) rfl rfl rfl ?_
      simp [hphase, CommitterPhase.remaining, hat, CasPhase.remaining]

/-- An outcome is taken by the resolver, or the committer goes on. -/
theorem Steady.nearer_resolving {pending : List UploadCompletion} (h : Steady p ⟨s, pending⟩)
    {left : List PendingResolution} {after : AfterResolve}
    (hphase : s.committer.phase = .resolving left after) : Nearer p ⟨s, pending⟩ := by
  have hsmooth : s.committer.phase.Smooth p s.store := h.phase
  rw [hphase] at hsmooth
  obtain rfl : after = .drainAgain := hsmooth
  cases left with
  | nil =>
      refine .of_phase (.own (.resolved hphase) id) rfl rfl rfl ?_
      simp [hphase, CommitterPhase.remaining, afterResolve]
  | cons pr left =>
      let t : State :=
        { s with
          committer := s.committer.at (.resolving left .drainAgain)
          hist := { s.hist with handed := s.hist.handed ++ [pr] } }
      have henv : CommitterEnv p ⟨s, pending⟩ ⟨t, pending⟩ :=
        ⟨⟨[], rfl, (List.append_nil _).symm⟩, h.closing, id,
          Or.inr ⟨pr, left, _, hphase, rfl, rfl⟩, Or.inl, rfl, rfl⟩
      refine .of_phase (.env (l := .call) henv) rfl rfl rfl ?_
      simp [t, hphase, CommitterPhase.remaining]

section InOrder

variable {m : ManifestStart} {batches : List UploadCompletion}

/-- **The end comes nearer,** wherever the committer stands. -/
theorem InOrder.nearer (hord : ordinalsOf batches = List.range batches.length)
    (hw : Writable m (uploaded batches)) (h : InOrder p m batches x)
    (hbusy : x.state.committer.phase ≠ .exited) : Nearer p x := by
  obtain ⟨s, pending⟩ := x
  obtain ⟨logged, hrec⟩ := h.recorded
  cases hphase : s.committer.phase with
  | receiving => exact h.steady.nearer_receiving hphase
  | gathering => exact h.steady.nearer_gathering hphase
  | draining => exact h.delivery.nearer hord hphase
  | cas group failed call => exact h.steady.nearer_cas hphase (hrec.plannable hw)
  | notifying left =>
      have hsmooth : s.committer.phase.Smooth p s.store := h.steady.phase
      rw [hphase] at hsmooth
      exact hsmooth.elim
  | resolving left after => exact h.steady.nearer_resolving hphase
  | exited => exact absurd hphase hbusy

/-- **The committer can always be brought to its exit.** -/
theorem InOrder.exits (hord : ordinalsOf batches = List.range batches.length)
    (hw : Writable m (uploaded batches)) (h : InOrder p m batches x) :
    ∃ y, FeedRun p x y ∧ y.state.committer.phase = .exited := by
  have hnearer : ∀ z, InOrder p m batches z → ¬ z.state.committer.phase = .exited →
      ∃ l y, True ∧ FeedStep p z l y ∧ InOrder p m batches y ∧ y.potential < z.potential := by
    intro z hz hbusy
    obtain ⟨l, y, hs, hless⟩ := hz.nearer hord hw hbusy
    exact ⟨l, y, trivial, hs, hz.step hord hw hs, hless⟩
  obtain ⟨y, hrun, -, hexited⟩ := Reach.exists_final Feed.potential hnearer h
  exact ⟨y, hrun, hexited⟩

end InOrder

end OpenDataBuffer
