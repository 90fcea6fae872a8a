import OpenDataBuffer.CommitOrder

/-!
# The committer and the completions that arrive

The committer alone, on a manifest store without faults and without other writers:
completions arrive on `uploadCompletionCh` in some order, the channel is closed once
all have arrived, and the resolver takes the outcomes.  `Feed` is the state together
with the completions still to come, so a run starts with an arrival order, and how
the main receive and `gather` split it is a matter of the schedule.

As long as every plan of an append succeeds (`Plannable`), no error ever occurs: the
committer never retries and never halts (`Steady`), and its steps are those of
`SmoothStep`.
-/

namespace OpenDataBuffer

open LabelledRuns

/-! ## The surroundings -/

/-- The committer's state and the completions that have not arrived yet. -/
structure Feed where
  state : State
  pending : List UploadCompletion

/-- The completions that `drain` has not cut off yet. -/
def Feed.uncut (x : Feed) : List UploadCompletion :=
  x.state.committer.ready ++ (x.state.uploadCompletionCh.queue ++ x.pending)

/-- A store call for the manifest returns an error other than a failed precondition. -/
def Label.StoreFault : Label → Prop
  | .getFails => True
  | .casFails _ => True
  | _ => False

/-- What everything around the committer may do: send completions, close the
channel behind the last one, take the outcome that the committer sends, and change
whatever the committer has no part in. -/
structure CommitterEnv (p : Producer) (x y : Feed) : Prop where
  arrives : ∃ ucs, x.pending = ucs ++ y.pending ∧
    y.state.uploadCompletionCh.queue = x.state.uploadCompletionCh.queue ++ ucs
  closing : y.state.uploadCompletionCh.closed = true → y.pending = []
  closed : x.state.uploadCompletionCh.closed = true → y.state.uploadCompletionCh.closed = true
  committer : y.state.committer = x.state.committer ∧ y.state.hist.handed = x.state.hist.handed ∨
    ∃ pr left after, x.state.committer.phase = .resolving (pr :: left) after ∧
      y.state.committer = x.state.committer.at (.resolving left after) ∧
      y.state.hist.handed = x.state.hist.handed ++ [pr]
  resolver : y.state.resolverClosed = true →
    x.state.resolverClosed = true ∨ x.state.committer.phase = .exited
  object : y.state.store.objects p.config.ManifestPath = x.state.store.objects p.config.ManifestPath
  log : y.state.hist.manifest = x.state.hist.manifest

/-- A step of the committer in which the store does not fail, or a step of its
surroundings. -/
inductive FeedStep (p : Producer) (x : Feed) (l : Label) : Feed → Prop
  | own {t : State} (hs : CommitterStep p x.state l t) (hfault : ¬ l.StoreFault) :
      FeedStep p x l ⟨t, x.pending⟩
  | env {y : Feed} (hs : CommitterEnv p x y) : FeedStep p x l y

/-- The runs of the committer in any surroundings. -/
abbrev FeedRun (p : Producer) (x y : Feed) : Prop := Reach (FeedStep p) (fun _ _ => True) x y

/-! ## Where the committer can stand -/

variable {p : Producer} {x y : Feed} {s t : State} {l : Label}

/-- A `casWithRetry` call that has met no error.  A write that is under way was
planned from the manifest that is there. -/
def CasPhase.Smooth (p : Producer) (store : ObjectStore) (group : List UploadCompletion) :
    CasPhase → Prop
  | .enqueueing (.reading _) => True
  | .enqueueing (.writing _ data version applied) => applied = false →
      planAppend (group.map UploadCompletion.item) (storeGet store p.config.ManifestPath) =
        .ok (data, version)
  | .returned err => err = none
  | _ => False

/-- A committer that has met no error. -/
def CommitterPhase.Smooth (p : Producer) (store : ObjectStore) : CommitterPhase → Prop
  | .cas group _ call => group ≠ [] ∧ group.length ≤ p.batchSize ∧ call.phase.Smooth p store group
  | phase => phase.Running

/-- No error has occurred, and the channel is found closed only when all completions
have been received. -/
structure Steady (p : Producer) (x : Feed) : Prop where
  halted : x.state.committer.halted = false
  phase : x.state.committer.phase.Smooth p x.state.store
  closing : x.state.uploadCompletionCh.closed = true → x.pending = []
  closed : x.state.committer.closed = true →
    x.state.uploadCompletionCh.closed = true ∧ x.state.uploadCompletionCh.queue = []
  looking : x.state.committer.phase = .receiving ∨ x.state.committer.phase = .gathering →
    x.state.committer.closed = false
  exited : x.state.committer.phase = .exited → x.state.committer.closed = true
  resolver : x.state.resolverClosed = true → x.state.committer.phase = .exited

/-- A plan names the version that is there. -/
theorem planAppend_matches {store : ObjectStore} {path : Bytes} {items : List EnqueueItem}
    {data : Bytes} {version : Option Version}
    (h : planAppend items (storeGet store path) = .ok (data, version)) :
    store.Matches path version := by
  obtain ⟨m, m', hread, -, -⟩ := planAppend_ok h
  unfold VersionedStore.Store.Matches
  unfold storeGet at hread
  cases hobj : store.objects path with
  | none =>
      rw [hobj] at hread
      simp only [readManifest, Except.ok.injEq, Prod.mk.injEq] at hread
      exact hread.2
  | some obj =>
      rw [hobj] at hread
      simp only [readManifest, bind, Except.bind] at hread
      cases hparse : manifestFromBytes obj.data with
      | error err => simp [hparse] at hread
      | ok m =>
          simp only [hparse, pure, Except.pure, Except.ok.injEq, Prod.mk.injEq] at hread
          exact hread.2

/-- The write of the call has not been carried out yet. -/
def CasPhase.unwritten : CasPhase → Bool
  | .enqueueing (.reading _) => true
  | .enqueueing (.writing _ _ _ applied) => !applied
  | _ => false

/-- The group that is not in the manifest yet. -/
def CommitterPhase.unlogged : CommitterPhase → List UploadCompletion
  | .cas group _ call => if call.phase.unwritten then group else []
  | _ => []

/-- A call without errors goes on without errors. -/
theorem CasPhase.Smooth.step {group : List UploadCompletion} {call call' : CasCall}
    (h : call.phase.Smooth p s.store group)
    (hplan : call.phase.unwritten = true → ∃ data version,
      planAppend (group.map UploadCompletion.item) (storeGet s.store p.config.ManifestPath) =
        .ok (data, version))
    (hs : CasStep p s (group.map UploadCompletion.item) call l call') (hfault : ¬ l.StoreFault) :
    call'.phase.Smooth p s.store group ∧ call'.phase.unwritten = call.phase.unwritten := by
  cases hs with
  | get hcall =>
      rw [hcall] at hplan ⊢
      obtain ⟨data, version, hplan⟩ := hplan rfl
      rw [afterGet, hplan]
      exact ⟨fun _ => hplan, rfl⟩
  | ok hcall =>
      rw [hcall]
      exact ⟨rfl, rfl⟩
  | conflict hcall hmatch =>
      rw [hcall] at h
      exact absurd (planAppend_matches (h rfl)) hmatch
  | getFails _ _ _ => exact absurd trivial hfault
  | fails _ _ _ => exact absurd trivial hfault
  | retry hcall =>
      rw [hcall] at h
      exact h.elim
  | abandon hcall _ =>
      rw [hcall] at h
      exact h.elim

/-- A call for a nonempty group starts with a read. -/
theorem smooth_casWithRetry {group : List UploadCompletion} (hgroup : group ≠ []) (attempts : Nat)
    (store : ObjectStore) :
    (casWithRetry attempts (group.map UploadCompletion.item)).phase.Smooth p store group ∧
      (casWithRetry attempts (group.map UploadCompletion.item)).phase.unwritten = true := by
  have hlen : ¬ (group.map UploadCompletion.item).length = 0 := by
    simpa using hgroup
  rw [casWithRetry, enqueueBatch, if_neg hlen]
  exact ⟨trivial, rfl⟩

/-- Behind a cut the group is not in the manifest. -/
theorem unlogged_afterCollect (closed : Bool) (c : Collected) :
    (p.afterCollect closed c).unlogged = c.group := by
  unfold Producer.afterCollect
  by_cases hgroup : c.group = []
  · rw [if_pos hgroup, hgroup, afterDrain]
    split
    · split <;> rfl
    · rfl
  · have hcas := (smooth_casWithRetry (p := p) hgroup p.manifestMaxAttempts ⟨fun _ => none, []⟩).2
    rw [if_neg hgroup, CommitterPhase.unlogged, if_pos hcas]

/-- A committer that starts to write has met no error. -/
theorem smooth_afterCollect {closed : Bool} {c : Collected} (store : ObjectStore)
    (hlen : c.group.length ≤ p.batchSize) : (p.afterCollect closed c).Smooth p store := by
  unfold Producer.afterCollect
  by_cases hgroup : c.group = []
  · rw [if_pos hgroup, afterDrain]
    split
    · split <;> trivial
    · rfl
  · rw [if_neg hgroup]
    exact ⟨hgroup, hlen, (smooth_casWithRetry hgroup _ store).1⟩

/-- The group in hand can be planned from the manifest that is there. -/
def Plannable (p : Producer) (s : State) : Prop :=
  s.committer.phase.unlogged ≠ [] → ∃ data version,
    planAppend (s.committer.phase.unlogged.map UploadCompletion.item)
      (storeGet s.store p.config.ManifestPath) = .ok (data, version)

/-- A call whose write is still to be carried out can plan it. -/
theorem Plannable.cas {group : List UploadCompletion} {failed : List PendingResolution}
    {call : CasCall} (h : Plannable p s) (hphase : s.committer.phase = .cas group failed call)
    (hgroup : group ≠ []) (hcall : call.phase.unwritten = true) : ∃ data version,
      planAppend (group.map UploadCompletion.item) (storeGet s.store p.config.ManifestPath) =
        .ok (data, version) := by
  have hunlogged : s.committer.phase.unlogged = group := by
    rw [hphase, CommitterPhase.unlogged, if_pos hcall]
  have hplan := h
  rw [Plannable, hunlogged] at hplan
  exact hplan hgroup

/-- What a step of a committer without errors can be: it takes a completion, finds
the channel empty, cuts a run off, goes on inside `casWithRetry`, writes, or is done
with a write or with its outcomes. -/
inductive SmoothStep (p : Producer) (s : State) : State → Prop
  | takes {uc : UploadCompletion} {rest : List UploadCompletion}
      (hphase : s.committer.phase = .receiving ∨ s.committer.phase = .gathering)
      (hqueue : s.uploadCompletionCh.queue = uc :: rest) :
      SmoothStep p s
        { s with
          uploadCompletionCh := { s.uploadCompletionCh with queue := rest }
          committer :=
            { s.committer with ready := insertReady uc s.committer.ready, phase := .gathering } }
  | looks (hphase : s.committer.phase = .receiving ∨ s.committer.phase = .gathering)
      (hqueue : s.uploadCompletionCh.queue = []) :
      SmoothStep p s
        { s with committer :=
            { s.committer with closed := s.uploadCompletionCh.closed, phase := .draining } }
  | cuts {c : Collected} (hphase : s.committer.phase = .draining)
      (hcut : c = collect p.batchSize s.committer.next s.committer.ready) :
      SmoothStep p s
        { s with committer :=
            { s.committer with
              next := c.next, ready := c.ready, phase := p.afterCollect s.committer.closed c } }
  | works {group : List UploadCompletion} {failed : List PendingResolution} {call call' : CasCall}
      (hphase : s.committer.phase = .cas group failed call)
      (hsmooth : (CommitterPhase.cas group failed call').Smooth p s.store)
      (hunwritten : call'.phase.unwritten = call.phase.unwritten) :
      SmoothStep p s { s with committer := s.committer.at (.cas group failed call') }
  | writes {group : List UploadCompletion} {failed : List PendingResolution} {call call' : CasCall}
      {obj : GetResult} {version : Option Version}
      (hphase : s.committer.phase = .cas group failed call) (hgroup : group ≠ [])
      (hcall : call.phase.unwritten = true)
      (hplan : planAppend (group.map UploadCompletion.item)
        (storeGet s.store p.config.ManifestPath) = .ok (obj.data, version))
      (hcall' : ∃ n, call'.phase = .enqueueing (.writing n obj.data version true)) :
      SmoothStep p s
        { s with
          committer := s.committer.at (.cas group failed call')
          store := s.store.write p.config.ManifestPath obj
          hist := { s.hist with manifest :=
            { s.hist.manifest with log := s.hist.manifest.log ++ ownedItems group } } }
  | settles {group : List UploadCompletion} {failed : List PendingResolution} {call : CasCall}
      (hphase : s.committer.phase = .cas group failed call)
      (hcall : call.phase.unwritten = false) :
      SmoothStep p s
        { s with committer :=
            s.committer.at (.resolving (settled group failed none) .drainAgain) }
  | resolved (hphase : s.committer.phase = .resolving [] .drainAgain) :
      SmoothStep p s { s with committer := s.committer.at .draining }

/-- **A committer without errors takes steps without errors.** -/
theorem Steady.smooth {pending : List UploadCompletion} (h : Steady p ⟨s, pending⟩)
    (hplan : Plannable p s) (hs : CommitterStep p s l t) (hfault : ¬ l.StoreFault) :
    SmoothStep p s t := by
  have hsmooth : s.committer.phase.Smooth p s.store := h.phase
  have hhalted : s.committer.halted = false := h.halted
  cases hs with
  | receive hphase _ hqueue => exact .takes (Or.inl hphase) hqueue
  | receiveHalted _ hh _ => simp [hhalted] at hh
  | receiveClosed hphase hqueue hclosed =>
      have hstep := SmoothStep.looks (p := p) (Or.inl hphase) hqueue
      rw [hclosed] at hstep
      simpa [hhalted] using hstep
  | gather hphase hqueue =>
      have hstep := SmoothStep.takes (p := p) (Or.inr hphase) hqueue
      rw [← hphase] at hstep
      exact hstep
  | gatherDone hphase hqueue => exact .looks (Or.inr hphase) hqueue
  | collect hphase => exact .cuts hphase rfl
  | cas hphase hcas =>
      rw [hphase] at hsmooth
      obtain ⟨hgroup, hlen, hcall⟩ := hsmooth
      obtain ⟨hcall', hunwritten⟩ := hcall.step (hplan.cas hphase hgroup) hcas hfault
      exact .works hphase ⟨hgroup, hlen, hcall'⟩ hunwritten
  | casApplies hphase hcall _ _ =>
      rw [hphase] at hsmooth
      obtain ⟨hgroup, -, hphase'⟩ := hsmooth
      rw [hcall] at hphase'
      exact .writes hphase hgroup (by rw [hcall]; rfl) (hphase' rfl) ⟨_, rfl⟩
  | settle hphase hcall _ =>
      simp only [hphase, CommitterPhase.Smooth, hcall, CasPhase.Smooth] at hsmooth
      rw [hsmooth.2.2]
      exact .settles hphase (by rw [hcall]; rfl)
  | halt hphase hcall _ _ =>
      simp [hphase, CommitterPhase.Smooth, hcall, CasPhase.Smooth] at hsmooth
  | notify hphase => simp [hphase, CommitterPhase.Smooth, CommitterPhase.Running] at hsmooth
  | resolved hphase =>
      simp only [hphase, CommitterPhase.Smooth, CommitterPhase.Running] at hsmooth
      rw [hsmooth] at hphase ⊢
      exact .resolved hphase
  | resolveClosed hphase hclosed =>
      have hexited := h.resolver hclosed
      simp [hphase] at hexited

/-- A group has at most as many members as there is room for. -/
theorem collect_group_le (room next : Nat) (ready : List UploadCompletion) :
    (collect room next ready).group.length ≤ room := by
  induction room generalizing next ready with
  | zero => exact Nat.le_refl _
  | succ room ih =>
      unfold collect
      cases ready.find? (fun uc => uc.eb.ordinal = next) with
      | none => exact Nat.zero_le _
      | some uc =>
          have hrest := ih (next + 1) (ready.filter fun other => other.eb.ordinal ≠ next)
          cases hput : uc.putError with
          | none => simpa [hput] using hrest
          | some err => simpa [hput] using Nat.le_succ_of_le hrest

/-- A committer whose channel was closed does not look into it again. -/
theorem looking_afterCollect {closed : Bool} {c : Collected}
    (h : p.afterCollect closed c = .receiving ∨ p.afterCollect closed c = .gathering) :
    closed = false := by
  cases closed with
  | false => rfl
  | true =>
      unfold Producer.afterCollect at h
      split_ifs at h <;> rcases h with h | h <;> cases h

/-- The committer at another point of its code, with the same channel. -/
theorem Steady.moves {pending : List UploadCompletion} (h : Steady p ⟨s, pending⟩)
    {c : Committer} (hhalted : c.halted = s.committer.halted)
    (hclosed : c.closed = s.committer.closed) (hsmooth : c.phase.Smooth p s.store)
    (hlooking : c.phase = .receiving ∨ c.phase = .gathering → c.closed = false)
    (hexited : c.phase = .exited → c.closed = true) (hbusy : s.committer.phase ≠ .exited) :
    Steady p ⟨{ s with committer := c }, pending⟩ where
  halted := hhalted.trans h.halted
  phase := hsmooth
  closing := h.closing
  closed := fun hc => h.closed (hclosed.symm.trans hc)
  looking := hlooking
  exited := hexited
  resolver := fun hc => absurd (h.resolver hc) hbusy

/-- A step of the committer without a fault meets no error. -/
theorem Steady.own {pending : List UploadCompletion} (h : Steady p ⟨s, pending⟩)
    (hs : SmoothStep p s t) : Steady p ⟨t, pending⟩ := by
  have hresolver : s.resolverClosed = true → s.committer.phase = .exited := h.resolver
  cases hs with
  | takes hphase hqueue =>
      have hopen : s.committer.closed = false := h.looking hphase
      refine ⟨h.halted, trivial, h.closing, ?_, fun _ => hopen, nofun, fun hc => ?_⟩
      · intro hclosed
        simp [hopen] at hclosed
      · have hexited := hresolver hc
        rcases hphase with hphase | hphase <;> simp [hphase] at hexited
  | looks hphase hqueue =>
      refine ⟨h.halted, trivial, h.closing, fun hclosed => ⟨hclosed, hqueue⟩, nofun, nofun, ?_⟩
      intro hc
      have hexited := hresolver hc
      rcases hphase with hphase | hphase <;> simp [hphase] at hexited
  | cuts hphase hcut =>
      have hlen := collect_group_le p.batchSize s.committer.next s.committer.ready
      rw [← hcut] at hlen
      exact h.moves rfl rfl (smooth_afterCollect s.store hlen) looking_afterCollect
        exited_afterCollect (by simp [hphase])
  | works hphase hsmooth _ => exact h.moves rfl rfl hsmooth nofun nofun (by simp [hphase])
  | writes hphase hgroup _ _ hcall' =>
      obtain ⟨n, hcall'⟩ := hcall'
      have hsmooth : s.committer.phase.Smooth p s.store := h.phase
      rw [hphase] at hsmooth
      refine ⟨h.halted, ⟨hgroup, hsmooth.2.1, ?_⟩, h.closing, h.closed, nofun, nofun, fun hc => ?_⟩
      · rw [hcall']
        exact nofun
      · have hexited := hresolver hc
        simp [hphase] at hexited
  | settles hphase _ => exact h.moves rfl rfl rfl nofun nofun (by simp [hphase])
  | resolved hphase => exact h.moves rfl rfl trivial nofun nofun (by simp [hphase])

/-- A plan is about the manifest only. -/
theorem CasPhase.Smooth.of_object {store store' : ObjectStore} {group : List UploadCompletion}
    {phase : CasPhase} (h : phase.Smooth p store group)
    (hobject : store'.objects p.config.ManifestPath = store.objects p.config.ManifestPath) :
    phase.Smooth p store' group := by
  have hget : storeGet store' p.config.ManifestPath = storeGet store p.config.ManifestPath := by
    rw [storeGet, storeGet, hobject]
  cases phase with
  | enqueueing phase =>
      cases phase with
      | reading n => trivial
      | writing n data version applied =>
          intro happlied
          rw [hget]
          exact h happlied
      | returned n err => exact h
  | backoff err => exact h
  | returned err => exact h

/-- Of the store only the manifest counts. -/
theorem CommitterPhase.Smooth.of_object {store store' : ObjectStore} {phase : CommitterPhase}
    (h : phase.Smooth p store)
    (hobject : store'.objects p.config.ManifestPath = store.objects p.config.ManifestPath) :
    phase.Smooth p store' := by
  cases phase with
  | cas group failed call => exact ⟨h.1, h.2.1, h.2.2.of_object hobject⟩
  | _ => exact h

/-- The others bring no error. -/
theorem Steady.env (h : Steady p x) (hs : CommitterEnv p x y) : Steady p y := by
  obtain ⟨ucs, hpending, hqueue⟩ := hs.arrives
  have hclosed : x.state.committer.closed = true → y.state.uploadCompletionCh.closed = true ∧
      y.state.uploadCompletionCh.queue = [] := by
    intro hclosed
    obtain ⟨hch, hempty⟩ := h.closed hclosed
    have hnone : ucs = [] := by
      have hall := h.closing hch
      rw [hpending] at hall
      exact (List.append_eq_nil_iff.mp hall).1
    refine ⟨hs.closed hch, ?_⟩
    rw [hqueue, hempty, hnone]
    rfl
  rcases hs.committer with ⟨hcommitter, -⟩ | ⟨pr, left, after, hphase, hcommitter, -⟩
  · constructor
    · rw [hcommitter]
      exact h.halted
    · rw [hcommitter]
      exact h.phase.of_object hs.object
    · exact hs.closing
    · rw [hcommitter]
      exact hclosed
    · rw [hcommitter]
      exact h.looking
    · rw [hcommitter]
      exact h.exited
    · rw [hcommitter]
      exact fun hc => (hs.resolver hc).elim h.resolver id
  · have hsmooth := h.phase
    rw [hphase] at hsmooth
    have hbusy : x.state.committer.phase ≠ .exited := by simp [hphase]
    constructor
    · rw [hcommitter]
      exact h.halted
    · rw [hcommitter]
      exact hsmooth
    · exact hs.closing
    · rw [hcommitter]
      exact hclosed
    · rw [hcommitter]
      exact nofun
    · rw [hcommitter]
      exact nofun
    · exact fun hc => absurd ((hs.resolver hc).elim h.resolver id) hbusy

end OpenDataBuffer
