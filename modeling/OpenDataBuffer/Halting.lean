import OpenDataBuffer.ExactlyOnce
import OpenDataBuffer.Waiting

/-!
# A halt is terminal and complete

`casWithRetry` that returns an error other than `ErrShutdown` halts the producer.
The halt is found at one place, inside `drain`, while batches are everywhere: in
the group at hand, among the failed ordinals around it, in `ready`, in the
completion channel, with the uploaders, the encoders and the rotator.

`HaltedSince` says what holds from that moment on, in every later state of every
run: nothing more is written, the observer is told once, new calls are turned away,
and every batch without an outcome gets one, exactly once.
-/

namespace OpenDataBuffer

open LabelledRuns

variable {p : Producer} {s t : State} {l : Label}

/-! ## The report of the halt -/

/-- The observer is about to be told. -/
def CommitterPhase.notifies : CommitterPhase → Bool
  | .notifying _ => true
  | _ => false

/-- How often a halt was reported. -/
def State.haltReports (s : State) : Nat := s.hist.events.count (.OnHalted true)

/-- Other reports are no reports of a halt. -/
theorem count_observes (e : ObserverEvent) (hne : e ≠ .OnHalted true) :
    (p.observes e).count (.OnHalted true) = 0 := by
  unfold Producer.observes
  split <;> simp [hne]

theorem notifies_afterDrain (closed : Bool) : (afterDrain closed).notifies = false := by
  unfold afterDrain
  split <;> rfl

theorem notifies_afterCollect (closed : Bool) (c : Collected) :
    (p.afterCollect closed c).notifies = false := by
  unfold Producer.afterCollect
  split
  · split
    · exact notifies_afterDrain closed
    · rfl
  · rfl

theorem notifies_afterResolve (closed : Bool) (after : AfterResolve) :
    (afterResolve closed after).notifies = false := by
  cases after with
  | drainDone => exact notifies_afterDrain closed
  | _ => rfl

/-- What a step does about the report. -/
inductive Reports (p : Producer) (s t : State) : Prop
  | same (hreports : t.haltReports = s.haltReports) (hhalted : t.halted = s.halted)
      (hnotifies : t.committer.phase.notifies = s.committer.phase.notifies)
  | halts (hreports : t.haltReports = s.haltReports) (hcas : ¬ s.committer.phase.Stopped)
      (hnotifies : t.committer.phase.notifies = true)
  | reports (hreports : t.haltReports = s.haltReports + (p.observes (.OnHalted true)).length)
      (hhalted : t.halted = s.halted) (hbefore : s.committer.phase.notifies = true)
      (hnotifies : t.committer.phase.notifies = false)

/-- The committer reports a halt right behind it. -/
theorem CommitterStep.reports (hs : CommitterStep p s l t) : Reports p s t := by
  cases hs with
  | receive hphase hhalted hqueue => exact .same rfl rfl (by rw [hphase]; rfl)
  | receiveHalted hphase hhalted hqueue => exact .same rfl rfl (by rw [hphase]; rfl)
  | receiveClosed hphase hqueue hclosed =>
      refine .same rfl rfl ?_
      show CommitterPhase.notifies (if s.committer.halted then .exited else .draining) = _
      rw [hphase]
      split <;> rfl
  | gather hphase hqueue => exact .same rfl rfl rfl
  | gatherDone hphase hqueue => exact .same rfl rfl (by rw [hphase]; rfl)
  | collect hphase =>
      refine .same rfl rfl ?_
      rw [hphase]
      exact notifies_afterCollect _ _
  | cas hphase hcas => exact .same rfl rfl (by rw [hphase]; rfl)
  | casApplies hphase hcall hmatch hnames => exact .same rfl rfl (by rw [hphase]; rfl)
  | settle hphase hcall herr => exact .same rfl rfl (by rw [hphase]; rfl)
  | halt hphase hcall herr hswept => exact .halts rfl (by rw [hphase]; exact id) rfl
  | notify hphase =>
      refine .reports ?_ rfl (by rw [hphase]; rfl) rfl
      have hall : (p.observes (.OnHalted true)).count (.OnHalted true) =
          (p.observes (.OnHalted true)).length := by
        unfold Producer.observes
        split <;> simp
      rw [← hall]
      exact List.count_append
  | resolved hphase =>
      refine .same rfl rfl ?_
      rw [hphase]
      exact notifies_afterResolve _ _
  | resolveClosed hphase hclosed => exact .same rfl rfl rfl

/-- Only the committer reports a halt. -/
theorem reports_step (hs : ProducerStep p s l t) : Reports p s t := by
  cases hs with
  | append _ hs =>
      cases hs with
      | finish hcall hphase =>
          refine .same ?_ rfl rfl
          show (s.hist.events ++ p.observes .OnAccepted).count _ = _
          rw [List.count_append, count_observes _ (by simp)]
          rfl
      | _ => exact .same rfl rfl rfl
  | committer _ hs => exact hs.reports
  | resolver _ hs =>
      cases hs with
      | take hphase hsend hopen => exact .same rfl rfl (by rw [hsend]; rfl)
      | @observe ri hphase =>
          refine .same ?_ rfl rfl
          show (s.hist.events ++ (p.observes (.OnFlush ri.reason ri.stats ri.err) ++
            p.observes (.OnBatchOutcome ri.outcome))).count _ = _
          rw [List.count_append, List.count_append, count_observes _ (by simp),
            count_observes _ (by simp)]
          rfl
      | _ => exact .same rfl rfl rfl
  | flush _ hs => cases hs <;> exact .same rfl rfl rfl
  | close _ hs => cases hs <;> exact .same rfl rfl rfl
  | rotator _ hs => cases hs <;> exact .same rfl rfl rfl
  | encoder _ hs => cases hs <;> exact .same rfl rfl rfl
  | uploader _ hs => cases hs <;> exact .same rfl rfl rfl
  | others hs => cases hs <;> exact .same rfl rfl rfl

/-- A halt is reported once, right behind it. -/
def HaltReported (p : Producer) (s : State) : Prop :=
  s.haltReports =
    if s.halted = true ∧ s.committer.phase.notifies = false then
      (p.observes (.OnHalted true)).length
    else 0

/-- A committer that is about to report has halted. -/
theorem CommitOrder.halted_of_notifies (h : CommitOrder s)
    (hnotifies : s.committer.phase.notifies = true) : s.halted = true := by
  rw [h.mirror]
  refine h.is_halted fun hrunning => ?_
  cases hphase : s.committer.phase with
  | notifying left => rw [hphase] at hrunning; exact hrunning
  | _ => rw [hphase] at hnotifies; cases hnotifies

/-- **Step rule for the report.** -/
theorem HaltReported.step (h : HaltReported p s) (hco : CommitOrder s)
    (hs : ProducerStep p s l t) : HaltReported p t := by
  unfold HaltReported at h ⊢
  cases reports_step hs with
  | same hreports hhalted hnotifies => rw [hreports, hhalted, hnotifies, h]
  | halts hreports hcas hnotifies =>
      have hrunning : s.halted = false := hco.mirror.trans (hco.not_halted hcas)
      rw [hreports, h, hrunning, hnotifies]
      simp
  | reports hreports hhalted hbefore hnotifies =>
      rw [hreports, h, hhalted, hco.halted_of_notifies hbefore, hbefore, hnotifies]
      simp

/-! ## Groups and drops -/

/-- The group at hand has members, and the failed ordinals around it have errors of
their own. -/
structure ProperGroup (s : State) : Prop where
  nonempty : ∀ group failed call, s.committer.phase = .cas group failed call → group ≠ []
  failed : ∀ group failed call, s.committer.phase = .cas group failed call →
    ∀ pr ∈ failed, ∃ err, pr.uc.putError = some err ∧ pr.err = some err

/-- **Step rule for the group.** -/
theorem ProperGroup.step (h : ProperGroup s) (hd : Distinct s) (hs : ProducerStep p s l t) :
    ProperGroup t := by
  refine ⟨fun group failed call hphase => ?_, fun group failed call hphase pr hpr => ?_⟩
  · cases cas_origin hs hphase with
    | same hold howned => exact h.nonempty _ _ _ hold
    | moved hold hcas howned => exact h.nonempty _ _ _ hold
    | applied hold hcall hnow howned => exact h.nonempty _ _ _ hold
    | collected hold hne hgroup hfailed hcall howned => exact hne
  · cases cas_origin hs hphase with
    | same hold howned => exact h.failed _ _ _ hold pr hpr
    | moved hold hcas howned => exact h.failed _ _ _ hold pr hpr
    | applied hold hcall hnow howned => exact h.failed _ _ _ hold pr hpr
    | collected hold hne hgroup hfailed hcall howned =>
        obtain ⟨cut, hcut⟩ :=
          collect_cutOff p.batchSize s.committer.next s.committer.ready hd.ready_nodup
        rw [hfailed] at hpr
        obtain ⟨_, err, hput, hres⟩ := hcut.failed_mem hpr
        exact ⟨err, hput, by rw [hres]; rfl⟩

/-- The rotator drops a batch only on a forced `Close`. -/
structure ForcedDrops (s : State) : Prop where
  dropping : ∀ reason ack, s.rotator.phase = .dropping reason ack → s.shutdown = true
  dropped : ∀ msgs ∈ droppedOf s.hist.cuts, s.shutdown = true

/-- A forced `Close` is not taken back. -/
theorem shutdown_mono (hs : ProducerStep p s l t) (hshutdown : s.shutdown = true) :
    t.shutdown = true := by
  cases hs with
  | close _ hs => cases hs <;> first | exact hshutdown | rfl
  | append _ hs => cases hs <;> exact hshutdown
  | flush _ hs => cases hs <;> exact hshutdown
  | rotator _ hs => cases hs <;> exact hshutdown
  | encoder _ hs => cases hs <;> exact hshutdown
  | uploader _ hs => cases hs <;> exact hshutdown
  | committer _ hs => cases hs <;> exact hshutdown
  | resolver _ hs => cases hs <;> exact hshutdown
  | others hs => cases hs <;> exact hshutdown

/-- A batch that is dropped was about to be. -/
theorem dropped_step (hs : ProducerStep p s l t) {msgs : List AppendMessage}
    (h : msgs ∈ droppedOf t.hist.cuts) :
    msgs ∈ droppedOf s.hist.cuts ∨ ∃ reason ack, s.rotator.phase = .dropping reason ack := by
  cases hs with
  | rotator _ hs =>
      cases hs with
      | drop hphase => exact Or.inr ⟨_, _, hphase⟩
      | reconcile hphase => exact Or.inl (by simpa [droppedOf, Cut.drop?] using h)
      | _ => exact Or.inl h
  | append _ hs => cases hs <;> exact Or.inl h
  | flush _ hs => cases hs <;> exact Or.inl h
  | close _ hs => cases hs <;> exact Or.inl h
  | encoder _ hs => cases hs <;> exact Or.inl h
  | uploader _ hs => cases hs <;> exact Or.inl h
  | committer _ hs => cases hs <;> exact Or.inl h
  | resolver _ hs => cases hs <;> exact Or.inl h
  | others hs => cases hs <;> exact Or.inl h

/-- **Step rule for drops.**  The rotator refuses a batch only when the shutdown channel
is closed. -/
theorem ForcedDrops.step (h : ForcedDrops s) (hs : ProducerStep p s l t) : ForcedDrops t := by
  refine ⟨fun reason ack hphase => ?_, fun msgs hmsgs => ?_⟩
  · cases rotator_step hs with
    | same hrotator =>
        rw [hrotator] at hphase
        exact shutdown_mono hs (h.dropping reason ack hphase)
    | plain hplain =>
        rw [hphase] at hplain
        exact hplain.elim
    | refused hshutdown hnow => exact shutdown_mono hs hshutdown
    | emits hnow hordinal => cases hnow.symm.trans hphase
  · rcases dropped_step hs hmsgs with hold | ⟨reason, ack, hphase⟩
    · exact shutdown_mono hs (h.dropped msgs hold)
    · exact shutdown_mono hs (h.dropping reason ack hphase)

/-! ## All runs -/

structure Halting (p : Producer) (s : State) : Prop where
  reported : HaltReported p s
  group : ProperGroup s
  drops : ForcedDrops s

/-- The three invariants hold in every run. -/
theorem reachable_halting {allowed : State → Label → Prop} {store : ObjectStore}
    {items : List EnqueueItem} (hrun : RunWhere p allowed (newProducer p store items) s) :
    Halting p s := by
  have hall := hrun.invariant (P := fun x => Custody x ∧ CommitOrder x ∧ Halting p x) ?_ ?_
  · exact hall.2.2
  · refine ⟨custody_newProducer store items, commitOrder_newProducer store items, rfl, ?_, ?_⟩
    · exact ⟨nofun, nofun⟩
    · exact ⟨nofun, fun _ hmsgs => absurd hmsgs List.not_mem_nil⟩
  · rintro x l y ⟨hc, hco, hh⟩ _ hs
    have hd := hc.conserved.distinct
    exact ⟨hc.step hs, hco.step hd hs, hh.reported.step hco hs, hh.group.step hd hs,
      hh.drops.step hs⟩

/-! ## After the halt -/

/-- A halted committer has no group at hand. -/
theorem CommitOrder.no_cas (h : CommitOrder s) (hhalted : s.halted = true)
    (group : List UploadCompletion) (failed : List PendingResolution) (call : CasCall) :
    s.committer.phase ≠ .cas group failed call := by
  intro hphase
  have hstopped := (h.stopped (h.mirror.symm.trans hhalted)).1
  rw [hphase] at hstopped
  exact hstopped

/-- A halted committer decides on one thing only. -/
theorem Verdict.of_halted {pr : PendingResolution} (hv : Verdict s pr) (hco : CommitOrder s)
    (hhalted : s.halted = true) : pr.err = some .producerHalted := by
  cases hv with
  | failed hphase hready hput =>
      have hstopped := (hco.stopped (hco.mirror.symm.trans hhalted)).1
      rw [hphase] at hstopped
      exact hstopped.elim
  | settled hphase hcall herr huc => exact absurd hphase (hco.no_cas hhalted _ _ _)
  | halted hphase hcall herr huc => exact absurd hphase (hco.no_cas hhalted _ _ _)
  | swept hphase hcall herr huc => exact absurd hphase (hco.no_cas hhalted _ _ _)
  | late hh huc => rfl

/-- The calls that begin after the halt are turned away. -/
def TurnedAway (n : Nat) (s : State) : Prop :=
  ∀ (i : Nat) (c : AppendCall), n ≤ i → s.appends[i]? = some c → c.entries ≠ [] →
    c.phase = .entered ∨ c.phase = .returned (some .producerHalted)

/-- A call that begins after the halt meets the flag at its entry. -/
theorem TurnedAway.step {n : Nat} (h : TurnedAway n s) (hhalted : s.halted = true)
    (hs : ProducerStep p s l t) : TurnedAway n t := by
  intro i c hi hcall hne
  cases call_step hs hcall with
  | same hold => exact h i c hi hold hne
  | begun hnew hphase => exact Or.inl hphase
  | @moved c₀ hold hmove =>
      have hbefore := h i c₀ hi hold (by rw [← hmove.entries]; exact hne)
      -- a call that is turned away makes one move, the check on entry
      cases hmove with
      | ctxDone text hctx => exact hbefore
      | check hphase =>
          right
          have hne₀ : c₀.entries ≠ [] := hne
          simp [appendEntry, hhalted, hne₀]
      | _ => simp_all

/-- What holds in a state `t` after a halt in `s`, at which `failed` were the failed
ordinals around the group. -/
structure HaltedSince (p : Producer) (failed : List PendingResolution) (s t : State) : Prop where
  halted : t.halted = true
  /-- There is no `casWithRetry` any more, so no `PutIfMatch`. -/
  noCas : ∀ group failed call, t.committer.phase ≠ .cas group failed call
  log : t.owned = s.owned
  /-- The observer is told once, and it is the committer's next step. -/
  reported : p.config.Observer = true →
    t.haltReports = 1 ∨ t.haltReports = 0 ∧ ∃ left, t.committer.phase = .notifying left ∧
      (t.panicked = none → ∃ u, ProducerStep p t (.moves .committer) u ∧ u.haltReports = 1)
  /-- A new call accepts nothing and returns `ErrProducerHalted`. -/
  calls : ∀ (i : Nat) (c : AppendCall), s.appends.length ≤ i → t.appends[i]? = some c →
    c.entries ≠ [] → (∀ m ∈ t.hist.accepted, m.watcher ≠ i) ∧
      (c.phase = .returned (some .producerHalted) ∨ c.phase = .entered ∧
        (t.panicked = none → ∃ u, ProducerStep p t (.moves .append) u ∧
          u.appends[i]? = some (c.at (.returned (some .producerHalted)))))
  outcomes : ∀ pr ∈ t.hist.handed, pr ∈ s.hist.handed ∨ pr.err = some .producerHalted ∨
    pr ∈ failed ∧ ∃ err, pr.uc.putError = some err ∧ pr.err = some err
  watchers : ∀ w e, t.watcherResult w = some e →
    (∃ pr ∈ s.hist.handed, w ∈ pr.batch.watchers ∧ e = pr.err) ∨ e = some .producerHalted ∨
    (∃ pr ∈ failed, w ∈ pr.batch.watchers ∧ ∃ err, pr.uc.putError = some err ∧ e = some err) ∨
    (∃ msgs ∈ droppedOf t.hist.cuts, w ∈ msgs.map AppendMessage.watcher ∧ e = some .shutdown ∧
      t.shutdown = true)
  once : TerminatesOnce t
  ended : t.resolver = .exited → AllTerminated t

/-- What a run after the halt keeps. -/
structure AfterHalt (s t : State) : Prop where
  order : CommitOrder t
  custody : Custody t
  halted : t.halted = true
  log : t.owned = s.owned
  calls : TurnedAway s.appends.length t
  decided : ∀ pr, t.Decided pr → s.Decided pr ∨ pr.err = some .producerHalted

/-- **Step rule behind a halt.** -/
theorem AfterHalt.step {u : State} (h : AfterHalt s t) (hs : ProducerStep p t l u) :
    AfterHalt s u where
  order := h.order.step h.custody.conserved.distinct hs
  custody := h.custody.step hs
  halted := halted_mono hs h.halted
  log := by
    rcases owned_step hs with hsame | ⟨_, _, _, _, _, _, hphase, _⟩
    · exact hsame.trans h.log
    · exact absurd hphase (h.order.no_cas h.halted _ _ _)
  calls := h.calls.step h.halted hs
  decided := by
    intro pr hpr
    rcases decided_step h.custody.conserved.distinct hs hpr with hold | hnew
    · exact h.decided pr hold
    · exact Or.inr (hnew.of_halted h.order h.halted)

/-- **A halt is for good.** -/
theorem RunWhere.afterHalt {allowed : State → Label → Prop} (hrun : RunWhere p allowed s t)
    (hco : CommitOrder s) (hc : Custody s) (hhalted : s.halted = true) : AfterHalt s t := by
  refine hrun.invariant (P := AfterHalt s) ⟨hco, hc, hhalted, rfl, ?_, fun _ => Or.inl⟩ ?_
  · intro i c hi hcall
    rw [List.getElem?_eq_none hi] at hcall
    cases hcall
  · intro x l y h _ hs
    exact h.step hs

/-- What the halt leaves to be handed over. -/
theorem mem_haltedAll {group swept : List UploadCompletion} {failed : List PendingResolution}
    {pr : PendingResolution} (h : pr ∈ haltedAll group failed swept) :
    pr ∈ failed ∨ pr.err = some .producerHalted := by
  rcases List.mem_append.mp h with hgroup | hrest
  · obtain ⟨uc, _, rfl⟩ := List.mem_map.mp hgroup
    exact Or.inr rfl
  · rcases List.mem_append.mp hrest with hfailed | hswept
    · exact Or.inl hfailed
    · obtain ⟨uc, _, rfl⟩ := List.mem_map.mp hswept
      exact Or.inr rfl

/-- A report that is due is the next step of the committer. -/
theorem HaltReported.due (h : HaltReported p s) (hobserver : p.config.Observer = true)
    (hhalted : s.halted = true) :
    s.haltReports = 1 ∨ s.haltReports = 0 ∧ ∃ left, s.committer.phase = .notifying left ∧
      (s.panicked = none → ∃ u, ProducerStep p s (.moves .committer) u ∧ u.haltReports = 1) := by
  have hone : p.observes (.OnHalted true) = [.OnHalted true] := if_pos hobserver
  unfold HaltReported at h
  rw [hone] at h
  cases hphase : s.committer.phase with
  | notifying left =>
      rw [hphase] at h
      have hzero : s.haltReports = 0 := by simpa [CommitterPhase.notifies] using h
      refine Or.inr ⟨hzero, left, rfl, fun hrun => ⟨_, .committer hrun (.notify hphase), ?_⟩⟩
      show (s.hist.events ++ p.observes (.OnHalted true)).count _ = 1
      have hcount : s.hist.events.count (.OnHalted true) = 0 := hzero
      rw [hone, List.count_append, hcount]
      simp
  | _ =>
      rw [hphase, hhalted] at h
      exact Or.inl h

/-- A call that is turned away returns with its next step. -/
theorem returns_halted {i : Nat} {c : AppendCall} (hhalted : s.halted = true)
    (hcall : s.appends[i]? = some c) (hne : c.entries ≠ []) (hphase : c.phase = .entered)
    (hrun : s.panicked = none) :
    ∃ u, ProducerStep p s (.moves .append) u ∧
      u.appends[i]? = some (c.at (.returned (some .producerHalted))) := by
  refine ⟨_, .append hrun (.check hcall hphase), ?_⟩
  have hentry : appendEntry s.halted c.entries = .returned (some .producerHalted) := by
    simp [appendEntry, hhalted, hne]
  rw [hentry]
  exact ListUpdate.getElem?_set_same hcall

/-- A call that is turned away has not sent. -/
theorem TurnedAway.not_accepted {n i : Nat} {c : AppendCall} (h : TurnedAway n s)
    (ha : AppendCalls s) (hi : n ≤ i) (hcall : s.appends[i]? = some c) (hne : c.entries ≠ []) :
    ∀ m ∈ s.hist.accepted, m.watcher ≠ i := by
  rintro m hm rfl
  obtain ⟨c', hc', _, hsent⟩ := ha.accepted m hm
  obtain rfl : c' = c := Option.some.inj (hc'.symm.trans hcall)
  rcases h _ _ hi hcall hne with hphase | hphase <;> rw [AppendPhase.Sent, hphase] at hsent <;>
    simp at hsent

/-- What is handed over after a halt that left `haltedAll`. -/
theorem AfterHalt.outcome {group swept : List UploadCompletion} {failed : List PendingResolution}
    {pr : PendingResolution} (h : AfterHalt s t)
    (hnow : s.committer.phase = .notifying (haltedAll group failed swept))
    (hpr : pr ∈ t.hist.handed) :
    pr ∈ s.hist.handed ∨ pr.err = some .producerHalted ∨ pr ∈ failed := by
  rcases h.decided pr (Or.inr hpr) with (hleft | hold) | hgiven
  · rw [hnow] at hleft
    rcases mem_haltedAll hleft with hfailed | hgiven
    · exact Or.inr (Or.inr hfailed)
    · exact Or.inr (Or.inl hgiven)
  · exact Or.inl hold
  · exact Or.inr (Or.inl hgiven)

/-- **A halt is terminal and complete.**  A step that halts the producer is one of
the committer, whose `casWithRetry` has returned an error other than `ErrShutdown`
for a group of uploaded batches; and what `HaltedSince` lists holds in every state
after it. -/
theorem halt_is_terminal {store : ObjectStore} {items : List EnqueueItem} {r : State}
    (hbefore : Run p (newProducer p store items) r) (hstep : ProducerStep p r l s)
    (hrunning : r.halted = false) (hhalted : s.halted = true) :
    ∃ group failed call err, l = .moves .committer ∧
      r.committer.phase = .cas group failed call ∧ call.phase = .returned (some err) ∧
      err ≠ .shutdown ∧ group ≠ [] ∧ (∀ uc ∈ group, uc.putError = none) ∧
      ∀ t, Run p s t → HaltedSince p failed s t := by
  have hrun : Run p (newProducer p store items) s := hbefore.tail trivial hstep
  rcases halted_step hstep with hsame | ⟨group, failed, call, err, swept, hlabel, hphase, hcall,
    herr, _, _, _, hnow⟩
  · rw [hrunning, hhalted] at hsame
    cases hsame
  have hgroup := (reachable_halting hbefore).group
  have huploaded := (reachable_commitLog hbefore).uploaded
  rw [hphase] at huploaded
  refine ⟨group, failed, call, err, hlabel, hphase, hcall, herr, hgroup.nonempty _ _ _ hphase,
    huploaded, fun t hafter => ?_⟩
  have ht := hafter.afterHalt (reachable_commitOrder hrun) (reachable_custody hrun) hhalted
  have hrun' := hrun.trans hafter
  have hb := reachable_books hrun'
  have ha := reachable_appendCalls hrun'
  have hh := reachable_halting hrun'
  have houtcomes : ∀ pr ∈ t.hist.handed, pr ∈ s.hist.handed ∨ pr.err = some .producerHalted ∨
      pr ∈ failed ∧ ∃ err, pr.uc.putError = some err ∧ pr.err = some err := by
    intro pr hpr
    rcases ht.outcome hnow hpr with hold | hgiven | hfailed
    · exact Or.inl hold
    · exact Or.inr (Or.inl hgiven)
    · exact Or.inr (Or.inr ⟨hfailed, hgroup.failed _ _ _ hphase pr hfailed⟩)
  refine
    { halted := ht.halted
      noCas := ht.order.no_cas ht.halted
      log := ht.log
      reported := fun hobserver => hh.reported.due hobserver ht.halted
      calls := ?_
      outcomes := houtcomes
      watchers := ?_
      once := reachable_terminatesOnce hrun'
      ended := reachable_allTerminated hrun' }
  · intro i c hi hc hne
    refine ⟨ht.calls.not_accepted ha hi hc hne, ?_⟩
    rcases ht.calls i c hi hc hne with hentered | hreturned
    · exact Or.inr ⟨hentered, returns_halted ht.halted hc hne hentered⟩
    · exact Or.inl hreturned
  · intro w e hw
    rcases hb.conserved.of_resolved ((watcherResult_iff hb ha).mp hw) with
      ⟨pr, hpr, hmem, rfl⟩ | ⟨msgs, hmsgs, hmem, rfl⟩
    · rcases houtcomes pr hpr with hold | hgiven | ⟨hfailed, err, hput, herr'⟩
      · exact Or.inl ⟨pr, hold, hmem, rfl⟩
      · exact Or.inr (Or.inl hgiven)
      · exact Or.inr (Or.inr (Or.inl ⟨pr, hfailed, hmem, err, hput, herr'⟩))
    · exact Or.inr (Or.inr (Or.inr ⟨msgs, hmsgs, hmem, rfl, hh.drops.dropped msgs hmsgs⟩))

/-- Both attempts at the manifest have failed. -/
def sampleRefused : State :=
  { sampleCommitting with
    committer := sampleCommitting.committer.at
      (.cas [sampleCompletion] [] ⟨1, 0, .returned (some (storageErr "timeout"))⟩) }

def sampleHalted : State :=
  { sampleRefused with
    halted := true
    committer := ⟨1, [], true, false, .notifying (haltedAll [sampleCompletion] [] [])⟩ }

/-- The manifest cannot be written, twice. -/
theorem sample_refuses : Run sampleProducer sampleStart sampleRefused := by
  have hrun := sample_committing.run
    |>.tail trivial (.committer rfl (.cas rfl (.getFails (.other "timeout") rfl (by decide))))
    |>.tail trivial (.committer rfl (.cas rfl (.retry rfl)))
    |>.tail trivial (.committer rfl (.cas rfl (.getFails (.other "timeout") rfl (by decide))))
  exact hrun

/-- After the last attempt the committer halts. -/
theorem sample_halts :
    ProducerStep sampleProducer sampleRefused (.moves .committer) sampleHalted := by
  have hstep := CommitterStep.halt (p := sampleProducer) (s := sampleRefused) rfl rfl
    (by decide : storageErr "timeout" ≠ .shutdown) (List.Perm.refl [])
  exact .committer rfl hstep

/-- A halt of the sample producer, and the run to its end. -/
theorem halt_is_terminal_sample :
    sampleRefused.halted = false ∧ sampleHalted.halted = true ∧
      ∃ t, Run sampleProducer sampleHalted t ∧ t.halted = true ∧ t.owned = [] ∧
        t.haltReports = 1 ∧ t.watcherResult 0 = some (some .producerHalted) := by
  obtain ⟨_, _, _, _, _, _, _, _, _, _, hsince⟩ :=
    halt_is_terminal sample_refuses sample_halts rfl rfl
  have hafter := (Reach.refl : Run sampleProducer sampleHalted sampleHalted)
    |>.tail trivial (.committer rfl (.notify rfl))
    |>.tail trivial (.resolver rfl (.take rfl rfl rfl))
    |>.tail trivial (.resolver rfl (.observe rfl))
    |>.tail trivial (.resolver rfl (.resolve rfl))
  have ht := hsince _ hafter
  exact ⟨rfl, rfl, _, hafter, ht.halted, ht.log, rfl, rfl⟩

end OpenDataBuffer
