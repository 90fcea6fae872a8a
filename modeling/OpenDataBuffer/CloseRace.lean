import OpenDataBuffer.CommitOrder
import OpenDataBuffer.AppendCalls

/-!
# Append against Close

`Close` closes `appendCh` once its flush is over.  A call of `AppendContext` that
stands at its send by then, or gets its reservation later, has a closed channel
among the cases of its `select`, and in Go a send on a closed channel panics:
`append_panics` is such a run.

The race needs a reservation.  If no call stands at its send when `Close` closes
`appendCh`, and `reserveBytes` grants nothing behind that, then nothing panics and
every call that has not sent ends with `ErrShutdown`.
-/

namespace OpenDataBuffer

open LabelledRuns ListUpdate

variable {p : Producer} {s t : State} {l : Label}

/-- No call stands at its send when `Close` closes `appendCh`, and no reservation
is granted behind that. -/
def NoLateReservation (s : State) (l : Label) : Prop :=
  (l = .closesAppendCh → ∀ c ∈ s.appends, ∀ msg, c.phase ≠ .sending msg) ∧
    (l = .grants → s.appendCh.closed = false)

/-! ## Steps -/

/-- Only `Close` closes `appendCh`. -/
theorem open_step (hs : ProducerStep p s l t) (hopen : s.appendCh.closed = false) :
    t.appendCh.closed = false ∨ l = .closesAppendCh ∧ t.appends = s.appends := by
  cases hs with
  | close _ hs =>
      cases hs with
      | closeAppendCh hphase => exact Or.inr ⟨rfl, rfl⟩
      | _ => exact Or.inl hopen
  | append _ hs => cases hs <;> exact Or.inl hopen
  | flush _ hs => cases hs <;> exact Or.inl hopen
  | rotator _ hs => cases hs <;> exact Or.inl hopen
  | encoder _ hs => cases hs <;> exact Or.inl hopen
  | uploader _ hs => cases hs <;> exact Or.inl hopen
  | committer _ hs => cases hs <;> exact Or.inl hopen
  | resolver _ hs => cases hs <;> exact Or.inl hopen
  | others hs => cases hs <;> exact Or.inl hopen

/-- A panic comes from a call at its send. -/
theorem panic_step (hst : Stages p t) (hrunning : s.panicked = none) (hs : ProducerStep p s l t) :
    t.panicked = none ∨
      ∃ (i : Nat) (c : AppendCall) (msg : AppendMessage), s.appends[i]? = some c ∧
        c.phase = .sending msg ∧ s.appendCh.closed = true := by
  rcases hst.panic with hnone | hpanic
  · exact Or.inl hnone
  · right
    cases hs with
    | append hrun hs =>
        cases hs with
        | sendClosed hcall hphase hclosed => exact ⟨_, _, _, hcall, hphase, hclosed⟩
        | _ => cases hrun.symm.trans hpanic
    | flush hrun hs => cases hs <;> cases hrun.symm.trans hpanic
    | close hrun hs => cases hs <;> cases hrun.symm.trans hpanic
    | rotator hrun hs => cases hs <;> first | cases hpanic | cases hrun.symm.trans hpanic
    | encoder hrun hs => cases hs <;> first | cases hpanic | cases hrun.symm.trans hpanic
    | uploader hrun hs => cases hs <;> first | cases hpanic | cases hrun.symm.trans hpanic
    | committer hrun hs => cases hs <;> first | cases hpanic | cases hrun.symm.trans hpanic
    | resolver hrun hs => cases hs <;> cases hrun.symm.trans hpanic
    | others hs => cases hs <;> cases hrunning.symm.trans hpanic

/-! ## What holds of every call -/

/-- Why a call may return an error other than `ErrShutdown`. -/
def AppendCall.Excused (c : AppendCall) (s : State) : Prop :=
  c.entries = [] ∨ c.ctxErr ≠ none ∨ s.halted = true

/-- Where a call can stand without late reservations. -/
def AppendCall.Orderly (c : AppendCall) (s : State) : Prop :=
  match c.phase with
  | .sending _ => s.appendCh.closed = false
  | .aborting _ _ => c.ctxErr ≠ none
  | .returned (some err) => err = .shutdown ∨ c.Excused s
  | _ => True

structure Orderly (s : State) : Prop where
  calls : ∀ (i : Nat) (c : AppendCall), s.appends[i]? = some c → c.Orderly s
  running : s.panicked = none

/-- A call that did not move. -/
theorem AppendCall.Orderly.stays {c : AppendCall} (h : c.Orderly s)
    (hopen : ∀ msg, c.phase = .sending msg → t.appendCh.closed = false)
    (hhalted : s.halted = true → t.halted = true) : c.Orderly t := by
  unfold AppendCall.Orderly at h ⊢
  cases hphase : c.phase with
  | sending msg => exact hopen msg hphase
  | aborting msg err =>
      rw [hphase] at h
      exact h
  | returned err =>
      rw [hphase] at h
      cases err with
      | none => trivial
      | some err =>
          rcases h with herr | hnone | hctx | hh
          · exact Or.inl herr
          · exact Or.inr (Or.inl hnone)
          · exact Or.inr (Or.inr (Or.inl hctx))
          · exact Or.inr (Or.inr (Or.inr (hhalted hh)))
  | _ => trivial

/-- Behind its entry a call holds no bytes. -/
theorem orderly_appendEntry (c : AppendCall) (hhalted : s.halted = true → t.halted = true) :
    (c.at (appendEntry s.halted c.entries)).Orderly t := by
  unfold appendEntry
  split
  · rename_i hempty
    exact Or.inr (Or.inl (List.length_eq_zero_iff.mp hempty))
  · split
    · rename_i hh
      exact Or.inr (Or.inr (Or.inr (hhalted hh)))
    · trivial

/-- A call that moved, by a step that admits no late reservation. -/
theorem AppendCall.Orderly.move {c c' : AppendCall} (h : c.Orderly s) (hst : Stages p s)
    (hl : NoLateReservation s l) (hmove : CallMove s l t c c')
    (hopen : ∀ msg, c'.phase = .sending msg → s.appendCh.closed = false →
      t.appendCh.closed = false)
    (hhalted : s.halted = true → t.halted = true) : c'.Orderly t := by
  unfold AppendCall.Orderly at h
  cases hmove with
  | ctxDone text hctx =>
      unfold AppendCall.Orderly
      cases hphase : c.phase with
      | sending msg =>
          rw [hphase] at h
          exact hopen msg hphase h
      | aborting msg err => simp
      | returned err =>
          cases err with
          | none => trivial
          | some err => exact Or.inr (Or.inr (Or.inl (by simp)))
      | _ => trivial
  | check hphase => exact orderly_appendEntry c hhalted
  | reserve msg hphase hlabel => exact hopen msg rfl (hl.2 hlabel)
  | parkedCtx hphase hctx => exact Or.inr (Or.inr (Or.inl (by simp [hctx])))
  | parkedShutdown hphase => exact Or.inl rfl
  | sendCtx hphase hctx => simp [AppendCall.Orderly, hctx]
  | sendDone hphase hdone =>
      -- the rotator ends behind the close of the channel only
      rw [hphase] at h
      have hclosed := (hst.last_of_reason hdone trivial).1
      rw [h] at hclosed
      cases hclosed
  | abort hphase =>
      rw [hphase] at h
      exact Or.inr (Or.inr (Or.inl h))
  | _ => trivial

/-- **Step rule for orderly calls.** -/
theorem Orderly.step (h : Orderly s) (hst : Stages p s) (hl : NoLateReservation s l)
    (hs : ProducerStep p s l t) : Orderly t := by
  have hhalted := halted_mono hs
  -- a call at its send keeps the channel open
  have hopen : ∀ (i : Nat) (c : AppendCall) (msg : AppendMessage), t.appends[i]? = some c →
      c.phase = .sending msg → s.appendCh.closed = false → t.appendCh.closed = false := by
    intro i c msg hcall hphase hso
    rcases open_step hs hso with hto | ⟨hlabel, hsame⟩
    · exact hto
    · rw [hsame] at hcall
      exact absurd hphase (hl.1 hlabel c (List.mem_of_getElem? hcall) msg)
  refine ⟨fun i c hcall => ?_, ?_⟩
  · cases call_step hs hcall with
    | same hold =>
        have hc := h.calls i c hold
        refine hc.stays (fun msg hphase => hopen i c msg hcall hphase ?_) hhalted
        rw [AppendCall.Orderly, hphase] at hc
        exact hc
    | begun hnew hphase =>
        rw [AppendCall.Orderly, hphase]
        trivial
    | moved hold hmove =>
        exact (h.calls i _ hold).move hst hl hmove (fun msg => hopen i c msg hcall) hhalted
  · rcases panic_step (hst.step hs) h.running hs with hnone | ⟨i, c, msg, hcall, hphase, hclosed⟩
    · exact hnone
    · have hc := h.calls i c hcall
      rw [AppendCall.Orderly, hphase, hclosed] at hc
      cases hc

/-- Without late reservations all calls are orderly. -/
theorem reachable_orderly {store : ObjectStore} {items : List EnqueueItem}
    (hrun : RunWhere p NoLateReservation (newProducer p store items) s) : Orderly s := by
  have hboth : Stages p s ∧ Orderly s := by
    refine hrun.invariant (P := fun x => Stages p x ∧ Orderly x)
      ⟨stages_newProducer store items, by simp [newProducer], rfl⟩ ?_
    intro x l y h hl hs
    exact ⟨h.1.step hs, h.2.step h.1 hl hs⟩
  exact hboth.2

/-- `appendCh` stays closed, and what was not sent by then never is. -/
theorem RunWhere.stays_closed {allowed : State → Label → Prop} (hrun : RunWhere p allowed s t) :
    s.appendCh.closed = true → t.appendCh.closed = true ∧ t.hist.accepted = s.hist.accepted := by
  refine hrun.preorder
    (R := fun x y => x.appendCh.closed = true →
      y.appendCh.closed = true ∧ y.hist.accepted = x.hist.accepted)
    (fun x hx => ⟨hx, rfl⟩) ?_ (fun x l y hs => closed_step hs)
  intro x y z hxy hyz hx
  obtain ⟨hy, hsame⟩ := hxy hx
  obtain ⟨hz, hsame'⟩ := hyz hy
  exact ⟨hz, hsame'.trans hsame⟩

/-! ## The return of a waiting call -/

/-- The call has got no further than `reserveBytes`. -/
def AppendPhase.Early (phase : AppendPhase) : Prop := phase = .entered ∨ phase.Waits

/-- The budget has no room for the call. -/
def State.Full (s : State) (c : AppendCall) : Prop :=
  ∀ b, s.budget.reserveBytes (appendByteCost c.entries c.metadata) ≠ .granted b

/-- A label that no condition on reservations is about. -/
theorem noLateReservation_append : NoLateReservation s (.moves .append) :=
  ⟨nofun, nofun⟩

/-- After a forced `Close`, a parked call returns `ErrShutdown`. -/
theorem returns_parked {i ch : Nat} {c : AppendCall} (hrun : s.panicked = none)
    (hshutdown : s.shutdown = true) (hcall : s.appends[i]? = some c)
    (hphase : c.phase = .parked ch) :
    ∃ t, RunWhere p NoLateReservation s t ∧
      t.appends[i]? = some (c.at (.returned (some .shutdown))) :=
  ⟨_, Reach.refl.tail noLateReservation_append
    (.append hrun (.parkedShutdown hcall hphase hshutdown)), getElem?_set_same hcall⟩

/-- A call that finds no room behind a forced `Close` parks, and returns. -/
theorem returns_reserving {i : Nat} {c : AppendCall} (hrun : s.panicked = none)
    (hshutdown : s.shutdown = true) (hcall : s.appends[i]? = some c)
    (hphase : c.phase = .reserving) (hfull : s.Full c) :
    ∃ t, RunWhere p NoLateReservation s t ∧
      t.appends[i]? = some (c.at (.returned (some .shutdown))) := by
  cases hregion : s.budget.reserveBytes (appendByteCost c.entries c.metadata) with
  | granted b => exact absurd hregion (hfull b)
  | wait b ch =>
      have hstep : ProducerStep p s (.moves .append)
          { s with appends := s.appends.set i (c.at (.parked ch)), budget := b } :=
        .append hrun (.park hcall hphase hregion)
      obtain ⟨t, hafter, ht⟩ := returns_parked (p := p) (i := i) (c := c.at (.parked ch))
        (s := { s with appends := s.appends.set i (c.at (.parked ch)), budget := b })
        hrun hshutdown (getElem?_set_same hcall) rfl
      exact ⟨t, (Reach.refl.tail noLateReservation_append hstep).trans hafter, ht⟩

/-- After a forced `Close`, a call that waits or that the budget has no room for returns
`ErrShutdown`. -/
theorem returns_shutdown {i : Nat} {c : AppendCall} (hrun : s.panicked = none)
    (hshutdown : s.shutdown = true) (hhalted : s.halted = false)
    (hcall : s.appends[i]? = some c) (hne : c.entries ≠ []) (hphase : c.phase.Early)
    (hfull : (∃ ch, c.phase = .parked ch) ∨ s.Full c) :
    ∃ t, RunWhere p NoLateReservation s t ∧
      t.appends[i]? = some (c.at (.returned (some .shutdown))) := by
  have hroom : ∀ phase, c.phase = phase → (∀ ch, phase ≠ .parked ch) → s.Full c := by
    rintro phase rfl hnot
    exact hfull.resolve_left fun ⟨ch, hparked⟩ => hnot ch hparked
  rcases hphase with hphase | hphase | ⟨ch, hphase⟩
  · have hentry : appendEntry s.halted c.entries = .reserving := by
      simp [appendEntry, hhalted, hne]
    have hstep : ProducerStep p s (.moves .append)
        { s with appends := s.appends.set i (c.at (appendEntry s.halted c.entries)) } :=
      .append hrun (.check hcall hphase)
    rw [hentry] at hstep
    obtain ⟨t, hafter, ht⟩ := returns_reserving (p := p) (i := i) (c := c.at .reserving)
      (s := { s with appends := s.appends.set i (c.at .reserving) })
      hrun hshutdown (getElem?_set_same hcall) rfl (hroom _ hphase nofun)
    exact ⟨t, (Reach.refl.tail noLateReservation_append hstep).trans hafter, ht⟩
  · exact returns_reserving hrun hshutdown hcall hphase (hroom _ hphase nofun)
  · exact returns_parked hrun hshutdown hcall hphase

/-- After a forced `Close`, a call that its own code does not move any more has returned,
or stands before a reservation that the budget has room for. -/
theorem shutdown_at_rest {i : Nat} {c : AppendCall} (hshutdown : s.shutdown = true)
    (hhalted : s.halted = false) (hcall : s.appends[i]? = some c) (hne : c.entries ≠ [])
    (hphase : c.phase.Early ∨ c.phase = .returned (some .shutdown))
    (hrest : ∀ t, AppendStep p s (.moves .append) t → t.appends[i]? = some c) :
    c.phase = .returned (some .shutdown) ∨ c.phase = .reserving ∧ ¬ s.Full c := by
  -- A step of the call would leave it where it is.
  have hstays : ∀ {phase : AppendPhase} {t : State}, AppendStep p s (.moves .append) t →
      t.appends = s.appends.set i (c.at phase) → c.phase = phase := by
    intro phase t hs happends
    have hsame := hrest t hs
    rw [happends, getElem?_set_same hcall] at hsame
    exact (congrArg AppendCall.phase (Option.some.inj hsame)).symm
  rcases hphase with (hphase | hphase | ⟨ch, hphase⟩) | hphase
  · have hmoved := hstays (.check hcall hphase) rfl
    rw [hphase, appendEntry, hhalted] at hmoved
    simp [hne] at hmoved
  · refine Or.inr ⟨hphase, fun hfull => ?_⟩
    cases hregion : s.budget.reserveBytes (appendByteCost c.entries c.metadata) with
    | granted b => exact hfull b hregion
    | wait b ch =>
        have hmoved := hstays (.park hcall hphase hregion) rfl
        rw [hphase] at hmoved
        cases hmoved
  · have hmoved := hstays (.parkedShutdown hcall hphase hshutdown) rfl
    rw [hphase] at hmoved
    cases hmoved
  · exact Or.inl hphase

/-- Where a call can stand that has not sent, and has no excuse, once `appendCh` is
closed. -/
theorem AppendCall.Orderly.unsent {c : AppendCall} (h : c.Orderly s)
    (hclosed : s.appendCh.closed = true) (hunsent : ¬ c.phase.Sent) (hexcuse : ¬ c.Excused s) :
    c.phase.Early ∨ c.phase = .returned (some .shutdown) := by
  unfold AppendCall.Orderly at h
  cases hphase : c.phase with
  | entered => exact Or.inl (Or.inl rfl)
  | reserving => exact Or.inl (Or.inr (Or.inl rfl))
  | parked ch => exact Or.inl (Or.inr (Or.inr ⟨ch, rfl⟩))
  | sending msg =>
      rw [hphase, hclosed] at h
      cases h
  | aborting msg err =>
      rw [hphase] at h
      exact absurd (Or.inr (Or.inl h)) hexcuse
  | accepted => exact absurd (Or.inl hphase) hunsent
  | returned err =>
      cases err with
      | none => exact absurd (Or.inr hphase) hunsent
      | some err =>
          rw [hphase] at h
          rcases h with rfl | hexcused
          · exact Or.inr rfl
          · exact absurd hexcused hexcuse

/-! ## The race -/

/-- **Append against Close, without late reservations.**  In every run in which no
call stands at its send when `Close` closes `appendCh` and no reservation is granted
behind that, in every state reached: nothing has panicked and no call stands at a send
on the closed `appendCh`.  Let moreover `appendCh` be closed in `r`, and let a call with
entries not have sent its message by then.  In a later state in which the producer is
not halted and the context of the call is not done, its message has not been sent, it
holds no reservation, and it stands before the grant of `reserveBytes` or has returned
`ErrShutdown`.  Once `Close` has given up waiting, a call that waits in `reserveBytes` or
that the budget has no room for can return `ErrShutdown` by its own steps; and a call that
its own code does not move any more has returned `ErrShutdown`, unless it stands before a
reservation that the budget has room for. -/
theorem append_close_without_late_reservation {store : ObjectStore} {items : List EnqueueItem}
    (hrun : RunWhere p NoLateReservation (newProducer p store items) s) :
    s.panicked = none ∧
    (∀ c ∈ s.appends, ∀ msg, c.phase = .sending msg → s.appendCh.closed = false) ∧
    ∀ r, RunWhere p NoLateReservation r s → r.appendCh.closed = true →
      ∀ (i : Nat) (c : AppendCall), s.appends[i]? = some c → c.entries ≠ [] →
        (∀ m ∈ r.hist.accepted, m.watcher ≠ i) → s.halted = false → c.ctxErr = none →
        (∀ m ∈ s.hist.accepted, m.watcher ≠ i) ∧ c.phase.held = 0 ∧
        (c.phase.Early ∨ c.phase = .returned (some .shutdown)) ∧
        (c.phase.Early → s.shutdown = true → (∃ ch, c.phase = .parked ch) ∨ s.Full c →
          ∃ t, RunWhere p NoLateReservation s t ∧
            t.appends[i]? = some (c.at (.returned (some .shutdown)))) ∧
        (s.shutdown = true →
          (∀ t, AppendStep p s (.moves .append) t → t.appends[i]? = some c) →
          c.phase = .returned (some .shutdown) ∨ c.phase = .reserving ∧ ¬ s.Full c) := by
  have ho := reachable_orderly hrun
  refine ⟨ho.running, ?_, ?_⟩
  · intro c hmem msg hphase
    obtain ⟨i, hcall⟩ := List.mem_iff_getElem?.mp hmem
    have hc := ho.calls i c hcall
    rw [AppendCall.Orderly, hphase] at hc
    exact hc
  · intro r hafter hclosed i c hcall hne hunsent hhalted hctx
    obtain ⟨hclosed', hsame⟩ := hafter.stays_closed hclosed
    have hnot : ∀ m ∈ s.hist.accepted, m.watcher ≠ i := by
      rw [hsame]
      exact hunsent
    have hphase : c.phase.Early ∨ c.phase = .returned (some .shutdown) := by
      refine (ho.calls i c hcall).unsent hclosed' (fun hsent => ?_) ?_
      · obtain ⟨m, hm, hw⟩ := (reachable_appendCalls hrun).recorded i c hcall hsent
        exact hnot m hm hw
      · simp [AppendCall.Excused, hne, hctx, hhalted]
    refine ⟨hnot, ?_, hphase, ?_, ?_⟩
    · rcases hphase with (h | h | ⟨ch, h⟩) | h <;> rw [h] <;> rfl
    · intro hearly hshutdown hfull
      exact returns_shutdown ho.running hshutdown hhalted hcall hne hearly hfull
    · intro hshutdown hrest
      exact shutdown_at_rest hshutdown hhalted hcall hne hphase hrest

/-- A call that the budget has no room for behind the first message. -/
def sampleWaiting : AppendCall := ⟨[List.replicate 100 7], [], none, .parked 0⟩

/-- `Close` has given up its flush and is about to close `appendCh`. -/
def sampleClosing : State :=
  { sampleAppended with
    appends := sampleAppended.appends ++ [sampleWaiting]
    flushes := [⟨some "deadline exceeded", [], .returned (some (.context "deadline exceeded")), 1⟩]
    close := .closing 0 (some (.context "deadline exceeded"))
    budget := { sampleAppended.budget with waiter := some 0, made := 1 } }

/-- `appendCh` is closed. -/
def sampleCut : State :=
  { sampleClosing with
    close := .waiting 0 (some (.context "deadline exceeded")) dones
    appendCh := { sampleClosing.appendCh with closed := true } }

/-- `Close` has given up waiting for the pipeline. -/
def sampleForced : State :=
  { sampleCut with close := .returned 0 (some (.context "deadline exceeded")), shutdown := true }

/-- A run of the sample producer without late reservations. -/
abbrev OrderlyRun (s t : State) : Prop := RunWhere sampleProducer NoLateReservation s t

/-- A second call waits for room while `Close` is called. -/
theorem sample_waits : OrderlyRun sampleStart sampleClosing := by
  have hrun := (Reach.refl : OrderlyRun sampleStart sampleStart)
    |>.tail (by exact ⟨nofun, nofun⟩) (.append rfl (.begin [[7]] []))
    |>.tail (by exact ⟨nofun, nofun⟩) (.append rfl (.check (i := 0) rfl rfl))
    |>.tail (by exact ⟨nofun, fun _ => rfl⟩)
      (.append rfl (.reserve (i := 0) rfl rfl rfl sample_isFor))
    |>.tail (by exact ⟨nofun, nofun⟩) (.append rfl (.send (i := 0) rfl rfl rfl (by decide)))
    |>.tail (by exact ⟨nofun, nofun⟩) (.append rfl (.finish (i := 0) rfl rfl))
    |>.tail (by exact ⟨nofun, nofun⟩) (.append rfl (.begin [List.replicate 100 7] []))
    |>.tail (by exact ⟨nofun, nofun⟩) (.append rfl (.check (i := 1) rfl rfl))
    |>.tail (by exact ⟨nofun, nofun⟩) (.append rfl (.park (i := 1) rfl rfl rfl))
    |>.tail (by exact ⟨nofun, nofun⟩) (.close rfl (.begin rfl))
    |>.tail (by exact ⟨nofun, nofun⟩)
      (.flush rfl (.ctxDone (f := 0) "deadline exceeded" rfl rfl))
    |>.tail (by exact ⟨nofun, nofun⟩) (.flush rfl (.requestCtx (f := 0) rfl rfl rfl))
    |>.tail (by exact ⟨nofun, nofun⟩) (.close rfl (.flushed rfl rfl rfl))
  exact hrun

/-- The rotator takes the first message into its batch. -/
theorem sample_cuts : OrderlyRun sampleStart sampleCut := by
  have hnone : ∀ c ∈ sampleClosing.appends, ∀ msg, c.phase ≠ .sending msg := by
    intro c hc msg
    rcases List.mem_cons.mp hc with rfl | hc
    · nofun
    · obtain rfl := List.mem_singleton.mp hc
      nofun
  have hrun := sample_waits
    |>.tail (by exact ⟨fun _ => hnone, nofun⟩) (.close rfl (.closeAppendCh rfl))
  exact hrun

/-- The context of `Close` is done. -/
theorem sample_forces : OrderlyRun sampleCut sampleForced := by
  have hrun := (Reach.refl : OrderlyRun sampleCut sampleCut)
    |>.tail (by exact ⟨nofun, nofun⟩) (.close rfl (.expired rfl rfl rfl))
    |>.tail (by exact ⟨nofun, nofun⟩) (.close rfl (.force rfl))
  exact hrun

/-- The call that waits returns `shutdown` behind the forced `Close`. -/
theorem append_close_without_late_reservation_sample :
    sampleForced.appendCh.closed = true ∧ sampleForced.panicked = none ∧
      ∃ t, OrderlyRun sampleForced t ∧
        t.appends[1]? = some (sampleWaiting.at (.returned (some .shutdown))) := by
  obtain ⟨hpanic, _, hall⟩ :=
    append_close_without_late_reservation (sample_cuts.trans sample_forces)
  have hunsent : ∀ m ∈ sampleCut.hist.accepted, m.watcher ≠ 1 := by
    intro m hm
    obtain rfl := List.mem_singleton.mp hm
    decide
  obtain ⟨_, _, _, hreturns, _⟩ := hall sampleCut sample_forces rfl 1 sampleWaiting rfl
    (List.cons_ne_nil _ _) hunsent rfl rfl
  exact ⟨rfl, hpanic, hreturns (Or.inr (Or.inr ⟨0, rfl⟩)) rfl (Or.inl ⟨0, rfl⟩)⟩

/-- **The race.**  A call reserves its bytes, `Close` flushes an empty pipeline and
closes `appendCh`, and the call, whose context is alive, runs into the closed
channel. -/
theorem append_panics :
    ∃ s, Run sampleProducer sampleStart s ∧ s.panicked = some .appendCh ∧
      s.appends = [⟨[[7]], [], none, .sending sampleMessage⟩] ∧ s.halted = false := by
  have hrun := (Reach.refl : Run sampleProducer sampleStart sampleStart)
    |>.tail trivial (.append rfl (.begin [[7]] []))
    |>.tail trivial (.append rfl (.check (i := 0) rfl rfl))
    |>.tail trivial (.append rfl (.reserve (i := 0) rfl rfl rfl sample_isFor))
    |>.tail trivial (.close rfl (.begin rfl))
    |>.tail trivial (.rotator rfl (.takeFlush (f := 0) rfl rfl rfl))
    |>.tail trivial (.rotator rfl (.drainDone rfl rfl))
    |>.tail trivial (.rotator rfl (.ack rfl rfl rfl))
    |>.tail trivial (.flush rfl (.receiveAck (f := 0) rfl rfl rfl))
    |>.tail trivial (.flush rfl (.drained (f := 0) rfl rfl rfl))
    |>.tail trivial (.close rfl (.flushed rfl rfl rfl))
    |>.tail trivial (.close rfl (.closeAppendCh rfl))
    |>.tail trivial (.append rfl (.sendClosed (i := 0) rfl rfl rfl))
  exact ⟨_, hrun, rfl, rfl, rfl⟩

end OpenDataBuffer
