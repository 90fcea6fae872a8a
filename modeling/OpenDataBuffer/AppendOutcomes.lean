import OpenDataBuffer.CloseRace
import OpenDataBuffer.Halting

/-!
# What an append call returns

`AppendContext` returns a handle or an error, and the two mean different things for
the message: behind a handle there is exactly one accepted message, behind an error
there is none, then and later.  Every error has its cause, which can still be seen
when the call has returned: no entries, a context that is done, a producer that is
halted, or one that has shut down.
-/

namespace OpenDataBuffer

open LabelledRuns ListUpdate

variable {p : Producer} {s t : State} {l : Label} {i : Nat} {c c' : AppendCall}
  {allowed : State → Label → Prop}

/-! ## Calls stay -/

/-- A later form of a call: its arguments are the same, its context stays done, and
what it has returned is final. -/
structure AppendCall.Continues (c c' : AppendCall) : Prop where
  entries : c'.entries = c.entries
  metadata : c'.metadata = c.metadata
  ctxErr : ∀ text, c.ctxErr = some text → c'.ctxErr = some text
  returned : ∀ res, c.phase = .returned res → c'.phase = .returned res

theorem AppendCall.Continues.refl (c : AppendCall) : c.Continues c :=
  ⟨rfl, rfl, fun _ h => h, fun _ h => h⟩

/-- A call goes on over several steps. -/
theorem AppendCall.Continues.trans {c'' : AppendCall} (h : c.Continues c') (h' : c'.Continues c'') :
    c.Continues c'' :=
  ⟨h'.entries.trans h.entries, h'.metadata.trans h.metadata,
    fun text hc => h'.ctxErr text (h.ctxErr text hc),
    fun res hc => h'.returned res (h.returned res hc)⟩

/-- A call that has not returned moves to another point of its code. -/
theorem AppendCall.Continues.at {phase : AppendPhase} (h : ∀ res, c.phase ≠ .returned res) :
    c.Continues (c.at phase) :=
  ⟨rfl, rfl, fun _ h => h, fun res hc => absurd hc (h res)⟩

/-- Calls that were replaced or left alone. -/
theorem continues_set {calls : List AppendCall} {j : Nat} {d d' : AppendCall}
    (hd : calls[j]? = some d) (hmove : d.Continues d') (hc : calls[i]? = some c) :
    ∃ c', (calls.set j d')[i]? = some c' ∧ c.Continues c' := by
  by_cases hij : i = j
  · subst hij
    obtain rfl : c = d := Option.some.inj (hc.symm.trans hd)
    exact ⟨d', getElem?_set_same hd, hmove⟩
  · rw [List.getElem?_set_ne (Ne.symm hij)]
    exact ⟨c, hc, .refl c⟩

/-- A step of one call leaves the others where they are. -/
theorem AppendStep.continues (hs : AppendStep p s l t) (hc : s.appends[i]? = some c) :
    ∃ c', t.appends[i]? = some c' ∧ c.Continues c' := by
  cases hs with
  | begin entries metadata =>
      refine ⟨c, ?_, .refl c⟩
      have hi := (List.getElem?_eq_some_iff.mp hc).1
      rw [List.getElem?_append_left hi]
      exact hc
  | ctxDone text hcall hctx =>
      refine continues_set hcall ⟨rfl, rfl, fun text' htext => ?_, fun _ h => h⟩ hc
      rw [hctx] at htext
      cases htext
  | sendClosed hcall hphase hclosed => exact ⟨c, hc, .refl c⟩
  | check hcall hphase => exact continues_set hcall (.at (by simp [hphase])) hc
  | reserve hcall hphase hgrant hmsg => exact continues_set hcall (.at (by simp [hphase])) hc
  | park hcall hphase hwait => exact continues_set hcall (.at (by simp [hphase])) hc
  | wake hcall hphase hclosed => exact continues_set hcall (.at (by simp [hphase])) hc
  | parkedCtx hcall hphase hctx => exact continues_set hcall (.at (by simp [hphase])) hc
  | parkedShutdown hcall hphase hshutdown => exact continues_set hcall (.at (by simp [hphase])) hc
  | send hcall hphase hopen hroom => exact continues_set hcall (.at (by simp [hphase])) hc
  | finish hcall hphase => exact continues_set hcall (.at (by simp [hphase])) hc
  | sendCtx hcall hphase hctx => exact continues_set hcall (.at (by simp [hphase])) hc
  | sendDone hcall hphase hdone => exact continues_set hcall (.at (by simp [hphase])) hc
  | abort hcall hphase => exact continues_set hcall (.at (by simp [hphase])) hc

/-- **Calls stay.** -/
theorem call_continues (hs : ProducerStep p s l t) (hc : s.appends[i]? = some c) :
    ∃ c', t.appends[i]? = some c' ∧ c.Continues c' := by
  cases hs with
  | append _ hs => exact hs.continues hc
  | rotator _ hs =>
      cases hs with
      | handoff _ _ _ _ hcall hsend => exact continues_set hcall (.at (by simp [hsend])) hc
      | drainHandoff _ _ _ _ hcall hsend => exact continues_set hcall (.at (by simp [hsend])) hc
      | _ => exact ⟨c, hc, .refl c⟩
  | flush _ hs => cases hs <;> exact ⟨c, hc, .refl c⟩
  | close _ hs => cases hs <;> exact ⟨c, hc, .refl c⟩
  | encoder _ hs => cases hs <;> exact ⟨c, hc, .refl c⟩
  | uploader _ hs => cases hs <;> exact ⟨c, hc, .refl c⟩
  | committer _ hs => cases hs <;> exact ⟨c, hc, .refl c⟩
  | resolver _ hs => cases hs <;> exact ⟨c, hc, .refl c⟩
  | others hs => cases hs <;> exact ⟨c, hc, .refl c⟩

/-- A call keeps its place in every run. -/
theorem RunWhere.call_continues (hrun : RunWhere p allowed s t) (hc : s.appends[i]? = some c) :
    ∃ c', t.appends[i]? = some c' ∧ c.Continues c' := by
  refine hrun.invariant (P := fun x => ∃ c', x.appends[i]? = some c' ∧ c.Continues c')
    ⟨c, hc, .refl c⟩ ?_
  rintro x l y ⟨d, hd, hcd⟩ - hs
  obtain ⟨d', hd', hdd'⟩ := OpenDataBuffer.call_continues hs hd
  exact ⟨d', hd', hcd.trans hdd'⟩

/-! ## Errors have causes -/

/-- The error a call has returned or is about to return. -/
def AppendPhase.error? : AppendPhase → Option BufferError
  | .aborting _ err => some err
  | .returned err => err
  | _ => none

/-- Why a call fails. -/
inductive AppendCause (s : State) (c : AppendCall) : BufferError → Prop
  | empty (h : c.entries = []) : AppendCause s c (invalidInputErr "entries must not be empty")
  | halted (hne : c.entries ≠ []) (h : s.halted = true) : AppendCause s c .producerHalted
  | context {text : String} (h : c.ctxErr = some text) : AppendCause s c (.context text)
  | shutdown (h : s.shutdown = true ∨ s.rotator.phase = .exited) : AppendCause s c .shutdown

/-- The rotator ends for good. -/
theorem rotator_exited_mono (hs : ProducerStep p s l t) (h : s.rotator.phase = .exited) :
    t.rotator.phase = .exited := by
  cases hs with
  | rotator _ hs => cases hs <;> simp_all
  | append _ hs => cases hs <;> exact h
  | flush _ hs => cases hs <;> exact h
  | close _ hs => cases hs <;> exact h
  | encoder _ hs =>
      cases hs with
      | take henc hsend => cases h.symm.trans hsend
      | _ => exact h
  | uploader _ hs => cases hs <;> exact h
  | committer _ hs => cases hs <;> exact h
  | resolver _ hs => cases hs <;> exact h
  | others hs => cases hs <;> exact h

/-- The cause of an error stays. -/
theorem AppendCause.mono {err : BufferError} (h : AppendCause s c err) (hc : c.Continues c')
    (hs : ProducerStep p s l t) : AppendCause t c' err := by
  cases h with
  | empty h => exact .empty (hc.entries.trans h)
  | halted hne h => exact .halted (fun hnil => hne (hc.entries.symm.trans hnil)) (halted_mono hs h)
  | context h => exact .context (hc.ctxErr _ h)
  | shutdown h =>
      rcases h with hshutdown | hexited
      · exact .shutdown (Or.inl (shutdown_mono hs hshutdown))
      · exact .shutdown (Or.inr (rotator_exited_mono hs hexited))

/-- An error that a call did not have before comes with its cause. -/
theorem AppendStep.error_cases (hs : AppendStep p s l t) {err : BufferError}
    (hc' : t.appends[i]? = some c') (herr : c'.phase.error? = some err) :
    (∃ c, s.appends[i]? = some c ∧ c.Continues c' ∧ c.phase.error? = some err) ∨
      AppendCause s c' err := by
  -- a call in another place, or one whose move brings no error
  have hset : ∀ {j : Nat} {d d' : AppendCall}, (s.appends.set j d')[i]? = some c' →
      s.appends[j]? = some d → d.Continues d' →
      (d'.phase.error? = some err → d.phase.error? = some err ∨ AppendCause s d' err) →
      (∃ c, s.appends[i]? = some c ∧ c.Continues c' ∧ c.phase.error? = some err) ∨
        AppendCause s c' err := by
    intro j d d' hget hd hcont hnew
    rcases getElem?_set_cases hget with ⟨rfl, rfl⟩ | ⟨-, hold⟩
    · rcases hnew herr with hsame | hcause
      · exact Or.inl ⟨d, hd, hcont, hsame⟩
      · exact Or.inr hcause
    · exact Or.inl ⟨c', hold, .refl c', herr⟩
  cases hs with
  | begin entries metadata =>
      rcases getElem?_concat_cases hc' with ⟨-, rfl⟩ | hold
      · cases herr
      · exact Or.inl ⟨c', hold, .refl c', herr⟩
  | ctxDone text hcall hctx =>
      refine hset hc' hcall ⟨rfl, rfl, fun text' htext => ?_, fun _ h => h⟩ Or.inl
      rw [hctx] at htext
      cases htext
  | @check j d hcall hphase =>
      refine hset hc' hcall (.at (by simp [hphase])) fun hnew => Or.inr ?_
      simp only [AppendCall.at, appendEntry] at hnew
      split at hnew
      · rename_i hempty
        cases hnew
        exact .empty (List.length_eq_zero_iff.mp hempty)
      · rename_i hentries
        split at hnew
        · rename_i hhalted
          cases hnew
          exact .halted (fun hnil => hentries (List.length_eq_zero_iff.mpr hnil)) hhalted
        · cases hnew
  | sendClosed hcall hphase hclosed => exact Or.inl ⟨c', hc', .refl c', herr⟩
  | reserve hcall hphase hgrant hmsg =>
      exact hset hc' hcall (.at (by simp [hphase])) fun hnew => by cases hnew
  | park hcall hphase hwait =>
      exact hset hc' hcall (.at (by simp [hphase])) fun hnew => by cases hnew
  | wake hcall hphase hclosed =>
      exact hset hc' hcall (.at (by simp [hphase])) fun hnew => by cases hnew
  | parkedCtx hcall hphase hctx =>
      refine hset hc' hcall (.at (by simp [hphase])) fun hnew => Or.inr ?_
      cases hnew
      exact .context hctx
  | parkedShutdown hcall hphase hshutdown =>
      refine hset hc' hcall (.at (by simp [hphase])) fun hnew => Or.inr ?_
      cases hnew
      exact .shutdown (Or.inl hshutdown)
  | send hcall hphase hopen hroom =>
      exact hset hc' hcall (.at (by simp [hphase])) fun hnew => by cases hnew
  | finish hcall hphase => exact hset hc' hcall (.at (by simp [hphase])) fun hnew => by cases hnew
  | sendCtx hcall hphase hctx =>
      refine hset hc' hcall (.at (by simp [hphase])) fun hnew => Or.inr ?_
      cases hnew
      exact .context hctx
  | sendDone hcall hphase hdone =>
      refine hset hc' hcall (.at (by simp [hphase])) fun hnew => Or.inr ?_
      cases hnew
      exact .shutdown (Or.inr hdone)
  | abort hcall hphase =>
      refine hset hc' hcall (.at (by simp [hphase])) fun hnew => Or.inl ?_
      rw [hphase]
      exact hnew

/-- Where an error of a call comes from. -/
theorem error_step (hs : ProducerStep p s l t) {err : BufferError}
    (hc' : t.appends[i]? = some c') (herr : c'.phase.error? = some err) :
    (∃ c, s.appends[i]? = some c ∧ c.Continues c' ∧ c.phase.error? = some err) ∨
      AppendCause s c' err := by
  have hsame : s.appends[i]? = some c' →
      (∃ c, s.appends[i]? = some c ∧ c.Continues c' ∧ c.phase.error? = some err) ∨
        AppendCause s c' err :=
    fun hc => Or.inl ⟨c', hc, .refl c', herr⟩
  -- the rotator takes a message directly: that call has no error
  have hhandoff : ∀ {j : Nat} {d : AppendCall}, (s.appends.set j (d.at .accepted))[i]? = some c' →
      s.appends[i]? = some c' := by
    intro j d hget
    rcases getElem?_set_cases hget with ⟨-, rfl⟩ | ⟨-, hold⟩
    · cases herr
    · exact hold
  cases hs with
  | append _ hs => exact hs.error_cases hc' herr
  | rotator _ hs =>
      cases hs with
      | handoff => exact hsame (hhandoff hc')
      | drainHandoff => exact hsame (hhandoff hc')
      | _ => exact hsame hc'
  | flush _ hs => cases hs <;> exact hsame hc'
  | close _ hs => cases hs <;> exact hsame hc'
  | encoder _ hs => cases hs <;> exact hsame hc'
  | uploader _ hs => cases hs <;> exact hsame hc'
  | committer _ hs => cases hs <;> exact hsame hc'
  | resolver _ hs => cases hs <;> exact hsame hc'
  | others hs => cases hs <;> exact hsame hc'

/-- Every error of a call has its cause. -/
def CallErrors (s : State) : Prop :=
  ∀ (i : Nat) (c : AppendCall) (err : BufferError), s.appends[i]? = some c →
    c.phase.error? = some err → AppendCause s c err

/-- **Step rule for the errors of calls.** -/
theorem CallErrors.step (h : CallErrors s) (hs : ProducerStep p s l t) : CallErrors t := by
  intro i c' err hc' herr
  rcases error_step hs hc' herr with ⟨c, hc, hcont, hold⟩ | hcause
  · exact (h i c err hc hold).mono hcont hs
  · exact hcause.mono (.refl c') hs

/-- Every error that a call returns has its cause, in every run. -/
theorem reachable_callErrors {store : ObjectStore} {items : List EnqueueItem}
    (hrun : RunWhere p allowed (newProducer p store items) s) : CallErrors s :=
  hrun.invariant (P := CallErrors) (fun i c err hc => by simp [newProducer] at hc)
    (fun _ _ _ h _ hs => h.step hs)

/-! ## All or nothing -/

/-- **A handle or an error.**  In every reachable state, a call of `AppendContext` that
has returned a handle has entries and exactly one accepted message, with its entries and
metadata; one that has returned an error has none, and the error has its cause.  Both
are final: in every later state the call has returned the same, so an error is never
followed by an acceptance. -/
theorem append_all_or_nothing {store : ObjectStore} {items : List EnqueueItem}
    (hrun : RunWhere p allowed (newProducer p store items) s) {res : Option BufferError}
    (hcall : s.appends[i]? = some c) (hreturned : c.phase = .returned res) :
    (res = none → c.entries ≠ [] ∧ ∃ m ∈ s.hist.accepted, m.IsFor i c ∧
      ∀ m' ∈ s.hist.accepted, m'.watcher = i → m' = m) ∧
    (∀ err, res = some err → AppendCause s c err ∧ ∀ m ∈ s.hist.accepted, m.watcher ≠ i) ∧
    ∀ t, RunWhere p allowed s t → ∃ c', t.appends[i]? = some c' ∧ c'.entries = c.entries ∧
      c'.metadata = c.metadata ∧ c'.phase = .returned res ∧
      (res ≠ none → ∀ m ∈ t.hist.accepted, m.watcher ≠ i) := by
  -- nothing is accepted for a call that has returned an error
  have hnothing : ∀ {x : State} {d : AppendCall} {err : BufferError}, AppendCalls x →
      x.appends[i]? = some d → d.phase = .returned (some err) →
      ∀ m ∈ x.hist.accepted, m.watcher ≠ i := by
    intro x d err hx hd hphase m hm hw
    obtain ⟨d', hd', -, hsent⟩ := hx.accepted m hm
    rw [hw, hd] at hd'
    cases hd'
    rw [AppendPhase.Sent, hphase] at hsent
    rcases hsent with hsent | hsent <;> cases hsent
  have hcalls := reachable_appendCalls hrun
  refine ⟨?_, ?_, ?_⟩
  · rintro rfl
    obtain ⟨m, hm, hw⟩ := hcalls.recorded i c hcall (Or.inr hreturned)
    obtain ⟨d, hd, hfor, -⟩ := hcalls.accepted m hm
    rw [hw] at hd hfor
    cases hcall.symm.trans hd
    refine ⟨fun hnil => m.nonempty (hfor.entries.trans hnil), m, hm, hfor, fun m' hm' hw' => ?_⟩
    exact hcalls.watcher_inj hm' hm (hw'.trans hw.symm)
  · rintro err rfl
    refine ⟨reachable_callErrors hrun i c err hcall ?_, hnothing hcalls hcall hreturned⟩
    rw [hreturned]
    rfl
  · intro t hafter
    obtain ⟨c', hc', hcont⟩ := hafter.call_continues hcall
    refine ⟨c', hc', hcont.entries, hcont.metadata, hcont.returned res hreturned, fun hres => ?_⟩
    obtain ⟨err, rfl⟩ := Option.ne_none_iff_exists'.mp hres
    exact hnothing (reachable_appendCalls (hrun.trans hafter)) hc' (hcont.returned _ hreturned)

/-- The call of the sample run returns nil, with one message accepted. -/
theorem append_all_or_nothing_sample :
    sampleAppended.appends[0]? = some ⟨[[7]], [], none, .returned none⟩ ∧
      ∃ m ∈ sampleAppended.hist.accepted, m.watcher = 0 ∧
        ∀ m' ∈ sampleAppended.hist.accepted, m'.watcher = 0 → m' = m := by
  obtain ⟨hhandle, -, -⟩ := append_all_or_nothing (i := 0)
    (c := ⟨[[7]], [], none, .returned none⟩) sample_appends rfl rfl
  obtain ⟨-, m, hm, hfor, honly⟩ := hhandle rfl
  exact ⟨rfl, m, hm, hfor.watcher, honly⟩

end OpenDataBuffer
