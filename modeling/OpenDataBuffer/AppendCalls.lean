import Mathlib.Data.List.Nodup
import OpenDataBuffer.ProducerRuns
import OpenDataBuffer.ListUpdate

/-!
# The messages of append calls

Every `AppendContext` call makes at most one message, and the message is
accepted at most once: the watchers of accepted messages are all different, and
a call has sent its message exactly if that message is on record.
-/

namespace OpenDataBuffer

open ListUpdate

namespace AppendPhase

/-- The call has sent its message. -/
def Sent (phase : AppendPhase) : Prop := phase = .accepted ∨ phase = .returned none

/-- The call has a message that it has not sent. -/
def Holds (phase : AppendPhase) (msg : AppendMessage) : Prop :=
  phase = .sending msg ∨ ∃ err, phase = .aborting msg err

/-- The call waits for its reservation. -/
def Waits (phase : AppendPhase) : Prop := phase = .reserving ∨ ∃ ch, phase = .parked ch

end AppendPhase

/-- What holds of one call on its own. -/
structure AppendCall.Proper (c : AppendCall) (i : Nat) : Prop where
  holds : ∀ msg, c.phase.Holds msg → msg.IsFor i c
  waits : c.phase.Waits → c.entries ≠ []

structure AppendCalls (s : State) : Prop where
  proper : ∀ (i : Nat) (c : AppendCall), s.appends[i]? = some c → c.Proper i
  accepted : ∀ m ∈ s.hist.accepted, ∃ c, s.appends[m.watcher]? = some c ∧ m.IsFor m.watcher c ∧
    c.phase.Sent
  recorded : ∀ (i : Nat) (c : AppendCall), s.appends[i]? = some c → c.phase.Sent →
    ∃ m ∈ s.hist.accepted, m.watcher = i
  unique : (s.hist.accepted.map AppendMessage.watcher).Nodup

variable {p : Producer} {s t : State} {l : Label}

/-- A step that touches neither the calls nor the accepted messages. -/
theorem AppendCalls.of_same (h : AppendCalls s) (hcalls : t.appends = s.appends)
    (haccepted : t.hist.accepted = s.hist.accepted) : AppendCalls t := by
  refine ⟨?_, ?_, ?_, ?_⟩
  · rw [hcalls]
    exact h.proper
  · rw [hcalls, haccepted]
    exact h.accepted
  · rw [hcalls, haccepted]
    exact h.recorded
  · rw [haccepted]
    exact h.unique

/-- A call moves on and does not send. -/
theorem AppendCalls.moves (h : AppendCalls s) {i : Nat} {c : AppendCall} (c' : AppendCall)
    (hcall : s.appends[i]? = some c) (hentries : c'.entries = c.entries)
    (hmetadata : c'.metadata = c.metadata) (hsent : c'.phase.Sent ↔ c.phase.Sent)
    (hproper : c'.Proper i) : AppendCalls { s with appends := s.appends.set i c' } where
  proper := by
    intro j d hd
    rcases getElem?_set_cases hd with ⟨rfl, rfl⟩ | ⟨_, hold⟩
    · exact hproper
    · exact h.proper j d hold
  accepted := by
    intro m hm
    obtain ⟨d, hd, hfor, hphase⟩ := h.accepted m hm
    by_cases hi : m.watcher = i
    · subst hi
      obtain rfl : d = c := Option.some.inj (hd.symm.trans hcall)
      exact ⟨c', getElem?_set_same hcall, ⟨hfor.entries.trans hentries.symm,
        hfor.metadata.trans hmetadata.symm, hfor.watcher⟩, hsent.mpr hphase⟩
    · refine ⟨d, ?_, hfor, hphase⟩
      rw [List.getElem?_set_ne (Ne.symm hi)]
      exact hd
  recorded := by
    intro j d hd hphase
    rcases getElem?_set_cases hd with ⟨rfl, rfl⟩ | ⟨_, hold⟩
    · exact h.recorded j c hcall (hsent.mp hphase)
    · exact h.recorded j d hold hphase
  unique := h.unique

/-- A call sends its message. -/
theorem AppendCalls.sends (h : AppendCalls s) {i : Nat} {c : AppendCall} {msg : AppendMessage}
    (hcall : s.appends[i]? = some c) (hphase : c.phase = .sending msg) :
    AppendCalls { s with
      appends := s.appends.set i (c.at .accepted)
      hist := { s.hist with accepted := s.hist.accepted ++ [msg] } } := by
  have hfor : msg.IsFor i c := (h.proper i c hcall).holds msg (Or.inl hphase)
  have hfresh : ∀ m ∈ s.hist.accepted, m.watcher ≠ i := by
    intro m hm hi
    obtain ⟨d, hd, _, hsent⟩ := h.accepted m hm
    rw [hi, hcall] at hd
    obtain rfl := Option.some.inj hd
    rw [AppendPhase.Sent, hphase] at hsent
    rcases hsent with hsent | hsent <;> cases hsent
  refine ⟨?_, ?_, ?_, ?_⟩
  · intro j d hd
    rcases getElem?_set_cases hd with ⟨rfl, rfl⟩ | ⟨_, hold⟩
    · refine ⟨fun m hm => ?_, fun hw => ?_⟩
      · rcases hm with hm | ⟨err, hm⟩ <;> cases hm
      · rcases hw with hw | ⟨ch, hw⟩ <;> cases hw
    · exact h.proper j d hold
  · intro m hm
    rcases List.mem_append.mp hm with hold | hnew
    · obtain ⟨d, hd, hmfor, hsent⟩ := h.accepted m hold
      refine ⟨d, ?_, hmfor, hsent⟩
      rw [List.getElem?_set_ne (hfresh m hold).symm]
      exact hd
    · obtain rfl := List.mem_singleton.mp hnew
      rw [hfor.watcher]
      exact ⟨c.at .accepted, getElem?_set_same hcall, ⟨hfor.entries, hfor.metadata, hfor.watcher⟩,
        Or.inl rfl⟩
  · intro j d hd hsent
    rcases getElem?_set_cases hd with ⟨rfl, rfl⟩ | ⟨_, hold⟩
    · exact ⟨msg, List.mem_append_right _ (List.mem_singleton.mpr rfl), hfor.watcher⟩
    · obtain ⟨m, hm, hw⟩ := h.recorded j d hold hsent
      exact ⟨m, List.mem_append_left _ hm, hw⟩
  · rw [List.map_append, List.nodup_append]
    refine ⟨h.unique, List.nodup_singleton _, ?_⟩
    intro w hw w' hw'
    obtain ⟨m, hm, rfl⟩ := List.mem_map.mp hw
    obtain rfl : w' = i := by simpa [hfor.watcher] using hw'
    exact hfresh m hm

/-- Phases without a message and without a reservation to wait for. -/
theorem AppendCall.proper_of {c : AppendCall} {i : Nat} (hholds : ∀ msg, ¬ c.phase.Holds msg)
    (hwaits : ¬ c.phase.Waits) : c.Proper i :=
  ⟨fun msg hm => absurd hm (hholds msg), fun hw => absurd hw hwaits⟩

/-- A call that begins has got nothing accepted. -/
theorem AppendCalls.begin (h : AppendCalls s) (entries : List Bytes) (metadata : Bytes) :
    AppendCalls { s with appends := s.appends ++ [⟨entries, metadata, none, .entered⟩] } where
  proper := by
    intro j d hd
    rcases getElem?_concat_cases hd with ⟨_, rfl⟩ | hold
    · exact AppendCall.proper_of (by simp [AppendPhase.Holds]) (by simp [AppendPhase.Waits])
    · exact h.proper j d hold
  accepted := by
    intro m hm
    obtain ⟨d, hd, hfor, hsent⟩ := h.accepted m hm
    have hlt := (List.getElem?_eq_some_iff.mp hd).1
    refine ⟨d, ?_, hfor, hsent⟩
    rw [List.getElem?_append_left hlt]
    exact hd
  recorded := by
    intro j d hd hsent
    rcases getElem?_concat_cases hd with ⟨_, rfl⟩ | hold
    · rcases hsent with hsent | hsent <;> cases hsent
    · exact h.recorded j d hold hsent
  unique := h.unique

/-- The phase behind the checks on entry. -/
theorem appendEntry_cases (halted : Bool) (entries : List Bytes) :
    (∃ err, appendEntry halted entries = .returned (some err)) ∨
      appendEntry halted entries = .reserving ∧ entries ≠ [] := by
  unfold appendEntry
  split
  · exact Or.inl ⟨_, rfl⟩
  · split
    · exact Or.inl ⟨_, rfl⟩
    · refine Or.inr ⟨rfl, ?_⟩
      rintro rfl
      contradiction

/-- A call gets its message accepted once, with the send. -/
theorem AppendCalls.appendStep (h : AppendCalls s) (hs : AppendStep p s l t) : AppendCalls t := by
  cases hs with
  | begin entries metadata => exact h.begin entries metadata
  | @ctxDone i c text hcall hctx =>
      have hproper := h.proper i c hcall
      refine h.moves _ hcall rfl rfl Iff.rfl ⟨?_, hproper.waits⟩
      intro msg hm
      have hfor := hproper.holds msg hm
      exact ⟨hfor.entries, hfor.metadata, hfor.watcher⟩
  | @check i c hcall hphase =>
      refine h.moves _ hcall rfl rfl ?_ ?_
      · rcases appendEntry_cases s.halted c.entries with ⟨err, heq⟩ | ⟨heq, _⟩ <;>
          simp [AppendPhase.Sent, heq, hphase]
      · rcases appendEntry_cases s.halted c.entries with ⟨err, heq⟩ | ⟨heq, hne⟩
        · exact AppendCall.proper_of (by simp [AppendPhase.Holds, heq])
            (by simp [AppendPhase.Waits, heq])
        · exact ⟨by simp [AppendPhase.Holds, heq], fun _ => hne⟩
  | @reserve i c b msg hcall hphase hgrant hmsg =>
      have hmoved := h.moves (c.at (.sending msg)) hcall rfl rfl
        (by simp [AppendPhase.Sent, hphase]) ⟨?_, by simp [AppendPhase.Waits]⟩
      · exact hmoved.of_same rfl rfl
      · rintro m (hm | ⟨err, hm⟩)
        · obtain rfl : msg = m := by simpa using hm
          exact ⟨hmsg.entries, hmsg.metadata, hmsg.watcher⟩
        · cases hm
  | @park i ch c b hcall hphase hwait =>
      have hne := (h.proper i c hcall).waits (Or.inl hphase)
      have hmoved := h.moves (c.at (.parked ch)) hcall rfl rfl
        (by simp [AppendPhase.Sent, hphase]) ⟨by simp [AppendPhase.Holds], fun _ => hne⟩
      exact hmoved.of_same rfl rfl
  | @wake i ch c hcall hphase hclosed =>
      have hne := (h.proper i c hcall).waits (Or.inr ⟨ch, hphase⟩)
      exact h.moves _ hcall rfl rfl (by simp [AppendPhase.Sent, hphase])
        ⟨by simp [AppendPhase.Holds], fun _ => hne⟩
  | parkedCtx hcall hphase hctx =>
      exact h.moves _ hcall rfl rfl (by simp [AppendPhase.Sent, hphase])
        (AppendCall.proper_of (by simp [AppendPhase.Holds]) (by simp [AppendPhase.Waits]))
  | parkedShutdown hcall hphase hshutdown =>
      exact h.moves _ hcall rfl rfl (by simp [AppendPhase.Sent, hphase])
        (AppendCall.proper_of (by simp [AppendPhase.Holds]) (by simp [AppendPhase.Waits]))
  | send hcall hphase hopen hroom => exact (h.sends hcall hphase).of_same rfl rfl
  | sendClosed hcall hphase hclosed => exact h.of_same rfl rfl
  | @finish i c hcall hphase =>
      have hmoved := h.moves (c.at (.returned none)) hcall rfl rfl
        (by simp [AppendPhase.Sent, hphase])
        (AppendCall.proper_of (by simp [AppendPhase.Holds]) (by simp [AppendPhase.Waits]))
      exact hmoved.of_same rfl rfl
  | @sendCtx i c msg text hcall hphase hctx =>
      have hfor := (h.proper i c hcall).holds msg (Or.inl hphase)
      refine h.moves _ hcall rfl rfl (by simp [AppendPhase.Sent, hphase])
        ⟨?_, by simp [AppendPhase.Waits]⟩
      rintro m (hm | ⟨err, hm⟩) <;> cases hm
      exact ⟨hfor.entries, hfor.metadata, hfor.watcher⟩
  | @sendDone i c msg hcall hphase hdone =>
      have hfor := (h.proper i c hcall).holds msg (Or.inl hphase)
      refine h.moves _ hcall rfl rfl (by simp [AppendPhase.Sent, hphase])
        ⟨?_, by simp [AppendPhase.Waits]⟩
      rintro m (hm | ⟨err, hm⟩) <;> cases hm
      exact ⟨hfor.entries, hfor.metadata, hfor.watcher⟩
  | @abort i c msg err hcall hphase =>
      have hmoved := h.moves (c.at (.returned (some err))) hcall rfl rfl
        (by simp [AppendPhase.Sent, hphase])
        (AppendCall.proper_of (by simp [AppendPhase.Holds]) (by simp [AppendPhase.Waits]))
      exact hmoved.of_same rfl rfl

/-- The rotator may take the message of a sender directly. -/
theorem AppendCalls.rotatorStep (h : AppendCalls s) (hs : RotatorStep p s l t) :
    AppendCalls t := by
  cases hs with
  | handoff hphase hcap hqueue hopen hcall hsend => exact (h.sends hcall hsend).of_same rfl rfl
  | drainHandoff hphase hcap hqueue hopen hcall hsend =>
      exact (h.sends hcall hsend).of_same rfl rfl
  | _ => exact h.of_same rfl rfl

/-- **Step rule for the calls.** -/
theorem AppendCalls.step (h : AppendCalls s) (hs : ProducerStep p s l t) : AppendCalls t := by
  cases hs with
  | append _ hs => exact h.appendStep hs
  | flush _ hs => cases hs <;> exact h.of_same rfl rfl
  | close _ hs => cases hs <;> exact h.of_same rfl rfl
  | rotator _ hs => exact h.rotatorStep hs
  | encoder _ hs => cases hs <;> exact h.of_same rfl rfl
  | uploader _ hs => cases hs <;> exact h.of_same rfl rfl
  | committer _ hs => cases hs <;> exact h.of_same rfl rfl
  | resolver _ hs => cases hs <;> exact h.of_same rfl rfl
  | others hs => cases hs <;> exact h.of_same rfl rfl

theorem appendCalls_newProducer (store : ObjectStore) (items : List EnqueueItem) :
    AppendCalls (newProducer p store items) where
  proper := by simp [newProducer]
  accepted := by simp [newProducer]
  recorded := by simp [newProducer]
  unique := List.nodup_nil

/-- **Every call sends at most one message, in every run.** -/
theorem reachable_appendCalls {allowed : State → Label → Prop} {store : ObjectStore}
    {items : List EnqueueItem} (hrun : RunWhere p allowed (newProducer p store items) s) :
    AppendCalls s :=
  hrun.invariant (appendCalls_newProducer store items) (fun _ _ _ h _ hs => h.step hs)

/-- Accepted messages are told apart by their watchers. -/
theorem AppendCalls.watcher_inj (h : AppendCalls s) {m m' : AppendMessage}
    (hm : m ∈ s.hist.accepted) (hm' : m' ∈ s.hist.accepted) (hw : m.watcher = m'.watcher) :
    m = m' :=
  List.inj_on_of_nodup_map h.unique hm hm' hw

/-! ## What a step does to a call -/

/-- The moves of one call, its own and those another goroutine makes for it. -/
inductive CallMove (s : State) (l : Label) (t : State) (c : AppendCall) : AppendCall → Prop
  | ctxDone (text : String) (hctx : c.ctxErr = none) :
      CallMove s l t c { c with ctxErr := some text }
  | check (hphase : c.phase = .entered) : CallMove s l t c (c.at (appendEntry s.halted c.entries))
  | reserve (msg : AppendMessage) (hphase : c.phase = .reserving) (hlabel : l = .grants) :
      CallMove s l t c (c.at (.sending msg))
  | park {ch : Nat} (hphase : c.phase = .reserving)
      (hwait : s.budget.reserveBytes (appendByteCost c.entries c.metadata) = .wait t.budget ch) :
      CallMove s l t c (c.at (.parked ch))
  | wake {ch : Nat} (hphase : c.phase = .parked ch) : CallMove s l t c (c.at .reserving)
  | parkedCtx {ch : Nat} {text : String} (hphase : c.phase = .parked ch)
      (hctx : c.ctxErr = some text) : CallMove s l t c (c.at (.returned (some (.context text))))
  | parkedShutdown {ch : Nat} (hphase : c.phase = .parked ch) :
      CallMove s l t c (c.at (.returned (some .shutdown)))
  | sent {msg : AppendMessage} (hphase : c.phase = .sending msg)
      (hopen : s.appendCh.closed = false) : CallMove s l t c (c.at .accepted)
  | finish (hphase : c.phase = .accepted) : CallMove s l t c (c.at (.returned none))
  | sendCtx {msg : AppendMessage} {text : String} (hphase : c.phase = .sending msg)
      (hctx : c.ctxErr = some text) : CallMove s l t c (c.at (.aborting msg (.context text)))
  | sendDone {msg : AppendMessage} (hphase : c.phase = .sending msg)
      (hdone : s.rotator.phase = .exited) : CallMove s l t c (c.at (.aborting msg .shutdown))
  | abort {msg : AppendMessage} {err : BufferError} (hphase : c.phase = .aborting msg err) :
      CallMove s l t c (c.at (.returned (some err)))

/-- Where a call of the new state comes from. -/
inductive CallOrigin (s : State) (l : Label) (t : State) (i : Nat) (c' : AppendCall) : Prop
  | same (hcall : s.appends[i]? = some c')
  | begun (hnew : i = s.appends.length) (hphase : c'.phase = .entered)
  | moved {c : AppendCall} (hcall : s.appends[i]? = some c) (hmove : CallMove s l t c c')

/-- One call moves, and the others stay. -/
theorem CallOrigin.of_set {i j : Nat} {c c₀ c' : AppendCall} (hcall : s.appends[i]? = some c)
    (hmove : CallMove s l t c c₀) (hc' : (s.appends.set i c₀)[j]? = some c') :
    CallOrigin s l t j c' := by
  rcases getElem?_set_cases hc' with ⟨rfl, rfl⟩ | ⟨_, hold⟩
  · exact .moved hcall hmove
  · exact .same hold

/-- A step of a call moves that call. -/
theorem AppendStep.call (hs : AppendStep p s l t) {i : Nat} {c' : AppendCall}
    (hc' : t.appends[i]? = some c') : CallOrigin s l t i c' := by
  cases hs with
  | begin entries metadata =>
      rcases getElem?_concat_cases hc' with ⟨hi, rfl⟩ | hold
      · exact .begun hi rfl
      · exact .same hold
  | ctxDone text hcall hctx => exact .of_set hcall (.ctxDone text hctx) hc'
  | check hcall hphase => exact .of_set hcall (.check hphase) hc'
  | reserve hcall hphase hgrant hmsg => exact .of_set hcall (.reserve _ hphase rfl) hc'
  | park hcall hphase hwait => exact .of_set hcall (.park hphase hwait) hc'
  | wake hcall hphase hclosed => exact .of_set hcall (.wake hphase) hc'
  | parkedCtx hcall hphase hctx => exact .of_set hcall (.parkedCtx hphase hctx) hc'
  | parkedShutdown hcall hphase hshutdown => exact .of_set hcall (.parkedShutdown hphase) hc'
  | send hcall hphase hopen hroom => exact .of_set hcall (.sent hphase hopen) hc'
  | sendClosed hcall hphase hclosed => exact .same hc'
  | finish hcall hphase => exact .of_set hcall (.finish hphase) hc'
  | sendCtx hcall hphase hctx => exact .of_set hcall (.sendCtx hphase hctx) hc'
  | sendDone hcall hphase hdone => exact .of_set hcall (.sendDone hphase hdone) hc'
  | abort hcall hphase => exact .of_set hcall (.abort hphase) hc'

/-- **What one step can do to a call.** -/
theorem call_step (hs : ProducerStep p s l t) {i : Nat} {c' : AppendCall}
    (hc' : t.appends[i]? = some c') : CallOrigin s l t i c' := by
  cases hs with
  | append _ hs => exact hs.call hc'
  | rotator _ hs =>
      cases hs with
      | handoff _ _ _ hopen hcall hsend => exact .of_set hcall (.sent hsend hopen) hc'
      | drainHandoff _ _ _ hopen hcall hsend => exact .of_set hcall (.sent hsend hopen) hc'
      | _ => exact .same hc'
  | flush _ hs => cases hs <;> exact .same hc'
  | close _ hs => cases hs <;> exact .same hc'
  | encoder _ hs => cases hs <;> exact .same hc'
  | uploader _ hs => cases hs <;> exact .same hc'
  | committer _ hs => cases hs <;> exact .same hc'
  | resolver _ hs => cases hs <;> exact .same hc'
  | others hs => cases hs <;> exact .same hc'

/-- A call keeps its arguments. -/
theorem CallMove.entries {c c' : AppendCall} (h : CallMove s l t c c') :
    c'.entries = c.entries := by
  cases h <;> rfl

/-- Nothing is sent on a closed `appendCh`, and it stays closed. -/
theorem closed_step (hs : ProducerStep p s l t) (hclosed : s.appendCh.closed = true) :
    t.appendCh.closed = true ∧ t.hist.accepted = s.hist.accepted := by
  cases hs with
  | append _ hs =>
      cases hs with
      | send _ _ hopen _ => simp [hopen] at hclosed
      | _ => exact ⟨hclosed, rfl⟩
  | rotator _ hs =>
      cases hs with
      | handoff _ _ _ hopen _ _ => simp [hopen] at hclosed
      | drainHandoff _ _ _ hopen _ _ => simp [hopen] at hclosed
      | _ => exact ⟨hclosed, rfl⟩
  | flush _ hs => cases hs <;> exact ⟨hclosed, rfl⟩
  | close _ hs => cases hs <;> first | exact ⟨hclosed, rfl⟩ | exact ⟨rfl, rfl⟩
  | encoder _ hs => cases hs <;> exact ⟨hclosed, rfl⟩
  | uploader _ hs => cases hs <;> exact ⟨hclosed, rfl⟩
  | committer _ hs => cases hs <;> exact ⟨hclosed, rfl⟩
  | resolver _ hs => cases hs <;> exact ⟨hclosed, rfl⟩
  | others hs => cases hs <;> exact ⟨hclosed, rfl⟩

end OpenDataBuffer
