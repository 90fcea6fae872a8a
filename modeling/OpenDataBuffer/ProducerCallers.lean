import OpenDataBuffer.AppendCalls
import OpenDataBuffer.BudgetCallers

/-!
# The callers of a producer's budget

`State.callers` reads off a state of the producer where its goroutines and calls
stand at the budget: a call of `AppendContext` in `reserveBytes`, the rotator in
`acquireBatchSlot`, a call of `Flush` in `waitDrained`.  Every step of the producer
moves at most one of them, so a run of the producer is a run of the budget and its
callers (`RunWhere.callers`), and what is known of those holds in every reachable
state.
-/

namespace OpenDataBuffer

open ProducerBudget ListUpdate LabelledRuns

variable {ι : Type} [DecidableEq ι]

/-- Who calls the waiting methods of a producer's budget. -/
inductive BudgetUser
  | append (i : Nat)
  | rotator
  | flush (f : Nat)
  deriving DecidableEq

/-- Where a call stands that reserves `n` bytes. -/
def AppendPhase.atBudget (n : Nat) : AppendPhase → CallerPhase
  | .reserving => .calling (.bytes n)
  | .parked ch => .parked (.bytes n) ch
  | _ => .idle

def AppendCall.atBudget (c : AppendCall) : CallerPhase :=
  c.phase.atBudget (appendByteCost c.entries c.metadata)

def RotatorPhase.atBudget : RotatorPhase → CallerPhase
  | .acquiring _ _ => .calling .slot
  | .parked _ _ ch => .parked .slot ch
  | _ => .idle

def FlushPhase.atBudget : FlushPhase → CallerPhase
  | .draining _ => .calling .drained
  | .parked _ ch => .parked .drained ch
  | _ => .idle

/-- Where the calls and the rotator stand at the budget. -/
def atBudget (appends : List AppendCall) (rotator : RotatorPhase) (flushes : List FlushCall) :
    BudgetUser → CallerPhase
  | .append i => (appends[i]?).elim .idle AppendCall.atBudget
  | .rotator => rotator.atBudget
  | .flush f => (flushes[f]?).elim .idle fun c => c.phase.atBudget

/-- The budget of a producer and its callers. -/
def State.callers (s : State) : Callers BudgetUser where
  budget := s.budget
  caller := atBudget s.appends s.rotator.phase s.flushes

section Views

variable {appends : List AppendCall} {rotator : RotatorPhase} {flushes : List FlushCall}

/-- One call of `AppendContext` moves at the budget. -/
theorem atBudget_append {i : Nat} {c : AppendCall} (c' : AppendCall) (h : appends[i]? = some c) :
    atBudget (appends.set i c') rotator flushes =
      Function.update (atBudget appends rotator flushes) (.append i) c'.atBudget := by
  funext user
  cases user with
  | append j =>
      by_cases hj : j = i
      · subst hj
        simp [atBudget, getElem?_set_same h]
      · simp [atBudget, hj, List.getElem?_set_ne (Ne.symm hj)]
  | rotator => simp [atBudget]
  | flush f => simp [atBudget]

/-- One call of `Flush` moves at the budget. -/
theorem atBudget_flush {f : Nat} {c : FlushCall} (c' : FlushCall) (h : flushes[f]? = some c) :
    atBudget appends rotator (flushes.set f c') =
      Function.update (atBudget appends rotator flushes) (.flush f) c'.phase.atBudget := by
  funext user
  cases user with
  | flush g =>
      by_cases hg : g = f
      · subst hg
        simp [atBudget, getElem?_set_same h]
      · simp [atBudget, hg, List.getElem?_set_ne (Ne.symm hg)]
  | rotator => simp [atBudget]
  | append i => simp [atBudget]

/-- The rotator moves at the budget. -/
theorem atBudget_rotator (phase : RotatorPhase) :
    atBudget appends phase flushes =
      Function.update (atBudget appends rotator flushes) .rotator phase.atBudget := by
  funext user
  cases user <;> simp [atBudget]

/-- A call that stays where it is at the budget does not show. -/
theorem atBudget_append_same {i : Nat} {c c' : AppendCall} (h : appends[i]? = some c)
    (hsame : c'.atBudget = c.atBudget) :
    atBudget (appends.set i c') rotator flushes = atBudget appends rotator flushes := by
  have hnow : atBudget appends rotator flushes (.append i) = c.atBudget := by
    simp [atBudget, h]
  rw [atBudget_append c' h, hsame, ← hnow, Function.update_eq_self]

/-- A flush call that stays where it is at the budget does not show. -/
theorem atBudget_flush_same {f : Nat} {c c' : FlushCall} (h : flushes[f]? = some c)
    (hsame : c'.phase.atBudget = c.phase.atBudget) :
    atBudget appends rotator (flushes.set f c') = atBudget appends rotator flushes := by
  have hnow : atBudget appends rotator flushes (.flush f) = c.phase.atBudget := by
    simp [atBudget, h]
  rw [atBudget_flush c' h, hsame, ← hnow, Function.update_eq_self]

/-- A list of calls with one more at the end that is idle looks as before. -/
theorem elim_concat_idle {α : Type} {calls : List α} {c : α} {phase : α → CallerPhase}
    (hidle : phase c = .idle) (j : Nat) :
    ((calls ++ [c])[j]?).elim .idle phase = (calls[j]?).elim .idle phase := by
  rcases Nat.lt_trichotomy j calls.length with hj | rfl | hj
  · rw [List.getElem?_append_left hj]
  · simp [hidle]
  · have hout : (calls ++ [c]).length ≤ j := by
      rw [List.length_append]
      exact hj
    rw [List.getElem?_eq_none hout, List.getElem?_eq_none (Nat.le_of_lt hj)]

/-- A call that has just begun is not at the budget. -/
theorem atBudget_append_new {c : AppendCall} (hidle : c.atBudget = .idle) :
    atBudget (appends ++ [c]) rotator flushes = atBudget appends rotator flushes := by
  funext user
  cases user with
  | append j => exact elim_concat_idle hidle j
  | rotator => rfl
  | flush f => rfl

theorem atBudget_flush_new {c : FlushCall} (hidle : c.phase.atBudget = .idle) :
    atBudget appends rotator (flushes ++ [c]) = atBudget appends rotator flushes := by
  funext user
  cases user with
  | flush g => exact @elim_concat_idle FlushCall flushes c (fun c => c.phase.atBudget) hidle g
  | rotator => rfl
  | append i => rfl

end Views

/-- What one user and the budget do in one step. -/
inductive UserMove (b : ProducerBudget) : CallerPhase → CallerPhase → ProducerBudget → Prop
  | same {phase : CallerPhase} : UserMove b phase phase b
  | call {request : BudgetRequest} : UserMove b .idle (.calling request) b
  | granted {request : BudgetRequest} {b' : ProducerBudget} (h : request.region b = .granted b') :
      UserMove b (.calling request) .idle b'
  | waits {request : BudgetRequest} {b' : ProducerBudget} {ch : Nat}
      (h : request.region b = .wait b' ch) : UserMove b (.calling request) (.parked request ch) b'
  | wakes {request : BudgetRequest} {ch : Nat} (h : ch ∈ b.closed) :
      UserMove b (.parked request ch) (.calling request) b
  | leaves {request : BudgetRequest} {ch : Nat} : UserMove b (.parked request ch) .idle b
  | release {phase : CallerPhase} (bytes batches : Int) :
      UserMove b phase phase (b.release bytes batches)
  | charge {phase : CallerPhase} (extra : Int) : UserMove b phase phase (b.addReservation extra)

/-- Nothing has happened at the budget, or one step. -/
def CallersMove (s t : Callers ι) : Prop := t = s ∨ ∃ l, CallersStep s l t

/-- What one user does is a step of the callers, or none. -/
theorem UserMove.callers {s t : Callers ι} {i : ι} {phase phase' : CallerPhase}
    (hmove : UserMove s.budget phase phase' t.budget) (hold : s.caller i = phase)
    (hnew : t.caller = Function.update s.caller i phase') : CallersMove s t := by
  obtain ⟨b, caller⟩ := t
  subst hnew
  have hstays : Function.update s.caller i phase = s.caller := by
    rw [← hold, Function.update_eq_self]
  cases hmove with
  | same => rw [hstays]; exact Or.inl rfl
  | call => exact Or.inr ⟨_, .call _ hold⟩
  | granted h => exact Or.inr ⟨_, .granted hold h⟩
  | waits h => exact Or.inr ⟨_, .waits hold h⟩
  | wakes h => exact Or.inr ⟨_, .wakes hold h⟩
  | leaves => exact Or.inr ⟨_, .leaves hold⟩
  | release bytes batches => rw [hstays]; exact Or.inr ⟨_, .release bytes batches⟩
  | charge extra => rw [hstays]; exact Or.inr ⟨_, .charge extra⟩

variable {p : Producer} {s t : State} {l : Label}

/-- Nobody has moved at the budget. -/
theorem callers_same (hbudget : t.budget = s.budget)
    (hcalls : atBudget t.appends t.rotator.phase t.flushes =
      atBudget s.appends s.rotator.phase s.flushes) : CallersMove s.callers t.callers := by
  left
  rw [State.callers, State.callers, hbudget, hcalls]

/-- A call of `AppendContext` moves. -/
theorem callers_append {i : Nat} {c : AppendCall} {phase phase' : AppendPhase}
    (hcall : s.appends[i]? = some c) (hphase : c.phase = phase)
    (happends : t.appends = s.appends.set i (c.at phase'))
    (hrotator : t.rotator.phase = s.rotator.phase) (hflushes : t.flushes = s.flushes)
    (hmove : UserMove s.budget (phase.atBudget (appendByteCost c.entries c.metadata))
      (phase'.atBudget (appendByteCost c.entries c.metadata)) t.budget) :
    CallersMove s.callers t.callers := by
  refine UserMove.callers (s := s.callers) (t := t.callers) (i := .append i) hmove ?_ ?_
  · simp [State.callers, atBudget, hcall, AppendCall.atBudget, hphase]
  · rw [State.callers, State.callers, happends, hrotator, hflushes]
    exact atBudget_append _ hcall

/-- A call of `Flush` moves. -/
theorem callers_flush {f : Nat} {c c' : FlushCall} {phase : FlushPhase}
    (hcall : s.flushes[f]? = some c) (hphase : c.phase = phase)
    (hflushes : t.flushes = s.flushes.set f c')
    (hrotator : t.rotator.phase = s.rotator.phase) (happends : t.appends = s.appends)
    (hmove : UserMove s.budget phase.atBudget c'.phase.atBudget t.budget) :
    CallersMove s.callers t.callers := by
  refine UserMove.callers (s := s.callers) (t := t.callers) (i := .flush f) hmove ?_ ?_
  · simp [State.callers, atBudget, hcall, hphase]
  · rw [State.callers, State.callers, happends, hrotator, hflushes]
    exact atBudget_flush _ hcall

/-- The rotator moves; calls it touches stay where they are at the budget. -/
theorem callers_rotator {phase : RotatorPhase} (hphase : s.rotator.phase = phase)
    (hcalls : atBudget t.appends t.rotator.phase t.flushes =
      atBudget s.appends t.rotator.phase s.flushes)
    (hmove : UserMove s.budget phase.atBudget t.rotator.phase.atBudget t.budget) :
    CallersMove s.callers t.callers := by
  refine UserMove.callers (s := s.callers) (t := t.callers) (i := .rotator) hmove ?_ ?_
  · simp [State.callers, atBudget, hphase]
  · rw [State.callers, State.callers, hcalls]
    exact atBudget_rotator _

/-- A step of `AppendContext` at the budget. -/
theorem AppendStep.callers (hs : AppendStep p s l t) : CallersMove s.callers t.callers := by
  cases hs with
  | begin entries metadata =>
      refine callers_same rfl (atBudget_append_new ?_)
      rfl
  | ctxDone text hcall hctx =>
      refine callers_same rfl (atBudget_append_same hcall ?_)
      rfl
  | @check i c hcall hphase =>
      refine callers_append hcall hphase rfl rfl rfl ?_
      rcases appendEntry_cases s.halted c.entries with ⟨err, hentry⟩ | ⟨hentry, -⟩
      · rw [hentry]
        exact .same
      · rw [hentry]
        exact .call
  | reserve hcall hphase hgrant hmsg =>
      exact callers_append hcall hphase rfl rfl rfl (.granted hgrant)
  | park hcall hphase hwait => exact callers_append hcall hphase rfl rfl rfl (.waits hwait)
  | wake hcall hphase hclosed => exact callers_append hcall hphase rfl rfl rfl (.wakes hclosed)
  | parkedCtx hcall hphase hctx => exact callers_append hcall hphase rfl rfl rfl .leaves
  | parkedShutdown hcall hphase hshutdown => exact callers_append hcall hphase rfl rfl rfl .leaves
  | send hcall hphase hopen hroom => exact callers_append hcall hphase rfl rfl rfl .same
  | sendClosed hcall hphase hclosed => exact Or.inl rfl
  | finish hcall hphase => exact callers_append hcall hphase rfl rfl rfl .same
  | sendCtx hcall hphase hctx => exact callers_append hcall hphase rfl rfl rfl .same
  | sendDone hcall hphase hdone => exact callers_append hcall hphase rfl rfl rfl .same
  | abort hcall hphase => exact callers_append hcall hphase rfl rfl rfl (.release _ _)

theorem FlushStep.callers (hs : FlushStep s l t) : CallersMove s.callers t.callers := by
  cases hs with
  | begin =>
      refine callers_same rfl (atBudget_flush_new ?_)
      rfl
  | ctxDone text hcall hctx =>
      refine callers_same rfl (atBudget_flush_same hcall ?_)
      rfl
  | requestDone hcall hphase hdone => exact callers_flush hcall hphase rfl rfl rfl .same
  | requestCtx hcall hphase hctx => exact callers_flush hcall hphase rfl rfl rfl .same
  | receiveAck hcall hphase hresult => exact callers_flush hcall hphase rfl rfl rfl .call
  | awaitDone hcall hphase hdone => exact callers_flush hcall hphase rfl rfl rfl .same
  | awaitCtx hcall hphase hctx => exact callers_flush hcall hphase rfl rfl rfl .same
  | drained hcall hphase hgrant => exact callers_flush hcall hphase rfl rfl rfl (.granted hgrant)
  | park hcall hphase hwait => exact callers_flush hcall hphase rfl rfl rfl (.waits hwait)
  | wake hcall hphase hclosed => exact callers_flush hcall hphase rfl rfl rfl (.wakes hclosed)
  | parkedCtx hcall hphase hctx => exact callers_flush hcall hphase rfl rfl rfl .leaves
  | parkedShutdown hcall hphase hshutdown => exact callers_flush hcall hphase rfl rfl rfl .leaves

/-- Behind an emit the rotator is not at the budget. -/
theorem afterEmit_atBudget (reason : FlushReason) : (afterEmit reason).atBudget = .idle := by
  unfold afterEmit
  split <;> rfl

theorem afterDrop_atBudget (reason : FlushReason) (ack : Option Nat) :
    (afterDrop reason ack).atBudget = .idle := by
  cases ack with
  | none => exact afterEmit_atBudget reason
  | some f => rfl

/-- `emit` calls `acquireBatchSlot`, unless there is nothing to emit. -/
theorem emit_userMove (b : ProducerBudget) (reason : FlushReason) (ack : Option Nat)
    (batch : OpenBatch) : UserMove b .idle (emit reason ack batch).atBudget b := by
  unfold emit
  split
  · cases ack with
    | none =>
        simp only [afterEmit_atBudget]
        exact .same
    | some f => exact .same
  · exact .call

/-- With the message that fills a batch the rotator asks for a slot. -/
theorem afterAdd_userMove (b : ProducerBudget) (batch : OpenBatch) :
    UserMove b .idle (p.afterAdd batch).atBudget b := by
  unfold Producer.afterAdd
  split
  · exact emit_userMove b _ _ _
  · exact .same

/-- A step of the rotator at the budget. -/
theorem RotatorStep.callers (hs : RotatorStep p s l t) : CallersMove s.callers t.callers := by
  cases hs with
  | receive hphase hqueue => exact callers_rotator hphase rfl (afterAdd_userMove _ _)
  | handoff hphase hcap hqueue hopen hcall hsend =>
      refine callers_rotator hphase ?_ (afterAdd_userMove _ _)
      exact atBudget_append_same hcall
        (by rw [AppendCall.atBudget, AppendCall.atBudget, hsend]; rfl)
  | receiveClosed hphase hqueue hclosed => exact callers_rotator hphase rfl (emit_userMove _ _ _ _)
  | takeFlush hphase hcall hrequest =>
      refine callers_rotator hphase ?_ .same
      exact atBudget_flush_same hcall (by rw [hrequest]; rfl)
  | drainReceive hphase hqueue => exact callers_rotator hphase rfl .same
  | drainHandoff hphase hcap hqueue hopen hcall hsend =>
      refine callers_rotator hphase ?_ .same
      exact atBudget_append_same hcall
        (by rw [AppendCall.atBudget, AppendCall.atBudget, hsend]; rfl)
  | drainDone hphase hqueue => exact callers_rotator hphase rfl (emit_userMove _ _ _ _)
  | timer hphase hstarted => exact callers_rotator hphase rfl (emit_userMove _ _ _ _)
  | acquire hphase hgrant => exact callers_rotator hphase rfl (.granted hgrant)
  | park hphase hwait => exact callers_rotator hphase rfl (.waits hwait)
  | wake hphase hclosed => exact callers_rotator hphase rfl (.wakes hclosed)
  | refused hphase hshutdown => exact callers_rotator hphase rfl .leaves
  | drop hphase => exact callers_rotator hphase rfl (.release _ _)
  | dropResolve hphase => exact callers_rotator hphase rfl .same
  | @dropDone reason ack hphase =>
      refine callers_rotator hphase rfl ?_
      show UserMove s.budget .idle (afterDrop reason ack).atBudget s.budget
      rw [afterDrop_atBudget]
      exact .same
  | @ack reason f err c hphase hcall hroom =>
      refine callers_rotator hphase (atBudget_flush_same hcall ?_) ?_
      · rfl
      · show UserMove s.budget .idle (afterEmit reason).atBudget s.budget
        rw [afterEmit_atBudget]
        exact .same
  | reconcile hphase => exact callers_rotator hphase rfl (.charge _)
  | sendClosed hphase hclosed => exact Or.inl rfl
  | closePending hphase => exact callers_rotator hphase rfl .same
  | closeDone hphase => exact callers_rotator hphase rfl .same

/-- **Every step of the producer is a step of the budget and its callers, or
none.** -/
theorem ProducerStep.callers (hs : ProducerStep p s l t) : CallersMove s.callers t.callers := by
  cases hs with
  | append _ hs => exact hs.callers
  | flush _ hs => exact hs.callers
  | close _ hs =>
      cases hs with
      | begin hphase =>
          refine callers_same rfl (atBudget_flush_new ?_)
          rfl
      | _ => exact Or.inl rfl
  | rotator _ hs => exact hs.callers
  | encoder _ hs =>
      cases hs with
      | @take i pb henc hsend =>
          refine callers_rotator hsend rfl ?_
          show UserMove s.budget .idle (afterEmit pb.reason).atBudget s.budget
          rw [afterEmit_atBudget]
          exact .same
      | _ => exact Or.inl rfl
  | uploader _ hs => cases hs <;> exact Or.inl rfl
  | committer _ hs => cases hs <;> exact Or.inl rfl
  | resolver _ hs =>
      cases hs with
      | ack hphase hack hcall hroom =>
          refine callers_same rfl (atBudget_flush_same hcall ?_)
          rfl
      | release hphase => exact Or.inr ⟨none, .release _ _⟩
      | _ => exact Or.inl rfl
  | others hs => cases hs <;> exact Or.inl rfl

/-- **A run of the producer is a run of its budget and the budget's callers.** -/
theorem RunWhere.callers {allowed : State → Label → Prop} (hrun : RunWhere p allowed s t) :
    CallersRun s.callers t.callers := by
  induction hrun with
  | refl => exact .refl
  | tail _ _ hs ih =>
      rcases hs.callers with hsame | ⟨l, hstep⟩
      · rw [hsame]
        exact ih
      · exact ih.tail trivial hstep

theorem callers_newProducer (store : ObjectStore) (items : List EnqueueItem) :
    (newProducer p store items).callers =
      Callers.new p.config.MaxInFlightBytes p.config.MaxInFlightBatches := by
  rw [State.callers, Callers.new]
  congr 1
  funext user
  cases user <;> rfl

/-! ## No wake-up of a producer is lost -/

/-- A step of the producer keeps what steps of the budget's callers keep. -/
theorem Wakeful.producerStep (h : Wakeful s.callers) (hs : ProducerStep p s l t) :
    Wakeful t.callers := by
  rcases hs.callers with hsame | ⟨_, hstep⟩
  · rw [hsame]
    exact h
  · exact h.step hstep

theorem wakeful_newProducer (store : ObjectStore) (items : List EnqueueItem) :
    Wakeful (newProducer p store items).callers := by
  rw [callers_newProducer]
  exact wakeful_new _ _

section Parked

variable (h : Wakeful s.callers)

include h

/-- A parked call of `AppendContext` can go on, or there is no room for it. -/
theorem Wakeful.append {i ch : Nat} {c : AppendCall} (hcall : s.appends[i]? = some c)
    (hphase : c.phase = .parked ch) :
    (BudgetRequest.bytes (appendByteCost c.entries c.metadata)).Awaits s.budget ch :=
  h.parked (.append i) _ ch (by simp [State.callers, atBudget, hcall, AppendCall.atBudget,
    AppendPhase.atBudget, hphase])

/-- A parked rotator can go on, or all slots are taken. -/
theorem Wakeful.rotator {reason : FlushReason} {ack : Option Nat} {ch : Nat}
    (hphase : s.rotator.phase = .parked reason ack ch) : BudgetRequest.slot.Awaits s.budget ch :=
  h.parked .rotator _ ch (by simp [State.callers, atBudget, RotatorPhase.atBudget, hphase])

/-- A parked call of `Flush` can go on, or there is a batch in flight. -/
theorem Wakeful.flush {f ch : Nat} {c : FlushCall} {v : Option BufferError}
    (hcall : s.flushes[f]? = some c) (hphase : c.phase = .parked v ch) :
    BudgetRequest.drained.Awaits s.budget ch :=
  h.parked (.flush f) _ ch (by simp [State.callers, atBudget, hcall, FlushPhase.atBudget, hphase])

end Parked

end OpenDataBuffer
