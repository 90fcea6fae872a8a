import OpenDataBuffer.CommitLog
import OpenDataBuffer.ProducerCallers

/-!
# What a goroutine waits for

A goroutine that is parked at the budget waits on a channel.  The channel is
closed, so the goroutine can go on; or it is the current one and the reason to
wait is still there (`Wakeful`, of the budget and its callers).  `Waiting` adds
three facts about points of the code at which a goroutine cannot be found.
-/

namespace OpenDataBuffer

variable {p : Producer} {s t : State} {l : Label}

/-! ## The rotator -/

/-- A point at which the rotator does not drop and does not hand a batch over. -/
def RotatorPhase.Plain : RotatorPhase → Prop
  | .dropping _ _ => False
  | .sendingPending _ => False
  | _ => True

theorem plain_afterEmit (reason : FlushReason) : (afterEmit reason).Plain := by
  unfold afterEmit
  split <;> trivial

theorem plain_emit (reason : FlushReason) (ack : Option Nat) (b : OpenBatch) :
    (emit reason ack b).Plain := by
  unfold emit
  split
  · cases ack with
    | none => exact plain_afterEmit reason
    | some f => trivial
  · trivial

theorem plain_afterAdd (b : OpenBatch) : (p.afterAdd b).Plain := by
  unfold Producer.afterAdd
  split
  · exact plain_emit _ _ _
  · trivial

theorem plain_afterDrop (reason : FlushReason) (ack : Option Nat) :
    (afterDrop reason ack).Plain := by
  cases ack with
  | none => exact plain_afterEmit reason
  | some f => trivial

/-- What a step does to the rotator. -/
inductive RotatorMove (s t : State) : Prop
  | same (hrotator : t.rotator = s.rotator)
  | plain (hphase : t.rotator.phase.Plain)
  | refused {reason : FlushReason} {ack : Option Nat} (hshutdown : s.shutdown = true)
      (hphase : t.rotator.phase = .dropping reason ack)
  | emits {pb : PendingBatch} (hphase : t.rotator.phase = .sendingPending pb)
      (hordinal : pb.ordinal + 1 = t.rotator.ordinal)

theorem RotatorStep.move (hs : RotatorStep p s l t) : RotatorMove s t := by
  cases hs with
  | receive hphase hqueue => exact .plain (plain_afterAdd _)
  | handoff hphase hcap hqueue hopen hcall hsend => exact .plain (plain_afterAdd _)
  | receiveClosed hphase hqueue hclosed => exact .plain (plain_emit _ _ _)
  | drainDone hphase hqueue => exact .plain (plain_emit _ _ _)
  | timer hphase hstarted => exact .plain (plain_emit _ _ _)
  | dropDone hphase => exact .plain (plain_afterDrop _ _)
  | ack hphase hcall hroom => exact .plain (plain_afterEmit _)
  | refused hphase hshutdown => exact .refused hshutdown rfl
  | reconcile hphase => exact .emits rfl rfl
  | sendClosed hphase hclosed => exact .same rfl
  | _ => exact .plain trivial

/-- **What one step can do to the rotator.** -/
theorem rotator_step (hs : ProducerStep p s l t) : RotatorMove s t := by
  cases hs with
  | rotator _ hs => exact hs.move
  | encoder _ hs =>
      cases hs with
      | take henc hsend => exact .plain (plain_afterEmit _)
      | _ => exact .same rfl
  | append _ hs => cases hs <;> exact .same rfl
  | flush _ hs => cases hs <;> exact .same rfl
  | close _ hs => cases hs <;> exact .same rfl
  | uploader _ hs => cases hs <;> exact .same rfl
  | committer _ hs => cases hs <;> exact .same rfl
  | resolver _ hs => cases hs <;> exact .same rfl
  | others hs => cases hs <;> exact .same rfl

/-! ## The invariant -/

/-- The resolver acknowledges a flush only if there is one. -/
theorem resolver_acking_step (hs : ProducerStep p s l t) {ri : ResolverItem}
    (hphase : t.resolver = .acking ri) : s.resolver = .acking ri ∨ ri.flushAck ≠ none := by
  cases hs with
  | resolver _ hs =>
      cases hs with
      | @resolvedAll ri' hold =>
          have hafter : afterWatchers ri' = .acking ri := hphase
          unfold afterWatchers at hafter
          split at hafter
          · rename_i hsome
            cases hafter
            exact Or.inr (by simp [hsome])
          · cases hafter
      | closeResolver hdone hopen => exact Or.inl hphase
      | _ => cases hphase
  | append _ hs => cases hs <;> exact Or.inl hphase
  | flush _ hs => cases hs <;> exact Or.inl hphase
  | close _ hs => cases hs <;> exact Or.inl hphase
  | rotator _ hs => cases hs <;> exact Or.inl hphase
  | encoder _ hs => cases hs <;> exact Or.inl hphase
  | uploader _ hs => cases hs <;> exact Or.inl hphase
  | committer _ hs => cases hs <;> exact Or.inl hphase
  | others hs => cases hs <;> exact Or.inl hphase

/-- `casWithRetry` does not stop behind a return of `enqueueBatch`. -/
def CasPhase.Proper (phase : CasPhase) : Prop := ∀ n err, phase ≠ .enqueueing (.returned n err)

/-- A return of `enqueueBatch` is acted upon in the same step. -/
theorem proper_settle (n : Nat) (call : CasCall) (phase : EnqueuePhase) :
    (call.settle n phase).phase.Proper := by
  intro m err
  unfold CasCall.settle
  split
  · simp
  · split <;> simp
  · rename_i hnone hsome
    intro heq
    cases heq
    cases err with
    | none => exact hnone m rfl
    | some err => exact hsome m err rfl

/-- `casWithRetry` never stands behind a return of `enqueueBatch`. -/
theorem CasStep.proper {items : List EnqueueItem} {call call' : CasCall}
    (hs : CasStep p s items call l call') : call'.phase.Proper := by
  cases hs with
  | abandon hcall hshutdown =>
      intro n err heq
      cases heq
  | _ => exact proper_settle _ _ _

/-- What the goroutines and callers that wait are waiting for. -/
structure Waiting (s : State) : Prop where
  budget : Wakeful s.callers
  /-- The rotator hands over the newest batch. -/
  newest : ∀ pb, s.rotator.phase = .sendingPending pb → pb.ordinal + 1 = s.rotator.ordinal
  resolver : ∀ ri, s.resolver = .acking ri → ri.flushAck ≠ none
  cas : ∀ group failed call, s.committer.phase = .cas group failed call → call.phase.Proper

/-- **Step rule for waiting.** -/
theorem Waiting.step (h : Waiting s) (hs : ProducerStep p s l t) : Waiting t := by
  refine ⟨h.budget.producerStep hs, ?_, ?_, ?_⟩
  · intro pb hphase
    cases rotator_step hs with
    | same hrotator =>
        rw [hrotator] at hphase ⊢
        exact h.newest pb hphase
    | plain hplain =>
        rw [hphase] at hplain
        exact hplain.elim
    | refused hshutdown hnow => cases hnow.symm.trans hphase
    | emits hnow hordinal =>
        cases hnow.symm.trans hphase
        exact hordinal
  · intro ri hphase
    rcases resolver_acking_step hs hphase with hold | hne
    · exact h.resolver ri hold
    · exact hne
  · intro group failed call hphase
    cases cas_origin hs hphase with
    | same hold howned => exact h.cas _ _ _ hold
    | moved hold hcas howned => exact hcas.proper
    | applied hold hcall hnow howned =>
        intro n err heq
        cases hnow.symm.trans heq
    | collected hold hne hgroup hfailed hcall howned =>
        rw [hcall]
        exact proper_settle _ _ _

theorem waiting_newProducer (store : ObjectStore) (items : List EnqueueItem) :
    Waiting (newProducer p store items) :=
  ⟨wakeful_newProducer store items, nofun, nofun, nofun⟩

/-- **Nobody waits for nothing, in every run.** -/
theorem reachable_waiting {allowed : State → Label → Prop} {store : ObjectStore}
    {items : List EnqueueItem} (hrun : RunWhere p allowed (newProducer p store items) s) :
    Waiting s :=
  hrun.invariant (waiting_newProducer store items) fun _ _ _ h _ hs => h.step hs

end OpenDataBuffer
