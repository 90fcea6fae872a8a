import OpenDataBuffer.BudgetCallers
import OpenDataBuffer.CommitFeed
import OpenDataBuffer.RotationRuns

/-!
# Nothing goes on for ever

Callers that are woken up and park again, uploads and commits that are retried, a
manifest that is read again after a conflict: all of this can happen many times.
But every wake-up needs bytes or slots that are given back, attempts are counted, and
a conflict needs a write of somebody else.

`State.work` is the work that is left: for every message, batch, call and goroutine
the steps it may still take, where somebody who is woken up counts more than somebody
who sleeps.  Whoever closes a channel pays for all who may wait for it.  Every step of
the producer's own code makes the work less (`work_decreases`), whatever the store
answers.
-/

namespace OpenDataBuffer

open LabelledRuns ListUpdate ProducerBudget

/-- The producer's own code takes the step: no call begins, no context ends, and no
other party writes. -/
def Label.Own (l : Label) : Prop := l ≠ .call ∧ l ≠ .others

/-! ## The work that is left -/

section Work

/-- More than what the closing of channels gives to `n` calls and the rotator. -/
def wakeWork (n : Nat) : Nat := 2 * n + 3

/-- The work on a batch whose outcome is decided. -/
def Batch.resolveWork (n : Nat) (b : Batch) : Nat := wakeWork n + 4 + b.watchers.length

variable (p : Producer) (n k : Nat) (closed : List Nat)

/-- Attempts that are left, each of which may write to the store once.  For a write `k` is
paid to those who see it. -/
def triesWork (tries : Nat) : Nat := tries * (k + 8)

/-- More than a call of `casWithRetry`. -/
def casWork : Nat := triesWork k p.manifestMaxAttempts + 8

/-- The work on a batch in `ready`. -/
def Batch.commitWork (b : Batch) : Nat := b.resolveWork n + casWork p k

/-- The work on a batch in `uploadCompletionCh`. -/
def Batch.deliverWork (b : Batch) : Nat := b.commitWork p n k + 3

/-- The work on a batch that an encoder holds. -/
def Batch.encodeWork (b : Batch) : Nat :=
  b.deliverWork p n k + (triesWork k p.uploadMaxAttempts + 10)

/-- The work on a message in the accumulator: enough for a batch of its own. -/
def messageWork : Nat :=
  2 * wakeWork n + (casWork p k + triesWork k p.uploadMaxAttempts + 23)

def AppendPhase.work : AppendPhase → Nat
  | .entered => messageWork p n k + 7
  | .reserving => messageWork p n k + 5
  | .parked ch => messageWork p n k + if ch ∈ closed then 6 else 4
  | .sending _ => messageWork p n k + 3
  | .aborting _ _ => wakeWork n + 1
  | .accepted => 1
  | .returned _ => 0

def FlushPhase.work : FlushPhase → Nat
  | .requesting => 7
  | .awaiting => 4
  | .draining _ => 2
  | .parked _ ch => if ch ∈ closed then 3 else 1
  | .returned _ => 0

def ClosePhase.work : ClosePhase → Nat
  | .notCalled => 0
  | .flushing _ => 9
  | .closing _ _ => 8
  | .waiting _ _ left => left.length + 2
  | .forcing _ _ => 1
  | .returned _ _ => 0

def RotatorPhase.work : RotatorPhase → Nat
  | .selecting => 10
  | .draining _ => 12
  | .acquiring _ _ => 8
  | .parked _ _ ch => if ch ∈ closed then 9 else 7
  | .dropping _ _ => 6
  | .resolvingDrop _ _ left => left.length + 12
  | .acking _ _ _ => 11
  | .reconciling _ _ => 5
  | .sendingPending pb => pb.encodeWork p n k + 10
  | .closingPending => 2
  | .closingDone => 1
  | .exited => 0

def EncoderPhase.work : EncoderPhase → Nat
  | .receiving => 1
  | .encoding pb => pb.encodeWork p n k
  | .sendingEncoded eb => eb.deliverWork p n k + (triesWork k p.uploadMaxAttempts + 9)
  | .sendingCompletion uc => uc.batch.deliverWork p n k + 2
  | .exited => 0

def UploaderPhase.work : UploaderPhase → Nat
  | .receiving => 1
  | .putting eb attempt applied =>
      eb.deliverWork p n k +
        (triesWork k (p.uploadMaxAttempts - 1 - attempt) + if applied then 5 else k + 8)
  | .backoff eb attempt =>
      eb.deliverWork p n k + (triesWork k (p.uploadMaxAttempts - 1 - (attempt + 1)) + (k + 9))
  | .sendingCompletion uc => uc.batch.deliverWork p n k + 2
  | .exited => 0

def PoolPhase.work : PoolPhase → Nat
  | .waiting => 2
  | .closedOutput => 1
  | .done => 0

/-- A write that expects a version the manifest no longer has leads to another read. -/
def EnqueuePhase.work (store : ObjectStore) : EnqueuePhase → Nat
  | .reading _ => k + 3
  | .writing _ _ version applied =>
      if applied then 1 else if store.Matches p.config.ManifestPath version then k + 2 else k + 4
  | .returned _ _ => 0

def CasCall.work (store : ObjectStore) (call : CasCall) : Nat :=
  match call.phase with
  | .enqueueing phase =>
      triesWork k (p.manifestMaxAttempts - 1 - call.attempt) + phase.work p k store
  | .backoff _ => triesWork k (p.manifestMaxAttempts - 1 - (call.attempt + 1)) + (k + 7)
  | .returned _ => 0

/-- The way back to the receive, or out. -/
def loopWork (done : Bool) : Nat := bif done then 2 else 4

def AfterResolve.work (done : Bool) : AfterResolve → Nat
  | .drainAgain => loopWork done + 1
  | .drainDone => loopWork done
  | .nextCompletion => 4

def resolutionsWork (left : List PendingResolution) : Nat :=
  (left.map fun pr => pr.batch.resolveWork n).sum

/-- The work on what the committer holds; `done` tells whether it found its channel
closed. -/
def CommitterPhase.work (store : ObjectStore) (done : Bool) : CommitterPhase → Nat
  | .receiving => 3
  | .gathering => 5
  | .draining => loopWork done
  | .cas group failed call =>
      (group.map fun uc => uc.batch.resolveWork n).sum + resolutionsWork n failed +
        (call.work p k store + loopWork done + 2)
  | .notifying left => resolutionsWork n left + (loopWork done + 1)
  | .resolving left after => resolutionsWork n left + after.work done
  | .exited => 0

def ResolverPhase.work : ResolverPhase → Nat
  | .receiving => 1
  | .observing ri => wakeWork n + 4 + ri.watchers.length
  | .resolving _ left => wakeWork n + 3 + left.length
  | .acking _ => wakeWork n + 2
  | .releasing _ => wakeWork n + 1
  | .exited => 0

def appendsWork (calls : List AppendCall) : Nat :=
  (calls.map fun c => c.phase.work p n k closed).sum

def flushesWork (calls : List FlushCall) : Nat := (calls.map fun c => c.phase.work closed).sum

def readyWork (ready : List UploadCompletion) : Nat :=
  (ready.map fun uc => uc.batch.commitWork p n k).sum

def completionsWork (queue : List UploadCompletion) : Nat :=
  (queue.map fun uc => uc.batch.deliverWork p n k).sum

/-- The work that is left, if there are at most `n` calls. -/
def State.work (s : State) : Nat :=
  (appendsWork p n k s.budget.closed s.appends + flushesWork s.budget.closed s.flushes +
      s.close.work) +
    (s.appendCh.queue.length * (messageWork p n k + 1) +
      s.rotator.batch.msgs.length * messageWork p n k +
        s.rotator.phase.work p n k s.budget.closed) +
    ((s.encoders.map (EncoderPhase.work p n k)).sum + s.encoderPool.work +
      (s.uploaders.map (UploaderPhase.work p n k)).sum + s.uploaderPool.work) +
    (completionsWork p n k s.uploadCompletionCh.queue + readyWork p n k s.committer.ready +
      s.committer.phase.work p n k s.store s.committer.closed) +
    ((bif s.resolverClosed then 0 else 1) + s.resolver.work n) +
    bif s.panicked.isSome then 0 else 1

end Work

variable {p : Producer} {n k : Nat} {s t : State} {l : Label}

/-! ## Attempts -/

/-- One attempt less is one share of work less. -/
theorem triesWork_next {tries attempt : Nat} (h : attempt + 1 < tries) :
    triesWork k (tries - 1 - attempt) = triesWork k (tries - 1 - (attempt + 1)) + (k + 8) := by
  obtain ⟨m, hm⟩ : ∃ m, tries - 1 - attempt = m + 1 := ⟨tries - 1 - (attempt + 1), by omega⟩
  have hless : tries - 1 - (attempt + 1) = m := by omega
  rw [hm, hless]
  exact Nat.succ_mul m (k + 8)

/-- The first attempt is paid for. -/
theorem triesWork_first {tries : Nat} (h : 0 < tries) :
    triesWork k tries = triesWork k (tries - 1 - 0) + (k + 8) := by
  obtain ⟨m, rfl⟩ := Nat.exists_eq_succ_of_ne_zero (Nat.ne_of_gt h)
  exact Nat.succ_mul m (k + 8)

/-! ## Waking up -/

/-- One call moves: its work is exchanged. -/
theorem appendsWork_set {calls : List AppendCall} {i : Nat} {c : AppendCall}
    (closed : List Nat) (c' : AppendCall) (h : calls[i]? = some c) :
    appendsWork p n k closed (calls.set i c') + c.phase.work p n k closed =
      appendsWork p n k closed calls + c'.phase.work p n k closed :=
  sum_map_set_add _ h

/-- One flush call moves: its work is exchanged. -/
theorem flushesWork_set {calls : List FlushCall} {f : Nat} {c : FlushCall}
    (closed : List Nat) (c' : FlushCall) (h : calls[f]? = some c) :
    flushesWork closed (calls.set f c') + c.phase.work closed =
      flushesWork closed calls + c'.phase.work closed :=
  sum_map_set_add _ h

/-- An acknowledgement changes nothing yet. -/
theorem flushesWork_holding {closed : List Nat} {calls : List FlushCall} {f : Nat} {c : FlushCall}
    (result : List (Option BufferError)) (h : calls[f]? = some c) :
    flushesWork closed (calls.set f (c.holding result)) = flushesWork closed calls :=
  sum_map_set_eq _ h rfl

/-- A caller that is woken up has at most two steps more. -/
theorem appendsWork_woken (closed closed' : List Nat) (calls : List AppendCall) :
    appendsWork p n k closed' calls ≤ appendsWork p n k closed calls + 2 * calls.length := by
  refine sum_map_le_add (fun c => ?_) calls
  cases c.phase with
  | parked ch => simp only [AppendPhase.work]; split <;> split <;> omega
  | _ => exact Nat.le_add_right _ _

/-- Waking all flush calls costs at most two for each. -/
theorem flushesWork_woken (closed closed' : List Nat) (calls : List FlushCall) :
    flushesWork closed' calls ≤ flushesWork closed calls + 2 * calls.length := by
  refine sum_map_le_add (fun c => ?_) calls
  cases c.phase with
  | parked v ch => simp only [FlushPhase.work]; split <;> split <;> omega
  | _ => exact Nat.le_add_right _ _

/-- Waking the rotator costs at most two. -/
theorem rotatorWork_woken (closed closed' : List Nat) (phase : RotatorPhase) :
    phase.work p n k closed' ≤ phase.work p n k closed + 2 := by
  cases phase with
  | parked reason ack ch => simp only [RotatorPhase.work]; split <;> split <;> omega
  | _ => exact Nat.le_add_right _ _

/-- A channel to park on is open. -/
theorem ensureWaiter_open {b : ProducerBudget} (h : Channels b) :
    b.ensureWaiterLocked.2 ∉ b.closed := by
  unfold ensureWaiterLocked
  cases hwaiter : b.waiter with
  | some ch => exact (h.waiter ch hwaiter).2
  | none => exact fun hin => absurd (h.made _ hin) (Nat.lt_irrefl _)

/-- Making a channel closes none. -/
theorem ensureWaiter_closed (b : ProducerBudget) : b.ensureWaiterLocked.1.closed = b.closed := by
  unfold ensureWaiterLocked
  split <;> rfl

/-- The entry check leaves less to do. -/
theorem appendEntry_work (halted : Bool) (entries : List Bytes) (closed : List Nat) :
    (appendEntry halted entries).work p n k closed < AppendPhase.entered.work p n k closed := by
  unfold appendEntry
  split
  · simp [AppendPhase.work]
  · split <;> simp [AppendPhase.work]

/-- The budget closes channels: everybody who waits may be woken up. -/
theorem work_woken (hcalls : s.appends.length + s.flushes.length ≤ n) (b : ProducerBudget) :
    State.work p n k { s with budget := b } < s.work p n k + wakeWork n := by
  have happends := appendsWork_woken (p := p) (n := n) (k := k) s.budget.closed b.closed s.appends
  have hflushes := flushesWork_woken s.budget.closed b.closed s.flushes
  have hrotator :=
    rotatorWork_woken (p := p) (n := n) (k := k) s.budget.closed b.closed s.rotator.phase
  simp only [State.work, wakeWork]
  omega

/-- A process that panics has nothing more to do. -/
theorem work_panics (hrun : s.panicked = none) (ch : Channel) :
    State.work p n k { s with panicked := some ch } < s.work p n k := by
  simp [State.work, hrun]

/-! ## The callers -/

/-- A parked call still has to bring its message in. -/
theorem parked_work (closed : List Nat) (ch : Nat) :
    messageWork p n k + 4 ≤ (AppendPhase.parked ch).work p n k closed := by
  simp only [AppendPhase.work]
  split <;> omega

/-- A message that is brought in pays for waking everybody. -/
theorem wakeWork_lt_messageWork : wakeWork n + 1 < messageWork p n k + 3 := by
  simp only [messageWork]
  omega

/-- A call of `AppendContext` moves on, and no channel is closed. -/
theorem work_append {i : Nat} {c c' : AppendCall} {b : ProducerBudget}
    (hcall : s.appends[i]? = some c) (hclosed : b.closed = s.budget.closed)
    (hless : c'.phase.work p n k s.budget.closed < c.phase.work p n k s.budget.closed) :
    State.work p n k { s with appends := s.appends.set i c', budget := b } < s.work p n k := by
  have hset := appendsWork_set (p := p) (n := n) (k := k) s.budget.closed c' hcall
  simp only [State.work, hclosed]
  omega

/-- **A call of `AppendContext` works off.** -/
theorem AppendStep.work_lt (hrun : s.panicked = none) (hch : Channels s.budget)
    (hcalls : s.appends.length + s.flushes.length ≤ n) (hs : AppendStep p s l t) (hl : l.Own) :
    t.work p n k < s.work p n k := by
  cases hs with
  | begin => exact absurd rfl hl.1
  | ctxDone => exact absurd rfl hl.1
  | check hcall hphase =>
      exact work_append hcall rfl (by rw [hphase]; exact appendEntry_work _ _ _)
  | reserve hcall hphase hgrant hmsg =>
      obtain ⟨-, rfl⟩ := reserveBytes_granted hgrant
      exact work_append hcall rfl (by simp [hphase, AppendPhase.work])
  | park hcall hphase hwait =>
      obtain ⟨-, -, rfl, rfl⟩ := reserveBytes_wait hwait
      refine work_append hcall (ensureWaiter_closed _) ?_
      simp [hphase, AppendPhase.work, ensureWaiter_open hch]
  | wake hcall hphase hclosed =>
      exact work_append hcall rfl (by simp [hphase, AppendPhase.work, hclosed])
  | parkedCtx hcall hphase hctx | parkedShutdown hcall hphase hctx =>
      refine work_append hcall rfl (Nat.lt_of_lt_of_le ?_ (hphase ▸ parked_work _ _))
      exact Nat.succ_pos _
  | @send i c msg hcall hphase hopen hroom =>
      have hset := appendsWork_set (p := p) (n := n) (k := k) s.budget.closed (c.at .accepted) hcall
      simp only [hphase, AppendCall.at, AppendPhase.work] at hset
      simp only [State.work, AppendCall.at, List.length_append, List.length_singleton, Nat.succ_mul]
      omega
  | sendClosed hcall hphase hclosed => exact work_panics hrun _
  | finish hcall hphase => exact work_append hcall rfl (by simp [hphase, AppendPhase.work])
  | sendCtx hcall hphase hctx | sendDone hcall hphase hctx =>
      exact work_append hcall rfl
        (by simpa [hphase, AppendPhase.work] using wakeWork_lt_messageWork)
  | @abort i c msg err hcall hphase =>
      -- The call pays for whom it wakes up.
      have hset := appendsWork_set (p := p) (n := n) (k := k) s.budget.closed
        (c.at (.returned (some err))) hcall
      have hwoken := work_woken (p := p) (n := n) (k := k)
        (s := { s with appends := s.appends.set i (c.at (.returned (some err))) })
        (by simpa using hcalls) (s.budget.release msg.byteCost 0)
      simp only [hphase, AppendCall.at, AppendPhase.work] at hset
      refine Nat.lt_of_lt_of_le hwoken ?_
      simp only [State.work, AppendCall.at]
      omega

/-- A flush call moves and closes no channel. -/
theorem work_flush {f : Nat} {c c' : FlushCall} {b : ProducerBudget}
    (hcall : s.flushes[f]? = some c) (hclosed : b.closed = s.budget.closed)
    (hless : c'.phase.work s.budget.closed < c.phase.work s.budget.closed) :
    State.work p n k { s with flushes := s.flushes.set f c', budget := b } < s.work p n k := by
  have hset := flushesWork_set s.budget.closed c' hcall
  simp only [State.work, hclosed]
  omega

theorem FlushStep.work_lt (hch : Channels s.budget) (hs : FlushStep s l t) (hl : l.Own) :
    t.work p n k < s.work p n k := by
  have hparked : ∀ (v : Option BufferError) (ch : Nat),
      1 ≤ (FlushPhase.parked v ch).work s.budget.closed := by
    intro v ch
    simp only [FlushPhase.work]
    split <;> omega
  cases hs with
  | begin => exact absurd rfl hl.1
  | ctxDone => exact absurd rfl hl.1
  | requestDone hcall hphase | requestCtx hcall hphase | receiveAck hcall hphase
  | awaitDone hcall hphase | awaitCtx hcall hphase =>
      exact work_flush hcall rfl (by simp [hphase, FlushPhase.work])
  | drained hcall hphase hgrant =>
      obtain ⟨-, rfl⟩ := waitDrained_granted hgrant
      exact work_flush hcall rfl (by simp [hphase, FlushPhase.work])
  | park hcall hphase hwait =>
      obtain ⟨-, -, hnow, -, hclosed, -⟩ := waitDrained_wait hwait
      have hopen := ((hch.waitDrained hwait).drain _ hnow).2
      rw [hclosed] at hopen
      exact work_flush hcall hclosed (by simp [hphase, FlushPhase.work, hopen])
  | wake hcall hphase hclosed =>
      exact work_flush hcall rfl (by simp [hphase, FlushPhase.work, hclosed])
  | parkedCtx hcall hphase | parkedShutdown hcall hphase =>
      exact work_flush hcall rfl (hphase ▸ hparked _ _)

/-- `Close` moves, whatever it closes. -/
theorem work_close {phase : ClosePhase} (closed shutdown : Bool)
    (hless : phase.work < s.close.work) :
    State.work p n k { s with
      close := phase, appendCh := { s.appendCh with closed := closed }, shutdown := shutdown } <
      s.work p n k := by
  simp only [State.work]
  omega

theorem CloseStep.work_lt (hs : CloseStep s l t) (hl : l.Own) : t.work p n k < s.work p n k := by
  cases hs with
  | begin => exact absurd rfl hl.1
  | flushed hphase | closeAppendCh hphase | wait hphase | force hphase | expired hphase
  | finish hphase =>
      exact work_close _ _ (by simp [hphase, ClosePhase.work, dones])

/-! ## The rotator -/

theorem afterEmit_work (reason : FlushReason) (closed : List Nat) :
    (afterEmit reason).work p n k closed ≤ 10 := by
  unfold afterEmit
  split <;> simp [RotatorPhase.work]

/-- What it takes to get to the slot of a batch. -/
theorem emit_work (reason : FlushReason) (ack : Option Nat) (batch : OpenBatch)
    (closed : List Nat) :
    (emit reason ack batch).work p n k closed ≤ 11 := by
  unfold emit
  split
  · cases ack with
    | some f => exact Nat.le_refl 11
    | none => exact Nat.le_succ_of_le (afterEmit_work reason closed)
  · simp [RotatorPhase.work]

/-- A batch that is not empty has to get a slot first. -/
theorem emit_acquires (reason : FlushReason) (ack : Option Nat) {batch : OpenBatch}
    (hne : batch.msgs ≠ []) : emit reason ack batch = .acquiring reason ack := by
  unfold emit
  rw [if_neg]
  exact fun hempty => hne (batch.isEmpty_iff.mp hempty)

/-- The messages of the accumulator pay for their batch, and for whom it wakes up. -/
theorem messages_pay {batch : OpenBatch} (hne : batch.msgs ≠ []) (ordinal : Nat)
    (reason : FlushReason) (ack : Option Nat) :
    (batch.batch ordinal reason ack).encodeWork p n k + wakeWork n + 5 ≤
      batch.msgs.length * messageWork p n k := by
  have hwatchers : (batch.batch ordinal reason ack).watchers.length = batch.msgs.length := by
    rw [(batch.batch ordinal reason ack).watchers_eq, List.length_map]
    rfl
  obtain ⟨m, hm⟩ := Nat.exists_eq_succ_of_ne_zero (mt List.length_eq_zero_iff.mp hne)
  have hle : m ≤ m * messageWork p n k := Nat.le_mul_of_pos_right m (by simp [messageWork])
  rw [hm, Nat.succ_mul]
  simp only [Batch.encodeWork, Batch.deliverWork, Batch.commitWork, Batch.resolveWork,
    hwatchers, hm]
  simp only [messageWork] at hle ⊢
  omega

/-- The messages of a batch pay for resolving its watchers and for waking everybody. -/
theorem watchers_pay {batch : OpenBatch} (hne : batch.msgs ≠ []) :
    batch.acc.watchers.length + wakeWork n + 12 ≤ batch.msgs.length * messageWork p n k := by
  have hpay := messages_pay (p := p) (n := n) (k := k) hne 0 .shutdown none
  simp only [Batch.encodeWork, Batch.deliverWork, Batch.commitWork, Batch.resolveWork,
    OpenBatch.batch] at hpay
  omega

/-- A message that arrives leaves the rotator at the `select`, or before an emit. -/
theorem afterAdd_work (batch : OpenBatch) (msg : AppendMessage) (closed : List Nat) :
    (p.afterAdd (batch.add msg)).work p n k closed ≤ 10 := by
  unfold Producer.afterAdd
  split
  · rw [emit_acquires _ _ (by simp)]
    simp [RotatorPhase.work]
  · simp [RotatorPhase.work]

theorem afterDrop_work (reason : FlushReason) (ack : Option Nat) (closed : List Nat) :
    (afterDrop reason ack).work p n k closed ≤ 11 := by
  cases ack with
  | some f => exact Nat.le_refl 11
  | none => exact Nat.le_succ_of_le (afterEmit_work reason closed)

/-- The rotator moves on, and no channel is closed. -/
theorem work_rotator {phase : RotatorPhase} {b : ProducerBudget} {hist : History}
    (hclosed : b.closed = s.budget.closed)
    (hless : phase.work p n k s.budget.closed < s.rotator.phase.work p n k s.budget.closed) :
    State.work p n k { s with rotator := s.rotator.at phase, budget := b, hist := hist } <
      s.work p n k := by
  simp only [State.work, Rotator.at, hclosed]
  omega

/-- The rotator takes a message out of the channel. -/
theorem work_receive {msg : AppendMessage} {rest : List AppendMessage} {phase : RotatorPhase}
    (hqueue : s.appendCh.queue = msg :: rest)
    (hle : phase.work p n k s.budget.closed ≤ s.rotator.phase.work p n k s.budget.closed) :
    State.work p n k { s with
      appendCh := { s.appendCh with queue := rest }
      rotator := s.rotator.add msg phase } < s.work p n k := by
  simp only [State.work, Rotator.add, OpenBatch.add_msgs, hqueue, List.length_append,
    List.length_cons, List.length_nil, Nat.zero_add, Nat.succ_mul]
  omega

/-- The rotator takes a message from a call. -/
theorem work_handoff {i : Nat} {c : AppendCall} {msg : AppendMessage} {phase : RotatorPhase}
    {hist : History} (hcall : s.appends[i]? = some c) (hsend : c.phase = .sending msg)
    (hle : phase.work p n k s.budget.closed ≤ s.rotator.phase.work p n k s.budget.closed) :
    State.work p n k { s with
      appends := s.appends.set i (c.at .accepted)
      rotator := s.rotator.add msg phase
      hist := hist } < s.work p n k := by
  have hset := appendsWork_set (p := p) (n := n) (k := k) s.budget.closed (c.at .accepted) hcall
  simp only [hsend, AppendCall.at, AppendPhase.work] at hset
  simp only [State.work, Rotator.add, AppendCall.at, OpenBatch.add_msgs, List.length_append,
    List.length_singleton, Nat.succ_mul]
  omega

/-- **The rotator works off.**  A message it takes pays for the batch it will be in. -/
theorem RotatorStep.work_lt (hrun : s.panicked = none) (hch : Channels s.budget)
    (hcalls : s.appends.length + s.flushes.length ≤ n)
    (hcuts : ∀ cut ∈ t.hist.cuts, cut.msgs ≠ []) (hs : RotatorStep p s l t) :
    t.work p n k < s.work p n k := by
  cases hs with
  | receive hphase hqueue =>
      exact work_receive hqueue (by rw [hphase]; exact afterAdd_work _ _ _)
  | handoff hphase hcap hqueue hopen hcall hsend =>
      exact work_handoff hcall hsend (by rw [hphase]; exact afterAdd_work _ _ _)
  | receiveClosed hphase hqueue hclosed =>
      refine work_rotator rfl ?_
      rw [hphase]
      by_cases hne : s.rotator.batch.msgs = []
      · rw [emit, if_pos (s.rotator.batch.isEmpty_iff.mpr hne)]
        simp [afterEmit, RotatorPhase.work]
      · rw [emit_acquires _ _ hne]
        simp [RotatorPhase.work]
  | @takeFlush f c hphase hcall hrequest =>
      have hset := flushesWork_set s.budget.closed (c.at .awaiting) hcall
      simp only [hrequest, FlushCall.at, FlushPhase.work] at hset
      simp only [State.work, Rotator.at, FlushCall.at, hphase, RotatorPhase.work]
      omega
  | drainReceive hphase hqueue =>
      exact work_receive hqueue (by rw [hphase])
  | drainHandoff hphase hcap hqueue hopen hcall hsend =>
      exact work_handoff hcall hsend (by rw [hphase])
  | drainDone hphase hqueue =>
      exact work_rotator rfl (by rw [hphase]; exact Nat.lt_succ_of_le (emit_work _ _ _ _))
  | timer hphase hstarted =>
      refine work_rotator rfl ?_
      rw [hphase, emit_acquires _ _ ((OpenBatch.started_iff _).mp hstarted)]
      simp [RotatorPhase.work]
  | acquire hphase hgrant =>
      obtain ⟨-, rfl⟩ := acquireBatchSlot_granted hgrant
      exact work_rotator rfl (by simp [hphase, RotatorPhase.work])
  | park hphase hwait =>
      obtain ⟨-, rfl, rfl⟩ := acquireBatchSlot_wait hwait
      refine work_rotator (ensureWaiter_closed _) ?_
      simp [hphase, RotatorPhase.work, ensureWaiter_open hch]
  | wake hphase hclosed =>
      exact work_rotator rfl (by simp [hphase, RotatorPhase.work, hclosed])
  | refused hphase hshutdown =>
      refine work_rotator rfl ?_
      simp only [hphase, RotatorPhase.work]
      split <;> omega
  | @drop reason ack hphase =>
      have hne : s.rotator.batch.msgs ≠ [] := hcuts _ (List.mem_append_right _ List.mem_cons_self)
      have hpay := watchers_pay (p := p) (n := n) (k := k) hne
      refine Nat.lt_of_lt_of_le (work_woken (s := { s with rotator := { s.rotator with
        batch := OpenBatch.empty
        phase := .resolvingDrop reason ack s.rotator.batch.acc.watchers } }) hcalls _) ?_
      simp only [State.work, hphase, RotatorPhase.work, OpenBatch.empty_msgs, List.length_nil,
        Nat.zero_mul]
      omega
  | dropResolve hphase => exact work_rotator rfl (by simp [hphase, RotatorPhase.work])
  | dropDone hphase =>
      exact work_rotator rfl (by rw [hphase]; exact Nat.lt_succ_of_le (afterDrop_work _ _ _))
  | @ack reason f err c hphase hcall hroom =>
      have hafter := afterEmit_work (p := p) (n := n) (k := k) reason s.budget.closed
      have hold : s.rotator.phase.work p n k s.budget.closed = 11 := by rw [hphase]; rfl
      simp only [State.work, Rotator.at, flushesWork_holding [err] hcall, hold]
      omega
  | @reconcile reason ack hphase =>
      have hne : s.rotator.batch.msgs ≠ [] := hcuts _ (List.mem_append_right _ List.mem_cons_self)
      have hpay := messages_pay (p := p) (n := n) (k := k) hne s.rotator.ordinal reason ack
      refine Nat.lt_of_lt_of_le (work_woken (s := { s with rotator :=
        { batch := OpenBatch.empty
          ordinal := s.rotator.ordinal + 1
          phase := .sendingPending (s.rotator.batch.pending s.rotator.ordinal reason ack) } })
        hcalls _) ?_
      simp only [State.work, hphase, RotatorPhase.work, OpenBatch.empty_msgs,
        List.length_nil, Nat.zero_mul, OpenBatch.pending]
      omega
  | sendClosed hphase hclosed => exact work_panics hrun _
  | closePending hphase => exact work_rotator rfl (by simp [hphase, RotatorPhase.work])
  | closeDone hphase => exact work_rotator rfl (by simp [hphase, RotatorPhase.work])

/-! ## The pools -/

/-- An encoder moves on. -/
theorem work_encoder {i : Nat} {e e' : EncoderPhase} (henc : s.encoders[i]? = some e)
    (hless : e'.work p n k < e.work p n k) :
    State.work p n k { s with encoders := s.encoders.set i e' } < s.work p n k := by
  have hset := sum_map_set_add (EncoderPhase.work p n k) (b := e') henc
  simp only [State.work]
  omega

theorem EncoderStep.work_lt (hrun : s.panicked = none) (hs : EncoderStep p s l t) :
    t.work p n k < s.work p n k := by
  cases hs with
  | @take i pb henc hsend =>
      have hset := sum_map_set_add (EncoderPhase.work p n k) (b := .encoding pb) henc
      have hafter := afterEmit_work (p := p) (n := n) (k := k) pb.reason s.budget.closed
      have hold : s.rotator.phase.work p n k s.budget.closed = pb.encodeWork p n k + 10 := by
        rw [hsend]
        rfl
      simp only [EncoderPhase.work] at hset
      simp only [State.work, Rotator.at, hold]
      omega
  | exit henc hclosed => exact work_encoder henc (by simp [EncoderPhase.work])
  | encoded henc hok =>
      refine work_encoder henc ?_
      simp only [EncoderPhase.work, Producer.encodedBatch, Batch.encodeWork]
      omega
  | encodeFails err henc =>
      refine work_encoder henc ?_
      simp only [EncoderPhase.work, encodeFailure, UploadCompletion.batch, Batch.encodeWork]
      omega
  | @complete i uc henc hopen hroom =>
      have hset := sum_map_set_add (EncoderPhase.work p n k) (b := .receiving) henc
      simp only [EncoderPhase.work] at hset
      simp only [State.work, completionsWork, List.map_append, List.sum_append, List.map_cons,
        List.map_nil, List.sum_singleton]
      omega
  | completeClosed henc hclosed => exact work_panics hrun _
  | sendClosed henc hclosed => exact work_panics hrun _
  | closeEncoded hpool hall =>
      simp only [State.work, hpool, PoolPhase.work]
      omega
  | closePoolDone hpool =>
      simp only [State.work, hpool, PoolPhase.work]
      omega

/-- An uploader moves on. -/
theorem work_uploader {j : Nat} {u u' : UploaderPhase} (hup : s.uploaders[j]? = some u)
    (hless : u'.work p n k < u.work p n k) :
    State.work p n k { s with uploaders := s.uploaders.set j u' } < s.work p n k := by
  have hset := sum_map_set_add (UploaderPhase.work p n k) (b := u') hup
  simp only [State.work]
  omega

/-- Another attempt has less to do than the one that failed. -/
theorem afterPutError_work (eb : EncodedBatch) (attempt : Nat) (applied : Bool) (err : StoreError) :
    (p.afterPutError eb attempt err).work p n k <
      (UploaderPhase.putting eb attempt applied).work p n k := by
  have happlied : 5 ≤ if applied then 5 else k + 8 := by split <;> omega
  unfold Producer.afterPutError
  split
  · rename_i hmore
    have hnext := triesWork_next (k := k) hmore
    simp only [UploaderPhase.work]
    omega
  · simp only [UploaderPhase.work, uploadCompletion, UploadCompletion.batch]
    omega

/-- A write to the store may cost the committer another read. -/
theorem committerWork_store (store store' : ObjectStore) (done : Bool) (phase : CommitterPhase) :
    phase.work p n k store' done ≤ phase.work p n k store done + 2 := by
  cases phase with
  | cas group failed call =>
      have hcall : call.work p k store' ≤ call.work p k store + 2 := by
        unfold CasCall.work
        cases call.phase with
        | enqueueing phase =>
            cases phase with
            | writing conflicts data version applied =>
                simp only [EnqueuePhase.work]
                split
                · omega
                · split <;> split <;> omega
            | _ => exact Nat.le_add_right _ _
        | _ => exact Nat.le_add_right _ _
      simp only [CommitterPhase.work]
      omega
  | _ => exact Nat.le_add_right _ _

/-- An object is written, and the toll is paid. -/
theorem work_putApplies {j attempt : Nat} {eb : EncodedBatch}
    (hup : s.uploaders[j]? = some (.putting eb attempt false)) (store : ObjectStore) :
    State.work p n k { s with
      uploaders := s.uploaders.set j (.putting eb attempt true), store := store } + k <
      s.work p n k := by
  have hset := sum_map_set_add (UploaderPhase.work p n k) (b := .putting eb attempt true) hup
  have hstore := committerWork_store (p := p) (n := n) (k := k) s.store store s.committer.closed
    s.committer.phase
  simp only [UploaderPhase.work, Bool.false_eq_true, if_false, if_true] at hset
  simp only [State.work]
  omega

/-- **The uploaders work off,** since attempts are counted. -/
theorem UploaderStep.work_lt (hrun : s.panicked = none) (hs : UploaderStep p s l t) :
    t.work p n k < s.work p n k := by
  cases hs with
  | @take i j eb henc hup hopen =>
      have hset := sum_map_set_add (EncoderPhase.work p n k) (b := .receiving) henc
      have hset' := sum_map_set_add (UploaderPhase.work p n k) (b := .putting eb 0 false) hup
      have hfirst : triesWork k p.uploadMaxAttempts = _ := triesWork_first (atLeastOne_pos _)
      simp only [EncoderPhase.work, UploaderPhase.work, Bool.false_eq_true, if_false] at hset hset'
      simp only [State.work]
      omega
  | exit hup hclosed => exact work_uploader hup (by simp [UploaderPhase.work])
  | putApplies version hup hnames => exact Nat.lt_of_add_right_lt (work_putApplies hup _)
  | putOk hup =>
      refine work_uploader hup ?_
      simp only [UploaderPhase.work, uploadCompletion, UploadCompletion.batch, if_true]
      omega
  | putFails err hup => exact work_uploader hup (afterPutError_work _ _ _ _)
  | retry hup =>
      refine work_uploader hup ?_
      simp only [UploaderPhase.work, Bool.false_eq_true, if_false]
      omega
  | abandon hup hshutdown =>
      refine work_uploader hup ?_
      simp only [UploaderPhase.work, uploadCompletion, UploadCompletion.batch]
      omega
  | @complete j uc hup hopen hroom =>
      have hset := sum_map_set_add (UploaderPhase.work p n k) (b := .receiving) hup
      simp only [UploaderPhase.work] at hset
      simp only [State.work, completionsWork, List.map_append, List.sum_append, List.map_cons,
        List.map_nil, List.sum_singleton]
      omega
  | completeClosed hup hclosed => exact work_panics hrun _
  | closeCompletions hpool hall =>
      simp only [State.work, hpool, PoolPhase.work]
      omega
  | closePoolDone hpool =>
      simp only [State.work, hpool, PoolPhase.work]
      omega

/-! ## The committer -/

theorem readyWork_cons (uc : UploadCompletion) (ready : List UploadCompletion) :
    readyWork p n k (uc :: ready) = uc.batch.commitWork p n k + readyWork p n k ready := by
  simp [readyWork]

theorem completionsWork_cons (uc : UploadCompletion) (queue : List UploadCompletion) :
    completionsWork p n k (uc :: queue) =
      uc.batch.commitWork p n k + 3 + completionsWork p n k queue := by
  simp [completionsWork, Batch.deliverWork]

theorem resolutionsWork_cons (pr : PendingResolution) (left : List PendingResolution) :
    resolutionsWork n (pr :: left) = pr.batch.resolveWork n + resolutionsWork n left := by
  simp [resolutionsWork]

/-- Taking completions out of the map leaves less to do. -/
theorem readyWork_filter (q : UploadCompletion → Bool) (ready : List UploadCompletion) :
    readyWork p n k (ready.filter q) ≤ readyWork p n k ready := by
  refine List.Sublist.sum_le_sum (List.filter_sublist.map _) ?_
  exact fun _ _ => Nat.zero_le _

/-- Putting a completion in adds its work and no more. -/
theorem insertReady_work (uc : UploadCompletion) (ready : List UploadCompletion) :
    readyWork p n k (insertReady uc ready) ≤ uc.batch.commitWork p n k + readyWork p n k ready := by
  have hle := readyWork_filter (p := p) (n := n) (k := k)
    (fun other => decide (other.eb.ordinal ≠ uc.eb.ordinal)) ready
  rw [insertReady, readyWork_cons]
  omega

/-- A completion that is taken out takes its work along. -/
theorem readyWork_remove {uc : UploadCompletion} {ready : List UploadCompletion}
    {q : UploadCompletion → Bool}
    (huc : uc ∈ ready) (hq : q uc = false) :
    uc.batch.commitWork p n k + readyWork p n k (ready.filter q) ≤ readyWork p n k ready := by
  induction ready with
  | nil => exact absurd huc List.not_mem_nil
  | cons x rest ih =>
      rcases List.mem_cons.mp huc with rfl | huc
      · have hle := readyWork_filter (p := p) (n := n) (k := k) q rest
        rw [List.filter_cons_of_neg (by simp [hq]), readyWork_cons]
        omega
      · have hrest := ih huc
        rw [List.filter_cons]
        split
        · rw [readyWork_cons, readyWork_cons]
          omega
        · rw [readyWork_cons]
          omega

/-- What the inner loop of `drain` cuts off frees the work of committing it. -/
theorem collect_work (room next : Nat) (ready : List UploadCompletion) :
    ((collect room next ready).group.map fun uc => uc.batch.resolveWork n).sum +
        resolutionsWork n (collect room next ready).failed +
        ((collect room next ready).group.length + (collect room next ready).failed.length) *
          casWork p k + readyWork p n k (collect room next ready).ready ≤
      readyWork p n k ready := by
  induction room generalizing next ready with
  | zero => simp [collect, resolutionsWork]
  | succ room ih =>
      rw [collect]
      cases hfind : ready.find? (fun uc => uc.eb.ordinal = next) with
      | none => simp [resolutionsWork]
      | some uc =>
          have hmem := List.mem_of_find?_eq_some hfind
          have hordinal : uc.eb.ordinal = next := by simpa using List.find?_some hfind
          have hremove := readyWork_remove (p := p) (n := n) (k := k) hmem
            (q := fun other => decide (other.eb.ordinal ≠ next)) (by simp [hordinal])
          have hrest := ih (next + 1) (ready.filter fun other => decide (other.eb.ordinal ≠ next))
          rw [Batch.commitWork] at hremove
          dsimp only
          generalize collect room (next + 1) (ready.filter fun other =>
            decide (other.eb.ordinal ≠ next)) = rest at hrest ⊢
          cases herr : uc.putError with
          | some err =>
              have hbatch : (failedResolution uc err).batch = uc.batch := rfl
              simp only [resolutionsWork_cons, hbatch, List.length_cons, ← Nat.add_assoc,
                Nat.succ_mul]
              omega
          | none =>
              simp only [List.map_cons, List.sum_cons, List.length_cons, Nat.succ_add, Nat.succ_mul]
              omega

/-- An attempt that failed leaves the work of the attempts that are left. -/
theorem settle_error_work (store : ObjectStore) (call : CasCall) (conflicts : Nat)
    (err : BufferError) :
    (p.settleCas call (.returned conflicts (some err))).work p k store ≤
      triesWork k (p.manifestMaxAttempts - 1 - call.attempt) := by
  simp only [Producer.settleCas, CasCall.settle]
  split
  · rename_i hmore
    have hnext := triesWork_next (k := k) hmore
    simp only [CasCall.work]
    omega
  · simp [CasCall.work]

/-- A `Get` that fails leads to no write. -/
theorem planAppend_error (items : List EnqueueItem) {err : StoreError} (herr : err ≠ .notFound) :
    ∃ e, planAppend items (.error err) = .error e := by
  cases err with
  | notFound => exact absurd rfl herr
  | _ => exact ⟨_, rfl⟩

/-- **A call of `casWithRetry` works off.**  A conflict is met by reading the version
that is there, so the next one needs another writer. -/
theorem CasStep.work_lt {items : List EnqueueItem} {call call' : CasCall}
    (hs : CasStep p s items call l call') : call'.work p k s.store < call.work p k s.store := by
  have hold : ∀ phase, call.phase = .enqueueing phase → call.work p k s.store =
      triesWork k (p.manifestMaxAttempts - 1 - call.attempt) + phase.work p k s.store := by
    intro phase hphase
    simp only [CasCall.work, hphase]
  cases hs with
  | @get m hcall =>
      rw [hold _ hcall, afterGet]
      cases hplan : planAppend items (storeGet s.store p.config.ManifestPath) with
      | error err =>
          exact Nat.lt_of_le_of_lt (settle_error_work _ _ _ _) (by simp [EnqueuePhase.work])
      | ok pair =>
          simp [Producer.settleCas, CasCall.settle, CasCall.work, EnqueuePhase.work,
            planAppend_matches hplan]
  | @getFails m err hcall herr =>
      obtain ⟨e, hplan⟩ := planAppend_error items herr
      rw [hold _ hcall, afterGet, hplan]
      exact Nat.lt_of_le_of_lt (settle_error_work _ _ _ _) (by simp [EnqueuePhase.work])
  | ok hcall =>
      rw [hold _ hcall]
      simp [afterPut, Producer.settleCas, CasCall.settle, CasCall.work, EnqueuePhase.work]
  | conflict hcall hmatch =>
      rw [hold _ hcall]
      simp [afterPut, Producer.settleCas, CasCall.settle, CasCall.work, EnqueuePhase.work, hmatch]
  | @fails m data version applied err hcall herr =>
      have happlied : 0 < (EnqueuePhase.writing m data version applied).work p k s.store := by
        simp only [EnqueuePhase.work]
        split
        · omega
        · split <;> omega
      have hput : afterPut m (some err) = .returned m (some (storageErr err.text)) := by
        cases err with
        | preconditionFailed => exact absurd rfl herr
        | _ => rfl
      rw [hold _ hcall, hput]
      exact Nat.lt_of_le_of_lt (settle_error_work _ _ _ _) (Nat.lt_add_of_pos_right happlied)
  | retry hcall =>
      unfold CasCall.retry enqueueBatch
      split <;> simp [CasCall.settle, CasCall.work, hcall, EnqueuePhase.work]
  | abandon hcall hshutdown =>
      simp [CasCall.abandon, CasCall.work, hcall]

/-- What is set aside for a group pays for its call. -/
theorem casWithRetry_work (store : ObjectStore) (items : List EnqueueItem) :
    (casWithRetry p.manifestMaxAttempts items).work p k store + 4 ≤ casWork p k := by
  have hfirst : triesWork k p.manifestMaxAttempts = _ := triesWork_first (atLeastOne_pos _)
  unfold casWithRetry enqueueBatch
  split
  · simp [CasCall.settle, CasCall.work, casWork]
  · simp only [CasCall.settle, CasCall.work, EnqueuePhase.work, casWork]
    omega

/-- The loop of the committer costs a little each time. -/
theorem loopWork_le (done : Bool) : 2 ≤ loopWork done ∧ loopWork done ≤ 4 := by
  cases done <;> decide

/-- The committer moves on. -/
theorem work_committer {phase : CommitterPhase} {store : ObjectStore} (hist : History)
    (hless : phase.work p n k store s.committer.closed <
      s.committer.phase.work p n k s.store s.committer.closed) :
    State.work p n k { s with committer := s.committer.at phase, store := store, hist := hist } <
      s.work p n k := by
  simp only [State.work, Committer.at]
  omega

/-- The manifest is written, and the toll is paid. -/
theorem work_casApplies {group : List UploadCompletion} {failed : List PendingResolution}
    {call : CasCall} {c : Nat} {data : Bytes} {version : Option Version}
    (hphase : s.committer.phase = .cas group failed call)
    (hcall : call.phase = .enqueueing (.writing c data version false))
    (hmatch : s.store.Matches p.config.ManifestPath version) (store : ObjectStore)
    (hist : History) :
    State.work p n k { s with
      committer := s.committer.at (.cas group failed
        { call with phase := .enqueueing (.writing c data version true) })
      store := store
      hist := hist } + k < s.work p n k := by
  simp only [State.work, Committer.at, hphase, CommitterPhase.work, CasCall.work, hcall,
    EnqueuePhase.work, hmatch, Bool.false_eq_true, if_true, if_false]
  omega

/-- Behind `drain` the committer is at the head of its loop, or leaves. -/
theorem afterDrain_work (done : Bool) (store : ObjectStore) :
    (afterDrain done).work p n k store done < loopWork done := by
  cases done with
  | true => exact Nat.succ_pos 1
  | false => exact Nat.lt_succ_self 3

/-- Behind the outcomes the committer goes on with its loop. -/
theorem afterResolve_work (done : Bool) (after : AfterResolve) (store : ObjectStore) :
    (afterResolve done after).work p n k store done < after.work done := by
  cases after with
  | drainAgain => exact Nat.lt_succ_self _
  | drainDone => exact afterDrain_work done store
  | nextCompletion => exact Nat.lt_succ_self 3

/-- A group that is cut off pays for its commit. -/
theorem afterCollect_work (done : Bool) (store : ObjectStore) (c : Collected) :
    (p.afterCollect done c).work p n k store done <
      (c.group.map fun uc => uc.batch.resolveWork n).sum + resolutionsWork n c.failed +
        (c.group.length + c.failed.length) * casWork p k + loopWork done := by
  have hcas : 4 < casWork p k := by simp [casWork]
  unfold Producer.afterCollect
  split
  · rename_i hgroup
    split
    · rename_i hfailed
      have hle := afterDrain_work (p := p) (n := n) (k := k) done store
      rw [hgroup, hfailed]
      simp only [resolutionsWork, List.map_nil, List.sum_nil, List.length_nil]
      omega
    · rename_i hfailed
      have hpos : casWork p k ≤ c.failed.length * casWork p k :=
        Nat.le_mul_of_pos_left _ (List.length_pos_iff.mpr hfailed)
      simp only [hgroup, List.map_nil, List.sum_nil, List.length_nil, Nat.zero_add,
        CommitterPhase.work, AfterResolve.work]
      omega
  · rename_i hgroup
    have hpos : casWork p k ≤ (c.group.length + c.failed.length) * casWork p k :=
      Nat.le_mul_of_pos_left _ (Nat.add_pos_left (List.length_pos_iff.mpr hgroup) _)
    have hcall := casWithRetry_work (p := p) (k := k) store (c.group.map UploadCompletion.item)
    simp only [CommitterPhase.work]
    omega

theorem resolutionsWork_append (left right : List PendingResolution) :
    resolutionsWork n (left ++ right) = resolutionsWork n left + resolutionsWork n right := by
  simp [resolutionsWork]

/-- Outcomes of completions, whichever they are. -/
theorem resolutionsWork_map {outcome : UploadCompletion → PendingResolution}
    (hbatch : ∀ uc, (outcome uc).batch = uc.batch) (group : List UploadCompletion) :
    resolutionsWork n (group.map outcome) = (group.map fun uc => uc.batch.resolveWork n).sum := by
  simp [resolutionsWork, Function.comp_def, hbatch]

/-- The outcomes of a group are the work of its batches. -/
theorem settled_work (group : List UploadCompletion) (failed : List PendingResolution)
    (err : Option BufferError) : resolutionsWork n (settled group failed err) =
      (group.map fun uc => uc.batch.resolveWork n).sum + resolutionsWork n failed := by
  rw [settled, resolutionsWork_append, resolutionsWork_map fun _ => rfl]

/-- A halt resolves the group, the failed ordinals and all that is swept. -/
theorem haltedAll_work (group : List UploadCompletion) (failed : List PendingResolution)
    (swept : List UploadCompletion) : resolutionsWork n (haltedAll group failed swept) =
      (group.map fun uc => uc.batch.resolveWork n).sum +
        (resolutionsWork n failed + (swept.map fun uc => uc.batch.resolveWork n).sum) := by
  rw [haltedAll, resolutionsWork_append, resolutionsWork_append, resolutionsWork_map fun _ => rfl,
    resolutionsWork_map fun _ => rfl]

/-- To resolve a batch is less than to commit it. -/
theorem resolves_le_readyWork (ready : List UploadCompletion) :
    (ready.map fun uc => uc.batch.resolveWork n).sum ≤ readyWork p n k ready := by
  induction ready with
  | nil => exact Nat.le_refl 0
  | cons uc rest ih =>
      rw [readyWork_cons, List.map_cons, List.sum_cons, Batch.commitWork]
      omega

/-- **The committer works off.** -/
theorem CommitterStep.work_lt (hrun : s.panicked = none) (hs : CommitterStep p s l t) :
    t.work p n k < s.work p n k := by
  have hloop := loopWork_le s.committer.closed
  cases hs with
  | @receive uc rest hphase hhalted hqueue =>
      have hready := insertReady_work (p := p) (n := n) (k := k) uc s.committer.ready
      simp only [State.work, hphase, hqueue, completionsWork_cons, CommitterPhase.work]
      omega
  | @receiveHalted uc rest hphase hhalted hqueue =>
      have hbatch : (haltedResolution .abandoned uc).batch = uc.batch := rfl
      simp only [State.work, hphase, hqueue, completionsWork_cons, CommitterPhase.work,
        Committer.at, resolutionsWork, List.map_cons, List.map_nil, List.sum_singleton, hbatch,
        AfterResolve.work, Batch.commitWork]
      omega
  | receiveClosed hphase hqueue hclosed =>
      have hnew :
          (if s.committer.halted then CommitterPhase.exited else .draining).work p n k s.store
          true ≤ 2 := by
        split <;> simp [CommitterPhase.work, loopWork]
      have hold : s.committer.phase.work p n k s.store s.committer.closed = 3 := by rw [hphase]; rfl
      simp only [State.work, hold]
      omega
  | @gather uc rest hphase hqueue =>
      have hready := insertReady_work (p := p) (n := n) (k := k) uc s.committer.ready
      simp only [State.work, hphase, hqueue, completionsWork_cons, CommitterPhase.work]
      omega
  | gatherDone hphase hqueue =>
      have hnew := loopWork_le s.uploadCompletionCh.closed
      simp only [State.work, hphase, CommitterPhase.work]
      omega
  | collect hphase =>
      have hcut :=
        collect_work (p := p) (n := n) (k := k) p.batchSize s.committer.next s.committer.ready
      have hafter := afterCollect_work (p := p) (n := n) (k := k) s.committer.closed s.store
        (OpenDataBuffer.collect p.batchSize s.committer.next s.committer.ready)
      have hold : s.committer.phase.work p n k s.store s.committer.closed =
        loopWork s.committer.closed := by rw [hphase]; rfl
      simp only [State.work, hold]
      omega
  | cas hphase hcas =>
      have hless := hcas.work_lt (k := k)
      refine work_committer s.hist ?_
      simp only [hphase, CommitterPhase.work]
      omega
  | casApplies hphase hcall hmatch hnames =>
      exact Nat.lt_of_add_right_lt (work_casApplies hphase hcall hmatch _ _)
  | settle hphase hcall herr =>
      refine work_committer s.hist ?_
      rw [hphase]
      simp only [CommitterPhase.work, settled_work, AfterResolve.work]
      omega
  | @halt group failed call err swept hphase hcall herr hswept =>
      have hready := resolves_le_readyWork (p := p) (n := n) (k := k) s.committer.ready
      have hperm := (hswept.map fun uc => uc.batch.resolveWork n).sum_eq
      have hnone : readyWork p n k [] = 0 := rfl
      simp only [State.work, hphase, CommitterPhase.work, haltedAll_work, hnone]
      omega
  | notify hphase =>
      refine work_committer _ ?_
      simp only [hphase, CommitterPhase.work, AfterResolve.work]
      omega
  | @resolved after hphase =>
      have hold : s.committer.phase.work p n k s.store s.committer.closed =
        after.work s.committer.closed := by rw [hphase]; exact Nat.zero_add _
      refine work_committer s.hist ?_
      rw [hold]
      exact afterResolve_work _ _ _
  | resolveClosed hphase hclosed => exact work_panics hrun _

/-! ## The resolver -/

/-- The resolver moves on. -/
theorem work_resolver {phase : ResolverPhase} (hist : History)
    (hless : phase.work n < s.resolver.work n) :
    State.work p n k { s with resolver := phase, hist := hist } < s.work p n k := by
  simp only [State.work]
  omega

/-- Behind the watchers there is the answer to the flush and the release. -/
theorem afterWatchers_work (ri : ResolverItem) : (afterWatchers ri).work n ≤ wakeWork n + 2 := by
  unfold afterWatchers
  split <;> simp [ResolverPhase.work]

/-- **The resolver works off.**  Its release may wake everybody, which was set aside. -/
theorem ResolverStep.work_lt (hcalls : s.appends.length + s.flushes.length ≤ n)
    (hs : ResolverStep p s l t) : t.work p n k < s.work p n k := by
  cases hs with
  | @take pr left after hphase hsend hopen =>
      have hwatchers : pr.item.watchers = pr.batch.watchers := rfl
      simp only [State.work, Committer.at, hphase, hsend, CommitterPhase.work, ResolverPhase.work,
        resolutionsWork_cons, Batch.resolveWork, hwatchers]
      omega
  | observe hphase => exact work_resolver _ (by simp [hphase, ResolverPhase.work])
  | resolve hphase => exact work_resolver _ (by simp [hphase, ResolverPhase.work])
  | @resolvedAll ri hphase =>
      refine work_resolver s.hist ?_
      rw [hphase]
      exact Nat.lt_succ_of_le (afterWatchers_work ri)
  | ack hphase hack hcall hroom =>
      simp only [State.work, flushesWork_holding _ hcall, hphase, ResolverPhase.work]
      omega
  | release hphase =>
      -- The resolver pays for whom it wakes up.
      refine Nat.lt_of_lt_of_le (work_woken (s := { s with resolver := .receiving }) hcalls _) ?_
      simp only [State.work, hphase, ResolverPhase.work]
      omega
  | exit hphase hclosed => exact work_resolver s.hist (by simp [hphase, ResolverPhase.work])
  | closeResolver hdone hopen => simp [State.work, hopen]

/-! ## All of them -/

/-- **Every step of the producer's own code makes the work less.** -/
theorem work_decreases (hch : Channels s.budget) (hcuts : ∀ cut ∈ t.hist.cuts, cut.msgs ≠ [])
    (hcalls : s.appends.length + s.flushes.length ≤ n) (hs : ProducerStep p s l t) (hl : l.Own) :
    t.work p n k < s.work p n k := by
  cases hs with
  | append hrunning hs => exact hs.work_lt hrunning hch hcalls hl
  | flush _ hs => exact hs.work_lt hch hl
  | close _ hs => exact hs.work_lt hl
  | rotator hrunning hs => exact hs.work_lt hrunning hch hcalls hcuts
  | encoder hrunning hs => exact hs.work_lt hrunning
  | uploader hrunning hs => exact hs.work_lt hrunning
  | committer hrunning hs => exact hs.work_lt hrunning
  | resolver _ hs => exact hs.work_lt hcalls
  | others hs => cases hs <;> exact absurd rfl hl.2

/-- **A step that writes to the store pays the toll.** -/
theorem work_pays (hs : ProducerStep p s l t) (hl : l.Own) :
    t.store = s.store ∨ t.work p n k + k < s.work p n k := by
  cases hs with
  | uploader _ hs =>
      cases hs with
      | putApplies version hup hnames => exact Or.inr (work_putApplies hup _)
      | _ => exact Or.inl rfl
  | committer _ hs =>
      cases hs with
      | casApplies hphase hcall hmatch hnames =>
          exact Or.inr (work_casApplies hphase hcall hmatch _ _)
      | _ => exact Or.inl rfl
  | append _ hs => cases hs <;> exact Or.inl rfl
  | flush _ hs => cases hs <;> exact Or.inl rfl
  | close _ hs => cases hs <;> exact Or.inl rfl
  | rotator _ hs => cases hs <;> exact Or.inl rfl
  | encoder _ hs => cases hs <;> exact Or.inl rfl
  | resolver _ hs => cases hs <;> exact Or.inl rfl
  | others hs => cases hs <;> exact absurd rfl hl.2

/-- A write that somebody else makes costs at most one conflict. -/
theorem work_sees (s : State) (store : ObjectStore) (hist : History) :
    State.work p n k { s with store := store, hist := hist } ≤ s.work p n k + 2 := by
  have hstore := committerWork_store (p := p) (n := n) (k := k) s.store store s.committer.closed
    s.committer.phase
  simp only [State.work]
  omega

end OpenDataBuffer
