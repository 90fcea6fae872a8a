import OpenDataBuffer.Backoff
import OpenDataBuffer.ListUpdate
import OpenDataBuffer.ProducerRuns

/-!
# The rotator with a clock

In the model of the producer the flush timer may fire whenever a batch is open, and the
time at which a batch was started is left out.  Here the same steps run against a clock:
`add` notes the time when the accumulator becomes non-empty, the rotator publishes that
time for the age gauge, and `resetTimer` arms the timer at the head of every turn.

A Go time has two readings.  `time.Since` and `time.Until` of a time that `time.Now`
returned use the monotonic one; the gauge goes through `UnixNano`, so it uses the wall
clock, which can be set.

The clock restricts nothing: every run of the producer is the trace of a run with a
clock, and the other way round (`timed_runs_are_runs`).
-/

namespace OpenDataBuffer

open LabelledRuns

/-- The two readings of `time.Now`, in nanoseconds. -/
structure Clock where
  mono : Int
  wall : Int

/-- `OldestUnflushedBatchAge`, for the value of `oldestUnflushedNs` and the wall clock. -/
def OldestUnflushedBatchAge (ns wall : Int) : Int :=
  if ns = 0 then 0
  else if wall - ns < 0 then 0
  else wall - ns

/-- A producer and the times its rotator keeps. -/
structure Timed where
  state : State
  now : Clock
  /-- `batch.startedAt`; what `reset` leaves there is not read. -/
  startedAt : Clock
  oldestUnflushedNs : Int
  /-- When the timer fires. -/
  timer : Option Int
  /-- The rotator is at the head of its loop, before `resetTimer`. -/
  due : Bool
  /-- When the messages in the accumulator were added; no code reads this. -/
  arrivals : List Clock
  /-- The `Age` in the statistics of the emitted batches. -/
  ages : List Int

namespace Timed

/-- `becameStarted` of a step. -/
def becameStarted (T : Timed) (t : State) : Bool :=
  !T.state.rotator.batch.acc.started && t.rotator.batch.acc.started

/-- What the step from `T` to `t` stores in `oldestUnflushedNs`. -/
def gaugeAfter (T : Timed) (l : Label) (t : State) : Int :=
  if l ≠ .moves .rotator then T.oldestUnflushedNs
  else
    match T.state.rotator.phase, t.rotator.phase with
    | .selecting, _ => if T.becameStarted t then T.now.wall else T.oldestUnflushedNs
    -- The messages that `drainAppendChInto` adds are published behind its loop.
    | .draining _, .draining _ => T.oldestUnflushedNs
    | .draining _, _ =>
      if t.rotator.batch.acc.started = true ∧ T.oldestUnflushedNs = 0 then T.startedAt.wall
      else T.oldestUnflushedNs
    | .reconciling _ _, _ => 0
    | .dropping _ _, _ => 0
    | _, _ => T.oldestUnflushedNs

/-- The rotator comes to the head of its loop, or stays there. -/
def dueAfter (T : Timed) (l : Label) (t : State) : Bool :=
  match T.state.rotator.phase, t.rotator.phase with
  | .selecting, .selecting => l = .moves .rotator || T.due
  | _, .selecting => true
  | _, _ => false

def arrivalsAfter (T : Timed) (n : Nat) : List Clock :=
  (T.arrivals ++ List.replicate (n - T.arrivals.length) T.now).take n

def agesAfter (T : Timed) (l : Label) : List Int :=
  match T.state.rotator.phase with
  | .reconciling _ _ =>
    if l = .moves .rotator then T.ages ++ [T.now.mono - T.startedAt.mono] else T.ages
  | _ => T.ages

/-- The times behind a step. -/
def after (T : Timed) (l : Label) (t : State) : Timed where
  state := t
  now := T.now
  startedAt := if T.becameStarted t then T.now else T.startedAt
  oldestUnflushedNs := T.gaugeAfter l t
  timer := T.timer
  due := T.dueAfter l t
  arrivals := T.arrivalsAfter t.rotator.batch.msgs.length
  ages := T.agesAfter l

/-- The timer that `resetTimer` makes. -/
def resetTimer (T : Timed) (interval : Duration) : Option Int :=
  if T.state.rotator.batch.acc.started then
    let remaining := T.startedAt.mono + interval.toInt - T.now.mono
    some (T.now.mono + if remaining ≤ 0 then 0 else remaining)
  else none

/-- The step in which the rotator receives from the timer. -/
def Fires (T : Timed) (l : Label) (t : State) : Prop :=
  l = .moves .rotator ∧ T.state.rotator.phase = .selecting ∧ t.rotator.phase = .acquiring .time none

end Timed

inductive TimedLabel
  | time
  | reset
  | step (l : Label)

inductive TimedStep (p : Producer) (interval : Duration) (T : Timed) : TimedLabel → Timed → Prop
  | passes (d : Nat) (wall : Int) :
      TimedStep p interval T .time { T with now := ⟨T.now.mono + d, wall⟩ }
  | resets (hphase : T.state.rotator.phase = .selecting) (hdue : T.due = true) :
      TimedStep p interval T .reset { T with timer := T.resetTimer interval, due := false }
  -- The `select` is behind `resetTimer`, and receives from a timer that has fired.
  | moves {l : Label} {t : State} (hs : ProducerStep p T.state l t)
      (hready : T.state.rotator.phase = .selecting → l = .moves .rotator → T.due = false)
      (hfires : T.Fires l t → ∃ fire, T.timer = some fire ∧ fire ≤ T.now.mono) :
      TimedStep p interval T (.step l) (T.after l t)

abbrev TimedRun (p : Producer) (interval : Duration) (T U : Timed) : Prop :=
  Reach (TimedStep p interval) (fun _ _ => True) T U

/-- A new producer, at some time. -/
def newTimed (s : State) (now : Clock) : Timed where
  state := s
  now := now
  startedAt := ⟨0, 0⟩
  oldestUnflushedNs := 0
  timer := none
  due := true
  arrivals := []
  ages := []

/-! ## What a step is to the rotator -/

/-- The reason for which `emit` is under way, up to the cut. -/
def RotatorPhase.reason? : RotatorPhase → Option FlushReason
  | .acquiring reason _ => some reason
  | .parked reason _ _ => some reason
  | .reconciling reason _ => some reason
  | _ => none

/-- The rotator is in a part of its code that touches neither batch nor clock. -/
def RotatorPhase.passive : RotatorPhase → Bool
  | .selecting => false
  | .draining _ => false
  | .reconciling _ _ => false
  | .dropping _ _ => false
  | _ => true

variable {p : Producer} {s t : State} {l : Label}

inductive RotatorTurn (p : Producer) (s t : State) : Label → Prop
  | rests {l : Label} (hl : l ≠ .moves .rotator) (hbatch : t.rotator.batch = s.rotator.batch)
      (hnext : t.rotator.phase = s.rotator.phase) (hcuts : t.hist.cuts = s.hist.cuts) :
      RotatorTurn p s t l
  /-- An encoder takes the batch that the rotator sends. -/
  | taken {l : Label} {pb : PendingBatch} (hl : l ≠ .moves .rotator)
      (hphase : s.rotator.phase = .sendingPending pb)
      (hbatch : t.rotator.batch = s.rotator.batch) (hnext : t.rotator.phase = afterEmit pb.reason)
      (hcuts : t.hist.cuts = s.hist.cuts) : RotatorTurn p s t l
  | adds {msg : AppendMessage} (hphase : s.rotator.phase = .selecting)
      (hbatch : t.rotator.batch = s.rotator.batch.add msg)
      (hnext : t.rotator.phase = p.afterAdd (s.rotator.batch.add msg))
      (hcuts : t.hist.cuts = s.hist.cuts) : RotatorTurn p s t (.moves .rotator)
  | drains {f : Nat} {msg : AppendMessage} (hphase : s.rotator.phase = .draining f)
      (hbatch : t.rotator.batch = s.rotator.batch.add msg) (hnext : t.rotator.phase = .draining f)
      (hcuts : t.hist.cuts = s.hist.cuts) : RotatorTurn p s t (.moves .rotator)
  | drained {f : Nat} (hphase : s.rotator.phase = .draining f)
      (hbatch : t.rotator.batch = s.rotator.batch)
      (hnext : t.rotator.phase = emit .manual (some f) s.rotator.batch)
      (hcuts : t.hist.cuts = s.hist.cuts) : RotatorTurn p s t (.moves .rotator)
  | fires (hphase : s.rotator.phase = .selecting) (hstarted : s.rotator.batch.acc.started = true)
      (hbatch : t.rotator.batch = s.rotator.batch)
      (hnext : t.rotator.phase = emit .time none s.rotator.batch)
      (hcuts : t.hist.cuts = s.hist.cuts) : RotatorTurn p s t (.moves .rotator)
  /-- A flush request, or the end of the input. -/
  | turns (hphase : s.rotator.phase = .selecting) (hbatch : t.rotator.batch = s.rotator.batch)
      (hnext : t.rotator.phase ≠ .selecting) (hreason : t.rotator.phase.reason? ≠ some .time)
      (hcuts : t.hist.cuts = s.hist.cuts) : RotatorTurn p s t (.moves .rotator)
  | cuts {reason : FlushReason} {ack : Option Nat} {pb : PendingBatch}
      (hphase : s.rotator.phase = .reconciling reason ack)
      (hbatch : t.rotator.batch = OpenBatch.empty) (hnext : t.rotator.phase = .sendingPending pb)
      (hcuts : t.hist.cuts = s.hist.cuts ++
        [.emitted (s.rotator.batch.batch s.rotator.ordinal reason ack)]) :
      RotatorTurn p s t (.moves .rotator)
  | drops {reason : FlushReason} {ack : Option Nat} {left : List Nat}
      (hphase : s.rotator.phase = .dropping reason ack)
      (hbatch : t.rotator.batch = OpenBatch.empty)
      (hnext : t.rotator.phase = .resolvingDrop reason ack left)
      (hcuts : t.hist.cuts = s.hist.cuts ++ [.dropped s.rotator.batch.msgs]) :
      RotatorTurn p s t (.moves .rotator)
  | goes (hphase : s.rotator.phase.passive = true) (hbatch : t.rotator.batch = s.rotator.batch)
      (hreason : t.rotator.phase.reason? = some .time → s.rotator.phase.reason? = some .time)
      (hcuts : t.hist.cuts = s.hist.cuts) : RotatorTurn p s t (.moves .rotator)

theorem afterEmit_reason (reason : FlushReason) : (afterEmit reason).reason? = none := by
  unfold afterEmit
  split <;> rfl

/-- A flush does not drain twice. -/
theorem emit_manual_ne_draining (f g : Nat) (batch : OpenBatch) :
    emit .manual (some f) batch ≠ .draining g := by
  unfold emit
  split <;> simp

/-- `emit` is under way for the reason it was called with. -/
theorem emit_reason {reason : FlushReason} (hreason : reason ≠ .time) (ack : Option Nat)
    (batch : OpenBatch) : (emit reason ack batch).reason? ≠ some .time := by
  unfold emit
  split
  · split
    · simp [RotatorPhase.reason?]
    · simp [afterEmit_reason]
  · simpa [RotatorPhase.reason?] using hreason

/-- A message that arrives is no reason to flush by time. -/
theorem afterAdd_reason (batch : OpenBatch) : (p.afterAdd batch).reason? ≠ some .time := by
  unfold Producer.afterAdd
  split
  · exact emit_reason (by decide) _ _
  · simp [RotatorPhase.reason?]

theorem RotatorStep.turn (hs : RotatorStep p s l t) : RotatorTurn p s t l := by
  cases hs with
  | receive hphase hqueue => exact .adds hphase rfl rfl rfl
  | handoff hphase hcap hqueue hopen hcall hsend => exact .adds hphase rfl rfl rfl
  | receiveClosed hphase hqueue hclosed =>
      refine .turns hphase rfl ?_ (emit_reason (by decide) _ _) rfl
      show emit .shutdown none s.rotator.batch ≠ .selecting
      unfold emit
      split <;> simp [afterEmit]
  | takeFlush hphase hcall hrequest =>
      exact .turns hphase rfl (by simp) (by simp [RotatorPhase.reason?]) rfl
  | drainReceive hphase hqueue => exact .drains hphase rfl rfl rfl
  | drainHandoff hphase hcap hqueue hopen hcall hsend => exact .drains hphase rfl rfl rfl
  | drainDone hphase hqueue => exact .drained hphase rfl rfl rfl
  | timer hphase hstarted => exact .fires hphase hstarted rfl rfl rfl
  | drop hphase => exact .drops hphase rfl rfl rfl
  | reconcile hphase => exact .cuts hphase rfl rfl rfl
  | sendClosed hphase hclosed => exact .rests (by simp) rfl rfl rfl
  | @dropDone reason ack hphase =>
      refine .goes (by rw [hphase]; rfl) rfl ?_ rfl
      show (afterDrop reason ack).reason? = _ → _
      unfold afterDrop
      split
      · simp [RotatorPhase.reason?]
      · simp [afterEmit_reason]
  | ack hphase hcall hroom =>
      exact .goes (by rw [hphase]; rfl) rfl (by simp [afterEmit_reason]) rfl
  | acquire hphase | park hphase | wake hphase | refused hphase | dropResolve hphase
  | closePending hphase | closeDone hphase =>
      exact .goes (by rw [hphase]; rfl) rfl (by simp [hphase, RotatorPhase.reason?]) rfl

theorem ProducerStep.turn (hs : ProducerStep p s l t) : RotatorTurn p s t l := by
  cases hs with
  | rotator _ hs => exact hs.turn
  | encoder _ hs =>
      cases hs with
      | take henc hsend => exact .taken (by simp) hsend rfl rfl rfl
      | _ => exact .rests (by simp) rfl rfl rfl
  | append _ hs => cases hs <;> exact .rests (by simp) rfl rfl rfl
  | flush _ hs => cases hs <;> exact .rests (by simp) rfl rfl rfl
  | close _ hs => cases hs <;> exact .rests (by simp) rfl rfl rfl
  | uploader _ hs => cases hs <;> exact .rests (by simp) rfl rfl rfl
  | committer _ hs =>
      cases hs with
      | cas hphase hcas => exact .rests (by cases hcas <;> simp) rfl rfl rfl
      | _ => exact .rests (by simp) rfl rfl rfl
  | resolver _ hs => cases hs <;> exact .rests (by simp) rfl rfl rfl
  | others hs => cases hs <;> exact .rests (by simp) rfl rfl rfl

/-- What a step does to the open batch. -/
theorem RotatorTurn.batch (hs : RotatorTurn p s t l) :
    t.rotator.batch = s.rotator.batch ∨ (∃ msg, t.rotator.batch = s.rotator.batch.add msg) ∨
      t.rotator.batch = OpenBatch.empty := by
  cases hs with
  | adds hphase hbatch | drains hphase hbatch => exact Or.inr (Or.inl ⟨_, hbatch⟩)
  | cuts hphase hbatch | drops hphase hbatch => exact Or.inr (Or.inr hbatch)
  | rests hl hbatch | taken hl hphase hbatch | drained hphase hbatch
  | fires hphase hstarted hbatch | turns hphase hbatch | goes hphase hbatch =>
      exact Or.inl hbatch

/-- The rotator flushes by time only what it has. -/
theorem RotatorTurn.started_of_fires (hs : RotatorTurn p s t (.moves .rotator))
    (hphase : s.rotator.phase = .selecting) (htime : t.rotator.phase = .acquiring .time none) :
    s.rotator.batch.acc.started = true := by
  have hreason : t.rotator.phase.reason? = some .time := by
    rw [htime]
    rfl
  cases hs with
  | fires _ hstarted => exact hstarted
  | rests hl => exact absurd rfl hl
  | taken hl => exact absurd rfl hl
  | adds _ _ hnext =>
      rw [hnext] at hreason
      exact absurd hreason (afterAdd_reason _)
  | turns _ _ _ hother => exact absurd hreason hother
  | drains hother | drained hother | cuts hother | drops hother => cases hphase.symm.trans hother
  | goes hpassive =>
      rw [hphase] at hpassive
      cases hpassive

/-! ## The gauge -/

namespace Timed

variable {T : Timed} {interval : Duration}

/-- What the gauge is to say: when the open batch was started, or 0. -/
def oldest (T : Timed) : Int :=
  if T.state.rotator.batch.acc.started then T.startedAt.wall else 0

/-- An accumulator that is not touched is not started. -/
theorem becameStarted_same (hbatch : t.rotator.batch = T.state.rotator.batch) :
    T.becameStarted t = false := by
  simp [becameStarted, hbatch]

/-- A message starts the accumulator if it is the first. -/
theorem becameStarted_add {msg : AppendMessage}
    (hbatch : t.rotator.batch = T.state.rotator.batch.add msg) :
    T.becameStarted t = !T.state.rotator.batch.acc.started := by
  simp [becameStarted, hbatch, OpenBatch.add, BatchAccumulator.add]

/-- An open batch that is not touched keeps its start. -/
theorem oldest_same (hbatch : t.rotator.batch = T.state.rotator.batch) :
    (T.after l t).oldest = T.oldest := by
  simp [oldest, after, becameStarted_same hbatch, hbatch]

/-- An empty accumulator has no start. -/
theorem oldest_cleared (hbatch : t.rotator.batch = OpenBatch.empty) : (T.after l t).oldest = 0 := by
  simp [oldest, after, hbatch, OpenBatch.empty, BatchAccumulator.empty]

/-- The first message sets the start, the later ones keep it. -/
theorem oldest_add {msg : AppendMessage}
    (hbatch : t.rotator.batch = T.state.rotator.batch.add msg) :
    (T.after l t).oldest =
      if T.state.rotator.batch.acc.started then T.oldest else T.now.wall := by
  cases hstarted : T.state.rotator.batch.acc.started <;>
    simp [oldest, after, becameStarted_add hbatch, hbatch, hstarted, OpenBatch.add,
      BatchAccumulator.add]

/-- The gauge says when the open batch was started.  While waiting messages are drained
into an empty accumulator, it still says 0. -/
structure Published (T : Timed) : Prop where
  settled : (∀ f, T.state.rotator.phase ≠ .draining f) → T.oldestUnflushedNs = T.oldest
  draining : T.oldestUnflushedNs = 0 ∨ T.oldestUnflushedNs = T.oldest

/-- A gauge that says what it is to say is published. -/
theorem Published.of_eq (h : T.oldestUnflushedNs = T.oldest) : T.Published :=
  ⟨fun _ => h, Or.inr h⟩

/-- The batch stays as it is, and so does the gauge. -/
theorem Published.same (h : T.Published) (hbatch : t.rotator.batch = T.state.rotator.batch)
    (hgauge : T.gaugeAfter l t = T.oldestUnflushedNs)
    (hphase : ∀ f, T.state.rotator.phase = .draining f → t.rotator.phase = .draining f) :
    (T.after l t).Published := by
  refine ⟨fun hnot => ?_, ?_⟩
  · rw [oldest_same hbatch]
    exact hgauge.trans (h.settled fun f hf => hnot f (hphase f hf))
  · rw [oldest_same hbatch]
    rcases h.draining with hzero | heq
    · exact Or.inl (hgauge.trans hzero)
    · exact Or.inr (hgauge.trans heq)

theorem after_oldestUnflushedNs : (T.after l t).oldestUnflushedNs = T.gaugeAfter l t := rfl

/-- Only the rotator stores into the gauge. -/
theorem gaugeAfter_other (hl : l ≠ .moves .rotator) : T.gaugeAfter l t = T.oldestUnflushedNs :=
  if_pos hl

/-- At the `select` the rotator stores the time if a batch was started. -/
theorem gaugeAfter_selecting (hphase : T.state.rotator.phase = .selecting) :
    T.gaugeAfter (.moves .rotator) t =
      if T.becameStarted t then T.now.wall else T.oldestUnflushedNs := by
  simp [gaugeAfter, hphase]

/-- The gauge behind the loop of `drainAppendChInto`. -/
theorem gaugeAfter_drained {f : Nat} (hphase : T.state.rotator.phase = .draining f)
    (hnext : ∀ g, t.rotator.phase ≠ .draining g) :
    T.gaugeAfter (.moves .rotator) t =
      if t.rotator.batch.acc.started = true ∧ T.oldestUnflushedNs = 0 then T.startedAt.wall
      else T.oldestUnflushedNs := by
  simp only [gaugeAfter, hphase]
  cases hphase' : t.rotator.phase with
  | draining g => exact absurd hphase' (hnext g)
  | _ => simp

/-- **Step rule for the gauge.** -/
theorem Published.step (h : T.Published) (hs : RotatorTurn p T.state t l) :
    (T.after l t).Published := by
  cases hs with
  | rests hl hbatch hnext hcuts =>
      exact h.same hbatch (gaugeAfter_other hl) (fun f hf => hnext.trans hf)
  | taken hl hphase hbatch hnext hcuts =>
      exact h.same hbatch (gaugeAfter_other hl) (fun f hf => by simp [hphase] at hf)
  | adds hphase hbatch hnext hcuts =>
      refine .of_eq ?_
      rw [oldest_add hbatch, ← h.settled (by simp [hphase]), after_oldestUnflushedNs,
        gaugeAfter_selecting hphase, becameStarted_add hbatch]
      cases T.state.rotator.batch.acc.started <;> rfl
  | @drains f msg hphase hbatch hnext hcuts =>
      refine ⟨fun hnot => absurd hnext (hnot f), ?_⟩
      have hgauge : T.gaugeAfter (.moves .rotator) t = T.oldestUnflushedNs := by
        simp [gaugeAfter, hphase, hnext]
      rw [after_oldestUnflushedNs, hgauge, oldest_add hbatch]
      cases hstarted : T.state.rotator.batch.acc.started with
      | true => exact h.draining
      | false => exact Or.inl (by simpa [oldest, hstarted] using h.draining)
  | @drained f hphase hbatch hnext hcuts =>
      have hdone : ∀ g, t.rotator.phase ≠ .draining g := by
        rw [hnext]
        exact fun g => emit_manual_ne_draining f g _
      refine .of_eq ?_
      rw [oldest_same hbatch, after_oldestUnflushedNs, gaugeAfter_drained hphase hdone, hbatch]
      -- The swap happens if the gauge says 0; otherwise it was right before the drain.
      rcases h.draining with hzero | heq
      · simp [hzero, oldest]
      · rw [← heq]
        split
        · rename_i hswap
          simpa [oldest, hswap.1] using heq.symm
        · rfl
  | fires hphase hstarted hbatch hnext hcuts =>
      refine h.same hbatch ?_ (by simp [hphase])
      rw [gaugeAfter_selecting hphase, becameStarted_same hbatch]
      rfl
  | turns hphase hbatch hnext hreason hcuts =>
      refine h.same hbatch ?_ (by simp [hphase])
      rw [gaugeAfter_selecting hphase, becameStarted_same hbatch]
      rfl
  | cuts hphase hbatch hnext hcuts =>
      refine .of_eq ?_
      rw [oldest_cleared hbatch]
      simp [after, gaugeAfter, hphase]
  | drops hphase hbatch hnext hcuts =>
      refine .of_eq ?_
      rw [oldest_cleared hbatch]
      simp [after, gaugeAfter, hphase]
  | goes hphase hbatch hreason hcuts =>
      refine h.same hbatch ?_ fun f hf => ?_
      · cases hbefore : T.state.rotator.phase <;> simp_all [gaugeAfter, RotatorPhase.passive]
      · rw [hf] at hphase
        cases hphase

/-! ## Arrivals -/

/-- The times at which the open batch got its messages; the first is its start. -/
structure Arrived (T : Timed) : Prop where
  length : T.arrivals.length = T.state.rotator.batch.msgs.length
  first : ∀ c, T.arrivals.head? = some c → c = T.startedAt
  later : ∀ c ∈ T.arrivals, T.startedAt.mono ≤ c.mono ∧ c.mono ≤ T.now.mono

/-- No message, no arrival. -/
theorem arrivalsAfter_same {n : Nat} (h : T.arrivals.length = n) :
    T.arrivalsAfter n = T.arrivals := by
  simp [arrivalsAfter, ← h]

/-- A message arrives now. -/
theorem arrivalsAfter_add {n : Nat} (h : T.arrivals.length = n) :
    T.arrivalsAfter (n + 1) = T.arrivals ++ [T.now] := by
  simp [arrivalsAfter, ← h]

/-- The first arrival is the start of the open batch. -/
theorem Arrived.start (h : T.Arrived) {first : Clock} {rest : List Clock}
    (hfirst : T.arrivals = first :: rest) :
    first = T.startedAt ∧ T.state.rotator.batch.acc.started = true := by
  have hlength := h.length
  refine ⟨h.first first (by rw [hfirst]; rfl), (OpenBatch.started_iff _).mpr fun hempty => ?_⟩
  rw [hfirst, hempty] at hlength
  cases hlength

/-- **Step rule for arrivals.** -/
theorem Arrived.step (h : T.Arrived) (hs : RotatorTurn p T.state t l) : (T.after l t).Arrived := by
  have hlength := h.length
  rcases hs.batch with hbatch | ⟨msg, hbatch⟩ | hbatch
  · have hsame : T.arrivalsAfter t.rotator.batch.msgs.length = T.arrivals :=
      arrivalsAfter_same (by rw [hlength, hbatch])
    have hstart : (T.after l t).startedAt = T.startedAt := by
      simp [after, becameStarted_same hbatch]
    refine ⟨?_, ?_, ?_⟩
    · show (T.arrivalsAfter _).length = _
      rw [hsame, hlength, ← hbatch]
      rfl
    · intro c hc
      rw [hstart]
      exact h.first c (hsame ▸ hc)
    · intro c hc
      rw [hstart]
      exact h.later c (hsame ▸ hc)
  · have hmore : T.arrivalsAfter t.rotator.batch.msgs.length = T.arrivals ++ [T.now] := by
      rw [hbatch, OpenBatch.add_msgs, List.length_append]
      exact arrivalsAfter_add hlength
    have hstart : (T.after l t).startedAt =
        if T.state.rotator.batch.acc.started then T.startedAt else T.now := by
      simp only [after, becameStarted_add hbatch]
      cases T.state.rotator.batch.acc.started <;> rfl
    have hlen : (T.after l t).arrivals.length = t.rotator.batch.msgs.length := by
      show (T.arrivalsAfter _).length = _
      rw [hmore, hbatch]
      simp [hlength]
    cases harrivals : T.arrivals with
    | nil =>
        have hempty : T.state.rotator.batch.acc.started = false := by
          rw [harrivals] at hlength
          have hmsgs := List.length_eq_zero_iff.mp hlength.symm
          simpa [hmsgs] using (OpenBatch.started_iff T.state.rotator.batch).not
        have hnow : (T.after l t).arrivals = [T.now] := by
          show T.arrivalsAfter _ = _
          rw [hmore, harrivals]
          rfl
        rw [hempty] at hstart
        refine ⟨hlen, ?_, ?_⟩
        · intro c hc
          rw [hnow] at hc
          rw [hstart]
          exact (Option.some.inj hc).symm
        · intro c hc
          rw [hnow] at hc
          obtain rfl := List.mem_singleton.mp hc
          rw [hstart]
          exact ⟨Int.le_refl _, Int.le_refl _⟩
    | cons first rest =>
        rw [(h.start harrivals).2] at hstart
        refine ⟨hlen, ?_, ?_⟩
        · intro c hc
          change (T.arrivalsAfter _).head? = some c at hc
          rw [hmore, harrivals] at hc
          rw [hstart]
          exact h.first c (by rw [harrivals]; exact hc)
        · intro c hc
          change c ∈ T.arrivalsAfter _ at hc
          rw [hmore] at hc
          rw [hstart]
          rcases List.mem_append.mp hc with hold | hnew
          · exact h.later c hold
          · obtain rfl := List.mem_singleton.mp hnew
            obtain ⟨hlow, hhigh⟩ := h.later first (by rw [harrivals]; exact List.mem_cons_self)
            exact ⟨Int.le_trans hlow hhigh, Int.le_refl _⟩
  · have hnone : (T.after l t).arrivals = [] := by
      simp [after, arrivalsAfter, hbatch]
    refine ⟨?_, ?_, ?_⟩
    · rw [hnone]
      show 0 = t.rotator.batch.msgs.length
      rw [hbatch]
      rfl
    · intro c hc
      rw [hnone] at hc
      cases hc
    · intro c hc
      rw [hnone] at hc
      cases hc

/-! ## The timer -/

/-- What is known of the flush interval. -/
structure Punctual (interval : Duration) (T : Timed) : Prop where
  /-- Behind `resetTimer` the timer is armed for the interval of the open batch, or for
  the present if that is over. -/
  armed : T.state.rotator.phase = .selecting → T.due = false →
    T.state.rotator.batch.acc.started = true → ∃ fire, T.timer = some fire ∧
      T.startedAt.mono + interval.toInt ≤ fire ∧
      fire ≤ max T.now.mono (T.startedAt.mono + interval.toInt)
  overdue : T.state.rotator.phase.reason? = some .time →
    T.startedAt.mono + interval.toInt ≤ T.now.mono
  length : T.ages.length = (emittedOf T.state.hist.cuts).length
  ages : ∀ (i : Nat) (b : Batch) (age : Int), (emittedOf T.state.hist.cuts)[i]? = some b →
    T.ages[i]? = some age → b.reason = .time → interval.toInt ≤ age

/-- Time may pass: the timer that is armed is not due earlier. -/
theorem Punctual.passes (h : T.Punctual interval) (d : Nat) (wall : Int) :
    Punctual interval { T with now := ⟨T.now.mono + d, wall⟩ } where
  armed := by
    intro hphase hdue hstarted
    obtain ⟨fire, htimer, hlow, hhigh⟩ := h.armed hphase hdue hstarted
    refine ⟨fire, htimer, hlow, ?_⟩
    show fire ≤ max (T.now.mono + (d : Int)) (T.startedAt.mono + interval.toInt)
    omega
  overdue := by
    intro hreason
    have hold := h.overdue hreason
    show T.startedAt.mono + interval.toInt ≤ T.now.mono + (d : Int)
    omega
  length := h.length
  ages := h.ages

/-- `resetTimer` arms the timer for the start of the batch plus the interval. -/
theorem Punctual.resets (h : T.Punctual interval) :
    Punctual interval { T with timer := T.resetTimer interval, due := false } where
  armed := by
    intro _ _ hstarted
    change T.state.rotator.batch.acc.started = true at hstarted
    refine ⟨_, if_pos hstarted, ?_, ?_⟩
    · show T.startedAt.mono + interval.toInt ≤ _
      split <;> omega
    · show _ ≤ max T.now.mono (T.startedAt.mono + interval.toInt)
      split <;> omega
  overdue := h.overdue
  length := h.length
  ages := h.ages

/-- A step that cuts nothing, and sets out on a flush by time only if that is due. -/
theorem Punctual.keeps (h : T.Punctual interval)
    (hbatch : t.rotator.batch = T.state.rotator.batch ∨ t.rotator.phase.reason? ≠ some .time)
    (hcuts : emittedOf t.hist.cuts = emittedOf T.state.hist.cuts)
    (hages : T.agesAfter l = T.ages)
    (hselect : t.rotator.phase = .selecting → T.dueAfter l t = false →
      T.state.rotator.phase = .selecting ∧ T.due = false ∧
        t.rotator.batch = T.state.rotator.batch)
    (hreason : t.rotator.phase.reason? = some .time →
      T.startedAt.mono + interval.toInt ≤ T.now.mono) :
    (T.after l t).Punctual interval where
  armed := by
    intro hphase hdue hstarted
    obtain ⟨hbefore, hdueT, hsame⟩ := hselect hphase hdue
    have hstart : (T.after l t).startedAt = T.startedAt := by simp [after, becameStarted_same hsame]
    rw [hstart]
    refine h.armed hbefore hdueT ?_
    rw [← hsame]
    exact hstarted
  overdue := by
    intro htime
    have hsame := hbatch.resolve_right (fun hne => hne htime)
    have hstart : (T.after l t).startedAt = T.startedAt := by simp [after, becameStarted_same hsame]
    rw [hstart]
    exact hreason htime
  length := by
    show (T.agesAfter l).length = (emittedOf t.hist.cuts).length
    rw [hages, hcuts]
    exact h.length
  ages := by
    intro i b age hb hage
    change (emittedOf t.hist.cuts)[i]? = some b at hb
    change (T.agesAfter l)[i]? = some age at hage
    rw [hcuts] at hb
    rw [hages] at hage
    exact h.ages i b age hb hage

/-- Only the rotator reports ages. -/
theorem agesAfter_other (h : l ≠ .moves .rotator) : T.agesAfter l = T.ages := by
  unfold agesAfter
  split
  · exact if_neg h
  · rfl

/-- Ages are reported when a batch is cut. -/
theorem agesAfter_phase (h : ∀ reason ack, T.state.rotator.phase ≠ .reconciling reason ack) :
    T.agesAfter l = T.ages := by
  unfold agesAfter
  split
  · rename_i hphase
    exact absurd hphase (h _ _)
  · rfl

/-- A rotator that comes to its loop from elsewhere is before `resetTimer`. -/
theorem dueAfter_true (hbefore : T.state.rotator.phase ≠ .selecting ∨ l = .moves .rotator)
    (hphase : t.rotator.phase = .selecting) : T.dueAfter l t = true := by
  unfold dueAfter
  rw [hphase]
  cases hphase' : T.state.rotator.phase with
  | selecting =>
      have hl : l = .moves .rotator := by simpa [hphase'] using hbefore
      simp [hl]
  | _ => rfl

/-- A timer that fires on an open batch makes the rotator ask for a slot. -/
theorem emit_time_phase {b : OpenBatch} (h : b.acc.started = true) :
    emit .time none b = .acquiring .time none := by
  have hne : ¬ b.acc.isEmpty = true := by
    rw [OpenBatch.isEmpty_iff, ← ne_eq, ← OpenBatch.started_iff]
    exact h
  unfold emit
  rw [if_neg hne]

/-- **Step rule for the timer.**  The rotator sets out on a flush by time only when the
timer has fired. -/
theorem Punctual.step (h : T.Punctual interval) (hs : RotatorTurn p T.state t l)
    (hready : T.state.rotator.phase = .selecting → l = .moves .rotator → T.due = false)
    (hfires : T.Fires l t → ∃ fire, T.timer = some fire ∧ fire ≤ T.now.mono) :
    (T.after l t).Punctual interval := by
  -- Most steps of the rotator come from or go to a phase that settles the rest.
  have hloop : (T.state.rotator.phase ≠ .selecting ∨ l = .moves .rotator) →
      t.rotator.phase = .selecting → T.dueAfter l t = false →
        T.state.rotator.phase = .selecting ∧ T.due = false ∧
          t.rotator.batch = T.state.rotator.batch := by
    intro hbefore hphase hdue
    rw [dueAfter_true hbefore hphase] at hdue
    cases hdue
  cases hs with
  | rests hl hbatch hnext hcuts =>
      refine h.keeps (Or.inl hbatch) (by rw [hcuts]) (agesAfter_other hl) ?_ ?_
      · intro hphase hdue
        rw [hnext] at hphase
        refine ⟨hphase, ?_, hbatch⟩
        simpa [dueAfter, hnext, hphase, hl] using hdue
      · rw [hnext]
        exact h.overdue
  | taken hl hphase hbatch hnext hcuts =>
      refine h.keeps (Or.inl hbatch) (by rw [hcuts]) (agesAfter_other hl)
        (hloop (Or.inl (by simp [hphase]))) ?_
      rw [hnext, afterEmit_reason]
      simp
  | @adds msg hphase hbatch hnext hcuts =>
      have hreason : t.rotator.phase.reason? ≠ some .time := by
        rw [hnext]
        exact afterAdd_reason _
      exact h.keeps (Or.inr hreason) (by rw [hcuts]) (agesAfter_phase (by simp [hphase]))
        (hloop (Or.inr rfl)) (fun htime => absurd htime hreason)
  | drains hphase hbatch hnext hcuts =>
      have hreason : t.rotator.phase.reason? ≠ some .time := by simp [hnext, RotatorPhase.reason?]
      exact h.keeps (Or.inr hreason) (by rw [hcuts]) (agesAfter_phase (by simp [hphase]))
        (hloop (Or.inr rfl)) (fun htime => absurd htime hreason)
  | drained hphase hbatch hnext hcuts =>
      have hreason : t.rotator.phase.reason? ≠ some .time := by
        rw [hnext]
        exact emit_reason (by decide) _ _
      exact h.keeps (Or.inr hreason) (by rw [hcuts]) (agesAfter_phase (by simp [hphase]))
        (hloop (Or.inr rfl)) (fun htime => absurd htime hreason)
  | fires hphase hstarted hbatch hnext hcuts =>
      rw [emit_time_phase hstarted] at hnext
      refine h.keeps (Or.inl hbatch) (by rw [hcuts]) (agesAfter_phase (by simp [hphase]))
        (hloop (Or.inr rfl)) fun _ => ?_
      obtain ⟨fire, htimer, hlow, -⟩ := h.armed hphase (hready hphase rfl) hstarted
      obtain ⟨fire', htimer', hpassed⟩ := hfires ⟨rfl, hphase, hnext⟩
      obtain rfl : fire = fire' := Option.some.inj (htimer.symm.trans htimer')
      exact Int.le_trans hlow hpassed
  | turns hphase hbatch hnext hreason hcuts =>
      exact h.keeps (Or.inl hbatch) (by rw [hcuts]) (agesAfter_phase (by simp [hphase]))
        (hloop (Or.inr rfl)) (fun htime => absurd htime hreason)
  | drops hphase hbatch hnext hcuts =>
      have hreason : t.rotator.phase.reason? ≠ some .time := by simp [hnext, RotatorPhase.reason?]
      refine h.keeps (Or.inr hreason) ?_ (agesAfter_phase (by simp [hphase]))
        (hloop (Or.inr rfl)) (fun htime => absurd htime hreason)
      rw [hcuts, emittedOf, List.filterMap_append]
      exact List.append_nil _
  | goes hphase hbatch hreason hcuts =>
      refine h.keeps (Or.inl hbatch) (by rw [hcuts]) (agesAfter_phase ?_) (hloop (Or.inr rfl)) ?_
      · intro reason ack heq
        rw [heq] at hphase
        cases hphase
      · exact fun htime => h.overdue (hreason htime)
  | @cuts reason ack pb hphase hbatch hnext hcuts =>
      have hemitted : emittedOf t.hist.cuts = emittedOf T.state.hist.cuts ++
          [T.state.rotator.batch.batch T.state.rotator.ordinal reason ack] := by
        rw [hcuts, emittedOf, List.filterMap_append]
        rfl
      have hages : T.agesAfter (.moves .rotator) = T.ages ++ [T.now.mono - T.startedAt.mono] := by
        simp [agesAfter, hphase]
      refine ⟨fun hselect => ?_, fun htime => ?_, ?_, fun i b age hb hage hreason => ?_⟩
      · cases hnext.symm.trans hselect
      · have hnone : t.rotator.phase.reason? = none := by rw [hnext]; rfl
        cases hnone.symm.trans htime
      · show (T.agesAfter _).length = (emittedOf t.hist.cuts).length
        rw [hages, hemitted]
        simp [h.length]
      · change (emittedOf t.hist.cuts)[i]? = some b at hb
        change (T.agesAfter _)[i]? = some age at hage
        rw [hemitted] at hb
        rw [hages] at hage
        rcases ListUpdate.getElem?_concat_cases hb with ⟨hi, rfl⟩ | hold
        · -- The batch that is cut here: its age is taken now.
          rw [← h.length] at hi
          obtain rfl : T.now.mono - T.startedAt.mono = age := by simpa [hi] using hage
          have htime : T.state.rotator.phase.reason? = some .time := by
            rw [hphase]
            exact congrArg some hreason
          have hdue := h.overdue htime
          omega
        · have hlt := (List.getElem?_eq_some_iff.mp hold).1
          rw [List.getElem?_append_left (h.length ▸ hlt)] at hage
          exact h.ages i b age hold hage hreason

/-! ## Runs -/

/-- What holds in every state of a run with a clock. -/
structure Kept (interval : Duration) (T : Timed) : Prop where
  published : T.Published
  arrived : T.Arrived
  punctual : T.Punctual interval

/-- **Step rule for runs with a clock.** -/
theorem Kept.step {U : Timed} {k : TimedLabel} (h : T.Kept interval)
    (hs : TimedStep p interval T k U) :
    U.Kept interval := by
  cases hs with
  | passes d wall =>
      refine ⟨⟨h.published.settled, h.published.draining⟩, ⟨h.arrived.length, h.arrived.first, ?_⟩,
        h.punctual.passes d wall⟩
      intro c hc
      obtain ⟨hlow, hhigh⟩ := h.arrived.later c hc
      exact ⟨hlow, by show c.mono ≤ T.now.mono + (d : Int); omega⟩
  | resets hphase hdue =>
      exact ⟨⟨h.published.settled, h.published.draining⟩,
        ⟨h.arrived.length, h.arrived.first, h.arrived.later⟩, h.punctual.resets⟩
  | moves hs hready hfires =>
      have hturn := hs.turn
      exact ⟨h.published.step hturn, h.arrived.step hturn, h.punctual.step hturn hready hfires⟩

theorem kept_newTimed (store : ObjectStore) (items : List EnqueueItem) (now : Clock) :
    (newTimed (newProducer p store items) now).Kept interval where
  published := .of_eq rfl
  arrived := by
    refine ⟨rfl, ?_, ?_⟩
    · intro c hc
      cases hc
    · intro c hc
      cases hc
  punctual := by
    refine ⟨?_, ?_, rfl, ?_⟩
    · intro _ hdue
      cases hdue
    · intro hreason
      cases hreason
    · intro i b age hb
      cases hb

end Timed

section Runs

variable {interval : Duration} {T : Timed} {store : ObjectStore} {items : List EnqueueItem}
  {now : Clock}

/-- What is kept holds in every state of a run with a clock. -/
theorem reachable_timed (hrun : TimedRun p interval (newTimed (newProducer p store items) now) T) :
    T.Kept interval :=
  hrun.invariant (Timed.kept_newTimed store items now) fun _ _ _ hx _ hs => hx.step hs

/-- A gauge that is set tells the time since then, or 0 if the wall clock was set
back. -/
theorem OldestUnflushedBatchAge_of_ne {ns wall : Int} (h : ns ≠ 0) :
    OldestUnflushedBatchAge ns wall = max 0 (wall - ns) := by
  unfold OldestUnflushedBatchAge
  rw [if_neg h]
  split <;> omega

/-- **The age gauge tells the age of the oldest message.**  In every run with a clock,
whether it is read between two messages, in the middle of a flush or while the rotator
waits for a slot: with an empty accumulator it reads 0; otherwise it reads the time since
the first of the messages in the accumulator was added, and all others came later.  Only
while a `Flush` drains waiting messages can it still read 0 instead, or if the wall clock
says the epoch. -/
theorem age_gauge_exact (hrun : TimedRun p interval (newTimed (newProducer p store items) now) T) :
    T.arrivals.length = T.state.rotator.batch.msgs.length ∧
      (T.state.rotator.batch.msgs = [] →
        OldestUnflushedBatchAge T.oldestUnflushedNs T.now.wall = 0) ∧
      ∀ first rest, T.arrivals = first :: rest →
        (∀ c ∈ rest, first.mono ≤ c.mono) ∧
        (OldestUnflushedBatchAge T.oldestUnflushedNs T.now.wall = 0 ∨
          OldestUnflushedBatchAge T.oldestUnflushedNs T.now.wall =
            max 0 (T.now.wall - first.wall)) ∧
        ((∀ f, T.state.rotator.phase ≠ .draining f) → first.wall ≠ 0 →
          OldestUnflushedBatchAge T.oldestUnflushedNs T.now.wall =
            max 0 (T.now.wall - first.wall)) := by
  obtain ⟨hpublished, harrived, -⟩ := reachable_timed hrun
  refine ⟨harrived.length, fun hempty => ?_, fun first rest hfirst => ?_⟩
  · have hclosed : T.state.rotator.batch.acc.started = false := by
      simpa [hempty] using (OpenBatch.started_iff T.state.rotator.batch).not
    have hzero : T.oldestUnflushedNs = 0 := by
      simpa [Timed.oldest, hclosed] using hpublished.draining
    rw [hzero]
    rfl
  · obtain ⟨hstart, hopen⟩ := harrived.start hfirst
    have holdest : T.oldest = first.wall := by
      rw [hstart]
      exact if_pos hopen
    refine ⟨fun c hc => ?_, ?_, fun hnot hwall => ?_⟩
    · rw [hstart]
      exact (harrived.later c (by rw [hfirst]; exact List.mem_cons_of_mem _ hc)).1
    · by_cases hzero : T.oldestUnflushedNs = 0
      · exact Or.inl (if_pos hzero)
      · have heq := hpublished.draining.resolve_left hzero
        rw [OldestUnflushedBatchAge_of_ne hzero, heq, holdest]
        exact Or.inr rfl
    · have heq := (hpublished.settled hnot).trans holdest
      rw [OldestUnflushedBatchAge_of_ne (by rw [heq]; exact hwall), heq]

/-- A message came at 3 ns, and 4 ns later the rotator has armed its timer. -/
def sampleOpen : Timed where
  state :=
    { sampleAppended with
      appendCh := ⟨[], false⟩
      rotator := ⟨OpenBatch.empty.add sampleMessage, 0, .selecting⟩ }
  now := ⟨7, 1007⟩
  startedAt := ⟨3, 1003⟩
  oldestUnflushedNs := 1003
  timer := some 13
  due := false
  arrivals := [⟨3, 1003⟩]
  ages := []

/-- A message arrives, and the rotator arms its timer. -/
theorem sample_opens : TimedRun sampleProducer 10 (newTimed sampleStart ⟨0, 1000⟩) sampleOpen := by
  have happended : TimedRun sampleProducer 10 (newTimed sampleStart ⟨0, 1000⟩)
      (newTimed sampleAppended ⟨0, 1000⟩) := by
    have hrun := (Reach.refl : TimedRun sampleProducer 10 (newTimed sampleStart ⟨0, 1000⟩) _)
      |>.tail trivial (.moves (.append rfl (.begin [[7]] [])) (fun _ h => by cases h)
        (fun h => by cases h.1))
      |>.tail trivial (.moves (.append rfl (.check (i := 0) rfl rfl)) (fun _ h => by cases h)
        (fun h => by cases h.1))
      |>.tail trivial (.moves (.append rfl (.reserve (i := 0) rfl rfl rfl sample_isFor))
        (fun _ h => by cases h) (fun h => by cases h.1))
      |>.tail trivial (.moves (.append rfl (.send (i := 0) rfl rfl rfl (by decide)))
        (fun _ h => by cases h) (fun h => by cases h.1))
      |>.tail trivial (.moves (.append rfl (.finish (i := 0) rfl rfl))
        (fun _ h => by cases h) (fun h => by cases h.1))
    exact hrun
  have hrun := happended
    |>.tail trivial (.resets rfl rfl)
    |>.tail trivial (.passes 3 1003)
    |>.tail trivial (.moves (.rotator rfl (.receive rfl rfl)) (fun _ _ => rfl)
      (fun h => by cases h.2.2))
    |>.tail trivial (.passes 4 1007)
    |>.tail trivial (.resets rfl rfl)
  exact hrun

/-- Four nanoseconds after its first message the batch is four nanoseconds old. -/
theorem age_gauge_exact_sample :
    ∃ T, TimedRun sampleProducer 10 (newTimed sampleStart ⟨0, 1000⟩) T ∧
      T.arrivals = [⟨3, 1003⟩] ∧
      OldestUnflushedBatchAge T.oldestUnflushedNs T.now.wall = max 0 (1007 - 1003) :=
  ⟨sampleOpen, sample_opens, rfl, ((age_gauge_exact sample_opens).2.2 ⟨3, 1003⟩ [] rfl).2.2
    (fun _ h => by cases h) (by decide)⟩

/-- **Flushes by time are punctual.**  In every run with a clock each emitted batch has its
age on record, and a batch that was flushed by the timer was at least one flush interval
old.  Where the rotator waits for its next event with an open batch, the flush by time is
possible as soon as the first message of the batch is one interval old, however many have
come since, and not before. -/
theorem timer_flush_punctual
    (hrun : TimedRun p interval (newTimed (newProducer p store items) now) T) :
    T.ages.length = (emittedOf T.state.hist.cuts).length ∧
      (∀ (i : Nat) (b : Batch) (age : Int), (emittedOf T.state.hist.cuts)[i]? = some b →
        T.ages[i]? = some age → b.reason = .time → interval.toInt ≤ age) ∧
      ∀ first rest, T.arrivals = first :: rest → T.state.panicked = none →
        T.state.rotator.phase = .selecting → T.due = false →
        ((∃ U, TimedStep p interval T (.step (.moves .rotator)) U ∧
            U.state.rotator.phase = .acquiring .time none) ↔
          first.mono + interval.toInt ≤ T.now.mono) := by
  obtain ⟨-, harrived, hpunctual⟩ := reachable_timed hrun
  refine ⟨hpunctual.length, hpunctual.ages, fun first rest hfirst hrunning hphase hdue => ?_⟩
  obtain ⟨hstart, hopen⟩ := harrived.start hfirst
  obtain ⟨fire, htimer, hlow, hhigh⟩ := hpunctual.armed hphase hdue hopen
  rw [hstart]
  constructor
  · rintro ⟨U, hs, hnext⟩
    cases hs with
    | moves hs hready hfires =>
        obtain ⟨fire', htimer', hpassed⟩ := hfires ⟨rfl, hphase, hnext⟩
        obtain rfl : fire = fire' := Option.some.inj (htimer.symm.trans htimer')
        exact Int.le_trans hlow hpassed
  · intro hover
    refine ⟨_, .moves (.rotator hrunning (.timer hphase hopen)) (fun _ _ => hdue)
      (fun _ => ⟨fire, htimer, ?_⟩), Timed.emit_time_phase hopen⟩
    exact Int.le_trans hhigh (Int.max_le.mpr ⟨Int.le_refl _, hover⟩)

/-- Four nanoseconds after its start a batch is not flushed by a timer of ten. -/
theorem timer_flush_punctual_sample :
    ∃ T, TimedRun sampleProducer 10 (newTimed sampleStart ⟨0, 1000⟩) T ∧ T.now.mono = 7 ∧
      ¬ ∃ U, TimedStep sampleProducer 10 T (.step (.moves .rotator)) U ∧
        U.state.rotator.phase = .acquiring .time none := by
  refine ⟨sampleOpen, sample_opens, rfl, ?_⟩
  rw [(timer_flush_punctual sample_opens).2.2 ⟨3, 1003⟩ [] rfl rfl rfl rfl]
  decide

/-- A step of the producer can be taken with a clock, after the steps that make it so:
`resetTimer`, and enough time. -/
theorem exists_timed_step (h : T.Kept interval) (hs : ProducerStep p T.state l t) :
    ∃ U, TimedRun p interval T U ∧ U.state = t := by
  -- First `resetTimer`, if the rotator is before it.
  obtain ⟨R, hR, hstate, hkept, hready⟩ : ∃ R, TimedRun p interval T R ∧ R.state = T.state ∧
      R.Kept interval ∧ (R.state.rotator.phase = .selecting → R.due = false) := by
    by_cases hloop : T.state.rotator.phase = .selecting ∧ T.due = true
    · have hreset : TimedStep p interval T .reset _ := .resets hloop.1 hloop.2
      exact ⟨_, Reach.refl.tail trivial hreset, rfl, h.step hreset, fun _ => rfl⟩
    · refine ⟨T, .refl, rfl, h, fun hphase => ?_⟩
      simpa [hphase] using hloop
  rw [← hstate] at hs
  -- Then time, if the step is the one of the timer.
  by_cases hfires : R.Fires l t
  · obtain ⟨rfl, hphase, hnext⟩ := hfires
    have hopen := hs.turn.started_of_fires hphase hnext
    obtain ⟨fire, htimer, -, -⟩ := hkept.punctual.armed hphase (hready hphase) hopen
    have hpass : TimedStep p interval R .time _ := .passes (fire - R.now.mono).toNat R.now.wall
    refine ⟨_, (hR.tail trivial hpass).tail trivial (.moves hs (fun _ _ => hready hphase)
      (fun _ => ⟨fire, htimer, ?_⟩)), rfl⟩
    show fire ≤ R.now.mono + ((fire - R.now.mono).toNat : Int)
    omega
  · exact ⟨_, hR.tail trivial (.moves hs (fun hphase _ => hready hphase)
      (fun hf => absurd hf hfires)), rfl⟩

/-- **The clock adds no restriction.**  The runs of the producer are the runs with a
clock, with the times left out. -/
theorem timed_runs_are_runs :
    (∃ T, TimedRun p interval (newTimed (newProducer p store items) now) T ∧ T.state = s) ↔
      Run p (newProducer p store items) s := by
  constructor
  · rintro ⟨T, hrun, rfl⟩
    refine hrun.simulation Timed.state ?_
    intro x l y _ hs
    cases hs with
    | passes => exact Or.inl rfl
    | resets => exact Or.inl rfl
    | moves hs => exact Or.inr ⟨_, hs⟩
  · intro hrun
    induction hrun with
    | refl => exact ⟨_, .refl, rfl⟩
    | tail _ _ hs ih =>
        obtain ⟨T, hT, rfl⟩ := ih
        obtain ⟨U, hU, rfl⟩ := exists_timed_step (reachable_timed hT) hs
        exact ⟨U, hT.trans hU, rfl⟩

end Runs

end OpenDataBuffer
