import OpenDataBuffer.LedgerView

/-!
# The rotator in any surroundings

The rotator alone: messages arrive, flush requests are made, the timer fires, slots
are granted or refused, encoders take batches, and the channel is closed, in any
order.  Whatever happens, the rotator cuts what it receives into batches without
losing, doubling or reordering a message, and numbers the batches it emits without a
gap (`Partitioned`); and it keeps the accumulator below the threshold (`CutBySize`).
-/

namespace OpenDataBuffer

open LabelledRuns ListUpdate

variable {p : Producer} {s t : State} {l : Label}

/-! ## The surroundings -/

/-- What everything around the rotator may do: send messages on `appendCh` while
it is open, begin flush calls, take the batch that the rotator sends, and change
whatever the rotator has no part in. -/
structure RotatorEnv (s t : State) : Prop where
  rotator : t.rotator = s.rotator ∨
    ∃ pb, s.rotator.phase = .sendingPending pb ∧ t.rotator = s.rotator.at (afterEmit pb.reason)
  sent : ∃ msgs, t.appendCh.queue = s.appendCh.queue ++ msgs ∧
    t.hist.accepted = s.hist.accepted ++ msgs
  requests : ∀ (f : Nat) (c : FlushCall), t.flushes[f]? = some c → c.phase = .requesting →
    s.flushes.length ≤ f ∨ ∃ c', s.flushes[f]? = some c' ∧ c'.phase = .requesting
  calls : s.flushes.length ≤ t.flushes.length
  cuts : t.hist.cuts = s.hist.cuts
  taken : t.hist.taken = s.hist.taken
  acked : t.hist.acked = s.hist.acked

/-- A step of the rotator or of its surroundings. -/
inductive RotationStep (p : Producer) (s : State) (l : Label) (t : State) : Prop
  | own (h : RotatorStep p s l t)
  | env (h : RotatorEnv s t)

/-- The runs of the rotator in any surroundings. -/
abbrev RotationRun (p : Producer) (s t : State) : Prop :=
  Reach (RotationStep p) (fun _ _ => True) s t

/-! ## Messages -/

/-- What a step does to the messages on their way through the rotator. -/
inductive MessageFlow (s t : State) : Prop
  | rests (hbatch : t.rotator.batch = s.rotator.batch)
      (hordinal : t.rotator.ordinal = s.rotator.ordinal)
      (hcuts : t.hist.cuts = s.hist.cuts) (msgs : List AppendMessage)
      (hqueue : t.appendCh.queue = s.appendCh.queue ++ msgs)
      (haccepted : t.hist.accepted = s.hist.accepted ++ msgs)
  | adds (msg : AppendMessage) (hbatch : t.rotator.batch = s.rotator.batch.add msg)
      (hordinal : t.rotator.ordinal = s.rotator.ordinal) (hcuts : t.hist.cuts = s.hist.cuts)
      (hmove : s.appendCh.queue = msg :: t.appendCh.queue ∧ t.hist.accepted = s.hist.accepted ∨
        s.appendCh.queue = [] ∧ t.appendCh.queue = [] ∧ t.hist.accepted = s.hist.accepted ++ [msg])
  | drops {reason : FlushReason} {ack : Option Nat}
      (hphase : s.rotator.phase = .dropping reason ack)
      (hbatch : t.rotator.batch = OpenBatch.empty)
      (hordinal : t.rotator.ordinal = s.rotator.ordinal)
      (hcuts : t.hist.cuts = s.hist.cuts ++ [.dropped s.rotator.batch.msgs])
      (hqueue : t.appendCh.queue = s.appendCh.queue) (haccepted : t.hist.accepted = s.hist.accepted)
  | emits {reason : FlushReason} {ack : Option Nat}
      (hphase : s.rotator.phase = .reconciling reason ack)
      (hbatch : t.rotator.batch = OpenBatch.empty)
      (hordinal : t.rotator.ordinal = s.rotator.ordinal + 1)
      (hcuts : t.hist.cuts =
        s.hist.cuts ++ [.emitted (s.rotator.batch.batch s.rotator.ordinal reason ack)])
      (hqueue : t.appendCh.queue = s.appendCh.queue) (haccepted : t.hist.accepted = s.hist.accepted)

theorem RotatorStep.flow (hs : RotatorStep p s l t) : MessageFlow s t := by
  have hstill : t.rotator.batch = s.rotator.batch → t.rotator.ordinal = s.rotator.ordinal →
      t.hist.cuts = s.hist.cuts → t.appendCh.queue = s.appendCh.queue →
      t.hist.accepted = s.hist.accepted → MessageFlow s t := by
    intro hbatch hordinal hcuts hqueue haccepted
    exact .rests hbatch hordinal hcuts [] (by simp [hqueue]) (by simp [haccepted])
  cases hs with
  | receive hphase hqueue => exact .adds _ rfl rfl rfl (Or.inl ⟨hqueue, rfl⟩)
  | drainReceive hphase hqueue => exact .adds _ rfl rfl rfl (Or.inl ⟨hqueue, rfl⟩)
  | handoff hphase hcap hqueue hopen hcall hsend =>
      exact .adds _ rfl rfl rfl (Or.inr ⟨hqueue, hqueue, rfl⟩)
  | drainHandoff hphase hcap hqueue hopen hcall hsend =>
      exact .adds _ rfl rfl rfl (Or.inr ⟨hqueue, hqueue, rfl⟩)
  | drop hphase => exact .drops hphase rfl rfl rfl rfl rfl
  | reconcile hphase => exact .emits hphase rfl rfl rfl rfl rfl
  | _ => exact hstill rfl rfl rfl rfl rfl

theorem RotatorEnv.flow (h : RotatorEnv s t) : MessageFlow s t := by
  obtain ⟨msgs, hqueue, haccepted⟩ := h.sent
  rcases h.rotator with hrot | ⟨pb, -, hrot⟩
  · exact .rests (by rw [hrot]) (by rw [hrot]) h.cuts msgs hqueue haccepted
  · exact .rests (by rw [hrot]; rfl) (by rw [hrot]; rfl) h.cuts msgs hqueue haccepted

/-- A step of the rotator and its surroundings moves messages as `MessageFlow` says. -/
theorem RotationStep.flow (hs : RotationStep p s l t) : MessageFlow s t := by
  cases hs with
  | own h => exact h.flow
  | env h => exact h.flow

/-- The rotator emits and drops nonempty batches only, and leaves an empty one
behind. -/
theorem RotationStep.coherent (hs : RotationStep p s l t)
    (h : s.rotator.phase.Coherent s.rotator.batch.msgs) :
    t.rotator.phase.Coherent t.rotator.batch.msgs := by
  cases hs with
  | own hs => exact hs.coherent h
  | env hs =>
      rcases hs.rotator with hrot | ⟨pb, hphase, hrot⟩
      · rw [hrot]
        exact h
      · rw [hrot]
        rw [hphase] at h
        exact afterEmit_coherent h

/-- The messages are cut into batches, in order and without an empty one, and
those emitted are numbered without a gap. -/
structure Partitioned (s : State) : Prop where
  partition : s.hist.accepted =
    s.hist.cuts.flatMap Cut.msgs ++ (s.rotator.batch.msgs ++ s.appendCh.queue)
  nonempty : ∀ cut ∈ s.hist.cuts, cut.msgs ≠ []
  numbered : (emittedOf s.hist.cuts).map Batch.ordinal = List.range s.rotator.ordinal
  coherent : s.rotator.phase.Coherent s.rotator.batch.msgs

/-- **Step rule for the partition.**  A message moves from the queue to the open batch
and from there to a cut, and its place in the order does not change. -/
theorem Partitioned.step (h : Partitioned s) (hs : RotationStep p s l t) : Partitioned t := by
  have hcoherent := hs.coherent h.coherent
  have hrotator := h.coherent
  cases hs.flow with
  | rests hbatch hordinal hcuts msgs hqueue haccepted =>
      refine ⟨?_, by rw [hcuts]; exact h.nonempty, by rw [hcuts, hordinal]; exact h.numbered,
        hcoherent⟩
      rw [haccepted, hcuts, hbatch, hqueue, h.partition]
      simp
  | adds msg hbatch hordinal hcuts hmove =>
      refine ⟨?_, by rw [hcuts]; exact h.nonempty, by rw [hcuts, hordinal]; exact h.numbered,
        hcoherent⟩
      rcases hmove with ⟨hqueue, haccepted⟩ | ⟨hqueue, hqueue', haccepted⟩
      · rw [haccepted, hcuts, hbatch, h.partition, hqueue]
        simp
      · rw [haccepted, hcuts, hbatch, h.partition, hqueue, hqueue']
        simp
  | drops hphase hbatch hordinal hcuts hqueue haccepted =>
      rw [hphase] at hrotator
      refine ⟨?_, ?_, ?_, hcoherent⟩
      · rw [haccepted, hcuts, hbatch, hqueue, h.partition]
        simp [Cut.msgs]
      · intro cut hcut
        rw [hcuts, List.mem_append, List.mem_singleton] at hcut
        rcases hcut with hold | rfl
        · exact h.nonempty cut hold
        · exact hrotator
      · rw [hcuts, hordinal, emittedOf_dropped]
        exact h.numbered
  | emits hphase hbatch hordinal hcuts hqueue haccepted =>
      rw [hphase] at hrotator
      refine ⟨?_, ?_, ?_, hcoherent⟩
      · rw [haccepted, hcuts, hbatch, hqueue, h.partition]
        simp [Cut.msgs, OpenBatch.batch]
      · intro cut hcut
        rw [hcuts, List.mem_append, List.mem_singleton] at hcut
        rcases hcut with hold | rfl
        · exact h.nonempty cut hold
        · exact hrotator
      · rw [hcuts, hordinal, emittedOf_emitted, List.map_append, h.numbered, List.range_succ]
        rfl

/-! ## Sizes -/

/-- The last message made the batch as large as the threshold. -/
def SizeTriggered (p : Producer) (msgs : List AppendMessage) : Prop :=
  ∃ front last, msgs = front ++ [last] ∧
    ((accumulate front).sizeBytes : Int) < p.config.FlushSizeBytes ∧
    p.config.FlushSizeBytes ≤ (accumulate msgs).sizeBytes

/-- Why the rotator cuts the accumulator off, once it does. -/
def RotatorPhase.cutting : RotatorPhase → Option FlushReason
  | .acquiring reason _ => some reason
  | .parked reason _ _ => some reason
  | .dropping reason _ => some reason
  | .reconciling reason _ => some reason
  | _ => none

/-- What the point of the code says about the size of the accumulator. -/
structure RotatorPhase.Sized (p : Producer) (phase : RotatorPhase) (msgs : List AppendMessage) :
    Prop where
  head : phase = .selecting → ((accumulate msgs).sizeBytes : Int) < p.config.FlushSizeBytes
  triggered : phase.cutting = some .size → SizeTriggered p msgs

theorem sized_afterEmit (hsize : 0 < p.config.FlushSizeBytes) (reason : FlushReason) :
    (afterEmit reason).Sized p [] := by
  refine ⟨fun _ => hsize, fun h => ?_⟩
  unfold afterEmit at h
  split at h <;> cases h

theorem sized_emit (hsize : 0 < p.config.FlushSizeBytes) {reason : FlushReason} {ack : Option Nat}
    {b : OpenBatch} (h : reason = .size → SizeTriggered p b.msgs) :
    (emit reason ack b).Sized p b.msgs := by
  unfold emit
  by_cases hempty : b.acc.isEmpty = true
  · rw [if_pos hempty, (OpenBatch.isEmpty_iff b).mp hempty]
    cases ack with
    | some f => exact ⟨nofun, nofun⟩
    | none => exact sized_afterEmit hsize reason
  · rw [if_neg hempty]
    exact ⟨nofun, fun hreason => h (Option.some.inj hreason)⟩

/-- With one more message the batch is below the limit, or cut by size. -/
theorem sized_afterAdd (hsize : 0 < p.config.FlushSizeBytes) {b : OpenBatch} (msg : AppendMessage)
    (h : ((accumulate b.msgs).sizeBytes : Int) < p.config.FlushSizeBytes) :
    (p.afterAdd (b.add msg)).Sized p (b.add msg).msgs := by
  unfold Producer.afterAdd
  rw [(b.add msg).made]
  by_cases hfull : p.config.FlushSizeBytes ≤ ((accumulate (b.add msg).msgs).sizeBytes : Int)
  · rw [if_pos hfull]
    exact sized_emit hsize fun _ => ⟨b.msgs, msg, rfl, h, hfull⟩
  · rw [if_neg hfull]
    exact ⟨fun _ => by omega, nofun⟩

theorem sized_afterDrop (hsize : 0 < p.config.FlushSizeBytes) (reason : FlushReason)
    (ack : Option Nat) : (afterDrop reason ack).Sized p [] := by
  cases ack with
  | some f => exact ⟨nofun, nofun⟩
  | none => exact sized_afterEmit hsize reason

/-- Outside of an emit the open batch of the rotator stays below `FlushSizeBytes`. -/
theorem RotatorStep.sized (hsize : 0 < p.config.FlushSizeBytes) (hs : RotatorStep p s l t)
    (hcoherent : s.rotator.phase.Coherent s.rotator.batch.msgs)
    (h : s.rotator.phase.Sized p s.rotator.batch.msgs) :
    t.rotator.phase.Sized p t.rotator.batch.msgs := by
  cases hs with
  | receive hphase hqueue => exact sized_afterAdd hsize _ (h.head hphase)
  | handoff hphase hcap hqueue hopen hcall hsend => exact sized_afterAdd hsize _ (h.head hphase)
  | receiveClosed hphase hqueue hclosed => exact sized_emit hsize nofun
  | drainDone hphase hqueue => exact sized_emit hsize nofun
  | timer hphase hstarted => exact sized_emit hsize nofun
  | acquire hphase hgrant => rw [hphase] at h; exact ⟨nofun, h.triggered⟩
  | park hphase hwait => rw [hphase] at h; exact ⟨nofun, h.triggered⟩
  | wake hphase hclosed => rw [hphase] at h; exact ⟨nofun, h.triggered⟩
  | refused hphase hshutdown => rw [hphase] at h; exact ⟨nofun, h.triggered⟩
  | dropDone hphase =>
      rw [hphase] at hcoherent
      show (afterDrop _ _).Sized p s.rotator.batch.msgs
      rw [show s.rotator.batch.msgs = [] from hcoherent]
      exact sized_afterDrop hsize _ _
  | ack hphase hcall hroom =>
      rw [hphase] at hcoherent
      show (afterEmit _).Sized p s.rotator.batch.msgs
      rw [hcoherent.1]
      exact sized_afterEmit hsize _
  | sendClosed hphase hclosed => exact h
  | _ => exact ⟨nofun, nofun⟩

/-- The others do not touch the open batch. -/
theorem RotationStep.sized (hsize : 0 < p.config.FlushSizeBytes) (hs : RotationStep p s l t)
    (hcoherent : s.rotator.phase.Coherent s.rotator.batch.msgs)
    (h : s.rotator.phase.Sized p s.rotator.batch.msgs) :
    t.rotator.phase.Sized p t.rotator.batch.msgs := by
  cases hs with
  | own hs => exact hs.sized hsize hcoherent h
  | env hs =>
      rcases hs.rotator with hrot | ⟨pb, hphase, hrot⟩
      · rw [hrot]
        exact h
      · rw [hphase] at hcoherent
        rw [hrot]
        show (afterEmit pb.reason).Sized p s.rotator.batch.msgs
        rw [show s.rotator.batch.msgs = [] from hcoherent]
        exact sized_afterEmit hsize _

/-- Batches that were cut off for their size. -/
structure CutBySize (p : Producer) (s : State) : Prop where
  phase : s.rotator.phase.Sized p s.rotator.batch.msgs
  emitted : ∀ b ∈ emittedOf s.hist.cuts, b.reason = .size → SizeTriggered p b.msgs

/-- A cut is made from the batch that the phase describes, so its size follows from
`Sized`. -/
theorem CutBySize.step (hsize : 0 < p.config.FlushSizeBytes) (h : CutBySize p s)
    (hp : Partitioned s) (hs : RotationStep p s l t) : CutBySize p t := by
  refine ⟨hs.sized hsize hp.coherent h.phase, ?_⟩
  cases hs.flow with
  | rests hbatch hordinal hcuts msgs hqueue haccepted => rw [hcuts]; exact h.emitted
  | adds msg hbatch hordinal hcuts hmove => rw [hcuts]; exact h.emitted
  | drops hphase hbatch hordinal hcuts hqueue haccepted =>
      rw [hcuts, emittedOf_dropped]
      exact h.emitted
  | emits hphase hbatch hordinal hcuts hqueue haccepted =>
      rw [hcuts, emittedOf_emitted]
      intro b hb hreason
      rcases List.mem_append.mp hb with hold | hnew
      · exact h.emitted b hold hreason
      · obtain rfl := List.mem_singleton.mp hnew
        apply h.phase.triggered
        rw [hphase]
        exact congrArg some hreason

end OpenDataBuffer
