import OpenDataBuffer.ProducerRuns
import OpenDataBuffer.RotationRequests

/-!
# The rotator partitions its input

The invariants of the rotator hold in all its runs, whatever happens around it.  A
run of a producer is such a run, with everything else as the surroundings
(`RunWhere.rotation`).
-/

namespace OpenDataBuffer

open LabelledRuns ListUpdate

variable {p : Producer} {s t : State} {l : Label}

/-! ## Runs -/

theorem partitioned_newProducer (store : ObjectStore) (items : List EnqueueItem) :
    Partitioned (newProducer p store items) where
  partition := rfl
  nonempty := fun _ hcut => absurd hcut List.not_mem_nil
  numbered := rfl
  coherent := trivial

theorem rotation_newProducer (hsize : 0 < p.config.FlushSizeBytes) (store : ObjectStore)
    (items : List EnqueueItem) : Partitioned (newProducer p store items) ∧
      CutBySize p (newProducer p store items) ∧ Answered (newProducer p store items) := by
  refine ⟨partitioned_newProducer store items, ⟨⟨fun _ => hsize, nofun⟩, ?_⟩,
    ⟨rfl, List.nodup_nil, ?_, ?_⟩⟩
  · exact fun b hb => absurd hb List.not_mem_nil
  · exact fun f hf => absurd hf List.not_mem_nil
  · exact fun a ha => absurd ha List.not_mem_nil

/-- The partition holds in every run that starts with it. -/
theorem RotationRun.partitioned (h : Partitioned s) (hrun : RotationRun p s t) : Partitioned t :=
  hrun.invariant h fun _ _ _ hx _ hs => hx.step hs

/-- The three invariants hold in every run of the rotator. -/
theorem reachable_rotation (hsize : 0 < p.config.FlushSizeBytes) {store : ObjectStore}
    {items : List EnqueueItem} (hrun : RotationRun p (newProducer p store items) s) :
    Partitioned s ∧ CutBySize p s ∧ Answered s := by
  refine hrun.invariant (P := fun x => Partitioned x ∧ CutBySize p x ∧ Answered x)
    (rotation_newProducer hsize store items) ?_
  rintro x l y ⟨hp, hc, ha⟩ - hs
  exact ⟨hp.step hs, hc.step hsize hp hs, ha.step hp hs⟩

/-- How often a flush is attached, counted over the batches. -/
theorem count_attached (s : State) (f : Nat) :
    s.attached.count f = (emittedOf s.hist.cuts).countP fun b => b.flushAck = some f := by
  unfold State.attached acksOf
  induction emittedOf s.hist.cuts with
  | nil => rfl
  | cons b rest ih =>
      rw [← Multiset.cons_coe, Multiset.map_cons, Multiset.sum_cons, Multiset.count_add, ih,
        List.countP_cons]
      cases hack : b.flushAck with
      | none => simp
      | some g =>
          by_cases hg : g = f
          · simp [hg, add_comm]
          · simp [hg, Ne.symm hg]

/-- A request that is taken covers what the rotator holds. -/
theorem TakesRequest.handled {f : Nat} (h : TakesRequest p s f t) :
    Handled f (s.rotator.batch.msgs ++ s.appendCh.queue) t := by
  refine .draining h.phase ?_
  have htaken := h.taken
  have hflow := h.step
  cases hflow with
  | takeFlush hphase hcall hrequest => exact List.prefix_rfl
  | _ => simp at htaken

/-! ## The rotator of a producer -/

/-- The state with another record of acknowledgements. -/
def State.withAcked (s : State) (acked : List (Nat × Option BufferError)) : State :=
  { s with hist := { s.hist with acked := acked } }

/-- The rotator does not read the record of acknowledgements. -/
theorem RotatorStep.withAcked (hs : RotatorStep p s l t) (acked : List (Nat × Option BufferError)) :
    ∃ acked', RotatorStep p (s.withAcked acked) l (t.withAcked acked') := by
  cases hs with
  | receive hphase hqueue => exact ⟨acked, .receive hphase hqueue⟩
  | handoff hphase hcap hqueue hopen hcall hsend =>
      exact ⟨acked, .handoff hphase hcap hqueue hopen hcall hsend⟩
  | receiveClosed hphase hqueue hclosed => exact ⟨acked, .receiveClosed hphase hqueue hclosed⟩
  | takeFlush hphase hcall hrequest => exact ⟨acked, .takeFlush hphase hcall hrequest⟩
  | drainReceive hphase hqueue => exact ⟨acked, .drainReceive hphase hqueue⟩
  | drainHandoff hphase hcap hqueue hopen hcall hsend =>
      exact ⟨acked, .drainHandoff hphase hcap hqueue hopen hcall hsend⟩
  | drainDone hphase hqueue => exact ⟨acked, .drainDone hphase hqueue⟩
  | timer hphase hstarted => exact ⟨acked, .timer hphase hstarted⟩
  | acquire hphase hgrant => exact ⟨acked, .acquire hphase hgrant⟩
  | park hphase hwait => exact ⟨acked, .park hphase hwait⟩
  | wake hphase hclosed => exact ⟨acked, .wake hphase hclosed⟩
  | refused hphase hshutdown => exact ⟨acked, .refused hphase hshutdown⟩
  | drop hphase => exact ⟨acked, .drop hphase⟩
  | dropResolve hphase => exact ⟨acked, .dropResolve hphase⟩
  | dropDone hphase => exact ⟨acked, .dropDone hphase⟩
  | ack hphase hcall hroom => exact ⟨_, .ack hphase hcall hroom⟩
  | reconcile hphase => exact ⟨acked, .reconcile hphase⟩
  | sendClosed hphase hclosed => exact ⟨acked, .sendClosed hphase hclosed⟩
  | closePending hphase => exact ⟨acked, .closePending hphase⟩
  | closeDone hphase => exact ⟨acked, .closeDone hphase⟩

/-- Nobody makes an old flush call ask again. -/
def KeepsRequests (s t : State) : Prop :=
  s.flushes.length ≤ t.flushes.length ∧ ∀ (f : Nat) (c : FlushCall), t.flushes[f]? = some c →
    c.phase = .requesting →
    s.flushes.length ≤ f ∨ ∃ c', s.flushes[f]? = some c' ∧ c'.phase = .requesting

theorem KeepsRequests.of_eq (h : t.flushes = s.flushes) : KeepsRequests s t :=
  ⟨by rw [h], fun _ c hcall hrequest => Or.inr ⟨c, h ▸ hcall, hrequest⟩⟩

/-- A call that moves on does not ask again. -/
theorem KeepsRequests.of_set {f : Nat} {c c' : FlushCall} (hcall : s.flushes[f]? = some c)
    (h : t.flushes = s.flushes.set f c') (hphase : c'.phase = .requesting → c.phase = .requesting) :
    KeepsRequests s t := by
  refine ⟨by rw [h, List.length_set], fun g d hd hrequest => Or.inr ?_⟩
  rw [h] at hd
  rcases getElem?_set_cases hd with ⟨rfl, rfl⟩ | ⟨-, hold⟩
  · exact ⟨c, hcall, hphase hrequest⟩
  · exact ⟨d, hold, hrequest⟩

theorem KeepsRequests.of_new {c : FlushCall} (h : t.flushes = s.flushes ++ [c]) :
    KeepsRequests s t := by
  refine ⟨by rw [h, List.length_append]; omega, fun g d hd hrequest => ?_⟩
  rw [h] at hd
  rcases getElem?_concat_cases hd with ⟨rfl, -⟩ | hold
  · exact Or.inl le_rfl
  · exact Or.inr ⟨d, hold, hrequest⟩

/-- A flush call asks once. -/
theorem FlushStep.keepsRequests (hs : FlushStep s l t) : KeepsRequests s t := by
  cases hs with
  | begin => exact .of_new rfl
  | ctxDone text hcall hctx => exact .of_set hcall rfl id
  | requestDone hcall hphase hdone => exact .of_set hcall rfl nofun
  | requestCtx hcall hphase hctx => exact .of_set hcall rfl nofun
  | receiveAck hcall hphase hresult => exact .of_set hcall rfl nofun
  | awaitDone hcall hphase hdone => exact .of_set hcall rfl nofun
  | awaitCtx hcall hphase hctx => exact .of_set hcall rfl nofun
  | drained hcall hphase hgrant => exact .of_set hcall rfl nofun
  | park hcall hphase hwait => exact .of_set hcall rfl nofun
  | wake hcall hphase hclosed => exact .of_set hcall rfl nofun
  | parkedCtx hcall hphase hctx => exact .of_set hcall rfl nofun
  | parkedShutdown hcall hphase hshutdown => exact .of_set hcall rfl nofun

/-- What the rotator works with, but for the flush calls. -/
def State.aroundRotator (s : State) :
    Rotator × List AppendMessage × List AppendMessage × List Cut × List (Nat × Nat) :=
  (s.rotator, s.appendCh.queue, s.hist.accepted, s.hist.cuts, s.hist.taken)

/-- A step that leaves the rotator and its channel alone. -/
theorem RotatorEnv.of_same {acked : List (Nat × Option BufferError)}
    (hsame : t.aroundRotator = s.aroundRotator) (hcalls : KeepsRequests s t) :
    RotatorEnv (s.withAcked acked) (t.withAcked acked) := by
  simp only [State.aroundRotator, Prod.mk.injEq] at hsame
  obtain ⟨hrotator, hqueue, haccepted, hcuts, htaken⟩ := hsame
  refine ⟨Or.inl hrotator, ⟨[], ?_, ?_⟩, hcalls.2, hcalls.1, hcuts, htaken, rfl⟩
  · exact hqueue.trans (List.append_nil _).symm
  · exact haccepted.trans (List.append_nil _).symm

/-- A step of a producer is a step of its rotator or of what is around it. -/
theorem ProducerStep.rotation (hs : ProducerStep p s l t)
    (acked : List (Nat × Option BufferError)) :
    ∃ acked', RotationStep p (s.withAcked acked) l (t.withAcked acked') := by
  cases hs with
  | rotator _ hs =>
      obtain ⟨acked', h⟩ := hs.withAcked acked
      exact ⟨acked', .own h⟩
  | append _ hs =>
      refine ⟨acked, .env ?_⟩
      cases hs with
      | send hcall hphase hopen hroom =>
          exact ⟨Or.inl rfl, ⟨_, rfl, rfl⟩, (KeepsRequests.of_eq rfl).2, le_rfl, rfl, rfl, rfl⟩
      | _ => exact .of_same rfl (.of_eq rfl)
  | flush _ hs =>
      refine ⟨acked, .env ?_⟩
      have hcalls := hs.keepsRequests
      cases hs <;> exact .of_same rfl hcalls
  | close _ hs =>
      refine ⟨acked, .env ?_⟩
      cases hs with
      | begin hphase => exact .of_same rfl (.of_new rfl)
      | _ => exact .of_same rfl (.of_eq rfl)
  | encoder _ hs =>
      refine ⟨acked, .env ?_⟩
      cases hs with
      | take henc hsend =>
          exact ⟨Or.inr ⟨_, hsend, rfl⟩, ⟨[], (List.append_nil _).symm, (List.append_nil _).symm⟩,
            (KeepsRequests.of_eq rfl).2, le_rfl, rfl, rfl, rfl⟩
      | _ => exact .of_same rfl (.of_eq rfl)
  | uploader _ hs =>
      refine ⟨acked, .env ?_⟩
      cases hs <;> exact .of_same rfl (.of_eq rfl)
  | committer _ hs =>
      refine ⟨acked, .env ?_⟩
      cases hs <;> exact .of_same rfl (.of_eq rfl)
  | resolver _ hs =>
      refine ⟨acked, .env ?_⟩
      cases hs with
      | ack hphase hack hcall hroom => exact .of_same rfl (.of_set hcall rfl id)
      | _ => exact .of_same rfl (.of_eq rfl)
  | others hs =>
      refine ⟨acked, .env ?_⟩
      cases hs <;> exact .of_same rfl (.of_eq rfl)

/-- **A run of a producer is a run of its rotator.**  The record of
acknowledgements then has those of the rotator only. -/
theorem RunWhere.rotation {allowed : State → Label → Prop} (hrun : RunWhere p allowed s t) :
    ∃ acked, RotationRun p s (t.withAcked acked) := by
  induction hrun with
  | refl => exact ⟨s.hist.acked, .refl⟩
  | tail before admitted last ih =>
      obtain ⟨acked, hrotation⟩ := ih
      obtain ⟨acked', hstep⟩ := last.rotation acked
      exact ⟨acked', hrotation.tail trivial hstep⟩

/-- The batches that a producer cuts off are not empty. -/
theorem reachable_nonempty {allowed : State → Label → Prop} {store : ObjectStore}
    {items : List EnqueueItem} (hrun : RunWhere p allowed (newProducer p store items) s) :
    ∀ cut ∈ s.hist.cuts, cut.msgs ≠ [] := by
  obtain ⟨acked, hrotation⟩ := hrun.rotation
  exact (RotationRun.partitioned (partitioned_newProducer store items) hrotation).nonempty

/-- **The rotator partitions its input.**  In every run of the rotator, whatever
happens around it: the messages sent are those of the batches cut off, in order,
followed by those in the accumulator and those still in the channel; no batch is
empty; the emitted ones are numbered from 0 on without a gap; at the head of the
loop the accumulator is below the threshold and its two sizes agree; a batch cut off
for its size was below the threshold before its last message; every request taken
is answered in one way only, and a batch that it is attached to has everything
that was there when the request was taken; and at the end the accumulator is empty. -/
theorem rotator_partitions_input {store : ObjectStore} {items : List EnqueueItem}
    (hsize : 0 < p.config.FlushSizeBytes) (hrun : RotationRun p (newProducer p store items) s) :
    s.hist.accepted = s.hist.cuts.flatMap Cut.msgs ++ (s.rotator.batch.msgs ++ s.appendCh.queue) ∧
    (∀ cut ∈ s.hist.cuts, cut.msgs ≠ []) ∧
    (emittedOf s.hist.cuts).map Batch.ordinal = List.range s.rotator.ordinal ∧
    (s.rotator.phase = .selecting →
      (s.rotator.batch.acc.sizeBytes : Int) < p.config.FlushSizeBytes ∧
      (s.rotator.batch.acc.sizeBytes : Int) = s.rotator.batch.acc.byteCost) ∧
    (∀ b ∈ emittedOf s.hist.cuts, b.reason = .size → SizeTriggered p b.msgs) ∧
    (s.rotator.phase.cutting = some .size → SizeTriggered p s.rotator.batch.msgs) ∧
    (∀ f ∈ s.hist.taken.map Prod.fst, (s.hist.acked.map Prod.fst).count f +
      (emittedOf s.hist.cuts).countP (fun b => b.flushAck = some f) +
      s.rotator.phase.owing.count f = 1) ∧
    (∀ u f v, RotationRun p (newProducer p store items) u → TakesRequest p u f v →
      RotationRun p v s → Handled f (u.rotator.batch.msgs ++ u.appendCh.queue) s) ∧
    (s.rotator.phase = .exited → s.rotator.batch.msgs = []) := by
  obtain ⟨hp, hc, ha⟩ := reachable_rotation hsize hrun
  refine ⟨hp.partition, hp.nonempty, hp.numbered, fun hphase => ⟨?_, ?_⟩, hc.emitted,
    hc.phase.triggered, ?_, ?_, ?_⟩
  · rw [s.rotator.batch.made]
    exact hc.phase.head hphase
  · rw [s.rotator.batch.made, accumulate_sizeBytes]
  · intro f hf
    have hcount := congrArg (Multiset.count f) ha.acks
    rw [Multiset.count_add, Multiset.count_add, count_attached, Multiset.coe_count,
      Multiset.coe_count, List.count_eq_one_of_mem ha.once hf] at hcount
    omega
  · intro u f v hu htakes hv
    have hpv : Partitioned v := (reachable_rotation hsize hu).1.step (.own htakes.step)
    have hall := hv.invariant
      (P := fun x => Partitioned x ∧ Handled f (u.rotator.batch.msgs ++ u.appendCh.queue) x)
      ⟨hpv, htakes.handled⟩ fun _ _ _ hx _ hs => ⟨hx.1.step hs, hx.2.step hx.1 hs⟩
    exact hall.2
  · intro hphase
    have hcoherent := hp.coherent
    rw [hphase] at hcoherent
    exact hcoherent

/-- The first batch is taken and its slot is free again; two more messages and a request
have come. -/
def sampleCame : State :=
  { sampleAsked.withAcked [] with
    appendCh := ⟨[secondMessage, thirdMessage], false⟩
    rotator := ⟨OpenBatch.empty, 1, .selecting⟩ }

/-- The rotator has received the first of them and then taken the request. -/
def sampleTakenAgain : State :=
  { sampleAsked.withAcked [] with
    flushes := [⟨none, [], .returned none, 1⟩, ⟨none, [], .awaiting, 3⟩]
    rotator := ⟨OpenBatch.empty.add secondMessage, 1, .draining 1⟩
    hist := { (sampleAsked.withAcked []).hist with taken := [(0, 0), (1, 1)] } }

/-- The rotator takes the second request with a message at hand and one in the
channel. -/
theorem sample_takes_again :
    TakesRequest sampleProducer (sampleAsked.withAcked []) 1 sampleTakenAgain := by
  have hstep := RotatorStep.takeFlush (p := sampleProducer) (s := sampleAsked.withAcked []) (f := 1)
    rfl rfl rfl
  exact ⟨hstep, rfl, rfl⟩

/-- Three messages in two batches, each cut off for a flush. -/
theorem rotator_partitions_input_sample :
    ∃ s, RotationRun sampleProducer sampleStart s ∧
      s.hist.cuts = [.emitted sampleBatch, .emitted secondBatch] ∧
      s.hist.accepted = sampleBatch.msgs ++ secondBatch.msgs ∧
      (emittedOf s.hist.cuts).map Batch.ordinal = [0, 1] ∧
      Handled 1 [secondMessage, thirdMessage] s := by
  have hrequested : RotationRun sampleProducer sampleStart sampleRequested := by
    refine Reach.refl.tail trivial (l := .call) (.env ⟨Or.inl rfl, ⟨[sampleMessage], rfl, rfl⟩, ?_,
      Nat.zero_le _, rfl, rfl, rfl⟩)
    exact fun f _ _ _ => Or.inl (Nat.zero_le f)
  have hfirst := (hrequested.tail trivial (.own sample_takes.step))
    |>.tail trivial (.own (.drainReceive rfl rfl))
    |>.tail trivial (.own (.drainDone rfl rfl))
    |>.tail trivial (.own (.acquire rfl rfl))
    |>.tail trivial (.own (.reconcile rfl))
  have hcame : RotationRun sampleProducer sampleStart sampleCame := by
    refine hfirst.tail trivial (l := .call) (.env ⟨Or.inr ⟨_, rfl, rfl⟩,
      ⟨[secondMessage, thirdMessage], rfl, rfl⟩, fun f c hf hphase => ?_, Nat.le_succ _, rfl,
      rfl, rfl⟩)
    cases f with
    | zero =>
        cases hf
        cases hphase
    | succ f => exact Or.inl (Nat.succ_le_succ (Nat.zero_le f))
  have hasked : RotationRun sampleProducer sampleStart (sampleAsked.withAcked []) :=
    hcame.tail trivial (.own (.receive rfl rfl))
  have hafter := (Reach.refl : RotationRun sampleProducer sampleTakenAgain sampleTakenAgain)
    |>.tail trivial (.own (.drainReceive rfl rfl))
    |>.tail trivial (.own (.drainDone rfl rfl))
    |>.tail trivial (.own (.acquire rfl rfl))
    |>.tail trivial (.own (.reconcile rfl))
  have hrun := (hasked.tail trivial (.own sample_takes_again.step)).trans hafter
  obtain ⟨hpartition, -, hnumbered, -, -, -, -, hhandled, -⟩ :=
    rotator_partitions_input (by decide) hrun
  exact ⟨_, hrun, rfl, hpartition, hnumbered, hhandled _ _ _ hasked sample_takes_again hafter⟩

end OpenDataBuffer
