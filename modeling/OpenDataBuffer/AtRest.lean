import OpenDataBuffer.CloseReturns
import OpenDataBuffer.Progress
import OpenDataBuffer.Termination

/-!
# Everything comes to rest

If callers make no new calls, no context fires and no other party writes the manifest,
the producer stops by itself, in every schedule and however store calls fail: no run of
its own code goes on for ever.  And where it stops, it has not got stuck: every message
is answered, and every call of `AppendContext`, `Flush` and `Close` has returned
(`every_run_comes_to_rest`).  The exception is a process that panicked.

The store reports a failed precondition only where the manifest has another version.  A
store that reports one at other times, again and again, would keep `enqueueBatch` in its
loop.
-/

namespace OpenDataBuffer

open LabelledRuns ListUpdate

variable {p : Producer} {s t : State} {l : Label}

/-! ## Flush calls that wait for their answer -/

/-- A flush call that waits for its answer was taken, and its answer is in its channel
once it was sent. -/
def AwaitsAnswer (s : State) : Prop :=
  ∀ (f : Nat) (c : FlushCall), s.flushes[f]? = some c → c.phase = .awaiting →
    f ∈ s.hist.taken.map Prod.fst ∧ (f ∈ s.hist.acked.map Prod.fst → c.result ≠ [])

/-- A flush call moves, and does not begin to wait. -/
theorem AwaitsAnswer.set (h : AwaitsAnswer s) {g : Nat} {d d' : FlushCall}
    (hd : s.flushes[g]? = some d) (hflushes : t.flushes = s.flushes.set g d')
    (hmove : d'.phase = .awaiting → d.phase = .awaiting ∧ d'.result = d.result)
    (htaken : t.hist.taken = s.hist.taken)
    (hacked : t.hist.acked = s.hist.acked) : AwaitsAnswer t := by
  intro f c hc hphase
  rw [hflushes] at hc
  rw [htaken, hacked]
  rcases getElem?_set_cases hc with ⟨rfl, rfl⟩ | ⟨_, hold⟩
  · obtain ⟨hwas, hresult⟩ := hmove hphase
    rw [hresult]
    exact h _ d hd hwas
  · exact h f c hold hphase

/-- A call that begins does not wait for an answer. -/
theorem AwaitsAnswer.append (h : AwaitsAnswer s) {d : FlushCall} (hd : d.phase ≠ .awaiting)
    (hflushes : t.flushes = s.flushes ++ [d]) (htaken : t.hist.taken = s.hist.taken)
    (hacked : t.hist.acked = s.hist.acked) : AwaitsAnswer t := by
  intro f c hc hphase
  rw [hflushes] at hc
  rw [htaken, hacked]
  rcases getElem?_concat_cases hc with ⟨_, rfl⟩ | hold
  · exact absurd hphase hd
  · exact h f c hold hphase

/-- An answer is sent. -/
theorem AwaitsAnswer.answer (h : AwaitsAnswer s) {g : Nat} {d : FlushCall}
    {v : Option BufferError} (hd : s.flushes[g]? = some d)
    (hflushes : t.flushes = s.flushes.set g (d.holding [v])) (htaken : t.hist.taken = s.hist.taken)
    (hacked : t.hist.acked = s.hist.acked ++ [(g, v)]) : AwaitsAnswer t := by
  intro f c hc hphase
  rw [hflushes] at hc
  rw [htaken, hacked]
  rcases getElem?_set_cases hc with ⟨rfl, rfl⟩ | ⟨hne, hold⟩
  · exact ⟨(h _ d hd hphase).1, fun _ => List.cons_ne_nil v []⟩
  · refine ⟨(h f c hold hphase).1, fun hin => (h f c hold hphase).2 ?_⟩
    simpa [hne] using hin

/-- Only requests that were taken are answered. -/
theorem Conserved.acked_taken {L : Ledger} (h : Conserved L) {f : Nat}
    (hf : f ∈ L.acked.map Prod.fst) : f ∈ L.taken.map Prod.fst := by
  rw [← Multiset.mem_coe, ← h.acks]
  exact Multiset.mem_add.mpr (Or.inl (Multiset.mem_coe.mpr hf))

/-- **Step rule for answers.**  A call waits from the moment its request is taken, and
whoever answers it wakes it up. -/
theorem AwaitsAnswer.step (h : AwaitsAnswer s) (hb : Books s) (hf : FlushCalls s)
    (hs : ProducerStep p s l t) : AwaitsAnswer t := by
  cases hs with
  | append _ hs => cases hs <;> exact h
  | encoder _ hs => cases hs <;> exact h
  | uploader _ hs => cases hs <;> exact h
  | committer _ hs => cases hs <;> exact h
  | others hs => cases hs <;> exact h
  | flush _ hs =>
      cases hs with
      | begin => exact h.append (by simp [State.newFlush]) rfl rfl rfl
      | ctxDone text hcall hctx => exact h.set hcall rfl (fun hphase => ⟨hphase, rfl⟩) rfl rfl
      | requestDone hcall | requestCtx hcall | receiveAck hcall | awaitDone hcall | awaitCtx hcall
      | drained hcall | park hcall | wake hcall | parkedCtx hcall | parkedShutdown hcall =>
          exact h.set hcall rfl (fun hphase => by cases hphase) rfl rfl
  | close _ hs =>
      cases hs with
      | begin => exact h.append (by simp [State.newFlush]) rfl rfl rfl
      | _ => exact h
  | rotator _ hs =>
      cases hs with
      | @takeFlush g d hphase hcall hrequest =>
          have hnot : g ∉ s.hist.acked.map Prod.fst := fun hin => by
            obtain ⟨d', hd', hne⟩ := hf.taken g (hb.conserved.acked_taken hin)
            obtain rfl : d' = d := Option.some.inj (hd'.symm.trans hcall)
            exact hne hrequest
          intro f c hc hawaiting
          rcases getElem?_set_cases hc with ⟨rfl, rfl⟩ | ⟨_, hold⟩
          · exact ⟨by simp, fun hin => absurd hin hnot⟩
          · exact ⟨by simp [h f c hold hawaiting], (h f c hold hawaiting).2⟩
      | ack hphase hcall hroom => exact h.answer hcall rfl rfl rfl
      | _ => exact h
  | resolver _ hs =>
      cases hs with
      | ack hphase hack hcall hroom => exact h.answer hcall rfl rfl rfl
      | _ => exact h

/-! ## What a reachable state keeps -/

/-- Before `Close`, nobody can send on a closed `appendCh`. -/
def Unclosed (s : State) : Prop :=
  s.close = .notCalled → s.appendCh.closed = false ∧ s.panicked ≠ some .appendCh

/-- Only `Close` closes the append channel. -/
theorem Unclosed.step (h : Unclosed s) (hs : ProducerStep p s l t) : Unclosed t := by
  cases hs with
  | append _ hs =>
      cases hs with
      | sendClosed hcall hphase hclosed =>
          intro hnever
          have hopen := (h hnever).1
          rw [hclosed] at hopen
          cases hopen
      | _ => exact h
  | flush _ hs => cases hs <;> exact h
  | close _ hs => cases hs <;> exact fun hnever => by cases hnever
  | rotator _ hs =>
      cases hs with
      | sendClosed => exact fun hnever => ⟨(h hnever).1, by simp⟩
      | _ => exact h
  | encoder _ hs =>
      cases hs with
      | completeClosed | sendClosed => exact fun hnever => ⟨(h hnever).1, by simp⟩
      | _ => exact h
  | uploader _ hs =>
      cases hs with
      | completeClosed => exact fun hnever => ⟨(h hnever).1, by simp⟩
      | _ => exact h
  | committer _ hs =>
      cases hs with
      | resolveClosed => exact fun hnever => ⟨(h hnever).1, by simp⟩
      | _ => exact h
  | resolver _ hs => cases hs <;> exact h
  | others hs => cases hs <;> exact h

/-- What is cut off is not empty. -/
theorem cuts_step (hc : Custody s) (h : ∀ cut ∈ s.hist.cuts, cut.msgs ≠ [])
    (hs : ProducerStep p s l t) : ∀ cut ∈ t.hist.cuts, cut.msgs ≠ [] := by
  have hrotator := hc.coherent.rotator
  cases hs with
  | rotator _ hs =>
      cases hs with
      | drop hphase | reconcile hphase =>
          rw [hphase] at hrotator
          intro cut hcut
          rcases List.mem_append.mp hcut with hold | hnew
          · exact h cut hold
          · obtain rfl := List.mem_singleton.mp hnew
            exact hrotator
      | _ => exact h
  | append _ hs => cases hs <;> exact h
  | flush _ hs => cases hs <;> exact h
  | close _ hs => cases hs <;> exact h
  | encoder _ hs => cases hs <;> exact h
  | uploader _ hs => cases hs <;> exact h
  | committer _ hs => cases hs <;> exact h
  | resolver _ hs => cases hs <;> exact h
  | others hs => cases hs <;> exact h

/-- No step changes the number of slots. -/
theorem maxBatches_step (hc : Custody s) (hs : ProducerStep p s l t) :
    t.budget.maxBatches = s.budget.maxBatches := by
  rcases hc.refines hs with hsame | hmoved
  · exact congrArg Ledger.maxBatches hsame
  · exact hmoved.caps.2

/-- What a producer keeps, whatever happens to the store. -/
structure Sustained (p : Producer) (s : State) : Prop where
  books : Books s
  stages : Stages p s
  order : CommitOrder s
  appends : AppendCalls s
  flushes : FlushCalls s
  waiting : Waiting s
  cap : s.budget.maxBatches = p.config.MaxInFlightBatches
  cuts : ∀ cut ∈ s.hist.cuts, cut.msgs ≠ []
  awaits : AwaitsAnswer s
  closing : s.close.Holds s
  unclosed : Unclosed s

theorem sustained_newProducer (store : ObjectStore) (items : List EnqueueItem) :
    Sustained p (newProducer p store items) where
  books := books_newProducer store items
  stages := stages_newProducer store items
  order := commitOrder_newProducer store items
  appends := appendCalls_newProducer store items
  flushes := flushCalls_newProducer store items
  waiting := waiting_newProducer store items
  cap := (reachable_caps (.refl : Run p (newProducer p store items) _)).2
  cuts cut hcut := absurd hcut List.not_mem_nil
  awaits f c hc := by simp [newProducer] at hc
  closing := trivial
  unclosed _ := ⟨rfl, by simp [newProducer]⟩

/-- **Step rule for what a producer keeps.** -/
theorem Sustained.step (h : Sustained p s) (hs : ProducerStep p s l t) : Sustained p t where
  books := h.books.step hs
  stages := h.stages.step hs
  order := h.order.step h.books.conserved.distinct hs
  appends := h.appends.step hs
  flushes := h.flushes.step h.books hs
  waiting := h.waiting.step hs
  cap := (maxBatches_step h.books.custody hs).trans h.cap
  cuts := cuts_step h.books.custody h.cuts hs
  awaits := h.awaits.step h.books h.flushes hs
  closing := closeHolds_step h.closing hs
  unclosed := h.unclosed.step hs

/-- What a producer keeps holds in every run. -/
theorem reachable_sustained {allowed : State → Label → Prop} {store : ObjectStore}
    {items : List EnqueueItem} (hrun : RunWhere p allowed (newProducer p store items) s) :
    Sustained p s :=
  hrun.invariant (sustained_newProducer store items) fun _ _ _ h _ hs => h.step hs

/-- A process that has not panicked is healthy. -/
theorem Sustained.healthy (h : Sustained p s) (hrunning : s.panicked = none) : Healthy p s where
  books := h.books
  stages := h.stages
  order := h.order
  appends := h.appends
  flushes := h.flushes
  waiting := h.waiting
  cap := h.cap
  running := hrunning

/-- A process whose `Close` was never called does not panic. -/
theorem Sustained.running (h : Sustained p s) (hnever : s.close = .notCalled) : s.panicked = none :=
  h.stages.panic.resolve_right (h.unclosed hnever).2

/-! ## At rest -/

/-- The producer's own code has nothing more to do. -/
def AtRest (p : Producer) (s : State) : Prop := ∀ l t, l.Own → ¬ ProducerStep p s l t

/-- A producer that is not at rest has a step of its own. -/
theorem exists_step_of_not_atRest (h : ¬ AtRest p s) : ∃ l t, l.Own ∧ ProducerStep p s l t := by
  simpa [AtRest] using h

/-- A producer that is open and has nothing to do: all calls have returned, and every
goroutine waits to receive, the rotator with an empty accumulator. -/
structure Idle (s : State) : Prop where
  appends : ∀ c ∈ s.appends, ∃ err, c.phase = .returned err
  flushes : ∀ c ∈ s.flushes, ∃ err, c.phase = .returned err
  close : s.close = .notCalled
  appendCh : s.appendCh = ⟨[], false⟩
  rotator : s.rotator.phase = .selecting
  empty : s.rotator.batch.acc.started = false
  encoders : ∀ e ∈ s.encoders, e = .receiving
  someEncoder : s.encoders ≠ []
  encoderPool : s.encoderPool = .waiting
  uploaders : ∀ u ∈ s.uploaders, u = .receiving
  someUploader : s.uploaders ≠ []
  uploaderPool : s.uploaderPool = .waiting
  completions : s.uploadCompletionCh = ⟨[], false⟩
  committer : s.committer.phase = .receiving
  resolver : s.resolver = .receiving
  resolverCh : s.resolverClosed = false

namespace Idle

variable (h : Idle s)

include h

/-- No call of `AppendContext` moves on. -/
theorem of_append (hs : AppendStep p s l t) : l = .call := by
  have hreturned : ∀ {i : Nat} {c : AppendCall}, s.appends[i]? = some c →
      ∃ err, c.phase = .returned err := fun hc => h.appends _ (List.mem_of_getElem? hc)
  cases hs with
  | begin | ctxDone => rfl
  | check hcall hphase | reserve hcall hphase | park hcall hphase | wake hcall hphase
  | parkedCtx hcall hphase | parkedShutdown hcall hphase | send hcall hphase
  | sendClosed hcall hphase | finish hcall hphase | sendCtx hcall hphase
  | sendDone hcall hphase | abort hcall hphase =>
      obtain ⟨err, herr⟩ := hreturned hcall
      cases herr.symm.trans hphase

/-- No call of `Flush` moves on. -/
theorem of_flush (hs : FlushStep s l t) : l = .call := by
  have hreturned : ∀ {f : Nat} {c : FlushCall}, s.flushes[f]? = some c →
      ∃ err, c.phase = .returned err := fun hc => h.flushes _ (List.mem_of_getElem? hc)
  cases hs with
  | begin | ctxDone => rfl
  | requestDone hcall hphase | requestCtx hcall hphase | receiveAck hcall hphase
  | awaitDone hcall hphase | awaitCtx hcall hphase | drained hcall hphase | park hcall hphase
  | wake hcall hphase | parkedCtx hcall hphase | parkedShutdown hcall hphase =>
      obtain ⟨err, herr⟩ := hreturned hcall
      cases herr.symm.trans hphase

/-- `Close` can only be called. -/
theorem of_close (hs : CloseStep s l t) : l = .call := by
  cases hs with
  | begin => rfl
  | flushed hphase | closeAppendCh hphase | wait hphase | expired hphase | force hphase
  | finish hphase => cases h.close.symm.trans hphase

/-- The rotator has nothing to receive, and its timer is not set. -/
theorem not_rotator : ¬ RotatorStep p s l t := by
  intro hs
  cases hs with
  | receive hphase hqueue => rw [h.appendCh] at hqueue; cases hqueue
  | handoff hphase hcap hqueue hopen hcall hsend =>
      obtain ⟨err, hreturned⟩ := h.appends _ (List.mem_of_getElem? hcall)
      cases hreturned.symm.trans hsend
  | receiveClosed hphase hqueue hclosed => rw [h.appendCh] at hclosed; cases hclosed
  | takeFlush hphase hcall hrequest =>
      obtain ⟨err, hreturned⟩ := h.flushes _ (List.mem_of_getElem? hcall)
      cases hreturned.symm.trans hrequest
  | timer hphase hstarted => cases h.empty.symm.trans hstarted
  | _ hphase => cases h.rotator.symm.trans hphase

/-- No batch comes to the encoders. -/
theorem not_encoder : ¬ EncoderStep p s l t := by
  have hreceives : ∀ {i : Nat} {e : EncoderPhase}, s.encoders[i]? = some e → e = .receiving :=
    fun he => h.encoders _ (List.mem_of_getElem? he)
  intro hs
  cases hs with
  | take henc hsend => cases h.rotator.symm.trans hsend
  | exit henc hclosed => rcases hclosed with hc | hc <;> cases h.rotator.symm.trans hc
  | encoded henc | encodeFails err henc | complete henc | completeClosed henc | sendClosed henc =>
      cases hreceives henc
  | closeEncoded hpool hall =>
      obtain ⟨e, he⟩ := List.exists_mem_of_ne_nil _ h.someEncoder
      cases (h.encoders e he).symm.trans (hall e he)
  | closePoolDone hpool => cases h.encoderPool.symm.trans hpool

/-- No encoded batch comes to the uploaders. -/
theorem not_uploader : ¬ UploaderStep p s l t := by
  have hreceives : ∀ {j : Nat} {u : UploaderPhase}, s.uploaders[j]? = some u → u = .receiving :=
    fun hu => h.uploaders _ (List.mem_of_getElem? hu)
  intro hs
  cases hs with
  | take henc => cases h.encoders _ (List.mem_of_getElem? henc)
  | exit hup hclosed => exact hclosed h.encoderPool
  | putApplies version hup | putOk hup | putFails err hup | retry hup | abandon hup | complete hup
  | completeClosed hup => cases hreceives hup
  | closeCompletions hpool hall =>
      obtain ⟨u, hu⟩ := List.exists_mem_of_ne_nil _ h.someUploader
      cases (h.uploaders u hu).symm.trans (hall u hu)
  | closePoolDone hpool => cases h.uploaderPool.symm.trans hpool

/-- No completion comes to the committer. -/
theorem not_committer : ¬ CommitterStep p s l t := by
  intro hs
  cases hs with
  | receive hphase hhalted hqueue => rw [h.completions] at hqueue; cases hqueue
  | receiveHalted hphase hhalted hqueue => rw [h.completions] at hqueue; cases hqueue
  | receiveClosed hphase hqueue hclosed => rw [h.completions] at hclosed; cases hclosed
  | gather hphase | gatherDone hphase | collect hphase | cas hphase | casApplies hphase
  | settle hphase | halt hphase | notify hphase | resolved hphase | resolveClosed hphase =>
      cases h.committer.symm.trans hphase

/-- No outcome comes to the resolver. -/
theorem not_resolver : ¬ ResolverStep p s l t := by
  intro hs
  cases hs with
  | take hphase hsend => cases h.committer.symm.trans hsend
  | exit hphase hclosed => cases h.resolverCh.symm.trans hclosed
  | closeResolver hdone => cases h.committer.symm.trans hdone
  | observe hphase | resolve hphase | resolvedAll hphase | ack hphase | release hphase =>
      cases h.resolver.symm.trans hphase

/-- A producer with nothing to do is at rest. -/
theorem atRest : AtRest p s := by
  intro l t hl hs
  cases hs with
  | append _ hs => exact hl.1 (h.of_append hs)
  | flush _ hs => exact hl.1 (h.of_flush hs)
  | close _ hs => exact hl.1 (h.of_close hs)
  | rotator _ hs => exact h.not_rotator hs
  | encoder _ hs => exact h.not_encoder hs
  | uploader _ hs => exact h.not_uploader hs
  | committer _ hs => exact h.not_committer hs
  | resolver _ hs => exact h.not_resolver hs
  | others hs => cases hs <;> exact hl.2 rfl

end Idle

/-- At rest no goroutine can move. -/
theorem AtRest.not_live (h : AtRest p s) : ¬ Live p s := by
  rintro ⟨l, t, a, hs, hactor⟩
  refine h l t ⟨?_, ?_⟩ hs <;> rintro rfl <;> cases hactor

section Rest

variable (h : Healthy p s) (hrest : AtRest p s)

include h hrest

/-- At rest every call of `AppendContext` has returned. -/
theorem rest_appends {i : Nat} {c : AppendCall} (hcall : s.appends[i]? = some c) :
    ∃ err, c.phase = .returned err := by
  have hstuck := hrest.not_live
  cases hphase : c.phase with
  | entered => exact absurd (.of_step (.append h.running (.check hcall hphase)) rfl) hstuck
  | reserving => exact absurd (reserve_live h hcall (Or.inl hphase)) hstuck
  | parked ch => exact absurd (reserve_live h hcall (Or.inr ⟨ch, hphase⟩)) hstuck
  | sending msg => exact absurd (sending_live h hcall hphase) hstuck
  | aborting msg err => exact absurd (.of_step (.append h.running (.abort hcall hphase)) rfl) hstuck
  | accepted => exact absurd (.of_step (.append h.running (.finish hcall hphase)) rfl) hstuck
  | returned err => exact ⟨err, rfl⟩

/-- At rest the rotator is at its `select`, or has left. -/
theorem rest_rotator : s.rotator.phase = .selecting ∨ s.rotator.phase = .exited := by
  by_contra hnone
  exact hrest.not_live
    (rotator_live h (fun heq => hnone (Or.inl heq)) fun heq => hnone (Or.inr heq))

/-- No batch is on its way. -/
theorem rest_flight : s.flight = 0 := by
  by_contra hne
  obtain ⟨b, hb⟩ := Multiset.exists_mem_of_ne_zero hne
  exact hrest.not_live (flight_live h hb)

/-- At rest the resolver waits for work, or has left. -/
theorem rest_resolver : s.resolver = .receiving ∨ s.resolver = .exited := by
  cases hphase : s.resolver with
  | receiving => exact Or.inl rfl
  | exited => exact Or.inr rfl
  | _ => exact absurd (resolver_advances h (by rw [hphase]; rfl)).live hrest.not_live

/-- No request is left without an answer. -/
theorem rest_owedAcks : s.ledger.owedAcks = 0 := by
  have hserving : s.rotator.phase.serving = none ∧ s.rotator.phase.refusing = none := by
    rcases rest_rotator h hrest with hphase | hphase <;> rw [hphase] <;> exact ⟨rfl, rfl⟩
  have hdue : s.resolver.ackDue = none := by
    rcases rest_resolver h hrest with hphase | hphase <;> rw [hphase] <;> rfl
  show optionally s.rotator.phase.serving + (optionally s.rotator.phase.refusing +
    (acksOf s.flight + optionally s.resolver.ackDue)) = 0
  rw [hserving.1, hserving.2, rest_flight h hrest, hdue]
  simp

/-- At rest every call of `Flush` has returned. -/
theorem rest_flushes (ha : AwaitsAnswer s) {f : Nat} {c : FlushCall}
    (hcall : s.flushes[f]? = some c) : ∃ err, c.phase = .returned err := by
  have hstuck := hrest.not_live
  cases hphase : c.phase with
  | requesting =>
      rcases rest_rotator h hrest with hrotator | hrotator
      · exact absurd (.of_step (.rotator h.running (.takeFlush hrotator hcall hphase)) rfl) hstuck
      · exact absurd (.of_step (.flush h.running (.requestDone hcall hphase hrotator)) rfl) hstuck
  | awaiting =>
      -- Nothing is owed, so the request was answered, and the answer is in the channel.
      obtain ⟨htaken, hanswered⟩ := ha f c hcall hphase
      have hacks : ↑(s.hist.acked.map Prod.fst) + s.ledger.owedAcks =
          (↑(s.hist.taken.map Prod.fst) : Multiset Nat) := h.books.conserved.acks
      rw [rest_owedAcks h hrest, add_zero] at hacks
      have hacked : f ∈ s.hist.acked.map Prod.fst := by
        rwa [← Multiset.mem_coe, hacks, Multiset.mem_coe]
      obtain ⟨v, rest, hresult⟩ := List.exists_cons_of_ne_nil (hanswered hacked)
      exact absurd (.of_step (.flush h.running (.receiveAck hcall hphase hresult)) rfl) hstuck
  | draining v => exact absurd (drain_live h hcall (Or.inl hphase)) hstuck
  | parked v ch => exact absurd (drain_live h hcall (Or.inr ⟨ch, hphase⟩)) hstuck
  | returned err => exact ⟨err, rfl⟩

/-- Nobody has a batch, so a closed `appendCh` ends the goroutines one after another. -/
theorem rest_rotator_ended (hclosed : s.appendCh.closed = true) : s.rotator.phase = .exited := by
  refine (rest_rotator h hrest).resolve_left fun hphase => hrest.not_live ?_
  cases hqueue : s.appendCh.queue with
  | nil => exact .of_step (.rotator h.running (.receiveClosed hphase hqueue hclosed)) rfl
  | cons m queue => exact .of_step (.rotator h.running (.receive hphase hqueue)) rfl

/-- At rest the encoders have left if the rotator has. -/
theorem rest_encoders_ended (hrotator : s.rotator.phase = .exited) :
    ∀ e ∈ s.encoders, e = .exited := by
  intro e he
  obtain ⟨i, hi⟩ := List.getElem?_of_mem he
  by_contra hne
  refine hrest.not_live ?_
  cases e with
  | exited => exact absurd rfl hne
  | receiving => exact .of_step (.encoder h.running (.exit hi (Or.inr hrotator))) rfl
  | encoding pb => exact (encoder_advances h hi (Multiset.mem_singleton_self _)).live
  | sendingEncoded eb => exact (encoder_advances h hi (Multiset.mem_singleton_self _)).live
  | sendingCompletion uc => exact (encoder_advances h hi (Multiset.mem_singleton_self _)).live

/-- At rest the encoder pool has ended with its encoders. -/
theorem rest_encoderPool_ended (hall : ∀ e ∈ s.encoders, e = .exited) : s.encoderPool = .done := by
  cases hpool : s.encoderPool with
  | done => rfl
  | waiting =>
      exact absurd (.of_step (.encoder h.running (.closeEncoded hpool hall)) rfl) hrest.not_live
  | closedOutput =>
      exact absurd (.of_step (.encoder h.running (.closePoolDone hpool)) rfl) hrest.not_live

/-- At rest the uploaders have left if the encoder pool has ended. -/
theorem rest_uploaders_ended (hpool : s.encoderPool = .done) : ∀ u ∈ s.uploaders, u = .exited := by
  intro u hu
  obtain ⟨j, hj⟩ := List.getElem?_of_mem hu
  by_contra hne
  refine hrest.not_live ?_
  cases u with
  | exited => exact absurd rfl hne
  | receiving => exact .of_step (.uploader h.running (.exit hj (by rw [hpool]; decide))) rfl
  | putting eb attempt applied =>
      exact (uploader_advances h hj (Multiset.mem_singleton_self _)).live
  | backoff eb attempt => exact (uploader_advances h hj (Multiset.mem_singleton_self _)).live
  | sendingCompletion uc => exact (uploader_advances h hj (Multiset.mem_singleton_self _)).live

/-- At rest the uploader pool has ended with its uploaders. -/
theorem rest_uploaderPool_ended (hall : ∀ u ∈ s.uploaders, u = .exited) :
    s.uploaderPool = .done := by
  cases hpool : s.uploaderPool with
  | done => rfl
  | waiting =>
      exact absurd (.of_step (.uploader h.running (.closeCompletions hpool hall)) rfl)
        hrest.not_live
  | closedOutput =>
      exact absurd (.of_step (.uploader h.running (.closePoolDone hpool)) rfl) hrest.not_live

/-- At rest the committer has left if the uploader pool has ended. -/
theorem rest_committer_ended (hpool : s.uploaderPool = .done) : s.committer.phase = .exited := by
  have hclosed : s.uploadCompletionCh.closed = true := by
    by_contra hopen
    have hwaiting := h.stages.completions_open (Bool.eq_false_of_not_eq_true hopen)
    rw [hpool] at hwaiting
    cases hwaiting
  have hqueue : s.uploadCompletionCh.queue = [] := by
    by_contra hne
    exact hrest.not_live (queue_advances h hne).live
  have hidle : s.committer.phase.Idle := by
    by_contra hbusy
    exact hrest.not_live (committer_advances h hbusy).live
  refine hidle.resolve_left fun hphase => hrest.not_live ?_
  exact .of_step (.committer h.running (.receiveClosed hphase hqueue hclosed)) rfl

/-- At rest the resolver has left if the committer has. -/
theorem rest_resolver_ended (hcommitter : s.committer.phase = .exited) :
    s.resolver = .exited := by
  have hclosed : s.resolverClosed = true := by
    by_contra hopen
    exact hrest.not_live (.of_step (.resolver h.running
      (.closeResolver hcommitter (Bool.eq_false_of_not_eq_true hopen))) rfl)
  exact (rest_resolver h hrest).resolve_left fun hphase =>
    hrest.not_live (.of_step (.resolver h.running (.exit hphase hclosed)) rfl)

/-- With `appendCh` closed, all goroutines have ended. -/
theorem rest_ended (hclosed : s.appendCh.closed = true) : s.Ended := by
  have hrotator := rest_rotator_ended h hrest hclosed
  have hencoding := rest_encoderPool_ended h hrest (rest_encoders_ended h hrest hrotator)
  have huploading := rest_uploaderPool_ended h hrest (rest_uploaders_ended h hrest hencoding)
  have hcommitter := rest_committer_ended h hrest huploading
  intro d
  cases d with
  | rotatorDone => exact hrotator
  | encoderPoolDone => exact hencoding
  | uploaderPoolDone => exact huploading
  | committerDone => exact hcommitter
  | resolverDone => exact rest_resolver_ended h hrest hcommitter

/-- At rest `Close` was not called, or has returned. -/
theorem rest_close (ha : AwaitsAnswer s) (hholds : s.close.Holds s) :
    s.close = .notCalled ∨ ∃ f err, s.close = .returned f err := by
  have hstuck := hrest.not_live
  cases hphase : s.close with
  | notCalled => exact Or.inl rfl
  | returned f err => exact Or.inr ⟨f, err, rfl⟩
  | flushing f =>
      rw [hphase] at hholds
      have hcall := List.getElem?_eq_getElem (show f < s.flushes.length from hholds)
      obtain ⟨err, hreturned⟩ := rest_flushes h hrest ha hcall
      exact absurd (.of_step (.close h.running (.flushed hphase hcall hreturned)) rfl) hstuck
  | closing f err =>
      exact absurd (.closeAppendCh hphase) fun hs =>
        hrest _ _ ⟨by simp, by simp⟩ (.close h.running hs)
  | forcing f err => exact absurd (.of_step (.close h.running (.force hphase)) rfl) hstuck
  | waiting f err left =>
      rw [hphase] at hholds
      have hended := rest_ended h hrest hholds.1
      cases left with
      | nil => exact absurd (.of_step (.close h.running (.finish hphase)) rfl) hstuck
      | cons d left =>
          exact absurd (.of_step (.close h.running (.wait hphase (hended d))) rfl) hstuck

end Rest

/-- Everything has been answered and has returned. -/
structure Settled (s : State) : Prop where
  appends : ∀ c ∈ s.appends, ∃ err, c.phase = .returned err
  flushes : ∀ c ∈ s.flushes, ∃ err, c.phase = .returned err
  close : s.close = .notCalled ∨ ∃ f err, s.close = .returned f err
  answered : ∀ m ∈ s.hist.accepted, ∃ e, s.watcherResult m.watcher = some e
  /-- The whole budget is free again. -/
  budget : s.budget.bytesUsed = 0 ∧ s.budget.batchesUsed = 0
  /-- No goroutine is left behind a closed `appendCh`. -/
  ended : s.appendCh.closed = true → s.Ended

/-- **Where a producer stops, everything is done.** -/
theorem Sustained.settled (h : Sustained p s) (hrunning : s.panicked = none) (hrest : AtRest p s) :
    Settled s := by
  have hhealthy := h.healthy hrunning
  have hstuck := hrest.not_live
  have hnonneg := Fits.nonneg h.books.accounted
  constructor
  · intro c hc
    obtain ⟨i, hi⟩ := List.getElem?_of_mem hc
    exact rest_appends hhealthy hrest hi
  · intro c hc
    obtain ⟨f, hf⟩ := List.getElem?_of_mem hc
    exact rest_flushes hhealthy hrest h.awaits hf
  · exact rest_close hhealthy hrest h.awaits h.closing
  · intro m hm
    exact Option.ne_none_iff_exists'.mp fun hnone => hstuck (unanswered_live hhealthy hm hnone)
  · refine ⟨le_antisymm (Int.not_lt.mp fun hpos => ?_) hnonneg.1,
      le_antisymm (Int.not_lt.mp fun hpos => ?_) hnonneg.2⟩
    · exact hstuck (bytes_live hhealthy hpos)
    · exact hstuck (batches_live hhealthy hpos)
  · exact rest_ended hhealthy hrest

/-! ## Coming to rest -/

/-- Only callers make calls. -/
theorem calls_own (hs : ProducerStep p s l t) (hl : l.Own) :
    t.appends.length + t.flushes.length = s.appends.length + s.flushes.length := by
  cases hs with
  | append _ hs =>
      cases hs with
      | begin => exact absurd rfl hl.1
      | _ => simp
  | flush _ hs =>
      cases hs with
      | begin => exact absurd rfl hl.1
      | _ => simp
  | close _ hs =>
      cases hs with
      | begin => exact absurd rfl hl.1
      | _ => rfl
  | rotator _ hs => cases hs <;> simp
  | resolver _ hs => cases hs <;> simp
  | encoder _ hs => cases hs <;> rfl
  | uploader _ hs => cases hs <;> rfl
  | committer _ hs => cases hs <;> rfl
  | others hs => cases hs <;> rfl

/-- Only a caller begins `Close`. -/
theorem close_own (hs : ProducerStep p s l t) (hl : l.Own) (h : s.close = .notCalled) :
    t.close = .notCalled := by
  cases hs with
  | append _ hs => cases hs <;> exact h
  | flush _ hs => cases hs <;> exact h
  | close _ hs =>
      cases hs with
      | begin => exact absurd rfl hl.1
      | flushed hphase | closeAppendCh hphase | wait hphase | expired hphase | force hphase
      | finish hphase =>
          rw [h] at hphase
          cases hphase
  | rotator _ hs => cases hs <;> exact h
  | encoder _ hs => cases hs <;> exact h
  | uploader _ hs => cases hs <;> exact h
  | committer _ hs => cases hs <;> exact h
  | resolver _ hs => cases hs <;> exact h
  | others hs => cases hs <;> exact h

/-- A producer whose `Close` was not called does not panic by its own steps. -/
theorem not_panicked_of_own (h : Sustained p s) (hnever : s.close = .notCalled)
    (hrun : RunWhere p (fun _ l => l.Own) s t) : t.panicked = none := by
  have hkeep : ∀ x l y, Sustained p x ∧ x.close = .notCalled → l.Own → ProducerStep p x l y →
      Sustained p y ∧ y.close = .notCalled := fun x l y hx hl hs =>
    ⟨hx.1.step hs, close_own hs hl hx.2⟩
  obtain ⟨hsustained, hstill⟩ := hrun.invariant ⟨h, hnever⟩ hkeep
  exact hsustained.running hstill

/-- **Every run comes to rest, with everything done.**  From every reachable state,
as long as no new call is made, no context fires and no other party writes to the
store, which reports a failed precondition only where the version does not match: the
producer's own code takes no infinite sequence of steps, whatever the scheduler does
and however store calls fail; some run of it ends; before `Close` is called there is
no panic; and wherever a run ends without a panic, all calls have returned, every
accepted message has its answer, the budget is free, and behind a closed `appendCh`
no goroutine is left. -/
theorem every_run_comes_to_rest {store : ObjectStore} {items : List EnqueueItem}
    (hrun : Run p (newProducer p store items) s) :
    (∀ f : Nat → State, f 0 = s → ¬ ∀ k, ∃ l : Label, l.Own ∧ ProducerStep p (f k) l (f (k + 1))) ∧
    (∃ t, RunWhere p (fun _ l => l.Own) s t ∧ AtRest p t) ∧
    (s.close = .notCalled → ∀ t, RunWhere p (fun _ l => l.Own) s t → t.panicked = none) ∧
    ∀ t, RunWhere p (fun _ l => l.Own) s t → AtRest p t → t.panicked = none → Settled t := by
  let calls := s.appends.length + s.flushes.length
  let P : State → Prop := fun x => Sustained p x ∧ x.appends.length + x.flushes.length = calls
  have hstart : P s := ⟨reachable_sustained hrun, rfl⟩
  have hkeep : ∀ x l y, P x → l.Own → ProducerStep p x l y → P y := fun x l y hx hl hs =>
    ⟨hx.1.step hs, (calls_own hs hl).trans hx.2⟩
  have hless : ∀ x l y, P x → l.Own → ProducerStep p x l y →
      y.work p calls 0 < x.work p calls 0 := fun x l y hx hl hs =>
    work_decreases hx.1.waiting.budget.channels (hx.1.step hs).cuts (Nat.le_of_eq hx.2) hs hl
  refine ⟨?_, ?_, fun hnever t ht => not_panicked_of_own hstart.1 hnever ht, ?_⟩
  · rintro f rfl
    exact not_endless (State.work p calls 0) hkeep hless f hstart
  · have hstep : ∀ x, P x → ¬ AtRest p x → ∃ l y, l.Own ∧ ProducerStep p x l y ∧ P y ∧
        y.work p calls 0 < x.work p calls 0 := by
      intro x hx hbusy
      obtain ⟨l, y, hl, hs⟩ := exists_step_of_not_atRest hbusy
      exact ⟨l, y, hl, hs, hkeep x l y hx hl hs, hless x l y hx hl hs⟩
    obtain ⟨t, ht, _, hrest⟩ := Reach.exists_final (State.work p calls 0) hstep hstart
    exact ⟨t, ht, hrest⟩
  · intro t ht hrest hrunning
    have hall : Sustained p t := reachable_sustained (hrun.trans (ht.mono fun _ _ _ => trivial))
    exact hall.settled hrunning hrest

/-- The committer is in its conditional write, and a flush waits. -/
theorem every_run_comes_to_rest_sample :
    sampleCommitting.Awaited ∧ ∃ t, RunWhere sampleProducer (fun _ l => l.Own) sampleCommitting t ∧
      AtRest sampleProducer t ∧ Settled t := by
  obtain ⟨_, ⟨t, ht, hrest⟩, hrunning, hsettled⟩ := every_run_comes_to_rest sample_committing.run
  exact ⟨.answer sampleMessage List.mem_cons_self rfl, t, ht, hrest,
    hsettled t ht hrest (hrunning rfl t ht)⟩

end OpenDataBuffer
