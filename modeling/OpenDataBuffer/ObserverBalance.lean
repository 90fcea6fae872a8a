import OpenDataBuffer.ExactlyOnce
import OpenDataBuffer.Halting
import OpenDataBuffer.RotationRuns

/-!
# What the observer adds up to

`AppendContext` tells the observer of each accepted input, the resolver tells it of
each batch with the number of its inputs, and the exporter keeps the difference as
its gauge `pending_inputs`.  When everything has ended, the difference is the number
of inputs in batches that the rotator dropped: nobody reports these.  So the two sides
balance exactly if the rotator dropped nothing, which it does only once `Close` has
given up waiting.
-/

namespace OpenDataBuffer

open LabelledRuns ListUpdate

variable {p : Producer} {s t : State} {l : Label}

/-! ## The observer's side -/

def ObserverEvent.accepted : ObserverEvent → Nat
  | .OnAccepted => 1
  | _ => 0

def ObserverEvent.inputs : ObserverEvent → Nat
  | .OnFlush _ stats _ => stats.Inputs
  | _ => 0

/-- The number of `OnAccepted` calls. -/
def acceptedCalls (events : List ObserverEvent) : Nat := (events.map ObserverEvent.accepted).sum

/-- The sum of `stats.Inputs` over the `OnFlush` calls. -/
def flushedInputs (events : List ObserverEvent) : Nat := (events.map ObserverEvent.inputs).sum

/-- The exporter's counter `pending_inputs` behind one call of its observer. -/
def exporterTelemetry (pendingInputs : Int) : ObserverEvent → Int
  | .OnAccepted => pendingInputs + 1
  | .OnFlush _ stats _ => pendingInputs - stats.Inputs
  | _ => pendingInputs

/-- The counter behind all calls. -/
def pendingInputs (events : List ObserverEvent) : Int := events.foldl exporterTelemetry 0

@[simp] theorem acceptedCalls_append (xs ys : List ObserverEvent) :
    acceptedCalls (xs ++ ys) = acceptedCalls xs + acceptedCalls ys := by
  simp [acceptedCalls]

@[simp] theorem flushedInputs_append (xs ys : List ObserverEvent) :
    flushedInputs (xs ++ ys) = flushedInputs xs + flushedInputs ys := by
  simp [flushedInputs]

/-- The exporter's counter is the difference of the two sums. -/
theorem pendingInputs_eq (events : List ObserverEvent) :
    pendingInputs events = acceptedCalls events - flushedInputs events := by
  induction events using List.reverseRecOn with
  | nil => rfl
  | append_singleton events e ih =>
      rw [pendingInputs, List.foldl_append, acceptedCalls_append, flushedInputs_append]
      show exporterTelemetry (pendingInputs events) e = _
      rw [ih]
      cases e <;> simp [exporterTelemetry, acceptedCalls, flushedInputs, ObserverEvent.accepted,
        ObserverEvent.inputs] <;> omega

/-! ## What is not reported yet -/

/-- An accepted input that the observer has not heard of. -/
def AppendPhase.unreported : AppendPhase → Nat
  | .accepted => 1
  | _ => 0

def unreportedCalls (appends : List AppendCall) : Nat :=
  (appends.map fun c => c.phase.unreported).sum

/-- The inputs of a batch that the observer has not heard of. -/
def ResolverPhase.unreported : ResolverPhase → Nat
  | .observing ri => ri.stats.Inputs
  | _ => 0

/-- The inputs of the batches handed to the resolver. -/
def handedInputs (handed : List PendingResolution) : Nat :=
  (handed.map fun pr => pr.batch.stats.Inputs).sum

/-- The observer has heard of everything but what is about to be reported. -/
structure Reported (s : State) : Prop where
  accepted : acceptedCalls s.hist.events + unreportedCalls s.appends = s.hist.accepted.length
  flushed : flushedInputs s.hist.events + s.resolver.unreported = handedInputs s.hist.handed

/-- What `Reported` is about. -/
def State.reports (s : State) : List ObserverEvent × List AppendMessage × List PendingResolution ×
    Nat × Nat :=
  (s.hist.events, s.hist.accepted, s.hist.handed, unreportedCalls s.appends, s.resolver.unreported)

/-- A step that reports nothing and accepts nothing. -/
theorem Reported.of_same (h : Reported s) (hsame : t.reports = s.reports) : Reported t := by
  simp only [State.reports, Prod.mk.injEq] at hsame
  obtain ⟨hevents, haccepted, hhanded, hcalls, hresolver⟩ := hsame
  constructor
  · rw [hevents, hcalls, haccepted]
    exact h.accepted
  · rw [hevents, hresolver, hhanded]
    exact h.flushed

/-- One call moves: what it owes the observer is exchanged. -/
theorem unreportedCalls_set {appends : List AppendCall} {i : Nat} {c d : AppendCall}
    (hcall : appends[i]? = some c) :
    unreportedCalls (appends.set i d) + c.phase.unreported
      = unreportedCalls appends + d.phase.unreported := by
  obtain ⟨rest, hsum, hset⟩ := sum_map_set (fun c : AppendCall => c.phase.unreported) hcall
  rw [unreportedCalls, unreportedCalls, hsum, hset]
  omega

/-- The entry check accepts nothing. -/
theorem unreported_appendEntry (halted : Bool) (entries : List Bytes) :
    (appendEntry halted entries).unreported = 0 := by
  unfold appendEntry
  split
  · rfl
  · split <;> rfl

/-- A call that moves on without being accepted or reported. -/
theorem Reported.of_call (h : Reported s) {i : Nat} {c c' : AppendCall} {b : ProducerBudget}
    (hcall : s.appends[i]? = some c) (hphase : c'.phase.unreported = c.phase.unreported) :
    Reported { s with appends := s.appends.set i c', budget := b } := by
  have hset := unreportedCalls_set (d := c') hcall
  have hcalls : unreportedCalls (s.appends.set i c') = unreportedCalls s.appends := by omega
  exact h.of_same (by rw [State.reports, State.reports, hcalls])

/-- A message is accepted. -/
theorem Reported.of_accept (h : Reported s) {i : Nat} {c : AppendCall} {msg : AppendMessage}
    (hcall : s.appends[i]? = some c) (hsend : c.phase = .sending msg)
    (happends : t.appends = s.appends.set i (c.at .accepted))
    (hevents : t.hist.events = s.hist.events)
    (haccepted : t.hist.accepted = s.hist.accepted ++ [msg]) (hresolver : t.resolver = s.resolver)
    (hhanded : t.hist.handed = s.hist.handed) : Reported t := by
  constructor
  · have hset := unreportedCalls_set (d := c.at .accepted) hcall
    have hbefore := h.accepted
    rw [hsend] at hset
    simp only [AppendPhase.unreported, AppendCall.at] at hset
    rw [hevents, happends, haccepted, List.length_append, ← hbefore]
    simp only [List.length_singleton, AppendCall.at]
    omega
  · rw [hevents, hresolver, hhanded]
    exact h.flushed

/-- A call of `AppendContext` reports what it has got accepted. -/
theorem Reported.appendStep (h : Reported s) (hobs : p.config.Observer = true)
    (hs : AppendStep p s l t) : Reported t := by
  cases hs with
  | begin entries metadata =>
      exact h.of_same (by simp [State.reports, unreportedCalls, AppendPhase.unreported])
  | ctxDone text hcall hctx => exact h.of_call hcall rfl
  | check hcall hphase =>
      refine h.of_call hcall ?_
      rw [hphase]
      exact unreported_appendEntry _ _
  | send hcall hphase hopen hroom => exact h.of_accept hcall hphase rfl rfl rfl rfl rfl
  | sendClosed hcall hphase hclosed => exact h.of_same rfl
  | @finish i c hcall hphase =>
      have hset := unreportedCalls_set (d := c.at (.returned none)) hcall
      have hbefore := h.accepted
      rw [hphase] at hset
      simp only [AppendPhase.unreported, AppendCall.at] at hset
      refine ⟨?_, ?_⟩
      · simp only [Producer.observes, hobs, if_true, acceptedCalls_append, AppendCall.at]
        simp only [acceptedCalls, ObserverEvent.accepted, List.map_cons, List.map_nil,
          List.sum_cons, List.sum_nil] at hbefore ⊢
        omega
      · have hflushed := h.flushed
        simpa [Producer.observes, hobs, flushedInputs, ObserverEvent.inputs] using hflushed
  | reserve hcall hphase hgrant hmsg =>
      exact h.of_call hcall (by rw [hphase]; rfl)
  | park hcall hphase hwait => exact h.of_call hcall (by rw [hphase]; rfl)
  | wake hcall hphase hclosed => exact h.of_call hcall (by rw [hphase]; rfl)
  | parkedCtx hcall hphase hctx => exact h.of_call hcall (by rw [hphase]; rfl)
  | parkedShutdown hcall hphase hshutdown =>
      exact h.of_call hcall (by rw [hphase]; rfl)
  | sendCtx hcall hphase hctx => exact h.of_call hcall (by rw [hphase]; rfl)
  | sendDone hcall hphase hdone => exact h.of_call hcall (by rw [hphase]; rfl)
  | abort hcall hphase => exact h.of_call hcall (by rw [hphase]; rfl)

/-- The resolver reports the batch it works on. -/
theorem Reported.resolverStep (h : Reported s) (hobs : p.config.Observer = true)
    (hs : ResolverStep p s l t) : Reported t := by
  have hflushed := h.flushed
  cases hs with
  | take hphase hsend hopen =>
      refine ⟨h.accepted, ?_⟩
      rw [hphase] at hflushed
      simp only [handedInputs, List.map_append, List.sum_append, List.map_cons, List.map_nil,
        List.sum_cons, List.sum_nil, ResolverPhase.unreported] at hflushed ⊢
      rw [← hflushed]
      rfl
  | observe hphase =>
      have hbefore := h.accepted
      rw [hphase] at hflushed
      refine ⟨?_, ?_⟩
      · simpa [Producer.observes, hobs, acceptedCalls, ObserverEvent.accepted] using hbefore
      · rw [← hflushed]
        simp [Producer.observes, hobs, flushedInputs, ObserverEvent.inputs,
          ResolverPhase.unreported]
  | resolve hphase => exact h.of_same (by simp [State.reports, hphase, ResolverPhase.unreported])
  | @resolvedAll ri hphase =>
      have hnone : (afterWatchers ri).unreported = 0 := by
        unfold afterWatchers
        split <;> rfl
      refine h.of_same ?_
      simp only [State.reports, hphase, hnone]
      rfl
  | ack hphase hack hcall hroom =>
      exact h.of_same (by simp [State.reports, hphase, ResolverPhase.unreported])
  | release hphase => exact h.of_same (by simp [State.reports, hphase, ResolverPhase.unreported])
  | exit hphase hclosed =>
      exact h.of_same (by simp [State.reports, hphase, ResolverPhase.unreported])
  | closeResolver hdone hopen => exact h.of_same rfl

/-- **Step rule for the reports.** -/
theorem Reported.step (h : Reported s) (hobs : p.config.Observer = true)
    (hs : ProducerStep p s l t) : Reported t := by
  cases hs with
  | append _ hs => exact h.appendStep hobs hs
  | flush _ hs => cases hs <;> exact h.of_same rfl
  | close _ hs => cases hs <;> exact h.of_same rfl
  | rotator _ hs =>
      cases hs with
      | handoff hphase hcap hqueue hopen hcall hsend =>
          exact h.of_accept hcall hsend rfl rfl rfl rfl rfl
      | drainHandoff hphase hcap hqueue hopen hcall hsend =>
          exact h.of_accept hcall hsend rfl rfl rfl rfl rfl
      | _ => exact h.of_same rfl
  | encoder _ hs => cases hs <;> exact h.of_same rfl
  | uploader _ hs => cases hs <;> exact h.of_same rfl
  | committer _ hs =>
      cases hs with
      | notify hphase =>
          obtain ⟨haccepted, hflushed⟩ := h
          constructor
          · simpa [Producer.observes, hobs, acceptedCalls, ObserverEvent.accepted] using haccepted
          · simpa [Producer.observes, hobs, flushedInputs, ObserverEvent.inputs] using hflushed
      | _ => exact h.of_same rfl
  | resolver _ hs => exact h.resolverStep hobs hs
  | others hs => cases hs <;> exact h.of_same rfl

/-- What the observer has heard, in every run. -/
theorem reachable_reported {allowed : State → Label → Prop} {store : ObjectStore}
    {items : List EnqueueItem} (hobs : p.config.Observer = true)
    (hrun : RunWhere p allowed (newProducer p store items) s) : Reported s :=
  hrun.invariant ⟨rfl, rfl⟩ fun _ _ _ h _ hs => h.step hobs hs

/-! ## The balance -/

/-- The inputs that the rotator has dropped. -/
def droppedInputs (cuts : List Cut) : Nat := ((droppedOf cuts).map List.length).sum

/-- The statistics of a batch count its messages. -/
theorem Batch.inputs_eq (b : Batch) : b.stats.Inputs = b.msgs.length := by
  rw [b.stats_eq]
  exact accumulate_metadata_length b.msgs

/-- Every input that was cut off is in an emitted or in a dropped batch. -/
theorem cut_inputs (cuts : List Cut) : (cuts.flatMap Cut.msgs).length
    = ((emittedOf cuts).map fun b => b.stats.Inputs).sum + droppedInputs cuts := by
  induction cuts with
  | nil => rfl
  | cons cut rest ih =>
      cases cut with
      | emitted b =>
          simp only [List.flatMap_cons, List.length_append, ih, droppedInputs, emittedOf, droppedOf,
            List.filterMap_cons, Cut.batch?, Cut.drop?, Cut.msgs, List.map_cons, List.sum_cons,
            b.inputs_eq]
          omega
      | dropped msgs =>
          simp only [List.flatMap_cons, List.length_append, ih, droppedInputs, emittedOf, droppedOf,
            List.filterMap_cons, Cut.batch?, Cut.drop?, Cut.msgs, List.map_cons, List.sum_cons]
          omega

/-- Once all batches have terminated, the inputs handed over are those emitted. -/
theorem handedInputs_eq (h : AllTerminated s) :
    handedInputs s.hist.handed = ((emittedOf s.hist.cuts).map fun b => b.stats.Inputs).sum := by
  have hsum := congrArg (fun batches => (batches.map fun b : Batch => b.stats.Inputs).sum) h.items
  simpa [handedBatches, handedInputs, Function.comp_def] using hsum

/-- No inputs are dropped exactly if no batch is. -/
theorem droppedInputs_eq_zero {cuts : List Cut} (h : ∀ cut ∈ cuts, cut.msgs ≠ []) :
    droppedInputs cuts = 0 ↔ droppedOf cuts = [] := by
  constructor
  · intro hzero
    refine List.eq_nil_iff_forall_not_mem.mpr fun msgs hmsgs => ?_
    have hle := List.le_sum_of_mem (List.mem_map_of_mem (f := List.length) hmsgs)
    obtain ⟨cut, hcut, hdrop⟩ := List.mem_filterMap.mp hmsgs
    cases cut with
    | emitted b => cases hdrop
    | dropped msgs' =>
        cases hdrop
        rw [droppedInputs] at hzero
        exact h _ hcut (List.length_eq_zero_iff.mp (show msgs.length = 0 by omega))
  · intro hnone
    rw [droppedInputs, hnone]
    rfl

/-- **The observer's balance.**  When everything has ended and every `AppendContext`
call has returned, the inputs accepted are those of the batches reported and of the
batches dropped by the rotator.  So the two sides of the observer balance, and the
exporter's counter returns to zero, if and only if nothing was dropped; and nothing is
dropped unless `Close` gave up waiting. -/
theorem observer_balance {store : ObjectStore} {items : List EnqueueItem}
    (hobs : p.config.Observer = true) (hrun : Run p (newProducer p store items) s)
    (hexited : ∀ d, s.doneClosed d) (hcalls : ∀ c ∈ s.appends, ∃ err, c.phase = .returned err) :
    acceptedCalls s.hist.events = flushedInputs s.hist.events + droppedInputs s.hist.cuts ∧
    (acceptedCalls s.hist.events = flushedInputs s.hist.events ↔ droppedOf s.hist.cuts = []) ∧
    (pendingInputs s.hist.events = 0 ↔ droppedOf s.hist.cuts = []) ∧
    (s.shutdown = false → droppedOf s.hist.cuts = []) := by
  have hall := reachable_allTerminated hrun (hexited .resolverDone)
  obtain ⟨haccepted, hflushed⟩ := reachable_reported hobs hrun
  have hreturned : unreportedCalls s.appends = 0 := by
    refine sum_map_eq_zero fun c hc => ?_
    obtain ⟨err, hphase⟩ := hcalls c hc
    rw [hphase]
    rfl
  have hresolver : s.resolver = .exited := hexited .resolverDone
  have hbalance : acceptedCalls s.hist.events
      = flushedInputs s.hist.events + droppedInputs s.hist.cuts := by
    rw [hreturned, Nat.add_zero, hall.cut, cut_inputs] at haccepted
    rw [hresolver, handedInputs_eq hall] at hflushed
    rw [haccepted, ← hflushed]
    rfl
  have hzero := droppedInputs_eq_zero (reachable_nonempty hrun)
  refine ⟨hbalance, ?_, ?_, ?_⟩
  · rw [← hzero]
    omega
  · rw [← hzero, pendingInputs_eq]
    omega
  · intro hshutdown
    refine List.eq_nil_iff_forall_not_mem.mpr fun msgs hmsgs => ?_
    have hforced := (reachable_halting hrun).drops.dropped msgs hmsgs
    rw [hshutdown] at hforced
    cases hforced

/-- The one input of the sample run is accepted and flushed. -/
theorem observer_balance_sample :
    acceptedCalls sampleClosed.hist.events = 1 ∧ flushedInputs sampleClosed.hist.events = 1 ∧
      pendingInputs sampleClosed.hist.events = 0 := by
  obtain ⟨-, -, hpending, hnone⟩ := observer_balance (p := sampleProducer) rfl sample_run.run
    (fun d => by cases d <;> rfl) (fun c hc => ⟨none, by rw [List.mem_singleton.mp hc]⟩)
  exact ⟨rfl, rfl, hpending.mpr (hnone rfl)⟩

/-- The batch of the first message. -/
def firstBatch : OpenBatch := OpenBatch.empty.add sampleMessage

/-- The first batch has the only slot, the second message waits for one, and
`Close` has given up waiting. -/
def sampleStranded : State :=
  { sampleStart with
    appends := [⟨[[7]], [], none, .returned none⟩, ⟨[[7]], [], none, .returned none⟩]
    flushes := [⟨some "deadline exceeded", [], .returned (some (.context "deadline exceeded")), 2⟩]
    close := .returned 0 (some (.context "deadline exceeded"))
    appendCh := ⟨[], true⟩
    rotator := ⟨OpenBatch.empty.add secondMessage, 1, .parked .shutdown none 0⟩
    encoders := [.encoding (firstBatch.pending 0 .time none)]
    budget :=
      { sampleStart.budget with bytesUsed := 13, batchesUsed := 1, waiter := some 0, made := 1 }
    shutdown := true
    hist := { sampleStart.hist with
      accepted := [sampleMessage, secondMessage]
      cuts := [.emitted (firstBatch.batch 0 .time none)]
      events := [.OnAccepted, .OnAccepted] } }

/-- `Close` gives up while the rotator waits for a slot. -/
theorem sample_strands : Run sampleProducer sampleStart sampleStranded := by
  have hrun := (Reach.refl : Run sampleProducer sampleStart sampleStart)
    |>.tail trivial (.append rfl (.begin [[7]] []))
    |>.tail trivial (.append rfl (.check (i := 0) rfl rfl))
    |>.tail trivial (.append rfl (.reserve (i := 0) rfl rfl rfl sample_isFor))
    |>.tail trivial (.append rfl (.send (i := 0) rfl rfl rfl (by decide)))
    |>.tail trivial (.append rfl (.finish (i := 0) rfl rfl))
    |>.tail trivial (.rotator rfl (.receive rfl rfl))
    |>.tail trivial (.rotator rfl (.timer rfl rfl))
    |>.tail trivial (.rotator rfl (.acquire rfl rfl))
    |>.tail trivial (.rotator rfl (.reconcile rfl))
    |>.tail trivial (.encoder rfl (.take (i := 0) rfl rfl))
    |>.tail trivial (.append rfl (.begin [[7]] []))
    |>.tail trivial (.append rfl (.check (i := 1) rfl rfl))
    |>.tail trivial (.append rfl (.reserve (i := 1) rfl rfl rfl second_isFor))
    |>.tail trivial (.append rfl (.send (i := 1) rfl rfl rfl (by decide)))
    |>.tail trivial (.append rfl (.finish (i := 1) rfl rfl))
    |>.tail trivial (.rotator rfl (.receive rfl rfl))
    |>.tail trivial (.close rfl (.begin rfl))
    |>.tail trivial (.flush rfl (.ctxDone (f := 0) "deadline exceeded" rfl rfl))
    |>.tail trivial (.flush rfl (.requestCtx (f := 0) rfl rfl rfl))
    |>.tail trivial (.close rfl (.flushed rfl rfl rfl))
    |>.tail trivial (.close rfl (.closeAppendCh rfl))
    |>.tail trivial (.rotator rfl (.receiveClosed rfl rfl rfl))
    |>.tail trivial (.rotator rfl (.park rfl rfl))
    |>.tail trivial (.close rfl (.expired rfl rfl rfl))
    |>.tail trivial (.close rfl (.force rfl))
  exact hrun

/-- Without the condition: the second message is accepted and reported as accepted,
its batch is dropped, and no `OnFlush` call takes it off again. -/
theorem observer_unbalanced :
    ∃ s, Run sampleProducer sampleStart s ∧ (∀ d, s.doneClosed d) ∧
      (∀ c ∈ s.appends, c.phase = .returned none) ∧ acceptedCalls s.hist.events = 2 ∧
      flushedInputs s.hist.events = 1 ∧ pendingInputs s.hist.events = 1 := by
  have hrun := sample_strands
    |>.tail trivial (.rotator rfl (.refused rfl rfl))
    |>.tail trivial (.rotator rfl (.drop rfl))
    |>.tail trivial (.rotator rfl (.dropResolve rfl))
    |>.tail trivial (.rotator rfl (.dropDone rfl))
    |>.tail trivial (.rotator rfl (.closePending rfl))
    |>.tail trivial (.rotator rfl (.closeDone rfl))
    |>.tail trivial (.encoder rfl (.encoded (i := 0) rfl rfl))
    |>.tail trivial (.uploader rfl (.take (i := 0) (j := 0) rfl rfl rfl))
    |>.tail trivial (.uploader rfl (.putFails (j := 0) (.other "timeout") rfl))
    |>.tail trivial (.uploader rfl (.complete (j := 0) rfl rfl (by decide)))
    |>.tail trivial (.encoder rfl (.exit (i := 0) rfl (Or.inr rfl)))
    |>.tail trivial (.encoder rfl (.closeEncoded rfl (fun _ h => List.mem_singleton.mp h)))
    |>.tail trivial (.encoder rfl (.closePoolDone rfl))
    |>.tail trivial (.uploader rfl (.exit (j := 0) rfl (by decide)))
    |>.tail trivial (.uploader rfl (.closeCompletions rfl (fun _ h => List.mem_singleton.mp h)))
    |>.tail trivial (.uploader rfl (.closePoolDone rfl))
    |>.tail trivial (.committer rfl (.receive rfl rfl rfl))
    |>.tail trivial (.committer rfl (.gatherDone rfl rfl))
    |>.tail trivial (.committer rfl (.collect rfl))
    |>.tail trivial (.resolver rfl (.take rfl rfl rfl))
    |>.tail trivial (.resolver rfl (.observe rfl))
    |>.tail trivial (.resolver rfl (.resolve rfl))
    |>.tail trivial (.resolver rfl (.resolvedAll rfl))
    |>.tail trivial (.resolver rfl (.release rfl))
    |>.tail trivial (.committer rfl (.resolved rfl))
    |>.tail trivial (.committer rfl (.collect rfl))
    |>.tail trivial (.resolver rfl (.closeResolver rfl rfl))
    |>.tail trivial (.resolver rfl (.exit rfl rfl))
  refine ⟨_, hrun, fun d => by cases d <;> rfl, ?_, rfl, rfl, rfl⟩
  intro c hc
  rcases List.mem_cons.mp hc with rfl | hc
  · rfl
  · rw [List.mem_singleton.mp hc]

end OpenDataBuffer
