import OpenDataBuffer.CommitSteps
import OpenDataBuffer.LabelledRuns

/-!
# Runs of a producer

`ProducerStep` is the union of the step relations of the callers and the goroutines,
for as long as the process has not panicked, and of the other parties on the store.

At the end stands a run that later modules come back to: appends, flushes and a close
with nothing in their way.
-/

namespace OpenDataBuffer

open LabelledRuns VersionedStore

variable {s t : State}

/-- One step of a running producer, or one of the other parties, who do not stop when
the producer's process does. -/
inductive ProducerStep (p : Producer) (s : State) (l : Label) (t : State) : Prop
  | append (hrun : s.panicked = none) (h : AppendStep p s l t)
  | flush (hrun : s.panicked = none) (h : FlushStep s l t)
  | close (hrun : s.panicked = none) (h : CloseStep s l t)
  | rotator (hrun : s.panicked = none) (h : RotatorStep p s l t)
  | encoder (hrun : s.panicked = none) (h : EncoderStep p s l t)
  | uploader (hrun : s.panicked = none) (h : UploaderStep p s l t)
  | committer (hrun : s.panicked = none) (h : CommitterStep p s l t)
  | resolver (hrun : s.panicked = none) (h : ResolverStep p s l t)
  | others (h : OthersStep p s l t)

/-- The runs of a producer whose steps all meet a condition. -/
abbrev RunWhere (p : Producer) (allowed : State → Label → Prop) (s t : State) : Prop :=
  Reach (ProducerStep p) allowed s t

/-- All runs. -/
abbrev Run (p : Producer) (s t : State) : Prop := RunWhere p (fun _ _ => True) s t

/-! ## A run -/

def sampleConfig : ProducerConfig where
  DataPathPrefix := [100]
  ManifestPath := [109]
  FlushSizeBytes := 1000
  MaxBufferedInputs := 1
  BatchCompression := CompressionNone
  Observer := true
  EncodeConcurrency := 1
  UploadConcurrency := 1
  MaxInFlightBatches := 1
  MaxInFlightBytes := 100
  ManifestAppendBatchSize := 1
  UploadMaxAttempts := 1
  ManifestMaxAttempts := 2

def sampleProducer : Producer := Producer.new sampleConfig [114] sampleZstd

/-- No data object has the path of the manifest. -/
theorem sample_location_ne (k : Nat) :
    sampleProducer.location k ≠ sampleProducer.config.ManifestPath := by
  intro h
  have hhead : some (100 : UInt8) = some 109 := congrArg List.head? h
  exact absurd (Option.some.inj hhead) (by decide)

def sampleMessage : AppendMessage where
  entries := [[7]]
  metadata := []
  ingestionTimeMs := 0
  watcher := 0
  byteCost := 1
  nonempty := by decide
  byteCost_eq := by decide

/-- The batch that the flush makes of the message. -/
def sampleBatch : Batch := (OpenBatch.empty.add sampleMessage).batch 0 .manual (some 0)

/-- Its object: one record and the footer. -/
def sampleObject : GetResult where
  data := recordBlock [[7]] ++ batchFooter CompressionNone 1
  version := ⟨"a"⟩

def sampleCompletion : UploadCompletion where
  eb :=
    { toBatch := sampleBatch
      payload := []
      location := sampleProducer.location 0
      size := sampleObject.data.length }
  putError := none
  encodeFailed := false

/-- The manifest with the batch as its only entry. -/
def sampleCommit : GetResult where
  data := entryFrame sampleCompletion.item.entry ++ manifestFooter 1 1 0
  version := ⟨"1"⟩

def sampleStart : State := newProducer sampleProducer emptyStore []

/-- `AppendContext` has returned its handle. -/
def sampleAppended : State :=
  { sampleStart with
    appends := [⟨[[7]], [], none, .returned none⟩]
    appendCh := ⟨[sampleMessage], false⟩
    budget := { sampleStart.budget with bytesUsed := 1 }
    hist := { sampleStart.hist with accepted := [sampleMessage], events := [.OnAccepted] } }

/-- `Flush` has begun. -/
def sampleRequested : State := { sampleAppended with flushes := [⟨none, [], .requesting, 1⟩] }

/-- The rotator has taken the request. -/
def sampleTaken : State :=
  { sampleRequested with
    flushes := [⟨none, [], .awaiting, 1⟩]
    rotator := ⟨OpenBatch.empty, 0, .draining 0⟩
    hist := { sampleRequested.hist with taken := [(0, 0)] } }

/-- The object is stored and `casWithRetry` is about to read the manifest. -/
def sampleCommitting : State :=
  { sampleTaken with
    appendCh := ⟨[], false⟩
    rotator := ⟨OpenBatch.empty, 1, .selecting⟩
    committer := ⟨1, [], false, false, .cas [sampleCompletion] [] ⟨0, 0, .enqueueing (.reading 0)⟩⟩
    budget := { sampleStart.budget with bytesUsed := 12, batchesUsed := 1 }
    store := emptyStore.write (sampleProducer.location 0) sampleObject
    hist := { sampleTaken.hist with cuts := [.emitted sampleBatch] } }

/-- The batch is committed and resolved, and `Flush` has returned nil. -/
def sampleFlushed : State :=
  { sampleCommitting with
    flushes := [⟨none, [], .returned none, 1⟩]
    committer := ⟨1, [], false, false, .receiving⟩
    budget := sampleStart.budget
    store := sampleCommitting.store.write sampleProducer.config.ManifestPath sampleCommit
    hist :=
      { sampleCommitting.hist with
        handed := [⟨sampleCompletion, none, .committed⟩]
        resolved := [(0, none)]
        acked := [(0, none)]
        manifest := ⟨[(some 0, sampleCompletion.item)], 0⟩
        events :=
          [.OnAccepted, .OnFlush .manual sampleBatch.stats none, .OnBatchOutcome .committed] } }

/-- `Close` has returned nil and everything has ended. -/
def sampleClosed : State :=
  { sampleFlushed with
    flushes := [⟨none, [], .returned none, 1⟩, ⟨none, [], .returned none, 1⟩]
    close := .returned 1 none
    appendCh := ⟨[], true⟩
    rotator := ⟨OpenBatch.empty, 1, .exited⟩
    encoders := [.exited]
    encoderPool := .done
    uploaders := [.exited]
    uploaderPool := .done
    uploadCompletionCh := ⟨[], true⟩
    committer := ⟨1, [], false, true, .exited⟩
    resolverClosed := true
    resolver := .exited
    hist := { sampleFlushed.hist with taken := [(0, 0), (1, 1)], acked := [(0, none), (1, none)] } }

theorem sample_isFor : sampleMessage.IsFor 0 ⟨[[7]], [], none, .reserving⟩ := ⟨rfl, rfl, rfl⟩

/-- A step in which nothing fails. -/
def Label.Smooth : Label → Prop
  | .call => True
  | .moves _ => True
  | .grants => True
  | .closesAppendCh => True
  | _ => False

/-- A run of the sample producer in which nothing fails. -/
abbrev SmoothRun (s t : State) : Prop := RunWhere sampleProducer (fun _ l => l.Smooth) s t

/-- A run without faults is a run. -/
theorem SmoothRun.run (h : SmoothRun s t) : Run sampleProducer s t := h.mono fun _ _ _ => trivial

/-- One call of `AppendContext` sends its message. -/
theorem sample_appends : SmoothRun sampleStart sampleAppended := by
  have hrun := (Reach.refl : SmoothRun sampleStart sampleStart)
    |>.tail (by trivial) (.append rfl (.begin [[7]] []))
    |>.tail (by trivial) (.append rfl (.check (i := 0) rfl rfl))
    |>.tail (by trivial) (.append rfl (.reserve (i := 0) rfl rfl rfl sample_isFor))
    |>.tail (by trivial) (.append rfl (.send (i := 0) rfl rfl rfl (by decide)))
    |>.tail (by trivial) (.append rfl (.finish (i := 0) rfl rfl))
  exact hrun

/-- `Flush` is called, and asks for a flush. -/
theorem sample_requests : SmoothRun sampleAppended sampleRequested := by
  have hrun := (Reach.refl : SmoothRun sampleAppended sampleAppended)
    |>.tail (by trivial) (.flush rfl .begin)
  exact hrun

/-- The rotator takes the request while the message is in the channel. -/
theorem sample_takes : TakesRequest sampleProducer sampleRequested 0 sampleTaken := by
  have hstep := RotatorStep.takeFlush (p := sampleProducer) (s := sampleRequested) (f := 0)
    rfl rfl rfl
  exact ⟨hstep, rfl, rfl⟩

/-- The rotator cuts the batch; it is encoded and uploaded, and the committer collects
it. -/
theorem sample_collects : SmoothRun sampleTaken sampleCommitting := by
  have hrun := (Reach.refl : SmoothRun sampleTaken sampleTaken)
    |>.tail (by trivial) (.rotator rfl (.drainReceive rfl rfl))
    |>.tail (by trivial) (.rotator rfl (.drainDone rfl rfl))
    |>.tail (by trivial) (.rotator rfl (.acquire rfl rfl))
    |>.tail (by trivial) (.rotator rfl (.reconcile rfl))
    |>.tail (by trivial) (.encoder rfl (.take (i := 0) rfl rfl))
    |>.tail (by trivial) (.encoder rfl (.encoded (i := 0) rfl rfl))
    |>.tail (by trivial) (.uploader rfl (.take (i := 0) (j := 0) rfl rfl rfl))
    |>.tail (by trivial) (.uploader rfl
      (.putApplies (j := 0) ⟨"a"⟩ rfl (fun _ h => absurd h List.not_mem_nil)))
    |>.tail (by trivial) (.uploader rfl (.putOk (j := 0) rfl))
    |>.tail (by trivial) (.uploader rfl (.complete (j := 0) rfl rfl (by decide)))
    |>.tail (by trivial) (.committer rfl (.receive rfl rfl rfl))
    |>.tail (by trivial) (.committer rfl (.gatherDone rfl rfl))
    |>.tail (by trivial) (.committer rfl (.collect rfl))
  exact hrun

/-- No version of the manifest has been used yet. -/
theorem sample_names (obj : GetResult) :
    sampleCommitting.store.Names sampleProducer.config.ManifestPath obj := by
  intro old h
  exact absurd (congrArg Prod.fst (List.mem_singleton.mp h)).symm (sample_location_ne 0)

/-- The manifest is written, the watcher resolved, and the flush answered. -/
theorem sample_commits : SmoothRun sampleCommitting sampleFlushed := by
  have hrun := (Reach.refl : SmoothRun sampleCommitting sampleCommitting)
    |>.tail (by trivial) (.committer rfl (.cas rfl (.get rfl)))
    |>.tail (by trivial) (.committer rfl
      (@CommitterStep.casApplies _ _ _ _ _ _ sampleCommit _ rfl rfl rfl (sample_names _)))
    |>.tail (by trivial) (.committer rfl (.cas rfl (.ok rfl)))
    |>.tail (by trivial) (.committer rfl (.settle rfl rfl (Or.inl rfl)))
    |>.tail (by trivial) (.resolver rfl (.take rfl rfl rfl))
    |>.tail (by trivial) (.resolver rfl (.observe rfl))
    |>.tail (by trivial) (.resolver rfl (.resolve rfl))
    |>.tail (by trivial) (.resolver rfl (.resolvedAll rfl))
    |>.tail (by trivial) (.resolver rfl (.ack rfl rfl rfl rfl))
    |>.tail (by trivial) (.resolver rfl (.release rfl))
    |>.tail (by trivial) (.flush rfl (.receiveAck (f := 0) rfl rfl rfl))
    |>.tail (by trivial) (.flush rfl (.drained (f := 0) rfl rfl rfl))
    |>.tail (by trivial) (.committer rfl (.resolved rfl))
    |>.tail (by trivial) (.committer rfl (.collect rfl))
  exact hrun

/-- `Close` flushes again and waits for the five goroutines to end. -/
theorem sample_closes : SmoothRun sampleFlushed sampleClosed := by
  have hrun := (Reach.refl : SmoothRun sampleFlushed sampleFlushed)
    |>.tail (by trivial) (.close rfl (.begin rfl))
    |>.tail (by trivial) (.rotator rfl (.takeFlush (f := 1) rfl rfl rfl))
    |>.tail (by trivial) (.rotator rfl (.drainDone rfl rfl))
    |>.tail (by trivial) (.rotator rfl (.ack rfl rfl rfl))
    |>.tail (by trivial) (.flush rfl (.receiveAck (f := 1) rfl rfl rfl))
    |>.tail (by trivial) (.flush rfl (.drained (f := 1) rfl rfl rfl))
    |>.tail (by trivial) (.close rfl (.flushed rfl rfl rfl))
    |>.tail (by trivial) (.close rfl (.closeAppendCh rfl))
    |>.tail (by trivial) (.rotator rfl (.receiveClosed rfl rfl rfl))
    |>.tail (by trivial) (.rotator rfl (.closePending rfl))
    |>.tail (by trivial) (.rotator rfl (.closeDone rfl))
    |>.tail (by trivial) (.encoder rfl (.exit (i := 0) rfl (Or.inr rfl)))
    |>.tail (by trivial) (.encoder rfl (.closeEncoded rfl (fun _ h => List.mem_singleton.mp h)))
    |>.tail (by trivial) (.encoder rfl (.closePoolDone rfl))
    |>.tail (by trivial) (.uploader rfl (.exit (j := 0) rfl (by decide)))
    |>.tail (by trivial)
      (.uploader rfl (.closeCompletions rfl (fun _ h => List.mem_singleton.mp h)))
    |>.tail (by trivial) (.uploader rfl (.closePoolDone rfl))
    |>.tail (by trivial) (.committer rfl (.receiveClosed rfl rfl rfl))
    |>.tail (by trivial) (.committer rfl (.collect rfl))
    |>.tail (by trivial) (.resolver rfl (.closeResolver rfl rfl))
    |>.tail (by trivial) (.resolver rfl (.exit rfl rfl))
    |>.tail (by trivial) (.close rfl (.wait rfl rfl))
    |>.tail (by trivial) (.close rfl (.wait rfl rfl))
    |>.tail (by trivial) (.close rfl (.wait rfl rfl))
    |>.tail (by trivial) (.close rfl (.wait rfl rfl))
    |>.tail (by trivial) (.close rfl (.wait rfl rfl))
    |>.tail (by trivial) (.close rfl (.finish rfl))
  exact hrun

/-- From the start to the group of one batch. -/
theorem sample_committing : SmoothRun sampleStart sampleCommitting :=
  ((sample_appends.trans sample_requests).tail (by trivial)
    (.rotator rfl sample_takes.step)).trans sample_collects

/-- From the start to the end of the flush. -/
theorem sample_flushes : SmoothRun sampleStart sampleFlushed :=
  sample_committing.trans sample_commits

/-- The whole of it. -/
theorem sample_run : SmoothRun sampleStart sampleClosed := sample_flushes.trans sample_closes

/-- The message of a second call. -/
def secondMessage : AppendMessage := { sampleMessage with watcher := 1 }

/-- The message of a third call, with two entries. -/
def thirdMessage : AppendMessage where
  entries := [[8], [9]]
  metadata := [5]
  ingestionTimeMs := 1
  watcher := 2
  byteCost := 3
  nonempty := by decide
  byteCost_eq := by decide

theorem second_isFor : secondMessage.IsFor 1 ⟨[[7]], [], none, .reserving⟩ := ⟨rfl, rfl, rfl⟩

theorem third_isFor : thirdMessage.IsFor 2 ⟨[[8], [9]], [5], none, .reserving⟩ := ⟨rfl, rfl, rfl⟩

/-- The batch that a second flush makes of the two. -/
def secondBatch : Batch :=
  ((OpenBatch.empty.add secondMessage).add thirdMessage).batch 1 .manual (some 1)

def secondObject : GetResult where
  data := recordBlock [[7], [8], [9]] ++ batchFooter CompressionNone 3
  version := ⟨"b"⟩

def secondCompletion : UploadCompletion where
  eb :=
    { toBatch := secondBatch
      payload := []
      location := sampleProducer.location 1
      size := secondObject.data.length }
  putError := none
  encodeFailed := false

/-- The manifest with the entries of both batches. -/
def secondCommit : GetResult where
  data := entryFrame sampleCompletion.item.entry ++
    (entryFrame { secondCompletion.item.entry with Sequence := 1 } ++ manifestFooter 2 2 0)
  version := ⟨"2"⟩

/-- Two more calls have returned their handles, the rotator has taken the first of the
two messages, and a second flush has begun. -/
def sampleAsked : State :=
  { sampleFlushed with
    appends := sampleFlushed.appends ++
      [⟨[[7]], [], none, .returned none⟩, ⟨[[8], [9]], [5], none, .returned none⟩]
    flushes := sampleFlushed.flushes ++ [⟨none, [], .requesting, 3⟩]
    appendCh := ⟨[thirdMessage], false⟩
    rotator := ⟨OpenBatch.empty.add secondMessage, 1, .selecting⟩
    budget := { sampleStart.budget with bytesUsed := 4 }
    hist :=
      { sampleFlushed.hist with
        accepted := [sampleMessage, secondMessage, thirdMessage]
        events := sampleFlushed.hist.events ++ [.OnAccepted, .OnAccepted] } }

/-- Both batches are committed and resolved, and both flushes have returned nil. -/
def sampleTwice : State :=
  { sampleAsked with
    flushes := [⟨none, [], .returned none, 1⟩, ⟨none, [], .returned none, 3⟩]
    appendCh := ⟨[], false⟩
    rotator := ⟨OpenBatch.empty, 2, .selecting⟩
    committer := ⟨2, [], false, false, .receiving⟩
    budget := sampleStart.budget
    store := (sampleFlushed.store.write (sampleProducer.location 1) secondObject).write
      sampleProducer.config.ManifestPath secondCommit
    hist :=
      { sampleAsked.hist with
        cuts := [.emitted sampleBatch, .emitted secondBatch]
        handed := [⟨sampleCompletion, none, .committed⟩, ⟨secondCompletion, none, .committed⟩]
        resolved := [(0, none), (1, none), (2, none)]
        taken := [(0, 0), (1, 1)]
        acked := [(0, none), (1, none)]
        manifest := ⟨[(some 0, sampleCompletion.item), (some 1, secondCompletion.item)], 0⟩
        events := sampleAsked.hist.events ++
          [.OnFlush .manual secondBatch.stats none, .OnBatchOutcome .committed] } }

/-- Two more calls send their messages, and another flush is requested. -/
theorem sample_asks : SmoothRun sampleFlushed sampleAsked := by
  have hrun := (Reach.refl : SmoothRun sampleFlushed sampleFlushed)
    |>.tail (by trivial) (.append rfl (.begin [[7]] []))
    |>.tail (by trivial) (.append rfl (.check (i := 1) rfl rfl))
    |>.tail (by trivial) (.append rfl (.reserve (i := 1) rfl rfl rfl second_isFor))
    |>.tail (by trivial) (.append rfl (.send (i := 1) rfl rfl rfl (by decide)))
    |>.tail (by trivial) (.append rfl (.finish (i := 1) rfl rfl))
    |>.tail (by trivial) (.rotator rfl (.receive rfl rfl))
    |>.tail (by trivial) (.append rfl (.begin [[8], [9]] [5]))
    |>.tail (by trivial) (.append rfl (.check (i := 2) rfl rfl))
    |>.tail (by trivial) (.append rfl (.reserve (i := 2) rfl rfl rfl third_isFor))
    |>.tail (by trivial) (.append rfl (.send (i := 2) rfl rfl rfl (by decide)))
    |>.tail (by trivial) (.append rfl (.finish (i := 2) rfl rfl))
    |>.tail (by trivial) (.flush rfl .begin)
  exact hrun

/-- The second batch goes the way of the first. -/
theorem sample_commits_again : SmoothRun sampleAsked sampleTwice := by
  have hupload := (Reach.refl : SmoothRun sampleAsked sampleAsked)
    |>.tail (by trivial) (.rotator rfl (.takeFlush (f := 1) rfl rfl rfl))
    |>.tail (by trivial) (.rotator rfl (.drainReceive rfl rfl))
    |>.tail (by trivial) (.rotator rfl (.drainDone rfl rfl))
    |>.tail (by trivial) (.rotator rfl (.acquire rfl rfl))
    |>.tail (by trivial) (.rotator rfl (.reconcile rfl))
    |>.tail (by trivial) (.encoder rfl (.take (i := 0) rfl rfl))
    |>.tail (by trivial) (.encoder rfl (.encoded (i := 0) rfl rfl))
    |>.tail (by trivial) (.uploader rfl (.take (i := 0) (j := 0) rfl rfl rfl))
    |>.tail (by trivial) (.uploader rfl
      (.putApplies (j := 0) ⟨"b"⟩ rfl (Store.names_of_new_version (by decide))))
    |>.tail (by trivial) (.uploader rfl (.putOk (j := 0) rfl))
    |>.tail (by trivial) (.uploader rfl (.complete (j := 0) rfl rfl (by decide)))
  have hrun := hupload
    |>.tail (by trivial) (.committer rfl (.receive rfl rfl rfl))
    |>.tail (by trivial) (.committer rfl (.gatherDone rfl rfl))
    |>.tail (by trivial) (.committer rfl (.collect rfl))
    |>.tail (by trivial) (.committer rfl (.cas rfl (.get rfl)))
    |>.tail (by trivial) (.committer rfl
      (@CommitterStep.casApplies _ _ _ _ _ _ secondCommit _ rfl rfl rfl
        (Store.names_of_new_version (by decide))))
    |>.tail (by trivial) (.committer rfl (.cas rfl (.ok rfl)))
    |>.tail (by trivial) (.committer rfl (.settle rfl rfl (Or.inl rfl)))
    |>.tail (by trivial) (.resolver rfl (.take rfl rfl rfl))
    |>.tail (by trivial) (.resolver rfl (.observe rfl))
    |>.tail (by trivial) (.resolver rfl (.resolve rfl))
    |>.tail (by trivial) (.resolver rfl (.resolve rfl))
    |>.tail (by trivial) (.resolver rfl (.resolvedAll rfl))
    |>.tail (by trivial) (.resolver rfl (.ack rfl rfl rfl rfl))
    |>.tail (by trivial) (.resolver rfl (.release rfl))
    |>.tail (by trivial) (.flush rfl (.receiveAck (f := 1) rfl rfl rfl))
    |>.tail (by trivial) (.flush rfl (.drained (f := 1) rfl rfl rfl))
    |>.tail (by trivial) (.committer rfl (.resolved rfl))
    |>.tail (by trivial) (.committer rfl (.collect rfl))
  exact hrun

/-- From the start to the end of the second round. -/
theorem sample_twice : SmoothRun sampleStart sampleTwice :=
  (sample_flushes.trans sample_asks).trans sample_commits_again

end OpenDataBuffer
