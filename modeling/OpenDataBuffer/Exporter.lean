import OpenDataBuffer.AppendOutcomes
import OpenDataBuffer.ExporterConfig
import OpenDataBuffer.FleetManifest

/-!
# The exporter

An `openDataExporter` makes a producer in `Start`, closes it in `Shutdown`, and
passes what `ConsumeMetrics` and `ConsumeLogs` receive to the producer it finds.
Any number of these calls are under way at a time.  `mu` guards the field `producer`
and nothing else: a request that has found a producer can be overtaken by a
`Shutdown` and append to a producer that is being closed.

The producers that an exporter makes one after the other share one manifest, each
with a run name of its own.  Those that are not made yet rest.

A request is the marshaled data, or the marshaler's error; for logs that is the data
with the time stamp of `stampGatewayReceivedAt` on it.
-/

namespace OpenDataBuffer

open LabelledRuns Ensembles

/-! ## Metadata and errors -/

def MetadataVersion : UInt8 := 1

def SignalTypeMetrics : UInt8 := 1

def SignalTypeLogs : UInt8 := 2

def PayloadEncodingOTLP : UInt8 := 1

def EncodeMetadata (signalType encoding : UInt8) : Bytes :=
  [MetadataVersion, signalType, encoding, 0]

/-- What `Start` returns. -/
inductive StartError
  | config (err : ConfigError)
  /-- What the store factory returns. -/
  | store (text : String)
  deriving DecidableEq

/-! ## What does not change -/

/-- An exporter for one of the two signals: the constructor refuses every other signal
type.  `runID` lists the run names of the producers in the order they are made. -/
structure Exporter (Q : Type) where
  config : Config Q
  validateQueue : Q → Except String Unit
  signalType : UInt8
  runID : Nat → Bytes
  zstd : Zstd
  supported : signalType = SignalTypeMetrics ∨ signalType = SignalTypeLogs

namespace Exporter

variable {Q : Type}

def metadata (e : Exporter Q) : Bytes := EncodeMetadata e.signalType PayloadEncodingOTLP

/-- The compression `Start` parses.  Without one there is no producer, and the default
is not used. -/
def compression (e : Exporter Q) : CompressionType :=
  (compressionTypeFromString e.config.Compression).toOption.getD CompressionNone

/-- The producer that the `g`-th `Start` makes. -/
def generation (e : Exporter Q) (g : Nat) : Producer :=
  Producer.new (e.config.producerConfig e.compression).toProducerConfig (e.runID g) e.zstd

/-- The first `n` of them. -/
def fleet (e : Exporter Q) (n : Nat) (g : Fin n) : Producer := e.generation g

end Exporter

/-! ## Telemetry -/

/-- The `stage` attribute of a failed request. -/
inductive FailureStage
  | marshal
  | start
  | enqueue
  | durableWait
  deriving DecidableEq

/-- The instruments that requests write to.  Of a histogram the number of recorded
values is kept. -/
inductive Instrument
  | requestsTotal
  | requestFailuresTotal (stage : FailureStage)
  | bytesMarshaledTotal
  | metricsReceivedTotal
  | dataPointsReceivedTotal
  | logRecordsReceivedTotal
  | marshalDuration
  | enqueueWaitDuration
  /-- With the `result` attribute `success` or `error`. -/
  | durableWaitDuration (success : Bool)
  deriving DecidableEq

abbrev Counters := Instrument → Nat

def Counters.record (c : Counters) (instrument : Instrument) (n : Nat) : Counters :=
  fun other => if other = instrument then c other + n else c other

/-- What a request brings: metrics with their counts, or logs. -/
inductive Received
  | metrics (metricCount dataPointCount : Nat)
  | logs (logRecordCount : Nat)

/-- The signal of the method that is called. -/
def Received.signalType : Received → UInt8
  | .metrics _ _ => SignalTypeMetrics
  | .logs _ => SignalTypeLogs

def Counters.recordRequestStart (c : Counters) : Received → Counters
  | .metrics metricCount dataPointCount =>
    ((c.record .requestsTotal 1).record .metricsReceivedTotal metricCount).record
      .dataPointsReceivedTotal dataPointCount
  | .logs logRecordCount =>
      (c.record .requestsTotal 1).record .logRecordsReceivedTotal logRecordCount

def Counters.recordMarshal (c : Counters) (sizeBytes : Nat) : Counters :=
  (c.record .bytesMarshaledTotal sizeBytes).record .marshalDuration 1

def Counters.recordEnqueueWait (c : Counters) : Counters := c.record .enqueueWaitDuration 1

def Counters.recordFailure (c : Counters) (stage : FailureStage) : Counters :=
  c.record (.requestFailuresTotal stage) 1

def Counters.recordDurableWait (c : Counters) (success : Bool) : Counters :=
  c.record (.durableWaitDuration success) 1

/-! ## Calls -/

/-- How `appendAndAwait` fails. -/
inductive AppendFailure
  | start
  | enqueue (err : BufferError)
  | durableWait (err : BufferError)

@[simp] def AppendFailure.stage : AppendFailure → FailureStage
  | .start => .start
  | .enqueue _ => .enqueue
  | .durableWait _ => .durableWait

/-- What `ConsumeMetrics` and `ConsumeLogs` return. -/
inductive RequestResult
  | acknowledged
  /-- The exporter is one for the other signal. -/
  | wrongSignal
  | marshalFailed (text : String)
  | appendFailed (failure : AppendFailure)

/-- Where a `ConsumeMetrics` or `ConsumeLogs` call stands. -/
inductive RequestPhase
  | entered
  /-- Recorded as started, before the marshaler. -/
  | marshaling
  /-- In `appendAndAwait`, before the read of `producer`. -/
  | looking
  /-- A producer is found, `Append` is not called yet. -/
  | found (g : Nat)
  /-- In `Append`. -/
  | appending
  /-- In `AwaitDurable`. -/
  | awaiting
  /-- `appendAndAwait` has returned. -/
  | settling (failure : Option AppendFailure)
  | returned (result : RequestResult)

structure Request where
  received : Received
  marshaled : Except String Bytes
  ctxErr : Option String
  phase : RequestPhase
  /-- The `AppendContext` call behind its `Append`, with the producer it is a call of. -/
  handle : Option (Nat × Nat)

/-- The request at another point of its code. -/
@[simp] def Request.at (r : Request) (phase : RequestPhase) : Request := { r with phase := phase }

/-- What a call returns behind `appendAndAwait`. -/
def settledResult : Option AppendFailure → RequestResult
  | none => .acknowledged
  | some failure => .appendFailed failure

inductive ShutdownPhase
  /-- `producer` is taken, the gauge is not detached yet. -/
  | detaching
  /-- Before the call of `Close`. -/
  | closing
  /-- In `Close`, or behind it. -/
  | called
  deriving DecidableEq

/-- A `Shutdown` call that has taken a producer. -/
structure ShutdownCall where
  generation : Nat
  phase : ShutdownPhase

structure ExporterState where
  producer : Option Nat
  /-- The producer of the `Start` call that holds `mu`, before `setProducer`. -/
  publishing : Option Nat
  /-- How many producers have been made. -/
  generations : Nat
  /-- The producer that the callback of the age gauge reads. -/
  gauge : Option Nat
  shutdowns : List ShutdownCall
  requests : List Request
  counters : Counters
  /-- The producers, those to come included. -/
  producers : Nat → State

/-- The first `n` producers. -/
def ExporterState.fleet (x : ExporterState) (n : Nat) (g : Fin n) : State := x.producers g

/-- An exporter before its first `Start`, on a store whose manifest holds `items`. -/
def newExporter {Q : Type} (e : Exporter Q) (store : ObjectStore) (items : List EnqueueItem) :
    ExporterState where
  producer := none
  publishing := none
  generations := 0
  gauge := none
  shutdowns := []
  requests := []
  counters := fun _ => 0
  producers := newFleet e.generation store fun _ => items

/-! ## Steps -/

/-- Who takes a step.  A `Start` that ends with it returns the error. -/
inductive ExporterLabel
  | start (err : Option StartError)
  | shutdown
  | consume (request : Nat)
  | producer (g : Nat) (l : Label)

/-- The `Flush` call of a `Close` that is under way; its context is that of `Close`. -/
def ClosePhase.flush? : ClosePhase → Option Nat
  | .flushing f => some f
  | .closing f _ => some f
  | .waiting f _ _ => some f
  | _ => none

variable {Q : Type}

/-- `Start` and `Shutdown`. -/
inductive LifecycleStep (e : Exporter Q) (x : ExporterState) : ExporterLabel → ExporterState → Prop
  | startInvalid {err : ConfigError}
      (hcheck : Config.Validate e.validateQueue (some e.config) = .error err) :
      LifecycleStep e x (.start (some (.config err))) x
  | startAgain {g : Nat} (hcheck : Config.Validate e.validateQueue (some e.config) = .ok ())
      (hmu : x.publishing = none) (hlive : x.producer = some g) : LifecycleStep e x (.start none) x
  | startFails (text : String) (hcheck : Config.Validate e.validateQueue (some e.config) = .ok ())
      (hmu : x.publishing = none) (hidle : x.producer = none) :
      LifecycleStep e x (.start (some (.store text))) x
  -- The parse of the compression succeeds: it is part of the check.
  | startCreates (hcheck : Config.Validate e.validateQueue (some e.config) = .ok ())
      (hmu : x.publishing = none) (hidle : x.producer = none) :
      LifecycleStep e x (.start none)
        { x with
          producer := some x.generations
          publishing := some x.generations
          generations := x.generations + 1 }
  | startPublishes {g : Nat} (hmu : x.publishing = some g) :
      LifecycleStep e x (.start none) { x with gauge := some g, publishing := none }
  | shutdownIdle (hmu : x.publishing = none) (hidle : x.producer = none) :
      LifecycleStep e x .shutdown x
  | shutdownTakes {g : Nat} (hmu : x.publishing = none) (hlive : x.producer = some g) :
      LifecycleStep e x .shutdown
        { x with producer := none, shutdowns := x.shutdowns ++ [⟨g, .detaching⟩] }
  | shutdownDetaches {i g : Nat} (hcall : x.shutdowns[i]? = some ⟨g, .detaching⟩) :
      LifecycleStep e x .shutdown
        { x with gauge := none, shutdowns := x.shutdowns.set i ⟨g, .closing⟩ }
  | shutdownCloses {i g : Nat} {T : Nat → State} (hcall : x.shutdowns[i]? = some ⟨g, .closing⟩)
      (hclose : CloseStep (x.producers g) .call (T g))
      (hothers : ∀ j, j ≠ g → SeesManifest (T g) (x.producers j) (T j)) :
      LifecycleStep e x .shutdown
        { x with shutdowns := x.shutdowns.set i ⟨g, .called⟩, producers := T }
  | shutdownCtxDone {g f : Nat} {c : FlushCall} {T : Nat → State} (text : String)
      (hclose : (x.producers g).close.flush? = some f)
      (hcall : (x.producers g).flushes[f]? = some c) (hctx : c.ctxErr = none)
      (hdone : T g = { x.producers g with
        flushes := (x.producers g).flushes.set f { c with ctxErr := some text } })
      (hothers : ∀ j, j ≠ g → SeesManifest (T g) (x.producers j) (T j)) :
      LifecycleStep e x .shutdown { x with producers := T }

/-- A request moves on without a call of the producer; what it records is in the
counters behind the step. -/
inductive RequestMove (e : Exporter Q) (x : ExporterState) (r : Request) : Request → Counters → Prop
  | ctxDone (text : String) (hctx : r.ctxErr = none) :
      RequestMove e x r { r with ctxErr := some text } x.counters
  | wrongSignal (hphase : r.phase = .entered) (hsignal : r.received.signalType ≠ e.signalType) :
      RequestMove e x r (r.at (.returned .wrongSignal)) x.counters
  | accept (hphase : r.phase = .entered) (hsignal : r.received.signalType = e.signalType) :
      RequestMove e x r (r.at .marshaling) (x.counters.recordRequestStart r.received)
  | marshalFails {text : String} (hphase : r.phase = .marshaling)
      (hmarshal : r.marshaled = .error text) :
      RequestMove e x r (r.at (.returned (.marshalFailed text))) (x.counters.recordFailure .marshal)
  | marshals {payload : Bytes} (hphase : r.phase = .marshaling)
      (hmarshal : r.marshaled = .ok payload) :
      RequestMove e x r (r.at .looking) (x.counters.recordMarshal payload.length)
  | notStarted (hphase : r.phase = .looking) (hmu : x.publishing = none)
      (hidle : x.producer = none) :
      RequestMove e x r (r.at (.settling (some .start))) (x.counters.recordFailure .start)
  | finds {g : Nat} (hphase : r.phase = .looking) (hmu : x.publishing = none)
      (hlive : x.producer = some g) : RequestMove e x r (r.at (.found g)) x.counters
  | enqueueFails {g call : Nat} {c : AppendCall} {err : BufferError} (hphase : r.phase = .appending)
      (hhandle : r.handle = some (g, call)) (hcall : (x.producers g).appends[call]? = some c)
      (hreturned : c.phase = .returned (some err)) :
      RequestMove e x r (r.at (.settling (some (.enqueue err))))
        (x.counters.recordEnqueueWait.recordFailure .enqueue)
  | enqueued {g call : Nat} {c : AppendCall} (hphase : r.phase = .appending)
      (hhandle : r.handle = some (g, call)) (hcall : (x.producers g).appends[call]? = some c)
      (hreturned : c.phase = .returned none) :
      RequestMove e x r (r.at .awaiting) x.counters.recordEnqueueWait
  | durable {g call : Nat} (hphase : r.phase = .awaiting) (hhandle : r.handle = some (g, call))
      (hresult : (x.producers g).watcherResult call = some none) :
      RequestMove e x r (r.at (.settling none)) x.counters
  | notDurable {g call : Nat} {err : BufferError} (hphase : r.phase = .awaiting)
      (hhandle : r.handle = some (g, call))
      (hresult : (x.producers g).watcherResult call = some (some err)) :
      RequestMove e x r (r.at (.settling (some (.durableWait err))))
        (x.counters.recordFailure .durableWait)
  | awaitCtx {text : String} (hphase : r.phase = .awaiting) (hctx : r.ctxErr = some text) :
      RequestMove e x r (r.at (.settling (some (.durableWait (.context text)))))
        (x.counters.recordFailure .durableWait)
  | settles {failure : Option AppendFailure} (hphase : r.phase = .settling failure) :
      RequestMove e x r (r.at (.returned (settledResult failure)))
        (x.counters.recordDurableWait failure.isNone)

/-- `ConsumeMetrics` and `ConsumeLogs`. -/
inductive RequestStep (e : Exporter Q) (x : ExporterState) : ExporterLabel → ExporterState → Prop
  | begin (received : Received) (marshaled : Except String Bytes) :
      RequestStep e x (.consume x.requests.length)
        { x with requests := x.requests ++ [⟨received, marshaled, none, .entered, none⟩] }
  | moves {i : Nat} {r r' : Request} {c : Counters} (hr : x.requests[i]? = some r)
      (hmove : RequestMove e x r r' c) :
      RequestStep e x (.consume i) { x with requests := x.requests.set i r', counters := c }
  -- `Append` is `AppendContext` with a context that is never done.
  | appends {i g : Nat} {r : Request} {payload : Bytes} {T : Nat → State}
      (hr : x.requests[i]? = some r) (hphase : r.phase = .found g)
      (hmarshal : r.marshaled = .ok payload)
      (hbegin : T g = { x.producers g with
        appends := (x.producers g).appends ++ [⟨[payload], e.metadata, none, .entered⟩] })
      (hothers : ∀ j, j ≠ g → SeesManifest (T g) (x.producers j) (T j)) :
      RequestStep e x (.consume i)
        { x with
          requests := x.requests.set i
            { r with phase := .appending, handle := some (g, (x.producers g).appends.length) }
          producers := T }

/-- One step of a collector with the exporter in it.  A producer that has been made
moves by itself, except that only `Shutdown` and requests call it.  Other parties write
the manifest at any time, also before the first producer is made.  A panic of any
producer ends the process. -/
inductive ExporterStep (e : Exporter Q) (x : ExporterState) (l : ExporterLabel)
    (y : ExporterState) :
    Prop
  | lifecycle (hrun : ∀ g, (x.producers g).panicked = none) (h : LifecycleStep e x l y)
  | request (hrun : ∀ g, (x.producers g).panicked = none) (h : RequestStep e x l y)
  | producer {g : Nat} {k : Label} {T : Nat → State}
      (hmade : g < x.generations ∨ g = x.generations ∧ k = .others) (hown : k ≠ .call)
      (hmoves : FleetMove e.generation g (x.producers g) k (T g))
      (hothers : ∀ j, j ≠ g → SeesManifest (T g) (x.producers j) (T j))
      (hrun : ∀ g, (x.producers g).panicked = none) (hlabel : l = .producer g k)
      (hy : y = { x with producers := T })

/-- The runs of an exporter whose steps all meet a condition. -/
abbrev ExporterRun (e : Exporter Q) (allowed : ExporterState → ExporterLabel → Prop)
    (x y : ExporterState) : Prop :=
  Reach (ExporterStep e) allowed x y

variable {e : Exporter Q} {x y : ExporterState} {l : ExporterLabel}

/-- The producers that something in the collector refers to. -/
inductive ExporterState.Touches (x : ExporterState) (g : Nat) : Prop
  | made (h : g ≤ x.generations)
  | taken {i : Nat} {phase : ShutdownPhase} (h : x.shutdowns[i]? = some ⟨g, phase⟩)
  | closed (h : (x.producers g).close ≠ .notCalled)
  | found {i : Nat} {r : Request} (hr : x.requests[i]? = some r) (hphase : r.phase = .found g)

/-- A step is one of a producer that something refers to, or of no producer. -/
theorem ExporterStep.member (h : ExporterStep e x l y) : y.producers = x.producers ∨
    ∃ g k, x.Touches g ∧ FleetMove e.generation g (x.producers g) k (y.producers g) ∧
      ∀ j, j ≠ g → SeesManifest (y.producers g) (x.producers j) (y.producers j) := by
  cases h with
  | lifecycle hrun h =>
      cases h with
      | @shutdownCloses i g T hcall hclose hothers =>
          exact Or.inr ⟨g, .call, .taken hcall, .of_own (.close (hrun g) hclose) (by simp), hothers⟩
      | @shutdownCtxDone g f c T text hclose hcall hctx hdone hothers =>
          have hflush : FlushStep (x.producers g) .call (T g) := by
            rw [hdone]
            exact .ctxDone text hcall hctx
          refine Or.inr ⟨g, .call, .closed fun hnot => ?_,
            .of_own (.flush (hrun g) hflush) (by simp),
            hothers⟩
          rw [hnot] at hclose
          cases hclose
      | _ => exact Or.inl rfl
  | request hrun h =>
      cases h with
      | @appends i g r payload T hr hphase hmarshal hbegin hothers =>
          have happend : AppendStep (e.generation g) (x.producers g) .call (T g) := by
            rw [hbegin]
            exact .begin [payload] e.metadata
          exact Or.inr ⟨g, .call, .found hr hphase, .of_own (.append (hrun g) happend) (by simp),
            hothers⟩
      | _ => exact Or.inl rfl
  | @producer g k T hmade hown hmoves hothers hrun hlabel hy =>
      subst hy
      refine Or.inr ⟨g, k, .made ?_, hmoves, hothers⟩
      rcases hmade with hlt | ⟨heq, -⟩
      · exact Nat.le_of_lt hlt
      · exact Nat.le_of_eq heq

/-- Producers are made and never forgotten. -/
theorem ExporterStep.generations (h : ExporterStep e x l y) : x.generations ≤ y.generations := by
  cases h with
  | lifecycle _ h =>
      cases h with
      | startCreates => exact Nat.le_succ _
      | _ => exact Nat.le_refl _
  | request _ h => cases h <;> exact Nat.le_refl _
  | producer _ _ _ _ _ _ hy =>
      subst hy
      exact Nat.le_refl _

end OpenDataBuffer
