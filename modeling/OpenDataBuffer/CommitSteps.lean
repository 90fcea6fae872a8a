import OpenDataBuffer.PipelineSteps

/-!
# The steps of the committer and the resolver

The committer gathers upload completions in the map `ready`, cuts runs of
consecutive ordinals off it, writes each run to the manifest with
`casWithRetry`, and hands every outcome to the resolver.  The store calls of
`casWithRetry` are separate steps, so other parties can write the manifest
between a `Get` and the `PutIfMatch` based on it, and a `PutIfMatch` can take
effect and still return an error.
-/

namespace OpenDataBuffer

/-- `ready[uc.eb.ordinal] = uc`. -/
def insertReady (uc : UploadCompletion) (ready : List UploadCompletion) : List UploadCompletion :=
  uc :: ready.filter (fun other => other.eb.ordinal ≠ uc.eb.ordinal)

/-- What the inner loop of `drain` cuts off. -/
structure Collected where
  group : List UploadCompletion
  failed : List PendingResolution
  next : Nat
  ready : List UploadCompletion

/-- A completion without an object: it is resolved with its own error. -/
def failedResolution (uc : UploadCompletion) (err : BufferError) : PendingResolution where
  uc := uc
  err := some err
  outcome := if uc.encodeFailed then .encodeFailed else .uploadFailed

/-- The inner loop of `drain`, with room for `n` more ordinals. -/
def collect : Nat → Nat → List UploadCompletion → Collected
  | 0, next, ready => ⟨[], [], next, ready⟩
  | n + 1, next, ready =>
    match ready.find? (fun uc => uc.eb.ordinal = next) with
    | none => ⟨[], [], next, ready⟩
    | some uc =>
      let rest := collect n (next + 1) (ready.filter (fun other => other.eb.ordinal ≠ next))
      match uc.putError with
      | some err => { rest with failed := failedResolution uc err :: rest.failed }
      | none => { rest with group := uc :: rest.group }

/-- The enqueue item of a completed upload. -/
def UploadCompletion.item (uc : UploadCompletion) : EnqueueItem where
  Location := uc.eb.location
  Metadata := uc.eb.metadata

/-- The log entries of a group. -/
def ownedItems (group : List UploadCompletion) : List (Option Nat × EnqueueItem) :=
  group.map (fun uc => (some uc.eb.ordinal, uc.item))

/-- The committer behind `drain`. -/
def afterDrain (closed : Bool) : CommitterPhase := if closed then .exited else .receiving

/-- `drain` behind its inner loop. -/
def Producer.afterCollect (p : Producer) (closed : Bool) (c : Collected) : CommitterPhase :=
  if c.group = [] then
    if c.failed = [] then afterDrain closed else .resolving c.failed .drainAgain
  else
    .cas c.group c.failed
      (casWithRetry p.manifestMaxAttempts (c.group.map UploadCompletion.item))

/-- The committer once its outcomes are handed over. -/
def afterResolve (closed : Bool) : AfterResolve → CommitterPhase
  | .drainAgain => .draining
  | .drainDone => afterDrain closed
  | .nextCompletion => .receiving

/-- The outcome of a group whose `casWithRetry` did not halt the producer. -/
def groupOutcome (err : Option BufferError) : BatchOutcome :=
  if err = none then .committed else .manifestFailed

/-- The resolutions of a group and of the failed ordinals around it. -/
def settled (group : List UploadCompletion) (failed : List PendingResolution)
    (err : Option BufferError) : List PendingResolution :=
  group.map (fun uc => ⟨uc, err, groupOutcome err⟩) ++ failed

/-- A batch given up because the producer is halted. -/
def haltedResolution (outcome : BatchOutcome) (uc : UploadCompletion) : PendingResolution :=
  ⟨uc, some .producerHalted, outcome⟩

/-- The resolutions of a halt: the group, the failed ordinals around it, and
everything in `ready`, in the order the map is walked. -/
def haltedAll (group : List UploadCompletion) (failed : List PendingResolution)
    (swept : List UploadCompletion) : List PendingResolution :=
  group.map (haltedResolution .manifestFailed) ++
    (failed ++ swept.map (haltedResolution .abandoned))

/-- The committer at another point of its code. -/
@[simp] def Committer.at (c : Committer) (phase : CommitterPhase) : Committer :=
  { c with phase := phase }

/-- `casWithRetry` of the committer behind a return of `enqueueBatch`. -/
def Producer.settleCas (p : Producer) (call : CasCall) (phase : EnqueuePhase) : CasCall :=
  call.settle p.manifestMaxAttempts phase

/-- `casWithRetry` between two effects on the store: a store call returns, or
the wait between two attempts ends. -/
inductive CasStep (p : Producer) (s : State) (items : List EnqueueItem) (call : CasCall) :
    Label → CasCall → Prop
  | get {n : Nat} (hcall : call.phase = .enqueueing (.reading n)) :
      CasStep p s items call (.moves .committer)
        (p.settleCas call (afterGet items n (storeGet s.store p.config.ManifestPath)))
  | getFails {n : Nat} (err : StoreError) (hcall : call.phase = .enqueueing (.reading n))
      (herr : err ≠ .notFound) :
      CasStep p s items call .getFails
        (p.settleCas call (afterGet items n (.error err)))
  | ok {n : Nat} {data : Bytes} {version : Option Version}
      (hcall : call.phase = .enqueueing (.writing n data version true)) :
      CasStep p s items call (.moves .committer) (p.settleCas call (afterPut n none))
  | conflict {n : Nat} {data : Bytes} {version : Option Version}
      (hcall : call.phase = .enqueueing (.writing n data version false))
      (hmatch : ¬ s.store.Matches p.config.ManifestPath version) :
      CasStep p s items call (.moves .committer)
        (p.settleCas call (afterPut n (some .preconditionFailed)))
  | fails {n : Nat} {data : Bytes} {version : Option Version} {applied : Bool} (err : StoreError)
      (hcall : call.phase = .enqueueing (.writing n data version applied))
      (herr : err ≠ .preconditionFailed) :
      CasStep p s items call (.casFails applied) (p.settleCas call (afterPut n (some err)))
  | retry {err : BufferError} (hcall : call.phase = .backoff err) :
      CasStep p s items call .retriesCas (call.retry p.manifestMaxAttempts items)
  | abandon {err : BufferError} (hcall : call.phase = .backoff err)
      (hshutdown : s.shutdown = true) :
      CasStep p s items call (.moves .committer) call.abandon

inductive CommitterStep (p : Producer) (s : State) : Label → State → Prop
  | receive {uc : UploadCompletion} {rest : List UploadCompletion}
      (hphase : s.committer.phase = .receiving) (hhalted : s.committer.halted = false)
      (hqueue : s.uploadCompletionCh.queue = uc :: rest) :
      CommitterStep p s (.moves .committer)
        { s with
          uploadCompletionCh := { s.uploadCompletionCh with queue := rest }
          committer :=
            { s.committer with ready := insertReady uc s.committer.ready, phase := .gathering } }
  | receiveHalted {uc : UploadCompletion} {rest : List UploadCompletion}
      (hphase : s.committer.phase = .receiving) (hhalted : s.committer.halted = true)
      (hqueue : s.uploadCompletionCh.queue = uc :: rest) :
      CommitterStep p s (.moves .committer)
        { s with
          uploadCompletionCh := { s.uploadCompletionCh with queue := rest }
          committer :=
            s.committer.at (.resolving [haltedResolution .abandoned uc] .nextCompletion) }
  | receiveClosed (hphase : s.committer.phase = .receiving)
      (hqueue : s.uploadCompletionCh.queue = []) (hclosed : s.uploadCompletionCh.closed = true) :
      CommitterStep p s (.moves .committer)
        { s with committer :=
            { s.committer with
              closed := true
              phase := if s.committer.halted then .exited else .draining } }
  | gather {uc : UploadCompletion} {rest : List UploadCompletion}
      (hphase : s.committer.phase = .gathering)
      (hqueue : s.uploadCompletionCh.queue = uc :: rest) :
      CommitterStep p s (.moves .committer)
        { s with
          uploadCompletionCh := { s.uploadCompletionCh with queue := rest }
          committer := { s.committer with ready := insertReady uc s.committer.ready } }
  | gatherDone (hphase : s.committer.phase = .gathering)
      (hqueue : s.uploadCompletionCh.queue = []) :
      CommitterStep p s (.moves .committer)
        { s with committer :=
            { s.committer with closed := s.uploadCompletionCh.closed, phase := .draining } }
  | collect (hphase : s.committer.phase = .draining) :
      CommitterStep p s (.moves .committer)
        { s with committer :=
            { s.committer with
              next := (collect p.batchSize s.committer.next s.committer.ready).next
              ready := (collect p.batchSize s.committer.next s.committer.ready).ready
              phase := p.afterCollect s.committer.closed
                (collect p.batchSize s.committer.next s.committer.ready) } }
  | cas {l : Label} {group : List UploadCompletion} {failed : List PendingResolution}
      {call call' : CasCall} (hphase : s.committer.phase = .cas group failed call)
      (hcas : CasStep p s (group.map UploadCompletion.item) call l call') :
      CommitterStep p s l { s with committer := s.committer.at (.cas group failed call') }
  | casApplies {group : List UploadCompletion} {failed : List PendingResolution} {call : CasCall}
      {n : Nat} {obj : GetResult} {version : Option Version}
      (hphase : s.committer.phase = .cas group failed call)
      (hcall : call.phase = .enqueueing (.writing n obj.data version false))
      (hmatch : s.store.Matches p.config.ManifestPath version)
      (hnames : s.store.Names p.config.ManifestPath obj) :
      CommitterStep p s (.moves .committer)
        { s with
          committer := s.committer.at (.cas group failed
            { call with phase := .enqueueing (.writing n obj.data version true) })
          store := s.store.write p.config.ManifestPath obj
          hist := { s.hist with manifest :=
            { s.hist.manifest with log := s.hist.manifest.log ++ ownedItems group } } }
  | settle {group : List UploadCompletion} {failed : List PendingResolution} {call : CasCall}
      {err : Option BufferError} (hphase : s.committer.phase = .cas group failed call)
      (hcall : call.phase = .returned err) (herr : err = none ∨ err = some .shutdown) :
      CommitterStep p s (.moves .committer)
        { s with committer :=
            s.committer.at (.resolving (settled group failed err) .drainAgain) }
  | halt {group : List UploadCompletion} {failed : List PendingResolution} {call : CasCall}
      {err : BufferError} {swept : List UploadCompletion}
      (hphase : s.committer.phase = .cas group failed call)
      (hcall : call.phase = .returned (some err)) (herr : err ≠ .shutdown)
      (hswept : swept.Perm s.committer.ready) :
      CommitterStep p s (.moves .committer)
        { s with
          halted := true
          committer :=
            { s.committer with
              ready := []
              halted := true
              phase := .notifying (haltedAll group failed swept) } }
  | notify {left : List PendingResolution} (hphase : s.committer.phase = .notifying left) :
      CommitterStep p s (.moves .committer)
        { s with
          committer := s.committer.at (.resolving left .drainDone)
          hist := { s.hist with events := s.hist.events ++ p.observes (.OnHalted true) } }
  | resolved {after : AfterResolve} (hphase : s.committer.phase = .resolving [] after) :
      CommitterStep p s (.moves .committer)
        { s with committer := s.committer.at (afterResolve s.committer.closed after) }
  | resolveClosed {pr : PendingResolution} {left : List PendingResolution} {after : AfterResolve}
      (hphase : s.committer.phase = .resolving (pr :: left) after)
      (hclosed : s.resolverClosed = true) :
      CommitterStep p s (.panics .resolverCh) { s with panicked := some .resolverCh }

/-- The resolver behind the loop over the watchers. -/
def afterWatchers (ri : ResolverItem) : ResolverPhase :=
  match ri.flushAck with
  | some _ => .acking ri
  | none => .releasing ri

inductive ResolverStep (p : Producer) (s : State) : Label → State → Prop
  | take {pr : PendingResolution} {left : List PendingResolution} {after : AfterResolve}
      (hphase : s.resolver = .receiving)
      (hsend : s.committer.phase = .resolving (pr :: left) after)
      (hopen : s.resolverClosed = false) :
      ResolverStep p s (.moves .resolver)
        { s with
          committer := s.committer.at (.resolving left after)
          resolver := .observing pr.item
          hist := { s.hist with handed := s.hist.handed ++ [pr] } }
  | observe {ri : ResolverItem} (hphase : s.resolver = .observing ri) :
      ResolverStep p s (.moves .resolver)
        { s with
          resolver := .resolving ri ri.watchers
          hist := { s.hist with events := s.hist.events ++
            (p.observes (.OnFlush ri.reason ri.stats ri.err) ++
              p.observes (.OnBatchOutcome ri.outcome)) } }
  | resolve {ri : ResolverItem} {w : Nat} {left : List Nat}
      (hphase : s.resolver = .resolving ri (w :: left)) :
      ResolverStep p s (.moves .resolver)
        { s with
          resolver := .resolving ri left
          hist := { s.hist with resolved := s.hist.resolved ++ [(w, ri.err)] } }
  | resolvedAll {ri : ResolverItem} (hphase : s.resolver = .resolving ri []) :
      ResolverStep p s (.moves .resolver) { s with resolver := afterWatchers ri }
  | ack {ri : ResolverItem} {f : Nat} {c : FlushCall} (hphase : s.resolver = .acking ri)
      (hack : ri.flushAck = some f) (hcall : s.flushes[f]? = some c) (hroom : c.result = []) :
      ResolverStep p s (.moves .resolver)
        { s with
          flushes := s.flushes.set f (c.holding [ri.err])
          resolver := .releasing ri
          hist := { s.hist with acked := s.hist.acked ++ [(f, ri.err)] } }
  | release {ri : ResolverItem} (hphase : s.resolver = .releasing ri) :
      ResolverStep p s (.moves .resolver)
        { s with resolver := .receiving, budget := s.budget.release ri.byteCost 1 }
  | exit (hphase : s.resolver = .receiving) (hclosed : s.resolverClosed = true) :
      ResolverStep p s (.moves .resolver) { s with resolver := .exited }
  | closeResolver (hdone : s.committer.phase = .exited) (hopen : s.resolverClosed = false) :
      ResolverStep p s (.moves .resolver) { s with resolverClosed := true }

/-- Other parties write to the same store.  They write the manifest through conditional
writes of their own: they drop some of the oldest entries and append some items.  And
they write objects under names that are neither the manifest's nor ones of this
producer. -/
inductive OthersStep (p : Producer) (s : State) : Label → State → Prop
  | write {k : Nat} {items : List EnqueueItem} {obj : GetResult}
      (hk : k ≤ (s.hist.manifest.log.drop s.hist.manifest.dropped).length)
      (hdata : ManifestOf obj.data
        (((s.hist.manifest.log.drop s.hist.manifest.dropped).drop k).map Prod.snd ++ items))
      (hnames : s.store.Names p.config.ManifestPath obj) :
      OthersStep p s .others
        { s with
          store := s.store.write p.config.ManifestPath obj
          hist := { s.hist with manifest :=
            { log := s.hist.manifest.log ++ items.map (Prod.mk none)
              dropped := s.hist.manifest.dropped + k } } }
  | object {path : Bytes} {obj : GetResult} (hmanifest : path ≠ p.config.ManifestPath)
      (hown : ∀ k, p.location k ≠ path) (hnames : s.store.Names path obj) :
      OthersStep p s .others { s with store := s.store.write path obj }

end OpenDataBuffer
