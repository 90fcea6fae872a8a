import OpenDataBuffer.ProducerState

/-!
# The steps of the producer's callers

`AppendContext`, `Flush` and `Close` as step relations.  A step is one channel
operation, one mutex region, one read or write of an atomic variable, or the
arrival of a call.  A `select` is one constructor for each of its cases, so
every case that is ready can be the one that is taken.

Labels tell who moves, and single out the steps that fault assumptions are
about.
-/

namespace OpenDataBuffer

/-- Who takes a step of the producer. -/
inductive Actor
  | append
  | flush
  | close
  | rotator
  | encoder
  | uploader
  | committer
  | resolver
  deriving DecidableEq

inductive Label
  /-- A user begins a call, or the context of a call is done. -/
  | call
  /-- Another party writes to the store. -/
  | others
  /-- The producer's own code moves on. -/
  | moves (actor : Actor)
  /-- `reserveBytes` grants a reservation to an `AppendContext` call. -/
  | grants
  /-- `Close` closes `appendCh`. -/
  | closesAppendCh
  /-- A `Put` of an uploader returns an error. -/
  | putFails (uploader : Nat) (applied : Bool)
  /-- A `Get` of the manifest returns an error that is not a missing object. -/
  | getFails
  /-- A `PutIfMatch` returns an error that is not a failed precondition. -/
  | casFails (applied : Bool)
  /-- `casWithRetry` starts another attempt. -/
  | retriesCas
  /-- A send on a closed channel panics. -/
  | panics (ch : Channel)
  deriving DecidableEq

/-- Who moves, if it is the producer's own code and no store call fails. -/
def Label.actor? : Label → Option Actor
  | .moves actor => some actor
  | .grants => some .append
  | .closesAppendCh => some .close
  | .retriesCas => some .committer
  | _ => none

/-- An observer call, if an observer is set. -/
def Producer.observes (p : Producer) (e : ObserverEvent) : List ObserverEvent :=
  if p.config.Observer then [e] else []

/-- `AppendContext` up to `reserveBytes`. -/
def appendEntry (halted : Bool) (entries : List Bytes) : AppendPhase :=
  if entries.length = 0 then .returned (some (invalidInputErr "entries must not be empty"))
  else if halted then .returned (some .producerHalted)
  else .reserving

/-- `msg` is the message of call `i`, stamped with some time. -/
structure AppendMessage.IsFor (msg : AppendMessage) (i : Nat) (c : AppendCall) : Prop where
  entries : msg.entries = c.entries
  metadata : msg.metadata = c.metadata
  watcher : msg.watcher = i

inductive AppendStep (p : Producer) (s : State) : Label → State → Prop
  | begin (entries : List Bytes) (metadata : Bytes) :
      AppendStep p s .call { s with appends := s.appends ++ [⟨entries, metadata, none, .entered⟩] }
  | ctxDone {i : Nat} {c : AppendCall} (text : String) (hcall : s.appends[i]? = some c)
      (hctx : c.ctxErr = none) :
      AppendStep p s .call { s with appends := s.appends.set i { c with ctxErr := some text } }
  | check {i : Nat} {c : AppendCall} (hcall : s.appends[i]? = some c)
      (hphase : c.phase = .entered) :
      AppendStep p s (.moves .append)
        { s with appends := s.appends.set i (c.at (appendEntry s.halted c.entries)) }
  | reserve {i : Nat} {c : AppendCall} {b : ProducerBudget} {msg : AppendMessage}
      (hcall : s.appends[i]? = some c) (hphase : c.phase = .reserving)
      (hgrant : s.budget.reserveBytes (appendByteCost c.entries c.metadata) = .granted b)
      (hmsg : msg.IsFor i c) :
      AppendStep p s .grants
        { s with appends := s.appends.set i (c.at (.sending msg)), budget := b }
  | park {i ch : Nat} {c : AppendCall} {b : ProducerBudget} (hcall : s.appends[i]? = some c)
      (hphase : c.phase = .reserving)
      (hwait : s.budget.reserveBytes (appendByteCost c.entries c.metadata) = .wait b ch) :
      AppendStep p s (.moves .append)
        { s with appends := s.appends.set i (c.at (.parked ch)), budget := b }
  | wake {i ch : Nat} {c : AppendCall} (hcall : s.appends[i]? = some c)
      (hphase : c.phase = .parked ch) (hclosed : ch ∈ s.budget.closed) :
      AppendStep p s (.moves .append) { s with appends := s.appends.set i (c.at .reserving) }
  | parkedCtx {i ch : Nat} {c : AppendCall} {text : String} (hcall : s.appends[i]? = some c)
      (hphase : c.phase = .parked ch) (hctx : c.ctxErr = some text) :
      AppendStep p s (.moves .append)
        { s with appends := s.appends.set i (c.at (.returned (some (.context text)))) }
  | parkedShutdown {i ch : Nat} {c : AppendCall} (hcall : s.appends[i]? = some c)
      (hphase : c.phase = .parked ch) (hshutdown : s.shutdown = true) :
      AppendStep p s (.moves .append)
        { s with appends := s.appends.set i (c.at (.returned (some .shutdown))) }
  | send {i : Nat} {c : AppendCall} {msg : AppendMessage} (hcall : s.appends[i]? = some c)
      (hphase : c.phase = .sending msg) (hopen : s.appendCh.closed = false)
      (hroom : s.appendCh.queue.length < p.config.MaxBufferedInputs) :
      AppendStep p s (.moves .append)
        { s with
          appends := s.appends.set i (c.at .accepted)
          appendCh := { s.appendCh with queue := s.appendCh.queue ++ [msg] }
          hist := { s.hist with accepted := s.hist.accepted ++ [msg] } }
  | sendClosed {i : Nat} {c : AppendCall} {msg : AppendMessage} (hcall : s.appends[i]? = some c)
      (hphase : c.phase = .sending msg) (hclosed : s.appendCh.closed = true) :
      AppendStep p s (.panics .appendCh) { s with panicked := some .appendCh }
  | finish {i : Nat} {c : AppendCall} (hcall : s.appends[i]? = some c)
      (hphase : c.phase = .accepted) :
      AppendStep p s (.moves .append)
        { s with
          appends := s.appends.set i (c.at (.returned none))
          hist := { s.hist with events := s.hist.events ++ p.observes .OnAccepted } }
  | sendCtx {i : Nat} {c : AppendCall} {msg : AppendMessage} {text : String}
      (hcall : s.appends[i]? = some c) (hphase : c.phase = .sending msg)
      (hctx : c.ctxErr = some text) :
      AppendStep p s (.moves .append)
        { s with appends := s.appends.set i (c.at (.aborting msg (.context text))) }
  | sendDone {i : Nat} {c : AppendCall} {msg : AppendMessage} (hcall : s.appends[i]? = some c)
      (hphase : c.phase = .sending msg) (hdone : s.rotator.phase = .exited) :
      AppendStep p s (.moves .append)
        { s with appends := s.appends.set i (c.at (.aborting msg .shutdown)) }
  | abort {i : Nat} {c : AppendCall} {msg : AppendMessage} {err : BufferError}
      (hcall : s.appends[i]? = some c) (hphase : c.phase = .aborting msg err) :
      AppendStep p s (.moves .append)
        { s with
          appends := s.appends.set i (c.at (.returned (some err)))
          budget := s.budget.release msg.byteCost 0 }

/-- A `Flush` call on entry. -/
def State.newFlush (s : State) : FlushCall := ⟨none, [], .requesting, s.hist.accepted.length⟩

/-- `Flush`; the rotator's side of the request is a step of the rotator. -/
inductive FlushStep (s : State) : Label → State → Prop
  | begin : FlushStep s .call { s with flushes := s.flushes ++ [s.newFlush] }
  | ctxDone {f : Nat} {c : FlushCall} (text : String) (hcall : s.flushes[f]? = some c)
      (hctx : c.ctxErr = none) :
      FlushStep s .call { s with flushes := s.flushes.set f { c with ctxErr := some text } }
  | requestDone {f : Nat} {c : FlushCall} (hcall : s.flushes[f]? = some c)
      (hphase : c.phase = .requesting) (hdone : s.rotator.phase = .exited) :
      FlushStep s (.moves .flush)
        { s with flushes := s.flushes.set f (c.at (.returned (some .shutdown))) }
  | requestCtx {f : Nat} {c : FlushCall} {text : String} (hcall : s.flushes[f]? = some c)
      (hphase : c.phase = .requesting) (hctx : c.ctxErr = some text) :
      FlushStep s (.moves .flush)
        { s with flushes := s.flushes.set f (c.at (.returned (some (.context text)))) }
  | receiveAck {f : Nat} {c : FlushCall} {v : Option BufferError}
      {rest : List (Option BufferError)} (hcall : s.flushes[f]? = some c)
      (hphase : c.phase = .awaiting) (hresult : c.result = v :: rest) :
      FlushStep s (.moves .flush)
        { s with flushes := s.flushes.set f ((c.holding rest).at (.draining v)) }
  | awaitDone {f : Nat} {c : FlushCall} (hcall : s.flushes[f]? = some c)
      (hphase : c.phase = .awaiting) (hdone : s.resolver = .exited) :
      FlushStep s (.moves .flush)
        { s with flushes := s.flushes.set f (c.at (.returned (some .shutdown))) }
  | awaitCtx {f : Nat} {c : FlushCall} {text : String} (hcall : s.flushes[f]? = some c)
      (hphase : c.phase = .awaiting) (hctx : c.ctxErr = some text) :
      FlushStep s (.moves .flush)
        { s with flushes := s.flushes.set f (c.at (.returned (some (.context text)))) }
  | drained {f : Nat} {c : FlushCall} {v : Option BufferError} {b : ProducerBudget}
      (hcall : s.flushes[f]? = some c) (hphase : c.phase = .draining v)
      (hgrant : s.budget.waitDrained = .granted b) :
      FlushStep s (.moves .flush)
        { s with flushes := s.flushes.set f (c.at (.returned v)), budget := b }
  | park {f ch : Nat} {c : FlushCall} {v : Option BufferError} {b : ProducerBudget}
      (hcall : s.flushes[f]? = some c) (hphase : c.phase = .draining v)
      (hwait : s.budget.waitDrained = .wait b ch) :
      FlushStep s (.moves .flush)
        { s with flushes := s.flushes.set f (c.at (.parked v ch)), budget := b }
  | wake {f ch : Nat} {c : FlushCall} {v : Option BufferError} (hcall : s.flushes[f]? = some c)
      (hphase : c.phase = .parked v ch) (hclosed : ch ∈ s.budget.closed) :
      FlushStep s (.moves .flush) { s with flushes := s.flushes.set f (c.at (.draining v)) }
  | parkedCtx {f ch : Nat} {c : FlushCall} {v : Option BufferError} {text : String}
      (hcall : s.flushes[f]? = some c) (hphase : c.phase = .parked v ch)
      (hctx : c.ctxErr = some text) :
      FlushStep s (.moves .flush)
        { s with flushes := s.flushes.set f (c.at (.returned (some (.context text)))) }
  | parkedShutdown {f ch : Nat} {c : FlushCall} {v : Option BufferError}
      (hcall : s.flushes[f]? = some c) (hphase : c.phase = .parked v ch)
      (hshutdown : s.shutdown = true) :
      FlushStep s (.moves .flush)
        { s with flushes := s.flushes.set f (c.at (.returned (some .shutdown))) }

/-- The first `Close` call; `closeOnce` makes every other one wait for it. -/
inductive CloseStep (s : State) : Label → State → Prop
  | begin (hphase : s.close = .notCalled) :
      CloseStep s .call
        { s with close := .flushing s.flushes.length, flushes := s.flushes ++ [s.newFlush] }
  | flushed {f : Nat} {c : FlushCall} {err : Option BufferError} (hphase : s.close = .flushing f)
      (hcall : s.flushes[f]? = some c) (hreturned : c.phase = .returned err) :
      CloseStep s (.moves .close) { s with close := .closing f err }
  | closeAppendCh {f : Nat} {err : Option BufferError} (hphase : s.close = .closing f err) :
      CloseStep s .closesAppendCh
        { s with close := .waiting f err dones, appendCh := { s.appendCh with closed := true } }
  | wait {f : Nat} {err : Option BufferError} {d : DoneChannel} {left : List DoneChannel}
      (hphase : s.close = .waiting f err (d :: left)) (hdone : s.doneClosed d) :
      CloseStep s (.moves .close) { s with close := .waiting f err left }
  | expired {f : Nat} {err : Option BufferError} {d : DoneChannel} {left : List DoneChannel}
      {c : FlushCall} {text : String} (hphase : s.close = .waiting f err (d :: left))
      (hcall : s.flushes[f]? = some c) (hctx : c.ctxErr = some text) :
      CloseStep s (.moves .close) { s with close := .forcing f (.context text) }
  | force {f : Nat} {err : BufferError} (hphase : s.close = .forcing f err) :
      CloseStep s (.moves .close) { s with close := .returned f (some err), shutdown := true }
  | finish {f : Nat} {err : Option BufferError} (hphase : s.close = .waiting f err []) :
      CloseStep s (.moves .close) { s with close := .returned f err }

end OpenDataBuffer
