import OpenDataBuffer.LedgerView

/-!
# The producer refines the ledger

Every step of the producer is a step of the ledger or leaves it alone
(`ProducerStep.refines`).  The hand-overs inside the pipeline are of the second
kind: whatever one side gives up the other side holds.  The only fact about
the whole state that this needs is that no two batches in flight have the same
ordinal, so that the committer's map overwrites nothing; that is itself a law
of the ledger, and both go through one induction (`reachable_conserved`).
-/

namespace OpenDataBuffer

open ListUpdate LabelledRuns

/-- A step that the ledger allows or does not see. -/
def Refines (s t : State) : Prop := t.ledger = s.ledger ∨ LedgerStep s.ledger t.ledger

variable {p : Producer} {s t : State} {l : Label}

theorem LedgerStep.of_eq {L L₁ L₂ : Ledger} (h : LedgerStep L L₁) (heq : L₂ = L₁) :
    LedgerStep L L₂ := heq ▸ h

/-! ## Calls -/

/-- A call that moves and holds what it held. -/
theorem heldBy_set {appends : List AppendCall} {i : Nat} {c c' : AppendCall}
    (hcall : appends[i]? = some c) (hheld : c'.phase.held = c.phase.held) :
    heldBy (appends.set i c') = heldBy appends :=
  sum_map_set_eq _ hcall hheld

/-- A call gets its bytes, and holds a message. -/
theorem heldBy_gain {appends : List AppendCall} {i : Nat} {c : AppendCall} (msg : AppendMessage)
    (hcall : appends[i]? = some c) (hheld : c.phase.held = 0) :
    heldBy (appends.set i (c.at (.sending msg))) = msg ::ₘ heldBy appends := by
  obtain ⟨rest, hsum, hset⟩ := sum_map_set (fun c : AppendCall => c.phase.held) hcall
  rw [heldBy, hset, heldBy, hsum, hheld, zero_add]
  exact Multiset.singleton_add msg rest

/-- A call hands its message on. -/
theorem heldBy_lose {appends : List AppendCall} {i : Nat} {c : AppendCall} {msg : AppendMessage}
    (phase : AppendPhase) (hcall : appends[i]? = some c) (hheld : c.phase.held = {msg})
    (hphase : phase.held = 0) :
    heldBy appends = msg ::ₘ heldBy (appends.set i (c.at phase)) := by
  obtain ⟨rest, hsum, hset⟩ := sum_map_set (fun c : AppendCall => c.phase.held) hcall
  have hat : (c.at phase).phase.held = 0 := hphase
  rw [heldBy, hsum, heldBy, hset, hheld, hat, zero_add]
  exact Multiset.singleton_add msg rest

/-- Calls move and channels of the budget change hands; custody does not. -/
theorem ledger_calls {X : List AppendCall} {b : ProducerBudget}
    (hheld : heldBy X = heldBy s.appends) (hb : ProducerBudget.SameCounters s.budget b) :
    ({ s with appends := X, budget := b } : State).ledger = s.ledger := by
  show { s.ledger with
    held := heldBy X, bytesUsed := b.bytesUsed, batchesUsed := b.batchesUsed
    maxBytes := b.maxBytes, maxBatches := b.maxBatches } = s.ledger
  rw [hheld, hb.bytes, hb.batches, hb.maxBytes, hb.maxBatches]
  rfl

/-- The ledger sees of the calls only what they hold. -/
theorem ledger_appends {X : List AppendCall} (hheld : heldBy X = heldBy s.appends) :
    ({ s with appends := X } : State).ledger = s.ledger :=
  ledger_calls hheld (ProducerBudget.sameCounters_refl _)

/-- The entry check holds nothing. -/
theorem appendEntry_held (halted : Bool) (entries : List Bytes) :
    (appendEntry halted entries).held = 0 := by
  unfold appendEntry
  split
  · rfl
  · split <;> rfl

/-- A step of a call is a step of the ledger, or none. -/
theorem AppendStep.refines (h : AppendStep p s l t) : Refines s t := by
  cases h with
  | begin entries metadata =>
      refine Or.inl (ledger_appends ?_)
      simp [heldBy, AppendPhase.held]
  | ctxDone text hcall hctx => exact Or.inl (ledger_appends (heldBy_set hcall rfl))
  | check hcall hphase =>
      refine Or.inl (ledger_appends (heldBy_set hcall ?_))
      rw [hphase]
      exact appendEntry_held _ _
  | @reserve i c b msg hcall hphase hgrant hmsg =>
      obtain ⟨hroom, rfl⟩ := ProducerBudget.reserveBytes_granted hgrant
      have hcost : msg.byteCost = appendByteCost c.entries c.metadata := by
        rw [msg.byteCost_eq, hmsg.entries, hmsg.metadata]
      have hheld := heldBy_gain msg hcall (by rw [hphase]; rfl)
      rw [← hcost] at hroom
      refine Or.inr ((LedgerStep.reserve msg hroom).of_eq ?_)
      show { s.ledger with
        held := heldBy (s.appends.set i (c.at (.sending msg)))
        bytesUsed := s.budget.bytesUsed + appendByteCost c.entries c.metadata } = _
      rw [hheld, hcost]
      rfl
  | park hcall hphase hwait =>
      obtain ⟨_, _, rfl, _⟩ := ProducerBudget.reserveBytes_wait hwait
      exact Or.inl (ledger_calls (heldBy_set hcall (by rw [hphase]; rfl))
        (ProducerBudget.sameCounters_ensureWaiter _))
  | wake hcall hphase hclosed =>
      exact Or.inl (ledger_appends (heldBy_set hcall (by rw [hphase]; rfl)))
  | parkedCtx hcall hphase hctx =>
      exact Or.inl (ledger_appends (heldBy_set hcall (by rw [hphase]; rfl)))
  | parkedShutdown hcall hphase hshutdown =>
      exact Or.inl (ledger_appends (heldBy_set hcall (by rw [hphase]; rfl)))
  | send hcall hphase hopen hroom =>
      exact Or.inr (LedgerStep.accept (heldBy_lose _ hcall (by rw [hphase]; rfl) rfl))
  | sendClosed hcall hphase hclosed => exact Or.inl rfl
  | finish hcall hphase =>
      exact Or.inl (ledger_appends (heldBy_set hcall (by rw [hphase]; rfl)))
  | sendCtx hcall hphase hctx =>
      exact Or.inl (ledger_appends (heldBy_set hcall (by rw [hphase]; rfl)))
  | sendDone hcall hphase hdone =>
      exact Or.inl (ledger_appends (heldBy_set hcall (by rw [hphase]; rfl)))
  | @abort i c msg err hcall hphase =>
      have hheld := heldBy_lose (.returned (some err)) hcall (by rw [hphase]; rfl) rfl
      refine Or.inr ((LedgerStep.cancel hheld).of_eq ?_)
      show { s.ledger with
        held := heldBy (s.appends.set i (c.at (.returned (some err))))
        bytesUsed := (s.budget.release msg.byteCost 0).bytesUsed
        batchesUsed := (s.budget.release msg.byteCost 0).batchesUsed
        maxBytes := (s.budget.release msg.byteCost 0).maxBytes
        maxBatches := (s.budget.release msg.byteCost 0).maxBatches } = _
      rw [ProducerBudget.release_bytesUsed, ProducerBudget.release_batchesUsed,
        ProducerBudget.release_maxBytes, ProducerBudget.release_maxBatches]
      rfl

/-- A flush call keeps when it began. -/
theorem begun_set {flushes : List FlushCall} {f : Nat} {c : FlushCall} (c' : FlushCall)
    (hcall : flushes[f]? = some c) (hbegun : c'.begun = c.begun) :
    (flushes.set f c').map FlushCall.begun = flushes.map FlushCall.begun := by
  apply List.ext_getElem?
  intro j
  rw [List.getElem?_map, List.getElem?_map]
  by_cases hj : f = j
  · subst hj
    rw [getElem?_set_same hcall, hcall]
    simp [hbegun]
  · rw [List.getElem?_set_ne hj]

/-- The ledger sees of the flush calls only when they began. -/
theorem ledger_flushes {X : List FlushCall} {b : ProducerBudget}
    (hbegun : X.map FlushCall.begun = s.flushes.map FlushCall.begun)
    (hb : ProducerBudget.SameCounters s.budget b) :
    ({ s with flushes := X, budget := b } : State).ledger = s.ledger := by
  show { s.ledger with
    begun := X.map FlushCall.begun, bytesUsed := b.bytesUsed, batchesUsed := b.batchesUsed
    maxBytes := b.maxBytes, maxBatches := b.maxBatches } = s.ledger
  rw [hbegun, hb.bytes, hb.batches, hb.maxBytes, hb.maxBatches]
  rfl

/-- A flush call moves; custody does not. -/
theorem ledger_flush_set {f : Nat} {c c' : FlushCall} (hcall : s.flushes[f]? = some c)
    (hbegun : c'.begun = c.begun) :
    ({ s with flushes := s.flushes.set f c' } : State).ledger = s.ledger :=
  ledger_flushes (begun_set c' hcall hbegun) (ProducerBudget.sameCounters_refl _)

/-- A flush call begins: the ledger notes how much was accepted. -/
theorem ledger_newFlush :
    ({ s with flushes := s.flushes ++ [s.newFlush] } : State).ledger =
      { s.ledger with begun := s.ledger.begun ++ [s.ledger.accepted.length] } := by
  show { s.ledger with begun := (s.flushes ++ [s.newFlush]).map FlushCall.begun } = _
  rw [List.map_append]
  rfl

theorem FlushStep.refines (h : FlushStep s l t) : Refines s t := by
  cases h with
  | begin => exact Or.inr (LedgerStep.begin.of_eq ledger_newFlush)
  | ctxDone text hcall hctx => exact Or.inl (ledger_flush_set hcall rfl)
  | requestDone hcall hphase hdone => exact Or.inl (ledger_flush_set hcall rfl)
  | requestCtx hcall hphase hctx => exact Or.inl (ledger_flush_set hcall rfl)
  | receiveAck hcall hphase hresult => exact Or.inl (ledger_flush_set hcall rfl)
  | awaitDone hcall hphase hdone => exact Or.inl (ledger_flush_set hcall rfl)
  | awaitCtx hcall hphase hctx => exact Or.inl (ledger_flush_set hcall rfl)
  | drained hcall hphase hgrant =>
      obtain ⟨_, rfl⟩ := ProducerBudget.waitDrained_granted hgrant
      exact Or.inl (ledger_flush_set hcall rfl)
  | park hcall hphase hwait =>
      obtain ⟨_, hsame, _⟩ := ProducerBudget.waitDrained_wait hwait
      exact Or.inl (ledger_flushes (begun_set _ hcall rfl) hsame)
  | wake hcall hphase hclosed => exact Or.inl (ledger_flush_set hcall rfl)
  | parkedCtx hcall hphase hctx => exact Or.inl (ledger_flush_set hcall rfl)
  | parkedShutdown hcall hphase hshutdown => exact Or.inl (ledger_flush_set hcall rfl)

theorem CloseStep.refines (h : CloseStep s l t) : Refines s t := by
  cases h with
  | begin hphase => exact Or.inr (LedgerStep.begin.of_eq ledger_newFlush)
  | flushed hphase hcall hreturned => exact Or.inl rfl
  | closeAppendCh hphase => exact Or.inl rfl
  | wait hphase hdone => exact Or.inl rfl
  | expired hphase hcall hctx => exact Or.inl rfl
  | force hphase => exact Or.inl rfl
  | finish hphase => exact Or.inl rfl

/-! ## The rotator -/

theorem quiet_selecting : Quiet .selecting none none := ⟨rfl, rfl, rfl, rfl, rfl, rfl⟩

/-- Between quiet points of `emit` only the accumulator can change. -/
theorem ledger_quiet {r : Rotator} {ack refusal : Option Nat}
    (hold : Quiet s.rotator.phase ack refusal) (hnew : Quiet r.phase ack refusal)
    (hordinal : r.ordinal = s.rotator.ordinal) :
    ({ s with rotator := r } : State).ledger = { s.ledger with opened := r.batch.msgs } := by
  simp only [State.ledger, State.flight, State.upstream, State.settling, hordinal, hold.slot,
    hold.serving, hold.refusing, hold.drained, hold.dropLeft, hold.flight, hnew.slot,
    hnew.serving, hnew.refusing, hnew.drained, hnew.dropLeft, hnew.flight]

/-- The rotator moves between quiet points with its accumulator unchanged. -/
theorem ledger_quiet_at {phase : RotatorPhase} {ack refusal : Option Nat}
    (hold : Quiet s.rotator.phase ack refusal) (hnew : Quiet phase ack refusal) :
    ({ s with rotator := s.rotator.at phase } : State).ledger = s.ledger :=
  ledger_quiet hold hnew rfl

/-- The rotator takes a message out of the queue. -/
theorem refines_take {phase : RotatorPhase} {msg : AppendMessage} {rest : List AppendMessage}
    (hqueue : s.appendCh.queue = msg :: rest)
    (hledger : ({ s with rotator := s.rotator.add msg phase } : State).ledger =
      { s.ledger with opened := s.ledger.opened ++ [msg] }) :
    Refines s { s with
      appendCh := { s.appendCh with queue := rest }, rotator := s.rotator.add msg phase } :=
  Or.inr ((LedgerStep.take hqueue).of_eq
    (congrArg (fun L : Ledger => { L with queue := rest }) hledger))

/-- The rotator takes a message from a call that stands at its send. -/
theorem refines_handoff {phase : RotatorPhase} {i : Nat} {c : AppendCall} {msg : AppendMessage}
    (hqueue : s.appendCh.queue = []) (hcall : s.appends[i]? = some c)
    (hsend : c.phase = .sending msg)
    (hledger : ({ s with rotator := s.rotator.add msg phase } : State).ledger =
      { s.ledger with opened := s.ledger.opened ++ [msg] }) :
    Refines s { s with
      appends := s.appends.set i (c.at .accepted), rotator := s.rotator.add msg phase
      hist := { s.hist with accepted := s.hist.accepted ++ [msg] } } := by
  have hheld := heldBy_lose .accepted hcall (by rw [hsend]; rfl) rfl
  exact Or.inr ((LedgerStep.handoff hheld hqueue).of_eq
    (congrArg (fun L : Ledger => { L with
      held := heldBy (s.appends.set i (c.at .accepted))
      accepted := s.hist.accepted ++ [msg] }) hledger))

/-- A state with the point of the rotator's code spelled out: what the ledger
shows of it then holds by definition. -/
theorem State.eq_at {phase : RotatorPhase} (hphase : s.rotator.phase = phase) :
    s = { s with rotator := s.rotator.at phase } := by
  cases hphase
  rfl

/-- The rotator's acknowledgement of a request it did not put on a batch. -/
theorem refines_rotatorAck {reason : FlushReason} {f : Nat} {err : Option BufferError}
    {c : FlushCall} (hc : Coherent s) (hphase : s.rotator.phase = .acking reason f err)
    (hcall : s.flushes[f]? = some c) :
    Refines s { s with
      flushes := s.flushes.set f (c.holding [err]), rotator := s.rotator.at (afterEmit reason)
      hist := { s.hist with acked := s.hist.acked ++ [(f, err)] } } := by
  have hcoh := hc.rotator
  rw [hphase] at hcoh
  obtain ⟨hopened, herr⟩ := hcoh
  have hquiet := quiet_afterEmit reason
  have hbegun := begun_set (c.holding [err]) hcall rfl
  rw [State.eq_at hphase]
  have hledger : ({ s with
      flushes := s.flushes.set f (c.holding [err]), rotator := s.rotator.at (afterEmit reason)
      hist := { s.hist with acked := s.hist.acked ++ [(f, err)] } } : State).ledger =
      { ({ s with rotator := s.rotator.at (.acking reason f err) } : State).ledger with
        serving := none, refusing := none, acked := s.hist.acked ++ [(f, err)] } := by
    simp only [State.ledger, State.flight, State.upstream, Rotator.at, hbegun, hquiet.slot,
      hquiet.serving, hquiet.refusing, hquiet.drained, hquiet.dropLeft, hquiet.flight]
    rfl
  rcases herr with rfl | rfl
  · exact Or.inr ((LedgerStep.ackEmpty rfl hopened rfl rfl).of_eq hledger)
  · exact Or.inr ((LedgerStep.ackDropped rfl).of_eq hledger)

/-- A step of the rotator is a step of the ledger, or none. -/
theorem RotatorStep.refines (hc : Coherent s) (h : RotatorStep p s l t) : Refines s t := by
  cases h with
  | receive hphase hqueue =>
      have hold : Quiet s.rotator.phase none none := by rw [hphase]; exact quiet_selecting
      exact refines_take hqueue (ledger_quiet hold (quiet_afterAdd p _) rfl)
  | handoff hphase hcap hqueue hopen hcall hsend =>
      have hold : Quiet s.rotator.phase none none := by rw [hphase]; exact quiet_selecting
      exact refines_handoff hqueue hcall hsend (ledger_quiet hold (quiet_afterAdd p _) rfl)
  | receiveClosed hphase hqueue hclosed =>
      have hold : Quiet s.rotator.phase none none := by rw [hphase]; exact quiet_selecting
      exact Or.inl (ledger_quiet_at hold (quiet_emit _ _ _))
  | @takeFlush f c hphase hcall hrequest =>
      have hf : f < (s.flushes.map FlushCall.begun).length := by
        rw [List.length_map]
        exact (List.getElem?_eq_some_iff.mp hcall).1
      rw [State.eq_at hphase]
      refine Or.inr ((LedgerStep.request f rfl hf rfl).of_eq ?_)
      simp only [State.ledger, begun_set (c.at .awaiting) hcall rfl]
      rfl
  | drainReceive hphase hqueue =>
      rw [State.eq_at hphase]
      exact refines_take hqueue rfl
  | drainHandoff hphase hcap hqueue hopen hcall hsend =>
      rw [State.eq_at hphase]
      exact refines_handoff hqueue hcall hsend rfl
  | @drainDone f hphase hqueue =>
      have hnew := quiet_emit .manual (some f) s.rotator.batch
      rw [State.eq_at hphase]
      refine Or.inr ((LedgerStep.drain hqueue).of_eq ?_)
      simp only [State.ledger, State.flight, State.upstream, Rotator.at, hnew.slot, hnew.serving,
        hnew.refusing, hnew.drained, hnew.dropLeft, hnew.flight]
      rfl
  | timer hphase hstarted =>
      have hold : Quiet s.rotator.phase none none := by rw [hphase]; exact quiet_selecting
      exact Or.inl (ledger_quiet_at hold (quiet_emit _ _ _))
  | acquire hphase hgrant =>
      obtain ⟨hroom, rfl⟩ := ProducerBudget.acquireBatchSlot_granted hgrant
      rw [State.eq_at hphase]
      exact Or.inr (LedgerStep.acquire hroom rfl)
  | @park reason ack b ch hphase hwait =>
      obtain ⟨_, rfl, _⟩ := ProducerBudget.acquireBatchSlot_wait hwait
      have hb := ProducerBudget.sameCounters_ensureWaiter s.budget
      rw [State.eq_at hphase]
      exact Or.inl (ledger_calls (s := { s with rotator := s.rotator.at (.parked reason ack ch) })
        rfl hb)
  | @wake reason ack ch hphase hclosed =>
      have hold : Quiet s.rotator.phase ack none := by
        rw [hphase]
        exact ⟨rfl, rfl, rfl, rfl, rfl, rfl⟩
      exact Or.inl (ledger_quiet_at hold ⟨rfl, rfl, rfl, rfl, rfl, rfl⟩)
  | @refused reason ack ch hphase hshutdown =>
      have hold : Quiet s.rotator.phase ack none := by
        rw [hphase]
        exact ⟨rfl, rfl, rfl, rfl, rfl, rfl⟩
      exact Or.inl (ledger_quiet_at hold ⟨rfl, rfl, rfl, rfl, rfl, rfl⟩)
  | drop hphase =>
      have hcost : s.rotator.batch.acc.byteCost =
          (s.rotator.batch.msgs.map AppendMessage.byteCost).sum := by
        rw [s.rotator.batch.made, accumulate_byteCost]
      have hwatch : s.rotator.batch.acc.watchers =
          s.rotator.batch.msgs.map AppendMessage.watcher := by
        rw [s.rotator.batch.made, accumulate_watchers]
      rw [State.eq_at hphase]
      refine Or.inr ((LedgerStep.drop rfl rfl rfl).of_eq ?_)
      simp only [State.ledger, Rotator.at, ProducerBudget.release_bytesUsed,
        ProducerBudget.release_batchesUsed, ProducerBudget.release_maxBytes,
        ProducerBudget.release_maxBatches, hcost, hwatch]
      rfl
  | dropResolve hphase =>
      rw [State.eq_at hphase]
      exact Or.inr (LedgerStep.dropResolve rfl)
  | @dropDone reason ack hphase =>
      have hold : Quiet s.rotator.phase none ack := by
        rw [hphase]
        exact ⟨rfl, rfl, rfl, rfl, rfl, rfl⟩
      exact Or.inl (ledger_quiet_at hold (quiet_afterDrop _ _))
  | ack hphase hcall hroom => exact refines_rotatorAck hc hphase hcall
  | @reconcile reason ack hphase =>
      have hentries : s.rotator.batch.acc.entries =
          (s.rotator.batch.batch s.rotator.ordinal reason ack).entriesOf := by
        rw [s.rotator.batch.made, accumulate_entries]
        rfl
      rw [State.eq_at hphase]
      refine Or.inr ((LedgerStep.emit (s.rotator.batch.batch s.rotator.ordinal reason ack) rfl
        rfl rfl rfl rfl rfl).of_eq ?_)
      simp only [State.ledger, State.flight, State.upstream, Rotator.at, RotatorPhase.flight,
        OpenBatch.pending, ProducerBudget.addReservation_bytesUsed,
        ProducerBudget.addReservation_batchesUsed, ProducerBudget.addReservation_maxBytes,
        ProducerBudget.addReservation_maxBatches, hentries, zero_add, add_assoc,
        ← Multiset.singleton_add]
      rfl
  | sendClosed hphase hclosed => exact Or.inl rfl
  | closePending hphase =>
      have hold : Quiet s.rotator.phase none none := by
        rw [hphase]
        exact ⟨rfl, rfl, rfl, rfl, rfl, rfl⟩
      exact Or.inl (ledger_quiet_at hold ⟨rfl, rfl, rfl, rfl, rfl, rfl⟩)
  | closeDone hphase =>
      have hold : Quiet s.rotator.phase none none := by
        rw [hphase]
        exact ⟨rfl, rfl, rfl, rfl, rfl, rfl⟩
      exact Or.inl (ledger_quiet_at hold ⟨rfl, rfl, rfl, rfl, rfl, rfl⟩)

/-! ## The pools -/

/-- Batches change places inside the pipeline; custody does not change. -/
theorem ledger_of_flight (hflight : t.flight = s.flight)
    (hrest : t.ledger = { s.ledger with flight := t.flight }) : t.ledger = s.ledger := by
  rw [hrest, hflight]
  rfl

/-- An encoder moves on with the batch it has. -/
theorem flight_encoder {i : Nat} {e e' : EncoderPhase} (henc : s.encoders[i]? = some e)
    (hsame : e'.flight = e.flight) :
    ({ s with encoders := s.encoders.set i e' } : State).flight = s.flight := by
  simp only [State.flight, State.upstream, sum_map_set_eq EncoderPhase.flight henc hsame]

/-- An uploader moves on with the batch it has. -/
theorem flight_uploader {j : Nat} {u u' : UploaderPhase} (hup : s.uploaders[j]? = some u)
    (hsame : u'.flight = u.flight) :
    ({ s with uploaders := s.uploaders.set j u' } : State).flight = s.flight := by
  simp only [State.flight, State.upstream, sum_map_set_eq UploaderPhase.flight hup hsame]

theorem EncoderStep.refines (h : EncoderStep p s l t) : Refines s t := by
  cases h with
  | @take i pb henc hsend =>
      obtain ⟨rest, hsum, hset⟩ := sum_map_set EncoderPhase.flight henc
      have hquiet := quiet_afterEmit pb.reason
      rw [State.eq_at hsend]
      refine Or.inl (ledger_of_flight ?_ ?_)
      · simp only [State.flight, State.upstream, Rotator.at, hset, hsum, hquiet.flight]
        simp only [EncoderPhase.flight, RotatorPhase.flight, zero_add, add_assoc]
      · simp only [State.ledger, Rotator.at, hquiet.slot, hquiet.serving, hquiet.refusing,
          hquiet.drained, hquiet.dropLeft]
        rfl
  | exit henc hclosed => exact Or.inl (ledger_of_flight (flight_encoder henc rfl) rfl)
  | encoded henc hok => exact Or.inl (ledger_of_flight (flight_encoder henc rfl) rfl)
  | encodeFails err henc => exact Or.inl (ledger_of_flight (flight_encoder henc rfl) rfl)
  | @complete i uc henc hopen hroom =>
      obtain ⟨rest, hsum, hset⟩ := sum_map_set EncoderPhase.flight henc
      refine Or.inl (ledger_of_flight ?_ rfl)
      simp only [State.flight, State.upstream, hset, hsum, EncoderPhase.flight, batchesOf_append,
        batchesOf_cons, batchesOf_nil, ← Multiset.singleton_add]
      abel
  | completeClosed henc hclosed => exact Or.inl rfl
  | sendClosed henc hclosed => exact Or.inl rfl
  | closeEncoded hpool hall => exact Or.inl rfl
  | closePoolDone hpool => exact Or.inl rfl

/-- A batch whose upload failed is still in flight. -/
theorem afterPutError_flight (eb : EncodedBatch) (attempt : Nat) (err : StoreError) :
    (p.afterPutError eb attempt err).flight = {eb.toBatch} := by
  unfold Producer.afterPutError
  split <;> rfl

/-- A batch that an uploader works on stays in flight. -/
theorem UploaderStep.refines (h : UploaderStep p s l t) : Refines s t := by
  cases h with
  | @take i j eb henc hup hopen =>
      obtain ⟨rest, hsum, hset⟩ := sum_map_set EncoderPhase.flight henc
      obtain ⟨rest', hsum', hset'⟩ := sum_map_set UploaderPhase.flight hup
      refine Or.inl (ledger_of_flight ?_ rfl)
      simp only [State.flight, State.upstream, hset, hsum, hset', hsum', EncoderPhase.flight,
        UploaderPhase.flight]
      abel
  | exit hup hclosed => exact Or.inl (ledger_of_flight (flight_uploader hup rfl) rfl)
  | putApplies version hup hnames =>
      exact Or.inl (ledger_of_flight (flight_uploader hup rfl) rfl)
  | putOk hup => exact Or.inl (ledger_of_flight (flight_uploader hup rfl) rfl)
  | putFails err hup =>
      exact Or.inl (ledger_of_flight (flight_uploader hup (afterPutError_flight _ _ _)) rfl)
  | retry hup => exact Or.inl (ledger_of_flight (flight_uploader hup rfl) rfl)
  | abandon hup hshutdown => exact Or.inl (ledger_of_flight (flight_uploader hup rfl) rfl)
  | @complete j uc hup hopen hroom =>
      obtain ⟨rest, hsum, hset⟩ := sum_map_set UploaderPhase.flight hup
      refine Or.inl (ledger_of_flight ?_ rfl)
      simp only [State.flight, State.upstream, hset, hsum, UploaderPhase.flight, batchesOf_append,
        batchesOf_cons, batchesOf_nil, ← Multiset.singleton_add]
      abel
  | completeClosed hup hclosed => exact Or.inl rfl
  | closeCompletions hpool hall => exact Or.inl rfl
  | closePoolDone hpool => exact Or.inl rfl

/-! ## The committer and the resolver -/

/-- No two batches in flight have the same ordinal. -/
def Distinct (s : State) : Prop := (s.flight.map Batch.ordinal).Nodup

/-- The ordinals of completions are those of their batches. -/
theorem coe_ordinalsOf (ucs : List UploadCompletion) :
    (batchesOf ucs).map Batch.ordinal = ↑(ordinalsOf ucs) := by
  rw [batchesOf, Multiset.map_coe, List.map_map]
  rfl

/-- Completions that are all in flight have different ordinals. -/
theorem Distinct.nodup (h : Distinct s) {ucs : List UploadCompletion} (rest : Multiset Batch)
    (hflight : s.flight = batchesOf ucs + rest) : (ordinalsOf ucs).Nodup := by
  have hle : (batchesOf ucs).map Batch.ordinal ≤ s.flight.map Batch.ordinal := by
    rw [hflight]
    exact Multiset.map_le_map (Multiset.le_add_right _ _)
  rw [coe_ordinalsOf] at hle
  exact Multiset.coe_nodup.mp (Multiset.nodup_of_le hle h)

/-- No ordinal is in the map twice. -/
theorem Distinct.ready_nodup (h : Distinct s) : (ordinalsOf s.committer.ready).Nodup := by
  refine h.nodup (s.upstream + s.committer.phase.inHand) ?_
  rw [State.flight]
  abel

/-- A completion that arrives is new to the map. -/
theorem Distinct.not_mem_ready (h : Distinct s) {uc : UploadCompletion}
    {rest : List UploadCompletion} (hqueue : s.uploadCompletionCh.queue = uc :: rest) :
    uc.eb.ordinal ∉ ordinalsOf s.committer.ready := by
  have hnodup : (ordinalsOf (uc :: s.committer.ready)).Nodup := by
    refine h.nodup (s.rotator.phase.flight + ((s.encoders.map EncoderPhase.flight).sum +
      ((s.uploaders.map UploaderPhase.flight).sum + batchesOf rest)) +
      s.committer.phase.inHand) ?_
    simp only [State.flight, State.upstream, hqueue, batchesOf_cons, ← Multiset.singleton_add]
    abel
  exact (List.nodup_cons.mp hnodup).1

/-- The committer moves on with the batches it has. -/
theorem refines_committer {phase : CommitterPhase}
    (hinHand : phase.inHand = s.committer.phase.inHand) :
    Refines s { s with committer := s.committer.at phase } := by
  refine Or.inl (ledger_of_flight ?_ rfl)
  simp only [State.flight, State.upstream, Committer.at, hinHand]

theorem inHand_afterDrain (closed : Bool) : (afterDrain closed).inHand = 0 := by
  unfold afterDrain
  split <;> rfl

theorem inHand_afterResolve (closed : Bool) (after : AfterResolve) :
    (afterResolve closed after).inHand = 0 := by
  cases after with
  | drainAgain => rfl
  | drainDone => exact inHand_afterDrain closed
  | nextCompletion => rfl

theorem inHand_afterCollect (closed : Bool) (c : Collected) :
    (p.afterCollect closed c).inHand = batchesOf c.group + handedBatches c.failed := by
  unfold Producer.afterCollect
  by_cases hgroup : c.group = []
  · rw [if_pos hgroup, hgroup]
    by_cases hfailed : c.failed = []
    · rw [if_pos hfailed, hfailed, inHand_afterDrain]
      rfl
    · rw [if_neg hfailed]
      simp [CommitterPhase.inHand]
  · rw [if_neg hgroup]
    rfl

/-- The outcomes of a write are those of the group and of the failed ordinals. -/
theorem handedBatches_settled (group : List UploadCompletion) (failed : List PendingResolution)
    (err : Option BufferError) :
    handedBatches (settled group failed err) = batchesOf group + handedBatches failed := by
  rw [settled, handedBatches, List.map_append, List.map_map, ← Multiset.coe_add]
  rfl

/-- The outcomes of a halt are those of all that the committer had. -/
theorem handedBatches_haltedAll (group swept : List UploadCompletion)
    (failed : List PendingResolution) :
    handedBatches (haltedAll group failed swept) =
      batchesOf group + (handedBatches failed + batchesOf swept) := by
  simp only [haltedAll, handedBatches, List.map_append, List.map_map, ← Multiset.coe_add]
  rfl

/-- A batch that the committer works on stays in flight until it is handed over. -/
theorem CommitterStep.refines (hd : Distinct s) (h : CommitterStep p s l t) : Refines s t := by
  cases h with
  | @receive uc rest hphase hhalted hqueue =>
      refine Or.inl (ledger_of_flight ?_ rfl)
      simp only [State.flight, State.upstream, hqueue, hphase, CommitterPhase.inHand,
        insertReady_of_not_mem (hd.not_mem_ready hqueue), batchesOf_cons, ← Multiset.singleton_add]
      abel
  | @receiveHalted uc rest hphase hhalted hqueue =>
      refine Or.inl (ledger_of_flight ?_ rfl)
      simp only [State.flight, State.upstream, hqueue, hphase, Committer.at,
        CommitterPhase.inHand, batchesOf_cons, handedBatches_cons, handedBatches_nil,
        ← Multiset.singleton_add, haltedResolution, PendingResolution.batch]
      abel
  | receiveClosed hphase hqueue hclosed =>
      refine Or.inl (ledger_of_flight ?_ rfl)
      have hnext :
          (if s.committer.halted then CommitterPhase.exited else .draining).inHand = 0 := by
        split <;> rfl
      have hnow : s.committer.phase.inHand = 0 := by rw [hphase]; rfl
      simp only [State.flight, State.upstream, hnext, hnow]
  | @gather uc rest hphase hqueue =>
      refine Or.inl (ledger_of_flight ?_ rfl)
      simp only [State.flight, State.upstream, hqueue,
        insertReady_of_not_mem (hd.not_mem_ready hqueue), batchesOf_cons, ← Multiset.singleton_add]
      abel
  | gatherDone hphase hqueue =>
      refine Or.inl (ledger_of_flight ?_ rfl)
      simp only [State.flight, State.upstream, hphase, CommitterPhase.inHand]
  | collect hphase =>
      obtain ⟨cut, hcut⟩ :=
        collect_cutOff p.batchSize s.committer.next s.committer.ready hd.ready_nodup
      refine Or.inl (ledger_of_flight ?_ rfl)
      have hnow : s.committer.phase.inHand = 0 := by rw [hphase]; rfl
      simp only [State.flight, State.upstream, hnow, inHand_afterCollect]
      rw [hcut.batches]
      abel
  | cas hphase hcas => exact refines_committer (by rw [hphase]; rfl)
  | @casApplies group failed call n obj version hphase hcall hmatch hnames =>
      have hmove : Refines s { s with committer := s.committer.at (.cas group failed
          { call with phase := .enqueueing (.writing n obj.data version true) }) } :=
        refines_committer (by rw [hphase]; rfl)
      exact hmove
  | settle hphase hcall herr =>
      refine refines_committer ?_
      rw [hphase]
      exact handedBatches_settled _ _ _
  | @halt group failed call err swept hphase hcall herr hswept =>
      have hready : batchesOf swept = batchesOf s.committer.ready :=
        Multiset.coe_eq_coe.mpr (hswept.map _)
      refine Or.inl (ledger_of_flight ?_ rfl)
      simp only [State.flight, State.upstream, hphase, CommitterPhase.inHand,
        handedBatches_haltedAll, hready, batchesOf_nil]
      abel
  | notify hphase => exact refines_committer (by rw [hphase]; rfl)
  | resolved hphase =>
      refine refines_committer ?_
      rw [hphase]
      exact inHand_afterResolve _ _
  | resolveClosed hphase hclosed => exact Or.inl rfl

/-- The resolver stands at a point at which it has an item. -/
theorem Coherent.settling (hc : Coherent s) (ri : ResolverItem)
    (hitem : s.resolver.item? = some ri) :
    ∃ pr, s.settling = some pr ∧ ri = pr.item := by
  obtain ⟨pr, hlast, hri⟩ := hc.resolver ri hitem
  refine ⟨pr, ?_, hri⟩
  simp only [State.settling, hitem, hlast]

/-- A state with the point of the resolver's code spelled out. -/
theorem State.eq_resolver {phase : ResolverPhase} (hphase : s.resolver = phase) :
    s = { s with resolver := phase } := by
  cases hphase
  rfl

theorem ResolverStep.refines (hc : Coherent s) (h : ResolverStep p s l t) : Refines s t := by
  cases h with
  | @take pr left after hphase hsend hopen =>
      have hflight : s.flight = pr.batch ::ₘ (s.upstream +
          (batchesOf s.committer.ready + handedBatches left)) := by
        simp only [State.flight, hsend, CommitterPhase.inHand, handedBatches_cons,
          ← Multiset.singleton_add]
        abel
      have hnone : s.settling = none := by simp only [State.settling, hphase, ResolverPhase.item?]
      refine Or.inr ((LedgerStep.hand hflight hnone).of_eq ?_)
      simp only [State.ledger, State.settling, ResolverPhase.item?, List.getLast?_append,
        List.getLast?_singleton, Option.some_or]
      rfl
  | observe hphase =>
      rw [State.eq_resolver hphase]
      exact Or.inl rfl
  | @resolve ri w left hphase =>
      obtain ⟨pr, hpr, rfl⟩ := hc.settling ri (by rw [hphase]; rfl)
      rw [State.eq_resolver hphase] at hpr ⊢
      exact Or.inr (LedgerStep.resolve hpr rfl)
  | @resolvedAll ri hphase =>
      rw [State.eq_resolver hphase]
      refine Or.inl ?_
      cases hack : ri.flushAck with
      | none =>
          simp only [afterWatchers, hack, State.ledger, State.settling, ResolverPhase.item?,
            ResolverPhase.left, ResolverPhase.ackDue]
          rfl
      | some f =>
          simp only [afterWatchers, hack]
          rfl
  | @ack ri f c hphase hack hcall hroom =>
      obtain ⟨pr, hpr, rfl⟩ := hc.settling ri (by rw [hphase]; rfl)
      rw [State.eq_resolver hphase] at hpr ⊢
      refine Or.inr ((LedgerStep.ack hpr rfl hack).of_eq ?_)
      simp only [State.ledger, begun_set (c.holding [pr.item.err]) hcall rfl]
      rfl
  | @release ri hphase =>
      obtain ⟨pr, hpr, rfl⟩ := hc.settling ri (by rw [hphase]; rfl)
      rw [State.eq_resolver hphase] at hpr ⊢
      refine Or.inr ((LedgerStep.release hpr rfl rfl).of_eq ?_)
      simp only [State.ledger, ProducerBudget.release_bytesUsed,
        ProducerBudget.release_batchesUsed, ProducerBudget.release_maxBytes,
        ProducerBudget.release_maxBatches]
      rfl
  | exit hphase hclosed =>
      rw [State.eq_resolver hphase]
      exact Or.inl rfl
  | closeResolver hdone hopen => exact Or.inl rfl

/-- **Refinement.**  Every step of the producer is a step of the ledger, or
leaves the ledger alone. -/
theorem ProducerStep.refines (hc : Coherent s) (hd : Distinct s) (h : ProducerStep p s l t) :
    Refines s t := by
  cases h with
  | append _ h => exact h.refines
  | flush _ h => exact h.refines
  | close _ h => exact h.refines
  | rotator _ h => exact h.refines hc
  | encoder _ h => exact h.refines
  | uploader _ h => exact h.refines
  | committer _ h => exact h.refines hd
  | resolver _ h => exact h.refines hc
  | others h => cases h <;> exact Or.inl rfl

/-! ## Whole runs -/

/-- Batches with a law of the ledger are told apart by their ordinals. -/
theorem Conserved.ordinals_nodup {L : Ledger} (h : Conserved L) :
    ((L.flight + handedBatches L.handed).map Batch.ordinal).Nodup := by
  rw [h.flight, Multiset.map_coe, h.numbered]
  exact Multiset.coe_nodup.mpr List.nodup_range

/-- A ledger that is conserved has each ordinal once. -/
theorem Conserved.distinct (h : Conserved s.ledger) : Distinct s :=
  Multiset.nodup_of_le (Multiset.map_le_map (Multiset.le_add_right _ _)) h.ordinals_nodup

/-- What every reachable state keeps about custody. -/
structure Custody (s : State) : Prop where
  coherent : Coherent s
  conserved : Conserved s.ledger

/-- **Every step of the producer is a step of the ledger, or none.** -/
theorem Custody.refines (h : Custody s) (hs : ProducerStep p s l t) : Refines s t :=
  hs.refines h.coherent h.conserved.distinct

/-- Custody is kept by every step. -/
theorem Custody.step (h : Custody s) (hs : ProducerStep p s l t) : Custody t := by
  refine ⟨h.coherent.step hs, ?_⟩
  rcases h.refines hs with heq | hstep
  · rw [heq]
    exact h.conserved
  · exact h.conserved.step hstep

/-- The records of the ledger grow with every step. -/
theorem Custody.grows (h : Custody s) (hs : ProducerStep p s l t) :
    Grows s.ledger t.ledger := by
  rcases h.refines hs with heq | hledger
  · rw [heq]
    exact Grows.refl _
  · exact hledger.grows

/-- An emitted batch stays emitted. -/
theorem emitted_mono (h : Custody s) (hs : ProducerStep p s l t) {b : Batch}
    (hb : b ∈ emittedOf s.hist.cuts) : b ∈ emittedOf t.hist.cuts :=
  (h.grows hs).emitted_subset hb

/-- A new producer holds nothing. -/
theorem flight_newProducer (store : ObjectStore) (items : List EnqueueItem) :
    (newProducer p store items).flight = 0 := by
  simp [newProducer, State.flight, State.upstream, RotatorPhase.flight, EncoderPhase.flight,
    UploaderPhase.flight, CommitterPhase.inHand]

theorem custody_newProducer (store : ObjectStore) (items : List EnqueueItem) :
    Custody (newProducer p store items) where
  coherent := ⟨trivial, fun ri hri => by cases hri⟩
  conserved :=
    { partition := rfl
      numbered := rfl
      flight := by
        show (newProducer p store items).flight + 0 = 0
        rw [flight_newProducer, add_zero]
      last := fun pr hpr => by cases hpr
      idle := fun _ => ⟨rfl, rfl⟩
      resolutions := ⟨0, 0, rfl, rfl, rfl⟩
      acks := by
        show (0 : Multiset Nat) + (0 + (0 + (acksOf (newProducer p store items).flight + 0))) = 0
        rw [flight_newProducer, acksOf_zero]
        rfl }

/-- A law of the ledger that every ledger step keeps holds along every run. -/
theorem ledger_invariant {allowed : State → Label → Prop} {P : Ledger → Prop}
    (hstep : ∀ L L', Conserved L → P L → LedgerStep L L' → P L') (hc : Custody s)
    (hinit : P s.ledger) (hrun : RunWhere p allowed s t) : Custody t ∧ P t.ledger := by
  refine hrun.invariant (P := fun x => Custody x ∧ P x.ledger) ⟨hc, hinit⟩ ?_
  intro x l y hx _ hs
  refine ⟨hx.1.step hs, ?_⟩
  rcases hx.1.refines hs with heq | hls
  · rw [heq]
    exact hx.2
  · exact hstep _ _ hx.1.conserved hx.2 hls

/-- **The conservation laws hold in every reachable state.** -/
theorem reachable_custody {allowed : State → Label → Prop} {store : ObjectStore}
    {items : List EnqueueItem} (hrun : RunWhere p allowed (newProducer p store items) s) :
    Custody s :=
  hrun.invariant (custody_newProducer store items) (fun _ _ _ h _ hs => h.step hs)

end OpenDataBuffer
