import OpenDataBuffer.CommitOrder
import OpenDataBuffer.Books

/-!
# The budget of a producer

The counters of the budget, read off the state of a producer: which messages
hold bytes, which batches hold a slot, what the caps bound, and that nothing is
held once everything has ended.
-/

namespace OpenDataBuffer

/-- The emitted batches whose slot and bytes are not released. -/
def State.unreleased (s : State) : Multiset Batch :=
  s.flight + optionally (s.settling.map PendingResolution.batch)

/-- The messages whose bytes are reserved and not released: of calls that have
not sent, in `appendCh`, in the accumulator, and in batches. -/
def State.reserved (s : State) : Multiset AppendMessage :=
  heldBy s.appends + (↑(s.appendCh.queue ++ s.rotator.batch.msgs) + messagesOf s.unreleased)

/-- The rotator holds a slot for a batch that it has not emitted. -/
def State.slotHeld (s : State) : Nat := if s.rotator.phase.slot then 1 else 0

/-- No call of `release` or `addReservation` that can come next goes below
zero. -/
structure State.ClampsIdle (s : State) : Prop where
  bytes : 0 ≤ s.budget.bytesUsed
  batches : 0 ≤ s.budget.batchesUsed
  abort : ∀ (i : Nat) (c : AppendCall) (msg : AppendMessage) (err : BufferError),
    s.appends[i]? = some c → c.phase = .aborting msg err → msg.byteCost ≤ s.budget.bytesUsed
  drop : ∀ reason ack, s.rotator.phase = .dropping reason ack →
    s.rotator.batch.acc.byteCost ≤ s.budget.bytesUsed
  reconcile : ∀ entries : Nat, 0 ≤ s.budget.bytesUsed + framingExtra entries
  release : ∀ ri, s.resolver = .releasing ri →
    ri.byteCost ≤ s.budget.bytesUsed ∧ 1 ≤ s.budget.batchesUsed

/-- All goroutines of the pipeline have exited. -/
def State.Ended (s : State) : Prop := ∀ d, s.doneClosed d

/-- No `AppendContext` call is in progress. -/
def State.NoAppends (s : State) : Prop := ∀ c ∈ s.appends, ∃ err, c.phase = .returned err

variable {p : Producer} {s t : State} {allowed : State → Label → Prop}

/-- No step changes the caps. -/
theorem LedgerStep.caps {L L' : Ledger} (h : LedgerStep L L') :
    L'.maxBytes = L.maxBytes ∧ L'.maxBatches = L.maxBatches := by
  cases h <;> exact ⟨rfl, rfl⟩

/-- The caps stay as configured. -/
theorem reachable_caps {store : ObjectStore} {items : List EnqueueItem}
    (hrun : RunWhere p allowed (newProducer p store items) s) :
    s.budget.maxBytes = p.config.MaxInFlightBytes ∧
      s.budget.maxBatches = p.config.MaxInFlightBatches := by
  have hinit : (newProducer p store items).budget.maxBytes = p.config.MaxInFlightBytes ∧
      (newProducer p store items).budget.maxBatches = p.config.MaxInFlightBatches := by
    have hbytes := p.bytes_pos
    have hbatches := p.batches_pos
    exact ⟨if_neg (by omega), if_neg (by omega)⟩
  have hboth := ledger_invariant (P := fun L => L.maxBytes = p.config.MaxInFlightBytes ∧
    L.maxBatches = p.config.MaxInFlightBatches) ?_ (custody_newProducer store items) hinit hrun
  · exact hboth.2
  · intro L L' _ hcaps hs
    exact ⟨hs.caps.1.trans hcaps.1, hs.caps.2.trans hcaps.2⟩

/-- What one call holds is among what all hold. -/
theorem mem_heldBy {appends : List AppendCall} {i : Nat} {c : AppendCall} {msg : AppendMessage}
    (hcall : appends[i]? = some c) (hheld : c.phase.held = {msg}) :
    ∃ rest, heldBy appends = msg ::ₘ rest := by
  obtain ⟨rest, hsum, _⟩ := ListUpdate.sum_map_set (fun c : AppendCall => c.phase.held) hcall
  refine ⟨rest, ?_⟩
  rw [heldBy, hsum, hheld, Multiset.singleton_add]

/-- With the books in order no release goes below zero. -/
theorem Books.clampsIdle (h : Books s) : s.ClampsIdle := by
  refine ⟨(Fits.nonneg h.accounted).1, (Fits.nonneg h.accounted).2, ?_, ?_, ?_, ?_⟩
  · intro i c msg err hcall hphase
    obtain ⟨rest, hheld⟩ := mem_heldBy hcall (by rw [hphase]; rfl)
    have hcovered := (h.accounted.cancel hheld).covered
    rw [← Multiset.cons_zero, costOf_cons, costOf_zero, add_zero] at hcovered
    exact hcovered
  · intro reason ack hphase
    have hcovered := h.accounted.drop.covered
    rw [s.rotator.batch.made, accumulate_byteCost]
    exact hcovered
  · intro entries
    have hbytes : 0 ≤ s.budget.bytesUsed := (Fits.nonneg h.accounted).1
    omega
  · intro ri hphase
    obtain ⟨pr, hpr, rfl⟩ := h.custody.coherent.settling ri (by rw [hphase]; rfl)
    exact (h.accounted.settled hpr).batch_covered

/-- A completion that waits to be sent finds room. -/
theorem Books.completion_room (h : Books s)
    (hcap : s.budget.maxBatches = p.config.MaxInFlightBatches) {rest : Multiset Batch} {b : Batch}
    (hflight : s.flight = b ::ₘ (batchesOf s.uploadCompletionCh.queue + rest)) :
    s.uploadCompletionCh.queue.length < p.completionBuf := by
  have hbatches : s.budget.batchesUsed = _ := h.accounted.batches
  have hslots : s.budget.batchesUsed ≤ s.budget.maxBatches := h.accounted.slots
  have hcard : s.uploadCompletionCh.queue.length + 1 ≤ s.ledger.unreleased.card := by
    show s.uploadCompletionCh.queue.length + 1 ≤ (s.flight + _).card
    rw [Multiset.card_add, hflight, Multiset.card_cons, Multiset.card_add]
    have hqueue : (batchesOf s.uploadCompletionCh.queue).card =
        s.uploadCompletionCh.queue.length := by
      simp [batchesOf]
    omega
  have hpos := p.batches_pos
  have hbuf : (p.completionBuf : Int) = p.config.MaxInFlightBatches := by
    rw [Producer.completionBuf, atLeastOne, if_neg (by omega)]
    omega
  split at hbatches <;> omega

/-- A send on `uploadCompletionCh` never blocks. -/
def State.CompletionsHaveRoom (p : Producer) (s : State) : Prop :=
  ∀ uc, (.sendingCompletion uc ∈ s.encoders ∨ .sendingCompletion uc ∈ s.uploaders) →
    s.uploadCompletionCh.queue.length < p.completionBuf

/-- There are at most as many completions as slots, so the channel has room. -/
theorem Books.completionsHaveRoom (h : Books s)
    (hcap : s.budget.maxBatches = p.config.MaxInFlightBatches) :
    State.CompletionsHaveRoom p s := by
  rintro uc (henc | hup)
  · obtain ⟨i, hi⟩ := List.getElem?_of_mem henc
    obtain ⟨rest, hflight⟩ := encoder_flight (b := uc.batch) hi rfl
    exact h.completion_room hcap hflight
  · obtain ⟨j, hj⟩ := List.getElem?_of_mem hup
    obtain ⟨rest, hflight⟩ := uploader_flight (b := uc.batch) hj rfl
    exact h.completion_room hcap hflight

/-- Calls that have returned hold nothing. -/
theorem heldBy_returned (h : s.NoAppends) : heldBy s.appends = 0 := by
  refine ListUpdate.sum_map_eq_zero fun c hc => ?_
  obtain ⟨err, hphase⟩ := h c hc
  rw [hphase]
  rfl

/-- Once everything has ended, nothing is held. -/
theorem Books.nothing_reserved (h : Books s) (hst : Stages p s) (hco : CommitOrder s)
    (hended : s.Ended) (hcalls : s.NoAppends) : s.reserved = 0 ∧ s.unreleased = 0 := by
  have hrotator : s.rotator.phase = .exited := hended .rotatorDone
  have hcommitter : s.committer.phase = .exited := hended .committerDone
  have hresolver : s.resolver = .exited := hended .resolverDone
  obtain ⟨hopened, hqueue⟩ := hst.nothing_open h.custody.coherent (Or.inr hrotator)
  have hun : s.unreleased = 0 := by
    have hsettling : s.settling = none := by rw [State.settling, hresolver]; rfl
    rw [State.unreleased, hco.flight_empty hst h.conserved hcommitter, hsettling]
    rfl
  refine ⟨?_, hun⟩
  rw [State.reserved, heldBy_returned hcalls, hqueue, hopened, hun]
  rfl

/-- **Budget conservation and caps.**  In every reachable state the counters are
the cost of what is reserved and not released, the framing of what is emitted
and not released, and the slots that are held; no clamp acts; slots stay within
`MaxInFlightBatches`, so completions can always be sent; bytes without framing
stay within `MaxInFlightBytes`, unless one message of non-zero cost is all that
is outstanding; and when everything has ended both counters are zero. -/
theorem budget_conserved {store : ObjectStore} {items : List EnqueueItem}
    (hrun : Run p (newProducer p store items) s) :
    s.budget.bytesUsed = costOf s.reserved + framingOf s.unreleased ∧
    s.budget.batchesUsed = s.unreleased.card + s.slotHeld ∧
    s.ClampsIdle ∧
    s.budget.batchesUsed ≤ p.config.MaxInFlightBatches ∧
    s.CompletionsHaveRoom p ∧
    (costOf s.reserved ≤ p.config.MaxInFlightBytes ∧
        s.budget.bytesUsed ≤ p.config.MaxInFlightBytes + framingOf s.unreleased ∨
      ∃ m, weighty s.reserved = {m} ∧
        s.budget.bytesUsed = m.byteCost + framingOf s.unreleased) ∧
    (s.Ended → s.NoAppends → s.budget.bytesUsed = 0 ∧ s.budget.batchesUsed = 0) := by
  have hb := reachable_books hrun
  obtain ⟨hmaxBytes, hmaxBatches⟩ := reachable_caps hrun
  have hbytes : s.budget.bytesUsed = costOf s.reserved + framingOf s.unreleased :=
    hb.accounted.bytes
  have hbatches : s.budget.batchesUsed = s.unreleased.card + s.slotHeld := by
    have hcount : s.budget.batchesUsed =
        (s.unreleased.card : Int) + (if s.rotator.phase.slot then 1 else 0) := hb.accounted.batches
    rw [hcount, State.slotHeld]
    split <;> rfl
  refine ⟨hbytes, hbatches, hb.clampsIdle, ?_, hb.completionsHaveRoom hmaxBatches, ?_, ?_⟩
  · rw [← hmaxBatches]
    exact hb.accounted.slots
  · have hcapped : Capped s.budget.maxBytes s.reserved := hb.accounted.capped
    rw [hmaxBytes] at hcapped
    rcases hcapped with hcost | ⟨m, hm⟩
    · exact Or.inl ⟨hcost, by omega⟩
    · refine Or.inr ⟨m, hm, ?_⟩
      rw [hbytes, ← costOf_weighty s.reserved, hm, ← Multiset.cons_zero, costOf_cons, costOf_zero,
        add_zero]
  · intro hended hcalls
    obtain ⟨hreserved, hun⟩ := hb.nothing_reserved (reachable_stages hrun)
      (reachable_commitOrder hrun) hended hcalls
    have hslot : s.slotHeld = 0 := by
      rw [State.slotHeld, show s.rotator.phase = .exited from hended .rotatorDone]
      rfl
    rw [hbytes, hbatches, hreserved, hun, hslot]
    exact ⟨rfl, rfl⟩

/-- Behind `Close` the sample run has given everything back. -/
theorem budget_conserved_sample :
    sampleClosed.Ended ∧ sampleClosed.NoAppends ∧ sampleClosed.ClampsIdle ∧
      sampleClosed.budget.bytesUsed = 0 ∧ sampleClosed.budget.batchesUsed = 0 := by
  have hended : sampleClosed.Ended := by
    intro d
    cases d <;> rfl
  have hcalls : sampleClosed.NoAppends := by
    intro c hc
    obtain rfl := List.mem_singleton.mp hc
    exact ⟨none, rfl⟩
  obtain ⟨_, _, hclamps, _, _, _, hzero⟩ := budget_conserved sample_run.run
  exact ⟨hended, hcalls, hclamps, hzero hended hcalls⟩

end OpenDataBuffer
