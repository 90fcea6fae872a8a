import Mathlib.Data.Fintype.EquivFin
import OpenDataBuffer.BudgetBounds
import OpenDataBuffer.FlushCalls
import OpenDataBuffer.Waiting
import OpenDataBuffer.Watchers

/-!
# The pipeline is never stuck

Channels without a buffer, two budgets, a rotator that stops reading while it waits
for a slot, and a committer that waits for one particular ordinal could wait for each
other in a circle.  They do not.  Each stage that holds a batch can move, or hands it
to a stage that can; whoever waits at the budget waits for bytes or slots that some
message or batch holds; and the ordinal the committer waits for is on its way.

A step counts only if it is one of the producer's own: no call of a user, no write of
another party, and no store call that returns an error, unless it is a `PutIfMatch`
that has lost against another party.
-/

namespace OpenDataBuffer

open ListUpdate ProducerBudget

variable {p : Producer} {s t : State}

/-! ## Moves -/

/-- The stages of the pipeline. -/
inductive Stage
  | rotator
  | encoders
  | uploaders
  | committer
  | resolver

/-- Whose steps move a batch of the stage on: its own, and those of the stage that
takes a batch from it. -/
def Stage.actors : Stage → List Actor
  | .rotator => [.rotator, .encoder]
  | .encoders => [.encoder, .uploader]
  | .uploaders => [.uploader]
  | .committer => [.committer, .resolver]
  | .resolver => [.resolver]

/-- The batches a stage holds; the completions that wait in the channel are the
committer's. -/
def State.holds (s : State) : Stage → Multiset Batch
  | .rotator => s.rotator.phase.flight
  | .encoders => (s.encoders.map EncoderPhase.flight).sum
  | .uploaders => (s.uploaders.map UploaderPhase.flight).sum
  | .committer =>
      batchesOf s.uploadCompletionCh.queue +
        (batchesOf s.committer.ready + s.committer.phase.inHand)
  | .resolver => optionally (s.settling.map PendingResolution.batch)

/-- A step of the stage is enabled. -/
def Advances (p : Producer) (s : State) (stage : Stage) : Prop :=
  ∃ l t a, ProducerStep p s l t ∧ l.actor? = some a ∧ a ∈ stage.actors

/-- Some step of the producer is enabled. -/
def Live (p : Producer) (s : State) : Prop := ∃ l t a, ProducerStep p s l t ∧ l.actor? = some a

/-- A stage that can move makes the producer live. -/
theorem Advances.live {stage : Stage} (h : Advances p s stage) : Live p s := by
  obtain ⟨l, t, a, hs, ha, _⟩ := h
  exact ⟨l, t, a, hs, ha⟩

theorem Advances.of_step {stage : Stage} {l : Label} {a : Actor} (hs : ProducerStep p s l t)
    (hl : l.actor? = some a) (ha : a ∈ stage.actors) : Advances p s stage := ⟨l, t, a, hs, hl, ha⟩

theorem Live.of_step {l : Label} {a : Actor} (hs : ProducerStep p s l t)
    (hl : l.actor? = some a) : Live p s := ⟨l, t, a, hs, hl⟩

/-- An uploader that can move may take what an encoder has. -/
theorem Advances.encoders (h : Advances p s .uploaders) : Advances p s .encoders := by
  obtain ⟨l, t, a, hs, hl, ha⟩ := h
  obtain rfl := List.mem_singleton.mp ha
  exact ⟨l, t, _, hs, hl, by decide⟩

/-- A resolver that can move takes what the committer has. -/
theorem Advances.committer (h : Advances p s .resolver) : Advances p s .committer := by
  obtain ⟨l, t, a, hs, hl, ha⟩ := h
  obtain rfl := List.mem_singleton.mp ha
  exact ⟨l, t, _, hs, hl, by decide⟩

/-- The store can always carry a write out: there is a version it has not used. -/
theorem exists_names (store : ObjectStore) (path data : Bytes) :
    ∃ version, store.Names path ⟨data, version⟩ := by
  obtain ⟨tag, hfresh⟩ :=
    Infinite.exists_notMem_finset (store.issued.map fun x => x.2.version.ETag).toFinset
  refine ⟨⟨tag⟩, fun old hold hversion => absurd ?_ hfresh⟩
  rw [List.mem_toFinset]
  exact List.mem_map.mpr ⟨(path, old), hold, congrArg Version.ETag hversion⟩

/-! ## The stages -/

/-- What is known of a reachable state of a running process. -/
structure Healthy (p : Producer) (s : State) : Prop where
  books : Books s
  stages : Stages p s
  order : CommitOrder s
  appends : AppendCalls s
  flushes : FlushCalls s
  waiting : Waiting s
  cap : s.budget.maxBatches = p.config.MaxInFlightBatches
  running : s.panicked = none

/-- A committer at its loop has nothing in hand. -/
theorem idle_inHand (hidle : s.committer.phase.Idle) : s.committer.phase.inHand = 0 := by
  rcases hidle with hphase | hphase <;> rw [hphase] <;> rfl

section Healthy

variable (h : Healthy p s)

include h

/-- A resolver that is at work goes on. -/
theorem resolver_advances {ri : ResolverItem} (hbusy : s.resolver.item? = some ri) :
    Advances p s .resolver := by
  have hmem : Actor.resolver ∈ Stage.resolver.actors := by decide
  cases hphase : s.resolver with
  | receiving =>
      rw [hphase] at hbusy
      cases hbusy
  | observing ri => exact .of_step (.resolver h.running (.observe hphase)) rfl hmem
  | resolving ri left =>
      cases left with
      | nil => exact .of_step (.resolver h.running (.resolvedAll hphase)) rfl hmem
      | cons w left => exact .of_step (.resolver h.running (.resolve hphase)) rfl hmem
  | acking ri =>
      obtain ⟨f, hack⟩ := Option.ne_none_iff_exists'.mp (h.waiting.resolver ri hphase)
      have howed : f ∈ s.ledger.owedAcks := by
        have hdue : s.ledger.ackDue = some f := by
          show s.resolver.ackDue = _
          rw [hphase]
          exact hack
        simp [Ledger.owedAcks, hdue]
      obtain ⟨c, hcall, hroom⟩ := h.flushes.room h.books.conserved howed
      exact .of_step (.resolver h.running (.ack hphase hack hcall hroom)) rfl hmem
  | releasing ri => exact .of_step (.resolver h.running (.release hphase)) rfl hmem
  | exited =>
      rw [hphase] at hbusy
      cases hbusy

/-- `casWithRetry` goes on. -/
theorem cas_advances {group : List UploadCompletion} {failed : List PendingResolution}
    {call : CasCall} (hphase : s.committer.phase = .cas group failed call) :
    Advances p s .committer := by
  have hmem : Actor.committer ∈ Stage.committer.actors := by decide
  have hproper := h.waiting.cas group failed call hphase
  cases hcall : call.phase with
  | backoff err => exact .of_step (.committer h.running (.cas hphase (.retry hcall))) rfl hmem
  | returned err =>
      by_cases herr : err = none ∨ err = some .shutdown
      · exact .of_step (.committer h.running (.settle hphase hcall herr)) rfl hmem
      · cases err with
        | none => exact absurd (Or.inl rfl) herr
        | some err =>
            have hne : err ≠ .shutdown := fun heq => herr (Or.inr (congrArg some heq))
            exact .of_step
              (.committer h.running (.halt hphase hcall hne (List.Perm.refl _))) rfl hmem
  | enqueueing phase =>
      cases phase with
      | returned n err => exact absurd hcall (hproper n err)
      | reading n => exact .of_step (.committer h.running (.cas hphase (.get hcall))) rfl hmem
      | writing n data version applied =>
          cases applied with
          | true => exact .of_step (.committer h.running (.cas hphase (.ok hcall))) rfl hmem
          | false =>
              by_cases hmatch : s.store.Matches p.config.ManifestPath version
              · obtain ⟨v, hnames⟩ := exists_names s.store p.config.ManifestPath data
                exact .of_step (.committer h.running
                  (@CommitterStep.casApplies _ _ _ _ _ _ ⟨data, v⟩ _ hphase hcall hmatch hnames))
                  rfl hmem
              · exact .of_step
                  (.committer h.running (.cas hphase (.conflict hcall hmatch))) rfl hmem

/-- A committer that is at work goes on, or waits for a resolver that does. -/
theorem committer_advances (hbusy : ¬ s.committer.phase.Idle) : Advances p s .committer := by
  have hmem : Actor.committer ∈ Stage.committer.actors := by decide
  cases hphase : s.committer.phase with
  | receiving => exact absurd (Or.inl hphase) hbusy
  | exited => exact absurd (Or.inr hphase) hbusy
  | gathering =>
      cases hqueue : s.uploadCompletionCh.queue with
      | nil => exact .of_step (.committer h.running (.gatherDone hphase hqueue)) rfl hmem
      | cons uc rest => exact .of_step (.committer h.running (.gather hphase hqueue)) rfl hmem
  | draining => exact .of_step (.committer h.running (.collect hphase)) rfl hmem
  | cas group failed call => exact cas_advances h hphase
  | notifying left => exact .of_step (.committer h.running (.notify hphase)) rfl hmem
  | resolving left after =>
      cases left with
      | nil => exact .of_step (.committer h.running (.resolved hphase)) rfl hmem
      | cons pr left =>
          have hopen : s.resolverClosed = false :=
            h.stages.resolver_open (by rw [hphase]; simp)
          cases hresolver : s.resolver with
          | receiving =>
              exact .of_step (.resolver h.running (.take hresolver hphase hopen)) rfl (by decide)
          | exited =>
              have hclosed := h.stages.resolver_exited hresolver
              rw [hopen] at hclosed
              cases hclosed
          | _ => exact (resolver_advances h (by rw [hresolver]; rfl)).committer

/-- A completion in the channel is taken, or waits for a committer at work. -/
theorem queue_advances (hqueue : s.uploadCompletionCh.queue ≠ []) : Advances p s .committer := by
  have hmem : Actor.committer ∈ Stage.committer.actors := by decide
  by_cases hidle : s.committer.phase.Idle
  · obtain ⟨uc, rest, hcons⟩ := List.exists_cons_of_ne_nil hqueue
    rcases hidle with hphase | hphase
    · cases hhalted : s.committer.halted with
      | false => exact .of_step (.committer h.running (.receive hphase hhalted hcons)) rfl hmem
      | true => exact .of_step (.committer h.running (.receiveHalted hphase hhalted hcons)) rfl hmem
    · exact absurd (h.stages.completions_closed_of_exited hphase).2 hqueue
  · exact committer_advances h hidle

/-- An uploader with a batch goes on. -/
theorem uploader_advances {j : Nat} {u : UploaderPhase} {b : Batch}
    (hup : s.uploaders[j]? = some u) (hbusy : b ∈ u.flight) : Advances p s .uploaders := by
  have hmem : Actor.uploader ∈ Stage.uploaders.actors := by decide
  cases u with
  | receiving => exact absurd hbusy (Multiset.notMem_zero b)
  | exited => exact absurd hbusy (Multiset.notMem_zero b)
  | putting eb attempt applied =>
      cases applied with
      | true => exact .of_step (.uploader h.running (.putOk hup)) rfl hmem
      | false =>
          obtain ⟨v, hnames⟩ := exists_names s.store eb.location eb.payload
          exact .of_step (.uploader h.running (.putApplies v hup hnames)) rfl hmem
  | backoff eb attempt => exact .of_step (.uploader h.running (.retry hup)) rfl hmem
  | sendingCompletion uc =>
      have hin := List.mem_of_getElem? hup
      have hroom := h.books.completionsHaveRoom h.cap uc (Or.inr hin)
      have hopen := h.stages.completions_open_of_uploader hin (by simp)
      exact .of_step (.uploader h.running (.complete hup hopen hroom)) rfl hmem

/-- An encoder with a batch goes on, or waits for uploaders that do. -/
theorem encoder_advances {i : Nat} {e : EncoderPhase} {b : Batch}
    (henc : s.encoders[i]? = some e) (hbusy : b ∈ e.flight) : Advances p s .encoders := by
  have hmem : Actor.encoder ∈ Stage.encoders.actors := by decide
  have hin := List.mem_of_getElem? henc
  cases e with
  | receiving => exact absurd hbusy (Multiset.notMem_zero b)
  | exited => exact absurd hbusy (Multiset.notMem_zero b)
  | encoding pb =>
      cases hencode : EncodeBatch p.zstd pb.entries p.config.BatchCompression with
      | ok payload => exact .of_step (.encoder h.running (.encoded henc hencode)) rfl hmem
      | error err => exact .of_step (.encoder h.running (.encodeFails err henc)) rfl hmem
  | sendingCompletion uc =>
      have hroom := h.books.completionsHaveRoom h.cap uc (Or.inl hin)
      have hopen := h.stages.completions_open_of_encoder hin (by simp)
      exact .of_step (.encoder h.running (.complete henc hopen hroom)) rfl hmem
  | sendingEncoded eb =>
      have hopen := h.stages.encoded_open hin (by simp)
      have hpos : 0 < s.uploaders.length := h.stages.uploaders ▸ atLeastOne_pos _
      have hup := List.getElem?_eq_getElem hpos
      cases hu : s.uploaders[0] with
      | receiving =>
          rw [hu] at hup
          exact .of_step (.uploader h.running (.take henc hup hopen)) rfl (by decide)
      | exited =>
          rw [hu] at hup
          exact absurd hopen (h.stages.uploader_exited (List.mem_of_getElem? hup))
      | _ =>
          rw [hu] at hup
          exact (uploader_advances h hup (Multiset.mem_singleton_self _)).encoders

/-- The batch the rotator hands over is taken, or waits for encoders at work. -/
theorem pending_live {pb : PendingBatch} (hphase : s.rotator.phase = .sendingPending pb) :
    Live p s := by
  have hpos : 0 < s.encoders.length := h.stages.encoders ▸ atLeastOne_pos _
  have henc := List.getElem?_eq_getElem hpos
  cases he : s.encoders[0] with
  | receiving =>
      rw [he] at henc
      exact .of_step (.encoder h.running (.take henc hphase)) rfl
  | exited =>
      rw [he] at henc
      rcases h.stages.encoder_exited (List.mem_of_getElem? henc) with hclosed | hclosed <;>
        rw [hphase] at hclosed <;> cases hclosed
  | _ =>
      rw [he] at henc
      exact (encoder_advances h henc (Multiset.mem_singleton_self _)).live

/-- A batch before the committer is moved on, or somebody behind it moves. -/
theorem upstream_live {b : Batch} (hb : b ∈ s.upstream) : Live p s := by
  rcases Multiset.mem_add.mp hb with hrotator | hrest
  · cases hphase : s.rotator.phase with
    | sendingPending pb => exact pending_live h hphase
    | _ =>
        rw [hphase] at hrotator
        exact absurd hrotator (Multiset.notMem_zero _)
  · rcases Multiset.mem_add.mp hrest with henc | hrest
    · obtain ⟨i, e, he, hmem⟩ := exists_of_mem_sum henc
      exact (encoder_advances h he hmem).live
    · rcases Multiset.mem_add.mp hrest with hup | hqueue
      · obtain ⟨j, u, hu, hmem⟩ := exists_of_mem_sum hup
        exact (uploader_advances h hu hmem).live
      · refine (queue_advances h fun hnil => ?_).live
        rw [hnil] at hqueue
        exact Multiset.notMem_zero _ hqueue

/-- The committer does not wait for an ordinal that nobody holds. -/
theorem next_upstream (hphase : s.committer.phase.Idle) {b : Batch}
    (hb : b ∈ s.upstream + batchesOf s.committer.ready) (hhalted : s.committer.halted = false) :
    ∃ b' ∈ s.upstream, b'.ordinal = s.committer.next := by
  obtain ⟨b', hb', hnext⟩ := h.order.next_held h.books.conserved hhalted hb
  rcases Multiset.mem_add.mp hb' with hup | hready
  · exact ⟨b', hup, hnext⟩
  · obtain ⟨uc, huc, rfl⟩ := List.mem_map.mp (Multiset.mem_coe.mp hready)
    exact absurd (List.mem_map.mpr ⟨uc, huc, hnext⟩) (h.order.waiting hphase)

/-- What waits in `ready` of a committer that is not at work. -/
theorem ready_waits (hidle : s.committer.phase.Idle) {b : Batch}
    (hb : b ∈ batchesOf s.committer.ready) :
    s.committer.halted = false ∧ ∃ b' ∈ s.upstream, b'.ordinal = s.committer.next := by
  have hhalted : s.committer.halted = false := by
    cases hhalted : s.committer.halted with
    | false => rfl
    | true =>
        rw [(h.order.stopped hhalted).2] at hb
        exact absurd hb (Multiset.notMem_zero _)
  exact ⟨hhalted, next_upstream h hidle (Multiset.mem_add.mpr (Or.inr hb)) hhalted⟩

/-- A batch in flight moves. -/
theorem flight_live {b : Batch} (hb : b ∈ s.flight) : Live p s := by
  rcases Multiset.mem_add.mp hb with hup | hrest
  · exact upstream_live h hup
  · by_cases hidle : s.committer.phase.Idle
    · rcases Multiset.mem_add.mp hrest with hready | hhand
      · obtain ⟨_, b', hb', _⟩ := ready_waits h hidle hready
        exact upstream_live h hb'
      · rw [idle_inHand hidle] at hhand
        exact absurd hhand (Multiset.notMem_zero _)
    · exact (committer_advances h hidle).live

/-- The resolver goes on with the batch it has. -/
theorem settling_advances {b : Batch}
    (hb : b ∈ optionally (s.settling.map PendingResolution.batch)) : Advances p s .resolver := by
  cases hitem : s.resolver.item? with
  | some ri => exact resolver_advances h hitem
  | none =>
      rw [State.settling, hitem] at hb
      exact absurd hb (Multiset.notMem_zero _)

/-- A batch that is not released moves. -/
theorem unreleased_live {b : Batch} (hb : b ∈ s.unreleased) : Live p s := by
  rcases Multiset.mem_add.mp hb with hflight | hsettling
  · exact flight_live h hflight
  · exact (settling_advances h hsettling).live

/-! ## The rotator and the budget -/

/-- Slots that are used belong to batches, or to the one the rotator is about to
emit. -/
theorem batches_live (hpos : 0 < s.budget.batchesUsed) : Live p s := by
  have hbatches : s.budget.batchesUsed =
      (s.unreleased.card : Int) + if s.rotator.phase.slot then 1 else 0 := h.books.accounted.batches
  by_cases hun : s.unreleased = 0
  · cases hphase : s.rotator.phase with
    | reconciling reason ack => exact .of_step (.rotator h.running (.reconcile hphase)) rfl
    | _ =>
        rw [hun, hphase] at hbatches
        simp [RotatorPhase.slot] at hbatches
        omega
  · obtain ⟨b, hb⟩ := Multiset.exists_mem_of_ne_zero hun
    exact unreleased_live h hb

/-- The rotator goes on, unless it waits for a message or has ended. -/
theorem rotator_live (hselecting : s.rotator.phase ≠ .selecting)
    (hexited : s.rotator.phase ≠ .exited) : Live p s := by
  cases hphase : s.rotator.phase with
  | selecting => exact absurd hphase hselecting
  | exited => exact absurd hphase hexited
  | draining f =>
      cases hqueue : s.appendCh.queue with
      | nil => exact .of_step (.rotator h.running (.drainDone hphase hqueue)) rfl
      | cons msg rest => exact .of_step (.rotator h.running (.drainReceive hphase hqueue)) rfl
  | acquiring reason ack =>
      cases hregion : s.budget.acquireBatchSlot with
      | granted b => exact .of_step (.rotator h.running (.acquire hphase hregion)) rfl
      | wait b ch => exact .of_step (.rotator h.running (.park hphase hregion)) rfl
  | parked reason ack ch =>
      rcases h.waiting.budget.rotator hphase with hclosed | ⟨hfull, _⟩
      · exact .of_step (.rotator h.running (.wake hphase hclosed)) rfl
      · have hpos := p.batches_pos
        have hcap := h.cap
        exact batches_live h (by omega)
  | dropping reason ack => exact .of_step (.rotator h.running (.drop hphase)) rfl
  | resolvingDrop reason ack left =>
      cases left with
      | nil => exact .of_step (.rotator h.running (.dropDone hphase)) rfl
      | cons w left => exact .of_step (.rotator h.running (.dropResolve hphase)) rfl
  | acking reason f err =>
      have howed : f ∈ s.ledger.owedAcks := by
        cases err with
        | none =>
            have hserving : s.ledger.serving = some f := by
              show s.rotator.phase.serving = _
              rw [hphase]
              rfl
            simp [Ledger.owedAcks, hserving]
        | some err =>
            have hrefusing : s.ledger.refusing = some f := by
              show s.rotator.phase.refusing = _
              rw [hphase]
              rfl
            simp [Ledger.owedAcks, hrefusing]
      obtain ⟨c, hcall, hroom⟩ := h.flushes.room h.books.conserved howed
      exact .of_step (.rotator h.running (.ack hphase hcall hroom)) rfl
  | reconciling reason ack => exact .of_step (.rotator h.running (.reconcile hphase)) rfl
  | sendingPending pb => exact pending_live h hphase
  | closingPending => exact .of_step (.rotator h.running (.closePending hphase)) rfl
  | closingDone => exact .of_step (.rotator h.running (.closeDone hphase)) rfl

/-- A message in `appendCh` is read. -/
theorem queued_live (hqueue : s.appendCh.queue ≠ []) : Live p s := by
  by_cases hselecting : s.rotator.phase = .selecting
  · obtain ⟨msg, rest, hcons⟩ := List.exists_cons_of_ne_nil hqueue
    exact .of_step (.rotator h.running (.receive hselecting hcons)) rfl
  · refine rotator_live h hselecting fun hexited => ?_
    exact hqueue (h.stages.last_of_reason hexited trivial).2

/-- A message in the accumulator is emitted, by the timer if by nothing else. -/
theorem opened_live (hmsgs : s.rotator.batch.msgs ≠ []) : Live p s := by
  by_cases hselecting : s.rotator.phase = .selecting
  · have hstarted := s.rotator.batch.started_iff.mpr hmsgs
    exact .of_step (.rotator h.running (.timer hselecting hstarted)) rfl
  · refine rotator_live h hselecting fun hexited => ?_
    have hcoherent := h.books.custody.coherent.rotator
    rw [hexited] at hcoherent
    exact hmsgs hcoherent

/-- A call at its send goes on. -/
theorem sending_live {i : Nat} {c : AppendCall} {msg : AppendMessage}
    (hcall : s.appends[i]? = some c) (hphase : c.phase = .sending msg) : Live p s := by
  by_cases hexited : s.rotator.phase = .exited
  · exact .of_step (.append h.running (.sendDone hcall hphase hexited)) rfl
  by_cases hselecting : s.rotator.phase = .selecting
  · by_cases hqueue : s.appendCh.queue = []
    · cases hclosed : s.appendCh.closed with
      | true => exact .of_step (.rotator h.running (.receiveClosed hselecting hqueue hclosed)) rfl
      | false =>
          by_cases hcap : p.config.MaxBufferedInputs = 0
          · exact .of_step
              (.rotator h.running (.handoff hselecting hcap hqueue hclosed hcall hphase)) rfl
          · have hroom : s.appendCh.queue.length < p.config.MaxBufferedInputs := by
              rw [hqueue]
              exact Nat.pos_of_ne_zero hcap
            exact .of_step (.append h.running (.send hcall hphase hclosed hroom)) rfl
    · exact queued_live h hqueue
  · exact rotator_live h hselecting hexited

/-- Bytes that are used belong to messages, and these move. -/
theorem bytes_live (hpos : 0 < s.budget.bytesUsed) : Live p s := by
  by_cases hun : s.unreleased = 0
  · have hbytes : s.budget.bytesUsed = costOf s.reserved + framingOf s.unreleased :=
      h.books.accounted.bytes
    have hreserved : s.reserved ≠ 0 := by
      intro hzero
      rw [hzero, hun, costOf_zero] at hbytes
      simp [framingOf] at hbytes
      omega
    obtain ⟨m, hm⟩ := Multiset.exists_mem_of_ne_zero hreserved
    rw [State.reserved, hun] at hm
    rcases Multiset.mem_add.mp hm with hheld | hrest
    · obtain ⟨i, c, hcall, hmem⟩ := exists_of_mem_sum hheld
      cases hphase : c.phase with
      | sending msg => exact sending_live h hcall hphase
      | aborting msg err => exact .of_step (.append h.running (.abort hcall hphase)) rfl
      | _ =>
          rw [hphase] at hmem
          exact absurd hmem (Multiset.notMem_zero _)
    · rcases Multiset.mem_add.mp hrest with hmem | hmem
      · rcases List.mem_append.mp (Multiset.mem_coe.mp hmem) with hqueue | hopened
        · exact queued_live h (List.ne_nil_of_mem hqueue)
        · exact opened_live h (List.ne_nil_of_mem hopened)
      · simp [messagesOf] at hmem
  · obtain ⟨b, hb⟩ := Multiset.exists_mem_of_ne_zero hun
    exact unreleased_live h hb

/-! ## Whoever waits -/

/-- A message without an answer moves. -/
theorem unanswered_live {m : AppendMessage} (hm : m ∈ s.hist.accepted)
    (hnone : s.watcherResult m.watcher = none) : Live p s := by
  have hc := h.books.conserved
  have hnot : ∀ e, (m.watcher, e) ∉ s.hist.resolved := by
    intro e he
    rw [(watcherResult_iff h.books h.appends).mpr he] at hnone
    cases hnone
  have hpart : s.hist.accepted = s.hist.cuts.flatMap Cut.msgs ++
      (s.rotator.batch.msgs ++ s.appendCh.queue) := hc.partition
  rw [hpart] at hm
  rcases List.mem_append.mp hm with hcut | hopen
  · obtain ⟨cut, hcut, hmsg⟩ := List.mem_flatMap.mp hcut
    cases cut with
    | emitted b =>
        have hall : b ∈ s.flight + handedBatches s.hist.handed := by
          rw [show s.flight + handedBatches s.hist.handed = ↑(emittedOf s.hist.cuts) from hc.flight]
          exact Multiset.mem_coe.mpr (mem_emittedOf.mpr hcut)
        rcases Multiset.mem_add.mp hall with hflight | hhanded
        · exact flight_live h hflight
        · obtain ⟨pr, hpr, rfl⟩ := List.mem_map.mp (Multiset.mem_coe.mp hhanded)
          have hw : m.watcher ∈ pr.batch.watchers := by
            rw [pr.batch.watchers_eq]
            exact List.mem_map_of_mem hmsg
          rcases hc.handed_resolved hpr hw with hresolved | hleft
          · exact absurd hresolved (hnot _)
          · have hleft' : m.watcher ∈ s.resolver.left := hleft
            cases hphase : s.resolver with
            | observing ri => exact (resolver_advances h (by rw [hphase]; rfl)).live
            | resolving ri left => exact (resolver_advances h (by rw [hphase]; rfl)).live
            | _ =>
                rw [hphase] at hleft'
                exact absurd hleft' List.not_mem_nil
    | dropped msgs =>
        rcases hc.dropped_resolved (mem_droppedOf.mpr hcut) hmsg with hresolved | hleft
        · exact absurd hresolved (hnot _)
        · have hleft' : m.watcher ∈ s.rotator.phase.dropLeft := hleft
          refine rotator_live h (fun hphase => ?_) (fun hphase => ?_) <;> rw [hphase] at hleft' <;>
            exact absurd hleft' List.not_mem_nil
  · rcases List.mem_append.mp hopen with hopened | hqueue
    · exact opened_live h (List.ne_nil_of_mem hopened)
    · exact queued_live h (List.ne_nil_of_mem hqueue)

/-- A call in `reserveBytes` goes on, or waits for bytes that others hold. -/
theorem reserve_live {i : Nat} {c : AppendCall} (hcall : s.appends[i]? = some c)
    (hwaits : c.phase.Waits) : Live p s := by
  have hne := (h.appends.proper i c hcall).waits hwaits
  rcases hwaits with hphase | ⟨ch, hphase⟩
  · cases hregion : s.budget.reserveBytes (appendByteCost c.entries c.metadata) with
    | granted b =>
        have hmsg : (AppendMessage.mk c.entries c.metadata 0 i
            (appendByteCost c.entries c.metadata) hne rfl).IsFor i c := ⟨rfl, rfl, rfl⟩
        exact .of_step (.append h.running (.reserve hcall hphase hregion hmsg)) rfl
    | wait b ch => exact .of_step (.append h.running (.park hcall hphase hregion)) rfl
  · rcases h.waiting.budget.append hcall hphase with hclosed | ⟨hpos, _⟩
    · exact .of_step (.append h.running (.wake hcall hphase hclosed)) rfl
    · exact bytes_live h hpos

/-- A flush in `waitDrained` goes on, or waits for batches in flight. -/
theorem drain_live {f : Nat} {c : FlushCall} {v : Option BufferError}
    (hcall : s.flushes[f]? = some c)
    (hwaits : c.phase = .draining v ∨ ∃ ch, c.phase = .parked v ch) : Live p s := by
  rcases hwaits with hphase | ⟨ch, hphase⟩
  · cases hregion : s.budget.waitDrained with
    | granted b => exact .of_step (.flush h.running (.drained hcall hphase hregion)) rfl
    | wait b ch => exact .of_step (.flush h.running (.park hcall hphase hregion)) rfl
  · rcases h.waiting.budget.flush hcall hphase with hclosed | ⟨hpos, _⟩
    · exact .of_step (.flush h.running (.wake hcall hphase hclosed)) rfl
    · exact batches_live h hpos

/-! ## The lowest ordinal -/

/-- While the rotator hands over the lowest batch in flight, no encoder has one. -/
theorem lowest_pending {pb : PendingBatch} (hphase : s.rotator.phase = .sendingPending pb)
    (hlow : ∀ b ∈ s.flight, pb.ordinal ≤ b.ordinal) {i : Nat} {e : EncoderPhase}
    (henc : s.encoders[i]? = some e) : e.flight = 0 := by
  by_contra hne
  obtain ⟨b, hb⟩ := Multiset.exists_mem_of_ne_zero hne
  obtain ⟨rest, hsum, _⟩ := sum_map_set EncoderPhase.flight henc
  have hsplit : s.flight = pb.toBatch ::ₘ (e.flight + (rest +
      ((s.uploaders.map UploaderPhase.flight).sum + (batchesOf s.uploadCompletionCh.queue +
        (batchesOf s.committer.ready + s.committer.phase.inHand))))) := by
    rw [State.flight, State.upstream, hsum, hphase, ← Multiset.singleton_add]
    show {pb.toBatch} + _ + _ = _
    abel
  have hb' : b ∈ s.flight := by
    rw [hsplit]
    exact Multiset.mem_cons_of_mem (Multiset.mem_add.mpr (Or.inl hb))
  -- both are the newest ordinal
  have hc := h.books.conserved
  have hlt : b.ordinal < s.rotator.ordinal := by
    have hin : b.ordinal ∈ (emittedOf s.hist.cuts).map Batch.ordinal :=
      List.mem_map_of_mem (hc.flight_emitted hb')
    rw [show (emittedOf s.hist.cuts).map Batch.ordinal = List.range s.rotator.ordinal from
      hc.numbered] at hin
    exact List.mem_range.mp hin
  have heq : pb.ordinal = b.ordinal := by
    have hle := hlow b hb'
    have hnewest := h.waiting.newest pb hphase
    omega
  have hnodup : (s.flight.map Batch.ordinal).Nodup := hc.distinct
  rw [hsplit, Multiset.map_cons, Multiset.nodup_cons] at hnodup
  refine hnodup.1 ?_
  rw [heq]
  exact Multiset.mem_map_of_mem _ (Multiset.mem_add.mpr (Or.inl hb))

/-- The lowest batch, handed over by the rotator, finds an encoder. -/
theorem lowest_pending_advances {pb : PendingBatch}
    (hphase : s.rotator.phase = .sendingPending pb)
    (hlow : ∀ b ∈ s.flight, pb.ordinal ≤ b.ordinal) : Advances p s .rotator := by
  have hpos : 0 < s.encoders.length := h.stages.encoders ▸ atLeastOne_pos _
  have henc := List.getElem?_eq_getElem hpos
  have hnone := lowest_pending h hphase hlow henc
  cases he : s.encoders[0] with
  | receiving =>
      rw [he] at henc
      exact .of_step (.encoder h.running (.take henc hphase)) rfl (by decide)
  | exited =>
      rw [he] at henc
      rcases h.stages.encoder_exited (List.mem_of_getElem? henc) with hclosed | hclosed <;>
        rw [hphase] at hclosed <;> cases hclosed
  | _ =>
      rw [he] at hnone
      exact absurd hnone (by simp [EncoderPhase.flight])

/-- The lowest batch of `ready` is not waited for. -/
theorem lowest_ready {b : Batch} (hb : b ∈ batchesOf s.committer.ready)
    (hlow : ∀ b' ∈ s.flight, b.ordinal ≤ b'.ordinal) : ¬ s.committer.phase.Idle := by
  intro hidle
  obtain ⟨hhalted, b', hb', hnext⟩ := ready_waits h hidle hb
  have hge := h.order.next_le h.books.conserved hhalted (Multiset.mem_add.mpr (Or.inr hb))
  have hle := hlow b' (Multiset.mem_add.mpr (Or.inl hb'))
  have hat : b.ordinal = s.committer.next := by omega
  obtain ⟨uc, huc, rfl⟩ := List.mem_map.mp (Multiset.mem_coe.mp hb)
  exact h.order.waiting hidle (List.mem_map.mpr ⟨uc, huc, hat⟩)

/-- **The lowest ordinal is in a stage that moves.** -/
theorem lowest_advances {b : Batch} (hb : b ∈ s.unreleased)
    (hlow : ∀ b' ∈ s.unreleased, b.ordinal ≤ b'.ordinal) :
    ∃ stage, b ∈ s.holds stage ∧ Advances p s stage := by
  have hlow' : ∀ b' ∈ s.flight, b.ordinal ≤ b'.ordinal :=
    fun b' hb' => hlow b' (Multiset.mem_add.mpr (Or.inl hb'))
  rcases Multiset.mem_add.mp hb with hflight | hsettling
  · rcases Multiset.mem_add.mp hflight with hup | hrest
    · rcases Multiset.mem_add.mp hup with hrotator | hup
      · refine ⟨.rotator, hrotator, ?_⟩
        cases hphase : s.rotator.phase with
        | sendingPending pb =>
            rw [hphase] at hrotator
            obtain rfl := Multiset.mem_singleton.mp hrotator
            exact lowest_pending_advances h hphase hlow'
        | _ =>
            rw [hphase] at hrotator
            exact absurd hrotator (Multiset.notMem_zero _)
      · rcases Multiset.mem_add.mp hup with henc | hup
        · obtain ⟨i, e, he, hmem⟩ := exists_of_mem_sum henc
          exact ⟨.encoders, henc, encoder_advances h he hmem⟩
        · rcases Multiset.mem_add.mp hup with hup | hqueue
          · obtain ⟨j, u, hu, hmem⟩ := exists_of_mem_sum hup
            exact ⟨.uploaders, hup, uploader_advances h hu hmem⟩
          · refine ⟨.committer, Multiset.mem_add.mpr (Or.inl hqueue), queue_advances h ?_⟩
            intro hnil
            rw [hnil] at hqueue
            exact Multiset.notMem_zero _ hqueue
    · refine ⟨.committer, Multiset.mem_add.mpr (Or.inr hrest), committer_advances h ?_⟩
      rcases Multiset.mem_add.mp hrest with hready | hhand
      · exact lowest_ready h hready hlow'
      · intro hidle
        rw [idle_inHand hidle] at hhand
        exact Multiset.notMem_zero _ hhand
  · exact ⟨.resolver, hsettling, settling_advances h hsettling⟩

end Healthy

/-! ## Never stuck -/

/-- Somebody waits: for the answer to a message, in `reserveBytes`, in
`acquireBatchSlot` or in `waitDrained`. -/
inductive State.Awaited (s : State) : Prop
  | answer (m : AppendMessage) (haccepted : m ∈ s.hist.accepted)
      (hnone : s.watcherResult m.watcher = none)
  | bytes (c : AppendCall) (hcall : c ∈ s.appends) (hwaits : c.phase.Waits)
  | slot (reason : FlushReason) (ack : Option Nat)
      (hphase : s.rotator.phase = .acquiring reason ack ∨
        ∃ ch, s.rotator.phase = .parked reason ack ch)
  | drained (c : FlushCall) (v : Option BufferError) (hcall : c ∈ s.flushes)
      (hphase : c.phase = .draining v ∨ ∃ ch, c.phase = .parked v ch)

/-- **The pipeline is never stuck.**  In every reachable state of a running process:
if somebody waits, some step of the producer is enabled; the lowest ordinal that is
not resolved and released is in a stage that can move; and while the committer waits
for its next ordinal and any batch is left, some stage before it holds that ordinal. -/
theorem pipeline_never_stuck {store : ObjectStore} {items : List EnqueueItem}
    (hrun : Run p (newProducer p store items) s) (hrunning : s.panicked = none) :
    (s.Awaited → Live p s) ∧
    (∀ b ∈ s.unreleased, (∀ b' ∈ s.unreleased, b.ordinal ≤ b'.ordinal) →
      ∃ stage, b ∈ s.holds stage ∧ Advances p s stage) ∧
    (s.committer.phase = .receiving → s.committer.halted = false → s.flight ≠ 0 →
      ∃ b ∈ s.upstream, b.ordinal = s.committer.next) := by
  have h : Healthy p s :=
    { books := reachable_books hrun
      stages := reachable_stages hrun
      order := reachable_commitOrder hrun
      appends := reachable_appendCalls hrun
      flushes := reachable_flushCalls hrun
      waiting := reachable_waiting hrun
      cap := (reachable_caps hrun).2
      running := hrunning }
  refine ⟨?_, fun b hb hlow => lowest_advances h hb hlow, ?_⟩
  · intro hawaited
    cases hawaited with
    | answer m haccepted hnone => exact unanswered_live h haccepted hnone
    | bytes c hcall hwaits =>
        obtain ⟨i, hi⟩ := List.getElem?_of_mem hcall
        exact reserve_live h hi hwaits
    | slot reason ack hphase =>
        refine rotator_live h ?_ ?_ <;> rcases hphase with hphase | ⟨ch, hphase⟩ <;> simp [hphase]
    | drained c v hcall hphase =>
        obtain ⟨f, hf⟩ := List.getElem?_of_mem hcall
        exact drain_live h hf hphase
  · intro hphase hhalted hflight
    have hidle : s.committer.phase.Idle := Or.inl hphase
    obtain ⟨b, hb⟩ := Multiset.exists_mem_of_ne_zero hflight
    rw [State.flight, idle_inHand hidle, add_zero] at hb
    exact next_upstream h hidle hb hhalted

/-- The sample run with one batch at the committer. -/
theorem pipeline_never_stuck_sample :
    sampleCommitting.Awaited ∧ Live sampleProducer sampleCommitting ∧
      ∃ stage, sampleBatch ∈ sampleCommitting.holds stage ∧
        Advances sampleProducer sampleCommitting stage := by
  obtain ⟨hlive, hlowest, _⟩ := pipeline_never_stuck sample_committing.run rfl
  have hawaited : sampleCommitting.Awaited := .answer sampleMessage List.mem_cons_self rfl
  have hall : sampleCommitting.unreleased = {sampleBatch} := rfl
  refine ⟨hawaited, hlive hawaited, hlowest sampleBatch ?_ fun b hb => ?_⟩
  · rw [hall]
    exact Multiset.mem_singleton_self _
  · rw [hall] at hb
    obtain rfl := Multiset.mem_singleton.mp hb
    exact Nat.le_refl _

end OpenDataBuffer
