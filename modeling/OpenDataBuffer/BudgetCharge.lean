import OpenDataBuffer.Books
import OpenDataBuffer.Outcomes
import OpenDataBuffer.Uploads

/-!
# The charge of a batch

A batch is charged to the budget twice over: every message brings the bytes its
call reserved, and the rotator adds the framing before it sends the batch on.
Together this is what an uncompressed payload and the metadata of the messages
take (`Batch.byteCost_encoded`).

The charge travels with the batch.  `State.Carries` lists the places where a
record of a batch stands, with the charge in the record; each of them is the
charge of the emitted batch with that ordinal, whatever became of the batch on
the way, and the resolver releases that amount.
-/

namespace OpenDataBuffer

variable {p : Producer} {s t : State} {l : Label}

/-! ## The charge and the payload -/

/-- The reservations of some messages are the bytes of their entries and of
their metadata. -/
theorem reservations_sum (msgs : List AppendMessage) :
    (msgs.map AppendMessage.byteCost).sum =
      ((msgs.flatMap AppendMessage.entries).map List.length).sum +
        (msgs.map fun m => m.metadata.length).sum := by
  induction msgs with
  | nil => rfl
  | cons m msgs ih =>
      simp only [List.map_cons, List.sum_cons, List.flatMap_cons, List.map_append, List.sum_append,
        m.byteCost_eq, appendByteCost, ih]
      omega

/-- The encoder adds a length field for each entry and a footer. -/
theorem encoded_length (entries : List Bytes) :
    (recordBlock entries ++ batchFooter CompressionNone entries.length).length =
      (entries.map List.length).sum + framingExtra entries.length := by
  rw [List.length_append, recordBlock_length, List.sum_map_add]
  simp [batchFooter, framingExtra, batchFooterSize, batchCompSize, batchCountSize,
    batchVersionSize]
  ring

/-- **The charge of a batch is the size of its payload and its metadata.** -/
theorem Batch.byteCost_encoded (z : Zstd) (b : Batch) (hfit : BatchFits b.entriesOf) :
    ∃ payload, EncodeBatch z b.entriesOf CompressionNone = .ok payload ∧
      b.byteCost = payload.length + (b.msgs.map fun m => m.metadata.length).sum := by
  refine ⟨_, encodeBatch_none z hfit, ?_⟩
  rw [b.byteCost_eq, reservations_sum, encoded_length, Batch.entriesOf]
  push_cast
  ring

/-! ## The charge on its way -/

/-- A pending batch that the rotator sends or an encoder encodes. -/
def State.Pending (s : State) (pb : PendingBatch) : Prop :=
  s.rotator.phase = .sendingPending pb ∨ .encoding pb ∈ s.encoders

/-- Somewhere in the pipeline stands a record of the batch with that ordinal,
and its `byteCost` field holds that charge. -/
inductive State.Carries (s : State) : Nat → Int → Prop
  | pendingBatch {pb : PendingBatch} (h : s.Pending pb) : s.Carries pb.ordinal pb.byteCost
  | encodedBatch {eb : EncodedBatch} (h : s.Encoded eb) : s.Carries eb.ordinal eb.byteCost
  | uploadCompletion {uc : UploadCompletion} (h : s.Completed uc) :
      s.Carries uc.eb.ordinal uc.eb.byteCost
  | resolverItem {pr : PendingResolution} (h : s.Decided pr) :
      s.Carries pr.uc.eb.ordinal pr.item.byteCost

theorem State.Pending.flight {pb : PendingBatch} (h : s.Pending pb) : pb.toBatch ∈ s.flight := by
  rcases h with hphase | henc
  · have hrotator : pb.toBatch ∈ s.rotator.phase.flight := by
      rw [hphase]
      exact Multiset.mem_singleton_self _
    exact Multiset.mem_add.mpr (Or.inl (Multiset.mem_add.mpr (Or.inl hrotator)))
  · exact mem_flight_of_encoder henc rfl

/-- What the committer has decided on is in its hands. -/
theorem CommitterPhase.mem_inHand_of_decided {phase : CommitterPhase} {pr : PendingResolution}
    (h : pr ∈ phase.decided) : pr.batch ∈ phase.inHand := by
  have hmem : ∀ {left : List PendingResolution}, pr ∈ left → pr.batch ∈ handedBatches left :=
    fun hleft => Multiset.mem_coe.mpr (List.mem_map_of_mem hleft)
  cases phase with
  | cas group failed call => exact Multiset.mem_add.mpr (Or.inr (hmem h))
  | notifying left => exact hmem h
  | resolving left after => exact hmem h
  | _ => exact absurd h List.not_mem_nil

/-- Every record is of a batch in flight or handed over, so of one that was
emitted. -/
theorem Books.carries (h : Books s) {k : Nat} {cost : Int} (hcarries : s.Carries k cost) :
    ∃ b ∈ emittedOf s.hist.cuts, b.ordinal = k ∧ b.byteCost = cost := by
  cases hcarries with
  | pendingBatch hpb => exact ⟨_, h.conserved.flight_emitted hpb.flight, rfl, rfl⟩
  | encodedBatch heb => exact ⟨_, h.conserved.flight_emitted heb.flight, rfl, rfl⟩
  | uploadCompletion huc => exact ⟨_, h.conserved.flight_emitted huc.flight, rfl, rfl⟩
  | @resolverItem pr hpr =>
      refine ⟨pr.batch, ?_, rfl, rfl⟩
      rcases hpr with hdecided | hhanded
      · have hinHand := CommitterPhase.mem_inHand_of_decided hdecided
        apply h.conserved.flight_emitted
        exact Multiset.mem_add.mpr (Or.inr (Multiset.mem_add.mpr (Or.inr hinHand)))
      · exact h.conserved.handed_emitted hhanded

/-- The item at hand is of the last batch handed over. -/
theorem Books.releasing (h : Books s) {ri : ResolverItem} (hphase : s.resolver = .releasing ri) :
    ∃ pr, s.hist.handed.getLast? = some pr ∧ ri = pr.item ∧
      pr.batch ∈ emittedOf s.hist.cuts := by
  obtain ⟨pr, hlast, hitem⟩ := h.custody.coherent.resolver ri (by rw [hphase]; rfl)
  exact ⟨pr, hlast, hitem, h.conserved.handed_emitted (List.mem_of_getLast? hlast)⟩

/-- Only the resolver moves the resolver, and from its release it goes on with
the budget released. -/
theorem release_step (hs : ProducerStep p s l t) {ri : ResolverItem}
    (hphase : s.resolver = .releasing ri) :
    t.resolver = .releasing ri ∨
      t.resolver = .receiving ∧ t.budget = s.budget.release ri.byteCost 1 := by
  cases hs with
  | append _ hs => cases hs <;> exact Or.inl hphase
  | flush _ hs => cases hs <;> exact Or.inl hphase
  | close _ hs => cases hs <;> exact Or.inl hphase
  | rotator _ hs => cases hs <;> exact Or.inl hphase
  | encoder _ hs => cases hs <;> exact Or.inl hphase
  | uploader _ hs => cases hs <;> exact Or.inl hphase
  | committer _ hs => cases hs <;> exact Or.inl hphase
  | others hs => cases hs <;> exact Or.inl hphase
  | resolver _ hs =>
      cases hs with
      | release hreleasing =>
          rw [hphase] at hreleasing
          cases hreleasing
          exact Or.inr ⟨rfl, rfl⟩
      | closeResolver hdone hopen => exact Or.inl hphase
      | take hreceiving => rw [hphase] at hreceiving; cases hreceiving
      | exit hreceiving => rw [hphase] at hreceiving; cases hreceiving
      | observe hother => rw [hphase] at hother; cases hother
      | resolve hother => rw [hphase] at hother; cases hother
      | resolvedAll hother => rw [hphase] at hother; cases hother
      | ack hother => rw [hphase] at hother; cases hother

/-- **The charge is what the encoder makes.**  Without compression, and with
sizes that fit their fields, the charge of the batch `emit` sends is the length
of its payload and of its metadata.  In every reachable state, every record of a
batch on its way carries the charge of the emitted batch with that ordinal, and
what the resolver releases is the charge of the batch it was handed. -/
theorem charge_is_encoded_size {store : ObjectStore} {items : List EnqueueItem}
    (hnone : p.config.BatchCompression = CompressionNone)
    (hrun : Run p (newProducer p store items) s) :
    (∀ (b : OpenBatch) ordinal reason ack, BatchFits (b.pending ordinal reason ack).entries →
      ∃ payload, EncodeBatch p.zstd (b.pending ordinal reason ack).entries
          p.config.BatchCompression = .ok payload ∧
        (b.pending ordinal reason ack).byteCost =
          payload.length + (b.msgs.map fun m => m.metadata.length).sum) ∧
    (∀ k cost, s.Carries k cost → ∃ b ∈ emittedOf s.hist.cuts, b.ordinal = k ∧ b.byteCost = cost ∧
      (BatchFits b.entriesOf → ∃ payload,
        EncodeBatch p.zstd b.entriesOf p.config.BatchCompression = .ok payload ∧
        cost = payload.length + (b.msgs.map fun m => m.metadata.length).sum)) ∧
    ∀ ri l t, s.resolver = .releasing ri → ProducerStep p s l t → t.resolver = .releasing ri ∨
      ∃ pr, s.hist.handed.getLast? = some pr ∧ pr.batch ∈ emittedOf s.hist.cuts ∧
        t.budget = s.budget.release pr.batch.byteCost 1 := by
  have hbooks := reachable_books hrun
  rw [hnone]
  refine ⟨?_, ?_, ?_⟩
  · intro b ordinal reason ack hfit
    rw [(b.pending ordinal reason ack).entries_eq] at hfit ⊢
    exact Batch.byteCost_encoded p.zstd _ hfit
  · intro k cost hcarries
    obtain ⟨b, hb, hordinal, rfl⟩ := hbooks.carries hcarries
    exact ⟨b, hb, hordinal, rfl, b.byteCost_encoded p.zstd⟩
  · intro ri l t hphase hs
    rcases release_step hs hphase with hsame | ⟨-, hbudget⟩
    · exact Or.inl hsame
    · obtain ⟨pr, hlast, rfl, hmem⟩ := hbooks.releasing hphase
      exact Or.inr ⟨pr, hlast, hmem, hbudget⟩

/-- The sample batch of one byte is charged twelve bytes, and so is the record
the committer works on. -/
theorem charge_is_encoded_size_sample :
    Run sampleProducer sampleStart sampleCommitting ∧
      ∃ b ∈ emittedOf sampleCommitting.hist.cuts, b.ordinal = 0 ∧ b.byteCost = 12 := by
  have hrun := sample_committing.run
  have hgroup : sampleCommitting.Completed sampleCompletion :=
    Or.inr (Or.inr (Or.inr (Or.inr List.mem_cons_self)))
  have hcarries : sampleCommitting.Carries 0 12 := .uploadCompletion hgroup
  obtain ⟨b, hb, hordinal, hcost, -⟩ := (charge_is_encoded_size rfl hrun).2.1 0 12 hcarries
  exact ⟨hrun, b, hb, hordinal, hcost⟩

end OpenDataBuffer
