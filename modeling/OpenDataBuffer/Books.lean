import OpenDataBuffer.Accounting
import OpenDataBuffer.Barrier
import OpenDataBuffer.LedgerRefinement

/-!
# The books of a producer

Everything proved of the ledger holds of the producer: its conservation laws,
the balance of the budget and the flush barrier, in every reachable state; and
history only grows from one state to a later one.
-/

namespace OpenDataBuffer

variable {p : Producer} {s t : State} {l : Label} {allowed : State → Label → Prop}

/-- What every reachable state keeps about custody and the budget. -/
structure Books (s : State) : Prop where
  custody : Custody s
  accounted : Accounted s.ledger
  barrier : Barrier s.ledger

/-- Books that are in order are conserved. -/
theorem Books.conserved (h : Books s) : Conserved s.ledger := h.custody.conserved

/-- **Step rule for the books.** -/
theorem Books.step (h : Books s) (hs : ProducerStep p s l t) : Books t := by
  refine ⟨h.custody.step hs, ?_, ?_⟩
  · rcases h.custody.refines hs with heq | hledger
    · rw [heq]
      exact h.accounted
    · exact h.accounted.step hledger
  · rcases h.custody.refines hs with heq | hledger
    · rw [heq]
      exact h.barrier
    · exact h.barrier.step h.conserved hledger

/-- The records grow with every step. -/
theorem Books.grows (h : Books s) (hs : ProducerStep p s l t) : Grows s.ledger t.ledger :=
  h.custody.grows hs

theorem books_newProducer (store : ObjectStore) (items : List EnqueueItem) :
    Books (newProducer p store items) := by
  have hcustody := custody_newProducer (p := p) store items
  have hflight := flight_newProducer (p := p) store items
  have hun : (newProducer p store items).ledger.unreleased = 0 := by
    show (newProducer p store items).flight + 0 = 0
    rw [hflight, add_zero]
  have hout : (newProducer p store items).ledger.outstanding = 0 := by
    rw [Ledger.outstanding, hun]
    rfl
  refine ⟨hcustody, ?_, ⟨?_, ?_, ?_, ?_, ?_⟩⟩
  · rw [Accounted, hout, hun]
    refine ⟨rfl, rfl, ?_, ?_, ?_⟩
    · refine Or.inl ?_
      show (0 : Int) ≤ if p.config.MaxInFlightBytes < 1 then 1 else p.config.MaxInFlightBytes
      split <;> omega
    · show (0 : Int) ≤ if p.config.MaxInFlightBatches < 1 then 1 else p.config.MaxInFlightBatches
      split <;> omega
    · show (1 : Int) ≤ if p.config.MaxInFlightBytes < 1 then 1 else p.config.MaxInFlightBytes
      split <;> omega
  · exact fun n hn => absurd hn List.not_mem_nil
  · intro f hf
    cases hf
  · exact fun b hb => absurd hb List.not_mem_nil
  · intro f hf
    cases hf
  · exact fun f hf => absurd hf List.not_mem_nil

/-- **The books hold in every run.** -/
theorem reachable_books {store : ObjectStore} {items : List EnqueueItem}
    (hrun : RunWhere p allowed (newProducer p store items) s) : Books s :=
  hrun.invariant (books_newProducer store items) (fun _ _ _ h _ hs => h.step hs)

/-- **History only grows.** -/
theorem RunWhere.grows (hrun : RunWhere p allowed s t) (h : Books s) :
    Grows s.ledger t.ledger := by
  have hboth := hrun.invariant (P := fun x => Books x ∧ Grows s.ledger x.ledger)
    ⟨h, Grows.refl _⟩ (fun _ _ _ hx _ hs => ⟨hx.1.step hs, hx.2.trans (hx.1.grows hs)⟩)
  exact hboth.2

/-- With no batch counted, every emitted batch is resolved. -/
theorem Books.drained (h : Books s) (hzero : s.budget.batchesUsed = 0) {b : Batch}
    (hb : b ∈ emittedOf s.hist.cuts) : ∃ pr ∈ s.hist.handed, pr.batch = b ∧
      ∀ w ∈ b.watchers, (w, pr.err) ∈ s.hist.resolved := by
  obtain ⟨hflight, hsettling⟩ := h.accounted.no_batches hzero
  have hmem : b ∈ s.ledger.flight + handedBatches s.hist.handed := by
    rw [show s.ledger.flight + handedBatches s.hist.handed = ↑(emittedOf s.hist.cuts) from
      h.conserved.flight]
    exact Multiset.mem_coe.mpr hb
  rw [hflight, zero_add] at hmem
  obtain ⟨pr, hpr, rfl⟩ := List.mem_map.mp (Multiset.mem_coe.mp hmem)
  refine ⟨pr, hpr, rfl, fun w hw => ?_⟩
  rcases h.conserved.handed_resolved hpr hw with hres | hleft
  · exact hres
  · rw [(h.conserved.idle hsettling).1] at hleft
    exact absurd hleft List.not_mem_nil

end OpenDataBuffer
