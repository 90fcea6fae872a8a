import OpenDataBuffer.Ensembles
import OpenDataBuffer.Uploads

/-!
# Data objects are written once

Producers that share a store write their data objects under names of their own:
the name of an object determines the producer and the batch, and sorts by the
number of the batch.  A batch is encoded once, by one encoder, and taken by one
uploader, so all calls of `Put` for its name are attempts of that uploader with
the same bytes.
-/

namespace OpenDataBuffer

open LabelledRuns ListUpdate Ensembles

/-! ## Locations -/

/-- Digits are in the order of their characters. -/
theorem hexDigit_lt {a b : Nat} (hb : b < 16) (h : a < b) : hexDigit a < hexDigit b := by
  rw [UInt8.lt_iff_toNat_lt]
  simp only [hexDigit, UInt8.toNat_ofNat']
  split <;> split <;> omega

/-- A digit is not a slash. -/
theorem hexDigit_ne_slash {d : Nat} (h : d < 16) : hexDigit d ≠ 47 := by
  intro heq
  have hnat := congrArg UInt8.toNat heq
  simp only [hexDigit, UInt8.toNat_ofNat', UInt8.toNat_ofNat] at hnat
  split at hnat <;> omega

/-- An ordinal is written without a slash. -/
theorem slash_notMem_hexDigits (w n : Nat) : 47 ∉ hexDigits w n := by
  induction w generalizing n with
  | zero => exact List.not_mem_nil
  | succ w ih =>
      intro h
      rcases List.mem_append.mp h with hhigh | hlow
      · exact ih _ hhigh
      · exact hexDigit_ne_slash (Nat.mod_lt n (by decide)) (List.mem_singleton.mp hlow).symm

/-- Texts of the same length are in order whatever follows them. -/
theorem lt_append_append {a b : Bytes} (hlen : a.length = b.length) (h : a < b) (x y : Bytes) :
    a ++ x < b ++ y := by
  induction h with
  | nil => simp at hlen
  | rel hlt => exact List.Lex.rel hlt
  | cons _ ih => exact List.Lex.cons (ih (by simpa using hlen))

/-- Of two numbers with as many digits, the smaller one comes first. -/
theorem hexDigits_lt {w a b : Nat} (hb : b < 16 ^ w) (h : a < b) :
    hexDigits w a < hexDigits w b := by
  induction w generalizing a b with
  | zero => simp at hb; omega
  | succ w ih =>
      rw [hexDigits, hexDigits]
      by_cases hhigh : a / 16 = b / 16
      · rw [hhigh]
        apply List.append_left_lt
        exact List.Lex.rel (hexDigit_lt (by omega) (by omega))
      · have hlt : hexDigits w (a / 16) < hexDigits w (b / 16) :=
          ih (by rw [pow_succ] at hb; omega) (by omega)
        exact lt_append_append (by rw [hexDigits_length, hexDigits_length]) hlt _ _

/-- An ordinal below `2^64` is written with sixteen digits. -/
theorem hex016_of_lt {n : Nat} (h : n < 2 ^ 64) : hex016 n = hexDigits 16 n := by
  have hlog : Nat.log2 n < 64 := by
    by_cases hzero : n = 0
    · rw [hzero]
      decide
    · exact (Nat.log2_lt hzero).mpr h
  rw [hex016, Nat.max_eq_left (by omega)]

/-- **The order of locations.**  The locations of a run are in the order of the
ordinals, for all ordinals of 64 bits. -/
theorem Producer.location_lt_iff (p : Producer) {a b : Nat} (ha : a < 2 ^ 64) (hb : b < 2 ^ 64) :
    p.location a < p.location b ↔ a < b := by
  have hlt : ∀ {m n : Nat}, m < 2 ^ 64 → n < 2 ^ 64 → m < n → p.location m < p.location n := by
    intro m n hm hn h
    apply List.append_left_lt
    apply List.Lex.cons
    apply List.append_left_lt
    apply List.Lex.cons
    rw [hex016_of_lt hm, hex016_of_lt hn]
    exact hexDigits_lt hn h
  refine ⟨fun h => ?_, hlt ha hb⟩
  rcases Nat.lt_trichotomy a b with hab | rfl | hba
  · exact hab
  · exact absurd h (List.lt_irrefl _)
  · exact absurd h (List.lt_asymm (hlt hb ha hba))

/-- A text is cut in one way at its last slash. -/
theorem last_slash_inj {x y u v : Bytes} (hu : 47 ∉ u) (hv : 47 ∉ v)
    (h : x ++ 47 :: u = y ++ 47 :: v) : x = y ∧ u = v := by
  rcases List.append_eq_append_iff.mp h with ⟨z, rfl, htail⟩ | ⟨z, rfl, htail⟩
  · cases z with
    | nil => simpa using htail
    | cons c z =>
        obtain ⟨-, rfl⟩ := List.cons.inj htail
        exact absurd (List.mem_append_right z List.mem_cons_self) hu
  · cases z with
    | nil => simpa [eq_comm] using htail
    | cons c z =>
        obtain ⟨-, rfl⟩ := List.cons.inj htail
        exact absurd (List.mem_append_right z List.mem_cons_self) hv

/-- **A location says whose it is.**  Whatever the prefixes, it determines the
prefix, the run and the ordinal. -/
theorem Producer.location_determines {p q : Producer} (hid : p.runID.length = q.runID.length)
    {a b : Nat} (h : p.location a = q.location b) :
    p.config.DataPathPrefix = q.config.DataPathPrefix ∧ p.runID = q.runID ∧ a = b := by
  have hcut : (p.config.DataPathPrefix ++ 47 :: p.runID) ++ 47 :: hex016 a
      = (q.config.DataPathPrefix ++ 47 :: q.runID) ++ 47 :: hex016 b := by
    simpa [Producer.location] using h
  obtain ⟨hrun, hhex⟩ :=
    last_slash_inj (slash_notMem_hexDigits _ _) (slash_notMem_hexDigits _ _) hcut
  obtain ⟨hpath, hslash⟩ := List.append_inj' hrun (by simp [hid])
  exact ⟨hpath, (List.cons.inj hslash).2, hex016_inj hhex⟩

/-! ## Attempts of an uploader -/

variable {p : Producer} {s t : State} {l : Label} {eb : EncodedBatch}

/-- Uploader `j` has the batch, and stands in or behind this attempt. -/
def State.Uploading (s : State) (j : Nat) (eb : EncodedBatch) (attempt : Nat) : Prop :=
  (∃ applied, s.uploaders[j]? = some (.putting eb attempt applied)) ∨
    s.uploaders[j]? = some (.backoff eb attempt)

/-- The batches that no uploader has taken yet. -/
def State.unclaimed (s : State) : Multiset Batch :=
  s.rotator.phase.flight + (s.encoders.map EncoderPhase.flight).sum

/-- An uploader that has a batch has it in flight and encoded. -/
theorem State.Uploading.phase {j n : Nat} (h : s.Uploading j eb n) :
    ∃ u, s.uploaders[j]? = some u ∧ u.flight = {eb.toBatch} ∧ u.encoded? = some eb := by
  rcases h with ⟨applied, hu⟩ | hu
  · exact ⟨_, hu, rfl, rfl⟩
  · exact ⟨_, hu, rfl, rfl⟩

/-- A batch that is uploaded is encoded. -/
theorem State.Uploading.encoded {j n : Nat} (h : s.Uploading j eb n) : s.Encoded eb := by
  obtain ⟨u, hu, -, heb⟩ := h.phase
  exact State.encoded_of_mem hu heb

/-- What an uploader has after a step, from before or from an encoder. -/
theorem UploaderStep.uploading {j n : Nat} (hs : UploaderStep p s l t) (h : t.Uploading j eb n) :
    (∃ m ≤ n, s.Uploading j eb m) ∨ ∃ e ∈ s.encoders, e.encoded? = some eb := by
  have hset : ∀ {i : Nat} {u : UploaderPhase}, t.uploaders = s.uploaders.set i u →
      s.Uploading j eb n ∨ j = i ∧ (u = .backoff eb n ∨ ∃ applied, u = .putting eb n applied) := by
    intro i u huploaders
    rcases h with ⟨applied, hu⟩ | hu
    · rw [huploaders] at hu
      rcases getElem?_set_cases hu with ⟨rfl, heq⟩ | ⟨-, hold⟩
      · exact Or.inr ⟨rfl, Or.inr ⟨applied, heq.symm⟩⟩
      · exact Or.inl (Or.inl ⟨applied, hold⟩)
    · rw [huploaders] at hu
      rcases getElem?_set_cases hu with ⟨rfl, heq⟩ | ⟨-, hold⟩
      · exact Or.inr ⟨rfl, Or.inl heq.symm⟩
      · exact Or.inl (Or.inr hold)
  cases hs with
  | take henc hup hopen =>
      rcases hset rfl with hold | ⟨rfl, hnew | ⟨applied, hnew⟩⟩
      · exact Or.inl ⟨n, le_rfl, hold⟩
      · cases hnew
      · cases hnew
        exact Or.inr ⟨_, List.mem_of_getElem? henc, rfl⟩
  | putApplies version hup hnames =>
      rcases hset rfl with hold | ⟨rfl, hnew | ⟨applied, hnew⟩⟩
      · exact Or.inl ⟨n, le_rfl, hold⟩
      · cases hnew
      · cases hnew
        exact Or.inl ⟨n, le_rfl, Or.inl ⟨_, hup⟩⟩
  | putFails err hup =>
      rcases hset rfl with hold | ⟨rfl, hnew⟩
      · exact Or.inl ⟨n, le_rfl, hold⟩
      · unfold Producer.afterPutError at hnew
        split at hnew
        · rcases hnew with hnew | ⟨applied, hnew⟩ <;> cases hnew
          exact Or.inl ⟨n, le_rfl, Or.inl ⟨_, hup⟩⟩
        · rcases hnew with hnew | ⟨applied, hnew⟩ <;> cases hnew
  | retry hup =>
      rcases hset rfl with hold | ⟨rfl, hnew | ⟨applied, hnew⟩⟩
      · exact Or.inl ⟨n, le_rfl, hold⟩
      · cases hnew
      · cases hnew
        exact Or.inl ⟨_, Nat.le_succ _, Or.inr hup⟩
  | completeClosed hup hclosed => exact Or.inl ⟨n, le_rfl, h⟩
  | closeCompletions hpool hall => exact Or.inl ⟨n, le_rfl, h⟩
  | closePoolDone hpool => exact Or.inl ⟨n, le_rfl, h⟩
  | _ =>
      rcases hset rfl with hold | ⟨rfl, hnew | ⟨applied, hnew⟩⟩
      · exact Or.inl ⟨n, le_rfl, hold⟩
      · cases hnew
      · cases hnew

/-- An uploader has its batch at an attempt that does not go back, or gets it from an
encoder. -/
theorem uploading_step {j n : Nat} (hs : ProducerStep p s l t) (h : t.Uploading j eb n) :
    (∃ m ≤ n, s.Uploading j eb m) ∨ ∃ e ∈ s.encoders, e.encoded? = some eb := by
  cases hs with
  | append _ hs => cases hs <;> exact Or.inl ⟨n, le_rfl, h⟩
  | flush _ hs => cases hs <;> exact Or.inl ⟨n, le_rfl, h⟩
  | close _ hs => cases hs <;> exact Or.inl ⟨n, le_rfl, h⟩
  | rotator _ hs => cases hs <;> exact Or.inl ⟨n, le_rfl, h⟩
  | encoder _ hs => cases hs <;> exact Or.inl ⟨n, le_rfl, h⟩
  | uploader _ hs => exact hs.uploading h
  | committer _ hs => cases hs <;> exact Or.inl ⟨n, le_rfl, h⟩
  | resolver _ hs => cases hs <;> exact Or.inl ⟨n, le_rfl, h⟩
  | others hs => cases hs <;> exact Or.inl ⟨n, le_rfl, h⟩

/-- A batch that no uploader has had is with the rotator or an encoder. -/
theorem mem_unclaimed {b : Batch} : b ∈ s.unclaimed ↔
    b ∈ s.rotator.phase.flight ∨ ∃ e ∈ s.encoders, b ∈ e.flight := by
  rw [State.unclaimed, Multiset.mem_add]
  refine or_congr_right ⟨fun h => ?_, fun ⟨e, he, hb⟩ => ?_⟩
  · obtain ⟨i, e, he, hb⟩ := exists_of_mem_sum h
    exact ⟨e, List.mem_of_getElem? he, hb⟩
  · obtain ⟨i, hi⟩ := List.getElem?_of_mem he
    exact mem_sum_of_getElem? hi hb

/-- The rotator gives a new batch the next ordinal. -/
theorem RotatorStep.flight_new (hs : RotatorStep p s l t) {b : Batch}
    (hb : b ∈ t.rotator.phase.flight) :
    b ∈ s.rotator.phase.flight ∨ b.ordinal = s.rotator.ordinal := by
  have hquiet : ∀ {serving refusing}, Quiet t.rotator.phase serving refusing → False := by
    intro serving refusing hq
    rw [hq.flight] at hb
    exact Multiset.notMem_zero b hb
  cases hs with
  | reconcile hphase =>
      obtain rfl := Multiset.mem_singleton.mp hb
      exact Or.inr rfl
  | sendClosed hphase hclosed => exact Or.inl hb
  | receive hphase hqueue => exact (hquiet (quiet_afterAdd p _)).elim
  | handoff hphase hcap hqueue hopen hcall hsend => exact (hquiet (quiet_afterAdd p _)).elim
  | receiveClosed hphase hqueue hclosed => exact (hquiet (quiet_emit _ _ _)).elim
  | drainDone hphase hqueue => exact (hquiet (quiet_emit _ _ _)).elim
  | timer hphase hstarted => exact (hquiet (quiet_emit _ _ _)).elim
  | dropDone hphase => exact (hquiet (quiet_afterDrop _ _)).elim
  | ack hphase hcall hroom => exact (hquiet (quiet_afterEmit _)).elim
  | _ => exact absurd hb (Multiset.notMem_zero b)

/-- An encoder takes its batch from the rotator. -/
theorem EncoderStep.unclaimed (hs : EncoderStep p s l t) {b : Batch} (hb : b ∈ t.unclaimed) :
    b ∈ s.unclaimed := by
  rw [mem_unclaimed] at hb ⊢
  have hmoved : ∀ {i : Nat} {e e' : EncoderPhase}, s.encoders[i]? = some e' →
      e.flight ≤ e'.flight → (∃ x ∈ s.encoders.set i e, b ∈ x.flight) →
      ∃ x ∈ s.encoders, b ∈ x.flight := by
    intro i e e' henc hle h
    rcases exists_mem_set h with hold | hnew
    · exact hold
    · exact ⟨e', List.mem_of_getElem? henc, Multiset.mem_of_le hle hnew⟩
  cases hs with
  | take henc hsend =>
      rcases hb with hrotator | hpool
      · have hzero := (quiet_afterEmit _).flight ▸ hrotator
        exact absurd hzero (Multiset.notMem_zero b)
      · rcases exists_mem_set hpool with hold | hnew
        · exact Or.inr hold
        · refine Or.inl ?_
          rw [hsend]
          exact hnew
  | exit henc hclosed => exact hb.imp_right (hmoved henc (Multiset.zero_le _))
  | encoded henc hok =>
      refine hb.imp_right fun hpool => hmoved henc ?_ hpool
      exact le_rfl
  | encodeFails err henc =>
      refine hb.imp_right fun hpool => hmoved henc ?_ hpool
      exact le_rfl
  | complete henc hopen hroom => exact hb.imp_right (hmoved henc (Multiset.zero_le _))
  | _ => exact hb

/-- Uploaders give no batch back. -/
theorem UploaderStep.unclaimed (hs : UploaderStep p s l t) {b : Batch} (hb : b ∈ t.unclaimed) :
    b ∈ s.unclaimed := by
  rw [mem_unclaimed] at hb ⊢
  cases hs with
  | take henc hup hopen =>
      rcases hb with hrotator | hpool
      · exact Or.inl hrotator
      · rcases exists_mem_set hpool with hold | hnew
        · exact Or.inr hold
        · exact absurd hnew (Multiset.notMem_zero b)
  | _ => exact hb

/-- Batches are not given back: what no uploader has now, none had before, or it
is new. -/
theorem unclaimed_step (hs : ProducerStep p s l t) {b : Batch} (hb : b ∈ t.unclaimed) :
    b ∈ s.unclaimed ∨ b.ordinal = s.rotator.ordinal := by
  rw [mem_unclaimed] at hb ⊢
  cases hs with
  | append _ hs => cases hs <;> exact Or.inl hb
  | flush _ hs => cases hs <;> exact Or.inl hb
  | close _ hs => cases hs <;> exact Or.inl hb
  | committer _ hs => cases hs <;> exact Or.inl hb
  | resolver _ hs => cases hs <;> exact Or.inl hb
  | others hs => cases hs <;> exact Or.inl hb
  | rotator _ hs =>
      have hencoders : t.encoders = s.encoders := by cases hs <;> rfl
      rcases hb with hrotator | henc
      · rcases hs.flight_new hrotator with hold | hnew
        · exact Or.inl (Or.inl hold)
        · exact Or.inr hnew
      · rw [hencoders] at henc
        exact Or.inl (Or.inr henc)
  | encoder _ hs => exact Or.inl (mem_unclaimed.mp (hs.unclaimed (mem_unclaimed.mpr hb)))
  | uploader _ hs => exact Or.inl (mem_unclaimed.mp (hs.unclaimed (mem_unclaimed.mpr hb)))

/-! ## One uploader for each batch -/

/-- Batch `b` is with uploader `j`, in or behind attempt `n`, or past the
uploaders. -/
structure ClaimedBy (j n : Nat) (b : Batch) (s : State) : Prop where
  emitted : b ∈ emittedOf s.hist.cuts
  claimed : b ∉ s.unclaimed
  uploader : ∀ i eb m, s.Uploading i eb m → eb.toBatch = b → i = j ∧ n ≤ m

/-- **A batch has one uploader for good.** -/
theorem ClaimedBy.step {j n : Nat} {b : Batch} (h : ClaimedBy j n b s) (hc : Custody s)
    (hs : ProducerStep p s l t) : ClaimedBy j n b t := by
  refine ⟨emitted_mono hc hs h.emitted, fun hb => ?_, ?_⟩
  · rcases unclaimed_step hs hb with hold | hnew
    · exact h.claimed hold
    · -- the ordinals in use are those below the next one
      have hnumbered : (emittedOf s.hist.cuts).map Batch.ordinal
          = List.range s.rotator.ordinal := hc.conserved.numbered
      have hmem : b.ordinal ∈ (emittedOf s.hist.cuts).map Batch.ordinal :=
        List.mem_map_of_mem h.emitted
      rw [hnumbered, List.mem_range] at hmem
      omega
  · intro i eb m hup hbatch
    rcases uploading_step hs hup with ⟨m', hle, hold⟩ | ⟨e, he, heb⟩
    · obtain ⟨hij, hn⟩ := h.uploader i eb m' hold hbatch
      exact ⟨hij, hn.trans hle⟩
    · refine absurd (mem_unclaimed.mpr (Or.inr ⟨e, he, ?_⟩)) h.claimed
      cases e <;> cases heb
      exact hbatch ▸ Multiset.mem_singleton_self _

/-- The batches in flight, by whether an uploader has had them. -/
theorem flight_unclaimed (s : State) :
    s.flight = s.unclaimed + (s.uploaders.map UploaderPhase.flight).sum +
      (batchesOf s.uploadCompletionCh.queue +
        (batchesOf s.committer.ready + s.committer.phase.inHand)) := by
  rw [State.flight, State.upstream, State.unclaimed]
  simp only [add_assoc]

/-- An uploader that has a batch is the only one to have it. -/
theorem Custody.claimedBy {j n : Nat} (hc : Custody s) (h : s.Uploading j eb n) :
    ClaimedBy j n eb.toBatch s := by
  obtain ⟨u, hu, hflight, -⟩ := h.phase
  have hmem : eb.toBatch ∈ u.flight := by
    rw [hflight]
    exact Multiset.mem_singleton_self _
  have hnodup : (s.unclaimed + (s.uploaders.map UploaderPhase.flight).sum).Nodup := by
    refine Multiset.nodup_of_le ?_ (Multiset.Nodup.of_map _ hc.conserved.distinct)
    rw [flight_unclaimed]
    exact Multiset.le_add_right _ _
  obtain ⟨-, hpool, hdisjoint⟩ := Multiset.nodup_add.mp hnodup
  refine ⟨hc.conserved.flight_emitted h.encoded.flight, fun hb => ?_, ?_⟩
  · exact Multiset.disjoint_left.mp hdisjoint hb (mem_sum_of_getElem? hu hmem)
  · intro i eb' m hup hbatch
    obtain ⟨u', hu', hflight', -⟩ := hup.phase
    have hmem' : eb.toBatch ∈ u'.flight := by
      rw [hflight', hbatch]
      exact Multiset.mem_singleton_self _
    obtain rfl := index_unique hpool hu hu' hmem hmem'
    refine ⟨rfl, le_of_eq ?_⟩
    rcases h with ⟨a, h⟩ | h <;> rcases hup with ⟨a', hup⟩ | hup <;> cases h.symm.trans hup <;> rfl

/-! ## Producers on one store -/

/-- A producer finds the store as another one left it.  What is recorded about the
manifest is left open: no step of its code looks at it. -/
def SeesStore (other x y : State) : Prop :=
  ∃ log, y = { x with store := other.store, hist := { x.hist with manifest := log } }

/-- The runs of producers that share a store. -/
abbrev FleetRun {ι : Type} (fleet : ι → Producer) (S T : ι → State) : Prop :=
  EnsembleRun (fun i => ProducerStep (fleet i)) SeesStore S T

/-- New producers on one store, each with a manifest that holds its `items`. -/
def newFleet {ι : Type} (fleet : ι → Producer) (store : ObjectStore)
    (items : ι → List EnqueueItem) (i : ι) : State :=
  newProducer (fleet i) store (items i)

section Fleet

variable {ι : Type} {fleet : ι → Producer} {store : ObjectStore} {items : ι → List EnqueueItem}
  {S T : ι → State}

theorem Custody.sees {other x y : State} (h : Custody x) (hsees : SeesStore other x y) :
    Custody y := by
  obtain ⟨log, rfl⟩ := hsees
  exact ⟨⟨h.coherent.rotator, h.coherent.resolver⟩, h.conserved⟩

theorem Named.sees {other x y : State} (h : Named p x) (hsees : SeesStore other x y) :
    Named p y := by
  obtain ⟨log, rfl⟩ := hsees
  exact ⟨h.made, h.located⟩

theorem ClaimedBy.sees {j n : Nat} {b : Batch} {other x y : State} (h : ClaimedBy j n b x)
    (hsees : SeesStore other x y) : ClaimedBy j n b y := by
  obtain ⟨log, rfl⟩ := hsees
  exact ⟨h.emitted, h.claimed, h.uploader⟩

/-- A producer can run while the others rest. -/
theorem FleetRun.of_member {i : ι} (h : Run (fleet i) (S i) t) :
    ∃ T, FleetRun fleet S T ∧ T i = t :=
  EnsembleRun.of_member (fun _ x => ⟨_, x.hist.manifest, rfl⟩) h

/-- Every member keeps its books and its names, whatever the others do. -/
theorem fleet_named (h : FleetRun fleet (newFleet fleet store items) S) (i : ι) :
    Custody (S i) ∧ Named (fleet i) (S i) := by
  refine EnsembleRun.invariant (P := fun i x => Custody x ∧ Named (fleet i) x) ?_ ?_ ?_ h i
  · exact fun i => ⟨custody_newProducer store (items i), named_newProducer store (items i)⟩
  · rintro i x l y ⟨hc, hn⟩ hs
    exact ⟨hc.step hs, hn.step hc.conserved.distinct hs⟩
  · rintro i other x y ⟨hc, hn⟩ hsees
    exact ⟨hc.sees hsees, hn.sees hsees⟩

/-- A batch stays with its uploader until that is done with it. -/
theorem fleet_claimed (hS : ∀ i, Custody (S i)) (h : FleetRun fleet S T) {i : ι} {j n : Nat}
    (hup : (S i).Uploading j eb n) : ClaimedBy j n eb.toBatch (T i) := by
  have hall := EnsembleRun.invariant
    (P := fun k x => Custody x ∧ (k = i → ClaimedBy j n eb.toBatch x)) ?_ ?_ ?_ h i
  · exact hall.2 rfl
  · rintro k
    refine ⟨hS k, ?_⟩
    rintro rfl
    exact (hS k).claimedBy hup
  · rintro k x l y ⟨hc, hclaimed⟩ hs
    exact ⟨hc.step hs, fun hk => (hclaimed hk).step hc hs⟩
  · rintro k other x y ⟨hc, hclaimed⟩ hsees
    exact ⟨hc.sees hsees, fun hk => (hclaimed hk).sees hsees⟩

/-- A call of `Put` in progress. -/
def State.Putting (s : State) (j : Nat) (eb : EncodedBatch) (attempt : Nat) : Prop :=
  ∃ applied, s.uploaders[j]? = some (.putting eb attempt applied)

/-- Two calls of `Put` for the same name, at any two points of a run, are attempts
of one uploader for one batch, with the same bytes. -/
theorem fleet_puts (hlength : ∀ i, (fleet i).runID.length = 26)
    (hdistinct : ∀ i j, (fleet i).runID = (fleet j).runID → i = j)
    (hS : FleetRun fleet (newFleet fleet store items) S) (hT : FleetRun fleet S T) {i i' : ι}
    {j j' n n' : Nat} {eb' : EncodedBatch} (hput : (S i).Putting j eb n)
    (hput' : (T i').Putting j' eb' n') (hloc : eb.location = eb'.location) :
    i = i' ∧ j = j' ∧ n ≤ n' ∧ eb.toBatch = eb'.toBatch ∧ eb.payload = eb'.payload := by
  have hup : (S i).Uploading j eb n := Or.inl hput
  have hup' : (T i').Uploading j' eb' n' := Or.inl hput'
  obtain ⟨hc', hn'⟩ := fleet_named (hS.trans hT) i'
  have hmade := (fleet_named hS i).2.made eb hup.encoded
  have hmade' := hn'.made eb' hup'.encoded
  have hsame : (fleet i).location eb.ordinal = (fleet i').location eb'.ordinal := by
    rw [← hmade.location, ← hmade'.location, hloc]
  obtain ⟨-, hid, hordinal⟩ :=
    Producer.location_determines ((hlength i).trans (hlength i').symm) hsame
  obtain rfl := hdistinct i i' hid
  have hclaimed := fleet_claimed (fun k => (fleet_named hS k).1) hT hup
  have hbatch : eb.toBatch = eb'.toBatch :=
    hc'.conserved.emitted_inj hclaimed.emitted (hc'.conserved.flight_emitted hup'.encoded.flight)
      hordinal
  obtain ⟨hj, hn⟩ := hclaimed.uploader j' eb' n' hup' hbatch.symm
  refine ⟨rfl, hj.symm, hn, hbatch, ?_⟩
  have hpayload := hmade.payload
  rw [show eb.entriesOf = eb'.entriesOf from congrArg Batch.entriesOf hbatch, hmade'.payload]
    at hpayload
  exact (Except.ok.inj hpayload).symm

end Fleet

/-- **Data objects are written once.**  A location determines the prefix, the run
and the ordinal, and the locations of a producer sort by the ordinals.  In every
run of producers on one store, with run names of their own: different batches have
different locations; every `Put` goes to the location of an emitted batch with its
encoding; and two of them to the same location, at whatever points of the run, are
attempts of one uploader for one batch, with the same bytes. -/
theorem data_objects_write_once {ι : Type} (fleet : ι → Producer)
    (hlength : ∀ i, (fleet i).runID.length = 26)
    (hdistinct : ∀ i j, (fleet i).runID = (fleet j).runID → i = j) (store : ObjectStore)
    (items : ι → List EnqueueItem) :
    (∀ (p q : Producer) (a b : Nat), p.runID.length = 26 → q.runID.length = 26 →
      p.location a = q.location b →
      p.config.DataPathPrefix = q.config.DataPathPrefix ∧ p.runID = q.runID ∧ a = b) ∧
    (∀ (p : Producer) (a b : Nat), a < 2 ^ 64 → b < 2 ^ 64 →
      (p.location a < p.location b ↔ a < b)) ∧
    ∀ S, FleetRun fleet (newFleet fleet store items) S →
      (∀ i i' b b', b ∈ emittedOf (S i).hist.cuts → b' ∈ emittedOf (S i').hist.cuts →
        (fleet i).location b.ordinal = (fleet i').location b'.ordinal → i = i' ∧ b = b') ∧
      (∀ i j eb n, (S i).Putting j eb n →
        eb.toBatch ∈ emittedOf (S i).hist.cuts ∧ (fleet i).Made eb) ∧
      ∀ T, FleetRun fleet S T → ∀ i i' j j' eb eb' n n', (S i).Putting j eb n →
        (T i').Putting j' eb' n' → eb.location = eb'.location →
        i = i' ∧ j = j' ∧ n ≤ n' ∧ eb.toBatch = eb'.toBatch ∧ eb.payload = eb'.payload := by
  refine ⟨?_, fun p a b ha hb => p.location_lt_iff ha hb, fun S hS => ⟨?_, ?_, ?_⟩⟩
  · intro p q a b hp hq h
    exact Producer.location_determines (hp.trans hq.symm) h
  · intro i i' b b' hb hb' hloc
    obtain ⟨-, hid, hordinal⟩ :=
      Producer.location_determines ((hlength i).trans (hlength i').symm) hloc
    obtain rfl := hdistinct i i' hid
    exact ⟨rfl, (fleet_named hS i).1.conserved.emitted_inj hb hb' hordinal⟩
  · intro i j eb n hput
    obtain ⟨hc, hn⟩ := fleet_named hS i
    have henc : (S i).Encoded eb := State.Uploading.encoded (n := n) (Or.inl hput)
    exact ⟨hc.conserved.flight_emitted henc.flight, hn.made eb henc⟩
  · intro T hT i i' j j' eb eb' n n' hput hput' hloc
    exact fleet_puts hlength hdistinct hS hT hput hput' hloc

/-- Two producers with the same prefix that try each upload twice. -/
def sampleFleet (i : Bool) : Producer :=
  Producer.new { sampleConfig with UploadMaxAttempts := 2 }
    (List.replicate 26 (if i then 65 else 66)) sampleZstd

/-- A `Put` that fails is followed by another attempt, if there is one left. -/
theorem State.Putting.retries {j n : Nat} (h : s.Putting j eb n) (hrun : s.panicked = none)
    (hleft : n + 1 < p.uploadMaxAttempts) : ∃ t, Run p s t ∧ t.Putting j eb (n + 1) := by
  obtain ⟨applied, hup⟩ := h
  have hafter : p.afterPutError eb n .preconditionFailed = .backoff eb n := if_pos hleft
  have hfails := UploaderStep.putFails (p := p) .preconditionFailed hup
  rw [hafter] at hfails
  have hretry := UploaderStep.retry (p := p)
    (s := { s with uploaders := s.uploaders.set j (.backoff eb n) }) (getElem?_set_same hup)
  have hbackoff : Run p s { s with uploaders := s.uploaders.set j (.backoff eb n) } :=
    Reach.refl.tail trivial (.uploader hrun hfails)
  exact ⟨_, hbackoff.tail trivial (.uploader hrun hretry), false,
    getElem?_set_same (getElem?_set_same hup)⟩

/-- A producer of the fleet uploads a batch. -/
theorem sampleFleet_puts :
    ∃ s eb, Run (sampleFleet true) (newProducer (sampleFleet true) emptyStore []) s ∧
      s.Putting 0 eb 0 ∧ s.panicked = none := by
  have hrun :=
    (Reach.refl : Run (sampleFleet true) (newProducer (sampleFleet true) emptyStore []) _)
    |>.tail trivial (.append rfl (.begin [[7]] []))
    |>.tail trivial (.append rfl (.check (i := 0) rfl rfl))
    |>.tail trivial (.append rfl (.reserve (i := 0) rfl rfl rfl sample_isFor))
    |>.tail trivial (.append rfl (.send (i := 0) rfl rfl rfl (by decide)))
    |>.tail trivial (.rotator rfl (.receive rfl rfl))
    |>.tail trivial (.rotator rfl (.timer rfl rfl))
    |>.tail trivial (.rotator rfl (.acquire rfl rfl))
    |>.tail trivial (.rotator rfl (.reconcile rfl))
    |>.tail trivial (.encoder rfl (.take (i := 0) rfl rfl))
    |>.tail trivial (.encoder rfl (.encoded (i := 0) rfl rfl))
    |>.tail trivial (.uploader rfl (.take (i := 0) (j := 0) rfl rfl rfl))
  exact ⟨_, _, hrun, ⟨_, rfl⟩, rfl⟩

/-- Two `Put` calls of the sample fleet for one batch. -/
theorem data_objects_write_once_sample :
    ∃ S T eb eb', FleetRun sampleFleet (newFleet sampleFleet emptyStore fun _ => []) S ∧
      FleetRun sampleFleet S T ∧ (S true).Putting 0 eb 0 ∧ (T true).Putting 0 eb' 1 ∧
      eb.payload = eb'.payload := by
  have hdistinct : ∀ i j, (sampleFleet i).runID = (sampleFleet j).runID → i = j := by decide
  obtain ⟨s, eb, hrun, hput, hup⟩ := sampleFleet_puts
  obtain ⟨t, hagain, hput'⟩ := hput.retries (p := sampleFleet true) hup (by decide)
  obtain ⟨S, hS, rfl⟩ := FleetRun.of_member
    (S := newFleet sampleFleet emptyStore fun _ => []) (i := true) hrun
  obtain ⟨T, hT, rfl⟩ := FleetRun.of_member (i := true) hagain
  obtain ⟨-, -, hruns⟩ :=
    data_objects_write_once sampleFleet (by decide) hdistinct emptyStore fun _ => []
  obtain ⟨-, -, -, -, hpayload⟩ :=
    (hruns S hS).2.2 T hT true true 0 0 eb eb 0 1 hput hput' rfl
  exact ⟨S, T, eb, eb, hS, hT, hput, hput', hpayload⟩

end OpenDataBuffer
