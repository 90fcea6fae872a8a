import OpenDataBuffer.LedgerRefinement

/-!
# Objects before entries

A batch is uploaded before the committer hears of it, so a completion without
an error stands for an object that the store holds: at the batch's location, with
the encoding of the batch's entries.  Writes to that location can only come from
the same batch, whose encoding is always the same, so the object stays what it is,
whatever the calls of the store return.
-/

namespace OpenDataBuffer

open ListUpdate VersionedStore

/-! ## Who has what -/

def EncoderPhase.encoded? : EncoderPhase → Option EncodedBatch
  | .sendingEncoded eb => some eb
  | _ => none

def UploaderPhase.encoded? : UploaderPhase → Option EncodedBatch
  | .putting eb _ _ => some eb
  | .backoff eb _ => some eb
  | _ => none

def EncoderPhase.completion? : EncoderPhase → Option UploadCompletion
  | .sendingCompletion uc => some uc
  | _ => none

def UploaderPhase.completion? : UploaderPhase → Option UploadCompletion
  | .sendingCompletion uc => some uc
  | _ => none

/-- The completions of the group that is being committed. -/
def CommitterPhase.group : CommitterPhase → List UploadCompletion
  | .cas group _ _ => group
  | _ => []

/-- An encoded batch that an encoder or an uploader has. -/
def State.Encoded (s : State) (eb : EncodedBatch) : Prop :=
  (∃ e ∈ s.encoders, e.encoded? = some eb) ∨ ∃ u ∈ s.uploaders, u.encoded? = some eb

/-- A completion on its way to the committer, or with it and not decided. -/
def State.Completed (s : State) (uc : UploadCompletion) : Prop :=
  (∃ e ∈ s.encoders, e.completion? = some uc) ∨ (∃ u ∈ s.uploaders, u.completion? = some uc) ∨
    uc ∈ s.uploadCompletionCh.queue ∨ uc ∈ s.committer.ready ∨ uc ∈ s.committer.phase.group

/-- The encoded batch is at its location's name and holds the encoding of its
entries. -/
structure Producer.Made (p : Producer) (eb : EncodedBatch) : Prop where
  location : eb.location = p.location eb.ordinal
  payload : EncodeBatch p.zstd eb.entriesOf p.config.BatchCompression = .ok eb.payload

/-- The store holds the object of a batch. -/
def Producer.Stored (p : Producer) (store : ObjectStore) (b : Batch) : Prop :=
  ∃ obj, store.objects (p.location b.ordinal) = some obj ∧
    EncodeBatch p.zstd b.entriesOf p.config.BatchCompression = .ok obj.data

variable {p : Producer} {s t : State} {l : Label} {eb : EncodedBatch} {uc : UploadCompletion}

/-- What an encoder makes of a batch is at the location of its ordinal. -/
theorem Producer.made_encodedBatch {pb : PendingBatch} {payload : Bytes}
    (hok : EncodeBatch p.zstd pb.entries p.config.BatchCompression = .ok payload) :
    p.Made (p.encodedBatch pb payload) := by
  refine ⟨rfl, ?_⟩
  rw [pb.entries_eq] at hok
  exact hok

/-! ## Everything is in flight -/

/-- A batch that an encoder has is in flight. -/
theorem mem_flight_of_encoder {e : EncoderPhase} {b : Batch} (he : e ∈ s.encoders)
    (hb : e.flight = {b}) : b ∈ s.flight := by
  obtain ⟨i, hi⟩ := List.getElem?_of_mem he
  obtain ⟨rest, hflight⟩ := encoder_flight hi hb
  rw [hflight]
  exact Multiset.mem_cons_self _ _

/-- A batch that an uploader has is in flight. -/
theorem mem_flight_of_uploader {u : UploaderPhase} {b : Batch} (hu : u ∈ s.uploaders)
    (hb : u.flight = {b}) : b ∈ s.flight := by
  obtain ⟨j, hj⟩ := List.getElem?_of_mem hu
  obtain ⟨rest, hflight⟩ := uploader_flight hj hb
  rw [hflight]
  exact Multiset.mem_cons_self _ _

/-- An encoded batch is in flight. -/
theorem State.Encoded.flight (h : s.Encoded eb) : eb.toBatch ∈ s.flight := by
  rcases h with ⟨e, he, heb⟩ | ⟨u, hu, heb⟩
  · refine mem_flight_of_encoder he ?_
    cases e <;> cases heb
    rfl
  · refine mem_flight_of_uploader hu ?_
    cases u <;> cases heb <;> rfl

theorem mem_batchesOf {ucs : List UploadCompletion} (h : uc ∈ ucs) : uc.batch ∈ batchesOf ucs :=
  Multiset.mem_coe.mpr (List.mem_map_of_mem h)

/-- The batches of the group are in the hands of the committer. -/
theorem mem_inHand_of_group (h : uc ∈ s.committer.phase.group) :
    uc.batch ∈ s.committer.phase.inHand := by
  cases hphase : s.committer.phase with
  | cas group failed call =>
      rw [hphase] at h
      exact Multiset.mem_add.mpr (Or.inl (mem_batchesOf h))
  | _ =>
      rw [hphase] at h
      exact absurd h List.not_mem_nil

/-- A batch whose completion is not decided is in flight. -/
theorem State.Completed.flight (h : s.Completed uc) : uc.batch ∈ s.flight := by
  rcases h with ⟨e, he, huc⟩ | ⟨u, hu, huc⟩ | hqueue | hready | hgroup
  · refine mem_flight_of_encoder he ?_
    cases e <;> cases huc
    rfl
  · refine mem_flight_of_uploader hu ?_
    cases u <;> cases huc
    rfl
  · have hup : uc.batch ∈ s.upstream := by
      rw [State.upstream]
      simp only [Multiset.mem_add]
      exact Or.inr (Or.inr (Or.inr (mem_batchesOf hqueue)))
    exact Multiset.mem_add.mpr (Or.inl hup)
  · exact Multiset.mem_add.mpr (Or.inr (Multiset.mem_add.mpr (Or.inl (mem_batchesOf hready))))
  · exact Multiset.mem_add.mpr
      (Or.inr (Multiset.mem_add.mpr (Or.inr (mem_inHand_of_group hgroup))))

/-! ## What one step can do -/

/-- A new encoded batch of one encoder, or one that was there. -/
theorem State.Encoded.of_encoder {i : Nat} {e : EncoderPhase}
    (h : (∃ e' ∈ s.encoders.set i e, e'.encoded? = some eb) ∨
      ∃ u ∈ s.uploaders, u.encoded? = some eb) :
    s.Encoded eb ∨ e.encoded? = some eb := by
  rcases h with henc | hup
  · rcases exists_mem_set henc with hold | hnew
    · exact Or.inl (Or.inl hold)
    · exact Or.inr hnew
  · exact Or.inl (Or.inr hup)

/-- An uploader that moves has no encoded batch that was not there. -/
theorem State.Encoded.of_uploader {j : Nat} {u : UploaderPhase}
    (h : (∃ e ∈ s.encoders, e.encoded? = some eb) ∨
      ∃ u' ∈ s.uploaders.set j u, u'.encoded? = some eb)
    (hnew : u.encoded? = some eb → s.Encoded eb) : s.Encoded eb := by
  rcases h with henc | hup
  · exact Or.inl henc
  · rcases exists_mem_set hup with hold | hmoved
    · exact Or.inr hold
    · exact hnew hmoved

/-- The batch that an uploader has is an encoded one. -/
theorem State.encoded_of_mem {j : Nat} {u : UploaderPhase} (hup : s.uploaders[j]? = some u)
    (heb : u.encoded? = some eb) : s.Encoded eb :=
  Or.inr ⟨u, List.mem_of_getElem? hup, heb⟩

/-- A step of an encoder makes at most the batch it has encoded. -/
theorem EncoderStep.encoded_cases (hs : EncoderStep p s l t) (h : t.Encoded eb) :
    s.Encoded eb ∨ p.Made eb := by
  cases hs with
  | encoded henc hok =>
      rcases State.Encoded.of_encoder h with hold | hnew
      · exact Or.inl hold
      · cases hnew
        exact Or.inr (p.made_encodedBatch hok)
  | completeClosed henc hclosed => exact Or.inl h
  | sendClosed henc hclosed => exact Or.inl h
  | closeEncoded hpool hall => exact Or.inl h
  | closePoolDone hpool => exact Or.inl h
  | _ =>
      rcases State.Encoded.of_encoder h with hold | hnew
      · exact Or.inl hold
      · cases hnew

/-- Uploaders make no encoded batches. -/
theorem UploaderStep.encoded (hs : UploaderStep p s l t) (h : t.Encoded eb) : s.Encoded eb := by
  cases hs with
  | take henc hup hopen =>
      rcases h with henc' | hup'
      · rcases exists_mem_set henc' with hold | hnew
        · exact Or.inl hold
        · cases hnew
      · refine State.Encoded.of_uploader (Or.inr hup') fun hnew => ?_
        cases hnew
        exact Or.inl ⟨_, List.mem_of_getElem? henc, rfl⟩
  | putApplies version hup hnames =>
      refine State.Encoded.of_uploader h fun hnew => ?_
      cases hnew
      exact State.encoded_of_mem hup rfl
  | putFails err hup =>
      refine State.Encoded.of_uploader h fun hnew => ?_
      unfold Producer.afterPutError at hnew
      split at hnew <;> cases hnew
      exact State.encoded_of_mem hup rfl
  | retry hup =>
      refine State.Encoded.of_uploader h fun hnew => ?_
      cases hnew
      exact State.encoded_of_mem hup rfl
  | completeClosed hup hclosed => exact h
  | closeCompletions hpool hall => exact h
  | closePoolDone hpool => exact h
  | _ =>
      refine State.Encoded.of_uploader h fun hnew => ?_
      cases hnew

/-- Encoded batches are made by encoders. -/
theorem encoded_step (hs : ProducerStep p s l t) (h : t.Encoded eb) : s.Encoded eb ∨ p.Made eb := by
  cases hs with
  | append _ hs => cases hs <;> exact Or.inl h
  | flush _ hs => cases hs <;> exact Or.inl h
  | close _ hs => cases hs <;> exact Or.inl h
  | rotator _ hs => cases hs <;> exact Or.inl h
  | encoder _ hs => exact hs.encoded_cases h
  | uploader _ hs => exact Or.inl (hs.encoded h)
  | committer _ hs => cases hs <;> exact Or.inl h
  | resolver _ hs => cases hs <;> exact Or.inl h
  | others hs => cases hs <;> exact Or.inl h

/-- The uploader has carried its `Put` out, or is about to report that. -/
def State.Applied (s : State) (eb : EncodedBatch) : Prop :=
  ∃ n, .putting eb n true ∈ s.uploaders

/-- An uploader that moves elsewhere leaves the `Put` calls of the others alone. -/
theorem State.Applied.of_set {j : Nat} {u : UploaderPhase}
    (h : ∃ n, .putting eb n true ∈ s.uploaders.set j u) (hnew : ∀ n, u ≠ .putting eb n true) :
    s.Applied eb := by
  obtain ⟨n, hn⟩ := h
  rcases List.mem_or_eq_of_mem_set hn with hold | heq
  · exact ⟨n, hold⟩
  · exact absurd heq.symm (hnew n)

/-- A `Put` takes effect by writing its object. -/
theorem applied_step (hs : ProducerStep p s l t) (h : t.Applied eb) :
    s.Applied eb ∨ s.Encoded eb ∧ ∃ version,
      t.store = s.store.write eb.location ⟨eb.payload, version⟩ := by
  cases hs with
  | append _ hs => cases hs <;> exact Or.inl h
  | flush _ hs => cases hs <;> exact Or.inl h
  | close _ hs => cases hs <;> exact Or.inl h
  | rotator _ hs => cases hs <;> exact Or.inl h
  | encoder _ hs => cases hs <;> exact Or.inl h
  | committer _ hs => cases hs <;> exact Or.inl h
  | resolver _ hs => cases hs <;> exact Or.inl h
  | others hs => cases hs <;> exact Or.inl h
  | uploader _ hs =>
      cases hs with
      | @putApplies j attempt eb' version hup hnames =>
          obtain ⟨n, hn⟩ := h
          rcases List.mem_or_eq_of_mem_set hn with hold | heq
          · exact Or.inl ⟨n, hold⟩
          · cases heq
            exact Or.inr ⟨State.encoded_of_mem hup rfl, version, rfl⟩
      | completeClosed hup hclosed => exact Or.inl h
      | closeCompletions hpool hall => exact Or.inl h
      | closePoolDone hpool => exact Or.inl h
      | putFails err hup =>
          refine Or.inl (State.Applied.of_set h fun n => ?_)
          unfold Producer.afterPutError
          split <;> simp
      | _ => exact Or.inl (State.Applied.of_set h (by simp))

/-- Who writes to the store: the uploaders write to the locations of their batches, all
other writes go elsewhere. -/
theorem store_step (hs : ProducerStep p s l t) :
    t.store = s.store ∨ (∃ path obj, (path = p.config.ManifestPath ∨ ∀ k, p.location k ≠ path) ∧
        t.store = s.store.write path obj) ∨
      ∃ eb version, s.Encoded eb ∧ t.store = s.store.write eb.location ⟨eb.payload, version⟩ := by
  cases hs with
  | append _ hs => cases hs <;> exact Or.inl rfl
  | flush _ hs => cases hs <;> exact Or.inl rfl
  | close _ hs => cases hs <;> exact Or.inl rfl
  | rotator _ hs => cases hs <;> exact Or.inl rfl
  | encoder _ hs => cases hs <;> exact Or.inl rfl
  | resolver _ hs => cases hs <;> exact Or.inl rfl
  | others hs =>
      cases hs with
      | write hk hdata hnames => exact Or.inr (Or.inl ⟨_, _, Or.inl rfl, rfl⟩)
      | object hmanifest hown hnames => exact Or.inr (Or.inl ⟨_, _, Or.inr hown, rfl⟩)
  | uploader _ hs =>
      cases hs with
      | putApplies version hup hnames =>
          exact Or.inr (Or.inr ⟨_, version, State.encoded_of_mem hup rfl, rfl⟩)
      | _ => exact Or.inl rfl
  | committer _ hs =>
      cases hs with
      | casApplies hphase hcall hmatch hnames => exact Or.inr (Or.inl ⟨_, _, Or.inl rfl, rfl⟩)
      | _ => exact Or.inl rfl

/-! ## Completions -/

/-- A new completion of one encoder, or one that was there. -/
theorem State.Completed.of_encoder {i : Nat} {e : EncoderPhase}
    (h : (∃ e' ∈ s.encoders.set i e, e'.completion? = some uc) ∨
      (∃ u ∈ s.uploaders, u.completion? = some uc) ∨
        uc ∈ s.uploadCompletionCh.queue ∨ uc ∈ s.committer.ready ∨ uc ∈ s.committer.phase.group) :
    s.Completed uc ∨ e.completion? = some uc := by
  rcases h with henc | hrest
  · rcases exists_mem_set henc with hold | hnew
    · exact Or.inl (Or.inl hold)
    · exact Or.inr hnew
  · exact Or.inl (Or.inr hrest)

/-- A new completion of one uploader, or one that was there. -/
theorem State.Completed.of_uploader {j : Nat} {u : UploaderPhase}
    (h : (∃ e ∈ s.encoders, e.completion? = some uc) ∨
      (∃ u' ∈ s.uploaders.set j u, u'.completion? = some uc) ∨
        uc ∈ s.uploadCompletionCh.queue ∨ uc ∈ s.committer.ready ∨ uc ∈ s.committer.phase.group) :
    s.Completed uc ∨ u.completion? = some uc := by
  rcases h with henc | hup | hrest
  · exact Or.inl (Or.inl henc)
  · rcases exists_mem_set hup with hold | hnew
    · exact Or.inl (Or.inr (Or.inl hold))
    · exact Or.inr hnew
  · exact Or.inl (Or.inr (Or.inr hrest))

theorem EncoderStep.completed (hs : EncoderStep p s l t) (h : t.Completed uc)
    (hput : uc.putError = none) : s.Completed uc := by
  cases hs with
  | encodeFails err henc =>
      rcases State.Completed.of_encoder (s := s) h with hold | hnew
      · exact hold
      · cases hnew
        cases hput
  | @complete i uc' henc hopen hroom =>
      rcases h with henc' | hup | hqueue | hrest
      · rcases exists_mem_set henc' with hold | hnew
        · exact Or.inl hold
        · cases hnew
      · exact Or.inr (Or.inl hup)
      · rcases List.mem_append.mp hqueue with hold | hnew
        · exact Or.inr (Or.inr (Or.inl hold))
        · obtain rfl := List.mem_singleton.mp hnew
          exact Or.inl ⟨_, List.mem_of_getElem? henc, rfl⟩
      · exact Or.inr (Or.inr (Or.inr hrest))
  | completeClosed henc hclosed => exact h
  | sendClosed henc hclosed => exact h
  | closeEncoded hpool hall => exact h
  | closePoolDone hpool => exact h
  | _ =>
      rcases State.Completed.of_encoder (s := s) h with hold | hnew
      · exact hold
      · cases hnew

/-- An uploader completes without an error only behind a `Put` that took effect. -/
theorem UploaderStep.completed (hs : UploaderStep p s l t) (h : t.Completed uc)
    (hput : uc.putError = none) :
    s.Completed uc ∨ ∃ eb, s.Applied eb ∧ uc = uploadCompletion eb none := by
  cases hs with
  | take henc hup hopen =>
      rcases h with henc' | hup' | hrest
      · rcases exists_mem_set henc' with hold | hnew
        · exact Or.inl (Or.inl hold)
        · cases hnew
      · rcases exists_mem_set hup' with hold | hnew
        · exact Or.inl (Or.inr (Or.inl hold))
        · cases hnew
      · exact Or.inl (Or.inr (Or.inr hrest))
  | putOk hup =>
      rcases State.Completed.of_uploader (s := s) h with hold | hnew
      · exact Or.inl hold
      · cases hnew
        exact Or.inr ⟨_, ⟨_, List.mem_of_getElem? hup⟩, rfl⟩
  | putFails err hup =>
      rcases State.Completed.of_uploader (s := s) h with hold | hnew
      · exact Or.inl hold
      · unfold Producer.afterPutError at hnew
        split at hnew <;> cases hnew
        cases hput
  | abandon hup hshutdown =>
      rcases State.Completed.of_uploader (s := s) h with hold | hnew
      · exact Or.inl hold
      · cases hnew
        cases hput
  | @complete j uc' hup hopen hroom =>
      rcases h with henc | hup' | hqueue | hrest
      · exact Or.inl (Or.inl henc)
      · rcases exists_mem_set hup' with hold | hnew
        · exact Or.inl (Or.inr (Or.inl hold))
        · cases hnew
      · rcases List.mem_append.mp hqueue with hold | hnew
        · exact Or.inl (Or.inr (Or.inr (Or.inl hold)))
        · obtain rfl := List.mem_singleton.mp hnew
          exact Or.inl (Or.inr (Or.inl ⟨_, List.mem_of_getElem? hup, rfl⟩))
      · exact Or.inl (Or.inr (Or.inr (Or.inr hrest)))
  | completeClosed hup hclosed => exact Or.inl h
  | closeCompletions hpool hall => exact Or.inl h
  | closePoolDone hpool => exact Or.inl h
  | _ =>
      rcases State.Completed.of_uploader (s := s) h with hold | hnew
      · exact Or.inl hold
      · cases hnew

/-- The map holds what is put in and what was there. -/
theorem mem_insertReady {uc' : UploadCompletion} {ready : List UploadCompletion}
    (h : uc ∈ insertReady uc' ready) : uc = uc' ∨ uc ∈ ready := by
  rcases List.mem_cons.mp h with heq | hrest
  · exact Or.inl heq
  · exact Or.inr (List.mem_of_mem_filter hrest)

/-- The group at hand is the one that was cut off. -/
theorem group_afterCollect (closed : Bool) (c : Collected) :
    (p.afterCollect closed c).group = c.group := by
  unfold Producer.afterCollect
  by_cases hgroup : c.group = []
  · rw [if_pos hgroup, hgroup]
    by_cases hfailed : c.failed = []
    · rw [if_pos hfailed, afterDrain]
      split <;> rfl
    · rw [if_neg hfailed]
      rfl
  · rw [if_neg hgroup]
    rfl

theorem group_afterResolve (closed : Bool) (after : AfterResolve) :
    (afterResolve closed after).group = [] := by
  cases after with
  | drainDone =>
      rw [afterResolve, afterDrain]
      split <;> rfl
  | _ => rfl

/-- The group at hand: none, the one from before, or one that is just cut off. -/
theorem CommitterStep.group_cases (hs : CommitterStep p s l t) :
    t.committer.phase.group = [] ∨ t.committer.phase.group = s.committer.phase.group ∨
      s.committer.phase = .draining ∧ t.committer.phase.group =
        (OpenDataBuffer.collect p.batchSize s.committer.next s.committer.ready).group := by
  cases hs with
  | gather hphase hqueue => exact Or.inr (Or.inl rfl)
  | resolveClosed hphase hclosed => exact Or.inr (Or.inl rfl)
  | collect hphase => exact Or.inr (Or.inr ⟨hphase, group_afterCollect _ _⟩)
  | cas hphase hcas => exact Or.inr (Or.inl (by rw [hphase]; rfl))
  | casApplies hphase hcall hmatch hnames => exact Or.inr (Or.inl (by rw [hphase]; rfl))
  | receiveClosed hphase hqueue hclosed =>
      refine Or.inl ?_
      show CommitterPhase.group (if s.committer.halted then .exited else .draining) = []
      split <;> rfl
  | resolved hphase => exact Or.inl (group_afterResolve _ _)
  | _ => exact Or.inl rfl

/-- A group is given up, kept, or cut off anew. -/
theorem group_step (hs : ProducerStep p s l t) :
    t.committer.phase.group = [] ∨ t.committer.phase.group = s.committer.phase.group ∨
      s.committer.phase = .draining ∧ t.committer.phase.group =
        (collect p.batchSize s.committer.next s.committer.ready).group := by
  cases hs with
  | append _ hs => cases hs <;> exact Or.inr (Or.inl rfl)
  | flush _ hs => cases hs <;> exact Or.inr (Or.inl rfl)
  | close _ hs => cases hs <;> exact Or.inr (Or.inl rfl)
  | rotator _ hs => cases hs <;> exact Or.inr (Or.inl rfl)
  | encoder _ hs => cases hs <;> exact Or.inr (Or.inl rfl)
  | uploader _ hs => cases hs <;> exact Or.inr (Or.inl rfl)
  | committer _ hs => exact hs.group_cases
  | resolver _ hs =>
      cases hs with
      | take hphase hsend hopen => exact Or.inl rfl
      | _ => exact Or.inr (Or.inl rfl)
  | others hs => cases hs <;> exact Or.inr (Or.inl rfl)

/-- The committer takes completions from the channel only. -/
theorem CommitterStep.ready (hd : Distinct s) (hs : CommitterStep p s l t)
    (h : uc ∈ t.committer.ready) : uc ∈ s.committer.ready ∨ uc ∈ s.uploadCompletionCh.queue := by
  cases hs with
  | receive hphase hhalted hqueue =>
      rcases mem_insertReady h with rfl | hold
      · exact Or.inr (hqueue ▸ List.mem_cons_self)
      · exact Or.inl hold
  | gather hphase hqueue =>
      rcases mem_insertReady h with rfl | hold
      · exact Or.inr (hqueue ▸ List.mem_cons_self)
      · exact Or.inl hold
  | collect hphase =>
      obtain ⟨cut, hcut⟩ :=
        collect_cutOff p.batchSize s.committer.next s.committer.ready hd.ready_nodup
      exact Or.inl (hcut.ready_mem h)
  | halt hphase hcall herr hswept => exact absurd h List.not_mem_nil
  | _ => exact Or.inl h

/-- The committer only takes from its channel. -/
theorem CommitterStep.queue (hs : CommitterStep p s l t) (h : uc ∈ t.uploadCompletionCh.queue) :
    uc ∈ s.uploadCompletionCh.queue := by
  cases hs with
  | receive hphase hhalted hqueue => exact hqueue ▸ List.mem_cons_of_mem _ h
  | receiveHalted hphase hhalted hqueue => exact hqueue ▸ List.mem_cons_of_mem _ h
  | gather hphase hqueue => exact hqueue ▸ List.mem_cons_of_mem _ h
  | _ => exact h

theorem CommitterStep.completed (hd : Distinct s) (hs : CommitterStep p s l t)
    (h : t.Completed uc) : s.Completed uc := by
  have hpools : t.encoders = s.encoders ∧ t.uploaders = s.uploaders := by
    cases hs <;> exact ⟨rfl, rfl⟩
  rcases h with henc | hup | hqueue | hready | hgroup
  · exact Or.inl (hpools.1 ▸ henc)
  · exact Or.inr (Or.inl (hpools.2 ▸ hup))
  · exact Or.inr (Or.inr (Or.inl (hs.queue hqueue)))
  · rcases hs.ready hd hready with hold | hqueue
    · exact Or.inr (Or.inr (Or.inr (Or.inl hold)))
    · exact Or.inr (Or.inr (Or.inl hqueue))
  · rcases hs.group_cases with heq | heq | ⟨_, heq⟩ <;> rw [heq] at hgroup
    · exact absurd hgroup List.not_mem_nil
    · exact Or.inr (Or.inr (Or.inr (Or.inr hgroup)))
    · obtain ⟨cut, hcut⟩ :=
        collect_cutOff p.batchSize s.committer.next s.committer.ready hd.ready_nodup
      exact Or.inr (Or.inr (Or.inr (Or.inl (hcut.group_mem hgroup).1)))

/-- Completions without an error are made of `Put` calls that took effect. -/
theorem completed_step (hd : Distinct s) (hs : ProducerStep p s l t) (h : t.Completed uc)
    (hput : uc.putError = none) :
    s.Completed uc ∨ ∃ eb, s.Applied eb ∧ uc = uploadCompletion eb none := by
  cases hs with
  | append _ hs => cases hs <;> exact Or.inl h
  | flush _ hs => cases hs <;> exact Or.inl h
  | close _ hs => cases hs <;> exact Or.inl h
  | rotator _ hs => cases hs <;> exact Or.inl h
  | encoder _ hs => exact Or.inl (hs.completed h hput)
  | uploader _ hs => exact hs.completed h hput
  | committer _ hs => exact Or.inl (hs.completed hd h)
  | resolver _ hs =>
      cases hs with
      | take hphase hsend hopen =>
          rcases h with henc | hup | hqueue | hready | hgroup
          · exact Or.inl (Or.inl henc)
          · exact Or.inl (Or.inr (Or.inl hup))
          · exact Or.inl (Or.inr (Or.inr (Or.inl hqueue)))
          · exact Or.inl (Or.inr (Or.inr (Or.inr (Or.inl hready))))
          · exact absurd hgroup List.not_mem_nil
      | _ => exact Or.inl h
  | others hs => cases hs <;> exact Or.inl h

/-! ## The names of objects -/

/-- Encoded batches and completions go by the location of their ordinal. -/
structure Named (p : Producer) (s : State) : Prop where
  made : ∀ eb, s.Encoded eb → p.Made eb
  located : ∀ uc, s.Completed uc → uc.putError = none → uc.eb.location = p.location uc.eb.ordinal

/-- A batch whose `Put` took effect is an encoded one. -/
theorem State.Applied.encoded (h : s.Applied eb) : s.Encoded eb := by
  obtain ⟨n, hn⟩ := h
  exact Or.inr ⟨_, hn, rfl⟩

/-- Names are given by the encoders and kept by all others. -/
theorem Named.step (h : Named p s) (hd : Distinct s) (hs : ProducerStep p s l t) : Named p t := by
  constructor
  · intro eb heb
    rcases encoded_step hs heb with hold | hnew
    · exact h.made eb hold
    · exact hnew
  · intro uc huc hput
    rcases completed_step hd hs huc hput with hold | ⟨eb, heb, rfl⟩
    · exact h.located uc hold hput
    · exact (h.made eb heb.encoded).location

/-- A new producer has neither encoded batches nor completions. -/
theorem nothing_newProducer (store : ObjectStore) (items : List EnqueueItem) :
    (∀ eb, ¬ (newProducer p store items).Encoded eb) ∧
      ∀ uc, ¬ (newProducer p store items).Completed uc := by
  constructor
  · intro eb heb
    have hmem := heb.flight
    rw [flight_newProducer] at hmem
    exact Multiset.notMem_zero _ hmem
  · intro uc huc
    have hmem := huc.flight
    rw [flight_newProducer] at hmem
    exact Multiset.notMem_zero _ hmem

/-! ## The objects -/

/-- Behind a `Put` that took effect, and behind a completion without an error,
the store holds the object. -/
structure Uploads (p : Producer) (s : State) : Prop where
  applied : ∀ eb, s.Applied eb → p.Stored s.store eb.toBatch
  uploaded : ∀ uc, s.Completed uc → uc.putError = none → p.Stored s.store uc.batch

/-- Behind its `Put`, the object of a batch is in the store. -/
theorem Producer.Made.stored (h : p.Made eb) (store : ObjectStore) (version : Version) :
    p.Stored (store.write eb.location ⟨eb.payload, version⟩) eb.toBatch := by
  refine ⟨⟨eb.payload, version⟩, ?_, h.payload⟩
  rw [h.location]
  exact Store.write_self _ _ _

/-- **Stored objects stay.**  An emitted batch whose object the store holds keeps
it: every write to its location is of the same batch. -/
theorem Named.stays_stored (h : Named p s) (hpath : ∀ k, p.location k ≠ p.config.ManifestPath)
    (hc : Conserved s.ledger) {b : Batch} (hb : b ∈ emittedOf s.hist.cuts)
    (hstored : p.Stored s.store b) (hs : ProducerStep p s l t) : p.Stored t.store b := by
  rcases store_step hs with heq | ⟨path, obj, helse, heq⟩ | ⟨eb, version, henc, heq⟩
  · rw [heq]
    exact hstored
  · obtain ⟨cur, hcur, hdata⟩ := hstored
    refine ⟨cur, ?_, hdata⟩
    have hne : p.location b.ordinal ≠ path := by
      rcases helse with rfl | hown
      · exact hpath b.ordinal
      · exact hown b.ordinal
    rw [heq, Store.write_of_ne _ _ hne]
    exact hcur
  · have hmade := h.made eb henc
    rw [heq]
    by_cases hordinal : eb.ordinal = b.ordinal
    · have hsame : eb.toBatch = b :=
        hc.emitted_inj (hc.flight_emitted henc.flight) hb hordinal
      rw [← hsame]
      exact hmade.stored s.store version
    · obtain ⟨cur, hcur, hdata⟩ := hstored
      refine ⟨cur, ?_, hdata⟩
      rw [hmade.location, Store.write_of_ne]
      · exact hcur
      · exact fun hloc => hordinal (Producer.location_inj hloc).symm

/-- **Objects come before completions.**  A completion without an error is made behind a
`Put` that took effect, and stored objects stay. -/
theorem Uploads.step (h : Uploads p s) (hn : Named p s)
    (hpath : ∀ k, p.location k ≠ p.config.ManifestPath) (hc : Conserved s.ledger)
    (hs : ProducerStep p s l t) : Uploads p t := by
  constructor
  · intro eb heb
    rcases applied_step hs heb with hold | ⟨henc, version, hstore⟩
    · exact hn.stays_stored hpath hc (hc.flight_emitted hold.encoded.flight) (h.applied eb hold) hs
    · rw [hstore]
      exact (hn.made eb henc).stored s.store version
  · intro uc huc hput
    rcases completed_step hc.distinct hs huc hput with hold | ⟨eb, heb, rfl⟩
    · exact hn.stays_stored hpath hc (hc.flight_emitted hold.flight) (h.uploaded uc hold hput) hs
    · exact hn.stays_stored hpath hc (hc.flight_emitted heb.encoded.flight) (h.applied eb heb) hs

theorem named_newProducer (store : ObjectStore) (items : List EnqueueItem) :
    Named p (newProducer p store items) := by
  obtain ⟨henc, hcomp⟩ := nothing_newProducer (p := p) store items
  exact ⟨fun eb heb => absurd heb (henc eb), fun uc huc => absurd huc (hcomp uc)⟩

end OpenDataBuffer
