import OpenDataBuffer.CommitDelivery

/-!
# The committer writes the same manifest in every order

The manifest is extended by the uploaded batches before the cursor, in order, except
for a group whose write has not been carried out yet (`Recorded`).  Without store
faults every plan succeeds as long as the manifest can take the entries
(`Writable`), so the committer never retries and never halts (`Steady`).
-/

namespace OpenDataBuffer

open LabelledRuns

variable {p : Producer} {x y : Feed} {s t : State} {l : Label}

/-! ## The bytes of the manifest -/

/-- The content of a manifest object; a missing one has no entries. -/
def ManifestIs (data : Option Bytes) (entries : List QueueEntry) (nextSequence epoch : UInt64) :
    Prop :=
  match data with
  | none => entries = [] ∧ nextSequence = 0 ∧ epoch = 0
  | some data => WellFormed data entries nextSequence epoch

/-- The bytes of the object at a path. -/
def ObjectStore.bytesAt (store : ObjectStore) (path : Bytes) : Option Bytes :=
  (store.objects path).map VersionedStore.Versioned.data

/-- The queue entries of some completions. -/
def entriesOf (ucs : List UploadCompletion) : List QueueEntry :=
  (ucs.map UploadCompletion.item).map EnqueueItem.entry

@[simp] theorem entriesOf_length (ucs : List UploadCompletion) :
    (entriesOf ucs).length = ucs.length := by
  simp [entriesOf]

@[simp] theorem entriesOf_append (xs ys : List UploadCompletion) :
    entriesOf (xs ++ ys) = entriesOf xs ++ entriesOf ys := by
  simp [entriesOf]

/-- A manifest whose next round with some entries can be written and read back. -/
theorem ManifestIs.plan {store : ObjectStore} {path : Bytes} {entries : List QueueEntry}
    {nextSequence epoch : UInt64} {group : List UploadCompletion}
    (h : ManifestIs (ObjectStore.bytesAt store path) entries nextSequence epoch)
    (hfit : ∀ e ∈ entriesOf group, EntryFits e)
    (hcount : entries.length + group.length < 2 ^ 32) :
    ∃ data version, planAppend (group.map UploadCompletion.item) (storeGet store path) =
        .ok (data, version) ∧
      WellFormed data (entries ++ sequenced nextSequence (entriesOf group))
        (nextSequence + UInt64.ofNat group.length) epoch := by
  rw [← entriesOf_length group] at hcount
  unfold ObjectStore.bytesAt at h
  unfold storeGet
  cases hobj : store.objects path with
  | none =>
      rw [hobj] at h
      obtain ⟨rfl, rfl, rfl⟩ := h
      obtain ⟨m, data, happend, hbytes, -, hwf⟩ := emptyManifest_wellFormed.round hfit hcount
      refine ⟨data, none, ?_, by simpa using hwf⟩
      simp only [planAppend, readManifest, bind, Except.bind]
      have happend' : emptyManifest.appendAll (entriesOf group) = .ok m := happend
      rw [entriesOf] at happend'
      simp only [happend', hbytes, pure, Except.pure]
  | some obj =>
      rw [hobj] at h
      have hold : WellFormed obj.data entries nextSequence epoch := h
      obtain ⟨m, data, happend, hbytes, -, hwf⟩ := hold.round hfit hcount
      refine ⟨data, some obj.version, ?_, by simpa using hwf⟩
      rw [entriesOf] at happend
      simp only [planAppend, readManifest, bind, Except.bind, hold.fromBytes, pure, Except.pure,
        happend, hbytes]

/-- The manifest before a run: the log of its items, its bytes, and what they say. -/
structure ManifestStart where
  log : List (Option Nat × EnqueueItem)
  data : Option Bytes
  entries : List QueueEntry
  nextSequence : UInt64
  epoch : UInt64
  content : ManifestIs data entries nextSequence epoch

/-- The manifest can take the entries of some completions. -/
structure Writable (m : ManifestStart) (ucs : List UploadCompletion) : Prop where
  fits : ∀ e ∈ entriesOf ucs, EntryFits e
  room : m.entries.length + ucs.length < 2 ^ 32

/-- The manifest has been extended by the entries of some completions. -/
structure Extended (m : ManifestStart) (logged : List UploadCompletion) (data : Option Bytes) :
    Prop where
  content : ManifestIs data (m.entries ++ sequenced m.nextSequence (entriesOf logged))
    (m.nextSequence + UInt64.ofNat logged.length) m.epoch
  untouched : logged = [] → data = m.data

/-! ## What is written -/

/-- The uploaded batches before the cursor are in the manifest, in order, but for
the group whose write has not been carried out. -/
structure Recorded (p : Producer) (m : ManifestStart) (batches logged : List UploadCompletion)
    (s : State) : Prop where
  split : logged ++ s.committer.phase.unlogged = uploaded (batches.take s.committer.next)
  log : s.hist.manifest.log = m.log ++ ownedItems logged
  extended : Extended m logged (ObjectStore.bytesAt s.store p.config.ManifestPath)

section Recorded

variable {m : ManifestStart} {batches logged : List UploadCompletion}

/-- What is recorded depends on the cursor, the group that is not written, the log and
the manifest only. -/
theorem Recorded.of_same (h : Recorded p m batches logged s)
    (hunlogged : t.committer.phase.unlogged = s.committer.phase.unlogged)
    (hnext : t.committer.next = s.committer.next)
    (hlog : t.hist.manifest.log = s.hist.manifest.log)
    (hobject : t.store.objects p.config.ManifestPath = s.store.objects p.config.ManifestPath) :
    Recorded p m batches logged t where
  split := by
    rw [hunlogged, hnext]
    exact h.split
  log := hlog.trans h.log
  extended := by
    rw [ObjectStore.bytesAt, hobject]
    exact h.extended

/-- What is written or about to be written are uploaded batches. -/
theorem Recorded.subset (h : Recorded p m batches logged s) :
    logged ++ s.committer.phase.unlogged ⊆ uploaded batches := by
  rw [h.split]
  exact uploaded_subset (List.take_subset _ _)

/-- There are at most as many entries as uploaded batches. -/
theorem Recorded.length_le (h : Recorded p m batches logged s) :
    logged.length + s.committer.phase.unlogged.length ≤ (uploaded batches).length := by
  rw [← List.length_append, h.split]
  exact ((List.take_sublist _ batches).filter _).length_le

/-- The group in hand can be written behind what is there. -/
theorem Recorded.plan (h : Recorded p m batches logged s) (hw : Writable m (uploaded batches)) :
    ∃ data version, planAppend (s.committer.phase.unlogged.map UploadCompletion.item)
        (storeGet s.store p.config.ManifestPath) = .ok (data, version) ∧
      WellFormed data (m.entries ++
          sequenced m.nextSequence (entriesOf (logged ++ s.committer.phase.unlogged)))
        (m.nextSequence + UInt64.ofNat (logged ++ s.committer.phase.unlogged).length) m.epoch := by
  have hfit : ∀ e ∈ entriesOf s.committer.phase.unlogged, EntryFits e := by
    intro e he
    apply hw.fits e
    rw [entriesOf, List.map_map] at he ⊢
    exact List.map_subset _ (fun _ huc => h.subset (List.mem_append_right _ huc)) he
  have hroom : (m.entries ++ sequenced m.nextSequence (entriesOf logged)).length +
      s.committer.phase.unlogged.length < 2 ^ 32 := by
    have hlen := h.length_le
    have hall := hw.room
    rw [List.length_append, sequenced_length, entriesOf_length]
    omega
  obtain ⟨data, version, hplan, hwf⟩ := h.extended.content.plan hfit hroom
  refine ⟨data, version, hplan, ?_⟩
  rw [entriesOf_append, sequenced_append, entriesOf_length, ← List.append_assoc,
    List.length_append, UInt64.ofNat_add, ← UInt64.add_assoc]
  exact hwf

/-- The plan of the next write does not fail. -/
theorem Recorded.plannable (h : Recorded p m batches logged s)
    (hw : Writable m (uploaded batches)) : Plannable p s := by
  intro _
  obtain ⟨data, version, hplan, -⟩ := h.plan hw
  exact ⟨data, version, hplan⟩

/-- The others leave the record alone. -/
theorem Recorded.env (h : Recorded p m batches logged x.state) (hs : CommitterEnv p x y) :
    Recorded p m batches logged y.state := by
  have hlog : y.state.hist.manifest.log = x.state.hist.manifest.log := by rw [hs.log]
  rcases hs.committer with ⟨hcommitter, -⟩ | ⟨pr, left, after, hphase, hcommitter, -⟩
  · exact h.of_same (by rw [hcommitter]) (by rw [hcommitter]) hlog hs.object
  · refine h.of_same ?_ (by rw [hcommitter]; rfl) hlog hs.object
    rw [hcommitter, hphase]
    rfl

/-- A write makes the group part of what is recorded. -/
theorem Recorded.write (h : Recorded p m batches logged s) (hw : Writable m (uploaded batches))
    {group : List UploadCompletion} {failed : List PendingResolution} {call call' : CasCall}
    {obj : GetResult} {version : Option Version}
    (hphase : s.committer.phase = .cas group failed call) (hgroup : group ≠ [])
    (hcall : call.phase.unwritten = true) (hcall' : call'.phase.unwritten = false)
    (hplan : planAppend (group.map UploadCompletion.item)
      (storeGet s.store p.config.ManifestPath) = .ok (obj.data, version)) :
    Recorded p m batches (logged ++ group)
      { s with
        committer := s.committer.at (.cas group failed call')
        store := s.store.write p.config.ManifestPath obj
        hist := { s.hist with manifest :=
          { s.hist.manifest with log := s.hist.manifest.log ++ ownedItems group } } } := by
  have hunlogged : s.committer.phase.unlogged = group := by
    rw [hphase, CommitterPhase.unlogged, if_pos hcall]
  have hsplit := h.split
  obtain ⟨data, version', hplan', hwf⟩ := h.plan hw
  rw [hunlogged] at hsplit hplan' hwf
  rw [hplan] at hplan'
  obtain ⟨rfl, -⟩ : obj.data = data ∧ version = version' := by simpa using hplan'
  refine ⟨?_, ?_, ⟨?_, fun hnil => absurd (List.append_eq_nil_iff.mp hnil).2 hgroup⟩⟩
  · simpa [CommitterPhase.unlogged, hcall'] using hsplit
  · simp [h.log, ownedItems]
  · simpa [ObjectStore.bytesAt, ManifestIs] using hwf

/-- A step of the committer keeps the record, with the group as soon as its write is
carried out. -/
theorem Recorded.own {pending : List UploadCompletion}
    (hord : ordinalsOf batches = List.range batches.length)
    (h : Recorded p m batches logged s) (hw : Writable m (uploaded batches))
    (hd : Delivery batches ⟨s, pending⟩) (hs : SmoothStep p s t) :
    ∃ logged', Recorded p m batches logged' t := by
  cases hs with
  | takes hphase _ =>
      refine ⟨logged, h.of_same ?_ rfl rfl rfl⟩
      rcases hphase with hphase | hphase <;> simp [hphase, CommitterPhase.unlogged]
  | looks hphase _ =>
      refine ⟨logged, h.of_same ?_ rfl rfl rfl⟩
      rcases hphase with hphase | hphase <;> simp [hphase, CommitterPhase.unlogged]
  | cuts hphase hcut =>
      obtain ⟨cut, rest, hsplit, hrun, _⟩ := hd.cut hord p.batchSize
      rw [← hcut] at hrun
      have htake := take_add_cut hsplit
      have hbefore := h.split
      simp only [hphase, CommitterPhase.unlogged, List.append_nil] at hbefore
      refine ⟨logged, ?_, h.log, h.extended⟩
      show logged ++ (p.afterCollect _ _).unlogged = _
      rw [unlogged_afterCollect, hrun.group, hbefore, ← uploaded_append, hrun.next]
      exact congrArg uploaded htake.symm
  | works hphase _ hunwritten =>
      refine ⟨logged, h.of_same ?_ rfl rfl rfl⟩
      simp [hphase, CommitterPhase.unlogged, hunwritten]
  | writes hphase hgroup hcall hplan hcall' =>
      obtain ⟨n, hcall'⟩ := hcall'
      exact ⟨_, h.write hw hphase hgroup hcall (by rw [hcall']; rfl) hplan⟩
  | settles hphase hcall =>
      refine ⟨logged, h.of_same ?_ rfl rfl rfl⟩
      simp [hphase, CommitterPhase.unlogged, hcall]
  | resolved hphase =>
      refine ⟨logged, h.of_same ?_ rfl rfl rfl⟩
      simp [hphase, CommitterPhase.unlogged]

end Recorded

/-! ## All together -/

/-- The invariant of a run without faults. -/
structure InOrder (p : Producer) (m : ManifestStart) (batches : List UploadCompletion) (x : Feed) :
    Prop where
  steady : Steady p x
  delivery : Delivery batches x
  recorded : ∃ logged, Recorded p m batches logged x.state

section InOrder

variable {m : ManifestStart} {batches : List UploadCompletion}

/-- **Step rule for runs without faults.** -/
theorem InOrder.step (hord : ordinalsOf batches = List.range batches.length)
    (hw : Writable m (uploaded batches)) (h : InOrder p m batches x) (hs : FeedStep p x l y) :
    InOrder p m batches y := by
  obtain ⟨logged, hrec⟩ := h.recorded
  cases hs with
  | own hs hfault =>
      have hsmooth := h.steady.smooth (hrec.plannable hw) hs hfault
      exact ⟨h.steady.own hsmooth, h.delivery.step hord (hsmooth.flow x.pending),
        hrec.own hord hw h.delivery hsmooth⟩
  | env hs => exact ⟨h.steady.env hs, h.delivery.step hord hs.flow, logged, hrec.env hs⟩

end InOrder

end OpenDataBuffer
