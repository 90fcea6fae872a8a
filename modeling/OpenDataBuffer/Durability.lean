import OpenDataBuffer.CommitLog
import OpenDataBuffer.Watchers

/-!
# Crash-safe durability

At any moment the process may stop, so what a reader of the store finds is what
the store holds in an arbitrary reachable state.  Every entry this producer has
appended to the manifest then names an object that decodes to the entries of the
batch whose metadata the entry carries, and the batch of every watcher that was
resolved with nil has such an entry.

That the manifest object itself holds the log, byte for byte, needs entries that
fit their length fields (`Producer.Representable`).
-/

namespace OpenDataBuffer

open VersionedStore

/-- The entry that a committed batch gets. -/
def Producer.itemOf (p : Producer) (b : Batch) : EnqueueItem where
  Location := p.location b.ordinal
  Metadata := b.metadata

/-- The counts and lengths of a batch fit their fields. -/
structure Producer.Representable (p : Producer) (b : Batch) : Prop where
  count : b.entriesOf.length < 2 ^ 32
  item : ItemFits (p.itemOf b)

variable {p : Producer} {s t : State} {l : Label}

/-! ## Entries name their batches -/

/-- The entries of this producer are those of emitted batches. -/
def LogEntries (p : Producer) (s : State) : Prop :=
  ∀ k item, (some k, item) ∈ s.hist.manifest.log →
    ∃ b ∈ emittedOf s.hist.cuts, b.ordinal = k ∧ item = p.itemOf b

/-- The items that were there at the start belong to no ordinal. -/
theorem mem_others {k : Nat} {item : EnqueueItem} {items : List EnqueueItem} :
    (some k, item) ∉ items.map (Prod.mk none) := by
  simp

/-- A completion of the group at hand, with the entry it gets. -/
theorem Named.group_item (h : Named p s) (hlog : CommitLog s) {uc : UploadCompletion}
    (huc : uc ∈ s.committer.phase.group) : uc.item = p.itemOf uc.batch := by
  have hcompleted : s.Completed uc := Or.inr (Or.inr (Or.inr (Or.inr huc)))
  have hlocation := h.located uc hcompleted (hlog.uploaded uc huc)
  rw [UploadCompletion.item, hlocation]
  rfl

/-- The group of a write is the group at hand. -/
theorem mem_group {group : List UploadCompletion} {failed : List PendingResolution}
    {call : CasCall} (hphase : s.committer.phase = .cas group failed call)
    {uc : UploadCompletion} (huc : uc ∈ group) : uc ∈ s.committer.phase.group := by
  rw [hphase]
  exact huc

/-- The batches of the group are completed and not decided. -/
theorem State.Completed.of_group {uc : UploadCompletion} (huc : uc ∈ s.committer.phase.group) :
    s.Completed uc :=
  Or.inr (Or.inr (Or.inr (Or.inr huc)))

/-- A new entry of this producer is that of a completion of the group at hand. -/
theorem log_new (hs : ProducerStep p s l t) {k : Nat} {item : EnqueueItem}
    (h : (some k, item) ∈ t.hist.manifest.log) :
    (some k, item) ∈ s.hist.manifest.log ∨
      ∃ uc ∈ s.committer.phase.group, uc.batch.ordinal = k ∧ item = uc.item := by
  rcases log_step hs with heq | ⟨items, heq⟩ | ⟨group, _, _, _, _, _, hphase, _, _, heq⟩ <;>
    rw [heq] at h
  · exact Or.inl h
  · rcases List.mem_append.mp h with hold | hnew
    · exact Or.inl hold
    · exact absurd hnew mem_others
  · rcases List.mem_append.mp h with hold | hnew
    · exact Or.inl hold
    · obtain ⟨uc, huc, heq⟩ := List.mem_map.mp hnew
      obtain ⟨hk, hitem⟩ := Prod.mk.inj heq
      exact Or.inr ⟨uc, mem_group hphase huc, Option.some.inj hk, hitem.symm⟩

/-- A new entry is that of a batch of the group, which was emitted. -/
theorem LogEntries.step (h : LogEntries p s) (hb : Custody s) (hn : Named p s) (hlog : CommitLog s)
    (hs : ProducerStep p s l t) : LogEntries p t := by
  intro k item hmem
  rcases log_new hs hmem with hold | ⟨uc, huc, hk, hitem⟩
  · obtain ⟨b, hemitted, hk, hitem⟩ := h k item hold
    exact ⟨b, emitted_mono hb hs hemitted, hk, hitem⟩
  · have hemitted := hb.conserved.flight_emitted (State.Completed.of_group huc).flight
    exact ⟨uc.batch, emitted_mono hb hs hemitted, hk, hitem.trans (hn.group_item hlog huc)⟩

/-- What the committer's invariants say together. -/
structure Committing (p : Producer) (s : State) : Prop where
  custody : Custody s
  order : CommitOrder s
  log : CommitLog s
  named : Named p s
  entries : LogEntries p s

/-- The committer's invariants are kept together. -/
theorem Committing.step (h : Committing p s) (hs : ProducerStep p s l t) : Committing p t :=
  have hd := h.custody.conserved.distinct
  ⟨h.custody.step hs, h.order.step hd hs, h.log.step h.order hd hs, h.named.step hd hs,
    h.entries.step h.custody h.named h.log hs⟩

theorem committing_newProducer (store : ObjectStore) (items : List EnqueueItem) :
    Committing p (newProducer p store items) where
  custody := custody_newProducer store items
  order := commitOrder_newProducer store items
  log := commitLog_newProducer store items
  named := named_newProducer store items
  entries := fun _ _ hmem => absurd hmem mem_others

/-- The committer's invariants hold in every run. -/
theorem reachable_committing {allowed : State → Label → Prop} {store : ObjectStore}
    {items : List EnqueueItem} (hrun : RunWhere p allowed (newProducer p store items) s) :
    Committing p s :=
  hrun.invariant (committing_newProducer store items) (fun _ _ _ h _ hs => h.step hs)

/-- A group that is cut off is not in the manifest. -/
theorem Committing.collected_fresh (h : Committing p s) (hphase : s.committer.phase = .draining)
    {uc : UploadCompletion}
    (huc : uc ∈ (collect p.batchSize s.committer.next s.committer.ready).group) :
    uc.eb.ordinal ∉ s.owned := by
  intro hin
  have hlt := h.log.below_next h.order hphase hin
  obtain ⟨cut, hcut⟩ := collect_cutOff p.batchSize s.committer.next s.committer.ready
    h.custody.conserved.distinct.ready_nodup
  have hle := (hcut.group_mem huc).2.2
  omega

/-! ## Entries name stored objects -/

/-- The batches of this producer's entries have their objects. -/
def EntriesStored (p : Producer) (s : State) : Prop :=
  ∀ b ∈ emittedOf s.hist.cuts, b.ordinal ∈ s.owned → p.Stored s.store b

/-- An appended ordinal has its entry in the log. -/
theorem mem_owned {k : Nat} (h : k ∈ s.owned) : ∃ item, (some k, item) ∈ s.hist.manifest.log := by
  obtain ⟨⟨owner, item⟩, hmem, rfl⟩ := List.mem_filterMap.mp h
  exact ⟨item, hmem⟩

/-- The ordinal of an entry is appended. -/
theorem owned_of_mem {k : Nat} {item : EnqueueItem} (h : (some k, item) ∈ s.hist.manifest.log) :
    k ∈ s.owned :=
  List.mem_filterMap.mpr ⟨_, h, rfl⟩

/-- **Entries come behind objects.**  A batch gets into a group behind its upload, and
its object stays. -/
theorem EntriesStored.step (h : EntriesStored p s) (hc : Committing p s) (hu : Uploads p s)
    (hpath : ∀ k, p.location k ≠ p.config.ManifestPath) (hs : ProducerStep p s l t) :
    EntriesStored p t := by
  intro b hb hk
  have hct := (hc.step hs).custody.conserved
  obtain ⟨item, hmem⟩ := mem_owned hk
  rcases log_new hs hmem with hold | ⟨uc, huc, hordinal, _⟩
  · obtain ⟨b', hemitted, hordinal, _⟩ := hc.entries _ _ hold
    obtain rfl : b' = b := hct.emitted_inj (emitted_mono hc.custody hs hemitted) hb hordinal
    exact hc.named.stays_stored hpath hc.custody.conserved hemitted
      (h b' hemitted (owned_of_mem hold)) hs
  · have hcompleted := State.Completed.of_group huc
    have hemitted := hc.custody.conserved.flight_emitted hcompleted.flight
    obtain rfl : uc.batch = b := hct.emitted_inj (emitted_mono hc.custody hs hemitted) hb hordinal
    exact hc.named.stays_stored hpath hc.custody.conserved hemitted
      (hu.uploaded uc hcompleted (hc.log.uploaded uc huc)) hs

/-- Entries name stored objects, in every run. -/
theorem reachable_entriesStored {allowed : State → Label → Prop} {store : ObjectStore}
    {items : List EnqueueItem} (hpath : ∀ k, p.location k ≠ p.config.ManifestPath)
    (hrun : RunWhere p allowed (newProducer p store items) s) : EntriesStored p s := by
  have hnothing := nothing_newProducer (p := p) store items
  have hall := hrun.invariant
    (P := fun x => Committing p x ∧ Uploads p x ∧ EntriesStored p x)
    ⟨committing_newProducer store items,
      ⟨fun eb heb => absurd heb.encoded (hnothing.1 eb), fun uc huc => absurd huc (hnothing.2 uc)⟩,
      fun b hb _ => absurd hb List.not_mem_nil⟩
    (fun _ _ _ h _ hs => ⟨h.1.step hs,
      h.2.1.step h.1.named hpath h.1.custody.conserved hs, h.2.2.step h.1 h.2.1 hpath hs⟩)
  exact hall.2.2

/-! ## The manifest object -/

/-- A `casWithRetry` that goes on inside `enqueueBatch` is where `enqueueBatch` is. -/
theorem settle_enqueueing {n : Nat} {call : CasCall} {phase phase' : EnqueuePhase}
    (h : (call.settle n phase).phase = .enqueueing phase') : phase = phase' := by
  unfold CasCall.settle at h
  split at h
  · cases h
  · split at h <;> cases h
  · cases h
    rfl

/-- What is about to be written was planned from what was read. -/
theorem afterGet_writing {items : List EnqueueItem} {n c : Nat}
    {answer : Except StoreError GetResult} {data : Bytes} {version : Option Version}
    {applied : Bool}
    (h : afterGet items n answer = .writing c data version applied) :
    planAppend items answer = .ok (data, version) := by
  unfold afterGet at h
  split at h
  · cases h
  · rename_i hplan
    cases h
    exact hplan

/-- `enqueueBatch` reads before it writes. -/
theorem enqueueBatch_ne_writing {items : List EnqueueItem} {c : Nat} {data : Bytes}
    {version : Option Version} {applied : Bool} :
    enqueueBatch items ≠ .writing c data version applied := by
  unfold enqueueBatch
  split <;> simp

/-- What `casWithRetry` writes was planned from the manifest it has just read. -/
theorem CasStep.planned {items : List EnqueueItem} {call call' : CasCall} {n : Nat} {data : Bytes}
    {version : Option Version} (hs : CasStep p s items call l call')
    (hcall' : call'.phase = .enqueueing (.writing n data version false)) :
    planAppend items (storeGet s.store p.config.ManifestPath) = .ok (data, version) := by
  cases hs with
  | get hcall => exact afterGet_writing (settle_enqueueing hcall')
  | getFails err hcall herr =>
      have hplan := afterGet_writing (settle_enqueueing hcall')
      obtain ⟨m, m', hread, _, _⟩ := planAppend_ok hplan
      cases err with
      | notFound => exact absurd rfl herr
      | _ => cases hread
  | ok hcall => exact absurd (settle_enqueueing hcall') (afterPut_ne_writing _ _ _ _ _ _)
  | conflict hcall hmatch =>
      exact absurd (settle_enqueueing hcall') (afterPut_ne_writing _ _ _ _ _ _)
  | fails err hcall herr =>
      exact absurd (settle_enqueueing hcall') (afterPut_ne_writing _ _ _ _ _ _)
  | retry hcall => exact absurd (settle_enqueueing hcall') enqueueBatch_ne_writing
  | abandon hcall hshutdown => cases hcall'

/-- The manifest object holds the log, and a pending write is planned from a
manifest that was read. -/
structure ManifestHeld (p : Producer) (s : State) : Prop where
  holds : Holds s.store p.config.ManifestPath s.hist.manifest
  planned : ∀ group failed call n data version, s.committer.phase = .cas group failed call →
    call.phase = .enqueueing (.writing n data version false) →
      Planned s.store p.config.ManifestPath (group.map UploadCompletion.item) data version

/-- A step that touches neither store, log nor committer. -/
theorem ManifestHeld.of_same (h : ManifestHeld p s) (hphase : t.committer.phase = s.committer.phase)
    (hstore : t.store = s.store) (hmanifest : t.hist.manifest = s.hist.manifest) :
    ManifestHeld p t := by
  constructor
  · rw [hstore, hmanifest]
    exact h.holds
  · rw [hstore, hphase]
    exact h.planned

/-- The committer is not writing. -/
theorem ManifestHeld.of_idle (h : ManifestHeld p s) (hstore : t.store = s.store)
    (hmanifest : t.hist.manifest = s.hist.manifest)
    (hidle : ∀ group failed call n data version, t.committer.phase = .cas group failed call →
      call.phase ≠ .enqueueing (.writing n data version false)) : ManifestHeld p t := by
  constructor
  · rw [hstore, hmanifest]
    exact h.holds
  · intro group failed call n data version hphase hcall
    exact absurd hcall (hidle group failed call n data version hphase)

/-- A write that takes effect found the version it was planned from, so it appends its
group to the log. -/
theorem ManifestHeld.committerStep (h : ManifestHeld p s) (hc : Committing p s)
    (hrep : ∀ b ∈ emittedOf s.hist.cuts, p.Representable b) (hs : CommitterStep p s l t) :
    ManifestHeld p t := by
  cases hs with
  | gather hphase hqueue => exact h.of_same rfl rfl rfl
  | resolveClosed hphase hclosed => exact h.of_same rfl rfl rfl
  | collect hphase =>
      refine h.of_idle rfl rfl fun _ _ _ _ _ _ hcas hcall => ?_
      rw [(afterCollect_cas hcas).2.2.2] at hcall
      exact enqueueBatch_ne_writing (settle_enqueueing hcall)
  | cas hphase hcas =>
      refine ⟨h.holds, ?_⟩
      intro group failed call n data version hnow hcall
      cases hnow
      exact h.holds.planned (hcas.planned hcall)
  | @casApplies group failed call n obj version hphase hcall hmatch hnames =>
      have hfit : ∀ item ∈ group.map UploadCompletion.item, ItemFits item := by
        intro item hitem
        obtain ⟨uc, huc, rfl⟩ := List.mem_map.mp hitem
        have hgroup := mem_group hphase huc
        rw [hc.named.group_item hc.log hgroup]
        exact (hrep uc.batch (hc.custody.conserved.flight_emitted
          (State.Completed.of_group hgroup).flight)).item
      have howned : (ownedItems group).map Prod.snd = group.map UploadCompletion.item := by
        simp [ownedItems]
      refine ⟨h.holds.append (ownedItems group) howned hfit
        (h.planned _ _ _ _ _ _ hphase hcall) hmatch hnames, ?_⟩
      intro group' failed' call' n' data' version' hnow hcall'
      cases hnow
      cases hcall'
  | receiveClosed hphase hqueue hclosed =>
      refine h.of_idle rfl rfl fun _ _ _ _ _ _ hcas => ?_
      have hcas : (if s.committer.halted then CommitterPhase.exited else .draining) =
        .cas _ _ _ := hcas
      split at hcas <;> cases hcas
  | resolved hphase =>
      exact h.of_idle rfl rfl fun _ _ _ _ _ _ hcas => absurd hcas afterResolve_ne_cas
  | _ =>
      refine h.of_idle rfl rfl fun _ _ _ _ _ _ hcas => ?_
      cases hcas

/-- **Step rule for the manifest.** -/
theorem ManifestHeld.step (h : ManifestHeld p s) (hc : Committing p s)
    (hpath : ∀ k, p.location k ≠ p.config.ManifestPath)
    (hrep : ∀ b ∈ emittedOf s.hist.cuts, p.Representable b) (hs : ProducerStep p s l t) :
    ManifestHeld p t := by
  cases hs with
  | append _ hs => cases hs <;> exact h.of_same rfl rfl rfl
  | flush _ hs => cases hs <;> exact h.of_same rfl rfl rfl
  | close _ hs => cases hs <;> exact h.of_same rfl rfl rfl
  | rotator _ hs => cases hs <;> exact h.of_same rfl rfl rfl
  | encoder _ hs => cases hs <;> exact h.of_same rfl rfl rfl
  | uploader _ hs =>
      cases hs with
      | @putApplies j attempt eb version hup hnames =>
          have hlocation := (hc.named.made eb (State.encoded_of_mem hup rfl)).location
          refine ⟨h.holds.write_other ?_ hnames,
            fun group failed call n data version' hphase hcall =>
            (h.planned group failed call n data version' hphase hcall).write _⟩
          rw [hlocation]
          exact (hpath _).symm
      | _ => exact h.of_same rfl rfl rfl
  | committer _ hs => exact h.committerStep hc hrep hs
  | resolver _ hs =>
      cases hs with
      | take hphase hsend hopen =>
          refine h.of_idle rfl rfl fun _ _ _ _ _ _ hcas => ?_
          cases hcas
      | _ => exact h.of_same rfl rfl rfl
  | others hs =>
      cases hs with
      | object hmanifest hown hnames =>
          exact ⟨h.holds.write_other hmanifest.symm hnames,
            fun group failed call n data version hphase hcall =>
              (h.planned group failed call n data version hphase hcall).write _⟩
      | @write k items obj hk hdata hnames =>
          have hle : s.hist.manifest.dropped + k ≤ s.hist.manifest.log.length := by
            have hwithin := h.holds.within
            rw [List.length_drop] at hk
            omega
          refine ⟨h.holds.write_manifest hnames ?_ ?_,
            fun group failed call n data version hphase hcall =>
            (h.planned group failed call n data version hphase hcall).write _⟩
          · show ManifestOf obj.data (((s.hist.manifest.log ++ items.map (Prod.mk none)).drop
              (s.hist.manifest.dropped + k)).map Prod.snd)
            rw [List.drop_append_of_le_length hle, ← List.drop_drop, List.map_append, List.map_map]
            simpa using hdata
          · show s.hist.manifest.dropped + k ≤ (s.hist.manifest.log ++ items.map _).length
            rw [List.length_append]
            omega

/-- The manifest object holds the log, in every run. -/
theorem reachable_manifestHeld {allowed : State → Label → Prop} {store : ObjectStore}
    {items : List EnqueueItem} (hpath : ∀ k, p.location k ≠ p.config.ManifestPath)
    (hstart : StartsFrom store p.config.ManifestPath items)
    (hrun : RunWhere p allowed (newProducer p store items) s)
    (hrep : ∀ b ∈ emittedOf s.hist.cuts, p.Representable b) : ManifestHeld p s := by
  have hall := hrun.invariant (P := fun x => Committing p x ∧
    ((∀ b ∈ emittedOf x.hist.cuts, p.Representable b) → ManifestHeld p x))
    ⟨committing_newProducer store items, fun _ =>
      ⟨hstart.holds, fun _ _ _ _ _ _ hphase => by cases hphase⟩⟩
    (fun _ _ _ h _ hs => ⟨h.1.step hs, fun hrep =>
      have hbefore := fun b hb => hrep b (emitted_mono h.1.custody hs hb)
      (h.2 hbefore).step h.1 hpath hbefore hs⟩)
  exact hall.2 hrep

/-- A stored object of a representable batch decodes to its entries. -/
theorem Producer.Stored.decodes {b : Batch} (h : p.Stored s.store b) (hz : p.zstd.Lawful)
    (hrep : p.Representable b) : ∃ obj, s.store.objects (p.location b.ordinal) = some obj ∧
      DecodeBatch p.zstd obj.data = .ok b.entriesOf := by
  obtain ⟨obj, hobj, hdata⟩ := h
  exact ⟨obj, hobj, decodeBatch_encodeBatch hz hrep.count hdata⟩

/-- An entry of the producer is that of one of its batches, whose object is stored. -/
theorem Committing.entry_stored (h : Committing p s) (hstored : EntriesStored p s) {k : Nat}
    {item : EnqueueItem} (hmem : (some k, item) ∈ s.hist.manifest.log) :
    ∃ b ∈ emittedOf s.hist.cuts, b.ordinal = k ∧ item = p.itemOf b ∧ p.Stored s.store b := by
  obtain ⟨b, hemitted, hk, hitem⟩ := h.entries k item hmem
  exact ⟨b, hemitted, hk, hitem, hstored b hemitted (hk ▸ owned_of_mem hmem)⟩

/-- The batch of a watcher resolved with nil is in the log. -/
theorem Committing.resolved_entry (h : Committing p s) (hb : Books s) (ha : AppendCalls s)
    {w : Nat} (hw : s.watcherResult w = some none) :
    ∃ b ∈ emittedOf s.hist.cuts, (∃ m ∈ b.msgs, m.watcher = w) ∧
      (some b.ordinal, p.itemOf b) ∈ s.hist.manifest.log := by
  have hresolved := (watcherResult_iff hb ha).mp hw
  rcases hb.conserved.of_resolved hresolved with ⟨pr, hpr, hwatcher, herr⟩ | ⟨_, _, _, herr⟩
  · obtain ⟨item, hmem⟩ := mem_owned (h.log.decided pr (Or.inr hpr) herr.symm)
    obtain ⟨b, hemitted, hordinal, rfl⟩ := h.entries _ _ hmem
    obtain rfl : b = pr.batch :=
      hb.conserved.emitted_inj hemitted (hb.conserved.handed_emitted hpr) hordinal
    rw [pr.batch.watchers_eq] at hwatcher
    exact ⟨pr.batch, hemitted, List.mem_map.mp hwatcher, hmem⟩
  · cases herr

/-- **Crash-safe durability.**  In every reachable state the manifest object holds
the log, and where there is no such object the log is empty; every entry of this
producer names a stored object that decodes to the entries of the batch whose metadata
it carries; and the batch of every watcher that was resolved with nil has such an
entry. -/
theorem durable_in_every_state {store : ObjectStore} {items : List EnqueueItem}
    (hz : p.zstd.Lawful) (hpath : ∀ k, p.location k ≠ p.config.ManifestPath)
    (hstart : StartsFrom store p.config.ManifestPath items)
    (hrun : Run p (newProducer p store items) s)
    (hrep : ∀ b ∈ emittedOf s.hist.cuts, p.Representable b) :
    (s.store.objects p.config.ManifestPath = none → s.hist.manifest.log = []) ∧
    (∀ obj, s.store.objects p.config.ManifestPath = some obj → ∃ entries,
      DecodeManifestEntries obj.data = .ok entries ∧ entries.map QueueEntry.item =
        (s.hist.manifest.log.drop s.hist.manifest.dropped).map Prod.snd) ∧
    (∀ k item, (some k, item) ∈ s.hist.manifest.log → ∃ b ∈ emittedOf s.hist.cuts,
      b.ordinal = k ∧ item.Metadata = b.metadata ∧
        ∃ obj, s.store.objects item.Location = some obj ∧
          DecodeBatch p.zstd obj.data = .ok b.entriesOf) ∧
    (∀ w, s.watcherResult w = some none → ∃ b ∈ emittedOf s.hist.cuts,
      (∃ m ∈ b.msgs, m.watcher = w) ∧ (some b.ordinal, p.itemOf b) ∈ s.hist.manifest.log) := by
  have hc := reachable_committing hrun
  have hholds := (reachable_manifestHeld hpath hstart hrun hrep).holds
  refine ⟨fun hnone => (hholds.missing hnone).1, fun obj hobj => hholds.decodes hobj, ?_, ?_⟩
  · intro k item hmem
    obtain ⟨b, hemitted, hk, rfl, hstored⟩ :=
      hc.entry_stored (reachable_entriesStored hpath hrun) hmem
    exact ⟨b, hemitted, hk, rfl, hstored.decodes hz (hrep b hemitted)⟩
  · exact fun w hw => hc.resolved_entry (reachable_books hrun) (reachable_appendCalls hrun) hw

/-- The sample batch fits the formats. -/
theorem sampleBatch_representable : sampleProducer.Representable sampleBatch :=
  ⟨by decide, by unfold ItemFits; decide⟩

/-- Behind its flush the sample run has its message in an object that the log names. -/
theorem durable_in_every_state_sample :
    sampleFlushed.watcherResult 0 = some none ∧
      ∃ b ∈ emittedOf sampleFlushed.hist.cuts, (∃ m ∈ b.msgs, m.watcher = 0) ∧
        (some b.ordinal, sampleProducer.itemOf b) ∈ sampleFlushed.hist.manifest.log := by
  have hrep : ∀ b ∈ emittedOf sampleFlushed.hist.cuts, sampleProducer.Representable b := by
    intro b hb
    obtain rfl := List.mem_singleton.mp hb
    exact sampleBatch_representable
  obtain ⟨_, _, _, hnil⟩ := durable_in_every_state sampleZstd_lawful sample_location_ne
    (emptyStore_startsFrom _) sample_flushes.run hrep
  exact ⟨rfl, hnil 0 rfl⟩

end OpenDataBuffer
