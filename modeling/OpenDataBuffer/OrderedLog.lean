import Mathlib.Data.List.Sort
import OpenDataBuffer.AtMostOnce

/-!
# The pipeline refines an ordered log

For callers the producer is a queue: messages are accepted one after the other,
some of them end up in the manifest, in the order in which they were accepted, and
each caller is told whether its message is among them.  Encoders and uploaders that
overtake each other, coalesced groups, skipped ordinals, retries, halts and shutdown
drops do not show.

This rests on one assumption about the store: a `PutIfMatch` that returns an error
has had no effect.
-/

namespace OpenDataBuffer

open LabelledRuns

variable {p : Producer} {s t : State} {l : Label}

/-! ## The abstract log -/

/-- The batches whose ordinals are in the manifest, in the order of emission. -/
def State.committed (s : State) : List Batch :=
  (emittedOf s.hist.cuts).filter fun b => b.ordinal ∈ s.owned

/-- The messages of committed batches. -/
def State.committedMessages (s : State) : List AppendMessage := s.committed.flatMap Batch.msgs

/-- The entries of this producer, in manifest order. -/
def State.ownItems (s : State) : List EnqueueItem :=
  s.hist.manifest.log.filterMap fun x => x.1.map fun _ => x.2

/-- What a reader gets that fetches and decodes the object of every entry. -/
def readBack (z : Zstd) (store : ObjectStore) : List EnqueueItem → Option (List Bytes)
  | [] => some []
  | item :: rest => do
      let obj ← store.objects item.Location
      let entries ← (DecodeBatch z obj.data).toOption
      let more ← readBack z store rest
      return entries ++ more

/-! ## Errors without effect -/

/-- A `PutIfMatch` that returns an error has had no effect. -/
def CasErrorsHaveNoEffect (_ : State) (l : Label) : Prop := l ≠ .casFails true

/-- A write that took effect is not answered with an error, so the call succeeds. -/
theorem CasStep.stays_applied {items : List EnqueueItem} {call call' : CasCall}
    (hs : CasStep p s items call l call') (hl : l ≠ .casFails true) (h : call.phase.Applied) :
    call'.phase.Applied := by
  cases hs with
  | ok hcall => rfl
  | conflict hcall hmatch =>
      rw [hcall] at h
      cases h
  | fails err hcall herr =>
      rw [hcall] at h
      cases h
      exact absurd rfl hl
  | get hcall =>
      rw [hcall] at h
      exact h.elim
  | getFails err hcall herr =>
      rw [hcall] at h
      exact h.elim
  | retry hcall =>
      rw [hcall] at h
      exact h.elim
  | abandon hcall hshutdown =>
      rw [hcall] at h
      exact h.elim

/-- Until its write has taken effect, a group is not in the manifest. -/
abbrev FreshUntilApplied (s : State) : Prop := FreshGroups (fun phase => ¬ phase.Applied) s

/-- A group is appended only with its last write. -/
theorem FreshGroups.step_unapplied (h : FreshUntilApplied s) (hc : Committing p s)
    (hl : CasErrorsHaveNoEffect s l) (hs : ProducerStep p s l t) : FreshUntilApplied t := by
  refine h.step hc (fun _ _ _ happlied => by cases happlied) (fun _ _ _ hnot => hnot rfl) ?_ hs
  intro group failed call call' hphase hcas hearly
  exact Or.inl fun happlied => hearly (hcas.stays_applied hl happlied)

/-! ## Refused batches -/

/-- A batch with an error is not in the manifest. -/
def Refused (s : State) : Prop :=
  ∀ pr, s.Decided pr → pr.err ≠ none → pr.batch.ordinal ∉ s.owned

/-- What waits for the committer is not in the manifest. -/
theorem CommitLog.not_owned (h : CommitLog s) (hc : Conserved s.ledger) {uc : UploadCompletion}
    (huc : uc.batch ∈ s.upstream + batchesOf s.committer.ready) : uc.eb.ordinal ∉ s.owned := by
  intro hin
  obtain ⟨b, hb, hordinal⟩ := h.held _ hin
  have hnodup : ((s.upstream + batchesOf s.committer.ready).map Batch.ordinal +
      (s.committer.phase.inHand + handedBatches s.hist.handed).map Batch.ordinal).Nodup := by
    have hall : ((s.flight + handedBatches s.hist.handed).map Batch.ordinal).Nodup :=
      hc.ordinals_nodup
    rw [← Multiset.map_add]
    rw [State.flight] at hall
    refine (congrArg (fun b => (Multiset.map Batch.ordinal b).Nodup) ?_).mp hall
    abel
  have hleft : uc.eb.ordinal ∈ (s.upstream + batchesOf s.committer.ready).map Batch.ordinal :=
    Multiset.mem_map_of_mem Batch.ordinal huc
  have hright := Multiset.mem_map_of_mem Batch.ordinal hb
  rw [hordinal] at hright
  exact Multiset.disjoint_left.mp (Multiset.nodup_add.mp hnodup).2.2 hleft hright

/-- A completion in the map is before the committer's cut. -/
theorem mem_waiting_of_ready {uc : UploadCompletion} (h : uc ∈ s.committer.ready) :
    uc.batch ∈ s.upstream + batchesOf s.committer.ready :=
  Multiset.mem_add.mpr (Or.inr (mem_batchesOf h))

/-- A completion in the channel is before the committer's cut. -/
theorem mem_waiting_of_queue {uc : UploadCompletion} (h : uc ∈ s.uploadCompletionCh.queue) :
    uc.batch ∈ s.upstream + batchesOf s.committer.ready := by
  refine Multiset.mem_add.mpr (Or.inl ?_)
  rw [State.upstream]
  simp only [Multiset.mem_add]
  exact Or.inr (Or.inr (Or.inr (mem_batchesOf h)))

/-- A batch that gets an error is not in the log. -/
theorem Verdict.not_owned {pr : PendingResolution} (hv : Verdict s pr) (hc : Committing p s)
    (hf : FreshUntilApplied s) (herr : pr.err ≠ none) : pr.batch.ordinal ∉ s.owned := by
  have hcons := hc.custody.conserved
  cases hv with
  | failed hphase hready hput => exact hc.log.not_owned hcons (mem_waiting_of_ready hready)
  | settled hphase hcall hor huc =>
      refine hf.fresh _ _ _ hphase (fun happlied => herr ?_) _ huc
      rw [hcall] at happlied
      exact happlied
  | halted hphase hcall hne huc =>
      refine hf.fresh _ _ _ hphase (fun happlied => ?_) _ huc
      rw [hcall] at happlied
      cases happlied
  | swept hphase hcall hne huc => exact hc.log.not_owned hcons (mem_waiting_of_ready huc)
  | late hhalted huc => exact hc.log.not_owned hcons (mem_waiting_of_queue huc)

/-- No outcome is decided on while a group is being written. -/
theorem not_verdict_of_writing {pr : PendingResolution} (hco : CommitOrder s)
    {group : List UploadCompletion} {failed : List PendingResolution} {call : CasCall}
    {phase : EnqueuePhase} (hphase : s.committer.phase = .cas group failed call)
    (hcall : call.phase = .enqueueing phase) : ¬ Verdict s pr := by
  intro hv
  cases hv with
  | failed hdraining hready hput => cases hphase.symm.trans hdraining
  | settled hphase' hcall' hor huc =>
      cases hphase.symm.trans hphase'
      cases hcall.symm.trans hcall'
  | halted hphase' hcall' hne huc =>
      cases hphase.symm.trans hphase'
      cases hcall.symm.trans hcall'
  | swept hphase' hcall' hne huc =>
      cases hphase.symm.trans hphase'
      cases hcall.symm.trans hcall'
  | late hhalted huc =>
      have hstopped := (hco.stopped hhalted).1
      rw [hphase] at hstopped
      exact hstopped

/-- The group that is being written and what is decided on are different
batches. -/
theorem group_ne_decided (hc : Conserved s.ledger) {group : List UploadCompletion}
    {failed : List PendingResolution} {call : CasCall}
    (hphase : s.committer.phase = .cas group failed call) {uc : UploadCompletion} (huc : uc ∈ group)
    {pr : PendingResolution} (hpr : s.Decided pr) : uc.eb.ordinal ≠ pr.batch.ordinal := by
  have hnodup : ((batchesOf group).map Batch.ordinal +
      (handedBatches failed + handedBatches s.hist.handed).map Batch.ordinal).Nodup := by
    have hall : ((s.flight + handedBatches s.hist.handed).map Batch.ordinal).Nodup :=
      hc.ordinals_nodup
    refine Multiset.nodup_of_le ?_ hall
    rw [← Multiset.map_add]
    refine Multiset.map_le_map ?_
    rw [State.flight, hphase]
    show batchesOf group + (handedBatches failed + handedBatches s.hist.handed) ≤
      s.upstream + (batchesOf s.committer.ready + (batchesOf group + handedBatches failed)) +
        handedBatches s.hist.handed
    rw [show s.upstream + (batchesOf s.committer.ready + (batchesOf group + handedBatches failed)) +
        handedBatches s.hist.handed = batchesOf group + (handedBatches failed +
          handedBatches s.hist.handed) + (s.upstream + batchesOf s.committer.ready) by abel]
    exact Multiset.le_add_right _ _
  have hleft : uc.eb.ordinal ∈ (batchesOf group).map Batch.ordinal :=
    Multiset.mem_map_of_mem Batch.ordinal (mem_batchesOf huc)
  have hright : pr.batch ∈ handedBatches failed + handedBatches s.hist.handed := by
    rcases hpr with hnow | hhanded
    · rw [hphase] at hnow
      exact Multiset.mem_add.mpr (Or.inl (Multiset.mem_coe.mpr (List.mem_map_of_mem hnow)))
    · exact Multiset.mem_add.mpr (Or.inr (Multiset.mem_coe.mpr (List.mem_map_of_mem hhanded)))
  intro heq
  refine Multiset.disjoint_left.mp (Multiset.nodup_add.mp hnodup).2.2 hleft ?_
  rw [heq]
  exact Multiset.mem_map_of_mem Batch.ordinal hright

/-- **Step rule for refused batches.** -/
theorem Refused.step (h : Refused s) (hc : Committing p s) (hf : FreshUntilApplied s)
    (hs : ProducerStep p s l t) : Refused t := by
  intro pr hpr herr
  have hcons := hc.custody.conserved
  rcases owned_step hs with heq | ⟨group, failed, call, n, data, version, hphase, hcall, _, heq⟩
  · rw [heq]
    rcases decided_step hcons.distinct hs hpr with hold | hnew
    · exact h pr hold herr
    · exact hnew.not_owned hc hf herr
  · rw [heq]
    have hold : s.Decided pr := by
      rcases decided_step hcons.distinct hs hpr with hold | hnew
      · exact hold
      · exact absurd hnew (not_verdict_of_writing hc.order hphase hcall)
    intro hin
    rcases List.mem_append.mp hin with hin | hin
    · exact h pr hold herr hin
    · obtain ⟨uc, huc, hordinal⟩ := List.mem_map.mp hin
      exact group_ne_decided hcons hphase huc hold hordinal

/-- What holds in every run in which errors of `PutIfMatch` have no effect. -/
structure ExactLog (p : Producer) (s : State) : Prop where
  committing : Committing p s
  fresh : FreshUntilApplied s
  refused : Refused s

/-- The log is exact in every run in which errors have no effect. -/
theorem reachable_exactLog {store : ObjectStore} {items : List EnqueueItem}
    (hrun : RunWhere p CasErrorsHaveNoEffect (newProducer p store items) s) : ExactLog p s := by
  refine hrun.invariant (P := ExactLog p) ⟨committing_newProducer store items,
    freshGroups_newProducer store items, ?_⟩ ?_
  · rintro pr (hnow | hhanded)
    · exact absurd hnow List.not_mem_nil
    · exact absurd hhanded List.not_mem_nil
  · intro x l y h hl hs
    exact ⟨h.committing.step hs, h.fresh.step_unapplied h.committing hl hs,
      h.refused.step h.committing h.fresh hs⟩

/-! ## Reading the log -/

/-- Strictly increasing lists with the same elements are the same. -/
theorem eq_of_increasing {xs ys : List Nat} (hx : xs.Pairwise (· < ·)) (hy : ys.Pairwise (· < ·))
    (hmem : ∀ k, k ∈ xs ↔ k ∈ ys) : xs = ys := by
  have hperm : xs.Perm ys :=
    (List.perm_ext_iff_of_nodup (hx.imp Nat.ne_of_lt) (hy.imp Nat.ne_of_lt)).mpr hmem
  exact hperm.eq_of_pairwise (fun a b _ _ hab hba => absurd hab (Nat.lt_asymm hba)) hx hy

/-- Ordinals are given in order. -/
theorem Conserved.emitted_increasing {L : Ledger} (h : Conserved L) :
    ((emittedOf L.cuts).map Batch.ordinal).Pairwise (· < ·) := by
  rw [h.numbered]
  exact List.pairwise_lt_range

/-- A committed batch is an emitted one with its ordinal in the log. -/
theorem mem_committed {b : Batch} :
    b ∈ s.committed ↔ b ∈ emittedOf s.hist.cuts ∧ b.ordinal ∈ s.owned := by
  simp [State.committed]

/-- The manifest lists the committed batches in the order of emission. -/
theorem ExactLog.committed_ordinals (h : ExactLog p s) :
    s.committed.map Batch.ordinal = s.owned := by
  have hcons := h.committing.custody.conserved
  refine eq_of_increasing ?_ h.fresh.sorted fun k => ⟨fun hk => ?_, fun hk => ?_⟩
  · exact hcons.emitted_increasing.sublist (List.filter_sublist.map _)
  · obtain ⟨b, hb, rfl⟩ := List.mem_map.mp hk
    exact (mem_committed.mp hb).2
  · obtain ⟨item, hmem⟩ := mem_owned hk
    obtain ⟨b, hemitted, rfl, _⟩ := h.committing.entries k item hmem
    exact List.mem_map_of_mem (mem_committed.mpr ⟨hemitted, hk⟩)

/-- The entry that belongs to an ordinal. -/
def State.itemAt (p : Producer) (s : State) (k : Nat) : Option EnqueueItem :=
  ((emittedOf s.hist.cuts).find? fun b => b.ordinal = k).map p.itemOf

/-- The item of an ordinal is that of its batch. -/
theorem Conserved.itemAt (h : Conserved s.ledger) {b : Batch} (hb : b ∈ emittedOf s.hist.cuts) :
    s.itemAt p b.ordinal = some (p.itemOf b) := by
  unfold State.itemAt
  cases hfind : (emittedOf s.hist.cuts).find? (fun b' => b'.ordinal = b.ordinal) with
  | none =>
      have hno := List.find?_eq_none.mp hfind b hb
      simp at hno
  | some b' =>
      have hordinal : b'.ordinal = b.ordinal := by simpa using List.find?_some hfind
      rw [h.emitted_inj (List.mem_of_find?_eq_some hfind) hb hordinal]
      rfl

/-- The entries of this producer are those of the committed batches, in order. -/
theorem ExactLog.ownItems (h : ExactLog p s) : s.ownItems = s.committed.map p.itemOf := by
  have hcons := h.committing.custody.conserved
  calc s.ownItems = s.hist.manifest.log.filterMap fun x => x.1.bind (s.itemAt p) := by
        refine List.filterMap_congr fun x hx => ?_
        obtain ⟨owner, item⟩ := x
        cases owner with
        | none => rfl
        | some k =>
            obtain ⟨b, hemitted, rfl, rfl⟩ := h.committing.entries k item hx
            exact (hcons.itemAt hemitted).symm
    _ = s.owned.filterMap (s.itemAt p) := (List.filterMap_filterMap ..).symm
    _ = s.committed.filterMap fun b => s.itemAt p b.ordinal := by
        rw [← h.committed_ordinals, List.filterMap_map]
        rfl
    _ = s.committed.filterMap (some ∘ p.itemOf) :=
        List.filterMap_congr fun b hb => hcons.itemAt (mem_committed.mp hb).1
    _ = s.committed.map p.itemOf := congrFun List.filterMap_eq_map' _

/-- A reader that finds the objects of some batches reads their records in order. -/
theorem readBack_itemOf {z : Zstd} {store : ObjectStore} {batches : List Batch}
    (h : ∀ b ∈ batches, ∃ obj, store.objects (p.location b.ordinal) = some obj ∧
      DecodeBatch z obj.data = .ok b.entriesOf) :
    readBack z store (batches.map p.itemOf) = some (batches.flatMap Batch.entriesOf) := by
  induction batches with
  | nil => rfl
  | cons b rest ih =>
      obtain ⟨obj, hobj, hdecode⟩ := h b List.mem_cons_self
      have hrest := ih fun b' hb' => h b' (List.mem_cons_of_mem b hb')
      rw [List.map_cons, readBack, hrest]
      show (do
        let obj ← store.objects (p.location b.ordinal)
        let entries ← (DecodeBatch z obj.data).toOption
        let more ← some (rest.flatMap Batch.entriesOf)
        return entries ++ more) = _
      rw [hobj]
      simp [hdecode, Except.toOption]

/-- The records of batches are those of their messages. -/
theorem flatMap_entriesOf (batches : List Batch) :
    batches.flatMap Batch.entriesOf =
      (batches.flatMap Batch.msgs).flatMap AppendMessage.entries := by
  rw [List.flatMap_assoc]
  rfl

/-- Emitted messages are cut messages, in the same order. -/
theorem emitted_messages (cuts : List Cut) :
    ((emittedOf cuts).flatMap Batch.msgs).Sublist (cuts.flatMap Cut.msgs) := by
  induction cuts with
  | nil => exact List.Sublist.refl _
  | cons cut cuts ih =>
      cases cut with
      | emitted b => exact (List.Sublist.refl _).append ih
      | dropped msgs => exact ih.trans (List.sublist_append_right _ _)

/-- Committed messages are accepted messages, in the same order. -/
theorem committed_sublist (hc : Conserved s.ledger) :
    s.committedMessages.Sublist s.hist.accepted := by
  have hpart : s.hist.accepted = s.hist.cuts.flatMap Cut.msgs ++
      (s.rotator.batch.msgs ++ s.appendCh.queue) := hc.partition
  rw [hpart]
  have hemitted : s.committedMessages.Sublist ((emittedOf s.hist.cuts).flatMap Batch.msgs) :=
    List.filter_sublist.flatMap _
  exact (hemitted.trans (emitted_messages _)).trans (List.sublist_append_left _ _)

/-- Two cuts with a common watcher are the same. -/
theorem Conserved.cut_unique {L : Ledger} (h : Conserved L)
    (hunique : (L.accepted.map AppendMessage.watcher).Nodup) {c c' : Cut} (hc : c ∈ L.cuts)
    (hc' : c' ∈ L.cuts) {m m' : AppendMessage} (hm : m ∈ c.msgs) (hm' : m' ∈ c'.msgs)
    (hw : m.watcher = m'.watcher) : c = c' := by
  rw [h.partition, List.map_append, List.map_flatMap] at hunique
  have hdisjoint := (List.nodup_flatMap.mp (List.nodup_append.mp hunique).1).2
  have : Std.Symm (Function.onFun List.Disjoint fun c : Cut => c.msgs.map AppendMessage.watcher) :=
    ⟨fun _ _ hd => hd.symm⟩
  by_contra hne
  refine hdisjoint.forall hc hc' hne (List.mem_map_of_mem hm) ?_
  rw [hw]
  exact List.mem_map_of_mem hm'

/-- A message whose watcher was resolved with nil is committed. -/
theorem ExactLog.mem_of_nil (h : ExactLog p s) (hb : Books s) (ha : AppendCalls s)
    {m : AppendMessage} (hm : m ∈ s.hist.accepted) (hnil : s.watcherResult m.watcher = some none) :
    m ∈ s.committedMessages := by
  rcases hb.conserved.of_resolved ((watcherResult_iff hb ha).mp hnil) with
    ⟨pr, hpr, hwatcher, herr⟩ | ⟨_, _, _, herr⟩
  · have howned := h.committing.log.decided pr (Or.inr hpr) herr.symm
    have hemitted : pr.batch ∈ emittedOf s.hist.cuts := hb.conserved.handed_emitted hpr
    rw [pr.batch.watchers_eq] at hwatcher
    obtain ⟨m', hm', hw⟩ := List.mem_map.mp hwatcher
    have hcommitted : m' ∈ s.committedMessages :=
      List.mem_flatMap.mpr ⟨pr.batch, mem_committed.mpr ⟨hemitted, howned⟩, hm'⟩
    obtain rfl : m' = m := ha.watcher_inj ((committed_sublist hb.conserved).subset hcommitted) hm hw
    exact hcommitted
  · cases herr

/-- A message whose watcher was resolved with an error is not committed. -/
theorem ExactLog.not_mem_of_error (h : ExactLog p s) (hb : Books s) (ha : AppendCalls s)
    {m : AppendMessage} {err : BufferError} (herr : s.watcherResult m.watcher = some (some err)) :
    m ∉ s.committedMessages := by
  intro hm
  obtain ⟨b, hcommitted, hmsg⟩ := List.mem_flatMap.mp hm
  obtain ⟨hemitted, howned⟩ := mem_committed.mp hcommitted
  have hcut : Cut.emitted b ∈ s.hist.cuts := mem_emittedOf.mp hemitted
  rcases hb.conserved.of_resolved ((watcherResult_iff hb ha).mp herr) with
    ⟨pr, hpr, hwatcher, heq⟩ | ⟨msgs, hmsgs, hwatcher, _⟩
  · rw [pr.batch.watchers_eq] at hwatcher
    obtain ⟨m', hm', hw⟩ := List.mem_map.mp hwatcher
    have hsame := hb.conserved.cut_unique ha.unique hcut
      (mem_emittedOf.mp (hb.conserved.handed_emitted hpr)) hmsg hm' hw.symm
    cases hsame
    exact h.refused pr (Or.inr hpr) (by rw [← heq]; simp) howned
  · obtain ⟨m', hm', hw⟩ := List.mem_map.mp hwatcher
    have hsame := hb.conserved.cut_unique ha.unique hcut (mem_droppedOf.mp hmsgs) hmsg hm' hw.symm
    cases hsame

/-- In a list in which `early` comes first, what is of it comes before what is
not. -/
theorem pair_sublist {α : Type} {early late xs : List α} {a b : α} (hnodup : (early ++ late).Nodup)
    (hsub : xs.Sublist (early ++ late)) (ha : a ∈ xs) (hb : b ∈ xs) (hearly : a ∈ early)
    (hlate : b ∉ early) : [a, b].Sublist xs := by
  obtain ⟨ys, zs, rfl, hys, hzs⟩ := List.sublist_append_iff.mp hsub
  have hays : a ∈ ys := by
    rcases List.mem_append.mp ha with hin | hin
    · exact hin
    · exact absurd rfl ((List.nodup_append.mp hnodup).2.2 a hearly a (hzs.subset hin))
  have hbzs : b ∈ zs := by
    rcases List.mem_append.mp hb with hin | hin
    · exact absurd (hys.subset hin) hlate
    · exact hin
  exact (List.singleton_sublist.mpr hays).append (List.singleton_sublist.mpr hbzs)

/-- Messages of calls that have not begun are not accepted. -/
theorem AppendCalls.begun (h : AppendCalls s) {m : AppendMessage} (hm : m ∈ s.hist.accepted) :
    m.watcher < s.appends.length := by
  obtain ⟨c, hc, _, _⟩ := h.accepted m hm
  exact (List.getElem?_eq_some_iff.mp hc).1

/-- Runs in which errors of `PutIfMatch` have no effect. -/
abbrev CleanRun (p : Producer) (s t : State) : Prop := RunWhere p CasErrorsHaveNoEffect s t

/-- **The pipeline refines an ordered log.**  If errors of `PutIfMatch` have no
effect, then in every reachable state: the manifest object holds the log, which is
empty where there is no such object; this producer's entries are those of the committed
batches, and their ordinals increase; reading them back gives the entries of some of the
accepted messages, in the order they were accepted; a message whose watcher was resolved
with nil is among them, and one whose watcher was resolved with an error is not, now or
in any later state; and of two committed messages, one whose call had returned before the
other's began comes first. -/
theorem pipeline_refines_ordered_log {store : ObjectStore} {items : List EnqueueItem}
    (hz : p.zstd.Lawful) (hpath : ∀ k, p.location k ≠ p.config.ManifestPath)
    (hstart : StartsFrom store p.config.ManifestPath items)
    (hrun : CleanRun p (newProducer p store items) s)
    (hrep : ∀ b ∈ emittedOf s.hist.cuts, p.Representable b) :
    (s.store.objects p.config.ManifestPath = none → s.hist.manifest.log = []) ∧
    (∀ obj, s.store.objects p.config.ManifestPath = some obj → ∃ entries,
      DecodeManifestEntries obj.data = .ok entries ∧ entries.map QueueEntry.item =
        (s.hist.manifest.log.drop s.hist.manifest.dropped).map Prod.snd) ∧
    (s.ownItems = s.committed.map p.itemOf ∧ s.owned = s.committed.map Batch.ordinal ∧
      s.owned.Pairwise (· < ·)) ∧
    readBack p.zstd s.store s.ownItems =
      some (s.committedMessages.flatMap AppendMessage.entries) ∧
    s.committedMessages.Sublist s.hist.accepted ∧
    (∀ m ∈ s.hist.accepted, s.watcherResult m.watcher = some none → m ∈ s.committedMessages) ∧
    (∀ m ∈ s.hist.accepted, ∀ err, s.watcherResult m.watcher = some (some err) →
      ∀ t, CleanRun p s t → m ∉ t.committedMessages) ∧
    (∀ r, CleanRun p (newProducer p store items) r → CleanRun p r s →
      ∀ m ∈ s.committedMessages, ∀ m' ∈ s.committedMessages, ∀ c,
        r.appends[m.watcher]? = some c → c.phase = .returned none →
          r.appends.length ≤ m'.watcher → [m, m'].Sublist s.committedMessages) := by
  have he := reachable_exactLog hrun
  have hb := reachable_books hrun
  have ha := reachable_appendCalls hrun
  have hsub := committed_sublist hb.conserved
  have hholds := (reachable_manifestHeld hpath hstart hrun hrep).holds
  refine ⟨fun hnone => (hholds.missing hnone).1, fun obj hobj => hholds.decodes hobj,
    ⟨he.ownItems, he.committed_ordinals.symm, he.fresh.sorted⟩, ?_, hsub,
    fun m hm => he.mem_of_nil hb ha hm, ?_, ?_⟩
  · rw [he.ownItems, State.committedMessages, ← flatMap_entriesOf]
    refine readBack_itemOf fun b hcommitted => ?_
    obtain ⟨hemitted, howned⟩ := mem_committed.mp hcommitted
    exact (reachable_entriesStored hpath hrun b hemitted howned).decodes hz (hrep b hemitted)
  · intro m hm err herr t hafter
    have hrun' := hrun.trans hafter
    have hbt := reachable_books hrun'
    have hat := reachable_appendCalls hrun'
    have hkept : t.watcherResult m.watcher = some (some err) := by
      rw [watcherResult_iff hbt hat]
      exact (hafter.grows hb).resolved.subset ((watcherResult_iff hb ha).mp herr)
    exact (reachable_exactLog hrun').not_mem_of_error hbt hat hkept
  · intro r hbefore hafter m hm m' hm' c hcall hphase hlater
    have hbr := reachable_books hbefore
    have har := reachable_appendCalls hbefore
    obtain ⟨more, hmore⟩ := (hafter.grows hbr).accepted
    have hmore : r.hist.accepted ++ more = s.hist.accepted := hmore
    rw [← hmore] at hsub
    refine pair_sublist ?_ hsub hm hm' ?_ ?_
    · rw [hmore]
      exact ha.unique.of_map _
    · obtain ⟨m₀, hm₀, hw⟩ := har.recorded _ c hcall (Or.inr hphase)
      have hin : m₀ ∈ s.hist.accepted := hmore ▸ List.mem_append_left _ hm₀
      obtain rfl : m₀ = m := ha.watcher_inj hin ((hmore ▸ hsub).subset hm) hw
      exact hm₀
    · intro hin
      have hlt := har.begun hin
      omega

/-- Three messages in two batches. -/
theorem pipeline_refines_ordered_log_sample :
    sampleTwice.owned = [0, 1] ∧
      readBack sampleZstd sampleTwice.store sampleTwice.ownItems = some [[7], [7], [8], [9]] ∧
      secondMessage ∈ sampleTwice.committedMessages ∧
      [sampleMessage, thirdMessage].Sublist sampleTwice.committedMessages := by
  have hclean : ∀ {s t : State}, SmoothRun s t → CleanRun sampleProducer s t := by
    refine fun hsmooth => hsmooth.mono fun _ l hl => ?_
    rintro rfl
    exact hl
  have hrep : ∀ b ∈ emittedOf sampleTwice.hist.cuts, sampleProducer.Representable b := by
    intro b hb
    rcases List.mem_cons.mp hb with rfl | hb
    · exact sampleBatch_representable
    · obtain rfl := List.mem_singleton.mp hb
      exact ⟨by decide, by unfold ItemFits; decide⟩
  obtain ⟨-, -, -, hread, -, hnil, -, horder⟩ := pipeline_refines_ordered_log sampleZstd_lawful
    sample_location_ne (emptyStore_startsFrom _) (hclean sample_twice) hrep
  have hfirst : sampleMessage ∈ sampleTwice.committedMessages :=
    hnil _ List.mem_cons_self rfl
  have hthird : thirdMessage ∈ sampleTwice.committedMessages :=
    hnil _ (List.mem_cons_of_mem _ (List.mem_cons_of_mem _ List.mem_cons_self)) rfl
  refine ⟨rfl, hread, hnil _ (List.mem_cons_of_mem _ List.mem_cons_self) rfl, ?_⟩
  exact horder sampleFlushed (hclean sample_flushes)
    (hclean (sample_asks.trans sample_commits_again)) _ hfirst _ hthird _ rfl rfl (by decide)

end OpenDataBuffer
