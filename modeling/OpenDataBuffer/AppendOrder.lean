import OpenDataBuffer.FleetManifest
import OpenDataBuffer.OrderedLog
import OpenDataBuffer.Recovery

/-!
# Appends are read back in the order of the calls

A caller that has its handle, or knows of another caller that has one, and then
appends again expects the second append behind the first.  Between the two calls
there are a channel, encoders and uploaders that overtake each other, and a committer
that writes a group again whose fate it does not know.

If the first append was acknowledged, a reader that goes through the manifest and
comes to an entry with the second one has read the first one before
(`appends_read_in_call_order`).  Entries may be there twice; but a group that is
written again is the last one, so what comes first in the manifest is in order.
-/

namespace OpenDataBuffer

open LabelledRuns

variable {p : Producer} {s t : State} {l : Label}

/-! ## One element before another -/

section Before

variable {α β : Type}

/-- Of two elements of a list, one comes before the other. -/
theorem before_or_after {l : List α} {a b : α} (ha : a ∈ l) (hb : b ∈ l) :
    a = b ∨ [a, b].Sublist l ∨ [b, a].Sublist l := by
  induction l with
  | nil => exact absurd ha List.not_mem_nil
  | cons c l ih =>
      rcases List.mem_cons.mp ha with rfl | ha'
      · rcases List.mem_cons.mp hb with rfl | hb'
        · exact Or.inl rfl
        · exact Or.inr (Or.inl ((List.singleton_sublist.mpr hb').cons_cons a))
      · rcases List.mem_cons.mp hb with rfl | hb'
        · exact Or.inr (Or.inr ((List.singleton_sublist.mpr ha').cons_cons b))
        · rcases ih ha' hb' with rfl | hab | hba
          · exact Or.inl rfl
          · exact Or.inr (Or.inl (hab.cons c))
          · exact Or.inr (Or.inr (hba.cons c))

/-- Without repetition it cannot be both. -/
theorem not_before_and_after {l : List α} (hnodup : l.Nodup) {a b : α} (hab : [a, b].Sublist l) :
    ¬ [b, a].Sublist l := by
  induction l with
  | nil => exact fun _ => by simp at hab
  | cons c l ih =>
      obtain ⟨hc, hnodup⟩ := List.nodup_cons.mp hnodup
      intro hba
      cases hab with
      | cons _ hab =>
          cases hba with
          | cons _ hba => exact ih hnodup hab hba
          | cons_cons _ _ => exact hc (hab.subset (List.mem_cons_of_mem a List.mem_cons_self))
      | cons_cons _ hb =>
          cases hba with
          | cons _ hba => exact hc (hba.subset (List.mem_cons_of_mem b List.mem_cons_self))
          | cons_cons _ _ => exact hc (List.singleton_sublist.mp hb)

/-- The order of two lists passes on to their members. -/
theorem before_flatMap {l : List α} {f : α → List β} {x y : α} {a b : β}
    (hxy : [x, y].Sublist l) (ha : a ∈ f x) (hb : b ∈ f y) : [a, b].Sublist (l.flatMap f) := by
  have hpair : [a, b].Sublist ([x, y].flatMap f) := by
    simpa using (List.singleton_sublist.mpr ha).append (List.singleton_sublist.mpr hb)
  exact hpair.trans (hxy.flatMap f)

end Before

/-! ## The order of messages -/

/-- The emitted messages come in the order in which they were accepted. -/
theorem emitted_sublist (hc : Conserved s.ledger) :
    ((emittedOf s.hist.cuts).flatMap Batch.msgs).Sublist s.hist.accepted := by
  have hpart : s.hist.accepted = s.hist.cuts.flatMap Cut.msgs ++
      (s.rotator.batch.msgs ++ s.appendCh.queue) := hc.partition
  rw [hpart]
  exact (emitted_messages s.hist.cuts).trans (List.sublist_append_left _ _)

/-- An emitted message was accepted. -/
theorem Books.emitted_accepted (h : Books s) {b : Batch} {m : AppendMessage}
    (hb : b ∈ emittedOf s.hist.cuts) (hm : m ∈ b.msgs) : m ∈ s.hist.accepted :=
  (emitted_sublist h.conserved).subset (List.mem_flatMap.mpr ⟨b, hb, hm⟩)

/-- The messages of a batch are behind those of the batches before it. -/
theorem ordinal_le_of_before (hc : Conserved s.ledger) (ha : AppendCalls s) {b b' : Batch}
    (hb : b ∈ emittedOf s.hist.cuts) (hb' : b' ∈ emittedOf s.hist.cuts) {m m' : AppendMessage}
    (hm : m ∈ b.msgs) (hm' : m' ∈ b'.msgs) (hbefore : [m', m].Sublist s.hist.accepted) :
    b'.ordinal ≤ b.ordinal := by
  by_contra hlt
  have hincreasing := List.pairwise_map.mp hc.emitted_increasing
  have horder : [b, b'].Sublist (emittedOf s.hist.cuts) := by
    rcases before_or_after hb hb' with rfl | hle | hge
    · exact absurd (Nat.le_refl _) hlt
    · exact hle
    · exact absurd (Nat.le_of_lt (List.pairwise_iff_forall_sublist.mp hincreasing hge)) hlt
  have hafter := (before_flatMap horder hm hm').trans (emitted_sublist hc)
  exact not_before_and_after (ha.unique.of_map _) hbefore hafter

/-- Within one batch the messages are in the order in which they were accepted. -/
theorem before_in_batch (hc : Conserved s.ledger) (ha : AppendCalls s) {b : Batch}
    (hb : b ∈ emittedOf s.hist.cuts) {m m' : AppendMessage} (hm : m ∈ b.msgs) (hm' : m' ∈ b.msgs)
    (hne : m' ≠ m) (hbefore : [m', m].Sublist s.hist.accepted) : [m', m].Sublist b.msgs := by
  rcases before_or_after hm' hm with heq | hle | hge
  · exact absurd heq hne
  · exact hle
  · have hmsgs : b.msgs.Sublist s.hist.accepted :=
      (by simpa using (List.singleton_sublist.mpr hb).flatMap Batch.msgs : b.msgs.Sublist _).trans
        (emitted_sublist hc)
    exact absurd (hge.trans hmsgs) (not_before_and_after (ha.unique.of_map _) hbefore)

/-! ## The order of entries -/

/-- What comes first in the manifest is in order: in front of an entry there is one of
every lower ordinal that is in the manifest at all.  A group is in the manifest as a
whole or not at all. -/
structure FirstsInOrder (s : State) : Prop where
  firsts : ∀ before k after, s.owned = before ++ k :: after → ∀ k' ∈ s.owned, k' < k → k' ∈ before
  whole : ∀ group failed call, s.committer.phase = .cas group failed call →
    (∃ uc ∈ group, uc.eb.ordinal ∈ s.owned) → ∀ uc ∈ group, uc.eb.ordinal ∈ s.owned

/-- A list with firsts in order goes on with an increasing one that repeats some of it
or is above all of it. -/
theorem firsts_append {old new : List Nat}
    (hfirsts : ∀ before k after, old = before ++ k :: after → ∀ k' ∈ old, k' < k → k' ∈ before)
    (hnew : new.Pairwise (· < ·)) (hearlier : ∀ k ∈ old, k ∈ new ∨ ∀ k' ∈ new, k < k')
    (hwhole : (∃ k ∈ new, k ∈ old) → ∀ k ∈ new, k ∈ old) (before : List Nat) (k : Nat)
    (after : List Nat) (hsplit : old ++ new = before ++ k :: after) (k' : Nat)
    (hk' : k' ∈ old ++ new) (hlt : k' < k) : k' ∈ before := by
  have hplace : (∃ x, before = old ++ x ∧ new = x ++ k :: after) ∨ ∃ x, old = before ++ k :: x := by
    rcases List.append_eq_append_iff.mp hsplit with ⟨x, hbefore, hx⟩ | ⟨x, hold, hx⟩
    · exact Or.inl ⟨x, hbefore, hx⟩
    · cases x with
      | nil => exact Or.inl ⟨[], by simpa using hold.symm, by simpa using hx.symm⟩
      | cons k0 x =>
          obtain ⟨rfl, -⟩ := List.cons.inj hx
          exact Or.inr ⟨x, hold⟩
  rcases hplace with ⟨x, rfl, hx⟩ | ⟨x, hold⟩
  · -- The entry is a new one: what is below it is old, or new and in front of it.
    refine List.mem_append.mpr ((List.mem_append.mp hk').imp id fun hin => ?_)
    rw [hx, List.pairwise_append, List.pairwise_cons] at hnew
    rw [hx] at hin
    rcases List.mem_append.mp hin with hin | hin
    · exact hin
    · rcases List.mem_cons.mp hin with rfl | hin
      · exact absurd hlt (Nat.lt_irrefl k')
      · exact absurd hlt (Nat.lt_asymm (hnew.2.1.1 k' hin))
  · -- The entry is an old one: a new ordinal below it was there before.
    have hk : k ∈ old := hold ▸ List.mem_append_right before List.mem_cons_self
    refine hfirsts before k x hold k' ?_ hlt
    rcases List.mem_append.mp hk' with hin | hin
    · exact hin
    · rcases hearlier k hk with hagain | hbelow
      · exact hwhole ⟨k, hagain, hk⟩ k' hin
      · exact absurd hlt (Nat.lt_asymm (hbelow k' hin))

/-- **Step rule for the order of entries.**  A group is in order, and no batch of it was
appended before a later one. -/
theorem FirstsInOrder.step (h : FirstsInOrder s) (hc : Committing p s) (hs : ProducerStep p s l t) :
    FirstsInOrder t := by
  constructor
  · rcases owned_step hs with heq | ⟨group, failed, call, n, data, version, hphase, hcall, _, heq⟩
    · rw [heq]
      exact h.firsts
    · have hsorted := hc.log.sorted
      have hearlier := hc.log.earlier
      have hwhole := h.whole group failed call hphase
      rw [hphase] at hsorted hearlier
      rw [heq]
      refine firsts_append h.firsts hsorted (fun k hk => ?_) ?_
      · refine (hearlier k hk).imp id fun hlt k' hk' => ?_
        obtain ⟨uc, huc, rfl⟩ := List.mem_map.mp hk'
        exact hlt uc huc
      · rintro ⟨k, hk, hin⟩ k' hk'
        obtain ⟨uc, huc, rfl⟩ := List.mem_map.mp hk
        obtain ⟨uc', huc', rfl⟩ := List.mem_map.mp hk'
        exact hwhole ⟨uc, huc, hin⟩ uc' huc'
  · intro group failed call hphase
    cases cas_origin hs hphase with
    | same hold howned => rw [howned]; exact h.whole _ _ _ hold
    | moved hold hcas howned => rw [howned]; exact h.whole _ _ _ hold
    | applied hold hcall hnow howned =>
        intro _ uc huc
        rw [howned]
        exact List.mem_append_right _ (List.mem_map_of_mem huc)
    | collected hold hne hgroup hfailed hcall howned =>
        rintro ⟨uc, huc, hin⟩
        rw [howned] at hin
        exact absurd hin (hc.collected_fresh hold (hgroup ▸ huc))

/-- The first entries of the batches are in order, in every run. -/
theorem reachable_firstsInOrder {allowed : State → Label → Prop} {store : ObjectStore}
    {items : List EnqueueItem} (hrun : RunWhere p allowed (newProducer p store items) s) :
    FirstsInOrder s := by
  have hnone : (newProducer p store items).owned = [] := filterMap_others items
  refine (hrun.invariant (P := fun x => Committing p x ∧ FirstsInOrder x)
    ⟨committing_newProducer store items, ⟨?_, ?_⟩⟩
    fun _ _ _ hx _ hs => ⟨hx.1.step hs, hx.2.step hx.1 hs⟩).2
  · intro before k after hsplit
    rw [hnone] at hsplit
    simp at hsplit
  · intro group failed call hphase
    cases hphase

/-! ## Reading -/

/-- What a reader gets from an entry of the manifest: the appends of its batch. -/
def readAppends (z : Zstd) (store : ObjectStore) (item : EnqueueItem) :
    Option (List (List Bytes × Bytes × Int64)) := do
  let obj ← store.objects item.Location
  let stored ← (DecodeBatch z obj.data).toOption
  return recoverAppends stored item.Metadata

/-- A reader of the object of a batch finds its messages. -/
theorem Producer.Stored.readAppends {store : ObjectStore} {b : Batch} (hz : p.zstd.Lawful)
    (h : p.Stored store b) (hcount : b.entriesOf.length < 2 ^ 32) :
    readAppends p.zstd store (p.itemOf b) = some (b.msgs.map AppendMessage.request) := by
  obtain ⟨obj, hobj, hdata⟩ := h
  have hdecode := decodeBatch_encodeBatch hz hcount hdata
  have hrecover := recoverAppends_accumulate hcount
  rw [accumulate_entries, ← b.metadata_eq] at hrecover
  simp only [OpenDataBuffer.readAppends, Producer.itemOf, hobj]
  show ((DecodeBatch p.zstd obj.data).toOption.bind fun stored =>
    some (recoverAppends stored b.metadata)) = _
  rw [hdecode]
  exact congrArg some hrecover

/-- What a reader gets that goes through these entries of the log and reads those of
this producer. -/
def readLog (z : Zstd) (store : ObjectStore) :
    List (Option Nat × EnqueueItem) → Option (List (List Bytes × Bytes × Int64))
  | [] => some []
  | (none, _) :: rest => readLog z store rest
  | (some _, item) :: rest => do
      let records ← readAppends z store item
      let more ← readLog z store rest
      return records ++ more

/-- A reader of the log finds the records of each entry that can be read. -/
theorem readLog_some {z : Zstd} {store : ObjectStore} {log : List (Option Nat × EnqueueItem)}
    (h : ∀ k item, (some k, item) ∈ log → ∃ records, readAppends z store item = some records) :
    ∃ all, readLog z store log = some all ∧ ∀ k item records, (some k, item) ∈ log →
      readAppends z store item = some records → records.Sublist all := by
  induction log with
  | nil => exact ⟨[], rfl, fun k item records hmem => absurd hmem List.not_mem_nil⟩
  | cons x rest ih =>
      obtain ⟨owner, item⟩ := x
      obtain ⟨more, hmore, hall⟩ := ih fun k item hmem => h k item (List.mem_cons_of_mem _ hmem)
      cases owner with
      | none =>
          refine ⟨more, hmore, fun k item' records hmem hread => ?_⟩
          rcases List.mem_cons.mp hmem with heq | hmem
          · cases heq
          · exact hall k item' records hmem hread
      | some k =>
          obtain ⟨records, hread⟩ := h k item List.mem_cons_self
          refine ⟨records ++ more, by simp [readLog, hread, hmore],
            fun k' item' records' hmem hread' => ?_⟩
          rcases List.mem_cons.mp hmem with heq | hmem
          · cases heq
            obtain rfl : records' = records := Option.some.inj (hread'.symm.trans hread)
            exact List.sublist_append_left _ _
          · exact (hall k' item' records' hmem hread').trans (List.sublist_append_right _ _)

/-- An entry of this producer is that of the batch with its ordinal, and reads as the
messages of that batch. -/
theorem Committing.reads_entry (hc : Committing p s) (hstored : EntriesStored p s)
    (hz : p.zstd.Lawful) (hrep : ∀ b ∈ emittedOf s.hist.cuts, p.Representable b) {b : Batch}
    (hb : b ∈ emittedOf s.hist.cuts) {item : EnqueueItem}
    (hmem : (some b.ordinal, item) ∈ s.hist.manifest.log) :
    readAppends p.zstd s.store item = some (b.msgs.map AppendMessage.request) := by
  obtain ⟨b', hb', hordinal, rfl⟩ := hc.entries _ _ hmem
  obtain rfl : b' = b := hc.custody.conserved.emitted_inj hb' hb hordinal
  exact (hstored b' hb' (owned_of_mem hmem)).readAppends hz (hrep b' hb').count

/-- What is accepted later comes behind. -/
theorem before_of_later {m m' : AppendMessage} (hgrow : s.hist.accepted <+: t.hist.accepted)
    (hm' : m' ∈ s.hist.accepted) (hm : m ∈ t.hist.accepted) (hnew : m ∉ s.hist.accepted) :
    [m', m].Sublist t.hist.accepted := by
  obtain ⟨more, hmore⟩ := hgrow
  rw [← hmore] at hm ⊢
  have hin := (List.mem_append.mp hm).resolve_left hnew
  exact (List.singleton_sublist.mpr hm').append (List.singleton_sublist.mpr hin)

/-- **Appends are read in the order of the calls.**  Call `i` has its message in the
channel when call `j` has not, and `i` is acknowledged.  Then whoever goes through the
manifest up to any entry of `j`'s batch reads what `i` appended, and behind it what
`j` appended.  This holds for every behaviour of the store. -/
theorem appends_read_in_call_order {store : ObjectStore} {items : List EnqueueItem}
    (hz : p.zstd.Lawful) (hpath : ∀ k, p.location k ≠ p.config.ManifestPath)
    (hbefore : Run p (newProducer p store items) s) (hafter : Run p s t)
    (hrep : ∀ b ∈ emittedOf t.hist.cuts, p.Representable b) {i : Nat} {c : AppendCall}
    (hcall : s.appends[i]? = some c) (hsent : c.phase.Sent)
    (hnil : t.watcherResult i = some none) {b : Batch} (hb : b ∈ emittedOf t.hist.cuts)
    {m : AppendMessage} (hm : m ∈ b.msgs)
    (hlater : ∀ d, s.appends[m.watcher]? = some d → ¬ d.phase.Sent)
    {before after : List (Option Nat × EnqueueItem)} {item : EnqueueItem}
    (hlog : t.hist.manifest.log = before ++ (some b.ordinal, item) :: after) :
    ∃ (m' : AppendMessage) (earlier records : List (List Bytes × Bytes × Int64)), m'.IsFor i c ∧
      readLog p.zstd t.store before = some earlier ∧
      readAppends p.zstd t.store item = some records ∧
      [m'.request, m.request].Sublist (earlier ++ records) := by
  have hrun := hbefore.trans hafter
  have hc := reachable_committing hrun
  have hbooks := reachable_books hrun
  have hcalls := reachable_appendCalls hrun
  have hconserved := hbooks.conserved
  have hstored := reachable_entriesStored hpath hrun
  -- The message of `i` and that it comes before the one of `j`.
  obtain ⟨m', hm', rfl⟩ := (reachable_appendCalls hbefore).recorded i c hcall hsent
  obtain ⟨c', hc', hfor, _⟩ := (reachable_appendCalls hbefore).accepted m' hm'
  obtain rfl : c' = c := Option.some.inj (hc'.symm.trans hcall)
  have hgrow : s.hist.accepted <+: t.hist.accepted :=
    (hafter.grows (reachable_books hbefore)).accepted
  have hnew : m ∉ s.hist.accepted := fun hin => by
    obtain ⟨d, hd, _, hdsent⟩ := (reachable_appendCalls hbefore).accepted m hin
    exact hlater d hd hdsent
  have horder := before_of_later hgrow hm' (hbooks.emitted_accepted hb hm) hnew
  -- The entries: that of `j` and those in front of it.
  have hentry : (some b.ordinal, item) ∈ t.hist.manifest.log := by simp [hlog]
  have hread := hc.reads_entry hstored hz hrep hb hentry
  have hfront : ∀ k item', (some k, item') ∈ before →
      (some k, item') ∈ t.hist.manifest.log := fun k item' hmem => by simp [hlog, hmem]
  have hreads : ∀ k item', (some k, item') ∈ before →
      ∃ records, readAppends p.zstd t.store item' = some records := fun k item' hmem => by
    obtain ⟨b', hb', rfl, _⟩ := hc.entries k item' (hfront k item' hmem)
    exact ⟨_, hc.reads_entry hstored hz hrep hb' (hfront _ _ hmem)⟩
  obtain ⟨earlier, hearlier, hall⟩ := readLog_some hreads
  refine ⟨m', earlier, _, hfor, hearlier, hread, ?_⟩
  -- The batch of `i` is the same, or one with a lower ordinal, which is in front.
  obtain ⟨b', hb', ⟨m'', hm'', hwatcher⟩, hentry'⟩ := hc.resolved_entry hbooks hcalls hnil
  obtain rfl : m'' = m' :=
    hcalls.watcher_inj (hbooks.emitted_accepted hb' hm'') (hgrow.subset hm') hwatcher
  rcases Nat.eq_or_lt_of_le (ordinal_le_of_before hconserved hcalls hb hb' hm hm'' horder) with
    heq | hlt
  · obtain rfl : b' = b := hconserved.emitted_inj hb' hb heq
    have hne : m'' ≠ m := fun h => hnew (h ▸ hm')
    have hpair :=
      (before_in_batch hconserved hcalls hb hm hm'' hne horder).map AppendMessage.request
    exact hpair.trans (List.sublist_append_right _ _)
  · have hsplit : t.owned = before.filterMap Prod.fst ++ b.ordinal :: after.filterMap Prod.fst := by
      simp [State.owned, hlog]
    have hin := (reachable_firstsInOrder hrun).firsts _ _ _ hsplit _ (owned_of_mem hentry') hlt
    obtain ⟨⟨owner, item'⟩, hmem, rfl⟩ := List.mem_filterMap.mp hin
    have hfirst := hall _ _ _ hmem (hc.reads_entry hstored hz hrep hb' (hfront _ _ hmem))
    have hone : [m''.request].Sublist earlier :=
      (List.singleton_sublist.mpr (List.mem_map_of_mem hm'')).trans hfirst
    exact hone.append (List.singleton_sublist.mpr (List.mem_map_of_mem hm))

/-- One batch of both. -/
def samplePair : Batch :=
  ((OpenBatch.empty.add sampleMessage).add secondMessage).batch 0 .manual (some 0)

/-- The manifest with the batch of both as its only entry. -/
def samplePairCommit : GetResult where
  data :=
    match planAppend [sampleProducer.itemOf samplePair] (.error .notFound) with
    | .ok (data, _) => data
    | .error _ => []
  version := ⟨"1"⟩

/-- A second call comes after the first one; both are flushed and committed. -/
theorem sample_pair : ∃ t, Run sampleProducer sampleAppended t ∧ t.watcherResult 0 = some none ∧
    t.hist.cuts = [.emitted samplePair] ∧
    t.hist.manifest.log = [(some 0, sampleProducer.itemOf samplePair)] := by
  have hrun := (Reach.refl : SmoothRun sampleAppended sampleAppended)
    |>.tail (by trivial) (.rotator rfl (.receive rfl rfl))
    |>.tail (by trivial) (.append rfl (.begin [[7]] []))
    |>.tail (by trivial) (.append rfl (.check (i := 1) rfl rfl))
    |>.tail (by trivial) (.append rfl (.reserve (i := 1) rfl rfl rfl second_isFor))
    |>.tail (by trivial) (.append rfl (.send (i := 1) rfl rfl rfl (by decide)))
    |>.tail (by trivial) (.flush rfl .begin)
    |>.tail (by trivial) (.rotator rfl (.takeFlush (f := 0) rfl rfl rfl))
    |>.tail (by trivial) (.rotator rfl (.drainReceive rfl rfl))
    |>.tail (by trivial) (.rotator rfl (.drainDone rfl rfl))
    |>.tail (by trivial) (.rotator rfl (.acquire rfl rfl))
    |>.tail (by trivial) (.rotator rfl (.reconcile rfl))
    |>.tail (by trivial) (.encoder rfl (.take (i := 0) rfl rfl))
    |>.tail (by trivial) (.encoder rfl (.encoded (i := 0) rfl rfl))
    |>.tail (by trivial) (.uploader rfl (.take (i := 0) (j := 0) rfl rfl rfl))
    |>.tail (by trivial) (.uploader rfl
      (.putApplies (j := 0) ⟨"a"⟩ rfl (fun _ h => absurd h List.not_mem_nil)))
    |>.tail (by trivial) (.uploader rfl (.putOk (j := 0) rfl))
    |>.tail (by trivial) (.uploader rfl (.complete (j := 0) rfl rfl (by decide)))
    |>.tail (by trivial) (.committer rfl (.receive rfl rfl rfl))
    |>.tail (by trivial) (.committer rfl (.gatherDone rfl rfl))
    |>.tail (by trivial) (.committer rfl (.collect rfl))
    |>.tail (by trivial) (.committer rfl (.cas rfl (.get rfl)))
    |>.tail (by trivial) (.committer rfl
      (@CommitterStep.casApplies _ _ _ _ _ _ samplePairCommit _ rfl rfl rfl (fun _ h =>
        absurd (congrArg Prod.fst (List.mem_singleton.mp h)).symm (sample_location_ne 0))))
    |>.tail (by trivial) (.committer rfl (.cas rfl (.ok rfl)))
    |>.tail (by trivial) (.committer rfl (.settle rfl rfl (Or.inl rfl)))
    |>.tail (by trivial) (.resolver rfl (.take rfl rfl rfl))
    |>.tail (by trivial) (.resolver rfl (.observe rfl))
    |>.tail (by trivial) (.resolver rfl (.resolve rfl))
  exact ⟨_, SmoothRun.run hrun, rfl, rfl, rfl⟩

/-- Two calls one after the other, read from one batch. -/
theorem appends_read_in_call_order_sample : ∃ t, Run sampleProducer sampleAppended t ∧
    ∃ (m' : AppendMessage) (records : List (List Bytes × Bytes × Int64)),
      m'.IsFor 0 ⟨[[7]], [], none, .returned none⟩ ∧
      readAppends sampleZstd t.store (sampleProducer.itemOf samplePair) = some records ∧
      [m'.request, secondMessage.request].Sublist records := by
  obtain ⟨t, hrun, hnil, hcuts, hlog⟩ := sample_pair
  have hemitted : samplePair ∈ emittedOf t.hist.cuts := by
    rw [hcuts]
    exact List.mem_singleton_self _
  have hrep : ∀ b ∈ emittedOf t.hist.cuts, sampleProducer.Representable b := by
    intro b hb
    rw [hcuts] at hb
    obtain rfl := List.mem_singleton.mp hb
    exact ⟨by decide, by unfold ItemFits; decide⟩
  have hsplit : t.hist.manifest.log =
      [] ++ (some samplePair.ordinal, sampleProducer.itemOf samplePair) :: [] := hlog
  obtain ⟨m', earlier, records, hfor, hearlier, hread, horder⟩ :=
    appends_read_in_call_order sampleZstd_lawful sample_location_ne sample_appends.run hrun hrep rfl
      (Or.inr rfl) hnil hemitted (m := secondMessage) (List.mem_cons_of_mem _ List.mem_cons_self)
      (fun d hd => by cases hd) hsplit
  cases hearlier
  exact ⟨t, hrun, m', records, hfor, hread, horder⟩

end OpenDataBuffer
