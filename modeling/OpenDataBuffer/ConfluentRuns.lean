import OpenDataBuffer.CommitEnd
import OpenDataBuffer.Durability

/-!
# The committer gives the same result in every order

A run of the committer starts with the completions of the ordinals `0 .. n-1` in any
order.  If the manifest can take the entries of the uploaded batches, every such run
ends with the same manifest bytes and the same outcome of every batch
(`committer_confluent`).  If it cannot, the committer halts the producer although the
store never fails (`committer_halts_without_fault`).

A run of a producer without store faults and without other writers is such a run of
its committer (`RunWhere.feed`).
-/

namespace OpenDataBuffer

open LabelledRuns

variable {p : Producer} {x y : Feed} {s t : State} {l : Label}

/-! ## Start and end -/

/-- The state is reached from a new producer on the manifest `m` to which the
completions come in some order. -/
def Fed (p : Producer) (m : ManifestStart) (batches : List UploadCompletion) (x : Feed) : Prop :=
  ∃ store items arrivals, ObjectStore.bytesAt store p.config.ManifestPath = m.data ∧
    items.map (Prod.mk none) = m.log ∧ arrivals.Perm batches ∧
    FeedRun p ⟨newProducer p store items, arrivals⟩ x

/-- The entries that a reader finds in a manifest. -/
def entriesIn : Option Bytes → Except GoFault (List QueueEntry)
  | none => .ok []
  | some data => DecodeManifestEntries data

/-- What the committer leaves behind. -/
structure Concluded (p : Producer) (m : ManifestStart) (batches : List UploadCompletion)
    (s : State) : Prop where
  next : s.committer.next = batches.length
  ready : s.committer.ready = []
  log : s.hist.manifest.log = m.log ++ ownedItems (uploaded batches)
  entries : ∃ new,
    entriesIn (ObjectStore.bytesAt s.store p.config.ManifestPath) = .ok (m.entries ++ new) ∧
    new.map QueueEntry.item = (uploaded batches).map UploadCompletion.item
  results : s.hist.handed.Perm (batches.map UploadCompletion.resolution)

section Confluence

variable {m : ManifestStart} {batches : List UploadCompletion}

theorem inOrder_newProducer {store : ObjectStore} {items : List EnqueueItem}
    {arrivals : List UploadCompletion}
    (hstart : ObjectStore.bytesAt store p.config.ManifestPath = m.data)
    (hlog : items.map (Prod.mk none) = m.log) (harrivals : arrivals.Perm batches) :
    InOrder p m batches ⟨newProducer p store items, arrivals⟩ where
  steady :=
    { halted := rfl
      phase := trivial
      closing := nofun
      closed := nofun
      looking := fun _ => rfl
      exited := nofun
      resolver := nofun }
  delivery :=
    { within := Nat.zero_le _
      waiting := harrivals
      results := List.Perm.nil
      idle := fun _ => List.not_mem_nil }
  recorded := by
    refine ⟨[], rfl, ?_, ?_, fun _ => hstart⟩
    · exact hlog.trans (List.append_nil _).symm
    · have hcontent := m.content
      rw [← hstart] at hcontent
      simpa [newProducer, entriesOf, sequenced] using hcontent

/-- The invariant holds in every run without faults. -/
theorem Fed.inOrder (hord : ordinalsOf batches = List.range batches.length)
    (hw : Writable m (uploaded batches)) (h : Fed p m batches x) : InOrder p m batches x := by
  obtain ⟨store, items, arrivals, hstart, hlog, harrivals, hrun⟩ := h
  exact hrun.invariant (inOrder_newProducer hstart hlog harrivals)
    fun _ _ _ hx _ hs => hx.step hord hw hs

/-- What a reader finds in a manifest that has been extended. -/
theorem Extended.entriesIn {logged : List UploadCompletion} {data : Option Bytes}
    (h : Extended m logged data) :
    OpenDataBuffer.entriesIn data =
      .ok (m.entries ++ sequenced m.nextSequence (entriesOf logged)) := by
  cases data with
  | none => rw [h.content.1]; rfl
  | some data => exact WellFormed.decode h.content

/-- The bytes of an extended manifest are known. -/
theorem Extended.unique {logged : List UploadCompletion} {data data' : Option Bytes}
    (h : Extended m logged data) (h' : Extended m logged data') : data = data' := by
  cases logged with
  | nil => exact (h.untouched rfl).trans (h'.untouched rfl).symm
  | cons uc rest =>
      have hsome : ∀ {d : Option Bytes}, Extended m (uc :: rest) d → ∃ bytes, d = some bytes := by
        intro d hd
        cases d with
        | some bytes => exact ⟨bytes, rfl⟩
        | none =>
            have hlen := congrArg List.length hd.content.1
            simp at hlen
      obtain ⟨bytes, rfl⟩ := hsome h
      obtain ⟨bytes', rfl⟩ := hsome h'
      exact congrArg some (h.content.bytes.trans h'.content.bytes.symm)

/-- At the end nothing is on its way. -/
theorem InOrder.finished (hord : ordinalsOf batches = List.range batches.length)
    (h : InOrder p m batches x) (hexited : x.state.committer.phase = .exited) :
    x.state.committer.next = batches.length ∧ x.state.committer.ready = [] := by
  obtain ⟨hclosed, hqueue⟩ := h.steady.closed (h.steady.exited hexited)
  have hpending := h.steady.closing hclosed
  have hready : x.state.committer.ready.Perm (batches.drop x.state.committer.next) := by
    simpa [Feed.uncut, hqueue, hpending] using h.delivery.waiting
  have hmissing := h.delivery.idle (Or.inr hexited)
  have hrest : batches.drop x.state.committer.next = [] := by
    by_contra hrest
    apply hmissing
    have hmem : x.state.committer.next ∈ ordinalsOf (batches.drop x.state.committer.next) := by
      rw [numbered_drop hord]
      have hpos := List.length_pos_iff.mpr hrest
      exact List.mem_range'_1.mpr ⟨Nat.le_refl _, by omega⟩
    exact (hready.map _).mem_iff.mpr hmem
  refine ⟨?_, by simpa [hrest] using hready⟩
  have hwithin := h.delivery.within
  have hlen := List.drop_eq_nil_iff.mp hrest
  omega

/-- At the end the manifest has all uploaded batches. -/
theorem InOrder.extended (hord : ordinalsOf batches = List.range batches.length)
    (h : InOrder p m batches x) (hexited : x.state.committer.phase = .exited) :
    Recorded p m batches (uploaded batches) x.state := by
  obtain ⟨logged, hrec⟩ := h.recorded
  have hsplit := hrec.split
  rw [(h.finished hord hexited).1, List.take_length] at hsplit
  simp only [hexited, CommitterPhase.unlogged, List.append_nil] at hsplit
  rw [← hsplit]
  exact hrec

/-- At the exit of the committer everything is settled. -/
theorem InOrder.concluded (hord : ordinalsOf batches = List.range batches.length)
    (h : InOrder p m batches x) (hexited : x.state.committer.phase = .exited) :
    Concluded p m batches x.state := by
  obtain ⟨hnext, hready⟩ := h.finished hord hexited
  have hrec := h.extended hord hexited
  refine ⟨hnext, hready, hrec.log, ⟨_, hrec.extended.entriesIn, ?_⟩, ?_⟩
  · rw [entriesOf, sequenced_items]
  · have hresults := h.delivery.results
    simp only [hexited, CommitterPhase.due, List.append_nil] at hresults
    rw [hnext, List.take_length] at hresults
    exact hresults

/-- What lies before the cursor has a smaller ordinal. -/
theorem ordinal_lt_of_mem_take (hord : ordinalsOf batches = List.range batches.length) {k : Nat}
    {uc : UploadCompletion} (h : uc ∈ batches.take k) : uc.eb.ordinal < k := by
  have hmem : uc.eb.ordinal ∈ ordinalsOf (batches.take k) := List.mem_map_of_mem h
  rw [ordinalsOf, List.map_take, ← ordinalsOf, hord, List.take_range, List.mem_range] at hmem
  omega

/-- What lies behind the cursor has no smaller ordinal. -/
theorem le_ordinal_of_mem_drop (hord : ordinalsOf batches = List.range batches.length) {k : Nat}
    {uc : UploadCompletion} (h : uc ∈ batches.drop k) : k ≤ uc.eb.ordinal := by
  have hmem : uc.eb.ordinal ∈ ordinalsOf (batches.drop k) := List.mem_map_of_mem h
  rw [numbered_drop hord] at hmem
  exact (List.mem_range'_1.mp hmem).1

/-- A group is cut off only when every smaller ordinal has arrived. -/
theorem Delivery.group_lt_pending (hord : ordinalsOf batches = List.range batches.length)
    (h : Delivery batches x) {group : List UploadCompletion} {failed : List PendingResolution}
    {call : CasCall} (hphase : x.state.committer.phase = .cas group failed call)
    {uc late : UploadCompletion} (huc : uc ∈ group) (hlate : late ∈ x.pending) :
    uc.eb.ordinal < late.eb.ordinal := by
  have hdue : (⟨uc, none, groupOutcome none⟩ : PendingResolution) ∈
      x.state.hist.handed ++ x.state.committer.phase.due := by
    rw [hphase]
    exact List.mem_append_right _ (List.mem_append_left _ (List.mem_map_of_mem huc))
  obtain ⟨uc', hbefore, heq⟩ := List.mem_map.mp (h.results.mem_iff.mp hdue)
  obtain rfl : uc' = uc := by rw [← uc'.resolution_uc, heq]
  have hbehind : late ∈ batches.drop x.state.committer.next :=
    h.waiting.mem_iff.mp (List.mem_append_right _ (List.mem_append_right _ hlate))
  exact Nat.lt_of_lt_of_le (ordinal_lt_of_mem_take hord hbefore)
    (le_ordinal_of_mem_drop hord hbehind)

/-- **The committer's result does not depend on the order.**  Completions of the
ordinals `0 .. n-1`, some of them failed, come in any order and are received and
gathered in any way; the store does not fail, and the manifest can take the entries
of the uploaded batches.  Then every write to the manifest carries between one and
`ManifestAppendBatchSize` items, all of whose predecessors have arrived; the
committer can be brought to its exit; on exit the manifest has gained the uploaded
batches in order, each is resolved with nil and each failed batch with its own error
and outcome, and nothing is left in `ready`; and any two such runs, also with
different batch sizes, end with the same manifest bytes and the same results. -/
theorem committer_confluent (hsize : 1 ≤ p.config.ManifestAppendBatchSize)
    (hord : ordinalsOf batches = List.range batches.length)
    (hw : Writable m (uploaded batches)) (hx : Fed p m batches x) :
    (∀ group failed call, x.state.committer.phase = .cas group failed call →
      1 ≤ group.length ∧ (group.length : Int) ≤ p.config.ManifestAppendBatchSize ∧
      ∀ uc ∈ group, ∀ late ∈ x.pending, uc.eb.ordinal < late.eb.ordinal) ∧
    (∃ y, FeedRun p x y ∧ y.state.committer.phase = .exited) ∧
    (x.state.committer.phase = .exited → Concluded p m batches x.state) ∧
    (∀ p' y, Fed p' m batches y → x.state.committer.phase = .exited →
      y.state.committer.phase = .exited →
      ObjectStore.bytesAt x.state.store p.config.ManifestPath =
        ObjectStore.bytesAt y.state.store p'.config.ManifestPath ∧
      x.state.hist.handed.Perm y.state.hist.handed) := by
  have h := hx.inOrder hord hw
  refine ⟨?_, h.exits hord hw, h.concluded hord, ?_⟩
  · intro group failed call hphase
    have hsmooth := h.steady.phase
    rw [hphase] at hsmooth
    obtain ⟨hgroup, hlen, -⟩ := hsmooth
    refine ⟨List.length_pos_iff.mpr hgroup, ?_, fun uc huc late hlate =>
      h.delivery.group_lt_pending hord hphase huc hlate⟩
    have hbatch : (p.batchSize : Int) = p.config.ManifestAppendBatchSize := by
      unfold Producer.batchSize atLeastOne
      rw [if_neg (by omega)]
      omega
    omega
  · intro p' y hy hx' hy'
    have h' := hy.inOrder hord hw
    refine ⟨(h.extended hord hx').extended.unique (h'.extended hord hy').extended, ?_⟩
    exact (h.concluded hord hx').results.trans (h'.concluded hord hy').results.symm

end Confluence

/-! ## The committer of a producer -/

/-- The completions that a step sends, and how it looks from the committer. -/
def FeedsCommitter (p : Producer) (s : State) (l : Label) (t : State) : Prop :=
  ∃ ucs, (s.uploadCompletionCh.closed = true → ucs = [] ∧ t.uploadCompletionCh.closed = true) ∧
    ∀ rest, (t.uploadCompletionCh.closed = true → rest = []) →
      FeedStep p ⟨s, ucs ++ rest⟩ l ⟨t, rest⟩

/-- What the committer works with and works on. -/
def State.aroundCommitter (s : State) (p : Producer) : Chan UploadCompletion × Committer ×
    List PendingResolution × Bool × Option GetResult × ManifestLog (Option Nat) :=
  (s.uploadCompletionCh, s.committer, s.hist.handed, s.resolverClosed,
    s.store.objects p.config.ManifestPath, s.hist.manifest)

/-- A step that leaves all this alone. -/
theorem FeedsCommitter.of_same (hsame : t.aroundCommitter p = s.aroundCommitter p) :
    FeedsCommitter p s l t := by
  simp only [State.aroundCommitter, Prod.mk.injEq] at hsame
  obtain ⟨hchannel, hcommitter, hhanded, hresolver, hobject, hlog⟩ := hsame
  refine ⟨[], fun hclosed => ⟨rfl, hchannel ▸ hclosed⟩, fun rest hrest => .env ?_⟩
  refine ⟨⟨[], rfl, ?_⟩, hrest, ?_, Or.inl ⟨hcommitter, hhanded⟩, ?_, hobject, hlog⟩
  · rw [hchannel, List.append_nil]
  · rw [hchannel]
    exact id
  · rw [hresolver]
    exact Or.inl

/-- A completion is sent. -/
theorem FeedsCommitter.of_send {uc : UploadCompletion} (hopen : s.uploadCompletionCh.closed = false)
    (hchannel : t.uploadCompletionCh = ⟨s.uploadCompletionCh.queue ++ [uc], false⟩)
    (hcommitter : t.committer = s.committer) (hhist : t.hist = s.hist)
    (hresolver : t.resolverClosed = s.resolverClosed) (hstore : t.store = s.store) :
    FeedsCommitter p s l t := by
  refine ⟨[uc], fun hclosed => absurd (hopen.symm.trans hclosed) (by decide), fun rest hrest =>
    .env ⟨⟨[uc], rfl, by rw [hchannel]⟩, hrest, ?_, Or.inl ⟨hcommitter, by rw [hhist]⟩, ?_, ?_, ?_⟩⟩
  · exact fun hclosed => absurd (hopen.symm.trans hclosed) (by decide)
  · rw [hresolver]
    exact Or.inl
  · rw [hstore]
  · rw [hhist]

theorem EncoderStep.feeds (hs : EncoderStep p s l t) : FeedsCommitter p s l t := by
  cases hs with
  | complete henc hopen hroom => exact .of_send hopen (by rw [← hopen]) rfl rfl rfl rfl
  | _ => exact .of_same rfl

/-- Uploaders send completions and write no manifest. -/
theorem UploaderStep.feeds (hn : Named p s) (hpath : ∀ k, p.location k ≠ p.config.ManifestPath)
    (hs : UploaderStep p s l t) : FeedsCommitter p s l t := by
  cases hs with
  | putApplies version hup hnames =>
      have hmade := hn.made _ (Or.inr ⟨_, List.mem_of_getElem? hup, rfl⟩)
      apply FeedsCommitter.of_same
      rw [State.aroundCommitter, hmade.location,
        VersionedStore.Store.write_of_ne _ _ (hpath _).symm]
      rfl
  | complete hup hopen hroom => exact .of_send hopen (by rw [← hopen]) rfl rfl rfl rfl
  | closeCompletions hpool hall =>
      refine ⟨[], fun _ => ⟨rfl, rfl⟩, fun rest hrest => .env ?_⟩
      exact ⟨⟨[], rfl, (List.append_nil _).symm⟩, hrest, fun _ => rfl, Or.inl ⟨rfl, rfl⟩, Or.inl,
        rfl, rfl⟩
  | _ => exact .of_same rfl

theorem CommitterStep.feeds (hfault : ¬ l.StoreFault) (hs : CommitterStep p s l t) :
    FeedsCommitter p s l t := by
  have hchannel : t.uploadCompletionCh.closed = s.uploadCompletionCh.closed := by
    cases hs <;> rfl
  exact ⟨[], fun hclosed => ⟨rfl, hchannel.trans hclosed⟩, fun rest _ => .own hs hfault⟩

theorem ResolverStep.feeds (hs : ResolverStep p s l t) : FeedsCommitter p s l t := by
  cases hs with
  | take hphase hsend hopen =>
      refine ⟨[], fun hclosed => ⟨rfl, hclosed⟩, fun rest hrest => .env ?_⟩
      exact ⟨⟨[], rfl, (List.append_nil _).symm⟩, hrest, id, Or.inr ⟨_, _, _, hsend, rfl, rfl⟩,
        Or.inl, rfl, rfl⟩
  | closeResolver hdone hopen =>
      refine ⟨[], fun hclosed => ⟨rfl, hclosed⟩, fun rest hrest => .env ?_⟩
      exact ⟨⟨[], rfl, (List.append_nil _).symm⟩, hrest, id, Or.inl ⟨rfl, rfl⟩,
        fun _ => Or.inr hdone, rfl, rfl⟩
  | _ => exact .of_same rfl

/-- A step of a producer is a step of its committer or of what is around it. -/
theorem ProducerStep.feeds (hn : Named p s) (hpath : ∀ k, p.location k ≠ p.config.ManifestPath)
    (hfault : ¬ l.StoreFault) (hothers : l ≠ .others) (hs : ProducerStep p s l t) :
    FeedsCommitter p s l t := by
  cases hs with
  | append _ hs => cases hs <;> exact .of_same rfl
  | flush _ hs => cases hs <;> exact .of_same rfl
  | close _ hs => cases hs <;> exact .of_same rfl
  | rotator _ hs => cases hs <;> exact .of_same rfl
  | encoder _ hs => exact hs.feeds
  | uploader _ hs => exact hs.feeds hn hpath
  | committer _ hs => exact hs.feeds hfault
  | resolver _ hs => exact hs.feeds
  | others hs => cases hs <;> exact absurd rfl hothers

/-- **A run of a producer is a run of its committer**, if the manifest store does not
fail and nobody else writes the manifest: the completions that come are those that
the encoders and the uploaders send. -/
theorem RunWhere.feed {store : ObjectStore} {items : List EnqueueItem}
    (hpath : ∀ k, p.location k ≠ p.config.ManifestPath)
    (hrun : RunWhere p (fun _ l => ¬ l.StoreFault ∧ l ≠ .others) (newProducer p store items) t) :
    ∃ arrivals, ∀ rest, (t.uploadCompletionCh.closed = true → rest = []) →
      FeedRun p ⟨newProducer p store items, arrivals ++ rest⟩ ⟨t, rest⟩ := by
  induction hrun with
  | refl => exact ⟨[], fun rest _ => .refl⟩
  | tail before admitted last ih =>
      obtain ⟨arrivals, hfeed⟩ := ih
      obtain ⟨ucs, hclosed, hstep⟩ :=
        last.feeds (reachable_committing before).named hpath admitted.1 admitted.2
      refine ⟨arrivals ++ ucs, fun rest hrest => ?_⟩
      have hbefore := hfeed (ucs ++ rest) fun hc => by
        obtain ⟨hnone, hafter⟩ := hclosed hc
        rw [hnone, hrest hafter]
        rfl
      rw [List.append_assoc]
      exact hbefore.tail trivial (hstep rest hrest)

/-- No manifest yet. -/
def noManifest : ManifestStart where
  log := []
  data := none
  entries := []
  nextSequence := 0
  epoch := 0
  content := ⟨rfl, rfl, rfl⟩

/-- The completion of a second batch, whose `Put` has failed. -/
def failedCompletion : UploadCompletion where
  eb :=
    { toBatch := (OpenBatch.empty.add sampleMessage).batch 1 .manual none
      payload := []
      location := sampleProducer.location 1
      size := 0 }
  putError := some .shutdown
  encodeFailed := false

/-- One uploaded batch with a short location, and one that failed. -/
theorem sample_writable : Writable noManifest (uploaded [sampleCompletion, failedCompletion]) where
  fits := by
    intro e he
    obtain rfl : e = sampleCompletion.item.entry := List.mem_singleton.mp he
    exact entryFits_of_body (by decide) (by decide)
  room := by decide

/-- The second batch's completion comes first. -/
theorem committer_confluent_sample :
    ∃ x, Fed sampleProducer noManifest [sampleCompletion, failedCompletion] x ∧
      x.state.hist.manifest.log = [(some 0, sampleCompletion.item)] ∧
      x.state.hist.handed.Perm
        [⟨sampleCompletion, none, .committed⟩,
         ⟨failedCompletion, some .shutdown, .uploadFailed⟩] := by
  have hfed : Fed sampleProducer noManifest [sampleCompletion, failedCompletion]
      ⟨sampleStart, [failedCompletion, sampleCompletion]⟩ :=
    ⟨emptyStore, [], _, rfl, rfl, List.Perm.swap _ _ _, .refl⟩
  have hsize : 1 ≤ sampleProducer.config.ManifestAppendBatchSize := by decide
  obtain ⟨-, ⟨x, hrun, hexited⟩, -, -⟩ := committer_confluent hsize rfl sample_writable hfed
  obtain ⟨store, items, arrivals, hstart, hlog, harrivals, hbefore⟩ := hfed
  have hx : Fed sampleProducer noManifest [sampleCompletion, failedCompletion] x :=
    ⟨store, items, arrivals, hstart, hlog, harrivals, hbefore.trans hrun⟩
  obtain ⟨-, -, hconcluded, -⟩ := committer_confluent hsize rfl sample_writable hx
  exact ⟨x, hx, (hconcluded hexited).log, (hconcluded hexited).results⟩

/-! ## An item that the manifest cannot take -/

/-- The sample producer once the only completion has been received and the channel
is closed, with the committer anywhere behind that. -/
def refusedWorking (c : Committer) : State :=
  { sampleStart with uploadCompletionCh := ⟨[], true⟩, committer := c }

/-- The producer has been halted. -/
def refusedHalting (c : Committer) : State := { refusedWorking c with halted := true }

/-- The observer has been told. -/
def refusedHalted (handed : List PendingResolution) (c : Committer) : State :=
  { refusedHalting c with
    hist := { sampleStart.hist with handed := handed, events := [.OnHalted true] } }

/-- The committer in the `casWithRetry` of a group of one. -/
def refusedCas (uc : UploadCompletion) (call : CasCall) : Committer :=
  ⟨1, [], false, true, .cas [uc] [] call⟩

section Refused

variable {uc : UploadCompletion}

/-- The completion is received and cut off. -/
theorem refused_received (hordinal : uc.eb.ordinal = 0) (hput : uc.putError = none) :
    FeedRun sampleProducer ⟨sampleStart, [uc]⟩
      ⟨refusedWorking (refusedCas uc ⟨0, 0, .enqueueing (.reading 0)⟩), []⟩ := by
  have hcollect : collect sampleProducer.batchSize 0 [uc] = ⟨[uc], [], 1, []⟩ := by
    show collect 1 0 [uc] = _
    simp [collect, hordinal, hput]
  have harrives : CommitterEnv sampleProducer ⟨sampleStart, [uc]⟩
      ⟨{ sampleStart with uploadCompletionCh := ⟨[uc], true⟩ }, []⟩ :=
    ⟨⟨[uc], rfl, rfl⟩, fun _ => rfl, fun _ => rfl, Or.inl ⟨rfl, rfl⟩, Or.inl, rfl, rfl⟩
  have hcut := CommitterStep.collect (p := sampleProducer)
    (s := refusedWorking ⟨0, [uc], false, true, .draining⟩) rfl
  simp only [refusedWorking, hcollect] at hcut
  have hrun := (Reach.refl : FeedRun sampleProducer ⟨sampleStart, [uc]⟩ _)
    |>.tail trivial (.env (l := .call) harrives)
    |>.tail trivial (.own (.receive rfl rfl rfl) id)
    |>.tail trivial (.own (.gatherDone rfl rfl) id)
  exact hrun.tail trivial (.own hcut id)

/-- Both attempts end with the error that `append` returns. -/
theorem refused_retries {err : BufferError}
    (hplan : planAppend [uc.item] (.error .notFound) = .error err) :
    FeedRun sampleProducer ⟨refusedWorking (refusedCas uc ⟨0, 0, .enqueueing (.reading 0)⟩), []⟩
      ⟨refusedWorking (refusedCas uc ⟨1, 0, .returned (some err)⟩), []⟩ := by
  have hget : afterGet [uc.item] 0 (storeGet emptyStore sampleProducer.config.ManifestPath) =
      .returned 0 (some err) := by
    show afterGet [uc.item] 0 (.error .notFound) = _
    rw [afterGet, hplan]
  have hattempt : ∀ call : CasCall, call.phase = .enqueueing (.reading 0) →
      FeedStep sampleProducer ⟨refusedWorking (refusedCas uc call), []⟩ (.moves .committer)
        ⟨refusedWorking (refusedCas uc
          (sampleProducer.settleCas call (.returned 0 (some err)))), []⟩ := by
    intro call hcall
    rw [← hget]
    exact .own (.cas rfl (.get hcall)) id
  have hfirst := hattempt ⟨0, 0, .enqueueing (.reading 0)⟩ rfl
  have hsecond := hattempt ⟨1, 0, .enqueueing (.reading 0)⟩ rfl
  have hretry : FeedStep sampleProducer ⟨refusedWorking (refusedCas uc ⟨0, 0, .backoff err⟩), []⟩
      .retriesCas ⟨refusedWorking (refusedCas uc ⟨1, 0, .enqueueing (.reading 0)⟩), []⟩ :=
    .own (.cas rfl (.retry rfl)) id
  exact ((Reach.refl.tail trivial hfirst).tail trivial hretry).tail trivial hsecond

/-- The committer halts the producer and gives the batch up. -/
theorem refused_halts {err : BufferError} (herr : err ≠ .shutdown) :
    FeedRun sampleProducer ⟨refusedWorking (refusedCas uc ⟨1, 0, .returned (some err)⟩), []⟩
      ⟨refusedHalted [haltedResolution .manifestFailed uc] ⟨1, [], true, true, .exited⟩, []⟩ := by
  have hstep := CommitterStep.halt (p := sampleProducer)
    (s := refusedWorking (refusedCas uc ⟨1, 0, .returned (some err)⟩)) rfl rfl herr
    (List.Perm.refl [])
  have hhalt : FeedStep sampleProducer
      ⟨refusedWorking (refusedCas uc ⟨1, 0, .returned (some err)⟩), []⟩ (.moves .committer)
      ⟨refusedHalting ⟨1, [], true, true,
        .notifying [haltedResolution .manifestFailed uc]⟩, []⟩ := .own hstep id
  have hnotify : FeedStep sampleProducer
      ⟨refusedHalting ⟨1, [], true, true,
        .notifying [haltedResolution .manifestFailed uc]⟩, []⟩ (.moves .committer)
      ⟨refusedHalted [] ⟨1, [], true, true,
        .resolving [haltedResolution .manifestFailed uc] .drainDone⟩, []⟩ :=
    .own (.notify rfl) id
  have htake : CommitterEnv sampleProducer
      ⟨refusedHalted [] ⟨1, [], true, true,
        .resolving [haltedResolution .manifestFailed uc] .drainDone⟩, []⟩
      ⟨refusedHalted [haltedResolution .manifestFailed uc]
        ⟨1, [], true, true, .resolving [] .drainDone⟩, []⟩ :=
    ⟨⟨[], rfl, rfl⟩, fun _ => rfl, id, Or.inr ⟨_, _, _, rfl, rfl, rfl⟩, Or.inl, rfl, rfl⟩
  have hdone := CommitterStep.resolved (p := sampleProducer)
    (s := refusedHalted [haltedResolution .manifestFailed uc]
      ⟨1, [], true, true, .resolving [] .drainDone⟩) rfl
  exact (((Reach.refl.tail trivial hhalt).tail trivial hnotify).tail trivial
    (.env (l := .call) htake)).tail trivial (.own hdone id)

end Refused

/-- A batch with a location of 65536 bytes. -/
def wideCompletion : UploadCompletion where
  eb := { sampleCompletion.eb with location := List.replicate (2 ^ 16) 97 }
  putError := none
  encodeFailed := false

/-- An entry whose location is too long is refused. -/
theorem encodeQueueEntry_longLocation {entry : QueueEntry} (h : maxUint16 < entry.Location.length) :
    ∃ text, encodeQueueEntry entry = .error (invalidInputErr text) := by
  unfold encodeQueueEntry
  rw [if_pos h]
  exact ⟨_, rfl⟩

/-- A group with such an entry cannot be planned. -/
theorem planAppend_longLocation {item : EnqueueItem} (h : maxUint16 < item.Location.length) :
    ∃ text, planAppend [item] (.error .notFound) = .error (invalidInputErr text) := by
  have hentry : maxUint16 < ({ item.entry with Sequence := 0 } : QueueEntry).Location.length := h
  obtain ⟨text, hencode⟩ := encodeQueueEntry_longLocation hentry
  refine ⟨text, ?_⟩
  have happend : emptyManifest.append item.entry = .error (invalidInputErr text) := by
    show (encodeQueueEntry { item.entry with Sequence := 0 }).bind _ = _
    rw [hencode]
    rfl
  simp only [planAppend, readManifest, bind, Except.bind, List.map_cons, List.map_nil,
    Manifest.appendAll, List.foldlM_cons, happend]

theorem wideCompletion_length : maxUint16 < wideCompletion.item.Location.length := by
  show maxUint16 < (List.replicate (2 ^ 16) (97 : UInt8)).length
  rw [List.length_replicate]
  decide

/-- **A halt without a fault.**  The batch is uploaded and its completion arrives;
the store does not fail.  The manifest refuses the item, and the batch is resolved
with `ErrProducerHalted`. -/
theorem committer_halts_without_fault :
    ∃ x, Fed sampleProducer noManifest [wideCompletion] x ∧ x.state.committer.phase = .exited ∧
      x.state.halted = true ∧ wideCompletion.putError = none ∧ x.state.hist.manifest.log = [] ∧
      x.state.hist.handed = [⟨wideCompletion, some .producerHalted, .manifestFailed⟩] := by
  obtain ⟨text, hplan⟩ := planAppend_longLocation wideCompletion_length
  have hreceives : FeedRun sampleProducer ⟨sampleStart, [wideCompletion]⟩ _ :=
    refused_received rfl rfl
  have hrun := (hreceives.trans (refused_retries hplan)).trans (refused_halts nofun)
  exact ⟨_, ⟨emptyStore, [], [wideCompletion], rfl, rfl, List.Perm.refl _, hrun⟩, rfl, rfl,
    rfl, rfl, rfl⟩

end OpenDataBuffer
