import OpenDataBuffer.AppendOrder
import OpenDataBuffer.AtRest
import OpenDataBuffer.Confluence

/-!
# Faults that retries absorb

A store call may fail at any time.  As long as no failure meets the last attempt of an
upload or of a manifest write (`Spared`), no encode fails and `Close` is not forced,
nobody outside the pipeline notices: every watcher is resolved with nil, every flush is
acknowledged with nil, and the producer does not halt.  Once it is at rest, everything
it accepted is in the manifest and in the store (`transient_faults_absorbed`).

The manifest must be able to take the entries (`Manageable`): a location that is too
long or an entry too many is an error that no retry absorbs.
-/

namespace OpenDataBuffer

open LabelledRuns ListUpdate

variable {p : Producer} {s t : State} {l : Label}

/-! ## Which faults -/

/-- If a store call fails with this step, it is not the last attempt: of the uploader
whose `Put` it is, or of the `casWithRetry` call. -/
def Spared (p : Producer) (s : State) : Label → Prop
  | .putFails j _ => ∀ (attempt : Nat) (eb : EncodedBatch) (applied : Bool),
      s.uploaders[j]? = some (.putting eb attempt applied) → attempt + 1 < p.uploadMaxAttempts
  | .getFails => ∀ group failed call, s.committer.phase = .cas group failed call →
      call.attempt + 1 < p.manifestMaxAttempts
  | .casFails _ => ∀ group failed call, s.committer.phase = .cas group failed call →
      call.attempt + 1 < p.manifestMaxAttempts
  | _ => True

/-- The faults of the store are absorbed, and no encoder has a failed batch. -/
def Transient (p : Producer) (s : State) (l : Label) : Prop :=
  Spared p s l ∧ ∀ uc, EncoderPhase.sendingCompletion uc ∉ s.encoders

/-- The manifest can take the entries of all batches. -/
structure Manageable (p : Producer) (s : State) : Prop where
  batches : ∀ b ∈ emittedOf s.hist.cuts, p.Representable b
  locations : ∀ b ∈ emittedOf s.hist.cuts, (p.location b.ordinal).length < 2 ^ 16
  room : s.hist.manifest.log.length + (emittedOf s.hist.cuts).length < 2 ^ 32

/-- What the manifest can take at the end it can take before. -/
theorem Manageable.before (h : Manageable p t) (hc : Custody s) (hs : ProducerStep p s l t) :
    Manageable p s where
  batches b hb := h.batches b (emitted_mono hc hs hb)
  locations b hb := h.locations b (emitted_mono hc hs hb)
  room := by
    have hlog : s.hist.manifest.log.length ≤ t.hist.manifest.log.length := by
      rcases log_step hs with heq | ⟨_, heq⟩ | ⟨_, _, _, _, _, _, _, _, _, heq⟩ <;> simp [heq]
    have hcuts : (emittedOf s.hist.cuts).length ≤ (emittedOf t.hist.cuts).length :=
      ((hc.grows hs).cuts.sublist.filterMap _).length_le
    have hroom := h.room
    omega

/-! ## A manifest write -/

/-- The call has not given up. -/
def CasCall.Clean (call : CasCall) : Prop := ∀ err, call.phase ≠ .returned (some err)

/-- An error that is not the last attempt's does not end the call. -/
theorem clean_settle {n : Nat} {call : CasCall} {phase : EnqueuePhase}
    (h : ∀ c err, phase = .returned c (some err) → call.attempt + 1 < n) :
    (call.settle n phase).Clean := by
  intro err
  cases phase with
  | reading c => simp [CasCall.settle]
  | writing c data version applied => simp [CasCall.settle]
  | returned c result =>
      cases result with
      | none => simp [CasCall.settle]
      | some err => simp [CasCall.settle, h c err rfl]

/-- The first step of an attempt does not end the call with an error. -/
theorem clean_enqueueBatch (n : Nat) (call : CasCall) (items : List EnqueueItem) :
    (call.settle n (enqueueBatch items)).Clean := by
  refine clean_settle fun c err heq => ?_
  unfold enqueueBatch at heq
  split at heq <;> cases heq

/-- A call that is spared its last fault, and can plan its write, does not give up. -/
theorem CasStep.clean {items : List EnqueueItem} {call call' : CasCall}
    (hshutdown : s.shutdown = false) (hplan : ∃ data version,
      planAppend items (storeGet s.store p.config.ManifestPath) = .ok (data, version))
    (hfault : l = .getFails ∨ (∃ applied, l = .casFails applied) →
      call.attempt + 1 < p.manifestMaxAttempts)
    (hs : CasStep p s items call l call') : call'.Clean := by
  cases hs with
  | get hcall =>
      obtain ⟨data, version, hplan⟩ := hplan
      refine clean_settle fun c err heq => ?_
      rw [afterGet, hplan] at heq
      cases heq
  | getFails err hcall herr => exact clean_settle fun _ _ _ => hfault (Or.inl rfl)
  | ok hcall => exact clean_settle fun c err heq => by cases heq
  | conflict hcall hmatch => exact clean_settle fun c err heq => by cases heq
  | fails err hcall herr => exact clean_settle fun _ _ _ => hfault (Or.inr ⟨_, rfl⟩)
  | retry hcall => exact clean_enqueueBatch _ _ _
  | abandon hcall hforced => exact absurd (hshutdown.symm.trans hforced) (by simp)

/-- The manifest object can be read, and has at most the entries of the log. -/
theorem Holds.manifestIs {ω : Type} {store : ObjectStore} {path : Bytes} {L : ManifestLog ω}
    (h : Holds store path L) : ∃ entries nextSequence epoch,
      ManifestIs (ObjectStore.bytesAt store path) entries nextSequence epoch ∧
        entries.length ≤ L.log.length := by
  unfold ObjectStore.bytesAt
  cases hobj : store.objects path with
  | none => exact ⟨[], 0, 0, ⟨rfl, rfl, rfl⟩, Nat.zero_le _⟩
  | some obj =>
      obtain ⟨entries, nextSequence, epoch, hwf, _, hitems⟩ := h.present obj hobj
      refine ⟨entries, nextSequence, epoch, hwf, ?_⟩
      have hlength := congrArg List.length hitems
      simp only [List.length_map, List.length_drop] at hlength
      omega

/-- A group is no longer than what was emitted. -/
theorem group_length_le (hc : Custody s) :
    s.committer.phase.group.length ≤ (emittedOf s.hist.cuts).length := by
  have hflight : s.flight + handedBatches s.hist.handed = ↑(emittedOf s.hist.cuts) :=
    hc.conserved.flight
  have hcard := congrArg Multiset.card hflight
  have hgroup : s.committer.phase.group.length ≤ s.committer.phase.inHand.card := by
    cases s.committer.phase <;>
      simp [CommitterPhase.group, CommitterPhase.inHand, batchesOf]
  simp only [State.flight, Multiset.card_add, Multiset.coe_card] at hcard
  omega

/-- The plan of a group succeeds. -/
theorem Committing.plans {group : List UploadCompletion} {failed : List PendingResolution}
    {call : CasCall} (h : Committing p s) (hheld : ManifestHeld p s) (hfit : Manageable p s)
    (hphase : s.committer.phase = .cas group failed call) : ∃ data version,
      planAppend (group.map UploadCompletion.item) (storeGet s.store p.config.ManifestPath) =
        .ok (data, version) := by
  obtain ⟨entries, nextSequence, epoch, hmanifest, hlength⟩ := hheld.holds.manifestIs
  have hgroup : s.committer.phase.group = group := by rw [hphase]; rfl
  have hentries : ∀ e ∈ entriesOf group, EntryFits e := by
    intro e he
    obtain ⟨item, hitem, rfl⟩ := List.mem_map.mp he
    obtain ⟨uc, huc, rfl⟩ := List.mem_map.mp hitem
    have hmem : uc ∈ s.committer.phase.group := hgroup ▸ huc
    have hemitted := h.custody.conserved.flight_emitted (State.Completed.of_group hmem).flight
    rw [h.named.group_item h.log hmem]
    exact entryFits_of_body (Nat.le_pred_of_lt (hfit.locations _ hemitted))
      (hfit.batches _ hemitted).item
  have hcount : entries.length + group.length < 2 ^ 32 := by
    have hle := group_length_le h.custody
    have hroom := hfit.room
    rw [hgroup] at hle
    omega
  obtain ⟨data, version, hplan, _⟩ := hmanifest.plan hentries hcount
  exact ⟨data, version, hplan⟩

/-! ## Uploads -/

/-- An upload is through with the batch, and the committer has not cut it off. -/
def State.Delivered (s : State) (uc : UploadCompletion) : Prop :=
  (∃ u ∈ s.uploaders, u.completion? = some uc) ∨
    uc ∈ s.uploadCompletionCh.queue ∨ uc ∈ s.committer.ready

/-- Encoders without failed batches send no completions. -/
theorem EncoderStep.delivered {uc : UploadCompletion} (hs : EncoderStep p s l t)
    (henc : ∀ uc, EncoderPhase.sendingCompletion uc ∉ s.encoders) (h : t.Delivered uc) :
    s.Delivered uc := by
  cases hs with
  | complete hsend => exact absurd (List.mem_of_getElem? hsend) (henc _)
  | _ => exact h

/-- An upload that is spared its last fault ends without an error. -/
theorem UploaderStep.delivered {uc : UploadCompletion} (hs : UploaderStep p s l t)
    (hspared : Spared p s l) (hshutdown : s.shutdown = false) (h : t.Delivered uc) :
    s.Delivered uc ∨ uc.putError = none := by
  have hset : ∀ {j : Nat} {u : UploaderPhase},
      (∃ u' ∈ s.uploaders.set j u, u'.completion? = some uc) ∨
        uc ∈ s.uploadCompletionCh.queue ∨ uc ∈ s.committer.ready →
      s.Delivered uc ∨ u.completion? = some uc := by
    rintro j u (hup | hrest)
    · exact (exists_mem_set hup).imp Or.inl id
    · exact Or.inl (Or.inr hrest)
  cases hs with
  | take henc hup hopen => exact (hset h).imp id fun hnew => by cases hnew
  | exit hup hclosed => exact (hset h).imp id fun hnew => by cases hnew
  | putApplies version hup hnames => exact (hset h).imp id fun hnew => by cases hnew
  | retry hup => exact (hset h).imp id fun hnew => by cases hnew
  | putOk hup =>
      refine (hset h).imp id fun hnew => ?_
      cases hnew
      rfl
  | putFails err hup =>
      refine (hset h).imp id fun hnew => ?_
      rw [Producer.afterPutError, if_pos (hspared _ _ _ hup)] at hnew
      cases hnew
  | abandon hup hforced => exact absurd (hshutdown.symm.trans hforced) (by simp)
  | @complete j uc' hup hopen hroom =>
      refine Or.inl ?_
      rcases h with hup' | hqueue | hready
      · rcases exists_mem_set hup' with hold | hnew
        · exact Or.inl hold
        · cases hnew
      · rcases List.mem_append.mp hqueue with hold | hnew
        · exact Or.inr (Or.inl hold)
        · obtain rfl := List.mem_singleton.mp hnew
          exact Or.inl ⟨_, List.mem_of_getElem? hup, rfl⟩
      · exact Or.inr (Or.inr hready)
  | completeClosed hup hclosed => exact Or.inl h
  | closeCompletions hpool hall => exact Or.inl h
  | closePoolDone hpool => exact Or.inl h

/-- Under transient faults only uploads without an error are delivered. -/
theorem delivered_step {uc : UploadCompletion} (hd : Distinct s) (hs : ProducerStep p s l t)
    (hl : Transient p s l) (hshutdown : s.shutdown = false) (h : t.Delivered uc) :
    s.Delivered uc ∨ uc.putError = none := by
  cases hs with
  | append _ hs => cases hs <;> exact Or.inl h
  | flush _ hs => cases hs <;> exact Or.inl h
  | close _ hs => cases hs <;> exact Or.inl h
  | rotator _ hs => cases hs <;> exact Or.inl h
  | encoder _ hs => exact Or.inl (hs.delivered hl.2 h)
  | uploader _ hs => exact hs.delivered hl.1 hshutdown h
  | committer _ hs =>
      have hpool : t.uploaders = s.uploaders := by cases hs <;> rfl
      rcases h with hup | hqueue | hready
      · exact Or.inl (Or.inl (hpool ▸ hup))
      · exact Or.inl (Or.inr (Or.inl (hs.queue hqueue)))
      · exact Or.inl (Or.inr ((hs.ready hd hready).symm))
  | resolver _ hs => cases hs <;> exact Or.inl h
  | others hs => cases hs <;> exact Or.inl h

/-! ## The rotator -/

/-- The rotator is not dropping a batch. -/
def RotatorPhase.Unforced : RotatorPhase → Prop
  | .dropping _ _ => False
  | .resolvingDrop _ _ _ => False
  | .acking _ _ (some _) => False
  | _ => True

theorem unforced_afterEmit (reason : FlushReason) : (afterEmit reason).Unforced := by
  unfold afterEmit
  split <;> trivial

theorem unforced_emit (reason : FlushReason) (ack : Option Nat) (batch : OpenBatch) :
    (emit reason ack batch).Unforced := by
  unfold emit
  split
  · cases ack with
    | none => exact unforced_afterEmit reason
    | some f => trivial
  · trivial

theorem unforced_afterAdd (batch : OpenBatch) : (p.afterAdd batch).Unforced := by
  unfold Producer.afterAdd
  split
  · exact unforced_emit _ _ _
  · trivial

/-- Without a forced `Close` the rotator drops nothing. -/
theorem RotatorStep.unforced (hs : RotatorStep p s l t) (hshutdown : s.shutdown = false)
    (h : s.rotator.phase.Unforced) : t.rotator.phase.Unforced := by
  cases hs with
  | receive | handoff => exact unforced_afterAdd _
  | receiveClosed | drainDone | timer => exact unforced_emit _ _ _
  | ack => exact unforced_afterEmit _
  | refused hphase hforced => exact absurd (hshutdown.symm.trans hforced) (by simp)
  | drop hphase | dropResolve hphase | dropDone hphase =>
      rw [hphase] at h
      exact h.elim
  | sendClosed => exact h
  | _ => trivial

theorem unforced_step (hs : ProducerStep p s l t) (hshutdown : s.shutdown = false)
    (h : s.rotator.phase.Unforced) : t.rotator.phase.Unforced := by
  cases hs with
  | rotator _ hs => exact hs.unforced hshutdown h
  | encoder _ hs =>
      cases hs with
      | take henc hsend => exact unforced_afterEmit _
      | _ => exact h
  | append _ hs => cases hs <;> exact h
  | flush _ hs => cases hs <;> exact h
  | close _ hs => cases hs <;> exact h
  | uploader _ hs => cases hs <;> exact h
  | committer _ hs => cases hs <;> exact h
  | resolver _ hs => cases hs <;> exact h
  | others hs => cases hs <;> exact h

/-- Where an acknowledgement comes from. -/
theorem acked_step (hs : ProducerStep p s l t) {f : Nat} {v : Option BufferError}
    (h : (f, v) ∈ t.hist.acked) :
    (f, v) ∈ s.hist.acked ∨ (∃ reason, s.rotator.phase = .acking reason f v) ∨
      ∃ ri, s.resolver.item? = some ri ∧ ri.err = v := by
  cases hs with
  | rotator _ hs =>
      cases hs with
      | ack hphase hcall hroom =>
          rcases List.mem_append.mp h with hold | hnew
          · exact Or.inl hold
          · cases List.mem_singleton.mp hnew
            exact Or.inr (Or.inl ⟨_, hphase⟩)
      | _ => exact Or.inl h
  | resolver _ hs =>
      cases hs with
      | ack hphase hack hcall hroom =>
          rcases List.mem_append.mp h with hold | hnew
          · exact Or.inl hold
          · cases List.mem_singleton.mp hnew
            exact Or.inr (Or.inr ⟨_, by rw [hphase]; rfl, rfl⟩)
      | _ => exact Or.inl h
  | append _ hs => cases hs <;> exact Or.inl h
  | flush _ hs => cases hs <;> exact Or.inl h
  | close _ hs => cases hs <;> exact Or.inl h
  | encoder _ hs => cases hs <;> exact Or.inl h
  | uploader _ hs => cases hs <;> exact Or.inl h
  | committer _ hs => cases hs <;> exact Or.inl h
  | others hs => cases hs <;> exact Or.inl h

/-! ## Nothing fails -/

/-- No batch has failed, no manifest write was given up, nothing was dropped. -/
structure Clean (s : State) : Prop where
  uploads : ∀ uc, s.Delivered uc → uc.putError = none
  cas : ∀ group failed call, s.committer.phase = .cas group failed call → call.Clean
  halted : s.committer.halted = false
  decided : ∀ pr, s.Decided pr → pr.err = none
  unforced : s.rotator.phase.Unforced
  acked : ∀ f v, (f, v) ∈ s.hist.acked → v = none

/-- With no fault behind it, the committer decides on no error. -/
theorem Clean.verdict {pr : PendingResolution} (h : Clean s) (hv : Verdict s pr) :
    pr.err = none := by
  cases hv with
  | failed hphase hready hput =>
      rw [h.uploads _ (Or.inr (Or.inr hready))] at hput
      cases hput
  | @settled group failed call err uc hphase hcall herr huc =>
      cases err with
      | none => rfl
      | some err => exact absurd hcall (h.cas _ _ _ hphase err)
  | halted hphase hcall herr huc => exact absurd hcall (h.cas _ _ _ hphase _)
  | swept hphase hcall herr huc => exact absurd hcall (h.cas _ _ _ hphase _)
  | late hhalted huc => exact absurd (h.halted.symm.trans hhalted) (by simp)

/-- With no fault behind it, the committer does not halt. -/
theorem Clean.halted_step (h : Clean s) (hs : ProducerStep p s l t) :
    t.committer.halted = false := by
  cases hs with
  | committer _ hs =>
      cases hs with
      | halt hphase hcall herr hswept => exact absurd hcall (h.cas _ _ _ hphase _)
      | _ => exact h.halted
  | append _ hs => cases hs <;> exact h.halted
  | flush _ hs => cases hs <;> exact h.halted
  | close _ hs => cases hs <;> exact h.halted
  | rotator _ hs => cases hs <;> exact h.halted
  | encoder _ hs => cases hs <;> exact h.halted
  | uploader _ hs => cases hs <;> exact h.halted
  | resolver _ hs => cases hs <;> exact h.halted
  | others hs => cases hs <;> exact h.halted

/-- **A step with a fault that is absorbed keeps it so.** -/
theorem Clean.step (h : Clean s) (hc : Committing p s) (hheld : ManifestHeld p s)
    (hfit : Manageable p s) (hshutdown : s.shutdown = false) (hl : Transient p s l)
    (hs : ProducerStep p s l t) : Clean t where
  uploads uc huc :=
    (delivered_step hc.custody.conserved.distinct hs hl hshutdown huc).elim (h.uploads uc) id
  cas group failed call hphase := by
    cases cas_origin hs hphase with
    | same hold howned => exact h.cas _ _ _ hold
    | moved hold hcas howned =>
        refine hcas.clean hshutdown (hc.plans hheld hfit hold) fun hfault => ?_
        rcases hfault with rfl | ⟨applied, rfl⟩ <;> exact hl.1 _ _ _ hold
    | applied hold hcall hnow howned => exact fun err => by simp [hnow]
    | collected hold hne hgroup hfailed hcall howned =>
        rw [hcall]
        exact clean_enqueueBatch _ _ _
  halted := h.halted_step hs
  decided pr hpr :=
    (decided_step hc.custody.conserved.distinct hs hpr).elim (h.decided pr) h.verdict
  unforced := unforced_step hs hshutdown h.unforced
  acked f v hv := by
    rcases acked_step hs hv with hold | ⟨reason, hphase⟩ | ⟨ri, hitem, rfl⟩
    · exact h.acked f v hold
    · cases v with
      | none => rfl
      | some err =>
          have hunforced := h.unforced
          rw [hphase] at hunforced
          exact hunforced.elim
    · obtain ⟨pr, hlast, rfl⟩ := hc.custody.coherent.resolver ri hitem
      exact h.decided pr (Or.inr (List.mem_of_mem_getLast? hlast))

theorem clean_newProducer (store : ObjectStore) (items : List EnqueueItem) :
    Clean (newProducer p store items) where
  uploads uc huc := by
    rcases huc with ⟨u, hu, hcompletion⟩ | hqueue | hready
    · obtain rfl := List.eq_of_mem_replicate hu
      cases hcompletion
    · exact absurd hqueue List.not_mem_nil
    · exact absurd hready List.not_mem_nil
  cas group failed call hphase := by cases hphase
  halted := rfl
  decided pr hpr := hpr.elim (fun h => absurd h List.not_mem_nil) fun h => absurd h List.not_mem_nil
  unforced := trivial
  acked f v hv := absurd hv List.not_mem_nil

/-- **Nothing fails under transient faults,** as long as `Close` is not forced. -/
theorem reachable_clean {store : ObjectStore} {items : List EnqueueItem}
    (hpath : ∀ k, p.location k ≠ p.config.ManifestPath)
    (hstart : StartsFrom store p.config.ManifestPath items)
    (hrun : RunWhere p (Transient p) (newProducer p store items) s)
    (hshutdown : s.shutdown = false) (hfit : Manageable p s) : Clean s := by
  let P : State → Prop := fun x => Run p (newProducer p store items) x ∧
    (x.shutdown = false → Manageable p x → Clean x)
  have hinit : P (newProducer p store items) := ⟨.refl, fun _ _ => clean_newProducer store items⟩
  have hstep : ∀ x l y, P x → Transient p x l → ProducerStep p x l y → P y := by
    intro x l y hx hl hs
    refine ⟨hx.1.tail trivial hs, fun hy hfit => ?_⟩
    have hc := reachable_committing hx.1
    have hbefore := hfit.before hc.custody hs
    have hrunning : x.shutdown = false := by
      by_contra hforced
      have hforced := shutdown_mono hs (Bool.eq_true_of_not_eq_false hforced)
      exact absurd (hy.symm.trans hforced) (by simp)
    exact (hx.2 hrunning hbefore).step hc
      (reachable_manifestHeld hpath hstart hx.1 hbefore.batches) hbefore hrunning hl hs
  exact (hrun.invariant hinit hstep).2 hshutdown hfit

/-- A watcher that is resolved is resolved with nil. -/
theorem Clean.resolved (h : Clean s) (hb : Books s) (ha : AppendCalls s) (hf : ForcedDrops s)
    (hshutdown : s.shutdown = false) {w : Nat} {e : Option BufferError}
    (hw : s.watcherResult w = some e) : e = none := by
  rcases hb.conserved.of_resolved ((watcherResult_iff hb ha).mp hw) with
    ⟨pr, hpr, _, rfl⟩ | ⟨msgs, hdropped, _, _⟩
  · exact h.decided pr (Or.inr hpr)
  · exact absurd (hshutdown.symm.trans (hf.dropped msgs hdropped)) (by simp)

/-- **Transient faults are absorbed.**  Let every failing store call of a run be one
that its caller tries again, let no encode fail, let `Close` not be forced, and let the
manifest have room.  Then nobody notices: the producer is not halted, a watcher that is
resolved holds nil and so does every acknowledgement of a flush.  If the run has come to
rest, every accepted message is in a batch with an entry in the manifest, and reading
that entry gives what the calls of the batch appended. -/
theorem transient_faults_absorbed {store : ObjectStore} {items : List EnqueueItem}
    (hz : p.zstd.Lawful) (hpath : ∀ k, p.location k ≠ p.config.ManifestPath)
    (hstart : StartsFrom store p.config.ManifestPath items)
    (hrun : RunWhere p (Transient p) (newProducer p store items) s)
    (hshutdown : s.shutdown = false) (hfit : Manageable p s) :
    s.halted = false ∧ (∀ w e, s.watcherResult w = some e → e = none) ∧
    (∀ f v, (f, v) ∈ s.hist.acked → v = none) ∧
    (AtRest p s → s.panicked = none → ∀ m ∈ s.hist.accepted, s.watcherResult m.watcher = some none ∧
      ∃ b ∈ emittedOf s.hist.cuts, m ∈ b.msgs ∧
        (some b.ordinal, p.itemOf b) ∈ s.hist.manifest.log ∧
        readAppends p.zstd s.store (p.itemOf b) = some (b.msgs.map AppendMessage.request)) := by
  have hall : Run p (newProducer p store items) s := hrun.mono fun _ _ _ => trivial
  have hclean := reachable_clean hpath hstart hrun hshutdown hfit
  have hc := reachable_committing hall
  have hbooks := reachable_books hall
  have hcalls := reachable_appendCalls hall
  have hnil : ∀ w e, s.watcherResult w = some e → e = none := fun w e =>
    hclean.resolved hbooks hcalls (reachable_halting hall).drops hshutdown
  refine ⟨hc.order.mirror.trans hclean.halted, hnil, hclean.acked, ?_⟩
  intro hrest hrunning m hm
  have hsettled := (reachable_sustained hall).settled hrunning hrest
  obtain ⟨e, he⟩ := hsettled.answered m hm
  obtain rfl := hnil _ _ he
  obtain ⟨b, hb, ⟨m', hm', hwatcher⟩, hlog⟩ := hc.resolved_entry hbooks hcalls he
  obtain rfl : m' = m := hcalls.watcher_inj (hbooks.emitted_accepted hb hm') hm hwatcher
  exact ⟨he, b, hb, hm', hlog,
    hc.reads_entry (reachable_entriesStored hpath hall) hz hfit.batches hb hlog⟩

/-! ## A read of the manifest that fails once -/

/-- With one encoder that is not reporting a failure, a spared step is transient. -/
theorem sample_transient {l : Label} {s : State} {e : EncoderPhase} (henc : s.encoders = [e])
    (hspared : Spared sampleProducer s l) (hne : ∀ uc, e ≠ .sendingCompletion uc) :
    Transient sampleProducer s l := by
  refine ⟨hspared, fun uc huc => ?_⟩
  rw [henc] at huc
  exact hne uc (List.mem_singleton.mp huc).symm

/-- The first `Get` of the manifest fails, and the second attempt commits. -/
theorem sample_absorbs :
    RunWhere sampleProducer (Transient sampleProducer) sampleStart sampleFlushed := by
  have hidle : ∀ uc, EncoderPhase.receiving ≠ .sendingCompletion uc := by simp
  have hrun := (Reach.refl :
      RunWhere sampleProducer (Transient sampleProducer) sampleStart sampleStart)
    |>.tail (sample_transient rfl (by trivial) hidle) (.append rfl (.begin [[7]] []))
    |>.tail (sample_transient rfl (by trivial) hidle) (.append rfl (.check (i := 0) rfl rfl))
    |>.tail (sample_transient rfl (by trivial) hidle)
      (.append rfl (.reserve (i := 0) rfl rfl rfl sample_isFor))
    |>.tail (sample_transient rfl (by trivial) hidle)
      (.append rfl (.send (i := 0) rfl rfl rfl (by decide)))
    |>.tail (sample_transient rfl (by trivial) hidle) (.append rfl (.finish (i := 0) rfl rfl))
    |>.tail (sample_transient rfl (by trivial) hidle) (.flush rfl .begin)
    |>.tail (sample_transient rfl (by trivial) hidle)
      (.rotator rfl (.takeFlush (f := 0) rfl rfl rfl))
    |>.tail (sample_transient rfl (by trivial) hidle) (.rotator rfl (.drainReceive rfl rfl))
    |>.tail (sample_transient rfl (by trivial) hidle) (.rotator rfl (.drainDone rfl rfl))
    |>.tail (sample_transient rfl (by trivial) hidle) (.rotator rfl (.acquire rfl rfl))
    |>.tail (sample_transient rfl (by trivial) hidle) (.rotator rfl (.reconcile rfl))
    |>.tail (sample_transient rfl (by trivial) hidle) (.encoder rfl (.take (i := 0) rfl rfl))
    |>.tail (sample_transient rfl (by trivial) (by simp)) (.encoder rfl (.encoded (i := 0) rfl rfl))
    |>.tail (sample_transient rfl (by trivial) (by simp))
      (.uploader rfl (.take (i := 0) (j := 0) rfl rfl rfl))
    |>.tail (sample_transient rfl (by trivial) hidle) (.uploader rfl
      (.putApplies (j := 0) ⟨"a"⟩ rfl (fun _ h => absurd h List.not_mem_nil)))
    |>.tail (sample_transient rfl (by trivial) hidle) (.uploader rfl (.putOk (j := 0) rfl))
    |>.tail (sample_transient rfl (by trivial) hidle)
      (.uploader rfl (.complete (j := 0) rfl rfl (by decide)))
    |>.tail (sample_transient rfl (by trivial) hidle) (.committer rfl (.receive rfl rfl rfl))
    |>.tail (sample_transient rfl (by trivial) hidle) (.committer rfl (.gatherDone rfl rfl))
    |>.tail (sample_transient rfl (by trivial) hidle) (.committer rfl (.collect rfl))
    |>.tail (sample_transient rfl (by rintro _ _ _ ⟨⟩; decide) hidle)
      (.committer rfl (.cas rfl (.getFails (.other "timeout") rfl (by simp))))
    |>.tail (sample_transient rfl (by trivial) hidle) (.committer rfl (.cas rfl (.retry rfl)))
    |>.tail (sample_transient rfl (by trivial) hidle) (.committer rfl (.cas rfl (.get rfl)))
    |>.tail (sample_transient rfl (by trivial) hidle) (.committer rfl
      (@CommitterStep.casApplies _ _ _ _ _ _ sampleCommit _ rfl rfl rfl (sample_names _)))
    |>.tail (sample_transient rfl (by trivial) hidle) (.committer rfl (.cas rfl (.ok rfl)))
    |>.tail (sample_transient rfl (by trivial) hidle)
      (.committer rfl (.settle rfl rfl (Or.inl rfl)))
    |>.tail (sample_transient rfl (by trivial) hidle) (.resolver rfl (.take rfl rfl rfl))
    |>.tail (sample_transient rfl (by trivial) hidle) (.resolver rfl (.observe rfl))
    |>.tail (sample_transient rfl (by trivial) hidle) (.resolver rfl (.resolve rfl))
    |>.tail (sample_transient rfl (by trivial) hidle) (.resolver rfl (.resolvedAll rfl))
    |>.tail (sample_transient rfl (by trivial) hidle) (.resolver rfl (.ack rfl rfl rfl rfl))
    |>.tail (sample_transient rfl (by trivial) hidle) (.resolver rfl (.release rfl))
    |>.tail (sample_transient rfl (by trivial) hidle)
      (.flush rfl (.receiveAck (f := 0) rfl rfl rfl))
    |>.tail (sample_transient rfl (by trivial) hidle) (.flush rfl (.drained (f := 0) rfl rfl rfl))
    |>.tail (sample_transient rfl (by trivial) hidle) (.committer rfl (.resolved rfl))
    |>.tail (sample_transient rfl (by trivial) hidle) (.committer rfl (.collect rfl))
  exact hrun

/-- Behind its flush the sample producer has nothing to do. -/
theorem sampleFlushed_idle : Idle sampleFlushed where
  appends := List.forall_mem_singleton.mpr ⟨none, rfl⟩
  flushes := List.forall_mem_singleton.mpr ⟨none, rfl⟩
  close := rfl
  appendCh := rfl
  rotator := rfl
  empty := rfl
  encoders := List.forall_mem_singleton.mpr rfl
  someEncoder := List.cons_ne_nil _ _
  encoderPool := rfl
  uploaders := List.forall_mem_singleton.mpr rfl
  someUploader := List.cons_ne_nil _ _
  uploaderPool := rfl
  completions := rfl
  committer := rfl
  resolver := rfl
  resolverCh := rfl

/-- In the sample run a `Get` fails and is tried again, and the message is in the store. -/
theorem transient_faults_absorbed_sample :
    AtRest sampleProducer sampleFlushed ∧ sampleFlushed.halted = false ∧
      sampleFlushed.watcherResult 0 = some none ∧
      ∃ b ∈ emittedOf sampleFlushed.hist.cuts, sampleMessage ∈ b.msgs ∧
        readAppends sampleZstd sampleFlushed.store (sampleProducer.itemOf b) =
          some (b.msgs.map AppendMessage.request) := by
  have hfit : Manageable sampleProducer sampleFlushed := by
    refine ⟨fun b hb => ?_, fun b hb => ?_, by decide⟩ <;> obtain rfl := List.mem_singleton.mp hb
    · exact sampleBatch_representable
    · decide
  obtain ⟨hhalted, _, _, hdone⟩ := transient_faults_absorbed sampleZstd_lawful sample_location_ne
    (emptyStore_startsFrom _) sample_absorbs rfl hfit
  obtain ⟨hnil, b, hb, hm, _, hread⟩ :=
    hdone sampleFlushed_idle.atRest rfl sampleMessage List.mem_cons_self
  exact ⟨sampleFlushed_idle.atRest, hhalted, hnil, b, hb, hm, hread⟩

end OpenDataBuffer
