import OpenDataBuffer.Durability

/-!
# At-most-once enqueue

A group whose write is pending must not be in the manifest already.  That is so
when the group is cut off, and stays so while `enqueueBatch` starts over after a
failed precondition.  It is `casWithRetry` that can break it: a `PutIfMatch` that
took effect and still returned an error is retried, and the retry plans the append
anew from a manifest that holds the group (`locations_appended_twice`).  If
`casWithRetry` starts another attempt only when nothing of the group is in the
manifest, no location is ever appended twice (`locations_at_most_once`).
-/

namespace OpenDataBuffer

open LabelledRuns

variable {p : Producer} {s t : State} {l : Label}

/-- The locations of the entries this producer ever appended. -/
def State.ownLocations (s : State) : List Bytes :=
  s.hist.manifest.log.filterMap fun x => x.1.map fun _ => x.2.Location

/-- The appended ordinals increase, and a group at a phase that counts as early is
not among them. -/
structure FreshGroups (early : CasPhase → Prop) (s : State) : Prop where
  sorted : s.owned.Pairwise (· < ·)
  fresh : ∀ group failed call, s.committer.phase = .cas group failed call → early call.phase →
    ∀ uc ∈ group, uc.eb.ordinal ∉ s.owned

/-- **Step rule for fresh groups.**  Early phases end when the write takes effect,
and `hback` says what `casWithRetry` must keep. -/
theorem FreshGroups.step {early : CasPhase → Prop} (h : FreshGroups early s) (hc : Committing p s)
    (hwrite : ∀ n data version, early (.enqueueing (.writing n data version false)))
    (hdone : ∀ n data version, ¬ early (.enqueueing (.writing n data version true)))
    (hback : ∀ group failed call call', s.committer.phase = .cas group failed call →
      CasStep p s (group.map UploadCompletion.item) call l call' → early call'.phase →
        early call.phase ∨ ∀ uc ∈ group, uc.eb.ordinal ∉ s.owned)
    (hs : ProducerStep p s l t) : FreshGroups early t := by
  constructor
  · rcases owned_step hs with heq | ⟨group, failed, call, n, data, version, hphase, hcall, _, heq⟩
    · rw [heq]
      exact h.sorted
    · have hfresh := h.fresh group failed call hphase (hcall ▸ hwrite n data version)
      have hsorted := hc.log.sorted
      have hearlier := hc.log.earlier
      rw [hphase] at hsorted hearlier
      rw [heq, List.pairwise_append]
      refine ⟨h.sorted, hsorted, fun k hk k' hk' => ?_⟩
      obtain ⟨uc, huc, rfl⟩ := List.mem_map.mp hk'
      rcases hearlier k hk with hin | hlt
      · obtain ⟨uc', huc', rfl⟩ := List.mem_map.mp hin
        exact absurd hk (hfresh uc' huc')
      · exact hlt uc huc
  · intro group failed call hphase hearly uc huc
    cases cas_origin hs hphase with
    | same hold howned =>
        rw [howned]
        exact h.fresh _ _ _ hold hearly uc huc
    | moved hold hcas howned =>
        rw [howned]
        rcases hback _ _ _ _ hold hcas hearly with hbefore | hfresh
        · exact h.fresh _ _ _ hold hbefore uc huc
        · exact hfresh uc huc
    | applied hold hcall hnow howned =>
        rw [hnow] at hearly
        exact absurd hearly (hdone _ _ _)
    | collected hold hne hgroup hfailed hcall howned =>
        rw [howned]
        exact hc.collected_fresh hold (hgroup ▸ huc)

theorem freshGroups_newProducer {early : CasPhase → Prop} (store : ObjectStore)
    (items : List EnqueueItem) : FreshGroups early (newProducer p store items) := by
  have hnone : (newProducer p store items).owned = [] := filterMap_others items
  refine ⟨by rw [hnone]; exact List.Pairwise.nil, ?_⟩
  intro group failed call hphase
  cases hphase

/-! ## Retrying only what is not written -/

/-- An attempt is under way and its write has not taken effect. -/
def CasPhase.Pending : CasPhase → Prop
  | .enqueueing (.reading _) => True
  | .enqueueing (.writing _ _ _ applied) => applied = false
  | _ => False

/-- An attempt is under way only if `enqueueBatch` has not returned. -/
theorem settle_pending {n : Nat} {call : CasCall} {phase : EnqueuePhase}
    (h : (call.settle n phase).phase.Pending) : ∀ c err, phase ≠ .returned c err := by
  rintro c err rfl
  cases err with
  | none => exact h
  | some err =>
      unfold CasCall.settle at h
      dsimp only at h
      split at h <;> exact h

/-- An attempt is under way because it was, or because of a retry. -/
theorem CasStep.pending {items : List EnqueueItem} {call call' : CasCall}
    (hs : CasStep p s items call l call') (h : call'.phase.Pending) :
    call.phase.Pending ∨ l = .retriesCas := by
  cases hs with
  | get hcall =>
      rw [hcall]
      exact Or.inl trivial
  | getFails err hcall herr =>
      rw [hcall]
      exact Or.inl trivial
  | ok hcall => exact absurd rfl (settle_pending h _ _)
  | conflict hcall hmatch =>
      rw [hcall]
      exact Or.inl rfl
  | fails err hcall herr =>
      exfalso
      cases err with
      | preconditionFailed => exact herr rfl
      | _ => exact settle_pending h _ _ rfl
  | retry hcall => exact Or.inr rfl
  | abandon hcall hshutdown => exact h.elim

/-- `casWithRetry` starts another attempt only if nothing of its group is in the
manifest log. -/
def RetriesOnlyUnwritten (s : State) (l : Label) : Prop :=
  l = .retriesCas → ∀ uc ∈ s.committer.phase.group, uc.eb.ordinal ∉ s.owned

/-- With retries of unwritten groups only, a group under way is not in the log. -/
theorem FreshGroups.step_pending (h : FreshGroups CasPhase.Pending s) (hc : Committing p s)
    (hretry : RetriesOnlyUnwritten s l) (hs : ProducerStep p s l t) :
    FreshGroups CasPhase.Pending t := by
  refine h.step hc (fun _ _ _ => rfl) (fun _ _ _ hearly => by cases hearly) ?_ hs
  intro group failed call call' hphase hcas hearly
  rcases hcas.pending hearly with hbefore | hlabel
  · exact Or.inl hbefore
  · exact Or.inr fun uc huc => hretry hlabel uc (mem_group hphase huc)

/-- The entries of this producer are at the locations of their ordinals. -/
theorem LogEntries.ownLocations (h : LogEntries p s) : s.ownLocations = s.owned.map p.location := by
  rw [State.ownLocations, State.owned, List.map_filterMap]
  refine List.filterMap_congr fun x hx => ?_
  obtain ⟨owner, item⟩ := x
  cases owner with
  | none => rfl
  | some k =>
      obtain ⟨b, _, rfl, rfl⟩ := h k item hx
      rfl

/-- **At-most-once enqueue.**  In every run in which `casWithRetry` starts another
attempt only if nothing of its group is in the manifest log, no location is ever
appended twice. -/
theorem locations_at_most_once {store : ObjectStore} {items : List EnqueueItem}
    (hrun : RunWhere p RetriesOnlyUnwritten (newProducer p store items) s) :
    s.ownLocations.Nodup := by
  have hboth : Committing p s ∧ FreshGroups CasPhase.Pending s := by
    refine hrun.invariant (P := fun x => Committing p x ∧ FreshGroups CasPhase.Pending x)
      ⟨committing_newProducer store items, freshGroups_newProducer store items⟩ ?_
    intro x l y h hretry hs
    exact ⟨h.1.step hs, h.2.step_pending h.1 hretry hs⟩
  rw [hboth.1.entries.ownLocations]
  exact (hboth.2.sorted.imp Nat.ne_of_lt).map _ fun _ _ hne hloc => hne (Producer.location_inj hloc)

/-- A `PutIfMatch` fails without effect and is retried. -/
theorem locations_at_most_once_sample :
    ∃ s, RunWhere sampleProducer RetriesOnlyUnwritten sampleStart s ∧
      s.ownLocations = [sampleProducer.location 0] ∧ s.ownLocations.Nodup := by
  have hbefore : RunWhere sampleProducer RetriesOnlyUnwritten sampleStart sampleCommitting := by
    refine sample_committing.mono ?_
    rintro x l hsmooth rfl
    exact hsmooth.elim
  have hrun := hbefore
    |>.tail (by intro h; cases h) (.committer rfl (.cas rfl (.get rfl)))
    |>.tail (by intro h; cases h)
      (.committer rfl (.cas rfl (.fails (.other "timeout") rfl (by decide))))
    |>.tail (fun _ _ _ => List.not_mem_nil) (.committer rfl (.cas rfl (.retry rfl)))
    |>.tail (by intro h; cases h) (.committer rfl (.cas rfl (.get rfl)))
    |>.tail (by intro h; cases h) (.committer rfl
      (@CommitterStep.casApplies _ _ _ _ _ _ sampleCommit _ rfl rfl rfl (sample_names _)))
  exact ⟨_, hrun, rfl, locations_at_most_once hrun⟩

/-! ## Retrying what is written -/

/-- What `enqueueBatch` makes of the manifest that it has already extended. -/
def sampleDuplicate : GetResult where
  data :=
    match planAppend [sampleCompletion.item] (.ok sampleCommit) with
    | .ok (data, _) => data
    | .error _ => []
  version := ⟨"2"⟩

/-- Version "2" is new. -/
theorem sampleDuplicate_names :
    (sampleCommitting.store.write sampleProducer.config.ManifestPath sampleCommit).Names
      sampleProducer.config.ManifestPath sampleDuplicate := by
  intro old hmem hversion
  rcases VersionedStore.Store.mem_issued_write.mp hmem with ⟨_, rfl⟩ | hold
  · exact absurd hversion (by decide)
  · exact sample_names _ old hold hversion

/-- A store carries the `PutIfMatch` out and returns an error; `casWithRetry`
tries again and appends the same location a second time. -/
theorem locations_appended_twice :
    ∃ s, Run sampleProducer sampleStart s ∧
      s.ownLocations = [sampleProducer.location 0, sampleProducer.location 0] ∧
      ¬ s.ownLocations.Nodup := by
  have hrun := sample_committing.run
    |>.tail trivial (.committer rfl (.cas rfl (.get rfl)))
    |>.tail trivial (.committer rfl
      (@CommitterStep.casApplies _ _ _ _ _ _ sampleCommit _ rfl rfl rfl (sample_names _)))
    |>.tail trivial (.committer rfl (.cas rfl (.fails (.other "timeout") rfl (by decide))))
    |>.tail trivial (.committer rfl (.cas rfl (.retry rfl)))
    |>.tail trivial (.committer rfl (.cas rfl (.get rfl)))
    |>.tail trivial (.committer rfl
      (@CommitterStep.casApplies _ _ _ _ _ _ sampleDuplicate _ rfl rfl rfl sampleDuplicate_names))
  exact ⟨_, hrun, rfl, by decide⟩

end OpenDataBuffer
