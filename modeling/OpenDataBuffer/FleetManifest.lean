import OpenDataBuffer.Durability
import OpenDataBuffer.WriteOnce

/-!
# Producers on one manifest

Any number of producers, in as many processes, write to one store and append to
one manifest.  In the model of a single producer the other parties are an
assumption: `OthersStep` says what they may do to the store.  Here they are
producers, each with its own goroutines and callers, and the assumption is
discharged: whatever one member does, every other member sees nothing or a step
that `OthersStep` allows (`FleetKept.projects`).  So the run of a fleet, as one
member sees it, is a run of the model of a single producer (`FleetKept.members`).

What is proved of one producer then holds of all of them at once, about one
common log in which every entry has at most one owner (`fleet_durable`).
-/

namespace OpenDataBuffer

open LabelledRuns Ensembles VersionedStore

/-! ## What a member sees -/

/-- The manifest of a member that finds it as another one left it.  The entries
that came are not its own. -/
def ManifestLog.catchUp (seen now : ManifestLog (Option Nat)) : ManifestLog (Option Nat) where
  log := seen.log ++ ((now.log.drop seen.log.length).map Prod.snd).map (Prod.mk none)
  dropped := now.dropped

/-- A member finds the store and the manifest as another one left them. -/
def SeesManifest (other x y : State) : Prop :=
  y = { x with
    store := other.store
    hist := { x.hist with manifest := x.hist.manifest.catchUp other.hist.manifest } }

/-- A step of member `i`, or of somebody outside the fleet, who appends to the manifest
or writes an object, but no object of a member. -/
structure FleetMove {ι : Type} (fleet : ι → Producer) (i : ι) (s : State) (l : Label) (t : State) :
    Prop where
  step : ProducerStep (fleet i) s l t
  spares : l = .others → ∀ path obj, t.store = s.store.write path obj →
    ∀ j k, (fleet j).location k ≠ path

/-- The runs of producers that share a store and a manifest. -/
abbrev ManifestRun {ι : Type} (fleet : ι → Producer) (S T : ι → State) : Prop :=
  EnsembleRun (FleetMove fleet) SeesManifest S T

/-- Every state can follow another one's manifest. -/
theorem exists_seesManifest (other x : State) : ∃ y, SeesManifest other x y := ⟨_, rfl⟩

/-- Who follows the manifest follows the store. -/
theorem SeesManifest.seesStore {other x y : State} (h : SeesManifest other x y) :
    SeesStore other x y :=
  ⟨_, h⟩

variable {p : Producer} {s t u other x y z : State} {l : Label}

/-- The batches of a member are its own. -/
theorem SeesManifest.cuts (h : SeesManifest other x y) : y.hist.cuts = x.hist.cuts := by
  rw [h]

/-- Seeing what another member did, and then what it did next, is seeing both at once. -/
theorem SeesManifest.trans (h : SeesManifest t x y) (h' : SeesManifest u y z)
    (hle : x.hist.manifest.log.length ≤ t.hist.manifest.log.length)
    (hgrows : t.hist.manifest.log <+: u.hist.manifest.log) : SeesManifest u x z := by
  obtain ⟨new, hnew⟩ := hgrows
  rw [h', h, SeesManifest]
  simp only [ManifestLog.catchUp, ← hnew, List.length_append, List.length_map, List.length_drop,
    Nat.add_sub_cancel' hle, List.drop_left, List.drop_append_of_le_length hle, List.map_append,
    List.append_assoc]

section Fleet

variable {ι : Type} {fleet : ι → Producer} {i : ι}

/-- A step of the producer itself. -/
theorem FleetMove.of_own (hs : ProducerStep (fleet i) s l t) (hown : l ≠ .others) :
    FleetMove fleet i s l t :=
  ⟨hs, fun heq => absurd heq hown⟩

/-- A run without steps of others. -/
theorem RunWhere.fleetMoves {allowed : State → Label → Prop}
    (hown : ∀ s l, allowed s l → l ≠ .others) (h : RunWhere (fleet i) allowed s t) :
    Reach (FleetMove fleet i) allowed s t := by
  induction h with
  | refl => exact .refl
  | tail before admitted last ih => exact ih.tail admitted (.of_own last (hown _ _ admitted))

/-! ## What one step does outside the producer -/

/-- The store and the manifest before and after a step. -/
inductive Outside (fleet : ι → Producer) (i : ι) (s t : State) : Prop
  | nothing (hstore : t.store = s.store) (hlog : t.hist.manifest = s.hist.manifest)
  | object {eb : EncodedBatch} {version : Version} (henc : s.Encoded eb)
      (hnames : s.store.Names eb.location ⟨eb.payload, version⟩)
      (hstore : t.store = s.store.write eb.location ⟨eb.payload, version⟩)
      (hlog : t.hist.manifest = s.hist.manifest)
  | append {group : List UploadCompletion} {failed : List PendingResolution} {call : CasCall}
      {n : Nat} {obj : GetResult} {version : Option Version}
      (hphase : s.committer.phase = .cas group failed call)
      (hcall : call.phase = .enqueueing (.writing n obj.data version false))
      (hmatch : s.store.Matches (fleet i).config.ManifestPath version)
      (hnames : s.store.Names (fleet i).config.ManifestPath obj)
      (hstore : t.store = s.store.write (fleet i).config.ManifestPath obj)
      (hlog : t.hist.manifest =
        { s.hist.manifest with log := s.hist.manifest.log ++ ownedItems group })
  | others {k : Nat} {items : List EnqueueItem} {obj : GetResult}
      (hk : k ≤ (s.hist.manifest.log.drop s.hist.manifest.dropped).length)
      (hdata : ManifestOf obj.data
        (((s.hist.manifest.log.drop s.hist.manifest.dropped).drop k).map Prod.snd ++ items))
      (hnames : s.store.Names (fleet i).config.ManifestPath obj)
      (hstore : t.store = s.store.write (fleet i).config.ManifestPath obj)
      (hlog : t.hist.manifest =
        ⟨s.hist.manifest.log ++ items.map (Prod.mk none), s.hist.manifest.dropped + k⟩)
  | foreign {path : Bytes} {obj : GetResult} (hmanifest : path ≠ (fleet i).config.ManifestPath)
      (hspared : ∀ j k, (fleet j).location k ≠ path) (hnames : s.store.Names path obj)
      (hstore : t.store = s.store.write path obj) (hlog : t.hist.manifest = s.hist.manifest)

/-- What a move of one member is to the others. -/
theorem FleetMove.outside (hs : FleetMove fleet i s l t) : Outside fleet i s t := by
  cases hs.step with
  | append _ h => cases h <;> exact .nothing rfl rfl
  | flush _ h => cases h <;> exact .nothing rfl rfl
  | close _ h => cases h <;> exact .nothing rfl rfl
  | rotator _ h => cases h <;> exact .nothing rfl rfl
  | encoder _ h => cases h <;> exact .nothing rfl rfl
  | uploader _ h =>
      cases h with
      | putApplies version hup hnames =>
          exact .object (State.encoded_of_mem hup rfl) hnames rfl rfl
      | _ => exact .nothing rfl rfl
  | committer _ h =>
      cases h with
      | casApplies hphase hcall hmatch hnames => exact .append hphase hcall hmatch hnames rfl rfl
      | _ => exact .nothing rfl rfl
  | resolver _ h => cases h <;> exact .nothing rfl rfl
  | others h =>
      cases h with
      | write hk hdata hnames => exact .others hk hdata hnames rfl rfl
      | object hmanifest hown hnames =>
          exact .foreign hmanifest (hs.spares rfl _ _ rfl) hnames rfl rfl

/-- A step adds entries at the end of the log. -/
theorem Outside.log_grows (h : Outside fleet i s t) :
    ∃ new, t.hist.manifest.log = s.hist.manifest.log ++ new := by
  cases h with
  | nothing _ hlog | object _ _ _ hlog | foreign _ _ _ _ hlog =>
      exact ⟨[], by rw [hlog, List.append_nil]⟩
  | append _ _ _ _ _ hlog | others _ _ _ _ hlog => exact ⟨_, congrArg ManifestLog.log hlog⟩

end Fleet

/-! ## The common log -/

/-- A log with the same items and other owners is held as well. -/
theorem Holds.of_same_items {ω ω' : Type} {store : ObjectStore} {path : Bytes} {L : ManifestLog ω}
    {L' : ManifestLog ω'} (h : Holds store path L)
    (hitems : L'.log.map Prod.snd = L.log.map Prod.snd) (hdropped : L'.dropped = L.dropped) :
    Holds store path L' where
  sound := h.sound
  issued := h.issued
  missing := by
    intro hnone
    obtain ⟨hlog, hzero⟩ := h.missing hnone
    rw [hlog] at hitems
    exact ⟨List.map_eq_nil_iff.mp hitems, hdropped.trans hzero⟩
  present := by
    intro obj hobj
    rw [List.map_drop, hitems, hdropped, ← List.map_drop]
    exact h.present obj hobj
  within := by
    have hlength := congrArg List.length hitems
    rw [List.length_map, List.length_map] at hlength
    rw [hdropped, hlength]
    exact h.within

section Common

variable {ι : Type} [DecidableEq ι]

/-- An entry of the common log as member `i` has it on record. -/
def viewOf (i : ι) (e : Option (ι × Nat) × EnqueueItem) : Option Nat × EnqueueItem :=
  (e.1.bind fun owner => if owner.1 = i then some owner.2 else none, e.2)

omit [DecidableEq ι] in
/-- An entry on the record of member `i` as an entry of the common log. -/
def ownedBy (i : ι) (e : Option Nat × EnqueueItem) : Option (ι × Nat) × EnqueueItem :=
  (e.1.map (Prod.mk i), e.2)

/-- A member finds its own entries in its view. -/
theorem viewOf_ownedBy_self (i : ι) (e : Option Nat × EnqueueItem) :
    viewOf i (ownedBy i e) = e := by
  obtain ⟨owner, item⟩ := e
  cases owner <;> simp [viewOf, ownedBy]

/-- The entries of the others belong to nobody in its view. -/
theorem viewOf_ownedBy_of_ne {i j : ι} (h : i ≠ j) (e : Option Nat × EnqueueItem) :
    viewOf j (ownedBy i e) = (none, e.2) := by
  obtain ⟨owner, item⟩ := e
  cases owner <;> simp [viewOf, ownedBy, h]

/-- What belongs to a member in its view is its own. -/
theorem viewOf_eq_some {i : ι} {e : Option (ι × Nat) × EnqueueItem} {k : Nat} {item : EnqueueItem} :
    viewOf i e = (some k, item) ↔ e = (some (i, k), item) := by
  obtain ⟨owner, item'⟩ := e
  cases owner with
  | none => simp [viewOf]
  | some owner =>
      obtain ⟨j, n⟩ := owner
      by_cases hj : j = i <;> simp [viewOf, hj]

/-- All members see the same items. -/
theorem map_snd_viewOf (i : ι) (log : List (Option (ι × Nat) × EnqueueItem)) :
    (log.map (viewOf i)).map Prod.snd = log.map Prod.snd := by
  rw [List.map_map]
  rfl

/-- All members look at one store, and each has the common log on record. -/
structure Joined (S : ι → State) (store : ObjectStore) (M : ManifestLog (Option (ι × Nat))) :
    Prop where
  store : ∀ i, (S i).store = store
  manifest : ∀ i, (S i).hist.manifest = ⟨M.log.map (viewOf i), M.dropped⟩

variable {fleet : ι → Producer} {path : Bytes} {store : ObjectStore} {items : List EnqueueItem}
  {S T : ι → State} {M : ManifestLog (Option (ι × Nat))}

theorem Joined.log_length (h : Joined S store M) (i : ι) :
    (S i).hist.manifest.log.length = M.log.length := by
  rw [h.manifest i, List.length_map]

/-- The members' records have the items of the common log. -/
theorem Joined.map_snd (h : Joined S store M) (i : ι) :
    (S i).hist.manifest.log.map Prod.snd = M.log.map Prod.snd := by
  rw [h.manifest i]
  exact map_snd_viewOf i M.log

/-- All members see the same prefix dropped. -/
theorem Joined.dropped (h : Joined S store M) (i : ι) :
    (S i).hist.manifest.dropped = M.dropped := by
  rw [h.manifest i]

/-- An entry of a member, in its log and in the common one. -/
theorem Joined.entry (h : Joined S store M) {i : ι} {k : Nat} {item : EnqueueItem} :
    (some k, item) ∈ (S i).hist.manifest.log ↔ (some (i, k), item) ∈ M.log := by
  rw [h.manifest i, List.mem_map]
  constructor
  · rintro ⟨e, he, hview⟩
    rw [viewOf_eq_some] at hview
    exact hview ▸ he
  · intro hmem
    exact ⟨_, hmem, viewOf_eq_some.mpr rfl⟩

/-- The members stay joined: what one of them appends is its own in the common
log, and nobody's on the record of the others. -/
theorem Joined.step (h : Joined S store M) {i : ι} {new : List (Option Nat × EnqueueItem)}
    (hlog : (T i).hist.manifest.log = (S i).hist.manifest.log ++ new)
    (hothers : ∀ j, j ≠ i → SeesManifest (T i) (S j) (T j)) :
    Joined T (T i).store
      ⟨M.log ++ new.map (ownedBy i), (T i).hist.manifest.dropped⟩ := by
  have hview : ∀ j, (T j).hist.manifest.dropped = (T i).hist.manifest.dropped ∧
      (T j).hist.manifest.log = (M.log ++ new.map (ownedBy i)).map (viewOf j) := by
    intro j
    rw [List.map_append, List.map_map]
    by_cases hj : j = i
    · subst hj
      have hself : new.map (viewOf j ∘ ownedBy j) = new := by
        simp [Function.comp_def, viewOf_ownedBy_self]
      rw [hself, hlog, h.manifest j]
      exact ⟨rfl, rfl⟩
    · have hnew : new.map (viewOf j ∘ ownedBy i) = (new.map Prod.snd).map (Prod.mk none) := by
        simp [Function.comp_def, viewOf_ownedBy_of_ne (Ne.symm hj)]
      have hsees := hothers j hj
      rw [hnew, hsees]
      refine ⟨rfl, ?_⟩
      show (S j).hist.manifest.log ++ (((T i).hist.manifest.log.drop
        (S j).hist.manifest.log.length).map Prod.snd).map (Prod.mk none) = _
      rw [hlog, h.log_length j, ← h.log_length i, List.drop_left, h.manifest j]
  refine ⟨fun j => ?_, fun j => ?_⟩
  · by_cases hj : j = i
    · rw [hj]
    · rw [hothers j hj]
  · rw [← (hview j).2, ← (hview j).1]

/-- A member that looks at the common log sees nothing new. -/
theorem Joined.sees_self (h : Joined S store M) (i j : ι) : SeesManifest (S i) (S j) (S j) := by
  have hlog : (S j).hist.manifest.catchUp (S i).hist.manifest = (S j).hist.manifest := by
    rw [ManifestLog.catchUp, h.log_length j, ← h.log_length i, List.drop_length, h.dropped i,
      ← h.dropped j]
    simp
  rw [SeesManifest, hlog, h.store i, ← h.store j]

/-- A member sees a write of another one to the manifest. -/
theorem Joined.sees_write (h : Joined S store M) {i j : ι} {new : List (Option Nat × EnqueueItem)}
    {k : Nat} {obj : GetResult} {t : State}
    (hstore : t.store = (S i).store.write path obj)
    (hmanifest : t.hist.manifest =
      ⟨(S i).hist.manifest.log ++ new, (S i).hist.manifest.dropped + k⟩)
    (hsees : SeesManifest t (S j) y) :
    y = { S j with
      store := (S j).store.write path obj
      hist := { (S j).hist with manifest :=
        { log := (S j).hist.manifest.log ++ (new.map Prod.snd).map (Prod.mk none)
          dropped := (S j).hist.manifest.dropped + k } } } := by
  rw [hsees, hstore, ManifestLog.catchUp, hmanifest, h.log_length j, ← h.log_length i,
    List.drop_left, h.store i, h.store j, h.dropped i, h.dropped j]

/-- One member can run while the others look on. -/
theorem ManifestRun.of_member {allowed : State → Label → Prop} {i : ι} {t : State}
    (hjoined : Joined S store M) (h : Reach (FleetMove fleet i) allowed (S i) t) :
    ∃ T, ManifestRun fleet S T ∧ T i = t ∧ (∀ j, j ≠ i → SeesManifest t (S j) (T j)) ∧
      ∃ now N, Joined T now N := by
  induction h with
  | refl => exact ⟨S, .refl, rfl, fun j _ => hjoined.sees_self i j, _, _, hjoined⟩
  | @tail x y l before admitted last ih =>
      obtain ⟨X, hX, rfl, hseen, now, N, hX'⟩ := ih
      choose view hview using exists_seesManifest y
      let Y : ι → State := fun j => if j = i then y else view (X j)
      have hmoved : Y i = y := if_pos rfl
      have hothers : ∀ j, j ≠ i → SeesManifest y (X j) (Y j) := fun j hj => by
        simpa [Y, hj] using hview (X j)
      obtain ⟨new, hnew⟩ := last.outside.log_grows
      refine ⟨Y, hX.tail trivial (.moves (l := l) (hmoved.symm ▸ last) ?_), hmoved, ?_, _, _,
        hX'.step (hmoved.symm ▸ hnew) ?_⟩
      · rwa [hmoved]
      · intro j hj
        refine (hseen j hj).trans (hothers j hj) ?_ ⟨new, hnew.symm⟩
        -- The member had all of the log that there was when the run began.
        have hlength := hX'.log_length j
        rw [← hX'.log_length i, hseen j hj] at hlength
        simp only [ManifestLog.catchUp, List.length_append] at hlength
        omega
      · rwa [hmoved]

/-! ## What the members keep -/

omit [DecidableEq ι] in
/-- Producers fit to share a manifest: run names of their own, all of one length as
the strings of `ulid.Make` are, and one manifest path that is not the name of an
object. -/
structure Sharing (fleet : ι → Producer) (path : Bytes) : Prop where
  length : ∀ i j, (fleet i).runID.length = (fleet j).runID.length
  distinct : ∀ i j, (fleet i).runID = (fleet j).runID → i = j
  manifest : ∀ i, (fleet i).config.ManifestPath = path
  apart : ∀ i k, (fleet i).location k ≠ path

omit [DecidableEq ι] in
/-- No two members have an object of one name. -/
theorem Sharing.location_ne (h : Sharing fleet path) {i j : ι} (hne : j ≠ i) (a b : Nat) :
    (fleet j).location a ≠ (fleet i).location b := by
  intro hloc
  obtain ⟨-, hid, -⟩ := Producer.location_determines (h.length j i) hloc
  exact hne (h.distinct j i hid)

omit [DecidableEq ι] in
/-- No object of a member is the manifest. -/
theorem Sharing.location_ne_manifest (h : Sharing fleet path) (i : ι) (k : Nat) :
    (fleet i).location k ≠ (fleet i).config.ManifestPath := by
  rw [h.manifest i]
  exact h.apart i k

/-- The batches of all members fit the formats. -/
def FitsFormats (fleet : ι → Producer) (S : ι → State) : Prop :=
  ∀ i, ∀ b ∈ emittedOf (S i).hist.cuts, (fleet i).Representable b

/-- What holds of producers on one manifest in every reachable state. -/
structure FleetKept (fleet : ι → Producer) (store : ObjectStore) (items : List EnqueueItem)
    (S : ι → State) : Prop where
  joined : ∃ now M, Joined S now M
  custody : ∀ i, Custody (S i)
  /-- **Each member is at the end of a run of its own**, in which the others are what
  the model of one producer takes them for. -/
  members : FitsFormats fleet S → ∀ i, Run (fleet i) (newProducer (fleet i) store items) (S i)

omit [DecidableEq ι] in
/-- The manifest a member is about to write is the one it finds, with its items
at the end. -/
theorem ManifestHeld.append_data (h : ManifestHeld p s) (hc : Committing p s)
    (hrep : ∀ b ∈ emittedOf s.hist.cuts, p.Representable b) {group : List UploadCompletion}
    {failed : List PendingResolution} {call : CasCall} {n : Nat} {data : Bytes}
    {version : Option Version} (hphase : s.committer.phase = .cas group failed call)
    (hcall : call.phase = .enqueueing (.writing n data version false))
    (hmatch : s.store.Matches p.config.ManifestPath version) :
    ManifestOf data ((s.hist.manifest.log.drop s.hist.manifest.dropped).map Prod.snd ++
      group.map UploadCompletion.item) := by
  refine h.holds.planned_data ?_ (h.planned _ _ _ _ _ _ hphase hcall) hmatch
  intro item hitem
  obtain ⟨uc, huc, rfl⟩ := List.mem_map.mp hitem
  have hgroup := mem_group hphase huc
  rw [hc.named.group_item hc.log hgroup]
  exact (hrep uc.batch (hc.custody.conserved.flight_emitted
    (State.Completed.of_group hgroup).flight)).item

/-- **The members meet the assumption that each of them makes about the others.**  What
one of them does is nothing to another, or a step that `OthersStep` allows. -/
theorem FleetKept.sees_others (h : FleetKept fleet store items S) (hsharing : Sharing fleet path)
    (hstart : StartsFrom store path items) (hfits : FitsFormats fleet S) {i j : ι} (hne : j ≠ i)
    (hout : Outside fleet i (S i) t) (hsees : SeesManifest t (S j) y) :
    y = S j ∨ OthersStep (fleet j) (S j) .others y := by
  obtain ⟨now, M, hjoined⟩ := h.joined
  have hrun := h.members hfits i
  have hcommitting := reachable_committing hrun
  have hstore : (S i).store = (S j).store := (hjoined.store i).trans (hjoined.store j).symm
  have hpath : (fleet i).config.ManifestPath = (fleet j).config.ManifestPath :=
    (hsharing.manifest i).trans (hsharing.manifest j).symm
  have hleft : ((S i).hist.manifest.log.drop (S i).hist.manifest.dropped).map Prod.snd =
      ((S j).hist.manifest.log.drop (S j).hist.manifest.dropped).map Prod.snd := by
    rw [List.map_drop, List.map_drop, hjoined.map_snd i, hjoined.map_snd j, hjoined.dropped i,
      hjoined.dropped j]
  have hsame : (S j).hist.manifest.catchUp (S i).hist.manifest = (S j).hist.manifest := by
    have hself := congrArg (fun x : State => x.hist.manifest) (hjoined.sees_self i j)
    exact hself.symm
  cases hout with
  | nothing hkept hlog =>
      refine Or.inl ?_
      rw [hsees, hkept, hlog, hsame, hstore]
  | @object eb version henc hnames hwrite hlog =>
      have hlocation := (hcommitting.named.made eb henc).location
      rw [hsees, hwrite, hlog, hsame, hstore]
      rw [hstore] at hnames
      refine Or.inr (.object ?_ (fun k => ?_) hnames)
      · rw [hlocation, hsharing.manifest j]
        exact hsharing.apart i _
      · rw [hlocation]
        exact hsharing.location_ne hne _ _
  | @append group failed call n obj version hphase hcall hmatch hnames hwrite hlog =>
      have hheld := reachable_manifestHeld (hsharing.location_ne_manifest i)
        ((hsharing.manifest i).symm ▸ hstart) hrun (hfits i)
      have hdata := hheld.append_data hcommitting (hfits i) hphase hcall hmatch
      have hitems : (ownedItems group).map Prod.snd = group.map UploadCompletion.item := by
        simp [ownedItems]
      rw [hleft] at hdata
      rw [hstore, hpath] at hnames
      rw [hjoined.sees_write (k := 0) hwrite hlog hsees, hpath, hitems]
      exact Or.inr (.write (Nat.zero_le _) hdata hnames)
  | @others k items obj hk hdata hnames hwrite hlog =>
      have hlength := congrArg List.length hleft
      have hitems : (items.map (Prod.mk (none : Option Nat))).map Prod.snd = items := by
        simp [Function.comp_def]
      rw [List.length_map, List.length_map] at hlength
      rw [List.map_drop, hleft, ← List.map_drop] at hdata
      rw [hstore, hpath] at hnames
      rw [hlength] at hk
      rw [hjoined.sees_write hwrite hlog hsees, hpath, hitems]
      exact Or.inr (.write hk hdata hnames)
  | foreign hmanifest hspared hnames hwrite hlog =>
      rw [hsees, hwrite, hlog, hsame, hstore]
      rw [hstore] at hnames
      rw [hpath] at hmanifest
      exact Or.inr (.object hmanifest (hspared j) hnames)

/-- A batch that does not fit stays on record. -/
theorem FleetKept.fits_before (h : FleetKept fleet store items S) {i : ι}
    (hmoves : FleetMove fleet i (S i) l (T i))
    (hothers : ∀ j, j ≠ i → SeesManifest (T i) (S j) (T j)) (hfits : FitsFormats fleet T) :
    FitsFormats fleet S := by
  have hgrows : ∀ j, ∀ b ∈ emittedOf (S j).hist.cuts, b ∈ emittedOf (T j).hist.cuts := by
    refine all_members (P := fun j (y : State) =>
        ∀ b ∈ emittedOf (S j).hist.cuts, b ∈ emittedOf y.hist.cuts)
      (fun b hb => emitted_mono (h.custody i) hmoves.step hb) fun j hj b hb => ?_
    rw [(hothers j hj).cuts]
    exact hb
  exact fun j b hb => hfits j b (hgrows j b hb)

/-- **A step of the fleet, as one member sees it**, is a step of that member, one of the
others, or nothing. -/
theorem FleetKept.projects (h : FleetKept fleet store items S) (hsharing : Sharing fleet path)
    (hstart : StartsFrom store path items) (hfits : FitsFormats fleet S) {i : ι}
    (hmoves : FleetMove fleet i (S i) l (T i))
    (hothers : ∀ j, j ≠ i → SeesManifest (T i) (S j) (T j)) (j : ι) :
    Run (fleet j) (S j) (T j) := by
  refine all_members (P := fun j (y : State) => Run (fleet j) (S j) y)
    (Reach.refl.tail trivial hmoves.step) (fun j hj => ?_) j
  rcases h.sees_others hsharing hstart hfits hj hmoves.outside (hothers j hj) with heq | hs
  · rw [heq]
    exact .refl
  · exact Reach.refl.tail trivial (.others hs)

/-- **Step rule for the fleet.** -/
theorem FleetKept.step (h : FleetKept fleet store items S) (hsharing : Sharing fleet path)
    (hstart : StartsFrom store path items) {i : ι} (hmoves : FleetMove fleet i (S i) l (T i))
    (hothers : ∀ j, j ≠ i → SeesManifest (T i) (S j) (T j)) : FleetKept fleet store items T := by
  obtain ⟨now, M, hjoined⟩ := h.joined
  obtain ⟨new, hlog⟩ := hmoves.outside.log_grows
  refine ⟨⟨_, _, hjoined.step hlog hothers⟩, ?_, fun hfits j => ?_⟩
  · refine all_members ((h.custody i).step hmoves.step) fun j hj => ?_
    exact (h.custody j).sees (hothers j hj).seesStore
  · have hbefore := h.fits_before hmoves hothers hfits
    exact (h.members hbefore j).trans (h.projects hsharing hstart hbefore hmoves hothers j)

theorem fleetKept_newFleet : FleetKept fleet store items (newFleet fleet store fun _ => items) where
  joined := by
    refine ⟨store, ⟨items.map (Prod.mk none), 0⟩, fun i => rfl, fun i => ?_⟩
    rw [List.map_map]
    rfl
  custody := fun i => custody_newProducer store items
  members := fun _ i => .refl

/-- The fleet is kept in every run. -/
theorem reachable_fleetKept (hsharing : Sharing fleet path) (hstart : StartsFrom store path items)
    (h : ManifestRun fleet (newFleet fleet store fun _ => items) S) :
    FleetKept fleet store items S := by
  refine Reach.invariant fleetKept_newFleet ?_ h
  rintro X l Y hX - ⟨hmoves, hothers⟩
  exact hX.step hsharing hstart hmoves hothers

/-! ## Two producers -/

/-- Two producers with the same configuration. -/
def sampleDuo (i : Bool) : Producer := Producer.new sampleConfig [if i then 114 else 115] sampleZstd

/-- No object of the two is the manifest. -/
theorem sampleDuo_location_ne (i : Bool) (k : Nat) :
    (sampleDuo i).location k ≠ sampleConfig.ManifestPath := by
  intro h
  have hhead : some (100 : UInt8) = some 109 := congrArg List.head? h
  exact absurd (Option.some.inj hhead) (by decide)

/-- Two producers with run IDs of one letter share a manifest. -/
theorem sampleDuo_sharing : Sharing sampleDuo sampleConfig.ManifestPath where
  length := by decide
  distinct := by decide
  manifest := fun _ => rfl
  apart := sampleDuo_location_ne

def duoCompletion (i : Bool) : UploadCompletion :=
  { sampleCompletion with
    eb := { sampleCompletion.eb with location := (sampleDuo i).location 0 } }

/-- The manifest that member `i` writes if it finds none. -/
def duoFirst (i : Bool) : GetResult where
  data := entryFrame (duoCompletion i).item.entry ++ manifestFooter 1 1 0
  version := ⟨"1"⟩

/-- The manifest that the second one makes of the first one's. -/
def duoSecond : GetResult where
  data := entryFrame (duoCompletion true).item.entry ++
    (entryFrame { (duoCompletion false).item.entry with Sequence := 1 } ++ manifestFooter 2 2 0)
  version := ⟨"2"⟩

/-- A member that commits its batch, with the store and the manifest as it finds them. -/
def duoCommitting (i : Bool) (store : ObjectStore) (L : ManifestLog (Option Nat)) (call : CasCall) :
    State :=
  { sampleCommitting with
    committer := ⟨1, [], false, false, .cas [duoCompletion i] [] call⟩
    store := store
    hist := { sampleCommitting.hist with manifest := L } }

/-- A member that has committed its batch. -/
def duoFlushed (i : Bool) (store : ObjectStore) (L : ManifestLog (Option Nat)) : State :=
  { sampleFlushed with
    store := store
    hist := { sampleFlushed.hist with
      handed := [⟨duoCompletion i, none, .committed⟩], manifest := L } }

/-- Runs of a member in which nothing fails. -/
abbrev DuoRun (i : Bool) (s t : State) : Prop := RunWhere (sampleDuo i) (fun _ l => l.Smooth) s t

/-- A member reads the manifest. -/
theorem duo_reads {i : Bool} {store : ObjectStore} {L : ManifestLog (Option Nat)} {n : Nat}
    {call call' : CasCall} (hcall : call.phase = .enqueueing (.reading n))
    (hsettle : (sampleDuo i).settleCas call (afterGet [(duoCompletion i).item] n
      (storeGet store sampleConfig.ManifestPath)) = call') :
    DuoRun i (duoCommitting i store L call) (duoCommitting i store L call') := by
  subst hsettle
  exact Reach.refl.tail (by trivial) (.committer rfl (.cas rfl (.get hcall)))

/-- A member makes a batch, stores its object and finds no manifest. -/
theorem duo_collects (i : Bool) (store : ObjectStore)
    (hnames : store.Names ((sampleDuo i).location 0) sampleObject)
    (hmissing : store.objects sampleConfig.ManifestPath = none) :
    DuoRun i (newProducer (sampleDuo i) store [])
      (duoCommitting i (store.write ((sampleDuo i).location 0) sampleObject) ⟨[], 0⟩
        ⟨0, 0, .enqueueing (.writing 0 (duoFirst i).data none false)⟩) := by
  have hrun := (Reach.refl : DuoRun i (newProducer (sampleDuo i) store []) _)
    |>.tail (by trivial) (.append rfl (.begin [[7]] []))
    |>.tail (by trivial) (.append rfl (.check (i := 0) rfl rfl))
    |>.tail (by trivial) (.append rfl (.reserve (i := 0) rfl rfl rfl sample_isFor))
    |>.tail (by trivial) (.append rfl (.send (i := 0) rfl rfl rfl Nat.zero_lt_one))
    |>.tail (by trivial) (.append rfl (.finish (i := 0) rfl rfl))
    |>.tail (by trivial) (.flush rfl .begin)
    |>.tail (by trivial) (.rotator rfl (.takeFlush (f := 0) rfl rfl rfl))
    |>.tail (by trivial) (.rotator rfl (.drainReceive rfl rfl))
    |>.tail (by trivial) (.rotator rfl (.drainDone rfl rfl))
    |>.tail (by trivial) (.rotator rfl (.acquire rfl rfl))
    |>.tail (by trivial) (.rotator rfl (.reconcile rfl))
    |>.tail (by trivial) (.encoder rfl (.take (i := 0) rfl rfl))
    |>.tail (by trivial) (.encoder rfl (.encoded (i := 0) rfl rfl))
    |>.tail (by trivial) (.uploader rfl (.take (i := 0) (j := 0) rfl rfl rfl))
    |>.tail (by trivial) (.uploader rfl (.putApplies (j := 0) ⟨"a"⟩ rfl hnames))
    |>.tail (by trivial) (.uploader rfl (.putOk (j := 0) rfl))
    |>.tail (by trivial) (.uploader rfl (.complete (j := 0) rfl rfl (Nat.succ_pos _)))
    |>.tail (by trivial) (.committer rfl (.receive rfl rfl rfl))
    |>.tail (by trivial) (.committer rfl (.gatherDone rfl rfl))
    |>.tail (by trivial) (.committer rfl (.collect rfl))
  have hcollected : DuoRun i (newProducer (sampleDuo i) store [])
      (duoCommitting i (store.write ((sampleDuo i).location 0) sampleObject) ⟨[], 0⟩
        ⟨0, 0, .enqueueing (.reading 0)⟩) := hrun
  refine hcollected.trans (duo_reads (n := 0) rfl ?_)
  have hnone : storeGet (store.write ((sampleDuo i).location 0) sampleObject)
      sampleConfig.ManifestPath = .error .notFound := by
    rw [storeGet, Store.write_of_ne _ _ (sampleDuo_location_ne i 0).symm, hmissing]
  rw [hnone]
  cases i <;> rfl

/-- The conditional write of a member takes effect, and everything is answered. -/
theorem duo_commits (i : Bool) {store : ObjectStore} {L : ManifestLog (Option Nat)} {a c n : Nat}
    {obj : GetResult} {version : Option Version}
    (hmatch : store.Matches sampleConfig.ManifestPath version)
    (hnames : store.Names sampleConfig.ManifestPath obj) :
    DuoRun i (duoCommitting i store L ⟨a, c, .enqueueing (.writing n obj.data version false)⟩)
      (duoFlushed i (store.write sampleConfig.ManifestPath obj)
        { L with log := L.log ++ [(some 0, (duoCompletion i).item)] }) := by
  have hrun := (Reach.refl : DuoRun i (duoCommitting i store L
      ⟨a, c, .enqueueing (.writing n obj.data version false)⟩) _)
    |>.tail (by trivial) (.committer rfl
      (@CommitterStep.casApplies _ _ _ _ _ _ obj _ rfl rfl hmatch hnames))
    |>.tail (by trivial) (.committer rfl (.cas rfl (.ok rfl)))
    |>.tail (by trivial) (.committer rfl (.settle rfl rfl (Or.inl rfl)))
    |>.tail (by trivial) (.resolver rfl (.take rfl rfl rfl))
    |>.tail (by trivial) (.resolver rfl (.observe rfl))
    |>.tail (by trivial) (.resolver rfl (.resolve rfl))
    |>.tail (by trivial) (.resolver rfl (.resolvedAll rfl))
    |>.tail (by trivial) (.resolver rfl (.ack rfl rfl rfl rfl))
    |>.tail (by trivial) (.resolver rfl (.release rfl))
    |>.tail (by trivial) (.flush rfl (.receiveAck (f := 0) rfl rfl rfl))
    |>.tail (by trivial) (.flush rfl (.drained (f := 0) rfl rfl rfl))
    |>.tail (by trivial) (.committer rfl (.resolved rfl))
    |>.tail (by trivial) (.committer rfl (.collect rfl))
  exact hrun

/-- Both objects are stored. -/
def duoStore : ObjectStore :=
  (emptyStore.write ((sampleDuo true).location 0) sampleObject).write ((sampleDuo false).location 0)
    sampleObject

/-- Both have uploaded, and there is no manifest yet. -/
theorem duoStore_missing : duoStore.objects sampleConfig.ManifestPath = none := by
  rw [duoStore, Store.write_of_ne _ _ (sampleDuo_location_ne false 0).symm,
    Store.write_of_ne _ _ (sampleDuo_location_ne true 0).symm]
  rfl

/-- The manifest may be given any version. -/
theorem duoStore_names (obj : GetResult) : duoStore.Names sampleConfig.ManifestPath obj := by
  refine Store.names_of_new_path fun h => ?_
  rcases List.mem_cons.mp h with h | h
  · exact sampleDuo_location_ne false 0 h.symm
  · exact sampleDuo_location_ne true 0 (List.mem_singleton.mp h).symm

/-- What a member does without failures it can do in the fleet. -/
theorem DuoRun.moves {i : Bool} (h : DuoRun i s t) :
    Reach (FleetMove sampleDuo i) (fun _ l => l.Smooth) s t := by
  refine RunWhere.fleetMoves (fun _ l hl => ?_) h
  rintro rfl
  exact hl

/-- A member has found no manifest and is about to write one. -/
def duoRacing (i : Bool) : State :=
  duoCommitting i duoStore ⟨[], 0⟩ ⟨0, 0, .enqueueing (.writing 0 (duoFirst i).data none false)⟩

/-- **Two producers race** for the first write of the manifest. -/
theorem duo_races : ∃ S now M, ManifestRun sampleDuo (newFleet sampleDuo emptyStore fun _ => []) S ∧
    Joined S now M ∧ ∀ i, S i = duoRacing i := by
  obtain ⟨now, M, hjoined⟩ : ∃ now M, Joined (newFleet sampleDuo emptyStore fun _ => []) now M :=
    fleetKept_newFleet.joined
  have hfirst := duo_collects true emptyStore (fun _ h => absurd h List.not_mem_nil) rfl
  obtain ⟨S, hS, htrue, hseen, now, M, hjoined⟩ := ManifestRun.of_member hjoined hfirst.moves
  have hfalse : S false = newProducer (sampleDuo false) _ [] := hseen false (by decide)
  have hsecond := duo_collects false (S true).store ?_ ?_
  · rw [htrue] at hsecond
    obtain ⟨T, hT, hTfalse, hseen', now, M, hjoined⟩ :=
      ManifestRun.of_member hjoined (hfalse ▸ hsecond.moves)
    have hTtrue := hseen' true (by decide)
    rw [htrue] at hTtrue
    refine ⟨T, now, M, hS.trans hT, hjoined, fun i => ?_⟩
    cases i with
    | true => exact hTtrue
    | false => exact hTfalse
  · rw [htrue]
    refine Store.names_of_new_path fun h => ?_
    exact absurd (List.mem_singleton.mp h) (sampleDuo_sharing.location_ne (by decide) 0 0)
  · rw [htrue]
    exact (Store.write_of_ne _ _ (sampleDuo_location_ne true 0).symm)

/-- The store and the log after the first write. -/
def duoWon : ObjectStore := duoStore.write sampleConfig.ManifestPath (duoFirst true)

def duoSeen : ManifestLog (Option Nat) := ⟨[(none, (duoCompletion true).item)], 0⟩

/-- The other one, which still takes the manifest for missing. -/
def duoLosing : State :=
  duoCommitting false duoWon duoSeen
    ⟨0, 0, .enqueueing (.writing 0 (duoFirst false).data none false)⟩

/-- It finds that there is a manifest by now, reads it and appends to it. -/
theorem duo_loses : DuoRun false duoLosing
    (duoFlushed false (duoWon.write sampleConfig.ManifestPath duoSecond)
      ⟨[(none, (duoCompletion true).item), (some 0, (duoCompletion false).item)], 0⟩) := by
  have hmatch : duoWon.Matches sampleConfig.ManifestPath (some ⟨"1"⟩) := by
    rw [Store.Matches, duoWon, Store.write_self]
    rfl
  have hconflict : DuoRun false duoLosing (duoCommitting false duoWon duoSeen
      ⟨0, 0, .enqueueing (.reading 1)⟩) := by
    refine Reach.refl.tail (by trivial) (.committer rfl (.cas rfl (.conflict rfl ?_)))
    intro hnone
    cases (show duoWon.Matches sampleConfig.ManifestPath none from hnone).symm.trans hmatch
  have hreads : DuoRun false duoLosing (duoCommitting false duoWon duoSeen
      ⟨0, 0, .enqueueing (.writing 1 duoSecond.data (some ⟨"1"⟩) false)⟩) := by
    refine hconflict.trans (duo_reads (n := 1) rfl ?_)
    rw [storeGet, duoWon, Store.write_self]
    rfl
  exact hreads.trans (duo_commits false hmatch (Store.names_of_new_version (by decide)))

/-- **One of them wins**, and the other one comes through as well. -/
theorem duo_commits_both {S : Bool → State} {now : ObjectStore}
    {M : ManifestLog (Option (Bool × Nat))} (hjoined : Joined S now M)
    (hracing : ∀ i, S i = duoRacing i) :
    ∃ T, ManifestRun sampleDuo S T ∧ ∀ i, ∃ store L, T i = duoFlushed i store L := by
  have hwin : DuoRun true (S true)
      (duoFlushed true duoWon ⟨[(some 0, (duoCompletion true).item)], 0⟩) := by
    rw [hracing true]
    exact duo_commits true (congrArg _ duoStore_missing) (duoStore_names _)
  obtain ⟨T, hT, htrue, hseen, now, M, hjoined⟩ := ManifestRun.of_member hjoined hwin.moves
  have hlosing : T false = duoLosing := by
    rw [hseen false (by decide), hracing false]
    rfl
  obtain ⟨U, hU, hfalse, hseen', -⟩ := ManifestRun.of_member hjoined (hlosing ▸ duo_loses.moves)
  have hstill := hseen' true (by decide)
  rw [htrue] at hstill
  refine ⟨U, hT.trans hU, fun i => ?_⟩
  cases i with
  | true => exact ⟨_, _, hstill⟩
  | false => exact ⟨_, _, hfalse⟩

/-- The batches of the two fit the formats. -/
theorem duoFlushed_fits {S : Bool → State} (h : ∀ i, ∃ store L, S i = duoFlushed i store L) :
    FitsFormats sampleDuo S := by
  intro i b hb
  obtain ⟨store, L, hS⟩ := h i
  rw [hS] at hb
  obtain rfl := List.mem_singleton.mp hb
  cases i <;> exact ⟨by decide, by unfold ItemFits; decide⟩

/-! ## The assumption about the others -/

/-- **The run of a fleet is a run of each of its members.**  Producers share a store and
a manifest, with others outside who append to the manifest and write objects of their
own.  Then each member has come where it is in a run of the model of a single producer,
and whatever the fleet does from there on is a run of that model again. -/
theorem fleet_meets_assumption (hsharing : Sharing fleet path)
    (hstart : StartsFrom store path items)
    (hrun : ManifestRun fleet (newFleet fleet store fun _ => items) S)
    (hafter : ManifestRun fleet S T) (hfits : FitsFormats fleet T) (i : ι) :
    Run (fleet i) (newProducer (fleet i) store items) (S i) ∧ Run (fleet i) (S i) (T i) := by
  have hall := Reach.invariant (P := fun X : ι → State => FleetKept fleet store items X ∧
      (FitsFormats fleet X → FitsFormats fleet S ∧ ∀ i, Run (fleet i) (S i) (X i)))
    ⟨reachable_fleetKept hsharing hstart hrun, fun hX => ⟨hX, fun _ => .refl⟩⟩ ?_ hafter
  · obtain ⟨hbefore, hruns⟩ := hall.2 hfits
    exact ⟨(reachable_fleetKept hsharing hstart hrun).members hbefore i, hruns i⟩
  · rintro X - Y ⟨hX, hXruns⟩ - ⟨hmoves, hothers⟩
    refine ⟨hX.step hsharing hstart hmoves hothers, fun hY => ?_⟩
    have hXfits := hX.fits_before hmoves hothers hY
    obtain ⟨hbefore, hruns⟩ := hXruns hXfits
    exact ⟨hbefore, fun j =>
      (hruns j).trans (hX.projects hsharing hstart hXfits hmoves hothers j)⟩

/-- Two producers race for the first write of the manifest, and both come through. -/
theorem fleet_meets_assumption_duo :
    ∃ S T, ManifestRun sampleDuo (newFleet sampleDuo emptyStore fun _ => []) S ∧
      ManifestRun sampleDuo S T ∧ ∀ i, S i = duoRacing i ∧ (T i).watcherResult 0 = some none ∧
        Run (sampleDuo i) (newProducer (sampleDuo i) emptyStore []) (S i) ∧
        Run (sampleDuo i) (S i) (T i) := by
  obtain ⟨S, now, M, hS, hjoined, hracing⟩ := duo_races
  obtain ⟨T, hT, hflushed⟩ := duo_commits_both hjoined hracing
  refine ⟨S, T, hS, hT, fun i => ⟨hracing i, ?_, ?_⟩⟩
  · obtain ⟨store, L, heq⟩ := hflushed i
    rw [heq]
    rfl
  · exact fleet_meets_assumption sampleDuo_sharing (emptyStore_startsFrom _) hS hT
      (duoFlushed_fits hflushed) i

/-! ## Durability of all members -/

omit [DecidableEq ι] in
/-- Entries of the log stay. -/
theorem ManifestRun.log_grows (h : ManifestRun fleet S T) (i : ι) :
    (S i).hist.manifest.log <+: (T i).hist.manifest.log := by
  refine EnsembleRun.invariant
    (P := fun i x => (S i).hist.manifest.log <+: x.hist.manifest.log)
    (fun i => List.prefix_refl _) ?_ ?_ h i
  · intro i x l y hprefix hs
    obtain ⟨new, hlog⟩ := hs.outside.log_grows
    rw [hlog]
    exact hprefix.trans (List.prefix_append _ _)
  · intro i other x y hprefix hsees
    rw [hsees]
    exact hprefix.trans (List.prefix_append _ _)

/-- The manifest object holds the common log. -/
theorem FleetKept.holds (h : FleetKept fleet store items S) (hsharing : Sharing fleet path)
    (hstart : StartsFrom store path items) (hfits : FitsFormats fleet S) {now : ObjectStore}
    (hjoined : Joined S now M) (i : ι) : Holds now path M := by
  have hheld := reachable_manifestHeld (hsharing.location_ne_manifest i)
    ((hsharing.manifest i).symm ▸ hstart) (h.members hfits i) (hfits i)
  have hholds := hheld.holds
  rw [hsharing.manifest i, hjoined.store i] at hholds
  exact hholds.of_same_items (hjoined.map_snd i).symm (hjoined.dropped i).symm

/-- An entry of a member names the object of one of its batches. -/
theorem FleetKept.entry_stored (h : FleetKept fleet store items S) (hsharing : Sharing fleet path)
    (hfits : FitsFormats fleet S) {now : ObjectStore} (hjoined : Joined S now M) {i : ι} {k : Nat}
    {item : EnqueueItem} (hmem : (some (i, k), item) ∈ M.log) :
    ∃ b ∈ emittedOf (S i).hist.cuts, b.ordinal = k ∧ item = (fleet i).itemOf b ∧
      (fleet i).Stored now b := by
  have hrun := h.members hfits i
  rw [← hjoined.store i]
  exact (reachable_committing hrun).entry_stored
    (reachable_entriesStored (hsharing.location_ne_manifest i) hrun) (hjoined.entry.mpr hmem)

/-- The batch of a watcher resolved with nil is in the common log. -/
theorem FleetKept.resolved_entry (h : FleetKept fleet store items S) (hfits : FitsFormats fleet S)
    {now : ObjectStore} (hjoined : Joined S now M) {i : ι} {w : Nat}
    (hw : (S i).watcherResult w = some none) :
    ∃ b ∈ emittedOf (S i).hist.cuts, (∃ m ∈ b.msgs, m.watcher = w) ∧
      (some (i, b.ordinal), (fleet i).itemOf b) ∈ M.log := by
  have hrun := h.members hfits i
  obtain ⟨b, hemitted, hwatcher, hmem⟩ := (reachable_committing hrun).resolved_entry
    (reachable_books hrun) (reachable_appendCalls hrun) hw
  exact ⟨b, hemitted, hwatcher, hjoined.entry.mp hmem⟩

/-- **Durability for all members at once.**  In every run of any number of producers
on one manifest there is one log, from which each member's record is obtained by
hiding the other owners, and the manifest object decodes to the part of it that
consumers have left; where there is no such object the log is empty.  Every entry that
some member owns names an object that decodes to the entries of that member's batch;
the batch of every watcher that any member has resolved with nil has such an entry;
and no later step of anybody takes an entry out of the log. -/
theorem fleet_durable [Nonempty ι] (hz : ∀ i, (fleet i).zstd.Lawful) (hsharing : Sharing fleet path)
    (hstart : StartsFrom store path items)
    (hrun : ManifestRun fleet (newFleet fleet store fun _ => items) S)
    (hfits : FitsFormats fleet S) :
    (∃ now M, Joined S now M ∧
      (now.objects path = none → M.log = []) ∧
      (∀ obj, now.objects path = some obj → ∃ entries,
        DecodeManifestEntries obj.data = .ok entries ∧
          entries.map QueueEntry.item = (M.log.drop M.dropped).map Prod.snd) ∧
      (∀ i k item, (some (i, k), item) ∈ M.log → ∃ b ∈ emittedOf (S i).hist.cuts,
        b.ordinal = k ∧ item.Metadata = b.metadata ∧
          ∃ obj, now.objects item.Location = some obj ∧
            DecodeBatch (fleet i).zstd obj.data = .ok b.entriesOf) ∧
      ∀ i w, (S i).watcherResult w = some none → ∃ b ∈ emittedOf (S i).hist.cuts,
        (∃ m ∈ b.msgs, m.watcher = w) ∧ (some (i, b.ordinal), (fleet i).itemOf b) ∈ M.log) ∧
    ∀ T, ManifestRun fleet S T → ∀ i, (S i).hist.manifest.log <+: (T i).hist.manifest.log := by
  have hkept := reachable_fleetKept hsharing hstart hrun
  obtain ⟨now, M, hjoined⟩ := hkept.joined
  obtain ⟨i₀⟩ := ‹Nonempty ι›
  have hholds := hkept.holds hsharing hstart hfits hjoined i₀
  refine ⟨⟨now, M, hjoined, fun hnone => (hholds.missing hnone).1,
    fun obj hobj => hholds.decodes hobj, ?_, ?_⟩, fun T hT i => hT.log_grows i⟩
  · intro i k item hmem
    obtain ⟨b, hemitted, hk, rfl, obj, hobj, hdata⟩ :=
      hkept.entry_stored hsharing hfits hjoined hmem
    exact ⟨b, hemitted, hk, rfl, obj, hobj,
      decodeBatch_encodeBatch (hz i) (hfits i b hemitted).count hdata⟩
  · exact fun i w hw => hkept.resolved_entry hfits hjoined hw

/-- Both members have an entry in the log. -/
theorem fleet_durable_duo :
    ∃ S now M, ManifestRun sampleDuo (newFleet sampleDuo emptyStore fun _ => []) S ∧
      Joined S now M ∧ ∀ i, (S i).watcherResult 0 = some none ∧
        ∃ b, (some (i, b.ordinal), (sampleDuo i).itemOf b) ∈ M.log := by
  obtain ⟨R, now, M, hR, hjoined, hracing⟩ := duo_races
  obtain ⟨S, hS, hflushed⟩ := duo_commits_both hjoined hracing
  have hresult : ∀ i, (S i).watcherResult 0 = some none := by
    intro i
    obtain ⟨store, L, heq⟩ := hflushed i
    rw [heq]
    rfl
  obtain ⟨⟨now, M, hjoined, -, -, -, hnil⟩, -⟩ := fleet_durable (fun _ => sampleZstd_lawful)
    sampleDuo_sharing (emptyStore_startsFrom _) (hR.trans hS) (duoFlushed_fits hflushed)
  refine ⟨S, now, M, hR.trans hS, hjoined, fun i => ⟨hresult i, ?_⟩⟩
  obtain ⟨b, -, -, hentry⟩ := hnil i 0 (hresult i)
  exact ⟨b, hentry⟩

end Common

end OpenDataBuffer
