import OpenDataBuffer.AtRest
import OpenDataBuffer.FleetManifest

/-!
# A fleet cannot livelock

`enqueueBatch` answers a conflict by reading the manifest again, as often as it takes.
A single producer next to a party that always gets in first would never be done.
Producers among themselves are: a conflict needs a write that took effect, so for every
round one of them loses another one has got through, and what it got through is work
that is done for good.

The work that is left of the fleet is the sum over its members, where whoever writes to
the store pays for the conflict that each of the others may have because of it
(`work_pays`, `work_sees`).
-/

namespace OpenDataBuffer

open LabelledRuns Ensembles

variable {ι : Type} {fleet : ι → Producer} {S T : ι → State} {p : Producer} {other x y : State}

/-! ## What a member keeps -/

theorem Books.sees (h : Books x) (hsees : SeesManifest other x y) : Books y := by
  subst hsees
  exact ⟨h.custody.sees ⟨_, rfl⟩, h.accounted, h.barrier⟩

theorem AppendCalls.sees (h : AppendCalls x) (hsees : SeesManifest other x y) : AppendCalls y := by
  subst hsees
  exact h.of_same rfl rfl

theorem Stages.sees (h : Stages p x) (hsees : SeesManifest other x y) : Stages p y := by
  subst hsees
  exact { h with }

theorem FlushCalls.sees (h : FlushCalls x) (hsees : SeesManifest other x y) : FlushCalls y := by
  subst hsees
  exact { h with }

theorem Waiting.sees (h : Waiting x) (hsees : SeesManifest other x y) : Waiting y := by
  subst hsees
  exact { h with }

/-- What a producer keeps it keeps when another member writes the manifest. -/
theorem Sustained.sees (h : Sustained p x) (hsees : SeesManifest other x y) : Sustained p y where
  books := h.books.sees hsees
  stages := h.stages.sees hsees
  order := by
    subst hsees
    exact h.order.of_same rfl rfl rfl
  appends := h.appends.sees hsees
  flushes := h.flushes.sees hsees
  waiting := h.waiting.sees hsees
  cap := by
    subst hsees
    exact h.cap
  cuts := by
    subst hsees
    exact h.cuts
  awaits := by
    subst hsees
    exact h.awaits
  closing := by
    subst hsees
    have hclosing := h.closing
    cases hphase : x.close <;> rw [hphase] at hclosing <;> exact hclosing
  unclosed := by
    subst hsees
    exact h.unclosed

/-! ## What the members have in common -/

section Fleet

variable {store : ObjectStore} {items : List EnqueueItem}

/-- Every member has what it needs to go on, whatever the others do. -/
theorem reachable_fleet_sustained (hrun : ManifestRun fleet (newFleet fleet store fun _ => items) S)
    (i : ι) : Sustained (fleet i) (S i) :=
  EnsembleRun.invariant (P := fun i x => Sustained (fleet i) x)
    (fun _ => sustained_newProducer store items) (fun _ _ _ _ hx hs => hx.step hs.step)
    (fun _ _ _ _ hx hsees => hx.sees hsees) hrun i

/-- There is one store. -/
theorem reachable_one_store (hrun : ManifestRun fleet (newFleet fleet store fun _ => items) S) :
    ∀ i j, (S i).store = (S j).store := by
  refine Reach.invariant (P := fun X : ι → State => ∀ i j, (X i).store = (X j).store)
    (fun _ _ => rfl) ?_ hrun
  rintro X - Y - - ⟨-, hothers⟩
  rename_i i _
  have hseen : ∀ j, (Y j).store = (Y i).store := by
    refine all_members (P := fun _ (y : State) => y.store = (Y i).store) rfl fun j hj => ?_
    rw [hothers j hj]
  exact fun j k => (hseen j).trans (hseen k).symm

/-! ## The work of the fleet -/

/-- A member takes a step. -/
abbrev FleetStep (fleet : ι → Producer) : (ι → State) → ι × Label → (ι → State) → Prop :=
  MemberStep (FleetMove fleet) SeesManifest

/-- The runs in which the members only do what they have to do by themselves. -/
abbrev OwnFleetRun (fleet : ι → Producer) (S T : ι → State) : Prop :=
  Reach (FleetStep fleet) (fun _ il => il.2.Own) S T

/-- The calls of `AppendContext` and of `Flush` that were made. -/
def State.calls (s : State) : Nat := s.appends.length + s.flushes.length

variable {il : ι × Label}

/-- Steps of the producers' own code make no calls. -/
theorem fleet_calls_own (hs : FleetStep fleet S il T) (hl : il.2.Own) (j : ι) :
    (T j).calls = (S j).calls := by
  cases hs with
  | moves hmoves hothers =>
      have hmoved := calls_own hmoves.step hl
      refine all_members (P := fun j (y : State) => y.calls = (S j).calls) hmoved (fun k hk => ?_) j
      rw [hothers k hk]
      rfl

/-- Steps of the producers' own code do not call `Close`. -/
theorem fleet_close_own (hs : FleetStep fleet S il T) (hl : il.2.Own) {j : ι}
    (h : (S j).close = .notCalled) : (T j).close = .notCalled := by
  cases hs with
  | @moves i l _ hmoves hothers =>
      by_cases hj : j = i
      · subst hj
        exact close_own hmoves.step hl h
      · rw [hothers j hj]
        exact h

/-- The work that is left.  A write may cost each of the others two more steps. -/
def fleetWork [Fintype ι] (fleet : ι → Producer) (calls : ι → Nat) (S : ι → State) : Nat :=
  ∑ i, (S i).work (fleet i) (calls i) (2 * Fintype.card ι)

/-- **Every step of a member makes the work of the fleet less.** -/
theorem fleetWork_decreases [Fintype ι] {calls : ι → Nat}
    (hrun : ManifestRun fleet (newFleet fleet store fun _ => items) S)
    (hcalls : ∀ i, (S i).calls = calls i) (hs : FleetStep fleet S il T) (hl : il.2.Own) :
    fleetWork fleet calls T < fleetWork fleet calls S := by
  let work : ι → State → Nat := fun j x => x.work (fleet j) (calls j) (2 * Fintype.card ι)
  cases hs with
  | @moves i l _ hmoves hothers =>
      have hmember := reachable_fleet_sustained hrun i
      rcases work_pays (n := calls i) (k := 2 * Fintype.card ι) hmoves.step hl with hsame | hpaid
      · -- The store is as it was, and the others have the work they had.
        have hless : work i (T i) < work i (S i) := work_decreases hmember.waiting.budget.channels
          (hmember.step hmoves.step).cuts (Nat.le_of_eq (hcalls i)) hmoves.step hl
        refine potential_decreases work 0 (by simpa using hless) fun j hj => ?_
        have hstore : (T i).store = (S j).store := hsame.trans (reachable_one_store hrun i j)
        rw [hothers j hj, hstore]
        exact Nat.le_refl _
      · refine potential_decreases work 2 hpaid fun j hj => ?_
        rw [hothers j hj]
        exact work_sees _ _ _

/-! ## Coming to rest -/

/-- A member that is not at rest can move, whatever the others do. -/
theorem exists_fleetStep (h : ¬ ∀ i, AtRest (fleet i) (S i)) :
    ∃ (il : ι × Label) (T : ι → State), il.2.Own ∧ FleetStep fleet S il T := by
  classical
  obtain ⟨i, hbusy⟩ := not_forall.mp h
  obtain ⟨l, t, hl, hs⟩ := exists_step_of_not_atRest hbusy
  choose view hview using exists_seesManifest t
  refine ⟨(i, l), fun j => if j = i then t else view (S j), hl, .moves ?_ fun j hj => ?_⟩
  · simpa using FleetMove.of_own hs hl.2
  · simpa [hj] using hview (S j)

/-- **A fleet comes to rest.**  Finitely many producers share a store and a manifest.
From every state they can reach, as long as no new call is made, no context fires and
nobody else writes to the store, which reports a failed precondition only where the
version does not match: the members take no infinite sequence of steps, whatever the
scheduler does and however store calls fail, so their conflicts over the manifest come
to an end; some run of the fleet ends; a member whose `Close` was not called does
not panic; and where a run ends, every member that did not panic has done all it had to
do. -/
theorem fleet_comes_to_rest [Fintype ι]
    (hrun : ManifestRun fleet (newFleet fleet store fun _ => items) S) :
    (∀ f : Nat → ι → State, f 0 = S →
      ¬ ∀ k, ∃ il : ι × Label, il.2.Own ∧ FleetStep fleet (f k) il (f (k + 1))) ∧
    (∃ T, OwnFleetRun fleet S T ∧ ∀ i, AtRest (fleet i) (T i)) ∧
    (∀ i, (S i).close = .notCalled → ∀ T, OwnFleetRun fleet S T → (T i).panicked = none) ∧
    ∀ T, OwnFleetRun fleet S T → ∀ i, AtRest (fleet i) (T i) → (T i).panicked = none →
      Settled (T i) := by
  let calls : ι → Nat := fun i => (S i).calls
  let P : (ι → State) → Prop := fun X =>
    ManifestRun fleet (newFleet fleet store fun _ => items) X ∧ ∀ i, (X i).calls = calls i
  have hstart : P S := ⟨hrun, fun _ => rfl⟩
  have hkeep : ∀ X il Y, P X → il.2.Own → FleetStep fleet X il Y → P Y := fun X il Y hX hl hs =>
    ⟨hX.1.tail trivial hs, fun i => (fleet_calls_own hs hl i).trans (hX.2 i)⟩
  have hless : ∀ X il Y, P X → il.2.Own → FleetStep fleet X il Y →
      fleetWork fleet calls Y < fleetWork fleet calls X := fun X il Y hX hl hs =>
    fleetWork_decreases hX.1 hX.2 hs hl
  refine ⟨?_, ?_, ?_, ?_⟩
  · rintro f rfl
    exact not_endless (fleetWork fleet calls) hkeep hless f hstart
  · have hstep : ∀ X, P X → ¬ (∀ i, AtRest (fleet i) (X i)) → ∃ il Y, il.2.Own ∧
        FleetStep fleet X il Y ∧ P Y ∧ fleetWork fleet calls Y < fleetWork fleet calls X := by
      intro X hX hbusy
      obtain ⟨il, Y, hl, hs⟩ := exists_fleetStep hbusy
      exact ⟨il, Y, hl, hs, hkeep X il Y hX hl hs, hless X il Y hX hl hs⟩
    obtain ⟨T, hT, _, hrest⟩ := Reach.exists_final (fleetWork fleet calls) hstep hstart
    exact ⟨T, hT, hrest⟩
  · intro i hnever T hT
    have hstays : ∀ X il Y, (X i).close = .notCalled → il.2.Own → FleetStep fleet X il Y →
        (Y i).close = .notCalled := fun X il Y hX hl hs => fleet_close_own hs hl hX
    have hstill := hT.invariant (P := fun X : ι → State => (X i).close = .notCalled) hnever hstays
    exact (reachable_fleet_sustained (hT.invariant hstart hkeep).1 i).running hstill
  · intro T hT i hrest hrunning
    exact (reachable_fleet_sustained (hT.invariant hstart hkeep).1 i).settled hrunning hrest

end Fleet

/-- Two producers race for the first write of the manifest, each with a flush that waits
for it. -/
theorem fleet_comes_to_rest_duo :
    ∃ S T, ManifestRun sampleDuo (newFleet sampleDuo emptyStore fun _ => []) S ∧
      (∀ i, S i = duoRacing i ∧ (S i).Awaited) ∧ OwnFleetRun sampleDuo S T ∧
      ∀ i, Settled (T i) := by
  obtain ⟨S, -, -, hS, -, hracing⟩ := duo_races
  obtain ⟨_, ⟨T, hT, hrest⟩, hrunning, hsettled⟩ := fleet_comes_to_rest hS
  refine ⟨S, T, hS, fun i => ⟨hracing i, ?_⟩, hT, fun i =>
    hsettled T hT i (hrest i) (hrunning i ?_ T hT)⟩
  · rw [hracing i]
    exact .answer sampleMessage List.mem_cons_self rfl
  · rw [hracing i]
    rfl

end OpenDataBuffer
