import OpenDataBuffer.Exporter

/-!
# An exporter over its whole life

Two things hold in every run of an exporter, whatever `Start`, `Shutdown` and the
requests do to each other.

* A producer is taken by one `Shutdown` and closed by it once, and the callback of the
  age gauge does not read a producer that is being closed (`exporter_closes_once`).
* The counters are exact: each request is counted once, and once more where it ends
  (`requests_accounted`).

Seen from the store, the producers that are made one after the other run side by side
(`ExporterRun.fleet`).
-/

namespace OpenDataBuffer

open LabelledRuns Ensembles ListUpdate

section Members

variable {p : Producer} {s t : State} {k : Label}

/-! ## What the producers keep -/

/-- Resolutions are recorded one behind the other. -/
theorem resolved_prefix (hs : ProducerStep p s k t) : s.hist.resolved <+: t.hist.resolved := by
  cases hs with
  | append _ hs => cases hs <;> exact List.prefix_rfl
  | rotator _ hs =>
      cases hs with
      | dropResolve => exact List.prefix_append _ _
      | _ => exact List.prefix_rfl
  | flush _ hs => cases hs <;> exact List.prefix_rfl
  | close _ hs => cases hs <;> exact List.prefix_rfl
  | encoder _ hs => cases hs <;> exact List.prefix_rfl
  | uploader _ hs => cases hs <;> exact List.prefix_rfl
  | committer _ hs => cases hs <;> exact List.prefix_rfl
  | resolver _ hs =>
      cases hs with
      | resolve => exact List.prefix_append _ _
      | _ => exact List.prefix_rfl
  | others hs => cases hs <;> exact List.prefix_rfl

/-- A watcher has its first result for good. -/
theorem watcherResult_stays (hs : ProducerStep p s k t) {w : Nat} {res : Option BufferError}
    (h : s.watcherResult w = some res) : t.watcherResult w = some res := by
  obtain ⟨r, hr, rfl⟩ := Option.map_eq_some_iff.mp h
  obtain ⟨more, hmore⟩ := resolved_prefix hs
  rw [State.watcherResult, ← hmore, List.find?_append, hr]
  rfl

/-- Only callers begin append calls. -/
theorem appends_length (hs : ProducerStep p s k t) (hown : k ≠ .call) :
    t.appends.length = s.appends.length := by
  cases hs with
  | append _ hs =>
      cases hs with
      | begin => exact absurd rfl hown
      | _ => simp
  | rotator _ hs => cases hs <;> simp
  | flush _ hs => cases hs <;> rfl
  | close _ hs => cases hs <;> rfl
  | encoder _ hs => cases hs <;> rfl
  | uploader _ hs => cases hs <;> rfl
  | committer _ hs => cases hs <;> rfl
  | resolver _ hs => cases hs <;> rfl
  | others hs => cases hs <;> rfl

/-- Only callers call `Close`, and a call of it is not forgotten. -/
theorem close_called (hs : ProducerStep p s k t) (hown : k ≠ .call) :
    t.close = .notCalled ↔ s.close = .notCalled := by
  cases hs with
  | close _ hs =>
      cases hs with
      | begin => exact absurd rfl hown
      | flushed hphase | closeAppendCh hphase | wait hphase | expired hphase | force hphase
      | finish hphase => simp [hphase]
  | append _ hs => cases hs <;> exact Iff.rfl
  | rotator _ hs => cases hs <;> exact Iff.rfl
  | flush _ hs => cases hs <;> exact Iff.rfl
  | encoder _ hs => cases hs <;> exact Iff.rfl
  | uploader _ hs => cases hs <;> exact Iff.rfl
  | committer _ hs => cases hs <;> exact Iff.rfl
  | resolver _ hs => cases hs <;> exact Iff.rfl
  | others hs => cases hs <;> exact Iff.rfl

/-- What the producers keep of their calls and results. -/
structure ProducersKeep (S T : Nat → State) : Prop where
  calls : ∀ (g i : Nat) (c : AppendCall), (S g).appends[i]? = some c →
    ∃ c', (T g).appends[i]? = some c' ∧ c.Continues c'
  results : ∀ (g w : Nat) (res : Option BufferError),
    (S g).watcherResult w = some res → (T g).watcherResult w = some res

theorem ProducersKeep.refl (S : Nat → State) : ProducersKeep S S :=
  ⟨fun _ _ c h => ⟨c, h, .refl c⟩, fun _ _ _ h => h⟩

/-- One producer moves, and the others see what it does to the manifest. -/
theorem ProducersKeep.of_member {S T : Nat → State} {g : Nat}
    (hmoves : ProducerStep p (S g) k (T g))
    (hothers : ∀ j, j ≠ g → SeesManifest (T g) (S j) (T j)) : ProducersKeep S T := by
  refine ⟨fun j i c hc => ?_, fun j w res hres => ?_⟩
  · by_cases hj : j = g
    · subst hj
      exact call_continues hmoves hc
    · rw [hothers j hj]
      exact ⟨c, hc, .refl c⟩
  · by_cases hj : j = g
    · subst hj
      exact watcherResult_stays hmoves hres
    · rw [hothers j hj]
      exact hres

end Members

variable {Q : Type} {e : Exporter Q} {x y : ExporterState} {l : ExporterLabel}
  {allowed : ExporterState → ExporterLabel → Prop} {store : ObjectStore} {items : List EnqueueItem}

/-- No step takes back what a producer has answered. -/
theorem ExporterStep.keeps (h : ExporterStep e x l y) : ProducersKeep x.producers y.producers := by
  rcases h.member with heq | ⟨g, k, -, hmoves, hothers⟩
  · rw [heq]
    exact .refl _
  · exact .of_member hmoves.step hothers

/-! ## Start and Shutdown -/

/-- The request has found this producer. -/
def Request.Found (r : Request) (g : Nat) : Prop :=
  r.phase = .found g ∨ ∃ call, r.handle = some (g, call)

/-- The producers are made and taken in order: `Shutdown` call `i` takes producer `i`. -/
structure Lifecycle (x : ExporterState) : Prop where
  publishing : ∀ g, x.publishing = some g → x.producer = some g
  live : ∀ g, x.producer = some g → g = x.shutdowns.length
  made : x.generations = x.shutdowns.length + if x.producer.isSome then 1 else 0
  taken : ∀ (i : Nat) (c : ShutdownCall), x.shutdowns[i]? = some c → c.generation = i
  gauge : ∀ g, x.gauge = some g →
    x.producer = some g ∨ x.shutdowns[g]? = some ⟨g, .detaching⟩
  called : ∀ g, (x.producers g).close = .notCalled ↔ x.shutdowns[g]? ≠ some ⟨g, .called⟩
  found : ∀ r ∈ x.requests, ∀ g, r.Found g → g < x.generations

/-- The live producer is one that was made. -/
theorem Lifecycle.live_lt (h : Lifecycle x) {g : Nat} (hg : x.producer = some g) :
    g < x.generations := by
  have hmade := h.made
  simp only [hg, Option.isSome_some, if_true] at hmade
  rw [h.live g hg, hmade]
  exact Nat.lt_succ_self _

/-- A producer that a `Shutdown` took is one that was made. -/
theorem Lifecycle.taken_lt (h : Lifecycle x) {i : Nat} {c : ShutdownCall}
    (hc : x.shutdowns[i]? = some c) : c.generation < x.generations := by
  have hlt := (List.getElem?_eq_some_iff.mp hc).1
  rw [h.taken i c hc, h.made]
  exact Nat.lt_add_right _ hlt

/-- A producer moves, and `Close` is not called. -/
theorem Lifecycle.member (h : Lifecycle x) {g : Nat} {T : Nat → State}
    (hself : (T g).close = .notCalled ↔ (x.producers g).close = .notCalled)
    (hothers : ∀ j, j ≠ g → SeesManifest (T g) (x.producers j) (T j)) :
    Lifecycle { x with producers := T } := by
  have hclose : ∀ j, (T j).close = .notCalled ↔ (x.producers j).close = .notCalled := by
    refine all_members (P := fun j (s : State) =>
      s.close = .notCalled ↔ (x.producers j).close = .notCalled) hself fun j hj => ?_
    rw [hothers j hj]
  exact ⟨h.publishing, h.live, h.made, h.taken, h.gauge, fun g => (hclose g).trans (h.called g),
    h.found⟩

/-- A `Shutdown` call moves on; the gauge reads no producer it has taken. -/
theorem Lifecycle.moves (h : Lifecycle x) {i g : Nat} {phase phase' : ShutdownPhase}
    (hcall : x.shutdowns[i]? = some ⟨g, phase⟩)
    (gauge : Option Nat) (hgauge : ∀ j, gauge = some j → x.gauge = some j ∧ j ≠ i)
    (T : Nat → State) (hclose : ∀ j, j ≠ i →
      ((T j).close = .notCalled ↔ (x.producers j).close = .notCalled))
    (hself : (T i).close = .notCalled ↔ phase' ≠ .called) :
    Lifecycle { x with
      gauge := gauge, shutdowns := x.shutdowns.set i ⟨g, phase'⟩, producers := T } where
  publishing := h.publishing
  live := by
    intro j hj
    rw [List.length_set]
    exact h.live j hj
  made := by
    rw [List.length_set]
    exact h.made
  taken := by
    intro j c hc
    rcases getElem?_set_cases hc with ⟨rfl, rfl⟩ | ⟨_, hold⟩
    · exact h.taken j ⟨g, phase⟩ hcall
    · exact h.taken j c hold
  gauge := by
    intro j hj
    obtain ⟨hold, hne⟩ := hgauge j hj
    rw [List.getElem?_set_ne (Ne.symm hne)]
    exact h.gauge j hold
  called := by
    intro j
    by_cases hj : j = i
    · subst hj
      obtain rfl : g = j := h.taken j _ hcall
      rw [getElem?_set_same hcall]
      simpa using hself
    · rw [List.getElem?_set_ne (Ne.symm hj)]
      exact (hclose j hj).trans (h.called j)
  found := h.found

/-- `Start` and `Shutdown` keep the books of the producers. -/
theorem LifecycleStep.lifecycle (h : Lifecycle x) (hs : LifecycleStep e x l y) : Lifecycle y := by
  cases hs with
  | startInvalid => exact h
  | startAgain => exact h
  | startFails => exact h
  | shutdownIdle => exact h
  | startCreates hcheck hmu hidle =>
      have hmade : x.generations = x.shutdowns.length := by simpa [hidle] using h.made
      refine ⟨fun g hg => hg, fun g hg => ?_, ?_, h.taken, fun g hg => ?_, h.called,
        fun r hr g hg => ?_⟩
      · exact (Option.some.inj hg).symm.trans hmade
      · simp [hmade]
      · rcases h.gauge g hg with hlive | hdetaching
        · rw [hidle] at hlive
          cases hlive
        · exact Or.inr hdetaching
      · exact Nat.lt_succ_of_lt (h.found r hr g hg)
  | startPublishes hmu =>
      refine ⟨fun g hg => (by cases hg), h.live, h.made, h.taken, fun g hg => ?_, h.called,
        h.found⟩
      obtain rfl := Option.some.inj hg
      exact Or.inl (h.publishing _ hmu)
  | @shutdownTakes g hmu hlive =>
      obtain rfl : g = x.shutdowns.length := h.live g hlive
      refine ⟨fun j hj => ?_, fun j hj => (by cases hj), ?_, fun i c hc => ?_, fun j hj => ?_,
        fun j => ?_, h.found⟩
      · rw [hmu] at hj
        cases hj
      · simpa [hlive] using h.made
      · rcases getElem?_concat_cases hc with ⟨rfl, rfl⟩ | hold
        · rfl
        · exact h.taken i c hold
      · rcases h.gauge j hj with hj | hdetaching
        · obtain rfl : _ = j := Option.some.inj (hlive.symm.trans hj)
          exact Or.inr (by simp)
        · have hlt := (List.getElem?_eq_some_iff.mp hdetaching).1
          exact Or.inr ((List.getElem?_append_left hlt).trans hdetaching)
      · refine (h.called j).trans (not_congr ⟨fun hj => ?_, fun hj => ?_⟩)
        · have hlt := (List.getElem?_eq_some_iff.mp hj).1
          exact (List.getElem?_append_left hlt).trans hj
        · rcases getElem?_concat_cases hj with ⟨_, hnew⟩ | hold
          · cases hnew
          · exact hold
  | @shutdownDetaches i g hcall =>
      have hnot : x.shutdowns[i]? ≠ some ⟨i, .called⟩ := by simp [hcall]
      exact h.moves hcall none (fun j hj => by cases hj) x.producers
        (fun _ _ => Iff.rfl) ⟨fun _ => by decide, fun _ => (h.called i).mpr hnot⟩
  | @shutdownCloses i g T hcall hclose hothers =>
      obtain rfl : g = i := h.taken i _ hcall
      refine h.moves hcall x.gauge (fun j hj => ⟨hj, ?_⟩) T (fun j hj => ?_) ?_
      · rintro rfl
        rcases h.gauge j hj with hlive | hdetaching
        · have hlt := (List.getElem?_eq_some_iff.mp hcall).1
          exact absurd (h.live j hlive) (Nat.ne_of_lt hlt)
        · rw [hcall] at hdetaching
          cases hdetaching
      · rw [hothers j hj]
      · have hbegun : (T g).close ≠ .notCalled := by
          generalize T g = t at hclose
          cases hclose
          simp
        simp [hbegun]
  | @shutdownCtxDone g f c T text hclose hcall hctx hdone hothers =>
      refine h.member (g := g) ?_ hothers
      rw [hdone]

/-- A request that moves on by itself keeps its handle. -/
theorem RequestMove.handle {r r' : Request} {c : Counters} (h : RequestMove e x r r' c) :
    r'.handle = r.handle := by
  cases h <;> rfl

/-- A request finds the live producer. -/
theorem RequestMove.found {r r' : Request} {c : Counters} (h : RequestMove e x r r' c) {g : Nat}
    (hg : r'.Found g) : r.Found g ∨ x.producer = some g := by
  rcases hg with hg | ⟨call, hhandle⟩
  · cases h with
    | ctxDone => exact Or.inl (Or.inl hg)
    | finds hphase hmu hlive =>
        obtain rfl : _ = g := RequestPhase.found.inj hg
        exact Or.inr hlive
    | _ => cases hg
  · exact Or.inl (Or.inr ⟨call, h.handle.symm.trans hhandle⟩)

/-- **Step rule for the lifecycle.** -/
theorem Lifecycle.step (h : Lifecycle x) (hs : ExporterStep e x l y) : Lifecycle y := by
  cases hs with
  | lifecycle _ hs => exact hs.lifecycle h
  | request _ hs =>
      cases hs with
      | begin received marshaled =>
          refine ⟨h.publishing, h.live, h.made, h.taken, h.gauge, h.called, fun r hr g hg => ?_⟩
          rcases List.mem_append.mp hr with hold | hnew
          · exact h.found r hold g hg
          · obtain rfl := List.mem_singleton.mp hnew
            rcases hg with hg | ⟨_, hg⟩ <;> cases hg
      | @moves i r r' c hr hmove =>
          refine ⟨h.publishing, h.live, h.made, h.taken, h.gauge, h.called, fun q hq g hg => ?_⟩
          rcases List.mem_or_eq_of_mem_set hq with hold | rfl
          · exact h.found q hold g hg
          · rcases hmove.found hg with hsame | hlive
            · exact h.found r (List.mem_of_getElem? hr) g hsame
            · exact h.live_lt hlive
      | @appends i g r payload T hr hphase hmarshal hbegin hothers =>
          have hkept := h.member (T := T) (by rw [hbegin]) hothers
          refine ⟨hkept.publishing, hkept.live, hkept.made, hkept.taken, hkept.gauge, hkept.called,
            fun q hq j hj => ?_⟩
          rcases List.mem_or_eq_of_mem_set hq with hold | rfl
          · exact h.found q hold j hj
          · rcases hj with hj | ⟨_, hj⟩
            · cases hj
            · obtain ⟨rfl, -⟩ := Prod.mk.inj (Option.some.inj hj)
              exact h.found r (List.mem_of_getElem? hr) g (Or.inl hphase)
  | producer hmade hown hmoves hothers _ _ hy =>
      subst hy
      exact h.member (close_called hmoves.step hown) hothers

theorem lifecycle_newExporter : Lifecycle (newExporter e store items) := by
  refine ⟨?_, ?_, rfl, ?_, ?_, ?_, ?_⟩
  · intro g hg
    cases hg
  · intro g hg
    cases hg
  · intro i c hc
    simp [newExporter] at hc
  · intro g hg
    cases hg
  · intro g
    simp [newExporter, newFleet, newProducer]
  · intro r hr
    exact absurd hr List.not_mem_nil

/-- The lifecycle is kept in every run of the exporter. -/
theorem reachable_lifecycle (hrun : ExporterRun e allowed (newExporter e store items) x) :
    Lifecycle x :=
  hrun.invariant lifecycle_newExporter fun _ _ _ hx _ hs => hx.step hs

/-- What something refers to is made, or the next to be made. -/
theorem Lifecycle.touches (h : Lifecycle x) {g : Nat} (hg : x.Touches g) : g ≤ x.generations := by
  cases hg with
  | made hle => exact hle
  | taken hcall => exact Nat.le_of_lt (h.taken_lt hcall)
  | closed hclose =>
      have hcall := not_not.mp (mt (h.called g).mpr hclose)
      exact Nat.le_of_lt (h.taken_lt hcall)
  | found hr hphase => exact Nat.le_of_lt (h.found _ (List.mem_of_getElem? hr) g (Or.inl hphase))

/-- **The producers of an exporter are a fleet**: those that are made and the next one. -/
theorem ExporterRun.fleet (hrun : ExporterRun e allowed (newExporter e store items) x) {n : Nat}
    (hn : x.generations < n) :
    ManifestRun (e.fleet n) (newFleet (e.fleet n) store fun _ => items) (x.fleet n) := by
  have hbounded := (hrun.within lifecycle_newExporter fun _ _ _ hx _ hs => hx.step hs).bounded
    ExporterState.generations fun _ _ _ hs => hs.generations
  refine hbounded.simulation (fun z => z.fleet n) ?_
  rintro z l z' ⟨⟨-, hlife⟩, hle⟩ hs
  rcases hs.member with heq | ⟨g, k, htouches, hmoves, hothers⟩
  · exact Or.inl (by unfold ExporterState.fleet; rw [heq])
  · have hg : g < n := Nat.lt_of_le_of_lt ((hlife.touches htouches).trans hle) hn
    have hmember : FleetMove (e.fleet n) ⟨g, hg⟩ (z.fleet n ⟨g, hg⟩) k (z'.fleet n ⟨g, hg⟩) :=
      ⟨hmoves.step, fun hk path obj hwrite j => hmoves.spares hk path obj hwrite j⟩
    refine Or.inr ⟨(⟨g, hg⟩, k), .moves hmember fun j hj => hothers j fun heq => hj ?_⟩
    exact Fin.ext heq

/-- **Producers are closed once.**  The `Shutdown` calls that find a producer take the
producers in the order they were made, each a different one; at most one producer is
left to take.  `Close` has been called on a producer exactly if the `Shutdown` call that
took it has come to that.  The producer that requests find has not been closed, and
neither has the one that the callback of the age gauge reads. -/
theorem exporter_closes_once (hrun : ExporterRun e allowed (newExporter e store items) x) :
    x.shutdowns.map ShutdownCall.generation = List.range x.shutdowns.length ∧
      x.generations = x.shutdowns.length + (if x.producer.isSome then 1 else 0) ∧
      (∀ g, (x.producers g).close ≠ .notCalled ↔ x.shutdowns[g]? = some ⟨g, .called⟩) ∧
      (∀ g, x.producer = some g → g = x.shutdowns.length ∧ (x.producers g).close = .notCalled) ∧
      ∀ g, x.gauge = some g → (x.producers g).close = .notCalled := by
  have h := reachable_lifecycle hrun
  refine ⟨?_, h.made, fun g => ?_, fun g hg => ?_, fun g hg => ?_⟩
  · refine List.ext_getElem? fun i => ?_
    cases hc : x.shutdowns[i]? with
    | none =>
        have hlen := List.getElem?_eq_none_iff.mp hc
        simp [hlen]
    | some c =>
        have hlt := (List.getElem?_eq_some_iff.mp hc).1
        simp [hc, h.taken i c hc, List.getElem?_range hlt]
  · rw [ne_eq, h.called g, not_not]
  · have hlen := h.live g hg
    refine ⟨hlen, (h.called g).mpr ?_⟩
    rw [List.getElem?_eq_none (Nat.le_of_eq hlen.symm)]
    simp
  · refine (h.called g).mpr ?_
    rcases h.gauge g hg with hlive | hdetaching
    · rw [List.getElem?_eq_none (Nat.le_of_eq (h.live g hlive).symm)]
      simp
    · simp [hdetaching]

/-- An exporter for metrics with the factory's defaults. -/
def sampleExporter : Exporter Unit where
  config := sampleExporterConfig
  validateQueue := fun _ => .ok ()
  signalType := SignalTypeMetrics
  runID := fun g => [UInt8.ofNat g]
  zstd := sampleZstd
  supported := Or.inl rfl

/-- The sample configuration is valid. -/
theorem sampleExporter_valid :
    Config.Validate sampleExporter.validateQueue (some sampleExporter.config) = .ok () :=
  (Config.validate_ok_iff _).mpr (createDefaultConfig_valid rfl (by decide) (by decide))

/-- A producer comes to a state, and the others see it. -/
theorem exists_moved (S : Nat → State) (g : Nat) (t : State) :
    ∃ T : Nat → State, T g = t ∧ ∀ j, j ≠ g → SeesManifest (T g) (S j) (T j) := by
  choose view hview using exists_seesManifest t
  refine ⟨fun j => if j = g then t else view (S j), if_pos rfl, fun j hj => ?_⟩
  simpa [hj] using hview (S j)

/-- The exporter is started and shut down. -/
theorem exporter_closes_once_sample :
    ∃ x, ExporterRun sampleExporter (fun _ _ => True) (newExporter sampleExporter emptyStore []) x ∧
      x.shutdowns = [⟨0, .called⟩] ∧ (x.producers 0).close ≠ .notCalled ∧
      x.gauge = none ∧ x.generations = 1 := by
  have htaken := (Reach.refl : ExporterRun sampleExporter (fun _ _ => True)
      (newExporter sampleExporter emptyStore []) _)
    |>.tail trivial (.lifecycle (fun _ => rfl) (.startCreates sampleExporter_valid rfl rfl))
    |>.tail trivial (.lifecycle (fun _ => rfl) (.startPublishes rfl))
    |>.tail trivial (.lifecycle (fun _ => rfl) (.shutdownTakes rfl rfl))
    |>.tail trivial (.lifecycle (fun _ => rfl) (.shutdownDetaches (i := 0) rfl))
  obtain ⟨t, hbegin⟩ :
      ∃ t, CloseStep ((newExporter sampleExporter emptyStore []).producers 0) .call t :=
    ⟨_, .begin rfl⟩
  obtain ⟨T, rfl, hothers⟩ := exists_moved (newExporter sampleExporter emptyStore []).producers 0 t
  have hrun := htaken.tail trivial (.lifecycle (fun _ => rfl)
    (.shutdownCloses (i := 0) (T := T) rfl hbegin hothers))
  exact ⟨_, hrun, rfl, ((exporter_closes_once hrun).2.2.1 0).mpr rfl, rfl, rfl⟩

/-! ## Counters -/

namespace RequestPhase

/-- Counted as a request. -/
@[simp] def counted : RequestPhase → Bool
  | .entered => false
  | .returned .wrongSignal => false
  | _ => true

/-- The stage at which the request has been counted as failed. -/
@[simp] def failure? : RequestPhase → Option FailureStage
  | .settling (some failure) => some failure.stage
  | .returned (.marshalFailed _) => some .marshal
  | .returned (.appendFailed failure) => some failure.stage
  | _ => none

/-- Behind a marshaler that succeeded. -/
@[simp] def marshaled : RequestPhase → Bool
  | .entered => false
  | .marshaling => false
  | .returned .wrongSignal => false
  | .returned (.marshalFailed _) => false
  | _ => true

/-- Behind the call of `Append`. -/
@[simp] def enqueued : RequestPhase → Bool
  | .awaiting => true
  | .settling none => true
  | .settling (some failure) => failure.stage ≠ .start
  | .returned .acknowledged => true
  | .returned (.appendFailed failure) => failure.stage ≠ .start
  | _ => false

/-- Behind `recordDurableWait`, with its `result`. -/
@[simp] def settled? : RequestPhase → Option Bool
  | .returned .acknowledged => some true
  | .returned (.appendFailed _) => some false
  | _ => none

/-- Counted, and not counted as failed or as durable yet. -/
def inFlight (phase : RequestPhase) : Bool :=
  phase.counted && phase.failure? = none && phase.settled? = none

end RequestPhase

/-- The sizes of what a request brought. -/
def Request.size (r : Request) : Nat := (r.marshaled.toOption.getD []).length

@[simp] def Received.metricCount : Received → Nat
  | .metrics metricCount _ => metricCount
  | .logs _ => 0

@[simp] def Received.dataPointCount : Received → Nat
  | .metrics _ dataPointCount => dataPointCount
  | .logs _ => 0

@[simp] def Received.logRecordCount : Received → Nat
  | .metrics _ _ => 0
  | .logs logRecordCount => logRecordCount

/-- What a request has recorded when it has come to its phase. -/
def Request.recorded (r : Request) : Counters
  | .requestsTotal => if r.phase.counted then 1 else 0
  | .requestFailuresTotal stage => if r.phase.failure? = some stage then 1 else 0
  | .bytesMarshaledTotal => if r.phase.marshaled then r.size else 0
  | .metricsReceivedTotal => if r.phase.counted then r.received.metricCount else 0
  | .dataPointsReceivedTotal => if r.phase.counted then r.received.dataPointCount else 0
  | .logRecordsReceivedTotal => if r.phase.counted then r.received.logRecordCount else 0
  | .marshalDuration => if r.phase.marshaled then 1 else 0
  | .enqueueWaitDuration => if r.phase.enqueued then 1 else 0
  | .durableWaitDuration success => if r.phase.settled? = some success then 1 else 0

/-- A request that moves records what is due between its phases. -/
theorem RequestMove.records {r r' : Request} {c : Counters} (h : RequestMove e x r r' c)
    (instrument : Instrument) :
    c instrument + r.recorded instrument = x.counters instrument + r'.recorded instrument := by
  cases h with
  | ctxDone text hctx => cases instrument <;> rfl
  | wrongSignal hphase hsignal => cases instrument <;> simp [Request.recorded, hphase]
  | accept hphase hsignal =>
      cases hreceived : r.received <;> cases instrument <;>
        simp [Request.recorded, hphase, hreceived, Counters.recordRequestStart, Counters.record]
  | marshalFails hphase hmarshal =>
      cases instrument <;>
        simp [Request.recorded, hphase, Counters.recordFailure, Counters.record]
      grind
  | marshals hphase hmarshal =>
      cases instrument <;> simp [Request.recorded, hphase, hmarshal, Counters.recordMarshal,
        Counters.record, Request.size, Except.toOption]
  | notStarted hphase hmu hidle =>
      cases instrument <;>
        simp [Request.recorded, hphase, Counters.recordFailure, Counters.record, Request.size]
      grind
  | finds hphase hmu hlive => cases instrument <;> simp [Request.recorded, hphase, Request.size]
  | enqueueFails hphase hhandle hcall hreturned =>
      cases instrument <;> simp [Request.recorded, hphase, Counters.recordEnqueueWait,
        Counters.recordFailure, Counters.record, Request.size]
      grind
  | enqueued hphase hhandle hcall hreturned =>
      cases instrument <;>
        simp [Request.recorded, hphase, Counters.recordEnqueueWait, Counters.record, Request.size]
  | durable hphase hhandle hresult =>
      cases instrument <;> simp [Request.recorded, hphase, Request.size]
  | notDurable hphase hhandle hresult =>
      cases instrument <;>
        simp [Request.recorded, hphase, Counters.recordFailure, Counters.record, Request.size]
      grind
  | awaitCtx hphase hctx =>
      cases instrument <;>
        simp [Request.recorded, hphase, Counters.recordFailure, Counters.record, Request.size]
      grind
  | @settles failure hphase =>
      cases failure <;> cases instrument <;> simp [Request.recorded, hphase, settledResult,
        Counters.recordDurableWait, Counters.record, Request.size] <;> grind

/-- The counters are the sum of what the requests have recorded. -/
def RequestsCounted (x : ExporterState) : Prop :=
  ∀ instrument, x.counters instrument = (x.requests.map (·.recorded instrument)).sum

/-- **Step rule for the instruments.** -/
theorem RequestsCounted.step (h : RequestsCounted x) (hs : ExporterStep e x l y) :
    RequestsCounted y := by
  intro instrument
  cases hs with
  | lifecycle _ hs => cases hs <;> exact h instrument
  | request _ hs =>
      cases hs with
      | begin received marshaled =>
          rw [List.map_append, List.sum_append, ← h instrument]
          cases instrument <;> simp [Request.recorded]
      | @moves i r r' c hr hmove =>
          obtain ⟨rest, hsum, hset⟩ := sum_map_set (Request.recorded · instrument) hr
          have hrecords := hmove.records instrument
          rw [h instrument, hsum] at hrecords
          show c instrument = _
          rw [hset]
          omega
      | @appends i g r payload T hr hphase hmarshal hbegin hothers =>
          rw [sum_map_set_eq (Request.recorded · instrument) hr]
          · exact h instrument
          · cases instrument <;> simp [Request.recorded, hphase, Request.size]
  | producer _ _ _ _ _ _ hy =>
      subst hy
      exact h instrument

/-- The instruments count the requests, in every run. -/
theorem reachable_requestsCounted (hrun : ExporterRun e allowed (newExporter e store items) x) :
    RequestsCounted x :=
  hrun.invariant (fun _ => rfl) fun _ _ _ hx _ hs => hx.step hs

/-- A request is counted from the check of its signal on, if that is the exporter's. -/
def Request.Checked (e : Exporter Q) (r : Request) : Prop :=
  r.phase.counted = true ↔ r.phase ≠ .entered ∧ r.received.signalType = e.signalType

/-- A request is counted behind the check of its signal. -/
theorem Request.Checked.move {r r' : Request} {c : Counters} (h : r.Checked e)
    (hmove : RequestMove e x r r' c) : r'.Checked e := by
  unfold Request.Checked at h ⊢
  cases hmove with
  | ctxDone text hctx => exact h
  | wrongSignal hphase hsignal => simp [hsignal]
  | accept hphase hsignal => simp [hsignal]
  | @settles failure hphase =>
      rw [hphase] at h
      cases failure <;> simpa [settledResult] using h
  | marshalFails hphase | marshals hphase | notStarted hphase | finds hphase | enqueueFails hphase
  | enqueued hphase | durable hphase | notDurable hphase | awaitCtx hphase =>
      rw [hphase] at h
      simpa using h

/-- Requests for the other signal are turned away, and all others are counted. -/
theorem reachable_checked (hrun : ExporterRun e allowed (newExporter e store items) x) :
    ∀ r ∈ x.requests, r.Checked e := by
  refine hrun.invariant (P := fun x => ∀ r ∈ x.requests, r.Checked e)
    (fun r hr => absurd hr List.not_mem_nil) ?_
  intro x l y h _ hs
  cases hs with
  | lifecycle _ hs => cases hs <;> exact h
  | producer _ _ _ _ _ _ hy =>
      subst hy
      exact h
  | request _ hs =>
      cases hs with
      | begin received marshaled =>
          intro r hr
          rcases List.mem_append.mp hr with hold | hnew
          · exact h r hold
          · obtain rfl := List.mem_singleton.mp hnew
            simp [Request.Checked]
      | moves hr hmove =>
          intro q hq
          rcases List.mem_or_eq_of_mem_set hq with hold | rfl
          · exact h q hold
          · exact (h _ (List.mem_of_getElem? hr)).move hmove
      | appends hr hphase hmarshal hbegin hothers =>
          intro q hq
          rcases List.mem_or_eq_of_mem_set hq with hold | rfl
          · exact h q hold
          · have hold := h _ (List.mem_of_getElem? hr)
            rw [Request.Checked, hphase] at hold
            simpa [Request.Checked] using hold

/-- A counted request is in flight, durable or failed at one stage. -/
theorem Request.balance (r : Request) :
    r.recorded .requestsTotal = r.recorded (.durableWaitDuration true) +
      (r.recorded (.requestFailuresTotal .marshal) + r.recorded (.requestFailuresTotal .start) +
        r.recorded (.requestFailuresTotal .enqueue) +
        r.recorded (.requestFailuresTotal .durableWait)) +
      if r.phase.inFlight then 1 else 0 := by
  cases hphase : r.phase with
  | settling failure =>
      rcases failure with _ | _ | _ | _ <;>
        simp [Request.recorded, hphase, RequestPhase.inFlight]
  | returned result =>
      rcases result with _ | _ | _ | _ | _ | _ <;>
        simp [Request.recorded, hphase, RequestPhase.inFlight]
  | _ => simp [Request.recorded, hphase, RequestPhase.inFlight]

/-- What a request that has returned has recorded on its way. -/
theorem Request.balance_returned {r : Request} {result : RequestResult}
    (h : r.phase = .returned result) :
    r.recorded .requestsTotal =
        r.recorded .marshalDuration + r.recorded (.requestFailuresTotal .marshal) ∧
      r.recorded .marshalDuration =
        r.recorded .enqueueWaitDuration + r.recorded (.requestFailuresTotal .start) ∧
      r.recorded .enqueueWaitDuration = r.recorded (.durableWaitDuration true) +
        (r.recorded (.requestFailuresTotal .enqueue) +
          r.recorded (.requestFailuresTotal .durableWait)) ∧
      r.recorded (.durableWaitDuration false) = r.recorded (.requestFailuresTotal .start) +
        (r.recorded (.requestFailuresTotal .enqueue) +
          r.recorded (.requestFailuresTotal .durableWait)) := by
  rcases result with _ | _ | _ | _ | _ | _ <;> simp [Request.recorded, h]

/-- **The counters add up.**  In every state each instrument has the sum of what the
requests made so far have recorded by the point they have come to.  A request is counted
from the check of its signal on; one for the other signal is counted nowhere.  Those that
were counted are those counted as durable, those counted as failed at one of the stages,
and those in flight.  When all requests have returned, each stage has the requests of the
stage before that did not fail there, and the waits that ended with an error are the
failures behind the marshaler. -/
theorem requests_accounted (hrun : ExporterRun e allowed (newExporter e store items) x) :
    RequestsCounted x ∧ (∀ r ∈ x.requests, r.Checked e) ∧
      x.counters .requestsTotal = x.counters (.durableWaitDuration true) +
        (x.counters (.requestFailuresTotal .marshal) + x.counters (.requestFailuresTotal .start) +
          x.counters (.requestFailuresTotal .enqueue) +
          x.counters (.requestFailuresTotal .durableWait)) +
        x.requests.countP (fun r => r.phase.inFlight) ∧
      ((∀ r ∈ x.requests, ∃ result, r.phase = .returned result) →
        x.counters .requestsTotal =
            x.counters .marshalDuration + x.counters (.requestFailuresTotal .marshal) ∧
          x.counters .marshalDuration =
            x.counters .enqueueWaitDuration + x.counters (.requestFailuresTotal .start) ∧
          x.counters .enqueueWaitDuration = x.counters (.durableWaitDuration true) +
            (x.counters (.requestFailuresTotal .enqueue) +
              x.counters (.requestFailuresTotal .durableWait)) ∧
          x.counters (.durableWaitDuration false) = x.counters (.requestFailuresTotal .start) +
            (x.counters (.requestFailuresTotal .enqueue) +
              x.counters (.requestFailuresTotal .durableWait))) := by
  have h := reachable_requestsCounted hrun
  refine ⟨h, reachable_checked hrun, ?_⟩
  simp only [h _]
  generalize x.requests = rs
  -- Both parts hold request by request.
  induction rs with
  | nil => simp
  | cons r rs ih =>
      obtain ⟨hbalance, hreturned⟩ := ih
      have hr := r.balance
      simp only [List.map_cons, List.sum_cons, List.countP_cons]
      refine ⟨by omega, fun hall => ?_⟩
      obtain ⟨result, hresult⟩ := hall r List.mem_cons_self
      have hsame := Request.balance_returned hresult
      have hrest := hreturned fun q hq => hall q (List.mem_cons_of_mem _ hq)
      omega

/-- Logs for an exporter of metrics, and metrics before it was started. -/
theorem requests_accounted_sample :
    ∃ x, ExporterRun sampleExporter (fun _ _ => True) (newExporter sampleExporter emptyStore []) x ∧
      x.requests.length = 2 ∧ RequestsCounted x ∧ x.counters .requestsTotal = 1 ∧
      x.counters .dataPointsReceivedTotal = 4 ∧ x.counters .logRecordsReceivedTotal = 0 ∧
      x.counters (.durableWaitDuration false) = x.counters (.requestFailuresTotal .start) +
        (x.counters (.requestFailuresTotal .enqueue) +
          x.counters (.requestFailuresTotal .durableWait)) := by
  have hrun := (Reach.refl : ExporterRun sampleExporter (fun _ _ => True)
      (newExporter sampleExporter emptyStore []) _)
    |>.tail trivial (.request (fun _ => rfl) (.begin (.logs 3) (.ok [9])))
    |>.tail trivial (.request (fun _ => rfl) (.begin (.metrics 1 4) (.ok [7])))
    |>.tail trivial (.request (fun _ => rfl) (.moves (i := 0) rfl (.wrongSignal rfl (by decide))))
    |>.tail trivial (.request (fun _ => rfl) (.moves (i := 1) rfl (.accept rfl rfl)))
    |>.tail trivial (.request (fun _ => rfl) (.moves (i := 1) rfl (.marshals rfl rfl)))
    |>.tail trivial (.request (fun _ => rfl) (.moves (i := 1) rfl (.notStarted rfl rfl rfl)))
    |>.tail trivial (.request (fun _ => rfl) (.moves (i := 1) rfl (.settles rfl)))
  obtain ⟨hcounted, -, -, hdone⟩ := requests_accounted hrun
  obtain ⟨-, -, -, hwaits⟩ := hdone (by
    intro r hr
    rcases List.mem_cons.mp hr with rfl | hr
    · exact ⟨_, rfl⟩
    · obtain rfl := List.mem_singleton.mp hr
      exact ⟨_, rfl⟩)
  exact ⟨_, hrun, rfl, hcounted, rfl, rfl, rfl, hwaits⟩

end OpenDataBuffer
