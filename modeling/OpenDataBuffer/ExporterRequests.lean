import OpenDataBuffer.AppendOrder
import OpenDataBuffer.ExporterRuns

/-!
# What an exporter stores

Requests and append calls belong to each other one to one: a request makes at most one
call, and no call is made by anybody else.  With that, durability for the producers
becomes durability for requests (`acknowledged_requests_stored`).
-/

namespace OpenDataBuffer

open LabelledRuns Ensembles ListUpdate

variable {Q : Type} {e : Exporter Q} {x y : ExporterState} {l : ExporterLabel}
  {allowed : ExporterState → ExporterLabel → Prop} {store : ObjectStore} {items : List EnqueueItem}

/-! ## Requests and their messages -/

/-- The call of `Append` has begun. -/
@[simp] def RequestPhase.handed : RequestPhase → Bool
  | .appending => true
  | phase => phase.enqueued

/-- `AwaitDurable` has returned nil. -/
@[simp] def RequestPhase.durable : RequestPhase → Bool
  | .settling none => true
  | .returned .acknowledged => true
  | _ => false

/-- What holds of one request beside the producers. -/
structure Request.Proper (e : Exporter Q) (S : Nat → State) (r : Request) : Prop where
  handed : r.handle.isSome = r.phase.handed
  carried : ∀ g call, r.handle = some (g, call) → ∃ payload c, r.marshaled = .ok payload ∧
    (S g).appends[call]? = some c ∧ c.entries = [payload] ∧ c.metadata = e.metadata
  durable : r.phase.durable = true →
    ∃ g call, r.handle = some (g, call) ∧ (S g).watcherResult call = some none

/-- What a request is waiting for stays, whatever its producer does. -/
theorem Request.Proper.mono {S T : Nat → State} {r : Request} (h : r.Proper e S)
    (hkeep : ProducersKeep S T) : r.Proper e T where
  handed := h.handed
  carried := by
    intro g call hhandle
    obtain ⟨payload, c, hmarshal, hc, hentries, hmetadata⟩ := h.carried g call hhandle
    obtain ⟨c', hc', hcontinues⟩ := hkeep.calls g call c hc
    exact ⟨payload, c', hmarshal, hc', hcontinues.entries.trans hentries,
      hcontinues.metadata.trans hmetadata⟩
  durable := by
    intro hphase
    obtain ⟨g, call, hhandle, hresult⟩ := h.durable hphase
    exact ⟨g, call, hhandle, hkeep.results g call none hresult⟩

/-- Before its call a request has no handle. -/
theorem Request.Proper.handle_none {S : Nat → State} {r : Request} (h : r.Proper e S)
    (hphase : r.phase.handed = false) : r.handle = none := by
  rw [← Option.not_isSome_iff_eq_none, h.handed, hphase]
  decide

/-- A move of a request keeps it proper. -/
theorem Request.Proper.move {r r' : Request} {c : Counters} (h : r.Proper e x.producers)
    (hmove : RequestMove e x r r' c) : r'.Proper e x.producers := by
  have hhanded := h.handed
  have hdurable := h.durable
  cases hmove with
  | ctxDone text hctx => exact ⟨hhanded, h.carried, hdurable⟩
  | durable hphase hhandle hresult =>
      rw [hphase] at hhanded
      exact ⟨hhanded, h.carried, fun _ => ⟨_, _, hhandle, hresult⟩⟩
  | @settles failure hphase =>
      rw [hphase] at hhanded hdurable
      cases failure with
      | none => exact ⟨hhanded, h.carried, hdurable⟩
      | some failure => exact ⟨hhanded, h.carried, by simp [settledResult]⟩
  | wrongSignal hphase | accept hphase | marshalFails hphase | marshals hphase | notStarted hphase
  | finds hphase | enqueueFails hphase | enqueued hphase | notDurable hphase | awaitCtx hphase =>
      rw [hphase] at hhanded
      exact ⟨hhanded, h.carried, by simp⟩

/-- Requests and append calls belong to each other, one to one. -/
structure RequestsKept (e : Exporter Q) (x : ExporterState) : Prop where
  proper : ∀ (i : Nat) (r : Request), x.requests[i]? = some r → r.Proper e x.producers
  distinct : ∀ (i j : Nat) (r r' : Request) (handle : Nat × Nat), x.requests[i]? = some r →
    x.requests[j]? = some r' → r.handle = some handle → r'.handle = some handle → i = j
  complete : ∀ g call, call < (x.producers g).appends.length →
    ∃ (i : Nat) (r : Request), x.requests[i]? = some r ∧ r.handle = some (g, call)

/-- The producers move, and no append call begins. -/
theorem RequestsKept.producers (h : RequestsKept e x) {T : Nat → State}
    (hkeep : ProducersKeep x.producers T)
    (hlength : ∀ g, (T g).appends.length = (x.producers g).appends.length) :
    RequestsKept e { x with producers := T } where
  proper := fun i r hr => (h.proper i r hr).mono hkeep
  distinct := h.distinct
  complete := by
    intro g call hcall
    rw [hlength g] at hcall
    exact h.complete g call hcall

/-- A request moves on and keeps its handle. -/
theorem RequestsKept.moves (h : RequestsKept e x) {i : Nat} {r r' : Request} (counters : Counters)
    (hr : x.requests[i]? = some r) (hhandle : r'.handle = r.handle)
    (hproper : r'.Proper e x.producers) :
    RequestsKept e { x with requests := x.requests.set i r', counters := counters } := by
  have hold : ∀ (j : Nat) (q : Request), (x.requests.set i r')[j]? = some q →
      ∃ q', x.requests[j]? = some q' ∧ q'.handle = q.handle := by
    intro j q hq
    rcases getElem?_set_cases hq with ⟨rfl, rfl⟩ | ⟨_, hq⟩
    · exact ⟨r, hr, hhandle.symm⟩
    · exact ⟨q, hq, rfl⟩
  refine ⟨fun j q hq => ?_, fun j k q q' handle hq hq' hh hh' => ?_, fun g call hcall => ?_⟩
  · rcases getElem?_set_cases hq with ⟨rfl, rfl⟩ | ⟨_, hq⟩
    · exact hproper
    · exact h.proper j q hq
  · obtain ⟨a, ha, hah⟩ := hold j q hq
    obtain ⟨b, hb, hbh⟩ := hold k q' hq'
    exact h.distinct j k a b handle ha hb (hah.trans hh) (hbh.trans hh')
  · obtain ⟨j, q, hq, hh⟩ := h.complete g call hcall
    by_cases hj : j = i
    · subst hj
      obtain rfl : r = q := Option.some.inj (hr.symm.trans hq)
      exact ⟨j, r', getElem?_set_same hr, hhandle.trans hh⟩
    · exact ⟨j, q, (List.getElem?_set_ne (Ne.symm hj)).trans hq, hh⟩

/-- A request begins its call of `Append`. -/
theorem RequestsKept.appends (h : RequestsKept e x) {i g : Nat} {r : Request} {payload : Bytes}
    {T : Nat → State} (hkeep : ProducersKeep x.producers T) (hr : x.requests[i]? = some r)
    (hphase : r.phase = .found g) (hmarshal : r.marshaled = .ok payload)
    (hbegin : T g = { x.producers g with
      appends := (x.producers g).appends ++ [⟨[payload], e.metadata, none, .entered⟩] })
    (hothers : ∀ j, j ≠ g → SeesManifest (T g) (x.producers j) (T j)) :
    RequestsKept e { x with
      requests := x.requests.set i
        { r with phase := .appending, handle := some (g, (x.producers g).appends.length) }
      producers := T } := by
  have hnone : r.handle = none := (h.proper i r hr).handle_none (by rw [hphase]; rfl)
  -- The new call is behind all calls that a request has.
  have hfresh : ∀ (j : Nat) (q : Request), x.requests[j]? = some q →
      q.handle ≠ some (g, (x.producers g).appends.length) := by
    intro j q hq hhandle
    obtain ⟨_, c, _, hc, _⟩ := (h.proper j q hq).carried _ _ hhandle
    exact absurd (List.getElem?_eq_some_iff.mp hc).1 (Nat.lt_irrefl _)
  refine ⟨fun j q hq => ?_, fun j k q q' handle hq hq' hh hh' => ?_, fun g' call hcall => ?_⟩
  · rcases getElem?_set_cases hq with ⟨rfl, rfl⟩ | ⟨_, hq⟩
    · refine ⟨rfl, fun g' call hh => ?_, by simp⟩
      obtain ⟨rfl, rfl⟩ : g = g' ∧ _ = call := by simpa using hh
      refine ⟨payload, ⟨[payload], e.metadata, none, .entered⟩, hmarshal, ?_, rfl, rfl⟩
      show (T g).appends[_]? = _
      rw [hbegin]
      simp
    · exact (h.proper j q hq).mono hkeep
  · rcases getElem?_set_cases hq with ⟨rfl, rfl⟩ | ⟨_, hold⟩ <;>
      rcases getElem?_set_cases hq' with ⟨rfl, rfl⟩ | ⟨_, hold'⟩
    · rfl
    · exact absurd (hh'.trans hh.symm) (hfresh k q' hold')
    · exact absurd (hh.trans hh'.symm) (hfresh j q hold)
    · exact h.distinct j k q q' handle hold hold' hh hh'
  · have hold : ∀ moved, call < (x.producers g').appends.length → ∃ (j : Nat) (q : Request),
        (x.requests.set i moved)[j]? = some q ∧ q.handle = some (g', call) := by
      intro moved hcall
      obtain ⟨j, q, hq, hh⟩ := h.complete g' call hcall
      have hj : j ≠ i := by
        rintro rfl
        obtain rfl : r = q := Option.some.inj (hr.symm.trans hq)
        rw [hnone] at hh
        cases hh
      exact ⟨j, q, (List.getElem?_set_ne (Ne.symm hj)).trans hq, hh⟩
    change call < (T g').appends.length at hcall
    by_cases hg : g' = g
    · subst hg
      rw [hbegin] at hcall
      rcases Nat.lt_or_ge call (x.producers g').appends.length with hlt | hge
      · exact hold _ hlt
      · obtain rfl : call = (x.producers g').appends.length := by
          simp at hcall
          omega
        exact ⟨i, _, getElem?_set_same hr, rfl⟩
    · rw [hothers g' hg] at hcall
      exact hold _ hcall

/-- **Step rule for requests.** -/
theorem RequestsKept.step (h : RequestsKept e x) (hs : ExporterStep e x l y) :
    RequestsKept e y := by
  have hkeep := hs.keeps
  cases hs with
  | lifecycle _ hs =>
      cases hs with
      | @shutdownCloses i g T hcall hclose hothers =>
          have hlength : ∀ j, (T j).appends.length = (x.producers j).appends.length := by
            refine all_members (P := fun j (s : State) =>
              s.appends.length = (x.producers j).appends.length) (i := g) ?_ fun j hj => ?_
            · generalize T g = t at hclose
              cases hclose
              rfl
            · rw [hothers j hj]
          have hkept := h.producers hkeep hlength
          exact ⟨hkept.proper, hkept.distinct, hkept.complete⟩
      | @shutdownCtxDone g f c T text hclose hcall hctx hdone hothers =>
          refine h.producers hkeep (all_members (P := fun j (s : State) =>
            s.appends.length = (x.producers j).appends.length) (i := g) ?_ fun j hj => ?_)
          · rw [hdone]
          · rw [hothers j hj]
      | _ => exact ⟨h.proper, h.distinct, h.complete⟩
  | request _ hs =>
      cases hs with
      | begin received marshaled =>
          refine ⟨fun j q hq => ?_, fun j k q q' handle hq hq' hh hh' => ?_, fun g call hcall => ?_⟩
          · rcases getElem?_concat_cases hq with ⟨_, rfl⟩ | hq
            · exact ⟨rfl, fun g call hh => (by cases hh), by simp⟩
            · exact h.proper j q hq
          · rcases getElem?_concat_cases hq with ⟨_, rfl⟩ | hq
            · cases hh
            · rcases getElem?_concat_cases hq' with ⟨_, rfl⟩ | hq'
              · cases hh'
              · exact h.distinct j k q q' handle hq hq' hh hh'
          · obtain ⟨j, q, hq, hh⟩ := h.complete g call hcall
            have hlt := (List.getElem?_eq_some_iff.mp hq).1
            exact ⟨j, q, (List.getElem?_append_left hlt).trans hq, hh⟩
      | moves hr hmove =>
          exact h.moves _ hr hmove.handle ((h.proper _ _ hr).move hmove)
      | appends hr hphase hmarshal hbegin hothers =>
          exact h.appends hkeep hr hphase hmarshal hbegin hothers
  | @producer g k T hmade hown hmoves hothers _ _ hy =>
      subst hy
      refine h.producers hkeep (all_members (P := fun j (s : State) =>
        s.appends.length = (x.producers j).appends.length) (appends_length hmoves.step hown)
        fun j hj => ?_)
      rw [hothers j hj]

/-- Requests are proper in every run of the exporter. -/
theorem reachable_requestsKept (hrun : ExporterRun e allowed (newExporter e store items) x) :
    RequestsKept e x := by
  refine hrun.invariant ⟨?_, ?_, ?_⟩ fun _ _ _ hx _ hs => hx.step hs
  · intro i r hr
    simp [newExporter] at hr
  · intro i j r r' handle hr
    simp [newExporter] at hr
  · intro g call hcall
    exact absurd hcall (Nat.not_lt_zero _)

/-! ## What is stored -/

/-- The run names of the first `n` producers can be told apart, and the manifest is none
of their objects. -/
structure Exporter.Apart (e : Exporter Q) (n : Nat) : Prop where
  length : ∀ g h, g < n → h < n → (e.runID g).length = (e.runID h).length
  distinct : ∀ g h, g < n → h < n → e.runID g = e.runID h → g = h
  manifest : ∀ g k, g < n → (e.generation g).location k ≠ e.config.ManifestPath

/-- The producers of one exporter share its manifest. -/
theorem Exporter.Apart.sharing {n : Nat} (h : e.Apart n) :
    Sharing (e.fleet n) e.config.ManifestPath where
  length := fun i j => h.length i j i.isLt j.isLt
  distinct := fun i j hid => Fin.ext (h.distinct i j i.isLt j.isLt hid)
  manifest := fun _ => rfl
  apart := fun g k => h.manifest g k g.isLt

/-- What an exporter stores of a request. -/
def Request.stores (r : Request) (record : List Bytes × Bytes × Int64) : Prop :=
  ∃ payload, r.marshaled = .ok payload ∧ record.1 = [payload] ∧
    record.2.1 = EncodeMetadata r.received.signalType PayloadEncodingOTLP

/-- Every accepted message is that of one request. -/
theorem RequestsKept.message (h : RequestsKept e x) (hchecked : ∀ r ∈ x.requests, r.Checked e)
    {g : Nat} (ha : AppendCalls (x.producers g)) {m : AppendMessage}
    (hm : m ∈ (x.producers g).hist.accepted) :
    ∃ (i : Nat) (r : Request), x.requests[i]? = some r ∧ r.handle = some (g, m.watcher) ∧
      r.stores m.request := by
  obtain ⟨c, hc, hfor, -⟩ := ha.accepted m hm
  obtain ⟨i, r, hr, hhandle⟩ := h.complete g m.watcher (List.getElem?_eq_some_iff.mp hc).1
  have hproper := h.proper i r hr
  obtain ⟨payload, c', hmarshal, hc', hentries, hmetadata⟩ := hproper.carried g m.watcher hhandle
  obtain rfl : c = c' := Option.some.inj (hc.symm.trans hc')
  refine ⟨i, r, hr, hhandle, payload, hmarshal, hfor.entries.trans hentries, ?_⟩
  -- Only a request for the exporter's signal gets as far as its handle.
  have hcounted : r.phase.counted = true := by
    have hhanded := hproper.handed
    rw [hhandle] at hhanded
    cases hphase : r.phase with
    | entered =>
        rw [hphase] at hhanded
        cases hhanded
    | returned result =>
        rw [hphase] at hhanded
        cases result with
        | wrongSignal => cases hhanded
        | _ => rfl
    | _ => rfl
  rw [((hchecked r (List.mem_of_getElem? hr)).mp hcounted).2]
  exact hfor.metadata.trans hmetadata

/-! ## A request from end to end -/

/-- The message of a request with one byte. -/
def sampleExport : AppendMessage where
  entries := [[7]]
  metadata := sampleExporter.metadata
  ingestionTimeMs := 5
  watcher := 0
  byteCost := 5
  nonempty := wideMessage_nonempty
  byteCost_eq := by decide

theorem sampleExport_isFor :
    sampleExport.IsFor 0 ⟨[[7]], sampleExporter.metadata, none, .reserving⟩ := ⟨rfl, rfl, rfl⟩

def sampleExportBatch : Batch := (OpenBatch.empty.add sampleExport).batch 0 .time none

/-- A run of the first producer without a caller. -/
abbrev QuietRun (s t : State) : Prop :=
  RunWhere (sampleExporter.generation 0) (fun _ k => k ≠ .call ∧ k ≠ .others) s t

/-- The first producer with the call of the request. -/
def sampleHandedOver : State :=
  { newProducer (sampleExporter.generation 0) emptyStore [] with
    appends := [⟨[[7]], sampleExporter.metadata, none, .entered⟩] }

/-- The manifest is not below the data prefix. -/
theorem sampleExporter_manifest :
    ¬ (sampleExporterConfig.DataPathPrefix ++ [47]) <+: sampleExporterConfig.ManifestPath := by
  decide

/-- The producer takes the message, flushes it by time and resolves its watcher. -/
theorem sample_exports : ∃ t, QuietRun sampleHandedOver t ∧ t.panicked = none ∧
    t.hist.cuts = [.emitted sampleExportBatch] ∧
    (∃ c, t.appends[0]? = some c ∧ c.phase = .returned none) ∧ t.watcherResult 0 = some none := by
  have hlocation : (sampleExporter.generation 0).location 0 ≠ sampleExporterConfig.ManifestPath :=
    Producer.location_ne_of_not_under sampleExporter_manifest 0
  have happend := (Reach.refl : QuietRun sampleHandedOver sampleHandedOver)
    |>.tail (by decide) (.append rfl (.check (i := 0) rfl rfl))
    |>.tail (by decide) (.append rfl (.reserve (i := 0) rfl rfl rfl sampleExport_isFor))
    |>.tail (by decide) (.append rfl (.send (i := 0) rfl rfl rfl (by decide)))
    |>.tail (by decide) (.append rfl (.finish (i := 0) rfl rfl))
  have hupload := happend
    |>.tail (by decide) (.rotator rfl (.receive rfl rfl))
    |>.tail (by decide) (.rotator rfl (.timer rfl rfl))
    |>.tail (by decide) (.rotator rfl (.acquire rfl rfl))
    |>.tail (by decide) (.rotator rfl (.reconcile rfl))
    |>.tail (by decide) (.encoder rfl (.take (i := 0) rfl rfl))
    |>.tail (by decide) (.encoder rfl (.encoded (i := 0) rfl rfl))
    |>.tail (by decide) (.uploader rfl (.take (i := 0) (j := 0) rfl rfl rfl))
    |>.tail (by decide) (.uploader rfl
      (.putApplies (j := 0) ⟨"a"⟩ rfl (fun _ h => absurd h List.not_mem_nil)))
    |>.tail (by decide) (.uploader rfl (.putOk (j := 0) rfl))
    |>.tail (by decide) (.uploader rfl (.complete (j := 0) rfl rfl (by decide)))
  have hcommit := hupload
    |>.tail (by decide) (.committer rfl (.receive rfl rfl rfl))
    |>.tail (by decide) (.committer rfl (.gatherDone rfl rfl))
    |>.tail (by decide) (.committer rfl (.collect rfl))
    |>.tail (by decide) (.committer rfl (.cas rfl (.get rfl)))
    |>.tail (by decide) (.committer rfl
      (@CommitterStep.casApplies _ _ _ _ _ _ ⟨_, ⟨"1"⟩⟩ _ rfl rfl rfl
        (fun _ h => absurd (congrArg Prod.fst (List.mem_singleton.mp h)).symm hlocation)))
    |>.tail (by decide) (.committer rfl (.cas rfl (.ok rfl)))
    |>.tail (by decide) (.committer rfl (.settle rfl rfl (Or.inl rfl)))
    |>.tail (by decide) (.resolver rfl (.take rfl rfl rfl))
    |>.tail (by decide) (.resolver rfl (.observe rfl))
    |>.tail (by decide) (.resolver rfl (.resolve rfl))
  exact ⟨_, hcommit, rfl, rfl, ⟨_, rfl, rfl⟩, rfl⟩

/-- The producers are running, and all but this one have emitted nothing. -/
structure OnlyActive (S : Nat → State) (g : Nat) : Prop where
  running : ∀ j, (S j).panicked = none
  others : ∀ j, j ≠ g → (S j).hist.cuts = []

/-- One producer moves, and the others see what it does to the manifest. -/
theorem OnlyActive.moved {S T : Nat → State} {g : Nat} (h : OnlyActive S g)
    (hrunning : (T g).panicked = none)
    (hothers : ∀ j, j ≠ g → SeesManifest (T g) (S j) (T j)) : OnlyActive T g where
  running := by
    refine all_members (P := fun _ (s : State) => s.panicked = none) hrunning fun j hj => ?_
    rw [hothers j hj]
    exact h.running j
  others := fun j hj => (hothers j hj).cuts.trans (h.others j hj)

/-- A producer that moves is running. -/
theorem ProducerStep.running {p : Producer} {s t : State} {k : Label} (h : ProducerStep p s k t)
    (hown : k ≠ .others) : s.panicked = none := by
  cases h with
  | others hs => cases hs <;> exact absurd rfl hown
  | _ => assumption

/-- A producer that is made can run by itself. -/
theorem ExporterRun.of_producer {g : Nat} {t : State} (hmade : g < x.generations)
    (hactive : OnlyActive x.producers g)
    (h : RunWhere (e.generation g) (fun _ k => k ≠ .call ∧ k ≠ .others) (x.producers g) t)
    (ht : t.panicked = none) :
    ∃ T, ExporterRun e (fun _ _ => True) x { x with producers := T } ∧ T g = t ∧
      OnlyActive T g := by
  induction h with
  | refl => exact ⟨x.producers, .refl, rfl, hactive⟩
  | @tail s t k before admitted last ih =>
      obtain ⟨S, hS, rfl, hactiveS⟩ := ih (last.running admitted.2)
      obtain ⟨T, rfl, hothers⟩ := exists_moved S g t
      have hstep := ExporterStep.producer (e := e) (x := { x with producers := S }) (Or.inl hmade)
        admitted.1 (.of_own last admitted.2) hothers hactiveS.running rfl rfl
      exact ⟨T, hS.tail trivial hstep, rfl, hactiveS.moved ht hothers⟩

/-- The exporter is started, and a request has found its producer. -/
def sampleFound : ExporterState :=
  { newExporter sampleExporter emptyStore [] with
    producer := some 0
    generations := 1
    gauge := some 0
    requests := [⟨.metrics 1 1, .ok [7], none, .found 0, none⟩]
    counters := (Counters.recordRequestStart (fun _ => 0) (.metrics 1 1)).recordMarshal 1 }

/-- The request has called `Append`. -/
def sampleAppending (S : Nat → State) : ExporterState :=
  { sampleFound with
    requests := [⟨.metrics 1 1, .ok [7], none, .appending, some (0, 0)⟩]
    producers := S }

/-- The exporter is started, and a request finds the producer. -/
theorem sample_finds : ExporterRun sampleExporter (fun _ _ => True)
    (newExporter sampleExporter emptyStore []) sampleFound := by
  have hrun := (Reach.refl : ExporterRun sampleExporter (fun _ _ => True)
      (newExporter sampleExporter emptyStore []) _)
    |>.tail trivial (.lifecycle (fun _ => rfl) (.startCreates sampleExporter_valid rfl rfl))
    |>.tail trivial (.lifecycle (fun _ => rfl) (.startPublishes rfl))
    |>.tail trivial (.request (fun _ => rfl) (.begin (.metrics 1 1) (.ok [7])))
    |>.tail trivial (.request (fun _ => rfl) (.moves (i := 0) rfl (.accept rfl rfl)))
    |>.tail trivial (.request (fun _ => rfl) (.moves (i := 0) rfl (.marshals rfl rfl)))
    |>.tail trivial (.request (fun _ => rfl) (.moves (i := 0) rfl (.finds rfl rfl rfl)))
  exact hrun

/-- The request returns nil. -/
theorem sample_acknowledges : ∃ x, ExporterRun sampleExporter (fun _ _ => True)
    (newExporter sampleExporter emptyStore []) x ∧ x.generations = 1 ∧
      (∀ g, ∀ b ∈ emittedOf (x.producers g).hist.cuts, b = sampleExportBatch ∧ g = 0) ∧
      ∃ r ∈ x.requests, r.marshaled = .ok [7] ∧ r.phase = .returned .acknowledged := by
  have hactive : OnlyActive sampleFound.producers 0 := ⟨fun _ => rfl, fun _ _ => rfl⟩
  obtain ⟨S, hS, hothers⟩ := exists_moved sampleFound.producers 0 sampleHandedOver
  have hhanded : ExporterRun sampleExporter (fun _ _ => True) _ (sampleAppending S) :=
    sample_finds.tail trivial (.request (fun _ => rfl)
      (.appends (i := 0) (T := S) rfl rfl rfl hS hothers))
  obtain ⟨t, hquiet, ht, hcuts, ⟨c, hcall, hreturned⟩, hresult⟩ := sample_exports
  rw [← hS] at hquiet
  have hrunning : (S 0).panicked = none := by
    rw [hS]
    rfl
  obtain ⟨T, hT, rfl, hactiveT⟩ := ExporterRun.of_producer (e := sampleExporter)
    (x := sampleAppending S) (g := 0) Nat.one_pos (hactive.moved hrunning hothers) hquiet ht
  have hrun := (hhanded.trans hT)
    |>.tail trivial
      (.request hactiveT.running (.moves (i := 0) rfl (.enqueued rfl rfl hcall hreturned)))
    |>.tail trivial (.request hactiveT.running (.moves (i := 0) rfl (.durable rfl rfl hresult)))
    |>.tail trivial (.request hactiveT.running (.moves (i := 0) rfl (.settles rfl)))
  refine ⟨_, hrun, rfl, fun g b hb => ?_, _, List.mem_singleton.mpr rfl, rfl, rfl⟩
  change b ∈ emittedOf (T g).hist.cuts at hb
  by_cases hg : g = 0
  · subst hg
    rw [hcuts] at hb
    exact ⟨List.mem_singleton.mp hb, rfl⟩
  · rw [hactiveT.others g hg] at hb
    exact absurd hb List.not_mem_nil

/-! ## Durability for requests -/

/-- **An acknowledged request is stored.**  In every run of an exporter, through any
number of `Start` and `Shutdown` calls, its producers have one common log of all entries
that ever were in the manifest; the manifest object decodes to those that consumers have
left.  What a request that returned nil has marshaled can be read back from the object of
one of the entries of the log, with metadata that names the signal of the request; and
each entry of the exporter's producers can be read, and holds only what requests have
marshaled. -/
theorem acknowledged_requests_stored (hz : e.zstd.Lawful) (hapart : e.Apart (x.generations + 1))
    (hstart : StartsFrom store e.config.ManifestPath items)
    (hrun : ExporterRun e allowed (newExporter e store items) x)
    (hrep : ∀ g ≤ x.generations, ∀ b ∈ emittedOf (x.producers g).hist.cuts,
      (e.generation g).Representable b) :
    ∃ now M, Joined (x.fleet (x.generations + 1)) now M ∧
      (now.objects e.config.ManifestPath = none → M.log = []) ∧
      (∀ obj, now.objects e.config.ManifestPath = some obj → ∃ entries,
        DecodeManifestEntries obj.data = .ok entries ∧
          entries.map QueueEntry.item = (M.log.drop M.dropped).map Prod.snd) ∧
      (∀ r ∈ x.requests, r.phase = .returned .acknowledged → ∃ g k item records,
        (some (g, k), item) ∈ M.log ∧ readAppends e.zstd now item = some records ∧
          ∃ record ∈ records, r.stores record) ∧
      ∀ g k item, (some (g, k), item) ∈ M.log → ∃ records,
        readAppends e.zstd now item = some records ∧
          ∀ record ∈ records, ∃ r ∈ x.requests, r.stores record := by
  have hlife := reachable_lifecycle hrun
  have hfleet := reachable_fleetKept hapart.sharing hstart (hrun.fleet (Nat.lt_succ_self _))
  have hkept := reachable_requestsKept hrun
  have hchecked := reachable_checked hrun
  have hfits : FitsFormats (e.fleet (x.generations + 1)) (x.fleet (x.generations + 1)) :=
    fun g => hrep g (Nat.le_of_lt_succ g.isLt)
  have hmembers := hfleet.members hfits
  obtain ⟨now, M, hjoined⟩ := hfleet.joined
  have hholds := hfleet.holds hapart.sharing hstart hfits hjoined 0
  refine ⟨now, M, hjoined, fun hnone => (hholds.missing hnone).1,
    fun obj hobj => hholds.decodes hobj, ?_, ?_⟩
  · intro r hr hphase
    obtain ⟨i, hi⟩ := List.mem_iff_getElem?.mp hr
    obtain ⟨g, call, hhandle, hresult⟩ := (hkept.proper i r hi).durable (by rw [hphase]; rfl)
    have hlt := hlife.found r hr g (Or.inr ⟨call, hhandle⟩)
    obtain ⟨g, rfl⟩ : ∃ g' : Fin (x.generations + 1), (g' : Nat) = g :=
      ⟨⟨g, Nat.lt_succ_of_lt hlt⟩, rfl⟩
    obtain ⟨b, hemitted, ⟨m, hm, rfl⟩, hentry⟩ := hfleet.resolved_entry hfits hjoined hresult
    obtain ⟨b', hb', hordinal, hitem, hstored⟩ :=
      hfleet.entry_stored hapart.sharing hfits hjoined hentry
    have hbooks := reachable_books (hmembers g)
    obtain rfl : b' = b := hbooks.conserved.emitted_inj hb' hemitted hordinal
    -- The message is that of the request: both have the same append call.
    obtain ⟨j, r', hj, hhandle', hstores⟩ :=
      hkept.message hchecked (reachable_appendCalls (hmembers g))
        (hbooks.emitted_accepted hemitted hm)
    obtain rfl : i = j := hkept.distinct i j r r' _ hi hj hhandle hhandle'
    obtain rfl : r = r' := Option.some.inj (hi.symm.trans hj)
    exact ⟨g, _, _, _, hentry, hstored.readAppends hz (hfits g _ hemitted).count,
      m.request, List.mem_map.mpr ⟨m, hm, rfl⟩, hstores⟩
  · intro g k item hentry
    obtain ⟨b, hemitted, hordinal, rfl, hstored⟩ :=
      hfleet.entry_stored hapart.sharing hfits hjoined hentry
    refine ⟨_, hstored.readAppends hz (hfits g _ hemitted).count, fun record hrecord => ?_⟩
    obtain ⟨m, hm, rfl⟩ := List.mem_map.mp hrecord
    obtain ⟨i, r, hr, -, hstores⟩ :=
      hkept.message hchecked (reachable_appendCalls (hmembers g))
        ((reachable_books (hmembers g)).emitted_accepted hemitted hm)
    exact ⟨r, List.mem_of_getElem? hr, hstores⟩

/-- A request of the sample exporter is acknowledged, with its record in the store. -/
theorem acknowledged_requests_stored_sample :
    ∃ x now M, ExporterRun sampleExporter (fun _ _ => True)
        (newExporter sampleExporter emptyStore []) x ∧
      Joined (x.fleet (x.generations + 1)) now M ∧ ∃ r ∈ x.requests,
        r.phase = .returned .acknowledged ∧ ∃ g k item records, (some (g, k), item) ∈ M.log ∧
          readAppends sampleZstd now item = some records ∧ ∃ record ∈ records, r.stores record := by
  obtain ⟨x, hrun, hgenerations, hemitted, r, hr, -, hphase⟩ := sample_acknowledges
  have hapart : sampleExporter.Apart (x.generations + 1) := by
    rw [hgenerations]
    refine ⟨fun _ _ _ _ => rfl, ?_, fun g k _ =>
      Producer.location_ne_of_not_under sampleExporter_manifest k⟩
    intro g h hg hh heq
    have hlt : ∀ n < 2, (UInt8.ofNat n).toNat = n := by decide
    rw [← hlt g hg, ← hlt h hh, (List.cons.inj heq).1]
  have hrep : ∀ g ≤ x.generations, ∀ b ∈ emittedOf (x.producers g).hist.cuts,
      (sampleExporter.generation g).Representable b := by
    intro g _ b hb
    obtain ⟨rfl, rfl⟩ := hemitted g b hb
    exact ⟨by decide, by unfold ItemFits; decide⟩
  obtain ⟨now, M, hjoined, -, -, hstored, -⟩ :=
    acknowledged_requests_stored sampleZstd_lawful hapart
    (emptyStore_startsFrom _) hrun hrep
  exact ⟨x, now, M, hrun, hjoined, r, hr, hphase, hstored r hr hphase⟩

end OpenDataBuffer
