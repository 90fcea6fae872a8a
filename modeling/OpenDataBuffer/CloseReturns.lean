import OpenDataBuffer.AppendOutcomes
import OpenDataBuffer.BudgetBounds
import OpenDataBuffer.CommitLog
import OpenDataBuffer.ExactlyOnce
import OpenDataBuffer.Halting

/-!
# What it means that Close has returned

`Close` waits for five channels, one after the other, with its context as the
ceiling.  If the context does not fire, all goroutines have ended when it returns,
every accepted message is answered, and the producer never touches the store again:
an `AppendContext` that comes later gets no handle.  If it does fire, `Close` closes
`shutdownCh` and returns without waiting; nothing of this holds then.
-/

namespace OpenDataBuffer

open LabelledRuns ListUpdate

variable {p : Producer} {s t : State} {l : Label}

/-! ## The channels stay closed -/

/-- An encoder pool that has ended has ended for good. -/
theorem encoderPool_done_mono (hs : ProducerStep p s l t) (h : s.encoderPool = .done) :
    t.encoderPool = .done := by
  cases hs with
  | encoder _ hs => cases hs <;> simp_all
  | append _ hs => cases hs <;> exact h
  | flush _ hs => cases hs <;> exact h
  | close _ hs => cases hs <;> exact h
  | rotator _ hs => cases hs <;> exact h
  | uploader _ hs => cases hs <;> exact h
  | committer _ hs => cases hs <;> exact h
  | resolver _ hs => cases hs <;> exact h
  | others hs => cases hs <;> exact h

theorem uploaderPool_done_mono (hs : ProducerStep p s l t) (h : s.uploaderPool = .done) :
    t.uploaderPool = .done := by
  cases hs with
  | uploader _ hs => cases hs <;> simp_all
  | append _ hs => cases hs <;> exact h
  | flush _ hs => cases hs <;> exact h
  | close _ hs => cases hs <;> exact h
  | rotator _ hs => cases hs <;> exact h
  | encoder _ hs => cases hs <;> exact h
  | committer _ hs => cases hs <;> exact h
  | resolver _ hs => cases hs <;> exact h
  | others hs => cases hs <;> exact h

theorem committer_exited_mono (hs : ProducerStep p s l t) (h : s.committer.phase = .exited) :
    t.committer.phase = .exited := by
  cases hs with
  | committer _ hs => cases hs <;> simp_all
  | resolver _ hs => cases hs <;> simp_all
  | append _ hs => cases hs <;> exact h
  | flush _ hs => cases hs <;> exact h
  | close _ hs => cases hs <;> exact h
  | rotator _ hs => cases hs <;> exact h
  | encoder _ hs => cases hs <;> exact h
  | uploader _ hs => cases hs <;> exact h
  | others hs => cases hs <;> exact h

theorem resolver_exited_mono (hs : ProducerStep p s l t) (h : s.resolver = .exited) :
    t.resolver = .exited := by
  cases hs with
  | resolver _ hs => cases hs <;> simp_all
  | append _ hs => cases hs <;> exact h
  | flush _ hs => cases hs <;> exact h
  | close _ hs => cases hs <;> exact h
  | rotator _ hs => cases hs <;> exact h
  | encoder _ hs => cases hs <;> exact h
  | uploader _ hs => cases hs <;> exact h
  | committer _ hs => cases hs <;> exact h
  | others hs => cases hs <;> exact h

/-- A done channel stays closed. -/
theorem doneClosed_mono (hs : ProducerStep p s l t) {d : DoneChannel} (h : s.doneClosed d) :
    t.doneClosed d := by
  cases d with
  | rotatorDone => exact rotator_exited_mono hs h
  | encoderPoolDone => exact encoderPool_done_mono hs h
  | uploaderPoolDone => exact uploaderPool_done_mono hs h
  | committerDone => exact committer_exited_mono hs h
  | resolverDone => exact resolver_exited_mono hs h

/-! ## The flush of Close -/

/-- The flush call has returned this. -/
def State.FlushReturned (s : State) (f : Nat) (err : Option BufferError) : Prop :=
  ∃ c, s.flushes[f]? = some c ∧ c.phase = .returned err

/-- A flush call that moves has not returned, or stays where it was. -/
theorem FlushReturned.set {calls : List FlushCall} {f g : Nat} {c d d' : FlushCall}
    {err : Option BufferError} (hc : calls[f]? = some c) (hreturned : c.phase = .returned err)
    (hd : calls[g]? = some d) (hmove : ∀ e, d.phase = .returned e → d'.phase = .returned e) :
    ∃ c', (calls.set g d')[f]? = some c' ∧ c'.phase = .returned err := by
  by_cases hfg : f = g
  · subst hfg
    obtain rfl : c = d := Option.some.inj (hc.symm.trans hd)
    exact ⟨d', getElem?_set_same hd, hmove err hreturned⟩
  · rw [List.getElem?_set_ne (Ne.symm hfg)]
    exact ⟨c, hc, hreturned⟩

/-- A call that has returned is where it was when another call begins. -/
theorem FlushReturned.append {calls : List FlushCall} {f : Nat} {c d : FlushCall}
    {err : Option BufferError} (hc : calls[f]? = some c) (hreturned : c.phase = .returned err) :
    ∃ c', (calls ++ [d])[f]? = some c' ∧ c'.phase = .returned err := by
  rw [List.getElem?_append_left (List.getElem?_eq_some_iff.mp hc).1]
  exact ⟨c, hc, hreturned⟩

/-- A flush that has returned has returned for good. -/
theorem flushReturned_mono (hs : ProducerStep p s l t) {f : Nat} {err : Option BufferError}
    (h : s.FlushReturned f err) : t.FlushReturned f err := by
  obtain ⟨c, hc, hreturned⟩ := h
  cases hs with
  | flush _ hs =>
      cases hs with
      | begin => exact FlushReturned.append hc hreturned
      | ctxDone text hcall hctx => exact FlushReturned.set hc hreturned hcall fun _ h => h
      | requestDone hcall hphase | requestCtx hcall hphase | receiveAck hcall hphase
      | awaitDone hcall hphase | awaitCtx hcall hphase | drained hcall hphase | park hcall hphase
      | wake hcall hphase | parkedCtx hcall hphase | parkedShutdown hcall hphase =>
          exact FlushReturned.set hc hreturned hcall (by simp [hphase])
  | close _ hs =>
      cases hs with
      | begin => exact FlushReturned.append hc hreturned
      | _ => exact ⟨c, hc, hreturned⟩
  | rotator _ hs =>
      cases hs with
      | takeFlush hphase hcall hrequest =>
          exact FlushReturned.set hc hreturned hcall (by simp [hrequest])
      | ack hphase hcall hroom => exact FlushReturned.set hc hreturned hcall fun _ h => h
      | _ => exact ⟨c, hc, hreturned⟩
  | resolver _ hs =>
      cases hs with
      | ack hphase hack hcall hroom => exact FlushReturned.set hc hreturned hcall fun _ h => h
      | _ => exact ⟨c, hc, hreturned⟩
  | append _ hs => cases hs <;> exact ⟨c, hc, hreturned⟩
  | encoder _ hs => cases hs <;> exact ⟨c, hc, hreturned⟩
  | uploader _ hs => cases hs <;> exact ⟨c, hc, hreturned⟩
  | committer _ hs => cases hs <;> exact ⟨c, hc, hreturned⟩
  | others hs => cases hs <;> exact ⟨c, hc, hreturned⟩

/-! ## The waits of Close -/

/-- What is true at each point of `Close`. -/
def ClosePhase.Holds (s : State) : ClosePhase → Prop
  | .flushing f => f < s.flushes.length
  | .closing f err => s.FlushReturned f err
  | .waiting f err left => s.appendCh.closed = true ∧ s.FlushReturned f err ∧
      ∃ closed, dones = closed ++ left ∧ ∀ d ∈ closed, s.doneClosed d
  | .returned f err => s.shutdown = true ∨ s.Ended ∧ s.FlushReturned f err
  | _ => True

/-- Calls of `Flush` are never forgotten. -/
theorem flushes_length_mono (hs : ProducerStep p s l t) : s.flushes.length ≤ t.flushes.length := by
  cases hs with
  | append _ hs => cases hs <;> exact Nat.le_refl _
  | flush _ hs => cases hs <;> simp
  | close _ hs => cases hs <;> simp
  | rotator _ hs => cases hs <;> simp
  | encoder _ hs => cases hs <;> exact Nat.le_refl _
  | uploader _ hs => cases hs <;> exact Nat.le_refl _
  | committer _ hs => cases hs <;> exact Nat.le_refl _
  | resolver _ hs => cases hs <;> simp
  | others hs => cases hs <;> exact Nat.le_refl _

/-- What `Close` has established so far stays true. -/
theorem ClosePhase.Holds.mono {phase : ClosePhase} (hs : ProducerStep p s l t)
    (h : phase.Holds s) : phase.Holds t := by
  cases phase with
  | flushing f => exact Nat.lt_of_lt_of_le h (flushes_length_mono hs)
  | closing f err => exact flushReturned_mono hs h
  | waiting f err left =>
      obtain ⟨hchannel, hflush, closed, hdones, hclosed⟩ := h
      exact ⟨(closed_step hs hchannel).1, flushReturned_mono hs hflush, closed, hdones,
        fun d hd => doneClosed_mono hs (hclosed d hd)⟩
  | returned f err =>
      rcases h with hshutdown | ⟨hended, hflush⟩
      · exact Or.inl (shutdown_mono hs hshutdown)
      · exact Or.inr ⟨fun d => doneClosed_mono hs (hended d), flushReturned_mono hs hflush⟩
  | _ => trivial

/-- `Close` waits for every done channel. -/
theorem mem_dones (d : DoneChannel) : d ∈ dones := by
  cases d <;> decide

/-- A move of `Close` establishes what its next phase says. -/
theorem closeHolds_step (h : s.close.Holds s) (hs : ProducerStep p s l t) : t.close.Holds t := by
  have hkept := h.mono hs
  cases hs with
  | close _ hs =>
      cases hs with
      | begin => simp [ClosePhase.Holds]
      | flushed hphase hcall hreturned => exact ⟨_, hcall, hreturned⟩
      | closeAppendCh hphase =>
          rw [hphase] at h
          exact ⟨rfl, h, [], rfl, fun d hd => absurd hd List.not_mem_nil⟩
      | @wait f err d left hphase hdone =>
          rw [hphase] at h
          obtain ⟨hchannel, hflush, closed, hdones, hclosed⟩ := h
          have hall : dones = (closed ++ [d]) ++ left := by
            rw [hdones, List.append_assoc]
            rfl
          refine ⟨hchannel, hflush, closed ++ [d], hall, fun d' hd' => ?_⟩
          rcases List.mem_append.mp hd' with hold | hnew
          · exact hclosed d' hold
          · obtain rfl := List.mem_singleton.mp hnew
            exact hdone
      | expired => trivial
      | force => exact Or.inl rfl
      | finish hphase =>
          rw [hphase] at h
          obtain ⟨-, hflush, closed, hdones, hclosed⟩ := h
          rw [List.append_nil] at hdones
          exact Or.inr ⟨fun d => hclosed d (hdones ▸ mem_dones d), hflush⟩
  | append _ hs => cases hs <;> exact hkept
  | flush _ hs => cases hs <;> exact hkept
  | rotator _ hs => cases hs <;> exact hkept
  | encoder _ hs => cases hs <;> exact hkept
  | uploader _ hs => cases hs <;> exact hkept
  | committer _ hs => cases hs <;> exact hkept
  | resolver _ hs => cases hs <;> exact hkept
  | others hs => cases hs <;> exact hkept

/-- Wherever `Close` stands, what it has waited for has happened. -/
theorem reachable_closeHolds {allowed : State → Label → Prop} {store : ObjectStore}
    {items : List EnqueueItem} (hrun : RunWhere p allowed (newProducer p store items) s) :
    s.close.Holds s :=
  hrun.invariant (P := fun x => x.close.Holds x) trivial fun _ _ _ hx _ hs => closeHolds_step hx hs

/-! ## After the end -/

/-- Once all goroutines have ended, only the callers and the other parties move. -/
theorem ProducerStep.of_ended (hst : Stages p s) (hended : s.Ended) (hs : ProducerStep p s l t) :
    AppendStep p s l t ∨ FlushStep s l t ∨ CloseStep s l t ∨ OthersStep p s l t := by
  have hrotator : s.rotator.phase = .exited := hended .rotatorDone
  have hcommitter : s.committer.phase = .exited := hended .committerDone
  have hresolver : s.resolver = .exited := hended .resolverDone
  have hpool : s.encoderPool = .done := hended .encoderPoolDone
  have hpool' : s.uploaderPool = .done := hended .uploaderPoolDone
  have hencoder : ∀ {i : Nat} {e : EncoderPhase}, s.encoders[i]? = some e → e = .exited := fun he =>
    hst.encoded_closed (by rw [hpool]; decide) _ (List.mem_of_getElem? he)
  have huploader : ∀ {i : Nat} {u : UploaderPhase}, s.uploaders[i]? = some u → u = .exited :=
    fun hu => hst.uploads_done (by rw [hpool']; decide) _ (List.mem_of_getElem? hu)
  cases hs with
  | append _ hs => exact Or.inl hs
  | flush _ hs => exact Or.inr (Or.inl hs)
  | close _ hs => exact Or.inr (Or.inr (Or.inl hs))
  | others hs => exact Or.inr (Or.inr (Or.inr hs))
  | rotator _ hs => cases hs <;> simp_all
  | encoder _ hs =>
      cases hs with
      | closeEncoded h | closePoolDone h => rw [hpool] at h; cases h
      | _ => cases hencoder ‹_›
  | uploader _ hs =>
      cases hs with
      | closeCompletions h | closePoolDone h => rw [hpool'] at h; cases h
      | take henc hup => cases huploader hup
      | _ => cases huploader ‹_›
  | committer _ hs => cases hs <;> simp_all
  | resolver _ hs =>
      cases hs with
      | closeResolver _ hopen => rw [hst.resolver_exited hresolver] at hopen; cases hopen
      | _ => simp_all

/-- Where a flush call is that came after the end: no rotator takes its request. -/
def FlushPhase.Late (phase : FlushPhase) : Prop :=
  phase = .requesting ∨ ∃ err, phase = .returned (some err)

/-- The flush calls from `n` on are late. -/
def LateFrom (n : Nat) (calls : List FlushCall) : Prop :=
  ∀ (f : Nat) (c : FlushCall), n ≤ f → calls[f]? = some c → c.phase.Late

/-- A late call that moves on is late. -/
theorem LateFrom.set {n f : Nat} {calls : List FlushCall} {c c' : FlushCall}
    (h : LateFrom n calls) (hc : calls[f]? = some c) (hmove : c.phase.Late → c'.phase.Late) :
    LateFrom n (calls.set f c') := by
  intro g d hg hd
  rcases getElem?_set_cases hd with ⟨rfl, rfl⟩ | ⟨_, hd⟩
  · exact hmove (h _ c hg hc)
  · exact h g d hg hd

/-- A call that begins at the end of the list is one more late call. -/
theorem LateFrom.append {n : Nat} {calls : List FlushCall} {c : FlushCall}
    (h : LateFrom n calls) (hc : c.phase.Late) : LateFrom n (calls ++ [c]) := by
  intro g d hg hd
  rcases getElem?_concat_cases hd with ⟨_, rfl⟩ | hold
  · exact hc
  · exact h g d hg hold

/-- The calls made after the end do not get past the request. -/
theorem LateFrom.flushStep {n : Nat} (h : LateFrom n s.flushes) (hs : FlushStep s l t) :
    LateFrom n t.flushes := by
  cases hs with
  | begin => exact h.append (Or.inl rfl)
  | ctxDone text hcall hctx => exact h.set hcall id
  | requestDone hcall hphase | requestCtx hcall hphase | receiveAck hcall hphase
  | awaitDone hcall hphase | awaitCtx hcall hphase | drained hcall hphase | park hcall hphase
  | wake hcall hphase | parkedCtx hcall hphase | parkedShutdown hcall hphase =>
      exact h.set hcall (by simp [FlushPhase.Late, hphase])

/-- What is left of a producer whose goroutines have ended: nothing it has accepted,
answered or written changes.  The others may append to the manifest and write
objects of their own, and a flush that comes now fails. -/
structure Silent (p : Producer) (s t : State) : Prop where
  ended : t.Ended
  accepted : t.hist.accepted = s.hist.accepted
  resolved : t.hist.resolved = s.hist.resolved
  objects : ∀ k, p.location k ≠ p.config.ManifestPath →
    t.store.objects (p.location k) = s.store.objects (p.location k)
  log : ∃ items : List EnqueueItem,
    t.hist.manifest.log = s.hist.manifest.log ++ items.map (Prod.mk none)
  flushes : LateFrom s.flushes.length t.flushes

/-- A producer that has ended starts to be silent. -/
theorem Silent.refl (hended : s.Ended) : Silent p s s where
  ended := hended
  accepted := rfl
  resolved := rfl
  objects := fun _ _ => rfl
  log := ⟨[], by simp⟩
  flushes := fun f c hf hc => absurd (List.getElem?_eq_some_iff.mp hc).1 (by omega)

/-- **Step rule for silence.**  The goroutines have exited, so only callers and other
parties can move, and no call is accepted: `appendCh` is closed. -/
theorem Silent.step {x y : State} (h : Silent p s x) (hst : Stages p x)
    (hs : ProducerStep p x l y) : Silent p s y := by
  have hended : y.Ended := fun d => doneClosed_mono hs (h.ended d)
  have hclosed := (hst.last (by rw [show x.rotator.phase = .exited from h.ended .rotatorDone]
                                trivial)).1
  rcases hs.of_ended hst h.ended with hs | hs | hs | hs
  · cases hs with
    | send hcall hphase hopen => rw [hclosed] at hopen; cases hopen
    | _ => exact { h with ended := hended }
  · have hflushes := h.flushes.flushStep hs
    cases hs <;> exact { h with ended := hended, flushes := hflushes }
  · cases hs with
    | begin => exact { h with ended := hended, flushes := h.flushes.append (Or.inl rfl) }
    | _ => exact { h with ended := hended }
  · cases hs with
    | @write k items obj hk hdata hnames =>
        obtain ⟨before, hlog⟩ := h.log
        refine { h with ended := hended, objects := fun k hk => ?_, log := ⟨before ++ items, ?_⟩ }
        · rw [← h.objects k hk]
          exact VersionedStore.Store.write_of_ne x.store obj hk
        · simp [hlog]
    | @object path obj hmanifest hown hnames =>
        refine { h with ended := hended, objects := fun k hk => ?_ }
        rw [← h.objects k hk]
        exact VersionedStore.Store.write_of_ne x.store obj (hown k)

/-- A producer that has ended is silent for ever. -/
theorem silent_run {allowed : State → Label → Prop} (hst : Stages p s) (hended : s.Ended)
    (hrun : RunWhere p allowed s t) : Silent p s t :=
  (hrun.invariant (P := fun x => Stages p x ∧ Silent p s x) ⟨hst, Silent.refl hended⟩
    fun _ _ _ hx _ hs => ⟨hx.1.step hs, hx.2.step hx.1 hs⟩).2

/-- **When `Close` has returned, the producer is done.**  Unless its context fired,
all goroutines have ended and everything accepted has been answered; what `Close`
returns is what its flush returned.  From then on no call is accepted, no answer
changes, the producer writes nothing, and a later flush fails. -/
theorem close_is_final {store : ObjectStore} {items : List EnqueueItem}
    {f : Nat} {err : Option BufferError} (hrun : Run p (newProducer p store items) s)
    (hreturned : s.close = .returned f err) (hctx : s.shutdown = false) :
    s.Ended ∧ AllTerminated s ∧ s.FlushReturned f err ∧
    ∀ t, Run p s t → Silent p s t ∧
      ∀ (i : Nat) (c : AppendCall), t.appends[i]? = some c → c.phase.Sent →
        ∃ c', s.appends[i]? = some c' ∧ c'.phase.Sent := by
  have hholds := reachable_closeHolds hrun
  rw [hreturned] at hholds
  obtain ⟨hended, hflush⟩ : s.Ended ∧ s.FlushReturned f err :=
    hholds.resolve_left (by simp [hctx])
  have hst := reachable_stages hrun
  refine ⟨hended, reachable_allTerminated hrun (hended .resolverDone), hflush, fun t ht => ?_⟩
  have hsilent := silent_run hst hended ht
  refine ⟨hsilent, fun i c hc hsent => ?_⟩
  -- A call that has sent is on the record, and the record is that of the end.
  obtain ⟨m, hm, rfl⟩ := (reachable_appendCalls (hrun.trans ht)).recorded i c hc hsent
  rw [hsilent.accepted] at hm
  obtain ⟨c', hc', _, hsent'⟩ := (reachable_appendCalls hrun).accepted m hm
  exact ⟨c', hc', hsent'⟩

/-- The `Close` of the sample run returned, and with it all of the above. -/
theorem close_is_final_sample :
    sampleClosed.close = .returned 1 none ∧ sampleClosed.shutdown = false ∧
      sampleClosed.Ended ∧ AllTerminated sampleClosed ∧ sampleClosed.FlushReturned 1 none := by
  obtain ⟨hended, hall, hflush, _⟩ := close_is_final sample_run.run rfl rfl
  exact ⟨rfl, rfl, hended, hall, hflush⟩

end OpenDataBuffer
