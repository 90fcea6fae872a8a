import OpenDataBuffer.ProducerRuns

/-!
# How the stages close

The stages of the pipeline end one after the other.  The rotator ends once
`appendCh` is closed and empty; the encoders once `pendingCh` is closed; the
supervisor of the encoders closes `encodedCh` behind the last of them; and so on
down to the resolver.  `Stages` records, for every stage, what must have
happened before it ended.  Two things follow for every reachable state: only a
send on `appendCh` can find its channel closed (`Stages.panic`), and behind a
closed `uploadCompletionCh` all stages before the committer have ended
(`Stages.uploading_ended`).
-/

namespace OpenDataBuffer

/-- The rotator has found `appendCh` closed and is on its last batch, or behind
it. -/
def RotatorPhase.Last : RotatorPhase → Prop
  | .selecting => False
  | .draining _ => False
  | .acquiring reason _ => reason = .shutdown
  | .parked reason _ _ => reason = .shutdown
  | .dropping reason _ => reason = .shutdown
  | .resolvingDrop reason _ _ => reason = .shutdown
  | .acking reason _ _ => reason = .shutdown
  | .reconciling reason _ => reason = .shutdown
  | .sendingPending pb => pb.reason = .shutdown
  | .closingPending => True
  | .closingDone => True
  | .exited => True

theorem last_afterEmit {reason : FlushReason} (h : (afterEmit reason).Last) :
    reason = .shutdown := by
  unfold afterEmit at h
  split at h
  · assumption
  · exact h.elim

theorem last_emit {reason : FlushReason} {ack : Option Nat} {b : OpenBatch}
    (h : (emit reason ack b).Last) : reason = .shutdown := by
  unfold emit at h
  split at h
  · cases ack with
    | none => exact last_afterEmit h
    | some f => exact h
  · exact h

theorem last_afterAdd {p : Producer} {b : OpenBatch} : ¬ (p.afterAdd b).Last := by
  intro h
  unfold Producer.afterAdd at h
  split at h
  · cases last_emit h
  · exact h

theorem last_afterDrop {reason : FlushReason} {ack : Option Nat}
    (h : (afterDrop reason ack).Last) : reason = .shutdown := by
  cases ack with
  | none => exact last_afterEmit h
  | some f => exact h

/-- What must have happened before a stage ended. -/
structure Stages (p : Producer) (s : State) : Prop where
  last : s.rotator.phase.Last → s.appendCh.closed = true ∧ s.appendCh.queue = []
  encoders : s.encoders.length = p.encodeConcurrency
  uploaders : s.uploaders.length = p.uploadConcurrency
  encoder_exited : .exited ∈ s.encoders → s.pendingClosed
  encoded_closed : s.encoderPool ≠ .waiting → ∀ e ∈ s.encoders, e = .exited
  uploader_exited : .exited ∈ s.uploaders → s.encoderPool ≠ .waiting
  completions_closed : s.uploadCompletionCh.closed = true → s.uploaderPool ≠ .waiting
  completions_open : s.uploadCompletionCh.closed = false → s.uploaderPool = .waiting
  uploads_done : s.uploaderPool ≠ .waiting → ∀ u ∈ s.uploaders, u = .exited
  committer_closed : s.committer.closed = true →
    s.uploadCompletionCh.closed = true ∧ s.uploadCompletionCh.queue = []
  committer_exited : s.committer.phase = .exited → s.committer.closed = true
  resolver_closed : s.resolverClosed = true → s.committer.phase = .exited
  resolver_exited : s.resolver = .exited → s.resolverClosed = true
  panic : s.panicked = none ∨ s.panicked = some .appendCh

variable {p : Producer} {s t : State} {l : Label}

/-! ## What is behind a closed channel -/

section Behind

variable (h : Stages p s)

include h

/-- Behind a closed `encodedCh` the rotator and the encoders have ended. -/
theorem Stages.encoding_ended (hpool : s.encoderPool ≠ .waiting) :
    s.pendingClosed ∧ ∀ e ∈ s.encoders, e = .exited := by
  have hall := h.encoded_closed hpool
  refine ⟨h.encoder_exited ?_, hall⟩
  have hpos : 0 < s.encoders.length := h.encoders ▸ atLeastOne_pos _
  have hmem := List.getElem_mem hpos
  exact hall _ hmem ▸ hmem

/-- Behind a closed `uploadCompletionCh` everything before the committer has
ended. -/
theorem Stages.uploading_ended (hclosed : s.uploadCompletionCh.closed = true) :
    s.encoderPool ≠ .waiting ∧ ∀ u ∈ s.uploaders, u = .exited := by
  have hall := h.uploads_done (h.completions_closed hclosed)
  refine ⟨h.uploader_exited ?_, hall⟩
  have hpos : 0 < s.uploaders.length := h.uploaders ▸ atLeastOne_pos _
  have hmem := List.getElem_mem hpos
  exact hall _ hmem ▸ hmem

/-- The committer leaves when its channel is closed and empty. -/
theorem Stages.completions_closed_of_exited (hdone : s.committer.phase = .exited) :
    s.uploadCompletionCh.closed = true ∧ s.uploadCompletionCh.queue = [] :=
  h.committer_closed (h.committer_exited hdone)

/-- While the committer runs, `resolverCh` is open. -/
theorem Stages.resolver_open (hphase : s.committer.phase ≠ .exited) : s.resolverClosed = false := by
  cases hclosed : s.resolverClosed with
  | false => rfl
  | true => exact absurd (h.resolver_closed hclosed) hphase

/-- While an encoder runs, `uploadCompletionCh` is open. -/
theorem Stages.completions_open_of_encoder {e : EncoderPhase} (he : e ∈ s.encoders)
    (hne : e ≠ .exited) : s.uploadCompletionCh.closed = false := by
  cases hclosed : s.uploadCompletionCh.closed with
  | false => rfl
  | true => exact absurd (h.encoded_closed (h.uploading_ended hclosed).1 e he) hne

/-- While an uploader runs, `uploadCompletionCh` is open. -/
theorem Stages.completions_open_of_uploader {u : UploaderPhase} (hu : u ∈ s.uploaders)
    (hne : u ≠ .exited) : s.uploadCompletionCh.closed = false := by
  cases hclosed : s.uploadCompletionCh.closed with
  | false => rfl
  | true => exact absurd ((h.uploading_ended hclosed).2 u hu) hne

/-- While an encoder runs, `encodedCh` is open. -/
theorem Stages.encoded_open {e : EncoderPhase} (he : e ∈ s.encoders) (hne : e ≠ .exited) :
    s.encoderPool = .waiting := by
  by_contra hpool
  exact hne (h.encoded_closed hpool e he)

end Behind

/-! ## The steps -/

/-- Callers move nothing through the stages but their messages. -/
theorem Stages.appendStep (h : Stages p s) (hs : AppendStep p s l t) : Stages p t := by
  cases hs with
  | send hcall hphase hopen hroom =>
      refine { h with last := fun hlast => ?_ }
      have hclosed := (h.last hlast).1
      simp [hopen] at hclosed
  | sendClosed hcall hphase hclosed => exact { h with panic := Or.inr rfl }
  | _ => exact { h with }

/-- Flush calls move nothing through the stages. -/
theorem Stages.flushStep (h : Stages p s) (hs : FlushStep s l t) : Stages p t := by
  cases hs <;> exact { h with }

/-- `Close` closes the append channel, before any stage has ended. -/
theorem Stages.closeStep (h : Stages p s) (hs : CloseStep s l t) : Stages p t := by
  cases hs with
  | closeAppendCh hphase =>
      exact { h with last := fun hlast => ⟨rfl, (h.last hlast).2⟩ }
  | _ => exact { h with }

/-- A closed `pendingCh` stays closed. -/
theorem RotatorStep.pendingClosed (hs : RotatorStep p s l t) (hclosed : s.pendingClosed) :
    t.pendingClosed := by
  rcases hclosed with hclosed | hclosed <;> cases hs <;> simp_all [State.pendingClosed]

/-- The last batch was cut behind the last message. -/
theorem Stages.last_of_reason (h : Stages p s) {phase : RotatorPhase}
    (hphase : s.rotator.phase = phase) (hlast : phase.Last) :
    s.appendCh.closed = true ∧ s.appendCh.queue = [] :=
  h.last (hphase ▸ hlast)

/-- The rotator leaves when the append channel is closed and empty. -/
theorem Stages.rotatorStep (h : Stages p s) (hs : RotatorStep p s l t) : Stages p t := by
  have hpending : .exited ∈ s.encoders → t.pendingClosed :=
    fun hexit => hs.pendingClosed (h.encoder_exited hexit)
  cases hs with
  | receive hphase hqueue =>
      exact { h with last := fun hlast => absurd hlast last_afterAdd, encoder_exited := hpending }
  | handoff hphase hcap hqueue hopen hcall hsend =>
      exact { h with last := fun hlast => absurd hlast last_afterAdd, encoder_exited := hpending }
  | receiveClosed hphase hqueue hclosed =>
      exact { h with last := fun _ => ⟨hclosed, hqueue⟩, encoder_exited := hpending }
  | takeFlush hphase hcall hrequest =>
      exact { h with last := fun hlast => hlast.elim, encoder_exited := hpending }
  | drainReceive hphase hqueue =>
      exact { h with last := fun hlast => hlast.elim, encoder_exited := hpending }
  | drainHandoff hphase hcap hqueue hopen hcall hsend =>
      exact { h with last := fun hlast => hlast.elim, encoder_exited := hpending }
  | drainDone hphase hqueue =>
      exact { h with
        last := fun hlast => absurd (last_emit hlast) (by decide)
        encoder_exited := hpending }
  | timer hphase hstarted =>
      exact { h with
        last := fun hlast => absurd (last_emit hlast) (by decide)
        encoder_exited := hpending }
  | acquire hphase hgrant =>
      exact { h with
        last := fun hlast => h.last_of_reason hphase hlast
        encoder_exited := hpending }
  | park hphase hwait =>
      exact { h with
        last := fun hlast => h.last_of_reason hphase hlast
        encoder_exited := hpending }
  | wake hphase hclosed =>
      exact { h with
        last := fun hlast => h.last_of_reason hphase hlast
        encoder_exited := hpending }
  | refused hphase hshutdown =>
      exact { h with
        last := fun hlast => h.last_of_reason hphase hlast
        encoder_exited := hpending }
  | drop hphase =>
      exact { h with
        last := fun hlast => h.last_of_reason hphase hlast
        encoder_exited := hpending }
  | dropResolve hphase =>
      exact { h with
        last := fun hlast => h.last_of_reason hphase hlast
        encoder_exited := hpending }
  | dropDone hphase =>
      exact { h with
        last := fun hlast => h.last_of_reason hphase (last_afterDrop hlast)
        encoder_exited := hpending }
  | ack hphase hcall hroom =>
      exact { h with
        last := fun hlast => h.last_of_reason hphase (last_afterEmit hlast)
        encoder_exited := hpending }
  | reconcile hphase =>
      exact { h with
        last := fun hlast => h.last_of_reason hphase hlast
        encoder_exited := hpending }
  | sendClosed hphase hclosed =>
      rcases hclosed with hclosed | hclosed <;> rw [hphase] at hclosed <;> cases hclosed
  | closePending hphase =>
      exact { h with
        last := fun hlast => h.last_of_reason hphase hlast
        encoder_exited := hpending }
  | closeDone hphase =>
      exact { h with
        last := fun hlast => h.last_of_reason hphase hlast
        encoder_exited := hpending }

/-- An encoder moves on, and ends only behind a closed `pendingCh`. -/
theorem Stages.encoder_moves (h : Stages p s) {i : Nat} {e : EncoderPhase} (e' : EncoderPhase)
    (henc : s.encoders[i]? = some e) (hlive : e ≠ .exited)
    (hclosed : e' = .exited → s.pendingClosed) :
    Stages p { s with encoders := s.encoders.set i e' } where
  __ := h
  encoders := by simpa using h.encoders
  encoder_exited := by
    intro hexit
    rcases List.mem_or_eq_of_mem_set hexit with hold | hnew
    · exact h.encoder_exited hold
    · exact hclosed hnew.symm
  encoded_closed := fun hne => absurd (h.encoded_open (List.mem_of_getElem? henc) hlive) hne

/-- Encoders leave when the rotator has, and the pool behind them. -/
theorem Stages.encoderStep (h : Stages p s) (hs : EncoderStep p s l t) : Stages p t := by
  cases hs with
  | @take i pb henc hsend =>
      have hmoved := h.encoder_moves (.encoding pb) henc (by simp) (by simp)
      refine { hmoved with last := ?_, encoder_exited := ?_ }
      · exact fun hlast => h.last_of_reason hsend (last_afterEmit hlast)
      · intro hexit
        rcases hmoved.encoder_exited hexit with hclosed | hclosed <;>
          exact absurd (hsend.symm.trans hclosed) (by simp)
  | exit henc hclosed => exact h.encoder_moves _ henc (by simp) (fun _ => hclosed)
  | encoded henc hok => exact h.encoder_moves _ henc (by simp) (by simp)
  | encodeFails err henc => exact h.encoder_moves _ henc (by simp) (by simp)
  | complete henc hopen hroom =>
      have hmoved := h.encoder_moves (.receiving) henc (by simp) (by simp)
      refine { hmoved with committer_closed := fun hclosed => ?_ }
      have hchannel := (h.committer_closed hclosed).1
      simp [hopen] at hchannel
  | completeClosed henc hclosed =>
      have hopen := h.completions_open_of_encoder (List.mem_of_getElem? henc) (by simp)
      simp [hopen] at hclosed
  | sendClosed henc hclosed =>
      exact absurd (h.encoded_open (List.mem_of_getElem? henc) (by simp)) hclosed
  | closeEncoded hpool hall =>
      exact { h with encoded_closed := fun _ => hall, uploader_exited := fun _ => by simp }
  | closePoolDone hpool =>
      have hall := h.encoded_closed (by simp [hpool])
      exact { h with encoded_closed := fun _ => hall, uploader_exited := fun _ => by simp }

/-- An uploader moves on, and ends only behind a closed `encodedCh`. -/
theorem Stages.uploader_moves (h : Stages p s) {j : Nat} {u : UploaderPhase}
    (u' : UploaderPhase) (hup : s.uploaders[j]? = some u) (hlive : u ≠ .exited)
    (hclosed : u' = .exited → s.encoderPool ≠ .waiting) :
    Stages p { s with uploaders := s.uploaders.set j u' } where
  __ := h
  uploaders := by simpa using h.uploaders
  uploader_exited := by
    intro hexit
    rcases List.mem_or_eq_of_mem_set hexit with hold | hnew
    · exact h.uploader_exited hold
    · exact hclosed hnew.symm
  uploads_done := by
    intro hne
    have hopen := h.completions_open_of_uploader (List.mem_of_getElem? hup) hlive
    exact absurd (h.completions_open hopen) hne

/-- An upload that fails does not end its goroutine. -/
theorem afterPutError_live (eb : EncodedBatch) (attempt : Nat) (err : StoreError) :
    p.afterPutError eb attempt err ≠ .exited := by
  unfold Producer.afterPutError
  split <;> simp

/-- Uploaders leave when the encoders have, and the pool behind them. -/
theorem Stages.uploaderStep (h : Stages p s) (hs : UploaderStep p s l t) : Stages p t := by
  cases hs with
  | @take i j eb henc hup hopen =>
      have hmoved := h.encoder_moves (.receiving) henc (by simp) (by simp)
      exact hmoved.uploader_moves _ hup (by simp) (by simp)
  | exit hup hclosed => exact h.uploader_moves _ hup (by simp) (fun _ => hclosed)
  | @putApplies j attempt eb version hup hnames =>
      have hmoved := h.uploader_moves (.putting eb attempt true) hup (by simp) (by simp)
      exact { hmoved with }
  | putOk hup => exact h.uploader_moves _ hup (by simp) (by simp)
  | putFails err hup =>
      exact h.uploader_moves _ hup (by simp) (fun hexit => absurd hexit (afterPutError_live _ _ _))
  | retry hup => exact h.uploader_moves _ hup (by simp) (by simp)
  | abandon hup hshutdown => exact h.uploader_moves _ hup (by simp) (by simp)
  | complete hup hopen hroom =>
      have hmoved := h.uploader_moves (.receiving) hup (by simp) (by simp)
      refine { hmoved with committer_closed := fun hclosed => ?_ }
      have hchannel := (h.committer_closed hclosed).1
      simp [hopen] at hchannel
  | completeClosed hup hclosed =>
      have hopen := h.completions_open_of_uploader (List.mem_of_getElem? hup) (by simp)
      simp [hopen] at hclosed
  | closeCompletions hpool hall =>
      exact { h with
        completions_closed := fun _ => by simp
        completions_open := fun hopen => by simp at hopen
        uploads_done := fun _ => hall
        committer_closed := fun hclosed => ⟨rfl, (h.committer_closed hclosed).2⟩ }
  | closePoolDone hpool =>
      have hall := h.uploads_done (by simp [hpool])
      have hclosed : s.uploadCompletionCh.closed ≠ false := by
        intro hopen
        simp [h.completions_open hopen] at hpool
      exact { h with
        completions_closed := fun _ => by simp
        completions_open := fun hopen => absurd hopen hclosed
        uploads_done := fun _ => hall }

/-- The committer moves on, and ends only behind a closed channel. -/
theorem Stages.committer_moves (h : Stages p s) (c : Committer)
    (hlive : s.committer.phase ≠ .exited)
    (hclosed : c.closed = true →
      s.uploadCompletionCh.closed = true ∧ s.uploadCompletionCh.queue = [])
    (hexited : c.phase = .exited → c.closed = true) :
    Stages p { s with committer := c } where
  __ := h
  committer_closed := hclosed
  committer_exited := hexited
  resolver_closed := fun hr => absurd (h.resolver_closed hr) hlive

theorem exited_afterDrain {closed : Bool} (h : afterDrain closed = .exited) : closed = true := by
  unfold afterDrain at h
  split at h
  · assumption
  · cases h

theorem exited_afterResolve {closed : Bool} {after : AfterResolve}
    (h : afterResolve closed after = .exited) : closed = true := by
  cases after with
  | drainAgain => cases h
  | drainDone => exact exited_afterDrain h
  | nextCompletion => cases h

theorem exited_afterCollect {closed : Bool} {c : Collected}
    (h : p.afterCollect closed c = .exited) : closed = true := by
  unfold Producer.afterCollect at h
  split at h
  · split at h
    · exact exited_afterDrain h
    · cases h
  · cases h

/-- The committer leaves when the uploaders have. -/
theorem Stages.committerStep (h : Stages p s) (hs : CommitterStep p s l t) : Stages p t := by
  cases hs with
  | @receive uc rest hphase hhalted hqueue =>
      have hopen : s.committer.closed ≠ true := by
        intro hclosed
        simp [(h.committer_closed hclosed).2] at hqueue
      have hmoved := h.committer_moves
        ({ s.committer with ready := insertReady uc s.committer.ready, phase := .gathering })
        (by simp [hphase]) (fun hc => absurd hc hopen) (by simp)
      exact { hmoved with committer_closed := fun hc => absurd hc hopen }
  | @receiveHalted uc rest hphase hhalted hqueue =>
      have hopen : s.committer.closed ≠ true := by
        intro hclosed
        simp [(h.committer_closed hclosed).2] at hqueue
      have hmoved := h.committer_moves
        (s.committer.at (.resolving [haltedResolution .abandoned uc] .nextCompletion))
        (by simp [hphase]) (fun hc => absurd hc hopen) (by simp)
      exact { hmoved with committer_closed := fun hc => absurd hc hopen }
  | receiveClosed hphase hqueue hclosed =>
      exact h.committer_moves _ (by simp [hphase]) (fun _ => ⟨hclosed, hqueue⟩) (fun _ => rfl)
  | @gather uc rest hphase hqueue =>
      have hopen : s.committer.closed ≠ true := by
        intro hclosed
        simp [(h.committer_closed hclosed).2] at hqueue
      have hmoved := h.committer_moves
        ({ s.committer with ready := insertReady uc s.committer.ready })
        (by simp [hphase]) (fun hc => absurd hc hopen) (by simp [hphase])
      exact { hmoved with committer_closed := fun hc => absurd hc hopen }
  | gatherDone hphase hqueue =>
      exact h.committer_moves _ (by simp [hphase]) (fun hclosed => ⟨hclosed, hqueue⟩) (by simp)
  | collect hphase =>
      exact h.committer_moves _ (by simp [hphase]) h.committer_closed exited_afterCollect
  | @casApplies group failed call n obj version hphase hcall hmatch hnames =>
      have hmoved := h.committer_moves
        (s.committer.at (.cas group failed
          { call with phase := .enqueueing (.writing n obj.data version true) }))
        (by simp [hphase]) h.committer_closed (by simp)
      exact { hmoved with }
  | @halt group failed call err swept hphase hcall herr hswept =>
      have hmoved := h.committer_moves
        ({ s.committer with
          ready := [], halted := true, phase := .notifying (haltedAll group failed swept) })
        (by simp [hphase]) h.committer_closed (by simp)
      exact { hmoved with }
  | @notify left hphase =>
      have hmoved := h.committer_moves (s.committer.at (.resolving left .drainDone))
        (by simp [hphase]) h.committer_closed (by simp)
      exact { hmoved with }
  | resolved hphase =>
      exact h.committer_moves _ (by simp [hphase]) h.committer_closed exited_afterResolve
  | resolveClosed hphase hclosed =>
      have hopen := h.resolver_open (by simp [hphase])
      simp [hopen] at hclosed
  | cas hphase hcas => exact h.committer_moves _ (by simp [hphase]) h.committer_closed (by simp)
  | settle hphase hcall herr =>
      exact h.committer_moves _ (by simp [hphase]) h.committer_closed (by simp)

/-- The resolver leaves when the committer has. -/
theorem Stages.resolverStep (h : Stages p s) (hs : ResolverStep p s l t) : Stages p t := by
  cases hs with
  | @take pr left after hphase hsend hopen =>
      have hmoved := h.committer_moves (s.committer.at (.resolving left after))
        (by simp [hsend]) h.committer_closed (by simp)
      exact { hmoved with resolver_exited := by simp }
  | observe hphase => exact { h with resolver_exited := by simp }
  | resolve hphase => exact { h with resolver_exited := by simp }
  | resolvedAll hphase =>
      refine { h with resolver_exited := fun hexit => ?_ }
      unfold afterWatchers at hexit
      split at hexit <;> cases hexit
  | ack hphase hack hcall hroom => exact { h with resolver_exited := by simp }
  | release hphase => exact { h with resolver_exited := by simp }
  | exit hphase hclosed => exact { h with resolver_exited := fun _ => hclosed }
  | closeResolver hdone hopen =>
      exact { h with resolver_closed := fun _ => hdone, resolver_exited := fun _ => rfl }

/-- **Step rule for the stages.** -/
theorem Stages.step (h : Stages p s) (hs : ProducerStep p s l t) : Stages p t := by
  cases hs with
  | append _ hs => exact h.appendStep hs
  | flush _ hs => exact h.flushStep hs
  | close _ hs => exact h.closeStep hs
  | rotator _ hs => exact h.rotatorStep hs
  | encoder _ hs => exact h.encoderStep hs
  | uploader _ hs => exact h.uploaderStep hs
  | committer _ hs => exact h.committerStep hs
  | resolver _ hs => exact h.resolverStep hs
  | others hs => cases hs <;> exact { h with }

theorem stages_newProducer (store : ObjectStore) (items : List EnqueueItem) :
    Stages p (newProducer p store items) where
  last := fun hlast => hlast.elim
  encoders := List.length_replicate
  uploaders := List.length_replicate
  encoder_exited := by simp [newProducer]
  encoded_closed := fun hne => absurd rfl hne
  uploader_exited := by simp [newProducer]
  completions_closed := by simp [newProducer]
  completions_open := fun _ => rfl
  uploads_done := fun hne => absurd rfl hne
  committer_closed := by simp [newProducer]
  committer_exited := by simp [newProducer]
  resolver_closed := by simp [newProducer]
  resolver_exited := by simp [newProducer]
  panic := Or.inl rfl

/-- **The stages close in order, in every run.** -/
theorem reachable_stages {allowed : State → Label → Prop} {store : ObjectStore}
    {items : List EnqueueItem} (hrun : RunWhere p allowed (newProducer p store items) s) :
    Stages p s :=
  hrun.invariant (stages_newProducer store items) (fun _ _ _ h _ hs => h.step hs)

end OpenDataBuffer
