import OpenDataBuffer.Rotation

/-!
# The rotator answers each flush request once

A request that the rotator takes is acknowledged by it, with nil or with
`ErrShutdown`, or attached to a batch that it emits (`Answered`).  Everything that
was in the accumulator or in the channel when the request was taken is then in that
batch (`Handled`).
-/

namespace OpenDataBuffer

open ListUpdate

variable {p : Producer} {s t : State} {l : Label}

/-! ## Counting -/

/-- The request that the rotator works on. -/
def RotatorPhase.owing (phase : RotatorPhase) : Multiset Nat :=
  optionally phase.serving + optionally phase.refusing

/-- The requests that were attached to emitted batches. -/
def State.attached (s : State) : Multiset Nat := acksOf ↑(emittedOf s.hist.cuts)

/-- A quiet rotator owes answers to the flush it serves or refuses. -/
theorem Quiet.owing {phase : RotatorPhase} {ack refusal : Option Nat}
    (h : Quiet phase ack refusal) :
    phase.owing = optionally ack + optionally refusal := by
  rw [RotatorPhase.owing, h.serving, h.refusing]

/-- A rotator that answers owes one answer. -/
theorem owing_acking (reason : FlushReason) (f : Nat) (err : Option BufferError) :
    (RotatorPhase.acking reason f err).owing = {f} := by
  cases err <;> rfl

/-- An emitted batch carries its flush along. -/
theorem attached_emitted {cuts : List Cut} (b : Batch) :
    acksOf ↑(emittedOf (cuts ++ [.emitted b])) =
      acksOf ↑(emittedOf cuts) + optionally b.flushAck := by
  rw [emittedOf_emitted, ← Multiset.coe_add, acksOf, Multiset.map_add, Multiset.sum_add]
  simp [acksOf]

/-- What a step does to the requests that were taken. -/
inductive RequestFlow (s t : State) : Prop
  | keeps (howing : t.rotator.phase.owing = s.rotator.phase.owing)
      (hattached : t.attached = s.attached) (hacked : t.hist.acked = s.hist.acked)
      (htaken : t.hist.taken = s.hist.taken)
      (hcalls : ∀ (f : Nat) (c : FlushCall), t.flushes[f]? = some c → c.phase = .requesting →
        s.flushes.length ≤ f ∨ ∃ c', s.flushes[f]? = some c' ∧ c'.phase = .requesting)
      (hlen : s.flushes.length ≤ t.flushes.length)
  | takes {f : Nat} {c : FlushCall} (hcall : s.flushes[f]? = some c)
      (hrequest : c.phase = .requesting)
      (hidle : s.rotator.phase.owing = 0) (howing : t.rotator.phase.owing = {f})
      (hattached : t.attached = s.attached) (hacked : t.hist.acked = s.hist.acked)
      (htaken : t.hist.taken = s.hist.taken ++ [(f, cutLength s.hist.cuts)])
      (hcalls : t.flushes = s.flushes.set f (c.at .awaiting))
  | acks {f : Nat} {c : FlushCall} {err : Option BufferError} (hcall : s.flushes[f]? = some c)
      (hdue : s.rotator.phase.owing = {f}) (howing : t.rotator.phase.owing = 0)
      (herr : err = none ∨ err = some .shutdown) (hattached : t.attached = s.attached)
      (hacked : t.hist.acked = s.hist.acked ++ [(f, err)]) (htaken : t.hist.taken = s.hist.taken)
      (hcalls : t.flushes = s.flushes.set f (c.holding [err]))
  | attaches (howing : t.rotator.phase.owing = 0)
      (hattached : t.attached = s.attached + s.rotator.phase.owing)
      (hacked : t.hist.acked = s.hist.acked) (htaken : t.hist.taken = s.hist.taken)
      (hcalls : t.flushes = s.flushes)

theorem RotatorStep.requests (hs : RotatorStep p s l t)
    (hcoherent : s.rotator.phase.Coherent s.rotator.batch.msgs) : RequestFlow s t := by
  have hkeep : t.rotator.phase.owing = s.rotator.phase.owing → t.attached = s.attached →
      t.hist.acked = s.hist.acked → t.hist.taken = s.hist.taken → t.flushes = s.flushes →
      RequestFlow s t := by
    intro howing hattached hacked htaken hcalls
    refine .keeps howing hattached hacked htaken (fun f c hcall hrequest => ?_) (by rw [hcalls])
    exact Or.inr ⟨c, hcalls ▸ hcall, hrequest⟩
  cases hs with
  | receive hphase hqueue =>
      exact hkeep (by rw [hphase]; exact (quiet_afterAdd p _).owing) rfl rfl rfl rfl
  | handoff hphase hcap hqueue hopen hcall hsend =>
      exact hkeep (by rw [hphase]; exact (quiet_afterAdd p _).owing) rfl rfl rfl rfl
  | receiveClosed hphase hqueue hclosed =>
      exact hkeep (by rw [hphase]; exact (quiet_emit _ _ _).owing) rfl rfl rfl rfl
  | timer hphase hstarted =>
      exact hkeep (by rw [hphase]; exact (quiet_emit _ _ _).owing) rfl rfl rfl rfl
  | drainDone hphase hqueue =>
      exact hkeep (by rw [hphase]; exact (quiet_emit _ _ _).owing) rfl rfl rfl rfl
  | takeFlush hphase hcall hrequest =>
      exact .takes hcall hrequest (by rw [hphase]; rfl) rfl rfl rfl rfl rfl
  | ack hphase hcall hroom =>
      rw [hphase] at hcoherent
      exact .acks hcall (by rw [hphase]; exact owing_acking _ _ _) (quiet_afterEmit _).owing
        hcoherent.2 rfl rfl rfl rfl
  | drop hphase =>
      refine hkeep ?_ ?_ rfl rfl rfl
      · rw [hphase]
        exact add_comm _ _
      · show acksOf _ = acksOf _
        rw [emittedOf_dropped]
  | dropDone hphase =>
      exact hkeep (by rw [hphase]; exact (quiet_afterDrop _ _).owing) rfl rfl rfl rfl
  | reconcile hphase =>
      refine .attaches rfl ?_ rfl rfl rfl
      rw [hphase, State.attached, attached_emitted]
      exact congrArg _ (add_zero _).symm
  | sendClosed hphase hclosed => exact hkeep rfl rfl rfl rfl rfl
  | _ => exact hkeep (by simp only [*]; rfl) rfl rfl rfl rfl

theorem RotatorEnv.keeps (h : RotatorEnv s t) : RequestFlow s t := by
  refine .keeps ?_ (by rw [State.attached, h.cuts]; rfl) h.acked h.taken h.requests h.calls
  rcases h.rotator with hrot | ⟨pb, hphase, hrot⟩
  · rw [hrot]
  · rw [hrot, hphase]
    exact (quiet_afterEmit pb.reason).owing

/-- A step of the rotator and its surroundings moves requests as `RequestFlow` says. -/
theorem RotationStep.requests (hs : RotationStep p s l t)
    (hcoherent : s.rotator.phase.Coherent s.rotator.batch.msgs) : RequestFlow s t := by
  cases hs with
  | own hs => exact hs.requests hcoherent
  | env hs => exact hs.keeps

/-- Every request that was taken is acknowledged by the rotator, attached to an
emitted batch, or still in its hands, and only one of these. -/
structure Answered (s : State) : Prop where
  acks : (↑(s.hist.acked.map Prod.fst) : Multiset Nat) +
    (s.attached + s.rotator.phase.owing) = ↑(s.hist.taken.map Prod.fst)
  once : (s.hist.taken.map Prod.fst).Nodup
  asked : ∀ f ∈ s.hist.taken.map Prod.fst, f < s.flushes.length ∧
    ∀ c, s.flushes[f]? = some c → c.phase ≠ .requesting
  values : ∀ a ∈ s.hist.acked, a.2 = none ∨ a.2 = some .shutdown

/-- **Step rule for requests.**  A request moves from the rotator to a batch or to its
answer, and nothing else happens to it. -/
theorem Answered.step (h : Answered s) (hp : Partitioned s) (hs : RotationStep p s l t) :
    Answered t := by
  cases hs.requests hp.coherent with
  | keeps howing hattached hacked htaken hcalls hlen =>
      refine ⟨?_, by rw [htaken]; exact h.once, ?_, by rw [hacked]; exact h.values⟩
      · rw [howing, hattached, hacked, htaken]
        exact h.acks
      · rw [htaken]
        intro f hf
        obtain ⟨hlt, hidle⟩ := h.asked f hf
        refine ⟨hlt.trans_le hlen, fun c hcall hrequest => ?_⟩
        rcases hcalls f c hcall hrequest with hnew | ⟨c', hcall', hrequest'⟩
        · omega
        · exact hidle c' hcall' hrequest'
  | @takes f c hcall hrequest hidle howing hattached hacked htaken hcalls =>
      have hfresh : f ∉ s.hist.taken.map Prod.fst := fun hf => (h.asked f hf).2 c hcall hrequest
      have hacks := h.acks
      rw [hidle, add_zero] at hacks
      refine ⟨?_, ?_, ?_, by rw [hacked]; exact h.values⟩
      · rw [howing, hattached, hacked, htaken, List.map_append, ← Multiset.coe_add, ← hacks,
          add_assoc]
        rfl
      · rw [htaken, List.map_append]
        exact h.once.append (List.nodup_singleton _) (List.disjoint_singleton.mpr hfresh)
      · rw [htaken, hcalls, List.map_append]
        intro f' hf'
        rw [List.length_set]
        rcases List.mem_append.mp hf' with hold | hnew
        · obtain ⟨hlt, hrest⟩ := h.asked f' hold
          refine ⟨hlt, fun c' hcall' => ?_⟩
          rcases getElem?_set_cases hcall' with ⟨rfl, rfl⟩ | ⟨-, hsame⟩
          · nofun
          · exact hrest c' hsame
        · obtain rfl := List.mem_singleton.mp hnew
          refine ⟨(List.getElem?_eq_some_iff.mp hcall).1, fun c' hcall' => ?_⟩
          rcases getElem?_set_cases hcall' with ⟨-, rfl⟩ | ⟨hne, -⟩
          · nofun
          · exact absurd rfl hne
  | @acks f c err hcall hdue howing herr hattached hacked htaken hcalls =>
      have hacks := h.acks
      rw [hdue] at hacks
      refine ⟨?_, by rw [htaken]; exact h.once, ?_, ?_⟩
      · rw [howing, hattached, hacked, htaken, List.map_append, ← Multiset.coe_add, ← hacks,
          add_zero, add_assoc, add_comm s.attached]
        rfl
      · rw [htaken, hcalls]
        intro f' hf'
        obtain ⟨hlt, hrest⟩ := h.asked f' hf'
        rw [List.length_set]
        refine ⟨hlt, fun c' hcall' => ?_⟩
        rcases getElem?_set_cases hcall' with ⟨rfl, rfl⟩ | ⟨-, hsame⟩
        · exact hrest c hcall
        · exact hrest c' hsame
      · intro a ha
        rw [hacked] at ha
        rcases List.mem_append.mp ha with hold | hnew
        · exact h.values a hold
        · obtain rfl := List.mem_singleton.mp hnew
          exact herr
  | attaches howing hattached hacked htaken hcalls =>
      refine ⟨?_, by rw [htaken]; exact h.once, by rw [htaken, hcalls]; exact h.asked,
        by rw [hacked]; exact h.values⟩
      rw [howing, hattached, hacked, htaken, add_zero]
      exact h.acks

/-! ## What a request covers -/

/-- How a request stands that came when the rotator held the messages `held`, in
its accumulator or in the channel. -/
inductive Handled (f : Nat) (held : List AppendMessage) (s : State) : Prop
  | draining (hphase : s.rotator.phase = .draining f)
      (hheld : held <+: s.rotator.batch.msgs ++ s.appendCh.queue)
  | serving (hserving : s.rotator.phase.serving = some f)
      (hdrained : s.rotator.phase.drained = true)
      (hheld : held <+: s.rotator.batch.msgs)
  | refusing (hrefusing : s.rotator.phase.refusing = some f)
  | refused (hacked : (f, some .shutdown) ∈ s.hist.acked)
  | idle (hheld : held = []) (hacked : (f, none) ∈ s.hist.acked)
  | attached {b : Batch} (hb : b ∈ emittedOf s.hist.cuts) (hack : b.flushAck = some f)
      (hheld : held <+: b.msgs)

/-- Answers and emitted batches stay recorded. -/
theorem RotatorStep.records (hs : RotatorStep p s l t) :
    s.hist.acked ⊆ t.hist.acked ∧ emittedOf s.hist.cuts ⊆ emittedOf t.hist.cuts := by
  cases hs with
  | ack hphase hcall hroom => exact ⟨List.subset_append_left _ _, fun _ hb => hb⟩
  | drop hphase =>
      refine ⟨fun _ ha => ha, ?_⟩
      rw [emittedOf_dropped]
      exact fun _ hb => hb
  | reconcile hphase =>
      refine ⟨fun _ ha => ha, ?_⟩
      rw [emittedOf_emitted]
      exact List.subset_append_left _ _
  | _ => exact ⟨fun _ ha => ha, fun _ hb => hb⟩

/-- The loop of `drainAppendChInto`. -/
theorem Handled.of_draining {f : Nat} {held : List AppendMessage} (hs : RotatorStep p s l t)
    (hphase : s.rotator.phase = .draining f)
    (hheld : held <+: s.rotator.batch.msgs ++ s.appendCh.queue) : Handled f held t := by
  cases hs with
  | drainReceive hdraining hqueue =>
      cases hphase.symm.trans hdraining
      refine .draining rfl ?_
      rw [hqueue] at hheld
      simpa using hheld
  | drainHandoff hdraining hcap hqueue hopen hcall hsend =>
      cases hphase.symm.trans hdraining
      refine .draining rfl ?_
      rw [hqueue, List.append_nil] at hheld
      refine hheld.trans ?_
      simp
  | drainDone hdraining hqueue =>
      cases hphase.symm.trans hdraining
      have hquiet := quiet_emit .manual (some f) s.rotator.batch
      rw [hqueue, List.append_nil] at hheld
      exact .serving hquiet.serving hquiet.drained hheld
  | _ => simp_all

/-- `emit` for a request, behind the loop. -/
theorem Handled.of_serving {f : Nat} {held : List AppendMessage} (hs : RotatorStep p s l t)
    (hcoherent : s.rotator.phase.Coherent s.rotator.batch.msgs)
    (hserving : s.rotator.phase.serving = some f) (hdrained : s.rotator.phase.drained = true)
    (hheld : held <+: s.rotator.batch.msgs) : Handled f held t := by
  cases hs with
  | acquire hphase hgrant =>
      rw [hphase] at hserving
      exact .serving hserving rfl hheld
  | park hphase hwait =>
      rw [hphase] at hserving
      exact .serving hserving rfl hheld
  | wake hphase hclosed =>
      rw [hphase] at hserving
      exact .serving hserving rfl hheld
  | refused hphase hshutdown =>
      rw [hphase] at hserving
      exact .serving hserving rfl hheld
  | drop hphase =>
      rw [hphase] at hserving
      exact .refusing hserving
  | @ack reason f' err c hphase hcall hroom =>
      rw [hphase] at hserving hcoherent
      cases err with
      | some e => cases hserving
      | none =>
          cases hserving
          rw [hcoherent.1] at hheld
          exact .idle (List.prefix_nil.mp hheld)
            (List.mem_append_right _ (List.mem_singleton.mpr rfl))
  | @reconcile reason ack hphase =>
      rw [hphase] at hserving
      refine .attached (b := s.rotator.batch.batch s.rotator.ordinal reason ack) ?_ hserving hheld
      rw [emittedOf_emitted]
      exact List.mem_append_right _ (List.mem_singleton.mpr rfl)
  | _ => simp_all [RotatorPhase.serving, RotatorPhase.drained]

/-- `emit` for a request whose batch was dropped. -/
theorem Handled.of_refusing {f : Nat} {held : List AppendMessage} (hs : RotatorStep p s l t)
    (hcoherent : s.rotator.phase.Coherent s.rotator.batch.msgs)
    (hrefusing : s.rotator.phase.refusing = some f) : Handled f held t := by
  cases hs with
  | dropResolve hphase =>
      rw [hphase] at hrefusing
      exact .refusing hrefusing
  | dropDone hphase =>
      rw [hphase] at hrefusing
      refine .refusing ?_
      rw [← hrefusing]
      exact (quiet_afterDrop _ _).refusing
  | @ack reason f' err c hphase hcall hroom =>
      rw [hphase] at hrefusing hcoherent
      cases err with
      | none => cases hrefusing
      | some e =>
          cases hrefusing
          rcases hcoherent.2 with herr | herr
          · cases herr
          · rw [herr]
            exact .refused (List.mem_append_right _ (List.mem_singleton.mpr rfl))
  | _ => simp_all [RotatorPhase.refusing]

/-- What a request covers: the messages held when it came go into its batch before any
later ones. -/
theorem Handled.step {f : Nat} {held : List AppendMessage} (h : Handled f held s)
    (hp : Partitioned s) (hs : RotationStep p s l t) : Handled f held t := by
  cases hs with
  | own hs =>
      obtain ⟨hacks, hbatches⟩ := hs.records
      cases h with
      | draining hphase hheld => exact .of_draining hs hphase hheld
      | serving hserving hdrained hheld => exact .of_serving hs hp.coherent hserving hdrained hheld
      | refusing hrefusing => exact .of_refusing hs hp.coherent hrefusing
      | refused hacked => exact .refused (hacks hacked)
      | idle hheld hacked => exact .idle hheld (hacks hacked)
      | attached hb hack hheld => exact .attached (hbatches hb) hack hheld
  | env hs =>
      have hsame : s.rotator.phase.serving ≠ none ∨ s.rotator.phase.refusing ≠ none →
          t.rotator = s.rotator := by
        intro hbusy
        rcases hs.rotator with hrot | ⟨pb, hphase, -⟩
        · exact hrot
        · rw [hphase] at hbusy
          rcases hbusy with hbusy | hbusy <;> exact absurd rfl hbusy
      cases h with
      | draining hphase hheld =>
          have hrot := hsame (Or.inl (by rw [hphase]; nofun))
          obtain ⟨msgs, hqueue, -⟩ := hs.sent
          refine .draining (by rw [hrot]; exact hphase) ?_
          rw [hrot, hqueue, ← List.append_assoc]
          exact hheld.trans (List.prefix_append _ _)
      | serving hserving hdrained hheld =>
          have hrot := hsame (Or.inl (by rw [hserving]; nofun))
          exact .serving (by rw [hrot]; exact hserving) (by rw [hrot]; exact hdrained)
            (by rw [hrot]; exact hheld)
      | refusing hrefusing =>
          have hrot := hsame (Or.inr (by rw [hrefusing]; nofun))
          exact .refusing (by rw [hrot]; exact hrefusing)
      | refused hacked => exact .refused (by rw [hs.acked]; exact hacked)
      | idle hheld hacked => exact .idle hheld (by rw [hs.acked]; exact hacked)
      | attached hb hack hheld => exact .attached (by rw [hs.cuts]; exact hb) hack hheld

end OpenDataBuffer
