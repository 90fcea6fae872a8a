import OpenDataBuffer.FlushCalls
import OpenDataBuffer.Watchers

/-!
# Flush is a barrier

What a flush call covers is said with states of a run: the messages whose
`AppendContext` call had returned a handle in a state before the flush call
began, and among them those that were in `appendCh` or in the accumulator in the
state in which the rotator took the request.
-/

namespace OpenDataBuffer

open LabelledRuns

variable {p : Producer} {s t : State} {allowed : State → Label → Prop}

/-- A step of the ledger begins at most one flush. -/
theorem LedgerStep.begun_cases {L L' : Ledger} (h : LedgerStep L L') :
    L'.begun = L.begun ∨ L'.begun = L.begun ++ [L.accepted.length] := by
  cases h with
  | begin => exact Or.inr rfl
  | _ => exact Or.inl rfl

/-- A flush call covers everything accepted in any state before it began. -/
theorem RunWhere.covers (hrun : RunWhere p allowed s t) (hb : Books s) {f : Nat} {c : FlushCall}
    (hlater : s.flushes.length ≤ f) (hcall : t.flushes[f]? = some c) :
    s.hist.accepted.length ≤ c.begun := by
  have hinv := hrun.invariant
    (P := fun x => Books x ∧ s.hist.accepted.length ≤ x.hist.accepted.length ∧
      ∀ g n, s.flushes.length ≤ g → x.ledger.begun[g]? = some n → s.hist.accepted.length ≤ n)
    ⟨hb, le_rfl, ?_⟩ ?_
  · refine hinv.2.2 f c.begun hlater ?_
    show (t.flushes.map FlushCall.begun)[f]? = some c.begun
    rw [List.getElem?_map, hcall]
    rfl
  · intro g n hg hn
    have hlt : g < (s.flushes.map FlushCall.begun).length := (List.getElem?_eq_some_iff.mp hn).1
    rw [List.length_map] at hlt
    omega
  · rintro x l y ⟨hx, hlen, hall⟩ _ hs
    refine ⟨hx.step hs, hlen.trans (hx.grows hs).accepted.length_le, ?_⟩
    rcases hx.custody.refines hs with heq | hledger
    · rw [heq]
      exact hall
    · rcases hledger.begun_cases with heq | heq
      · rw [heq]
        exact hall
      · intro g n hg hn
        rw [heq] at hn
        rcases ListUpdate.getElem?_concat_cases hn with ⟨_, rfl⟩ | hold
        · exact hlen
        · exact hall g n hg hold

/-- A message that was accepted early and left the accumulator late is in the
window between the two. -/
theorem mem_window {early late rest : List AppendMessage} {n : Nat} {m : AppendMessage}
    (hnodup : (late ++ rest).Nodup) (hearly : early <+: late ++ rest) (hn : early.length ≤ n)
    (hm : m ∈ early) (hlate : m ∈ rest) : m ∈ window (late ++ rest) late.length n := by
  have htake : m ∈ (late ++ rest).take n := by
    have hsub : early <+: (late ++ rest).take n := by
      rw [List.prefix_take_iff]
      exact ⟨hearly, hn⟩
    exact hsub.subset hm
  rw [window, List.drop_take, List.drop_left]
  rw [List.take_append] at htake
  rcases List.mem_append.mp htake with hleft | hright
  · have hdisjoint := (List.nodup_append.mp hnodup).2.2
    exact absurd rfl (hdisjoint m (List.mem_of_mem_take hleft) m hlate)
  · exact hright

/-- Where the messages that have not left the accumulator stand among the
accepted ones of a later state. -/
theorem Books.accepted_split (hb : Books s) (hg : Grows s.ledger t.ledger) :
    ∃ more, t.hist.accepted = s.hist.cuts.flatMap Cut.msgs ++
      (s.rotator.batch.msgs ++ s.appendCh.queue ++ more) := by
  obtain ⟨more, hmore⟩ := hg.accepted
  have hpart : s.hist.accepted = s.hist.cuts.flatMap Cut.msgs ++
      (s.rotator.batch.msgs ++ s.appendCh.queue) := hb.conserved.partition
  refine ⟨more, ?_⟩
  have hmore : s.hist.accepted ++ more = t.hist.accepted := hmore
  rw [← hmore, hpart, List.append_assoc]

/-- A nil answer for a request, in terms of the state in which it was taken. -/
theorem flushed_of_taken (hbt : Books t) (hft : FlushCalls t) {f : Nat} {c : FlushCall}
    (hflush : t.flushes[f]? = some c) (hack : (f, none) ∈ t.hist.acked)
    (htaken : (f, cutLength s.hist.cuts) ∈ t.hist.taken) :
    Flushed t.ledger (cutLength s.hist.cuts) c.begun := by
  obtain ⟨a, n, hasked, _, hflushed⟩ := hbt.barrier.acked f hack
  have hbegun : t.ledger.begun[f]? = some c.begun := by
    show (t.flushes.map FlushCall.begun)[f]? = some c.begun
    rw [List.getElem?_map, hflush]
    rfl
  obtain rfl : c.begun = n := Option.some.inj (hbegun.symm.trans hasked.begun)
  have hsame : (f, a) = (f, cutLength s.hist.cuts) :=
    List.inj_on_of_nodup_map hft.once hasked.taken htaken rfl
  obtain rfl : a = cutLength s.hist.cuts := (Prod.mk.inj hsame).2
  exact hflushed

/-! ## The barrier -/

/-- **Flush is a barrier.**  Let an `AppendContext` call have returned its handle
in state `s`, let flush call `f` begin in or after `s`, and let it have returned
nil in state `t`.  Then the watcher of the append call is resolved in `t`; and if
its message was still in `appendCh` or in the accumulator when the rotator took
the request of `f`, it is resolved with nil. -/
theorem flush_is_barrier {store : ObjectStore} {items : List EnqueueItem} {f i : Nat}
    {c : FlushCall} {call : AppendCall} (hbefore : Run p (newProducer p store items) s)
    (happend : s.appends[i]? = some call) (hhandle : call.phase = .returned none)
    (hlater : s.flushes.length ≤ f) (hafter : Run p s t) (hflush : t.flushes[f]? = some c)
    (hnil : c.phase = .returned none) :
    (∃ e, t.watcherResult i = some e) ∧
      ∀ u v, Run p s u → u.panicked = none → TakesRequest p u f v → Run p v t →
        (∃ m ∈ u.appendCh.queue ++ u.rotator.batch.msgs, m.watcher = i) →
          t.watcherResult i = some none := by
  have hrun := hbefore.trans hafter
  have hbs := reachable_books hbefore
  have hbt := reachable_books hrun
  have hat := reachable_appendCalls hrun
  have hft := reachable_flushCalls hrun
  have hcovers := hafter.covers hbs hlater hflush
  obtain ⟨m, hm, rfl⟩ := (reachable_appendCalls hbefore).recorded i call happend (Or.inr hhandle)
  have hgrow : s.hist.accepted <+: t.hist.accepted := (hafter.grows hbs).accepted
  obtain ⟨hack, hall⟩ := hft.returned f c hflush hnil
  constructor
  · have hmem : m ∈ t.hist.accepted.take c.begun := by
      have hsub : s.hist.accepted <+: t.hist.accepted.take c.begun := by
        rw [List.prefix_take_iff]
        exact ⟨hgrow, hcovers⟩
      exact hsub.subset hm
    obtain ⟨e, he⟩ := hall m hmem
    exact ⟨e, (watcherResult_iff hbt hat).mpr he⟩
  · rintro u v hsu hrunning htakes hvt ⟨m', hm', hwatcher⟩
    have hbu := reachable_books (hbefore.trans hsu)
    have huv : Run p u v := Reach.refl.tail trivial (.rotator hrunning htakes.step)
    have hut := RunWhere.grows (huv.trans hvt) hbu
    have hbv := reachable_books ((hbefore.trans hsu).trans huv)
    have htaken : (f, cutLength u.hist.cuts) ∈ t.hist.taken :=
      (hvt.grows hbv).taken.subset (by simp [State.ledger, htakes.taken])
    have hflushed := flushed_of_taken hbt hft hflush hack htaken
    obtain ⟨more, hsplit⟩ := hbu.accepted_split hut
    have hlate : m' ∈ u.rotator.batch.msgs ++ u.appendCh.queue ++ more := by
      simp only [List.mem_append] at hm' ⊢
      tauto
    have hmem : m' ∈ t.hist.accepted := by
      rw [hsplit]
      exact List.mem_append_right _ hlate
    obtain rfl : m' = m := hat.watcher_inj hmem (hgrow.subset hm) hwatcher
    have hwindow : m' ∈ window t.hist.accepted (cutLength u.hist.cuts) c.begun := by
      have hnodup : t.hist.accepted.Nodup := hat.unique.of_map _
      rw [hsplit] at hnodup hgrow ⊢
      exact mem_window hnodup hgrow hcovers hm hlate
    exact (watcherResult_iff hbt hat).mpr (hflushed m' hwindow)

/-- The flush of the sample run, called behind an append that had returned. -/
theorem flush_is_barrier_sample :
    sampleAppended.appends[0]? = some ⟨[[7]], [], none, .returned none⟩ ∧
      sampleFlushed.flushes[0]? = some ⟨none, [], .returned none, 1⟩ ∧
      sampleFlushed.watcherResult 0 = some none := by
  have hafter : SmoothRun sampleTaken sampleFlushed := sample_collects.trans sample_commits
  have hwhole : Run sampleProducer sampleAppended sampleFlushed :=
    (Reach.tail sample_requests.run trivial (.rotator rfl sample_takes.step)).trans hafter.run
  refine ⟨rfl, rfl, ?_⟩
  exact (flush_is_barrier sample_appends.run rfl rfl (by decide) hwhole rfl rfl).2
    sampleRequested sampleTaken sample_requests.run rfl sample_takes hafter.run
    ⟨sampleMessage, List.mem_singleton.mpr rfl, rfl⟩

end OpenDataBuffer
