import OpenDataBuffer.AppendCalls
import OpenDataBuffer.Books

/-!
# Where every watcher is

Put together, the conservation laws account for the watcher of every accepted
message: it is resolved, or it belongs to exactly one of the places where a
message can be on its way (`watchers_conserved`).  As the watchers of accepted
messages are all different, none is resolved twice, and what is on record for a
watcher is what its caller sees.
-/

namespace OpenDataBuffer

/-- The watchers of some messages. -/
def watchersOf (msgs : Multiset AppendMessage) : Multiset Nat := msgs.map AppendMessage.watcher

@[simp] theorem watchersOf_add (xs ys : Multiset AppendMessage) :
    watchersOf (xs + ys) = watchersOf xs + watchersOf ys :=
  Multiset.map_add _ _ _

@[simp] theorem messagesOf_add (xs ys : Multiset Batch) :
    messagesOf (xs + ys) = messagesOf xs + messagesOf ys :=
  Multiset.add_bind _ _ _

@[simp] theorem messagesOf_zero : messagesOf 0 = 0 := rfl

/-- The messages the rotator has dropped. -/
def droppedMessages (cuts : List Cut) : Multiset AppendMessage := ↑(droppedOf cuts).flatten

/-- Cut messages are in emitted batches or dropped. -/
theorem cut_messages (cuts : List Cut) :
    (↑(cuts.flatMap Cut.msgs) : Multiset AppendMessage) =
      messagesOf ↑(emittedOf cuts) + droppedMessages cuts := by
  induction cuts with
  | nil => rfl
  | cons cut cuts ih =>
      rw [List.flatMap_cons, ← Multiset.coe_add, ih]
      cases cut with
      | emitted b =>
          have hemitted : emittedOf (.emitted b :: cuts) = b :: emittedOf cuts := rfl
          have hdropped : droppedOf (.emitted b :: cuts) = droppedOf cuts := rfl
          rw [hemitted, ← Multiset.cons_coe, messagesOf_cons, droppedMessages, droppedMessages,
            hdropped, add_assoc]
          rfl
      | dropped msgs =>
          have hemitted : emittedOf (.dropped msgs :: cuts) = emittedOf cuts := rfl
          have hdropped : droppedOf (.dropped msgs :: cuts) = msgs :: droppedOf cuts := rfl
          rw [hemitted, droppedMessages, droppedMessages, hdropped, List.flatten_cons,
            ← Multiset.coe_add, add_left_comm]
          rfl

/-- Whom the resolutions are owed to. -/
theorem map_fst_owed (err : Option BufferError) (watchers : List Nat) :
    (owed err watchers).map Prod.fst = ↑watchers := by
  simp [owed, Function.comp_def]

/-- Each watcher of a handed batch is owed one resolution. -/
theorem map_fst_handedResolutions (handed : List PendingResolution) :
    (handedResolutions handed).map Prod.fst = watchersOf (messagesOf (handedBatches handed)) := by
  induction handed with
  | nil => rfl
  | cons pr handed ih =>
      have hcons : handedResolutions (pr :: handed) =
          owed pr.err pr.batch.watchers + handedResolutions handed := by
        rw [handedResolutions, ← Multiset.cons_coe, Multiset.cons_bind]
        rfl
      rw [hcons, Multiset.map_add, map_fst_owed, ih, handedBatches_cons, messagesOf_cons,
        watchersOf_add, pr.batch.watchers_eq]
      rfl

/-- Each watcher of a dropped batch is owed one resolution. -/
theorem map_fst_droppedResolutions (cuts : List Cut) :
    (droppedResolutions cuts).map Prod.fst = watchersOf (droppedMessages cuts) := by
  rw [droppedResolutions, droppedMessages]
  induction droppedOf cuts with
  | nil => rfl
  | cons msgs rest ih =>
      rw [← Multiset.cons_coe, Multiset.cons_bind, Multiset.map_add, ih, map_fst_owed,
        List.flatten_cons, ← Multiset.coe_add, watchersOf_add]
      rfl

/-- **Every accepted watcher is in one place.** -/
theorem Conserved.watchers {L : Ledger} (h : Conserved L) :
    (↑(L.resolved.map Prod.fst) : Multiset Nat) + (↑L.left + ↑L.dropLeft) +
      (watchersOf (messagesOf L.flight) + watchersOf ↑(L.opened ++ L.queue)) =
        ↑(L.accepted.map AppendMessage.watcher) := by
  obtain ⟨ofHanded, ofDropped, hsplit, hhanded, hdropped⟩ := h.resolutions
  have hh := congrArg (Multiset.map Prod.fst) hhanded
  have hd := congrArg (Multiset.map Prod.fst) hdropped
  have hr : (↑(L.resolved.map Prod.fst) : Multiset Nat) =
      ofHanded.map Prod.fst + ofDropped.map Prod.fst := by
    rw [← Multiset.map_coe, hsplit, Multiset.map_add]
  rw [Multiset.map_add, map_fst_owed, map_fst_handedResolutions] at hh
  rw [Multiset.map_add, map_fst_owed, map_fst_droppedResolutions] at hd
  have haccepted : (↑(L.accepted.map AppendMessage.watcher) : Multiset Nat) =
      watchersOf (messagesOf (L.flight + handedBatches L.handed) + droppedMessages L.cuts) +
        watchersOf ↑(L.opened ++ L.queue) := by
    rw [h.partition, h.flight, ← cut_messages, List.map_append, ← Multiset.coe_add]
    rfl
  rw [haccepted, hr, messagesOf_add, watchersOf_add, watchersOf_add, ← hh, ← hd]
  abel

variable {p : Producer} {s t : State}

/-- No watcher is resolved twice. -/
theorem resolved_nodup (hb : Books s) (ha : AppendCalls s) :
    (s.hist.resolved.map Prod.fst).Nodup := by
  have hle : (↑(s.hist.resolved.map Prod.fst) : Multiset Nat) ≤
      ↑(s.hist.accepted.map AppendMessage.watcher) := by
    have hall : (↑(s.ledger.resolved.map Prod.fst) : Multiset Nat) + _ + _ = _ :=
      hb.conserved.watchers
    have haccepted : s.ledger.accepted = s.hist.accepted := rfl
    rw [← haccepted, ← hall]
    exact (Multiset.le_add_right _ _).trans (Multiset.le_add_right _ _)
  exact Multiset.coe_nodup.mp (Multiset.nodup_of_le hle (Multiset.coe_nodup.mpr ha.unique))

/-- What is on record for a watcher is what its caller sees. -/
theorem watcherResult_iff (hb : Books s) (ha : AppendCalls s) {w : Nat}
    {e : Option BufferError} : s.watcherResult w = some e ↔ (w, e) ∈ s.hist.resolved := by
  have hnodup := resolved_nodup hb ha
  unfold State.watcherResult
  constructor
  · intro hfind
    obtain ⟨r, hr, rfl⟩ := Option.map_eq_some_iff.mp hfind
    obtain rfl : r.1 = w := by simpa using List.find?_some hr
    exact List.mem_of_find?_eq_some hr
  · intro hmem
    cases hfind : s.hist.resolved.find? (fun r => r.1 == w) with
    | none =>
        have hno := List.find?_eq_none.mp hfind (w, e) hmem
        simp at hno
    | some r =>
        have hr := List.mem_of_find?_eq_some hfind
        have hw : r.1 = w := by simpa using List.find?_some hfind
        obtain rfl : r = (w, e) := List.inj_on_of_nodup_map hnodup hr hmem hw
        rfl

end OpenDataBuffer
