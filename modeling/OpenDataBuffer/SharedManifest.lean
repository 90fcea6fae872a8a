import OpenDataBuffer.LabelledRuns
import OpenDataBuffer.ListUpdate
import OpenDataBuffer.ManifestLog

/-!
# Many enqueuers and consumers on one manifest

Any number of `enqueueBatch` calls and any number of consumers work on the
manifest object of one store.  The atomic steps are the individual store
calls, so everything that can happen between a `Get` and the `PutIfMatch`
based on it does happen in some run: stale reads, two creations of a missing
manifest, conflicts, and a consumer cutting entries off in between.

A consumer is not part of this repository.  It is assumed to write through
`PutIfMatch` only, to drop a prefix of the entries it read, to keep the
sequence counter and the remaining entries, and to set any epoch.

The main result is `sharedManifest_no_lost_update`.
-/

namespace OpenDataBuffer

open VersionedStore LabelledRuns ListUpdate

/-- One `enqueueBatch` call; its position in the list of calls names it. -/
structure EnqueueCall where
  items : List EnqueueItem
  phase : EnqueuePhase

/-- The call at another point of its code. -/
def EnqueueCall.at (c : EnqueueCall) (phase : EnqueuePhase) : EnqueueCall := ⟨c.items, phase⟩

@[simp] theorem EnqueueCall.at_items (c : EnqueueCall) (phase : EnqueuePhase) :
    (c.at phase).items = c.items := rfl

/-- The store, every call made so far, every consumer with the manifest it
last read, and the history of the manifest.  The owner of an item is the call
that appended it, or `none` for items that were there at the start. -/
structure Shared where
  store : ObjectStore
  calls : List EnqueueCall
  consumers : List (Option GetResult)
  history : ManifestLog (Option Nat)

/-- Who takes a step. -/
inductive Party
  | enqueuer (id : Nat)
  | consumer (id : Nat)

/-- One store call of one party, or the arrival of a party. -/
inductive SharedStep (path : Bytes) (s : Shared) : Party → Shared → Prop
  | enter (items : List EnqueueItem) (hfit : ∀ item ∈ items, ItemFits item) :
      SharedStep path s (.enqueuer s.calls.length)
        { s with calls := s.calls ++ [⟨items, enqueueBatch items⟩] }
  | get {i n : Nat} {c : EnqueueCall} (hcall : s.calls[i]? = some c)
      (hphase : c.phase = .reading n) :
      SharedStep path s (.enqueuer i)
        { s with calls := s.calls.set i (c.at (afterGet c.items n (storeGet s.store path))) }
  | getFails {i n : Nat} {c : EnqueueCall} (msg : String) (hcall : s.calls[i]? = some c)
      (hphase : c.phase = .reading n) :
      SharedStep path s (.enqueuer i)
        { s with calls := s.calls.set i (c.at (afterGet c.items n (.error (.other msg)))) }
  | put {i n : Nat} {c : EnqueueCall} {obj : GetResult} {version : Option Version}
      (hcall : s.calls[i]? = some c) (hphase : c.phase = .writing n obj.data version false)
      (hmatch : s.store.Matches path version) (hnames : s.store.Names path obj) :
      SharedStep path s (.enqueuer i)
        { s with
          store := s.store.write path obj
          calls := s.calls.set i (c.at (afterPut n none))
          history := { s.history with
            log := s.history.log ++ c.items.map (Prod.mk (some i)) } }
  | putConflict {i n : Nat} {c : EnqueueCall} {data : Bytes} {version : Option Version}
      (hcall : s.calls[i]? = some c) (hphase : c.phase = .writing n data version false)
      (hmatch : ¬ s.store.Matches path version) :
      SharedStep path s (.enqueuer i)
        { s with calls := s.calls.set i (c.at (afterPut n (some .preconditionFailed))) }
  | putFails {i n : Nat} {c : EnqueueCall} {data : Bytes} {version : Option Version}
      (msg : String) (hcall : s.calls[i]? = some c)
      (hphase : c.phase = .writing n data version false) :
      SharedStep path s (.enqueuer i)
        { s with calls := s.calls.set i (c.at (afterPut n (some (.other msg)))) }
  | consumerEnter :
      SharedStep path s (.consumer s.consumers.length)
        { s with consumers := s.consumers ++ [none] }
  | consumerGet {j : Nat} {obj : GetResult} (hobj : s.store.objects path = some obj) :
      SharedStep path s (.consumer j) { s with consumers := s.consumers.set j (some obj) }
  | consumerPut {j k : Nat} {read obj : GetResult} {entries : List QueueEntry}
      {nextSequence epoch epoch' : UInt64} (hread : s.consumers[j]? = some (some read))
      (hold : WellFormed read.data entries nextSequence epoch) (hk : k ≤ entries.length)
      (hnew : WellFormed obj.data (entries.drop k) nextSequence epoch')
      (hmatch : s.store.Matches path (some read.version)) (hnames : s.store.Names path obj) :
      SharedStep path s (.consumer j)
        { s with
          store := s.store.write path obj
          consumers := s.consumers.set j none
          history := { s.history with dropped := s.history.dropped + k } }
  | consumerConflict {j : Nat} {read : GetResult} (hread : s.consumers[j]? = some (some read))
      (hmatch : ¬ s.store.Matches path (some read.version)) :
      SharedStep path s (.consumer j) { s with consumers := s.consumers.set j none }

/-- The state before anybody has called. -/
def Shared.start (store : ObjectStore) (items : List EnqueueItem) : Shared where
  store := store
  calls := []
  consumers := []
  history := { log := items.map (Prod.mk none), dropped := 0 }

/-- Every run of the parties from a given start. -/
def SharedRun (path : Bytes) (s t : Shared) : Prop :=
  Reach (SharedStep path) (fun _ _ => True) s t

/-- Call `i` owns no item of the log. -/
def Absent (log : List (Option Nat × EnqueueItem)) (i : Nat) : Prop :=
  ∀ x ∈ log, x.1 ≠ some i

/-- Call `i` owns exactly one contiguous stretch of the log, its items in
order. -/
def Contributed (log : List (Option Nat × EnqueueItem)) (i : Nat)
    (items : List EnqueueItem) : Prop :=
  ∃ before after, log = before ++ (items.map (Prod.mk (some i)) ++ after) ∧
    Absent before i ∧ Absent after i

/-- The invariant of every run. -/
structure SharedInv (path : Bytes) (s : Shared) : Prop where
  holds : Holds s.store path s.history
  fits : ∀ (i : Nat) (c : EnqueueCall), s.calls[i]? = some c → ∀ item ∈ c.items, ItemFits item
  plans : ∀ (i : Nat) (c : EnqueueCall) n data version applied, s.calls[i]? = some c →
    c.phase = .writing n data version applied → Planned s.store path c.items data version
  readers : ∀ (j : Nat) (read : GetResult), s.consumers[j]? = some (some read) →
    (path, read) ∈ s.store.issued
  done : ∀ (i : Nat) (c : EnqueueCall) (n : Nat), s.calls[i]? = some c →
    c.phase = .returned n none →
    Contributed s.history.log i c.items
  pending : ∀ (i : Nat) (c : EnqueueCall), s.calls[i]? = some c →
    (∀ n, c.phase ≠ .returned n none) →
    Absent s.history.log i
  fresh : ∀ i, s.calls.length ≤ i → Absent s.history.log i

namespace SharedInv

variable {path : Bytes} {s : Shared}

/-- At the start the log is the items of nobody, and no call has been made. -/
theorem start {store : ObjectStore} {items : List EnqueueItem}
    (h : StartsFrom store path items) : SharedInv path (Shared.start store items) where
  holds := h.holds
  fits := by intro i c hc; simp [Shared.start] at hc
  plans := by intro i c n data version applied hc; simp [Shared.start] at hc
  readers := by intro j read hread; simp [Shared.start] at hread
  done := by intro i c n hc; simp [Shared.start] at hc
  pending := by intro i c hc; simp [Shared.start] at hc
  fresh := by
    intro i _ x hx
    obtain ⟨item, _, rfl⟩ := List.mem_map.mp hx
    simp

/-- A call that moves on without touching the store and without succeeding. -/
theorem move (h : SharedInv path s) {i : Nat} {c : EnqueueCall} {phase : EnqueuePhase}
    (hcall : s.calls[i]? = some c) (hopen : ∀ n, c.phase ≠ .returned n none)
    (hphase : ∀ n, phase ≠ .returned n none)
    (hplan : ∀ n data version applied, phase = .writing n data version applied →
      Planned s.store path c.items data version) :
    SharedInv path { s with calls := s.calls.set i (c.at phase) } where
  holds := h.holds
  fits := by
    intro j d hd
    rcases getElem?_set_cases hd with ⟨rfl, rfl⟩ | ⟨_, hd⟩
    · exact h.fits j c hcall
    · exact h.fits j d hd
  plans := by
    intro j d n data version applied hd hdp
    rcases getElem?_set_cases hd with ⟨rfl, rfl⟩ | ⟨_, hd⟩
    · exact hplan n data version applied hdp
    · exact h.plans j d n data version applied hd hdp
  readers := h.readers
  done := by
    intro j d n hd hdp
    rcases getElem?_set_cases hd with ⟨rfl, rfl⟩ | ⟨_, hd⟩
    · exact absurd hdp (hphase n)
    · exact h.done j d n hd hdp
  pending := by
    intro j d hd hdp
    rcases getElem?_set_cases hd with ⟨rfl, rfl⟩ | ⟨_, hd⟩
    · exact h.pending j c hcall hopen
    · exact h.pending j d hd hdp
  fresh := by
    intro j hj
    exact h.fresh j (by simpa using hj)

/-- Items of another call do not matter to call `j`. -/
private theorem absent_append {log : List (Option Nat × EnqueueItem)} {i j : Nat}
    (h : Absent log j) (hne : j ≠ i) (items : List EnqueueItem) :
    Absent (log ++ items.map (Prod.mk (some i))) j := by
  intro x hx
  rcases List.mem_append.mp hx with hx | hx
  · exact h x hx
  · obtain ⟨item, _, rfl⟩ := List.mem_map.mp hx
    intro heq
    exact hne (Option.some.inj heq).symm

/-- The step that succeeds: the items of call `i` join the log. -/
theorem put (h : SharedInv path s) {i n : Nat} {c : EnqueueCall} {obj : GetResult}
    {version : Option Version} (hcall : s.calls[i]? = some c)
    (hphase : c.phase = .writing n obj.data version false)
    (hmatch : s.store.Matches path version) (hnames : s.store.Names path obj) :
    SharedInv path { s with
      store := s.store.write path obj
      calls := s.calls.set i (c.at (afterPut n none))
      history := { s.history with
        log := s.history.log ++ c.items.map (Prod.mk (some i)) } } where
  holds := by
    refine h.holds.append _ ?_ (h.fits i c hcall)
      (h.plans i c n obj.data version false hcall hphase) hmatch hnames
    simp [Function.comp_def]
  fits := by
    intro j d hd
    rcases getElem?_set_cases hd with ⟨rfl, rfl⟩ | ⟨_, hd⟩
    · exact h.fits j c hcall
    · exact h.fits j d hd
  plans := by
    intro j d m data version' applied hd hdp
    rcases getElem?_set_cases hd with ⟨rfl, rfl⟩ | ⟨_, hd⟩
    · exact absurd hdp (afterPut_ne_writing n m none data version' applied)
    · exact (h.plans j d m data version' applied hd hdp).write obj
  readers := by
    intro j read hread
    exact Store.mem_issued_write.mpr (Or.inr (h.readers j read hread))
  done := by
    intro j d m hd hdp
    rcases getElem?_set_cases hd with ⟨rfl, rfl⟩ | ⟨hne, hd⟩
    · -- the call that just succeeded owned nothing before
      have habs := h.pending j c hcall (by simp [hphase])
      exact ⟨s.history.log, [], by simp, habs, by simp [Absent]⟩
    · obtain ⟨before, after, hlog, hb, ha⟩ := h.done j d m hd hdp
      refine ⟨before, after ++ c.items.map (Prod.mk (some i)), ?_, hb, absent_append ha hne _⟩
      simp [hlog]
  pending := by
    intro j d hd hdp
    rcases getElem?_set_cases hd with ⟨rfl, rfl⟩ | ⟨hne, hd⟩
    · exact absurd rfl (hdp n)
    · exact absent_append (h.pending j d hd hdp) hne _
  fresh := by
    intro j hj
    have hlen : s.calls.length ≤ j := by simpa using hj
    have hi : i < s.calls.length := (List.getElem?_eq_some_iff.mp hcall).1
    exact absent_append (h.fresh j hlen) (by omega) _

/-- A new call owns nothing; a call without items has already succeeded. -/
theorem enter (h : SharedInv path s) (items : List EnqueueItem)
    (hfit : ∀ item ∈ items, ItemFits item) :
    SharedInv path { s with calls := s.calls ++ [⟨items, enqueueBatch items⟩] } where
  holds := h.holds
  fits := by
    intro j d hd
    rcases getElem?_concat_cases hd with ⟨_, rfl⟩ | hd
    · exact hfit
    · exact h.fits j d hd
  plans := by
    intro j d n data version applied hd hdp
    rcases getElem?_concat_cases hd with ⟨_, rfl⟩ | hd
    · simp only [enqueueBatch] at hdp
      split at hdp <;> cases hdp
    · exact h.plans j d n data version applied hd hdp
  readers := h.readers
  done := by
    intro j d n hd hdp
    rcases getElem?_concat_cases hd with ⟨rfl, rfl⟩ | hd
    · have hempty : items = [] := by
        simp only [enqueueBatch] at hdp
        split at hdp
        · exact List.length_eq_zero_iff.mp ‹_›
        · cases hdp
      subst hempty
      exact ⟨s.history.log, [], by simp, h.fresh _ (Nat.le_refl _), by simp [Absent]⟩
    · exact h.done j d n hd hdp
  pending := by
    intro j d hd hdp
    rcases getElem?_concat_cases hd with ⟨rfl, rfl⟩ | hd
    · exact h.fresh _ (Nat.le_refl _)
    · exact h.pending j d hd hdp
  fresh := by
    intro j hj
    simp only [List.length_append, List.length_singleton] at hj
    exact h.fresh j (by omega)

/-- A consumer's write drops a prefix and leaves everything else alone. -/
theorem consumerPut (h : SharedInv path s) {j k : Nat} {read obj : GetResult}
    {entries : List QueueEntry} {nextSequence epoch epoch' : UInt64}
    (hread : s.consumers[j]? = some (some read))
    (hold : WellFormed read.data entries nextSequence epoch) (hk : k ≤ entries.length)
    (hnew : WellFormed obj.data (entries.drop k) nextSequence epoch')
    (hmatch : s.store.Matches path (some read.version)) (hnames : s.store.Names path obj) :
    SharedInv path { s with
      store := s.store.write path obj
      consumers := s.consumers.set j none
      history := { s.history with dropped := s.history.dropped + k } } where
  holds := by
    have hissued := h.readers j read hread
    obtain ⟨items, es, next, ep, hwf, hseq, rfl⟩ := h.holds.issued read hissued
    -- the bytes determine the entries and the counter, so the consumer saw these
    have hes : es = entries := by
      have heq := hwf.decode.symm.trans hold.decode
      simpa using heq
    have hnext : next = nextSequence := by
      have heq := hwf.fromBytes.symm.trans hold.fromBytes
      simp only [Except.ok.injEq, Manifest.mk.injEq] at heq
      exact heq.2.2.2.1
    subst hes hnext
    refine h.holds.drop hissued ⟨es, next, ep, hwf, hseq, rfl⟩ (by simpa using hk) ?_ hmatch hnames
    exact ⟨es.drop k, next, epoch', hnew, hseq.drop k, by rw [List.map_drop]⟩
  fits := h.fits
  plans := by
    intro i c n data version applied hc hcp
    exact (h.plans i c n data version applied hc hcp).write obj
  readers := by
    intro i r hr
    rcases getElem?_set_cases hr with ⟨_, hnone⟩ | ⟨_, hr⟩
    · cases hnone
    · exact Store.mem_issued_write.mpr (Or.inr (h.readers i r hr))
  done := h.done
  pending := h.pending
  fresh := h.fresh

/-- **Every store call of every party keeps the invariant.** -/
theorem step (h : SharedInv path s) {p : Party} {t : Shared} (hs : SharedStep path s p t) :
    SharedInv path t := by
  cases hs with
  | enter items hfit => exact h.enter items hfit
  | get hcall hphase =>
      refine h.move hcall (by simp [hphase]) (fun m => afterGet_ne_ok _ _ m _) ?_
      intro m data version applied hw
      unfold afterGet at hw
      split at hw
      · cases hw
      · cases hw
        exact h.holds.planned ‹_›
  | getFails msg hcall hphase =>
      refine h.move hcall (by simp [hphase]) (fun m => afterGet_ne_ok _ _ m _) ?_
      intro m data version applied hw
      simp [afterGet, planAppend, readManifest, bind, Except.bind] at hw
  | put hcall hphase hmatch hnames => exact h.put hcall hphase hmatch hnames
  | putConflict hcall hphase hmatch =>
      exact h.move hcall (by simp [hphase]) (fun m => afterPut_ne_ok _ m _)
        (fun m data version applied hw => absurd hw (afterPut_ne_writing _ _ _ _ _ _))
  | putFails msg hcall hphase =>
      exact h.move hcall (by simp [hphase]) (fun m => afterPut_ne_ok _ m _)
        (fun m data version applied hw => absurd hw (afterPut_ne_writing _ _ _ _ _ _))
  | consumerEnter =>
      refine ⟨h.holds, h.fits, h.plans, ?_, h.done, h.pending, h.fresh⟩
      intro j read hread
      rcases getElem?_concat_cases hread with ⟨_, hnone⟩ | hread
      · cases hnone
      · exact h.readers j read hread
  | consumerGet hobj =>
      refine ⟨h.holds, h.fits, h.plans, ?_, h.done, h.pending, h.fresh⟩
      intro j read hread
      rcases getElem?_set_cases hread with ⟨_, heq⟩ | ⟨_, hread⟩
      · cases heq
        exact h.holds.sound.current path _ hobj
      · exact h.readers j read hread
  | consumerPut hread hold hk hnew hmatch hnames =>
      exact h.consumerPut hread hold hk hnew hmatch hnames
  | consumerConflict hread hmatch =>
      refine ⟨h.holds, h.fits, h.plans, ?_, h.done, h.pending, h.fresh⟩
      intro i r hr
      rcases getElem?_set_cases hr with ⟨_, hnone⟩ | ⟨_, hr⟩
      · cases hnone
      · exact h.readers i r hr

/-- The invariant holds along every run that starts with it. -/
theorem run (h : SharedInv path s) {t : Shared} (hrun : SharedRun path s t) :
    SharedInv path t :=
  hrun.invariant h (fun _ _ _ hx _ hs => hx.step hs)

/-- The manifest object of any reachable state, read back from its bytes. -/
theorem manifest_reads_back (h : SharedInv path s) {obj : GetResult}
    (hobj : s.store.objects path = some obj) :
    ∃ entries m, DecodeManifestEntries obj.data = .ok entries ∧
      manifestFromBytes obj.data = .ok m ∧ Consecutive entries m.nextSequence ∧
      m.existingEntriesCount = entries.length ∧
      entries.map QueueEntry.item = (s.history.log.drop s.history.dropped).map Prod.snd := by
  obtain ⟨entries, next, epoch, hwf, hseq, hitems⟩ := h.holds.present obj hobj
  exact ⟨entries, _, hwf.decode, hwf.fromBytes, hseq, hwf.existingEntriesCount rfl, hitems⟩

end SharedInv

/-- The bytes of a manifest before its footer. -/
def manifestBody (data : Bytes) : Bytes := data.take (data.length - mFooterSize)

/-- `new` has the entry bytes of `old`, unchanged and in place, and its epoch. -/
def KeepsEntries (old new : Bytes) : Prop :=
  manifestBody old <+: manifestBody new ∧
    ∃ m m', manifestFromBytes old = .ok m ∧ manifestFromBytes new = .ok m' ∧ m'.epoch = m.epoch

/-- The body of a manifest is the frames of its entries. -/
theorem WellFormed.body {data : Bytes} {entries : List QueueEntry} {nextSequence epoch : UInt64}
    (h : WellFormed data entries nextSequence epoch) :
    manifestBody data = entries.flatMap entryFrame := by
  have hlen := h.length_eq
  have hcut : data.length - mFooterSize = (entries.flatMap entryFrame).length := by omega
  rw [manifestBody, hcut, h.bytes]
  simp

/-- A manifest that is not touched keeps its entries. -/
theorem WellFormed.keepsEntries_self {data : Bytes} {entries : List QueueEntry}
    {nextSequence epoch : UInt64} (h : WellFormed data entries nextSequence epoch) :
    KeepsEntries data data :=
  ⟨List.prefix_refl _, _, _, h.fromBytes, h.fromBytes, rfl⟩

/-- An append planned from the current manifest keeps its bytes and epoch. -/
theorem planAppend_keepsEntries {old : GetResult} {items read : List EnqueueItem} {data : Bytes}
    {version : Option Version} (hread : ManifestOf old.data read)
    (hfit : ∀ item ∈ items, ItemFits item)
    (hplan : planAppend items (.ok old) = .ok (data, version)) : KeepsEntries old.data data := by
  obtain ⟨entries, next, epoch, hwf, _, _⟩ := hread
  obtain ⟨m, m', hm, happ, hbytes⟩ := planAppend_ok hplan
  simp only [readManifest, bind, Except.bind, hwf.fromBytes, pure, Except.pure,
    Except.ok.injEq, Prod.mk.injEq] at hm
  obtain ⟨rfl, _⟩ := hm
  have hbody : ∀ e ∈ items.map EnqueueItem.entry, entryBodyLen e < 2 ^ 32 := by
    intro e he
    obtain ⟨item, hitem, rfl⟩ := List.mem_map.mp he
    exact hfit item hitem
  have hnew := toBytes_appendAll hwf hbody happ hbytes
  refine ⟨?_, _, _, hwf.fromBytes, hnew.fromBytes, rfl⟩
  rw [hwf.body, hnew.body, List.flatMap_append]
  exact List.prefix_append _ _

/-- A step of an enqueuer leaves every existing entry's bytes and the epoch as
they are. -/
theorem SharedInv.enqueuer_keepsEntries {path : Bytes} {s t : Shared} (h : SharedInv path s)
    {i : Nat} (hs : SharedStep path s (.enqueuer i) t) {obj : GetResult}
    (hobj : s.store.objects path = some obj) :
    ∃ obj', t.store.objects path = some obj' ∧ KeepsEntries obj.data obj'.data := by
  have hsame : ∃ obj', s.store.objects path = some obj' ∧ KeepsEntries obj.data obj'.data := by
    obtain ⟨entries, next, epoch, hwf, _, _⟩ := h.holds.present obj hobj
    exact ⟨obj, hobj, hwf.keepsEntries_self⟩
  cases hs with
  | enter items hfit => exact hsame
  | get hcall hphase => exact hsame
  | getFails msg hcall hphase => exact hsame
  | putConflict hcall hphase hmatch => exact hsame
  | putFails msg hcall hphase => exact hsame
  | @put _ n c new version hcall hphase hmatch hnames =>
      refine ⟨new, by simp, ?_⟩
      have hfit := h.fits i c hcall
      obtain ⟨answer, hplan, rfl | ⟨old, rfl, hissued⟩⟩ :=
        h.plans i c n new.data version false hcall hphase
      · obtain ⟨rfl, _⟩ := planned_missing hfit hplan
        simp [Store.Matches, hobj] at hmatch
      · obtain ⟨read, hread⟩ := h.holds.issued old hissued
        obtain ⟨rfl, _⟩ := hread.planned hfit hplan
        have hver : obj.version = old.version := by
          simpa [Store.Matches, hobj] using hmatch
        have hdata : obj.data = old.data := h.holds.sound.current_data hissued hobj hver
        rw [hdata]
        exact planAppend_keepsEntries hread hfit hplan

/-- **No lost update, atomic groups.**  Whatever the enqueuers and consumers
do, in every state reached the manifest bytes decode to the part of the log
that consumers have left, numbered consecutively up to the footer's counter and
counted by the footer; a call that returned nil owns one contiguous stretch of
the log, its items in order; a call that returned an error owns nothing; and no
enqueuer ever changes an existing entry or the epoch. -/
theorem sharedManifest_no_lost_update {path : Bytes} {store : ObjectStore}
    {items : List EnqueueItem} (hstart : StartsFrom store path items) {s : Shared}
    (hrun : SharedRun path (Shared.start store items) s) :
    (∀ obj, s.store.objects path = some obj → ∃ entries m,
      DecodeManifestEntries obj.data = .ok entries ∧ manifestFromBytes obj.data = .ok m ∧
      Consecutive entries m.nextSequence ∧ m.existingEntriesCount = entries.length ∧
      entries.map QueueEntry.item = (s.history.log.drop s.history.dropped).map Prod.snd) ∧
    (∀ (i : Nat) (c : EnqueueCall) (n : Nat), s.calls[i]? = some c →
      c.phase = .returned n none → Contributed s.history.log i c.items) ∧
    (∀ (i : Nat) (c : EnqueueCall) (n : Nat) (err : BufferError), s.calls[i]? = some c →
      c.phase = .returned n (some err) → Absent s.history.log i) ∧
    (∀ (i : Nat) (t : Shared), SharedStep path s (.enqueuer i) t →
      ∀ obj, s.store.objects path = some obj →
        ∃ obj', t.store.objects path = some obj' ∧ KeepsEntries obj.data obj'.data) := by
  have hinv : SharedInv path s := (SharedInv.start hstart).run hrun
  refine ⟨fun obj hobj => hinv.manifest_reads_back hobj, hinv.done, ?_, ?_⟩
  · intro i c n err hcall hphase
    exact hinv.pending i c hcall (by simp [hphase])
  · intro i t hstep obj hobj
    exact hinv.enqueuer_keepsEntries hstep hobj

/-- An entry of another caller, at location "b". -/
def raceItem : EnqueueItem := ⟨[98], []⟩

/-- The manifest after a consumer has taken `sampleItem` off. -/
def drainedManifest : GetResult where
  data := manifestFooter 0 1 0
  version := ⟨"2"⟩

/-- The manifest with `raceItem` behind that. -/
def lateManifest : GetResult where
  data := entryFrame { raceItem.entry with Sequence := 1 } ++ manifestFooter 1 2 0
  version := ⟨"3"⟩

/-- The sample item fits its fields. -/
theorem sampleItem_fits : ∀ item ∈ [sampleItem], ItemFits item := by
  intro item hitem
  cases List.mem_singleton.mp hitem
  unfold ItemFits
  decide

/-- The item of the second call fits its fields. -/
theorem raceItem_fits : ∀ item ∈ [raceItem], ItemFits item := by
  intro item hitem
  cases List.mem_singleton.mp hitem
  unfold ItemFits
  decide

/-- The first manifest of the sample run is well formed. -/
theorem sampleManifest_wellFormed :
    WellFormed sampleManifest.data [sampleItem.entry] 1 0 where
  bytes := rfl
  count := by decide
  fits := by
    intro e he
    obtain rfl := List.mem_singleton.mp he
    exact ⟨by decide, fun m hm => absurd hm List.not_mem_nil, by decide⟩

/-- Two calls find no manifest.  One of them writes it, a consumer takes that entry off
again, and the other call, whose write fails, reads once more and appends. -/
theorem sample_race : ∃ s, SharedRun [109] (Shared.start emptyStore []) s ∧
    s.store.objects [109] = some lateManifest ∧
    s.history = ⟨[(some 0, sampleItem), (some 1, raceItem)], 1⟩ ∧
    s.calls = [⟨[sampleItem], .returned 0 none⟩, ⟨[raceItem], .returned 1 none⟩] := by
  have hread := (Reach.refl :
      Reach (SharedStep [109]) (fun _ _ => True) (Shared.start emptyStore []) _)
    |>.tail trivial (.enter [sampleItem] sampleItem_fits)
    |>.tail trivial (.enter [raceItem] raceItem_fits)
    |>.tail trivial .consumerEnter
    |>.tail trivial (.get (i := 0) rfl rfl)
    |>.tail trivial (.get (i := 1) rfl rfl)
  have hconflict := hread
    |>.tail trivial (@SharedStep.put _ _ 0 _ _ sampleManifest _ rfl rfl rfl
      (fun _ h => absurd h List.not_mem_nil))
    |>.tail trivial (.putConflict (i := 1) rfl rfl (by decide))
  have hdropped := hconflict
    |>.tail trivial (.consumerGet (j := 0) (show _ = some sampleManifest from rfl))
    |>.tail trivial (@SharedStep.consumerPut _ _ 0 1 _ drainedManifest _ _ _ 0 rfl
      sampleManifest_wellFormed (by decide)
      ⟨rfl, by decide, fun _ h => absurd h List.not_mem_nil⟩ rfl
      (Store.names_of_new_version (by decide)))
  have hrun := hdropped
    |>.tail trivial (.get (i := 1) rfl rfl)
    |>.tail trivial (@SharedStep.put _ _ 1 _ _ lateManifest _ rfl rfl rfl
      (Store.names_of_new_version (by decide)))
  exact ⟨_, hrun, rfl, rfl, rfl⟩

/-- Two calls race, a consumer drops the first entry, and both items are contributed
once. -/
theorem sharedManifest_no_lost_update_sample :
    ∃ s, SharedRun [109] (Shared.start emptyStore []) s ∧ s.history.dropped = 1 ∧
      Contributed s.history.log 0 [sampleItem] ∧ Contributed s.history.log 1 [raceItem] ∧
      ∃ entries, DecodeManifestEntries lateManifest.data = .ok entries ∧
        entries.map QueueEntry.item = [raceItem] := by
  obtain ⟨s, hrun, hobj, hhistory, hcalls⟩ := sample_race
  obtain ⟨hdecodes, hdone, -, -⟩ :=
    sharedManifest_no_lost_update (emptyStore_startsFrom [109]) hrun
  obtain ⟨entries, m, hdecode, -, -, -, hitems⟩ := hdecodes _ hobj
  refine ⟨s, hrun, by rw [hhistory], hdone 0 _ 0 (by rw [hcalls]; rfl) rfl,
    hdone 1 _ 1 (by rw [hcalls]; rfl) rfl, entries, hdecode, ?_⟩
  rw [hitems, hhistory]
  rfl

end OpenDataBuffer
