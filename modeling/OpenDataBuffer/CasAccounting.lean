import OpenDataBuffer.CommitLog

/-!
# What a `casWithRetry` call does with the answers it gets

A call is followed through any answers of the store, without a store: `CasTrace`
lists the events of a call in order, a `Get` with its answer, a `PutIfMatch` with
what was written and its answer, and the end of a wait between two attempts, by
the timer or by shutdown.

`CasAccount` says, for each point at which a call can stand, what the events so
far are: how many of them were failures and conflicts, and that the store has
accepted nothing yet.  A failed precondition is a conflict and not a failure.
From it follow the bound on the attempts, the error that is returned, the number
of conflicts, and that the call ends with the write that was accepted.

The calls of the committer are of this kind: `reachable_casTraced` finds the events
of a call in a run of the producer.
-/

namespace OpenDataBuffer

/-! ## Events -/

inductive CasEvent
  /-- A `Get` of the manifest returns. -/
  | get (answer : Except StoreError GetResult)
  /-- A `PutIfMatch` returns. -/
  | put (data : Bytes) (version : Option Version) (answer : Option StoreError)
  /-- The timer of a backoff fires. -/
  | elapsed
  /-- `shutdownCh` cuts a backoff short. -/
  | shutdown

/-- The calls of `casWithRetry` with their events, in order.  Every answer is
possible where the code waits for one. -/
inductive CasTrace (maxAttempts : Nat) (items : List EnqueueItem) : List CasEvent → CasCall → Prop
  | start : CasTrace maxAttempts items [] (casWithRetry maxAttempts items)
  | get {trace : List CasEvent} {call : CasCall} {n : Nat}
      (before : CasTrace maxAttempts items trace call)
      (hphase : call.phase = .enqueueing (.reading n)) (answer : Except StoreError GetResult) :
      CasTrace maxAttempts items (trace ++ [.get answer])
        (call.settle maxAttempts (afterGet items n answer))
  /-- The store carries the pending `PutIfMatch` out; the call does not see it yet. -/
  | applies {trace : List CasEvent} {call : CasCall} {n : Nat} {data : Bytes}
      {version : Option Version} (before : CasTrace maxAttempts items trace call)
      (hphase : call.phase = .enqueueing (.writing n data version false)) :
      CasTrace maxAttempts items trace
        { call with phase := .enqueueing (.writing n data version true) }
  | put {trace : List CasEvent} {call : CasCall} {n : Nat} {data : Bytes}
      {version : Option Version} {applied : Bool} (before : CasTrace maxAttempts items trace call)
      (hphase : call.phase = .enqueueing (.writing n data version applied))
      (answer : Option StoreError) :
      CasTrace maxAttempts items (trace ++ [.put data version answer])
        (call.settle maxAttempts (afterPut n answer))
  | elapsed {trace : List CasEvent} {call : CasCall} {err : BufferError}
      (before : CasTrace maxAttempts items trace call) (hphase : call.phase = .backoff err) :
      CasTrace maxAttempts items (trace ++ [.elapsed]) (call.retry maxAttempts items)
  | shutdown {trace : List CasEvent} {call : CasCall} {err : BufferError}
      (before : CasTrace maxAttempts items trace call) (hphase : call.phase = .backoff err) :
      CasTrace maxAttempts items (trace ++ [.shutdown]) call.abandon

/-- The error an attempt ends with because of an event: the manifest could not be
read, parsed, extended or encoded, or its write failed for another reason than its
precondition. -/
def CasEvent.failure? (items : List EnqueueItem) : CasEvent → Option BufferError
  | .get answer =>
      match planAppend items answer with
      | .error err => some err
      | .ok _ => none
  | .put _ _ none => none
  | .put _ _ (some .preconditionFailed) => none
  | .put _ _ (some err) => some (storageErr err.text)
  | .elapsed => none
  | .shutdown => none

/-- A `PutIfMatch` found another version. -/
def CasEvent.isConflict : CasEvent → Bool
  | .put _ _ (some .preconditionFailed) => true
  | _ => false

/-- The event after which the call returns whatever its attempts were: an
accepted write, or shutdown during a backoff. -/
def CasEvent.ends : CasEvent → Bool
  | .put _ _ none => true
  | .shutdown => true
  | _ => false

/-- The answer to a `PutIfMatch`. -/
def CasEvent.putAnswer? : CasEvent → Option (Option StoreError)
  | .put _ _ answer => some answer
  | _ => none

def failuresOf (items : List EnqueueItem) (trace : List CasEvent) : List BufferError :=
  trace.filterMap (CasEvent.failure? items)

def conflictsOf (trace : List CasEvent) : Nat := trace.countP CasEvent.isConflict

/-- The answer to the last `PutIfMatch`. -/
def lastPutAnswer (trace : List CasEvent) : Option (Option StoreError) :=
  (trace.filterMap CasEvent.putAnswer?).getLast?

/-! ## Counting -/

/-- The failures and conflicts among the events, none of which ends the call. -/
structure Tally (items : List EnqueueItem) (trace : List CasEvent) (failures conflicts : Nat) :
    Prop where
  failures : (failuresOf items trace).length = failures
  conflicts : conflictsOf trace = conflicts
  pending : ∀ e ∈ trace, e.ends = false

section Counting

variable {items : List EnqueueItem} {trace : List CasEvent} {failures conflicts : Nat}
  {e : CasEvent}

/-- One more event is one more failure, if it is one. -/
theorem failuresOf_append (e : CasEvent) :
    failuresOf items (trace ++ [e]) = failuresOf items trace ++ (e.failure? items).toList := by
  cases hfailure : e.failure? items <;> simp [failuresOf, hfailure]

/-- One more event is one more conflict, if it is one. -/
theorem conflictsOf_append (e : CasEvent) :
    conflictsOf (trace ++ [e]) = conflictsOf trace + if e.isConflict then 1 else 0 := by
  simp [conflictsOf, List.countP_append, List.countP_cons]

/-- An event that does not end the call is tallied. -/
theorem Tally.append (h : Tally items trace failures conflicts) (hpending : e.ends = false) :
    Tally items (trace ++ [e]) (failures + (e.failure? items).toList.length)
      (conflicts + if e.isConflict then 1 else 0) where
  failures := by rw [failuresOf_append, List.length_append, h.failures]
  conflicts := by rw [conflictsOf_append, h.conflicts]
  pending := by
    intro x hx
    rcases List.mem_append.mp hx with hold | hnew
    · exact h.pending x hold
    · rw [List.mem_singleton.mp hnew]
      exact hpending

/-- An event that is neither a failure nor a conflict. -/
theorem Tally.quiet (h : Tally items trace failures conflicts) (hpending : e.ends = false)
    (hfailure : e.failure? items = none) (hconflict : e.isConflict = false) :
    Tally items (trace ++ [e]) failures conflicts := by
  have happend := h.append hpending
  rw [hfailure, hconflict] at happend
  exact happend

/-- An event that ends an attempt. -/
theorem Tally.failed (h : Tally items trace failures conflicts) (hpending : e.ends = false)
    {err : BufferError} (hfailure : e.failure? items = some err)
    (hconflict : e.isConflict = false) :
    Tally items (trace ++ [e]) (failures + 1) conflicts ∧
      (failuresOf items (trace ++ [e])).getLast? = some err := by
  have happend := h.append hpending
  rw [hfailure, hconflict] at happend
  refine ⟨happend, ?_⟩
  rw [failuresOf_append, hfailure]
  exact List.getLast?_concat

/-- The events that end a call leave the counts as they are. -/
theorem Tally.counts_of_ends (h : Tally items trace failures conflicts) (hends : e.ends = true) :
    (failuresOf items (trace ++ [e])).length = failures ∧
      conflictsOf (trace ++ [e]) = conflicts := by
  rw [failuresOf_append, conflictsOf_append, h.conflicts, List.length_append, h.failures]
  cases e with
  | get answer => cases hends
  | put data version answer =>
      cases answer with
      | none => exact ⟨rfl, rfl⟩
      | some err => cases hends
  | elapsed => cases hends
  | shutdown => exact ⟨rfl, rfl⟩

/-- A call that goes on has had no write accepted. -/
theorem Tally.lastPutAnswer_ne (h : Tally items trace failures conflicts) :
    lastPutAnswer trace ≠ some none := by
  intro hlast
  obtain ⟨e, he, hanswer⟩ := List.mem_filterMap.mp (List.mem_of_getLast? hlast)
  have hpending := h.pending e he
  cases e with
  | put data version answer =>
      cases hanswer
      cases hpending
  | get answer => cases hanswer
  | elapsed => cases hanswer
  | shutdown => cases hanswer

end Counting

/-! ## The account of a call -/

/-- What the events so far are, for each point at which a call can stand. -/
def CasAccount (maxAttempts : Nat) (items : List EnqueueItem) (trace : List CasEvent)
    (call : CasCall) : Prop :=
  match call.phase with
  | .enqueueing (.reading n) =>
      call.attempt < maxAttempts ∧ Tally items trace call.attempt (call.totalConflicts + n)
  | .enqueueing (.writing n data version _) =>
      call.attempt < maxAttempts ∧ Tally items trace call.attempt (call.totalConflicts + n) ∧
        ∃ before answer, trace = before ++ [.get answer] ∧
          planAppend items answer = .ok (data, version)
  | .enqueueing (.returned _ _) => False
  | .backoff _ =>
      call.attempt + 1 < maxAttempts ∧ Tally items trace (call.attempt + 1) call.totalConflicts
  | .returned none =>
      call.attempt < maxAttempts ∧ ∃ before data version,
        trace = before ++ [.put data version none] ∧
          Tally items before call.attempt call.totalConflicts
  | .returned (some err) =>
      (call.attempt + 1 = maxAttempts ∧ Tally items trace (call.attempt + 1) call.totalConflicts ∧
          (failuresOf items trace).getLast? = some err) ∨
        (call.attempt + 1 < maxAttempts ∧ err = .shutdown ∧ ∃ before,
          trace = before ++ [.shutdown] ∧
            Tally items before (call.attempt + 1) call.totalConflicts)

section Account

variable {maxAttempts : Nat} {items : List EnqueueItem} {trace : List CasEvent} {call : CasCall}

/-- An event fails the attempt: the call waits, or returns the error. -/
theorem CasAccount.fail {n : Nat} {e : CasEvent} {err : BufferError}
    (hwithin : call.attempt < maxAttempts)
    (htally : Tally items trace call.attempt (call.totalConflicts + n))
    (hpending : e.ends = false) (hfailure : e.failure? items = some err)
    (hconflict : e.isConflict = false) :
    CasAccount maxAttempts items (trace ++ [e])
      (call.settle maxAttempts (.returned n (some err))) := by
  obtain ⟨htally', hlast⟩ := htally.failed hpending hfailure hconflict
  unfold CasCall.settle
  by_cases hmore : call.attempt + 1 < maxAttempts
  · simp only [if_pos hmore]
    exact ⟨hmore, htally'⟩
  · have hfull : call.attempt + 1 = maxAttempts := by omega
    simp only [if_neg hmore]
    exact .inl ⟨hfull, htally', hlast⟩

/-- The account behind an answer to a read. -/
theorem CasAccount.get {n : Nat} (hwithin : call.attempt < maxAttempts)
    (htally : Tally items trace call.attempt (call.totalConflicts + n))
    (answer : Except StoreError GetResult) :
    CasAccount maxAttempts items (trace ++ [.get answer])
      (call.settle maxAttempts (afterGet items n answer)) := by
  unfold afterGet
  cases hplan : planAppend items answer with
  | error err => exact .fail hwithin htally rfl (by simp [CasEvent.failure?, hplan]) rfl
  | ok plan =>
      have hquiet : (CasEvent.get answer).failure? items = none := by
        simp [CasEvent.failure?, hplan]
      exact ⟨hwithin, htally.quiet rfl hquiet rfl, trace, answer, rfl, hplan⟩

/-- Only a failed precondition leaves the attempt going. -/
theorem CasAccount.put {n : Nat} (hwithin : call.attempt < maxAttempts)
    (htally : Tally items trace call.attempt (call.totalConflicts + n)) (data : Bytes)
    (version : Option Version) (answer : Option StoreError) :
    CasAccount maxAttempts items (trace ++ [.put data version answer])
      (call.settle maxAttempts (afterPut n answer)) := by
  cases answer with
  | none => exact ⟨hwithin, trace, data, version, rfl, htally⟩
  | some err =>
      cases err with
      | preconditionFailed => exact ⟨hwithin, htally.append rfl⟩
      | notFound => exact .fail hwithin htally rfl rfl rfl
      | other msg => exact .fail hwithin htally rfl rfl rfl

/-- `enqueueBatch` starts with a read if there are items. -/
theorem enqueueBatch_nonempty (hitems : items ≠ []) : enqueueBatch items = .reading 0 := by
  have hlen : items.length ≠ 0 := fun h => hitems (List.length_eq_zero_iff.mp h)
  rw [enqueueBatch, if_neg hlen]

/-- **The account holds after every event.** -/
theorem CasTrace.account (hmax : 0 < maxAttempts) (hitems : items ≠ [])
    (h : CasTrace maxAttempts items trace call) : CasAccount maxAttempts items trace call := by
  induction h with
  | start =>
      unfold casWithRetry
      rw [enqueueBatch_nonempty hitems]
      exact ⟨hmax, rfl, rfl, by simp⟩
  | get _ hphase answer ih =>
      simp only [CasAccount, hphase] at ih
      exact .get ih.1 ih.2 answer
  | applies _ hphase ih =>
      simp only [CasAccount, hphase] at ih
      exact ih
  | put _ hphase answer ih =>
      simp only [CasAccount, hphase] at ih
      exact .put ih.1 ih.2.1 _ _ answer
  | elapsed _ hphase ih =>
      simp only [CasAccount, hphase] at ih
      unfold CasCall.retry
      rw [enqueueBatch_nonempty hitems]
      exact ⟨ih.1, ih.2.quiet rfl rfl rfl⟩
  | @shutdown trace _ _ _ hphase ih =>
      simp only [CasAccount, hphase] at ih
      exact .inr ⟨ih.1, rfl, trace, rfl, ih.2⟩

/-! ## What the account says -/

/-- A call that has not returned has attempts left and stands at a `Get`, a
`PutIfMatch` or a backoff. -/
theorem CasAccount.unfinished (h : CasAccount maxAttempts items trace call)
    (hopen : ∀ result, call.phase ≠ .returned result) :
    (∃ failures conflicts, failures < maxAttempts ∧ Tally items trace failures conflicts) ∧
      ((∃ n, call.phase = .enqueueing (.reading n)) ∨
        (∃ n data version applied, call.phase = .enqueueing (.writing n data version applied)) ∨
        ∃ err, call.phase = .backoff err) := by
  cases hphase : call.phase with
  | returned result => exact absurd hphase (hopen result)
  | backoff err =>
      simp only [CasAccount, hphase] at h
      exact ⟨⟨_, _, h⟩, .inr (.inr ⟨err, rfl⟩)⟩
  | enqueueing phase =>
      cases phase with
      | reading n =>
          simp only [CasAccount, hphase] at h
          exact ⟨⟨_, _, h⟩, .inl ⟨n, rfl⟩⟩
      | writing n data version applied =>
          simp only [CasAccount, hphase] at h
          exact ⟨⟨_, _, h.1, h.2.1⟩, .inr (.inl ⟨n, data, version, applied, rfl⟩)⟩
      | returned n result => simp [CasAccount, hphase] at h

/-- The call succeeds exactly if its last write was accepted. -/
theorem CasAccount.returned_none_iff (h : CasAccount maxAttempts items trace call) :
    call.phase = .returned none ↔ lastPutAnswer trace = some none := by
  constructor
  · intro hphase
    simp only [CasAccount, hphase] at h
    obtain ⟨_, before, data, version, rfl, _⟩ := h
    simp [lastPutAnswer, CasEvent.putAnswer?]
  · intro hlast
    by_contra hphase
    by_cases hreturned : ∃ result, call.phase = .returned result
    · obtain ⟨result, hresult⟩ := hreturned
      cases result with
      | none => exact hphase hresult
      | some err =>
          simp only [CasAccount, hresult] at h
          rcases h with ⟨_, htally, _⟩ | ⟨_, _, before, rfl, htally⟩
          · exact htally.lastPutAnswer_ne hlast
          · refine htally.lastPutAnswer_ne ?_
            simpa [lastPutAnswer, CasEvent.putAnswer?] using hlast
    · obtain ⟨⟨_, _, _, htally⟩, _⟩ := h.unfinished (not_exists.mp hreturned)
      exact htally.lastPutAnswer_ne hlast

/-- The failures never exceed the attempts, and use them up only in a call that
returns an error. -/
theorem CasAccount.failures_le (h : CasAccount maxAttempts items trace call) :
    (failuresOf items trace).length ≤ maxAttempts ∧
      ((failuresOf items trace).length = maxAttempts →
        ∃ err, call.phase = .returned (some err)) := by
  by_cases hreturned : ∃ result, call.phase = .returned result
  · obtain ⟨result, hphase⟩ := hreturned
    cases result with
    | none =>
        simp only [CasAccount, hphase] at h
        obtain ⟨hwithin, before, data, version, rfl, htally⟩ := h
        rw [(htally.counts_of_ends rfl).1]
        omega
    | some err =>
        refine ⟨?_, fun _ => ⟨err, hphase⟩⟩
        simp only [CasAccount, hphase] at h
        rcases h with ⟨hwithin, htally, _⟩ | ⟨hwithin, _, before, rfl, htally⟩
        · rw [htally.failures]
          omega
        · rw [(htally.counts_of_ends rfl).1]
          omega
  · obtain ⟨⟨failures, _, hwithin, htally⟩, _⟩ := h.unfinished (not_exists.mp hreturned)
    rw [htally.failures]
    omega

/-- The call fails with the error of its last attempt, or because of a shutdown. -/
theorem CasAccount.returned_error {err : BufferError}
    (h : CasAccount maxAttempts items trace call) (hphase : call.phase = .returned (some err)) :
    ((failuresOf items trace).length = maxAttempts ∧
        (failuresOf items trace).getLast? = some err) ∨
      (err = .shutdown ∧ trace.getLast? = some .shutdown) := by
  simp only [CasAccount, hphase] at h
  rcases h with ⟨hwithin, htally, hlast⟩ | ⟨_, herr, before, rfl, _⟩
  · exact .inl ⟨htally.failures.trans hwithin, hlast⟩
  · exact .inr ⟨herr, List.getLast?_concat⟩

/-- The conflicts that the call returns are those it met. -/
theorem CasAccount.conflicts {result : Option BufferError}
    (h : CasAccount maxAttempts items trace call) (hphase : call.phase = .returned result) :
    call.totalConflicts = conflictsOf trace := by
  cases result with
  | none =>
      simp only [CasAccount, hphase] at h
      obtain ⟨_, before, data, version, rfl, htally⟩ := h
      exact (htally.counts_of_ends rfl).2.symm
  | some err =>
      simp only [CasAccount, hphase] at h
      rcases h with ⟨_, htally, _⟩ | ⟨_, _, before, rfl, htally⟩
      · exact htally.conflicts.symm
      · exact (htally.counts_of_ends rfl).2.symm

/-- Shutdown during a backoff is what the call returns. -/
theorem CasAccount.of_shutdown (h : CasAccount maxAttempts items (trace ++ [.shutdown]) call) :
    call.phase = .returned (some .shutdown) := by
  have hno {failures conflicts : Nat} :
      ¬ Tally items (trace ++ [.shutdown]) failures conflicts := by
    intro htally
    have hpending := htally.pending .shutdown (by simp)
    cases hpending
  by_contra hphase
  by_cases hreturned : ∃ result, call.phase = .returned result
  · obtain ⟨result, hresult⟩ := hreturned
    cases result with
    | none =>
        simp only [CasAccount, hresult] at h
        obtain ⟨_, before, data, version, heq, _⟩ := h
        obtain ⟨_, hlast⟩ := List.append_inj' heq rfl
        cases hlast
    | some err =>
        simp only [CasAccount, hresult] at h
        rcases h with ⟨_, htally, _⟩ | ⟨_, rfl, _⟩
        · exact hno htally
        · exact hphase hresult
  · obtain ⟨⟨_, _, _, htally⟩, _⟩ := h.unfinished (not_exists.mp hreturned)
    exact hno htally

/-! ## Where the writes stand -/

/-- Every write extends what the `Get` right before it returned, and nothing
follows an event that ends the call. -/
def WritesOrdered (items : List EnqueueItem) (trace : List CasEvent) : Prop :=
  ∀ before e after, trace = before ++ e :: after →
    (e.ends = true → after = []) ∧
      ∀ data version answer, e = .put data version answer →
        ∃ earlier read, before = earlier ++ [.get read] ∧
          planAppend items read = .ok (data, version)

/-- A write comes right behind the read it was planned from. -/
theorem WritesOrdered.append {e : CasEvent} (h : WritesOrdered items trace)
    (hpending : ∀ x ∈ trace, x.ends = false)
    (hput : ∀ data version answer, e = .put data version answer →
      ∃ earlier read, trace = earlier ++ [.get read] ∧
        planAppend items read = .ok (data, version)) :
    WritesOrdered items (trace ++ [e]) := by
  intro before x after heq
  rcases List.eq_nil_or_concat after with rfl | ⟨rest, last, rfl⟩
  · -- the event is the new one
    obtain ⟨rfl, hlast⟩ := List.append_inj' heq rfl
    cases hlast
    exact ⟨fun _ => rfl, hput⟩
  · have hsplit : trace ++ [e] = (before ++ x :: rest) ++ [last] := by simpa using heq
    obtain ⟨rfl, -⟩ := List.append_inj' hsplit rfl
    have hx : x.ends = false := hpending x (by simp)
    refine ⟨fun hends => ?_, (h before x rest rfl).2⟩
    rw [hx] at hends
    cases hends

/-- **Each write is planned from the read before it.** -/
theorem CasTrace.writesOrdered (hmax : 0 < maxAttempts) (hitems : items ≠ [])
    (h : CasTrace maxAttempts items trace call) : WritesOrdered items trace := by
  induction h with
  | start =>
      intro before e after heq
      simp at heq
  | get before hphase answer ih =>
      have haccount := before.account hmax hitems
      simp only [CasAccount, hphase] at haccount
      exact ih.append haccount.2.pending nofun
  | applies _ _ ih => exact ih
  | put before hphase answer ih =>
      have haccount := before.account hmax hitems
      simp only [CasAccount, hphase] at haccount
      obtain ⟨_, htally, hget⟩ := haccount
      refine ih.append htally.pending ?_
      rintro _ _ _ ⟨⟩
      exact hget
  | elapsed before hphase ih =>
      have haccount := before.account hmax hitems
      simp only [CasAccount, hphase] at haccount
      exact ih.append haccount.2.pending nofun
  | shutdown before hphase ih =>
      have haccount := before.account hmax hitems
      simp only [CasAccount, hphase] at haccount
      exact ih.append haccount.2.pending nofun

/-! ## How long a call can take -/

/-- The events of a call, at most, from its counters: two for a conflict, three
for a failed attempt with the backoff behind it. -/
def CasCall.eventBound (call : CasCall) : Nat :=
  3 * call.attempt + 2 * call.totalConflicts +
    match call.phase with
    | .enqueueing (.reading n) => 2 * n
    | .enqueueing (.writing n _ _ _) => 2 * n + 1
    | .enqueueing (.returned n _) => 2 * n + 2
    | .backoff _ => 2
    | .returned _ => 3

/-- What a return of `enqueueBatch` leaves of the bound. -/
theorem eventBound_settle_returned (n : Nat) (result : Option BufferError) :
    3 * call.attempt + 2 * call.totalConflicts + 2 * n + 2 ≤
      (call.settle maxAttempts (.returned n result)).eventBound := by
  cases result with
  | none =>
      simp only [CasCall.settle, CasCall.eventBound]
      omega
  | some err =>
      unfold CasCall.settle
      by_cases hmore : call.attempt + 1 < maxAttempts
      · simp only [if_pos hmore, CasCall.eventBound]
        omega
      · simp only [if_neg hmore, CasCall.eventBound]
        omega

/-- A call has at most as many events as its bound says. -/
theorem CasTrace.length_le (hitems : items ≠ []) (h : CasTrace maxAttempts items trace call) :
    trace.length ≤ call.eventBound := by
  induction h with
  | start => exact Nat.zero_le _
  | @get trace call n _ hphase answer ih =>
      simp only [CasCall.eventBound, hphase] at ih
      rw [List.length_append, List.length_singleton]
      unfold afterGet
      cases planAppend items answer with
      | error err =>
          have hbound := @eventBound_settle_returned maxAttempts call n (some err)
          show _ ≤ (call.settle maxAttempts (.returned n (some err))).eventBound
          omega
      | ok plan =>
          simp only [CasCall.settle, CasCall.eventBound]
          omega
  | applies _ hphase ih =>
      simp only [CasCall.eventBound, hphase] at ih
      exact ih
  | @put trace call n _ _ _ _ hphase answer ih =>
      simp only [CasCall.eventBound, hphase] at ih
      rw [List.length_append, List.length_singleton]
      unfold afterPut
      split
      · have hbound := @eventBound_settle_returned maxAttempts call n none
        omega
      · simp only [CasCall.settle, CasCall.eventBound]
        omega
      · rename_i err _
        have hbound := @eventBound_settle_returned maxAttempts call n (some (storageErr err.text))
        omega
  | elapsed _ hphase ih =>
      simp only [CasCall.eventBound, hphase] at ih
      rw [List.length_append, List.length_singleton]
      unfold CasCall.retry
      rw [enqueueBatch_nonempty hitems]
      simp only [CasCall.settle, CasCall.eventBound]
      omega
  | shutdown _ hphase ih =>
      simp only [CasCall.eventBound, hphase] at ih
      rw [List.length_append, List.length_singleton]
      simp only [CasCall.abandon, CasCall.eventBound]
      omega

/-- The bound in terms of attempts and conflicts. -/
theorem CasAccount.eventBound_le (h : CasAccount maxAttempts items trace call) :
    call.eventBound ≤ 3 * maxAttempts + 2 * conflictsOf trace := by
  cases hphase : call.phase with
  | returned result =>
      rw [← h.conflicts hphase]
      simp only [CasCall.eventBound, hphase]
      cases result with
      | none =>
          simp only [CasAccount, hphase] at h
          omega
      | some err =>
          simp only [CasAccount, hphase] at h
          rcases h with ⟨hwithin, _⟩ | ⟨hwithin, _⟩ <;> omega
  | backoff err =>
      simp only [CasAccount, hphase] at h
      rw [h.2.conflicts]
      simp only [CasCall.eventBound, hphase]
      omega
  | enqueueing phase =>
      cases phase with
      | reading n =>
          simp only [CasAccount, hphase] at h
          rw [h.2.conflicts]
          simp only [CasCall.eventBound, hphase]
          omega
      | writing n data version applied =>
          simp only [CasAccount, hphase] at h
          rw [h.2.1.conflicts]
          simp only [CasCall.eventBound, hphase]
          omega
      | returned n result => simp [CasAccount, hphase] at h

end Account

/-! ## What is written -/

/-- The manifest and version an answer to a `Get` stands for: a missing manifest
is the empty one, expected to be still missing. -/
def ReadAs (answer : Except StoreError GetResult) (m : Manifest) (version : Option Version) :
    Prop :=
  (answer = .error .notFound ∧ m = emptyManifest ∧ version = none) ∨
    ∃ result, answer = .ok result ∧ manifestFromBytes result.data = .ok m ∧
      version = some result.version

/-- The bytes of a manifest with the items behind its entries: the entries are
kept as they are, each item follows once with the next sequence number, and the
footer counts them. -/
def Manifest.withItems (m : Manifest) (items : List EnqueueItem) : Bytes :=
  m.data.take (m.data.length - mFooterSize) ++
    ((sequenced m.nextSequence (items.map EnqueueItem.entry)).flatMap entryFrame ++
      manifestFooter (m.existingEntriesCount + items.length)
        (m.nextSequence + UInt64.ofNat items.length) m.epoch)

/-- A manifest that was read has nothing appended yet. -/
theorem manifestFromBytes_fresh {data : Bytes} {m : Manifest} (h : manifestFromBytes data = .ok m) :
    m.appended = [] ∧ m.appendedCount = 0 := by
  unfold manifestFromBytes at h
  split at h
  · cases h
  · split at h
    · cases h
    · dsimp only at h
      split at h
      · cases h
      · cases h
        exact ⟨rfl, rfl⟩

/-- What `readManifest` makes of an answer. -/
theorem readManifest_readAs {answer : Except StoreError GetResult} {m : Manifest}
    {version : Option Version} (h : readManifest answer = .ok (m, version)) :
    ReadAs answer m version ∧ m.appended = [] ∧ m.appendedCount = 0 := by
  cases answer with
  | error err =>
      cases err with
      | notFound =>
          cases h
          exact ⟨.inl ⟨rfl, rfl, rfl⟩, rfl, rfl⟩
      | preconditionFailed => cases h
      | other msg => cases h
  | ok result =>
      simp only [readManifest, bind, Except.bind] at h
      cases hm : manifestFromBytes result.data with
      | error err => simp [hm] at h
      | ok m' =>
          simp only [hm, pure, Except.pure] at h
          cases h
          exact ⟨.inr ⟨result, rfl, hm, rfl⟩, manifestFromBytes_fresh hm⟩

/-- Entries have frames. -/
theorem frames_ne_nil {next : UInt64} {es : List QueueEntry} (hes : es ≠ []) :
    (sequenced next es).flatMap entryFrame ≠ [] := by
  cases es with
  | nil => exact absurd rfl hes
  | cons e rest =>
      intro h
      have hlen := congrArg List.length h
      simp only [sequenced, List.flatMap_cons, List.length_append, entryFrame_length,
        List.length_nil] at hlen
      omega

/-- **What a round writes**: the manifest that was read, with the items appended
once, under the version that was read. -/
theorem planAppend_withItems {items : List EnqueueItem} {answer : Except StoreError GetResult}
    {data : Bytes} {version : Option Version} (hitems : items ≠ [])
    (h : planAppend items answer = .ok (data, version)) :
    ∃ m, ReadAs answer m version ∧ data = m.withItems items := by
  obtain ⟨m, m', hread, happend, hbytes⟩ := planAppend_ok h
  obtain ⟨hreadAs, hfresh, hcount⟩ := readManifest_readAs hread
  obtain ⟨hdata, hepoch, happended, happendedCount, hnext, _⟩ := appendAll_ok happend
  refine ⟨m, hreadAs, ?_⟩
  have hentries : items.map EnqueueItem.entry ≠ [] := by simpa using hitems
  have hsome : m'.appended.length ≠ 0 := by
    rw [happended, hfresh, List.nil_append, ne_eq, List.length_eq_zero_iff]
    exact frames_ne_nil hentries
  have hpre : (if 0 < m.data.length then m.data.take (m.data.length - mFooterSize) else []) =
      m.data.take (m.data.length - mFooterSize) := by
    by_cases hlen : 0 < m.data.length
    · rw [if_pos hlen]
    · rw [if_neg hlen, List.length_eq_zero_iff.mp (Nat.eq_zero_of_not_pos hlen), List.take_nil]
  have hexisting : m'.existingEntriesCount = m.existingEntriesCount := by
    rw [Manifest.existingEntriesCount, Manifest.existingEntriesCount, hdata]
  unfold Manifest.toBytes at hbytes
  rw [if_neg hsome] at hbytes
  simp only [hexisting, hdata, hpre, happended, hfresh, hcount, happendedCount, hnext, hepoch,
    List.length_map, List.nil_append, Nat.zero_add] at hbytes
  split at hbytes
  · cases hbytes
  · cases hbytes
    rfl

/-! ## The account of `casWithRetry` -/

/-- **Retry accounting.**  Whatever the store answers and whenever shutdown comes,
a `casWithRetry` call on some items returns nil exactly when its last write was
accepted.  It has at most `manifestMaxAttempts` failures, returns when they are
used up, and an error it returns is the last of them, or `ErrShutdown` when
shutdown cut a backoff short.  The conflicts it returns are those that happened;
with finitely many of them it ends.  Each write extends what the `Get` right
before it returned by the items, once, under that version, and nothing happens
after a write that was accepted. -/
theorem casWithRetry_accounting (p : Producer) {items : List EnqueueItem} (hitems : items ≠ [])
    {trace : List CasEvent} {call : CasCall}
    (h : CasTrace p.manifestMaxAttempts items trace call) :
    (call.phase = .returned none ↔ lastPutAnswer trace = some none) ∧
    ((failuresOf items trace).length ≤ p.manifestMaxAttempts ∧
      ((failuresOf items trace).length = p.manifestMaxAttempts →
        ∃ err, call.phase = .returned (some err))) ∧
    (∀ err, call.phase = .returned (some err) →
      ((failuresOf items trace).length = p.manifestMaxAttempts ∧
          (failuresOf items trace).getLast? = some err) ∨
        (err = .shutdown ∧ trace.getLast? = some .shutdown)) ∧
    (∀ before after, trace = before ++ .shutdown :: after →
      after = [] ∧ call.phase = .returned (some .shutdown)) ∧
    (∀ result, call.phase = .returned result → call.totalConflicts = conflictsOf trace) ∧
    (∀ before data version answer after, trace = before ++ .put data version answer :: after →
      (∃ earlier read m, before = earlier ++ [.get read] ∧ ReadAs read m version ∧
          data = m.withItems items) ∧
        (answer = none → after = [])) ∧
    trace.length ≤ 3 * p.manifestMaxAttempts + 2 * conflictsOf trace ∧
    ((∀ result, call.phase ≠ .returned result) →
      (∃ n, call.phase = .enqueueing (.reading n)) ∨
        (∃ n data version applied, call.phase = .enqueueing (.writing n data version applied)) ∨
        ∃ err, call.phase = .backoff err) := by
  have hmax : 0 < p.manifestMaxAttempts := atLeastOne_pos _
  have haccount := h.account hmax hitems
  have hordered := h.writesOrdered hmax hitems
  refine ⟨haccount.returned_none_iff, haccount.failures_le, fun err => haccount.returned_error,
    ?_, fun result => haccount.conflicts, ?_, (h.length_le hitems).trans haccount.eventBound_le,
    fun hopen => (haccount.unfinished hopen).2⟩
  · intro before after heq
    obtain rfl : after = [] := (hordered before .shutdown after heq).1 rfl
    rw [heq] at haccount
    exact ⟨rfl, haccount.of_shutdown⟩
  · intro before data version answer after heq
    obtain ⟨hends, hput⟩ := hordered before _ after heq
    obtain ⟨earlier, read, hbefore, hplan⟩ := hput data version answer rfl
    obtain ⟨m, hread, hdata⟩ := planAppend_withItems hitems hplan
    refine ⟨⟨earlier, read, m, hbefore, hread, hdata⟩, ?_⟩
    rintro rfl
    exact hends rfl

/-- A call that meets a conflict, then a failing write, and writes the first
manifest in its second attempt. -/
theorem casWithRetry_accounting_sample :
    ∃ trace call, CasTrace sampleProducer.manifestMaxAttempts [sampleItem] trace call ∧
      call.phase = .returned none ∧ conflictsOf trace = 1 ∧
      (failuresOf [sampleItem] trace).length = 1 ∧ lastPutAnswer trace = some none ∧
      call.totalConflicts = 1 := by
  have hread : CasTrace sampleProducer.manifestMaxAttempts [sampleItem] [.get (.error .notFound)]
      ⟨0, 0, .enqueueing (.writing 0 sampleManifest.data none false)⟩ :=
    CasTrace.start.get rfl (.error .notFound)
  have hconflict := hread.put rfl (some .preconditionFailed)
  have hreread := hconflict.get rfl (.error .notFound)
  have hfailed := hreread.put rfl (some (.other "timeout"))
  have hsecond := (hfailed.elapsed rfl).get rfl (.error .notFound)
  have hdone := hsecond.put rfl none
  have hmain := casWithRetry_accounting sampleProducer (List.cons_ne_nil _ _) hdone
  exact ⟨_, _, hdone, rfl, rfl, rfl, hmain.1.mp rfl, hmain.2.2.2.2.1 none rfl⟩

/-! ## The calls of the committer -/

section Committer

variable {p : Producer} {s t : State} {l : Label}

/-- The event is what happens in the state: the store answers from what it holds
or fails, and shutdown has been asked for. -/
inductive CasEvent.Happens (p : Producer) (s : State) : Label → CasEvent → Prop
  | get : Happens p s (.moves .committer) (.get (storeGet s.store p.config.ManifestPath))
  | getFails (err : StoreError) : Happens p s .getFails (.get (.error err))
  | accepted {data : Bytes} {version : Option Version} :
      Happens p s (.moves .committer) (.put data version none)
  | conflict {data : Bytes} {version : Option Version}
      (hmatch : ¬ s.store.Matches p.config.ManifestPath version) :
      Happens p s (.moves .committer) (.put data version (some .preconditionFailed))
  | putFails {data : Bytes} {version : Option Version} {applied : Bool} {err : StoreError}
      (herr : err ≠ .preconditionFailed) :
      Happens p s (.casFails applied) (.put data version (some err))
  | elapsed : Happens p s .retriesCas .elapsed
  | shutdown (hshutdown : s.shutdown = true) : Happens p s (.moves .committer) .shutdown

/-- A step of a call adds the event that happens in the state. -/
theorem CasStep.trace {items : List EnqueueItem} {call call' : CasCall} {trace : List CasEvent}
    (h : CasTrace p.manifestMaxAttempts items trace call) (hs : CasStep p s items call l call') :
    ∃ e, CasEvent.Happens p s l e ∧ CasTrace p.manifestMaxAttempts items (trace ++ [e]) call' := by
  cases hs with
  | get hcall => exact ⟨_, .get, h.get hcall _⟩
  | getFails err hcall herr => exact ⟨_, .getFails err, h.get hcall _⟩
  | ok hcall => exact ⟨_, .accepted, h.put hcall none⟩
  | conflict hcall hmatch => exact ⟨_, .conflict hmatch, h.put hcall (some .preconditionFailed)⟩
  | fails err hcall herr => exact ⟨_, .putFails herr, h.put hcall (some err)⟩
  | retry hcall => exact ⟨_, .elapsed, h.elapsed hcall⟩
  | abandon hcall hshutdown => exact ⟨_, .shutdown hshutdown, h.shutdown hcall⟩

/-- The call of a group that is being committed has a trace. -/
def State.CasTraced (p : Producer) (s : State) : Prop :=
  ∀ group failed call, s.committer.phase = .cas group failed call →
    group ≠ [] ∧ ∃ trace,
      CasTrace p.manifestMaxAttempts (group.map UploadCompletion.item) trace call

/-- A step of the committer goes on with the trace of its call, or starts one. -/
theorem CommitterStep.casTraced (h : s.CasTraced p) (hs : CommitterStep p s l t) :
    t.CasTraced p := by
  intro group failed call hphase
  cases hs with
  | gather hold hqueue => exact h group failed call hphase
  | resolveClosed hold hclosed => exact h group failed call hphase
  | collect hold =>
      obtain ⟨hne, _, _, rfl⟩ := afterCollect_cas hphase
      exact ⟨hne, [], .start⟩
  | cas hold hcas =>
      cases hphase
      obtain ⟨hne, trace, htrace⟩ := h _ _ _ hold
      obtain ⟨e, -, hnext⟩ := hcas.trace htrace
      exact ⟨hne, _, hnext⟩
  | casApplies hold hcall hmatch hnames =>
      cases hphase
      obtain ⟨hne, trace, htrace⟩ := h _ _ _ hold
      exact ⟨hne, trace, htrace.applies hcall⟩
  | receiveClosed hold hqueue hclosed =>
      have hcas : (if s.committer.halted then CommitterPhase.exited else .draining) =
        .cas group failed call := hphase
      split at hcas <;> cases hcas
  | resolved hold => exact absurd hphase afterResolve_ne_cas
  | _ => cases hphase

/-- Every step keeps the trace of the committer's call. -/
theorem ProducerStep.casTraced (h : s.CasTraced p) (hs : ProducerStep p s l t) : t.CasTraced p := by
  cases hs with
  | append _ hs => cases hs <;> exact h
  | flush _ hs => cases hs <;> exact h
  | close _ hs => cases hs <;> exact h
  | rotator _ hs => cases hs <;> exact h
  | encoder _ hs => cases hs <;> exact h
  | uploader _ hs => cases hs <;> exact h
  | committer _ hs => exact hs.casTraced h
  | resolver _ hs =>
      cases hs with
      | take hres hsend hopen => exact nofun
      | _ => exact h
  | others hs => cases hs <;> exact h

/-- **The calls a producer makes are the calls of `CasTrace`**, on a group that is
not empty. -/
theorem reachable_casTraced {store : ObjectStore} {items : List EnqueueItem}
    {allowed : State → Label → Prop} (hrun : RunWhere p allowed (newProducer p store items) s) :
    s.CasTraced p := by
  refine hrun.invariant ?_ (fun _ _ _ h _ hs => hs.casTraced h)
  intro group failed call hphase
  cases hphase

end Committer

end OpenDataBuffer
