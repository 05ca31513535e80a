import QueryPanel.Proofs.Draft.Compiling
import QueryPanel.Store.Session

/-!
# Turns with one store

Chart requests that are run one after the other share a store, and the store answers call after call
with whatever comes next. So it matters that a request is sent only when nothing can be wrong with
it any more: a call that is made too early takes the reply of the request behind it, and every chart
from there on shows the data of another.

`Turn.Ran` says what one turn does to the store and what comes of it. The rest is counting: after
any number of turns the store has received what those turns compile to, and has given as many
replies.

> `one_call_a_turn`: each of a list of turns makes one call if its request compiles, with what it
> compiles to, and none otherwise, and it is answered from its own request, its own time and the
> reply whose number is that of the calls before it.
-/

namespace QueryPanel

/-! ## One request and one reply -/

/-- The mode of the requests that a reply answers, if it answers any. -/
def StoreReply.mode? : StoreReply → Option Mode
  | .data d => some d.mode
  | .failure _ => none

namespace StoreRequest

/-- What becomes of a compiled request with a reply. -/
def outcome (request : StoreRequest) (now : Instant) : StoreReply → Except Failure Outcome
  | .failure reasons => .error (.store reasons)
  | .data data =>
    match request.query, data with
    | .timeseries spec, .timeseries points =>
      .ok (.timeseries (.ofPoints request.window spec.bucketSeconds points now))
    | .breakdown spec, .breakdown rows => .ok (.breakdown (BreakdownRow.top rows spec.limit))
    | query, data => .error (.wrongReply query.mode data.mode)

variable {request : StoreRequest} {reply : StoreReply} (now : Instant)

/-- A reply in the mode of the request is drawn. -/
theorem outcome_of_fit (h : reply.mode? = some request.query.mode) :
    ∃ o, request.outcome now reply = .ok o := by
  obtain ⟨window, query⟩ := request
  cases reply with
  | failure reasons => exact nomatch h
  | data data =>
    cases query with
    | timeseries spec =>
      cases data with
      | timeseries points => exact ⟨_, rfl⟩
      | breakdown rows => exact nomatch h
    | breakdown spec =>
      cases data with
      | timeseries points => exact nomatch h
      | breakdown rows => exact ⟨_, rfl⟩

/-- A failure of the store and data of the other mode are both put down to the store. -/
theorem outcome_of_unfit (h : reply.mode? ≠ some request.query.mode) :
    ∃ e, request.outcome now reply = .error e ∧ e.report.kind = .store := by
  obtain ⟨window, query⟩ := request
  cases reply with
  | failure reasons => exact ⟨_, rfl, rfl⟩
  | data data =>
    cases query with
    | timeseries spec =>
      cases data with
      | timeseries points => exact absurd rfl h
      | breakdown rows => exact ⟨_, rfl, rfl⟩
    | breakdown spec =>
      cases data with
      | timeseries points => exact ⟨_, rfl, rfl⟩
      | breakdown rows => exact absurd rfl h

/-- Whatever goes wrong once a request is sent is put down to the store. -/
theorem kind_of_outcome_error {e : Failure} (h : request.outcome now reply = .error e) :
    e.report.kind = .store := by
  by_cases hfit : reply.mode? = some request.query.mode
  · obtain ⟨o, ho⟩ := outcome_of_fit now hfit
    exact nomatch h.symm.trans ho
  · obtain ⟨e', he', hkind⟩ := outcome_of_unfit now hfit
    rw [Except.error.inj (h.symm.trans he'), hkind]

end StoreRequest

namespace Store

/-- The reply to the call that comes next. -/
def next (store : Store) : StoreReply :=
  store.replies.headD outOfReplies

/-- The reply to a call, by the number of calls before it. -/
def reply (store : Store) (n : Nat) : StoreReply :=
  store.replies.getD n outOfReplies

theorem next_of_replies_eq_drop {before store : Store} {n : Nat}
    (h : before.replies = store.replies.drop n) : before.next = store.reply n := by
  unfold next reply
  rw [h, List.headD_eq_head?_getD, List.head?_drop, List.getD_eq_getElem?_getD]

end Store

namespace Session

variable {s : Settings} {r : ChartRequest}

/-- A chart request that does not compile leaves the store alone. -/
theorem runWith_run_of_error {e : Failure} (h : r.compile s = .error e) (now : Instant)
    (store : Store) : (run s r now).runWith store = (.error e, store) := by
  unfold run compile
  rw [h]
  rfl

/-- A chart request that compiles calls the store once. -/
theorem runWith_run_of_ok {request : StoreRequest} (h : r.compile s = .ok request) (now : Instant)
    (store : Store) :
    (run s r now).runWith store = (request.outcome now store.next, (store.call request).2) := by
  -- The session goes by the mode of the chart request, which is that of what it compiles to.
  have hmode := (ChartRequest.compilesTo_of_compile h).mode_eq
  unfold run compile
  rw [h, ← hmode]
  obtain ⟨replies, received⟩ := store
  obtain ⟨window, query⟩ := request
  cases query with
  | timeseries spec =>
    match replies with
    | [] => rfl
    | .failure _ :: _ => rfl
    | .data (.timeseries _) :: _ => rfl
    | .data (.breakdown _) :: _ => rfl
  | breakdown spec =>
    match replies with
    | [] => rfl
    | .failure _ :: _ => rfl
    | .data (.timeseries _) :: _ => rfl
    | .data (.breakdown _) :: _ => rfl

end Session

/-! ## One turn -/

/-- A chart request, and the time at which it is run. -/
structure Turn where
  request : ChartRequest
  now : Instant

namespace Turn

variable (t : Turn) (s : Settings)

/-- The requests that a turn sends: the one that it compiles to, if it compiles. -/
def sends : List StoreRequest :=
  match t.request.compile s with
  | .ok request => [request]
  | .error _ => []

/-- What comes of a turn that takes a reply. -/
def answer (reply : StoreReply) : Except Failure Outcome := do
  let request ← t.request.compile s
  request.outcome t.now reply

/-- A turn with a store, from what the store was to what it is, and what comes of it. -/
structure Ran (before after : Store) (outcome : Except Failure Outcome) : Prop where
  /-- What does not compile is told as it is, and the store is left alone. -/
  refused : ∀ e, t.request.compile s = .error e → outcome = .error e ∧ after = before
  /-- What compiles is sent, once, and takes one reply. -/
  sent : ∀ request, t.request.compile s = .ok request →
    after.received = before.received ++ [request] ∧ after.replies = before.replies.tail
  /-- A reply of the mode that was wanted is drawn. -/
  drawn : ∀ request, t.request.compile s = .ok request →
    before.next.mode? = some t.request.mode → ∃ o, outcome = .ok o
  /-- Any other reply, be it a failure or data of the other mode, is put down to the store. -/
  blamed : ∀ request, t.request.compile s = .ok request →
    before.next.mode? ≠ some t.request.mode → ∃ e, outcome = .error e ∧ e.report.kind = .store
  /-- Nothing but the turn itself and the reply that it takes has a part in what comes of it. -/
  answered : outcome = t.answer s before.next

/-- Whatever the store, a turn does what it should. -/
theorem ran (store : Store) :
    t.Ran s store ((Session.run s t.request t.now).runWith store).2
      ((Session.run s t.request t.now).runWith store).1 := by
  cases h : t.request.compile s with
  | error e =>
    rw [Session.runWith_run_of_error h]
    exact
      { refused := fun e' h' => ⟨congrArg _ (Except.error.inj (h.symm.trans h')), rfl⟩
        sent := fun _ h' => nomatch h.symm.trans h'
        drawn := fun _ h' => nomatch h.symm.trans h'
        blamed := fun _ h' => nomatch h.symm.trans h'
        answered := by
          unfold answer
          rw [h]
          rfl }
  | ok request =>
    have hmode := (ChartRequest.compilesTo_of_compile h).mode_eq
    rw [Session.runWith_run_of_ok h]
    exact
      { refused := fun _ h' => nomatch h.symm.trans h'
        sent := fun request' h' => ⟨by rw [← Except.ok.inj (h.symm.trans h')]; rfl, rfl⟩
        drawn := fun _ _ hfit => request.outcome_of_fit t.now (hmode ▸ hfit)
        blamed := fun _ _ hunfit => request.outcome_of_unfit t.now (hmode ▸ hunfit)
        answered := by
          unfold answer
          rw [h]
          rfl }

variable {t s} {before after : Store} {outcome : Except Failure Outcome}

/-- A turn leaves the store with what it sends behind what was there, and as many replies less. -/
theorem Ran.moves (h : t.Ran s before after outcome) :
    after.received = before.received ++ t.sends s ∧
      after.replies = before.replies.drop (t.sends s).length := by
  unfold sends
  cases hcompile : t.request.compile s with
  | error e =>
    rw [(h.refused e hcompile).2]
    exact ⟨(List.append_nil _).symm, rfl⟩
  | ok request =>
    obtain ⟨hreceived, hreplies⟩ := h.sent request hcompile
    exact ⟨hreceived, hreplies.trans List.drop_one.symm⟩

end Turn

/-! ## Turn after turn -/

/-- The number of calls that some turns make. -/
def Turn.calls (s : Settings) (turns : List Turn) : Nat :=
  (turns.flatMap (·.sends s)).length

namespace Session

variable (s : Settings)

/-- Runs turns one after the other with the same store. -/
def runAll : List Turn → Store → List (Except Failure Outcome) × Store
  | [], store => ([], store)
  | t :: turns, store =>
    let ran := (run s t.request t.now).runWith store
    let rest := runAll turns ran.2
    (ran.1 :: rest.1, rest.2)

@[simp]
theorem runAll_nil (store : Store) : runAll s [] store = ([], store) :=
  rfl

@[simp]
theorem runAll_cons (t : Turn) (turns : List Turn) (store : Store) :
    runAll s (t :: turns) store
      = (((run s t.request t.now).runWith store).1
            :: (runAll s turns ((run s t.request t.now).runWith store).2).1,
          (runAll s turns ((run s t.request t.now).runWith store).2).2) :=
  rfl

/-- After some turns the store has received what they send. -/
theorem runAll_received (turns : List Turn) (store : Store) :
    (runAll s turns store).2.received = store.received ++ turns.flatMap (·.sends s) := by
  induction turns generalizing store with
  | nil => exact (List.append_nil store.received).symm
  | cons t turns ih =>
    rw [runAll_cons, ih, (t.ran s store).moves.1, List.flatMap_cons, List.append_assoc]

/-- After some turns the store has given a reply for each of their calls. -/
theorem runAll_replies (turns : List Turn) (store : Store) :
    (runAll s turns store).2.replies = store.replies.drop (Turn.calls s turns) := by
  induction turns generalizing store with
  | nil => rfl
  | cons t turns ih =>
    rw [runAll_cons, ih, (t.ran s store).moves.2, List.drop_drop, Turn.calls, Turn.calls,
      List.flatMap_cons, List.length_append]

/-- Each of a list of turns is run on its own, with the store that those before it leave. -/
theorem runAll_ran {turns : List Turn} {i : Nat} {t : Turn} (ht : turns[i]? = some t)
    (store : Store) :
    ∃ outcome, (runAll s turns store).1[i]? = some outcome ∧
      t.Ran s (runAll s (turns.take i) store).2 (runAll s (turns.take (i + 1)) store).2
        outcome := by
  induction turns generalizing i store with
  | nil => exact nomatch ht
  | cons first turns ih =>
    cases i with
    | zero =>
      obtain rfl : first = t := Option.some.inj ht
      simp only [List.take_succ_cons, List.take_zero, runAll_cons, runAll_nil,
        List.getElem?_cons_zero]
      exact ⟨_, rfl, first.ran s store⟩
    | succ i =>
      rw [List.getElem?_cons_succ] at ht
      simp only [List.take_succ_cons, runAll_cons, List.getElem?_cons_succ]
      exact ih ht ((run s first.request first.now).runWith store).2

/-- A turn finds the store with what the turns before it have sent, and next in line is the reply
whose number is that of their calls. What the turn does then is its own affair. -/
theorem one_call_a_turn {turns : List Turn} {i : Nat} {t : Turn} (ht : turns[i]? = some t)
    (store : Store) :
    (runAll s (turns.take i) store).2.received
        = store.received ++ (turns.take i).flatMap (·.sends s) ∧
      (runAll s (turns.take i) store).2.next = store.reply (Turn.calls s (turns.take i)) ∧
      ∃ outcome, (runAll s turns store).1[i]? = some outcome ∧
        t.Ran s (runAll s (turns.take i) store).2 (runAll s (turns.take (i + 1)) store).2 outcome :=
  ⟨runAll_received s (turns.take i) store,
    Store.next_of_replies_eq_drop (runAll_replies s (turns.take i) store), runAll_ran s ht store⟩

end Session

/-! ## A mismatch -/

namespace Turn

/-- A chart of the spans of an hour, at noon on the day before. -/
def hourOfSpans (d : Draft) (mode : Mode) : Turn where
  request := { draft := d, start := "2025-01-01T10:00:00Z", stop := "2025-01-01T11:00:00Z", mode }
  now := ⟨1735646400, false, Instant.withinSecond 0⟩

/-- Turns with a draft that is switched off, as a timeseries, and as a breakdown. -/
def three : List Turn :=
  [hourOfSpans { source := .traces, aggregation := "count", enabled := false } .timeseries,
    hourOfSpans { source := .traces, aggregation := "count" } .timeseries,
    hourOfSpans { source := .traces, aggregation := "count", groupBy := some "service" } .breakdown]

/-- The draft that is switched off takes no reply, so it is the second reply that the third turn
takes. -/
theorem three_call_twice :
    let store : Store := { replies := [.failure ["connection lost"], .data (.timeseries [])] }
    (Session.runAll .embedded (three.take 2) store).2.next = .data (.timeseries []) ∧
      ∃ e, (Session.runAll .embedded three store).1[2]? = some (.error e) ∧
        e.report.kind = .store := by
  intro store
  obtain ⟨-, hnext, outcome, houtcome, hran⟩ := Session.one_call_a_turn .embedded
    (rfl : three[2]? = some (hourOfSpans _ .breakdown)) store
  have hcalls : calls .embedded (three.take 2) = 1 := by decide +kernel
  rw [hcalls] at hnext
  have hcompiles : ((three[2]).request.compile .embedded).toOption.isSome = true := by
    decide +kernel
  cases hcompile : (three[2]).request.compile .embedded with
  | error e =>
    rw [hcompile] at hcompiles
    exact nomatch hcompiles
  | ok request =>
    obtain ⟨e, rfl, hkind⟩ := hran.blamed request hcompile (by rw [hnext]; exact nofun)
    exact ⟨hnext, e, houtcome, hkind⟩

end Turn

end QueryPanel
