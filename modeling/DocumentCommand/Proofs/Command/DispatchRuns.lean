import DocumentCommand.Command.Executor
import Mathlib.Data.List.Forall2

/-!
# Runs of requests

Requests are dispatched one after another against one executor.  Seen from the executor such a run
is nothing but the commands of the requests, each given to it once and in order
(`Executor.Runs`); its replies come back as they are, and a refusal is a reply like any other.  Seen
from the log each request shows its notes before its command is executed (`Request.Shows`).  Both
views say all there is to say about a run (`dispatchAll_run`).
-/

namespace DocumentCommand.Command

variable {σ : Type}

/-! ### Two views of a run -/

/-- The command that a request stands for. -/
def Request.command : Request → Document
  | .update _ u => u.toDocument.result
  | .search _ collection stage =>
      [("aggregate", .string collection), ("pipeline", .array [.document stage]),
        ("cursor", .document [])]

/-- An executor that is given commands by hand, one after another: what it answers to each and what
it remembers at the end.  The answers decide nothing. -/
inductive Executor.Runs (executor : Executor σ) :
    σ → List (String × Document) → List Reply → σ → Prop where
  | done (state : σ) : Runs executor state [] [] state
  | next {state state' last : σ} {database : String} {command : Document} {reply : Reply}
      {rest : List (String × Document)} {replies : List Reply} :
      executor database command state = (reply, state') → Runs executor state' rest replies last →
      Runs executor state ((database, command) :: rest) (reply :: replies) last

/-- The note that an update is about to be sent. -/
def updateNote (database : String) (u : Update) : LogRecord :=
  ⟨.debug, "nexus_model::command",
    "update: db=" ++ database ++ ", collection=" ++ u.collection ++ ", multi="
      ++ (if u.multi then "true" else "false") ++ ", options=" ++ String.ofList u.options.display⟩

/-- What is to be seen of a request while it is dispatched.  A name for the hint is noted just when
a document is sent in its place. -/
inductive Request.Shows : Request → List Event → Prop where
  | update {database : String} {u : Update} :
      u.options.hint = none ∨ u.options.hintString = none →
      Shows (.update database u)
        [.logged (updateNote database u), .executed database u.toDocument.result]
  | bothHints {database : String} {u : Update} {hint : Document} {name : String} :
      u.options.hint = some hint → u.options.hintString = some name →
      Shows (.update database u)
        [.logged (updateNote database u),
          .logged ⟨.debug, "nexus_model::command",
            "update on " ++ u.collection ++ ": hint " ++ String.ofList hint.display
              ++ " sent, hintString '" ++ name ++ "' not sent"⟩,
          .executed database u.toDocument.result]
  | search {database collection : String} {stage : Document} :
      Shows (.search database collection stage)
        [.logged ⟨.debug, "nexus_model::command",
            "search: db=" ++ database ++ ", collection=" ++ collection ++ ", stage="
              ++ String.ofList stage.display⟩,
          .executed database
            [("aggregate", .string collection), ("pipeline", .array [.document stage]),
              ("cursor", .document [])]]

/-! ### One request -/

theorem Request.result_encode (r : Request) : r.encode.result = r.command := by
  cases r <;> rfl

/-- The executor is run once, on the command of the request, and what it says is the outcome. -/
theorem Request.dispatch_outcome (executor : Executor σ) (r : Request) (state : σ) :
    ((r.dispatch executor state).reply, (r.dispatch executor state).state)
      = executor r.database r.command state := by
  rw [← r.result_encode]
  rfl

theorem Request.announcement_update (database : String) (u : Update) :
    (Request.update database u).announcement = updateNote database u := by
  simp only [announcement, updateNote, Text.ofBool, String.ofList_toList]
  rfl

/-- What happens is what the request shows. -/
theorem Request.shows_dispatch (executor : Executor σ) (r : Request) (state : σ) :
    r.Shows (r.dispatch executor state).events := by
  cases r with
  | search database collection stage => exact .search
  | update database u =>
      have events : ((Request.update database u).dispatch executor state).events
          = .logged (updateNote database u) :: u.unsentHint?.toList.map .logged
            ++ [.executed database u.toDocument.result] := by
        rw [← announcement_update]
        rfl
      rw [events]
      cases hint : u.options.hint with
      | none =>
          simp only [Update.unsentHint?, hint]
          exact .update (.inl hint)
      | some d =>
          cases name : u.options.hintString with
          | none =>
              simp only [Update.unsentHint?, hint, name]
              exact .update (.inr name)
          | some n =>
              simp only [Update.unsentHint?, hint, name]
              exact .bothHints hint name

theorem Request.Shows.unique {r : Request} {one two : List Event} (first : r.Shows one)
    (second : r.Shows two) : one = two := by
  cases first with
  | search =>
      cases second
      rfl
  | update single =>
      cases second with
      | update _ => rfl
      | bothHints hint name => simp [hint, name] at single
  | bothHints hint name =>
      cases second with
      | update single => simp [hint, name] at single
      | bothHints hint' name' =>
          rw [hint] at hint'
          rw [name] at name'
          cases hint'
          cases name'
          rfl

/-! ### Runs -/

/-- What is dispatched later starts from what the executor remembers, and from nothing else. -/
theorem dispatchAll_append (executor : Executor σ) (before after : List Request) (start : σ) :
    dispatchAll executor (before ++ after) start
      = ((dispatchAll executor before start).1
          ++ (dispatchAll executor after (dispatchAll executor before start).2).1,
        (dispatchAll executor after (dispatchAll executor before start).2).2) := by
  induction before generalizing start with
  | nil => rfl
  | cons r rest ih =>
      rw [List.cons_append, dispatchAll, dispatchAll, ih]
      rfl

theorem length_dispatchAll (executor : Executor σ) (requests : List Request) (start : σ) :
    (dispatchAll executor requests start).1.length = requests.length := by
  induction requests generalizing start with
  | nil => rfl
  | cons r rest ih => rw [dispatchAll, List.length_cons, List.length_cons, ih]

/-- Seen from the executor a run is its commands. -/
theorem runs_dispatchAll (executor : Executor σ) (requests : List Request) (start : σ) :
    Executor.Runs executor start (requests.map fun r => (r.database, r.command))
      ((dispatchAll executor requests start).1.map Dispatched.reply)
      (dispatchAll executor requests start).2 := by
  induction requests generalizing start with
  | nil => exact .done start
  | cons r rest ih => exact .next (r.dispatch_outcome executor start).symm (ih _)

theorem Executor.Runs.unique {executor : Executor σ} {start : σ}
    {commands : List (String × Document)} {replies replies' : List Reply} {last last' : σ}
    (first : Executor.Runs executor start commands replies last)
    (second : Executor.Runs executor start commands replies' last') :
    replies = replies' ∧ last = last' := by
  induction first generalizing replies' with
  | done state =>
      cases second
      exact ⟨rfl, rfl⟩
  | next outcome _ ih =>
      cases second with
      | next outcome' later =>
          rw [outcome] at outcome'
          cases outcome'
          obtain ⟨rfl, rfl⟩ := ih later
          exact ⟨rfl, rfl⟩

/-- Seen from the log a run is what its requests show. -/
theorem shows_dispatchAll (executor : Executor σ) (requests : List Request) (start : σ) :
    List.Forall₂ Request.Shows requests
      ((dispatchAll executor requests start).1.map Dispatched.events) := by
  induction requests generalizing start with
  | nil => exact .nil
  | cons r rest ih => exact .cons (r.shows_dispatch executor start) (ih _)

/-- A request that leaves the executor as it was, as a refused one may, can be left out: all others
keep their outcomes. -/
theorem dispatchAll_eraseIdx {executor : Executor σ} {before after : List Request} {r : Request}
    {start : σ} (unmoved : (executor r.database r.command (dispatchAll executor before start).2).2
      = (dispatchAll executor before start).2) :
    dispatchAll executor (before ++ after) start
      = ((dispatchAll executor (before ++ r :: after) start).1.eraseIdx before.length,
        (dispatchAll executor (before ++ r :: after) start).2) := by
  have state : (r.dispatch executor (dispatchAll executor before start).2).state
      = (dispatchAll executor before start).2 := by
    have outcome := r.dispatch_outcome executor (dispatchAll executor before start).2
    rw [← congrArg Prod.snd outcome] at unmoved
    exact unmoved
  rw [dispatchAll_append, dispatchAll_append, dispatchAll, state,
    List.eraseIdx_append_of_length_le (Nat.le_of_eq (length_dispatchAll executor before start)),
    length_dispatchAll, Nat.sub_self, List.eraseIdx_cons_zero]

theorem shows_unique {requests : List Request} {one two : List (List Event)}
    (first : List.Forall₂ Request.Shows requests one)
    (second : List.Forall₂ Request.Shows requests two) : one = two := by
  induction first generalizing two with
  | nil =>
      cases second
      rfl
  | cons shown _ ih =>
      cases second with
      | cons shown' later => rw [shown.unique shown', ih later]

/-- In a run the executor is given the commands of the requests and nothing else, each once and in
order, and each outcome is its reply, whatever that is.  Each request shows its notes and then its
one command.  Later requests go on from the state that earlier ones left, however those were
answered; so one that leaves the state as it was, as a refused one may, can be taken out and all
other outcomes stay. -/
theorem dispatchAll_run (executor : Executor σ) (requests : List Request) (start : σ) :
    (∀ replies last,
      Executor.Runs executor start (requests.map fun r => (r.database, r.command)) replies last ↔
        (dispatchAll executor requests start).1.map Dispatched.reply = replies ∧
          (dispatchAll executor requests start).2 = last) ∧
    (∀ traces, List.Forall₂ Request.Shows requests traces ↔
      (dispatchAll executor requests start).1.map Dispatched.events = traces) ∧
    (∀ before after, requests = before ++ after →
      dispatchAll executor requests start
        = ((dispatchAll executor before start).1
            ++ (dispatchAll executor after (dispatchAll executor before start).2).1,
          (dispatchAll executor after (dispatchAll executor before start).2).2)) ∧
    ∀ before r after, requests = before ++ r :: after →
      (executor r.database r.command (dispatchAll executor before start).2).2
        = (dispatchAll executor before start).2 →
      dispatchAll executor (before ++ after) start
        = ((dispatchAll executor requests start).1.eraseIdx before.length,
          (dispatchAll executor requests start).2) := by
  refine ⟨?replies, ?shown, ?later, ?refused⟩
  case replies =>
    intro replies last
    constructor
    · intro runs
      exact (runs_dispatchAll executor requests start).unique runs
    · rintro ⟨rfl, rfl⟩
      exact runs_dispatchAll executor requests start
  case shown =>
    intro traces
    constructor
    · intro shown
      exact shows_unique (shows_dispatchAll executor requests start) shown
    · rintro rfl
      exact shows_dispatchAll executor requests start
  case later =>
    rintro before after rfl
    exact dispatchAll_append executor before after start
  case refused =>
    rintro before r after rfl unmoved
    exact dispatchAll_eraseIdx unmoved

/-- An executor that counts what it has run, and refuses a database without counting. -/
def countingExecutor : Executor Nat := fun database _ count =>
  if database = "down" then (.error (.executor "connection refused"), count)
  else (.ok [("ok", .int32 0), ("n", .int64 (Int64.ofNat count))], count + 1)

/-- An update with both forms of a hint. -/
def hintedUpdate : Update :=
  (Update.one "c" [] (.document [])).withOptions { hint := some [], hintString := some "k_1" }

/-- Requests of both kinds; the second one is refused. -/
def mixedRequests : List Request :=
  [.update "app" hintedUpdate] ++ .search "down" "items" [("$search", .document [])]
    :: [.search "app" "items" [], .update "app" hintedUpdate]

/-- The run without the refused request has the outcomes of the others. -/
theorem dispatchAll_run_refused :
    (dispatchAll countingExecutor mixedRequests 0).1.map Dispatched.reply
      = [.ok [("ok", .int32 0), ("n", .int64 0)], .error (.executor "connection refused"),
        .ok [("ok", .int32 0), ("n", .int64 1)], .ok [("ok", .int32 0), ("n", .int64 2)]] ∧
    dispatchAll countingExecutor
        ([.update "app" hintedUpdate] ++ [.search "app" "items" [], .update "app" hintedUpdate]) 0
      = ((dispatchAll countingExecutor mixedRequests 0).1.eraseIdx 1,
        (dispatchAll countingExecutor mixedRequests 0).2) := by
  constructor
  · rfl
  · exact (dispatchAll_run countingExecutor mixedRequests 0).2.2.2
      [.update "app" hintedUpdate] _ _ rfl rfl

end DocumentCommand.Command
