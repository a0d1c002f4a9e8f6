import ClrImage.Build.Basic

/-!
# Threads

A pass over the types may process them side by side. What is done for one type is then a thread: a
sequence of steps between which the threads of other types may take theirs. A step comes to at most
one table or list that threads have in common. Which thread takes the next step is not determined,
so it is a parameter here, the schedule, and what holds of every schedule holds of every
execution.

* `Thread`: what is left to do for a type, step by step.
* `Thread.alone`: a thread that nobody interferes with.
* `Schedule`: who takes which step, and who is blamed if several threads fail.
* `Worker`, `Crew.turn`, `Crew.windUp`: threads side by side.
* `sideBySide`: the outcome of threads side by side.
-/

namespace ClrImage

/-! ## What is left to do -/

/-- A thread is through, or it takes a step and goes on according to the outcome. -/
inductive Thread (α : Type) : Type 1
  | done (outcome : Except Failure α)
  | step {β : Type} (action : Build β) (next : Except Failure β → Thread α)

namespace Thread

variable {α β : Type}

/-- Goes on with the result of a thread. -/
protected def bind : Thread α → (α → Thread β) → Thread β
  | .done (.ok a), f => f a
  | .done (.error e), _ => .done (.error e)
  | .step action next, f => .step action fun outcome => (next outcome).bind f

/-- Goes on behind the failure of a thread. -/
protected def tryCatch : Thread α → (Failure → Thread α) → Thread α
  | .done (.ok a), _ => .done (.ok a)
  | .done (.error e), handle => handle e
  | .step action next, handle => .step action fun outcome => (next outcome).tryCatch handle

instance : Monad Thread where
  pure a := .done (.ok a)
  bind := Thread.bind

instance : MonadExceptOf Failure Thread where
  throw e := .done (.error e)
  tryCatch := Thread.tryCatch

/-- A step of a build is a thread of one step. -/
instance : MonadLift Build Thread where
  monadLift action := .step action .done

/-- Takes all steps of a thread without interference. -/
def alone : Thread α → Build α
  | .done outcome => fun s => (outcome, s)
  | .step action next => fun s =>
    let (outcome, s') := action.run.run s
    (next outcome).alone s'

end Thread

/-! ## Schedules -/

/-- What is not determined where threads run side by side. -/
structure Schedule where
  /-- The threads, by position, in the order in which they take single steps. Where the turns end,
  the threads are run to their ends one after the other. -/
  turns : List Nat := []
  /-- The thread whose failure is reported if it fails. Otherwise the first one that fails is
  blamed. -/
  blame : Nat := 0

/-- A thread, and whether it has been started. -/
structure Worker (α : Type) : Type 1 where
  thread : Thread α
  started : Bool := false

namespace Worker

variable {α : Type}

/-- Takes one step. -/
def turn (w : Worker α) (s : BuildState) : Worker α × BuildState :=
  match w.thread with
  | .done outcome => (⟨.done outcome, true⟩, s)
  | .step action next =>
    let (outcome, s') := action.run.run s
    (⟨next outcome, true⟩, s')

/-- Takes all steps that are left. -/
def finish (w : Worker α) (s : BuildState) : Worker α × BuildState :=
  let (outcome, s') := w.thread.alone.run.run s
  (⟨.done outcome, true⟩, s')

/-- The outcome of a thread that has been started and is through. -/
def outcome? (w : Worker α) : Option (Except Failure α) :=
  match w with
  | ⟨.done outcome, true⟩ => some outcome
  | _ => none

/-- What a thread has resulted in. -/
def result? (w : Worker α) : Option α := w.outcome?.bind Except.toOption

/-- What a thread has failed with. -/
def failure? (w : Worker α) : Option Failure :=
  match w.outcome? with
  | some (.error e) => some e
  | _ => none

end Worker

/-! ## Threads side by side -/

/-- Threads side by side. -/
abbrev Crew (α : Type) := List (Worker α)

namespace Crew

variable {α : Type}

/-- The worker at a position takes one step. -/
def turn : Nat → Crew α → BuildState → Crew α × BuildState
  | _, [], s => ([], s)
  | 0, w :: rest, s =>
    let (w, s) := w.turn s
    (w :: rest, s)
  | i + 1, w :: rest, s =>
    let (rest, s) := turn i rest s
    (w :: rest, s)

/-- Workers take steps as it is their turn. -/
def turns : List Nat → Crew α → BuildState → Crew α × BuildState
  | [], crew, s => (crew, s)
  | i :: later, crew, s =>
    let (crew, s) := turn i crew s
    turns later crew s

/-- The workers finish one after the other. Once a thread has failed no other one is started; those
that have been started go on to their ends. -/
def windUp : Bool → Crew α → BuildState → Crew α × BuildState
  | _, [], s => ([], s)
  | failed, w :: rest, s =>
    if failed && !w.started then
      let (rest, s) := windUp failed rest s
      (w :: rest, s)
    else
      let (w, s) := w.finish s
      let (rest, s) := windUp (failed || w.failure?.isSome) rest s
      (w :: rest, s)

/-- A failure is reported if there is one, that of the worker at the position `blame` before others.
If there is none, the results are. -/
def outcome (blame : Nat) (crew : Crew α) : Except Failure (List α) :=
  match crew[blame]?.bind Worker.failure? <|> crew.findSome? Worker.failure? with
  | some e => .error e
  | none => .ok (crew.filterMap Worker.result?)

/-- Takes turns, and winds up. -/
def run (σ : Schedule) (crew : Crew α) (s : BuildState) : Crew α × BuildState :=
  let (crew, s) := turns σ.turns crew s
  windUp (crew.any (·.failure?.isSome)) crew s

end Crew

/-- The outcome of threads that run side by side. -/
def sideBySide {α : Type} (σ : Schedule) (threads : List (Thread α)) : Build (List α) :=
  ExceptT.mk fun s =>
    let (crew, s) := Crew.run σ (threads.map ({ thread := · })) s
    (crew.outcome σ.blame, s)

namespace Setup

/-- Runs threads as the configuration says: side by side, or one after the other up to the first
failure. -/
def runAll {α : Type} (setup : Setup) (σ : Schedule) (threads : List (Thread α)) :
    Build (List α) :=
  if setup.config.concurrent then sideBySide σ threads else threads.mapM Thread.alone

end Setup

end ClrImage
