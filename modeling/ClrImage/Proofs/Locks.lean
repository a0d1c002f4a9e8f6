import ClrImage.Proofs.Continuation

/-!
# Locks

Two things that builds change stand behind locks, the list of recorded failures and the body of each
method. Whoever dies while holding a lock loses it, and after that nobody gets hold of what is
behind it. This module builds with the lock around the list of failures, and shows that it is never
lost: builds that lock are **the same builds**.

- `Lock.change`, `Lock.take`: what one does behind a lock.
- `Lock.isLost_of_change`: a lock is lost exactly by a change that is not finished.
- `Setup.runLocking`: a build that records failures behind a lock.
- `Locks`: a step that locks, compared with one that does not.
- `runLocking_eq`: whole builds.
-/

namespace ClrImage

/-! ## Locks and what is behind them -/

/-- A value that is changed by one holder at a time. -/
structure Lock (α : Type) where
  value : α
  /-- A holder has died. -/
  isLost : Bool

namespace Lock

variable {α : Type}

def new (value : α) : Lock α := ⟨value, false⟩

/-- Changes the value. A change that gives no value is not finished, its holder has died. -/
def change (l : Lock α) (f : α → Option α) : Except Failure (Lock α) :=
  if l.isLost then .error .lockLost
  else
    match f l.value with
    | some value => .ok ⟨value, false⟩
    | none => .ok ⟨l.value, true⟩

/-- The value, taken out of the lock for good. -/
def take (l : Lock α) : Except Failure α :=
  if l.isLost then .error .lockLost else .ok l.value

/-- A lock is lost exactly by a change that is not finished. -/
theorem isLost_of_change {l l' : Lock α} {f : α → Option α} (h : l.change f = .ok l') :
    l'.isLost = true ↔ f l.value = none := by
  unfold change at h
  split at h
  · cases h
  · split at h <;> cases h <;> simp [*]

@[simp] theorem take_new (value : α) : (new value).take = .ok value := rfl

end Lock

/-! ## Builds that lock -/

/-- What a build has made so far, and whether its list of failures can still be reached. -/
structure LockedState where
  state : BuildState
  isLost : Bool := false

/-- The lock around the failures that have been recorded. -/
def LockedState.failures (s : LockedState) : Lock (Array Failure) := ⟨s.state.failures, s.isLost⟩

/-- A step of a build with a lock around the list of failures. -/
abbrev LockedBuild := ExceptT Failure (StateM LockedState)

namespace LockedBuild

variable {α β : Type}

/-- The outcome of a step, and what it leaves. -/
def outcome (step : LockedBuild α) (s : LockedState) : Except Failure α × LockedState :=
  step.run.run s

theorem outcome_bind (step : LockedBuild α) (next : α → LockedBuild β) (s : LockedState) :
    (step >>= next).outcome s =
      match step.outcome s with
      | (.ok a, s') => (next a).outcome s'
      | (.error e, s') => (.error e, s') := by
  unfold outcome ExceptT.run StateT.run
  simp only [bind, ExceptT.bind, ExceptT.mk, StateT.bind, ExceptT.bindCont]
  rcases step s with ⟨_ | _, s'⟩ <;> rfl

theorem outcome_tryCatch (step : LockedBuild α) (handle : Failure → LockedBuild α)
    (s : LockedState) :
    (tryCatch step handle).outcome s =
      match step.outcome s with
      | (.ok a, s') => (.ok a, s')
      | (.error e, s') => (handle e).outcome s' := by
  unfold outcome ExceptT.run StateT.run
  simp only [tryCatch, tryCatchThe, MonadExceptOf.tryCatch, ExceptT.tryCatch, ExceptT.mk, bind,
    StateT.bind]
  rcases step s with ⟨_ | _, s'⟩ <;> rfl

end LockedBuild

/-- A step that does not lock. -/
def Build.unlocked {α : Type} (step : Build α) : LockedBuild α :=
  ExceptT.mk fun s => ((step.outcome s.state).1, { s with state := (step.outcome s.state).2 })

namespace Setup

/-- Records a failure behind the lock. -/
def recordLocking (failure : Failure) : LockedBuild Unit := do
  let s ← get
  let failures ← liftExcept (s.failures.change fun recorded => some (recorded.push failure))
  set (⟨{ s.state with failures := failures.value }, failures.isLost⟩ : LockedState)

/-- Gives one type its members; if the configuration says so, a failure is recorded behind the
lock. -/
def populateOrRecordLocking (setup : Setup) (p : TypePlan) : LockedBuild Unit :=
  if setup.config.continueOnTypeError then
    tryCatch (setup.populateType p).unlocked recordLocking
  else
    (setup.populateType p).unlocked

/-- The whole build. In the end the failures are taken out of the lock. -/
def buildLocking (setup : Setup) : LockedBuild Image := do
  setup.frame.unlocked
  (Build.notice (.populating setup.types.length setup.blueprint.methodCount
    setup.blueprint.module)).unlocked
  setup.types.forM setup.populateOrRecordLocking
  let s ← get
  (Build.notice (.membersPopulated s.state.links.methodCount)).unlocked
  let s ← get
  let failures ← liftExcept s.failures.take
  let image := { setup.image s.state with failures }
  (Build.notice
    (.built image.module image.types.size image.methodCount image.failures.size)).unlocked
  pure image

/-- The outcome of a build with a lock, and what it leaves. -/
def runLocking (setup : Setup) : Except Failure Image × LockedState :=
  setup.buildLocking.outcome { state := .initial setup.config }

end Setup

/-! ## Steps that lock -/

/-- From every state in which the lock is not lost, the step that locks comes to the outcome and the
state of the other one, and the lock is not lost then. -/
def Locks {α : Type} (locking : LockedBuild α) (step : Build α) : Prop :=
  ∀ s : BuildState,
    locking.outcome { state := s } = ((step.outcome s).1, { state := (step.outcome s).2 })

namespace Locks

variable {α β : Type}

theorem unlocked (step : Build α) : Locks step.unlocked step := fun _ => rfl

theorem pure (a : α) : Locks (pure a) (pure a) := fun _ => rfl

/-- What is read from the state says that the lock is not lost. -/
theorem get_bind {locking : LockedState → LockedBuild α} {step : BuildState → Build α}
    (h : ∀ s, Locks (locking { state := s }) (step s)) :
    Locks (get >>= locking) (get >>= step) := fun s => h s s

theorem bind {locking : LockedBuild α} {step : Build α} (h : Locks locking step)
    {locking' : α → LockedBuild β} {step' : α → Build β} (h' : ∀ a, Locks (locking' a) (step' a)) :
    Locks (locking >>= locking') (step >>= step') := by
  intro s
  rw [LockedBuild.outcome_bind, Build.outcome_bind, h s]
  rcases step.outcome s with ⟨_ | a, s'⟩
  · rfl
  · exact h' a s'

theorem tryCatch {locking : LockedBuild α} {step : Build α} (h : Locks locking step)
    {handle : Failure → LockedBuild α} {handle' : Failure → Build α}
    (h' : ∀ e, Locks (handle e) (handle' e)) :
    Locks (tryCatch locking handle) (tryCatch step handle') := by
  intro s
  rw [LockedBuild.outcome_tryCatch, Build.outcome_tryCatch, h s]
  rcases step.outcome s with ⟨e | a, s'⟩
  · exact h' e s'
  · rfl

theorem forM {locking : α → LockedBuild Unit} {step : α → Build Unit}
    (h : ∀ a, Locks (locking a) (step a)) (l : List α) : Locks (l.forM locking) (l.forM step) := by
  induction l with
  | nil => exact .pure ()
  | cons a l ih => exact (h a).bind fun _ => ih

/-- Recording finishes its change of the list, so the lock is kept. -/
theorem record (failure : Failure) :
    Locks (Setup.recordLocking failure)
      (modify fun s => { s with failures := s.failures.push failure }) := fun _ => rfl

end Locks

/-- Where the lock is lost, nothing is recorded any more. -/
theorem outcome_recordLocking_of_isLost (failure : Failure) (s : BuildState) :
    (Setup.recordLocking failure).outcome { state := s, isLost := true } =
      (.error .lockLost, { state := s, isLost := true }) := rfl

section Whole

variable (setup : Setup)

theorem locks_populateOrRecord (p : TypePlan) :
    Locks (setup.populateOrRecordLocking p) (setup.populateOrRecord p) := by
  unfold Setup.populateOrRecordLocking Setup.populateOrRecord
  split
  · exact (Locks.unlocked _).tryCatch .record
  · exact .unlocked _

theorem locks_build : Locks setup.buildLocking setup.build := by
  rw [Setup.build_eq]
  unfold Setup.buildLocking Setup.finish Setup.populateMembers
  simp only [bind_assoc]
  refine (Locks.unlocked _).bind fun _ => (Locks.unlocked _).bind fun _ => ?_
  refine (Locks.forM (locks_populateOrRecord setup) _).bind fun _ => ?_
  refine .get_bind fun _ => (Locks.unlocked _).bind fun _ => .get_bind fun s => ?_
  -- nobody has lost the lock, so the failures are taken out of it
  rw [show LockedState.failures { state := s } = .new s.failures from rfl, Lock.take_new]
  simp only [liftExcept, pure_bind]
  exact (Locks.unlocked _).bind fun _ => .pure _

/-- A build that records its failures behind a lock never finds the lock lost: it has the same
outcome and makes the same. -/
theorem runLocking_eq :
    setup.runLocking = (setup.run.1, { state := setup.run.2 }) := locks_build setup _

end Whole

end ClrImage
