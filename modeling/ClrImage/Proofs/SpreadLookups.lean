import ClrImage.Proofs.Interference

/-!
# References that are looked up atom by atom

The threads of a pass resolve a reference in one step. Its atoms may as well be looked up one after
the other, while other threads register parameters in between. As tables only grow, this makes no
difference: the reference resolves, or fails, **as if it had been resolved at once at some time in
between**.

- `Stepwise.resolveAt`, `Stepwise.resolve`: resolution with a step for each look-up.
- `Thread.Linearizes`: a thread comes to what a function of the state is at some time in between,
  with a rule for each way of putting such threads together.
- `Stepwise.linearizes_resolve`: what resolution atom by atom comes to.
-/

namespace ClrImage

/-! ## Resolution atom by atom -/

namespace Build

/-- The signature of an atom. -/
def lookUpAtom (topLevel : Token) (a : RefAtom) : Build Signature := do
  liftExcept (((← get).scope topLevel).resolveAtom a)

/-- The text of a signature. -/
def lookUpText (sig : Signature) : Build String := do
  pure ((← get).store.sigText sig)

end Build

namespace Stepwise

mutual

/-- The signature of a reference that stands at some depth in another one, with a step for each of
its atoms. -/
def resolveAt (topLevel : Token) : TypeRef → (depth : Nat) → Thread Signature
  | .atom a, depth => do
    .done (Scope.checkDepth depth)
    Build.lookUpAtom topLevel a
  | .szArray elem, depth => do
    .done (Scope.checkDepth depth)
    let elem ← resolveAt topLevel elem (depth + 1)
    return .szArray elem
  | .array elem rank, depth => do
    .done (Scope.checkDepth depth)
    if rank = 0 then
      throw (.unresolved (TypeRef.text (.array elem rank)) .zeroRank)
    else
      let elem ← resolveAt topLevel elem (depth + 1)
      return .array elem rank
  | .pointer elem, depth => do
    .done (Scope.checkDepth depth)
    let elem ← resolveAt topLevel elem (depth + 1)
    return .pointer elem
  | .byRef elem, depth => do
    .done (Scope.checkDepth depth)
    let elem ← resolveAt topLevel elem (depth + 1)
    return .byRef elem
  | .inst definition args, depth => do
    .done (Scope.checkDepth depth)
    if args.isEmpty then
      throw (.unresolved (TypeRef.text (.inst definition args)) .noArguments)
    else
      let sig ← resolveAt topLevel definition (depth + 1)
      if Signature.isDeclared sig then
        let args ← resolveAll topLevel args (depth + 1)
        return .inst sig args
      else
        let text ← Build.lookUpText sig
        throw (.unresolved (TypeRef.text (.inst definition args)) (.notGeneric text))
termination_by structural r => r

/-- The signatures of several references, up to the first that has none. -/
def resolveAll (topLevel : Token) : List TypeRef → (depth : Nat) → Thread (List Signature)
  | [], _ => pure []
  | r :: rest, depth => do
    let sig ← resolveAt topLevel r depth
    let sigs ← resolveAll topLevel rest depth
    return sig :: sigs
termination_by structural rs => rs

end

/-- The signature of a reference, atom by atom. -/
def resolve (topLevel : Token) (r : TypeRef) : Thread Signature := resolveAt topLevel r 0

end Stepwise

/-! ## A time in between -/

/-- Tables grow, and looking something up changes nothing. -/
def Terms.looking : Terms where
  invariant _ := True
  rely := BuildState.Extends
  guarantee s s' := s' = s
  refl := .refl
  trans := .trans

/-- At some time between two states, `f` was the outcome. -/
def Between {α : Type} (f : BuildState → Except Failure α) (s s' : BuildState)
    (outcome : Except Failure α) : Prop :=
  ∃ m, s.Extends m ∧ m.Extends s' ∧ f m = outcome

/-- Whatever grows in between, the thread comes to what `f` is at some time in between. -/
def Thread.Linearizes {α : Type} (t : Thread α) (f : BuildState → Except Failure α)
    (s : BuildState) : Prop :=
  t.Safe .looking (fun a s' => Between f s s' (.ok a)) (fun e s' => Between f s s' (.error e)) s

/-- A success of `f` lasts. -/
def Lasting {α : Type} (f : BuildState → Except Failure α) : Prop :=
  ∀ s s' a, s.Extends s' → f s = .ok a → f s' = .ok a

namespace Thread.Linearizes

variable {α β : Type} {t : Thread α} {f : BuildState → Except Failure α} {s : BuildState}

theorem done (outcome : Except Failure α) :
    (Thread.done outcome).Linearizes (fun _ => outcome) s := by
  cases outcome <;> exact fun s' hs' _ => ⟨s', hs', .refl s', rfl⟩

/-- A single look. -/
theorem lift {action : Build α} (haction : ∀ s, action.outcome s = (f s, s)) :
    (liftM action : Thread α).Linearizes f s := by
  refine Safe.lift fun s₁ hs₁ _ => ?_
  rw [haction]
  exact ⟨trivial, rfl, fun s' hs' _ =>
    ⟨fun a ha => ⟨s₁, hs₁, hs', ha⟩, fun e he => ⟨s₁, hs₁, hs', he⟩⟩⟩

/-- A failure is one of all that comes behind as well. -/
theorem failing (ht : t.Linearizes f s) (h : α → BuildState → Except Failure β) :
    t.Safe .looking (fun a s' => Between f s s' (.ok a))
      (fun e s' => Between (fun s => f s >>= fun a => h a s) s s' (.error e)) s := by
  refine ht.imp (fun _ _ _ _ => id) ?_
  rintro e s' - - ⟨m, hs, hm, he⟩
  refine ⟨m, hs, hm, ?_⟩
  show f m >>= _ = _
  rw [he]
  rfl

/-- What lasts is still the outcome at the time of what comes behind. -/
theorem bind {g : α → Thread β} {h : α → BuildState → Except Failure β} (ht : t.Linearizes f s)
    (hlasts : Lasting f) (hg : ∀ a s', (g a).Linearizes (h a) s') :
    (t >>= g).Linearizes (fun s => f s >>= fun a => h a s) s := by
  refine (ht.failing h).bind fun a s₁ _ _ ⟨m, hs, hm, ha⟩ => ?_
  have hboth {outcome : Except Failure β} {s' : BuildState}
      (hlater : Between (h a) s₁ s' outcome) :
      Between (fun s => f s >>= fun a => h a s) s s' outcome := by
    -- the time of what comes behind, which is later than `m`
    obtain ⟨m', hs₁, hm', houtcome⟩ := hlater
    refine ⟨m', (hs.trans hm).trans hs₁, hm', ?_⟩
    show f m' >>= _ = _
    rw [hlasts m m' a (hm.trans hs₁) ha]
    exact houtcome
  exact (hg a s₁).imp (fun _ _ _ _ => hboth) fun _ _ _ _ => hboth

/-- What comes behind looks nothing up. -/
theorem bind_done {h : α → Except Failure β} (ht : t.Linearizes f s) :
    (t >>= fun a => Thread.done (h a)).Linearizes (fun s => f s >>= h) s := by
  refine (ht.failing fun a _ => h a).bind fun a s₁ _ _ ⟨m, hs, hm, ha⟩ => ?_
  have hboth {s' : BuildState} (hs' : s₁.Extends s') : Between (fun s => f s >>= h) s s' (h a) := by
    -- nothing is looked up any more, so the time is that of the thread
    refine ⟨m, hs, hm.trans hs', ?_⟩
    show f m >>= _ = _
    rw [ha]
    rfl
  rcases houtcome : h a with e | b <;> rw [houtcome] at hboth <;> exact fun s' hs' _ => hboth hs'

end Thread.Linearizes

/-! ## References -/

theorem lasting_resolveAt (topLevel : Token) (r : TypeRef) (depth : Nat) :
    Lasting fun s => (s.scope topLevel).resolveAt r depth := fun _ _ _ hs hsig =>
  Scope.resolveAt_covers (fun _ _ => Scope.resolveAtom_extends (hs.scope topLevel)) r hsig

theorem lasting_resolveAll (topLevel : Token) (rs : List TypeRef) (depth : Nat) :
    Lasting fun s => (s.scope topLevel).resolveAll rs depth := fun _ _ _ hs hsigs =>
  Scope.resolveAll_covers (fun _ _ => Scope.resolveAtom_extends (hs.scope topLevel)) rs hsigs

theorem lasting_const {α : Type} (outcome : Except Failure α) : Lasting fun _ => outcome :=
  fun _ _ _ _ => id

namespace Stepwise

open Thread

variable {topLevel : Token}

mutual

theorem linearizes_resolveAt : (r : TypeRef) → (depth : Nat) → (s : BuildState) →
    (resolveAt topLevel r depth).Linearizes (fun s => (s.scope topLevel).resolveAt r depth) s
  | .atom a, depth, s => by
    unfold resolveAt Scope.resolveAt
    exact (Linearizes.done _).bind (lasting_const _) fun _ _ => .lift fun s => by
      simp [Build.lookUpAtom, Build.outcome_bind]
  | .szArray elem, depth, s => by
    unfold resolveAt Scope.resolveAt
    exact (Linearizes.done _).bind (lasting_const _) fun _ s =>
      (linearizes_resolveAt elem (depth + 1) s).bind_done
  | .array elem rank, depth, s => by
    unfold resolveAt Scope.resolveAt
    refine (Linearizes.done _).bind (lasting_const _) fun _ s => ?_
    split
    next => exact .done _
    next => exact (linearizes_resolveAt elem (depth + 1) s).bind_done
  | .pointer elem, depth, s => by
    unfold resolveAt Scope.resolveAt
    exact (Linearizes.done _).bind (lasting_const _) fun _ s =>
      (linearizes_resolveAt elem (depth + 1) s).bind_done
  | .byRef elem, depth, s => by
    unfold resolveAt Scope.resolveAt
    exact (Linearizes.done _).bind (lasting_const _) fun _ s =>
      (linearizes_resolveAt elem (depth + 1) s).bind_done
  | .inst definition args, depth, s => by
    unfold resolveAt Scope.resolveAt
    refine (Linearizes.done _).bind (lasting_const _) fun _ s => ?_
    split
    next => exact .done _
    next =>
      refine (linearizes_resolveAt definition (depth + 1) s).bind
        (lasting_resolveAt topLevel definition (depth + 1)) fun sig s => ?_
      split
      next => exact (linearizes_resolveAll args (depth + 1) s).bind_done
      next =>
        -- the text in the failure is one more look-up
        exact (Linearizes.lift (f := fun s => .ok (s.store.sigText sig)) fun _ => rfl).bind_done

theorem linearizes_resolveAll : (rs : List TypeRef) → (depth : Nat) → (s : BuildState) →
    (resolveAll topLevel rs depth).Linearizes (fun s => (s.scope topLevel).resolveAll rs depth) s
  | [], _, _ => .done _
  | r :: rest, depth, s => by
    unfold resolveAll Scope.resolveAll
    exact (linearizes_resolveAt r depth s).bind (lasting_resolveAt topLevel r depth) fun _ s =>
      (linearizes_resolveAll rest depth s).bind_done

end

/-- Whatever others register in between, a reference that is looked up atom by atom resolves, or
fails, as it does at once at some time in between. -/
theorem linearizes_resolve (r : TypeRef) (s : BuildState) :
    (resolve topLevel r).Linearizes (fun s => (s.scope topLevel).resolve r) s :=
  linearizes_resolveAt r 0 s

end Stepwise

end ClrImage
