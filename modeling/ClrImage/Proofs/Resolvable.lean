import ClrImage.Proofs.Constraints
import ClrImage.Proofs.Shapes

/-!
# Resolvable references

Which references have a signature. It is a matter of the shape of the reference and of what is known
under the tokens and indices in it.

- `TypeExpr.height`, `TypeRef.WellFormed`: the shapes that resolve.
- `Scope.Knows`: the atoms that resolve.
- `canResolve_iff`: a reference resolves **exactly if** it is well formed, not too high, and all of
  its atoms are known.
-/

namespace ClrImage

/-! ## Shapes -/

namespace TypeExpr

variable {α : Type}

mutual

/-- The number of nodes on the longest way down. -/
def height : TypeExpr α → Nat
  | .atom _ => 1
  | .szArray elem => elem.height + 1
  | .array elem _ => elem.height + 1
  | .pointer elem => elem.height + 1
  | .byRef elem => elem.height + 1
  | .inst definition args => max definition.height (heightAll args) + 1
termination_by structural e => e

/-- The greatest height of several types. -/
def heightAll : List (TypeExpr α) → Nat
  | [] => 0
  | e :: rest => max e.height (heightAll rest)
termination_by structural es => es

end

end TypeExpr

namespace TypeRef

/-- The reference is that of a declared type, by its token alone. -/
def IsTypeDef (r : TypeRef) : Prop := ∃ token, r = .typeDef token

mutual

/-- Arrays have a rank, and only declared types are instantiated, with arguments. -/
def WellFormed : TypeRef → Prop
  | .atom _ => True
  | .szArray elem => WellFormed elem
  | .array elem rank => rank ≠ 0 ∧ WellFormed elem
  | .pointer elem => WellFormed elem
  | .byRef elem => WellFormed elem
  | .inst definition args => args ≠ [] ∧ IsTypeDef definition ∧ AllWellFormed args
termination_by structural r => r

/-- All references of a list are well formed. -/
def AllWellFormed : List TypeRef → Prop
  | [] => True
  | r :: rest => WellFormed r ∧ AllWellFormed rest
termination_by structural rs => rs

end

end TypeRef

/-! ## Atoms -/

namespace Scope

variable {s : Scope}

/-- What an atom of a reference asks for is there. -/
def Knows (s : Scope) : RefAtom → Prop
  | .primitive _ => True
  | .typeDef token => token.isIn Table.typeDef = true ∧ ∃ h t,
    s.links.types.get? token = some h ∧ s.store.types.get? h = some t
  | .var index | .mvar index =>
    ∃ g, s.registry.get? (s.registry.key index s.topLevel) = some g

theorem exists_resolveAtom_iff {a : RefAtom} :
    (∃ sig, s.resolveAtom a = .ok sig) ↔ s.Knows a := by
  cases a with
  | primitive p => exact iff_of_true ⟨_, rfl⟩ trivial
  | typeDef token =>
    simp only [resolveAtom, resolveTypeDef, Knows]
    cases htable : token.isIn Table.typeDef with
    | false => simp
    | true =>
      simp only [Bool.not_true, Bool.false_eq_true, if_false]
      cases s.links.types.get? token with
      | none => simp
      | some h => cases ht : s.store.types.get? h <;> simp [ht]
  | var index =>
    simp only [resolveAtom, Knows, map_eq_ok, resolveIndex_eq_ok]
    rw [exists_comm]
    simp
  | mvar index =>
    simp only [resolveAtom, Knows, map_eq_ok, resolveIndex_eq_ok]
    rw [exists_comm]
    simp

/-! ## References -/

theorem checkDepth_eq_ok {depth : Nat} {u : Unit} :
    checkDepth depth = .ok u ↔ depth < maxDepth := by
  unfold checkDepth
  split <;> simp <;> omega

/-- Only the reference of a declared type resolves to one. -/
theorem isDeclared_iff_of_rel {r : TypeRef} {sig : Signature} (h : r.Rel s.Names sig) :
    Signature.isDeclared sig = true ↔ r.IsTypeDef := by
  cases r with
  | atom a =>
    cases sig <;> simp only [TypeExpr.Rel] at h
    next b =>
      cases a <;> cases b <;> simp_all [Names, Signature.isDeclared, TypeRef.IsTypeDef,
        TypeRef.typeDef]
  | szArray elem =>
    cases sig <;> simp_all [TypeExpr.Rel, Signature.isDeclared, TypeRef.IsTypeDef, TypeRef.typeDef]
  | array elem rank =>
    cases sig <;> simp_all [TypeExpr.Rel, Signature.isDeclared, TypeRef.IsTypeDef, TypeRef.typeDef]
  | pointer elem =>
    cases sig <;> simp_all [TypeExpr.Rel, Signature.isDeclared, TypeRef.IsTypeDef, TypeRef.typeDef]
  | byRef elem =>
    cases sig <;> simp_all [TypeExpr.Rel, Signature.isDeclared, TypeRef.IsTypeDef, TypeRef.typeDef]
  | inst definition args =>
    cases sig <;> simp_all [TypeExpr.Rel, Signature.isDeclared, TypeRef.IsTypeDef, TypeRef.typeDef]

/-- What it takes for a reference to resolve at a depth. -/
def Accepts (s : Scope) (r : TypeRef) (depth : Nat) : Prop :=
  depth + r.height ≤ maxDepth ∧ r.WellFormed ∧ ∀ a ∈ r.atoms, s.Knows a

/-- What it takes for several references to resolve at a depth. -/
def AcceptsAll (s : Scope) (rs : List TypeRef) (depth : Nat) : Prop :=
  (rs = [] ∨ depth + TypeExpr.heightAll rs ≤ maxDepth) ∧ TypeRef.AllWellFormed rs ∧
    ∀ a ∈ TypeExpr.atomsAll rs, s.Knows a

mutual

theorem exists_resolveAt_iff : (r : TypeRef) → (depth : Nat) →
    ((∃ sig, s.resolveAt r depth = .ok sig) ↔ s.Accepts r depth)
  | .atom a, depth => by
    simp only [resolveAt, bind_eq_ok, Accepts, TypeExpr.height, TypeRef.WellFormed, TypeExpr.atoms,
      List.forall_mem_singleton, checkDepth_eq_ok]
    rw [← exists_resolveAtom_iff]
    constructor
    · rintro ⟨sig, -, hdepth, hsig⟩
      exact ⟨by omega, trivial, sig, hsig⟩
    · rintro ⟨hdepth, -, sig, hsig⟩
      exact ⟨sig, (), by omega, hsig⟩
  | .szArray elem, depth => by
    have ih := exists_resolveAt_iff elem (depth + 1)
    simp only [resolveAt, bind_eq_ok, checkDepth_eq_ok]
    simp only [Accepts, TypeExpr.height, TypeRef.WellFormed, TypeExpr.atoms] at ih ⊢
    constructor
    · rintro ⟨sig, -, hdepth, e, helem, -⟩
      obtain ⟨hheight, hrest⟩ := ih.mp ⟨e, helem⟩
      exact ⟨by omega, hrest⟩
    · rintro ⟨hheight, hrest⟩
      obtain ⟨e, helem⟩ := ih.mpr ⟨by omega, hrest⟩
      exact ⟨_, (), by omega, e, helem, rfl⟩
  | .array elem rank, depth => by
    have ih := exists_resolveAt_iff elem (depth + 1)
    simp only [resolveAt, bind_eq_ok, checkDepth_eq_ok]
    simp only [Accepts, TypeExpr.height, TypeRef.WellFormed, TypeExpr.atoms] at ih ⊢
    by_cases hrank : rank = 0
    · simp [hrank, throw, throwThe, MonadExceptOf.throw]
    · simp only [hrank, if_false, ne_eq, not_false_eq_true, true_and, bind_eq_ok]
      constructor
      · rintro ⟨sig, -, hdepth, e, helem, -⟩
        obtain ⟨hheight, hrest⟩ := ih.mp ⟨e, helem⟩
        exact ⟨by omega, hrest⟩
      · rintro ⟨hheight, hrest⟩
        obtain ⟨e, helem⟩ := ih.mpr ⟨by omega, hrest⟩
        exact ⟨_, (), by omega, e, helem, rfl⟩
  | .pointer elem, depth => by
    have ih := exists_resolveAt_iff elem (depth + 1)
    simp only [resolveAt, bind_eq_ok, checkDepth_eq_ok]
    simp only [Accepts, TypeExpr.height, TypeRef.WellFormed, TypeExpr.atoms] at ih ⊢
    constructor
    · rintro ⟨sig, -, hdepth, e, helem, -⟩
      obtain ⟨hheight, hrest⟩ := ih.mp ⟨e, helem⟩
      exact ⟨by omega, hrest⟩
    · rintro ⟨hheight, hrest⟩
      obtain ⟨e, helem⟩ := ih.mpr ⟨by omega, hrest⟩
      exact ⟨_, (), by omega, e, helem, rfl⟩
  | .byRef elem, depth => by
    have ih := exists_resolveAt_iff elem (depth + 1)
    simp only [resolveAt, bind_eq_ok, checkDepth_eq_ok]
    simp only [Accepts, TypeExpr.height, TypeRef.WellFormed, TypeExpr.atoms] at ih ⊢
    constructor
    · rintro ⟨sig, -, hdepth, e, helem, -⟩
      obtain ⟨hheight, hrest⟩ := ih.mp ⟨e, helem⟩
      exact ⟨by omega, hrest⟩
    · rintro ⟨hheight, hrest⟩
      obtain ⟨e, helem⟩ := ih.mpr ⟨by omega, hrest⟩
      exact ⟨_, (), by omega, e, helem, rfl⟩
  | .inst definition args, depth => by
    have ihd := exists_resolveAt_iff definition (depth + 1)
    have iha := exists_resolveAll_iff args (depth + 1)
    simp only [resolveAt, bind_eq_ok, checkDepth_eq_ok]
    simp only [Accepts, AcceptsAll, TypeExpr.height, TypeRef.WellFormed, TypeExpr.atoms,
      List.forall_mem_append] at ihd iha ⊢
    by_cases hargs : args = []
    · simp [hargs, throw, throwThe, MonadExceptOf.throw]
    · have hempty : args.isEmpty = false := by simpa using hargs
      simp only [hempty, Bool.false_eq_true, if_false, bind_eq_ok]
      simp only [hargs, false_or] at iha
      constructor
      · rintro ⟨sig, -, hdepth, d, hd, hrest⟩
        have hrel := resolveAt_rel definition hd
        split at hrest
        next hdeclared =>
          obtain ⟨sigs, hsigs, -⟩ := bind_eq_ok.mp hrest
          obtain ⟨hheight, -, hknown⟩ := ihd.mp ⟨d, hd⟩
          obtain ⟨hheights, hwell, hknowns⟩ := iha.mp ⟨sigs, hsigs⟩
          exact ⟨by omega, ⟨hargs, (isDeclared_iff_of_rel hrel).mp hdeclared, hwell⟩, hknown,
            hknowns⟩
        next => cases hrest
      · rintro ⟨hheight, ⟨-, htypeDef, hwell⟩, hknown, hknowns⟩
        have hdefinition : TypeRef.WellFormed definition := by
          obtain ⟨token, rfl⟩ := htypeDef
          trivial
        obtain ⟨d, hd⟩ := ihd.mpr ⟨by omega, hdefinition, hknown⟩
        obtain ⟨sigs, hsigs⟩ := iha.mpr ⟨by omega, hwell, hknowns⟩
        have hdeclared := (isDeclared_iff_of_rel (resolveAt_rel definition hd)).mpr htypeDef
        refine ⟨.inst d sigs, (), by omega, d, hd, ?_⟩
        rw [if_pos hdeclared]
        exact bind_eq_ok.mpr ⟨sigs, hsigs, rfl⟩

theorem exists_resolveAll_iff : (rs : List TypeRef) → (depth : Nat) →
    ((∃ sigs, s.resolveAll rs depth = .ok sigs) ↔ s.AcceptsAll rs depth)
  | [], depth => by
    simp [resolveAll, AcceptsAll, TypeRef.AllWellFormed, TypeExpr.atomsAll]
  | r :: rest, depth => by
    have ihr := exists_resolveAt_iff r depth
    have ihs := exists_resolveAll_iff rest depth
    simp only [resolveAll, bind_eq_ok]
    simp only [Accepts, AcceptsAll, TypeExpr.heightAll, TypeRef.AllWellFormed, TypeExpr.atomsAll,
      List.forall_mem_append, reduceCtorEq, false_or] at ihr ihs ⊢
    constructor
    · rintro ⟨_, sig, hsig, sigs, hsigs, -⟩
      obtain ⟨hheight, hwell, hknown⟩ := ihr.mp ⟨sig, hsig⟩
      obtain ⟨hheights, hwells, hknowns⟩ := ihs.mp ⟨sigs, hsigs⟩
      refine ⟨?_, ⟨hwell, hwells⟩, hknown, hknowns⟩
      rcases hheights with rfl | hheights
      · rw [TypeExpr.heightAll]
        omega
      · omega
    · rintro ⟨hheight, ⟨hwell, hwells⟩, hknown, hknowns⟩
      obtain ⟨sig, hsig⟩ := ihr.mpr ⟨by omega, hwell, hknown⟩
      obtain ⟨sigs, hsigs⟩ := ihs.mpr ⟨.inr (by omega), hwells, hknowns⟩
      exact ⟨_, sig, hsig, sigs, hsigs, rfl⟩

end

/-- A reference resolves **exactly if** it is well formed, not too high, and all of its atoms are
known. -/
theorem canResolve_iff {r : TypeRef} :
    s.CanResolve r ↔ r.height ≤ maxDepth ∧ r.WellFormed ∧ ∀ a ∈ r.atoms, s.Knows a := by
  unfold CanResolve resolve
  rw [exists_resolveAt_iff, Accepts, Nat.zero_add]

end Scope

end ClrImage
