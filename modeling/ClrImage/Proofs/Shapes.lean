import ClrImage.Proofs.Growth

/-!
# Shapes of types

Resolution keeps the shape of a reference and replaces its atoms. This module relates types that are
built alike, atom by atom.

- `TypeExpr.atoms`: the atoms of a type.
- `TypeExpr.Rel`: two types are built alike, from related atoms.
- `Scope.Names`: what an atom of a reference stands for in a signature.
- `resolve_rel`: a resolved signature is built like its reference, from what the atoms stand for.
-/

namespace ClrImage

namespace TypeExpr

variable {α β γ : Type}

/-! ## Atoms -/

mutual

/-- The atoms that a type is built from, in the order in which they are written. -/
def atoms : TypeExpr α → List α
  | .atom a => [a]
  | .szArray elem => elem.atoms
  | .array elem _ => elem.atoms
  | .pointer elem => elem.atoms
  | .byRef elem => elem.atoms
  | .inst definition args => definition.atoms ++ atomsAll args
termination_by structural e => e

/-- The atoms of several types. -/
def atomsAll : List (TypeExpr α) → List α
  | [] => []
  | e :: rest => e.atoms ++ atomsAll rest
termination_by structural es => es

end

/-! ## Related types -/

mutual

/-- The two types are built alike, and `R` relates their atoms place by place. -/
def Rel (R : α → β → Prop) : TypeExpr α → TypeExpr β → Prop
  | .atom a, .atom b => R a b
  | .szArray a, .szArray b => a.Rel R b
  | .array a rank, .array b rank' => a.Rel R b ∧ rank = rank'
  | .pointer a, .pointer b => a.Rel R b
  | .byRef a, .byRef b => a.Rel R b
  | .inst d as, .inst e bs => d.Rel R e ∧ RelAll R as bs
  | _, _ => False
termination_by structural e => e

/-- The two lists of types are related one by one. -/
def RelAll (R : α → β → Prop) : List (TypeExpr α) → List (TypeExpr β) → Prop
  | [], [] => True
  | a :: as, b :: bs => a.Rel R b ∧ RelAll R as bs
  | _, _ => False
termination_by structural es => es

end

mutual

theorem Rel.mono {R S : α → β → Prop} (h : ∀ a b, R a b → S a b) :
    (x : TypeExpr α) → (y : TypeExpr β) → x.Rel R y → x.Rel S y
  | .atom a, y => by cases y <;> simp only [Rel] <;> first | exact h _ _ | exact id
  | .szArray a, y => by cases y <;> simp only [Rel] <;> first | exact Rel.mono h a _ | exact id
  | .array a rank, y => by
    cases y <;> simp only [Rel] <;> first | exact And.imp_left (Rel.mono h a _) | exact id
  | .pointer a, y => by cases y <;> simp only [Rel] <;> first | exact Rel.mono h a _ | exact id
  | .byRef a, y => by cases y <;> simp only [Rel] <;> first | exact Rel.mono h a _ | exact id
  | .inst d as, y => by
    cases y <;> simp only [Rel] <;>
      first | exact And.imp (Rel.mono h d _) (RelAll.mono h as _) | exact id

theorem RelAll.mono {R S : α → β → Prop} (h : ∀ a b, R a b → S a b) :
    (xs : List (TypeExpr α)) → (ys : List (TypeExpr β)) → RelAll R xs ys → RelAll S xs ys
  | [], ys => by cases ys <;> simp [RelAll]
  | x :: xs, ys => by
    cases ys <;> simp only [RelAll] <;>
      first | exact And.imp (Rel.mono h x _) (RelAll.mono h xs _) | exact id

end

mutual

/-- Related types have related atoms, place by place. -/
theorem Rel.atoms {R : α → β → Prop} :
    (x : TypeExpr α) → (y : TypeExpr β) → x.Rel R y → List.Forall₂ R x.atoms y.atoms
  | .atom a, y => by cases y <;> simp [Rel, TypeExpr.atoms]
  | .szArray a, y => by
    cases y <;> simp only [Rel, TypeExpr.atoms, false_imp_iff]
    exact Rel.atoms a _
  | .array a rank, y => by
    cases y <;> simp only [Rel, TypeExpr.atoms, false_imp_iff]
    exact fun h => Rel.atoms a _ h.1
  | .pointer a, y => by
    cases y <;> simp only [Rel, TypeExpr.atoms, false_imp_iff]
    exact Rel.atoms a _
  | .byRef a, y => by
    cases y <;> simp only [Rel, TypeExpr.atoms, false_imp_iff]
    exact Rel.atoms a _
  | .inst d as, y => by
    cases y <;> simp only [Rel, TypeExpr.atoms, false_imp_iff]
    exact fun h => List.rel_append (Rel.atoms d _ h.1) (RelAll.atoms as _ h.2)

theorem RelAll.atoms {R : α → β → Prop} :
    (xs : List (TypeExpr α)) → (ys : List (TypeExpr β)) → RelAll R xs ys →
      List.Forall₂ R (atomsAll xs) (atomsAll ys)
  | [], ys => by cases ys <;> simp [RelAll, atomsAll]
  | x :: xs, ys => by
    cases ys <;> simp only [RelAll, atomsAll, false_imp_iff]
    exact fun h => List.rel_append (Rel.atoms x _ h.1) (RelAll.atoms xs _ h.2)

end

end TypeExpr

/-! ## What references stand for -/

namespace Scope

variable {s : Scope}

/-- What an atom of a reference stands for: the type that is linked under a token, as a class or as
a value type according to its flavor, and the parameter that is registered for an index. -/
def Names (s : Scope) : RefAtom → SigAtom → Prop
  | .primitive p, .primitive q => p = q
  | .typeDef token, .classType h => s.links.types.get? token = some h ∧
    ∃ t, s.store.types.get? h = some t ∧ t.flavor ≠ .valueType
  | .typeDef token, .valueType h => s.links.types.get? token = some h ∧
    ∃ t, s.store.types.get? h = some t ∧ t.flavor = .valueType
  | .var index, .var g => s.registry.get? (s.registry.key index s.topLevel) = some g
  | .mvar index, .mvar g => s.registry.get? (s.registry.key index s.topLevel) = some g
  | _, _ => False

theorem resolveIndex_eq_ok {reference : TypeRef} {index : UInt32} {g : GenericHandle} :
    s.resolveIndex reference index = .ok g ↔
      s.registry.get? (s.registry.key index s.topLevel) = some g := by
  unfold resolveIndex
  split
  next held hheld => rw [hheld, Except.ok.injEq, Option.some.injEq]
  next hnone =>
    rw [hnone]
    simp

theorem resolveAtom_rel {a : RefAtom} {sig : Signature} (h : s.resolveAtom a = .ok sig) :
    ∃ b, sig = .atom b ∧ s.Names a b := by
  cases a with
  | primitive p =>
    obtain rfl := Except.ok.inj h
    exact ⟨.primitive p, rfl, rfl⟩
  | typeDef token =>
    unfold resolveAtom resolveTypeDef at h
    dsimp only at h
    split at h
    next => cases h
    next =>
      split at h
      next => cases h
      next g hg =>
        split at h
        next => cases h
        next t ht =>
          obtain rfl := Except.ok.inj h
          by_cases hflavor : t.flavor = .valueType
          · rw [if_pos hflavor]
            exact ⟨.valueType g, rfl, hg, t, ht, hflavor⟩
          · rw [if_neg hflavor]
            exact ⟨.classType g, rfl, hg, t, ht, hflavor⟩
  | var index =>
    obtain ⟨g, hg, rfl⟩ := map_eq_ok.mp h
    exact ⟨.var g, rfl, resolveIndex_eq_ok.mp hg⟩
  | mvar index =>
    obtain ⟨g, hg, rfl⟩ := map_eq_ok.mp h
    exact ⟨.mvar g, rfl, resolveIndex_eq_ok.mp hg⟩

mutual

theorem resolveAt_rel : (r : TypeRef) → {depth : Nat} → {sig : Signature} →
    s.resolveAt r depth = .ok sig → r.Rel s.Names sig
  | .atom a, depth, sig, h => by
    unfold resolveAt at h
    obtain ⟨-, -, h⟩ := bind_eq_ok.mp h
    obtain ⟨b, rfl, hb⟩ := resolveAtom_rel h
    exact hb
  | .szArray elem, depth, sig, h => by
    unfold resolveAt at h
    obtain ⟨-, -, h⟩ := bind_eq_ok.mp h
    obtain ⟨e, helem, h⟩ := bind_eq_ok.mp h
    obtain rfl := Except.ok.inj h
    exact resolveAt_rel elem helem
  | .array elem rank, depth, sig, h => by
    unfold resolveAt at h
    obtain ⟨-, -, h⟩ := bind_eq_ok.mp h
    split at h
    next => cases h
    next =>
      obtain ⟨e, helem, h⟩ := bind_eq_ok.mp h
      obtain rfl := Except.ok.inj h
      exact ⟨resolveAt_rel elem helem, rfl⟩
  | .pointer elem, depth, sig, h => by
    unfold resolveAt at h
    obtain ⟨-, -, h⟩ := bind_eq_ok.mp h
    obtain ⟨e, helem, h⟩ := bind_eq_ok.mp h
    obtain rfl := Except.ok.inj h
    exact resolveAt_rel elem helem
  | .byRef elem, depth, sig, h => by
    unfold resolveAt at h
    obtain ⟨-, -, h⟩ := bind_eq_ok.mp h
    obtain ⟨e, helem, h⟩ := bind_eq_ok.mp h
    obtain rfl := Except.ok.inj h
    exact resolveAt_rel elem helem
  | .inst definition args, depth, sig, h => by
    unfold resolveAt at h
    obtain ⟨-, -, h⟩ := bind_eq_ok.mp h
    split at h
    next => cases h
    next =>
      obtain ⟨d, hd, h⟩ := bind_eq_ok.mp h
      split at h
      next =>
        obtain ⟨sigs, hsigs, h⟩ := bind_eq_ok.mp h
        obtain rfl := Except.ok.inj h
        exact ⟨resolveAt_rel definition hd, resolveAll_rel args hsigs⟩
      next => cases h

theorem resolveAll_rel : (rs : List TypeRef) → {depth : Nat} → {sigs : List Signature} →
    s.resolveAll rs depth = .ok sigs → TypeExpr.RelAll s.Names rs sigs
  | [], _, sigs, h => by
    obtain rfl := Except.ok.inj h
    trivial
  | r :: rest, depth, sigs, h => by
    unfold resolveAll at h
    obtain ⟨sig, hsig, h⟩ := bind_eq_ok.mp h
    obtain ⟨more, hmore, h⟩ := bind_eq_ok.mp h
    obtain rfl := Except.ok.inj h
    exact ⟨resolveAt_rel r hsig, resolveAll_rel rest hmore⟩

end

/-- A resolved signature is built like its reference, from what the atoms stand for. -/
theorem resolve_rel {r : TypeRef} {sig : Signature} (h : s.resolve r = .ok sig) :
    r.Rel s.Names sig :=
  resolveAt_rel r h

end Scope

end ClrImage
