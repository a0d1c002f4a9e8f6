import ClrImage.Proofs.LockStepReading
import ClrImage.Proofs.Resolvable

/-!
# Checks on references

A reference is resolved node by node, and each node is checked. The order of the checks is a matter
of the reference alone; what a check finds is a matter of one node and of the tables. This module
separates the two: a reference that has no signature fails with **what the first check finds that
finds anything**.

- `Check`, `TypeRef.checks`: the checks on a reference, in their order.
- `Scope.fault?`: what a check finds.
- `Scope.FirstFault`: the first check that finds something, and what it finds.
- `resolution_exact`: which references have a signature, of what shape it is, and how the others
  fail.
-/

namespace ClrImage

/-! ## The order of the checks -/

/-- What is checked at a node. -/
inductive Stage
  /-- The depth at which the node stands. -/
  | depth
  /-- The node by itself, before its parts. -/
  | own
  /-- What an instantiation instantiates, once that has been resolved. -/
  | definition
deriving DecidableEq

/-- A check on a node that stands at some depth in a reference. -/
structure Check where
  stage : Stage
  node : TypeRef
  depth : Nat

mutual

/-- The checks on a reference that stands at some depth in another one. A node is checked before its
parts, and an instantiation once more between its definition and its arguments. -/
def TypeRef.checks : TypeRef → (depth : Nat) → List Check
  | .atom a, depth => [⟨.depth, .atom a, depth⟩, ⟨.own, .atom a, depth⟩]
  | .szArray elem, depth =>
    ⟨.depth, .szArray elem, depth⟩ :: ⟨.own, .szArray elem, depth⟩ :: checks elem (depth + 1)
  | .array elem rank, depth =>
    ⟨.depth, .array elem rank, depth⟩ :: ⟨.own, .array elem rank, depth⟩ :: checks elem (depth + 1)
  | .pointer elem, depth =>
    ⟨.depth, .pointer elem, depth⟩ :: ⟨.own, .pointer elem, depth⟩ :: checks elem (depth + 1)
  | .byRef elem, depth =>
    ⟨.depth, .byRef elem, depth⟩ :: ⟨.own, .byRef elem, depth⟩ :: checks elem (depth + 1)
  | .inst definition args, depth =>
    ⟨.depth, .inst definition args, depth⟩ :: ⟨.own, .inst definition args, depth⟩ ::
      (checks definition (depth + 1) ++
        ⟨.definition, .inst definition args, depth⟩ :: checksAll args (depth + 1))
termination_by structural r => r

/-- The checks on several references, one after the other. -/
def TypeRef.checksAll : List TypeRef → (depth : Nat) → List Check
  | [], _ => []
  | r :: rest, depth => checks r depth ++ checksAll rest depth
termination_by structural rs => rs

end

instance (r : TypeRef) : Decidable r.IsTypeDef :=
  decidable_of_iff (r matches .atom (.typeDef _)) <| by
    unfold TypeRef.IsTypeDef TypeRef.typeDef
    split <;> simp_all

namespace Scope

/-! ## What the checks find -/

/-- What is written for an atom of a reference in the text of a signature: the name of what is
linked or registered for it. -/
def atomName (s : Scope) : RefAtom → String
  | .primitive p => p.fullName
  | .typeDef token => ((s.links.types.get? token).map s.store.typeText).getD Store.droppedText
  | .var index | .mvar index =>
    (((s.registry.get? (s.registry.key index s.topLevel)).bind s.store.generics.get?).map
      (·.name)).getD Store.droppedText

/-- What is wrong with a node by itself. -/
def ownFault? (s : Scope) : TypeRef → Option Unresolved
  | .atom (.typeDef token) =>
    if token.isIn Table.typeDef = false then some .notTypeDef
    else if ((s.links.types.get? token).bind s.store.types.get?).isNone then some .notLinked
    else none
  | .atom (.var index) | .atom (.mvar index) =>
    if (s.registry.get? (s.registry.key index s.topLevel)).isNone then
      some (.undeclaredParameter index)
    else none
  | .array _ rank => if rank = 0 then some .zeroRank else none
  | .inst _ args => if args.isEmpty then some .noArguments else none
  | _ => none

/-- What is wrong with the definition of a node. -/
def definitionFault? (s : Scope) : TypeRef → Option Unresolved
  | .inst definition _ =>
    if TypeRef.IsTypeDef definition then none
    else some (.notGeneric (TypeExpr.text s.atomName Store.rankText definition))
  | _ => none

/-- What a check finds. -/
def fault? (s : Scope) (c : Check) : Option Failure :=
  match c.stage with
  | .depth => if maxDepth ≤ c.depth then some (.tooDeep maxDepth) else none
  | .own => (s.ownFault? c.node).map (.unresolved c.node.text)
  | .definition => (s.definitionFault? c.node).map (.unresolved c.node.text)

/-- The first of some checks that finds something, and what it finds. -/
def first? (s : Scope) (cs : List Check) : Option (Check × Failure) :=
  cs.findSome? fun c => (s.fault? c).map (c, ·)

/-- The first check on a reference that finds something, and what it finds. -/
def FirstFault (s : Scope) (r : TypeRef) (c : Check) (e : Failure) : Prop :=
  ∃ before after, r.checks 0 = before ++ c :: after ∧ (∀ c' ∈ before, s.fault? c' = none) ∧
    s.fault? c = some e

variable {s : Scope}

theorem first?_cons (c : Check) (cs : List Check) :
    s.first? (c :: cs) = ((s.fault? c).map (c, ·)).or (s.first? cs) := by
  unfold first?
  rw [List.findSome?_cons]
  cases s.fault? c <;> rfl

theorem first?_singleton (c : Check) : s.first? [c] = (s.fault? c).map (c, ·) := by
  rw [first?_cons]
  exact Option.or_none

theorem first?_append (cs cs' : List Check) :
    s.first? (cs ++ cs') = (s.first? cs).or (s.first? cs') :=
  List.findSome?_append

theorem first?_checks_eq_some {r : TypeRef} {c : Check} {e : Failure} :
    s.first? (r.checks 0) = some (c, e) ↔ s.FirstFault r c e := by
  unfold first? FirstFault
  rw [List.findSome?_eq_some_iff]
  constructor
  · rintro ⟨before, c', after, hchecks, hc, hbefore⟩
    obtain ⟨e', he, heq⟩ := Option.map_eq_some_iff.mp hc
    obtain ⟨rfl, rfl⟩ := Prod.mk.inj heq
    exact ⟨before, after, hchecks, fun c' hc' => by simpa using hbefore c' hc', he⟩
  · rintro ⟨before, after, hchecks, hbefore, hc⟩
    exact ⟨before, c, after, hchecks, by rw [hc]; rfl, fun c' hc' => by rw [hbefore c' hc']; rfl⟩

/-! ## What resolution fails with -/

/-- What the first check finds, if one finds anything, is the outcome. The limit on depth is the
outcome exactly if that check is on a node that stands at the limit. -/
inductive Settles {α : Type} : Except Failure α → Option (Check × Failure) → Prop
  | ok (a : α) : Settles (.ok a) none
  | error {c : Check} {e : Failure} (h : c.depth = maxDepth ↔ e = .tooDeep maxDepth) :
    Settles (.error e) (some (c, e))

namespace Settles

variable {α β : Type} {x : Except Failure α} {first second : Option (Check × Failure)}

/-- A failure of a node that stands above the limit. -/
theorem unresolved {c : Check} (hdepth : c.depth < maxDepth) (text : String)
    (reason : Unresolved) :
    Settles (α := α) (.error (.unresolved text reason)) (some (c, .unresolved text reason)) :=
  .error (iff_of_false (Nat.ne_of_lt hdepth) nofun)

/-- Checks that come one after the other. -/
theorem bind {f : α → Except Failure β} (hx : Settles x first)
    (hf : ∀ a, x = .ok a → Settles (f a) second) : Settles (x >>= f) (first.or second) := by
  cases hx with
  | ok a => exact hf a rfl
  | error h => exact .error h

theorem map (hx : Settles x first) (f : α → β) :
    Settles (x >>= fun a => pure (f a)) first := by
  cases hx with
  | ok a => exact .ok (f a)
  | error h => exact .error h

end Settles

/-- A node that stands at most at the limit is checked for its depth first. What follows counts only
if it stands above. -/
theorem settles_of_depth {α : Type} {f : Unit → Except Failure α} {r : TypeRef} {depth : Nat}
    {cs : List Check} (hdepth : depth ≤ maxDepth)
    (h : depth < maxDepth → Settles (f ()) (s.first? cs)) :
    Settles (checkDepth depth >>= f) (s.first? (⟨.depth, r, depth⟩ :: cs)) := by
  rw [first?_cons]
  unfold checkDepth fault?
  by_cases hlimit : maxDepth ≤ depth
  · simp only [hlimit, if_true]
    exact .error (iff_of_true (Nat.le_antisymm hdepth hlimit) rfl)
  · simp only [hlimit, if_false]
    exact h (by omega)

/-- The check on the reference of a declared type. -/
theorem settles_resolveTypeDef (token : Token) {depth : Nat} (hdepth : depth < maxDepth) :
    Settles (s.resolveTypeDef token) (s.first? [⟨.own, TypeRef.typeDef token, depth⟩]) := by
  rw [first?_singleton]
  simp only [resolveTypeDef, fault?, TypeRef.typeDef, ownFault?]
  by_cases htable : token.isIn Table.typeDef = true
  · simp only [htable, Bool.not_true, Bool.false_eq_true, Bool.true_eq_false, if_false]
    cases s.links.types.get? token with
    | none => exact .unresolved hdepth _ _
    | some h =>
      rcases Option.eq_none_or_eq_some (s.store.types.get? h) with ht | ⟨t, ht⟩
      · simp only [Option.bind_some, ht]
        exact .unresolved hdepth _ _
      · simp only [Option.bind_some, ht]
        exact .ok _
  · rw [Bool.not_eq_true] at htable
    simp only [htable, Bool.not_false, if_true]
    exact .unresolved hdepth _ _

/-- The check on an index, whichever kind of parameter it is the index of. -/
theorem settles_resolveIndex {r : TypeRef} {index : UInt32} {depth : Nat}
    (hr : s.ownFault? r = if (s.registry.get? (s.registry.key index s.topLevel)).isNone then
      some (.undeclaredParameter index) else none) (hdepth : depth < maxDepth) :
    Settles (s.resolveIndex r index) (s.first? [⟨.own, r, depth⟩]) := by
  rw [first?_singleton]
  simp only [resolveIndex, fault?, hr]
  cases s.registry.get? (s.registry.key index s.topLevel) with
  | none => exact .unresolved hdepth _ _
  | some g => exact .ok g

/-- The check on an atom. -/
theorem settles_resolveAtom (a : RefAtom) {depth : Nat} (hdepth : depth < maxDepth) :
    Settles (s.resolveAtom a) (s.first? [⟨.own, .atom a, depth⟩]) := by
  cases a with
  | primitive p => exact .ok _
  | typeDef token => exact settles_resolveTypeDef token hdepth
  | var index => exact (settles_resolveIndex rfl hdepth).map _
  | mvar index => exact (settles_resolveIndex rfl hdepth).map _

/-- The text of a signature names what the atoms of its reference stand for. -/
theorem sigText_eq_of_rel {r : TypeRef} {sig : Signature} (h : r.Rel s.Names sig) :
    s.store.sigText sig = TypeExpr.text s.atomName Store.rankText r := by
  refine (TypeExpr.text_congr ?_ Store.rankText r sig h).symm
  rintro (p | token | index | index) b hb <;> cases b <;> simp only [Names] at hb
  · rw [hb]
    rfl
  · simp [atomName, Store.atomText, hb.1]
  · simp [atomName, Store.atomText, hb.1]
  · simp [atomName, Store.atomText, hb]
  · simp [atomName, Store.atomText, hb]

mutual

/-- The outcome is what the first check finds. -/
theorem settles_resolveAt : (r : TypeRef) → {depth : Nat} → depth ≤ maxDepth →
    Settles (s.resolveAt r depth) (s.first? (r.checks depth))
  | .atom a, depth, hdepth => by
    unfold resolveAt TypeRef.checks
    exact settles_of_depth hdepth (settles_resolveAtom a)
  | .szArray elem, depth, hdepth => by
    unfold resolveAt TypeRef.checks
    exact settles_of_depth hdepth fun hlimit => (settles_resolveAt elem hlimit).map _
  | .array elem rank, depth, hdepth => by
    unfold resolveAt TypeRef.checks
    refine settles_of_depth hdepth fun hlimit => ?_
    rw [first?_cons]
    by_cases hrank : rank = 0
    · simp only [fault?, ownFault?, hrank, if_true]
      exact .unresolved hlimit _ _
    · simp only [fault?, ownFault?, hrank, if_false]
      exact (settles_resolveAt elem hlimit).map _
  | .pointer elem, depth, hdepth => by
    unfold resolveAt TypeRef.checks
    exact settles_of_depth hdepth fun hlimit => (settles_resolveAt elem hlimit).map _
  | .byRef elem, depth, hdepth => by
    unfold resolveAt TypeRef.checks
    exact settles_of_depth hdepth fun hlimit => (settles_resolveAt elem hlimit).map _
  | .inst definition args, depth, hdepth => by
    unfold resolveAt TypeRef.checks
    refine settles_of_depth hdepth fun hlimit => ?_
    rw [first?_cons]
    by_cases hargs : args.isEmpty = true
    · simp only [fault?, ownFault?, hargs, if_true]
      exact .unresolved hlimit _ _
    · simp only [fault?, ownFault?, if_neg hargs, Option.map_none, Option.none_or]
      rw [first?_append]
      refine (settles_resolveAt definition hlimit).bind fun sig hsig => ?_
      have hrel := resolveAt_rel definition hsig
      rw [first?_cons]
      by_cases hdeclared : Signature.isDeclared sig = true
      · have htypeDef := (isDeclared_iff_of_rel hrel).mp hdeclared
        simp only [fault?, definitionFault?, hdeclared, htypeDef, if_true]
        exact (settles_resolveAll args hlimit).map _
      · have htypeDef := mt (isDeclared_iff_of_rel hrel).mpr hdeclared
        simp only [fault?, definitionFault?, hdeclared, htypeDef, if_false]
        rw [sigText_eq_of_rel hrel]
        exact .unresolved hlimit _ _

theorem settles_resolveAll : (rs : List TypeRef) → {depth : Nat} → depth ≤ maxDepth →
    Settles (s.resolveAll rs depth) (s.first? (TypeRef.checksAll rs depth))
  | [], depth, _ => .ok []
  | r :: rest, depth, hdepth => by
    unfold resolveAll TypeRef.checksAll
    rw [first?_append]
    refine (settles_resolveAt r hdepth).bind fun sig _ => ?_
    exact (settles_resolveAll rest hdepth).map _

end

/-- **A reference resolves exactly if no check finds anything.** A reference that is not too high,
well formed and of known atoms has a signature of its own shape. Any other one fails with what the
first check finds that finds something, and with the limit on depth exactly if this check is on a
node that stands at the limit. -/
theorem resolution_exact (s : Scope) (r : TypeRef) :
    ((∃ sig, s.resolve r = .ok sig) ↔
      r.height ≤ 100 ∧ r.WellFormed ∧ ∀ a ∈ r.atoms, s.Knows a) ∧
    (∀ sig, s.resolve r = .ok sig → r.Rel s.Names sig) ∧
    (∀ e, s.resolve r = .error e ↔ ∃ c, s.FirstFault r c e) ∧
    (s.resolve r = .error (.tooDeep 100) ↔ ∃ c e, s.FirstFault r c e ∧ c.depth = 100) := by
  have hsettles : Settles (s.resolve r) (s.first? (r.checks 0)) :=
    settles_resolveAt r (Nat.zero_le maxDepth)
  refine ⟨canResolve_iff, fun sig => resolve_rel, ?_⟩
  simp only [← first?_checks_eq_some]
  generalize s.resolve r = outcome at hsettles ⊢
  generalize s.first? (r.checks 0) = first at hsettles ⊢
  show (∀ e, _) ∧ (outcome = .error (.tooDeep maxDepth) ↔
    ∃ (c : Check) (e : Failure), _ ∧ c.depth = maxDepth)
  cases hsettles with
  | ok sig => simp
  | error h =>
    refine ⟨fun e => by simp, ?_⟩
    simpa using h.symm

end Scope

end ClrImage
