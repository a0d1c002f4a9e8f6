import ClrImage.Build.Basic
import Mathlib.Data.List.Nodup
import Mathlib.Data.List.Perm.Basic

/-!
# Plans by token

A blueprint finds a plan by its token. As long as no two plans have the same token, look-up and the
walks along declaring tokens do not depend on the order of the plans.

- `type?_eq_some`: among distinct tokens the plan under a token is the one that has it.
- `Setup.reordered`: the same build with its plans in another order.
- `topLevel_reordered`, `isNestingCyclic_reordered`: the walks come to the same end.
-/

namespace ClrImage

/-! ## Look-up -/

/-- A position in the index is that of a plan with the token, or it was there before. -/
theorem getElem?_positions_from {l : List TypePlan} {n i : Nat} {m : Std.TreeMap Token Nat compare}
    {token : Token}
    (h : ((l.zipIdx n).foldl (fun index entry => index.insert entry.1.token entry.2) m)[token]? =
      some i) :
    (∃ j p, i = n + j ∧ l[j]? = some p ∧ p.token = token) ∨ m[token]? = some i := by
  induction l generalizing n m with
  | nil => exact .inr h
  | cons q l ih =>
    rw [List.zipIdx_cons, List.foldl_cons] at h
    rcases ih h with ⟨j, p, hi, hp, htoken⟩ | hm
    · exact .inl ⟨j + 1, p, by omega, by rwa [List.getElem?_cons_succ], htoken⟩
    · rw [Std.TreeMap.getElem?_insert] at hm
      split at hm
      next heq =>
        obtain rfl := Option.some.inj hm
        exact .inl ⟨0, q, rfl, rfl, Std.LawfulEqOrd.eq_of_compare heq⟩
      next => exact .inr hm

/-- Tokens of no plan keep their position. -/
theorem getElem?_positions_of_not_mem {l : List TypePlan} {n : Nat}
    {m : Std.TreeMap Token Nat compare} {token : Token} (h : token ∉ l.map TypePlan.token) :
    ((l.zipIdx n).foldl (fun index entry => index.insert entry.1.token entry.2) m)[token]? =
      m[token]? := by
  induction l generalizing n m with
  | nil => rfl
  | cons q l ih =>
    rw [List.map_cons, List.mem_cons, not_or] at h
    rw [List.zipIdx_cons, List.foldl_cons, ih h.2, Std.TreeMap.getElem?_insert, if_neg]
    intro heq
    exact h.1 (Std.LawfulEqOrd.eq_of_compare heq).symm

/-- Each plan finds its own position if tokens are distinct. -/
theorem getElem?_positions_of_mem {l : List TypePlan} {n j : Nat}
    {m : Std.TreeMap Token Nat compare} {p : TypePlan} (hnodup : (l.map TypePlan.token).Nodup)
    (hp : l[j]? = some p) :
    ((l.zipIdx n).foldl (fun index entry => index.insert entry.1.token entry.2) m)[p.token]? =
      some (n + j) := by
  induction l generalizing n j m with
  | nil => cases hp
  | cons q l ih =>
    rw [List.map_cons, List.nodup_cons] at hnodup
    rw [List.zipIdx_cons, List.foldl_cons]
    cases j with
    | zero =>
      obtain rfl : q = p := Option.some.inj hp
      rw [getElem?_positions_of_not_mem hnodup.1, Std.TreeMap.getElem?_insert_self]
      rfl
    | succ j =>
      rw [ih hnodup.2 hp]
      congr 1
      omega

namespace Blueprint

variable {b b' : Blueprint} {token : Token} {p : TypePlan}

/-- What is found under a token is a plan with that token. -/
theorem of_type? (h : b.type? token = some p) : p ∈ b.types.toList ∧ p.token = token := by
  obtain ⟨i, hi, hp⟩ := Option.bind_eq_some_iff.mp h
  rw [b.index_eq] at hi
  have hmem : p ∈ b.types.toList :=
    Array.mem_toList_iff.mpr (Array.mem_of_getElem? hp)
  rcases getElem?_positions_from hi with ⟨j, q, rfl, hq, htoken⟩ | hempty
  · rw [Nat.zero_add, ← Array.getElem?_toList, hq] at hp
    obtain rfl := Option.some.inj hp
    exact ⟨hmem, htoken⟩
  · simp at hempty

/-- Among distinct tokens the plan under a token is the one that has it. -/
theorem type?_eq_some (hnodup : (b.types.toList.map TypePlan.token).Nodup) :
    b.type? token = some p ↔ p ∈ b.types.toList ∧ p.token = token := by
  refine ⟨of_type?, ?_⟩
  rintro ⟨hp, rfl⟩
  obtain ⟨j, hj⟩ := List.getElem?_of_mem hp
  have hindex : b.index[p.token]? = some j := by
    rw [b.index_eq, positions, getElem?_positions_of_mem hnodup hj, Nat.zero_add]
  rw [type?, hindex, Option.bind_some, ← Array.getElem?_toList, hj]

/-! ## Plans in another order -/

/-- Look-up does not depend on the order of the plans. -/
theorem type?_perm (hnodup : (b.types.toList.map TypePlan.token).Nodup)
    (hperm : b'.types.toList.Perm b.types.toList) : b'.type? = b.type? := by
  have hnodup' : (b'.types.toList.map TypePlan.token).Nodup :=
    (hperm.map TypePlan.token).nodup_iff.mpr hnodup
  funext token
  ext p
  rw [type?_eq_some hnodup', type?_eq_some hnodup, hperm.mem_iff]

theorem topLevelFrom_congr (h : b'.type? = b.type?) (fuel : Nat) (current : Token)
    (declaring : Option Token) :
    b'.topLevelFrom fuel current declaring = b.topLevelFrom fuel current declaring := by
  induction fuel generalizing current declaring with
  | zero => cases declaring <;> rfl
  | succ fuel ih =>
    cases declaring with
    | none => rfl
    | some outer =>
      simp only [topLevelFrom, h]
      split
      · exact ih _ _
      · rfl

theorem revisits_congr (h : b'.type? = b.type?) (fuel : Nat) (visited : List Token)
    (declaring : Option Token) :
    b'.revisits fuel visited declaring = b.revisits fuel visited declaring := by
  induction fuel generalizing visited declaring with
  | zero => cases declaring <;> rfl
  | succ fuel ih =>
    cases declaring with
    | none => rfl
    | some outer => simp only [revisits, h, ih]

end Blueprint

namespace Setup

/-- The same build with its plans in another order. -/
def reordered (setup : Setup) (types : Array TypePlan) : Setup :=
  { setup with blueprint := .ofTypes setup.blueprint.module types }

section Reordered

variable {setup : Setup} {types : Array TypePlan}
  (hnodup : (setup.types.map TypePlan.token).Nodup) (hperm : types.toList.Perm setup.types)
include hnodup hperm

/-- Every type has the top-level type that it had. -/
theorem topLevel_reordered (p : TypePlan) :
    (setup.reordered types).blueprint.topLevel p = setup.blueprint.topLevel p := by
  have hsize : types.size = setup.blueprint.types.size := hperm.length_eq
  show Blueprint.topLevelFrom _ types.size _ _ = _
  rw [hsize]
  exact Blueprint.topLevelFrom_congr (Blueprint.type?_perm hnodup hperm) _ _ _

/-- Nesting is cyclic exactly where it was. -/
theorem isNestingCyclic_reordered (p : TypePlan) :
    (setup.reordered types).blueprint.isNestingCyclic p = setup.blueprint.isNestingCyclic p := by
  have hsize : types.size = setup.blueprint.types.size := hperm.length_eq
  show Blueprint.revisits _ (types.size + 2) _ _ = _
  rw [hsize]
  exact Blueprint.revisits_congr (Blueprint.type?_perm hnodup hperm) _ _ _

end Reordered

end Setup

end ClrImage
