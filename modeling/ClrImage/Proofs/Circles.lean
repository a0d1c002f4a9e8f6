import ClrImage.Proofs.Lookup
import Mathlib.Data.List.Perm.Subperm
import Mathlib.Logic.Relation

/-!
# Circles of declaring types

A walk outwards from a type that meets a type twice never ends. The bounded walk that looks for
this, `Blueprint.isNestingCyclic`, is compared with the relation of being nested.

- `Blueprint.NestedIn`: a type and the one that its declaring token names.
- `Blueprint.Circles`: the way outwards comes to a type that is nested, through others, in itself.
- `isNestingCyclic_iff`: the bounded walk finds **exactly** these circles.
-/

namespace ClrImage

namespace Blueprint

/-- A type with the token `inner` has the declaring token `outer`. -/
def NestedIn (b : Blueprint) (inner outer : Token) : Prop :=
  ∃ p ∈ b.types.toList, p.token = inner ∧ p.declaring = some outer

/-- The way outwards from a type comes to one that is nested, through others, in itself. -/
def Circles (b : Blueprint) (token : Token) : Prop :=
  ∃ t, Relation.ReflTransGen b.NestedIn token t ∧ Relation.TransGen b.NestedIn t t

variable {b : Blueprint}

theorem Circles.head {inner outer : Token} (hstep : b.NestedIn inner outer) (h : b.Circles outer) :
    b.Circles inner :=
  h.imp fun _ ⟨hway, hcircle⟩ => ⟨hway.head hstep, hcircle⟩

/-- On the way to a circle, and on the circle, there is always a next type. -/
theorem Circles.next {inner : Token} (h : b.Circles inner) :
    ∃ outer, b.NestedIn inner outer ∧ b.Circles outer := by
  obtain ⟨t, hway, hcircle⟩ := h
  obtain ⟨outer, hstep, hway⟩ := Relation.TransGen.head'_iff.mp (hcircle.trans_right hway)
  exact ⟨outer, hstep, t, hway, hcircle⟩

/-- A walk comes back to a type only on a circle. The types that it has visited all lead to the next
one. -/
theorem circles_of_revisits {fuel : Nat} {visited : List Token} {declaring : Option Token}
    (hvisited : ∀ token ∈ visited, ∀ outer, declaring = some outer →
      Relation.TransGen b.NestedIn token outer)
    (h : b.revisits fuel visited declaring = true) :
    ∃ outer, declaring = some outer ∧ b.Circles outer := by
  -- the step adds the next type to those visited: they all lead one type further
  induction fuel generalizing visited declaring with
  | zero => cases h
  | succ fuel ih =>
    cases declaring with
    | none => cases h
    | some outer =>
      refine ⟨outer, rfl, ?_⟩
      rcases Bool.or_eq_true_iff.mp h with hseen | hlater
      · exact ⟨outer, .refl, hvisited outer (List.contains_iff_mem.mp hseen) outer rfl⟩
      · have hnext : ∀ o, (b.type? outer).bind (·.declaring) = some o → b.NestedIn outer o := by
          intro o ho
          obtain ⟨q, hq, hdeclaring⟩ := Option.bind_eq_some_iff.mp ho
          obtain ⟨hmem, htoken⟩ := of_type? hq
          exact ⟨q, hmem, htoken, hdeclaring⟩
        obtain ⟨o, ho, hcircles⟩ := ih (List.forall_mem_cons.mpr
          ⟨fun o ho => .single (hnext o ho),
            fun token htoken o ho => (hvisited token htoken outer rfl).tail (hnext o ho)⟩) hlater
        exact hcircles.head (hnext o ho)

section Distinct

variable (hnodup : (b.types.toList.map TypePlan.token).Nodup)
include hnodup

/-- A type has one declaring token. -/
theorem nestedIn_iff {p : TypePlan} (hp : p ∈ b.types.toList) {outer : Token} :
    b.NestedIn p.token outer ↔ p.declaring = some outer := by
  constructor
  · rintro ⟨q, hq, htoken, hdeclaring⟩
    obtain rfl := List.inj_on_of_nodup_map hnodup hq hp htoken
    exact hdeclaring
  · exact fun hdeclaring => ⟨p, hp, rfl, hdeclaring⟩

/-- On the way to a circle a walk comes back to a type before it has more steps left than there are
types that it has not visited. -/
theorem revisits_of_circles {fuel : Nat} {visited : List Token} {outer : Token}
    (hcircles : b.Circles outer) (hdistinct : visited.Nodup)
    (hplanned : visited ⊆ b.types.toList.map TypePlan.token)
    (hfuel : b.types.size < fuel + visited.length) :
    b.revisits fuel visited (some outer) = true := by
  induction fuel generalizing visited outer with
  | zero =>
    -- distinct planned types have been visited, and there are no more of them than planned ones
    have hle : visited.length ≤ b.types.size := by
      simpa using (hdistinct.subperm hplanned).length_le
    omega
  | succ fuel ih =>
    refine Bool.or_eq_true_iff.mpr (or_iff_not_imp_left.mpr fun hseen => ?_)
    obtain ⟨o, ⟨q, hq, rfl, hdeclaring⟩, hnext⟩ := hcircles.next
    rw [(type?_eq_some hnodup).mpr ⟨hq, rfl⟩, Option.bind_some, hdeclaring]
    refine ih hnext (List.nodup_cons.mpr ⟨fun hmem => ?_, hdistinct⟩)
      (List.cons_subset.mpr ⟨List.mem_map_of_mem hq, hplanned⟩) ?_
    · exact hseen (List.contains_iff_mem.mpr hmem)
    · rw [List.length_cons]
      omega

/-- The way outwards from a type is found to be endless **exactly if** it comes to a circle. -/
theorem isNestingCyclic_iff {p : TypePlan} (hp : p ∈ b.types.toList) :
    b.isNestingCyclic p = true ↔ b.Circles p.token := by
  unfold isNestingCyclic
  constructor
  · intro h
    obtain ⟨outer, hdeclaring, hcircles⟩ := circles_of_revisits
      (List.forall_mem_singleton.mpr fun outer hdeclaring =>
        .single ((nestedIn_iff hnodup hp).mpr hdeclaring)) h
    exact hcircles.head ((nestedIn_iff hnodup hp).mpr hdeclaring)
  · intro h
    obtain ⟨outer, hstep, hcircles⟩ := h.next
    rw [(nestedIn_iff hnodup hp).mp hstep]
    refine revisits_of_circles hnodup hcircles (List.nodup_singleton _)
      (by simpa using ⟨p, Array.mem_toList_iff.mp hp, rfl⟩) ?_
    rw [List.length_singleton]
    omega

/-- Some way outwards is endless exactly if some type is nested, through others, in itself. -/
theorem exists_isNestingCyclic_iff :
    (∃ p ∈ b.types.toList, b.isNestingCyclic p = true) ↔
      ∃ token, Relation.TransGen b.NestedIn token token := by
  constructor
  · rintro ⟨p, hp, h⟩
    obtain ⟨t, -, hcircle⟩ := (isNestingCyclic_iff hnodup hp).mp h
    exact ⟨t, hcircle⟩
  · rintro ⟨t, hcircle⟩
    obtain ⟨outer, ⟨p, hp, rfl, -⟩, -⟩ := Relation.TransGen.head'_iff.mp hcircle
    exact ⟨p, hp, (isNestingCyclic_iff hnodup hp).mpr ⟨p.token, .refl, hcircle⟩⟩

end Distinct

end Blueprint

end ClrImage
