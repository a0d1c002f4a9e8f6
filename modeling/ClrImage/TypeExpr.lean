/-!
# Type expressions

Types are built from atoms by arrays, pointers, references and generic instantiation. The atoms
differ between a raw reference and a resolved signature; the construction is the same.

* `TypeExpr`: type expressions over atoms.
* `TypeExpr.text`: the written form, given that of the atoms and of array ranks.
* `TypeExpr.same_iff`: equality of type expressions is decidable.
-/

namespace ClrImage

/-- A type built from atoms in `α`. -/
inductive TypeExpr (α : Type) where
  | atom (a : α)
  | szArray (elem : TypeExpr α)
  | array (elem : TypeExpr α) (rank : UInt32)
  | pointer (elem : TypeExpr α)
  | byRef (elem : TypeExpr α)
  | inst (definition : TypeExpr α) (args : List (TypeExpr α))
deriving Repr

namespace TypeExpr

variable {α : Type}

instance [Inhabited α] : Inhabited (TypeExpr α) := ⟨.atom default⟩

/-! ## Written form -/

mutual

/-- Constructors are written behind what they apply to; arguments stand in angle brackets. -/
def text (atomText : α → String) (rankText : UInt32 → String) : TypeExpr α → String
  | .atom a => atomText a
  | .szArray elem => elem.text atomText rankText ++ "[]"
  | .array elem rank => elem.text atomText rankText ++ rankText rank
  | .pointer elem => elem.text atomText rankText ++ "*"
  | .byRef elem => elem.text atomText rankText ++ "&"
  | .inst definition args =>
    definition.text atomText rankText ++ "<" ++
      ", ".intercalate (texts atomText rankText args) ++ ">"
termination_by structural e => e

/-- The written forms of several type expressions. -/
def texts (atomText : α → String) (rankText : UInt32 → String) : List (TypeExpr α) → List String
  | [] => []
  | e :: rest => e.text atomText rankText :: texts atomText rankText rest
termination_by structural es => es

end

/-! ## Equality -/

section DecidableEq

variable [DecidableEq α]

mutual

/-- Whether two type expressions are built alike from the same atoms. -/
def same : TypeExpr α → TypeExpr α → Bool
  | .atom a, .atom b => decide (a = b)
  | .szArray a, .szArray b => a.same b
  | .array a r, .array b q => a.same b && r == q
  | .pointer a, .pointer b => a.same b
  | .byRef a, .byRef b => a.same b
  | .inst d as, .inst e bs => d.same e && sameList as bs
  | _, _ => false
termination_by structural e => e

/-- Whether two lists hold the same type expressions. -/
def sameList : List (TypeExpr α) → List (TypeExpr α) → Bool
  | [], [] => true
  | a :: as, b :: bs => a.same b && sameList as bs
  | _, _ => false
termination_by structural es => es

end

mutual

theorem same_iff : (a b : TypeExpr α) → (a.same b = true ↔ a = b)
  | .atom a, b => by cases b <;> simp [same]
  | .szArray a, b => by cases b <;> simp [same, same_iff a]
  | .array a r, b => by cases b <;> simp [same, same_iff a]
  | .pointer a, b => by cases b <;> simp [same, same_iff a]
  | .byRef a, b => by cases b <;> simp [same, same_iff a]
  | .inst d as, b => by cases b <;> simp [same, same_iff d, sameList_iff as]

theorem sameList_iff : (as bs : List (TypeExpr α)) → (sameList as bs = true ↔ as = bs)
  | [], bs => by cases bs <;> simp [sameList]
  | a :: as, bs => by cases bs <;> simp [sameList, same_iff a, sameList_iff as]

end

instance : DecidableEq (TypeExpr α) := fun a b => decidable_of_iff _ (same_iff a b)

end DecidableEq

end TypeExpr

end ClrImage
