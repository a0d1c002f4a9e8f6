import ClrImage.Arena
import ClrImage.Config
import ClrImage.Token
import ClrImage.WriteOnce

/-!
# The registry of generic parameters

Generic parameters under their indices. Depending on its scope the registry tells equal indices
apart by top-level type.

* `GenericKey`: an index in its scope.
* `GenericRegistry`: the parameters by key, first come first served.
* `GenericRegistry.get?_register`: a key that has been registered holds what registering it gave.
-/

namespace ClrImage

/-- An index, and the top-level type below which it counts if indices are told apart. -/
structure GenericKey where
  scope : Option Token
  index : UInt32
deriving DecidableEq, Repr

/-- Keys without a scope come first; keys with one are ordered by scope and then by index. -/
instance : Ord GenericKey :=
  ⟨compareLex (compareOn GenericKey.scope) (compareOn GenericKey.index)⟩

instance : Std.TransOrd GenericKey :=
  inferInstanceAs (Std.TransCmp (compareLex (compareOn GenericKey.scope)
    (compareOn GenericKey.index)))

instance : Std.LawfulEqOrd GenericKey where
  eq_of_compare {a b} h := by
    obtain ⟨hscope, hindex⟩ := Ordering.then_eq_eq.mp h
    cases a
    cases b
    exact congr (congrArg GenericKey.mk (Std.LawfulEqOrd.eq_of_compare hscope))
      (Std.LawfulEqOrd.eq_of_compare hindex)

/-- The generic parameters of an image. -/
structure GenericRegistry where
  scope : RegistryScope
  params : WriteOnce GenericKey GenericHandle := {}

namespace GenericRegistry

instance : Inhabited GenericRegistry := ⟨⟨.perRun, {}⟩⟩

/-- The key of an index below a top-level type. -/
def key (r : GenericRegistry) (index : UInt32) (topLevel : Token) : GenericKey :=
  match r.scope with
  | .perRun => ⟨none, index⟩
  | .perTopLevelType => ⟨some topLevel, index⟩

/-- The parameter held for a key. -/
def get? (r : GenericRegistry) (key : GenericKey) : Option GenericHandle := r.params.get? key

/-- Holds a new parameter for the key unless the key has one. Gives the parameter that is held then,
and whether it is the new one. -/
def register (r : GenericRegistry) (key : GenericKey) (param : GenericHandle) :
    (GenericHandle × Bool) × GenericRegistry :=
  match r.get? key with
  | some held => ((held, false), r)
  | none => ((param, true), { r with params := r.params.offer key param })

/-- The number of parameters. -/
def size (r : GenericRegistry) : Nat := r.params.size

/-- The parameters in the order of their keys. -/
def toList (r : GenericRegistry) : List GenericHandle := r.params.values

/-- A key that was free holds what it is offered, and all others hold what they held. -/
theorem get?_offer_of_none {r : GenericRegistry} {key : GenericKey}
    (h : r.get? key = none) (g : GenericHandle) (k : GenericKey) :
    (r.params.offer key g).get? k = if k = key then some g else r.get? k := by
  rw [WriteOnce.get?_offer, show r.params.get? key = none from h]
  rfl

theorem get?_register (r : GenericRegistry) (key : GenericKey) (param : GenericHandle)
    (k : GenericKey) :
    (r.register key param).2.get? k =
      if k = key then some (r.register key param).1.1 else r.get? k := by
  unfold register
  split
  next held h =>
    by_cases hk : k = key
    · subst hk
      simp [h]
    · simp [hk]
  next h => exact get?_offer_of_none h param k

theorem mem_toList {r : GenericRegistry} {param : GenericHandle} :
    param ∈ r.toList ↔ ∃ key, r.get? key = some param :=
  WriteOnce.mem_values

end GenericRegistry

end ClrImage
