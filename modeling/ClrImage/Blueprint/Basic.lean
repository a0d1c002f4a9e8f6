import ClrImage.Blueprint.Plan
import Std.Data.TreeMap

/-!
# Blueprints

A blueprint is a module's list of type plans, looked up by token.

* `Blueprint`, `Blueprint.ofTypes`: the plans with their index.
* `Blueprint.type?`: the plan under a token.
* `Blueprint.topLevel`, `Blueprint.fullName`, `Blueprint.isNestingCyclic`: walks along declaring
  tokens. The blueprint does not say that these lead anywhere or end, so each walk is bounded.
-/

namespace ClrImage

/-- The position of each token in a list of types; the last of equal tokens counts. -/
def positions (types : Array TypePlan) : Std.TreeMap Token Nat compare :=
  types.toList.zipIdx.foldl (fun index entry => index.insert entry.1.token entry.2) ∅

/-- The plans of a module, and where to find them. -/
structure Blueprint where
  module : String
  types : Array TypePlan
  index : Std.TreeMap Token Nat compare
  index_eq : index = positions types

namespace Blueprint

/-- The blueprint with the given plans. -/
def ofTypes (module : String) (types : Array TypePlan) : Blueprint :=
  ⟨module, types, positions types, rfl⟩

/-- The plan under a token. -/
def type? (b : Blueprint) (token : Token) : Option TypePlan := b.index[token]?.bind (b.types[·]?)

/-- The first of some planned types' methods that has a token. -/
def firstMethod? (types : Array TypePlan) (token : Token) : Option MethodPlan :=
  types.findSome? (·.method? token)

/-- The generic parameters of the type or method under a token. -/
def generics? (b : Blueprint) (owner : Token) : Option (Array GenericPlan) :=
  match b.type? owner with
  | some p => p.generics
  | none => (firstMethod? b.types owner).bind (·.generics)

/-- The number of planned methods. -/
def methodCount (b : Blueprint) : Nat := b.types.foldl (fun n p => n + p.methods.size) 0

/-! ## Nesting -/

/-- The last type met on at most `fuel` steps outwards. -/
def topLevelFrom (b : Blueprint) :
    (fuel : Nat) → (current : Token) → (declaring : Option Token) → Token
  | fuel + 1, current, some outer =>
    match b.type? outer with
    | some p => b.topLevelFrom fuel p.token p.declaring
    | none => current
  | _, current, _ => current

/-- The outermost type around a type: the last one on the way outwards that the blueprint knows. The
way has no more steps than there are types. -/
def topLevel (b : Blueprint) (p : TypePlan) : Token :=
  b.topLevelFrom b.types.size p.token p.declaring

/-- Puts the names of the types met on at most `fuel` steps outwards in front of a name. -/
def fullNameFrom (b : Blueprint) : (fuel : Nat) → (name : String) → Option Token → String
  | fuel + 1, name, some outer =>
    match b.type? outer with
    | some p => b.fullNameFrom fuel s!"{p.ownName}/{name}" p.declaring
    | none => name
  | _, name, _ => name

/-- The names of the types around a type and its own, outermost first. -/
def fullName (b : Blueprint) (p : TypePlan) : String :=
  b.fullNameFrom b.types.size p.ownName p.declaring

/-- Whether the way outwards from `declaring` comes back to a visited token. -/
def revisits (b : Blueprint) : (fuel : Nat) → (visited : List Token) → Option Token → Bool
  | fuel + 1, visited, some outer =>
    visited.contains outer ||
      b.revisits fuel (outer :: visited) ((b.type? outer).bind (·.declaring))
  | _, _, _ => false

/-- Whether the way outwards from a type never ends. Every step but the last meets another known
type, so two steps more than there are types decide it. -/
def isNestingCyclic (b : Blueprint) (p : TypePlan) : Bool :=
  b.revisits (b.types.size + 2) [p.token] p.declaring

end Blueprint

end ClrImage
