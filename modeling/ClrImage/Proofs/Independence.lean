import ClrImage.Proofs.Mirror
import ClrImage.Proofs.Owners
import ClrImage.Proofs.Publication
import Mathlib.Data.List.Pairwise

/-!
# Independent types

The members of a type are made against tables that the members of other types are registered and
linked in. This module says when what two types do to these tables, and what they read of them, does
not overlap.

- `MemberSort`: the four sorts of members, each with its place in a plan.
- `Setup.methodKeys`, `Setup.PlansKey`: the keys that methods declare.
- `Setup.Independent`: methods declare keys of their own, accessors are methods of their type, and
  only a method itself names the keys that it declares.
- `Setup.VisibleTo`: keys that no other type's methods declare. An independent type names only such
  keys (`Independent.memberTypes_visible`, `Independent.signature_visible`).
-/

namespace ClrImage

/-! ## Sorts of members -/

/-- The sorts of members that are linked and listed. -/
inductive MemberSort
  | field | method | property | event
deriving DecidableEq

namespace MemberSort

/-- The kind of object of a sort of members. -/
abbrev kind : MemberSort → ObjectKind
  | field => .field
  | method => .method
  | property => .property
  | event => .event

/-- The places of a sort of members in the link table and in types. -/
def places : (m : MemberSort) → MemberKind m.kind
  | field => .fields
  | method => .methods
  | property => .properties
  | event => .events

/-- The tokens of the members of a sort that a type plans. -/
def tokens (p : TypePlan) : MemberSort → List Token
  | field => p.fields.toList.map (·.token)
  | method => p.methods.toList.map (·.token)
  | property => p.properties.toList.map (·.token)
  | event => p.events.toList.map (·.token)

/-- Another sort of members is linked elsewhere. -/
theorem table_of_ne {m n : MemberSort} (h : n ≠ m) (t : LinkTable)
    (table : WriteOnce Token (Handle m.kind)) :
    n.places.table (m.places.withTable t table) = n.places.table t := by
  cases m <;> cases n <;> first | rfl | exact absurd rfl h

/-- Another sort of members is listed elsewhere. -/
theorem handles_of_ne {m n : MemberSort} (h : n ≠ m) (t : TypeDef)
    (handles : Array (Handle m.kind)) :
    n.places.handles (m.places.withHandles t handles) = n.places.handles t := by
  cases m <;> cases n <;> first | rfl | exact absurd rfl h

end MemberSort

/-- The tokens of a type and of all its members. -/
def TypePlan.tokens (p : TypePlan) : List Token :=
  p.token :: (MemberSort.field.tokens p ++ MemberSort.method.tokens p ++
    MemberSort.property.tokens p ++ MemberSort.event.tokens p)

theorem MemberSort.mem_tokens {m : MemberSort} {p : TypePlan} {token : Token}
    (h : token ∈ m.tokens p) : token ∈ p.tokens := by
  refine List.mem_cons_of_mem p.token ?_
  simp only [List.mem_append]
  cases m
  · exact .inl (.inl (.inl h))
  · exact .inl (.inl (.inr h))
  · exact .inl (.inr h)
  · exact .inr h

/-! ## References of a plan -/

/-- The index of an atom that stands for a generic parameter. -/
def RefAtom.index? : RefAtom → Option UInt32
  | .var index | .mvar index => some index
  | _ => none

/-- The indices of generic parameters in a reference. -/
def TypeRef.indices (r : TypeRef) : List UInt32 := r.atoms.filterMap RefAtom.index?

-- the indices of a reference are looked through, not all of `UInt32`
instance (priority := 2000) (r : TypeRef) (P : UInt32 → Prop) [DecidablePred P] :
    Decidable (∀ i ∈ TypeRef.indices r, P i) :=
  List.decidableBAll P (TypeRef.indices r)

/-- The generic parameters of a method, none if there are none. -/
def MethodPlan.genericPlans (m : MethodPlan) : List GenericPlan := (m.generics.getD #[]).toList

/-- The references in the signature of a method and in its constraints. -/
def MethodPlan.references (m : MethodPlan) : List TypeRef :=
  m.returnType :: m.params.toList.map (·.type) ++
    m.genericPlans.flatMap fun g => g.constraints.toList

/-- The types of the fields, properties and events of a type. -/
def TypePlan.memberTypes (p : TypePlan) : List TypeRef :=
  p.fields.toList.map (·.type) ++ p.properties.toList.map (·.type) ++
    p.events.toList.map (·.type)

/-- The accessors of the properties and events of a type. -/
def TypePlan.accessors (p : TypePlan) : List (Accessor × MethodPlan) :=
  p.properties.toList.flatMap (·.accessors) ++ p.events.toList.flatMap (·.accessors)

namespace Setup

/-! ## Keys -/

/-- The key that an index stands for in the plan of a type. -/
def keyAt (setup : Setup) (p : TypePlan) (index : UInt32) : GenericKey :=
  GenericRegistry.key ⟨setup.config.registryScope, {}⟩ index (setup.blueprint.topLevel p)

/-- The keys that a method of a type declares. -/
def methodKeys (setup : Setup) (p : TypePlan) (m : MethodPlan) : List GenericKey :=
  m.genericPlans.map (setup.genericKey p)

/-- The key is declared by a method of the type. -/
def PlansKey (setup : Setup) (p : TypePlan) (key : GenericKey) : Prop :=
  ∃ m ∈ p.methods.toList, key ∈ setup.methodKeys p m

/-- The key is declared by no other type's method. -/
def VisibleTo (setup : Setup) (p : TypePlan) (key : GenericKey) : Prop :=
  ∀ q ∈ setup.types, q ≠ p → ¬ setup.PlansKey q key

/-! ## Independence -/

/-- The tokens of all types and members are pairwise distinct. -/
def DistinctTokens (setup : Setup) : Prop := (setup.types.flatMap TypePlan.tokens).Nodup

instance (setup : Setup) : Decidable setup.DistinctTokens := by
  unfold DistinctTokens
  infer_instance

/-- Making the members of one type does not get in the way of another one's. -/
structure Independent (setup : Setup) : Prop where
  /-- A key that a method declares is declared by no type and by no other method. -/
  separate : ∀ p ∈ setup.types, ∀ m ∈ p.methods.toList, ∀ key ∈ setup.methodKeys p m,
    (∀ q ∈ setup.types, setup.declares key q = false) ∧
    ∀ q ∈ setup.types, ∀ n ∈ q.methods.toList, key ∈ setup.methodKeys q n → n.token = m.token
  /-- An accessor is a method of its type. -/
  accessors : ∀ p ∈ setup.types, ∀ a ∈ p.accessors, ∃ n ∈ p.methods.toList, n.token = a.2.token
  /-- The type of a field, property or event names no key that a method declares. -/
  memberTypes : ∀ p ∈ setup.types, ∀ r ∈ p.memberTypes, ∀ i ∈ TypeRef.indices r,
    ∀ q ∈ setup.types, ∀ n ∈ q.methods.toList, setup.keyAt p i ∉ setup.methodKeys q n
  /-- Signature and constraints of a method name, of such keys, at most the method's own. -/
  signatures : ∀ p ∈ setup.types, ∀ m ∈ p.methods.toList, ∀ r ∈ m.references,
    ∀ i ∈ TypeRef.indices r, ∀ q ∈ setup.types, ∀ n ∈ q.methods.toList,
    setup.keyAt p i ∈ setup.methodKeys q n → n.token = m.token

instance (setup : Setup) : Decidable setup.Independent :=
  decidable_of_iff (_ ∧ _ ∧ _ ∧ _)
    ⟨fun ⟨h₁, h₂, h₃, h₄⟩ => ⟨h₁, h₂, h₃, h₄⟩, fun ⟨h₁, h₂, h₃, h₄⟩ => ⟨h₁, h₂, h₃, h₄⟩⟩

section Distinct

variable {setup : Setup} (hdistinct : setup.DistinctTokens) {p q : TypePlan}
include hdistinct

/-- Two types have no token in common. -/
theorem DistinctTokens.disjoint (hp : p ∈ setup.types) (hq : q ∈ setup.types) (hne : q ≠ p)
    {token : Token} (htoken : token ∈ p.tokens) : token ∉ q.tokens := by
  have hpairwise := (List.nodup_flatMap.mp hdistinct).2
  have hsymm : Std.Symm (Function.onFun List.Disjoint TypePlan.tokens) :=
    ⟨fun _ _ h _ ha hb => h hb ha⟩
  exact fun htoken' => hpairwise.forall hp hq hne.symm htoken htoken'

/-- Members with one token are members of one type. -/
theorem DistinctTokens.of_method {m n : MethodPlan} (hp : p ∈ setup.types)
    (hq : q ∈ setup.types) (hm : m ∈ p.methods.toList) (hn : n ∈ q.methods.toList)
    (htoken : n.token = m.token) : q = p := by
  by_contra hne
  have hmem : m.token ∈ p.tokens :=
    MemberSort.mem_tokens (m := .method) (List.mem_map_of_mem (f := MethodPlan.token) hm)
  have hmem' : m.token ∈ q.tokens :=
    htoken ▸ MemberSort.mem_tokens (m := .method) (List.mem_map_of_mem (f := MethodPlan.token) hn)
  exact hdistinct.disjoint hp hq hne hmem hmem'

variable (hind : setup.Independent) (hp : p ∈ setup.types)
include hind hp

/-- A key that a method of a type declares is declared by no other type's method. -/
theorem Independent.own_visible {key : GenericKey} (hkey : setup.PlansKey p key) :
    setup.VisibleTo p key := by
  obtain ⟨m, hm, hkey⟩ := hkey
  rintro q hq hne ⟨n, hn, hkey'⟩
  exact hne (hdistinct.of_method hp hq hm hn ((hind.separate p hp m hm key hkey).2 q hq n hn hkey'))

omit hdistinct in
/-- The types of fields, properties and events name only keys that no other type's methods
declare. -/
theorem Independent.memberTypes_visible {r : TypeRef} (hr : r ∈ p.memberTypes) :
    ∀ i ∈ TypeRef.indices r, setup.VisibleTo p (setup.keyAt p i) := by
  rintro i hi q hq - ⟨n, hn, hkey⟩
  exact hind.memberTypes p hp r hr i hi q hq n hn hkey

/-- So do the signatures and constraints of methods. -/
theorem Independent.signature_visible {m : MethodPlan} (hm : m ∈ p.methods.toList) {r : TypeRef}
    (hr : r ∈ m.references) : ∀ i ∈ TypeRef.indices r, setup.VisibleTo p (setup.keyAt p i) := by
  rintro i hi q hq hne ⟨n, hn, hkey⟩
  exact hne (hdistinct.of_method hp hq hm hn (hind.signatures p hp m hm r hr i hi q hq n hn hkey))

end Distinct

end Setup

end ClrImage
