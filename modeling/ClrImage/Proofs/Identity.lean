import ClrImage.Proofs.Registration
import ClrImage.Proofs.Shapes

/-!
# States up to the identity of objects

Two builds make the same objects under different handles. This module says when they have made the
same.

- `Pairing`: which objects of the one state stand for which of the other one.
- `TypeDef.Same`, `MethodDef.Same`, …: two objects agree but for the handles that they hold, and
  those are paired.
- `BuildState.Same`, `Isomorphic`: types, members, links and registry are the same up to the
  identity of objects. Objects that no table leads to do not count.
-/

namespace ClrImage

/-! ## Related options and lists -/

section Related

variable {α α' β β' γ : Type} {R : α → β → Prop} {S : α → γ → Prop} {T : β → γ → Prop}

/-- Two options are related if they are there together and then related. -/
theorem rel_of_isSome_iff {a : Option α} {b : Option β} (h : a.isSome ↔ b.isSome)
    (hR : ∀ x y, a = some x → b = some y → R x y) : Option.Rel R a b := by
  cases a <;> cases b <;> simp_all

/-- Related options are both there, or neither of them is. -/
theorem rel_cases {a : Option α} {b : Option β} (h : Option.Rel R a b) :
    (a = none ∧ b = none) ∨ ∃ x y, a = some x ∧ b = some y ∧ R x y := by
  cases h with
  | none => exact .inl ⟨rfl, rfl⟩
  | some hR => exact .inr ⟨_, _, rfl, rfl, hR⟩

theorem isSome_of_rel {a : Option α} {b : Option β} (h : Option.Rel R a b) :
    a.isSome = b.isSome := by
  cases h <;> rfl

/-- Options that are related are so by every weaker relation. -/
theorem rel_imp {R' : α → β → Prop} (h : ∀ a b, R a b → R' a b) {a : Option α} {b : Option β}
    (hab : Option.Rel R a b) : Option.Rel R' a b := by
  cases hab with
  | none => exact .none
  | some hR => exact .some (h _ _ hR)

theorem rel_map {R' : α' → β' → Prop} {f : α → α'} {g : β → β'} {a : Option α} {b : Option β}
    (h : ∀ x y, R x y → R' (f x) (g y)) (hab : Option.Rel R a b) :
    Option.Rel R' (a.map f) (b.map g) := by
  cases hab with
  | none => exact .none
  | some hxy => exact .some (h _ _ hxy)

/-- Two options that are related to one option are related to each other. -/
theorem rel_meet {a : Option α} {b : Option β} {c : Option γ} (h : ∀ a b c, R a b → S a c → T b c)
    (h₁ : Option.Rel R a b) (h₂ : Option.Rel S a c) : Option.Rel T b c := by
  cases h₁ with
  | none =>
    cases h₂
    exact .none
  | some hR =>
    cases h₂ with
    | some hS => exact .some (h _ _ _ hR hS)

/-- Two lists that are related to one list, element by element, are related to each other. -/
theorem forall₂_meet {l : List α} {l₁ : List β} {l₂ : List γ} (h : ∀ a b c, R a b → S a c → T b c)
    (h₁ : List.Forall₂ R l l₁) (h₂ : List.Forall₂ S l l₂) : List.Forall₂ T l₁ l₂ := by
  induction h₁ generalizing l₂ with
  | nil =>
    cases h₂
    exact .nil
  | cons hR _ ih =>
    cases h₂ with
    | cons hS hrest => exact .cons (h _ _ _ hR hS) (ih hrest)

end Related

/-! ## Names of related types -/

section Names

variable {R : TypeDef → TypeDef → Prop} {s s' : Store}
  (hR : ∀ t u, R t u → t.Alike u ∧ u.declaring = t.declaring)
  (hs : ∀ h, Option.Rel R (s.types.get? h) (s'.types.get? h))
include hR hs

/-- Types that are related, each under its handle, are nested in related types. -/
theorem Store.outer?_rel {t u : TypeDef} (htu : R t u) :
    Option.Rel R (s.outer? t) (s'.outer? u) := by
  unfold Store.outer?
  rw [(hR t u htu).2]
  cases t.declaring with
  | none => exact .none
  | some outer => exact hs outer

/-- They have one name, too. -/
theorem Store.fullNameWithin_eq (fuel : Nat) {t u : TypeDef} (htu : R t u) :
    s'.fullNameWithin fuel u = s.fullNameWithin fuel t := by
  have hown {t u : TypeDef} (htu : R t u) : u.ownName = t.ownName := by
    obtain ⟨halike, -⟩ := hR t u htu
    rw [TypeDef.ownName, halike.space, halike.name, TypeDef.ownName]
  induction fuel generalizing t u with
  | zero => exact hown htu
  | succ fuel ih =>
    unfold Store.fullNameWithin
    obtain ⟨hnone, hnone'⟩ | ⟨o, o', ho, ho', houter⟩ := rel_cases (Store.outer?_rel hR hs htu)
    · rw [hnone, hnone', hown htu]
    · rw [ho, ho']
      dsimp only
      rw [ih houter, (hR t u htu).1.name]

end Names

/-! ## Pairings -/

/-- Which objects of one state stand for which of another one: one for one. -/
structure Pairing where
  pairs : {k : ObjectKind} → Handle k → Handle k → Prop
  functional : ∀ {k : ObjectKind} {g h h' : Handle k}, pairs g h → pairs g h' → h = h'
  injective : ∀ {k : ObjectKind} {g g' h : Handle k}, pairs g h → pairs g' h → g = g'

namespace Pairing

/-- The two atoms are of one kind, and name the same primitive or paired objects. -/
def atom (ρ : Pairing) : SigAtom → SigAtom → Prop
  | .primitive p, .primitive q => p = q
  | .classType g, .classType h => ρ.pairs g h
  | .valueType g, .valueType h => ρ.pairs g h
  | .var g, .var h => ρ.pairs g h
  | .mvar g, .mvar h => ρ.pairs g h
  | _, _ => False

/-- The two signatures are built alike from paired objects. -/
def signature (ρ : Pairing) (a b : Signature) : Prop := a.Rel ρ.atom b

end Pairing

/-! ## Objects -/

section Objects

variable (ρ : Pairing)

/-- The two parameters agree, and their constraints are paired. -/
structure GenericParam.Same (x y : GenericParam) : Prop where
  rest : y = { x with constraints := y.constraints }
  constraints : List.Forall₂ ρ.signature x.constraints.toList y.constraints.toList

structure FieldDef.Same (f g : FieldDef) : Prop where
  rest : g = { f with type := g.type }
  type : ρ.signature f.type g.type

structure MethodSig.Same (m n : MethodSig) : Prop where
  rest : n = { m with returnType := n.returnType, params := n.params }
  returnType : ρ.signature m.returnType n.returnType
  params : List.Forall₂ ρ.signature m.params n.params

/-- The two operands are alike; types are paired. -/
inductive Operand.Same : Operand → Operand → Prop
  | none : Same .none .none
  | slot (index : UInt8) : Same (.slot index) (.slot index)
  | type {a b : Signature} (h : ρ.signature a b) : Same (.type a) (.type b)

structure Instruction.Same (i j : Instruction) : Prop where
  opcode : j.opcode = i.opcode
  operand : Operand.Same ρ i.operand j.operand

structure Body.Same (b c : Body) : Prop where
  rest : c = { b with locals := c.locals, code := c.code }
  locals : List.Forall₂ ρ.signature b.locals c.locals
  code : List.Forall₂ (Instruction.Same ρ) b.code c.code

structure MethodDef.Same (m n : MethodDef) : Prop where
  rest : n = { m with
    signature := n.signature, generics := n.generics, params := n.params, body := n.body }
  signature : MethodSig.Same ρ m.signature n.signature
  generics : List.Forall₂ ρ.pairs m.generics.toList n.generics.toList
  params : List.Forall₂ ρ.pairs m.params.toList n.params.toList
  body : Option.Rel (Body.Same ρ) m.body n.body

structure Semantics.Same (a b : Semantics) : Prop where
  role : b.role = a.role
  method : ρ.pairs a.method b.method

structure PropertyDef.Same (p q : PropertyDef) : Prop where
  rest : q = { p with type := q.type, semantics := q.semantics }
  type : ρ.signature p.type q.type
  semantics : List.Forall₂ (Semantics.Same ρ) p.semantics.toList q.semantics.toList

structure EventDef.Same (e f : EventDef) : Prop where
  rest : f = { e with type := f.type, semantics := f.semantics }
  type : ρ.signature e.type f.type
  semantics : List.Forall₂ (Semantics.Same ρ) e.semantics.toList f.semantics.toList

/-- The two types agree; hierarchy, generic parameters and members are paired in order. -/
structure TypeDef.Same (t u : TypeDef) : Prop where
  rest : u = { t with
    declaring := u.declaring, base := u.base, interfaces := u.interfaces, generics := u.generics
    fields := u.fields, methods := u.methods, properties := u.properties, events := u.events }
  declaring : Option.Rel ρ.pairs t.declaring u.declaring
  base : Option.Rel ρ.signature t.base u.base
  interfaces : List.Forall₂ ρ.signature t.interfaces.toList u.interfaces.toList
  generics : List.Forall₂ ρ.pairs t.generics.toList u.generics.toList
  fields : List.Forall₂ ρ.pairs t.fields.toList u.fields.toList
  methods : List.Forall₂ ρ.pairs t.methods.toList u.methods.toList
  properties : List.Forall₂ ρ.pairs t.properties.toList u.properties.toList
  events : List.Forall₂ ρ.pairs t.events.toList u.events.toList

end Objects

/-! ## States -/

/-- Paired objects of two arenas are there, and related by `R`. -/
def Arena.Paired {k : ObjectKind} {α : Type} (ρ : Pairing) (R : α → α → Prop) (a b : Arena k α) :
    Prop :=
  ∀ g h, ρ.pairs g h → ∃ x y, a.get? g = some x ∧ b.get? h = some y ∧ R x y

/-- The two maps hold paired objects for the same keys. -/
def WriteOnce.Paired {κ : Type} [Ord κ] {k : ObjectKind} (ρ : Pairing)
    (m n : WriteOnce κ (Handle k)) : Prop :=
  ∀ key, Option.Rel ρ.pairs (m.get? key) (n.get? key)

structure LinkTable.Same (ρ : Pairing) (t u : LinkTable) : Prop where
  types : t.types.Paired ρ u.types
  fields : t.fields.Paired ρ u.fields
  methods : t.methods.Paired ρ u.methods
  properties : t.properties.Paired ρ u.properties
  events : t.events.Paired ρ u.events

structure GenericRegistry.Same (ρ : Pairing) (r q : GenericRegistry) : Prop where
  scope : q.scope = r.scope
  params : r.params.Paired ρ q.params

/-- Paired objects are the same. -/
structure Store.Same (ρ : Pairing) (s u : Store) : Prop where
  types : s.types.Paired ρ (TypeDef.Same ρ) u.types
  generics : s.generics.Paired ρ (GenericParam.Same ρ) u.generics
  fields : s.fields.Paired ρ (FieldDef.Same ρ) u.fields
  params : s.params.Paired ρ Eq u.params
  methods : s.methods.Paired ρ (MethodDef.Same ρ) u.methods
  properties : s.properties.Paired ρ (PropertyDef.Same ρ) u.properties
  events : s.events.Paired ρ (EventDef.Same ρ) u.events

/-- What one build has made is under the same tokens and keys what another one has made, but for
the handles. -/
structure BuildState.Same (ρ : Pairing) (s s' : BuildState) : Prop where
  store : Store.Same ρ s.store s'.store
  links : LinkTable.Same ρ s.links s'.links
  registry : GenericRegistry.Same ρ s.registry s'.registry

/-- Two builds have made the same, up to the identity of objects. -/
def Isomorphic (s s' : BuildState) : Prop := ∃ ρ, BuildState.Same ρ s s'

/-! ## Paired lists -/

namespace Pairing

variable {ρ : Pairing} {k : ObjectKind}

/-- What is paired is equal on the one side exactly if it is on the other one. -/
theorem eq_iff {g g' h h' : Handle k} (hg : ρ.pairs g h) (hg' : ρ.pairs g' h') :
    g = g' ↔ h = h' := by
  constructor
  · rintro rfl
    exact ρ.functional hg hg'
  · rintro rfl
    exact ρ.injective hg hg'

/-- A handle is in a list exactly if the one paired with it is in the list paired with that. -/
theorem mem_iff {l l' : List (Handle k)} (hl : List.Forall₂ ρ.pairs l l') {g h : Handle k}
    (hg : ρ.pairs g h) : g ∈ l ↔ h ∈ l' := by
  induction hl with
  | nil => simp
  | cons hhead _ ih => rw [List.mem_cons, List.mem_cons, ih, eq_iff hg hhead]

/-- Paired objects are listed at the same places. -/
theorem listOnce {listed listed' : Array GenericHandle} {g h : GenericHandle}
    (hl : List.Forall₂ ρ.pairs listed.toList listed'.toList) (hg : ρ.pairs g h) :
    List.Forall₂ ρ.pairs (ClrImage.listOnce listed g).toList
      (ClrImage.listOnce listed' h).toList := by
  have hmem : listed.contains g = true ↔ listed'.contains h = true := by
    rw [Array.contains_iff_mem, Array.contains_iff_mem, ← Array.mem_toList_iff,
      ← Array.mem_toList_iff]
    exact mem_iff hl hg
  unfold ClrImage.listOnce
  by_cases hlisted : listed.contains g = true
  · rw [if_pos hlisted, if_pos (hmem.mp hlisted)]
    exact hl
  · rw [if_neg hlisted, if_neg (hlisted ∘ hmem.mpr), Array.toList_push, Array.toList_push]
    exact List.rel_append hl (.cons hg .nil)

theorem eraseDups {l l' : List GenericHandle} (hl : List.Forall₂ ρ.pairs l l') :
    List.Forall₂ ρ.pairs l.eraseDups l'.eraseDups := by
  rw [← foldl_listOnce, ← foldl_listOnce]
  suffices ∀ listed listed' : Array GenericHandle,
      List.Forall₂ ρ.pairs listed.toList listed'.toList →
      List.Forall₂ ρ.pairs (l.foldl ClrImage.listOnce listed).toList
        (l'.foldl ClrImage.listOnce listed').toList from this #[] #[] .nil
  induction hl with
  | nil => exact fun _ _ h => h
  | cons hhead _ ih => exact fun listed listed' h => ih _ _ (listOnce h hhead)

end Pairing

/-! ## Signatures of one reference -/

namespace TypeExpr

variable {α β γ : Type} {R : α → β → Prop} {S : α → γ → Prop}

mutual

/-- Two types that are built like a third one are built alike. -/
theorem Rel.meet : (x : TypeExpr α) → {y : TypeExpr β} → {z : TypeExpr γ} → x.Rel R y →
    x.Rel S z → y.Rel (fun b c => ∃ a, R a b ∧ S a c) z
  | .atom a, y, z, hy, hz => by
    cases y <;> cases z <;> simp only [Rel] at hy hz ⊢
    exact ⟨a, hy, hz⟩
  | .szArray a, y, z, hy, hz => by
    cases y <;> cases z <;> simp only [Rel] at hy hz ⊢
    exact Rel.meet a hy hz
  | .array a rank, y, z, hy, hz => by
    cases y <;> cases z <;> simp only [Rel] at hy hz ⊢
    exact ⟨Rel.meet a hy.1 hz.1, hy.2.symm.trans hz.2⟩
  | .pointer a, y, z, hy, hz => by
    cases y <;> cases z <;> simp only [Rel] at hy hz ⊢
    exact Rel.meet a hy hz
  | .byRef a, y, z, hy, hz => by
    cases y <;> cases z <;> simp only [Rel] at hy hz ⊢
    exact Rel.meet a hy hz
  | .inst d as, y, z, hy, hz => by
    cases y <;> cases z <;> simp only [Rel] at hy hz ⊢
    exact ⟨Rel.meet d hy.1 hz.1, RelAll.meet as hy.2 hz.2⟩

theorem RelAll.meet : (xs : List (TypeExpr α)) → {ys : List (TypeExpr β)} →
    {zs : List (TypeExpr γ)} → RelAll R xs ys → RelAll S xs zs →
    RelAll (fun b c => ∃ a, R a b ∧ S a c) ys zs
  | [], ys, zs, hy, hz => by
    cases ys <;> cases zs <;> simp only [RelAll] at hy hz ⊢
  | x :: xs, ys, zs, hy, hz => by
    cases ys <;> cases zs <;> simp only [RelAll] at hy hz ⊢
    exact ⟨Rel.meet x hy.1 hz.1, RelAll.meet xs hy.2 hz.2⟩

end

end TypeExpr

/-- A reference has paired signatures in two scopes in which its atoms stand for paired objects. -/
theorem Pairing.signature_of_resolve {ρ : Pairing} {s s' : Scope} {r : TypeRef}
    {sig sig' : Signature} (hnames : ∀ a b c, s.Names a b → s'.Names a c → ρ.atom b c)
    (h : s.resolve r = .ok sig) (h' : s'.resolve r = .ok sig') : ρ.signature sig sig' := by
  have hmeet := TypeExpr.Rel.meet r (Scope.resolve_rel h) (Scope.resolve_rel h')
  exact TypeExpr.Rel.mono (fun b c ⟨a, hb, hc⟩ => hnames a b c hb hc) _ _ hmeet

end ClrImage
