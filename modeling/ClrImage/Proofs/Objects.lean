import ClrImage.Proofs.Identity
import Mathlib.Order.Monotone.Defs

/-!
# Objects of every kind

What holds of the objects of one kind holds of those of the others: they are made in an arena of
their own, and two of them are the same if they agree but for handles that are paired. This module
states such facts once, for an object of any kind, and says how pairings grow.

- `Object`, `Store.arena`, `Build.alloc`: the objects of a kind, their arena, the step that makes
  one.
- `BuildState.Live`: the object of a handle is there. It stays there (`BuildState.Extends.live`).
- `ρ ≤ σ`: the pairing `σ` pairs whatever `ρ` pairs. What is the same under `ρ` is the same under
  `σ` (`Object.Same.mono`).
- `Pairing.insert`: one more pair of objects.
-/

namespace ClrImage

/-! ## Objects -/

/-- The objects of a kind. -/
abbrev Object : ObjectKind → Type
  | .type => TypeDef
  | .generic => GenericParam
  | .field => FieldDef
  | .param => ParamDef
  | .method => MethodDef
  | .property => PropertyDef
  | .event => EventDef

namespace Store

/-- The arena of a kind. -/
def arena (s : Store) : (k : ObjectKind) → Arena k (Object k)
  | .type => s.types
  | .generic => s.generics
  | .field => s.fields
  | .param => s.params
  | .method => s.methods
  | .property => s.properties
  | .event => s.events

/-- The store with another arena of a kind. -/
def withArena (s : Store) : (k : ObjectKind) → Arena k (Object k) → Store
  | .type, types => { s with types }
  | .generic, generics => { s with generics }
  | .field, fields => { s with fields }
  | .param, params => { s with params }
  | .method, methods => { s with methods }
  | .property, properties => { s with properties }
  | .event, events => { s with events }

@[simp] theorem arena_withArena (s : Store) (k : ObjectKind) (a : Arena k (Object k)) :
    (s.withArena k a).arena k = a := by
  cases k <;> rfl

theorem arena_withArena_of_ne (s : Store) {j k : ObjectKind} (a : Arena k (Object k))
    (h : j ≠ k) : (s.withArena k a).arena j = s.arena j := by
  cases j <;> cases k <;> first | rfl | exact absurd rfl h

end Store

/-- Makes an object. -/
def Build.alloc {k : ObjectKind} (x : Object k) : Build (Handle k) :=
  modifyGet fun s =>
    ((s.store.arena k).next,
      { s with store := s.store.withArena k ((s.store.arena k).alloc x) })

/-! ## Live objects -/

/-- The object of a handle is there. -/
def BuildState.Live (s : BuildState) {k : ObjectKind} (h : Handle k) : Prop :=
  ∃ x, (s.store.arena k).get? h = some x

/-- What is there stays there. -/
theorem BuildState.Extends.live {s s' : BuildState} (h : s.Extends s') {k : ObjectKind}
    {g : Handle k} (hg : s.Live g) : s'.Live g := by
  obtain ⟨x, hx⟩ := hg
  cases k
  case type => exact (h.types g x hx).imp fun _ => And.left
  case generic => exact (h.generics g x hx).imp fun _ => And.left
  case field => exact (h.fields g x hx).imp fun _ => And.left
  case param => exact (h.params g x hx).imp fun _ => And.left
  case method => exact (h.methods g x hx).imp fun _ => And.left
  case property => exact (h.properties g x hx).imp fun _ => And.left
  case event => exact (h.events g x hx).imp fun _ => And.left

/-- The object that is made next was not there before. -/
theorem BuildState.Extends.not_live_next {s s' : BuildState} (h : s.Extends s') (k : ObjectKind) :
    ¬ s.Live (s'.store.arena k).next := by
  intro hlive
  obtain ⟨x, hx⟩ := h.live hlive
  rw [Arena.get?_next] at hx
  cases hx

/-- Members never change once they are made. -/
theorem BuildState.Extends.get?_eq {s s' : BuildState} (h : s.Extends s') {k : ObjectKind}
    (htype : k ≠ .type) (hgeneric : k ≠ .generic) {g : Handle k} {x : Object k}
    (hx : (s.store.arena k).get? g = some x) : (s'.store.arena k).get? g = some x := by
  cases k
  case type => exact absurd rfl htype
  case generic => exact absurd rfl hgeneric
  case field => exact h.fields.get?_eq hx
  case param => exact h.params.get?_eq hx
  case method => exact h.methods.get?_eq hx
  case property => exact h.properties.get?_eq hx
  case event => exact h.events.get?_eq hx

/-! ## The order of pairings -/

namespace Pairing

variable {ρ σ : Pairing}

/-- Whatever the one pairing pairs, the other one pairs too. -/
instance : Preorder Pairing where
  le ρ σ := ∀ (k : ObjectKind) (g h : Handle k), ρ.pairs g h → σ.pairs g h
  le_refl _ _ _ _ := id
  le_trans _ _ _ h₁ h₂ k g h := h₂ k g h ∘ h₁ k g h

theorem pairs_mono (hle : ρ ≤ σ) {k : ObjectKind} {g h : Handle k} (hpair : ρ.pairs g h) :
    σ.pairs g h :=
  hle k g h hpair

theorem atom_mono (hle : ρ ≤ σ) (a b : SigAtom) (h : ρ.atom a b) : σ.atom a b := by
  cases a <;> cases b <;> first | exact h | exact pairs_mono hle h

theorem signature_mono (hle : ρ ≤ σ) {a b : Signature} (h : ρ.signature a b) :
    σ.signature a b :=
  TypeExpr.Rel.mono (atom_mono hle) a b h

/-- One more pair of objects, neither of which is paired yet. -/
def insert (ρ : Pairing) {k : ObjectKind} (g h : Handle k) (hg : ∀ h', ¬ ρ.pairs g h')
    (hh : ∀ g', ¬ ρ.pairs g' h) : Pairing where
  pairs {j} a b := ρ.pairs a b ∨ (j = k ∧ a.index = g.index ∧ b.index = h.index)
  functional := by
    rintro j a b b' (hb | ⟨rfl, ha, hb⟩) (hb' | ⟨hj, ha', hb'⟩)
    · exact ρ.functional hb hb'
    · subst hj
      obtain rfl : a = g := by cases a; cases g; cases ha'; rfl
      exact absurd hb (hg b)
    · obtain rfl : a = g := by cases a; cases g; cases ha; rfl
      exact absurd hb' (hg b')
    · cases b
      cases b'
      exact congrArg Handle.mk (hb.trans hb'.symm)
  injective := by
    rintro j a a' b (ha | ⟨rfl, ha, hb⟩) (ha' | ⟨hj, ha', hb'⟩)
    · exact ρ.injective ha ha'
    · subst hj
      obtain rfl : b = h := by cases b; cases h; cases hb'; rfl
      exact absurd ha (hh a)
    · obtain rfl : b = h := by cases b; cases h; cases hb; rfl
      exact absurd ha' (hh a')
    · cases a
      cases a'
      exact congrArg Handle.mk (ha.trans ha'.symm)

section Insert

variable {k : ObjectKind} {g h : Handle k} {hg : ∀ h', ¬ ρ.pairs g h'} {hh : ∀ g', ¬ ρ.pairs g' h}

theorem le_insert : ρ ≤ ρ.insert g h hg hh := fun _ _ _ => .inl

theorem insert_self : (ρ.insert g h hg hh).pairs g h := .inr ⟨rfl, rfl, rfl⟩

/-- A pair of the grown pairing is an old one or the new one. -/
theorem of_insert {j : ObjectKind} {a b : Handle j} (hpair : (ρ.insert g h hg hh).pairs a b) :
    ρ.pairs a b ∨ ∃ e : j = k, e ▸ a = g ∧ e ▸ b = h := by
  rcases hpair with hpair | ⟨rfl, ha, hb⟩
  · exact .inl hpair
  · refine .inr ⟨rfl, ?_, ?_⟩
    · cases a
      exact congrArg Handle.mk ha
    · cases b
      exact congrArg Handle.mk hb

end Insert

end Pairing

/-! ## Sameness under a larger pairing -/

section Mono

variable {ρ σ : Pairing} (hle : ρ ≤ σ)
include hle

theorem GenericParam.Same.mono {x y : GenericParam} (h : x.Same ρ y) : x.Same σ y :=
  ⟨h.rest, h.constraints.imp fun _ _ => Pairing.signature_mono hle⟩

theorem FieldDef.Same.mono {f g : FieldDef} (h : f.Same ρ g) : f.Same σ g :=
  ⟨h.rest, Pairing.signature_mono hle h.type⟩

theorem MethodSig.Same.mono {m n : MethodSig} (h : m.Same ρ n) : m.Same σ n :=
  ⟨h.rest, Pairing.signature_mono hle h.returnType,
    h.params.imp fun _ _ => Pairing.signature_mono hle⟩

theorem Operand.Same.mono {a b : Operand} (h : a.Same ρ b) : a.Same σ b := by
  cases h with
  | none => exact .none
  | slot index => exact .slot index
  | type h => exact .type (Pairing.signature_mono hle h)

theorem Body.Same.mono {b c : Body} (h : b.Same ρ c) : b.Same σ c :=
  ⟨h.rest, h.locals.imp fun _ _ => Pairing.signature_mono hle,
    h.code.imp fun _ _ hcode => ⟨hcode.opcode, hcode.operand.mono hle⟩⟩

theorem MethodDef.Same.mono {m n : MethodDef} (h : m.Same ρ n) : m.Same σ n where
  rest := h.rest
  signature := h.signature.mono hle
  generics := h.generics.imp fun _ _ => Pairing.pairs_mono hle
  params := h.params.imp fun _ _ => Pairing.pairs_mono hle
  body := rel_imp (fun _ _ => Body.Same.mono hle) h.body

theorem Semantics.Same.mono {a b : Semantics} (h : a.Same ρ b) : a.Same σ b :=
  ⟨h.role, Pairing.pairs_mono hle h.method⟩

theorem PropertyDef.Same.mono {p q : PropertyDef} (h : p.Same ρ q) : p.Same σ q :=
  ⟨h.rest, Pairing.signature_mono hle h.type, h.semantics.imp fun _ _ => Semantics.Same.mono hle⟩

theorem EventDef.Same.mono {e f : EventDef} (h : e.Same ρ f) : e.Same σ f :=
  ⟨h.rest, Pairing.signature_mono hle h.type, h.semantics.imp fun _ _ => Semantics.Same.mono hle⟩

theorem TypeDef.Same.mono {t u : TypeDef} (h : t.Same ρ u) : t.Same σ u where
  rest := h.rest
  declaring := rel_imp (fun _ _ => Pairing.pairs_mono hle) h.declaring
  base := rel_imp (fun _ _ => Pairing.signature_mono hle) h.base
  interfaces := h.interfaces.imp fun _ _ => Pairing.signature_mono hle
  generics := h.generics.imp fun _ _ => Pairing.pairs_mono hle
  fields := h.fields.imp fun _ _ => Pairing.pairs_mono hle
  methods := h.methods.imp fun _ _ => Pairing.pairs_mono hle
  properties := h.properties.imp fun _ _ => Pairing.pairs_mono hle
  events := h.events.imp fun _ _ => Pairing.pairs_mono hle

end Mono

/-- Two objects of a kind agree but for the handles that they hold, and those are paired. -/
def Object.Same (ρ : Pairing) : (k : ObjectKind) → Object k → Object k → Prop
  | .type => TypeDef.Same ρ
  | .generic => GenericParam.Same ρ
  | .field => FieldDef.Same ρ
  | .param => Eq
  | .method => MethodDef.Same ρ
  | .property => PropertyDef.Same ρ
  | .event => EventDef.Same ρ

/-- Objects that are the same under a pairing are so under a larger one. -/
theorem Object.Same.mono {ρ σ : Pairing} (hle : ρ ≤ σ) {k : ObjectKind} {x y : Object k}
    (h : Object.Same ρ k x y) : Object.Same σ k x y := by
  cases k
  case type => exact TypeDef.Same.mono hle h
  case generic => exact GenericParam.Same.mono hle h
  case field => exact FieldDef.Same.mono hle h
  case param => exact h
  case method => exact MethodDef.Same.mono hle h
  case property => exact PropertyDef.Same.mono hle h
  case event => exact EventDef.Same.mono hle h

end ClrImage
