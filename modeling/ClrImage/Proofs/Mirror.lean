import ClrImage.Proofs.Shapes
import ClrImage.Proofs.Staging

/-!
# Mirrored members

What it means that the members of an image are those of a plan. A member is read against the tables
of the image, and what is true of it stays true when the tables grow.

- `FieldMirrored`, `ParamMirrored`, `MethodMirrored`, `PropertyMirrored`, `EventMirrored`: one
  member and its plan.
- `MembersMirrored`: all members of a type, in order, linked under their tokens.
- `stub_extends`: the stub of a resolved type does not change any more.
- `MembersMirrored.mono`: members stay mirrored in a build that goes on.
-/

namespace ClrImage

/-! ## Members and their plans -/

/-- A field is what its plan says. A constant or initial data is attached exactly if the flags
announce it and the plan has it. -/
structure FieldMirrored (scope : Scope) (f : FieldPlan) (d : FieldDef) : Prop where
  token : d.token = f.token
  name : d.name = f.name
  flags : d.flags = f.flags
  isStatic : d.isStatic = f.flags.contains FieldFlags.static
  type : scope.resolve f.type = .ok d.type
  constant : d.constant = if f.flags.contains FieldFlags.hasDefault then f.default else none
  initialData : d.initialData =
    if f.flags.contains FieldFlags.hasInitialData then f.initialData else none

/-- A parameter is what its plan says, numbered by its position from one on. -/
structure ParamMirrored (p : ParamPlan) (position : Nat) (d : ParamDef) : Prop where
  sequence : d.sequence.toNat = position + 1
  name : d.name = p.name
  flags : d.flags = p.flags
  constant : d.constant = if p.flags.contains ParamFlags.hasDefault then p.default else none

/-- A method is what its plan says, and it has a stub exactly if it expects a body. -/
structure MethodMirrored (scope : Scope) (m : MethodPlan) (d : MethodDef) : Prop where
  token : d.token = m.token
  name : d.name = m.name
  flags : d.flags = m.flags
  implFlags : d.implFlags = m.implFlags
  hasThis : d.signature.hasThis = !m.flags.isStatic
  returnType : scope.resolve m.returnType = .ok d.signature.returnType
  paramTypes : scope.Resolves (m.params.toList.map (·.type)) d.signature.params
  params : List.Forall₂ (fun entry h =>
    ∃ x, scope.store.params.get? h = some x ∧ ParamMirrored entry.1 entry.2 x)
    m.params.toList.zipIdx d.params.toList
  generics : scope.Lists (m.generics.getD #[]).toList d.generics
  genericCount : d.signature.genericCount = d.generics.size
  body : d.body =
    if d.expectsBody then some (stub scope.store d.signature.returnType) else none

/-- The accessors that a property plans, in order. -/
def PropertyPlan.accessors (p : PropertyPlan) : List (Accessor × MethodPlan) :=
  (p.getter.map (Accessor.getter, ·)).toList ++ (p.setter.map (Accessor.setter, ·)).toList

/-- The accessors that an event plans, in order. -/
def EventPlan.accessors (e : EventPlan) : List (Accessor × MethodPlan) :=
  (e.add.map (Accessor.add, ·)).toList ++ (e.remove.map (Accessor.remove, ·)).toList ++
    (e.raise.map (Accessor.raise, ·)).toList

/-- The accessors are wired in order, each in its role to the method that is found under its
token. -/
def AccessorsWired (find : Token → Option MethodHandle) :
    List (Accessor × MethodPlan) → List Semantics → Prop :=
  List.Forall₂ fun a x => x.role = a.1.role ∧ find a.2.token = some x.method

structure PropertyMirrored (scope : Scope) (find : Token → Option MethodHandle) (p : PropertyPlan)
    (d : PropertyDef) : Prop where
  token : d.token = p.token
  name : d.name = p.name
  flags : d.flags = p.flags
  hasThis : d.hasThis = !p.isStatic
  type : scope.resolve p.type = .ok d.type
  semantics : AccessorsWired find p.accessors d.semantics.toList

structure EventMirrored (scope : Scope) (find : Token → Option MethodHandle) (e : EventPlan)
    (d : EventDef) : Prop where
  token : d.token = e.token
  name : d.name = e.name
  flags : d.flags = e.flags
  type : scope.resolve e.type = .ok d.type
  semantics : AccessorsWired find e.accessors d.semantics.toList

/-- The members of a type are those of its plan, one to one and in order. Each is linked under its
token, and references and accessors are read against the final tables. -/
structure MembersMirrored (scope : Scope) (p : TypePlan) (t : TypeDef) : Prop where
  fields : List.Forall₂ (fun f h => scope.links.fields.get? f.token = some h ∧
    ∃ d, scope.store.fields.get? h = some d ∧ FieldMirrored scope f d)
    p.fields.toList t.fields.toList
  methods : List.Forall₂ (fun m h => scope.links.methods.get? m.token = some h ∧
    ∃ d, scope.store.methods.get? h = some d ∧ MethodMirrored scope m d)
    p.methods.toList t.methods.toList
  properties : List.Forall₂ (fun q h => scope.links.properties.get? q.token = some h ∧
    ∃ d, scope.store.properties.get? h = some d ∧
      PropertyMirrored scope scope.links.methods.get? q d)
    p.properties.toList t.properties.toList
  events : List.Forall₂ (fun e h => scope.links.events.get? e.token = some h ∧
    ∃ d, scope.store.events.get? h = some d ∧ EventMirrored scope scope.links.methods.get? e d)
    p.events.toList t.events.toList

/-! ## Stubs of resolved types -/

namespace Scope

variable {s : Scope}

/-- What an atom resolves to is a registered generic parameter, or a type whose storage does not
depend on generic parameters. -/
theorem resolveAtom_shape {a : RefAtom} {sig : Signature} (h : s.resolveAtom a = .ok sig) :
    (∃ g key, sig.param? = some g ∧ s.registry.get? key = some g) ∨
    (sig.param? = none ∧
      ∀ store store' : Store, store.isValueType sig = store'.isValueType sig) := by
  cases a with
  | primitive p =>
    obtain rfl := Except.ok.inj h
    exact .inr ⟨rfl, fun _ _ => rfl⟩
  | typeDef token =>
    unfold resolveAtom resolveTypeDef at h
    dsimp only at h
    split at h
    next => cases h
    next =>
      split at h
      next => cases h
      next g _ =>
        split at h
        next => cases h
        next t _ =>
          obtain rfl := Except.ok.inj h
          split
          · exact .inr ⟨rfl, fun _ _ => rfl⟩
          · exact .inr ⟨rfl, fun _ _ => rfl⟩
  | var index =>
    obtain ⟨g, hg, rfl⟩ := map_eq_ok.mp h
    exact .inl ⟨g, _, rfl, resolveIndex_eq_ok.mp hg⟩
  | mvar index =>
    obtain ⟨g, hg, rfl⟩ := map_eq_ok.mp h
    exact .inl ⟨g, _, rfl, resolveIndex_eq_ok.mp hg⟩

/-- The same for any reference. Only atoms resolve to parameters, and what is built around others
has a storage of its own. -/
theorem resolve_shape {r : TypeRef} {sig : Signature} (h : s.resolve r = .ok sig) :
    (∃ g key, sig.param? = some g ∧ s.registry.get? key = some g) ∨
    (sig.param? = none ∧
      ∀ store store' : Store, store.isValueType sig = store'.isValueType sig) := by
  unfold resolve at h
  cases r with
  | atom a =>
    unfold resolveAt at h
    obtain ⟨-, -, h⟩ := bind_eq_ok.mp h
    exact resolveAtom_shape h
  | szArray elem =>
    unfold resolveAt at h
    obtain ⟨-, -, h⟩ := bind_eq_ok.mp h
    obtain ⟨e, -, h⟩ := bind_eq_ok.mp h
    obtain rfl := Except.ok.inj h
    exact .inr ⟨rfl, fun _ _ => rfl⟩
  | array elem rank =>
    unfold resolveAt at h
    obtain ⟨-, -, h⟩ := bind_eq_ok.mp h
    split at h
    next => cases h
    next =>
      obtain ⟨e, -, h⟩ := bind_eq_ok.mp h
      obtain rfl := Except.ok.inj h
      exact .inr ⟨rfl, fun _ _ => rfl⟩
  | pointer elem =>
    unfold resolveAt at h
    obtain ⟨-, -, h⟩ := bind_eq_ok.mp h
    obtain ⟨e, -, h⟩ := bind_eq_ok.mp h
    obtain rfl := Except.ok.inj h
    exact .inr ⟨rfl, fun _ _ => rfl⟩
  | byRef elem =>
    unfold resolveAt at h
    obtain ⟨-, -, h⟩ := bind_eq_ok.mp h
    obtain ⟨e, -, h⟩ := bind_eq_ok.mp h
    obtain rfl := Except.ok.inj h
    exact .inr ⟨rfl, fun _ _ => rfl⟩
  | inst definition args =>
    unfold resolveAt at h
    obtain ⟨-, -, h⟩ := bind_eq_ok.mp h
    split at h
    next => cases h
    next =>
      obtain ⟨d, -, h⟩ := bind_eq_ok.mp h
      split at h
      next hdeclared =>
        obtain ⟨sigs, -, h⟩ := bind_eq_ok.mp h
        obtain rfl := Except.ok.inj h
        -- the definition is a declared type, so it is no parameter
        refine .inr ⟨rfl, fun store store' => ?_⟩
        unfold Signature.isDeclared at hdeclared
        split at hdeclared
        · rfl
        · rfl
        · cases hdeclared
      next => cases h

end Scope

/-- The stub of a resolved type does not change any more. -/
theorem stub_extends {s s' : BuildState} (h : s.Extends s') (hclosed : s.RegistryClosed)
    {topLevel : Token} {r : TypeRef} {sig : Signature}
    (hsig : (s.scope topLevel).resolve r = .ok sig) : stub s'.store sig = stub s.store sig := by
  have hkind : StubKind.of s'.store sig = StubKind.of s.store sig := by
    unfold StubKind.of Store.paramOf?
    rcases Scope.resolve_shape hsig with ⟨g, key, hparam, hg⟩ | ⟨hparam, hvalue⟩
    · obtain ⟨x, hx⟩ := hclosed key g hg
      obtain ⟨y, hy, halike⟩ := h.generics g x hx
      simp only [hparam, Option.bind_some, hx, hy, halike.flags]
    · simp only [hparam, Option.bind_none, hvalue s'.store s.store]
  unfold stub
  rw [hkind]

/-! ## Growth -/

theorem FieldMirrored.mono {scope scope' : Scope} (h : scope.Extends scope') {f : FieldPlan}
    {d : FieldDef} (hd : FieldMirrored scope f d) : FieldMirrored scope' f d :=
  { hd with type := Scope.resolve_extends h hd.type }

theorem AccessorsWired.mono {find find' : Token → Option MethodHandle}
    (h : ∀ token m, find token = some m → find' token = some m)
    {accessors : List (Accessor × MethodPlan)} {semantics : List Semantics}
    (hs : AccessorsWired find accessors semantics) : AccessorsWired find' accessors semantics :=
  hs.imp fun _ _ hx => ⟨hx.1, h _ _ hx.2⟩

theorem PropertyMirrored.mono {scope scope' : Scope} (h : scope.Extends scope')
    {find find' : Token → Option MethodHandle}
    (hfind : ∀ token m, find token = some m → find' token = some m) {p : PropertyPlan}
    {d : PropertyDef} (hd : PropertyMirrored scope find p d) :
    PropertyMirrored scope' find' p d :=
  { hd with type := Scope.resolve_extends h hd.type, semantics := hd.semantics.mono hfind }

theorem EventMirrored.mono {scope scope' : Scope} (h : scope.Extends scope')
    {find find' : Token → Option MethodHandle}
    (hfind : ∀ token m, find token = some m → find' token = some m) {e : EventPlan}
    {d : EventDef} (hd : EventMirrored scope find e d) : EventMirrored scope' find' e d :=
  { hd with type := Scope.resolve_extends h hd.type, semantics := hd.semantics.mono hfind }

section

variable {s s' : BuildState} (h : s.Extends s') (hclosed : s.RegistryClosed) {topLevel : Token}
include h hclosed

theorem MethodMirrored.mono {m : MethodPlan} {d : MethodDef}
    (hd : MethodMirrored (s.scope topLevel) m d) : MethodMirrored (s'.scope topLevel) m d where
  token := hd.token
  name := hd.name
  flags := hd.flags
  implFlags := hd.implFlags
  hasThis := hd.hasThis
  returnType := Scope.resolve_extends (h.scope topLevel) hd.returnType
  paramTypes := hd.paramTypes.mono (h.scope topLevel)
  params := by
    refine hd.params.imp ?_
    rintro ⟨p, position⟩ g ⟨x, hx, hmirrored⟩
    exact ⟨x, h.params.get?_eq hx, hmirrored⟩
  generics := hd.generics.mono (h.scope topLevel)
  genericCount := hd.genericCount
  body := by
    rw [hd.body]
    show _ = if d.expectsBody then some (stub s'.store d.signature.returnType) else none
    rw [stub_extends h hclosed hd.returnType]
    rfl

/-- Members stay mirrored in a build that goes on. -/
theorem MembersMirrored.mono {p : TypePlan} {t : TypeDef}
    (ht : MembersMirrored (s.scope topLevel) p t) : MembersMirrored (s'.scope topLevel) p t where
  fields := by
    refine ht.fields.imp ?_
    rintro f g ⟨hlink, d, hd, hmirrored⟩
    exact ⟨h.links.fields _ _ hlink, d, h.fields.get?_eq hd, hmirrored.mono (h.scope topLevel)⟩
  methods := by
    refine ht.methods.imp ?_
    rintro m g ⟨hlink, d, hd, hmirrored⟩
    exact ⟨h.links.methods _ _ hlink, d, h.methods.get?_eq hd, hmirrored.mono h hclosed⟩
  properties := by
    refine ht.properties.imp ?_
    rintro q g ⟨hlink, d, hd, hmirrored⟩
    exact ⟨h.links.properties _ _ hlink, d, h.properties.get?_eq hd,
      hmirrored.mono (h.scope topLevel) fun _ _ hm => h.links.methods _ _ hm⟩
  events := by
    refine ht.events.imp ?_
    rintro e g ⟨hlink, d, hd, hmirrored⟩
    exact ⟨h.links.events _ _ hlink, d, h.events.get?_eq hd,
      hmirrored.mono (h.scope topLevel) fun _ _ hm => h.links.methods _ _ hm⟩

end

end ClrImage
