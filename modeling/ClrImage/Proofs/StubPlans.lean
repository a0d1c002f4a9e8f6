import ClrImage.Proofs.Resolvable
import ClrImage.Proofs.SourcedBuilds
import ClrImage.Proofs.StackMachine

/-!
# Stubs by plan

A stub is made for the signature that a return type resolves to, by what the objects of the image
say about it. The same can be told from the plans: whether a reference is void, or **stands for
something that is stored in place**, shows in its outermost form, in the flavor that a plan gives to
a token, and in the flags of the parameter that is registered for an index.

- `Setup.PlansValueType`, `Image.LeavesOpen`, `Setup.StoredInPlace`: what plans and registered
  parameters tell of a reference.
- `DeclaredAs`: types have the flavors of their plans.
- `StubKind.of_eq_value_iff`: a reference is stored in place exactly if its signature asks for a
  value.
- `declaredAs_of_runBy`, `exists_planned_method`: the plans behind the types and the methods of an
  image.
- `stub_of_plan`: the stubs of all methods of an image, by their plans.
-/

namespace ClrImage

/-! ## What plans tell -/

/-- The token is that of a planned value type. -/
def Setup.PlansValueType (setup : Setup) (token : Token) : Prop :=
  ∃ q ∈ setup.types, q.token = token ∧ q.flavor = .valueType

/-- The parameter that is registered for an index may stand for a value type. -/
def Image.LeavesOpen (image : Image) (index : UInt32) (topLevel : Token) : Prop :=
  ∃ h x, image.registry.get? (image.registry.key index topLevel) = some h ∧
    image.store.generics.get? h = some x ∧ x.flags.contains GenericFlags.referenceType = false

/-- What the reference stands for below a type is stored in place: a primitive type other than
void, object and string, a value type or an instantiation of one, or a parameter that may be one. -/
inductive Setup.StoredInPlace (setup : Setup) (image : Image) (topLevel : Token) : TypeRef → Prop
  | primitive {q : Primitive} (hvoid : q ≠ .void) (hobject : q ≠ .object) (hstring : q ≠ .string) :
    StoredInPlace setup image topLevel (TypeRef.primitive q)
  | typeDef {token : Token} (hplanned : setup.PlansValueType token) :
    StoredInPlace setup image topLevel (TypeRef.typeDef token)
  | inst {token : Token} {args : List TypeRef} (hplanned : setup.PlansValueType token) :
    StoredInPlace setup image topLevel (.inst (TypeRef.typeDef token) args)
  | var {index : UInt32} (hopen : image.LeavesOpen index topLevel) :
    StoredInPlace setup image topLevel (TypeRef.var index)
  | mvar {index : UInt32} (hopen : image.LeavesOpen index topLevel) :
    StoredInPlace setup image topLevel (TypeRef.mvar index)

/-- The method under a token is listed in the type under another one. -/
def Image.ListsMethod (image : Image) (type token : Token) : Prop :=
  ∃ o t h, image.type? type = some o ∧ image.store.types.get? o = some t ∧ h ∈ t.methods ∧
    image.links.methods.get? token = some h

/-! ## Kinds of signatures -/

namespace StubKind

variable {s : Store}

theorem of_primitive (s : Store) (q : Primitive) :
    of s (Signature.primitive q) = .value ↔ q ≠ .void ∧ q ≠ .object ∧ q ≠ .string := by
  cases q <;> simp [of, Signature.primitive, Signature.isVoid, Store.paramOf?, Signature.param?,
    Store.isValueType, Primitive.isVoid, Primitive.isValueType]

/-- A parameter that is no more counts as a reference. -/
theorem of_param {sig : Signature} {h : GenericHandle}
    (hsig : sig = Signature.var h ∨ sig = Signature.mvar h) :
    of s sig = .value ↔
      ∃ x, s.generics.get? h = some x ∧ x.flags.contains GenericFlags.referenceType = false := by
  have hnotVoid : sig.isVoid = false := by obtain rfl | rfl := hsig <;> rfl
  have hparam : s.paramOf? sig = s.generics.get? h := by obtain rfl | rfl := hsig <;> rfl
  unfold of
  rw [hnotVoid, hparam]
  cases hget : s.generics.get? h with
  | none =>
    have hreference : s.isValueType sig = false := by
      obtain rfl | rfl := hsig <;>
      · show ((s.generics.get? h).map _).getD false = false
        rw [hget]
        rfl
    simp [hreference]
  | some x => cases hflag : x.flags.contains GenericFlags.referenceType <;> simp [hflag]

end StubKind

/-! ## Kinds of references -/

/-- The types of an image have the flavors that are planned for their tokens. -/
def DeclaredAs (setup : Setup) (image : Image) : Prop :=
  ∀ token h t, image.type? token = some h → image.store.types.get? h = some t →
    (t.flavor = .valueType ↔ setup.PlansValueType token)

section

variable {setup : Setup} {image : Image} {topLevel : Token} {r : TypeRef} {sig : Signature}

/-- Only the primitive type void resolves to void. -/
theorem StubKind.of_eq_void_iff (h : (image.scope topLevel).resolve r = .ok sig) :
    StubKind.of image.store sig = .void ↔ r = TypeRef.primitive .void := by
  have hrel := Scope.resolve_rel h
  rw [StubKind.of_eq_void]
  constructor
  · intro hvoid
    obtain rfl : sig = Signature.primitive .void := by
      unfold Signature.isVoid at hvoid
      split at hvoid
      next q => cases q <;> first | rfl | cases hvoid
      next => cases hvoid
    cases r with
    | atom a =>
      cases a with
      | primitive q =>
        obtain rfl : q = .void := hrel
        rfl
      | typeDef | var | mvar => exact hrel.elim
    | szArray | array | pointer | byRef | inst => exact hrel.elim
  · rintro rfl
    obtain rfl : sig = Signature.primitive .void := by
      cases h
      rfl
    rfl

/-- A token stands for a value type exactly if it is planned as one. -/
theorem DeclaredAs.kind_iff (hdeclared : DeclaredAs setup image) {token : Token} {b : SigAtom}
    (hnames : (image.scope topLevel).Names (.typeDef token) b) (args : List Signature) :
    (StubKind.of image.store (.atom b) = .value ↔ setup.PlansValueType token) ∧
      (StubKind.of image.store (.inst (.atom b) args) = .value ↔ setup.PlansValueType token) := by
  cases b with
  | classType h =>
    obtain ⟨hlink, t, ht, hflavor⟩ := hnames
    have hplanned := mt (hdeclared token h t hlink ht).mpr hflavor
    exact ⟨iff_of_false (fun hkind => nomatch hkind) hplanned,
      iff_of_false (fun hkind => nomatch hkind) hplanned⟩
  | valueType h =>
    obtain ⟨hlink, t, ht, hflavor⟩ := hnames
    have hplanned := (hdeclared token h t hlink ht).mp hflavor
    exact ⟨iff_of_true rfl hplanned, iff_of_true rfl hplanned⟩
  | primitive | var | mvar => exact hnames.elim

/-- A registered parameter asks for a value exactly if it leaves open whether it is one. -/
theorem Image.leavesOpen_iff {index : UInt32} {g : GenericHandle}
    (hheld : image.registry.get? (image.registry.key index topLevel) = some g)
    (hsig : sig = Signature.var g ∨ sig = Signature.mvar g) :
    StubKind.of image.store sig = .value ↔ image.LeavesOpen index topLevel := by
  rw [StubKind.of_param hsig]
  constructor
  · rintro ⟨x, hx, hflag⟩
    exact ⟨g, x, hheld, hx, hflag⟩
  · rintro ⟨g', x, hheld', hx, hflag⟩
    obtain rfl := Option.some.inj (hheld.symm.trans hheld')
    exact ⟨x, hx, hflag⟩

/-- What an atom names is stored in place exactly if it asks for a value. -/
theorem StubKind.of_atom_eq_value_iff (hdeclared : DeclaredAs setup image) {a : RefAtom}
    {b : SigAtom} (hnames : (image.scope topLevel).Names a b) :
    StubKind.of image.store (.atom b) = .value ↔
      setup.StoredInPlace image topLevel (.atom a) := by
  cases a with
  | primitive q =>
    cases b with
    | primitive q' =>
      obtain rfl : q = q' := hnames
      refine (StubKind.of_primitive image.store q).trans ⟨?_, ?_⟩
      · rintro ⟨hvoid, hobject, hstring⟩
        exact .primitive hvoid hobject hstring
      · rintro (⟨hvoid, hobject, hstring⟩ | _ | _ | _ | _)
        exact ⟨hvoid, hobject, hstring⟩
    | classType | valueType | var | mvar => exact hnames.elim
  | typeDef token =>
    refine (hdeclared.kind_iff hnames []).1.trans ⟨.typeDef, ?_⟩
    rintro (_ | ⟨hplanned⟩ | _ | _ | _)
    exact hplanned
  | var index =>
    cases b with
    | var g =>
      refine (Image.leavesOpen_iff hnames (.inl rfl)).trans ⟨.var, ?_⟩
      rintro (_ | _ | _ | ⟨hopen⟩ | _)
      exact hopen
    | primitive | classType | valueType | mvar => exact hnames.elim
  | mvar index =>
    cases b with
    | mvar g =>
      refine (Image.leavesOpen_iff hnames (.inr rfl)).trans ⟨.mvar, ?_⟩
      rintro (_ | _ | _ | _ | ⟨hopen⟩)
      exact hopen
    | primitive | classType | valueType | var => exact hnames.elim

/-- A reference is stored in place exactly if its signature asks for a value. -/
theorem StubKind.of_eq_value_iff (hdeclared : DeclaredAs setup image)
    (h : (image.scope topLevel).resolve r = .ok sig) :
    StubKind.of image.store sig = .value ↔ setup.StoredInPlace image topLevel r := by
  have hrel := Scope.resolve_rel h
  have hwell : r.WellFormed := (Scope.canResolve_iff.mp ⟨sig, h⟩).2.1
  cases r with
  | atom a =>
    cases sig with
    | atom b => exact StubKind.of_atom_eq_value_iff hdeclared hrel
    | szArray | array | pointer | byRef | inst => exact hrel.elim
  | inst definition args =>
    obtain ⟨-, ⟨token, rfl⟩, -⟩ := hwell
    cases sig with
    | inst d sigs =>
      obtain ⟨hdefinition, -⟩ := hrel
      cases d with
      | atom b =>
        refine (hdeclared.kind_iff hdefinition sigs).2.trans ⟨.inst, ?_⟩
        rintro (_ | _ | ⟨hplanned⟩ | _ | _)
        exact hplanned
      | szArray | array | pointer | byRef | inst => exact hdefinition.elim
    | atom | szArray | array | pointer | byRef => exact hrel.elim
  | szArray | array | pointer | byRef =>
    -- arrays, pointers and references to variables are references whatever they are made of
    refine iff_of_false (fun hkind => ?_) (fun hplace => nomatch hplace)
    cases sig with
    | szArray | array | pointer | byRef => cases hkind
    | atom | inst => exact hrel.elim

/-- The three stubs differ in their code. -/
theorem stub_eq_iff (s : Store) (sig : Signature) :
    (stub s sig = voidStub ↔ StubKind.of s sig = .void) ∧
    (stub s sig = valueStub sig ↔ StubKind.of s sig = .value) ∧
    (stub s sig = nullStub ↔ StubKind.of s sig = .reference) := by
  have hvoid : voidStub.code.length = 1 := rfl
  have hvalue : (valueStub sig).code.length = 4 := rfl
  have hnull : nullStub.code.length = 2 := rfl
  rw [stub_eq]
  cases StubKind.of s sig <;> grind

end

/-! ## Images and their plans -/

section

variable {setup : Setup} (hresolver : setup.resolver = Resolver.default) {σ : Schedules}
  {image : Image} {s : BuildState} (hrun : setup.runBy σ = (.ok image, s))
include hresolver hrun

/-- The types of an image have the flavors of their plans. -/
theorem declaredAs_of_runBy : DeclaredAs setup image := by
  obtain ⟨s₀, s₁, hdeclared, hplaces, -, rfl⟩ := grounded_of_runBy hresolver hrun
  intro token h t hlink ht
  have hlink₀ : s₀.links.types.get? token = some h := hplaces.linkedTypes ▸ hlink
  obtain ⟨p, hp, rfl⟩ := hdeclared.planned token h hlink₀
  obtain ⟨h', outer, hlink', ht'⟩ := hdeclared.linked p hp
  obtain rfl := Option.some.inj (hlink₀.symm.trans hlink')
  have hflavor : t.flavor = p.flavor := by
    obtain ⟨hnone, -⟩ | ⟨t₀, t₁, ht₀, ht₁, hplace⟩ := rel_cases (hplaces.types h)
    · cases ht'.symm.trans hnone
    · obtain rfl := Option.some.inj (ht'.symm.trans ht₀)
      obtain rfl := Option.some.inj (ht.symm.trans ht₁)
      exact hplace.flavor
  constructor
  · intro hvalue
    exact ⟨p, hp, rfl, hflavor.symm.trans hvalue⟩
  · rintro ⟨q, hq, htoken, hvalue⟩
    obtain rfl := List.inj_on_of_nodup_map hdeclared.nodup hq hp htoken
    exact hflavor.trans hvalue

/-- A method of an image was made from the plan of the type that lists it. -/
theorem exists_planned_method {token : Token} {d : MethodDef}
    (hmethod : image.method? token = some d) :
    ∃ p ∈ setup.types, ∃ m ∈ p.methods, m.token = token ∧ image.ListsMethod p.token token ∧
      MethodMirrored (image.scope (setup.blueprint.topLevel p)) m d := by
  obtain ⟨-, s₁, -, -, hgrounded, rfl⟩ := grounded_of_runBy hresolver hrun
  obtain ⟨h, hlink, hd⟩ := Option.bind_eq_some_iff.mp hmethod
  -- the method is linked under its own token, and listed in a type
  obtain ⟨⟨d', hd', htoken⟩, o, t, ht, hmem⟩ := hgrounded.linked token h hlink
  obtain rfl : d = d' := Option.some.inj (hd.symm.trans hd')
  obtain ⟨p, hp, htype⟩ := hgrounded.known o t ht
  obtain ⟨_, m, hm, -, d', hd', hmirrored⟩ :=
    (hgrounded.of_type hp htype ht).members .method h hmem
  obtain rfl : d = d' := Option.some.inj (hd.symm.trans hd')
  exact ⟨p, hp, m, hm, hmirrored.token.symm.trans htoken, ⟨o, t, h, htype, ht, hmem, hlink⟩,
    hmirrored⟩

/-- **Stubs can be told from plans.** Every method of an image was made from a plan, and if it
expects a body, the return reference in that plan decides on it: the method returns at once exactly
if the reference is void, a local of the resolved type that it initialises exactly if the reference
is stored in place, and the null reference in all other cases. So it is for every schedule by which
types are processed side by side. -/
theorem stub_of_plan {token : Token} {d : MethodDef} (hmethod : image.method? token = some d)
    (hbody : d.expectsBody = true) :
    (∃ p ∈ setup.types, ∃ m ∈ p.methods, m.token = token ∧ image.ListsMethod p.token token ∧
      MethodMirrored (image.scope (setup.blueprint.topLevel p)) m d) ∧
    ∀ p ∈ setup.types, ∀ m ∈ p.methods,
      MethodMirrored (image.scope (setup.blueprint.topLevel p)) m d →
      (d.body = some voidStub ↔ m.returnType = TypeRef.primitive .void) ∧
      (d.body = some (valueStub d.signature.returnType) ↔
        setup.StoredInPlace image (setup.blueprint.topLevel p) m.returnType) ∧
      (d.body = some nullStub ↔ m.returnType ≠ TypeRef.primitive .void ∧
        ¬ setup.StoredInPlace image (setup.blueprint.topLevel p) m.returnType) := by
  refine ⟨exists_planned_method hresolver hrun hmethod, ?_⟩
  intro p hp m hm hmirrored
  have hdeclared := declaredAs_of_runBy hresolver hrun
  have hvoid := StubKind.of_eq_void_iff hmirrored.returnType
  have hvalue := StubKind.of_eq_value_iff hdeclared hmirrored.returnType
  obtain ⟨hvoidStub, hvalueStub, hnullStub⟩ := stub_eq_iff image.store d.signature.returnType
  have hstub : d.body = some (stub image.store d.signature.returnType) := by
    rw [hmirrored.body, if_pos hbody]
    rfl
  rw [hstub, Option.some.injEq, Option.some.injEq, Option.some.injEq, hvoidStub, hvalueStub,
    hnullStub, ne_eq, ← hvoid, ← hvalue]
  refine ⟨Iff.rfl, Iff.rfl, ?_⟩
  cases StubKind.of image.store d.signature.returnType <;> simp

end

/-- The types of the gallery, processed side by side. -/
def openGallery : Setup := { gallery with config := { gallery.config with concurrent := true } }

/-- The getter of the holder returns a parameter of its own. -/
theorem stub_of_plan_openGallery :
    ∃ σ image s d, openGallery.runBy σ = (.ok image, s) ∧
      image.method? getValue.token = some d ∧ d.expectsBody = true ∧
      ∃ p ∈ openGallery.types, ∃ m ∈ p.methods, m.token = getValue.token ∧
        (d.body = some (valueStub d.signature.returnType) ↔
          openGallery.StoredInPlace image (openGallery.blueprint.topLevel p) m.returnType) := by
  let σ : Schedules := { populating := { turns := [1, 0, 1, 0, 1, 1, 0] } }
  obtain ⟨image, s, hrun⟩ := openGallery.runBy_of_isOk (σ := σ) (by decide +kernel)
  have hexpects : ((openGallery.runBy σ).1.toOption.bind (·.method? getValue.token)).any
      MethodDef.expectsBody = true := by decide +kernel
  rw [hrun] at hexpects
  obtain ⟨d, hmethod, hbody⟩ := (Option.any_eq_true _ _).mp hexpects
  obtain ⟨⟨p, hp, m, hm, htoken, -, hmirrored⟩, hstubs⟩ := stub_of_plan rfl hrun hmethod hbody
  exact ⟨σ, image, s, d, hrun, hmethod, hbody, p, hp, m, hm, htoken,
    (hstubs p hp m hm hmirrored).2.1⟩

end ClrImage
