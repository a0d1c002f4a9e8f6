import ClrImage.Proofs.Closure

/-!
# Isolated top-level types

If a registry tells indices apart by top-level type, then nothing about generic parameters crosses
from one top-level type to another: neither lists of parameters, nor owners, nor what signatures
name. The key of a parameter says below which top-level type it counts, and all ways of coming by a
parameter go through that key.

- `Image.ListsFor`, `Image.CarriesFor`: the parameters and the signatures of a type in an image.
- `Setup.LiesUnder`, `Image.OwnedUnder`: owners below a top-level type.
- `Isolates`: no parameter is shared between two top-level types.
- `top_level_types_isolated`: every image of such a build isolates its top-level types.
-/

namespace ClrImage

/-! ## What belongs to a type -/

/-- The parameter stands in the list of the plan's type, or in that of one of its methods. -/
inductive Image.ListsFor (image : Image) (p : TypePlan) (h : GenericHandle) : Prop
  | ofType {o : TypeHandle} {t : TypeDef} (linked : image.type? p.token = some o)
      (type : image.store.types.get? o = some t) (listed : h ∈ t.generics)
  | ofMethod {o : TypeHandle} {t : TypeDef} {m : MethodHandle} {d : MethodDef}
      (linked : image.type? p.token = some o) (type : image.store.types.get? o = some t)
      (mem : m ∈ t.methods) (method : image.store.methods.get? m = some d)
      (listed : h ∈ d.generics)

/-- The signatures of a plan's type: in its hierarchy and its members, and in the constraints of the
parameters that it or one of its methods lists or owns. -/
inductive Image.CarriesFor (image : Image) (p : TypePlan) (sig : Signature) : Prop
  | ofType {o : TypeHandle} {t : TypeDef} (linked : image.type? p.token = some o)
      (type : image.store.types.get? o = some t) (carried : t.Carries image.store sig)
  | constraint {h : GenericHandle} {x : GenericParam}
      (object : image.store.generics.get? h = some x)
      (mem : image.ListsFor p h ∨ ∃ o ∈ x.owners, p.Contains o) (attached : sig ∈ x.constraints)

/-- The owner is planned, and in every plan that contains it, it lies below the top-level type. -/
def Setup.LiesUnder (setup : Setup) (owner : GenericOwner) (topLevel : Token) : Prop :=
  (∃ p ∈ setup.types, p.Contains owner) ∧
    ∀ p ∈ setup.types, p.Contains owner → setup.blueprint.topLevel p = topLevel

/-- The parameter is there, has owners, and all of them lie below the top-level type. -/
def Image.OwnedUnder (image : Image) (setup : Setup) (h : GenericHandle) (topLevel : Token) :
    Prop :=
  ∃ x, image.store.generics.get? h = some x ∧ x.owners ≠ #[] ∧
    ∀ o ∈ x.owners, setup.LiesUnder o topLevel

/-- No generic parameter crosses from one top-level type to another. -/
structure Isolates (setup : Setup) (image : Image) : Prop where
  /-- Types and methods with a common parameter lie below one top-level type. -/
  lists : ∀ p ∈ setup.types, ∀ q ∈ setup.types, ∀ h, image.ListsFor p h → image.ListsFor q h →
    setup.blueprint.topLevel p = setup.blueprint.topLevel q
  /-- All owners of a parameter lie below one top-level type. -/
  owners : ∀ h x, image.store.generics.get? h = some x →
    ∃ topLevel, image.OwnedUnder setup h topLevel
  /-- Whatever parameter a signature of a type names is owned below the type's own top-level
  type. -/
  signatures : ∀ p ∈ setup.types, ∀ sig, image.CarriesFor p sig →
    ∀ g, SigAtom.var g ∈ sig.atoms ∨ SigAtom.mvar g ∈ sig.atoms →
      image.OwnedUnder setup g (setup.blueprint.topLevel p)

/-! ## Keys and top-level types -/

/-- Equal keys stand below equal top-level types. -/
theorem Setup.topLevel_eq_of_keyAt_eq {setup : Setup}
    (hscope : setup.config.registryScope = .perTopLevelType) {p q : TypePlan} {i j : UInt32}
    (h : setup.keyAt p i = setup.keyAt q j) :
    setup.blueprint.topLevel p = setup.blueprint.topLevel q := by
  unfold keyAt GenericRegistry.key at h
  simp only [hscope] at h
  exact Option.some.inj (congrArg GenericKey.scope h)

/-- A container stands in the plan of one type. -/
theorem Setup.DistinctTokens.of_contains {setup : Setup} (hdistinct : setup.DistinctTokens)
    {p q : TypePlan} (hp : p ∈ setup.types) (hq : q ∈ setup.types) {owner : GenericOwner}
    (howner : p.Contains owner) (howner' : q.Contains owner) : q = p := by
  cases howner with
  | type =>
    by_contra hne
    refine hdistinct.disjoint hp hq hne List.mem_cons_self ?_
    generalize howner : GenericOwner.type p.token = owner at howner'
    cases howner' with
    | type => exact GenericOwner.type.inj howner ▸ List.mem_cons_self
    | method => cases howner
  | @method m hm =>
    generalize howner : GenericOwner.method m.token = owner at howner'
    cases howner' with
    | type => cases howner
    | method hn =>
      exact hdistinct.of_method hp hq (Array.mem_toList_iff.mpr hm) (Array.mem_toList_iff.mpr hn)
        (GenericOwner.method.inj howner).symm

/-- What is mentioned for an owner is mentioned in a plan that contains it. -/
theorem TypePlan.Mentions.contains {p : TypePlan} {owner : GenericOwner} {r : TypeRef}
    (h : p.Mentions owner r) : p.Contains owner := by
  cases h with
  | methodConstraint hm => exact .method hm
  | _ => exact .type

section Parameters

variable {setup : Setup} {s : BuildState} {p : TypePlan} {i : UInt32} {h : GenericHandle}

/-- Every owner of a parameter may own it under the parameter's key, and so may its maker. -/
theorem Sourced.mayOwn (hs : Sourced setup s) {x : GenericParam} {k : GenericKey}
    (hk : s.registry.get? k = some h) (hx : s.store.generics.get? h = some x) :
    setup.MayOwn k x.declaredBy ∧ ∀ o ∈ x.owners, setup.MayOwn k o := by
  obtain ⟨k', hk', hmay⟩ := (hs.params h x hx).key
  obtain rfl := hs.injective k k' h hk hk'
  exact hmay

/-- A parameter has an owner, the one that made it. -/
theorem Grounded.declaredBy_mem (hs : Grounded setup s) (hdistinct : setup.DistinctTokens)
    {x : GenericParam} (hx : s.store.generics.get? h = some x) : x.declaredBy ∈ x.owners := by
  obtain ⟨k, -, ⟨q, hq, hcontains, -⟩, -⟩ := (hs.params h x hx).key
  have honly : setup.OnlyIn q x.declaredBy :=
    ⟨hcontains, fun q' hq' hcontains' => hdistinct.of_contains hq hq' hcontains hcontains'⟩
  exact (hs.makersOwn q hq h x hx honly).resolve_right nofun

/-- The owners of what an index of a plan stands for lie below the top-level type of the plan. -/
theorem Grounded.ownedUnder (hs : Grounded setup s)
    (hscope : setup.config.registryScope = .perTopLevelType) (hdistinct : setup.DistinctTokens)
    (hheld : s.registry.get? (setup.keyAt p i) = some h) :
    (setup.image s).OwnedUnder setup h (setup.blueprint.topLevel p) := by
  obtain ⟨x, hx⟩ := hs.closed _ h hheld
  refine ⟨x, hx, Array.ne_empty_of_mem (hs.declaredBy_mem hdistinct hx), fun o ho => ?_⟩
  obtain ⟨q, hq, hcontains, j, hkey⟩ := (hs.mayOwn hheld hx).2 o ho
  refine ⟨⟨q, hq, hcontains⟩, fun q' hq' hcontains' => ?_⟩
  obtain rfl := hdistinct.of_contains hq hq' hcontains hcontains'
  exact (Setup.topLevel_eq_of_keyAt_eq hscope hkey).symm

end Parameters

/-! ## Lists -/

/-- Every parameter in a container's list is what an index of the plan stands for. -/
theorem Scope.Lists.keyed {s : Scope} {plans : List GenericPlan} {listed : Array GenericHandle}
    (hlisted : s.Lists plans listed) {h : GenericHandle} (hh : h ∈ listed) :
    ∃ g ∈ plans, s.registry.get? (s.registry.key g.index s.topLevel) = some h := by
  obtain ⟨objects, hobjects, heq⟩ := hlisted
  rw [← Array.mem_toList_iff, heq, List.mem_eraseDups] at hh
  exact exists_of_forall₂ hobjects.flip hh

section Image

variable {setup : Setup} {s : BuildState} (hsourced : Sourced setup s) {p : TypePlan}
include hsourced

/-- What is listed for a type is what an index of its plan stands for. -/
theorem Sourced.keyed_of_listsFor (hp : p ∈ setup.types) {h : GenericHandle}
    (hlisted : (setup.image s).ListsFor p h) :
    ∃ i, s.registry.get? (setup.keyAt p i) = some h := by
  cases hlisted with
  | ofType hlink ht hh =>
    obtain ⟨index, hheld⟩ := (hsourced.of_type hp hlink ht).generics h hh
    exact ⟨index, hsourced.key_eq p index ▸ hheld⟩
  | ofMethod hlink ht hm hd hh =>
    obtain ⟨_, m, -, -, d, hd', hmirrored⟩ := (hsourced.of_type hp hlink ht).members .method _ hm
    obtain rfl := Option.some.inj (hd.symm.trans hd')
    obtain ⟨g, -, hheld⟩ := hmirrored.generics.keyed hh
    exact ⟨g.index, hsourced.key_eq p g.index ▸ hheld⟩

/-- What a resolved reference of a plan names is what an index of the plan stands for. -/
theorem Sourced.keyed_of_resolve {r : TypeRef} {sig : Signature}
    (hresolve : (s.scope (setup.blueprint.topLevel p)).resolve r = .ok sig) {g : GenericHandle}
    (hg : SigAtom.var g ∈ sig.atoms ∨ SigAtom.mvar g ∈ sig.atoms) :
    ∃ i, s.registry.get? (setup.keyAt p i) = some g := by
  have hatoms := (TypeExpr.Rel.atoms r sig (Scope.resolve_rel hresolve)).flip
  have hkeyed {b : SigAtom} (hb : b ∈ sig.atoms) (hparam : b = .var g ∨ b = .mvar g) :
      ∃ i, s.registry.get? (setup.keyAt p i) = some g := by
    obtain ⟨a, -, hab⟩ := exists_of_forall₂ hatoms hb
    rcases hparam with rfl | rfl <;> cases a
    case inl.var i => exact ⟨i, hsourced.key_eq p i ▸ hab⟩
    case inr.mvar i => exact ⟨i, hsourced.key_eq p i ▸ hab⟩
    all_goals exact False.elim hab
  rcases hg with hg | hg
  · exact hkeyed hg (.inl rfl)
  · exact hkeyed hg (.inr rfl)

end Image

/-! ## Isolation -/

/-- If a registry tells indices apart by top-level type, then every image isolates its top-level
types, whether or not the build went on over failures, and whether types are processed one after the
other or side by side, by any schedule: the lists of parameters, their owners, and what the
signatures of a type name. The same index may be declared below any number of top-level types. -/
theorem top_level_types_isolated {setup : Setup} (hresolver : setup.resolver = Resolver.default)
    (hscope : setup.config.registryScope = .perTopLevelType) (hdistinct : setup.DistinctTokens)
    {σ : Schedules} {image : Image} {s : BuildState} (hrun : setup.runBy σ = (.ok image, s)) :
    Isolates setup image := by
  obtain ⟨-, s₁, -, -, hgrounded, rfl⟩ := grounded_of_runBy hresolver hrun
  have hsourced := hgrounded.toSourced
  constructor
  case lists =>
    intro p hp q hq h hlisted hlisted'
    obtain ⟨i, hi⟩ := hsourced.keyed_of_listsFor hp hlisted
    obtain ⟨j, hj⟩ := hsourced.keyed_of_listsFor hq hlisted'
    exact Setup.topLevel_eq_of_keyAt_eq hscope (hsourced.injective _ _ h hi hj)
  case owners =>
    intro h x hx
    obtain ⟨k, hk, ⟨p, hp, -, i, rfl⟩, -⟩ := (hsourced.params h x hx).key
    exact ⟨_, hgrounded.ownedUnder hscope hdistinct hk⟩
  case signatures =>
    intro p hp sig hcarries g hg
    -- every signature is resolved below some type, and that has the same top-level type
    obtain ⟨q, hq, r, hresolve, htop⟩ : ∃ q ∈ setup.types, ∃ r,
        (s₁.scope (setup.blueprint.topLevel q)).resolve r = .ok sig ∧
          setup.blueprint.topLevel q = setup.blueprint.topLevel p := by
      cases hcarries with
      | ofType hlink ht hcarried =>
        obtain ⟨r, -, hresolve⟩ := (hsourced.of_type hp hlink ht).of_carries hcarried
        exact ⟨p, hp, r, hresolve, rfl⟩
      | @constraint h x hx hmem hattached =>
        have hx : s₁.store.generics.get? h = some x := hx
        obtain ⟨q, hq, r, hmentions, hresolve⟩ := (hsourced.params h x hx).constraints sig hattached
        obtain ⟨k, hk, ⟨q', hq', hcontains, j, rfl⟩, -⟩ := (hsourced.params h x hx).key
        obtain rfl := hdistinct.of_contains hq' hq hcontains hmentions.contains
        refine ⟨q, hq, r, hresolve, ?_⟩
        rcases hmem with hlisted | ⟨o, ho, hcontained⟩
        · obtain ⟨i, hi⟩ := hsourced.keyed_of_listsFor hp hlisted
          exact Setup.topLevel_eq_of_keyAt_eq hscope (hsourced.injective _ _ h hk hi)
        · obtain ⟨p', hp', hcontains', i, hkey⟩ := (hsourced.mayOwn hk hx).2 o ho
          obtain rfl := hdistinct.of_contains hp' hp hcontains' hcontained
          exact Setup.topLevel_eq_of_keyAt_eq hscope hkey
    obtain ⟨i, hi⟩ := hsourced.keyed_of_resolve hresolve hg
    exact htop ▸ hgrounded.ownedUnder hscope hdistinct hi

/-- Two top-level types that declare the same index, the first one with a type inside it that uses
the index. A method of the second one declares its parameter and fails on its return type. -/
def estates : Setup where
  blueprint := .ofTypes "estates"
    #[{ token := ⟨0x02000001⟩, space := "", name := "North", flags := .empty, flavor := .classType
        module := "estates", generics := some #[⟨0, 0, "T", .empty, #[TypeRef.var 0]⟩] },
      { token := ⟨0x02000002⟩, space := "", name := "Cottage", flags := .empty
        flavor := .classType, module := "estates", declaring := some ⟨0x02000001⟩
        fields :=
          #[{ token := ⟨0x04000001⟩, name := "owner", flags := .empty, type := TypeRef.var 0 }] },
      { token := ⟨0x02000003⟩, space := "", name := "South", flags := .empty, flavor := .classType
        module := "estates"
        generics := some #[⟨0, 0, "U", .empty, #[]⟩]
        methods :=
          #[{ token := ⟨0x06000001⟩, name := "Sell", flags := .empty, implFlags := .empty
              returnType := TypeRef.typeDef ⟨0x02000009⟩
              generics := some #[⟨1, 0, "V", .empty, #[TypeRef.var 0]⟩] }] }]
  config := { Config.lenient with registryScope := .perTopLevelType, concurrent := true }

/-- The three types take their steps in turn, and the method fails while others are under way. -/
theorem top_level_types_isolated_estates :
    ∃ σ image s, estates.resolver = Resolver.default ∧
      estates.config.registryScope = .perTopLevelType ∧ estates.DistinctTokens ∧
      estates.runBy σ = (.ok image, s) ∧ image.generics.length = 3 ∧ image.failures.size = 1 ∧
      Isolates estates image := by
  let σ : Schedules := { declaring := { turns := [2, 0, 2, 0, 1, 0, 2, 0] }
                         configuring := { turns := [1, 0, 2, 0] }
                         populating := { turns := [2, 1, 2, 0, 2, 1] } }
  obtain ⟨image, s, hrun⟩ := estates.runBy_of_isOk (σ := σ) (by decide +kernel)
  have hmade : (estates.runBy σ).1.toOption.map (fun i => (i.generics.length, i.failures.size)) =
      some (3, 1) := by
    decide +kernel
  rw [hrun] at hmade
  obtain ⟨hgenerics, hfailures⟩ := Prod.mk.inj (Option.some.inj hmade)
  have hdistinct : estates.DistinctTokens := by decide +kernel
  exact ⟨σ, image, s, rfl, rfl, hdistinct, hrun, hgenerics, hfailures,
    top_level_types_isolated rfl rfl hdistinct hrun⟩

end ClrImage
