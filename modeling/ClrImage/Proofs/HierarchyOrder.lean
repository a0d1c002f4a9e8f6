import ClrImage.Proofs.Configurable
import ClrImage.Proofs.Identity
import ClrImage.Proofs.Nesting
import ClrImage.Proofs.Owners

/-!
# The order of types in the hierarchy pass

The first round of the hierarchy pass registers the parameters of all types before the second one
resolves anything. So the order of the types shows only where two types plan a parameter with the
same key: the first of them makes it. Where no two types do, the pass does not depend on the order.

- `Setup.SeparateKeys`: no two types plan a parameter with the same key.
- `hierarchyResolvable_reordered`: then the pass succeeds in every order or in none.
- `Arranged`: what the pass makes, for every order.
- `hierarchy_order_independent`: then it makes the same in every order, up to the identity of
  objects.
-/

namespace ClrImage

/-! ## Plans in another order -/

namespace Setup

variable {setup : Setup}

/-- Parameters with the same key are planned by the same type. -/
def SeparateKeys (setup : Setup) : Prop :=
  ∀ d ∈ declarations setup.types, ∀ e ∈ declarations setup.types,
    setup.genericKey d.1 d.2 = setup.genericKey e.1 e.2 → d.1.token = e.1.token

instance (setup : Setup) : Decidable setup.SeparateKeys := by
  unfold SeparateKeys
  infer_instance

theorem mem_declarations {types : List TypePlan} {p : TypePlan} {g : GenericPlan} :
    (p, g) ∈ declarations types ↔ p ∈ types ∧ g ∈ p.genericPlans := by
  simp only [declarations, List.mem_flatMap, List.mem_map, Prod.mk.injEq]
  constructor
  · rintro ⟨q, hq, g', hg', rfl, rfl⟩
    exact ⟨hq, hg'⟩
  · rintro ⟨hp, hg⟩
    exact ⟨p, hp, g, hg, rfl, rfl⟩

/-- Among types with distinct tokens only one plans parameters with a key. -/
theorem SeparateKeys.unique (h : setup.SeparateKeys)
    (hnodup : (setup.types.map TypePlan.token).Nodup) (key : GenericKey) :
    ∀ p ∈ setup.types, ∀ q ∈ setup.types,
      setup.declares key p = true → setup.declares key q = true → p = q := by
  intro p hp q hq hdeclares hdeclares'
  obtain ⟨g, hg, hkey⟩ := declares_iff.mp hdeclares
  obtain ⟨g', hg', hkey'⟩ := declares_iff.mp hdeclares'
  have htoken := h (p, g) (mem_declarations.mpr ⟨hp, hg⟩) (q, g') (mem_declarations.mpr ⟨hq, hg'⟩)
    (hkey.trans hkey'.symm)
  exact List.inj_on_of_nodup_map hnodup hp hq htoken

theorem firstAmong?_cons (setup : Setup) (p : TypePlan) (types : List TypePlan)
    (key : GenericKey) :
    setup.firstAmong? (p :: types) key =
      ((p.genericPlans.find? (setup.genericKey p · = key)).map (p, ·)).or
        (setup.firstAmong? types key) := by
  unfold firstAmong? declarations
  rw [List.flatMap_cons, List.find?_append, List.find?_map]
  rfl

theorem declares_of_find? {key : GenericKey} {p : TypePlan} {g : GenericPlan}
    (h : p.genericPlans.find? (setup.genericKey p · = key) = some g) :
    setup.declares key p = true :=
  declares_iff.mpr ⟨g, List.mem_of_find?_eq_some h, by simpa using List.find?_some h⟩

/-- If only one of some types plans a parameter with a key, the first plan with the key is the first
one of that type. -/
theorem firstAmong?_eq_some {types : List TypePlan} {key : GenericKey} {p : TypePlan}
    {g : GenericPlan} (hseparate : ∀ p ∈ types, ∀ q ∈ types,
      setup.declares key p = true → setup.declares key q = true → p = q) :
    setup.firstAmong? types key = some (p, g) ↔
      p ∈ types ∧ p.genericPlans.find? (setup.genericKey p · = key) = some g := by
  induction types with
  | nil => simp [firstAmong?, declarations]
  | cons q rest ih =>
    have ih := ih fun a ha b hb =>
      hseparate a (List.mem_cons_of_mem q ha) b (List.mem_cons_of_mem q hb)
    rw [firstAmong?_cons, List.mem_cons]
    cases hfind : q.genericPlans.find? (setup.genericKey q · = key) with
    | none =>
      rw [Option.map_none, Option.none_or, ih]
      refine and_congr_left fun hg => (or_iff_right ?_).symm
      rintro rfl
      rw [hfind] at hg
      cases hg
    | some g' =>
      rw [Option.map_some, Option.some_or, Option.some.injEq, Prod.mk.injEq]
      constructor
      · rintro ⟨rfl, rfl⟩
        exact ⟨.inl rfl, hfind⟩
      · rintro ⟨hp, hg⟩
        obtain rfl : q = p := hseparate q List.mem_cons_self p (List.mem_cons.mpr hp)
          (declares_of_find? hfind) (declares_of_find? hg)
        exact ⟨rfl, Option.some.inj (hfind.symm.trans hg)⟩

section Reordered

variable {types : Array TypePlan} (hnodup : (setup.types.map TypePlan.token).Nodup)
  (hperm : types.toList.Perm setup.types)
include hnodup hperm

theorem genericKey_reordered (p : TypePlan) (g : GenericPlan) :
    (setup.reordered types).genericKey p g = setup.genericKey p g := by
  rw [genericKey, topLevel_reordered hnodup hperm]
  rfl

theorem declares_reordered (key : GenericKey) :
    (setup.reordered types).declares key = setup.declares key := by
  funext p
  unfold declares
  simp only [genericKey_reordered hnodup hperm]

theorem separateKeys_reordered (hseparate : setup.SeparateKeys) :
    (setup.reordered types).SeparateKeys := by
  intro d hd e he
  rw [genericKey_reordered hnodup hperm, genericKey_reordered hnodup hperm]
  have hmem {d : TypePlan × GenericPlan} (hd : d ∈ declarations (setup.reordered types).types) :
      d ∈ declarations setup.types := by
    rw [mem_declarations] at hd ⊢
    exact ⟨hperm.mem_iff.mp hd.1, hd.2⟩
  exact hseparate d (hmem hd) e (hmem he)

/-- A key has the same first plan in every order. -/
theorem firstDeclaration?_reordered (hseparate : setup.SeparateKeys) (key : GenericKey) :
    (setup.reordered types).firstDeclaration? key = setup.firstDeclaration? key := by
  have hsome (d : TypePlan × GenericPlan) :
      (setup.reordered types).firstDeclaration? key = some d ↔
        setup.firstDeclaration? key = some d := by
    obtain ⟨p, g⟩ := d
    unfold firstDeclaration?
    have hnodup' : ((setup.reordered types).types.map TypePlan.token).Nodup :=
      (hperm.map TypePlan.token).nodup_iff.mpr hnodup
    rw [firstAmong?_eq_some (hseparate.unique hnodup key),
      firstAmong?_eq_some ((separateKeys_reordered hnodup hperm hseparate).unique hnodup' key),
      funext (genericKey_reordered hnodup hperm p)]
    exact and_congr_left fun _ => hperm.mem_iff
  cases hfirst : setup.firstDeclaration? key with
  | some d => exact (hsome d).mpr hfirst
  | none =>
    rw [Option.eq_none_iff_forall_ne_some]
    intro d hd
    rw [(hsome d).mp hd] at hfirst
    cases hfirst

/-- References name in every order what they name in one. -/
theorem resolvable_reordered {p : TypePlan} {r : TypeRef} :
    (setup.reordered types).Resolvable p r ↔ setup.Resolvable p r := by
  unfold Resolvable
  rw [topLevel_reordered hnodup hperm]
  refine and_congr_right fun _ => and_congr_right fun _ => forall₂_congr fun a _ => ?_
  have hdeclares (index : UInt32) :
      (∃ d ∈ declarations (setup.reordered types).types,
        (setup.reordered types).genericKey d.1 d.2 = GenericRegistry.key
          ⟨setup.config.registryScope, {}⟩ index (setup.blueprint.topLevel p)) ↔
      ∃ d ∈ declarations setup.types, setup.genericKey d.1 d.2 = GenericRegistry.key
        ⟨setup.config.registryScope, {}⟩ index (setup.blueprint.topLevel p) := by
    refine exists_congr fun d => ?_
    rw [genericKey_reordered hnodup hperm, mem_declarations, mem_declarations]
    exact and_congr_left fun _ => and_congr_left fun _ => hperm.mem_iff
  cases a with
  | primitive => exact Iff.rfl
  | typeDef token =>
    exact and_congr_right fun _ => exists_congr fun q => and_congr_left fun _ => hperm.mem_iff
  | var index => exact hdeclares index
  | mvar index => exact hdeclares index

/-- A hierarchy is resolvable in every order or in none, if no two types plan a parameter with the
same key. -/
theorem hierarchyResolvable_reordered (hseparate : setup.SeparateKeys) :
    (setup.reordered types).HierarchyResolvable ↔ setup.HierarchyResolvable := by
  have hmem {p : TypePlan} : p ∈ (setup.reordered types).types ↔ p ∈ setup.types := hperm.mem_iff
  constructor
  · rintro ⟨hbase, hinterfaces, hconstraints⟩
    simp only [hmem, firstDeclaration?_reordered hnodup hperm hseparate,
      resolvable_reordered hnodup hperm] at hbase hinterfaces hconstraints
    exact ⟨hbase, hinterfaces, hconstraints⟩
  · rintro ⟨hbase, hinterfaces, hconstraints⟩
    constructor <;> simp only [hmem, firstDeclaration?_reordered hnodup hperm hseparate,
      resolvable_reordered hnodup hperm]
    · exact hbase
    · exact hinterfaces
    · exact hconstraints

end Reordered

end Setup

/-! ## What the pass makes -/

/-- The state of a build behind its hierarchy pass, with nesting and owners. -/
structure Arranged (setup : Setup) (s : BuildState) : Prop extends Configured setup s where
  planned : ∀ token h, s.links.types.get? token = some h → ∃ p ∈ setup.types, p.token = token
  nested : ∀ p ∈ setup.types, s.TypeOf p fun t =>
    t.declaring = p.declaring.bind s.links.types.get?
  owners : RecordsOwners setup setup.types s

/-- The first two passes leave such a state. -/
theorem arranged_of_yields {setup : Setup} (hresolver : setup.resolver = Resolver.default)
    {s s' : BuildState} (hdeclare : setup.declareTypes.Yields (.initial setup.config) () s)
    (hconfigure : setup.configureHierarchy.Yields s () s') : Arranged setup s' := by
  have hnests := (yields_declareTypes hdeclare).2
  have hsince := sinceDeclaration_of_yields hresolver hnests.toDeclares hconfigure
  have hconfigured := configured_of_yields hresolver hnests.toDeclares hconfigure
  refine { toConfigured := hconfigured, planned := ?planned, nested := ?nested
           owners := recordsOwners_of_yields hresolver hnests.toDeclares hconfigure }
  case planned =>
    rw [hsince.links]
    exact hnests.planned
  case nested =>
    intro p hp
    obtain ⟨h, t, hlink, ht, -⟩ := hconfigured.types p hp
    obtain ⟨h₀, t₀, hlink₀, ht₀, hnested⟩ := hnests.nested p hp
    rw [hsince.links] at hlink
    obtain rfl := Option.some.inj (hlink.symm.trans hlink₀)
    obtain ⟨t₁, ht₁, hkept⟩ := hsince.declaring h t ht
    obtain rfl := Option.some.inj (ht₀.symm.trans ht₁)
    refine ⟨h, t, by rw [hsince.links, hlink], ht, ?_⟩
    rw [hsince.links, ← hnested]
    exact hkept

namespace Arranged

variable {setup : Setup} {s : BuildState}

/-- What is linked under a token is the type of the plan with it. -/
theorem of_linked (hs : Arranged setup s) {token : Token} {h : TypeHandle}
    (hlink : s.links.types.get? token = some h) :
    ∃ p ∈ setup.types, p.token = token ∧ ∃ t, s.store.types.get? h = some t ∧
      p.declaration.Alike t ∧ t.HasNoMembers ∧ TypeMirrored setup s p t ∧
      t.declaring = p.declaring.bind s.links.types.get? := by
  obtain ⟨p, hp, rfl⟩ := hs.planned token h hlink
  obtain ⟨h₁, t, hlink₁, ht, halike, hbare⟩ := hs.bare p hp
  obtain ⟨h₂, t₂, hlink₂, ht₂, hmirrored⟩ := hs.types p hp
  obtain ⟨h₃, t₃, hlink₃, ht₃, hnested⟩ := hs.nested p hp
  obtain rfl := Option.some.inj (hlink.symm.trans hlink₁)
  obtain rfl := Option.some.inj (hlink.symm.trans hlink₂)
  obtain rfl := Option.some.inj (hlink.symm.trans hlink₃)
  obtain rfl := Option.some.inj (ht.symm.trans ht₂)
  obtain rfl := Option.some.inj (ht.symm.trans ht₃)
  exact ⟨p, hp, rfl, t, ht, halike, hbare, hmirrored, hnested⟩

/-- Exactly the planned tokens are linked. -/
theorem linked_iff (hs : Arranged setup s) {token : Token} :
    (s.links.types.get? token).isSome ↔ ∃ p ∈ setup.types, p.token = token := by
  constructor
  · intro h
    obtain ⟨g, hg⟩ := Option.isSome_iff_exists.mp h
    exact hs.planned token g hg
  · rintro ⟨p, hp, rfl⟩
    obtain ⟨g, t, hlink, -⟩ := hs.types p hp
    exact Option.isSome_iff_exists.mpr ⟨g, hlink⟩

theorem token_injective (hs : Arranged setup s) {token token' : Token} {h : TypeHandle}
    (hlink : s.links.types.get? token = some h) (hlink' : s.links.types.get? token' = some h) :
    token = token' := by
  obtain ⟨p, hp, rfl⟩ := hs.planned token h hlink
  obtain ⟨q, hq, rfl⟩ := hs.planned token' h hlink'
  exact hs.injective p hp q hq h hlink hlink'

theorem key_injective (hs : Arranged setup s) {k k' : GenericKey} {h : GenericHandle}
    (hk : s.registry.get? k = some h) (hk' : s.registry.get? k' = some h) : k = k' := by
  obtain ⟨p, g, x, hfirst, hx, hmade, -⟩ := hs.generics k h hk
  obtain ⟨q, g', y, hfirst', hy, hmade', -⟩ := hs.generics k' h hk'
  obtain rfl := Option.some.inj (hx.symm.trans hy)
  obtain ⟨hp, hkey⟩ := Setup.of_firstDeclaration? hfirst
  obtain ⟨hq, hkey'⟩ := Setup.of_firstDeclaration? hfirst'
  rw [← hkey, ← hkey']
  exact Setup.key_eq_of_madeFor hs.nodup (Setup.mem_declarations.mp hp).1
    (Setup.mem_declarations.mp hq).1 hmade hmade'

end Arranged

/-! ## Two orders -/

/-- The objects under equal tokens and equal keys of two states. -/
def TablePairs (s s' : BuildState) : {k : ObjectKind} → Handle k → Handle k → Prop
  | .type, g, h => ∃ token, s.links.types.get? token = some g ∧
    s'.links.types.get? token = some h
  | .generic, g, h => ∃ key, s.registry.get? key = some g ∧ s'.registry.get? key = some h
  | _, _, _ => False

section Orders

variable {setup : Setup} {types : Array TypePlan} {s s' : BuildState}
  (hs : Arranged setup s) (hs' : Arranged (setup.reordered types) s')

/-- Tokens and keys pair types and parameters one for one. -/
def Arranged.pairing (hs : Arranged setup s) (hs' : Arranged (setup.reordered types) s') :
    Pairing where
  pairs := TablePairs s s'
  functional {k g h h'} hh hh' := by
    cases k with
    | type =>
      obtain ⟨token, hg, hh⟩ := hh
      obtain ⟨token', hg', hh'⟩ := hh'
      obtain rfl := hs.token_injective hg hg'
      exact Option.some.inj (hh.symm.trans hh')
    | generic =>
      obtain ⟨key, hg, hh⟩ := hh
      obtain ⟨key', hg', hh'⟩ := hh'
      obtain rfl := hs.key_injective hg hg'
      exact Option.some.inj (hh.symm.trans hh')
    | _ => cases hh
  injective {k g g' h} hg hg' := by
    cases k with
    | type =>
      obtain ⟨token, hg, hh⟩ := hg
      obtain ⟨token', hg', hh'⟩ := hg'
      obtain rfl := hs'.token_injective hh hh'
      exact Option.some.inj (hg.symm.trans hg')
    | generic =>
      obtain ⟨key, hg, hh⟩ := hg
      obtain ⟨key', hg', hh'⟩ := hg'
      obtain rfl := hs'.key_injective hh hh'
      exact Option.some.inj (hg.symm.trans hg')
    | _ => cases hg

variable (hperm : types.toList.Perm setup.types)
include hs hs' hperm

omit hs' in
/-- Under equal tokens there are types of one plan. -/
theorem Arranged.plan_eq {token : Token} {p q : TypePlan} (hp : p ∈ setup.types)
    (hq : q ∈ (setup.reordered types).types) (hptoken : p.token = token)
    (hqtoken : q.token = token) : p = q :=
  List.inj_on_of_nodup_map hs.nodup hp (hperm.mem_iff.mp hq) (hptoken.trans hqtoken.symm)

/-- Equal tokens are linked in both orders. -/
theorem Arranged.linked_paired : s.links.types.Paired (hs.pairing hs') s'.links.types := by
  intro token
  refine rel_of_isSome_iff ?_ fun g h hg hh => ⟨token, hg, hh⟩
  rw [hs.linked_iff, hs'.linked_iff]
  exact exists_congr fun p => and_congr_left fun _ => hperm.mem_iff.symm

/-- Equal keys are registered in both orders. -/
theorem Arranged.registered_paired :
    s.registry.params.Paired (hs.pairing hs') s'.registry.params := by
  intro key
  have hiff : (s.registry.get? key).isSome ↔ (s'.registry.get? key).isSome := by
    rw [hs.registry, hs'.registry]
    refine exists_congr fun d => ?_
    rw [Setup.genericKey_reordered hs.nodup hperm, Setup.mem_declarations, Setup.mem_declarations]
    exact and_congr_left fun _ => and_congr_left fun _ => hperm.mem_iff.symm
  exact rel_of_isSome_iff hiff fun g h hg hh => ⟨key, hg, hh⟩

/-- The parameters of a type have the same keys in both orders. -/
theorem Arranged.key_eq (p : TypePlan) (index : UInt32) :
    s'.registry.key index ((setup.reordered types).blueprint.topLevel p) =
      s.registry.key index (setup.blueprint.topLevel p) := by
  rw [Setup.topLevel_reordered hs.nodup hperm]
  exact GenericRegistry.key_congr (hs'.scope.trans hs.scope.symm) index _

/-- In the plan of one type equal atoms stand for paired objects. -/
theorem Arranged.names_paired (p : TypePlan) (a : RefAtom) (b c : SigAtom)
    (hb : (s.scope (setup.blueprint.topLevel p)).Names a b)
    (hc : (s'.scope ((setup.reordered types).blueprint.topLevel p)).Names a c) :
    (hs.pairing hs').atom b c := by
  have hkey (index : UInt32) := hs.key_eq hs' hperm p index
  -- the flavor of a type is that of its plan
  have hflavor {token : Token} {g h : TypeHandle} (hg : s.links.types.get? token = some g)
      (hh : s'.links.types.get? token = some h) {t u : TypeDef}
      (ht : s.store.types.get? g = some t) (hu : s'.store.types.get? h = some u) :
      u.flavor = t.flavor := by
    obtain ⟨q, hq, hqtoken, t', ht', halike, -⟩ := hs.of_linked hg
    obtain ⟨q', hq', hqtoken', u', hu', halike', -⟩ := hs'.of_linked hh
    obtain rfl := hs.plan_eq hperm hq hq' hqtoken hqtoken'
    obtain rfl := Option.some.inj (ht.symm.trans ht')
    obtain rfl := Option.some.inj (hu.symm.trans hu')
    exact halike'.flavor.trans halike.flavor.symm
  cases a with
  | primitive q =>
    cases b <;> cases c <;> simp only [Scope.Names] at hb hc
    exact hb.symm.trans hc
  | typeDef token =>
    cases b <;> cases c <;> simp only [Scope.Names] at hb hc
    · exact ⟨token, hb.1, hc.1⟩
    · obtain ⟨hg, t, ht, hclass⟩ := hb
      obtain ⟨hh, u, hu, hvalue⟩ := hc
      exact absurd ((hflavor hg hh ht hu).symm.trans hvalue) hclass
    · obtain ⟨hg, t, ht, hvalue⟩ := hb
      obtain ⟨hh, u, hu, hclass⟩ := hc
      exact absurd ((hflavor hg hh ht hu).trans hvalue) hclass
    · exact ⟨token, hb.1, hc.1⟩
  | var index =>
    cases b <;> cases c <;> simp only [Scope.Names] at hb hc
    exact ⟨_, hb, (hkey index) ▸ hc⟩
  | mvar index =>
    cases b <;> cases c <;> simp only [Scope.Names] at hb hc
    exact ⟨_, hb, (hkey index) ▸ hc⟩

/-- Lists of references have paired signatures. -/
theorem Arranged.resolves_paired {p : TypePlan} {rs : List TypeRef} {sigs sigs' : List Signature}
    (h : (s.scope (setup.blueprint.topLevel p)).Resolves rs sigs)
    (h' : (s'.scope ((setup.reordered types).blueprint.topLevel p)).Resolves rs sigs') :
    List.Forall₂ (hs.pairing hs').signature sigs sigs' := by
  refine forall₂_meet ?_ h h'
  intro r sig sig' hsig hsig'
  exact Pairing.signature_of_resolve (hs.names_paired hs' hperm p) hsig hsig'

/-- The types of one plan are the same. -/
theorem Arranged.types_paired :
    s.store.types.Paired (hs.pairing hs') (TypeDef.Same (hs.pairing hs')) s'.store.types := by
  rintro g h ⟨token, hg, hh⟩
  obtain ⟨p, hp, hptoken, t, ht, halike, hbare, hmirrored, hnested⟩ := hs.of_linked hg
  obtain ⟨q, hq, hqtoken, u, hu, halike', hbare', hmirrored', hnested'⟩ := hs'.of_linked hh
  obtain rfl := hs.plan_eq hperm hp hq hptoken hqtoken
  refine ⟨t, u, ht, hu, ?_⟩
  constructor
  case rest =>
    have hconfigured : u.isConfigured = t.isConfigured :=
      hmirrored'.isConfigured.trans hmirrored.isConfigured.symm
    obtain ⟨htoken, hspace, hname, hflags, hflavor, hmodule⟩ :=
      TypeDef.Alike.trans _ _ _ halike.symm halike'
    cases t
    cases u
    simp_all
  case declaring =>
    rw [hnested, hnested']
    cases p.declaring with
    | none => exact .none
    | some outer => exact hs.linked_paired hs' hperm outer
  case base =>
    refine rel_meet ?_ hmirrored.base hmirrored'.base
    intro r sig sig' hsig hsig'
    exact Pairing.signature_of_resolve (hs.names_paired hs' hperm p) hsig hsig'
  case interfaces => exact hs.resolves_paired hs' hperm hmirrored.interfaces hmirrored'.interfaces
  case generics =>
    obtain ⟨objects, hobjects, hlisted⟩ := hmirrored.generics
    obtain ⟨objects', hobjects', hlisted'⟩ := hmirrored'.generics
    rw [hlisted, hlisted']
    refine Pairing.eraseDups (forall₂_meet (fun d o o' ho ho' => ?_) hobjects hobjects')
    exact ⟨_, ho, (hs.key_eq hs' hperm p d.index) ▸ ho'⟩
  case fields => rw [hbare.fields, hbare'.fields]; exact .nil
  case methods => rw [hbare.methods, hbare'.methods]; exact .nil
  case properties => rw [hbare.properties, hbare'.properties]; exact .nil
  case events => rw [hbare.events, hbare'.events]; exact .nil

/-- A parameter has the same owners in both orders: the one type that plans its key. -/
theorem Arranged.owners_eq (hseparate : setup.SeparateKeys) {key : GenericKey}
    {g h : GenericHandle} (hg : s.registry.get? key = some g)
    (hh : s'.registry.get? key = some h) : s'.ownersOf h = s.ownersOf g := by
  have howners := hs.owners key g hg
  have howners' := hs'.owners key h hh
  rw [Setup.declares_reordered hs.nodup hperm] at howners'
  have hfilter : (setup.reordered types).types.filter (setup.declares key) =
      setup.types.filter (setup.declares key) := by
    -- both sides hold one type at most
    have hpair (l : List TypePlan) : l.Pairwise fun _ _ => True :=
      List.pairwise_of_forall fun _ _ => trivial
    refine List.Perm.eq_of_pairwise (fun p q hp hq _ _ => ?_) (hpair _) (hpair _)
      (hperm.filter _)
    rw [List.mem_filter] at hp hq
    exact hseparate.unique hs.nodup key p (hperm.mem_iff.mp hp.1) q hq.1 hp.2 hq.2
  rw [hfilter, ← howners] at howners'
  exact Array.toList_inj.mp howners'

/-- The parameters of one key are the same. -/
theorem Arranged.generics_paired (hseparate : setup.SeparateKeys) :
    s.store.generics.Paired (hs.pairing hs') (GenericParam.Same (hs.pairing hs'))
      s'.store.generics := by
  rintro g h ⟨key, hg, hh⟩
  obtain ⟨p, d, x, hfirst, hx, hmade, hconstrained⟩ := hs.generics key g hg
  obtain ⟨p', d', y, hfirst', hy, hmade', hconstrained'⟩ := hs'.generics key h hh
  rw [Setup.firstDeclaration?_reordered hs.nodup hperm hseparate, hfirst] at hfirst'
  obtain ⟨rfl, rfl⟩ := Prod.mk.inj (Option.some.inj hfirst')
  refine ⟨x, y, hx, hy, ?_,
    hs.resolves_paired hs' hperm hconstrained.constraints hconstrained'.constraints⟩
  have howners : y.owners = x.owners := by
    rw [← BuildState.ownersOf_of_some hx, ← BuildState.ownersOf_of_some hy]
    exact hs.owners_eq hs' hperm hseparate hg hh
  have hmarked : y.isConstrained = x.isConstrained :=
    hconstrained'.isConstrained.trans hconstrained.isConstrained.symm
  obtain ⟨hindex, hnumber, hname, hflags, hdeclaredBy⟩ := hmade
  obtain ⟨hindex', hnumber', hname', hflags', hdeclaredBy'⟩ := hmade'
  cases x
  cases y
  simp_all

/-- The two orders make the same. -/
theorem Arranged.same (hseparate : setup.SeparateKeys) : BuildState.Same (hs.pairing hs') s s' where
  store :=
    { types := hs.types_paired hs' hperm, generics := hs.generics_paired hs' hperm hseparate
      fields := nofun, params := nofun, methods := nofun, properties := nofun, events := nofun }
  links := by
    have hnone {k : ObjectKind} : ({} : WriteOnce Token (Handle k)).Paired (hs.pairing hs') {} :=
      fun token => by rw [WriteOnce.get?_empty]; exact .none
    rw [hs.links, hs'.links]
    exact ⟨hs.linked_paired hs' hperm, hnone, hnone, hnone, hnone⟩
  registry := ⟨hs'.scope.trans hs.scope.symm, hs.registered_paired hs' hperm⟩

end Orders

/-- Two types whose parameters are constrained by each other. -/
def mutualConstraints : Setup where
  blueprint := .ofTypes "mutual"
    #[{ token := ⟨0x02000001⟩, space := "", name := "Left", flags := .empty, flavor := .classType
        module := "mutual"
        base := some (.inst (TypeRef.typeDef ⟨0x02000002⟩) [TypeRef.var 0])
        generics := some
          #[⟨0, 0, "T", .empty, #[.inst (TypeRef.typeDef ⟨0x02000002⟩) [TypeRef.var 1]]⟩,
            ⟨0, 1, "U", .empty, #[TypeRef.primitive .object]⟩] },
      { token := ⟨0x02000002⟩, space := "", name := "Right", flags := .empty, flavor := .classType
        module := "mutual", declaring := some ⟨0x02000001⟩
        interfaces := #[.szArray (TypeRef.var 1)]
        generics := some #[⟨1, 0, "V", .empty, #[TypeRef.var 0]⟩] }]

end ClrImage
