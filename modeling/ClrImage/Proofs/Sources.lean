import ClrImage.Proofs.Directory
import ClrImage.Proofs.FullNames
import ClrImage.Proofs.Repetition

/-!
# Where signatures come from

Every signature that a build holds was resolved from a reference in the plan of one of its types,
every generic parameter stands under one key, which all of its owners may use, and every member was
made from the plan of the type that lists it. Single changes to a state keep it that way, each under
the condition that what is added comes from a plan as well.

- `TypePlan.Mentions`: the references in the plan of a type.
- `MemberSort.Sourced`, `TypeSourced`, `GenericParam.Sourced`: what a member, a type or a parameter
  has comes from plans.
- `Sourced`: so does all that a state holds.
- `Sourced.registerGeneric`, `Sourced.modifyGeneric`, `Sourced.modifyType`, `Sourced.publishOne`:
  single changes.
- `Declares.sourced`: it holds when all types have been declared.
-/

namespace ClrImage

/-! ## Plans and what is made from them -/

/-- The references in the plan of a type, each with the type or the method that it belongs to. -/
inductive TypePlan.Mentions (p : TypePlan) : GenericOwner → TypeRef → Prop
  | base {r : TypeRef} (planned : p.base = some r) : Mentions p (.type p.token) r
  | interface {r : TypeRef} (planned : r ∈ p.interfaces) : Mentions p (.type p.token) r
  | typeConstraint {g : GenericPlan} {r : TypeRef} (planned : g ∈ p.genericPlans)
      (constraint : r ∈ g.constraints) : Mentions p (.type p.token) r
  | field {f : FieldPlan} (planned : f ∈ p.fields) : Mentions p (.type p.token) f.type
  | returnType {m : MethodPlan} (planned : m ∈ p.methods) : Mentions p (.type p.token) m.returnType
  | paramType {m : MethodPlan} {q : ParamPlan} (planned : m ∈ p.methods) (param : q ∈ m.params) :
      Mentions p (.type p.token) q.type
  | methodConstraint {m : MethodPlan} {g : GenericPlan} {r : TypeRef} (planned : m ∈ p.methods)
      (declares : g ∈ (m.generics.getD #[]).toList) (constraint : r ∈ g.constraints) :
      Mentions p (.method m.token) r
  | property {q : PropertyPlan} (planned : q ∈ p.properties) : Mentions p (.type p.token) q.type
  | event {e : EventPlan} (planned : e ∈ p.events) : Mentions p (.type p.token) e.type

/-- The object has the token of a plan of its sort, and was resolved from this plan. -/
def MemberSort.Sourced (scope : Scope) (p : TypePlan) :
    (m : MemberSort) → Token → Handle m.kind → Prop
  | .field, token, h => ∃ f ∈ p.fields, f.token = token ∧
    ∃ d, scope.store.fields.get? h = some d ∧ scope.resolve f.type = .ok d.type
  | .method, token, h => ∃ m ∈ p.methods, m.token = token ∧
    ∃ d, scope.store.methods.get? h = some d ∧ MethodMirrored scope m d
  | .property, token, h => ∃ q ∈ p.properties, q.token = token ∧
    ∃ d, scope.store.properties.get? h = some d ∧ scope.resolve q.type = .ok d.type
  | .event, token, h => ∃ e ∈ p.events, e.token = token ∧
    ∃ d, scope.store.events.get? h = some d ∧ scope.resolve e.type = .ok d.type

/-- What a type holds comes from its plan. -/
structure TypeSourced (scope : Scope) (p : TypePlan) (t : TypeDef) : Prop where
  token : t.token = p.token
  base : ∀ sig, t.base = some sig → ∃ r, p.base = some r ∧ scope.resolve r = .ok sig
  interfaces : ∀ sig ∈ t.interfaces, ∃ r ∈ p.interfaces, scope.resolve r = .ok sig
  generics : ∀ h ∈ t.generics, ∃ index,
    scope.registry.get? (scope.registry.key index scope.topLevel) = some h
  members : ∀ (m : MemberSort), ∀ h ∈ m.places.handles t, ∃ token, m.Sourced scope p token h

/-- What a parameter holds comes from plans: it stands under a key that all of its owners may use,
and its constraints were resolved from the plan of the container that made it. -/
structure GenericParam.Sourced (setup : Setup) (s : BuildState) (h : GenericHandle)
    (x : GenericParam) : Prop where
  key : ∃ k, s.registry.get? k = some h ∧ setup.MayOwn k x.declaredBy ∧
    ∀ o ∈ x.owners, setup.MayOwn k o
  constraints : ∀ sig ∈ x.constraints, ∃ p ∈ setup.types, ∃ r, p.Mentions x.declaredBy r ∧
    (s.scope (setup.blueprint.topLevel p)).resolve r = .ok sig

/-- All that a state holds comes from plans. -/
structure Sourced (setup : Setup) (s : BuildState) : Prop where
  closed : s.RegistryClosed
  scope : s.registry.scope = setup.config.registryScope
  /-- A parameter stands under one key. -/
  injective : ∀ k k' h, s.registry.get? k = some h → s.registry.get? k' = some h → k = k'
  params : ∀ h x, s.store.generics.get? h = some x → x.Sourced setup s h
  nodup : (setup.types.map TypePlan.token).Nodup
  types : ∀ p ∈ setup.types, s.TypeOf p (TypeSourced (s.scope (setup.blueprint.topLevel p)) p)
  known : ∀ o t, s.store.types.get? o = some t →
    ∃ p ∈ setup.types, s.links.types.get? p.token = some o
  listed : List.Forall₂ (fun p h => s.links.types.get? p.token = some h) setup.types
    s.declared.toList
  /-- A method is linked under its own token, and a type lists it. -/
  linked : ∀ token h, s.links.methods.get? token = some h →
    (∃ d, s.store.methods.get? h = some d ∧ d.token = token) ∧
    ∃ o t, s.store.types.get? o = some t ∧ h ∈ t.methods

/-! ## Growth -/

section Growth

variable {setup : Setup} {s s' : BuildState} {topLevel : Token} {p : TypePlan}

/-- A member stays resolved from its plan in a build that goes on. -/
theorem MemberSort.Sourced.mono {m : MemberSort} {token : Token} {h : Handle m.kind}
    (hm : m.Sourced (s.scope topLevel) p token h) (hs : s.Extends s') (hclosed : s.RegistryClosed) :
    m.Sourced (s'.scope topLevel) p token h := by
  have hscope := hs.scope topLevel
  cases m with
  | field =>
    obtain ⟨f, hf, htoken, d, hd, hresolve⟩ := hm
    exact ⟨f, hf, htoken, d, hs.fields.get?_eq hd, Scope.resolve_extends hscope hresolve⟩
  | method =>
    obtain ⟨m, hm, htoken, d, hd, hmirrored⟩ := hm
    exact ⟨m, hm, htoken, d, hs.methods.get?_eq hd, hmirrored.mono hs hclosed⟩
  | property =>
    obtain ⟨q, hq, htoken, d, hd, hresolve⟩ := hm
    exact ⟨q, hq, htoken, d, hs.properties.get?_eq hd, Scope.resolve_extends hscope hresolve⟩
  | event =>
    obtain ⟨e, he, htoken, d, hd, hresolve⟩ := hm
    exact ⟨e, he, htoken, d, hs.events.get?_eq hd, Scope.resolve_extends hscope hresolve⟩

/-- So does a type. -/
theorem TypeSourced.mono {t : TypeDef} (ht : TypeSourced (s.scope topLevel) p t)
    (hs : s.Extends s') (hclosed : s.RegistryClosed) : TypeSourced (s'.scope topLevel) p t where
  token := ht.token
  base sig hsig := by
    obtain ⟨r, hr, hresolve⟩ := ht.base sig hsig
    exact ⟨r, hr, Scope.resolve_extends (hs.scope topLevel) hresolve⟩
  interfaces sig hsig := by
    obtain ⟨r, hr, hresolve⟩ := ht.interfaces sig hsig
    exact ⟨r, hr, Scope.resolve_extends (hs.scope topLevel) hresolve⟩
  generics h hh := by
    obtain ⟨index, hheld⟩ := ht.generics h hh
    refine ⟨index, ?_⟩
    show s'.registry.get? (s'.registry.key index topLevel) = some h
    rw [GenericRegistry.key_congr hs.registryScope]
    exact hs.registry _ _ hheld
  members m h hh := by
    obtain ⟨token, hm⟩ := ht.members m h hh
    exact ⟨token, hm.mono hs hclosed⟩

/-- So does a parameter. -/
theorem GenericParam.Sourced.mono {h : GenericHandle} {x : GenericParam} (hx : x.Sourced setup s h)
    (hs : s.Extends s') : x.Sourced setup s' h where
  key := by
    obtain ⟨k, hk, hrest⟩ := hx.key
    exact ⟨k, hs.registry k h hk, hrest⟩
  constraints sig hsig := by
    obtain ⟨p, hp, r, hr, hresolve⟩ := hx.constraints sig hsig
    exact ⟨p, hp, r, hr, Scope.resolve_extends (hs.scope _) hresolve⟩

end Growth

/-! ## Single changes -/

/-- Listing a further member leaves those that are listed. -/
theorem MemberSort.mem_methods_addAll {m : MemberSort} {members : List (Token × Handle m.kind)}
    {t : TypeDef} {h : MethodHandle} (hh : h ∈ t.methods) :
    h ∈ (m.places.addAll members t).methods := by
  cases m with
  | method => exact Array.mem_append_left _ hh
  | field | property | event => exact hh

/-- A member that comes from the plan of a type may be listed in it. -/
theorem TypeSourced.add {scope : Scope} {p : TypePlan} {t : TypeDef} (ht : TypeSourced scope p t)
    {m : MemberSort} {e : Token × Handle m.kind} (he : m.Sourced scope p e.1 e.2) :
    TypeSourced scope p (m.places.addAll [e] t) where
  token := (m.places.alike_withHandles t _).token.trans ht.token
  base := by cases m <;> exact ht.base
  interfaces := by cases m <;> exact ht.interfaces
  generics := by
    rw [MemberKind.addAll, m.places.generics_withHandles]
    exact ht.generics
  members n h hh := by
    by_cases hn : n = m
    · subst hn
      rw [MemberKind.addAll, n.places.handles_withHandles] at hh
      rcases Array.mem_append.mp hh with hold | hnew
      · exact ht.members n h hold
      · obtain rfl : h = e.2 := by simpa using hnew
        exact ⟨e.1, he⟩
    · rw [MemberKind.addAll, MemberSort.handles_of_ne hn] at hh
      exact ht.members n h hh

namespace Sourced

variable {setup : Setup} {s s' : BuildState} {p : TypePlan}

/-- The plan of a type is the one with its token. -/
theorem of_type (h : Sourced setup s) (hp : p ∈ setup.types) {o : TypeHandle}
    {t : TypeDef} (hlink : s.links.types.get? p.token = some o)
    (ht : s.store.types.get? o = some t) :
    TypeSourced (s.scope (setup.blueprint.topLevel p)) p t := by
  obtain ⟨o', t', hlink', ht', hsourced⟩ := h.types p hp
  obtain rfl := Option.some.inj (hlink.symm.trans hlink')
  obtain rfl := Option.some.inj (ht.symm.trans ht')
  exact hsourced

/-- Two plans of one type are the same. -/
theorem plan_unique (h : Sourced setup s) {q : TypePlan} (hp : p ∈ setup.types)
    (hq : q ∈ setup.types) {o : TypeHandle} (hpo : s.links.types.get? p.token = some o)
    (hqo : s.links.types.get? q.token = some o) : p = q := by
  obtain ⟨o', t, hlink, ht, hsourced⟩ := h.types p hp
  obtain rfl := Option.some.inj (hpo.symm.trans hlink)
  have htoken : p.token = q.token := hsourced.token.symm.trans (h.of_type hq hqo ht).token
  exact List.inj_on_of_nodup_map h.nodup hp hq htoken

/-- An index means the same in a state as in a plan. -/
theorem key_eq (h : Sourced setup s) (p : TypePlan) (index : UInt32) :
    s.registry.key index (setup.blueprint.topLevel p) = setup.keyAt p index :=
  GenericRegistry.key_congr h.scope index _

/-- A change that concerns no type asks for the parameters only. -/
theorem stages (h : Sourced setup s) (hs : Stages s s')
    (injective : ∀ k k' g, s'.registry.get? k = some g → s'.registry.get? k' = some g → k = k')
    (params : ∀ g x, s'.store.generics.get? g = some x → x.Sourced setup s' g) :
    Sourced setup s' where
  closed := hs.closed h.closed
  scope := hs.registryScope.trans h.scope
  injective := injective
  params := params
  nodup := h.nodup
  types p hp := by
    obtain ⟨o, t, hlink, ht, hsourced⟩ := h.types p hp
    exact ⟨o, t, hs.links_eq ▸ hlink, hs.types_eq ▸ ht, hsourced.mono hs.toExtends h.closed⟩
  known o t ht := by
    rw [hs.links_eq]
    exact h.known o t (hs.types_eq ▸ ht)
  listed := by
    rw [hs.links_eq, hs.declared_eq]
    exact h.listed
  linked token o ho := by
    rw [hs.links_eq] at ho
    obtain ⟨⟨d, hd, htoken⟩, hlisted⟩ := h.linked token o ho
    rw [hs.types_eq]
    exact ⟨⟨d, hs.methods.get?_eq hd, htoken⟩, hlisted⟩

/-- Objects that nothing leads to may be made at any time. -/
theorem idles (h : Sourced setup s) (hs : Idles s s') : Sourced setup s' := by
  refine h.stages hs.toStages ?_ fun g x hx => ?_
  · rw [hs.registry_eq]
    exact h.injective
  · rw [hs.generics_eq] at hx
    exact (h.params g x hx).mono hs.toExtends

/-- A failure may be recorded at any time. -/
theorem of_failures (h : Sourced setup s) (failures : Array Failure) :
    Sourced setup { s with failures } where
  closed := h.closed
  scope := h.scope
  injective := h.injective
  params g x hx := (h.params g x hx).mono { BuildState.Extends.refl s with }
  nodup := h.nodup
  types := h.types
  known := h.known
  listed := h.listed
  linked := h.linked

/-- A parameter may be registered for a container that may own it. -/
theorem registerGeneric (h : Sourced setup s) {key : GenericKey} {owner : GenericOwner}
    (hmay : setup.MayOwn key owner) (g : GenericPlan) :
    Sourced setup ((Build.registerGeneric key owner g).outcome s).2 := by
  obtain ⟨o, isNew, s', hrun, hregisters⟩ := registerGeneric_registers (fun _ => key) owner g s
  rw [hrun.outcome_snd]
  have hstages := hregisters.stages
  cases hheld : s.registry.get? key with
  | some held =>
    obtain ⟨-, rfl⟩ := (registerGeneric_of_some hheld owner g).unique hrun
    exact h
  | none =>
    obtain ⟨heq, rfl⟩ := (registerGeneric_of_none hheld owner g).unique hrun
    have hnew := GenericRegistry.get?_offer_of_none hheld s.store.generics.next
    -- no key holds the handle that the new parameter gets
    have hfree (k : GenericKey) : s.registry.get? k ≠ some s.store.generics.next := by
      intro hk
      obtain ⟨x, hx⟩ := h.closed k _ hk
      rw [Arena.get?_next] at hx
      cases hx
    refine h.stages hstages (fun k k' o hk hk' => ?_) fun o x hx => ?_
    · have hk := (hnew k).symm.trans hk
      have hk' := (hnew k').symm.trans hk'
      split at hk <;> split at hk'
      next heq heq' => exact heq.trans heq'.symm
      next => exact absurd (hk'.trans hk.symm) (hfree k')
      next => exact absurd (hk.trans hk'.symm) (hfree k)
      next => exact h.injective k k' o hk hk'
    · have hx : (s.store.generics.alloc _).get? o = some x := hx
      rw [Arena.get?_alloc] at hx
      split at hx
      next ho =>
        obtain rfl := Option.some.inj hx
        obtain rfl := ho
        exact ⟨⟨key, (hnew key).trans (if_pos rfl), hmay, by simp⟩, by simp⟩
      next => exact (h.params o x hx).mono hstages.toExtends

/-- A parameter may be changed as long as what it holds comes from plans. -/
theorem modifyGeneric (h : Sourced setup s) (o : GenericHandle) {f : GenericParam → GenericParam}
    (halike : ∀ x, GenericParam.Alike x (f x))
    (hf : ∀ x, s.store.generics.get? o = some x → x.Sourced setup s o → (f x).Sourced setup s o) :
    Sourced setup ((Build.modifyGeneric o f).outcome s).2 := by
  have hstages := keeps_modifyGeneric o halike s
  refine h.stages hstages h.injective fun g y hy => ?_
  have hy : (s.store.generics.modify o f).get? g = some y := hy
  rw [Arena.get?_modify] at hy
  split at hy
  next heq =>
    obtain ⟨x, hx, rfl⟩ := Option.map_eq_some_iff.mp hy
    exact (heq ▸ hf x (heq ▸ hx) (heq ▸ h.params g x hx)).mono hstages.toExtends
  next => exact (h.params g y hy).mono hstages.toExtends

/-- A type may be changed as long as what it holds comes from its plan. -/
theorem changes (h : Sourced setup s) {o : TypeHandle} {f : TypeDef → TypeDef}
    (hs : s.Extends s') (hgenerics : s'.store.generics = s.store.generics)
    (hregistry : s'.registry = s.registry) (hlinks : s'.links.types = s.links.types)
    (hdeclared : s'.declared = s.declared)
    (htypes : ∀ g, s'.store.types.get? g =
      if g = o then (s.store.types.get? g).map f else s.store.types.get? g)
    (hf : ∀ p ∈ setup.types, s.links.types.get? p.token = some o →
      ∀ t, s.store.types.get? o = some t → TypeSourced (s.scope (setup.blueprint.topLevel p)) p t →
        TypeSourced (s.scope (setup.blueprint.topLevel p)) p (f t))
    (linked : ∀ token g, s'.links.methods.get? token = some g →
      (∃ d, s'.store.methods.get? g = some d ∧ d.token = token) ∧
      ∃ o t, s'.store.types.get? o = some t ∧ g ∈ t.methods) : Sourced setup s' where
  closed k g hk := by
    rw [hgenerics]
    exact h.closed k g (hregistry ▸ hk)
  scope := hs.registryScope.trans h.scope
  injective := by
    rw [hregistry]
    exact h.injective
  params g x hx := (h.params g x (hgenerics ▸ hx)).mono hs
  nodup := h.nodup
  types p hp := by
    obtain ⟨g, t, hlink, ht, hsourced⟩ := h.types p hp
    by_cases hg : g = o
    · subst hg
      refine ⟨g, f t, hlinks ▸ hlink, ?_, (hf p hp hlink t ht hsourced).mono hs h.closed⟩
      rw [htypes, if_pos rfl, ht]
      rfl
    · refine ⟨g, t, hlinks ▸ hlink, ?_, hsourced.mono hs h.closed⟩
      rw [htypes, if_neg hg, ht]
  known g t ht := by
    rw [hlinks]
    rw [htypes] at ht
    split at ht
    · obtain ⟨t₀, ht₀, -⟩ := Option.map_eq_some_iff.mp ht
      exact h.known g t₀ ht₀
    · exact h.known g t ht
  listed := by
    rw [hlinks, hdeclared]
    exact h.listed
  linked := linked

theorem modifyType (h : Sourced setup s) {o : TypeHandle} {f : TypeDef → TypeDef}
    (hplace : ∀ t, TypeDef.SamePlace t (f t)) (hmethods : ∀ t, (f t).methods = t.methods)
    (hf : ∀ p ∈ setup.types, s.links.types.get? p.token = some o →
      ∀ t, s.store.types.get? o = some t → TypeSourced (s.scope (setup.blueprint.topLevel p)) p t →
        TypeSourced (s.scope (setup.blueprint.topLevel p)) p (f t)) :
    Sourced setup ((Build.modifyType o f).outcome s).2 := by
  have hlater : Later s ((Build.modifyType o f).outcome s).2 := AllowsCalls.modifyType o f hplace s
  refine h.changes hlater.toExtends rfl rfl rfl rfl (Arena.get?_modify _ o f) hf
    fun token g hg => ?_
  obtain ⟨hmethod, o', t, ht, hmem⟩ := h.linked token g hg
  refine ⟨hmethod, o', if o' = o then f t else t, ?_, ?_⟩
  · show (s.store.types.modify o f).get? o' = _
    rw [Arena.get?_modify, ht]
    split <;> rfl
  · split
    · rw [hmethods]
      exact hmem
    · exact hmem

/-- A member may be published in the type from whose plan it comes. -/
theorem publishOne (h : Sourced setup s) (hp : p ∈ setup.types) {o : TypeHandle}
    (hlink : s.links.types.get? p.token = some o) {m : MemberSort} {e : Token × Handle m.kind}
    (he : m.Sourced (s.scope (setup.blueprint.topLevel p)) p e.1 e.2)
    (hs : Publishes m.places o [e] s s') : Sourced setup s' := by
  have hgrows := hs.extends_state
  have hgenerics : s'.store.generics = s.store.generics := by rw [hs.store]
  have hlinks : s'.links.types = s.links.types := by rw [hs.links, m.places.types_withTable]
  refine h.changes hgrows hgenerics hs.registry hlinks hs.declared hs.types ?_ fun token g hg => ?_
  · intro q hq hqo t _ ht
    obtain rfl := h.plan_unique hp hq hlink hqo
    exact ht.add he
  -- a type that lists a method still does
  have hstill {o' : TypeHandle} {t : TypeDef} (ht : s.store.types.get? o' = some t)
      (hmem : g ∈ t.methods) : ∃ o t, s'.store.types.get? o = some t ∧ g ∈ t.methods := by
    refine ⟨o', if o' = o then m.places.addAll [e] t else t, ?_, ?_⟩
    · rw [hs.types, ht]
      split <;> rfl
    · split
      · exact MemberSort.mem_methods_addAll hmem
      · exact hmem
  by_cases hold : s.links.methods.get? token = some g
  · obtain ⟨⟨d, hd, htoken⟩, o', t, ht, hmem⟩ := h.linked token g hold
    exact ⟨⟨d, hgrows.methods.get?_eq hd, htoken⟩, hstill ht hmem⟩
  · -- only the published method is linked anew
    by_cases hm : m = .method
    · subst hm
      obtain rfl : token = e.1 := by
        by_contra hne
        exact hold ((hs.others token (by simpa using hne)).symm.trans hg)
      obtain rfl : g = e.2 := by
        simpa using hg.symm.trans (hs.linked e List.mem_cons_self)
      obtain ⟨m, hm, htoken, d, hd, hmirrored⟩ := he
      obtain ⟨o', t, hlink', ht, -⟩ := h.types p hp
      obtain rfl := Option.some.inj (hlink.symm.trans hlink')
      refine ⟨⟨d, hgrows.methods.get?_eq hd, hmirrored.token.trans htoken⟩, o,
        MemberSort.method.places.addAll [e] t, ?_, ?_⟩
      · rw [hs.types, if_pos rfl, ht]
        rfl
      · exact Array.mem_append_right _ (by simp)
    · have hsame : s'.links.methods = s.links.methods := by
        rw [hs.links]
        exact MemberSort.table_of_ne (n := .method) (Ne.symm hm) s.links _
      exact absurd (hsame ▸ hg) hold

end Sourced

/-- When all types have been declared there is nothing that could come from elsewhere. -/
theorem Declares.sourced {setup : Setup} {s : BuildState}
    (h : Declares setup.config setup.types s) : Sourced setup s where
  closed k g hk := by
    rw [h.registry] at hk
    simp [GenericRegistry.get?] at hk
  scope := by rw [h.registry]
  injective k k' g hk := by
    rw [h.registry] at hk
    simp [GenericRegistry.get?] at hk
  params g x hx := by
    rw [h.store] at hx
    simp at hx
  nodup := h.nodup
  types p hp := by
    obtain ⟨o, d, hlink, ht⟩ := h.linked p hp
    refine ⟨o, _, hlink, ht, rfl, ?_, ?_, ?_, fun m g hg => ?_⟩
    · simp [TypePlan.declaration]
    · simp [TypePlan.declaration]
    · simp [TypePlan.declaration]
    · cases m <;> simp [TypePlan.declaration, MemberSort.places, MemberKind.fields,
        MemberKind.methods, MemberKind.properties, MemberKind.events] at hg
  known := h.known
  listed := h.listed
  linked token g hg := by
    rw [h.links] at hg
    simp at hg

end ClrImage
