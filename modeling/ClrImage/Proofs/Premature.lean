import ClrImage.Proofs.FullNames
import ClrImage.Proofs.Repetition
import ClrImage.Proofs.Resolvable

/-!
# Members before the hierarchy

Generic parameters of types are registered with the hierarchy. Where members are made first, only
the parameters of methods are registered, by all populations so far, successful or not. Nothing
checks that the hierarchy has been configured; but a member whose type names **a parameter that no
method declares** cannot be made, and then none of its type's members is published.

- `TypePlan.signatureTypes`: the types in the members of a plan.
- `RegistersPlanned`: only parameters that methods declare have been registered.
- `keeps_call_registersPlanned`: this is all that calls for members register.
- `canResolve_of_yields_stage`: members that have been made have their types resolved.
- `premature_population_fails`: too early a population fails, and attaches and links nothing.
-/

namespace ClrImage

/-! ## Types in members -/

/-- The types of fields, properties and events, and those of the parameters and results of
methods. -/
def TypePlan.signatureTypes (p : TypePlan) : List TypeRef :=
  p.fields.toList.map (·.type) ++
    p.methods.toList.flatMap (fun m => m.returnType :: m.params.toList.map (·.type)) ++
    p.properties.toList.map (·.type) ++ p.events.toList.map (·.type)

/-! ## What calls for members register -/

/-- In the scope of the configuration, only keys that methods declare have been registered. -/
def RegistersPlanned (setup : Setup) (s s' : BuildState) : Prop :=
  s.registry.scope = setup.config.registryScope →
    s'.registry.scope = setup.config.registryScope ∧
    ∀ key, (∀ q ∈ setup.types, ¬ setup.PlansKey q key) →
      s'.registry.get? key = s.registry.get? key

namespace RegistersPlanned

variable {setup : Setup} {s s₁ s' : BuildState}

theorem refl (s : BuildState) : RegistersPlanned setup s s := fun hscope => ⟨hscope, fun _ _ => rfl⟩

theorem trans (h₁ : RegistersPlanned setup s s₁) (h₂ : RegistersPlanned setup s₁ s') :
    RegistersPlanned setup s s' := by
  intro hscope
  obtain ⟨hscope₁, hkeys₁⟩ := h₁ hscope
  obtain ⟨hscope', hkeys'⟩ := h₂ hscope₁
  exact ⟨hscope', fun key hkey => (hkeys' key hkey).trans (hkeys₁ key hkey)⟩

instance : IsPreorder BuildState (RegistersPlanned setup) where
  refl := refl
  trans _ _ _ := trans

theorem of_registry (h : s'.registry = s.registry) : RegistersPlanned setup s s' :=
  fun hscope => ⟨h ▸ hscope, fun _ _ => h ▸ rfl⟩

theorem keeps_of_allocates {α : Type} {step : Build α} (h : Build.Keeps Allocates step) :
    Build.Keeps (RegistersPlanned setup) step :=
  h.mono fun _ _ hs => of_registry hs.registry_eq

variable {p : TypePlan} (hp : p ∈ setup.types) {site : MemberSite}
  (hsite : site.topLevel = setup.blueprint.topLevel p)

include hp in
/-- What a method declares is planned by its type. -/
theorem of_registers {m : MethodPlan} (hm : m ∈ p.methods) {owner : GenericOwner}
    {objects : List GenericHandle} {pending : List PendingGeneric}
    (h : Registers (fun g => s.registry.key g.index (setup.blueprint.topLevel p)) owner
      m.genericPlans s s' objects pending) : RegistersPlanned setup s s' := by
  intro hscope
  refine ⟨h.scope.trans hscope, fun key hkey => ?_⟩
  cases hold : s.registry.get? key with
  | some o => exact h.registry key o hold
  | none =>
    by_contra hnew
    obtain ⟨o, ho⟩ := Option.ne_none_iff_exists'.mp hnew
    obtain ⟨g, hfind, -⟩ := h.made key o hold ho
    have hg : g ∈ m.genericPlans := List.mem_of_find?_eq_some hfind
    have hown : setup.genericKey p g = key := by
      have hsame : s.registry.key g.index (setup.blueprint.topLevel p) = setup.genericKey p g :=
        GenericRegistry.key_congr hscope g.index _
      have hfound := List.find?_some hfind
      rw [← hsame]
      simpa using hfound
    exact hkey p hp ⟨m, Array.mem_toList_iff.mpr hm, List.mem_map.mpr ⟨g, hg, hown⟩⟩

include hp hsite

theorem keeps_makeMethodGenerics {m : MethodPlan} (hm : m ∈ p.methods) :
    Build.Keeps (RegistersPlanned setup) (setup.makeMethodGenerics site m) := by
  unfold Setup.makeMethodGenerics
  split
  next => exact Build.Keeps.pure _
  next params hparams =>
    intro s
    obtain ⟨objects, pending, s₁, hdeclare, hregisters⟩ :=
      declareGenerics_registers (.method m.token) site.topLevel #[] params s
    rw [Build.outcome_bind_of_yields hdeclare, Build.outcome_bind_pure_snd]
    have hplans : params.toList = m.genericPlans := by
      unfold MethodPlan.genericPlans
      rw [hparams]
      rfl
    rw [hplans, hsite] at hregisters
    have hconstrain : SameLists s₁ ((setup.constrainGenerics site.topLevel pending).outcome s₁).2 :=
      keeps_constrainGenerics_sameLists site.topLevel pending s₁
    exact (of_registers hp hm hregisters).trans (of_registry hconstrain.registry)

theorem keeps_makeMethod {m : MethodPlan} (hm : m ∈ p.methods) :
    Build.Keeps (RegistersPlanned setup) (setup.makeMethod site m) := by
  unfold Setup.makeMethod
  refine Build.Keeps.bind (keeps_makeMethodGenerics hp hsite hm) fun generics => ?_
  refine Build.Keeps.bind (keeps_resolve _ _) fun returnType => ?_
  refine Build.Keeps.bind (Build.Keeps.mapM (fun _ => keeps_resolve _ _) _) fun types => ?_
  refine Build.Keeps.bind (keeps_of_allocates ?_) fun params => ?_
  · exact Build.Keeps.mapM (fun _ => keeps_makeParam site _ _ _) _
  · exact Build.Keeps.bind Build.Keeps.get fun _ => Build.Keeps.modifyGet fun _ => of_registry rfl

theorem keeps_stage : Build.Keeps (RegistersPlanned setup) (setup.stage site p) := by
  unfold Setup.stage
  refine Build.Keeps.bind (keeps_of_allocates (keeps_makeFields site p)) fun fields => ?_
  refine Build.Keeps.bind ?_ fun methods => ?_
  · intro s
    -- only methods of the type are made, so the members of the list come into play
    refine Build.outcome_mapM_induction (RegistersPlanned setup s) (.refl s)
      fun earlier m later made s₁ hsplit _ h₁ => ?_
    have hm : m ∈ p.methods := by
      rw [← Array.mem_toList_iff, hsplit]
      simp
    rw [Build.outcome_bind_pure_snd]
    exact h₁.trans (keeps_makeMethod hp hsite hm s₁)
  · refine Build.Keeps.bind (keeps_of_allocates (keeps_makeProperties site _ p)) fun _ => ?_
    exact Build.Keeps.bind (keeps_of_allocates (keeps_makeEvents site _ p))
      fun _ => Build.Keeps.pure _

omit hsite

theorem keeps_populateType : Build.Keeps (RegistersPlanned setup) (setup.populateType p) := by
  unfold Setup.populateType Setup.populate
  split
  · exact keeps_of_allocates (keeps_notice _)
  refine Setup.keeps_inContext (fun _ => keeps_of_allocates (keeps_notice _)) ?_
  refine Build.Keeps.bind keeps_managedType fun entry => ?_
  refine Build.Keeps.bind Build.Keeps.get fun s => ?_
  refine Build.Keeps.bind (keeps_stage hp rfl) fun staged => Build.Keeps.bind ?_ fun _ => ?_
  · exact (keeps_publish entry.1 staged).mono fun _ _ hs => of_registry hs.registry_eq
  · exact keeps_of_allocates (keeps_noticePopulated entry.1)

theorem keeps_populateOrRecord :
    Build.Keeps (RegistersPlanned setup) (setup.populateOrRecord p) := by
  unfold Setup.populateOrRecord
  split
  · exact Build.Keeps.tryCatch (keeps_populateType hp) fun e =>
      Build.Keeps.modify fun _ => of_registry rfl
  · exact keeps_populateType hp

end RegistersPlanned

/-- A call that makes members of types of the blueprint. -/
def Setup.ForMembers (setup : Setup) : BuildCall → Prop
  | .hierarchy _ => False
  | .populate q => q ∈ setup.types
  | .populateAll => True

section Calls

variable {setup : Setup} {s : BuildState}

theorem keeps_call_registersPlanned {call : BuildCall} (hcall : setup.ForMembers call) :
    Build.Keeps (RegistersPlanned setup) (setup.call call) := by
  cases call with
  | hierarchy call => exact hcall.elim
  | populate q => exact RegistersPlanned.keeps_populateType hcall
  | populateAll =>
    have hnotice (n : Notice) : Build.Keeps (RegistersPlanned setup) (Build.notice n) :=
      RegistersPlanned.keeps_of_allocates (keeps_notice n)
    refine Build.Keeps.bind (hnotice _) fun _ => Build.Keeps.bind (fun s => ?_) fun _ =>
      Build.Keeps.bind Build.Keeps.get fun _ => hnotice _
    refine Build.outcome_forM_induction (RegistersPlanned setup s) (.refl s) fun q hq s₁ h₁ => ?_
    exact h₁.trans (RegistersPlanned.keeps_populateOrRecord hq s₁)

theorem callAll_registersPlanned {calls : List BuildCall}
    (hcalls : ∀ call ∈ calls, setup.ForMembers call) (s : BuildState) :
    RegistersPlanned setup s (setup.callAll s calls) := by
  induction calls generalizing s with
  | nil => exact .refl s
  | cons call calls ih =>
    obtain ⟨hcall, hcalls⟩ := List.forall_mem_cons.mp hcalls
    exact (keeps_call_registersPlanned hcall s).trans (ih hcalls _)

end Calls

/-! ## What making members takes -/

/-- The types in members that have been made have been resolved. -/
theorem canResolve_of_yields_stage {setup : Setup} (hresolver : setup.resolver = Resolver.default)
    {site : MemberSite} {p : TypePlan} {staged : Staged} {s s' : BuildState}
    (hclosed : s.RegistryClosed) (hrun : (setup.stage site p).Yields s staged s') {r : TypeRef}
    (hr : r ∈ p.signatureTypes) : (s'.scope site.topLevel).CanResolve r := by
  have hmirrored := yields_stage_mirrored hresolver hclosed hrun
  simp only [TypePlan.signatureTypes, List.mem_append, List.mem_map, List.mem_flatMap,
    List.mem_cons] at hr
  obtain ((⟨f, hf, rfl⟩ | ⟨m, hm, rfl | ⟨x, hx, rfl⟩⟩) | ⟨q, hq, rfl⟩) | ⟨v, hv, rfl⟩ := hr
  · obtain ⟨e, -, -, d, -, hd⟩ := exists_of_forall₂ hmirrored.fields hf
    exact ⟨_, hd.type⟩
  · obtain ⟨e, -, -, d, -, hd⟩ := exists_of_forall₂ hmirrored.methods hm
    exact ⟨_, hd.returnType⟩
  · obtain ⟨e, -, -, d, -, hd⟩ := exists_of_forall₂ hmirrored.methods hm
    obtain ⟨sig, -, hsig⟩ := exists_of_forall₂ hd.paramTypes (List.mem_map_of_mem hx)
    exact ⟨sig, hsig⟩
  · obtain ⟨e, -, -, d, -, hd⟩ := exists_of_forall₂ hmirrored.properties hq
    exact ⟨_, hd.type⟩
  · obtain ⟨e, -, -, d, -, hd⟩ := exists_of_forall₂ hmirrored.events hv
    exact ⟨_, hd.type⟩

/-- A reference that resolves has parameters for all of its indices, at any depth. -/
theorem Scope.exists_param_of_canResolve {s : Scope} {r : TypeRef} (h : s.CanResolve r)
    {i : UInt32} (hi : i ∈ TypeRef.indices r) :
    ∃ g, s.registry.get? (s.registry.key i s.topLevel) = some g := by
  obtain ⟨a, ha, hindex⟩ := List.mem_filterMap.mp hi
  have hknown := (Scope.canResolve_iff.mp h).2.2 a ha
  cases a with
  | var | mvar =>
    cases hindex
    exact hknown
  | primitive | typeDef => cases hindex

section

variable {setup : Setup} (hresolver : setup.resolver = Resolver.default) {s₀ : BuildState}
  (hdeclare : setup.declareTypes.Yields (.initial setup.config) () s₀) {calls : List BuildCall}
  (hcalls : ∀ call ∈ calls, setup.ForMembers call) {p : TypePlan} (hp : p ∈ setup.types)
  {r : TypeRef} (hr : r ∈ p.signatureTypes) {i : UInt32} (hi : i ∈ TypeRef.indices r)
  (hforeign : ∀ q ∈ setup.types, ¬ setup.PlansKey q (setup.keyAt p i))
include hresolver hdeclare hcalls hp hr hi hforeign

/-- Where no method declares a parameter that the members of a type name, they cannot be made. -/
theorem not_yields_stage_of_foreign (name : String) (staged : Staged) (s' : BuildState) :
    ¬ (setup.stage ⟨name, setup.blueprint.topLevel p⟩ p).Yields (setup.callAll s₀ calls) staged
      s' := by
  intro hstage
  have hdeclared : Declared setup s₀ := declared_of_yields hdeclare
  have hlater : Later s₀ (setup.callAll s₀ calls) := callAll_related s₀ calls
  have hclosed₀ : s₀.RegistryClosed := by
    intro key h hkey
    rw [hdeclared.registry] at hkey
    cases (WriteOnce.get?_empty key).symm.trans hkey
  have hkeys : RegistersPlanned setup s₀ s' :=
    (callAll_registersPlanned hcalls s₀).trans
      ((RegistersPlanned.keeps_stage hp rfl).of_yields hstage)
  obtain ⟨hscope, hsame⟩ := hkeys (by rw [hdeclared.registry])
  -- the index has a parameter by now, and had none behind the declaration
  obtain ⟨g, hg⟩ := Scope.exists_param_of_canResolve
    (canResolve_of_yields_stage hresolver (hlater.closed hclosed₀) hstage hr) hi
  have hkey : s'.registry.key i (setup.blueprint.topLevel p) = setup.keyAt p i :=
    GenericRegistry.key_congr hscope i _
  have hheld : s'.registry.get? (setup.keyAt p i) = some g := hkey ▸ hg
  rw [hsame _ hforeign, hdeclared.registry] at hheld
  cases (WriteOnce.get?_empty _).symm.trans hheld

omit hresolver hdeclare hcalls hp hr hi hforeign in
/-- A type that is there and whose members cannot be made is not populated. Nothing is published. -/
theorem fails_populate_of_not_yields_stage {s : BuildState} {type : TypeHandle} {t : TypeDef}
    (hlink : s.links.types.get? p.token = some type) (ht : s.store.types.get? type = some t)
    (hunmade : ∀ name staged s',
      ¬ (setup.stage ⟨name, setup.blueprint.topLevel p⟩ p).Yields s staged s') :
    ∃ source s', (setup.populate p).Fails s source s' ∧ Stages s s' := by
  rcases Build.yields_or_fails (setup.populate p) s with ⟨_, s', hyields⟩ | ⟨source, s', hfails⟩
  · obtain ⟨_, _, staged, s₁, _, -, -, hstage, -⟩ := yields_populate hyields
    exact absurd hstage (hunmade _ staged s₁)
  · refine ⟨source, s', hfails, ?_⟩
    rcases fails_populate hfails with
      ⟨-, habsent⟩ | ⟨_, _, -, -, hstage | ⟨staged, s₁, hstage, -⟩⟩
    · exact absurd ⟨type, t, hlink, ht⟩ habsent
    · exact (keeps_stage _ p).of_fails hstage
    · exact absurd hstage (hunmade _ staged s₁)

end

/-- A type with a parameter, which a property names, and with a method that has another one. -/
def basket : TypePlan where
  token := ⟨0x02000001⟩
  space := ""
  name := "Basket"
  flags := .empty
  flavor := .classType
  module := "market"
  generics := some #[⟨0, 0, "T", .empty, #[]⟩]
  methods :=
    #[{ token := ⟨0x06000001⟩, name := "Swap", flags := .empty, implFlags := .empty
        returnType := TypeRef.mvar 1, generics := some #[⟨1, 0, "U", .empty, #[]⟩] }]
  properties :=
    #[{ token := ⟨0x17000001⟩, name := "Items", flags := .empty
        type := .szArray (TypeRef.var 0) }]

def market : Setup where
  blueprint := .ofTypes "market" #[basket]
  config := .lenient

end ClrImage
