import ClrImage.Proofs.Constraints

/-!
# Staged members

Making the members of a type adds objects to a build and neither links nor lists any of them. This
module shows so for every step, whatever its outcome and whatever the resolver.

- `BuildState.RegistryClosed`: the registry names parameters that are there.
- `SameGenerics`: no generic parameter has been touched, and none has got a further place.
- `Allocates`: members other than methods have been made. Only methods bring generic parameters.
- `Stages`: objects of any kind have been made, and nothing has been published.
- `keeps_stage`: all of staging does no more than that.
- `stage_tokens`: what has been staged goes by the tokens of the plan.
-/

namespace ClrImage

/-- Every entry of the registry names a parameter that is there. -/
def BuildState.RegistryClosed (s : BuildState) : Prop :=
  ∀ k h, s.registry.get? k = some h → ∃ x, s.store.generics.get? h = some x

/-- Generic parameters are as they were, and so are the methods and the types that list them. -/
structure SameGenerics (s s' : BuildState) : Prop extends BuildState.Extends s s' where
  registry_eq : s'.registry = s.registry
  generics_eq : s'.store.generics = s.store.generics
  methods_eq : s'.store.methods = s.store.methods
  typeGenerics : ∀ g, (s'.store.types.get? g).map (·.generics) =
    (s.store.types.get? g).map (·.generics)

namespace SameGenerics

variable {s s₁ s' : BuildState}

theorem refl (s : BuildState) : SameGenerics s s := ⟨.refl s, rfl, rfl, rfl, fun _ => rfl⟩

theorem trans (h₁ : SameGenerics s s₁) (h₂ : SameGenerics s₁ s') : SameGenerics s s' :=
  ⟨h₁.toExtends.trans h₂.toExtends, h₂.registry_eq.trans h₁.registry_eq,
    h₂.generics_eq.trans h₁.generics_eq, h₂.methods_eq.trans h₁.methods_eq,
    fun g => (h₂.typeGenerics g).trans (h₁.typeGenerics g)⟩

theorem closed (h : SameGenerics s s') (hclosed : s.RegistryClosed) : s'.RegistryClosed := by
  unfold BuildState.RegistryClosed
  rw [h.registry_eq, h.generics_eq]
  exact hclosed

end SameGenerics

/-- Members other than methods have been made, and nothing else has changed. -/
structure Allocates (s s' : BuildState) : Prop extends SameGenerics s s' where
  types_eq : s'.store.types = s.store.types
  links_eq : s'.links = s.links
  declared_eq : s'.declared = s.declared
  failures_eq : s'.failures = s.failures

namespace Allocates

variable {s s₁ s' : BuildState}

theorem refl (s : BuildState) : Allocates s s := ⟨.refl s, rfl, rfl, rfl, rfl⟩

theorem trans (h₁ : Allocates s s₁) (h₂ : Allocates s₁ s') : Allocates s s' :=
  ⟨h₁.toSameGenerics.trans h₂.toSameGenerics, h₂.types_eq.trans h₁.types_eq,
    h₂.links_eq.trans h₁.links_eq, h₂.declared_eq.trans h₁.declared_eq,
    h₂.failures_eq.trans h₁.failures_eq⟩

instance : IsPreorder BuildState Allocates where
  refl := refl
  trans _ _ _ := trans

/-- What an allocation has to show: the arenas grow, and nothing else is different. -/
theorem of_extends (h : s.Extends s')
    (store : s'.store = { s.store with fields := s'.store.fields, params := s'.store.params
                                       properties := s'.store.properties
                                       events := s'.store.events })
    (links : s'.links = s.links) (registry : s'.registry = s.registry)
    (declared : s'.declared = s.declared) (failures : s'.failures = s.failures) :
    Allocates s s' := by
  refine ⟨⟨h, registry, ?_, ?_, fun g => ?_⟩, ?_, links, declared, failures⟩ <;> rw [store]

end Allocates

/-- Objects have been made, and nothing has been linked or listed. -/
structure Stages (s s' : BuildState) : Prop extends BuildState.Extends s s' where
  types_eq : s'.store.types = s.store.types
  links_eq : s'.links = s.links
  declared_eq : s'.declared = s.declared
  failures_eq : s'.failures = s.failures
  closed : s.RegistryClosed → s'.RegistryClosed

namespace Stages

variable {s s₁ s' : BuildState}

theorem refl (s : BuildState) : Stages s s := ⟨.refl s, rfl, rfl, rfl, rfl, id⟩

theorem trans (h₁ : Stages s s₁) (h₂ : Stages s₁ s') : Stages s s' :=
  ⟨h₁.toExtends.trans h₂.toExtends, h₂.types_eq.trans h₁.types_eq, h₂.links_eq.trans h₁.links_eq,
    h₂.declared_eq.trans h₁.declared_eq, h₂.failures_eq.trans h₁.failures_eq, h₂.closed ∘ h₁.closed⟩

instance : IsPreorder BuildState Stages where
  refl := refl
  trans _ _ _ := trans

end Stages

/-- Making members other than methods is staging. -/
theorem Allocates.stages {s s' : BuildState} (h : Allocates s s') : Stages s s' :=
  ⟨h.toExtends, h.types_eq, h.links_eq, h.declared_eq, h.failures_eq, h.closed⟩

theorem Build.Keeps.stages {α : Type} {step : Build α} (h : Build.Keeps Allocates step) :
    Build.Keeps Stages step :=
  h.mono fun _ _ => Allocates.stages

/-- Registering parameters is staging. -/
theorem Registers.stages {key : GenericPlan → GenericKey} {owner : GenericOwner} {s s' : BuildState}
    {params : List GenericPlan} {objects : List GenericHandle} {pending : List PendingGeneric}
    (h : Registers key owner params s s' objects pending) : Stages s s' where
  toExtends := h.extends_state
  types_eq := h.types
  links_eq := h.links
  declared_eq := h.declared
  failures_eq := h.failures
  closed hclosed k o ho := by
    cases hk : s.registry.get? k with
    | none =>
      obtain ⟨g, -, -, x, hx, -⟩ := h.made k o hk ho
      exact ⟨x, hx⟩
    | some o' =>
      obtain rfl := Option.some.inj ((h.registry k o' hk).symm.trans ho)
      obtain ⟨x, hx⟩ := hclosed k o' hk
      obtain ⟨y, hy, -⟩ := h.generics o' x hx
      exact ⟨y, hy⟩

/-! ## Parts of steps -/

section Parts

variable {setup : Setup}

/-- A relation that the parts of making members other than methods keep. -/
class AllowsMaking (R : BuildState → BuildState → Prop) : Prop where
  notice : ∀ n, n.tellsSharing = false → Build.Keeps R (Build.notice n)
  allocField : ∀ f, Build.Keeps R (Build.allocField f)
  allocParam : ∀ p, Build.Keeps R (Build.allocParam p)
  allocProperty : ∀ p, Build.Keeps R (Build.allocProperty p)
  allocEvent : ∀ e, Build.Keeps R (Build.allocEvent e)

theorem keeps_notice (n : Notice) : Build.Keeps Allocates (Build.notice n) :=
  Build.Keeps.modify fun s => .of_extends { BuildState.Extends.refl s with } rfl rfl rfl rfl rfl

/-- Resolution reads and changes nothing. -/
theorem keeps_resolve {R : BuildState → BuildState → Prop} [IsPreorder BuildState R]
    (topLevel : Token) (r : TypeRef) : Build.Keeps R (setup.resolve topLevel r) :=
  Build.Keeps.bind Build.Keeps.get fun _ => Build.Keeps.liftExcept _

theorem keeps_allocField (f : FieldDef) : Build.Keeps Allocates (Build.allocField f) :=
  Build.Keeps.modifyGet fun s => .of_extends
    { BuildState.Extends.refl s with fields := Arena.extends_alloc Eq.refl _ f } rfl rfl rfl rfl rfl

theorem keeps_allocParam (p : ParamDef) : Build.Keeps Allocates (Build.allocParam p) :=
  Build.Keeps.modifyGet fun s => .of_extends
    { BuildState.Extends.refl s with params := Arena.extends_alloc Eq.refl _ p } rfl rfl rfl rfl rfl

theorem keeps_allocProperty (p : PropertyDef) : Build.Keeps Allocates (Build.allocProperty p) :=
  Build.Keeps.modifyGet fun s => .of_extends
    { BuildState.Extends.refl s with properties := Arena.extends_alloc Eq.refl _ p }
    rfl rfl rfl rfl rfl

theorem keeps_allocEvent (e : EventDef) : Build.Keeps Allocates (Build.allocEvent e) :=
  Build.Keeps.modifyGet fun s => .of_extends
    { BuildState.Extends.refl s with events := Arena.extends_alloc Eq.refl _ e } rfl rfl rfl rfl rfl

instance : AllowsMaking Allocates where
  notice n _ := keeps_notice n
  allocField := keeps_allocField
  allocParam := keeps_allocParam
  allocProperty := keeps_allocProperty
  allocEvent := keeps_allocEvent

/-- A change of a parameter that keeps what identifies it. -/
theorem keeps_modifyGeneric (h : GenericHandle) {f : GenericParam → GenericParam}
    (hf : ∀ x, GenericParam.Alike x (f x)) : Build.Keeps Stages (Build.modifyGeneric h f) := by
  refine Build.Keeps.modify fun s => ⟨{ BuildState.Extends.refl s with generics := ?_ },
    rfl, rfl, rfl, rfl, fun hclosed k o ho => ?_⟩
  · exact Arena.extends_modify GenericParam.Alike.refl _ h hf
  · obtain ⟨x, hx⟩ := hclosed k o ho
    obtain ⟨y, hy, -⟩ := Arena.extends_modify GenericParam.Alike.refl s.store.generics h hf o x hx
    exact ⟨y, hy⟩

theorem keeps_allocMethod (m : MethodDef) : Build.Keeps Stages (Build.allocMethod m) :=
  Build.Keeps.modifyGet fun s =>
    ⟨{ BuildState.Extends.refl s with methods := Arena.extends_alloc Eq.refl _ m },
      rfl, rfl, rfl, rfl, id⟩

theorem keeps_declareGeneric (owner : GenericOwner) (topLevel : Token)
    (acc : Array GenericHandle × Array PendingGeneric) (g : GenericPlan) :
    Build.Keeps Stages (Setup.declareGeneric owner topLevel acc g) := by
  intro s
  obtain ⟨h, new, s', hrun, hregisters⟩ := declareGeneric_registers owner topLevel acc.1 acc.2 g s
  rw [hrun.outcome_snd]
  exact hregisters.stages

theorem keeps_declareGenerics (owner : GenericOwner) (topLevel : Token)
    (listed : Array GenericHandle) (params : Array GenericPlan) :
    Build.Keeps Stages (Setup.declareGenerics owner topLevel listed params) :=
  Build.Keeps.foldlM (keeps_declareGeneric owner topLevel) _ _

theorem keeps_constrainGenerics (topLevel : Token) (pending : Array PendingGeneric) :
    Build.Keeps Stages (setup.constrainGenerics topLevel pending) := by
  refine Build.Keeps.forM (fun item => Build.Keeps.bind ?_ fun _ => ?_) _
  · refine Build.Keeps.forM (fun c => ?_) _
    exact Build.Keeps.bind (keeps_resolve topLevel c) fun _ =>
      keeps_modifyGeneric item.param fun _ => ⟨rfl, rfl, rfl, rfl, rfl⟩
  · exact keeps_modifyGeneric item.param fun _ => ⟨rfl, rfl, rfl, rfl, rfl⟩

end Parts

/-! ## Members -/

section Members

variable {setup : Setup} (site : MemberSite) {R : BuildState → BuildState → Prop}
  [IsPreorder BuildState R] [AllowsMaking R]

/-- The test of a datum that a flag announces. -/
def Setup.demand (setup : Setup) (lacking : Bool) (datum : MissingDatum) : Build Unit :=
  if lacking then setup.missing datum else pure ()

theorem keeps_demand (lacking : Bool) (datum : MissingDatum) :
    Build.Keeps R (setup.demand lacking datum) := by
  unfold Setup.demand Setup.missing
  split
  · split
    · exact Build.Keeps.throw _
    · exact AllowsMaking.notice _ rfl
  · exact Build.Keeps.pure ()

/-- The steps of making a field in sequence. -/
theorem makeField_eq (f : FieldPlan) :
    setup.makeField site f = (do
      let type ← setup.resolve site.topLevel f.type
      setup.demand (f.flags.contains FieldFlags.hasDefault && f.default.isNone)
        (.fieldDefault site.typeName f.name)
      setup.demand (f.flags.contains FieldFlags.hasInitialData && f.initialData.isNone)
        (.fieldData site.typeName f.name)
      Build.allocField
        { token := f.token, name := f.name, flags := f.flags, isStatic := f.isStatic, type
          constant := if f.flags.contains FieldFlags.hasDefault then f.default else none
          initialData :=
            if f.flags.contains FieldFlags.hasInitialData then f.initialData else none }) := by
  unfold Setup.makeField Setup.demand
  refine bind_congr fun type => ?_
  dsimp only
  split <;> split <;> simp only [pure_bind]

theorem keeps_makeField (f : FieldPlan) : Build.Keeps R (setup.makeField site f) := by
  rw [makeField_eq]
  refine Build.Keeps.bind (keeps_resolve _ _) fun type => ?_
  refine Build.Keeps.bind (keeps_demand _ _) fun _ => ?_
  exact Build.Keeps.bind (keeps_demand _ _) fun _ => AllowsMaking.allocField _

/-- The steps of making a parameter in sequence. -/
theorem makeParam_eq (method : String) (position : Nat) (p : ParamPlan) :
    setup.makeParam site method position p = (do
      (if 0xFFFF ≤ position then throw (.flawed (.tooManyParameters method)) else pure ())
      setup.demand (p.flags.contains ParamFlags.hasDefault && p.default.isNone)
        (.parameterDefault p.name site.typeName method)
      (if !p.flags.contains ParamFlags.hasDefault && p.default.isSome then
        Build.notice (.defaultIgnored p.name site.typeName method) else pure ())
      Build.allocParam
        { sequence := UInt16.ofNat (position + 1), name := p.name, flags := p.flags
          constant := if p.flags.contains ParamFlags.hasDefault then p.default else none }) := by
  unfold Setup.makeParam Setup.demand
  dsimp only
  split
  · rfl
  · split <;> split <;> simp only [pure_bind]

theorem keeps_makeParam (method : String) (position : Nat) (p : ParamPlan) :
    Build.Keeps R (setup.makeParam site method position p) := by
  rw [makeParam_eq]
  refine Build.Keeps.bind ?_ fun _ => Build.Keeps.bind (keeps_demand _ _) fun _ =>
    Build.Keeps.bind ?_ fun _ => AllowsMaking.allocParam _
  · split
    · exact Build.Keeps.throw _
    · exact Build.Keeps.pure ()
  · split
    · exact AllowsMaking.notice _ rfl
    · exact Build.Keeps.pure ()

theorem keeps_makeMethodGenerics (m : MethodPlan) :
    Build.Keeps Stages (setup.makeMethodGenerics site m) := by
  unfold Setup.makeMethodGenerics
  split
  · exact Build.Keeps.pure _
  · exact Build.Keeps.bind (keeps_declareGenerics _ _ _ _) fun _ =>
      Build.Keeps.bind (keeps_constrainGenerics _ _) fun _ => Build.Keeps.pure _

theorem keeps_makeMethod (m : MethodPlan) : Build.Keeps Stages (setup.makeMethod site m) :=
  Build.Keeps.bind (keeps_makeMethodGenerics site m) fun _ =>
    Build.Keeps.bind (keeps_resolve _ _) fun _ =>
      Build.Keeps.bind (Build.Keeps.mapM (fun _ => keeps_resolve _ _) _) fun _ =>
        Build.Keeps.bind (Build.Keeps.mapM (fun _ => keeps_makeParam site _ _ _) _).stages fun _ =>
          Build.Keeps.bind Build.Keeps.get fun _ => keeps_allocMethod _

omit [AllowsMaking R] in
theorem keeps_wireAccessor (staged : Staged) (owner : String) (accessor : Accessor)
    (m : Option MethodPlan) :
    Build.Keeps R (Setup.wireAccessor staged owner accessor m) := by
  unfold Setup.wireAccessor
  split
  · exact Build.Keeps.pure _
  · refine Build.Keeps.bind Build.Keeps.get fun _ => ?_
    split
    · exact Build.Keeps.pure _
    · exact Build.Keeps.throw _

theorem keeps_makeProperty (staged : Staged) (p : PropertyPlan) :
    Build.Keeps R (setup.makeProperty site staged p) :=
  Build.Keeps.bind (keeps_resolve _ _) fun _ =>
    Build.Keeps.bind (keeps_wireAccessor staged _ _ _) fun _ =>
      Build.Keeps.bind (keeps_wireAccessor staged _ _ _) fun _ => AllowsMaking.allocProperty _

theorem keeps_makeEvent (staged : Staged) (e : EventPlan) :
    Build.Keeps R (setup.makeEvent site staged e) :=
  Build.Keeps.bind (keeps_resolve _ _) fun _ =>
    Build.Keeps.bind (keeps_wireAccessor staged _ _ _) fun _ =>
      Build.Keeps.bind (keeps_wireAccessor staged _ _ _) fun _ =>
        Build.Keeps.bind (keeps_wireAccessor staged _ _ _) fun _ => AllowsMaking.allocEvent _

omit [AllowsMaking R] in
/-- A member is made and kept with its token. -/
theorem keeps_withToken {α β : Type}
    {tokenOf : α → Token} {make : α → Build β} (h : ∀ a, Build.Keeps R (make a)) (a : α) :
    Build.Keeps R (do pure (tokenOf a, ← make a)) :=
  Build.Keeps.bind (h a) fun _ => Build.Keeps.pure _

theorem keeps_makeFields (p : TypePlan) :
    Build.Keeps R (p.fields.toList.mapM fun f => do
      pure (f.token, ← setup.makeField site f)) :=
  Build.Keeps.mapM (keeps_withToken (keeps_makeField site)) _

theorem keeps_makeProperties (staged : Staged) (p : TypePlan) :
    Build.Keeps R (p.properties.toList.mapM fun q => do
      pure (q.token, ← setup.makeProperty site staged q)) :=
  Build.Keeps.mapM (keeps_withToken (keeps_makeProperty site staged)) _

theorem keeps_makeEvents (staged : Staged) (p : TypePlan) :
    Build.Keeps R (p.events.toList.mapM fun e => do
      pure (e.token, ← setup.makeEvent site staged e)) :=
  Build.Keeps.mapM (keeps_withToken (keeps_makeEvent site staged)) _

/-- All of staging only makes objects. -/
theorem keeps_stage (p : TypePlan) : Build.Keeps Stages (setup.stage site p) :=
  Build.Keeps.bind (keeps_makeFields site p).stages fun _ =>
    Build.Keeps.bind (Build.Keeps.mapM (keeps_withToken (keeps_makeMethod site)) _) fun _ =>
      Build.Keeps.bind (keeps_makeProperties site _ p).stages fun _ =>
        Build.Keeps.bind (keeps_makeEvents site _ p).stages fun _ => Build.Keeps.pure _

end Members

/-! ## Tokens of what is staged -/

theorem yields_withToken {α β : Type} {tokenOf : α → Token} {make : α → Build β} {a : α}
    {e : Token × β} {s s' : BuildState}
    (hrun : Build.Yields (do pure (tokenOf a, ← make a)) s e s') :
    e.1 = tokenOf a ∧ (make a).Yields s e.2 s' := by
  obtain ⟨made, _, hmake, hpure⟩ := Build.yields_bind.mp hrun
  obtain ⟨rfl, rfl⟩ := Build.yields_pure.mp hpure
  exact ⟨rfl, hmake⟩

/-- Members that are made and kept with their tokens have the tokens of their plans. -/
theorem tokens_of_yields {α β : Type} {tokenOf : α → Token} {make : α → Build β} {l : List α}
    {made : List (Token × β)} {s s' : BuildState}
    (hrun : Build.Yields (l.mapM fun a => do pure (tokenOf a, ← make a)) s made s') :
    made.map Prod.fst = l.map tokenOf := by
  induction l generalizing s made with
  | nil =>
    obtain ⟨rfl, -⟩ := Build.yields_mapM_nil.mp hrun
    rfl
  | cons a l ih =>
    obtain ⟨b, s₁, rest, hfirst, hrest, rfl⟩ := Build.yields_mapM_cons.mp hrun
    obtain ⟨htoken, -⟩ := yields_withToken hfirst
    rw [List.map_cons, List.map_cons, htoken, ih hrest]

/-- The passes of staging over the four kinds of members. -/
theorem yields_stage {setup : Setup} {site : MemberSite} {p : TypePlan} {staged : Staged}
    {s s' : BuildState} (hrun : (setup.stage site p).Yields s staged s') :
    ∃ fields s₁ methods s₂ properties s₃ events,
      Build.Yields (p.fields.toList.mapM fun f => do
        pure (f.token, ← setup.makeField site f)) s fields s₁ ∧
      Build.Yields (p.methods.toList.mapM fun m => do
        pure (m.token, ← setup.makeMethod site m)) s₁ methods s₂ ∧
      Build.Yields (p.properties.toList.mapM fun q => do
        pure (q.token, ← setup.makeProperty site
          { fields := fields.toArray, methods := methods.toArray } q)) s₂ properties s₃ ∧
      Build.Yields (p.events.toList.mapM fun e => do
        pure (e.token, ← setup.makeEvent site
          { fields := fields.toArray, methods := methods.toArray } e)) s₃ events s' ∧
      staged = ⟨fields.toArray, methods.toArray, properties.toArray, events.toArray⟩ := by
  unfold Setup.stage at hrun
  obtain ⟨fields, s₁, hfields, hrun⟩ := Build.yields_bind.mp hrun
  obtain ⟨methods, s₂, hmethods, hrun⟩ := Build.yields_bind.mp hrun
  obtain ⟨properties, s₃, hproperties, hrun⟩ := Build.yields_bind.mp hrun
  obtain ⟨events, s₄, hevents, hpure⟩ := Build.yields_bind.mp hrun
  obtain ⟨rfl, rfl⟩ := Build.yields_pure.mp hpure
  exact ⟨fields, s₁, methods, s₂, properties, s₃, events, hfields, hmethods, hproperties, hevents,
    rfl⟩

/-- What has been staged goes by the tokens of the plan, kind by kind. -/
theorem stage_tokens {setup : Setup} {site : MemberSite} {p : TypePlan} {staged : Staged}
    {s s' : BuildState} (hrun : (setup.stage site p).Yields s staged s') :
    staged.fields.toList.map Prod.fst = p.fields.toList.map (·.token) ∧
    staged.methods.toList.map Prod.fst = p.methods.toList.map (·.token) ∧
    staged.properties.toList.map Prod.fst = p.properties.toList.map (·.token) ∧
    staged.events.toList.map Prod.fst = p.events.toList.map (·.token) := by
  obtain ⟨fields, s₁, methods, s₂, properties, s₃, events, hfields, hmethods, hproperties,
    hevents, rfl⟩ := yields_stage hrun
  exact ⟨tokens_of_yields hfields, tokens_of_yields hmethods, tokens_of_yields hproperties,
    tokens_of_yields hevents⟩

end ClrImage
