import ClrImage.Proofs.Audit
import ClrImage.Proofs.CallEffects

/-!
# Populating a type again

A type that has its members refuses to get them again. The refusal comes late: before the first
taken token is noticed, all members have been made again, parameters have been looked up again, and
accessors wired again. This module compares the two runs of every step. Where a step has succeeded,
it succeeds again in **any** later state, and leaves nothing behind that anything leads to.

- `Later`: a state that has all that another one has.
- `Idles`: nothing has changed but objects that nothing leads to.
- `Build.Repeats`: a step that has succeeded succeeds again, and idles. Its rules are
  `Repeats.bind`, `Repeats.mapM`, `Repeats.foldlM`, …
- `repeats_stage`: staging repeats.
- `repopulation_refused`: what populating a type again gives, after any further calls.
-/

namespace ClrImage

/-! ## Later states -/

/-- The second state has the objects, the links, the registered parameters and the recorded owners
of the first one. -/
structure Later (s s' : BuildState) : Prop extends BuildState.Extends s s' where
  gains : s.store.generics.Extends GenericParam.Gains s'.store.generics
  closed : s.RegistryClosed → s'.RegistryClosed

namespace Later

variable {s s₁ s' : BuildState}

theorem refl (s : BuildState) : Later s s := ⟨.refl s, .refl GenericParam.Gains.refl _, id⟩

theorem trans (h₁ : Later s s₁) (h₂ : Later s₁ s') : Later s s' :=
  ⟨h₁.toExtends.trans h₂.toExtends, h₁.gains.trans GenericParam.Gains.trans h₂.gains,
    h₂.closed ∘ h₁.closed⟩

instance : IsPreorder BuildState Later where
  refl := refl
  trans _ _ _ := trans

theorem of_sameGenerics (h : SameGenerics s s') : Later s s' :=
  ⟨h.toExtends, h.generics_eq ▸ .refl GenericParam.Gains.refl _, h.closed⟩

theorem keeps_registerGeneric (key : GenericKey) (owner : GenericOwner) (g : GenericPlan) :
    Build.Keeps Later (Build.registerGeneric key owner g) := by
  intro s
  obtain ⟨h, isNew, s', hrun, hregisters⟩ := registerGeneric_registers (fun _ => key) owner g s
  have hstages := hregisters.stages
  rw [hrun.outcome_snd]
  refine ⟨hstages.toExtends, ?_, hstages.closed⟩
  cases hheld : s.registry.get? key with
  | some held =>
    obtain ⟨-, rfl⟩ := (registerGeneric_of_some hheld owner g).unique hrun
    exact .refl GenericParam.Gains.refl _
  | none =>
    obtain ⟨-, rfl⟩ := (registerGeneric_of_none hheld owner g).unique hrun
    exact Arena.extends_alloc GenericParam.Gains.refl _ _

instance : AllowsCalls Later where
  notice n _ := (keeps_notice n).mono fun _ _ h => of_sameGenerics h.toSameGenerics
  allocField f := (keeps_allocField f).mono fun _ _ h => of_sameGenerics h.toSameGenerics
  allocParam p := (keeps_allocParam p).mono fun _ _ h => of_sameGenerics h.toSameGenerics
  allocProperty p := (keeps_allocProperty p).mono fun _ _ h => of_sameGenerics h.toSameGenerics
  allocEvent e := (keeps_allocEvent e).mono fun _ _ h => of_sameGenerics h.toSameGenerics
  tells n := (keeps_notice n).mono fun _ _ h => of_sameGenerics h.toSameGenerics
  allocMethod m s := ⟨(keeps_allocMethod m s).toExtends, .refl GenericParam.Gains.refl _, id⟩
  registerGeneric := keeps_registerGeneric
  modifyGeneric h _ hf s :=
    have hstages := keeps_modifyGeneric h (fun x => (hf x).toAlike) s
    ⟨hstages.toExtends, Arena.extends_modify GenericParam.Gains.refl _ h hf, hstages.closed⟩
  modifyType h _ hf s :=
    ⟨{ BuildState.Extends.refl s with
        types := Arena.extends_modify TypeDef.Alike.refl _ h fun t => (hf t).toAlike },
      .refl GenericParam.Gains.refl _, id⟩
  publishes _ _ _ _ _ h := of_sameGenerics h.into.toSameGenerics
  record _ s := ⟨{ BuildState.Extends.refl s with }, .refl GenericParam.Gains.refl _, id⟩

end Later

/-- Objects have been made that nothing leads to, and nothing else has changed. -/
structure Idles (s s' : BuildState) : Prop extends Stages s s' where
  registry_eq : s'.registry = s.registry
  generics_eq : s'.store.generics = s.store.generics

namespace Idles

variable {s s₁ s' : BuildState}

theorem refl (s : BuildState) : Idles s s := ⟨.refl s, rfl, rfl⟩

theorem trans (h₁ : Idles s s₁) (h₂ : Idles s₁ s') : Idles s s' :=
  ⟨h₁.toStages.trans h₂.toStages, h₂.registry_eq.trans h₁.registry_eq,
    h₂.generics_eq.trans h₁.generics_eq⟩

instance : IsPreorder BuildState Idles where
  refl := refl
  trans _ _ _ := trans

theorem keeps_allocMethod (m : MethodDef) : Build.Keeps Idles (Build.allocMethod m) :=
  fun s => ⟨ClrImage.keeps_allocMethod m s, rfl, rfl⟩

theorem later (h : Idles s s') : Later s s' :=
  ⟨h.toExtends, h.generics_eq ▸ .refl GenericParam.Gains.refl _, h.closed⟩

theorem of_allocates (h : Allocates s s') : Idles s s' := ⟨h.stages, h.registry_eq, h.generics_eq⟩

end Idles

/-! ## Steps that repeat -/

/-- Where the one step has succeeded, the other one succeeds in every later state and idles there,
and their values are related. -/
def Build.Repeats {α β : Type} (R : α → β → Prop) (step : Build α) (again : Build β) : Prop :=
  ∀ s a s', s.RegistryClosed → step.Yields s a s' → Later s s' ∧
    ∀ t, Later s' t → ∃ b t', again.Yields t b t' ∧ Idles t t' ∧ R a b

namespace Build.Repeats

variable {α β γ δ : Type} {R : α → β → Prop} {S : γ → δ → Prop} {step : Build α} {again : Build β}

theorem pure {a : α} {b : β} (h : R a b) : Repeats R (pure a : Build α) (pure b : Build β) := by
  intro s a' s' _ hrun
  obtain ⟨rfl, rfl⟩ := Build.yields_pure.mp hrun
  exact ⟨.refl s, fun t _ => ⟨b, t, rfl, .refl t, h⟩⟩

/-- There is nothing to repeat. -/
theorem throw (e : Failure) (again : Build β) : Repeats R (throw e : Build α) again :=
  fun _ _ _ _ hrun => (Build.yields_throw.mp hrun).elim

/-- A step that can be taken anywhere and only makes members repeats. -/
theorem of_succeeds (hstep : Build.Keeps Later step) (hagain : Build.Succeeds again)
    (hidles : Build.Keeps Idles again) (hR : ∀ a b, R a b) : Repeats R step again := by
  intro s a s' _ hrun
  refine ⟨hstep.of_yields hrun, fun t _ => ?_⟩
  obtain ⟨b, t', hyields⟩ := hagain t
  exact ⟨b, t', hyields, hidles.of_yields hyields, hR a b⟩

theorem bind {next : α → Build γ} {next' : β → Build δ} (h : Repeats R step again)
    (hnext : ∀ a b, R a b → Repeats S (next a) (next' b)) :
    Repeats S (step >>= next) (again >>= next') := by
  intro s c s' hclosed hrun
  obtain ⟨a, s₁, hfirst, hrest⟩ := Build.yields_bind.mp hrun
  obtain ⟨hlater₁, hagain₁⟩ := h s a s₁ hclosed hfirst
  -- later than the whole run is later than each of its parts
  have hparts : ∀ b, R a b → Later s₁ s' ∧
      ∀ t, Later s' t → ∃ d t', (next' b).Yields t d t' ∧ Idles t t' ∧ S c d :=
    fun b hab => hnext a b hab s₁ c s' (hlater₁.closed hclosed) hrest
  obtain ⟨b₀, -, -, -, hab₀⟩ := hagain₁ s₁ (.refl s₁)
  have hlater₂ : Later s₁ s' := (hparts b₀ hab₀).1
  refine ⟨hlater₁.trans hlater₂, fun t ht => ?_⟩
  obtain ⟨b, t₁, hfirst', hidles₁, hab⟩ := hagain₁ t (hlater₂.trans ht)
  obtain ⟨d, t', hrest', hidles₂, hcd⟩ := (hparts b hab).2 t₁ (ht.trans hidles₁.later)
  exact ⟨d, t', Build.yields_bind.mpr ⟨b, t₁, hfirst', hrest'⟩, hidles₁.trans hidles₂, hcd⟩

theorem mapM {ι : Type} {f : ι → Build α} {f' : ι → Build β} {l : List ι}
    (h : ∀ i, Repeats R (f i) (f' i)) :
    Repeats (List.Forall₂ R) (List.mapM f l) (List.mapM f' l) := by
  induction l with
  | nil =>
    rw [List.mapM_nil, List.mapM_nil]
    exact .pure .nil
  | cons i l ih =>
    rw [List.mapM_cons, List.mapM_cons]
    exact .bind (h i) fun a b hab => .bind ih fun as bs habs => .pure (.cons hab habs)

theorem foldlM {ι : Type} {f : α → ι → Build α} {f' : β → ι → Build β} {l : List ι}
    (h : ∀ a b i, R a b → Repeats R (f a i) (f' b i)) {a : α} {b : β} (hab : R a b) :
    Repeats R (List.foldlM f a l) (List.foldlM f' b l) := by
  induction l generalizing a b with
  | nil => exact .pure hab
  | cons i l ih =>
    rw [List.foldlM_cons, List.foldlM_cons]
    exact .bind (h a b i hab) fun a₁ b₁ hab₁ => ih hab₁

/-- What is only told may be told again in other words. -/
theorem notice (n n' : Notice) : Repeats Eq (Build.notice n) (Build.notice n') :=
  .of_succeeds (AllowsCalls.tells n) (.modify _)
    ((keeps_notice n').mono fun _ _ => Idles.of_allocates) fun _ _ => rfl

end Build.Repeats

/-! ## Making members -/

section Members

variable {setup : Setup}

/-- A reference that has a signature has it later. -/
theorem repeats_resolve (hresolver : setup.resolver = Resolver.default) (topLevel : Token)
    (r : TypeRef) : Build.Repeats Eq (setup.resolve topLevel r) (setup.resolve topLevel r) := by
  intro s sig s' _ hrun
  obtain ⟨hsig, rfl⟩ := (yields_resolve hresolver).mp hrun
  exact ⟨.refl s, fun t ht =>
    ⟨sig, t, (yields_resolve hresolver).mpr ⟨Scope.resolve_extends (ht.scope topLevel) hsig, rfl⟩,
      .refl t, rfl⟩⟩

/-- A parameter that is registered, and has the owner, is only looked up. -/
theorem declareGeneric_of_held {owner : GenericOwner} {topLevel : Token} {g : GenericPlan}
    {s : BuildState} {h : GenericHandle} {x : GenericParam}
    (acc : Array GenericHandle × Array PendingGeneric)
    (hheld : s.registry.get? (s.registry.key g.index topLevel) = some h)
    (hx : s.store.generics.get? h = some x) (howner : owner ∈ x.owners) :
    ∃ listed, (Setup.declareGeneric owner topLevel acc g).Yields s (listed, acc.2) s := by
  have howned : (Build.addOwner h owner).Yields s () s := by
    have hcontains : x.isOwnedBy owner = true := by
      simpa [GenericParam.isOwnedBy] using howner
    unfold Build.addOwner
    rw [Build.yields_get_bind, hx]
    dsimp only
    rw [if_pos hcontains]
    rfl
  refine ⟨if acc.1.contains h then acc.1 else acc.1.push h, ?_⟩
  unfold Setup.declareGeneric
  rw [Build.yields_get_bind]
  refine Build.yields_bind.mpr ⟨_, s, registerGeneric_of_some hheld owner g, ?_⟩
  exact Build.yields_bind.mpr ⟨(), s, howned, rfl⟩

/-- Nothing is pending for parameters that are registered again. -/
theorem repeats_declareGeneric (owner : GenericOwner) (topLevel : Token)
    (acc acc' : Array GenericHandle × Array PendingGeneric) (g : GenericPlan)
    (hacc : acc'.2 = #[]) :
    Build.Repeats (fun _ out' => out'.2 = #[]) (Setup.declareGeneric owner topLevel acc g)
      (Setup.declareGeneric owner topLevel acc' g) := by
  intro s out s' hclosed hrun
  refine ⟨(keeps_declareGeneric_of_allows owner topLevel acc g).of_yields hrun, fun t ht => ?_⟩
  -- the first run has left the parameter registered, with the owner
  obtain ⟨h, new, s₁, hrun', hregisters⟩ :=
    declareGeneric_registers owner topLevel acc.1 acc.2 g s
  obtain ⟨-, rfl⟩ := hrun.unique hrun'
  have hheld : s'.registry.get? (s.registry.key g.index topLevel) = some h :=
    (List.forall₂_cons.mp hregisters.objects_eq).1
  have howners := (enrols_declareGeneric hclosed hrun).listed g List.mem_cons_self h hheld
  obtain ⟨x, hx⟩ := hregisters.stages.closed hclosed _ h hheld
  have howner : owner ∈ x.owners := by
    rw [BuildState.ownersOf_of_some hx] at howners
    rw [howners]
    exact mem_enrol.mpr (.inr rfl)
  -- and so has every later state
  have hkey : t.registry.key g.index topLevel = s.registry.key g.index topLevel :=
    GenericRegistry.key_congr (ht.registryScope.trans hregisters.scope) g.index topLevel
  obtain ⟨y, hy, hxy⟩ := ht.gains h x hx
  have hheld' : t.registry.get? (t.registry.key g.index topLevel) = some h :=
    hkey ▸ ht.registry _ h hheld
  obtain ⟨listed, hyields⟩ := declareGeneric_of_held acc' hheld' hy (hxy.owners owner howner)
  exact ⟨_, t, hyields, .refl t, hacc⟩

/-- The parameters of a method are registered and constrained once. -/
theorem repeats_makeMethodGenerics {site site' : MemberSite}
    (hsite : site'.topLevel = site.topLevel) (m : MethodPlan) :
    Build.Repeats (fun _ _ => True) (setup.makeMethodGenerics site m)
      (setup.makeMethodGenerics site' m) := by
  unfold Setup.makeMethodGenerics
  rw [hsite]
  split
  next => exact .pure trivial
  next params _ =>
    refine .bind (R := fun _ out' => out'.2 = #[]) ?_ fun out out' hout => ?_
    · exact .foldlM (fun acc acc' g hacc =>
        repeats_declareGeneric (.method m.token) site.topLevel acc acc' g hacc) rfl
    · dsimp only
      rw [hout]
      refine .bind (R := fun _ _ => True) ?_ fun _ _ _ => .pure trivial
      exact .of_succeeds (keeps_constrainGenerics_of_allows site.topLevel out.2) (.pure ())
        (fun t => .refl t) fun _ _ => trivial

/-- A datum that was there is there again. -/
theorem repeats_demand (lacking : Bool) (datum datum' : MissingDatum) :
    Build.Repeats Eq (setup.demand lacking datum) (setup.demand lacking datum') := by
  unfold Setup.demand Setup.missing
  split
  · split
    · exact .throw _ _
    · exact .notice _ _
  · exact .pure rfl

theorem repeats_makeParam (site site' : MemberSite) (method : String) (position : Nat)
    (p : ParamPlan) :
    Build.Repeats (fun _ _ => True) (setup.makeParam site method position p)
      (setup.makeParam site' method position p) := by
  rw [makeParam_eq, makeParam_eq]
  refine .bind (R := Eq) ?_ fun _ _ _ => .bind (repeats_demand _ _ _) fun _ _ _ =>
    .bind (R := Eq) ?_ fun _ _ _ => ?_
  · split
    · exact .throw _ _
    · exact .pure rfl
  · split
    · exact .notice _ _
    · exact .pure rfl
  · exact .of_succeeds (AllowsMaking.allocParam _) (.modifyGet _)
      ((keeps_allocParam _).mono fun _ _ => Idles.of_allocates) fun _ _ => trivial

/-- Two sets of staged members of which the methods have the same tokens, in order. -/
def Staged.SameMethods (staged staged' : Staged) : Prop :=
  staged'.methods.toList.map Prod.fst = staged.methods.toList.map Prod.fst

/-- So one has a method with a token if the other one has. -/
theorem Staged.SameMethods.isSome {staged staged' : Staged} (h : staged.SameMethods staged')
    {token : Token} (hfound : (staged.method? token).isSome = true) :
    (staged'.method? token).isSome = true := by
  have hmem (staged : Staged) : (staged.method? token).isSome = true ↔
      token ∈ staged.methods.toList.map Prod.fst := by
    rw [Staged.method?, Option.isSome_map, Array.find?_isSome, List.mem_map]
    simp
  rw [hmem, h, ← hmem]
  exact hfound

/-- The method of an accessor is found again: among the staged methods, or among those that have
been published. -/
theorem repeats_wireAccessor {staged staged' : Staged} (hstaged : staged.SameMethods staged')
    (owner owner' : String) (accessor : Accessor) (m : Option MethodPlan) :
    Build.Repeats (fun _ _ => True) (Setup.wireAccessor staged owner accessor m)
      (Setup.wireAccessor staged' owner' accessor m) := by
  unfold Setup.wireAccessor
  cases m with
  | none => exact .pure trivial
  | some m =>
    dsimp only
    intro s semantics s' _ hrun
    rw [Build.yields_get_bind] at hrun
    split at hrun
    next h hfound =>
      obtain ⟨-, rfl⟩ := Build.yields_pure.mp hrun
      refine ⟨.refl s, fun t ht => ?_⟩
      have hagain : (staged'.method? m.token <|> t.links.methods.get? m.token).isSome = true := by
        rw [Option.orElse_eq_orElse, Option.orElse_eq_or, Option.isSome_or, Bool.or_eq_true]
        rw [Option.orElse_eq_orElse, Option.orElse_eq_or, Option.or_eq_some_iff] at hfound
        rcases hfound with hown | ⟨-, hlinked⟩
        · exact .inl (hstaged.isSome (hown ▸ rfl))
        · exact .inr (ht.links.methods _ _ hlinked ▸ rfl)
      obtain ⟨h', hh'⟩ := Option.isSome_iff_exists.mp hagain
      refine ⟨#[⟨accessor.role, h'⟩], t, ?_, .refl t, trivial⟩
      rw [Build.yields_get_bind, hh']
      rfl
    next => cases Build.yields_throw.mp hrun

variable (hresolver : setup.resolver = Resolver.default) {site site' : MemberSite}
  (hsite : site'.topLevel = site.topLevel)
include hresolver hsite

theorem repeats_makeField (f : FieldPlan) :
    Build.Repeats (fun _ _ => True) (setup.makeField site f) (setup.makeField site' f) := by
  rw [makeField_eq, makeField_eq, hsite]
  refine .bind (repeats_resolve hresolver _ _) fun _ _ _ => ?_
  refine .bind (repeats_demand _ _ _) fun _ _ _ => ?_
  refine .bind (repeats_demand _ _ _) fun _ _ _ => ?_
  exact .of_succeeds (AllowsMaking.allocField _) (.modifyGet _)
    ((keeps_allocField _).mono fun _ _ => Idles.of_allocates) fun _ _ => trivial

theorem repeats_makeMethod (m : MethodPlan) :
    Build.Repeats (fun _ _ => True) (setup.makeMethod site m) (setup.makeMethod site' m) := by
  unfold Setup.makeMethod
  refine .bind (repeats_makeMethodGenerics hsite m) fun _ _ _ => ?_
  rw [hsite]
  refine .bind (repeats_resolve hresolver _ _) fun _ _ _ => ?_
  refine .bind (.mapM fun p => repeats_resolve hresolver _ _) fun _ _ _ => ?_
  refine .bind (.mapM fun p => repeats_makeParam site site' m.name p.2 p.1) fun _ _ _ => ?_
  refine .of_succeeds ?_ ?_ ?_ fun _ _ => trivial
  · exact Build.Keeps.bind Build.Keeps.get fun _ => AllowsCalls.allocMethod _
  · exact .bind .get fun _ => .modifyGet _
  · exact Build.Keeps.bind Build.Keeps.get fun _ => Idles.keeps_allocMethod _

theorem repeats_makeProperty {staged staged' : Staged} (hstaged : staged.SameMethods staged')
    (p : PropertyPlan) : Build.Repeats (fun _ _ => True) (setup.makeProperty site staged p)
      (setup.makeProperty site' staged' p) := by
  unfold Setup.makeProperty
  rw [hsite]
  refine .bind (repeats_resolve hresolver _ _) fun _ _ _ => ?_
  refine .bind (repeats_wireAccessor hstaged _ _ _ _) fun _ _ _ => ?_
  refine .bind (repeats_wireAccessor hstaged _ _ _ _) fun _ _ _ => ?_
  exact .of_succeeds (AllowsMaking.allocProperty _) (.modifyGet _)
    ((keeps_allocProperty _).mono fun _ _ => Idles.of_allocates) fun _ _ => trivial

theorem repeats_makeEvent {staged staged' : Staged} (hstaged : staged.SameMethods staged')
    (e : EventPlan) : Build.Repeats (fun _ _ => True) (setup.makeEvent site staged e)
      (setup.makeEvent site' staged' e) := by
  unfold Setup.makeEvent
  rw [hsite]
  refine .bind (repeats_resolve hresolver _ _) fun _ _ _ => ?_
  refine .bind (repeats_wireAccessor hstaged _ _ _ _) fun _ _ _ => ?_
  refine .bind (repeats_wireAccessor hstaged _ _ _ _) fun _ _ _ => ?_
  refine .bind (repeats_wireAccessor hstaged _ _ _ _) fun _ _ _ => ?_
  exact .of_succeeds (AllowsMaking.allocEvent _) (.modifyGet _)
    ((keeps_allocEvent _).mono fun _ _ => Idles.of_allocates) fun _ _ => trivial

omit hresolver hsite in
/-- Members that are kept with their tokens have the same ones in both runs. -/
theorem repeats_withToken {α β : Type} {tokenOf : α → Token} {make make' : α → Build β}
    (h : ∀ a, Build.Repeats (fun _ _ => True) (make a) (make' a)) (a : α) :
    Build.Repeats (fun e e' : Token × β => e'.1 = e.1) (do pure (tokenOf a, ← make a))
      (do pure (tokenOf a, ← make' a)) :=
  .bind (h a) fun _ _ _ => .pure rfl

/-- The members of a type are made again, and nothing else changes. -/
theorem repeats_stage (p : TypePlan) :
    Build.Repeats (fun _ _ => True) (setup.stage site p) (setup.stage site' p) := by
  unfold Setup.stage
  refine .bind (.mapM (repeats_withToken (repeats_makeField hresolver hsite))) fun _ _ _ => ?_
  refine .bind (.mapM (repeats_withToken (repeats_makeMethod hresolver hsite)))
    fun methods methods' hmethods => ?_
  have hstaged (fields fields' : Array (Token × FieldHandle)) :
      Staged.SameMethods { fields, methods := methods.toArray }
        { fields := fields', methods := methods'.toArray } := by
    show methods'.map Prod.fst = methods.map Prod.fst
    rw [← List.forall₂_eq_eq_eq, List.forall₂_map_left_iff, List.forall₂_map_right_iff]
    exact hmethods.flip
  refine .bind (.mapM (repeats_withToken (repeats_makeProperty hresolver hsite (hstaged _ _))))
    fun _ _ _ => ?_
  refine .bind (.mapM (repeats_withToken (repeats_makeEvent hresolver hsite (hstaged _ _))))
    fun _ _ _ => ?_
  exact .pure trivial

end Members

/-! ## The refusal -/

/-- The token of the first field, or else of the first method, property or event. -/
def TypePlan.firstMember? (p : TypePlan) : Option Token :=
  (p.fields.toList.map (·.token)).head? <|> (p.methods.toList.map (·.token)).head? <|>
    (p.properties.toList.map (·.token)).head? <|> (p.events.toList.map (·.token)).head?

/-- If all tokens are taken, the first one is found to be. -/
theorem taken?_of_linked {k : ObjectKind} {m : WriteOnce Token (Handle k)}
    {staged : Array (Token × Handle k)}
    (h : ∀ token ∈ staged.toList.map Prod.fst, (m.get? token).isSome = true) :
    LinkTable.taken? m staged = (staged.toList.map Prod.fst).head? := by
  unfold LinkTable.taken?
  rw [← Array.find?_toList, List.head?_map]
  cases hlist : staged.toList with
  | nil => rfl
  | cons e rest =>
    have hfirst : (m.get? e.1).isSome = true := h e.1 (by simp [hlist])
    simp [hfirst]

/-- The tokens of all members of a type are linked. -/
structure TypePlan.MembersLinked (p : TypePlan) (t : LinkTable) : Prop where
  fields : ∀ token ∈ p.fields.toList.map (·.token), (t.fields.get? token).isSome = true
  methods : ∀ token ∈ p.methods.toList.map (·.token), (t.methods.get? token).isSome = true
  properties : ∀ token ∈ p.properties.toList.map (·.token), (t.properties.get? token).isSome = true
  events : ∀ token ∈ p.events.toList.map (·.token), (t.events.get? token).isSome = true

/-- A type of which the staged members have been published has all of them linked. -/
theorem TypePlan.MembersLinked.of_published {p : TypePlan} {setup : Setup} {site : MemberSite}
    {staged : Staged} {type : TypeHandle} {s s' s₁ s₂ : BuildState} {t : LinkTable}
    (hrun : (setup.stage site p).Yields s staged s') (hpublished : Published type staged s₁ s₂)
    (hgrows : s₂.links.Extends t) : p.MembersLinked t := by
  obtain ⟨hfields, hmethods, hproperties, hevents⟩ := stage_tokens hrun
  have hlinked {k : ObjectKind} {m m' : WriteOnce Token (Handle k)} (hm : m.Extends m')
      {members : List (Token × Handle k)} (h : ∀ e ∈ members, m.get? e.1 = some e.2) :
      ∀ token ∈ members.map Prod.fst, (m'.get? token).isSome = true := by
    intro token htoken
    obtain ⟨e, he, rfl⟩ := List.mem_map.mp htoken
    rw [hm _ _ (h e he)]
    rfl
  exact ⟨hfields ▸ hlinked hgrows.fields hpublished.fields,
    hmethods ▸ hlinked hgrows.methods hpublished.methods,
    hproperties ▸ hlinked hgrows.properties hpublished.properties,
    hevents ▸ hlinked hgrows.events hpublished.events⟩

/-- So the first one of them is found to be taken. -/
theorem TypePlan.MembersLinked.firstTaken?_eq {p : TypePlan} {t : LinkTable} {setup : Setup}
    {site : MemberSite} {staged : Staged} {s s' : BuildState} (h : p.MembersLinked t)
    (hrun : (setup.stage site p).Yields s staged s') :
    t.firstTaken? staged = p.firstMember? := by
  obtain ⟨hfields, hmethods, hproperties, hevents⟩ := stage_tokens hrun
  unfold LinkTable.firstTaken? TypePlan.firstMember?
  rw [taken?_of_linked (hfields ▸ h.fields), taken?_of_linked (hmethods ▸ h.methods),
    taken?_of_linked (hproperties ▸ h.properties), taken?_of_linked (hevents ▸ h.events),
    hfields, hmethods, hproperties, hevents]

/-- What may be asked of a build: to declare its types, or one of the later calls. -/
inductive ContextCall
  | declare
  | call (call : BuildCall)

namespace Setup

def contextCall (setup : Setup) : ContextCall → Build Unit
  | .declare => setup.declareTypes
  | .call call => setup.call call

/-- The state behind some calls, each of which may have failed, from nothing. -/
def contextAfter (setup : Setup) (calls : List ContextCall) : BuildState :=
  calls.foldl (fun s call => ((setup.contextCall call).outcome s).2) (.initial setup.config)

/-- The registry of a build names parameters that are there. -/
theorem registryClosed_contextAfter (setup : Setup) (calls : List ContextCall) :
    (setup.contextAfter calls).RegistryClosed := by
  have hstep (call : ContextCall) (s : BuildState) (hs : s.RegistryClosed) :
      ((setup.contextCall call).outcome s).2.RegistryClosed := by
    cases call with
    | declare =>
      have hsame := keeps_declareTypes_sameOwners setup s
      intro k h hk
      obtain ⟨x, hx⟩ := hs k h (hsame.registry ▸ hk)
      have hstanding := hsame.params h
      rw [hx] at hstanding
      obtain ⟨y, hy, -⟩ := Option.map_eq_some_iff.mp hstanding
      exact ⟨y, hy⟩
    | call call => exact (keeps_call (R := Later) call s).closed hs
  unfold contextAfter
  suffices ∀ s : BuildState, s.RegistryClosed →
      (calls.foldl (fun s call => ((setup.contextCall call).outcome s).2) s).RegistryClosed from
    this _ fun k h hk => by
      rw [show (BuildState.initial setup.config).registry.get? k = none from WriteOnce.get?_empty k]
        at hk
      cases hk
  induction calls with
  | nil => exact fun _ => id
  | cons call calls ih => exact fun s hs => ih _ (hstep call s hs)

end Setup

/-- Members that have been made and cannot be published. -/
theorem fails_populate_of_publish {setup : Setup} {p : TypePlan} {h : TypeHandle} {d : TypeDef}
    {staged : Staged} {e : Failure} {s s₁ s' : BuildState}
    (hlink : s.links.types.get? p.token = some h) (hd : s.store.types.get? h = some d)
    (hstage : (setup.stage ⟨s.store.fullName d, setup.blueprint.topLevel p⟩ p).Yields s staged s₁)
    (hpublish : (Build.publish h staged).Fails s₁ e s') : (setup.populate p).Fails s e s' := by
  have hmanaged : (Build.managedType p).Yields s (h, d) s :=
    Build.yields_managedType.mpr ⟨hlink, hd, rfl⟩
  unfold Setup.populate Build.Fails
  rw [Build.outcome_bind_of_yields hmanaged, Build.outcome_bind, Build.outcome_get]
  dsimp only
  rw [Build.outcome_bind_of_yields hstage, Build.outcome_bind_of_fails hpublish]

/-- Where a type has been populated, populating it is refused in every later state, for the first
token of its members, and idles. -/
theorem fails_populate_again {setup : Setup} (hresolver : setup.resolver = Resolver.default)
    {p : TypePlan} {token : Token} (hfirst : p.firstMember? = some token) {s s' t : BuildState}
    (hclosed : s.RegistryClosed) (hrun : (setup.populate p).Yields s () s') (ht : Later s' t) :
    ∃ t', (setup.populate p).Fails t (.duplicateLink token) t' ∧ Idles t t' := by
  obtain ⟨h, d, staged, s₁, s₂, hlink, hd, hstage, hpublish, hnotice⟩ := yields_populate hrun
  have hbehind : Later s₂ t :=
    Later.trans ((keeps_noticePopulated_of_allows h).of_yields hnotice) ht
  have hstaged : Later s₁ t :=
    Later.trans ((keeps_publish_of_allows h staged).of_yields hpublish) hbehind
  have hmade : Later s s₁ := (keeps_stage_of_allows _ p).of_yields hstage
  -- the type is still there, and its members are staged again
  obtain ⟨d', hd', -⟩ := (hmade.trans hstaged).types h d hd
  have hlink' : t.links.types.get? p.token = some h :=
    (hmade.trans hstaged).links.types _ _ hlink
  have hsite : (MemberSite.mk (t.store.fullName d') (setup.blueprint.topLevel p)).topLevel =
      (MemberSite.mk (s.store.fullName d) (setup.blueprint.topLevel p)).topLevel := rfl
  obtain ⟨-, hagain⟩ := repeats_stage hresolver hsite p s staged s₁ hclosed hstage
  obtain ⟨staged', t', hstage', hidles, -⟩ := hagain t hstaged
  -- only then is the first token found to be taken
  have htaken : t'.links.firstTaken? staged' = some token := by
    rw [hidles.links_eq, ← hfirst]
    exact (TypePlan.MembersLinked.of_published hstage (yields_publish hpublish)
      hbehind.links).firstTaken?_eq hstage'
  have hrefused : (Build.publish h staged').Fails t' (.duplicateLink token) t' := by
    unfold Build.Fails
    rw [publish_eq, Build.outcome_bind, Build.outcome_get]
    dsimp only
    rw [htaken]
    exact Build.outcome_throw _ _
  exact ⟨t', fails_populate_of_publish hlink' hd' hstage' hrefused, hidles⟩

end ClrImage
