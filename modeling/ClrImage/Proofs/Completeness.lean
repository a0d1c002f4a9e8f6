import ClrImage.Proofs.Origins

/-!
# Completeness of constraints

An image lists the generic parameters of its types and of its methods. This module says which of
them carry all the constraints of the plans that they were made for. Those of types do, and so do
all in an image without failures. A method's parameter is left incomplete if the call that made it
could not resolve a constraint: the parameter stays registered, and later methods share it as it is.

- `traced_of_run`: every parameter of an image has an origin.
- `Image.Lists`: the parameters that an image lists.
- `constraints_complete_iff`: which of them are complete.
- `constraints_complete_of_clean`: without failures all of them are.
-/

namespace ClrImage

/-! ## From the hierarchy pass to the image -/

/-- Behind the hierarchy pass all parameters come from types, and there are no methods yet. -/
theorem Configured.traced {setup : Setup} {s : BuildState} (h : Configured setup s) :
    Traced setup s where
  origin key o ho := by
    obtain ⟨p, g, x, hfirst, hx, hmade, hcomplete⟩ := h.generics key o ho
    exact ⟨x, hx, .type key p g ho hfirst hmade hcomplete⟩
  ofType o t ht g hg := by
    obtain ⟨p, hp, hlink⟩ := h.known o t ht
    obtain ⟨o', t', hlink', ht', hmirrored⟩ := h.types p hp
    obtain rfl := Option.some.inj (hlink.symm.trans hlink')
    obtain rfl := Option.some.inj (ht.symm.trans ht')
    obtain ⟨objects, hobjects, heq⟩ := hmirrored.generics
    rw [← Array.mem_toList_iff, heq, List.mem_eraseDups] at hg
    obtain ⟨plan, -, hplan⟩ := exists_of_forall₂ hobjects.flip hg
    exact ⟨_, hplan⟩
  ofMethod o m hm := by
    rw [h.store] at hm
    simp [Arena.get?] at hm

/-- The third pass leaves all parameters traced, also where it goes on over failures. -/
theorem traced_of_pass {setup : Setup} (hresolver : setup.resolver = Resolver.default)
    {s₀ s₁ : BuildState} (htraced : Traced setup s₀)
    (hpass : Build.Yields (setup.types.forM setup.populateOrRecord) s₀ () s₁)
    (hupTo : ∀ earlier s, (setup.upTo earlier).Yields (.initial setup.config) () s ↔
      Build.Yields (earlier.forM setup.populateOrRecord) s₀ () s) : Traced setup s₁ := by
  -- the invariant also says how the state was reached, which is what an origin refers to
  have hfinal := Build.forM_induction
    (fun done _ s => Build.Yields (done.forM setup.populateOrRecord) s₀ () s ∧ Traced setup s)
    ⟨Build.yields_forM_nil.mpr rfl, htraced⟩ (fun done p todo s s' hsplit hI hstep => ?_) hpass
  · exact hfinal.2
  · have hreach : setup.Reaches p s := ⟨done, todo, hsplit, (hupTo done s).mpr hI.1⟩
    have htraced' := traced_populateOrRecord hresolver hreach hI.2
    rw [hstep.outcome_snd] at htraced'
    have hlast : Build.Yields (List.forM [p] setup.populateOrRecord) s () s' :=
      Build.yields_forM_cons.mpr ⟨s', hstep, Build.yields_forM_nil.mpr rfl⟩
    exact ⟨Build.yields_forM_append.mpr ⟨s, hI.1, hlast⟩, htraced'⟩

/-- In every image the parameters are traced. -/
theorem traced_of_run {setup : Setup} (hresolver : setup.resolver = Resolver.default)
    {image : Image} {s : BuildState} (hrun : setup.run = (.ok image, s)) :
    ∃ s₁, Traced setup s₁ ∧ image = setup.image s₁ := by
  obtain ⟨s₀, s₁, hconfigured, hpass, himage, hupTo⟩ := yields_build hresolver hrun
  exact ⟨s₁, traced_of_pass hresolver hconfigured.traced hpass hupTo, himage⟩

/-! ## The parameters of an image -/

/-- The parameter stands in the list of a type of the image, or in that of a method that is linked
in it. -/
inductive Image.Lists (image : Image) (h : GenericHandle) : Prop
  | ofType (o : TypeHandle) (t : TypeDef) (mem : o ∈ image.types)
      (type : image.store.types.get? o = some t) (listed : h ∈ t.generics)
  | ofMethod (token : Token) (m : MethodDef) (linked : image.method? token = some m)
      (listed : h ∈ m.generics)

/-- Whatever an image lists is registered. -/
theorem Traced.names_of_lists {setup : Setup} {s : BuildState} (htraced : Traced setup s)
    {h : GenericHandle} (hlisted : (setup.image s).Lists h) : s.registry.Names h := by
  cases hlisted with
  | ofType o t _ ht hh => exact htraced.ofType o t ht h hh
  | ofMethod token m hm hh =>
    obtain ⟨o, -, ho⟩ := Option.bind_eq_some_iff.mp hm
    exact htraced.ofMethod o m ho h hh

/-- Whatever an image lists has an origin. -/
theorem Traced.of_lists {setup : Setup} {s : BuildState} (htraced : Traced setup s)
    {h : GenericHandle} (hlisted : (setup.image s).Lists h) :
    ∃ x, s.store.generics.get? h = some x ∧ setup.Origin s h x := by
  obtain ⟨key, hkey⟩ := htraced.names_of_lists hlisted
  exact htraced.origin key h hkey

/-- Every parameter that an image lists was made for a plan of a type, and then it carries all of
that plan's constraints, or for a plan of a method. Then it carries them, and is marked so,
**exactly if** the call that made it could resolve them and those of the parameters made before it
in that call. References are read against the image. -/
theorem constraints_complete_iff {setup : Setup} (hresolver : setup.resolver = Resolver.default)
    {image : Image} {s : BuildState} (hrun : setup.run = (.ok image, s)) {h : GenericHandle}
    (hlisted : image.Lists h) :
    ∃ x, image.store.generics.get? h = some x ∧
      ((∃ key p g, image.registry.get? key = some h ∧
          setup.firstDeclaration? key = some (p, g) ∧ x.MadeFor (.type p.token) g ∧
          x.ConstrainedBy (image.scope (setup.blueprint.topLevel p)) g.constraints) ∨
        ∃ p m g before s₁, g ∈ (m.generics.getD #[]).toList ∧ x.MadeFor (.method m.token) g ∧
          setup.Makes p m before ⟨h, g.constraints⟩ s₁ ∧
          (x.ConstrainedBy (image.scope (setup.blueprint.topLevel p)) g.constraints ↔
            (s₁.scope (setup.blueprint.topLevel p)).CanConstrain
              (before ++ [⟨h, g.constraints⟩])) ∧
          (x.isConstrained = true ↔
            (s₁.scope (setup.blueprint.topLevel p)).CanConstrain
              (before ++ [⟨h, g.constraints⟩]))) := by
  obtain ⟨s₁, htraced, rfl⟩ := traced_of_run hresolver hrun
  obtain ⟨x, hx, horigin⟩ := htraced.of_lists hlisted
  refine ⟨x, hx, ?_⟩
  cases horigin with
  | type key p g registered first made complete =>
    exact .inl ⟨key, p, g, registered, first, made, complete⟩
  | method p m g before s₂ planned made makes attached =>
    refine .inr ⟨p, m, g, before, s₂, planned, made, makes, ?_⟩
    rcases attached with ⟨hcan, hcomplete⟩ | ⟨hcannot, hunmarked⟩
    · exact ⟨iff_of_true hcomplete hcan, iff_of_true hcomplete.isConstrained hcan⟩
    · have hmarked : ¬ x.isConstrained = true := by simp [hunmarked]
      exact ⟨iff_of_false (fun hcomplete => hmarked hcomplete.isConstrained) hcannot,
        iff_of_false hmarked hcannot⟩

/-- A method whose parameter is constrained by one that nobody has declared yet. -/
def lacking : TypePlan where
  token := ⟨0x02000001⟩
  space := ""
  name := "First"
  flags := .empty
  flavor := .classType
  module := "gap"
  methods :=
    #[{ token := ⟨0x06000001⟩, name := "M", flags := .empty, implFlags := .empty
        returnType := TypeRef.primitive .void
        generics := some #[⟨5, 0, "T", .empty, #[TypeRef.mvar 9]⟩] }]

/-- A method with the same parameter, which declares the other one as well. -/
def sharing : TypePlan where
  token := ⟨0x02000002⟩
  space := ""
  name := "Second"
  flags := .empty
  flavor := .classType
  module := "gap"
  methods :=
    #[{ token := ⟨0x06000002⟩, name := "N", flags := .empty, implFlags := .empty
        returnType := TypeRef.primitive .void
        generics := some
          #[⟨5, 0, "T", .empty, #[TypeRef.mvar 9]⟩, ⟨9, 0, "U", .empty, #[]⟩] }]

/-- A build that goes on over the first of the two types. -/
def gap : Setup where
  blueprint := .ofTypes "gap" #[lacking, sharing]
  config := .lenient

/-- The second method lists the parameter that the first one has left incomplete. -/
theorem constraints_complete_iff_gap :
    ∃ image s h x p m g before s₁, gap.resolver = Resolver.default ∧
      gap.run = (.ok image, s) ∧ image.Lists h ∧ image.store.generics.get? h = some x ∧
      x.isConstrained = false ∧ x.MadeFor (.method m.token) g ∧
      gap.Makes p m before ⟨h, g.constraints⟩ s₁ ∧
      ¬ x.ConstrainedBy (image.scope (gap.blueprint.topLevel p)) g.constraints ∧
      ¬ (s₁.scope (gap.blueprint.topLevel p)).CanConstrain (before ++ [⟨h, g.constraints⟩]) := by
  obtain ⟨image, s, hrun⟩ := gap.run_of_isOk (by decide +kernel)
  have hmethod : (gap.run.1.toOption.bind (·.method? ⟨0x06000002⟩)).map (·.generics) =
      some #[⟨0⟩, ⟨1⟩] := by decide +kernel
  have hunmarked : (gap.run.1.toOption.bind (·.store.generics.get? ⟨0⟩)).map (·.isConstrained) =
      some false := by decide +kernel
  rw [hrun] at hmethod hunmarked
  obtain ⟨m, hm, hgenerics⟩ := Option.map_eq_some_iff.mp hmethod
  obtain ⟨y, hy, hfalse⟩ := Option.map_eq_some_iff.mp hunmarked
  have hlisted : image.Lists ⟨0⟩ := .ofMethod ⟨0x06000002⟩ m hm (by simp [hgenerics])
  obtain ⟨x, hx, horigin⟩ := constraints_complete_iff rfl hrun hlisted
  obtain rfl := Option.some.inj (hx.symm.trans hy)
  rcases horigin with ⟨_, p, g, -, -, -, hcomplete⟩ |
    ⟨p, m, g, before, s₁, -, hmade, hmakes, hiff, -⟩
  · rw [hcomplete.isConstrained] at hfalse
    cases hfalse
  · have hincomplete : ¬ x.ConstrainedBy (image.scope (gap.blueprint.topLevel p)) g.constraints :=
      fun hcomplete => Bool.false_ne_true (hfalse.symm.trans hcomplete.isConstrained)
    exact ⟨image, s, ⟨0⟩, x, p, m, g, before, s₁, rfl, hrun, hlisted, hx, hfalse, hmade, hmakes,
      hincomplete, fun hcan => hincomplete (hiff.mpr hcan)⟩

/-! ## Images without failures -/

/-- A method that has been made has had all of its constraints resolved. -/
theorem canConstrain_of_makeMethod {setup : Setup} (hresolver : setup.resolver = Resolver.default)
    {name : String} {topLevel : Token} {m : MethodPlan} {params : Array GenericPlan}
    {listed : Array GenericHandle} {pending : Array PendingGeneric} {h : MethodHandle}
    {s s₁ s' : BuildState} (hparams : m.generics = some params)
    (hdeclare : (Setup.declareGenerics (.method m.token) topLevel #[] params).Yields s
      (listed, pending) s₁)
    (hmake : (setup.makeMethod ⟨name, topLevel⟩ m).Yields s h s') :
    (s₁.scope topLevel).CanConstrain pending.toList := by
  unfold Setup.makeMethod Setup.makeMethodGenerics at hmake
  rw [hparams] at hmake
  obtain ⟨_, _, hgenerics, -⟩ := Build.yields_bind.mp hmake
  obtain ⟨_, _, hdeclare', hgenerics⟩ := Build.yields_bind.mp hgenerics
  obtain ⟨rfl, rfl⟩ := hdeclare.unique hdeclare'
  obtain ⟨_, _, hconstrain, -⟩ := Build.yields_bind.mp hgenerics
  exact yields_constrainGenerics hresolver hconstrain

/-- A population that succeeds makes every method in the state in which the build comes to it. -/
theorem makeMethod_of_populate {setup : Setup} {p : TypePlan} {m : MethodPlan}
    {earlier later : List MethodPlan} {s s₁ s' : BuildState}
    (hrun : (setup.populate p).Yields s () s') (hsplit : p.methods.toList = earlier ++ m :: later)
    (hreach : (setup.populateUpTo p earlier).Yields s () s₁) :
    ∃ name h s₂, (setup.makeMethod ⟨name, setup.blueprint.topLevel p⟩ m).Yields s₁ h s₂ := by
  obtain ⟨h, t, staged, _, _, hlink, ht, hstage, -, -⟩ := yields_populate hrun
  obtain ⟨fields, _, methods, _, _, _, _, hfields, hmethods, -⟩ := yields_stage hstage
  rw [hsplit] at hmethods
  obtain ⟨_, s₂, _, hearlier, hmethods, -⟩ := Build.yields_mapM_append.mp hmethods
  obtain ⟨_, _, _, hfirst, -⟩ := Build.yields_mapM_cons.mp hmethods
  obtain ⟨-, hmake⟩ := yields_withToken hfirst
  -- both runs pass through the same states
  unfold Setup.populateUpTo at hreach
  obtain ⟨⟨h', t'⟩, _, hmanaged, hreach⟩ := Build.yields_bind.mp hreach
  obtain ⟨hlink', ht', rfl⟩ := Build.yields_managedType.mp hmanaged
  obtain rfl := Option.some.inj (hlink.symm.trans hlink')
  obtain rfl := Option.some.inj (ht.symm.trans ht')
  rw [Build.yields_get_bind] at hreach
  obtain ⟨_, _, hfields', hreach⟩ := Build.yields_bind.mp hreach
  obtain ⟨-, rfl⟩ := hfields.unique hfields'
  obtain ⟨_, _, hearlier', hpure⟩ := Build.yields_bind.mp hreach
  obtain ⟨-, rfl⟩ := hearlier.unique hearlier'
  obtain ⟨-, rfl⟩ := Build.yields_pure.mp hpure
  exact ⟨_, _, _, hmake⟩

/-- If an image has no failures, every parameter that it lists carries all constraints of the plan
that it was made for. -/
theorem constraints_complete_of_clean {setup : Setup}
    (hresolver : setup.resolver = Resolver.default) {image : Image} {s : BuildState}
    (hrun : setup.run = (.ok image, s)) (hclean : image.failures = #[]) {h : GenericHandle}
    (hlisted : image.Lists h) :
    ∃ x p g, image.store.generics.get? h = some x ∧
      (x.MadeFor (.type p.token) g ∨
        ∃ m ∈ p.methods.toList, g ∈ (m.generics.getD #[]).toList ∧ x.MadeFor (.method m.token) g) ∧
      x.ConstrainedBy (image.scope (setup.blueprint.topLevel p)) g.constraints := by
  obtain ⟨s₀, s₁, hconfigured, hpass, rfl, hupTo⟩ := yields_build hresolver hrun
  have htraced := traced_of_pass hresolver hconfigured.traced hpass hupTo
  obtain ⟨x, hx, horigin⟩ := htraced.of_lists hlisted
  cases horigin with
  | type key p g _ _ made complete => exact ⟨x, p, g, hx, .inl made, complete⟩
  | method p m g before s₂ planned made makes attached =>
    obtain ⟨_, params, _, _, after, hreach, hparams, hdeclare, hpending⟩ := makes
    obtain ⟨s₃, earlier, later, ⟨before', after', hall, hbefore⟩, hskip, hsplit, hreach⟩ := hreach
    -- the population of the type has succeeded
    rw [hall] at hpass
    obtain ⟨_, hbefore', hpass⟩ := Build.yields_forM_append.mp hpass
    obtain ⟨-, rfl⟩ := ((hupTo before' s₃).mp hbefore).unique hbefore'
    obtain ⟨s₄, hrecord, hafter⟩ := Build.yields_forM_cons.mp hpass
    have hclean₄ : s₄.failures = #[] := forM_clean hafter hclean
    have hclean₃ : s₃.failures = #[] :=
      forM_clean (Build.yields_forM_cons.mpr ⟨s₄, hrecord, Build.yields_forM_nil.mpr rfl⟩) hclean₄
    have hpopulate := yields_populate_of_clean hskip hrecord (hclean₄.trans hclean₃.symm)
    obtain ⟨_, _, _, hmake⟩ := makeMethod_of_populate hpopulate hsplit hreach
    have hcan := canConstrain_of_makeMethod hresolver hparams hdeclare hmake
    rw [hpending] at hcan
    rcases attached with ⟨-, hcomplete⟩ | ⟨hcannot, -⟩
    · exact ⟨x, p, g, hx, .inr ⟨m, by simp [hsplit], planned, made⟩, hcomplete⟩
    · exact absurd hcan.upTo hcannot

end ClrImage
