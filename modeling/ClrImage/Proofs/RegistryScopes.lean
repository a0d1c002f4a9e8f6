import ClrImage.Proofs.Rescoping

/-!
# Builds with either registry

A build whose registry tells indices apart by top-level type, and that succeeds without failures,
goes the same way with the other registry, if no index is declared below two top-level types: it
makes the same objects under the same handles.

- `follows_declareTypes`, `follows_configureHierarchy`, `follows_populateType`: every pass does the
  same in both builds.
- `Image.Rescopes`: two images that are the same up to the keys of their parameters.
- `scopes_agree`: a build that succeeds without failures succeeds with the other registry, with the
  same image up to the keys.
-/

namespace ClrImage

variable {setup : Setup}

/-! ## Declaration -/

theorem follows_declareType (p : TypePlan) :
    Build.Follows (Rescoped setup) (Build.declareType p) :=
  .read (fun _ _ _ => rfl) fun _ => .read (fun _ _ _ => rfl) fun _ =>
    .bind (.liftExcept _) fun _ => .modify fun _ _ notices => ⟨rfl, notices, rfl⟩

theorem follows_wireDeclaring (p : TypePlan) :
    Build.Follows (Rescoped setup) (setup.wireDeclaring p) := by
  unfold Setup.wireDeclaring
  split
  · exact .pure ()
  split
  · exact .throw _
  refine .read (fun _ _ _ => rfl) fun s => ?_
  split
  · exact .throw _
  · exact .bind (follows_managed p) fun _ => .read (fun _ _ _ => rfl) fun _ =>
      .bind (.liftExcept _) fun _ => .modify fun _ _ notices => ⟨rfl, notices, rfl⟩

theorem follows_declareTypes : Build.Follows (Rescoped setup) setup.declareTypes :=
  .bind (.forM fun p _ => .inContext (follows_declareType p)) fun _ =>
    .bind (.forM fun p _ => .inContext (follows_wireDeclaring p)) fun _ => follows_tell _

/-! ## Hierarchy -/

section Hierarchy

variable (hunaliased : setup.Unaliased) (hresolver : setup.resolver = Resolver.default)

include hunaliased in
theorem follows_declareTypeGenerics {p : TypePlan} (hp : p ∈ setup.types) :
    Build.Follows (Rescoped setup) (setup.declareTypeGenerics p) := by
  unfold Setup.declareTypeGenerics
  refine .bind (follows_managedType p) fun entry => ?_
  dsimp only
  split
  · exact .pure _
  next params hparams =>
    split
    · exact .pure _
    · refine .bind (follows_declareGenerics hunaliased hp _ _ fun g hg => ?_) fun _ =>
        .bind (follows_modifyStore _) fun _ => .pure _
      refine List.mem_map_of_mem (List.mem_append_left _ ?_)
      unfold TypePlan.genericPlans
      rwa [hparams]

include hresolver in
theorem follows_configureBase (topLevel : Token) (h : TypeHandle) (r : TypeRef) :
    Build.Follows (Rescoped setup) (setup.configureBase topLevel h r) :=
  .bind (follows_resolve hresolver topLevel r) fun _ => .read (fun _ _ _ => rfl) fun _ =>
    .bind (.liftExcept _) fun _ => .modify fun _ _ notices => ⟨rfl, notices, rfl⟩

theorem follows_noticeConfigured (h : TypeHandle) :
    Build.Follows (Rescoped setup) (Setup.noticeConfigured h) := by
  refine .read (fun _ _ _ => rfl) fun s => ?_
  split
  · exact .pure ()
  · exact follows_notice _

include hresolver in
theorem follows_configure (p : TypePlan) (pending : Array PendingGeneric) :
    Build.Follows (Rescoped setup) (setup.configure p pending) := by
  unfold Setup.configure
  refine .bind (follows_managedType p) fun entry => ?_
  dsimp only
  split
  · exact follows_notice _
  refine .bind (follows_constrainGenerics hresolver _ _) fun _ => .bind ?_ fun _ => ?_
  · cases p.base with
    | none => exact .pure ()
    | some r => exact follows_configureBase hresolver _ entry.1 r
  · exact .bind (.forM fun r _ => .bind (follows_resolve hresolver _ r) fun _ =>
      follows_modifyStore _) fun _ => .bind (follows_modifyStore _) fun _ =>
        follows_noticeConfigured entry.1

include hunaliased hresolver in
theorem follows_configureHierarchy :
    Build.Follows (Rescoped setup) setup.configureHierarchy :=
  .bind (follows_notice _) fun _ =>
    .bind (.mapM fun _ hp => .inContext (follows_declareTypeGenerics hunaliased hp)) fun _ =>
      .bind (.forM fun e _ => .inContext (follows_configure hresolver e.1 e.2)) fun _ =>
        follows_tell _

end Hierarchy

/-! ## Members -/

section Members

theorem follows_demand (lacking : Bool) (datum : MissingDatum) :
    Build.Follows (Rescoped setup) (setup.demand lacking datum) := by
  unfold Setup.demand Setup.missing
  split
  · split
    · exact .throw _
    · exact follows_notice _
  · exact .pure ()

theorem follows_makeParam (site : MemberSite) (method : String) (position : Nat) (p : ParamPlan) :
    Build.Follows (Rescoped setup) (setup.makeParam site method position p) := by
  rw [makeParam_eq]
  refine .bind ?_ fun _ => .bind (follows_demand _ _) fun _ => .bind ?_ fun _ =>
    .modifyGet fun _ _ _ => ⟨rfl, rfl⟩
  · split
    · exact .throw _
    · exact .pure ()
  · split
    · exact follows_notice _
    · exact .pure ()

theorem follows_wireAccessor (staged : Staged) (owner : String) (accessor : Accessor)
    (m : Option MethodPlan) :
    Build.Follows (Rescoped setup) (Setup.wireAccessor staged owner accessor m) := by
  unfold Setup.wireAccessor
  split
  · exact .pure _
  · refine .read (fun _ _ _ => rfl) fun s => ?_
    split
    · exact .pure _
    · exact .throw _

theorem follows_withToken {α β : Type} {tokenOf : α → Token} {make : α → Build β} {a : α}
    (h : Build.Follows (Rescoped setup) (make a)) :
    Build.Follows (Rescoped setup) (do pure (tokenOf a, ← make a)) :=
  .bind h fun _ => .pure _

variable (hresolver : setup.resolver = Resolver.default)
include hresolver

theorem follows_makeField (site : MemberSite) (f : FieldPlan) :
    Build.Follows (Rescoped setup) (setup.makeField site f) := by
  rw [makeField_eq]
  exact .bind (follows_resolve hresolver _ _) fun _ => .bind (follows_demand _ _) fun _ =>
    .bind (follows_demand _ _) fun _ => .modifyGet fun _ _ _ => ⟨rfl, rfl⟩

theorem follows_makeProperty (site : MemberSite) (staged : Staged) (p : PropertyPlan) :
    Build.Follows (Rescoped setup) (setup.makeProperty site staged p) :=
  .bind (follows_resolve hresolver _ _) fun _ => .bind (follows_wireAccessor staged _ _ _) fun _ =>
    .bind (follows_wireAccessor staged _ _ _) fun _ => .modifyGet fun _ _ _ => ⟨rfl, rfl⟩

theorem follows_makeEvent (site : MemberSite) (staged : Staged) (e : EventPlan) :
    Build.Follows (Rescoped setup) (setup.makeEvent site staged e) :=
  .bind (follows_resolve hresolver _ _) fun _ => .bind (follows_wireAccessor staged _ _ _) fun _ =>
    .bind (follows_wireAccessor staged _ _ _) fun _ =>
      .bind (follows_wireAccessor staged _ _ _) fun _ => .modifyGet fun _ _ _ => ⟨rfl, rfl⟩

variable (hunaliased : setup.Unaliased) {p : TypePlan} (hp : p ∈ setup.types) {site : MemberSite}
  (hsite : site.topLevel = setup.blueprint.topLevel p)
include hunaliased hp hsite

theorem follows_makeMethodGenerics {m : MethodPlan} (hm : m ∈ p.methods.toList) :
    Build.Follows (Rescoped setup) (setup.makeMethodGenerics site m) := by
  unfold Setup.makeMethodGenerics
  split
  · exact .pure _
  next params hparams =>
    rw [hsite]
    refine .bind (follows_declareGenerics hunaliased hp _ _ fun g hg => ?_) fun _ =>
      .bind (follows_constrainGenerics hresolver _ _) fun _ => .pure _
    refine List.mem_map_of_mem (List.mem_append_right _ (List.mem_flatMap.mpr ⟨m, hm, ?_⟩))
    unfold MethodPlan.genericPlans
    rwa [hparams]

theorem follows_makeMethod {m : MethodPlan} (hm : m ∈ p.methods.toList) :
    Build.Follows (Rescoped setup) (setup.makeMethod site m) :=
  .bind (follows_makeMethodGenerics hresolver hunaliased hp hsite hm) fun _ =>
    .bind (follows_resolve hresolver _ _) fun _ =>
      .bind (.mapM fun _ _ => follows_resolve hresolver _ _) fun _ =>
        .bind (.mapM fun _ _ => follows_makeParam site _ _ _) fun _ =>
          .read (fun _ _ _ => rfl) fun _ => .modifyGet fun _ _ _ => ⟨rfl, rfl⟩

theorem follows_stage : Build.Follows (Rescoped setup) (setup.stage site p) :=
  .bind (.mapM fun f _ => follows_withToken (follows_makeField hresolver site f)) fun _ =>
    .bind (.mapM fun _ hm =>
      follows_withToken (follows_makeMethod hresolver hunaliased hp hsite hm)) fun _ =>
      .bind (.mapM fun q _ =>
        follows_withToken (follows_makeProperty hresolver site _ q)) fun _ =>
        .bind (.mapM fun e _ =>
          follows_withToken (follows_makeEvent hresolver site _ e)) fun _ => .pure _

end Members

/-! ## Publication -/

theorem follows_publishOne {k : ObjectKind} (K : MemberKind k) (type : TypeHandle)
    (e : Token × Handle k) : Build.Follows (Rescoped setup) (K.publish type e) :=
  .read (fun _ _ _ => rfl) fun _ => .bind (.liftExcept _) fun _ =>
    .bind (.modify fun _ _ notices => ⟨rfl, notices, rfl⟩) fun _ => follows_modifyStore _

theorem follows_publish (type : TypeHandle) (staged : Staged) :
    Build.Follows (Rescoped setup) (Build.publish type staged) := by
  rw [publish_eq]
  refine .read (fun _ _ _ => rfl) fun s => ?_
  split
  · exact .throw _
  · exact .bind (.forM fun _ _ => follows_publishOne _ type _) fun _ =>
      .bind (.forM fun _ _ => follows_publishOne _ type _) fun _ =>
        .bind (.forM fun _ _ => follows_publishOne _ type _) fun _ =>
          .forM fun _ _ => follows_publishOne _ type _

theorem follows_noticePopulated (h : TypeHandle) :
    Build.Follows (Rescoped setup) (Build.noticePopulated h) := by
  refine .read (fun _ _ _ => rfl) fun s => ?_
  split
  · exact .pure ()
  · exact follows_notice _

/-- A type that gets its members with the one registry gets the same ones with the other. -/
theorem follows_populateType (hresolver : setup.resolver = Resolver.default)
    (hunaliased : setup.Unaliased) {p : TypePlan} (hp : p ∈ setup.types) :
    Build.Follows (Rescoped setup) (setup.populateType p) := by
  unfold Setup.populateType
  split
  · exact follows_notice _
  · exact .inContext (.bind (follows_managedType p) fun _ => .read (fun _ _ _ => rfl) fun _ =>
      .bind (follows_stage hresolver hunaliased hp rfl) fun _ =>
        .bind (follows_publish _ _) fun _ => follows_noticePopulated _)

/-! ## Images -/

/-- The image `i'` is the image `i` up to the keys of the generic parameters, so all types, members
and parameters of one image are those of the other, under the same handles. The parameters are the
same ones, each index stands for the same parameter, and no parameter goes by two indices. -/
structure Image.Rescopes (i i' : Image) : Prop where
  same : i' = { i with registry := i'.registry }
  generics : i'.generics.Perm i.generics
  distinct : i.generics.Nodup
  held : ∀ index g, i'.registry.get? ⟨none, index⟩ = some g ↔
    ∃ topLevel, i.registry.get? ⟨some topLevel, index⟩ = some g

/-- Registries that hold the same parameters list the same parameters. -/
theorem Rescopes.mem_toList_iff {r q : GenericRegistry} (h : Rescopes setup r q)
    {g : GenericHandle} : g ∈ q.toList ↔ g ∈ r.toList := by
  rw [GenericRegistry.mem_toList, GenericRegistry.mem_toList]
  constructor
  · rintro ⟨⟨scope, i⟩, hg⟩
    obtain rfl : scope = none := h.unscoped _ g hg
    obtain ⟨topLevel, hheld⟩ := (h.held i g).mp hg
    exact ⟨_, hheld⟩
  · rintro ⟨⟨scope, i⟩, hg⟩
    obtain ⟨p, -, hscope, -⟩ := h.planned _ g hg
    obtain rfl : scope = some _ := hscope
    exact ⟨_, (h.held i g).mpr ⟨_, hg⟩⟩

/-- The parameters of an image are distinct objects. -/
theorem nodup_generics_of_run {image : Image} {s : BuildState}
    (hrun : setup.run = (.ok image, s)) : image.generics.Nodup := by
  obtain ⟨s₁, hbooked, rfl, -⟩ := booked_of_run hrun
  exact hbooked.nodup_toList

/-- Nothing is registered at the start, in either registry. -/
theorem rescoped_initial (setup : Setup) (notices notices' : Array Notice) :
    Rescoped setup
      { BuildState.initial (setup.scopedBy .perTopLevelType).config with notices }
      { BuildState.initial (setup.scopedBy .perRun).config with notices := notices' } :=
  ⟨⟨.perRun, {}⟩, notices', rfl, rfl, rfl, fun k h hk => by
    simp [BuildState.initial, GenericRegistry.get?] at hk, fun k h hk => by
    simp [GenericRegistry.get?] at hk, fun i h => by
    simp [BuildState.initial, GenericRegistry.get?]⟩

/-- If no index is declared below two top-level types, a build whose registry tells indices apart by
top-level type, and that succeeds without failures, succeeds without failures also if its registry
does not tell them apart, and gives the same image up to the keys. -/
theorem scopes_agree (hresolver : setup.resolver = Resolver.default)
    (hunaliased : setup.Unaliased) {i : Image} {s : BuildState}
    (hrun : (setup.scopedBy .perTopLevelType).run = (.ok i, s)) (hclean : i.failures = #[]) :
    ∃ i' s', (setup.scopedBy .perRun).run = (.ok i', s') ∧ i'.failures = #[] ∧ i.Rescopes i' := by
  obtain ⟨s₀, s₁, s₂, hdeclare, hconfigure, hpass, rfl, -⟩ := passes_of_run hrun
  have hpass := forM_populateType_of_clean hpass hclean
  -- the steps of the two builds are the same, only their first states differ
  obtain ⟨u₀, hdeclare', h₀⟩ :=
    follows_declareTypes _ _ _ _ (rescoped_initial setup _ _) hdeclare
  obtain ⟨u₁, hconfigure', h₁⟩ :=
    follows_configureHierarchy hunaliased hresolver _ _ _ _ h₀ hconfigure
  have hopened : Rescoped setup (setup.opened s₁) (setup.opened u₁) := by
    obtain ⟨registry, notices, rfl, hkeys⟩ := h₁
    exact ⟨registry, _, rfl, hkeys⟩
  obtain ⟨u₂, hpass', registry, notices, rfl, hkeys⟩ := Build.Follows.forM
    (fun _ hp => follows_populateType hresolver hunaliased hp) _ _ _ _ hopened hpass
  have hrecorded := forM_populateOrRecord_of_yields hpass'
  obtain ⟨s', hrun'⟩ :=
    @run_of_passes (setup.scopedBy .perRun) _ _ _ hdeclare' hconfigure' hrecorded
  refine ⟨_, s', hrun', hclean, rfl, ?_, nodup_generics_of_run hrun, hkeys.held⟩
  exact (List.perm_ext_iff_of_nodup (nodup_generics_of_run hrun')
    (nodup_generics_of_run hrun)).mpr fun _ => hkeys.mem_toList_iff

/-- Two top-level types with indices of their own, one of which a nested type and a method declare
once more. -/
def parishes : Setup where
  blueprint := .ofTypes "parishes"
    #[{ token := ⟨0x02000001⟩, space := "", name := "East", flags := .empty, flavor := .classType
        module := "parishes"
        generics := some #[⟨0, 0, "T", .empty, #[TypeRef.var 1]⟩, ⟨1, 1, "U", .empty, #[]⟩]
        methods :=
          #[{ token := ⟨0x06000001⟩, name := "Ring", flags := .empty, implFlags := .empty
              returnType := TypeRef.mvar 0
              generics := some #[⟨0, 0, "V", .empty, #[]⟩, ⟨0, 1, "W", .empty, #[]⟩] }] },
      { token := ⟨0x02000002⟩, space := "", name := "Tower", flags := .empty, flavor := .classType
        module := "parishes", declaring := some ⟨0x02000001⟩
        base := some (TypeRef.typeDef ⟨0x02000003⟩)
        generics := some #[⟨1, 0, "X", .empty, #[]⟩] },
      { token := ⟨0x02000003⟩, space := "", name := "West", flags := .empty, flavor := .classType
        module := "parishes"
        generics := some #[⟨7, 0, "Y", .empty, #[TypeRef.var 7]⟩] }]

theorem scopes_agree_parishes :
    ∃ i s, parishes.resolver = Resolver.default ∧ parishes.Unaliased ∧
      (parishes.scopedBy .perTopLevelType).run = (.ok i, s) ∧ i.failures = #[] ∧
      i.generics.length = 3 ∧
      ∃ i' s', (parishes.scopedBy .perRun).run = (.ok i', s') ∧ i'.failures = #[] ∧
        i.Rescopes i' := by
  obtain ⟨i, s, hrun⟩ := (parishes.scopedBy .perTopLevelType).run_of_isOk (by decide +kernel)
  have hmade : (parishes.scopedBy .perTopLevelType).run.1.toOption.map
      (fun i => (i.failures.size, i.generics.length)) = some (0, 3) := by
    decide +kernel
  rw [hrun] at hmade
  obtain ⟨hfailures, hgenerics⟩ := Prod.mk.inj (Option.some.inj hmade)
  have hclean := Array.eq_empty_of_size_eq_zero hfailures
  have hunaliased : parishes.Unaliased := by decide +kernel
  exact ⟨i, s, rfl, hunaliased, hrun, hclean, hgenerics, scopes_agree rfl hunaliased hrun hclean⟩

end ClrImage
