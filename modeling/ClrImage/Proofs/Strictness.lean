import ClrImage.Proofs.Members

/-!
# Strict and lenient builds

A flag may announce a datum that the descriptor lacks. A strict build takes this for a failure, and
a lenient one leaves the datum out. This module compares the two builds of one blueprint. The test
of data stands in three places of the member pass and nowhere else, so the two builds are **the same
build** where all announced data is there, and the strict one fails where it is not.

- `Setup.withStrictness`: the strict build, or the lenient one.
- `TypePlan.CarriesData`: whatever data the flags of a type's members announce is there.
- `Setup.CarriesData`: so it is for all types that get members.
- `stage_withStrictness`, `build_withStrictness`: the same steps where the data is there.
- `carriesData_of_stage`, `carriesData_of_build`: the data is there where a strict build succeeds.
- `strictness_agrees`: when the two builds agree.
-/

namespace ClrImage

/-! ## Announced data -/

/-- The data that the flags of a field announce is there. -/
structure FieldPlan.CarriesData (f : FieldPlan) : Prop where
  default : f.flags.contains FieldFlags.hasDefault = true → f.default.isSome = true
  initialData : f.flags.contains FieldFlags.hasInitialData = true → f.initialData.isSome = true

/-- The default that the flags of a parameter announce is there. -/
def ParamPlan.CarriesData (p : ParamPlan) : Prop :=
  p.flags.contains ParamFlags.hasDefault = true → p.default.isSome = true

/-- All data that the flags of fields and parameters announce is there. -/
structure TypePlan.CarriesData (p : TypePlan) : Prop where
  fields : ∀ f ∈ p.fields.toList, f.CarriesData
  params : ∀ m ∈ p.methods.toList, ∀ q ∈ m.params.toList, q.CarriesData

namespace Setup

/-- The types that get members carry the data that their flags announce. -/
def CarriesData (setup : Setup) : Prop :=
  ∀ p ∈ setup.types, ¬ setup.Skips p → p.CarriesData

/-- The same build, in which a flagged descriptor without its data is a failure, or is not. -/
def withStrictness (setup : Setup) (strict : Bool) : Setup :=
  { setup with config := { setup.config with strictDescriptors := strict } }

end Setup

/-! ## Passes -/

namespace Build

variable {α β : Type}

/-- Steps that agree on the elements of a list make the same pass over it. -/
theorem mapM_congr {f g : α → Build β} {l : List α} (h : ∀ a ∈ l, f a = g a) :
    l.mapM f = l.mapM g := by
  induction l with
  | nil => simp only [List.mapM_nil]
  | cons a l ih =>
    obtain ⟨ha, hl⟩ := List.forall_mem_cons.mp h
    rw [List.mapM_cons, List.mapM_cons, ha, ih hl]

theorem forM_congr {f g : α → Build Unit} {l : List α} (h : ∀ a ∈ l, f a = g a) :
    List.forM l f = List.forM l g := by
  induction l with
  | nil => rfl
  | cons a l ih =>
    obtain ⟨ha, hl⟩ := List.forall_mem_cons.mp h
    rw [forM_cons_eq, forM_cons_eq, ha, ih hl]

/-- What each step that succeeds tells of its element holds of all elements of a pass. -/
theorem forall_of_yields_mapM {f : α → Build β} {P : α → Prop} {l : List α} {bs : List β}
    {s s' : BuildState} (h : ∀ a b s s', (f a).Yields s b s' → P a)
    (hrun : Yields (List.mapM f l) s bs s') : ∀ a ∈ l, P a :=
  mapM_induction (fun done _ _ _ => ∀ a ∈ done, P a) (by simp)
    (fun done a _ _ b s s' _ hdone hstep =>
      List.forall_mem_append.mpr ⟨hdone, by simpa using h a b s s' hstep⟩) hrun

theorem forall_of_yields_forM {f : α → Build Unit} {P : α → Prop} {l : List α}
    {s s' : BuildState} (h : ∀ a s s', (f a).Yields s () s' → P a)
    (hrun : Yields (List.forM l f) s () s') : ∀ a ∈ l, P a :=
  forM_induction (fun done _ _ => ∀ a ∈ done, P a) (by simp)
    (fun done a _ s s' _ hdone hstep =>
      List.forall_mem_append.mpr ⟨hdone, by simpa using h a s s' hstep⟩) hrun

end Build

/-! ## Where the data is there -/

section Same

variable (setup : Setup) (strict : Bool) (site : MemberSite)

/-- Where nothing lacks, the test of a datum does nothing. -/
theorem demand_of_present {lacking : Bool} (h : lacking = false) (datum : MissingDatum) :
    setup.demand lacking datum = pure () := by
  rw [h]
  rfl

theorem lacks_eq_false {α : Type} {flagged : Bool} {datum : Option α}
    (h : flagged = true → datum.isSome = true) : (flagged && datum.isNone) = false := by
  cases flagged with
  | false => rfl
  | true => simpa using h rfl

theorem makeField_withStrictness {f : FieldPlan} (h : f.CarriesData) :
    (setup.withStrictness strict).makeField site f = setup.makeField site f := by
  rw [makeField_eq, makeField_eq]
  simp only [demand_of_present _ (lacks_eq_false h.default),
    demand_of_present _ (lacks_eq_false h.initialData)]
  rfl

theorem makeParam_withStrictness {p : ParamPlan} (h : p.CarriesData) (method : String)
    (position : Nat) :
    (setup.withStrictness strict).makeParam site method position p =
      setup.makeParam site method position p := by
  rw [makeParam_eq, makeParam_eq]
  simp only [demand_of_present _ (lacks_eq_false h)]

theorem makeMethod_withStrictness {m : MethodPlan} (h : ∀ q ∈ m.params.toList, q.CarriesData) :
    (setup.withStrictness strict).makeMethod site m = setup.makeMethod site m := by
  unfold Setup.makeMethod
  refine bind_congr fun generics => bind_congr fun returnType => bind_congr fun paramTypes => ?_
  exact congrArg (· >>= _) (Build.mapM_congr fun entry hentry =>
    makeParam_withStrictness setup strict site (h entry.1 (List.fst_mem_of_mem_zipIdx hentry)) _ _)

/-- Members that carry their data are staged alike. -/
theorem stage_withStrictness {p : TypePlan} (h : p.CarriesData) :
    (setup.withStrictness strict).stage site p = setup.stage site p := by
  have hfields : (p.fields.toList.mapM fun f => do
        pure (f.token, ← (setup.withStrictness strict).makeField site f)) =
      (p.fields.toList.mapM fun f => do
        pure (f.token, ← setup.makeField site f)) :=
    Build.mapM_congr fun f hf => by rw [makeField_withStrictness setup strict site (h.fields f hf)]
  have hmethods : (p.methods.toList.mapM fun m => do
        pure (m.token, ← (setup.withStrictness strict).makeMethod site m)) =
      (p.methods.toList.mapM fun m => do
        pure (m.token, ← setup.makeMethod site m)) :=
    Build.mapM_congr fun m hm => by rw [makeMethod_withStrictness setup strict site (h.params m hm)]
  unfold Setup.stage
  rw [hfields, hmethods]
  rfl

theorem populateType_withStrictness {p : TypePlan} (h : ¬ setup.Skips p → p.CarriesData) :
    (setup.withStrictness strict).populateType p = setup.populateType p := by
  refine ite_congr rfl (fun _ => rfl) fun hskip => ?_
  have hpopulate : (setup.withStrictness strict).populate p = setup.populate p := by
    unfold Setup.populate
    simp only [stage_withStrictness setup strict _ (h hskip)]
    rfl
  rw [hpopulate]
  rfl

/-- Where all data is there, the two builds take the same steps. -/
theorem build_withStrictness (h : setup.CarriesData) :
    (setup.withStrictness strict).build = setup.build := by
  have hpass : setup.types.forM (setup.withStrictness strict).populateOrRecord =
      setup.types.forM setup.populateOrRecord :=
    Build.forM_congr fun p hp => by
      unfold Setup.populateOrRecord
      rw [populateType_withStrictness setup strict (h p hp)]
      rfl
  have hmembers : (setup.withStrictness strict).populateMembers = setup.populateMembers := by
    unfold Setup.populateMembers
    exact congrArg (fun pass => Build.notice _ >>= fun _ => pass >>= _) hpass
  unfold Setup.build
  rw [hmembers]
  rfl

end Same

/-! ## Where a strict build succeeds -/

section Strict

variable {setup : Setup} (hstrict : setup.config.strictDescriptors = true) {site : MemberSite}
  {s s' : BuildState}
include hstrict

/-- A test that a strict build passes has found its datum. -/
theorem not_lacking_of_demand {lacking : Bool} {datum : MissingDatum}
    (hrun : (setup.demand lacking datum).Yields s () s') : lacking = false := by
  unfold Setup.demand Setup.missing at hrun
  rw [if_pos hstrict] at hrun
  cases lacking with
  | false => rfl
  | true => cases Build.yields_throw.mp hrun

omit hstrict in
theorem isSome_of_not_lacking {α : Type} {flagged : Bool} {datum : Option α}
    (h : (flagged && datum.isNone) = false) : flagged = true → datum.isSome = true := by
  rintro rfl
  simpa using h

theorem carriesData_of_makeField {f : FieldPlan} {h : FieldHandle}
    (hrun : (setup.makeField site f).Yields s h s') : f.CarriesData := by
  rw [makeField_eq] at hrun
  obtain ⟨_, s₁, -, hrun⟩ := Build.yields_bind.mp hrun
  obtain ⟨_, s₂, hdefault, hrun⟩ := Build.yields_bind.mp hrun
  obtain ⟨_, s₃, hdata, -⟩ := Build.yields_bind.mp hrun
  exact ⟨isSome_of_not_lacking (not_lacking_of_demand hstrict hdefault),
    isSome_of_not_lacking (not_lacking_of_demand hstrict hdata)⟩

theorem carriesData_of_makeParam {method : String} {position : Nat} {p : ParamPlan}
    {h : ParamHandle} (hrun : (setup.makeParam site method position p).Yields s h s') :
    p.CarriesData := by
  rw [makeParam_eq] at hrun
  obtain ⟨_, s₁, -, hrun⟩ := Build.yields_bind.mp hrun
  obtain ⟨_, s₂, hdefault, -⟩ := Build.yields_bind.mp hrun
  exact isSome_of_not_lacking (not_lacking_of_demand hstrict hdefault)

theorem carriesData_of_makeMethod {m : MethodPlan} {h : MethodHandle}
    (hrun : (setup.makeMethod site m).Yields s h s') : ∀ q ∈ m.params.toList, q.CarriesData := by
  unfold Setup.makeMethod at hrun
  obtain ⟨_, s₁, -, hrun⟩ := Build.yields_bind.mp hrun
  obtain ⟨_, s₂, -, hrun⟩ := Build.yields_bind.mp hrun
  obtain ⟨_, s₃, -, hrun⟩ := Build.yields_bind.mp hrun
  obtain ⟨_, s₄, hparams, -⟩ := Build.yields_bind.mp hrun
  have hentries := Build.forall_of_yields_mapM (P := fun entry => entry.1.CarriesData)
    (fun _ _ _ _ hstep => carriesData_of_makeParam hstrict hstep) hparams
  intro q hq
  obtain ⟨i, hi, rfl⟩ := List.mem_iff_getElem.mp hq
  exact hentries (m.params.toList[i], i) (List.mk_mem_zipIdx_iff_getElem?.mpr (by simp))

/-- A strict build that has staged the members of a type has met no flag without its datum. -/
theorem carriesData_of_stage {p : TypePlan} {staged : Staged}
    (hrun : (setup.stage site p).Yields s staged s') : p.CarriesData := by
  obtain ⟨fields, s₁, methods, s₂, -, -, -, hfields, hmethods, -⟩ := yields_stage hrun
  exact ⟨Build.forall_of_yields_mapM
      (fun _ _ _ _ hstep => carriesData_of_makeField hstrict (yields_withToken hstep).2) hfields,
    Build.forall_of_yields_mapM
      (fun _ _ _ _ hstep => carriesData_of_makeMethod hstrict (yields_withToken hstep).2) hmethods⟩

/-- A strict build that ends at the first failure and gives an image has met none. -/
theorem carriesData_of_build (hends : setup.config.continueOnTypeError = false) {image : Image}
    (hrun : setup.build.Yields s image s') : setup.CarriesData := by
  unfold Setup.build at hrun
  obtain ⟨_, s₁, -, hrun⟩ := Build.yields_bind.mp hrun
  obtain ⟨_, s₂, -, hrun⟩ := Build.yields_bind.mp hrun
  obtain ⟨_, s₃, -, hrun⟩ := Build.yields_bind.mp hrun
  obtain ⟨_, s₄, hmembers, -⟩ := Build.yields_bind.mp hrun
  unfold Setup.populateMembers at hmembers
  obtain ⟨_, s₅, -, hmembers⟩ := Build.yields_bind.mp hmembers
  obtain ⟨_, s₆, hpass, -⟩ := Build.yields_bind.mp hmembers
  -- such a build records nothing, so each step of the pass has populated its type
  refine Build.forall_of_yields_forM (fun p s s' hstep hskip => ?_) hpass
  unfold Setup.populateOrRecord at hstep
  rw [hends, if_neg Bool.false_ne_true] at hstep
  unfold Setup.populateType at hstep
  rw [if_neg (show ¬ _ = true from hskip)] at hstep
  obtain ⟨h, t, staged, s₇, s₈, -, -, hstage, -⟩ :=
    yields_populate (Setup.yields_inContext.mp hstep)
  exact carriesData_of_stage hstrict hstage

end Strict

/-! ## The two builds -/

/-- The strict and the lenient build of one blueprint, both of which end at the first failure.

The strict one gives an image exactly if the lenient one does and every type that gets members
carries the data that its flags announce. If the strict one gives an image, the lenient one gives
the same image in the same run. -/
theorem strictness_agrees {setup : Setup} (hends : setup.config.continueOnTypeError = false) :
    ((∃ image, (setup.withStrictness true).run.1 = .ok image) ↔
      (∃ image, (setup.withStrictness false).run.1 = .ok image) ∧
        ∀ p ∈ setup.types, ¬ setup.Skips p → p.CarriesData) ∧
    ∀ image s, (setup.withStrictness true).run = (.ok image, s) →
      (setup.withStrictness false).run = (.ok image, s) := by
  have hsame (h : setup.CarriesData) :
      (setup.withStrictness true).run = (setup.withStrictness false).run := by
    unfold Setup.run
    rw [build_withStrictness setup true h, build_withStrictness setup false h]
    rfl
  have hcarries {image : Image} {s : BuildState}
      (hrun : (setup.withStrictness true).run = (.ok image, s)) : setup.CarriesData := by
    have hdata : (setup.withStrictness true).CarriesData :=
      carriesData_of_build rfl hends
        (show (setup.withStrictness true).build.Yields (.initial setup.config) image s from hrun)
    exact hdata
  refine ⟨⟨?_, ?_⟩, fun image s hrun => ?_⟩
  · rintro ⟨image, hrun⟩
    have hdata := hcarries (Prod.ext hrun rfl)
    exact ⟨⟨image, hsame hdata ▸ hrun⟩, hdata⟩
  · rintro ⟨⟨image, hrun⟩, hdata⟩
    exact ⟨image, (hsame hdata).symm ▸ hrun⟩
  · exact (hsame (hcarries hrun)).symm.trans hrun

/-- A pseudo type that lacks a default but gets no members, and a type with all of its data. -/
def vault : Setup where
  blueprint := .ofTypes "vault"
    #[{ token := ⟨0x02000001⟩, space := "", name := "<Module>", flags := .empty
        flavor := .classType, module := "vault"
        fields :=
          #[{ token := ⟨0x04000001⟩, name := "seal", flags := FieldFlags.hasDefault
              type := TypeRef.primitive .i4 }] },
      { token := ⟨0x02000002⟩, space := "", name := "Vault", flags := .empty
        flavor := .classType, module := "vault"
        fields :=
          #[{ token := ⟨0x04000002⟩, name := "code", flags := FieldFlags.hasInitialData
              type := TypeRef.primitive .i4, initialData := some [7, 0, 0, 0] }]
        methods :=
          #[{ token := ⟨0x06000001⟩, name := "Open", flags := .empty, implFlags := .empty
              returnType := TypeRef.primitive .object
              params :=
                #[{ name := "code", type := TypeRef.primitive .i4, flags := ParamFlags.hasDefault
                    default := some (Datum.i4 7).constant }] }] }]

theorem strictness_agrees_vault :
    vault.config.continueOnTypeError = false ∧
      (∃ image, (vault.withStrictness false).run.1 = .ok image) ∧
      ∃ image, (vault.withStrictness true).run.1 = .ok image := by
  obtain ⟨image, s, hlenient⟩ := (vault.withStrictness false).run_of_isOk (by decide +kernel)
  have hlenient : ∃ image, (vault.withStrictness false).run.1 = .ok image :=
    ⟨image, congrArg Prod.fst hlenient⟩
  have hdata : ∀ p ∈ vault.types, ¬ vault.Skips p → p.CarriesData := by
    intro p hp hskip
    rcases List.mem_cons.mp hp with rfl | hp
    · exact absurd (by unfold Setup.Skips; decide) hskip
    · obtain rfl := List.mem_singleton.mp hp
      refine ⟨fun f hf => ?_, fun m hm q hq => ?_⟩
      · obtain rfl := List.mem_singleton.mp hf
        exact ⟨by decide, by decide⟩
      · obtain rfl := List.mem_singleton.mp hm
        obtain rfl := List.mem_singleton.mp hq
        exact fun _ => rfl
  exact ⟨rfl, hlenient, (@strictness_agrees vault rfl).1.mpr ⟨hlenient, hdata⟩⟩

end ClrImage
