import ClrImage.Proofs.Publication

/-!
# Population of a type

A type gets its members by staging and publishing them. This module says what is left of a
population that fails. If staging fails, or a token was taken before, nothing has been published. A
token that two members of one kind share is noticed only while they are published, and by then some
members are linked and listed.

- `populates_populate`: population touches one type only.
- `SameMembers`: no member has been linked or listed.
- `CutShort`: the plans whose members are published in part.
- `failed_population_iff`: a failure leaves the members as they were **unless** it cuts them short.
-/

namespace ClrImage

/-! ## Inversion -/

/-- The passes of a population. -/
theorem yields_populate {setup : Setup} {p : TypePlan} {s s' : BuildState}
    (hrun : (setup.populate p).Yields s () s') :
    ∃ h t staged s₁ s₂, s.links.types.get? p.token = some h ∧ s.store.types.get? h = some t ∧
      (setup.stage ⟨s.store.fullName t, setup.blueprint.topLevel p⟩ p).Yields s staged s₁ ∧
      (Build.publish h staged).Yields s₁ () s₂ ∧ (Build.noticePopulated h).Yields s₂ () s' := by
  unfold Setup.populate at hrun
  obtain ⟨⟨h, t⟩, _, hmanaged, hrun⟩ := Build.yields_bind.mp hrun
  obtain ⟨hlink, ht, rfl⟩ := Build.yields_managedType.mp hmanaged
  rw [Build.yields_get_bind] at hrun
  obtain ⟨staged, s₁, hstage, hrun⟩ := Build.yields_bind.mp hrun
  obtain ⟨_, s₂, hpublish, hnotice⟩ := Build.yields_bind.mp hrun
  exact ⟨h, t, staged, s₁, s₂, hlink, ht, hstage, hpublish, hnotice⟩

/-- The ways in which a population fails: the type is not there, a member cannot be made, or the
members cannot be published. -/
theorem fails_populate {setup : Setup} {p : TypePlan} {e : Failure} {s s' : BuildState}
    (hrun : (setup.populate p).Fails s e s') :
    (s' = s ∧ ¬ ∃ h t, s.links.types.get? p.token = some h ∧ s.store.types.get? h = some t) ∨
    ∃ h t, s.links.types.get? p.token = some h ∧ s.store.types.get? h = some t ∧
      ((setup.stage ⟨s.store.fullName t, setup.blueprint.topLevel p⟩ p).Fails s e s' ∨
        ∃ staged s₁,
          (setup.stage ⟨s.store.fullName t, setup.blueprint.topLevel p⟩ p).Yields s staged s₁ ∧
          (Build.publish h staged).Fails s₁ e s') := by
  unfold Setup.populate at hrun
  rcases Build.fails_bind.mp hrun with hmanaged | ⟨⟨h, t⟩, _, hmanaged, hrun⟩
  · have hstate := Build.outcome_managedType_snd p s
    rw [hmanaged.outcome_snd] at hstate
    refine .inl ⟨hstate, ?_⟩
    rintro ⟨h, t, hlink, ht⟩
    have hfound : (Build.managedType p).Yields s (h, t) s :=
      Build.yields_managedType.mpr ⟨hlink, ht, rfl⟩
    exact hfound.not_fails hmanaged
  · obtain ⟨hlink, ht, rfl⟩ := Build.yields_managedType.mp hmanaged
    refine .inr ⟨h, t, hlink, ht, ?_⟩
    rcases Build.fails_bind.mp hrun with hget | ⟨_, _, hget, hrun⟩
    · cases Build.fails_get.mp hget
    · obtain ⟨rfl, rfl⟩ := Build.yields_get.mp hget
      rcases Build.fails_bind.mp hrun with hstage | ⟨staged, s₁, hstage, hrun⟩
      · exact .inl hstage
      · refine .inr ⟨staged, s₁, hstage, ?_⟩
        rcases Build.fails_bind.mp hrun with hpublish | ⟨_, s₂, -, hnotice⟩
        · exact hpublish
        · obtain ⟨_, _, htold⟩ := succeeds_noticePopulated h s₂
          exact absurd hnotice htold.not_fails

/-- Population touches one type only, whatever its outcome. -/
theorem populates_populate (setup : Setup) {p : TypePlan} {type : TypeHandle} {s : BuildState}
    (htype : ∀ h, s.links.types.get? p.token = some h → h = type) :
    Populates type s ((setup.populate p).outcome s).2 := by
  rcases Build.yields_or_fails (setup.populate p) s with ⟨_, s', hrun⟩ | ⟨e, s', hrun⟩ <;>
    rw [hrun.outcome_snd]
  · obtain ⟨h, t, staged, s₁, s₂, hlink, ht, hstage, hpublish, hnotice⟩ := yields_populate hrun
    obtain rfl := htype h hlink
    exact (((keeps_stage _ p).of_yields hstage).populates h).trans
      (((keeps_publish h staged).of_yields hpublish).populates.trans
        (((keeps_noticePopulated h).of_yields hnotice).stages.populates h))
  · rcases fails_populate hrun with ⟨rfl, -⟩ | ⟨h, t, hlink, ht, hfail⟩
    · exact .refl type s'
    · obtain rfl := htype h hlink
      rcases hfail with hstage | ⟨staged, s₁, hstage, hpublish⟩
      · exact ((keeps_stage _ p).of_fails hstage).populates h
      · exact (((keeps_stage _ p).of_yields hstage).populates h).trans
          ((keeps_publish h staged).of_fails hpublish).populates

/-- The pseudo type of the module, if it is to get no members. -/
def Setup.Skips (setup : Setup) (p : TypePlan) : Prop :=
  (p.isModuleType && setup.config.skipModuleType) = true

/-- Any other type is populated. -/
theorem Setup.populateType_eq {setup : Setup} {p : TypePlan} (hskip : ¬ setup.Skips p) :
    setup.populateType p = setup.inContext .members p (setup.populate p) :=
  if_neg hskip

/-- Population of a type, which may be skipped, touches that type only. -/
theorem populates_populateType (setup : Setup) {p : TypePlan} {type : TypeHandle}
    {s : BuildState}
    (htype : ∀ h, s.links.types.get? p.token = some h → h = type) :
    Populates type s ((setup.populateType p).outcome s).2 := by
  unfold Setup.populateType
  split
  · exact (keeps_notice _ s).stages.populates type
  · have hpopulates := populates_populate setup htype
    unfold Setup.inContext
    rw [Build.outcome_tryCatch]
    rcases hrun : (setup.populate p).outcome s with ⟨e | u, s₁⟩ <;> rw [hrun] at hpopulates
    · exact hpopulates.trans ((keeps_notice _ s₁).stages.populates type)
    · exact hpopulates

/-- Population records no failure by itself. -/
theorem failures_populateType (setup : Setup) (p : TypePlan) (s : BuildState) :
    ((setup.populateType p).outcome s).2.failures = s.failures := by
  obtain ⟨type, htype⟩ : ∃ type, ∀ h, s.links.types.get? p.token = some h → h = type := by
    cases s.links.types.get? p.token with
    | none => exact ⟨⟨0⟩, nofun⟩
    | some type => exact ⟨type, fun h hh => (Option.some.inj hh).symm⟩
  exact (populates_populateType setup htype).failures_eq

/-- A type either gets its members, or its failure is recorded if the configuration says so. -/
theorem yields_populateOrRecord {setup : Setup} {p : TypePlan} {s s' : BuildState}
    (hrun : (setup.populateOrRecord p).Yields s () s') :
    (setup.populateType p).Yields s () s' ∨
    ∃ e s₁, (setup.populateType p).Fails s e s₁ ∧
      s' = { s₁ with failures := s₁.failures.push e } := by
  unfold Setup.populateOrRecord at hrun
  split at hrun
  · unfold Build.Yields at hrun
    rw [Build.outcome_tryCatch] at hrun
    rcases hpopulate : (setup.populateType p).outcome s with ⟨e | u, s₁⟩ <;> rw [hpopulate] at hrun
    · exact .inr ⟨e, s₁, hpopulate, (Build.yields_modify.mp hrun).symm⟩
    · exact .inl (hpopulate.trans hrun)
  · exact .inl hrun

/-- Recording a failure touches nothing but the failures. -/
theorem onlyType_populateOrRecord {setup : Setup} {p : TypePlan} {type : TypeHandle}
    {s s' : BuildState} (htype : ∀ h, s.links.types.get? p.token = some h → h = type)
    (hrun : (setup.populateOrRecord p).Yields s () s') : OnlyType type s s' := by
  have hpopulates := populates_populateType setup htype
  rcases yields_populateOrRecord hrun with hyields | ⟨e, s₁, hfails, rfl⟩
  · rw [hyields.outcome_snd] at hpopulates
    exact hpopulates.toOnlyType
  · rw [hfails.outcome_snd] at hpopulates
    exact ⟨{ hpopulates.toExtends with }, hpopulates.otherTypes, hpopulates.typeGenerics,
      hpopulates.linkedTypes, hpopulates.declared_eq, hpopulates.closed⟩

/-- A type that gets its members has no failure to record. -/
theorem populateOrRecord_of_yields {setup : Setup} {p : TypePlan} {s s' : BuildState}
    (hrun : (setup.populateType p).Yields s () s') : (setup.populateOrRecord p).Yields s () s' := by
  unfold Setup.populateOrRecord
  split
  · unfold Build.Yields
    rw [Build.outcome_tryCatch, show (setup.populateType p).outcome s = _ from hrun]
  · exact hrun

/-- If no failure has been recorded, there was none. -/
theorem yields_populateType_of_clean {setup : Setup} {p : TypePlan} {s s' : BuildState}
    (hrun : (setup.populateOrRecord p).Yields s () s') (hclean : s'.failures = s.failures) :
    (setup.populateType p).Yields s () s' := by
  rcases yields_populateOrRecord hrun with hyields | ⟨e, s₁, hfails, rfl⟩
  · exact hyields
  · have hfailures := failures_populateType setup p s
    rw [hfails.outcome_snd] at hfailures
    have hsize := congrArg Array.size (hclean.trans hfailures.symm)
    simp at hsize

/-- So the type has got its members. -/
theorem yields_populate_of_clean {setup : Setup} {p : TypePlan} {s s' : BuildState}
    (hskip : ¬ setup.Skips p) (hrun : (setup.populateOrRecord p).Yields s () s')
    (hclean : s'.failures = s.failures) : (setup.populate p).Yields s () s' := by
  have hyields := yields_populateType_of_clean hrun hclean
  rw [Setup.populateType_eq hskip] at hyields
  exact Setup.yields_inContext.mp hyields

/-- A failure that has been recorded stays recorded. -/
theorem failures_size_le {setup : Setup} {p : TypePlan} {s s' : BuildState}
    (hrun : (setup.populateOrRecord p).Yields s () s') : s.failures.size ≤ s'.failures.size := by
  have hsize := congrArg Array.size (failures_populateType setup p s)
  rcases yields_populateOrRecord hrun with hyields | ⟨e, s₁, hfails, rfl⟩
  · rw [hyields.outcome_snd] at hsize
    exact Nat.le_of_eq hsize.symm
  · rw [hfails.outcome_snd] at hsize
    have hpushed : (s₁.failures.push e).size = s₁.failures.size + 1 := Array.size_push e
    dsimp only at hsize ⊢
    omega

/-- A part of the third pass that ends without failures began without any. -/
theorem forM_clean {setup : Setup} {l : List TypePlan} {s s' : BuildState}
    (hrun : Build.Yields (l.forM setup.populateOrRecord) s () s') (hclean : s'.failures = #[]) :
    s.failures = #[] := by
  suffices s.failures.size ≤ s'.failures.size by
    rw [hclean] at this
    exact Array.eq_empty_of_size_eq_zero (Nat.le_zero.mp this)
  refine Build.forM_induction (fun _ _ s₁ => s.failures.size ≤ s₁.failures.size) (Nat.le_refl _)
    (fun _ _ _ _ _ _ hle hstep => Nat.le_trans hle (failures_size_le hstep)) hrun

/-- A third pass in which all types get their members. -/
theorem forM_populateOrRecord_of_yields {setup : Setup} {l : List TypePlan} {s s' : BuildState}
    (hrun : Build.Yields (l.forM setup.populateType) s () s') :
    Build.Yields (l.forM setup.populateOrRecord) s () s' := by
  induction l generalizing s with
  | nil => exact hrun
  | cons p l ih =>
    obtain ⟨s₁, hfirst, hrest⟩ := Build.yields_forM_cons.mp hrun
    exact Build.yields_forM_cons.mpr ⟨s₁, populateOrRecord_of_yields hfirst, ih hrest⟩

/-- In a third pass that ends without failures, all types have got their members. -/
theorem forM_populateType_of_clean {setup : Setup} {l : List TypePlan} {s s' : BuildState}
    (hrun : Build.Yields (l.forM setup.populateOrRecord) s () s') (hclean : s'.failures = #[]) :
    Build.Yields (l.forM setup.populateType) s () s' := by
  induction l generalizing s with
  | nil => exact hrun
  | cons p l ih =>
    obtain ⟨s₁, hfirst, hrest⟩ := Build.yields_forM_cons.mp hrun
    have hclean₁ := forM_clean hrest hclean
    refine Build.yields_forM_cons.mpr ⟨s₁, ?_, ih hrest⟩
    exact yields_populateType_of_clean hfirst (hclean₁.trans (forM_clean hrun hclean).symm)

/-! ## What a failure leaves -/

/-- The lists of members of a type. -/
def TypeDef.members (t : TypeDef) :
    Array FieldHandle × Array MethodHandle × Array PropertyHandle × Array EventHandle :=
  (t.fields, t.methods, t.properties, t.events)

/-- The same members are linked, and every type lists the same members. -/
structure SameMembers (s s' : BuildState) : Prop where
  fields : s'.links.fields = s.links.fields
  methods : s'.links.methods = s.links.methods
  properties : s'.links.properties = s.links.properties
  events : s'.links.events = s.links.events
  listed : ∀ h, (s'.store.types.get? h).map TypeDef.members =
    (s.store.types.get? h).map TypeDef.members

theorem Stages.sameMembers {s s' : BuildState} (h : Stages s s') : SameMembers s s' :=
  ⟨by rw [h.links_eq], by rw [h.links_eq], by rw [h.links_eq], by rw [h.links_eq],
    fun g => by rw [h.types_eq]⟩

/-- None of the tokens of a plan's members is linked. -/
structure LinkTable.Spares (t : LinkTable) (p : TypePlan) : Prop where
  fields : ∀ f ∈ p.fields, t.fields.get? f.token = none
  methods : ∀ m ∈ p.methods, t.methods.get? m.token = none
  properties : ∀ q ∈ p.properties, t.properties.get? q.token = none
  events : ∀ e ∈ p.events, t.events.get? e.token = none

/-- Members of one kind have different tokens. -/
structure TypePlan.DistinctTokens (p : TypePlan) : Prop where
  fields : (p.fields.toList.map (·.token)).Nodup
  methods : (p.methods.toList.map (·.token)).Nodup
  properties : (p.properties.toList.map (·.token)).Nodup
  events : (p.events.toList.map (·.token)).Nodup

/-- All members of the plan can be made, none of their tokens is taken, and yet two members of one
kind have the same token. -/
structure CutShort (setup : Setup) (p : TypePlan) (s : BuildState) : Prop where
  made : ∃ h t staged s₁, s.links.types.get? p.token = some h ∧ s.store.types.get? h = some t ∧
    (setup.stage ⟨s.store.fullName t, setup.blueprint.topLevel p⟩ p).Yields s staged s₁
  spared : s.links.Spares p
  repeated : ¬ p.DistinctTokens

/-- The staged members have free tokens exactly if none of the plan's tokens is linked. -/
theorem staged_free_iff {setup : Setup} {site : MemberSite} {p : TypePlan} {staged : Staged}
    {s s' : BuildState} {t : LinkTable} (hrun : (setup.stage site p).Yields s staged s') :
    staged.Free t ↔ t.Spares p := by
  obtain ⟨hfields, hmethods, hproperties, hevents⟩ := stage_tokens hrun
  have key {α β : Type} {tokenOf : α → Token} {l : List α} {made : List (Token × β)}
      (h : made.map Prod.fst = l.map tokenOf) (P : Token → Prop) :
      (∀ e ∈ made, P e.1) ↔ ∀ a ∈ l, P (tokenOf a) := by
    rw [← List.forall_mem_map, h, List.forall_mem_map]
  constructor
  · rintro ⟨h₁, h₂, h₃, h₄⟩
    exact ⟨by simpa using (key hfields (t.fields.get? · = none)).mp h₁,
      by simpa using (key hmethods (t.methods.get? · = none)).mp h₂,
      by simpa using (key hproperties (t.properties.get? · = none)).mp h₃,
      by simpa using (key hevents (t.events.get? · = none)).mp h₄⟩
  · rintro ⟨h₁, h₂, h₃, h₄⟩
    exact ⟨(key hfields (t.fields.get? · = none)).mpr (by simpa using h₁),
      (key hmethods (t.methods.get? · = none)).mpr (by simpa using h₂),
      (key hproperties (t.properties.get? · = none)).mpr (by simpa using h₃),
      (key hevents (t.events.get? · = none)).mpr (by simpa using h₄)⟩

/-- A population that fails leaves all members as they were, **unless** it is cut short. -/
theorem sameMembers_of_fails_iff {setup : Setup} {p : TypePlan} {e : Failure} {s s' : BuildState}
    (hrun : (setup.populate p).Fails s e s') : SameMembers s s' ↔ ¬ CutShort setup p s := by
  rcases fails_populate hrun with ⟨rfl, habsent⟩ | ⟨h, t, hlink, ht, hstage | hpublish⟩
  · refine iff_of_true (Stages.refl s').sameMembers fun hcut => habsent ?_
    obtain ⟨h, t, -, -, hlink, ht, -⟩ := hcut.made
    exact ⟨h, t, hlink, ht⟩
  · -- staging cannot both fail here and succeed as a cut asks
    refine iff_of_true ((keeps_stage _ p).of_fails hstage).sameMembers fun hcut => ?_
    obtain ⟨h', t', staged, s₁, hlink', ht', hyields⟩ := hcut.made
    obtain rfl := Option.some.inj (hlink.symm.trans hlink')
    obtain rfl := Option.some.inj (ht.symm.trans ht')
    exact hyields.not_fails hstage
  · obtain ⟨staged, s₁, hstage, hpublish⟩ := hpublish
    have hstages := (keeps_stage _ p).of_yields hstage
    have htokens := stage_tokens hstage
    -- publication has refused everything, or has noticed a repeated token on its way
    rcases fails_publish hpublish with ⟨htaken, rfl⟩ | ⟨hfree, hrepeated⟩
    · refine iff_of_true hstages.sameMembers fun hcut => htaken ?_
      rw [hstages.links_eq]
      exact (staged_free_iff hstage).mpr hcut.spared
    · rw [hstages.links_eq] at hfree hrepeated
      rw [htokens.1, htokens.2.1, htokens.2.2.1, htokens.2.2.2] at hrepeated
      refine iff_of_false (fun hsame => ?_) (not_not_intro
        ⟨⟨h, t, staged, s₁, hlink, ht, hstage⟩, (staged_free_iff hstage).mp hfree,
          fun hdistinct => ?_⟩)
      · rcases hrepeated with ⟨-, hne⟩ | ⟨-, hne⟩ | ⟨-, hne⟩ | ⟨-, hne⟩
        · exact hne hsame.fields
        · exact hne hsame.methods
        · exact hne hsame.properties
        · exact hne hsame.events
      · rcases hrepeated with ⟨hnot, -⟩ | ⟨hnot, -⟩ | ⟨hnot, -⟩ | ⟨hnot, -⟩
        · exact hnot hdistinct.fields
        · exact hnot hdistinct.methods
        · exact hnot hdistinct.properties
        · exact hnot hdistinct.events

/-- A type whose population fails, in whatever state of a build and for whatever reason, publishes
nothing **unless** it is cut short: its members can all be made, none of their tokens is taken, and
two members of one kind have the same token. -/
theorem failed_population_iff {setup : Setup} {p : TypePlan} {e : Failure} {s s' : BuildState}
    (hrun : (setup.populateType p).Fails s e s') : SameMembers s s' ↔ ¬ CutShort setup p s := by
  unfold Setup.populateType at hrun
  split at hrun
  · cases Build.fails_modify.mp hrun
  · obtain ⟨source, s₁, hfail, -, rfl⟩ := Setup.fails_inContext.mp hrun
    rw [← sameMembers_of_fails_iff hfail]
    exact ⟨fun h => ⟨h.fields, h.methods, h.properties, h.events, h.listed⟩,
      fun h => ⟨h.fields, h.methods, h.properties, h.events, h.listed⟩⟩

/-- A type with two fields that have the same token. -/
def twins : TypePlan where
  token := ⟨0x02000001⟩
  space := ""
  name := "Twins"
  flags := .empty
  flavor := .classType
  module := "twins"
  fields :=
    #[{ token := ⟨0x04000001⟩, name := "first", flags := .empty, type := TypeRef.primitive .i4 },
      { token := ⟨0x04000001⟩, name := "second", flags := .empty, type := TypeRef.primitive .i4 }]

/-- A build of that type alone. -/
def twinsAlone : Setup where
  blueprint := .ofTypes "twins" #[twins]

/-- The first of the two fields stays behind. -/
theorem failed_population_iff_twins :
    ∃ e s₀ s s', twinsAlone.declareTypes.Yields (.initial twinsAlone.config) () s₀ ∧
      twinsAlone.configureHierarchy.Yields s₀ () s ∧ (twinsAlone.populateType twins).Fails s e s' ∧
      (SameMembers s s' ↔ ¬ CutShort twinsAlone twins s) ∧ ¬ SameMembers s s' := by
  have hdeclare := Build.yields_of_isOk twinsAlone.declareTypes (.initial twinsAlone.config)
    (by decide +kernel)
  have hconfigure := Build.yields_of_isOk twinsAlone.configureHierarchy
    (twinsAlone.declareTypes.outcome (.initial twinsAlone.config)).2 (by decide +kernel)
  obtain ⟨e, hfail⟩ := Build.fails_of_not_isOk (twinsAlone.populateType twins)
    (twinsAlone.configureHierarchy.outcome
      (twinsAlone.declareTypes.outcome (.initial twinsAlone.config)).2).2 (by decide +kernel)
  refine ⟨e, _, _, _, hdeclare, hconfigure, hfail, failed_population_iff hfail, fun hsame => ?_⟩
  have hlinked := congrArg (fun links => links.get? ⟨0x04000001⟩) hsame.fields
  revert hlinked
  decide +kernel

end ClrImage
