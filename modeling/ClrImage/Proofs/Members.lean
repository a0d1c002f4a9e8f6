import ClrImage.Proofs.Making
import ClrImage.Proofs.Population
import ClrImage.Proofs.Rounds

/-!
# The members of an image

The third pass mirrors the members of the plans in the types. It goes over the types one by one, and
a type is out of its hands once it has been published: what comes later only adds to the tables.

- `populate_mirrored`: a population that succeeds mirrors the members of its type.
- `PassesBy`: what the population of another type leaves as it is.
- `Setup.Reaches`, `yields_build`: the run of a build, taken apart at the members of a type.
- `members_mirrored`: in every image the members mirror the plans, type by type.
-/

namespace ClrImage

/-! ## One type -/

/-- Members that are as planned are so by their handles alone, once the entries are linked. -/
theorem forall₂_map_snd {α β : Type} {R : α → Token × β → Prop} {R' : α → β → Prop} {l : List α}
    {entries : List (Token × β)} (h : List.Forall₂ R l entries)
    (hR : ∀ a, ∀ e ∈ entries, R a e → R' a e.2) : List.Forall₂ R' l (entries.map Prod.snd) := by
  induction h with
  | nil => exact .nil
  | cons hae _ ih =>
    exact .cons (hR _ _ List.mem_cons_self hae)
      (ih fun a e he => hR a e (List.mem_cons_of_mem _ he))

/-- The method that an accessor was wired to while its type was staged is linked once the type has
been published. -/
theorem Published.find {type : TypeHandle} {staged : Staged} {s s' : BuildState} {token : Token}
    {m : MethodHandle} (hpublished : Published type staged s s') (hgrows : s.Extends s')
    (hm : staged.find s.links token = some m) : s'.links.methods.get? token = some m := by
  unfold Staged.find at hm
  cases hstaged : staged.method? token with
  | none =>
    rw [hstaged] at hm
    exact hgrows.links.methods _ _ hm
  | some m' =>
    rw [hstaged] at hm
    obtain rfl := Option.some.inj hm
    obtain ⟨e, he, rfl⟩ := Option.map_eq_some_iff.mp hstaged
    have htoken : e.1 = token := by simpa using Array.find?_some he
    have hmem : e ∈ staged.methods.toList :=
      Array.mem_toList_iff.mpr (Array.mem_of_find?_eq_some he)
    rw [← htoken]
    exact hpublished.methods e hmem

/-- Publishing members that have been made as planned mirrors them in a type without members. -/
theorem StagedMirrored.publish {s s' : BuildState} {topLevel : Token} {p : TypePlan}
    {staged : Staged} {type : TypeHandle} {t : TypeDef} (h : StagedMirrored s topLevel p staged)
    (hclosed : s.RegistryClosed) (ht : t.HasNoMembers) (hgrows : s.Extends s')
    (hpublished : Published type staged s s') :
    MembersMirrored (s'.scope topLevel) p (staged.listedIn t) := by
  have hfind (token : Token) (m : MethodHandle) : staged.find s.links token = some m →
      s'.links.methods.get? token = some m := hpublished.find hgrows
  constructor
  case fields =>
    simp only [Staged.listedIn, ht.fields, Array.empty_append]
    refine forall₂_map_snd h.fields ?_
    rintro f e he ⟨htoken, d, hd, hmirrored⟩
    exact ⟨htoken ▸ hpublished.fields e he, d, hgrows.fields.get?_eq hd,
      hmirrored.mono (hgrows.scope _)⟩
  case methods =>
    simp only [Staged.listedIn, ht.methods, Array.empty_append]
    refine forall₂_map_snd h.methods ?_
    rintro m e he ⟨htoken, d, hd, hmirrored⟩
    exact ⟨htoken ▸ hpublished.methods e he, d, hgrows.methods.get?_eq hd,
      hmirrored.mono hgrows hclosed⟩
  case properties =>
    simp only [Staged.listedIn, ht.properties, Array.empty_append]
    refine forall₂_map_snd h.properties ?_
    rintro q e he ⟨htoken, d, hd, hmirrored⟩
    exact ⟨htoken ▸ hpublished.properties e he, d, hgrows.properties.get?_eq hd,
      hmirrored.mono (hgrows.scope _) hfind⟩
  case events =>
    simp only [Staged.listedIn, ht.events, Array.empty_append]
    refine forall₂_map_snd h.events ?_
    rintro v e he ⟨htoken, d, hd, hmirrored⟩
    exact ⟨htoken ▸ hpublished.events e he, d, hgrows.events.get?_eq hd,
      hmirrored.mono (hgrows.scope _) hfind⟩

/-- A population that succeeds mirrors the members of a type that had none. -/
theorem populate_mirrored {setup : Setup} (hresolver : setup.resolver = Resolver.default)
    {p : TypePlan} {s s' : BuildState} (hclosed : s.RegistryClosed)
    (hbare : s.TypeOf p TypeDef.HasNoMembers) (hrun : (setup.populate p).Yields s () s') :
    s'.TypeOf p (MembersMirrored (s'.scope (setup.blueprint.topLevel p)) p) := by
  obtain ⟨h, t, staged, s₁, s₂, hlink, ht, hstage, hpublish, hnotice⟩ := yields_populate hrun
  obtain ⟨h', t', hlink', ht', hno⟩ := hbare
  obtain rfl := Option.some.inj (hlink.symm.trans hlink')
  obtain rfl := Option.some.inj (ht.symm.trans ht')
  have hstages := (keeps_stage _ p).of_yields hstage
  have hpopulates := ((keeps_publish h staged).of_yields hpublish).populates
  have htold := (keeps_noticePopulated h).of_yields hnotice
  have hpublished := yields_publish hpublish
  have hmirrored := (yields_stage_mirrored hresolver hclosed hstage).publish
    (hstages.closed hclosed) hno hpopulates.toExtends hpublished
  refine ⟨h, staged.listedIn t, ?_, ?_, ?_⟩
  · rw [htold.links_eq, hpopulates.linkedTypes, hstages.links_eq, hlink]
  · rw [htold.types_eq, hpublished.listed, hstages.types_eq, ht]
    rfl
  · exact hmirrored.mono htold.toExtends (hpopulates.closed (hstages.closed hclosed))

/-! ## Other types -/

/-- A part of the third pass has left one type as it was. -/
structure PassesBy (type : TypeHandle) (s s' : BuildState) : Prop
    extends BuildState.Extends s s' where
  same : s'.store.types.get? type = s.store.types.get? type
  typeGenerics : ∀ g, (s'.store.types.get? g).map (·.generics) =
    (s.store.types.get? g).map (·.generics)
  linkedTypes : s'.links.types = s.links.types
  declared_eq : s'.declared = s.declared
  closed : s.RegistryClosed → s'.RegistryClosed

namespace PassesBy

variable {type : TypeHandle} {s s₁ s' : BuildState}

theorem refl (type : TypeHandle) (s : BuildState) : PassesBy type s s :=
  ⟨.refl s, rfl, fun _ => rfl, rfl, rfl, id⟩

theorem trans (h₁ : PassesBy type s s₁) (h₂ : PassesBy type s₁ s') : PassesBy type s s' :=
  ⟨h₁.toExtends.trans h₂.toExtends, h₂.same.trans h₁.same,
    fun g => (h₂.typeGenerics g).trans (h₁.typeGenerics g), h₂.linkedTypes.trans h₁.linkedTypes,
    h₂.declared_eq.trans h₁.declared_eq, h₂.closed ∘ h₁.closed⟩

end PassesBy

theorem OnlyType.passesBy {type other : TypeHandle} {s s' : BuildState}
    (h : OnlyType other s s') (hne : type ≠ other) : PassesBy type s s' :=
  ⟨h.toExtends, h.otherTypes type hne, h.typeGenerics, h.linkedTypes, h.declared_eq, h.closed⟩

/-- The third pass over other plans passes a type by. -/
theorem yields_forM_passesBy {setup : Setup} {type : TypeHandle} {l : List TypePlan}
    {s s' : BuildState} (hlinked : ∀ q ∈ l, ∃ h, s.links.types.get? q.token = some h ∧ type ≠ h)
    (hrun : Build.Yields (l.forM setup.populateOrRecord) s () s') : PassesBy type s s' := by
  induction l generalizing s with
  | nil =>
    obtain rfl := Build.yields_forM_nil.mp hrun
    exact .refl type s
  | cons q l ih =>
    obtain ⟨s₁, hfirst, hrest⟩ := Build.yields_forM_cons.mp hrun
    obtain ⟨h, hlink, hne⟩ := hlinked q List.mem_cons_self
    have hq : ∀ g, s.links.types.get? q.token = some g → g = h :=
      fun g hg => Option.some.inj (hg.symm.trans hlink)
    have h₁ := (onlyType_populateOrRecord hq hfirst).passesBy hne
    refine h₁.trans (ih (fun q hq => ?_) hrest)
    rw [h₁.linkedTypes]
    exact hlinked q (List.mem_cons_of_mem _ hq)

/-! ## The whole build -/

/-- What references are resolved against in a finished image. -/
def Image.scope (i : Image) (topLevel : Token) : Scope := ⟨i.store, i.links, i.registry, topLevel⟩

namespace Setup

/-- The part of a build in which the types `earlier` have got their members. -/
def upTo (setup : Setup) (earlier : List TypePlan) : Build Unit := do
  Build.notice
    (.building setup.blueprint.module setup.types.length setup.config.registryScope)
  setup.declareTypes
  setup.configureHierarchy
  Build.notice
    (.populating setup.types.length setup.blueprint.methodCount setup.blueprint.module)
  earlier.forM setup.populateOrRecord

theorem run_of_isOk (setup : Setup) (h : setup.run.1.isOk = true) :
    ∃ image s, setup.run = (.ok image, s) := by
  rcases hrun : setup.run with ⟨_ | image, s⟩
  · rw [hrun] at h
    cases h
  · exact ⟨image, s, rfl⟩

/-- The build comes to the members of a type in a state. -/
def Reaches (setup : Setup) (p : TypePlan) (s : BuildState) : Prop :=
  ∃ earlier later, setup.types = earlier ++ p :: later ∧
    (setup.upTo earlier).Yields (.initial setup.config) () s

/-- The build has recorded no failure of the type. -/
def NoFailureOf (setup : Setup) (p : TypePlan) : Prop :=
  ∃ s s', setup.Reaches p s ∧ (setup.populateOrRecord p).Yields s () s' ∧
    s'.failures = s.failures

end Setup

theorem Configured.registryClosed {setup : Setup} {s : BuildState} (h : Configured setup s) :
    s.RegistryClosed := by
  intro k o ho
  obtain ⟨-, -, x, -, hx, -⟩ := h.generics k o ho
  exact ⟨x, hx⟩

/-- A build that gives an image configures its types and goes through all of them once more. -/
theorem yields_build {setup : Setup} (hresolver : setup.resolver = Resolver.default)
    {image : Image} {s : BuildState} (hrun : setup.run = (.ok image, s)) :
    ∃ s₀ s₁, Configured setup s₀ ∧ Build.Yields (setup.types.forM setup.populateOrRecord) s₀ () s₁ ∧
      image = setup.image s₁ ∧
      ∀ earlier s, (setup.upTo earlier).Yields (.initial setup.config) () s ↔
        Build.Yields (earlier.forM setup.populateOrRecord) s₀ () s := by
  have hrun : setup.build.Yields (.initial setup.config) image s := hrun
  unfold Setup.build at hrun
  obtain ⟨_, _, htell, hrun⟩ := Build.yields_bind.mp hrun
  have hstate := Build.yields_modify.mp htell
  obtain ⟨_, s₁, hdeclare, hrun⟩ := Build.yields_bind.mp hrun
  obtain ⟨_, s₂, hconfigure, hrun⟩ := Build.yields_bind.mp hrun
  obtain ⟨_, s₃, hmembers, hrun⟩ := Build.yields_bind.mp hrun
  rw [Build.yields_get_bind] at hrun
  obtain ⟨_, s₄, -, hpure⟩ := Build.yields_bind.mp hrun
  obtain ⟨rfl, -⟩ := Build.yields_pure.mp hpure
  unfold Setup.populateMembers at hmembers
  obtain ⟨_, _, htell₂, hmembers⟩ := Build.yields_bind.mp hmembers
  have hstate₂ := Build.yields_modify.mp htell₂
  obtain ⟨_, s₅, hpass, htell₃⟩ := Build.yields_bind.mp hmembers
  rw [Build.yields_get_bind] at htell₃
  obtain rfl := Build.yields_modify.mp htell₃
  have hdeclared : Declared setup s₁ := declared_of_yields (hstate ▸ hdeclare)
  have hconfigured := configured_of_yields hresolver hdeclared hconfigure
  refine ⟨_, s₅, hstate₂ ▸ hconfigured.of_notices _, hpass, rfl, fun earlier s => ?_⟩
  -- the run up to a type begins as the whole build does
  unfold Setup.upTo Build.Yields
  rw [Build.outcome_bind_of_yields htell, Build.outcome_bind_of_yields hdeclare,
    Build.outcome_bind_of_yields hconfigure, Build.outcome_bind_of_yields htell₂]

/-- The members of a type that has been populated in the third pass are mirrored at its end. -/
theorem pass_mirrored {setup : Setup} (hresolver : setup.resolver = Resolver.default)
    {earlier later : List TypePlan} {p : TypePlan} {s₀ s₁ s₂ s₃ : BuildState}
    (hall : setup.types = earlier ++ p :: later) (hconfigured : Configured setup s₀)
    (hearlier : Build.Yields (earlier.forM setup.populateOrRecord) s₀ () s₁)
    (hpopulate : (setup.populate p).Yields s₁ () s₂)
    (hlater : Build.Yields (later.forM setup.populateOrRecord) s₂ () s₃) :
    s₃.TypeOf p (MembersMirrored (s₃.scope (setup.blueprint.topLevel p)) p) := by
  have hp : p ∈ setup.types := by simp [hall]
  have hnodup := hconfigured.nodup
  rw [hall] at hnodup
  obtain ⟨h, t, hlink, ht, -, hbare⟩ := hconfigured.bare p hp
  have hothers (q : TypePlan) (hq : q ∈ setup.types) (hne : q.token ≠ p.token) :
      ∃ g, s₀.links.types.get? q.token = some g ∧ h ≠ g := by
    obtain ⟨g, -, hg, -⟩ := hconfigured.bare q hq
    refine ⟨g, hg, ?_⟩
    rintro rfl
    exact hne (hconfigured.injective q hq p hp h hg hlink)
  -- the types before leave this one without members
  have hbefore : PassesBy h s₀ s₁ := by
    refine yields_forM_passesBy (fun q hq => hothers q (by simp [hall, hq]) ?_) hearlier
    exact ne_of_nodup_map hnodup (.inl hq)
  have hclosed₁ := hbefore.closed hconfigured.registryClosed
  obtain ⟨h', t', hlink', ht', hmirrored⟩ := populate_mirrored hresolver hclosed₁
    ⟨h, t, by rw [hbefore.linkedTypes, hlink], by rw [hbefore.same, ht], hbare⟩ hpopulate
  have htype : ∀ g, s₁.links.types.get? p.token = some g → g = h := by
    intro g hg
    rw [hbefore.linkedTypes, hlink] at hg
    exact (Option.some.inj hg).symm
  have hown := populates_populate setup htype
  rw [hpopulate.outcome_snd] at hown
  obtain rfl : h' = h := by
    rw [hown.linkedTypes] at hlink'
    exact htype h' hlink'
  -- the types after leave it as it is
  have hafter : PassesBy h' s₂ s₃ := by
    refine yields_forM_passesBy (fun q hq => ?_) hlater
    rw [hown.linkedTypes, hbefore.linkedTypes]
    exact hothers q (by simp [hall, hq]) (ne_of_nodup_map hnodup (.inr hq))
  exact ⟨h', t', by rw [hafter.linkedTypes, hlink'], by rw [hafter.same, ht'],
    hmirrored.mono hafter.toExtends (hown.closed hclosed₁)⟩

/-- In every image that a build gives, the members of each type mirror its plan: of each type that
is not skipped and of which no failure has been recorded. -/
theorem members_mirrored {setup : Setup} (hresolver : setup.resolver = Resolver.default)
    {image : Image} {s : BuildState} (hrun : setup.run = (.ok image, s)) {p : TypePlan}
    (hskip : ¬ setup.Skips p) (hspared : setup.NoFailureOf p) :
    ∃ h t, image.type? p.token = some h ∧ image.store.types.get? h = some t ∧
      MembersMirrored (image.scope (setup.blueprint.topLevel p)) p t := by
  obtain ⟨s₀, s₃, hconfigured, hpass, rfl, hupTo⟩ := yields_build hresolver hrun
  obtain ⟨s₁, s₂, ⟨earlier, later, hall, hreach⟩, hrecord, hclean⟩ := hspared
  rw [hall] at hpass
  obtain ⟨_, hearlier, hpass⟩ := Build.yields_forM_append.mp hpass
  obtain ⟨-, rfl⟩ := ((hupTo earlier s₁).mp hreach).unique hearlier
  obtain ⟨_, hrecord', hlater⟩ := Build.yields_forM_cons.mp hpass
  obtain ⟨-, rfl⟩ := hrecord.unique hrecord'
  exact pass_mirrored hresolver hall hconfigured hearlier
    (yields_populate_of_clean hskip hrecord hclean) hlater

/-- A type whose only field has a type that is unknown. -/
def broken : TypePlan where
  token := ⟨0x02000001⟩
  space := ""
  name := "Broken"
  flags := .empty
  flavor := .classType
  module := "gallery"
  fields :=
    #[{ token := ⟨0x04000001⟩, name := "lost", flags := .empty
        type := TypeRef.typeDef ⟨0x02000009⟩ }]

/-- The getter of the type below. -/
def getValue : MethodPlan where
  token := ⟨0x06000001⟩
  name := "get_Value"
  flags := .empty
  implFlags := .empty
  returnType := TypeRef.mvar 0
  params :=
    #[{ name := "self", type := TypeRef.typeDef ⟨0x02000002⟩ },
      ParamPlan.withDefault { name := "index", type := TypeRef.primitive .i4 }
        (Datum.i4 7).constant]
  generics := some #[⟨0, 0, "T", .empty, #[TypeRef.typeDef ⟨0x02000001⟩]⟩]

/-- A type with a constant, a generic method and a property that uses it. -/
def holder : TypePlan where
  token := ⟨0x02000002⟩
  space := ""
  name := "Holder"
  flags := .empty
  flavor := .valueType
  module := "gallery"
  fields :=
    #[{ token := ⟨0x04000002⟩, name := "answer", flags := FieldFlags.hasDefault
        type := TypeRef.primitive .i4, default := some (Datum.i4 42).constant }]
  methods := #[getValue]
  properties :=
    #[{ token := ⟨0x17000001⟩, name := "Value", flags := .empty, type := TypeRef.primitive .object
        getter := some getValue }]

/-- A build that goes on over the first of the two types. -/
def gallery : Setup where
  blueprint := .ofTypes "gallery" #[broken, holder]
  config := .lenient

theorem members_mirrored_gallery :
    ∃ image s, gallery.run = (.ok image, s) ∧ ¬ gallery.Skips holder ∧ gallery.NoFailureOf holder ∧
      ∃ h t, image.type? holder.token = some h ∧ image.store.types.get? h = some t ∧
        MembersMirrored (image.scope (gallery.blueprint.topLevel holder)) holder t := by
  obtain ⟨image, s, hrun⟩ := gallery.run_of_isOk (by decide +kernel)
  have hskip : ¬ gallery.Skips holder := by
    unfold Setup.Skips
    decide
  have hreach := Build.yields_of_isOk (gallery.upTo [broken]) (.initial gallery.config)
    (by decide +kernel)
  have hrecord := Build.yields_of_isOk (gallery.populateOrRecord holder)
    ((gallery.upTo [broken]).outcome (.initial gallery.config)).2 (by decide +kernel)
  have hspared : gallery.NoFailureOf holder :=
    ⟨_, _, ⟨[broken], [], rfl, hreach⟩, hrecord, by decide +kernel⟩
  exact ⟨image, s, hrun, hskip, hspared, members_mirrored rfl hrun hskip hspared⟩

end ClrImage
