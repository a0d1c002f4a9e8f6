import ClrImage.Proofs.Circles
import ClrImage.Proofs.Nesting

/-!
# Outcomes of the first pass

The first pass makes all types and then nests them. Either it succeeds, and what it has made is
known to the last part, or it fails over the first type that has a fault. Tokens are compared before
any type is nested, so a type that repeats a token comes before all types that cannot be nested.

- `Setup.NestingFault`: why a type cannot be nested.
- `Setup.DeclarationFault`: the failure of the first type with a fault. There is **at most one**
  (`DeclarationFault.unique`).
- `Setup.wellNested_iff`: well nested plans, by what is nested in what.
- `Setup.DeclaredExactly`: all that a pass that succeeds has made.
- `declaration_exact`: when the pass succeeds, what it makes, and what it fails with.
-/

namespace ClrImage

/-! ## Places in a list -/

/-- Two places in a list are the same, or the element in one of them is before the other. -/
theorem splits_trichotomy {α : Type} {l before before' after after' : List α} {a a' : α}
    (h : l = before ++ a :: after) (h' : l = before' ++ a' :: after') :
    (before = before' ∧ a = a') ∨ (∃ rest, before' = before ++ a :: rest) ∨
      ∃ rest, before = before' ++ a' :: rest := by
  rcases List.append_eq_append_iff.mp (h.symm.trans h') with
    ⟨gap, hbefore, hgap⟩ | ⟨gap, hbefore, hgap⟩
  · cases gap with
    | nil =>
      obtain ⟨rfl, -⟩ := List.cons.inj hgap
      exact .inl ⟨by simpa using hbefore.symm, rfl⟩
    | cons b gap =>
      obtain ⟨rfl, -⟩ := List.cons.inj hgap
      exact .inr (.inl ⟨gap, hbefore⟩)
  · cases gap with
    | nil =>
      obtain ⟨rfl, -⟩ := List.cons.inj hgap
      exact .inl ⟨by simpa using hbefore, rfl⟩
    | cons b gap =>
      obtain ⟨rfl, -⟩ := List.cons.inj hgap
      exact .inr (.inr ⟨gap, hbefore⟩)

/-- Tokens are not distinct if one of them is repeated. -/
theorem not_nodup_of_repeated {l before after : List TypePlan} {p : TypePlan}
    (hl : l = before ++ p :: after) (hp : p.token ∈ before.map TypePlan.token) :
    ¬ (l.map TypePlan.token).Nodup := by
  intro hnodup
  rw [hl] at hnodup
  obtain ⟨q, hq, htoken⟩ := List.mem_map.mp hp
  exact ne_of_nodup_map hnodup (.inl hq) htoken

namespace Setup

/-! ## Faults -/

/-- Why a type cannot be nested: the way outwards from it comes to a circle, or its declaring token
is that of no type. -/
inductive NestingFault (setup : Setup) (p : TypePlan) : Failure → Prop
  | circular (h : setup.blueprint.Circles p.token) :
    NestingFault setup p (.flawed (.cyclicNesting p.name))
  | unknown {outer : Token} (h : p.declaring = some outer)
    (hunknown : ∀ q ∈ setup.types, q.token ≠ outer) :
    NestingFault setup p (.flawed (.unknownDeclaring outer p.name))

/-- The failure of the first type that has a fault: that of the first type with the token of an
earlier one, and if tokens are distinct, that of the first type that cannot be nested. -/
inductive DeclarationFault (setup : Setup) : Failure → Prop
  | repeated {before after : List TypePlan} {p : TypePlan}
    (htypes : setup.types = before ++ p :: after)
    (hbefore : (before.map TypePlan.token).Nodup)
    (hp : p.token ∈ before.map TypePlan.token) :
    DeclarationFault setup (setup.failureIn .declare p (.duplicateLink p.token))
  | nesting {before after : List TypePlan} {p : TypePlan} {source : Failure}
    (htypes : setup.types = before ++ p :: after)
    (hnodup : (setup.types.map TypePlan.token).Nodup)
    (hbefore : ∀ q ∈ before, ∀ e, ¬ setup.NestingFault q e)
    (hp : setup.NestingFault p source) :
    DeclarationFault setup (setup.failureIn .declare p source)

variable {setup : Setup} {p : TypePlan} {e e' : Failure}

/-- A type has one of the faults at most: on the way to a circle the next type is known. -/
theorem NestingFault.unique (hnodup : (setup.types.map TypePlan.token).Nodup)
    (hp : p ∈ setup.types) (h : setup.NestingFault p e) (h' : setup.NestingFault p e') :
    e = e' := by
  have hexclusive : ∀ outer, setup.blueprint.Circles p.token → p.declaring = some outer →
      ¬ ∀ q ∈ setup.types, q.token ≠ outer := by
    intro outer hcircles hdeclaring hunknown
    obtain ⟨o, hstep, hnext⟩ := hcircles.next
    obtain ⟨_, ⟨q, hq, htoken, -⟩, -⟩ := hnext.next
    have ho : p.declaring = some o := (Blueprint.nestedIn_iff hnodup hp).mp hstep
    obtain rfl := Option.some.inj (hdeclaring.symm.trans ho)
    exact hunknown q hq htoken
  cases h with
  | circular hcircles =>
    cases h' with
    | circular => rfl
    | unknown hdeclaring hunknown => exact absurd hunknown (hexclusive _ hcircles hdeclaring)
  | unknown hdeclaring hunknown =>
    cases h' with
    | circular hcircles => exact absurd hunknown (hexclusive _ hcircles hdeclaring)
    | unknown hdeclaring' _ =>
      obtain rfl := Option.some.inj (hdeclaring.symm.trans hdeclaring')
      rfl

/-- A type can be nested if and only if its declaring token leads to a type, and not in a circle. -/
theorem forall_not_nestingFault_iff (hnodup : (setup.types.map TypePlan.token).Nodup)
    (hp : p ∈ setup.types) :
    (∀ e, ¬ setup.NestingFault p e) ↔ setup.blueprint.isNestingCyclic p = false ∧
      ∀ outer, p.declaring = some outer → ∃ q ∈ setup.types, q.token = outer := by
  rw [← Bool.not_eq_true, Blueprint.isNestingCyclic_iff hnodup hp]
  constructor
  · intro h
    refine ⟨fun hcircles => h _ (.circular hcircles), fun outer hdeclaring => ?_⟩
    by_contra hunknown
    refine h _ (.unknown hdeclaring fun q hq htoken => ?_)
    exact hunknown ⟨q, hq, htoken⟩
  · rintro ⟨hends, hnamed⟩ e hfault
    cases hfault with
    | circular hcircles => exact hends hcircles
    | unknown hdeclaring hunknown =>
      obtain ⟨q, hq, htoken⟩ := hnamed _ hdeclaring
      exact hunknown q hq htoken

/-- There is one first fault. -/
theorem DeclarationFault.unique (h : setup.DeclarationFault e) (h' : setup.DeclarationFault e') :
    e = e' := by
  cases h with
  | repeated htypes hbefore hp =>
    cases h' with
    | repeated htypes' hbefore' hp' =>
      rcases splits_trichotomy htypes htypes' with ⟨-, rfl⟩ | ⟨rest, hrest⟩ | ⟨rest, hrest⟩
      · rfl
      · exact absurd hbefore' (not_nodup_of_repeated hrest hp)
      · exact absurd hbefore (not_nodup_of_repeated hrest hp')
    | nesting _ hnodup' => exact absurd hnodup' (not_nodup_of_repeated htypes hp)
  | nesting htypes hnodup hbefore hp =>
    cases h' with
    | repeated htypes' _ hp' => exact absurd hnodup (not_nodup_of_repeated htypes' hp')
    | nesting htypes' _ hbefore' hp' =>
      rcases splits_trichotomy htypes htypes' with ⟨-, rfl⟩ | ⟨rest, hrest⟩ | ⟨rest, hrest⟩
      · obtain rfl := NestingFault.unique hnodup (by simp [htypes]) hp hp'
        rfl
      · exact absurd hp (hbefore' _ (by simp [hrest]) _)
      · exact absurd hp' (hbefore _ (by simp [hrest]) _)

end Setup

/-! ## Failures of the steps -/

section Steps

variable {setup : Setup} {done todo : List TypePlan} {p : TypePlan} {e : Failure}
  {s s' : BuildState}

/-- The only failure of making a type is that another one has its token. -/
theorem Declares.fails_declareType {config : Config} (hs : Declares config done s)
    (hrun : (Build.declareType p).Fails s e s') :
    p.token ∈ done.map TypePlan.token ∧ e = .duplicateLink p.token := by
  have hrepeated : p.token ∈ done.map TypePlan.token := by
    by_contra hnew
    obtain ⟨_, hyields⟩ := declareType_yields hs hnew
    exact hyields.not_fails hrun
  refine ⟨hrepeated, ?_⟩
  unfold Build.declareType at hrun
  simp only [Build.fails_bind, Build.fails_get, Build.yields_get, Build.fails_liftExcept,
    Build.fails_modify, and_false, exists_false, or_false, false_or] at hrun
  obtain ⟨_, _, ⟨rfl, rfl⟩, _, _, ⟨rfl, rfl⟩, hlink, -⟩ := hrun
  unfold LinkTable.linkType LinkTable.link at hlink
  split at hlink
  next => cases hlink
  next =>
    split at hlink
    next => cases hlink
    next =>
      obtain rfl := Except.error.inj hlink
      rfl

/-- A type that cannot be nested has a fault, and the failure is that of the fault. -/
theorem Nests.fault_of_wireDeclaring (hs : Nests setup done (p :: todo) s) (hp : p ∈ setup.types)
    (hrun : (setup.wireDeclaring p).Fails s e s') : setup.NestingFault p e := by
  have hnot : ∀ s', ¬ (setup.wireDeclaring p).Yields s () s' := fun _ h => h.not_fails hrun
  unfold Setup.wireDeclaring at hrun
  cases hdeclaring : p.declaring with
  | none =>
    rw [hdeclaring] at hrun
    cases Build.fails_pure.mp hrun
  | some outer =>
    simp only [hdeclaring] at hrun
    by_cases hcyclic : setup.blueprint.isNestingCyclic p = true
    · rw [if_pos hcyclic] at hrun
      obtain ⟨rfl, -⟩ := Build.fails_throw.mp hrun
      exact .circular ((Blueprint.isNestingCyclic_iff hs.nodup hp).mp hcyclic)
    · -- the token is unknown, because otherwise the type would have been nested
      have hunknown : ∀ q ∈ setup.types, q.token ≠ outer := by
        intro q hq htoken
        obtain ⟨s', hyields⟩ := hs.yields_iff.mpr ⟨Bool.eq_false_iff.mpr hcyclic, by
          rintro _ heq
          obtain rfl := Option.some.inj (hdeclaring.symm.trans heq)
          exact ⟨q, hq, htoken⟩⟩
        exact hnot s' hyields
      have houter : s.links.types.get? outer = none := by
        by_contra hlinked
        obtain ⟨o, ho⟩ := Option.ne_none_iff_exists'.mp hlinked
        obtain ⟨q, hq, htoken⟩ := hs.planned outer o ho
        exact hunknown q hq htoken
      rw [if_neg hcyclic] at hrun
      simp only [Build.fails_bind, Build.fails_get, Build.yields_get, false_or] at hrun
      obtain ⟨_, _, ⟨rfl, rfl⟩, hrun⟩ := hrun
      simp only [houter, Build.fails_throw] at hrun
      obtain ⟨rfl, -⟩ := hrun
      exact .unknown hdeclaring hunknown

end Steps

/-! ## The pass -/

section Pass

variable {setup : Setup} {notices : Array Notice} {e : Failure} {s s' : BuildState}

/-- The first round fails over the first type that repeats a token. -/
theorem declarationFault_of_declareRound
    (hrun : Build.Fails (setup.types.forM fun p => setup.inContext .declare p (Build.declareType p))
      { BuildState.initial setup.config with notices } e s') : setup.DeclarationFault e := by
  obtain ⟨done, p, todo, s₁, htypes, hs, hstep⟩ := Build.exists_of_fails_forM
    (fun done _ s => Declares setup.config done s)
    ((Declares.initial setup.config).of_notices notices)
    (fun _ _ _ _ _ _ hs hstep => hs.declareType (Setup.yields_inContext.mp hstep)) hrun
  obtain ⟨source, _, hfails, rfl, -⟩ := Setup.fails_inContext.mp hstep
  obtain ⟨hrepeated, rfl⟩ := hs.fails_declareType hfails
  exact .repeated htypes hs.nodup hrepeated

/-- The second round fails over the first type that cannot be nested. -/
theorem declarationFault_of_nestRound (hs : Nests setup [] setup.types s)
    (hrun : Build.Fails
      (setup.types.forM fun p => setup.inContext .declare p (setup.wireDeclaring p)) s e s') :
    setup.DeclarationFault e := by
  obtain ⟨done, p, todo, s₁, htypes, ⟨hs₁, hdone⟩, hstep⟩ := Build.exists_of_fails_forM
    (fun done todo s => Nests setup done todo s ∧ ∀ q ∈ done, ∀ e, ¬ setup.NestingFault q e)
    ⟨hs, by simp⟩
    (fun done q todo s s' hall hs hstep => by
      have hstep := Setup.yields_inContext.mp hstep
      have hq : q ∈ setup.types := by simp [hall]
      refine ⟨hs.1.step hall hstep, fun r hr => ?_⟩
      rcases List.mem_append.mp hr with hr | hr
      · exact hs.2 r hr
      · obtain rfl := List.mem_singleton.mp hr
        exact (Setup.forall_not_nestingFault_iff hs.1.nodup hq).mpr
          (hs.1.yields_iff.mp ⟨s', hstep⟩)) hrun
  obtain ⟨source, _, hfails, rfl, -⟩ := Setup.fails_inContext.mp hstep
  exact .nesting htypes hs.nodup hdone (hs₁.fault_of_wireDeclaring (by simp [htypes]) hfails)

/-- The pass fails with the failure of the first type that has a fault. -/
theorem declarationFault_of_fails
    (hrun : setup.declareTypes.Fails { BuildState.initial setup.config with notices } e s') :
    setup.DeclarationFault e := by
  unfold Setup.declareTypes at hrun
  rcases Build.fails_bind.mp hrun with hround | ⟨_, s₁, hround, hrest⟩
  · exact declarationFault_of_declareRound hround
  · have hdeclares : Declares setup.config setup.types s₁ := Build.forM_induction
      (fun done _ s => Declares setup.config done s)
      ((Declares.initial setup.config).of_notices notices)
      (fun _ _ _ _ _ _ hs hstep => hs.declareType (Setup.yields_inContext.mp hstep)) hround
    obtain ⟨s₂, hround', hnests⟩ := @declareRound_yields setup notices hdeclares.nodup
    obtain ⟨-, rfl⟩ := hround.unique hround'
    rcases Build.fails_bind.mp hrest with hround | ⟨_, s₂, -, htell⟩
    · exact declarationFault_of_nestRound hnests hround
    · simp [Build.notice, Build.fails_bind] at htell

/-- A first fault keeps the pass from succeeding. -/
theorem not_yields_of_declarationFault (h : setup.DeclarationFault e) :
    ¬ setup.declareTypes.Yields { BuildState.initial setup.config with notices } () s := by
  intro hrun
  have hwell : setup.WellNested := (yields_declareTypes hrun).1
  cases h with
  | repeated htypes _ hp => exact not_nodup_of_repeated htypes hp hwell.nodup
  | nesting htypes hnodup _ hp =>
    have hmem := htypes ▸ List.mem_append_cons_self
    exact (Setup.forall_not_nestingFault_iff hnodup hmem).mpr
      ⟨hwell.acyclic _ hmem, hwell.named _ hmem⟩ _ hp

end Pass

/-! ## Success -/

/-- Plans are well nested if tokens are distinct, declaring tokens are those of types, and no type
is nested, through others, in itself. -/
theorem Setup.wellNested_iff {setup : Setup} :
    setup.WellNested ↔ (setup.types.map TypePlan.token).Nodup ∧
      (∀ p ∈ setup.types, ∀ outer, p.declaring = some outer →
        ∃ q ∈ setup.types, q.token = outer) ∧
      ∀ token, ¬ Relation.TransGen setup.blueprint.NestedIn token token := by
  constructor
  · intro hwell
    refine ⟨hwell.nodup, hwell.named, fun token hcircle => ?_⟩
    obtain ⟨p, hp, hcyclic⟩ :=
      (Blueprint.exists_isNestingCyclic_iff hwell.nodup).mpr ⟨token, hcircle⟩
    exact absurd (hwell.acyclic p hp) (by simp [hcyclic])
  · rintro ⟨hnodup, hnamed, hends⟩
    refine ⟨hnodup, fun p hp => Bool.eq_false_iff.mpr fun hcyclic => ?_, hnamed⟩
    obtain ⟨token, hcircle⟩ :=
      (Blueprint.exists_isNestingCyclic_iff hnodup).mp ⟨p, hp, hcyclic⟩
    exact hends token hcircle

/-- The pass has made one object for each type, as it has been planned, and has nested it in the one
that its declaring token names. There is nothing else. -/
structure Setup.DeclaredExactly (setup : Setup) (s : BuildState) : Prop where
  types : List.Forall₂ (fun p h => s.links.types.get? p.token = some h ∧
    s.store.types.get? h =
      some { p.declaration with declaring := p.declaring.bind s.links.types.get? })
    setup.types s.declared.toList
  nested : ∀ p ∈ setup.types, ∀ outer, p.declaring = some outer →
    ∃ h ∈ s.declared, s.links.types.get? outer = some h
  distinct : s.declared.toList.Nodup
  /-- Only planned types are linked. -/
  linked : ∀ token h, s.links.types.get? token = some h →
    ∃ p ∈ setup.types, p.token = token
  /-- There are no objects but those that are listed. -/
  listed : ∀ h t, s.store.types.get? h = some t → h ∈ s.declared
  store : s.store = { types := s.store.types }
  links : s.links = { types := s.links.types }
  registry : s.registry = ⟨setup.config.registryScope, {}⟩
  failures : s.failures = #[]

/-- Types that have all been nested are all that there is. -/
theorem Nests.declaredExactly {setup : Setup} {s : BuildState} (hs : Nests setup setup.types [] s)
    (hwell : setup.WellNested) : setup.DeclaredExactly s := by
  have hlisted : ∀ p ∈ setup.types, ∀ h, s.links.types.get? p.token = some h →
      h ∈ s.declared := by
    intro p hp h hlink
    obtain ⟨g, hg, hlink'⟩ := exists_of_forall₂ hs.listed hp
    obtain rfl := Option.some.inj (hlink.symm.trans hlink')
    exact Array.mem_toList_iff.mp hg
  refine {
    types := ?types
    nested := ?nested
    distinct := hs.nodup_declared
    linked := hs.planned
    listed := ?listed
    store := hs.store
    links := hs.links
    registry := hs.registry
    failures := hs.failures }
  case types =>
    have hplanned : ∀ p ∈ setup.types, p ∈ setup.types := fun _ hp => hp
    refine ((List.forall₂_and_left _ _).mpr ⟨hplanned, hs.listed⟩).imp ?_
    rintro p h ⟨hp, hlink⟩
    obtain ⟨g, d, hlink', ht⟩ := hs.linked p hp
    obtain rfl := Option.some.inj (hlink'.symm.trans hlink)
    obtain ⟨g', t, hlink', ht', hnested⟩ := hs.nested p hp
    obtain rfl := Option.some.inj (hlink'.symm.trans hlink)
    obtain rfl := Option.some.inj (ht.symm.trans ht')
    exact ⟨hlink, hnested ▸ ht⟩
  case nested =>
    intro p hp outer hdeclaring
    obtain ⟨q, hq, rfl⟩ := hwell.named p hp outer hdeclaring
    obtain ⟨h, -, hlink, -⟩ := hs.linked q hq
    exact ⟨h, hlisted q hq h hlink, hlink⟩
  case listed =>
    intro h t ht
    obtain ⟨p, hp, hlink⟩ := hs.known h t ht
    exact hlisted p hp h hlink

/-! ## Outcomes -/

/-- **The first pass accepts exactly the plans that are well nested.** Then it makes one object for
each type, and nothing else. Otherwise it fails with the failure of the first type that has a
fault. -/
theorem declaration_exact (setup : Setup) :
    ((∃ s, setup.declareTypes.Yields (.initial setup.config) () s) ↔
      (setup.types.map TypePlan.token).Nodup ∧
        (∀ p ∈ setup.types, ∀ outer, p.declaring = some outer →
          ∃ q ∈ setup.types, q.token = outer) ∧
        ∀ token, ¬ Relation.TransGen setup.blueprint.NestedIn token token) ∧
    (∀ s, setup.declareTypes.Yields (.initial setup.config) () s → setup.DeclaredExactly s) ∧
    ∀ e, (∃ s, setup.declareTypes.Fails (.initial setup.config) e s) ↔
      setup.DeclarationFault e := by
  refine ⟨?accepts, ?makes, ?fails⟩
  case accepts =>
    rw [← Setup.wellNested_iff]
    exact @declareTypes_yields_iff setup #[]
  case makes =>
    intro s hrun
    obtain ⟨hwell, hnests⟩ := @yields_declareTypes setup #[] s hrun
    exact hnests.declaredExactly hwell
  case fails =>
    intro e
    constructor
    · rintro ⟨s, hrun⟩
      exact @declarationFault_of_fails setup #[] e s hrun
    · intro hfault
      rcases Build.yields_or_fails setup.declareTypes (.initial setup.config)
        with ⟨_, s, hyields⟩ | ⟨e', s, hfails⟩
      · exact absurd hyields (@not_yields_of_declarationFault setup #[] e s hfault)
      · obtain rfl := hfault.unique (@declarationFault_of_fails setup #[] e' s hfails)
        exact ⟨s, hfails⟩

end ClrImage
