import ClrImage.Proofs.Causes
import ClrImage.Proofs.Configurable
import ClrImage.Proofs.Continuation
import ClrImage.Proofs.DeclarationOutcomes
import ClrImage.Proofs.Directory
import ClrImage.Proofs.Sessions
import ClrImage.Proofs.SetOnce

/-!
# Reported failures

A build reports the failure that it ends with, or those that it has recorded. Many failures that its
steps could have never show, because of the order of the passes: every type is declared once before
it is looked up, its base and its declaring type are set once, and its members are published once,
under tokens that no other type's members have.

- `Setup.Sound`: what sessions make of plans. Tokens are distinct, and declaring tokens are those of
  types.
- `Setup.Blames`: a failure of a pass, in the context of a planned type that has the fault.
- `blames_declareTypes`, `blames_configureHierarchy`, `blames_populateType`: the passes one by one.
- `blames_of_reported`: all that a build of sound plans can report.
- `reports_exact`: so it is for the plans of every session.
-/

namespace ClrImage

open History

/-! ## Sound plans -/

namespace Setup

/-- Tokens are distinct, and declaring tokens are those of types. -/
structure Sound (setup : Setup) : Prop where
  distinct : setup.DistinctTokens
  named : ∀ p ∈ setup.types, ∀ outer, p.declaring = some outer →
    ∃ q ∈ setup.types, q.token = outer

/-- The failure is that of a planned type. Its source is a fault that the type has in the pass, and
the context of the type has been put around it. -/
def Blames (setup : Setup) (phase : Phase) (e : Failure) : Prop :=
  ∃ p ∈ setup.types, ∃ source, e = setup.failureIn phase p source ∧ setup.Fault p phase source

variable {setup : Setup}

theorem DistinctTokens.nodup (h : setup.DistinctTokens) :
    (setup.types.map TypePlan.token).Nodup := by
  refine List.pairwise_map.mpr ((List.nodup_flatMap.mp h).2.imp fun hdisjoint heq => ?_)
  exact hdisjoint List.mem_cons_self (heq ▸ List.mem_cons_self)

/-- Members of one type have distinct tokens. -/
theorem DistinctTokens.ofType (h : setup.DistinctTokens) {p : TypePlan} (hp : p ∈ setup.types) :
    p.DistinctTokens := by
  have hmembers := ((List.nodup_flatMap.mp h).1 p hp).of_cons
  obtain ⟨hrest, hevents, -⟩ := List.nodup_append.mp hmembers
  obtain ⟨hrest, hproperties, -⟩ := List.nodup_append.mp hrest
  obtain ⟨hfields, hmethods, -⟩ := List.nodup_append.mp hrest
  exact ⟨hfields, hmethods, hproperties, hevents⟩

/-- A step for a type that has the faults of a pass, and no other failures. -/
theorem Blames.of_inContext {α : Type} {phase : Phase} {p : TypePlan} (hp : p ∈ setup.types)
    {step : Build α} {e : Failure} {s s' : BuildState}
    (hrun : (setup.inContext phase p step).Fails s e s')
    (hfault : ∀ source s₁, step.Fails s source s₁ → setup.Fault p phase source) :
    setup.Blames phase e := by
  obtain ⟨source, s₁, hstep, rfl, -⟩ := fails_inContext.mp hrun
  exact ⟨p, hp, source, rfl, hfault source s₁ hstep⟩

end Setup

/-! ## Declaration -/

section Declaration

variable {setup : Setup} {e : Failure} {s s' : BuildState}

/-- The first pass fails only over a type whose way outwards comes to a circle. -/
theorem blames_declareTypes (hset : setup.Sound) {notices : Array Notice}
    (hrun : setup.declareTypes.Fails { BuildState.initial setup.config with notices } e s') :
    setup.Blames .declare e := by
  cases declarationFault_of_fails hrun with
  | repeated htypes _ hp => exact absurd hset.distinct.nodup (not_nodup_of_repeated htypes hp)
  | @nesting _ _ p source htypes _ _ hfault =>
    have hp : p ∈ setup.types := by simp [htypes]
    refine ⟨p, hp, source, rfl, ?_⟩
    cases hfault with
    | circular hcircles => exact .circle hcircles
    | unknown hdeclaring hunknown =>
      obtain ⟨q, hq, htoken⟩ := hset.named p hp _ hdeclaring
      exact absurd htoken (hunknown q hq)

/-- The first pass fails exactly if a type is nested, through others, in itself. -/
theorem declareTypes_fails_iff (hset : setup.Sound) (notices : Array Notice) :
    (∃ e s', setup.declareTypes.Fails { BuildState.initial setup.config with notices } e s') ↔
      ∃ token, Relation.TransGen setup.blueprint.NestedIn token token := by
  constructor
  · rintro ⟨e, s', hrun⟩
    by_contra hends
    obtain ⟨s, hyields⟩ := declareTypes_yields_iff.mpr
      (Setup.wellNested_iff.mpr ⟨hset.distinct.nodup, hset.named, not_exists.mp hends⟩)
    exact hyields.not_fails hrun
  · rintro ⟨token, hcircle⟩
    rcases Build.yields_or_fails setup.declareTypes { BuildState.initial setup.config with notices }
      with ⟨_, s, hyields⟩ | ⟨e, s', hfails⟩
    · have hends := (Setup.wellNested_iff.mp (yields_declareTypes hyields).1).2.2
      exact absurd hcircle (hends token)
    · exact ⟨e, s', hfails⟩

end Declaration

/-! ## Hierarchy -/

section Hierarchy

variable {setup : Setup} (hresolver : setup.resolver = Resolver.default) {h : TypeHandle}
  {t : TypeDef} {e : Failure} {s s' : BuildState}
include hresolver

/-- The base of a type that has none fails to be set only over its reference. -/
theorem ofReference_of_configureBase {topLevel : Token} {base : Option TypeRef}
    (ht : s.store.types.get? h = some t) (hfree : t.base = none)
    (hrun : Build.Fails (base.forM (setup.configureBase topLevel h)) s e s') : e.OfReference := by
  cases base with
  | none => cases hrun
  | some r =>
    rcases Build.fails_bind.mp hrun with hresolve | ⟨sig, _, hresolve, hset⟩
    · exact failsOnly_resolve hresolver topLevel r s e s' hresolve
    · obtain ⟨-, rfl⟩ := (yields_resolve hresolver).mp hresolve
      have hyields : ∃ store, s.store.setBase h sig = .ok store := by
        simp [Store.setBase, ht, hfree]
      obtain ⟨store, hstore⟩ := hyields
      rcases Build.fails_bind.mp hset with hget | ⟨_, _, hget, hset⟩
      · cases Build.fails_get.mp hget
      obtain ⟨rfl, rfl⟩ := Build.yields_get.mp hget
      rcases Build.fails_bind.mp hset with hlift | ⟨_, _, -, hmodify⟩
      · rw [hstore] at hlift
        cases (Build.fails_liftExcept.mp hlift).1
      · cases Build.fails_modify.mp hmodify

/-- A type that has neither been configured nor got a base fails to be configured only over a
reference. -/
theorem ofReference_of_configure {p : TypePlan} {pending : Array PendingGeneric}
    (hlink : s.links.types.get? p.token = some h) (ht : s.store.types.get? h = some t)
    (hopen : t.isConfigured = false) (hfree : t.base = none)
    (hrun : (setup.configure p pending).Fails s e s') : e.OfReference := by
  unfold Setup.configure at hrun
  rcases Build.fails_bind.mp hrun with hmanaged | ⟨⟨h', t'⟩, _, hmanaged, hrun⟩
  · have hyields : (Build.managedType p).Yields s (h, t) s :=
      Build.yields_managedType.mpr ⟨hlink, ht, rfl⟩
    exact absurd hmanaged hyields.not_fails
  obtain ⟨hlink', ht', rfl⟩ := Build.yields_managedType.mp hmanaged
  obtain rfl := Option.some.inj (hlink.symm.trans hlink')
  obtain rfl := Option.some.inj (ht.symm.trans ht')
  simp only [hopen, Bool.false_eq_true, if_false] at hrun
  rcases Build.fails_bind.mp hrun with hconstrain | ⟨_, s₁, hconstrain, hrun⟩
  · exact failsOnly_constrainGenerics (failsOnly_resolve hresolver _) pending s e s' hconstrain
  have hstages : Stages s s₁ := (keeps_constrainGenerics _ pending).of_yields hconstrain
  rw [← hstages.types_eq] at ht
  rcases Build.fails_bind.mp hrun with hbase | ⟨_, s₂, -, hrun⟩
  · exact ofReference_of_configureBase hresolver ht hfree hbase
  rcases Build.fails_bind.mp hrun with hinterfaces | ⟨_, s₃, -, hrun⟩
  · refine Build.FailsOnly.forM (fun r _ => ?_) s₂ e s' hinterfaces
    exact .bind (failsOnly_resolve hresolver _ r) fun _ => .of_succeeds (.modify _)
  rcases Build.fails_bind.mp hrun with hmark | ⟨_, s₄, -, htell⟩
  · cases Build.fails_modify.mp hmark
  · obtain ⟨_, hyields⟩ := noticeConfigured_yields h s₄
    exact absurd htell hyields.not_fails

/-- The second pass over declared types fails only over a reference. -/
theorem blames_configureHierarchy (hs : Declared setup s)
    (hrun : setup.configureHierarchy.Fails s e s') : setup.Blames .hierarchy e := by
  unfold Setup.configureHierarchy at hrun
  rcases Build.fails_bind.mp hrun with htell | ⟨_, s₀, htell, hrun⟩
  · cases Build.fails_modify.mp htell
  obtain rfl := Build.yields_modify.mp htell
  have hs := hs.of_notices (s.notices.push (.configuring setup.types.length setup.blueprint.module))
  -- the round that registers parameters succeeds, so it is a configuration that fails
  obtain ⟨made, s₁, hfirst⟩ := registerTypes_yields hs
  obtain ⟨hall, hround⟩ := firstRound_of_yields hs hfirst
  rcases Build.fails_bind.mp hrun with hfail | ⟨made', s₁', hfirst', hrun⟩
  · exact absurd hfail hfirst.not_fails
  obtain ⟨rfl, rfl⟩ := hfirst'.unique hfirst
  rcases Build.fails_bind.mp hrun with hfail | ⟨_, s₂, -, htell⟩
  · obtain ⟨done, entry, todo, s₂, hwork, hsecond, hstep⟩ := Build.exists_of_fails_forM
      (fun done todo s => SecondRound setup _ done todo s) (hround.next hall)
      (fun _ _ _ _ _ hsplit hI hstep =>
        hI.step hresolver hs (hsplit ▸ hall) (Setup.yields_inContext.mp hstep)) hfail
    have hp : entry.1 ∈ setup.types := by
      rw [← hall, hwork]
      simp
    obtain ⟨h, t, hlink, ht, _, _, rfl, -⟩ := hsecond.waiting entry List.mem_cons_self
    exact .of_inContext hp hstep fun source s₃ hconfigure =>
      .reference (by decide) (ofReference_of_configure hresolver hlink ht rfl rfl hconfigure)
  · cases htell

end Hierarchy

/-! ## Members -/

/-- Of all members, only those of the plan may have been linked. -/
def LinksWithin (p : TypePlan) (s s' : BuildState) : Prop :=
  ∀ (m : MemberSort) (token : Token), token ∉ m.tokens p → s'.linked? m token = s.linked? m token

namespace LinksWithin

variable {p : TypePlan} {s s' : BuildState}

instance (p : TypePlan) : IsPreorder BuildState (LinksWithin p) where
  refl _ _ _ _ := rfl
  trans _ _ _ h₁ h₂ m token htoken := (h₂ m token htoken).trans (h₁ m token htoken)

theorem of_eq (h : s'.links = s.links) : LinksWithin p s s' := by
  intro m token _
  unfold BuildState.linked?
  rw [h]

theorem of_publishes {m : MemberSort} {type : TypeHandle} {members : List (Token × Handle m.kind)}
    (hmembers : ∀ e ∈ members, e.1 ∈ m.tokens p) (h : Publishes m.places type members s s') :
    LinksWithin p s s' := by
  intro n token htoken
  by_cases hne : n = m
  · subst hne
    refine h.others token fun hmem => htoken ?_
    obtain ⟨e, he, rfl⟩ := List.mem_map.mp hmem
    exact hmembers e he
  · exact h.linked?_of_ne hne token

/-- Publishing what has been staged for a plan, whatever the outcome, links members of the plan. -/
theorem publish {setup : Setup} {site : MemberSite} {staged : Staged} {type : TypeHandle}
    (hstage : (setup.stage site p).Yields s staged s') (b : BuildState) :
    LinksWithin p b ((Build.publish type staged).outcome b).2 := by
  obtain ⟨hfields, hmethods, hproperties, hevents⟩ := stage_tokens hstage
  have hpart (m : MemberSort) {part members : List (Token × Handle m.kind)}
      (hpart : part <+: members) (htokens : members.map Prod.fst = m.tokens p) :
      ∀ e ∈ part, e.1 ∈ m.tokens p := fun e he =>
    htokens ▸ List.mem_map_of_mem (hpart.subset he)
  obtain ⟨part, h⟩ := publish_part type staged b
  obtain ⟨s₁, s₂, s₃, h₁, h₂, h₃, h₄⟩ := h.publishes
  have h₁ := of_publishes (m := .field) (hpart .field h.fields_part hfields) h₁
  have h₂ := of_publishes (m := .method) (hpart .method h.methods_part hmethods) h₂
  have h₃ := of_publishes (m := .property) (hpart .property h.properties_part hproperties) h₃
  have h₄ := of_publishes (m := .event) (hpart .event h.events_part hevents) h₄
  exact trans_of (LinksWithin p) h₁ (trans_of _ h₂ (trans_of _ h₃ h₄))

theorem populate (setup : Setup) (p : TypePlan) :
    Build.Keeps (LinksWithin p) (setup.populate p) := by
  intro s
  rcases Build.yields_or_fails (setup.populate p) s with ⟨_, s', hrun⟩ | ⟨e, s', hrun⟩ <;>
    rw [hrun.outcome_snd]
  · obtain ⟨h, t, staged, s₁, s₂, -, -, hstage, hpublish, hnotice⟩ := yields_populate hrun
    have h₁ : LinksWithin p s s₁ := of_eq ((keeps_stage _ p).of_yields hstage).links_eq
    have h₂ : LinksWithin p s₁ s₂ := hpublish.outcome_snd ▸ publish hstage s₁
    have h₃ : LinksWithin p s₂ s' := of_eq ((keeps_noticePopulated h).of_yields hnotice).links_eq
    exact trans_of (LinksWithin p) h₁ (trans_of _ h₂ h₃)
  · rcases fails_populate hrun with ⟨rfl, -⟩ | ⟨h, t, -, -, hstage | ⟨staged, s₁, hstage, hpublish⟩⟩
    · exact refl_of (LinksWithin p) s'
    · exact of_eq ((keeps_stage _ p).of_fails hstage).links_eq
    · have h₁ : LinksWithin p s s₁ := of_eq ((keeps_stage _ p).of_yields hstage).links_eq
      exact trans_of (LinksWithin p) h₁ (hpublish.outcome_snd ▸ publish hstage s₁)

theorem populateOrRecord (setup : Setup) (p : TypePlan) :
    Build.Keeps (LinksWithin p) (setup.populateOrRecord p) := by
  have hnotice (n : Notice) : Build.Keeps (LinksWithin p) (Build.notice n) := fun _ => of_eq rfl
  have htype : Build.Keeps (LinksWithin p) (setup.populateType p) := by
    unfold Setup.populateType
    split
    · exact hnotice _
    · exact Setup.keeps_inContext (fun _ => hnotice _) (populate setup p)
  unfold Setup.populateOrRecord
  split
  · exact Build.Keeps.tryCatch htype fun e => Build.Keeps.modify fun s => of_eq rfl
  · exact htype

end LinksWithin

/-- The types of the plans `todo` are still to get their members. None of these has been linked, and
the failures recorded so far are faults. -/
structure Populating (setup : Setup) (todo : List TypePlan) (s : BuildState) : Prop where
  types : ∀ p ∈ setup.types, s.TypeOf p fun _ => True
  unlinked : ∀ p ∈ todo, ∀ (m : MemberSort), ∀ token ∈ m.tokens p, s.linked? m token = none
  recorded : ∀ e ∈ s.failures, setup.Blames .members e

namespace Populating

variable {setup : Setup} {p : TypePlan} {todo : List TypePlan} {e : Failure} {s s' : BuildState}

/-- Behind the frame of a build no member has been linked, and no failure has been recorded. -/
theorem of_configured (hs : Configured setup s) : Populating setup setup.types s where
  types p hp := by
    obtain ⟨h, t, hlink, ht, -⟩ := hs.bare p hp
    exact ⟨h, t, hlink, ht, trivial⟩
  unlinked p _ m token _ := BuildState.linked?_eq_none hs.links m token
  recorded := by
    rw [hs.failures]
    exact nofun

theorem spares (hs : Populating setup (p :: todo) s) : s.links.Spares p where
  fields f hf := hs.unlinked p List.mem_cons_self .field f.token
    (List.mem_map_of_mem (f := FieldPlan.token) (Array.mem_toList_iff.mpr hf))
  methods m hm := hs.unlinked p List.mem_cons_self .method m.token
    (List.mem_map_of_mem (f := MethodPlan.token) (Array.mem_toList_iff.mpr hm))
  properties q hq := hs.unlinked p List.mem_cons_self .property q.token
    (List.mem_map_of_mem (f := PropertyPlan.token) (Array.mem_toList_iff.mpr hq))
  events v hv := hs.unlinked p List.mem_cons_self .event v.token
    (List.mem_map_of_mem (f := EventPlan.token) (Array.mem_toList_iff.mpr hv))

section Step

variable (hresolver : setup.resolver = Resolver.default) (hset : setup.Sound) (hp : p ∈ setup.types)
  (hs : Populating setup (p :: todo) s)
include hresolver hset hp hs

/-- The members of a type that is there fail only if they cannot be made. They can be published,
since their tokens are distinct and free. -/
theorem fault_of_populate (hrun : (setup.populate p).Fails s e s') : setup.Fault p .members e := by
  rcases fails_populate hrun with
    ⟨-, habsent⟩ | ⟨h, t, -, -, hstage | ⟨staged, s₁, hstage, hpublish⟩⟩
  · obtain ⟨h, t, hlink, ht, -⟩ := hs.types p hp
    exact absurd ⟨h, t, hlink, ht⟩ habsent
  · exact failsOnly_stage hresolver _ p s e s' hstage
  · have hlinks := ((keeps_stage _ p).of_yields hstage).links_eq
    obtain ⟨hfields, hmethods, hproperties, hevents⟩ := stage_tokens hstage
    have hdistinct := hset.distinct.ofType hp
    rcases fails_publish hpublish with ⟨htaken, -⟩ | ⟨-, hrepeated⟩
    · exact absurd ((staged_free_iff hstage).mpr (hlinks ▸ hs.spares)) htaken
    · rw [hfields, hmethods, hproperties, hevents] at hrepeated
      rcases hrepeated with ⟨hnot, -⟩ | ⟨hnot, -⟩ | ⟨hnot, -⟩ | ⟨hnot, -⟩
      · exact absurd hdistinct.fields hnot
      · exact absurd hdistinct.methods hnot
      · exact absurd hdistinct.properties hnot
      · exact absurd hdistinct.events hnot

theorem blames_populateType (hrun : (setup.populateType p).Fails s e s') :
    setup.Blames .members e := by
  unfold Setup.populateType at hrun
  split at hrun
  · cases Build.fails_modify.mp hrun
  · exact .of_inContext hp hrun fun _ _ hfail => hs.fault_of_populate hresolver hset hp hfail

/-- The pass fails on a type only if the type's members do. -/
theorem blames_populateOrRecord (hrun : (setup.populateOrRecord p).Fails s e s') :
    setup.Blames .members e := by
  unfold Setup.populateOrRecord at hrun
  split at hrun
  · unfold Build.Fails at hrun
    rw [Build.outcome_tryCatch] at hrun
    split at hrun <;> cases hrun
  · exact hs.blames_populateType hresolver hset hp hrun

theorem step (hnodup : ((p :: todo).map TypePlan.token).Nodup)
    (htodo : ∀ q ∈ todo, q ∈ setup.types) (hrun : (setup.populateOrRecord p).Yields s () s') :
    Populating setup todo s' where
  types q hq := by
    obtain ⟨type, -, hlink, -⟩ := hs.types p hp
    have honly : OnlyType type s s' :=
      onlyType_populateOrRecord (fun g hg => Option.some.inj (hg.symm.trans hlink)) hrun
    obtain ⟨h, t, hlink', ht, -⟩ := hs.types q hq
    obtain ⟨t', ht', -⟩ := honly.toExtends.types h t ht
    exact ⟨h, t', by rw [honly.linkedTypes, hlink'], ht', trivial⟩
  unlinked q hq m token htoken := by
    have hne : p ≠ q := by
      rintro rfl
      exact (List.nodup_cons.mp hnodup).1 (List.mem_map_of_mem hq)
    -- the pass links tokens of its own type only, and no other type has one of them
    have hother : token ∉ m.tokens p := fun hmem =>
      hset.distinct.disjoint (htodo q hq) hp hne (MemberSort.mem_tokens htoken)
        (MemberSort.mem_tokens hmem)
    rw [(LinksWithin.populateOrRecord setup p).of_yields hrun m token hother]
    exact hs.unlinked q (List.mem_cons_of_mem p hq) m token htoken
  recorded := by
    have hsame := failures_populateType setup p s
    -- a type records nothing while it is populated, and at most its failure afterwards
    rcases yields_populateOrRecord hrun with hyields | ⟨e, s₁, hfails, rfl⟩
    · rw [hyields.outcome_snd] at hsame
      exact hsame ▸ hs.recorded
    · rw [hfails.outcome_snd] at hsame
      intro e' he'
      rcases Array.mem_push.mp he' with he' | rfl
      · exact hs.recorded e' (hsame ▸ he')
      · exact hs.blames_populateType hresolver hset hp hfails

end Step

end Populating

/-! ## Whole builds -/

/-- The pass in whose context a failure is. -/
def Failure.phase? : Failure → Option Phase
  | .inType phase _ _ _ _ => some phase
  | _ => none

namespace Setup

/-- The failures that a build reports: the one that it ends with, or those that it has recorded. -/
def reported (setup : Setup) : List Failure :=
  match setup.run.1 with
  | .ok image => image.failures.toList
  | .error e => [e]

/-- What a build can report, and what it never does. -/
structure Reports (setup : Setup) : Prop where
  /-- Every failure is a fault of a planned type, in the context of that type. -/
  blames : ∀ e ∈ setup.reported, ∃ phase, setup.Blames phase e
  /-- No fault is in the context of a type itself. -/
  bare : ∀ e ∈ setup.reported, ∀ phase p source, e = setup.failureIn phase p source →
    e.rootCause = source
  /-- No token is linked twice, and no lock is lost. -/
  linkedOnce : ∀ e ∈ setup.reported, (∀ token, e.rootCause ≠ .duplicateLink token) ∧
    e.rootCause ≠ .lockLost
  /-- The first pass fails exactly if a type is nested, through others, in itself. -/
  circles : (∃ e ∈ setup.reported, e.phase? = some .declare) ↔
    ∃ token, Relation.TransGen setup.blueprint.NestedIn token token
  /-- Data of fields and parameters is set once. -/
  fields : ∀ site f, setup.makeField site f = setup.makeFieldBySetting site f
  /-- So is that of parameters. The generic parameters of a method can be counted, and its body is
  put in behind a lock that nobody has lost. -/
  methods : ∀ p ∈ setup.types, ∀ site, ∀ m ∈ p.methods.toList,
    setup.makeMethod site m = setup.makeMethodBySetting site m
  /-- Failures are recorded behind a lock that is never lost. -/
  locks : setup.runLocking = (setup.run.1, { state := setup.run.2 })

variable {setup : Setup}

/-- A failure of the frame ends the build. -/
theorem reported_of_frame_fails {e : Failure} {s : BuildState}
    (hframe : setup.frame.Fails (.initial setup.config) e s) : setup.reported = [e] := by
  have hrun : setup.run = (.error e, s) := by
    unfold run
    rw [build_eq]
    exact Build.outcome_bind_of_fails hframe
  rw [reported, hrun]

/-- Behind the frame, what is reported comes from the pass over the members. -/
theorem reported_of_frame_yields {s₀ : BuildState}
    (hframe : setup.frame.Yields (.initial setup.config) () s₀) :
    setup.reported =
      match Build.outcome (setup.types.forM setup.populateOrRecord) (setup.opened s₀) with
      | (.ok _, s₁) => s₁.failures.toList
      | (.error e, _) => [e] := by
  have hrun : setup.run.1 = (setup.finish.outcome s₀).1 := by
    unfold run
    rw [build_eq]
    exact congrArg Prod.fst (Build.outcome_bind_of_yields hframe)
  rw [reported, hrun, outcome_finish]
  rcases Build.outcome (setup.types.forM setup.populateOrRecord) (setup.opened s₀) with
    ⟨_ | _, s₁⟩ <;> rfl

end Setup

section Whole

variable {setup : Setup} (hresolver : setup.resolver = Resolver.default) (hset : setup.Sound)
  {e : Failure}
include hresolver hset

/-- The two passes of the frame fail with their own faults. -/
theorem blames_frame {s : BuildState} (hrun : setup.frame.Fails (.initial setup.config) e s) :
    setup.Blames .declare e ∨ setup.Blames .hierarchy e := by
  unfold Setup.frame at hrun
  rcases Build.fails_bind.mp hrun with htell | ⟨_, s₀, htell, hrun⟩
  · cases Build.fails_modify.mp htell
  obtain rfl := Build.yields_modify.mp htell
  rcases Build.fails_bind.mp hrun with hdeclare | ⟨_, s₁, hdeclare, hconfigure⟩
  · exact .inl (blames_declareTypes hset hdeclare)
  · exact .inr (blames_configureHierarchy hresolver (declared_of_yields hdeclare) hconfigure)

/-- The third pass records, or fails with, its own faults. -/
theorem blames_of_members {s₀ : BuildState}
    (hframe : setup.frame.Yields (.initial setup.config) () s₀) (he : e ∈ setup.reported) :
    setup.Blames .members e := by
  have hstart : Populating setup setup.types (setup.opened s₀) :=
    .of_configured ((Setup.configured_of_frame hresolver hframe).of_notices _)
  have hstep (done : List TypePlan) (p : TypePlan) (todo : List TypePlan) (s s' : BuildState)
      (hall : setup.types = done ++ p :: todo) (hs : Populating setup (p :: todo) s)
      (hrun : (setup.populateOrRecord p).Yields s () s') : Populating setup todo s' := by
    have hnodup := hset.distinct.nodup
    rw [hall, List.map_append, List.nodup_append] at hnodup
    exact hs.step hresolver hset (by simp [hall]) hnodup.2.1 (fun q hq => by simp [hall, hq]) hrun
  rw [Setup.reported_of_frame_yields hframe] at he
  rcases Build.yields_or_fails (setup.types.forM setup.populateOrRecord) (setup.opened s₀) with
    ⟨_, s₁, hpass⟩ | ⟨e', s₁, hpass⟩
  · rw [show Build.outcome _ _ = _ from hpass] at he
    have hend : Populating setup [] s₁ :=
      Build.forM_induction (fun _ todo s => Populating setup todo s) hstart hstep hpass
    exact hend.recorded e (Array.mem_toList_iff.mp he)
  · rw [show Build.outcome _ _ = _ from hpass] at he
    obtain rfl := List.mem_singleton.mp he
    obtain ⟨done, p, todo, s₂, hall, hs, hfail⟩ := Build.exists_of_fails_forM
      (fun _ todo s => Populating setup todo s) hstart hstep hpass
    exact hs.blames_populateOrRecord hresolver hset (by simp [hall]) hfail

/-- All that a build reports are faults of planned types. -/
theorem blames_of_reported (he : e ∈ setup.reported) : ∃ phase, setup.Blames phase e := by
  rcases Build.yields_or_fails setup.frame (.initial setup.config) with
    ⟨_, s₀, hframe⟩ | ⟨e', s₀, hframe⟩
  · exact ⟨_, blames_of_members hresolver hset hframe he⟩
  · rw [Setup.reported_of_frame_fails hframe] at he
    obtain rfl := List.mem_singleton.mp he
    rcases blames_frame hresolver hset hframe with h | h
    · exact ⟨_, h⟩
    · exact ⟨_, h⟩

/-- A failure of the first pass is reported exactly if a type is nested, through others, in
itself. -/
theorem reported_declare_iff :
    (∃ e ∈ setup.reported, e.phase? = some .declare) ↔
      ∃ token, Relation.TransGen setup.blueprint.NestedIn token token := by
  constructor
  · rintro ⟨e, he, hphase⟩
    obtain ⟨phase, p, hp, source, rfl, hfault⟩ := blames_of_reported hresolver hset he
    obtain rfl : phase = .declare := Option.some.inj hphase
    cases hfault with
    | circle h =>
      obtain ⟨token, -, hcircle⟩ := h
      exact ⟨token, hcircle⟩
    | reference hphase => exact absurd rfl hphase
  · intro hcircle
    obtain ⟨e, s, hdeclare⟩ := (declareTypes_fails_iff hset
      #[.building setup.blueprint.module setup.types.length setup.config.registryScope]).mpr hcircle
    have hframe : setup.frame.Fails (.initial setup.config) e s :=
      Build.fails_bind.mpr (.inr ⟨(), _, rfl, Build.fails_bind.mpr (.inl hdeclare)⟩)
    obtain ⟨p, -, source, rfl, -⟩ := blames_declareTypes hset hdeclare
    exact ⟨_, by rw [Setup.reported_of_frame_fails hframe]; exact List.mem_singleton_self _, rfl⟩

/-- What builds of sound plans report. -/
theorem reports_of_sound (hindices : ∀ p ∈ setup.types, ∀ m ∈ p.methods.toList,
    ∀ g ∈ m.genericPlans, g.index.toNat < 0xFFFFFFFF) : setup.Reports where
  blames e he := blames_of_reported hresolver hset he
  bare e he phase p source heq := by
    obtain ⟨phase', p', -, source', rfl, hfault⟩ := blames_of_reported hresolver hset he
    obtain rfl : source' = source := (Failure.inType.inj heq).2.2.2.2
    exact hfault.rootCause_eq
  linkedOnce e he := by
    obtain ⟨phase, p, -, source, rfl, hfault⟩ := blames_of_reported hresolver hset he
    have hroot : (setup.failureIn phase p source).rootCause = source := hfault.rootCause_eq
    rw [hroot]
    cases hfault
    case reference _ h => cases h <;> exact ⟨nofun, nofun⟩
    all_goals exact ⟨nofun, nofun⟩
  circles := reported_declare_iff hresolver hset
  fields site f := makeField_eq_bySetting setup site f
  methods p hp site m hm := makeMethod_eq_bySetting (hindices p hp m hm)
  locks := runLocking_eq setup

end Whole

/-! ## Sessions -/

namespace Session

/-- The build of what a session leaves. -/
def setup (module : String) (requests : List Request) (config : Config) : Setup where
  blueprint := blueprint module requests
  config := config

variable {module : String} {requests : List Request} {config : Config}

theorem types_setup (hrange : InRange (history module requests)) :
    (setup module requests config).types =
      ((history module requests).filterMap Deed.type?).map (plan (history module requests)) :=
  (tells hrange).finish_types hrange

/-- A session leaves sound plans. -/
theorem sound (hrange : InRange (history module requests)) :
    (setup module requests config).Sound where
  distinct := by
    unfold Setup.DistinctTokens
    rw [types_setup hrange]
    exact (tells hrange).nodup_flatMap_tokens hrange
  named p hp outer houter := by
    rw [types_setup hrange] at hp ⊢
    obtain ⟨q, -, rfl⟩ := List.mem_map.mp hp
    have hlast : last? (history module requests) (Deed.declaring? q.token) = some outer := houter
    obtain ⟨x, hx, hsay⟩ := List.mem_filterMap.mp (List.mem_of_getLast? hlast)
    have houter : outer ∈ x.names .type := by
      cases x <;> simp only [Deed.declaring?, reduceCtorEq, Option.ite_none_right_eq_some] at hsay
      obtain rfl := Option.some.inj hsay.2
      simp [Deed.names]
    obtain ⟨o, ho, rfl⟩ := (tells hrange).exists_addType hx houter
    exact ⟨_, List.mem_map_of_mem (mem_filterMap_type?.mpr ho), rfl⟩

/-- The generic parameters of methods have the indices that were declared. -/
theorem index_lt (hrange : InRange (history module requests))
    (hindices : IndicesInRange (history module requests)) :
    ∀ p ∈ (setup module requests config).types, ∀ m ∈ p.methods.toList, ∀ g ∈ m.genericPlans,
      g.index.toNat < 0xFFFFFFFF := by
  intro p hp m hm g hg
  rw [types_setup hrange] at hp
  obtain ⟨q, -, rfl⟩ := List.mem_map.mp hp
  have hlisted : g.index ∈ (typeDraft (history module requests) q).plan.declaredIndices :=
    List.mem_map_of_mem (List.mem_append_right _ (List.mem_flatMap.mpr ⟨m, hm, hg⟩))
  obtain ⟨x, hx, hindex⟩ := exists_index? hlisted
  exact hindices x hx g.index hindex

end Session

/-- What a build reports, whatever the session that has left its plans, as long as the rows of the
tables and the indices of generic parameters last, and whatever its configuration.

Every failure is a fault that a planned type has in its pass, with the context of the type around it
once. Nothing is linked, nested or given its base or its data twice, and every type and every
declaring type is found; the first pass fails exactly over circles. -/
theorem reports_exact {module : String} {requests : List Request}
    (hrange : InRange (Session.history module requests))
    (hindices : IndicesInRange (Session.history module requests)) (config : Config) :
    (Session.setup module requests config).Reports :=
  reports_of_sound rfl (Session.sound hrange) (Session.index_lt hrange hindices)

/-- Three types whose members fail, each in its own way. A meter lacks its default, a gauge names a
type that is not there, and a panel is read through a method of a type that comes later. -/
def plant : List Request := [
  .addType "Plant" "Meter" .empty .classType,
  .addField ⟨0x02000001⟩ "reading" FieldFlags.hasDefault (TypeRef.primitive .i4),
  .addType "Plant" "Gauge" .empty .classType,
  .addField ⟨0x02000002⟩ "probe" .empty (TypeRef.typeDef ⟨0x02000009⟩),
  .addType "Plant" "Panel" .empty .classType,
  .addType "Plant" "Driver" .empty .classType,
  .setDeclaring ⟨0x02000004⟩ ⟨0x02000003⟩,
  .addMethod ⟨0x02000004⟩ "get_Level" .empty .empty (TypeRef.primitive .i4),
  .addGeneric ⟨0x06000001⟩ "T" .empty,
  .addProperty ⟨0x02000003⟩ "Level" .empty (TypeRef.primitive .i4) (some ⟨0x06000001⟩) none]

theorem reports_exact_plant :
    InRange (Session.history "Plant.dll" plant) ∧
      IndicesInRange (Session.history "Plant.dll" plant) ∧
      (Session.setup "Plant.dll" plant { continueOnTypeError := true }).reported.length = 3 ∧
      (Session.setup "Plant.dll" plant { continueOnTypeError := true }).Reports := by
  have hrange : InRange (Session.history "Plant.dll" plant) := by
    intro k
    cases k <;> decide +kernel
  have hall : ((Session.history "Plant.dll" plant).filterMap Deed.index?).all
      (·.toNat < 0xFFFFFFFF) = true := by decide +kernel
  have hindices : IndicesInRange (Session.history "Plant.dll" plant) := fun x hx index hindex =>
    of_decide_eq_true (List.all_eq_true.mp hall index (List.mem_filterMap.mpr ⟨x, hx, hindex⟩))
  exact ⟨hrange, hindices, by decide +kernel, reports_exact hrange hindices _⟩

end ClrImage
