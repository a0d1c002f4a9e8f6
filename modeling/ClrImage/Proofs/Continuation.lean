import ClrImage.Proofs.Members

/-!
# Going on over failures

A build either ends at the first type whose members fail, or records the failure and goes on. This
module compares the two builds of one blueprint. Up to the members of the types they are the same
build. From then on they go through the same states as long as no type fails, and the failure that
ends the one build is the first that the other one records.

- `Setup.continuing`: the build that goes on over failing types, or the one that does not.
- `Setup.frame`: the part of a build that comes before the members.
- `Continues`: a pass that goes on, compared with the pass that ends at the first failure.
- `Setup.FailsOn`: the failures that a build meets.
- `continuation_agrees`: when the two builds agree, and what becomes of a failure otherwise.
-/

namespace ClrImage

namespace Setup

/-- The same build, which goes on over failing types or ends at the first of them. -/
def continuing (setup : Setup) (goesOn : Bool) : Setup :=
  { setup with config := { setup.config with continueOnTypeError := goesOn } }

/-- The part of a build that comes before the members. -/
def frame (setup : Setup) : Build Unit := do
  Build.notice
    (.building setup.blueprint.module setup.types.length setup.config.registryScope)
  setup.declareTypes
  setup.configureHierarchy

/-- The part of a build that comes behind the frame. -/
def finish (setup : Setup) : Build Image := do
  setup.populateMembers
  let image := setup.image (← get)
  Build.notice (.built image.module image.types.size image.methodCount image.failures.size)
  pure image

/-- The build comes to the members of a type and fails on them. -/
def FailsOn (setup : Setup) (p : TypePlan) (e : Failure) : Prop :=
  ∃ s s', setup.Reaches p s ∧ (setup.populateType p).Fails s e s'

/-! ## The common part -/

theorem build_eq (setup : Setup) : setup.build = setup.frame >>= fun _ => setup.finish := by
  unfold build frame finish
  simp only [bind_assoc]

/-- Whether a build goes on makes no difference before the members. -/
theorem frame_continuing (setup : Setup) (goesOn : Bool) :
    (setup.continuing goesOn).frame = setup.frame := rfl

theorem run_eq (setup : Setup) (goesOn : Bool) :
    (setup.continuing goesOn).run =
      (setup.frame >>= fun _ => (setup.continuing goesOn).finish).outcome
        (.initial setup.config) := by
  rw [← frame_continuing setup goesOn, ← build_eq]
  rfl

end Setup

/-! ## The members of the types -/

/-- A step whose failure is recorded. -/
theorem outcome_populateOrRecord_continuing (setup : Setup) (p : TypePlan) (s : BuildState) :
    ((setup.continuing true).populateOrRecord p).outcome s =
      match (setup.populateType p).outcome s with
      | (.ok u, s₁) => (.ok u, s₁)
      | (.error e, s₁) => (.ok (), { s₁ with failures := s₁.failures.push e }) := by
  show (tryCatch (setup.populateType p) _).outcome s = _
  rw [Build.outcome_tryCatch]
  rcases (setup.populateType p).outcome s with ⟨_ | _, s₁⟩ <;> rfl

/-- A pass over some types that goes on, started in the state `s`, ends in the state `s'` and
records the failures `failed`, each with its type. -/
structure Continues (setup : Setup) (l : List TypePlan) (s s' : BuildState)
    (failed : List (TypePlan × Failure)) : Prop where
  yields : Build.Yields (l.forM (setup.continuing true).populateOrRecord) s () s'
  recorded : s'.failures.toList = s.failures.toList ++ failed.map Prod.snd
  inOrder : (failed.map Prod.fst).Sublist l
  /-- Exactly the types fail that do so in the state in which the pass comes to them. -/
  mem_iff : ∀ p e, (p, e) ∈ failed ↔ ∃ done todo s₁ s₂, l = done ++ p :: todo ∧
    Build.Yields (done.forM (setup.continuing true).populateOrRecord) s () s₁ ∧
    (setup.populateType p).Fails s₁ e s₂
  /-- Without failures the pass that ends at the first one does the same. -/
  clean : failed = [] → Build.Yields (l.forM (setup.continuing false).populateOrRecord) s () s'
  /-- It ends with the failure that is recorded first. -/
  first : ∀ p e rest, failed = (p, e) :: rest →
    ∃ s₁, Build.Fails (l.forM (setup.continuing false).populateOrRecord) s e s₁

namespace Continues

variable {setup : Setup} {p : TypePlan} {l : List TypePlan} {s s₁ s' : BuildState} {e : Failure}
  {failed : List (TypePlan × Failure)}

theorem nil (setup : Setup) (s : BuildState) : Continues setup [] s s [] where
  yields := Build.yields_forM_nil.mpr rfl
  recorded := by simp
  inOrder := .slnil
  mem_iff p e := by simp
  clean _ := Build.yields_forM_nil.mpr rfl
  first p e rest h := by cases h

/-- Where a type comes first in a pass, or behind another type. -/
theorem splits_cons {done todo : List TypePlan} {q : TypePlan} :
    p :: l = done ++ q :: todo ↔
      (done = [] ∧ p = q ∧ l = todo) ∨ ∃ done', done = p :: done' ∧ l = done' ++ q :: todo := by
  cases done with
  | nil => simp
  | cons a done =>
    simp only [List.cons_append, List.cons.injEq, reduceCtorEq, false_and, false_or]
    constructor
    · rintro ⟨rfl, rfl⟩
      exact ⟨done, ⟨rfl, rfl⟩, rfl⟩
    · rintro ⟨_, ⟨rfl, rfl⟩, rfl⟩
      exact ⟨rfl, rfl⟩

/-- The first type gets its members, and neither pass notices a difference. -/
theorem cons_of_yields (hfirst : (setup.populateType p).Yields s () s₁)
    (hrest : Continues setup l s₁ s' failed) : Continues setup (p :: l) s s' failed := by
  have hrecord : ((setup.continuing true).populateOrRecord p).Yields s () s₁ := by
    unfold Build.Yields
    rw [outcome_populateOrRecord_continuing, show (setup.populateType p).outcome s = _ from hfirst]
  constructor
  case yields => exact Build.yields_forM_cons.mpr ⟨s₁, hrecord, hrest.yields⟩
  case recorded =>
    have hsame := failures_populateType setup p s
    rw [hfirst.outcome_snd] at hsame
    rw [hrest.recorded, hsame]
  case inOrder => exact hrest.inOrder.cons p
  case mem_iff =>
    intro q e
    rw [hrest.mem_iff]
    constructor
    · rintro ⟨done, todo, s₂, s₃, hl, hdone, hfails⟩
      refine ⟨p :: done, todo, s₂, s₃, by rw [hl]; rfl, ?_, hfails⟩
      exact Build.yields_forM_cons.mpr ⟨s₁, hrecord, hdone⟩
    · rintro ⟨done, todo, s₂, s₃, hl, hdone, hfails⟩
      rcases splits_cons.mp hl with ⟨rfl, rfl, rfl⟩ | ⟨done', rfl, hl'⟩
      · obtain rfl := Build.yields_forM_nil.mp hdone
        exact absurd hfails hfirst.not_fails
      · obtain ⟨_, hrecord', hdone⟩ := Build.yields_forM_cons.mp hdone
        obtain ⟨-, rfl⟩ := hrecord.unique hrecord'
        exact ⟨done', todo, s₂, s₃, hl', hdone, hfails⟩
  case clean => exact fun h => Build.yields_forM_cons.mpr ⟨s₁, hfirst, hrest.clean h⟩
  case first =>
    intro q e rest h
    obtain ⟨s₂, hfails⟩ := hrest.first q e rest h
    exact ⟨s₂, Build.fails_forM_cons.mpr (.inr ⟨s₁, hfirst, hfails⟩)⟩

/-- The first type fails. The one pass ends here, and the other one goes on behind the record. -/
theorem cons_of_fails (hfirst : (setup.populateType p).Fails s e s₁)
    (hrest : Continues setup l { s₁ with failures := s₁.failures.push e } s' failed) :
    Continues setup (p :: l) s s' ((p, e) :: failed) := by
  have hrecord : ((setup.continuing true).populateOrRecord p).Yields s ()
      { s₁ with failures := s₁.failures.push e } := by
    unfold Build.Yields
    rw [outcome_populateOrRecord_continuing, show (setup.populateType p).outcome s = _ from hfirst]
  constructor
  case yields => exact Build.yields_forM_cons.mpr ⟨_, hrecord, hrest.yields⟩
  case recorded =>
    have hsame := failures_populateType setup p s
    rw [hfirst.outcome_snd] at hsame
    rw [hrest.recorded, hsame]
    simp
  case inOrder => exact hrest.inOrder.cons_cons p
  case mem_iff =>
    intro q e'
    rw [List.mem_cons, hrest.mem_iff]
    constructor
    · rintro (heq | ⟨done, todo, s₂, s₃, hl, hdone, hfails⟩)
      · obtain ⟨rfl, rfl⟩ := Prod.mk.inj heq
        exact ⟨[], l, s, s₁, rfl, Build.yields_forM_nil.mpr rfl, hfirst⟩
      · refine ⟨p :: done, todo, s₂, s₃, by rw [hl]; rfl, ?_, hfails⟩
        exact Build.yields_forM_cons.mpr ⟨_, hrecord, hdone⟩
    · rintro ⟨done, todo, s₂, s₃, hl, hdone, hfails⟩
      rcases splits_cons.mp hl with ⟨rfl, rfl, rfl⟩ | ⟨done', rfl, hl'⟩
      · obtain rfl := Build.yields_forM_nil.mp hdone
        have hsame : (Except.error e, s₁) = (Except.error e', s₃) := hfirst.symm.trans hfails
        exact .inl (by rw [Except.error.inj (Prod.mk.inj hsame).1])
      · obtain ⟨_, hrecord', hdone⟩ := Build.yields_forM_cons.mp hdone
        obtain ⟨-, rfl⟩ := hrecord.unique hrecord'
        exact .inr ⟨done', todo, s₂, s₃, hl', hdone, hfails⟩
  case clean => exact fun h => by cases h
  case first =>
    intro q e' rest h
    obtain ⟨heq, -⟩ := List.cons.inj h
    obtain ⟨rfl, rfl⟩ := Prod.mk.inj heq
    exact ⟨s₁, Build.fails_forM_cons.mpr (.inl hfirst)⟩

/-- A pass that goes on always comes to its end. -/
theorem exists_of_pass (setup : Setup) (l : List TypePlan) (s : BuildState) :
    ∃ s' failed, Continues setup l s s' failed := by
  induction l generalizing s with
  | nil => exact ⟨s, [], nil setup s⟩
  | cons p l ih =>
    rcases Build.yields_or_fails (setup.populateType p) s with ⟨_, s₁, hfirst⟩ | ⟨e, s₁, hfirst⟩
    · obtain ⟨s', failed, hrest⟩ := ih s₁
      exact ⟨s', failed, hrest.cons_of_yields hfirst⟩
    · obtain ⟨s', failed, hrest⟩ := ih { s₁ with failures := s₁.failures.push e }
      exact ⟨s', (p, e) :: failed, hrest.cons_of_fails hfirst⟩

end Continues

/-! ## The two builds -/

namespace Setup

/-- The state in which a build begins with the members, behind its frame. -/
def opened (setup : Setup) (s : BuildState) : BuildState :=
  { s with
    notices := s.notices.push
      (.populating setup.types.length setup.blueprint.methodCount setup.blueprint.module) }

/-- What the end of a build results in depends on the pass over the members alone. -/
theorem outcome_finish (setup : Setup) (s : BuildState) :
    (setup.finish.outcome s).1 =
      match Build.outcome (setup.types.forM setup.populateOrRecord) (setup.opened s) with
      | (.ok _, s₁) => .ok (setup.image s₁)
      | (.error e, _) => .error e := by
  have htell : (Build.notice (.populating setup.types.length setup.blueprint.methodCount
      setup.blueprint.module)).Yields s () (setup.opened s) := rfl
  unfold finish populateMembers
  rw [bind_assoc, Build.outcome_bind_of_yields htell]
  rcases hpass : Build.outcome (setup.types.forM setup.populateOrRecord) (setup.opened s) with
    ⟨e | u, s₁⟩
  · rw [bind_assoc, Build.outcome_bind_of_fails hpass]
  · rw [bind_assoc, Build.outcome_bind_of_yields hpass]
    rfl

/-- The run up to the members of some types goes through the frame first. -/
theorem yields_upTo_iff {setup : Setup} {s₀ : BuildState} {earlier : List TypePlan}
    {s : BuildState} (hframe : setup.frame.Yields (.initial setup.config) () s₀) :
    (setup.upTo earlier).Yields (.initial setup.config) () s ↔
      Build.Yields (earlier.forM setup.populateOrRecord) (setup.opened s₀) () s := by
  have hsplit : setup.upTo earlier = (do
      setup.frame
      Build.notice
        (.populating setup.types.length setup.blueprint.methodCount setup.blueprint.module)
      earlier.forM setup.populateOrRecord) := by
    unfold upTo frame
    simp only [bind_assoc]
  rw [hsplit]
  unfold Build.Yields
  rw [Build.outcome_bind_of_yields hframe]
  rfl

/-- Behind its frame a build has declared every type once and has recorded no failure. -/
theorem configured_of_frame {setup : Setup} (hresolver : setup.resolver = Resolver.default)
    {s : BuildState} (hframe : setup.frame.Yields (.initial setup.config) () s) :
    Configured setup s := by
  unfold frame at hframe
  obtain ⟨_, _, htell, hframe⟩ := Build.yields_bind.mp hframe
  obtain rfl := Build.yields_modify.mp htell
  obtain ⟨_, s₁, hdeclare, hconfigure⟩ := Build.yields_bind.mp hframe
  exact configured_of_yields hresolver (declared_of_yields hdeclare) hconfigure

end Setup

/-- The two builds of a blueprint whose frame is built: the one that goes on gives an image, and
the other one gives the same image, or the failure that is recorded first. -/
theorem runs_of_frame {setup : Setup} {s₀ : BuildState}
    (hframe : setup.frame.Yields (.initial setup.config) () s₀) :
    ∃ s₁ failed, Continues setup setup.types (setup.opened s₀) s₁ failed ∧
      (setup.continuing true).run.1 = .ok (setup.image s₁) ∧
      (setup.continuing false).run.1 =
        match failed with
        | [] => .ok (setup.image s₁)
        | (_, e) :: _ => .error e := by
  obtain ⟨s₁, failed, hpass⟩ := Continues.exists_of_pass setup setup.types (setup.opened s₀)
  have hrun (goesOn : Bool) : (setup.continuing goesOn).run.1 =
      match Build.outcome (setup.types.forM (setup.continuing goesOn).populateOrRecord)
        (setup.opened s₀) with
      | (.ok _, s₁) => .ok (setup.image s₁)
      | (.error e, _) => .error e := by
    rw [Setup.run_eq, Build.outcome_bind_of_yields hframe]
    exact Setup.outcome_finish (setup.continuing goesOn) s₀
  refine ⟨s₁, failed, hpass, ?_, ?_⟩
  · rw [hrun true, show Build.outcome _ _ = _ from hpass.yields]
  · rw [hrun false]
    cases failed with
    | nil => rw [show Build.outcome _ _ = _ from hpass.clean rfl]
    | cons entry rest =>
      obtain ⟨p, e⟩ := entry
      obtain ⟨s₂, hfails⟩ := hpass.first p e rest rfl
      rw [show Build.outcome _ _ = _ from hfails]

/-- A failing frame ends both builds. -/
theorem run_of_frame_fails {setup : Setup} {e : Failure} {s : BuildState}
    (hframe : setup.frame.Fails (.initial setup.config) e s) (goesOn : Bool) :
    (setup.continuing goesOn).run.1 = .error e := by
  rw [Setup.run_eq, Build.outcome_bind_of_fails hframe]

/-- The failure of a type's members carries the context of the type. -/
theorem fails_populateType_context {setup : Setup} {p : TypePlan} {e : Failure}
    {s s' : BuildState} (hfails : (setup.populateType p).Fails s e s') :
    ∃ source, e = setup.failureIn .members p source := by
  unfold Setup.populateType at hfails
  split at hfails
  · cases Build.fails_modify.mp hfails
  · obtain ⟨source, _, -, he, -⟩ := Setup.fails_inContext.mp hfails
    exact ⟨source, he⟩

/-- The build that ends at the first failing type and the one that goes on over it.

The first gives an image exactly if the second gives it without failures. A failure before the
members ends both. If the first fails on members, the second gives an image whose failures are those
of the failing types, one for each of them in the order of the blueprint, and the first build's
failure is the first of these. -/
theorem continuation_agrees {setup : Setup} (hresolver : setup.resolver = Resolver.default) :
    (∀ image, (setup.continuing false).run.1 = .ok image ↔
      (setup.continuing true).run.1 = .ok image ∧ image.failures = #[]) ∧
    (∀ e s, setup.frame.Fails (.initial setup.config) e s →
      (setup.continuing false).run.1 = .error e ∧ (setup.continuing true).run.1 = .error e) ∧
    (∀ e s, setup.frame.Yields (.initial setup.config) () s →
      (setup.continuing false).run.1 = .error e →
      ∃ (image : Image) (failed : List (TypePlan × Failure)),
        (setup.continuing true).run.1 = .ok image ∧
        image.failures.toList = failed.map Prod.snd ∧
        (failed.map Prod.fst).Sublist setup.types ∧
        (failed.map fun entry => entry.1.token).Nodup ∧
        (∀ p e', (p, e') ∈ failed ↔ (setup.continuing true).FailsOn p e') ∧
        (∀ p e', (p, e') ∈ failed → ∃ source, e' = setup.failureIn .members p source) ∧
        (failed.head?).map Prod.snd = some e) := by
  refine ⟨fun image => ?_, fun e s hframe => ?_, fun e s₀ hframe hrun => ?_⟩
  · -- both builds fail in the frame, or both come to the members
    rcases Build.yields_or_fails setup.frame (.initial setup.config) with
      ⟨_, s₀, hframe⟩ | ⟨e, s₀, hframe⟩
    · obtain ⟨s₁, failed, hpass, hcontinuing, haborting⟩ := runs_of_frame hframe
      have hnone : s₀.failures = #[] := (Setup.configured_of_frame hresolver hframe).failures
      have hrecorded : s₁.failures.toList = failed.map Prod.snd := by
        rw [hpass.recorded]
        show s₀.failures.toList ++ _ = _
        rw [hnone]
        rfl
      rw [hcontinuing, haborting]
      cases failed with
      | nil =>
        have hclean : s₁.failures = #[] := Array.toList_eq_nil_iff.mp hrecorded
        constructor
        · rintro h
          obtain rfl := Except.ok.inj h
          exact ⟨rfl, hclean⟩
        · exact fun h => h.1
      | cons entry rest =>
        constructor
        · intro h
          cases h
        · rintro ⟨h, hclean⟩
          obtain rfl := Except.ok.inj h
          have hempty : s₁.failures = #[] := hclean
          rw [hempty] at hrecorded
          cases hrecorded
    · rw [run_of_frame_fails hframe, run_of_frame_fails hframe]
      constructor
      · intro h
        cases h
      · rintro ⟨h, -⟩
        cases h
  · exact ⟨run_of_frame_fails hframe false, run_of_frame_fails hframe true⟩
  · obtain ⟨s₁, failed, hpass, hcontinuing, haborting⟩ := runs_of_frame hframe
    have hconfigured := Setup.configured_of_frame hresolver hframe
    have hnone : s₀.failures = #[] := hconfigured.failures
    have hupTo (done : List TypePlan) (s₂ : BuildState) :
        ((setup.continuing true).upTo done).Yields (.initial (setup.continuing true).config) () s₂ ↔
          Build.Yields (done.forM (setup.continuing true).populateOrRecord) (setup.opened s₀) ()
            s₂ :=
      Setup.yields_upTo_iff hframe
    refine ⟨setup.image s₁, failed, hcontinuing, ?_, hpass.inOrder, ?_, fun p e' => ?_,
      fun p e' hmem => ?_, ?_⟩
    · show s₁.failures.toList = _
      rw [hpass.recorded]
      show s₀.failures.toList ++ _ = _
      rw [hnone]
      rfl
    · have hsub := hpass.inOrder.map TypePlan.token
      rw [List.map_map] at hsub
      exact hsub.nodup hconfigured.nodup
    · rw [hpass.mem_iff]
      constructor
      · rintro ⟨done, todo, s₂, s₃, hall, hdone, hfails⟩
        exact ⟨s₂, s₃, ⟨done, todo, hall, (hupTo done s₂).mpr hdone⟩, hfails⟩
      · rintro ⟨s₂, s₃, ⟨done, todo, hall, hreach⟩, hfails⟩
        exact ⟨done, todo, s₂, s₃, hall, (hupTo done s₂).mp hreach, hfails⟩
    · obtain ⟨_, _, s₂, s₃, -, -, hfails⟩ := (hpass.mem_iff p e').mp hmem
      exact fails_populateType_context hfails
    · rw [haborting] at hrun
      cases failed with
      | nil => cases hrun
      | cons entry rest =>
        obtain rfl := Except.error.inj hrun
        rfl

/-- The build of the gallery ends at its broken type, or goes on to the other one. -/
theorem continuation_agrees_gallery :
    ∃ (e : Failure) (s : BuildState) (image : Image) (failed : List (TypePlan × Failure)),
      gallery.resolver = Resolver.default ∧
      gallery.frame.Yields (.initial gallery.config) () s ∧
      (gallery.continuing false).run.1 = .error e ∧ (gallery.continuing true).run.1 = .ok image ∧
      image.failures.toList = failed.map Prod.snd ∧ (failed.head?).map Prod.snd = some e := by
  have hframe := Build.yields_of_isOk gallery.frame (.initial gallery.config) (by decide +kernel)
  obtain ⟨e, herror⟩ : ∃ e, (gallery.continuing false).run.1 = .error e := by
    have hnot : (gallery.continuing false).run.1.isOk = false := by decide +kernel
    rcases hrun : (gallery.continuing false).run.1 with e | image
    · exact ⟨e, rfl⟩
    · rw [hrun] at hnot
      cases hnot
  obtain ⟨image, failed, hok, hfailures, -, -, -, -, hfirst⟩ :=
    (continuation_agrees (show gallery.resolver = _ from rfl)).2.2 e _ hframe herror
  exact ⟨e, _, image, failed, rfl, hframe, herror, hok, hfailures, hfirst⟩

end ClrImage
