import ClrImage.Image
import ClrImage.Proofs.Steps

/-!
# Threads without interference

A thread that takes all of its steps at once is a step of a build, and putting threads together puts
together the steps. So what is cut into steps for one type does what it did before it was cut, as
long as nothing happens in between; and threads that take no turns run one after the other, up to
the first failure. The passes by schedules are the passes over one type after the other then.

- `Thread.alone_bind`, `Thread.alone_tryCatch`, …: `Thread.alone` respects all combinators.
- `Stepwise.alone_populateOrRecord`, …: the threads for a type against the steps for it.
- `sideBySide_inOrder`: threads side by side that take no turns.
- `Setup.runBy_inOrder`: builds by schedules that are builds.
-/

namespace ClrImage

namespace Thread

variable {α β : Type}

@[simp] theorem bind_step {γ : Type} (action : Build γ) (next : Except Failure γ → Thread α)
    (f : α → Thread β) :
    (Thread.step action next >>= f) = .step action fun outcome => next outcome >>= f := rfl

theorem bind_pure_eq (t : Thread α) : (t >>= pure) = t := by
  induction t with
  | done outcome => cases outcome <;> rfl
  | step action next ih => exact congrArg (Thread.step action) (funext ih)

theorem bind_assoc_eq {γ : Type} (t : Thread α) (f : α → Thread β) (g : β → Thread γ) :
    (t >>= f >>= g) = t >>= fun a => f a >>= g := by
  induction t with
  | done outcome => cases outcome <;> rfl
  | step action next ih => exact congrArg (Thread.step action) (funext ih)

instance : LawfulMonad Thread :=
  LawfulMonad.mk' Thread bind_pure_eq (fun _ _ => rfl) bind_assoc_eq

/-! ## Combinators -/

@[simp] theorem alone_pure (a : α) : (pure a : Thread α).alone = pure a := rfl

@[simp] theorem alone_throw (e : Failure) : (throw e : Thread α).alone = throw e := rfl

@[simp] theorem alone_lift (action : Build α) : (liftM action : Thread α).alone = action := rfl

@[simp] theorem alone_bind (t : Thread α) (f : α → Thread β) :
    (t >>= f).alone = t.alone >>= fun a => (f a).alone := by
  induction t with
  | done outcome => cases outcome <;> rfl
  | step action next ih =>
    funext s
    exact congrFun (ih _) _

@[simp] theorem alone_map (f : α → β) (t : Thread α) : (f <$> t).alone = f <$> t.alone := by
  rw [map_eq_pure_bind, alone_bind, map_eq_pure_bind]
  rfl

@[simp] theorem alone_tryCatch (t : Thread α) (handle : Failure → Thread α) :
    (tryCatch t handle).alone = tryCatch t.alone fun e => (handle e).alone := by
  induction t with
  | done outcome => cases outcome <;> rfl
  | step action next ih =>
    funext s
    exact congrFun (ih _) _

@[simp] theorem alone_ite (P : Prop) [Decidable P] (t u : Thread α) :
    (if P then t else u).alone = if P then t.alone else u.alone := by
  split <;> rfl

@[simp] theorem alone_forM (f : β → Thread Unit) (l : List β) :
    (forM l f).alone = forM l fun a => (f a).alone := by
  induction l with
  | nil => rfl
  | cons a l ih => simp [ih]

@[simp] theorem alone_mapM {γ : Type} (f : β → Thread γ) (l : List β) :
    (l.mapM f).alone = l.mapM fun a => (f a).alone := by
  induction l with
  | nil => simp
  | cons a l ih => simp [ih]

@[simp] theorem alone_foldlM {γ : Type} (f : γ → β → Thread γ) (c : γ) (l : List β) :
    (l.foldlM f c).alone = l.foldlM (fun c a => (f c a).alone) c := by
  induction l generalizing c with
  | nil => rfl
  | cons a l ih => simp [ih]

end Thread

/-! ## What is done for a type -/

namespace Stepwise

theorem keeps_noticeSharing {R : BuildState → BuildState → Prop} [IsPreorder BuildState R]
    (hnotice : ∀ n, Build.Keeps R (Build.notice n)) (h : GenericHandle) (owner : GenericOwner) :
    Build.Keeps R (Build.noticeSharing h owner) := by
  unfold Build.noticeSharing
  refine Build.Keeps.bind Build.Keeps.get fun _ => ?_
  split
  · exact Build.Keeps.pure ()
  · split
    · exact hnotice _
    · exact Build.Keeps.pure ()

theorem succeeds_noticeSharing (h : GenericHandle) (owner : GenericOwner) :
    Build.Succeeds (Build.noticeSharing h owner) := by
  unfold Build.noticeSharing
  refine Build.Succeeds.bind Build.Succeeds.get fun _ => ?_
  split
  · exact Build.Succeeds.pure ()
  · split
    · exact Build.Succeeds.modify _
    · exact Build.Succeeds.pure ()

/-- An owner is to be recorded for a parameter that is there and does not have it. -/
theorem yields_lacksOwner (h : GenericHandle) (owner : GenericOwner) (s : BuildState) :
    (Build.lacksOwner h owner).Yields s
      (((s.store.generics.get? h).map fun param => !param.isOwnedBy owner).getD false) s := by
  unfold Build.lacksOwner
  rw [Build.yields_get_bind]
  cases s.store.generics.get? h <;> exact Build.yields_pure.mpr ⟨rfl, rfl⟩

/-- Owners are counted behind the step that records one, and not before. -/
theorem alone_addOwner (h : GenericHandle) (owner : GenericOwner) :
    (addOwner h owner).alone = Build.addOwner h owner := by
  suffices ∀ s, (addOwner h owner).alone.outcome s = (Build.addOwner h owner).outcome s from
    funext this
  intro s
  unfold addOwner Build.addOwner Build.lacksOwner
  simp only [Thread.alone_bind, Thread.alone_lift, Build.outcome_bind, Build.outcome_get]
  cases hget : s.store.generics.get? h with
  | none => rfl
  | some param =>
    cases howned : param.isOwnedBy owner with
    | true => simp [howned]
    | false =>
      -- the parameter has one owner more behind the step, so more than one if it had any
      have hget' : (s.store.generics.modify h fun param =>
          { param with owners := param.owners.push owner }).get? h =
          some { param with owners := param.owners.push owner } := by
        rw [Arena.get?_modify, if_pos rfl, hget]
        rfl
      have hcount : 1 < (param.owners.push owner).size ↔ 0 < param.owners.size := by
        rw [Array.size_push]
        omega
      simp only [howned, Bool.not_false, if_true, Build.outcome_pure, Thread.alone_bind,
        Thread.alone_lift, Build.outcome_bind, Bool.false_eq_true, if_false]
      simp only [Build.modifyGeneric, Build.modifyStore, Build.outcome_modify, Build.noticeSharing,
        Build.outcome_bind, Build.outcome_get, hget', hcount]

/-- A parameter that is found is the one that the registry would have held. -/
theorem alone_obtainGeneric (owner : GenericOwner) (topLevel : Token) (g : GenericPlan) :
    (obtainGeneric owner topLevel g).alone = (do
      let key := (← get).registry.key g.index topLevel
      Build.registerGeneric key owner g) := by
  suffices ∀ s, (obtainGeneric owner topLevel g).alone.outcome s = Build.outcome (do
      let key := (← get).registry.key g.index topLevel
      Build.registerGeneric key owner g) s from funext this
  intro s
  unfold obtainGeneric Build.lookUpGeneric
  simp only [Thread.alone_bind, Thread.alone_lift, Build.outcome_bind, Build.outcome_get,
    Build.outcome_pure]
  cases hget : s.registry.get? (s.registry.key g.index topLevel) with
  | none => rfl
  | some held =>
    simp [Build.registerGeneric, GenericRegistry.register, hget]

theorem alone_declareGeneric (owner : GenericOwner) (topLevel : Token)
    (acc : Array GenericHandle × Array PendingGeneric) (g : GenericPlan) :
    (declareGeneric owner topLevel acc g).alone = Setup.declareGeneric owner topLevel acc g := by
  unfold declareGeneric Setup.declareGeneric
  simp [alone_obtainGeneric, alone_addOwner]

theorem alone_declareGenerics (owner : GenericOwner) (topLevel : Token)
    (listed : Array GenericHandle) (params : Array GenericPlan) :
    (declareGenerics owner topLevel listed params).alone =
      Setup.declareGenerics owner topLevel listed params := by
  unfold declareGenerics Setup.declareGenerics
  simp only [Thread.alone_foldlM, alone_declareGeneric]

variable (setup : Setup)

theorem alone_constrainGenerics (topLevel : Token) (pending : Array PendingGeneric) :
    (constrainGenerics setup topLevel pending).alone =
      setup.constrainGenerics topLevel pending := by
  unfold constrainGenerics Setup.constrainGenerics constrainGeneric Setup.constrainGeneric
  simp

theorem alone_inContext {α : Type} (phase : Phase) (p : TypePlan) (t : Thread α) :
    (inContext setup phase p t).alone = setup.inContext phase p t.alone := by
  unfold inContext Setup.inContext
  simp

theorem alone_declareTypeGenerics (p : TypePlan) :
    (declareTypeGenerics setup p).alone = setup.declareTypeGenerics p := by
  unfold declareTypeGenerics Setup.declareTypeGenerics
  cases p.generics <;> simp [alone_declareGenerics]

theorem alone_configure (p : TypePlan) (pending : Array PendingGeneric) :
    (configure setup p pending).alone = setup.configure p pending := by
  unfold configure Setup.configure configureBase Setup.configureBase configureInterface
    Setup.configureInterface
  cases p.base <;> simp [alone_constrainGenerics, Build.setBase]

theorem alone_makeMethodGenerics (site : MemberSite) (m : MethodPlan) :
    (makeMethodGenerics setup site m).alone = setup.makeMethodGenerics site m := by
  unfold makeMethodGenerics Setup.makeMethodGenerics
  cases m.generics <;> simp [alone_declareGenerics, alone_constrainGenerics]

theorem alone_makeMethod (site : MemberSite) (m : MethodPlan) :
    (makeMethod setup site m).alone = setup.makeMethod site m := by
  unfold makeMethod Setup.makeMethod
  simp [alone_makeMethodGenerics, Build.finishMethod]

theorem alone_makeProperty (site : MemberSite) (staged : Staged) (p : PropertyPlan) :
    (makeProperty setup site staged p).alone = setup.makeProperty site staged p := by
  unfold makeProperty Setup.makeProperty
  simp

theorem alone_makeEvent (site : MemberSite) (staged : Staged) (e : EventPlan) :
    (makeEvent setup site staged e).alone = setup.makeEvent site staged e := by
  unfold makeEvent Setup.makeEvent
  simp

theorem alone_stage (site : MemberSite) (p : TypePlan) :
    (stage setup site p).alone = setup.stage site p := by
  unfold stage Setup.stage
  simp [alone_makeMethod, alone_makeProperty, alone_makeEvent]

/-- The tests find the first token that is taken. -/
theorem firstTaken?_eq (links : LinkTable) (staged : Staged) :
    links.firstTaken? staged = (staged.tests.find? (·.2 links)).map (·.1) := by
  have htaken {k : ObjectKind} (m : WriteOnce Token (Handle k))
      (part : Array (Token × Handle k)) (test : Token × Handle k → LinkTable → Bool)
      (htest : ∀ e, test e links = (m.get? e.1).isSome) :
      LinkTable.taken? m part =
        ((part.toList.map fun e => (e.1, test e)).find? (·.2 links)).map (·.1) := by
    unfold LinkTable.taken?
    rw [← Array.find?_toList, List.find?_map, Option.map_map]
    simp only [Function.comp_def, htest]
  unfold LinkTable.firstTaken? Staged.tests
  rw [htaken links.fields staged.fields (fun e links => (links.fields.get? e.1).isSome)
      fun _ => rfl,
    htaken links.methods staged.methods (fun e links => (links.methods.get? e.1).isSome)
      fun _ => rfl,
    htaken links.properties staged.properties (fun e links => (links.properties.get? e.1).isSome)
      fun _ => rfl,
    htaken links.events staged.events (fun e links => (links.events.get? e.1).isSome)
      fun _ => rfl]
  simp only [List.find?_append, Option.map_or, Option.orElse_eq_orElse, Option.orElse_eq_or,
    Option.or_assoc]

/-- Looks that nobody interferes with find what is there. -/
theorem alone_findM? {α : Type} (test : α → LinkTable → Bool) (l : List α) (s : BuildState) :
    Build.outcome (l.findM? fun a => (liftM (Build.lookUpTaken (test a)) : Thread Bool)).alone s =
      (.ok (l.find? (test · s.links)), s) := by
  induction l with
  | nil => rfl
  | cons a l ih =>
    rw [List.findM?, Thread.alone_bind, Build.outcome_bind]
    simp only [Thread.alone_lift, Build.lookUpTaken, Build.outcome_bind, Build.outcome_get,
      Build.outcome_pure, List.find?_cons]
    cases test a s.links with
    | true => rfl
    | false => exact ih

theorem alone_publish (type : TypeHandle) (staged : Staged) :
    (publish type staged).alone = Build.publish type staged := by
  suffices ∀ s, (publish type staged).alone.outcome s = (Build.publish type staged).outcome s from
    funext this
  intro s
  have hfind := alone_findM? (fun test : Token × (LinkTable → Bool) => test.2) staged.tests s
  unfold publish Build.publish
  rw [Thread.alone_bind, Build.outcome_bind, hfind, Build.outcome_bind, Build.outcome_get]
  dsimp only
  rw [firstTaken?_eq]
  cases staged.tests.find? (·.2 s.links) with
  | some test => rfl
  | none => simp

theorem alone_populateOrRecord (p : TypePlan) :
    (populateOrRecord setup p).alone = setup.populateOrRecord p := by
  have hpopulate : (populate setup p).alone = setup.populate p := by
    unfold populate Setup.populate
    simp [Build.lookUpFullName, alone_stage, alone_publish]
  have htype : (populateType setup p).alone = setup.populateType p := by
    unfold populateType Setup.populateType
    simp [alone_inContext, hpopulate]
  unfold populateOrRecord Setup.populateOrRecord
  simp only [Thread.alone_ite, Thread.alone_tryCatch, Thread.alone_lift, htype]
  rfl

end Stepwise

/-! ## Threads that take no turns -/

section

variable {α : Type}

namespace Crew

/-- Once a thread has failed, no other one is started. -/
theorem windUp_failed (threads : List (Thread α)) (s : BuildState) :
    windUp true (threads.map ({ thread := · })) s = (threads.map ({ thread := · }), s) := by
  induction threads with
  | nil => rfl
  | cons t rest ih => simp [windUp, ih]

/-- A worker that has not been started has no outcome. -/
theorem outcome?_of_new (t : Thread α) : ({ thread := t } : Worker α).outcome? = none := by
  cases t <;> rfl

theorem failure?_of_new (t : Thread α) : ({ thread := t } : Worker α).failure? = none := by
  unfold Worker.failure?
  rw [outcome?_of_new]

/-- If nobody else is blamed, the first one that fails is. -/
theorem outcome_first (crew : Crew α) : crew.outcome 0 =
    match crew.findSome? Worker.failure? with
    | some e => .error e
    | none => .ok (crew.filterMap Worker.result?) := by
  have hblame : (crew[0]?.bind Worker.failure? <|> crew.findSome? Worker.failure?) =
      crew.findSome? Worker.failure? := by
    cases crew with
    | nil => rfl
    | cons w rest => cases hw : w.failure? <;> simp [hw]
  unfold outcome
  rcases hfirst : crew.findSome? Worker.failure? with _ | e <;> rw [hfirst] at hblame <;>
    rw [hblame]

/-- Workers that finish one after the other come to what their threads come to in order. -/
theorem outcome_windUp (threads : List (Thread α)) (s : BuildState) :
    Build.outcome (threads.mapM Thread.alone) s =
      ((windUp false (threads.map ({ thread := · })) s).1.outcome 0,
        (windUp false (threads.map ({ thread := · })) s).2) := by
  simp only [outcome_first]
  induction threads generalizing s with
  | nil => rfl
  | cons t rest ih =>
    rw [List.mapM_cons, Build.outcome_bind]
    simp only [List.map_cons, windUp, Bool.false_and, Bool.false_eq_true, if_false, Worker.finish,
      Bool.false_or]
    rcases ht : t.alone.outcome s with ⟨outcome, s₁⟩
    have ht' : t.alone.run.run s = (outcome, s₁) := ht
    rw [ht']
    cases outcome with
    | error e =>
      -- the workers behind it are not started
      have hfailure : (Worker.mk (Thread.done (α := α) (.error e)) true).failure? = some e := rfl
      simp only [hfailure, Option.isSome_some, windUp_failed, List.findSome?_cons]
    | ok a =>
      have hfailure : (Worker.mk (Thread.done (α := α) (.ok a)) true).failure? = none := rfl
      have hresult : (Worker.mk (Thread.done (α := α) (.ok a)) true).result? = some a := rfl
      simp only [hfailure, Option.isSome_none, List.findSome?_cons, List.filterMap_cons, hresult]
      rw [Build.outcome_bind, ih s₁]
      cases (windUp false (rest.map ({ thread := · })) s₁).1.findSome? Worker.failure? <;> rfl

end Crew

/-- Threads that take no turns run one after the other, up to the first failure. -/
theorem sideBySide_inOrder (threads : List (Thread α)) :
    sideBySide {} threads = threads.mapM Thread.alone := by
  funext s
  refine Eq.trans ?_ (Crew.outcome_windUp threads s).symm
  have hnew : (threads.map fun t => ({ thread := t } : Worker α)).any (·.failure?.isSome) =
      false := by
    rw [List.any_eq_false]
    intro w hw
    obtain ⟨t, -, rfl⟩ := List.mem_map.mp hw
    simp [Crew.failure?_of_new]
  show ((Crew.run {} _ s).1.outcome 0, (Crew.run {} _ s).2) = _
  simp only [Crew.run, Crew.turns, hnew]

/-- What is not needed of the results is left out. -/
theorem mapM_bind_eq_forM {β : Type} (l : List β) (step : β → Build Unit) (next : Build α) :
    (do let _ ← l.mapM step; next) = (do l.forM step; next) := by
  induction l generalizing next with
  | nil => simp
  | cons b l ih => simp_all

end

/-! ## Passes and builds -/

namespace Setup

variable {setup : Setup}

/-- Schedules are heeded only where types are processed side by side. -/
theorem runAll_eq {α : Type} (σ : Schedule) (threads : List (Thread α)) :
    setup.runAll σ threads = sideBySide (if setup.config.concurrent then σ else {}) threads := by
  unfold runAll
  split
  next => rfl
  next => rw [sideBySide_inOrder]

theorem runAll_inOrder {α : Type} {σ : Schedule} (hσ : setup.config.concurrent = true → σ = {})
    (threads : List (Thread α)) : setup.runAll σ threads = threads.mapM Thread.alone := by
  have hsame : (if setup.config.concurrent then σ else {}) = {} := by
    split
    next h => exact hσ h
    next => rfl
  rw [runAll_eq, hsame, sideBySide_inOrder]

/-- The first round of the second pass. -/
def registeringRound (setup : Setup) (σ : Schedule) : Build (List (Array PendingGeneric)) :=
  setup.runAll σ <| setup.types.map fun p =>
    Stepwise.inContext setup .hierarchy p (Stepwise.declareTypeGenerics setup p)

/-- The second round, which goes on with the parameters that the first one has made. -/
def configuringRound (setup : Setup) (σ : Schedule) (made : List (Array PendingGeneric)) :
    Build (List Unit) :=
  setup.runAll σ <| (setup.types.zip made).map fun (p, pending) =>
    Stepwise.inContext setup .hierarchy p (Stepwise.configure setup p pending)

/-- The second pass goes through its rounds one behind the other. -/
theorem yields_configureHierarchyBy {σ : Schedules} {s s' : BuildState} :
    (setup.configureHierarchyBy σ).Yields s () s' ↔ ∃ made s₁ units s₂,
      (setup.registeringRound σ.declaring).Yields
        { s with
          notices := s.notices.push (.configuring setup.types.length setup.blueprint.module) }
        made s₁ ∧
      (setup.configuringRound σ.configuring made).Yields s₁ units s₂ ∧
      s' = { s₂ with notices := s₂.notices.push (.hierarchyConfigured s₂.registry.size) } := by
  unfold configureHierarchyBy registeringRound configuringRound
  constructor
  · intro hrun
    obtain ⟨_, _, htell, hrun⟩ := Build.yields_bind.mp hrun
    obtain rfl := Build.yields_modify.mp htell
    obtain ⟨made, s₁, hdeclare, hrun⟩ := Build.yields_bind.mp hrun
    obtain ⟨units, s₂, hconfigure, hrun⟩ := Build.yields_bind.mp hrun
    rw [Build.yields_get_bind] at hrun
    exact ⟨made, s₁, units, s₂, hdeclare, hconfigure, (Build.yields_modify.mp hrun).symm⟩
  · rintro ⟨made, s₁, units, s₂, hdeclare, hconfigure, rfl⟩
    refine Build.yields_bind.mpr ⟨(), _, rfl, Build.yields_bind.mpr ⟨made, s₁, hdeclare,
      Build.yields_bind.mpr ⟨units, s₂, hconfigure, ?_⟩⟩⟩
    rw [Build.yields_get_bind]
    rfl

/-- The pass fails with a failure of one of its rounds. -/
theorem fails_configureHierarchyBy {σ : Schedules} {s s' : BuildState} {e : Failure} :
    (setup.configureHierarchyBy σ).Fails s e s' ↔
      (setup.registeringRound σ.declaring).Fails
        { s with
          notices := s.notices.push (.configuring setup.types.length setup.blueprint.module) }
        e s' ∨
      ∃ made s₁,
        (setup.registeringRound σ.declaring).Yields
          { s with
            notices := s.notices.push (.configuring setup.types.length setup.blueprint.module) }
          made s₁ ∧
        (setup.configuringRound σ.configuring made).Fails s₁ e s' := by
  unfold configureHierarchyBy registeringRound configuringRound
  constructor
  · intro hrun
    rcases Build.fails_bind.mp hrun with htell | ⟨_, _, htell, hrun⟩
    · cases Build.fails_modify.mp htell
    obtain rfl := Build.yields_modify.mp htell
    rcases Build.fails_bind.mp hrun with hdeclare | ⟨made, s₁, hdeclare, hrun⟩
    · exact .inl hdeclare
    rcases Build.fails_bind.mp hrun with hconfigure | ⟨_, s₂, -, hrun⟩
    · exact .inr ⟨made, s₁, hdeclare, hconfigure⟩
    · cases hrun
  · rintro (hdeclare | ⟨made, s₁, hdeclare, hconfigure⟩)
    · exact Build.fails_bind.mpr (.inr ⟨(), _, rfl, Build.fails_bind.mpr (.inl hdeclare)⟩)
    · exact Build.fails_bind.mpr (.inr ⟨(), _, rfl, Build.fails_bind.mpr (.inr ⟨made, s₁, hdeclare,
        Build.fails_bind.mpr (.inl hconfigure)⟩)⟩)

variable {σ : Schedules} (hσ : setup.config.concurrent = true → σ = {})
include hσ

/-- The second pass, if types are processed one after the other. -/
theorem configureHierarchyBy_inOrder : setup.configureHierarchyBy σ = setup.configureHierarchy := by
  unfold configureHierarchyBy configureHierarchy
  have hdeclaring (threads : List (Thread (Array PendingGeneric))) :
      setup.runAll σ.declaring threads = threads.mapM Thread.alone :=
    runAll_inOrder (fun h => congrArg Schedules.declaring (hσ h)) threads
  have hconfiguring (threads : List (Thread Unit)) :
      setup.runAll σ.configuring threads = threads.mapM Thread.alone :=
    runAll_inOrder (fun h => congrArg Schedules.configuring (hσ h)) threads
  simp only [hdeclaring, hconfiguring, List.mapM_map, mapM_bind_eq_forM, Function.comp_def,
    Stepwise.alone_inContext, Stepwise.alone_declareTypeGenerics, Stepwise.alone_configure]

/-- The third pass, if types are processed one after the other. -/
theorem populateMembersBy_inOrder : setup.populateMembersBy σ = setup.populateMembers := by
  unfold populateMembersBy populateMembers
  have hpopulating (threads : List (Thread Unit)) :
      setup.runAll σ.populating threads = threads.mapM Thread.alone :=
    runAll_inOrder (fun h => congrArg Schedules.populating (hσ h)) threads
  simp only [hpopulating, List.mapM_map, mapM_bind_eq_forM, Function.comp_def,
    Stepwise.alone_populateOrRecord]

/-- A build by schedules is the build over one type after the other, unless its configuration has
types processed side by side and the schedules have them take turns. -/
theorem runBy_inOrder : setup.runBy σ = setup.run := by
  unfold runBy run buildBy build
  rw [configureHierarchyBy_inOrder hσ, populateMembersBy_inOrder hσ]

end Setup

end ClrImage
