import ClrImage.Proofs.Calls

/-!
# What calls do to a build

Calls for the hierarchy and for members are long, but they change a state in few ways: they make
objects, register and change generic parameters, set parts of types, and publish members. What holds
between two states whenever one of these changes leads from one to the other, and is reflexive and
transitive, holds between the states before and behind **any** calls.

- `TypeDef.SamePlace`, `GenericParam.Gains`: what no change takes from a type or a parameter.
- `AllowsCalls`: a relation that holds over each single change.
- `keeps_call`, `callAll_related`: it holds over all calls, whatever their outcome.
- `related_of_passes`: it holds over the later passes of a build.
-/

namespace ClrImage

/-! ## Single changes -/

/-- The two types have the same identity, and are nested in the same type. -/
structure TypeDef.SamePlace (t u : TypeDef) : Prop extends TypeDef.Alike t u where
  declaring : u.declaring = t.declaring

theorem TypeDef.SamePlace.refl (t : TypeDef) : t.SamePlace t := ⟨.refl t, rfl⟩

theorem TypeDef.SamePlace.trans {t u v : TypeDef} (h₁ : t.SamePlace u) (h₂ : u.SamePlace v) :
    t.SamePlace v :=
  ⟨.trans t u v h₁.toAlike h₂.toAlike, h₂.declaring.trans h₁.declaring⟩

/-- The parameter keeps its identity and its owners, and may have more of them. -/
structure GenericParam.Gains (x y : GenericParam) : Prop extends GenericParam.Alike x y where
  owners : ∀ owner, owner ∈ x.owners → owner ∈ y.owners

theorem GenericParam.Gains.refl (x : GenericParam) : x.Gains x := ⟨.refl x, fun _ => id⟩

theorem GenericParam.Gains.trans (x y z : GenericParam) (h₁ : x.Gains y) (h₂ : y.Gains z) :
    x.Gains z :=
  ⟨.trans x y z h₁.toAlike h₂.toAlike, fun owner => h₂.owners owner ∘ h₁.owners owner⟩

/-- A relation that holds over each change that calls are made of. -/
class AllowsCalls (R : BuildState → BuildState → Prop) : Prop extends AllowsMaking R where
  tells : ∀ n, Build.Keeps R (Build.notice n)
  allocMethod : ∀ m, Build.Keeps R (Build.allocMethod m)
  registerGeneric : ∀ key owner g, Build.Keeps R (Build.registerGeneric key owner g)
  modifyGeneric : ∀ h f, (∀ x, GenericParam.Gains x (f x)) → Build.Keeps R (Build.modifyGeneric h f)
  modifyType : ∀ h f, (∀ t, TypeDef.SamePlace t (f t)) → Build.Keeps R (Build.modifyType h f)
  publishes : ∀ (m : MemberSort) type e s s', Publishes m.places type [e] s s' → R s s'
  record : ∀ e, Build.Keeps R (modify fun s => { s with failures := s.failures.push e })

section

variable {setup : Setup} {R : BuildState → BuildState → Prop} [IsPreorder BuildState R]
  [AllowsCalls R]

/-! ## Generic parameters -/

theorem keeps_addOwner_of_allows (h : GenericHandle) (owner : GenericOwner) :
    Build.Keeps R (Build.addOwner h owner) := by
  unfold Build.addOwner
  refine Build.Keeps.bind Build.Keeps.get fun s => ?_
  split
  · exact Build.Keeps.pure ()
  split
  · exact Build.Keeps.pure ()
  refine Build.Keeps.bind (AllowsCalls.modifyGeneric h _ fun x => ⟨⟨rfl, rfl, rfl, rfl, rfl⟩, ?_⟩)
    fun _ => ?_
  · exact fun _ hmem => Array.mem_push_of_mem owner hmem
  · split
    · exact AllowsCalls.tells _
    · exact Build.Keeps.pure ()

theorem keeps_declareGeneric_of_allows (owner : GenericOwner) (topLevel : Token)
    (acc : Array GenericHandle × Array PendingGeneric) (g : GenericPlan) :
    Build.Keeps R (Setup.declareGeneric owner topLevel acc g) := by
  unfold Setup.declareGeneric
  refine Build.Keeps.bind Build.Keeps.get fun _ => ?_
  refine Build.Keeps.bind (AllowsCalls.registerGeneric _ owner g) fun made => ?_
  refine Build.Keeps.bind (keeps_addOwner_of_allows _ owner) fun _ => ?_
  split
  · exact Build.Keeps.bind (AllowsCalls.tells _) fun _ => Build.Keeps.pure _
  · exact Build.Keeps.pure _

theorem keeps_declareGenerics_of_allows (owner : GenericOwner) (topLevel : Token)
    (listed : Array GenericHandle) (params : Array GenericPlan) :
    Build.Keeps R (Setup.declareGenerics owner topLevel listed params) :=
  Build.Keeps.foldlM (keeps_declareGeneric_of_allows owner topLevel) _ _

theorem keeps_constrainGenerics_of_allows (topLevel : Token) (pending : Array PendingGeneric) :
    Build.Keeps R (setup.constrainGenerics topLevel pending) := by
  refine Build.Keeps.forM (fun item => Build.Keeps.bind ?_ fun _ => ?_) _
  · refine Build.Keeps.forM (fun c => ?_) _
    exact Build.Keeps.bind (keeps_resolve topLevel c) fun _ =>
      AllowsCalls.modifyGeneric item.param _ fun _ => ⟨⟨rfl, rfl, rfl, rfl, rfl⟩, fun _ => id⟩
  · exact AllowsCalls.modifyGeneric item.param _ fun _ => ⟨⟨rfl, rfl, rfl, rfl, rfl⟩, fun _ => id⟩

/-! ## The hierarchy -/

/-- Putting a failure in context only tells it. -/
theorem keeps_inContext_of_allows {α : Type} {phase : Phase} {p : TypePlan} {step : Build α}
    (h : Build.Keeps R step) : Build.Keeps R (setup.inContext phase p step) :=
  Setup.keeps_inContext (fun _ => AllowsCalls.tells _) h

theorem keeps_declareTypeGenerics_of_allows (p : TypePlan) :
    Build.Keeps R (setup.declareTypeGenerics p) := by
  unfold Setup.declareTypeGenerics
  refine Build.Keeps.bind keeps_managedType fun entry => ?_
  dsimp only
  split
  · exact Build.Keeps.pure _
  split
  · exact Build.Keeps.pure _
  refine Build.Keeps.bind (keeps_declareGenerics_of_allows _ _ _ _) fun made => ?_
  exact Build.Keeps.bind
    (AllowsCalls.modifyType entry.1 _ fun _ => ⟨⟨rfl, rfl, rfl, rfl, rfl, rfl⟩, rfl⟩)
    fun _ => Build.Keeps.pure _

theorem keeps_configureBase_of_allows (topLevel : Token) (h : TypeHandle) (r : TypeRef) :
    Build.Keeps R (setup.configureBase topLevel h r) := by
  refine Build.Keeps.bind (keeps_resolve topLevel r) fun sig s => ?_
  rw [Build.outcome_bind, Build.outcome_get]
  dsimp only
  rw [Build.outcome_bind, Build.outcome_liftExcept]
  rcases hset : s.store.setBase h sig with e | store
  · exact refl_of R s
  unfold Store.setBase at hset
  split at hset
  next =>
    obtain rfl := Except.ok.inj hset
    exact refl_of R s
  next =>
    split at hset
    next => cases hset
    next =>
      obtain rfl := Except.ok.inj hset
      exact AllowsCalls.modifyType h (fun t => { t with base := some sig })
        (fun _ => ⟨⟨rfl, rfl, rfl, rfl, rfl, rfl⟩, rfl⟩) s

theorem keeps_noticeConfigured_of_allows (h : TypeHandle) :
    Build.Keeps R (Setup.noticeConfigured h) := by
  unfold Setup.noticeConfigured
  refine Build.Keeps.bind Build.Keeps.get fun s => ?_
  split
  · exact Build.Keeps.pure ()
  · exact AllowsCalls.tells _

theorem keeps_configure_of_allows (p : TypePlan) (pending : Array PendingGeneric) :
    Build.Keeps R (setup.configure p pending) := by
  unfold Setup.configure
  refine Build.Keeps.bind keeps_managedType fun entry => ?_
  dsimp only
  split
  · exact AllowsCalls.tells _
  refine Build.Keeps.bind (keeps_constrainGenerics_of_allows _ _) fun _ => ?_
  refine Build.Keeps.bind ?_ fun _ => ?_
  · cases p.base with
    | none => exact Build.Keeps.pure ()
    | some r => exact keeps_configureBase_of_allows _ entry.1 r
  refine Build.Keeps.bind (Build.Keeps.forM (fun r => ?_) _) fun _ => ?_
  · exact Build.Keeps.bind (keeps_resolve _ r) fun _ =>
      AllowsCalls.modifyType entry.1 _ fun _ => ⟨⟨rfl, rfl, rfl, rfl, rfl, rfl⟩, rfl⟩
  exact Build.Keeps.bind
    (AllowsCalls.modifyType entry.1 _ fun _ => ⟨⟨rfl, rfl, rfl, rfl, rfl, rfl⟩, rfl⟩)
    fun _ => keeps_noticeConfigured_of_allows entry.1

theorem keeps_perform_of_allows (call : HierarchyCall) : Build.Keeps R (setup.perform call) := by
  have hdeclare (p : TypePlan) : Build.Keeps R
      (setup.inContext .hierarchy p (setup.declareTypeGenerics p)) :=
    keeps_inContext_of_allows (keeps_declareTypeGenerics_of_allows p)
  have hconfigure (e : PendingType) : Build.Keeps R
      (setup.inContext .hierarchy e.1 (setup.configure e.1 e.2)) :=
    keeps_inContext_of_allows (keeps_configure_of_allows e.1 e.2)
  cases call with
  | type p => exact Build.Keeps.bind (hdeclare p) fun pending => hconfigure (p, pending)
  | all =>
    have hsecond (work : List PendingType) : Build.Keeps R (setup.configureTypes work) := by
      unfold Setup.configureTypes
      exact Build.Keeps.forM hconfigure work
    unfold Setup.perform Setup.configureHierarchy
    refine Build.Keeps.bind (AllowsCalls.tells _) fun _ => ?_
    refine Build.Keeps.bind (Build.Keeps.mapM hdeclare _) fun made => ?_
    refine Build.Keeps.bind (hsecond (setup.types.zip made)) fun _ => ?_
    exact Build.Keeps.bind Build.Keeps.get fun _ => AllowsCalls.tells _

/-! ## Members -/

theorem keeps_makeMethodGenerics_of_allows (site : MemberSite) (m : MethodPlan) :
    Build.Keeps R (setup.makeMethodGenerics site m) := by
  unfold Setup.makeMethodGenerics
  split
  · exact Build.Keeps.pure _
  · exact Build.Keeps.bind (keeps_declareGenerics_of_allows _ _ _ _) fun _ =>
      Build.Keeps.bind (keeps_constrainGenerics_of_allows _ _) fun _ => Build.Keeps.pure _

theorem keeps_makeMethod_of_allows (site : MemberSite) (m : MethodPlan) :
    Build.Keeps R (setup.makeMethod site m) :=
  Build.Keeps.bind (keeps_makeMethodGenerics_of_allows site m) fun _ =>
    Build.Keeps.bind (keeps_resolve _ _) fun _ =>
      Build.Keeps.bind (Build.Keeps.mapM (fun _ => keeps_resolve _ _) _) fun _ =>
        Build.Keeps.bind (Build.Keeps.mapM (fun _ => keeps_makeParam site _ _ _) _) fun _ =>
          Build.Keeps.bind Build.Keeps.get fun _ => AllowsCalls.allocMethod _

theorem keeps_stage_of_allows (site : MemberSite) (p : TypePlan) :
    Build.Keeps R (setup.stage site p) :=
  Build.Keeps.bind (keeps_makeFields site p) fun _ =>
    Build.Keeps.bind (Build.Keeps.mapM (keeps_withToken (keeps_makeMethod_of_allows site)) _)
      fun _ => Build.Keeps.bind (keeps_makeProperties site _ p) fun _ =>
        Build.Keeps.bind (keeps_makeEvents site _ p) fun _ => Build.Keeps.pure _

/-- A member is published, or nothing is changed. -/
theorem keeps_publishOne_of_allows (m : MemberSort) (type : TypeHandle)
    (e : Token × Handle m.kind) : Build.Keeps R (m.places.publish type e) := by
  intro s
  rcases Build.yields_or_fails (m.places.publish type e) s with ⟨_, s', hrun⟩ | ⟨error, s', hrun⟩
  · rw [hrun.outcome_snd]
    exact AllowsCalls.publishes m type e s s' (yields_publishOne hrun)
  · rw [hrun.outcome_snd, fails_publishOne hrun]
    exact refl_of R s

theorem keeps_publish_of_allows (type : TypeHandle) (staged : Staged) :
    Build.Keeps R (Build.publish type staged) := by
  rw [publish_eq]
  refine Build.Keeps.bind Build.Keeps.get fun s => ?_
  split
  · exact Build.Keeps.throw _
  · exact Build.Keeps.bind (Build.Keeps.forM (keeps_publishOne_of_allows .field type) _) fun _ =>
      Build.Keeps.bind (Build.Keeps.forM (keeps_publishOne_of_allows .method type) _) fun _ =>
        Build.Keeps.bind (Build.Keeps.forM (keeps_publishOne_of_allows .property type) _) fun _ =>
          Build.Keeps.forM (keeps_publishOne_of_allows .event type) _

theorem keeps_noticePopulated_of_allows (h : TypeHandle) :
    Build.Keeps R (Build.noticePopulated h) := by
  unfold Build.noticePopulated
  refine Build.Keeps.bind Build.Keeps.get fun s => ?_
  split
  · exact Build.Keeps.pure ()
  · exact AllowsCalls.tells _

theorem keeps_populateType_of_allows (p : TypePlan) : Build.Keeps R (setup.populateType p) := by
  unfold Setup.populateType Setup.populate
  split
  · exact AllowsCalls.tells _
  refine keeps_inContext_of_allows (Build.Keeps.bind keeps_managedType fun entry => ?_)
  refine Build.Keeps.bind Build.Keeps.get fun s => ?_
  exact Build.Keeps.bind (keeps_stage_of_allows _ p) fun staged =>
    Build.Keeps.bind (keeps_publish_of_allows _ staged) fun _ => keeps_noticePopulated_of_allows _

theorem keeps_populateOrRecord_of_allows (p : TypePlan) :
    Build.Keeps R (setup.populateOrRecord p) := by
  unfold Setup.populateOrRecord
  split
  · exact Build.Keeps.tryCatch (keeps_populateType_of_allows p) fun e => AllowsCalls.record e
  · exact keeps_populateType_of_allows p

theorem keeps_populateMembers_of_allows : Build.Keeps R setup.populateMembers :=
  Build.Keeps.bind (AllowsCalls.tells _) fun _ =>
    Build.Keeps.bind (Build.Keeps.forM keeps_populateOrRecord_of_allows _) fun _ =>
      Build.Keeps.bind Build.Keeps.get fun _ => AllowsCalls.tells _

/-! ## All calls -/

/-- A call keeps whatever each single change keeps, also if it fails. -/
theorem keeps_call (call : BuildCall) : Build.Keeps R (setup.call call) := by
  cases call with
  | hierarchy call => exact keeps_perform_of_allows call
  | populate p => exact keeps_populateType_of_allows p
  | populateAll => exact keeps_populateMembers_of_allows

/-- So the states before and behind any calls are related. -/
theorem callAll_related (s : BuildState) (calls : List BuildCall) :
    R s (setup.callAll s calls) := by
  induction calls generalizing s with
  | nil => exact refl_of R s
  | cons call calls ih => exact trans_of R (keeps_call call s) (ih _)

/-- The later passes of a build, with the notice between them, are made of the same changes. -/
theorem related_of_passes {s₀ s₁ s₂ : BuildState} {n : Notice}
    (hconfigure : setup.configureHierarchy.Yields s₀ () s₁)
    (hpass : Build.Yields (setup.types.forM setup.populateOrRecord)
      { s₁ with notices := s₁.notices.push n } () s₂) : R s₀ s₂ := by
  have hhierarchy : Build.Keeps R (setup.perform .all) := keeps_perform_of_allows .all
  have hmembers : Build.Keeps R (setup.types.forM setup.populateOrRecord) :=
    Build.Keeps.forM keeps_populateOrRecord_of_allows _
  exact trans_of R (hhierarchy.of_yields hconfigure)
    (trans_of R (AllowsCalls.tells n s₁) (hmembers.of_yields hpass))

end

end ClrImage
