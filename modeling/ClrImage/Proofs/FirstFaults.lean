import ClrImage.Proofs.Attempts
import ClrImage.Proofs.Checks
import ClrImage.Proofs.FullNames

/-!
# The first fault of a step

Constraints, base and interfaces of a type are attached by resolving one reference after the other.
What is attached between two references changes nothing that the later one is checked against. So
the outcome of the whole step can be read off the state in which it starts: it is **the first fault
in its references**, if there is one.

- `SameNames`: states in which every check on a reference finds the same.
- `Scope.faultIn?`: the first fault in some references.
- `Build.Asks`: a step whose outcome is the first fault in some references, with a rule for each way
  of putting such steps together.
- `asks_configure`: configuring an open type asks for the constraints that are pending, the base and
  the interfaces, in this order.
-/

namespace ClrImage

/-! ## States that are checked against alike -/

namespace SameNesting

variable {s s' : BuildState}

theorem symm (h : SameNesting s s') : SameNesting s' s where
  size := h.size.symm
  types g := by
    obtain ⟨hs, hs'⟩ | ⟨t, u, ht, hu, htu⟩ := rel_cases (h.types g)
    · rw [hs, hs']
      exact .none
    · rw [ht, hu]
      exact .some ⟨htu.toAlike.symm, htu.declaring.symm⟩
  linkedTypes := h.linkedTypes.symm
  declared := h.declared.symm

/-- Types in one place have one name. -/
theorem fullNameWithin (h : SameNesting s s') (fuel : Nat) {t u : TypeDef} (htu : t.SamePlace u) :
    s'.store.fullNameWithin fuel u = s.store.fullNameWithin fuel t :=
  Store.fullNameWithin_eq (fun _ _ htu => ⟨htu.toAlike, htu.declaring⟩) h.types fuel htu

theorem typeText_eq (h : SameNesting s s') (g : TypeHandle) :
    s'.store.typeText g = s.store.typeText g := by
  unfold Store.typeText
  obtain ⟨hs, hs'⟩ | ⟨t, u, ht, hu, htu⟩ := rel_cases (h.types g)
  · rw [hs, hs']
    rfl
  · rw [ht, hu, Option.map_some, Option.map_some, Store.fullName, Store.fullName, h.size,
      h.fullNameWithin _ htu]

end SameNesting

/-- The name of the parameter under a key. -/
def BuildState.paramName? (s : BuildState) (key : GenericKey) : Option String :=
  ((s.registry.get? key).bind s.store.generics.get?).map (·.name)

/-- The types are in their places, and under each key there is a parameter of the same name, or
none. The parameters themselves may be others. -/
structure SameNames (s s' : BuildState) : Prop extends SameNesting s s' where
  scope : s'.registry.scope = s.registry.scope
  held : ∀ key, (s'.registry.get? key).isNone = (s.registry.get? key).isNone
  names : ∀ key, s'.paramName? key = s.paramName? key

namespace SameNames

variable {s s₁ s' : BuildState}

theorem refl (s : BuildState) : SameNames s s := ⟨.refl s, rfl, fun _ => rfl, fun _ => rfl⟩

theorem trans (h₁ : SameNames s s₁) (h₂ : SameNames s₁ s') : SameNames s s' :=
  ⟨h₁.toSameNesting.trans h₂.toSameNesting, h₂.scope.trans h₁.scope,
    fun key => (h₂.held key).trans (h₁.held key), fun key => (h₂.names key).trans (h₁.names key)⟩

/-- Nothing is registered, and parameters keep their names. -/
theorem of_sameNesting (h : SameNesting s s') (registry : s'.registry = s.registry)
    (names : ∀ g, (s'.store.generics.get? g).map (·.name) =
      (s.store.generics.get? g).map (·.name)) : SameNames s s' where
  toSameNesting := h
  scope := by rw [registry]
  held _ := by rw [registry]
  names key := by
    unfold BuildState.paramName?
    rw [registry]
    cases s.registry.get? key with
    | none => rfl
    | some g => exact names g

theorem keeps_modifyGeneric (h : GenericHandle) {f : GenericParam → GenericParam}
    (hf : ∀ x, (f x).name = x.name) : Build.Keeps SameNames (Build.modifyGeneric h f) := by
  refine Build.Keeps.modify fun s => .of_sameNesting (.of_eq rfl rfl rfl) rfl fun g => ?_
  show ((s.store.generics.modify h f).get? g).map _ = _
  rw [Arena.get?_modify]
  split
  · cases s.store.generics.get? g with
    | none => rfl
    | some x => exact congrArg some (hf x)
  · rfl

theorem keeps_modifyType (h : TypeHandle) {f : TypeDef → TypeDef}
    (hf : ∀ t, TypeDef.SamePlace t (f t)) : Build.Keeps SameNames (Build.modifyType h f) :=
  fun s => .of_sameNesting (SameNesting.keeps_modifyType h hf s) rfl fun _ => rfl

end SameNames

/-! ## Faults in references -/

namespace Scope

variable {s : Scope}

/-- The first fault in some references, which are checked one after the other. -/
def faultIn? (s : Scope) (rs : List TypeRef) : Option Failure :=
  (s.first? (rs.flatMap fun r => r.checks 0)).map Prod.snd

@[simp] theorem faultIn?_nil : s.faultIn? [] = none := rfl

theorem faultIn?_append (rs rs' : List TypeRef) :
    s.faultIn? (rs ++ rs') = (s.faultIn? rs).or (s.faultIn? rs') := by
  unfold faultIn?
  rw [List.flatMap_append, first?_append]
  cases s.first? (rs.flatMap fun r => r.checks 0) <;> rfl

theorem faultIn?_cons (r : TypeRef) (rs : List TypeRef) :
    s.faultIn? (r :: rs) = (s.faultIn? [r]).or (s.faultIn? rs) :=
  faultIn?_append [r] rs

/-- A reference without a signature fails with its fault. -/
theorem resolve_cases (s : Scope) (r : TypeRef) :
    (∃ sig, s.resolve r = .ok sig ∧ s.faultIn? [r] = none) ∨
      ∃ e, s.resolve r = .error e ∧ s.faultIn? [r] = some e := by
  have hsettles : Settles (s.resolve r) (s.first? (r.checks 0)) :=
    settles_resolveAt r (Nat.zero_le maxDepth)
  unfold faultIn?
  rw [List.flatMap_singleton]
  generalize s.resolve r = outcome at hsettles ⊢
  generalize s.first? (r.checks 0) = first at hsettles ⊢
  cases hsettles with
  | ok sig => exact .inl ⟨sig, rfl, rfl⟩
  | error h => exact .inr ⟨_, rfl, rfl⟩

/-- There is no fault in references that have signatures, and in others there is one. -/
theorem faultIn?_eq_none {rs : List TypeRef} :
    s.faultIn? rs = none ↔ ∀ r ∈ rs, s.CanResolve r := by
  induction rs with
  | nil => simp
  | cons r rs ih =>
    have hfirst : s.faultIn? [r] = none ↔ s.CanResolve r := by
      obtain ⟨sig, hsig, hnone⟩ | ⟨e, he, hsome⟩ := s.resolve_cases r
      · exact iff_of_true hnone ⟨sig, hsig⟩
      · refine iff_of_false (by simp [hsome]) ?_
        rintro ⟨sig, hsig⟩
        cases he.symm.trans hsig
    rw [faultIn?_cons, Option.or_eq_none_iff, List.forall_mem_cons, hfirst, ih]

end Scope

namespace SameNames

variable {s s' : BuildState}

/-- Every check finds the same. -/
theorem fault?_eq (h : SameNames s s') (topLevel : Token) :
    (s'.scope topLevel).fault? = (s.scope topLevel).fault? := by
  have hkey (index : UInt32) : s'.registry.key index topLevel = s.registry.key index topLevel :=
    GenericRegistry.key_congr h.scope index topLevel
  have hname : (s'.scope topLevel).atomName = (s.scope topLevel).atomName := by
    have hparam (index : UInt32) :
        (((s'.registry.get? (s'.registry.key index topLevel)).bind s'.store.generics.get?).map
          (·.name)).getD Store.droppedText =
        (((s.registry.get? (s.registry.key index topLevel)).bind s.store.generics.get?).map
          (·.name)).getD Store.droppedText := by
      rw [hkey]
      exact congrArg (·.getD Store.droppedText) (h.names _)
    funext a
    cases a with
    | primitive p => rfl
    | typeDef token =>
      show ((s'.links.types.get? token).map s'.store.typeText).getD Store.droppedText =
        ((s.links.types.get? token).map s.store.typeText).getD Store.droppedText
      rw [h.linkedTypes, funext h.typeText_eq]
    | var index => exact hparam index
    | mvar index => exact hparam index
  have hown (r : TypeRef) : (s'.scope topLevel).ownFault? r = (s.scope topLevel).ownFault? r := by
    have hparam (index : UInt32) :
        (if (s'.registry.get? (s'.registry.key index topLevel)).isNone then
          some (Unresolved.undeclaredParameter index) else none) =
        if (s.registry.get? (s.registry.key index topLevel)).isNone then
          some (Unresolved.undeclaredParameter index) else none := by
      rw [hkey, h.held]
    have htype (token : Token) : ((s'.links.types.get? token).bind s'.store.types.get?).isNone =
        ((s.links.types.get? token).bind s.store.types.get?).isNone := by
      rw [h.linkedTypes]
      cases s.links.types.get? token with
      | none => rfl
      | some g =>
        rw [Option.bind_some, Option.bind_some]
        obtain ⟨hs, hs'⟩ | ⟨t, u, hs, hs', -⟩ := rel_cases (h.types g)
        · rw [hs, hs']
        · rw [hs, hs']
          rfl
    cases r with
    | atom a =>
      cases a with
      | primitive p => rfl
      | typeDef token =>
        show (if token.isIn Table.typeDef = false then some Unresolved.notTypeDef
          else if ((s'.links.types.get? token).bind s'.store.types.get?).isNone then
            some Unresolved.notLinked else none) = _
        rw [htype]
        rfl
      | var index => exact hparam index
      | mvar index => exact hparam index
    | _ => rfl
  funext ⟨stage, node, depth⟩
  unfold Scope.fault?
  cases stage with
  | depth => rfl
  | own => rw [hown]
  | definition =>
    have hdefinition : (s'.scope topLevel).definitionFault? node =
        (s.scope topLevel).definitionFault? node := by
      cases node <;> simp only [Scope.definitionFault?, hname]
    rw [hdefinition]

theorem faultIn?_eq (h : SameNames s s') (topLevel : Token) (rs : List TypeRef) :
    (s'.scope topLevel).faultIn? rs = (s.scope topLevel).faultIn? rs := by
  unfold Scope.faultIn? Scope.first?
  rw [h.fault?_eq]

end SameNames

/-! ## Steps that ask for references -/

/-- The outcome of a step that fails with a fault if there is one. -/
def verdict : Option Failure → Except Failure Unit
  | none => .ok ()
  | some e => .error e

namespace Build

/-- Such a step yields if there is no fault, and fails with it otherwise. -/
theorem verdict_cases {step : Build Unit} {s : BuildState} {fault : Option Failure}
    (h : (step.outcome s).1 = verdict fault) :
    (fault = none ∧ ∃ s', step.Yields s () s') ∨ ∃ e, fault = some e ∧ ∃ s', step.Fails s e s' := by
  rcases yields_or_fails step s with ⟨_, s', hrun⟩ | ⟨e, s', hrun⟩ <;>
    rw [show step.outcome s = _ from hrun] at h
  · cases fault with
    | none => exact .inl ⟨rfl, s', hrun⟩
    | some e => cases h
  · cases fault with
    | none => cases h
    | some e' =>
      obtain rfl := Except.error.inj h
      exact .inr ⟨e, rfl, s', hrun⟩

/-- In the state `s` the step resolves some references in order, and its outcome is the first fault
in them. -/
structure Asks (topLevel : Token) (rs : List TypeRef) (step : Build Unit) (s : BuildState) :
    Prop where
  outcome_eq : (step.outcome s).1 = verdict ((s.scope topLevel).faultIn? rs)
  names : SameNames s (step.outcome s).2

namespace Asks

variable {topLevel : Token} {rs rs' : List TypeRef} {step : Build Unit} {s s' : BuildState}

/-- A step that yields asks for references without a fault. -/
theorem of_yields (hrun : step.Yields s () s') (hnames : SameNames s s') :
    Asks topLevel [] step s :=
  ⟨by rw [show step.outcome s = _ from hrun]; rfl, by rw [hrun.outcome_snd]; exact hnames⟩

theorem pure : Asks topLevel [] (pure ()) s := of_yields rfl (.refl s)

/-- The second step goes on where the first one has found no fault. -/
theorem bind {next : Unit → Build Unit} (h : Asks topLevel rs step s)
    (hnext : ∀ s₁, step.Yields s () s₁ → Asks topLevel rs' (next ()) s₁) :
    Asks topLevel (rs ++ rs') (step >>= next) s := by
  obtain ⟨houtcome, hnames⟩ := h
  obtain ⟨hfault, s₁, hrun⟩ | ⟨e, hfault, s₁, hrun⟩ := verdict_cases houtcome <;>
    rw [hrun.outcome_snd] at hnames
  · obtain ⟨houtcome', hnames'⟩ := hnext s₁ hrun
    constructor <;> rw [outcome_bind_of_yields hrun]
    · rw [Scope.faultIn?_append, hfault, Option.none_or, ← hnames.faultIn?_eq]
      exact houtcome'
    · exact hnames.trans hnames'
  · constructor <;> rw [outcome_bind_of_fails hrun]
    · rw [Scope.faultIn?_append, hfault]
      rfl
    · exact hnames

/-- Nothing is asked for behind the step. -/
theorem bind_nil {next : Unit → Build Unit} (h : Asks topLevel rs step s)
    (hnext : ∀ s₁, Asks topLevel [] (next ()) s₁) : Asks topLevel rs (step >>= next) s := by
  have hboth := h.bind fun s₁ _ => hnext s₁
  rwa [List.append_nil] at hboth

/-- What is looked up before is not asked for. -/
theorem bind_of_yields {α : Type} {first : Build α} {next : α → Build Unit} {a : α}
    (hrun : first.Yields s a s) (h : Asks topLevel rs (next a) s) :
    Asks topLevel rs (first >>= next) s := by
  constructor <;> rw [outcome_bind_of_yields hrun]
  · exact h.outcome_eq
  · exact h.names

theorem forM {α : Type} {refs : α → List TypeRef} {f : α → Build Unit}
    (h : ∀ a s, Asks topLevel (refs a) (f a) s) (l : List α) :
    Asks topLevel (l.flatMap refs) (List.forM l f) s := by
  induction l generalizing s with
  | nil => exact .pure
  | cons a l ih =>
    rw [List.flatMap_cons, forM_cons_eq]
    exact .bind (h a s) fun _ _ => ih

theorem forEach {f : TypeRef → Build Unit} (h : ∀ r s, Asks topLevel [r] (f r) s)
    (rs : List TypeRef) : Asks topLevel rs (List.forM rs f) s := by
  have hall : Asks topLevel _ (List.forM rs f) s := forM h rs
  rwa [List.flatMap_singleton'] at hall

/-- A reference is resolved, and then something is done with its signature. -/
theorem resolve {setup : Setup} (hresolver : setup.resolver = Resolver.default) {r : TypeRef}
    {next : Signature → Build Unit}
    (hnext : ∀ sig, ∃ s', (next sig).Yields s () s' ∧ SameNames s s') :
    Asks topLevel [r] (setup.resolve topLevel r >>= next) s := by
  obtain ⟨sig, hsig, hnone⟩ | ⟨e, he, hsome⟩ := (s.scope topLevel).resolve_cases r
  · have hrun := (yields_resolve hresolver).mpr ⟨hsig, Eq.refl s⟩
    obtain ⟨s', hyields, hnames⟩ := hnext sig
    constructor <;> rw [outcome_bind_of_yields hrun, show (next sig).outcome s = _ from hyields]
    · rw [hnone]
      rfl
    · exact hnames
  · have hrun := (fails_resolve hresolver).mpr ⟨he, Eq.refl s⟩
    constructor <;> rw [outcome_bind_of_fails hrun]
    · rw [hsome]
      rfl
    · exact .refl s

end Asks

end Build

/-! ## Configuring a type -/

section Configure

variable {setup : Setup} (hresolver : setup.resolver = Resolver.default) {topLevel : Token}
  {h : TypeHandle} {t : TypeDef} {s : BuildState}
include hresolver

/-- The constraints of one parameter. -/
theorem asks_constrainGeneric (item : PendingGeneric) (s : BuildState) :
    Build.Asks topLevel item.constraints.toList (setup.constrainGeneric topLevel item) s := by
  have hattach (c : TypeRef) (s : BuildState) : Build.Asks topLevel [c] (do
      let sig ← setup.resolve topLevel c
      Build.modifyGeneric item.param fun x => { x with constraints := x.constraints.push sig }) s :=
    .resolve hresolver fun sig => ⟨_, rfl, SameNames.keeps_modifyGeneric item.param
      (f := fun x => { x with constraints := x.constraints.push sig }) (fun _ => rfl) s⟩
  have hmark (s : BuildState) : Build.Asks topLevel []
      (Build.modifyGeneric item.param fun x => { x with isConstrained := true }) s :=
    .of_yields rfl (SameNames.keeps_modifyGeneric item.param
      (f := fun x => { x with isConstrained := true }) (fun _ => rfl) s)
  exact .bind_nil (.forEach hattach item.constraints.toList) hmark

/-- The base of a type without one. -/
theorem asks_configureBase {base : Option TypeRef} (ht : s.store.types.get? h = some t)
    (hfree : t.base = none) :
    Build.Asks topLevel base.toList (base.forM (setup.configureBase topLevel h)) s := by
  cases base with
  | none => exact .pure
  | some r =>
    refine .resolve hresolver fun sig => ⟨_, ?_, SameNames.keeps_modifyType h
      (f := fun t => { t with base := some sig })
      (fun _ => ⟨⟨rfl, rfl, rfl, rfl, rfl, rfl⟩, rfl⟩) s⟩
    have hset : s.store.setBase h sig = .ok { s.store with
        types := s.store.types.modify h fun t => { t with base := some sig } } := by
      simp [Store.setBase, ht, hfree]
    simp only [Build.yields_get_bind, Build.yields_liftExcept_bind, Build.yields_modify]
    exact ⟨_, hset, rfl⟩

theorem asks_configureInterface (r : TypeRef) (s : BuildState) :
    Build.Asks topLevel [r] (setup.configureInterface topLevel h r) s :=
  .resolve hresolver fun sig => ⟨_, rfl, SameNames.keeps_modifyType h
    (f := fun t => { t with interfaces := t.interfaces.push sig })
    (fun _ => ⟨⟨rfl, rfl, rfl, rfl, rfl, rfl⟩, rfl⟩) s⟩

/-- An open type asks for the constraints that are pending, its base and its interfaces. -/
theorem asks_configure {p : TypePlan} {pending : Array PendingGeneric}
    (hlink : s.links.types.get? p.token = some h) (ht : s.store.types.get? h = some t)
    (hopen : t.isConfigured = false) (hfree : t.base = none)
    (hnodup : (pending.toList.map PendingGeneric.param).Nodup) :
    Build.Asks (setup.blueprint.topLevel p)
      (pending.toList.flatMap (·.constraints.toList) ++ (p.base.toList ++ p.interfaces.toList))
      (setup.configure p pending) s := by
  unfold Setup.configure
  have hmanaged : (Build.managedType p).Yields s (h, t) s :=
    Build.yields_managedType.mpr ⟨hlink, ht, rfl⟩
  refine .bind_of_yields hmanaged ?_
  simp only [hopen, Bool.false_eq_true, if_false]
  generalize setup.blueprint.topLevel p = topLevel
  refine .bind (.forM (asks_constrainGeneric hresolver) pending.toList) fun s₁ hconstrain => ?_
  have hconstrains := constrainGenerics_constrains hresolver topLevel pending s hnodup
  rw [show (setup.constrainGenerics topLevel pending).outcome s = _ from hconstrain]
    at hconstrains
  refine .bind (asks_configureBase hresolver (hconstrains.types ▸ ht) hfree) fun s₂ _ => ?_
  have htell (s : BuildState) : Build.Asks topLevel [] (Setup.noticeConfigured h) s := by
    obtain ⟨s', hrun⟩ := noticeConfigured_yields h s
    obtain ⟨notices, rfl⟩ := yields_noticeConfigured hrun
    exact .of_yields hrun (.of_sameNesting (.of_eq rfl rfl rfl) rfl fun _ => rfl)
  have hmark (s : BuildState) : Build.Asks topLevel []
      (Build.modifyType h fun t => { t with isConfigured := true }) s :=
    .of_yields rfl (SameNames.keeps_modifyType h (f := fun t => { t with isConfigured := true })
      (fun _ => ⟨⟨rfl, rfl, rfl, rfl, rfl, rfl⟩, rfl⟩) s)
  exact .bind_nil (.forEach (asks_configureInterface hresolver) p.interfaces.toList)
    fun s₃ => .bind_nil (hmark s₃) htell

end Configure

end ClrImage
