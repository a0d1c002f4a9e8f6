import ClrImage.Proofs.Registration

/-!
# Attaching constraints

The constraints of new parameters are resolved one after the other, and the first reference without
a signature ends the step. This module says which parameters are complete by then.

- `Scope.Agrees`: scopes in which the same references have the same signatures.
- `GenericParam.ConstrainedBy`: a parameter that carries all constraints of a plan, resolved.
- `Constrains`: the effect of `Setup.constrainGenerics` **whatever its outcome**. A pending
  parameter is complete exactly if its own constraints and those of all before it resolve.
- `constrainGenerics_constrains`: the step has that effect.
-/

namespace ClrImage

/-! ## Scopes that agree -/

/-- The two scopes give the same references the same signatures. -/
def Scope.Agrees (s s' : Scope) : Prop := s.Extends s' ∧ s'.Extends s

namespace Scope.Agrees

variable {s s' s'' : Scope}

theorem of_eq (types : s'.store.types = s.store.types) (links : s'.links.types = s.links.types)
    (registry : s'.registry = s.registry) (topLevel : s'.topLevel = s.topLevel) : s.Agrees s' := by
  constructor
  · exact ⟨types ▸ .refl TypeDef.Alike.refl _, links ▸ .refl _, registry ▸ .refl _,
      registry ▸ rfl, topLevel⟩
  · exact ⟨types ▸ .refl TypeDef.Alike.refl _, links ▸ .refl _, registry ▸ .refl _,
      registry ▸ rfl, topLevel.symm⟩

theorem trans (h₁ : s.Agrees s') (h₂ : s'.Agrees s'') : s.Agrees s'' :=
  ⟨h₁.1.trans h₂.1, h₂.2.trans h₁.2⟩

theorem resolve_iff (h : s.Agrees s') {r : TypeRef} {sig : Signature} :
    s.resolve r = .ok sig ↔ s'.resolve r = .ok sig :=
  ⟨resolve_extends h.1, resolve_extends h.2⟩

end Scope.Agrees

/-- The reference has a signature. -/
def Scope.CanResolve (s : Scope) (r : TypeRef) : Prop := ∃ sig, s.resolve r = .ok sig

theorem Scope.Agrees.canResolve_iff {s s' : Scope} (h : s.Agrees s') {r : TypeRef} :
    s.CanResolve r ↔ s'.CanResolve r :=
  exists_congr fun _ => h.resolve_iff

theorem Scope.Resolves.canResolve {s : Scope} {rs : List TypeRef} {sigs : List Signature}
    (h : s.Resolves rs sigs) : ∀ r ∈ rs, s.CanResolve r := by
  induction h with
  | nil => simp
  | cons hsig _ ih => exact List.forall_mem_cons.mpr ⟨⟨_, hsig⟩, ih⟩

/-- Attaching constraints leaves all scopes as they are. -/
theorem OnlyGenerics.agrees {s s' : BuildState} (h : OnlyGenerics s s')
    (registry : s'.registry = s.registry) (topLevel : Token) :
    (s.scope topLevel).Agrees (s'.scope topLevel) :=
  .of_eq h.types (congrArg LinkTable.types h.links) registry rfl

/-! ## One parameter -/

/-- One parameter is changed by `f`, and nothing else is. -/
structure Attaches (h : GenericHandle) (f : GenericParam → GenericParam) (s s' : BuildState) :
    Prop extends OnlyGenerics s s' where
  registry : s'.registry = s.registry
  generics : ∀ g, s'.store.generics.get? g =
    if g = h then (s.store.generics.get? g).map f else s.store.generics.get? g

namespace Attaches

variable {h : GenericHandle} {f f' : GenericParam → GenericParam} {s s₁ s' : BuildState}

theorem modifyGeneric (h : GenericHandle) (f : GenericParam → GenericParam) (s : BuildState) :
    Attaches h f s
      { s with store := { s.store with generics := s.store.generics.modify h f } } :=
  ⟨⟨rfl, rfl, rfl, rfl⟩, rfl, fun g => Arena.get?_modify _ h f g⟩

theorem trans (h₁ : Attaches h f s s₁) (h₂ : Attaches h f' s₁ s') : Attaches h (f' ∘ f) s s' := by
  refine ⟨h₁.toOnlyGenerics.trans h₂.toOnlyGenerics, h₂.registry.trans h₁.registry, fun g => ?_⟩
  rw [h₂.generics g, h₁.generics g]
  split
  · rw [Option.map_map]
  · rfl

theorem of_ne (hf : Attaches h f s s') {g : GenericHandle} (hg : g ≠ h) :
    s'.store.generics.get? g = s.store.generics.get? g := by
  rw [hf.generics g, if_neg hg]

theorem of_some (hf : Attaches h f s s') {x : GenericParam}
    (hx : s.store.generics.get? h = some x) : s'.store.generics.get? h = some (f x) := by
  rw [hf.generics h, if_pos rfl, hx]
  rfl

theorem ownersOf (hf : Attaches h f s s') (howners : ∀ x, (f x).owners = x.owners)
    (g : GenericHandle) : s'.ownersOf g = s.ownersOf g := by
  unfold BuildState.ownersOf
  rw [hf.generics g]
  split
  · cases s.store.generics.get? g with
    | none => rfl
    | some x => simp [howners]
  · rfl

end Attaches

/-- Puts further constraints behind those of a parameter. -/
def GenericParam.addConstraints (sigs : List Signature) (x : GenericParam) : GenericParam :=
  { x with constraints := x.constraints ++ sigs.toArray }

namespace Attaches

variable {h : GenericHandle} {s s₁ s' : BuildState}

theorem addConstraints_nil (h : GenericHandle) (s : BuildState) :
    Attaches h (GenericParam.addConstraints []) s s := by
  have hid : GenericParam.addConstraints [] = id := by
    funext x
    simp [GenericParam.addConstraints]
  refine ⟨.refl s, rfl, fun g => ?_⟩
  rw [hid, Option.map_id_apply, ite_self]

theorem addConstraints_cons {sig : Signature} {sigs : List Signature}
    (h₁ : Attaches h (GenericParam.addConstraints [sig]) s s₁)
    (h₂ : Attaches h (GenericParam.addConstraints sigs) s₁ s') :
    Attaches h (GenericParam.addConstraints (sig :: sigs)) s s' := by
  have hcomp : GenericParam.addConstraints (sig :: sigs) =
      GenericParam.addConstraints sigs ∘ GenericParam.addConstraints [sig] := by
    funext x
    simp [GenericParam.addConstraints]
  exact hcomp ▸ h₁.trans h₂

end Attaches

section Steps

variable {setup : Setup} (hresolver : setup.resolver = Resolver.default)
include hresolver

theorem yields_resolve {topLevel : Token} {r : TypeRef} {sig : Signature} {s s' : BuildState} :
    (setup.resolve topLevel r).Yields s sig s' ↔
      (s.scope topLevel).resolve r = .ok sig ∧ s = s' := by
  unfold Setup.resolve
  rw [Build.yields_bind, hresolver]
  constructor
  · rintro ⟨_, _, hget, hlift⟩
    obtain ⟨rfl, rfl⟩ := Build.yields_get.mp hget
    exact Build.yields_liftExcept.mp hlift
  · rintro ⟨hsig, rfl⟩
    exact ⟨s, s, rfl, Build.yields_liftExcept.mpr ⟨hsig, rfl⟩⟩

theorem fails_resolve {topLevel : Token} {r : TypeRef} {e : Failure} {s s' : BuildState} :
    (setup.resolve topLevel r).Fails s e s' ↔
      (s.scope topLevel).resolve r = .error e ∧ s = s' := by
  unfold Setup.resolve
  rw [Build.fails_bind, hresolver]
  constructor
  · rintro (hget | ⟨_, _, hget, hlift⟩)
    · simp at hget
    · obtain ⟨rfl, rfl⟩ := Build.yields_get.mp hget
      exact Build.fails_liftExcept.mp hlift
  · rintro ⟨hsig, rfl⟩
    exact .inr ⟨s, s, rfl, Build.fails_liftExcept.mpr ⟨hsig, rfl⟩⟩

/-- One constraint is resolved and put behind the others. -/
theorem yields_attach {topLevel : Token} {h : GenericHandle} {c : TypeRef} {s s' : BuildState}
    (hrun : Build.Yields (do
      let sig ← setup.resolve topLevel c
      Build.modifyGeneric h fun x => { x with constraints := x.constraints.push sig }) s () s') :
    ∃ sig, (s.scope topLevel).resolve c = .ok sig ∧
      Attaches h (GenericParam.addConstraints [sig]) s s' := by
  obtain ⟨sig, s₁, hresolve, hpush⟩ := Build.yields_bind.mp hrun
  obtain ⟨hsig, rfl⟩ := (yields_resolve hresolver).mp hresolve
  obtain rfl := Build.yields_modify.mp hpush
  exact ⟨sig, hsig, .modifyGeneric h _ s⟩

/-- The constraints of one parameter, when all of them resolve. -/
theorem yields_attachAll {topLevel : Token} {h : GenericHandle} {cs : List TypeRef}
    {s s' : BuildState}
    (hrun : Build.Yields (List.forM cs fun c => do
      let sig ← setup.resolve topLevel c
      Build.modifyGeneric h fun x => { x with constraints := x.constraints.push sig }) s () s') :
    ∃ sigs, (s.scope topLevel).Resolves cs sigs ∧
      Attaches h (GenericParam.addConstraints sigs) s s' := by
  induction cs generalizing s with
  | nil =>
    obtain rfl := Build.yields_forM_nil.mp hrun
    exact ⟨[], .nil, .addConstraints_nil h s⟩
  | cons c cs ih =>
    obtain ⟨s₁, hfirst, hrest⟩ := Build.yields_forM_cons.mp hrun
    obtain ⟨sig, hsig, h₁⟩ := yields_attach hresolver hfirst
    obtain ⟨sigs, hsigs, h₂⟩ := ih hrest
    have hagrees := h₁.toOnlyGenerics.agrees h₁.registry topLevel
    exact ⟨sig :: sigs, .cons hsig (hsigs.mono hagrees.2), h₁.addConstraints_cons h₂⟩

/-- The constraints of one parameter, when one of them does not resolve. -/
theorem fails_attachAll {topLevel : Token} {h : GenericHandle} {cs : List TypeRef} {e : Failure}
    {s s' : BuildState}
    (hrun : Build.Fails (List.forM cs fun c => do
      let sig ← setup.resolve topLevel c
      Build.modifyGeneric h fun x => { x with constraints := x.constraints.push sig }) s e s') :
    ∃ sigs, Attaches h (GenericParam.addConstraints sigs) s s' ∧
      ∃ c ∈ cs, ¬ (s.scope topLevel).CanResolve c := by
  induction cs generalizing s with
  | nil => cases hrun
  | cons c cs ih =>
    rcases Build.fails_forM_cons.mp hrun with hfirst | ⟨s₁, hfirst, hrest⟩
    · rcases Build.fails_bind.mp hfirst with hresolve | ⟨sig, s₁, -, hpush⟩
      · obtain ⟨herror, rfl⟩ := (fails_resolve hresolver).mp hresolve
        refine ⟨[], .addConstraints_nil h s, c, List.mem_cons_self, ?_⟩
        rintro ⟨sig, hsig⟩
        rw [herror] at hsig
        cases hsig
      · cases Build.fails_modify.mp hpush
    · obtain ⟨sig, -, h₁⟩ := yields_attach hresolver hfirst
      obtain ⟨sigs, h₂, c', hmem, hfail⟩ := ih hrest
      have hagrees := h₁.toOnlyGenerics.agrees h₁.registry topLevel
      exact ⟨sig :: sigs, h₁.addConstraints_cons h₂, c', List.mem_cons_of_mem c hmem,
        fun hc' => hfail (hagrees.canResolve_iff.mp hc')⟩

/-- All constraints of a parameter are attached, and it is marked. -/
theorem yields_constrainGeneric {topLevel : Token} {item : PendingGeneric} {s s' : BuildState}
    (hrun : (setup.constrainGeneric topLevel item).Yields s () s') :
    ∃ sigs, (s.scope topLevel).Resolves item.constraints.toList sigs ∧
      Attaches item.param (fun x => { x.addConstraints sigs with isConstrained := true }) s s' := by
  unfold Setup.constrainGeneric at hrun
  obtain ⟨_, s₁, hattach, hmark⟩ := Build.yields_bind.mp hrun
  obtain ⟨sigs, hsigs, h₁⟩ := yields_attachAll hresolver hattach
  obtain rfl := Build.yields_modify.mp hmark
  exact ⟨sigs, hsigs,
    h₁.trans (.modifyGeneric item.param (fun x => { x with isConstrained := true }) s₁)⟩

/-- A parameter one of whose constraints does not resolve stays unmarked. -/
theorem fails_constrainGeneric {topLevel : Token} {item : PendingGeneric} {e : Failure}
    {s s' : BuildState} (hrun : (setup.constrainGeneric topLevel item).Fails s e s') :
    ∃ sigs, Attaches item.param (GenericParam.addConstraints sigs) s s' ∧
      ∃ c ∈ item.constraints, ¬ (s.scope topLevel).CanResolve c := by
  unfold Setup.constrainGeneric at hrun
  rcases Build.fails_bind.mp hrun with hattach | ⟨_, s₁, -, hmark⟩
  · obtain ⟨sigs, h₁, c, hc, hfail⟩ := fails_attachAll hresolver hattach
    exact ⟨sigs, h₁, c, Array.mem_toList_iff.mp hc, hfail⟩
  · cases Build.fails_modify.mp hmark

end Steps

/-! ## All parameters of a container -/

/-- A parameter carries all of the given constraints, resolved in a scope, and is marked so. -/
structure GenericParam.ConstrainedBy (x : GenericParam) (scope : Scope)
    (constraints : Array TypeRef) : Prop where
  constraints : scope.Resolves constraints.toList x.constraints.toList
  isConstrained : x.isConstrained = true

theorem GenericParam.ConstrainedBy.mono {x : GenericParam} {scope scope' : Scope}
    {constraints : Array TypeRef} (h : x.ConstrainedBy scope constraints)
    (hscope : scope.Extends scope') : x.ConstrainedBy scope' constraints :=
  ⟨h.constraints.mono hscope, h.isConstrained⟩

theorem GenericParam.ConstrainedBy.of_sameTerms {x y : GenericParam} {scope : Scope}
    {constraints : Array TypeRef} (h : x.ConstrainedBy scope constraints) (hxy : x.SameTerms y) :
    y.ConstrainedBy scope constraints :=
  ⟨hxy.constraints ▸ h.constraints, hxy.isConstrained.trans h.isConstrained⟩

/-- Every constraint of the pending parameters has a signature. -/
def Scope.CanConstrain (s : Scope) (pending : List PendingGeneric) : Prop :=
  ∀ item ∈ pending, ∀ c ∈ item.constraints, s.CanResolve c

/-- What attaching the constraints of pending parameters does, also if it fails half-way. -/
structure Constrains (scope : Scope) (pending : List PendingGeneric) (s s' : BuildState) :
    Prop extends OnlyGenerics s s' where
  registry : s'.registry = s.registry
  owners : ∀ h, s'.ownersOf h = s.ownersOf h
  others : ∀ h, h ∉ pending.map PendingGeneric.param →
    s'.store.generics.get? h = s.store.generics.get? h
  /-- The constraints of a parameter are complete exactly if they and those before them resolve. -/
  attached : ∀ before item after x, pending = before ++ item :: after →
    s.store.generics.get? item.param = some x → x.Unconstrained →
    ∃ y, s'.store.generics.get? item.param = some y ∧ x.Alike y ∧
      ((scope.CanConstrain (before ++ [item]) ∧ y.ConstrainedBy scope item.constraints) ∨
        (¬ scope.CanConstrain (before ++ [item]) ∧ y.isConstrained = false))

theorem Scope.canConstrain_cons {s : Scope} {item : PendingGeneric}
    {pending : List PendingGeneric} :
    s.CanConstrain (item :: pending) ↔
      (∀ c ∈ item.constraints, s.CanResolve c) ∧ s.CanConstrain pending :=
  List.forall_mem_cons

/-- A parameter asks nothing of those that come behind it. -/
theorem Scope.CanConstrain.upTo {s : Scope} {before after : List PendingGeneric}
    {item : PendingGeneric} (h : s.CanConstrain (before ++ item :: after)) :
    s.CanConstrain (before ++ [item]) := by
  intro i hi
  refine h i ?_
  simp only [List.mem_append, List.mem_cons, List.not_mem_nil, or_false] at hi ⊢
  exact hi.imp_right .inl

theorem param_ne {item i : PendingGeneric} {before after : List PendingGeneric}
    (h : ((item :: (before ++ i :: after)).map PendingGeneric.param).Nodup) :
    i.param ≠ item.param := by
  rw [List.map_cons, List.nodup_cons] at h
  intro heq
  exact h.1 (heq ▸ List.mem_map_of_mem (by simp))

namespace Constrains

variable {scope : Scope} {s s₁ s' : BuildState} {item : PendingGeneric}
  {rest : List PendingGeneric}

theorem nil (scope : Scope) (s : BuildState) : Constrains scope [] s s where
  toOnlyGenerics := .refl s
  registry := rfl
  owners _ := rfl
  others _ _ := rfl
  attached before item after x hsplit := by simp at hsplit

/-- The first parameter is complete, and the others come next. -/
theorem cons {sigs : List Signature} (hsigs : scope.Resolves item.constraints.toList sigs)
    (h₁ : Attaches item.param (fun x => { x.addConstraints sigs with isConstrained := true }) s s₁)
    (h₂ : Constrains scope rest s₁ s') (hnodup : ((item :: rest).map PendingGeneric.param).Nodup) :
    Constrains scope (item :: rest) s s' where
  toOnlyGenerics := h₁.toOnlyGenerics.trans h₂.toOnlyGenerics
  registry := h₂.registry.trans h₁.registry
  owners h := (h₂.owners h).trans (h₁.ownersOf (fun _ => rfl) h)
  others h hh := by
    rw [List.map_cons, List.mem_cons, not_or] at hh
    rw [h₂.others h hh.2, h₁.of_ne hh.1]
  attached before i after x hsplit hx hun := by
    have hcan : ∀ c ∈ item.constraints, scope.CanResolve c := fun c hc =>
      hsigs.canResolve c (Array.mem_toList_iff.mpr hc)
    cases before with
    | nil =>
      obtain ⟨rfl, rfl⟩ := List.cons.inj hsplit
      rw [List.map_cons, List.nodup_cons] at hnodup
      refine ⟨_, (h₂.others _ hnodup.1).trans (h₁.of_some hx), ⟨rfl, rfl, rfl, rfl, rfl⟩, .inl ?_⟩
      refine ⟨Scope.canConstrain_cons.mpr ⟨hcan, by simp [Scope.CanConstrain]⟩, ?_, rfl⟩
      simpa [GenericParam.addConstraints, hun.constraints] using hsigs
    | cons first before =>
      obtain ⟨rfl, rfl⟩ := List.cons.inj hsplit
      rw [← h₁.of_ne (param_ne hnodup)] at hx
      obtain ⟨y, hy, halike, hstate⟩ := h₂.attached before i after x rfl hx hun
      refine ⟨y, hy, halike, ?_⟩
      rw [List.cons_append, Scope.canConstrain_cons, and_iff_right hcan]
      exact hstate

/-- The first parameter stays incomplete, and none of the others is touched. -/
theorem cons_of_fails {sigs : List Signature} {c : TypeRef} (hc : c ∈ item.constraints)
    (hfail : ¬ scope.CanResolve c)
    (h₁ : Attaches item.param (GenericParam.addConstraints sigs) s s')
    (hnodup : ((item :: rest).map PendingGeneric.param).Nodup) :
    Constrains scope (item :: rest) s s' where
  toOnlyGenerics := h₁.toOnlyGenerics
  registry := h₁.registry
  owners := h₁.ownersOf fun _ => rfl
  others h hh := by
    rw [List.map_cons, List.mem_cons, not_or] at hh
    exact h₁.of_ne hh.1
  attached before i after x hsplit hx hun := by
    have hcannot (more : List PendingGeneric) : ¬ scope.CanConstrain (item :: more) :=
      fun h => hfail ((Scope.canConstrain_cons.mp h).1 c hc)
    cases before with
    | nil =>
      obtain ⟨rfl, rfl⟩ := List.cons.inj hsplit
      exact ⟨_, h₁.of_some hx, ⟨rfl, rfl, rfl, rfl, rfl⟩, .inr ⟨hcannot [], hun.isConstrained⟩⟩
    | cons first before =>
      obtain ⟨rfl, rfl⟩ := List.cons.inj hsplit
      rw [← h₁.of_ne (param_ne hnodup)] at hx
      exact ⟨x, hx, .refl x, .inr ⟨hcannot _, hun.isConstrained⟩⟩

end Constrains

/-- Attaching constraints has that effect, whether it yields or fails. -/
theorem constrainGenerics_constrains {setup : Setup}
    (hresolver : setup.resolver = Resolver.default) (topLevel : Token)
    (pending : Array PendingGeneric) (s : BuildState)
    (hnodup : (pending.toList.map PendingGeneric.param).Nodup) :
    Constrains (s.scope topLevel) pending.toList s
      ((setup.constrainGenerics topLevel pending).outcome s).2 := by
  unfold Setup.constrainGenerics
  generalize pending.toList = items at hnodup
  -- attaching constraints does not change what resolves, so one scope serves all parameters
  suffices ∀ scope, scope.Agrees (s.scope topLevel) → Constrains scope items s
      (Build.outcome (List.forM items (setup.constrainGeneric topLevel)) s).2 from
    this _ ⟨(BuildState.Extends.refl s).scope topLevel, (BuildState.Extends.refl s).scope topLevel⟩
  intro scope hscope
  induction items generalizing s with
  | nil => exact .nil scope s
  | cons item rest ih =>
    rcases Build.yields_or_fails (setup.constrainGeneric topLevel item) s with
      ⟨_, s₁, hrun⟩ | ⟨e, s₁, hrun⟩
    · obtain ⟨sigs, hsigs, h₁⟩ := yields_constrainGeneric hresolver hrun
      have hagrees := h₁.toOnlyGenerics.agrees h₁.registry topLevel
      rw [Build.forM_cons_eq, Build.outcome_bind_of_yields hrun]
      exact .cons (hsigs.mono hscope.2) h₁
        (ih s₁ (List.nodup_cons.mp hnodup).2 (hscope.trans hagrees)) hnodup
    · obtain ⟨sigs, h₁, c, hc, hfail⟩ := fails_constrainGeneric hresolver hrun
      rw [Build.forM_cons_eq, Build.outcome_bind_of_fails hrun]
      exact .cons_of_fails hc (fun h => hfail (hscope.canResolve_iff.mp h)) h₁ hnodup

/-- If attaching constraints yields, all of them have signatures. -/
theorem yields_constrainGenerics {setup : Setup} (hresolver : setup.resolver = Resolver.default)
    {topLevel : Token} {pending : Array PendingGeneric} {s s' : BuildState}
    (hrun : (setup.constrainGenerics topLevel pending).Yields s () s') :
    (s.scope topLevel).CanConstrain pending.toList := by
  unfold Setup.constrainGenerics at hrun
  generalize pending.toList = items at hrun
  induction items generalizing s with
  | nil => exact fun _ hitem => absurd hitem List.not_mem_nil
  | cons item rest ih =>
    obtain ⟨s₁, hfirst, hrest⟩ := Build.yields_forM_cons.mp hrun
    obtain ⟨sigs, hsigs, h₁⟩ := yields_constrainGeneric hresolver hfirst
    have hagrees := h₁.toOnlyGenerics.agrees h₁.registry topLevel
    refine Scope.canConstrain_cons.mpr ⟨fun c hc => ?_, fun i hi c hc => ?_⟩
    · exact hsigs.canResolve c (Array.mem_toList_iff.mpr hc)
    · exact hagrees.canResolve_iff.mpr (ih hrest i hi c hc)

/-- If attaching constraints fails, one of them has no signature. -/
theorem fails_constrainGenerics {setup : Setup} (hresolver : setup.resolver = Resolver.default)
    {topLevel : Token} {pending : Array PendingGeneric} {e : Failure} {s s' : BuildState}
    (hrun : (setup.constrainGenerics topLevel pending).Fails s e s') :
    ¬ (s.scope topLevel).CanConstrain pending.toList := by
  unfold Setup.constrainGenerics at hrun
  generalize pending.toList = items at hrun
  induction items generalizing s with
  | nil => cases hrun
  | cons item rest ih =>
    intro hcan
    obtain ⟨hfirst, hrest⟩ := Scope.canConstrain_cons.mp hcan
    rcases Build.fails_forM_cons.mp hrun with hfails | ⟨s₁, hyields, hfails⟩
    · obtain ⟨-, -, c, hc, hfail⟩ := fails_constrainGeneric hresolver hfails
      exact hfail (hfirst c hc)
    · obtain ⟨_, -, h₁⟩ := yields_constrainGeneric hresolver hyields
      have hagrees := h₁.toOnlyGenerics.agrees h₁.registry topLevel
      exact ih hfails fun i hi c hc => hagrees.canResolve_iff.mp (hrest i hi c hc)

/-- If all constraints have signatures, attaching them succeeds. -/
theorem constrainGenerics_yields {setup : Setup} (hresolver : setup.resolver = Resolver.default)
    {topLevel : Token} {pending : Array PendingGeneric} {s : BuildState}
    (hcan : (s.scope topLevel).CanConstrain pending.toList) :
    ∃ s', (setup.constrainGenerics topLevel pending).Yields s () s' := by
  rcases Build.yields_or_fails (setup.constrainGenerics topLevel pending) s with
    ⟨_, s', hrun⟩ | ⟨e, s', hrun⟩
  · exact ⟨s', hrun⟩
  · exact absurd hcan (fails_constrainGenerics hresolver hrun)

/-- If all constraints have signatures, every pending parameter becomes complete. -/
theorem Constrains.complete {scope : Scope} {pending : List PendingGeneric} {s s' : BuildState}
    (h : Constrains scope pending s s') (hcan : scope.CanConstrain pending) {item : PendingGeneric}
    (hitem : item ∈ pending) {x : GenericParam} (hx : s.store.generics.get? item.param = some x)
    (hun : x.Unconstrained) :
    ∃ y, s'.store.generics.get? item.param = some y ∧ x.Alike y ∧
      y.ConstrainedBy scope item.constraints := by
  obtain ⟨before, after, rfl⟩ := List.append_of_mem hitem
  obtain ⟨y, hy, halike, ⟨-, hcomplete⟩ | ⟨hcannot, -⟩⟩ := h.attached before item after x rfl hx hun
  · exact ⟨y, hy, halike, hcomplete⟩
  · exact absurd hcan.upTo hcannot

/-- Attaching constraints, complete or not, leaves in place what identifies the parameters. -/
theorem Constrains.extends {scope : Scope} {pending : List PendingGeneric} {s s' : BuildState}
    (h : Constrains scope pending s s')
    (hun : ∀ item ∈ pending, ∃ x, s.store.generics.get? item.param = some x ∧ x.Unconstrained) :
    s.store.generics.Extends GenericParam.Alike s'.store.generics := by
  intro g x hx
  by_cases hg : g ∈ pending.map PendingGeneric.param
  · obtain ⟨item, hitem, rfl⟩ := List.mem_map.mp hg
    obtain ⟨before, after, rfl⟩ := List.append_of_mem hitem
    obtain ⟨x', hx', hun⟩ := hun item hitem
    obtain rfl := Option.some.inj (hx.symm.trans hx')
    obtain ⟨y, hy, halike, -⟩ := h.attached before item after x rfl hx hun
    exact ⟨y, hy, halike⟩
  · exact ⟨x, (h.others g hg).trans hx, .refl x⟩

end ClrImage
