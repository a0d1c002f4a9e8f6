import ClrImage.Proofs.Growth
import Mathlib.Data.List.Induction

/-!
# Registration of generic parameters

A container of generic parameters is processed in two steps: its parameters are registered, and then
the constraints of those that are new are attached. This module says what either step does to a
state. All of it holds for containers of types and of methods alike.

- `OnlyGenerics`: nothing but generic parameters, their registry and the notices has changed.
- `Registers`: the effect of `Setup.declareGenerics`. A key keeps the parameter that it has; a key
  without one gets a new parameter for the **first** plan that has it.
- `declareGenerics_registers`: registration never fails and has that effect.
-/

namespace ClrImage

/-! ## States that differ in generic parameters only -/

/-- Only generic parameters, their registry and the notices differ. -/
structure OnlyGenerics (s s' : BuildState) : Prop where
  store : s'.store = { s.store with generics := s'.store.generics }
  links : s'.links = s.links
  declared : s'.declared = s.declared
  failures : s'.failures = s.failures

namespace OnlyGenerics

variable {s s₁ s₂ : BuildState}

theorem refl (s : BuildState) : OnlyGenerics s s := ⟨rfl, rfl, rfl, rfl⟩

theorem trans (h₁ : OnlyGenerics s s₁) (h₂ : OnlyGenerics s₁ s₂) : OnlyGenerics s s₂ where
  store := by rw [h₂.store, h₁.store]
  links := h₂.links.trans h₁.links
  declared := h₂.declared.trans h₁.declared
  failures := h₂.failures.trans h₁.failures

theorem types (h : OnlyGenerics s s₁) : s₁.store.types = s.store.types := by rw [h.store]

/-- Together with growth of the parameters and of the registry, this is growth of the state. -/
theorem grows (h : OnlyGenerics s s₁)
    (generics : s.store.generics.Extends GenericParam.Alike s₁.store.generics)
    (registry : s.registry.params.Extends s₁.registry.params)
    (registryScope : s₁.registry.scope = s.registry.scope) : s.Extends s₁ where
  types := h.types ▸ .refl TypeDef.Alike.refl _
  generics := generics
  fields := by rw [h.store]; exact .refl Eq.refl _
  params := by rw [h.store]; exact .refl Eq.refl _
  methods := by rw [h.store]; exact .refl Eq.refl _
  properties := by rw [h.store]; exact .refl Eq.refl _
  events := by rw [h.store]; exact .refl Eq.refl _
  links := .of_eq h.links.symm
  registry := registry
  registryScope := registryScope

end OnlyGenerics

/-! ## Owners -/

/-- The owners recorded for a parameter. -/
def BuildState.ownersOf (s : BuildState) (h : GenericHandle) : Array GenericOwner :=
  ((s.store.generics.get? h).map (·.owners)).getD #[]

/-- The notice that a parameter got a further owner. -/
def Notice.tellsSharing : Notice → Bool
  | .parameterShared .. => true
  | _ => false

/-- Only the owners of generic parameters and the notices differ. -/
structure OnlyOwners (s s' : BuildState) : Prop extends OnlyGenerics s s' where
  registry : s'.registry = s.registry
  generics : s.store.generics.Extends GenericParam.SameTerms s'.store.generics
  nothingNew : ∀ h, s.store.generics.get? h = none → s'.store.generics.get? h = none

namespace OnlyOwners

variable {s s₁ s₂ : BuildState}

theorem refl (s : BuildState) : OnlyOwners s s :=
  ⟨.refl s, rfl, .refl GenericParam.SameTerms.refl _, fun _ h => h⟩

theorem trans (h₁ : OnlyOwners s s₁) (h₂ : OnlyOwners s₁ s₂) : OnlyOwners s s₂ :=
  ⟨h₁.toOnlyGenerics.trans h₂.toOnlyGenerics, h₂.registry.trans h₁.registry,
    h₁.generics.trans GenericParam.SameTerms.trans h₂.generics,
    fun h hh => h₂.nothingNew h (h₁.nothingNew h hh)⟩

instance : IsPreorder BuildState OnlyOwners where
  refl := refl
  trans _ _ _ := trans

end OnlyOwners

theorem keeps_notice_onlyOwners (n : Notice) : Build.Keeps OnlyOwners (Build.notice n) :=
  Build.Keeps.modify fun _ => ⟨⟨rfl, rfl, rfl, rfl⟩, rfl, .refl GenericParam.SameTerms.refl _,
    fun _ h => h⟩

/-- Recording an owner changes nothing else. -/
theorem keeps_addOwner (h : GenericHandle) (owner : GenericOwner) :
    Build.Keeps OnlyOwners (Build.addOwner h owner) := by
  unfold Build.addOwner
  refine Build.Keeps.bind Build.Keeps.get fun s => ?_
  split
  · exact Build.Keeps.pure ()
  · split
    · exact Build.Keeps.pure ()
    · refine Build.Keeps.bind (Build.Keeps.modify fun s => ?_) fun _ => ?_
      · refine ⟨⟨rfl, rfl, rfl, rfl⟩, rfl, ?_, fun g hg => ?_⟩
        · exact Arena.extends_modify GenericParam.SameTerms.refl _ h
            fun x => ⟨⟨rfl, rfl, rfl, rfl, rfl⟩, rfl, rfl⟩
        · rw [Arena.get?_modify, hg]
          simp
      · split
        · exact keeps_notice_onlyOwners _
        · exact Build.Keeps.pure ()

/-- Recording an owner never fails. -/
theorem succeeds_addOwner (h : GenericHandle) (owner : GenericOwner) :
    Build.Succeeds (Build.addOwner h owner) := by
  unfold Build.addOwner
  refine Build.Succeeds.bind Build.Succeeds.get fun s => ?_
  split
  · exact Build.Succeeds.pure ()
  · split
    · exact Build.Succeeds.pure ()
    · refine Build.Succeeds.bind (Build.Succeeds.modify _) fun _ => ?_
      split
      · exact Build.Succeeds.modify _
      · exact Build.Succeeds.pure ()

/-! ## The effect of registration -/

/-- A parameter is what a plan of an owner says, constraints aside. -/
structure GenericParam.MadeFor (x : GenericParam) (owner : GenericOwner) (g : GenericPlan) :
    Prop where
  index : x.index = g.index
  number : x.number = g.number
  name : x.name = g.name
  flags : x.flags = g.flags
  declaredBy : x.declaredBy = owner

theorem GenericParam.MadeFor.of_alike {x y : GenericParam} {owner : GenericOwner}
    {g : GenericPlan} (h : x.MadeFor owner g) (halike : x.Alike y) : y.MadeFor owner g :=
  ⟨halike.index.trans h.index, halike.number.trans h.number, halike.name.trans h.name,
    halike.flags.trans h.flags, halike.declaredBy.trans h.declaredBy⟩

/-- No constraint of the parameter has been attached. -/
structure GenericParam.Unconstrained (x : GenericParam) : Prop where
  constraints : x.constraints = #[]
  isConstrained : x.isConstrained = false

theorem GenericParam.Unconstrained.of_sameTerms {x y : GenericParam} (h : x.Unconstrained)
    (hterms : x.SameTerms y) : y.Unconstrained :=
  ⟨hterms.constraints.trans h.constraints, hterms.isConstrained.trans h.isConstrained⟩

/-- What registering the parameters `params` of a container does: each plan gets the object of its
key, and the keys without an object get new ones, which are pending. -/
structure Registers (key : GenericPlan → GenericKey) (owner : GenericOwner)
    (params : List GenericPlan) (s s' : BuildState) (objects : List GenericHandle)
    (pending : List PendingGeneric) : Prop extends OnlyGenerics s s' where
  scope : s'.registry.scope = s.registry.scope
  registry : s.registry.params.Extends s'.registry.params
  generics : s.store.generics.Extends GenericParam.SameTerms s'.store.generics
  objects_eq : List.Forall₂ (fun g h => s'.registry.get? (key g) = some h) params objects
  /-- A new entry of the registry belongs to the first plan with its key. -/
  made : ∀ k h, s.registry.get? k = none → s'.registry.get? k = some h →
    ∃ g, params.find? (key · = k) = some g ∧ ⟨h, g.constraints⟩ ∈ pending ∧
      ∃ x, s'.store.generics.get? h = some x ∧ x.MadeFor owner g
  /-- Pending parameters are new and have no constraints yet. -/
  fresh : ∀ item ∈ pending, s.store.generics.get? item.param = none ∧
    ∃ x, s'.store.generics.get? item.param = some x ∧ x.Unconstrained
  nodup : (pending.map PendingGeneric.param).Nodup
  /-- All new parameters are pending. -/
  new : ∀ h x, s.store.generics.get? h = none → s'.store.generics.get? h = some x →
    ∃ item ∈ pending, item.param = h
  /-- A pending parameter is held for a key that was free, with the constraints of the first plan
  that has the key. -/
  pends : ∀ item ∈ pending, ∃ g, params.find? (key · = key g) = some g ∧
    item.constraints = g.constraints ∧ s.registry.get? (key g) = none ∧
    s'.registry.get? (key g) = some item.param

namespace Registers

variable {key : GenericPlan → GenericKey} {owner : GenericOwner} {s s₁ s' : BuildState}

theorem nil (s : BuildState) : Registers key owner [] s s [] [] where
  toOnlyGenerics := .refl s
  scope := rfl
  registry := .refl _
  generics := .refl GenericParam.SameTerms.refl _
  objects_eq := .nil
  made k h hnone hsome := by
    rw [hnone] at hsome
    cases hsome
  fresh := by simp
  nodup := .nil
  new h x hnone hsome := by
    rw [hnone] at hsome
    cases hsome
  pends := by simp

/-- Registration of a container goes through its plans one by one. -/
theorem cons {g : GenericPlan} {rest : List GenericPlan} {h : GenericHandle}
    {objects : List GenericHandle} {first pending : List PendingGeneric}
    (hfirst : Registers key owner [g] s s₁ [h] first)
    (hrest : Registers key owner rest s₁ s' objects pending) :
    Registers key owner (g :: rest) s s' (h :: objects) (first ++ pending) where
  toOnlyGenerics := hfirst.toOnlyGenerics.trans hrest.toOnlyGenerics
  scope := hrest.scope.trans hfirst.scope
  registry := hfirst.registry.trans hrest.registry
  generics := hfirst.generics.trans GenericParam.SameTerms.trans hrest.generics
  objects_eq := by
    refine .cons ?_ hrest.objects_eq
    obtain - | ⟨hobject, -⟩ := hfirst.objects_eq
    exact hrest.registry _ _ hobject
  made k o hnone hsome := by
    have hkey : s₁.registry.get? (key g) = some h := by
      obtain - | ⟨hobject, -⟩ := hfirst.objects_eq
      exact hobject
    -- the key is taken by the first plan or by a later one
    by_cases hk : key g = k
    · subst hk
      obtain rfl : h = o := Option.some.inj ((hrest.registry _ _ hkey).symm.trans hsome)
      obtain ⟨g', hfind, hmem, x, hx, hmade⟩ := hfirst.made _ h hnone hkey
      obtain ⟨y, hy, hterms⟩ := hrest.generics h x hx
      have hg' : g = g' := by simpa using hfind
      exact ⟨g, by simp, List.mem_append_left _ (hg' ▸ hmem), y, hy,
        hg' ▸ hmade.of_alike hterms.toAlike⟩
    · have hnone₁ : s₁.registry.get? k = none := by
        cases hk₁ : s₁.registry.get? k with
        | none => rfl
        | some o' =>
          obtain ⟨g', hfind, -⟩ := hfirst.made k o' hnone hk₁
          simp [hk] at hfind
      obtain ⟨g', hfind, hmem, hx⟩ := hrest.made k o hnone₁ hsome
      exact ⟨g', by rw [List.find?_cons_of_neg (by simpa using hk), hfind],
        List.mem_append_right _ hmem, hx⟩
  fresh item hitem := by
    rcases List.mem_append.mp hitem with hmem | hmem
    · obtain ⟨hnone, x, hx, hun⟩ := hfirst.fresh item hmem
      obtain ⟨y, hy, hterms⟩ := hrest.generics _ x hx
      exact ⟨hnone, y, hy, hun.of_sameTerms hterms⟩
    · obtain ⟨hnone₁, hx⟩ := hrest.fresh item hmem
      refine ⟨?_, hx⟩
      cases hs : s.store.generics.get? item.param with
      | none => rfl
      | some x => exact absurd rfl (hfirst.generics.ne_of_fresh hs hnone₁)
  nodup := by
    rw [List.map_append, List.nodup_append]
    refine ⟨hfirst.nodup, hrest.nodup, ?_⟩
    rintro _ ha _ hb rfl
    obtain ⟨i, hi, rfl⟩ := List.mem_map.mp ha
    obtain ⟨j, hj, heq⟩ := List.mem_map.mp hb
    obtain ⟨-, x, hx, -⟩ := hfirst.fresh i hi
    rw [← heq, (hrest.fresh j hj).1] at hx
    cases hx
  new o x hnone hsome := by
    cases h₁ : s₁.store.generics.get? o with
    | none =>
      obtain ⟨item, hitem, rfl⟩ := hrest.new o x h₁ hsome
      exact ⟨item, List.mem_append_right _ hitem, rfl⟩
    | some y =>
      obtain ⟨item, hitem, rfl⟩ := hfirst.new o y hnone h₁
      exact ⟨item, List.mem_append_left _ hitem, rfl⟩
  pends item hitem := by
    have hkey : s₁.registry.get? (key g) = some h := by
      obtain - | ⟨hobject, -⟩ := hfirst.objects_eq
      exact hobject
    rcases List.mem_append.mp hitem with hmem | hmem
    · obtain ⟨g', hfind, hconstraints, hfree, hheld⟩ := hfirst.pends item hmem
      obtain rfl : g' = g := by simpa using List.mem_of_find?_eq_some hfind
      exact ⟨_, by simp, hconstraints, hfree, hrest.registry _ _ hheld⟩
    · obtain ⟨g', hfind, hconstraints, hfree, hheld⟩ := hrest.pends item hmem
      -- the key was free behind the first plan, so it is not that of the first plan
      have hne : key g ≠ key g' := by
        intro heq
        rw [← heq, hkey] at hfree
        cases hfree
      refine ⟨g', by rw [List.find?_cons_of_neg (by simpa using hne), hfind], hconstraints, ?_,
        hheld⟩
      cases hold : s.registry.get? (key g') with
      | none => rfl
      | some o =>
        have hstill : s₁.registry.get? (key g') = some o := hfirst.registry _ _ hold
        rw [hfree] at hstill
        cases hstill

theorem extends_state {params : List GenericPlan} {objects : List GenericHandle}
    {pending : List PendingGeneric} (h : Registers key owner params s s' objects pending) :
    s.Extends s' :=
  h.grows (h.generics.mono fun _ _ hterms => hterms.toAlike) h.registry h.scope

/-- Recording an owner afterwards changes nothing in the effect. -/
theorem onlyOwners {params : List GenericPlan} {objects : List GenericHandle}
    {pending : List PendingGeneric} (h : Registers key owner params s s₁ objects pending)
    (howners : OnlyOwners s₁ s') : Registers key owner params s s' objects pending where
  toOnlyGenerics := h.toOnlyGenerics.trans howners.toOnlyGenerics
  scope := by rw [howners.registry, h.scope]
  registry := by rw [howners.registry]; exact h.registry
  generics := h.generics.trans GenericParam.SameTerms.trans howners.generics
  objects_eq := by rw [howners.registry]; exact h.objects_eq
  made k o hnone hsome := by
    rw [howners.registry] at hsome
    obtain ⟨g, hfind, hmem, x, hx, hmade⟩ := h.made k o hnone hsome
    obtain ⟨y, hy, hterms⟩ := howners.generics o x hx
    exact ⟨g, hfind, hmem, y, hy, hmade.of_alike hterms.toAlike⟩
  fresh item hitem := by
    obtain ⟨hnone, x, hx, hun⟩ := h.fresh item hitem
    obtain ⟨y, hy, hterms⟩ := howners.generics _ x hx
    exact ⟨hnone, y, hy, hun.of_sameTerms hterms⟩
  nodup := h.nodup
  new o x hnone hsome := by
    cases h₁ : s₁.store.generics.get? o with
    | none =>
      rw [howners.nothingNew o h₁] at hsome
      cases hsome
    | some y => exact h.new o y hnone h₁
  pends := by rw [howners.registry]; exact h.pends

end Registers

/-! ## Registration has that effect -/

theorem registerGeneric_of_some {s : BuildState} {key : GenericKey} {held : GenericHandle}
    (h : s.registry.get? key = some held) (owner : GenericOwner) (g : GenericPlan) :
    (Build.registerGeneric key owner g).Yields s (held, false) s := by
  have hregister : s.registry.register key s.store.generics.next = ((held, false), s.registry) := by
    simp [GenericRegistry.register, h]
  unfold Build.Yields Build.registerGeneric
  rw [Build.outcome_modifyGet, hregister]
  rfl

theorem registerGeneric_of_none {s : BuildState} {key : GenericKey}
    (h : s.registry.get? key = none) (owner : GenericOwner) (g : GenericPlan) :
    (Build.registerGeneric key owner g).Yields s (s.store.generics.next, true)
      { s with
        store := { s.store with
          generics := s.store.generics.alloc
            { index := g.index, number := g.number, name := g.name, flags := g.flags
              declaredBy := owner } }
        registry := { s.registry with
          params := s.registry.params.offer key s.store.generics.next } } := by
  have hregister : s.registry.register key s.store.generics.next =
      ((s.store.generics.next, true),
        { s.registry with params := s.registry.params.offer key s.store.generics.next }) := by
    simp [GenericRegistry.register, h]
  unfold Build.Yields Build.registerGeneric
  rw [Build.outcome_modifyGet, hregister]
  rfl

/-- Looking up one key, and making the parameter if there is none. -/
theorem registerGeneric_registers (key : GenericPlan → GenericKey) (owner : GenericOwner)
    (g : GenericPlan) (s : BuildState) :
    ∃ h isNew s', (Build.registerGeneric (key g) owner g).Yields s (h, isNew) s' ∧
      Registers key owner [g] s s' [h] (if isNew then [⟨h, g.constraints⟩] else []) := by
  cases hheld : s.registry.get? (key g) with
  | some held =>
    refine ⟨held, false, s, registerGeneric_of_some hheld owner g,
      { (Registers.nil s : Registers key owner [] s s [] []) with
        objects_eq := .cons hheld .nil, made := ?_, pends := by simp }⟩
    intro k h hnone hsome
    rw [hnone] at hsome
    cases hsome
  | none =>
    refine ⟨s.store.generics.next, true, _, registerGeneric_of_none hheld owner g, ?_⟩
    have hnew := GenericRegistry.get?_offer_of_none hheld s.store.generics.next
    refine {
      toOnlyGenerics := ⟨rfl, rfl, rfl, rfl⟩
      scope := rfl
      registry := WriteOnce.extends_offer _ _ _
      generics := Arena.extends_alloc GenericParam.SameTerms.refl _ _
      objects_eq := .cons ((hnew (key g)).trans (if_pos rfl)) .nil
      made := ?made
      fresh := ?fresh
      nodup := by simp
      new := ?new
      pends := ?pends }
    case made =>
      intro k h hnone hsome
      have hsome := (hnew k).symm.trans hsome
      split at hsome
      next hk =>
        obtain rfl := Option.some.inj hsome
        exact ⟨g, by simp [hk], by simp, _, Arena.get?_alloc_next _ _, rfl, rfl, rfl, rfl, rfl⟩
      next =>
        rw [hnone] at hsome
        cases hsome
    case fresh =>
      intro item hitem
      obtain rfl : item = ⟨s.store.generics.next, g.constraints⟩ := by simpa using hitem
      exact ⟨Arena.get?_next _, _, Arena.get?_alloc_next _ _, rfl, rfl⟩
    case new =>
      intro h x hnone hsome
      refine ⟨⟨s.store.generics.next, g.constraints⟩, by simp, ?_⟩
      have hsome : (s.store.generics.alloc _).get? h = some x := hsome
      rw [Arena.get?_alloc, hnone] at hsome
      split at hsome
      next hh => exact hh.symm
      next => cases hsome
    case pends =>
      intro item hitem
      obtain rfl : item = ⟨s.store.generics.next, g.constraints⟩ := by simpa using hitem
      exact ⟨g, by simp, rfl, hheld, (hnew (key g)).trans (if_pos rfl)⟩

/-- An object is listed once, where it comes first. -/
def listOnce (listed : Array GenericHandle) (h : GenericHandle) : Array GenericHandle :=
  if listed.contains h then listed else listed.push h

/-- One plan of a container: its object is listed, and pending if it is new. -/
theorem declareGeneric_registers (owner : GenericOwner) (topLevel : Token)
    (listed : Array GenericHandle) (pending : Array PendingGeneric) (g : GenericPlan)
    (s : BuildState) :
    ∃ h new s', (Setup.declareGeneric owner topLevel (listed, pending) g).Yields s
        (listOnce listed h, pending ++ new.toArray) s' ∧
      Registers (fun g => s.registry.key g.index topLevel) owner [g] s s' [h] new := by
  obtain ⟨h, isNew, s₁, hrun, hregisters⟩ :=
    registerGeneric_registers (fun g => s.registry.key g.index topLevel) owner g s
  obtain ⟨_, s₂, howner⟩ := succeeds_addOwner h owner s₁
  have h₂ := hregisters.onlyOwners ((keeps_addOwner h owner).of_yields howner)
  cases isNew with
  | true =>
    refine ⟨h, [⟨h, g.constraints⟩], _, ?_, h₂.onlyOwners
      ((keeps_notice_onlyOwners (.parameterRegistered g.name g.index owner)) s₂)⟩
    unfold Setup.declareGeneric
    refine Build.yields_bind.mpr ⟨s, s, rfl, Build.yields_bind.mpr ⟨_, s₁, hrun, ?_⟩⟩
    refine Build.yields_bind.mpr ⟨_, s₂, howner, ?_⟩
    simp only [if_true]
    exact Build.yields_bind.mpr ⟨(), _, rfl, rfl⟩
  | false =>
    refine ⟨h, [], s₂, ?_, h₂⟩
    unfold Setup.declareGeneric
    refine Build.yields_bind.mpr ⟨s, s, rfl, Build.yields_bind.mpr ⟨_, s₁, hrun, ?_⟩⟩
    refine Build.yields_bind.mpr ⟨_, s₂, howner, ?_⟩
    simp [listOnce]

/-- The objects of a container are listed in order, and the new ones are pending in order. -/
theorem declareGenerics_registers (owner : GenericOwner) (topLevel : Token)
    (listed : Array GenericHandle) (params : Array GenericPlan) (s : BuildState) :
    ∃ objects pending s', (Setup.declareGenerics owner topLevel listed params).Yields s
        (objects.foldl listOnce listed, pending) s' ∧
      Registers (fun g => s.registry.key g.index topLevel) owner params.toList s s' objects
        pending.toList := by
  unfold Setup.declareGenerics
  -- what has been listed and what is pending grows at the end, so both are general
  suffices ∀ (rest : List GenericPlan) listed pending s,
      ∃ (objects : List GenericHandle) (new : List PendingGeneric) (s' : BuildState),
        Build.Yields (List.foldlM (Setup.declareGeneric owner topLevel) (listed, pending) rest) s
          (objects.foldl listOnce listed, pending ++ new.toArray) s' ∧
        Registers (fun g => s.registry.key g.index topLevel) owner rest s s' objects new by
    obtain ⟨objects, new, s', hrun, hregisters⟩ := this params.toList listed #[] s
    exact ⟨objects, new.toArray, s', by simpa using hrun, hregisters⟩
  intro rest
  induction rest with
  | nil =>
    intro listed pending s
    refine ⟨[], [], s, ?_, Registers.nil s⟩
    rw [List.foldlM_nil]
    simp
  | cons g rest ih =>
    intro listed pending s
    obtain ⟨h, first, s₁, hrun₁, hfirst⟩ :=
      declareGeneric_registers owner topLevel listed pending g s
    obtain ⟨objects, new, s', hrun, hrest⟩ := ih (listOnce listed h) (pending ++ first.toArray) s₁
    refine ⟨h :: objects, first ++ new, s', ?_, hfirst.cons ?_⟩
    · refine Build.yields_foldlM_cons.mpr ⟨_, s₁, hrun₁, ?_⟩
      simpa using hrun
    · have hkey : (fun g : GenericPlan => s₁.registry.key g.index topLevel) =
          fun g => s.registry.key g.index topLevel :=
        funext fun g => GenericRegistry.key_congr hfirst.scope g.index topLevel
      rwa [hkey] at hrest

/-- Listing objects once each, in order, leaves the first occurrence of every object. -/
theorem foldl_listOnce (objects : List GenericHandle) :
    (objects.foldl listOnce #[]).toList = objects.eraseDups := by
  -- from the end, because the fold looks each object up among those before it
  induction objects using List.reverseRecOn with
  | nil => rfl
  | append_singleton objects h ih =>
    rw [List.foldl_append, List.eraseDups_append, ← ih]
    simp only [List.foldl_cons, List.foldl_nil, listOnce]
    have hmem : h ∈ objects.foldl listOnce #[] ↔ h ∈ objects := by
      rw [← Array.mem_toList_iff, ih, List.mem_eraseDups]
    by_cases h₁ : h ∈ objects
    · rw [if_pos (by simpa using hmem.mpr h₁)]
      simp [List.removeAll, h₁]
    · rw [if_neg (by simpa using fun h₂ => h₁ (hmem.mp h₂))]
      simp [List.removeAll, h₁, List.eraseDups_cons]

/-- What is listed has been listed before, or is one of the objects. -/
theorem mem_foldl_listOnce {objects : List GenericHandle} {listed : Array GenericHandle}
    {h : GenericHandle} : h ∈ objects.foldl listOnce listed ↔ h ∈ listed ∨ h ∈ objects := by
  induction objects generalizing listed with
  | nil => simp
  | cons o objects ih =>
    rw [List.foldl_cons, ih, List.mem_cons, ← or_assoc]
    refine or_congr_left ?_
    unfold listOnce
    split
    next ho =>
      refine ⟨.inl, ?_⟩
      rintro (hold | rfl)
      · exact hold
      · exact Array.contains_iff_mem.mp ho
    next => exact Array.mem_push

/-- Objects that are listed once each stay so. -/
theorem nodup_foldl_listOnce (objects : List GenericHandle) {listed : Array GenericHandle}
    (h : listed.toList.Nodup) : (objects.foldl listOnce listed).toList.Nodup := by
  induction objects generalizing listed with
  | nil => exact h
  | cons o objects ih =>
    refine ih ?_
    unfold listOnce
    split
    next => exact h
    next hnew =>
      rw [Array.toList_push, List.nodup_append]
      refine ⟨h, List.pairwise_singleton _ o, ?_⟩
      rintro _ hmem _ hlast rfl
      obtain rfl := List.mem_singleton.mp hlast
      exact hnew (by simpa using hmem)

/-- Listing the objects of a container once each gives the list that its plans ask for. -/
theorem Registers.lists {owner : GenericOwner} {topLevel : Token} {s s' : BuildState}
    {params : List GenericPlan} {objects : List GenericHandle} {pending : List PendingGeneric}
    (h : Registers (fun g => s.registry.key g.index topLevel) owner params s s' objects pending) :
    (s'.scope topLevel).Lists params (objects.foldl listOnce #[]) := by
  refine ⟨objects, h.objects_eq.imp fun g o ho => ?_, foldl_listOnce objects⟩
  show s'.registry.get? (s'.registry.key g.index topLevel) = some o
  rw [GenericRegistry.key_congr h.scope]
  exact ho

end ClrImage
