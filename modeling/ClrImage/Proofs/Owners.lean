import ClrImage.Proofs.Rounds
import ClrImage.Proofs.Staging
import Mathlib.Data.List.Nodup

/-!
# Owners of parameters

Types that declare a key share its parameter, and the parameter records each of them, in order.

- `enrol`, `Enrols`: what registration does to the owners of the parameters that it lists.
- `RecordsOwners`: a parameter's owners are the types that declare its key.
- `recordsOwners_of_yields`: this holds behind a hierarchy pass.
-/

namespace ClrImage

/-! ## Recording an owner -/

/-- An owner is recorded once. -/
def enrol (owner : GenericOwner) (owners : Array GenericOwner) : Array GenericOwner :=
  if owners.contains owner then owners else owners.push owner

theorem enrol_enrol (owner : GenericOwner) (owners : Array GenericOwner) :
    enrol owner (enrol owner owners) = enrol owner owners := by
  have hmem : (enrol owner owners).contains owner = true := by
    unfold enrol
    split
    next h => exact h
    next => simp
  rw [enrol.eq_1 owner (enrol owner owners), if_pos hmem]

theorem BuildState.ownersOf_of_some {s : BuildState} {h : GenericHandle} {x : GenericParam}
    (hx : s.store.generics.get? h = some x) : s.ownersOf h = x.owners := by
  rw [ownersOf, hx]
  rfl

theorem BuildState.ownersOf_of_none {s : BuildState} {h : GenericHandle}
    (hx : s.store.generics.get? h = none) : s.ownersOf h = #[] := by
  rw [ownersOf, hx]
  rfl

/-- The owner is recorded for the parameter, if it is there, and for no other one. -/
theorem yields_addOwner {h : GenericHandle} {owner : GenericOwner} {x : GenericParam}
    {s s' : BuildState} (hx : s.store.generics.get? h = some x)
    (hrun : (Build.addOwner h owner).Yields s () s') (g : GenericHandle) :
    s'.ownersOf g = if g = h then enrol owner (s.ownersOf g) else s.ownersOf g := by
  unfold Build.addOwner at hrun
  simp only [Build.yields_get_bind, hx] at hrun
  split at hrun
  next howned =>
    obtain ⟨-, rfl⟩ := Build.yields_pure.mp hrun
    have hcontains : x.owners.contains owner = true := howned
    split
    next hg => rw [hg, BuildState.ownersOf_of_some hx, enrol, if_pos hcontains]
    next => rfl
  next hnew =>
    obtain ⟨_, s₁, hmodify, htell⟩ := Build.yields_bind.mp hrun
    obtain rfl := Build.yields_modify.mp hmodify
    have hnew : ¬ x.owners.contains owner = true := hnew
    have hadded : BuildState.ownersOf { s with store := { s.store with
        generics := s.store.generics.modify h fun x =>
          { x with owners := x.owners.push owner } } } g =
        if g = h then enrol owner (s.ownersOf g) else s.ownersOf g := by
      unfold BuildState.ownersOf
      rw [Arena.get?_modify]
      split
      next hg =>
        rw [hg, hx]
        exact (if_neg hnew).symm
      next => rfl
    split at htell
    · obtain rfl := Build.yields_modify.mp htell
      exact hadded
    · obtain ⟨-, rfl⟩ := Build.yields_pure.mp htell
      exact hadded

/-! ## Registration -/

/-- The owner is recorded for the parameters of its plans, and for no others. -/
structure Enrols (key : GenericPlan → GenericKey) (owner : GenericOwner)
    (params : List GenericPlan) (s s' : BuildState) : Prop where
  listed : ∀ g ∈ params, ∀ h, s'.registry.get? (key g) = some h →
    s'.ownersOf h = enrol owner (s.ownersOf h)
  others : ∀ h, (∀ g ∈ params, s'.registry.get? (key g) ≠ some h) →
    s'.ownersOf h = s.ownersOf h

theorem Enrols.cons {key : GenericPlan → GenericKey} {owner : GenericOwner} {g : GenericPlan}
    {rest : List GenericPlan} {o : GenericHandle} {s s₁ s' : BuildState}
    (ho : s₁.registry.get? (key g) = some o)
    (hgrows : s₁.registry.params.Extends s'.registry.params)
    (hfirst : Enrols key owner [g] s s₁) (hrest : Enrols key owner rest s₁ s') :
    Enrols key owner (g :: rest) s s' := by
  have ho' : s'.registry.get? (key g) = some o := hgrows _ _ ho
  -- what happens to a parameter depends on whether it is the first one or a later one
  have hown (h : GenericHandle) : s₁.ownersOf h =
      if h = o then enrol owner (s.ownersOf h) else s.ownersOf h := by
    split
    next heq => exact hfirst.listed g (List.mem_singleton.mpr rfl) h (heq ▸ ho)
    next hne =>
      refine hfirst.others h fun g' hg' hheld => hne ?_
      rw [List.mem_singleton.mp hg', ho] at hheld
      exact (Option.some.inj hheld).symm
  constructor
  · intro g' hg' h hh
    by_cases hlater : ∃ g'' ∈ rest, s'.registry.get? (key g'') = some h
    · obtain ⟨g'', hg'', hh''⟩ := hlater
      rw [hrest.listed g'' hg'' h hh'', hown]
      split
      · exact enrol_enrol owner _
      · rfl
    · have hnone : ∀ g'' ∈ rest, s'.registry.get? (key g'') ≠ some h :=
        fun g'' hg'' hh'' => hlater ⟨g'', hg'', hh''⟩
      have heq : h = o := by
        rcases List.mem_cons.mp hg' with rfl | hmem
        · exact Option.some.inj (hh.symm.trans ho')
        · exact absurd hh (hnone g' hmem)
      rw [hrest.others h hnone, hown, if_pos heq]
  · intro h hnone
    have hne : h ≠ o := by
      rintro rfl
      exact hnone g List.mem_cons_self ho'
    rw [hrest.others h fun g' hg' => hnone g' (List.mem_cons_of_mem g hg'), hown, if_neg hne]

/-- Looking a key up, and making a parameter without owners if there is none. -/
theorem yields_registerGeneric {key : GenericKey} {owner : GenericOwner} {g : GenericPlan}
    {h : GenericHandle} {isNew : Bool} {s s' : BuildState} (hclosed : s.RegistryClosed)
    (hrun : (Build.registerGeneric key owner g).Yields s (h, isNew) s') :
    s'.registry.get? key = some h ∧ (∃ x, s'.store.generics.get? h = some x) ∧
      ∀ o, s'.ownersOf o = s.ownersOf o := by
  cases hheld : s.registry.get? key with
  | some held =>
    obtain ⟨hout, rfl⟩ := (registerGeneric_of_some hheld owner g).unique hrun
    obtain ⟨rfl, rfl⟩ := Prod.mk.inj hout
    exact ⟨hheld, hclosed key held hheld, fun _ => rfl⟩
  | none =>
    obtain ⟨hout, rfl⟩ := (registerGeneric_of_none hheld owner g).unique hrun
    obtain ⟨rfl, rfl⟩ := Prod.mk.inj hout
    refine ⟨?_, ⟨_, Arena.get?_alloc_next _ _⟩, fun o => ?_⟩
    · show (s.registry.params.offer key s.store.generics.next).get? key = _
      rw [GenericRegistry.get?_offer_of_none hheld, if_pos rfl]
    · unfold BuildState.ownersOf
      rw [Arena.get?_alloc]
      split
      next ho => rw [ho, Arena.get?_next, Option.map_some, Option.map_none]; rfl
      next => rfl

/-- Registering one plan records its owner. -/
theorem enrols_declareGeneric {owner : GenericOwner} {topLevel : Token}
    {acc out : Array GenericHandle × Array PendingGeneric} {g : GenericPlan} {s s' : BuildState}
    (hclosed : s.RegistryClosed)
    (hrun : (Setup.declareGeneric owner topLevel acc g).Yields s out s') :
    Enrols (fun g => s.registry.key g.index topLevel) owner [g] s s' := by
  unfold Setup.declareGeneric at hrun
  rw [Build.yields_get_bind] at hrun
  obtain ⟨⟨h, isNew⟩, s₁, hregister, hrun⟩ := Build.yields_bind.mp hrun
  obtain ⟨_, s₂, hadd, hrun⟩ := Build.yields_bind.mp hrun
  obtain ⟨hheld, ⟨x, hx⟩, hsame⟩ := yields_registerGeneric hclosed hregister
  have hregistry : s₂.registry = s₁.registry := ((keeps_addOwner h owner).of_yields hadd).registry
  have hs₂ (o : GenericHandle) : s₂.ownersOf o =
      if o = h then enrol owner (s.ownersOf o) else s.ownersOf o := by
    rw [yields_addOwner hx hadd o, hsame o]
  -- what is told afterwards changes neither owners nor the registry
  obtain ⟨notices, rfl⟩ : ∃ notices, s' = { s₂ with notices } := by
    split at hrun
    · obtain ⟨_, s₃, htell, hpure⟩ := Build.yields_bind.mp hrun
      obtain rfl := Build.yields_modify.mp htell
      obtain ⟨-, rfl⟩ := Build.yields_pure.mp hpure
      exact ⟨_, rfl⟩
    · obtain ⟨-, rfl⟩ := Build.yields_pure.mp hrun
      exact ⟨s₂.notices, rfl⟩
  constructor
  · intro g' hg' o ho
    obtain rfl := List.mem_singleton.mp hg'
    have ho : s₂.registry.get? (s.registry.key g'.index topLevel) = some o := ho
    rw [hregistry, hheld] at ho
    exact (hs₂ o).trans (if_pos (Option.some.inj ho).symm)
  · intro o hnone
    refine (hs₂ o).trans (if_neg ?_)
    rintro rfl
    refine hnone g (List.mem_singleton.mpr rfl) ?_
    show s₂.registry.get? _ = _
    rw [hregistry, hheld]

/-- Registering the parameters of a container records the container for each of them. -/
theorem enrols_declareGenerics {owner : GenericOwner} {topLevel : Token}
    {listed : Array GenericHandle} {params : Array GenericPlan}
    {out : Array GenericHandle × Array PendingGeneric} {s s' : BuildState}
    (hclosed : s.RegistryClosed)
    (hrun : (Setup.declareGenerics owner topLevel listed params).Yields s out s') :
    Enrols (fun g => s.registry.key g.index topLevel) owner params.toList s s' := by
  unfold Setup.declareGenerics at hrun
  generalize params.toList = rest at hrun ⊢
  generalize (listed, (#[] : Array PendingGeneric)) = acc at hrun
  induction rest generalizing s acc with
  | nil =>
    obtain ⟨-, rfl⟩ := Build.yields_pure.mp hrun
    exact ⟨by simp, fun _ _ => rfl⟩
  | cons g rest ih =>
    obtain ⟨acc₁, s₁, hfirst, hrest⟩ := Build.yields_foldlM_cons.mp hrun
    obtain ⟨h, new, s₁', hfirst', hregisters⟩ :=
      declareGeneric_registers owner topLevel acc.1 acc.2 g s
    obtain ⟨rfl, rfl⟩ := hfirst.unique hfirst'
    obtain - | ⟨hheld, -⟩ := hregisters.objects_eq
    have hclosed₁ := hregisters.stages.closed hclosed
    have hkey : (fun g : GenericPlan => s₁.registry.key g.index topLevel) =
        fun g => s.registry.key g.index topLevel :=
      funext fun g => GenericRegistry.key_congr hregisters.scope g.index topLevel
    have hlater := ih hclosed₁ _ hrest
    rw [hkey] at hlater
    have hgrows : Stages s₁ s' :=
      (Build.Keeps.foldlM (keeps_declareGeneric owner topLevel) rest _).of_yields hrest
    exact (enrols_declareGeneric hclosed hfirst).cons hheld hgrows.registry hlater

/-- Registering the parameters of a type records the type for each of them. -/
theorem enrols_declareTypeGenerics {setup : Setup} {p : TypePlan} {pending : Array PendingGeneric}
    {h : TypeHandle} {t : TypeDef} {s s' : BuildState} (hclosed : s.RegistryClosed)
    (hlink : s.links.types.get? p.token = some h) (ht : s.store.types.get? h = some t)
    (hopen : t.isConfigured = false) (hrun : (setup.declareTypeGenerics p).Yields s pending s') :
    Enrols (fun g => s.registry.key g.index (setup.blueprint.topLevel p)) (.type p.token)
      p.genericPlans s s' := by
  unfold TypePlan.genericPlans
  obtain ⟨hplanned, -, rfl⟩ | ⟨params, listed, s₁, hplanned, hdeclare, hmodify⟩ :=
    declareTypeGenerics_cases hlink ht hopen hrun <;> rw [hplanned]
  · exact ⟨by simp, fun _ _ => rfl⟩
  · have henrols := enrols_declareGenerics hclosed hdeclare
    obtain rfl := Build.yields_modify.mp hmodify
    exact ⟨henrols.listed, henrols.others⟩

/-! ## The pass -/

/-- Whether a type plans a parameter with a key. -/
def Setup.declares (setup : Setup) (key : GenericKey) (p : TypePlan) : Bool :=
  p.genericPlans.any fun g => setup.genericKey p g = key

theorem Setup.declares_iff {setup : Setup} {key : GenericKey} {p : TypePlan} :
    setup.declares key p = true ↔ ∃ g ∈ p.genericPlans, setup.genericKey p g = key := by
  simp [declares]

/-- A key that some type declares has a first plan. -/
theorem Setup.not_declares_of_firstAmong? {setup : Setup} {types : List TypePlan}
    {key : GenericKey} (h : setup.firstAmong? types key = none) :
    ∀ p ∈ types, setup.declares key p = false := by
  intro p hp
  rw [Bool.eq_false_iff, ne_eq, declares_iff]
  rintro ⟨g, hg, hkey⟩
  have hmem : (p, g) ∈ declarations types :=
    List.mem_flatMap.mpr ⟨p, hp, List.mem_map_of_mem hg⟩
  exact List.find?_eq_none.mp h (p, g) hmem (decide_eq_true hkey)

/-- The key of a parameter follows from what it was made for. -/
theorem Setup.key_eq_of_madeFor {setup : Setup} (hnodup : (setup.types.map TypePlan.token).Nodup)
    {p q : TypePlan} {g g' : GenericPlan} {x : GenericParam} (hp : p ∈ setup.types)
    (hq : q ∈ setup.types) (hx : x.MadeFor (.type p.token) g) (hy : x.MadeFor (.type q.token) g') :
    setup.genericKey p g = setup.genericKey q g' := by
  have htoken : p.token = q.token :=
    GenericOwner.type.inj (hx.declaredBy.symm.trans hy.declaredBy)
  obtain rfl := List.inj_on_of_nodup_map hnodup hp hq htoken
  rw [genericKey, genericKey, ← hx.index, hy.index]

/-- The owners of a parameter are those of some types that declare its key, in order. -/
def RecordsOwners (setup : Setup) (types : List TypePlan) (s : BuildState) : Prop :=
  ∀ k h, s.registry.get? k = some h →
    (s.ownersOf h).toList = (types.filter (setup.declares k)).map fun p => .type p.token

section Pass

variable {setup : Setup} {s₀ s s' : BuildState}

/-- In the first round a parameter is there for each entry of the registry. -/
theorem FirstRound.closed {work : List PendingType} {todo : List TypePlan}
    (h : FirstRound setup s₀ work todo s) : s.RegistryClosed := by
  intro k o ho
  obtain ⟨-, -, -, x, -, -, hx, -⟩ := h.registered k o ho
  exact ⟨x, hx⟩

/-- Two keys have two parameters. -/
theorem FirstRound.key_injective {work : List PendingType} {todo : List TypePlan}
    (hs₀ : Declared setup s₀) (hall : setup.types = work.map Prod.fst ++ todo)
    (h : FirstRound setup s₀ work todo s) {k k' : GenericKey} {o : GenericHandle}
    (hk : s.registry.get? k = some o) (hk' : s.registry.get? k' = some o) : k = k' := by
  obtain ⟨e, he, g, x, hfirst, -, hx, hmade⟩ := h.registered k o hk
  obtain ⟨e', he', g', y, hfirst', -, hy, hmade'⟩ := h.registered k' o hk'
  obtain rfl := Option.some.inj (hx.symm.trans hy)
  have hplanned {e : PendingType} (he : e ∈ work) : e.1 ∈ setup.types := by
    rw [hall]
    exact List.mem_append_left _ (List.mem_map_of_mem he)
  rw [← (Setup.of_firstAmong? hfirst).2, ← (Setup.of_firstAmong? hfirst').2]
  exact Setup.key_eq_of_madeFor hs₀.nodup (hplanned he) (hplanned he') hmade hmade'

theorem RecordsOwners.start (hs : Declared setup s) : RecordsOwners setup [] s := by
  intro k o ho
  rw [hs.registry] at ho
  simp [GenericRegistry.get?] at ho

/-- A type that is processed becomes the last owner of all parameters whose keys it declares. -/
theorem RecordsOwners.step (hs₀ : Declared setup s₀) {work : List PendingType} {p : TypePlan}
    {todo : List TypePlan} {pending : Array PendingGeneric}
    (hall : setup.types = work.map Prod.fst ++ p :: todo)
    (hs : FirstRound setup s₀ work (p :: todo) s)
    (howners : RecordsOwners setup (work.map Prod.fst) s)
    (hrun : (setup.declareTypeGenerics p).Yields s pending s') :
    RecordsOwners setup (work.map Prod.fst ++ [p]) s' := by
  have hs' := hs.step hs₀ hall hrun
  obtain ⟨h, _, hlink, ht, d, rfl⟩ := hs.untouched p List.mem_cons_self
  have henrols := enrols_declareTypeGenerics hs.closed hlink ht rfl hrun
  obtain ⟨objects, s₁, hregisters, hchange⟩ := yields_declareTypeGenerics hlink ht rfl hrun
  rw [hs.key_eq p] at henrols hregisters
  have hregistry : s'.registry = s₁.registry := hchange.registry
  intro k o ho
  -- owners before this type
  have hbefore : (s.ownersOf o).toList =
      ((work.map Prod.fst).filter (setup.declares k)).map fun p => .type p.token := by
    cases hk : s.registry.get? k with
    | some o' =>
      have hstill : s'.registry.get? k = some o' := by
        rw [hregistry]
        exact hregisters.registry k o' hk
      obtain rfl := Option.some.inj (hstill.symm.trans ho)
      exact howners k o' hk
    | none =>
      -- the parameter is new, and none of the types before declares its key
      obtain ⟨g, -, hpending, -⟩ := hregisters.made k o hk (hregistry ▸ ho)
      rw [BuildState.ownersOf_of_none (hregisters.fresh _ hpending).1,
        List.filter_eq_nil_iff.mpr]
      · rfl
      · intro q hq
        rw [Setup.not_declares_of_firstAmong? (hs.complete k hk) q hq]
        exact Bool.false_ne_true
  rw [List.filter_append, List.map_append, ← hbefore]
  cases hdeclares : setup.declares k p with
  | true =>
    obtain ⟨g, hg, rfl⟩ := Setup.declares_iff.mp hdeclares
    have hnew : ¬ (s.ownersOf o).contains (.type p.token) = true := by
      rw [Array.contains_iff_mem, ← Array.mem_toList_iff, hbefore, List.mem_map]
      rintro ⟨q, hq, heq⟩
      have hnodup := hs₀.nodup
      rw [hall] at hnodup
      exact ne_of_nodup_map hnodup (.inl (List.mem_of_mem_filter hq)) (GenericOwner.type.inj heq)
    rw [henrols.listed g hg o ho, enrol, if_neg hnew, Array.toList_push,
      List.filter_cons_of_pos hdeclares]
    rfl
  | false =>
    rw [henrols.others o, List.filter_cons_of_neg (by simp [hdeclares])]
    · simp
    · intro g hg hheld
      have hkey := hs'.key_injective hs₀ (by simp [hall]) hheld ho
      rw [Setup.declares_iff.mpr ⟨g, hg, hkey⟩] at hdeclares
      cases hdeclares

/-- Behind the pass the owners of a parameter are the types that declare its key, in order. -/
theorem recordsOwners_of_yields (hresolver : setup.resolver = Resolver.default)
    (hs : Declared setup s) (hrun : setup.configureHierarchy.Yields s () s') :
    RecordsOwners setup setup.types s' := by
  obtain ⟨_, made, s₁, s₂, rfl, hfirst, hsecond, rfl⟩ := yields_configureHierarchy.mp hrun
  have hs := hs.of_notices
    (s.notices.push (.configuring setup.types.length setup.blueprint.module))
  obtain ⟨hall, hround, howners₁⟩ := registerTypes_induction
    (fun work todo s' =>
      FirstRound setup _ work todo s' ∧ RecordsOwners setup (work.map Prod.fst) s')
    ⟨FirstRound.start hs, RecordsOwners.start hs⟩
    (fun work p todo pending s s' hsplit hI hstep => by
      refine ⟨hI.1.step hs hsplit hstep, ?_⟩
      rw [List.map_append]
      exact RecordsOwners.step hs hsplit hI.1 hI.2 hstep) hfirst
  rw [hall] at howners₁
  -- the second round touches neither the registry nor an owner
  have howners₂ := Build.forM_induction
    (fun done todo s => SecondRound setup _ done todo s ∧ RecordsOwners setup setup.types s)
    ⟨hround.next hall, howners₁⟩ (fun done e todo s s' hsplit hI hstep => by
      have hstep := Setup.yields_inContext.mp hstep
      refine ⟨hI.1.step hresolver hs (hsplit ▸ hall) hstep, ?_⟩
      obtain ⟨h, _, hlink, ht, d, listed, rfl, -⟩ := hI.1.waiting e List.mem_cons_self
      have hnodup := hI.1.nodup
      rw [List.flatMap_append, List.flatMap_cons, List.nodup_append, List.nodup_append] at hnodup
      obtain ⟨s₁, base, interfaces, hconstrains, -, -, -, hchange⟩ :=
        yields_configure hresolver hlink ht rfl hnodup.2.1.1 hstep
      intro k o ho
      rw [hchange.registry, hconstrains.registry] at ho
      have hsame : s'.ownersOf o = s.ownersOf o := by
        rw [← hconstrains.owners o, BuildState.ownersOf, BuildState.ownersOf, hchange.generics]
      rw [hsame]
      exact hI.2 k o ho) hsecond
  exact howners₂.2

end Pass

end ClrImage
