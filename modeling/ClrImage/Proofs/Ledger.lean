import ClrImage.Proofs.Owners
import ClrImage.Proofs.Publication
import Mathlib.Algebra.BigOperators.Group.Finset.Piecewise
import Mathlib.Algebra.GroupWithZero.Nat

/-!
# The ledger of owners

A parameter is registered once, under one key, and it records every container that declares its key.
Only registration writes into this ledger. This module says what registration does to it and that no
other step of a build touches it, whatever its outcome and whatever the resolver.

- `SameOwners`: parameters are registered and owned as before, and no sharing has been told.
- `SameListings`, `SameLists`: types and methods list what they listed before; neither lists nor
  owners have changed.
- `DeclareEffect`: what registering one planned parameter does.
- `Ledger`: registry, owners and notices agree. A parameter has one key, its owners are distinct,
  the first of them is the one that made it, and each further one has been told.
- `Ledger.declareGenerics`: registering the parameters of a container keeps the ledger.
- `Ledger.sharings_eq`: sharing has been told once for each owner beyond the first.
-/

namespace ClrImage

/-! ## Steps that leave owners alone -/

/-- How often sharing has been told. -/
def BuildState.sharings (s : BuildState) : Nat := s.notices.countP Notice.tellsSharing

/-- The part of a parameter that the ledger speaks of. -/
def GenericParam.standing (x : GenericParam) : GenericOwner × Array GenericOwner :=
  (x.declaredBy, x.owners)

/-- Parameters are registered and owned as before, and no sharing has been told. -/
structure SameOwners (s s' : BuildState) : Prop where
  registry : s'.registry = s.registry
  size : s'.store.generics.size = s.store.generics.size
  params : ∀ h, (s'.store.generics.get? h).map GenericParam.standing =
    (s.store.generics.get? h).map GenericParam.standing
  sharings : s'.sharings = s.sharings

namespace SameOwners

variable {s s₁ s' : BuildState}

theorem refl (s : BuildState) : SameOwners s s := ⟨rfl, rfl, fun _ => rfl, rfl⟩

theorem trans (h₁ : SameOwners s s₁) (h₂ : SameOwners s₁ s') : SameOwners s s' :=
  ⟨h₂.registry.trans h₁.registry, h₂.size.trans h₁.size,
    fun h => (h₂.params h).trans (h₁.params h), h₂.sharings.trans h₁.sharings⟩

instance : IsPreorder BuildState SameOwners where
  refl := refl
  trans _ _ _ := trans

theorem of_eq (registry : s'.registry = s.registry)
    (generics : s'.store.generics = s.store.generics) (notices : s'.notices = s.notices) :
    SameOwners s s' :=
  ⟨registry, by rw [generics], fun h => by rw [generics],
    by unfold BuildState.sharings; rw [notices]⟩

theorem ownersOf (h : SameOwners s s') (g : GenericHandle) : s'.ownersOf g = s.ownersOf g := by
  have hparams := congrArg (Option.map Prod.snd) (h.params g)
  rw [Option.map_map, Option.map_map] at hparams
  exact congrArg (Option.getD · #[]) hparams

theorem exists_iff (h : SameOwners s s') (g : GenericHandle) :
    (∃ x, s'.store.generics.get? g = some x) ↔ ∃ x, s.store.generics.get? g = some x := by
  rw [← Option.isSome_iff_exists, ← Option.isSome_iff_exists,
    ← Option.isSome_map (f := GenericParam.standing), h.params g, Option.isSome_map]

end SameOwners

/-- The token of a type and the parameters that it lists. -/
def BuildState.listing (s : BuildState) (h : TypeHandle) : Option (Token × Array GenericHandle) :=
  (s.store.types.get? h).map fun t => (t.token, t.generics)

/-- Types and methods list what they listed before, under the same tokens. -/
structure SameListings (s s' : BuildState) : Prop where
  listing : s'.listing = s.listing
  methods : s'.store.methods = s.store.methods
  linkedTypes : s'.links.types = s.links.types
  linkedMethods : s'.links.methods = s.links.methods

theorem SameListings.trans {s s₁ s' : BuildState} (h₁ : SameListings s s₁)
    (h₂ : SameListings s₁ s') : SameListings s s' :=
  ⟨h₂.listing.trans h₁.listing, h₂.methods.trans h₁.methods,
    h₂.linkedTypes.trans h₁.linkedTypes, h₂.linkedMethods.trans h₁.linkedMethods⟩

/-- Neither owners nor lists have changed. -/
structure SameLists (s s' : BuildState) : Prop extends SameOwners s s', SameListings s s'

namespace SameLists

variable {s s₁ s' : BuildState}

theorem refl (s : BuildState) : SameLists s s := ⟨.refl s, rfl, rfl, rfl, rfl⟩

theorem trans (h₁ : SameLists s s₁) (h₂ : SameLists s₁ s') : SameLists s s' :=
  ⟨h₁.toSameOwners.trans h₂.toSameOwners, h₁.toSameListings.trans h₂.toSameListings⟩

instance : IsPreorder BuildState SameLists where
  refl := refl
  trans _ _ _ := trans

end SameLists

theorem keeps_notice_sameLists {n : Notice} (hn : n.tellsSharing = false) :
    Build.Keeps SameLists (Build.notice n) :=
  Build.Keeps.modify fun s => by
    refine ⟨⟨rfl, rfl, fun _ => rfl, ?_⟩, rfl, rfl, rfl, rfl⟩
    simp [BuildState.sharings, hn]

/-- A change of a parameter that keeps its owners. -/
theorem keeps_modifyGeneric_sameLists (h : GenericHandle) {f : GenericParam → GenericParam}
    (hf : ∀ x, (f x).standing = x.standing) : Build.Keeps SameLists (Build.modifyGeneric h f) := by
  refine Build.Keeps.modify fun s =>
    ⟨⟨rfl, Arena.size_modify _ h f, fun g => ?_, rfl⟩, rfl, rfl, rfl, rfl⟩
  rw [Arena.get?_modify]
  split
  · rw [Option.map_map]
    exact congrArg (Option.map · _) (funext hf)
  · rfl

/-- A change of a type that keeps its token and its list of parameters. -/
theorem keeps_modifyType_sameLists (h : TypeHandle) {f : TypeDef → TypeDef}
    (htoken : ∀ t, (f t).token = t.token) (hgenerics : ∀ t, (f t).generics = t.generics) :
    Build.Keeps SameLists (Build.modifyType h f) := by
  refine Build.Keeps.modify fun s => ⟨.of_eq rfl rfl rfl, funext fun g => ?_, rfl, rfl, rfl⟩
  unfold BuildState.listing
  rw [Arena.get?_modify]
  split
  · rw [Option.map_map]
    exact congrArg (Option.map · _) (funext fun t => Prod.ext (htoken t) (hgenerics t))
  · rfl

/-- So does making members other than methods. -/
instance : AllowsMaking SameLists where
  notice _ hn := keeps_notice_sameLists hn
  allocField _ := Build.Keeps.modifyGet fun _ => ⟨.of_eq rfl rfl rfl, rfl, rfl, rfl, rfl⟩
  allocParam _ := Build.Keeps.modifyGet fun _ => ⟨.of_eq rfl rfl rfl, rfl, rfl, rfl, rfl⟩
  allocProperty _ :=
    Build.Keeps.modifyGet fun _ => ⟨.of_eq rfl rfl rfl, rfl, rfl, rfl, rfl⟩
  allocEvent _ := Build.Keeps.modifyGet fun _ => ⟨.of_eq rfl rfl rfl, rfl, rfl, rfl, rfl⟩

section Steps

variable {setup : Setup}

theorem keeps_managed {R : BuildState → BuildState → Prop} [IsPreorder BuildState R]
    (p : TypePlan) : Build.Keeps R (Build.managed p) := by
  unfold Build.managed
  refine Build.Keeps.bind Build.Keeps.get fun _ => ?_
  split
  · exact Build.Keeps.pure _
  · exact Build.Keeps.throw _

/-- Looking a type up changes nothing. -/
theorem keeps_managedType {R : BuildState → BuildState → Prop} [IsPreorder BuildState R]
    {p : TypePlan} : Build.Keeps R (Build.managedType p) := by
  intro s
  rw [Build.outcome_managedType_snd]
  exact refl_of R s

/-- A failure that is told in the context of a type changes no list. -/
theorem Build.Keeps.inContext {α : Type} {R : BuildState → BuildState → Prop}
    [IsPreorder BuildState R] (hR : ∀ s s', SameLists s s' → R s s') {phase : Phase} {p : TypePlan}
    {step : Build α} (h : Build.Keeps R step) : Build.Keeps R (setup.inContext phase p step) :=
  Setup.keeps_inContext (fun _ => (keeps_notice_sameLists rfl).mono hR) h

theorem keeps_constrainGenerics_sameLists (topLevel : Token) (pending : Array PendingGeneric) :
    Build.Keeps SameLists (setup.constrainGenerics topLevel pending) := by
  refine Build.Keeps.forM (fun item => Build.Keeps.bind ?_ fun _ => ?_) _
  · refine Build.Keeps.forM (fun c => ?_) _
    exact Build.Keeps.bind (keeps_resolve topLevel c) fun _ =>
      keeps_modifyGeneric_sameLists item.param fun _ => rfl
  · exact keeps_modifyGeneric_sameLists item.param fun _ => rfl

/-- Setting a base changes no list. -/
theorem keeps_configureBase_sameLists (topLevel : Token) (h : TypeHandle) (r : TypeRef) :
    Build.Keeps SameLists (setup.configureBase topLevel h r) := by
  refine Build.Keeps.bind (keeps_resolve topLevel r) fun sig s => ?_
  rw [Build.outcome_bind, Build.outcome_get]
  dsimp only
  rw [Build.outcome_bind, Build.outcome_liftExcept]
  rcases hset : s.store.setBase h sig with e | store
  · exact .refl s
  unfold Store.setBase at hset
  split at hset
  next =>
    obtain rfl := Except.ok.inj hset
    exact .refl s
  next =>
    split at hset
    next => cases hset
    next =>
      obtain rfl := Except.ok.inj hset
      exact keeps_modifyType_sameLists (f := fun t => { t with base := some sig }) h
        (fun _ => rfl) (fun _ => rfl) s

/-- Telling of a configured type only tells. -/
theorem keeps_noticeConfigured_sameLists (h : TypeHandle) :
    Build.Keeps SameLists (Setup.noticeConfigured h) := by
  unfold Setup.noticeConfigured
  refine Build.Keeps.bind Build.Keeps.get fun s => ?_
  split
  · exact Build.Keeps.pure ()
  · exact keeps_notice_sameLists rfl

/-- Configuring a type changes no list. -/
theorem keeps_configure_sameLists (p : TypePlan) (pending : Array PendingGeneric) :
    Build.Keeps SameLists (setup.configure p pending) := by
  unfold Setup.configure
  refine Build.Keeps.bind keeps_managedType fun entry => ?_
  dsimp only
  split
  · exact keeps_notice_sameLists rfl
  refine Build.Keeps.bind (keeps_constrainGenerics_sameLists _ _) fun _ => ?_
  refine Build.Keeps.bind ?_ fun _ => ?_
  · cases p.base with
    | none => exact Build.Keeps.pure ()
    | some r => exact keeps_configureBase_sameLists _ entry.1 r
  refine Build.Keeps.bind (Build.Keeps.forM (fun r => ?_) _) fun _ => ?_
  · exact Build.Keeps.bind (keeps_resolve _ r) fun _ =>
      keeps_modifyType_sameLists entry.1 (fun _ => rfl) fun _ => rfl
  exact Build.Keeps.bind (keeps_modifyType_sameLists entry.1 (fun _ => rfl) fun _ => rfl)
    fun _ => keeps_noticeConfigured_sameLists entry.1

end Steps

/-! ## Registering one parameter -/

section Declare

variable {key : GenericKey} {owner : GenericOwner} {g : GenericPlan} {s s' : BuildState}

/-- A further owner of a parameter that is registered. -/
structure Joins (key : GenericKey) (owner : GenericOwner) (s s' : BuildState) : Prop where
  registry : s'.registry = s.registry
  size : s'.store.generics.size = s.store.generics.size
  sharings : s'.sharings = s.sharings + 1
  joined : ∃ h x, s.registry.get? key = some h ∧ s.store.generics.get? h = some x ∧
    owner ∉ x.owners ∧ ∀ o, s'.store.generics.get? o =
      if o = h then some { x with owners := x.owners.push owner } else s.store.generics.get? o

/-- A new parameter with its first owner. -/
structure Founds (key : GenericKey) (owner : GenericOwner) (g : GenericPlan)
    (s s' : BuildState) : Prop where
  scope : s'.registry.scope = s.registry.scope
  free : s.registry.get? key = none
  registry : ∀ k, s'.registry.get? k =
    if k = key then some s.store.generics.next else s.registry.get? k
  size : s'.store.generics.size = s.store.generics.size + 1
  sharings : s'.sharings = s.sharings
  generics : ∀ h, s'.store.generics.get? h =
    if h = s.store.generics.next then
      some { index := g.index, number := g.number, name := g.name, flags := g.flags
             declaredBy := owner, owners := #[owner] }
    else s.store.generics.get? h

/-- What registering a planned parameter does: nothing if the owner is recorded already, and
otherwise it adds an owner or a parameter. -/
inductive DeclareEffect (key : GenericKey) (owner : GenericOwner) (g : GenericPlan)
    (s s' : BuildState) : Prop
  | known {h : GenericHandle} {x : GenericParam} (registered : s.registry.get? key = some h)
      (object : s.store.generics.get? h = some x) (owned : owner ∈ x.owners) (same : s' = s)
  | joins (effect : Joins key owner s s')
  | founds (effect : Founds key owner g s s')

section Runs

variable {topLevel : Token} {acc out : Array GenericHandle × Array PendingGeneric}
  (hrun : (Setup.declareGeneric owner topLevel acc g).Yields s out s')
include hrun

/-- Under a key that is held, the owner is recorded unless it has been before. -/
theorem declareGeneric_effect_of_some {held : GenericHandle} {x : GenericParam}
    (hheld : s.registry.get? (s.registry.key g.index topLevel) = some held)
    (hx : s.store.generics.get? held = some x) (hfirst : x.owners[0]? = some x.declaredBy) :
    DeclareEffect (s.registry.key g.index topLevel) owner g s s' := by
  unfold Setup.declareGeneric at hrun
  rw [Build.yields_get_bind] at hrun
  obtain ⟨⟨h, isNew⟩, s₁, hregister, hrun⟩ := Build.yields_bind.mp hrun
  obtain ⟨heq, rfl⟩ := (registerGeneric_of_some hheld owner g).unique hregister
  obtain ⟨rfl, rfl⟩ := Prod.mk.inj heq
  obtain ⟨_, s₂, hadd, hrest⟩ := Build.yields_bind.mp hrun
  rw [if_neg Bool.false_ne_true] at hrest
  obtain ⟨-, rfl⟩ := Build.yields_pure.mp hrest
  unfold Build.addOwner at hadd
  simp only [Build.yields_get_bind, hx] at hadd
  split at hadd
  next howned =>
    obtain ⟨-, rfl⟩ := Build.yields_pure.mp hadd
    exact .known hheld hx (Array.contains_iff_mem.mp howned) rfl
  next hnew =>
    obtain ⟨_, s₃, hmodify, htell⟩ := Build.yields_bind.mp hadd
    obtain rfl := Build.yields_modify.mp hmodify
    obtain ⟨hnonempty, -⟩ := Array.getElem?_eq_some_iff.mp hfirst
    rw [if_pos hnonempty] at htell
    obtain rfl := Build.yields_modify.mp htell
    refine .joins ⟨rfl, Arena.size_modify _ _ _, ?_, held, x, hheld, hx, ?_, fun o => ?_⟩
    · simp [BuildState.sharings, Array.countP_push, Notice.tellsSharing]
    · exact fun hmem => hnew (Array.contains_iff_mem.mpr hmem)
    · rw [Arena.get?_modify]
      split
      next ho => rw [ho, hx]; rfl
      next => rfl

/-- Under a key that is free, a parameter is made with the owner as its only one. -/
theorem founds_of_declareGeneric
    (hfree : s.registry.get? (s.registry.key g.index topLevel) = none) :
    Founds (s.registry.key g.index topLevel) owner g s s' := by
  unfold Setup.declareGeneric at hrun
  rw [Build.yields_get_bind] at hrun
  obtain ⟨⟨h, isNew⟩, s₁, hregister, hrun⟩ := Build.yields_bind.mp hrun
  obtain ⟨heq, rfl⟩ := (registerGeneric_of_none hfree owner g).unique hregister
  obtain ⟨rfl, rfl⟩ := Prod.mk.inj heq
  obtain ⟨_, s₂, hadd, hrest⟩ := Build.yields_bind.mp hrun
  rw [if_pos rfl] at hrest
  obtain ⟨_, s₃, htold, hpure⟩ := Build.yields_bind.mp hrest
  obtain ⟨-, rfl⟩ := Build.yields_pure.mp hpure
  obtain rfl := Build.yields_modify.mp htold
  unfold Build.addOwner at hadd
  simp only [Build.yields_get_bind, Arena.get?_alloc_next] at hadd
  -- a new parameter has no owner yet, so nothing is told of sharing
  rw [if_neg (by simp [GenericParam.isOwnedBy])] at hadd
  obtain ⟨_, s₄, hmodify, htell⟩ := Build.yields_bind.mp hadd
  obtain rfl := Build.yields_modify.mp hmodify
  obtain ⟨-, rfl⟩ := Build.yields_pure.mp htell
  refine ⟨rfl, hfree, fun k => GenericRegistry.get?_offer_of_none hfree _ k, ?_, ?_, fun o => ?_⟩
  · simp
  · simp [BuildState.sharings, Notice.tellsSharing]
  · rw [Arena.get?_modify, Arena.get?_alloc]
    split
    next => rfl
    next => rfl

/-- Registering a planned parameter has one of these effects. -/
theorem declareGeneric_effect (hclosed : s.RegistryClosed)
    (hfirst : ∀ h x, s.store.generics.get? h = some x → x.owners[0]? = some x.declaredBy) :
    DeclareEffect (s.registry.key g.index topLevel) owner g s s' := by
  cases hheld : s.registry.get? (s.registry.key g.index topLevel) with
  | none => exact .founds (founds_of_declareGeneric hrun hheld)
  | some held =>
    obtain ⟨x, hx⟩ := hclosed _ held hheld
    exact declareGeneric_effect_of_some hrun hheld hx (hfirst held x hx)

end Runs

end Declare

/-! ## The ledger -/

/-- The number of owners of all parameters together. -/
def BuildState.ownerships (s : BuildState) : Nat :=
  ∑ i ∈ Finset.range s.store.generics.size, (s.ownersOf ⟨i⟩).size

/-- Registry, owners and notices agree. The owners of a parameter are such as `may` allows under its
key. -/
structure Ledger (may : GenericKey → GenericOwner → Prop) (s : BuildState) : Prop where
  closed : s.RegistryClosed
  injective : ∀ k k' h, s.registry.get? k = some h → s.registry.get? k' = some h → k = k'
  registered : ∀ i < s.store.generics.size, ∃ k, s.registry.get? k = some ⟨i⟩
  allowed : ∀ k h, s.registry.get? k = some h → ∀ o ∈ s.ownersOf h, may k o
  nodup : ∀ h, (s.ownersOf h).toList.Nodup
  first : ∀ h x, s.store.generics.get? h = some x → x.owners[0]? = some x.declaredBy
  told : s.sharings + s.store.generics.size = s.ownerships

theorem Arena.index_lt_size {k : ObjectKind} {α : Type} {a : Arena k α} {h : Handle k} {x : α}
    (hx : a.get? h = some x) : h.index < a.size := by
  by_contra hge
  rw [Arena.get?, Array.getElem?_eq_none (Nat.le_of_not_lt hge)] at hx
  cases hx

section Counting

variable {key : GenericKey} {owner : GenericOwner} {g : GenericPlan} {s s' : BuildState}

/-- One more owner is recorded, of one parameter. -/
theorem Joins.ownerships (h : Joins key owner s s') : s'.ownerships = s.ownerships + 1 := by
  obtain ⟨g, x, -, hx, -, hgenerics⟩ := h.joined
  have hone (i : Nat) : (s'.ownersOf ⟨i⟩).size =
      (s.ownersOf ⟨i⟩).size + if i = g.index then 1 else 0 := by
    unfold BuildState.ownersOf
    rw [hgenerics]
    by_cases hi : i = g.index
    · subst hi
      simp [hx]
    · rw [if_neg, if_neg hi, Nat.add_zero]
      rintro rfl
      exact hi rfl
  unfold BuildState.ownerships
  simp only [h.size, hone, Finset.sum_add_distrib, Finset.sum_ite_eq', Finset.mem_range,
    Arena.index_lt_size hx, if_true]

theorem Founds.ownersOf (h : Founds key owner g s s') (o : GenericHandle) :
    s'.ownersOf o = if o = s.store.generics.next then #[owner] else s.ownersOf o := by
  unfold BuildState.ownersOf
  rw [h.generics]
  split <;> rfl

/-- The new parameter has one owner. -/
theorem Founds.ownerships (h : Founds key owner g s s') : s'.ownerships = s.ownerships + 1 := by
  have hlast : s'.ownersOf ⟨s.store.generics.size⟩ = #[owner] := (h.ownersOf _).trans (if_pos rfl)
  unfold BuildState.ownerships
  rw [h.size, Finset.sum_range_succ, hlast]
  refine congrArg (· + 1) (Finset.sum_congr rfl fun i hi => ?_)
  rw [h.ownersOf, if_neg]
  intro heq
  have hsize : i = s.store.generics.size := congrArg Handle.index heq
  exact Nat.ne_of_lt (Finset.mem_range.mp hi) hsize

end Counting

namespace Ledger

variable {may : GenericKey → GenericOwner → Prop} {s s' : BuildState}

/-- Every parameter is registered. -/
theorem names (hs : Ledger may s) {h : GenericHandle} {x : GenericParam}
    (hx : s.store.generics.get? h = some x) : ∃ k, s.registry.get? k = some h :=
  hs.registered h.index (Arena.index_lt_size hx)

theorem sameOwners (hs : Ledger may s) (h : SameOwners s s') : Ledger may s' where
  closed k g hg := by
    rw [h.registry] at hg
    exact (h.exists_iff g).mpr (hs.closed k g hg)
  injective := h.registry ▸ hs.injective
  registered := by
    rw [h.size, h.registry]
    exact hs.registered
  allowed k g hg := by
    rw [h.registry] at hg
    rw [h.ownersOf]
    exact hs.allowed k g hg
  nodup g := by
    rw [h.ownersOf]
    exact hs.nodup g
  first g x hx := by
    have hparams := h.params g
    rw [hx] at hparams
    obtain ⟨y, hy, hstanding⟩ := Option.map_eq_some_iff.mp hparams.symm
    obtain ⟨hdeclaredBy, howners⟩ := Prod.mk.inj hstanding
    rw [← hdeclaredBy, ← howners]
    exact hs.first g y hy
  told := by
    unfold BuildState.ownerships
    simp only [h.sharings, h.size, h.ownersOf]
    exact hs.told

/-- A further owner is told of, so the count stays right. -/
theorem joins {key : GenericKey} {owner : GenericOwner} (hs : Ledger may s) (hmay : may key owner)
    (h : Joins key owner s s') : Ledger may s' := by
  obtain ⟨g, x, hkey, hx, hnew, hgenerics⟩ := h.joined
  have howners (o : GenericHandle) :
      s'.ownersOf o = if o = g then x.owners.push owner else s.ownersOf o := by
    unfold BuildState.ownersOf
    rw [hgenerics]
    split <;> rfl
  have hx' : s.ownersOf g = x.owners := BuildState.ownersOf_of_some hx
  constructor
  case closed =>
    intro k o ho
    rw [h.registry] at ho
    rw [hgenerics]
    split
    · exact ⟨_, rfl⟩
    · exact hs.closed k o ho
  case injective => exact h.registry ▸ hs.injective
  case registered =>
    rw [h.size, h.registry]
    exact hs.registered
  case allowed =>
    intro k o ho owner' hmem
    rw [h.registry] at ho
    rw [howners] at hmem
    split at hmem
    next heq =>
      subst heq
      obtain rfl := hs.injective k key o ho hkey
      rcases Array.mem_push.mp hmem with hold | rfl
      · exact hs.allowed k o ho owner' (hx' ▸ hold)
      · exact hmay
    next => exact hs.allowed k o ho owner' hmem
  case nodup =>
    intro o
    rw [howners]
    split
    · rw [Array.toList_push]
      have hnodup := hs.nodup g
      rw [hx'] at hnodup
      exact List.nodup_append.mpr ⟨hnodup, List.nodup_singleton owner, fun a ha b hb hab =>
        hnew (Array.mem_toList_iff.mp (List.mem_singleton.mp hb ▸ hab ▸ ha))⟩
    · exact hs.nodup o
  case first =>
    intro o y hy
    rw [hgenerics] at hy
    split at hy
    · obtain rfl := Option.some.inj hy
      have hfirst := hs.first g x hx
      obtain ⟨hlt, -⟩ := Array.getElem?_eq_some_iff.mp hfirst
      rw [Array.getElem?_push_lt hlt, ← Array.getElem?_eq_getElem hlt]
      exact hfirst
    · exact hs.first o y hy
  case told =>
    rw [h.sharings, h.size, h.ownerships, ← hs.told]
    omega

/-- A new parameter has one owner, which is not told of. -/
theorem founds {key : GenericKey} {owner : GenericOwner} {g : GenericPlan} (hs : Ledger may s)
    (hmay : may key owner) (h : Founds key owner g s s') : Ledger may s' := by
  have hfresh (k : GenericKey) : s.registry.get? k ≠ some s.store.generics.next := by
    intro hk
    obtain ⟨x, hx⟩ := hs.closed k _ hk
    rw [Arena.get?_next] at hx
    cases hx
  constructor
  case closed =>
    intro k o ho
    rw [h.generics]
    split
    · exact ⟨_, rfl⟩
    next hne =>
      rw [h.registry] at ho
      split at ho
      · exact absurd (Option.some.inj ho).symm hne
      · exact hs.closed k o ho
  case injective =>
    intro k k' o hk hk'
    rw [h.registry] at hk hk'
    split at hk <;> split at hk'
    next hkey hkey' => rw [hkey, hkey']
    next => exact absurd (hk.symm ▸ hk') (hfresh k')
    next => exact absurd (hk'.symm ▸ hk) (hfresh k)
    next => exact hs.injective k k' o hk hk'
  case registered =>
    intro i hi
    rw [h.size] at hi
    by_cases hlast : i = s.store.generics.size
    · exact ⟨key, by rw [h.registry, if_pos rfl, hlast]; rfl⟩
    · obtain ⟨k, hk⟩ := hs.registered i (by omega)
      refine ⟨k, ?_⟩
      rw [h.registry, if_neg, hk]
      rintro rfl
      rw [h.free] at hk
      cases hk
  case allowed =>
    intro k o ho owner' hmem
    rw [h.ownersOf] at hmem
    rw [h.registry] at ho
    split at ho
    next hk =>
      rw [if_pos (Option.some.inj ho).symm] at hmem
      rw [hk, Array.mem_singleton.mp hmem]
      exact hmay
    next =>
      rw [if_neg fun heq : o = s.store.generics.next => hfresh k (heq ▸ ho)] at hmem
      exact hs.allowed k o ho owner' hmem
  case nodup =>
    intro o
    rw [h.ownersOf]
    split
    · exact List.nodup_singleton owner
    · exact hs.nodup o
  case first =>
    intro o x hx
    rw [h.generics] at hx
    split at hx
    · obtain rfl := Option.some.inj hx
      rfl
    · exact hs.first o x hx
  case told => rw [h.sharings, h.size, h.ownerships, ← hs.told, Nat.add_assoc]

/-- Registering a planned parameter keeps the ledger. -/
theorem declareGeneric {owner : GenericOwner} {topLevel : Token}
    {acc out : Array GenericHandle × Array PendingGeneric} {g : GenericPlan}
    (hs : Ledger may s) (hmay : may (s.registry.key g.index topLevel) owner)
    (hrun : (Setup.declareGeneric owner topLevel acc g).Yields s out s') : Ledger may s' := by
  cases declareGeneric_effect hrun hs.closed hs.first with
  | known _ _ _ same => exact same ▸ hs
  | joins effect => exact hs.joins hmay effect
  | founds effect => exact hs.founds hmay effect

/-- So does registering the parameters of a container. -/
theorem declareGenerics {owner : GenericOwner} {topLevel : Token} {listed : Array GenericHandle}
    {params : Array GenericPlan} {out : Array GenericHandle × Array PendingGeneric}
    (hs : Ledger may s)
    (hmay : ∀ g ∈ params.toList, may (s.registry.key g.index topLevel) owner)
    (hrun : (Setup.declareGenerics owner topLevel listed params).Yields s out s') :
    Ledger may s' := by
  unfold Setup.declareGenerics at hrun
  generalize params.toList = rest at hrun hmay
  generalize (listed, (#[] : Array PendingGeneric)) = acc at hrun
  induction rest generalizing s acc with
  | nil =>
    obtain ⟨-, rfl⟩ := Build.yields_pure.mp hrun
    exact hs
  | cons g rest ih =>
    obtain ⟨acc₁, s₁, hfirst, hrest⟩ := Build.yields_foldlM_cons.mp hrun
    have hscope := ((keeps_declareGeneric owner topLevel acc g).of_yields hfirst).registryScope
    refine ih (hs.declareGeneric (hmay g List.mem_cons_self) hfirst) (fun g' hg' => ?_) _ hrest
    rw [GenericRegistry.key_congr hscope]
    exact hmay g' (List.mem_cons_of_mem g hg')

/-- A parameter has one key, so the registry lists it once. -/
theorem nodup_toList (hs : Ledger may s) :
    s.registry.toList.Nodup :=
  WriteOnce.nodup_values hs.injective

/-- The registry lists all parameters. -/
theorem toList_perm (hs : Ledger may s) :
    s.registry.toList.Perm ((List.range s.store.generics.size).map Handle.mk) := by
  refine (List.perm_ext_iff_of_nodup hs.nodup_toList ?_).mpr fun g => ?_
  · exact List.Nodup.map (fun _ _ h => congrArg Handle.index h) List.nodup_range
  · rw [GenericRegistry.mem_toList, List.mem_map]
    constructor
    · rintro ⟨k, hk⟩
      obtain ⟨x, hx⟩ := hs.closed k g hk
      exact ⟨g.index, List.mem_range.mpr (Arena.index_lt_size hx), rfl⟩
    · rintro ⟨i, hi, rfl⟩
      exact hs.registered i (List.mem_range.mp hi)

/-- Every owner beyond the first one of its parameter has been told. -/
theorem sharings_eq (hs : Ledger may s) :
    s.sharings = (s.registry.toList.map fun g => (s.ownersOf g).size - 1).sum := by
  have hpositive : ∀ i ∈ Finset.range s.store.generics.size,
      (s.ownersOf ⟨i⟩).size = (s.ownersOf ⟨i⟩).size - 1 + 1 := by
    intro i hi
    obtain ⟨k, hk⟩ := hs.registered i (Finset.mem_range.mp hi)
    obtain ⟨x, hx⟩ := hs.closed k _ hk
    rw [BuildState.ownersOf_of_some hx]
    obtain ⟨hlt, -⟩ := Array.getElem?_eq_some_iff.mp (hs.first _ x hx)
    omega
  have htold := hs.told
  rw [BuildState.ownerships, Finset.sum_congr rfl hpositive, Finset.sum_add_distrib,
    ← Finset.card_eq_sum_ones, Finset.card_range] at htold
  rw [(hs.toList_perm.map _).sum_eq, List.map_map]
  exact Nat.add_right_cancel htold

end Ledger

/-! ## The owners of a container's parameters -/

theorem mem_enrol {owner o : GenericOwner} {owners : Array GenericOwner} :
    o ∈ enrol owner owners ↔ o ∈ owners ∨ o = owner := by
  unfold enrol
  split
  next h =>
    refine ⟨.inl, ?_⟩
    rintro (hold | rfl)
    · exact hold
    · exact Array.contains_iff_mem.mp h
  next => exact Array.mem_push

/-- The parameters that a container's keys name get the container as an owner, and nothing else
about owners changes. -/
theorem mem_ownersOf_declareGenerics {owner : GenericOwner} {topLevel : Token}
    {listed : Array GenericHandle} {params : Array GenericPlan}
    {out : Array GenericHandle × Array PendingGeneric} {s s' : BuildState}
    (hclosed : s.RegistryClosed)
    (hrun : (Setup.declareGenerics owner topLevel listed params).Yields s out s')
    {o : GenericOwner} {h : GenericHandle} :
    o ∈ s'.ownersOf h ↔ o ∈ s.ownersOf h ∨ (o = owner ∧ ∃ g ∈ params.toList,
      s'.registry.get? (s'.registry.key g.index topLevel) = some h) := by
  have henrols := enrols_declareGenerics hclosed hrun
  have hscope := ((keeps_declareGenerics owner topLevel listed params).of_yields hrun).registryScope
  simp only [GenericRegistry.key_congr hscope]
  by_cases hmine : ∃ g ∈ params.toList,
      s'.registry.get? (s.registry.key g.index topLevel) = some h
  · obtain ⟨g, hg, hheld⟩ := hmine
    rw [henrols.listed g hg h hheld, mem_enrol]
    exact or_congr_right (and_iff_left ⟨g, hg, hheld⟩).symm
  · rw [henrols.others h fun g hg hheld => hmine ⟨g, hg, hheld⟩]
    exact (or_iff_left fun hnew => hmine hnew.2).symm

/-- A container lists exactly the parameters that its keys name, behind those that it listed
before. -/
theorem mem_listed_declareGenerics {owner : GenericOwner} {topLevel : Token}
    {listed : Array GenericHandle} {params : Array GenericPlan}
    {out : Array GenericHandle × Array PendingGeneric} {s s' : BuildState}
    (hrun : (Setup.declareGenerics owner topLevel listed params).Yields s out s')
    {h : GenericHandle} :
    h ∈ out.1 ↔ h ∈ listed ∨ ∃ g ∈ params.toList,
      s'.registry.get? (s'.registry.key g.index topLevel) = some h := by
  obtain ⟨objects, pending, s₁, hdeclare, hregisters⟩ :=
    declareGenerics_registers owner topLevel listed params s
  obtain ⟨rfl, rfl⟩ := hdeclare.unique hrun
  rw [mem_foldl_listOnce]
  refine or_congr_right ⟨fun hmem => ?_, fun ⟨g, hg, hheld⟩ => ?_⟩
  · obtain ⟨g, hg, hheld⟩ := exists_of_forall₂ hregisters.objects_eq.flip hmem
    exact ⟨g, hg, by rw [GenericRegistry.key_congr hregisters.scope, hheld]⟩
  · obtain ⟨o, ho, hheld'⟩ := exists_of_forall₂ hregisters.objects_eq hg
    rw [GenericRegistry.key_congr hregisters.scope] at hheld
    obtain rfl := Option.some.inj (hheld.symm.trans hheld')
    exact ho

/-! ## Publishing -/

theorem keeps_allocMethod_sameOwners (d : MethodDef) :
    Build.Keeps SameOwners (Build.allocMethod d) :=
  Build.Keeps.modifyGet fun _ => .of_eq rfl rfl rfl

/-- Publishing one member changes no owner, also if it fails. -/
theorem keeps_publishOne_sameOwners {k : ObjectKind} (K : MemberKind k) (type : TypeHandle)
    (e : Token × Handle k) : Build.Keeps SameOwners (K.publish type e) :=
  Build.Keeps.bind Build.Keeps.get fun _ =>
    Build.Keeps.bind (Build.Keeps.liftExcept _) fun _ =>
      Build.Keeps.bind (Build.Keeps.modify fun _ => .of_eq rfl rfl rfl) fun _ =>
        Build.Keeps.modify fun _ => .of_eq rfl rfl rfl

/-- Nor does publishing the members of all kinds. -/
theorem keeps_publish_sameOwners (type : TypeHandle) (staged : Staged) :
    Build.Keeps SameOwners (Build.publish type staged) := by
  rw [publish_eq]
  refine Build.Keeps.bind Build.Keeps.get fun s => ?_
  split
  · exact Build.Keeps.throw _
  · exact Build.Keeps.bind (Build.Keeps.forM (keeps_publishOne_sameOwners _ type) _) fun _ =>
      Build.Keeps.bind (Build.Keeps.forM (keeps_publishOne_sameOwners _ type) _) fun _ =>
        Build.Keeps.bind (Build.Keeps.forM (keeps_publishOne_sameOwners _ type) _) fun _ =>
          Build.Keeps.forM (keeps_publishOne_sameOwners _ type) _

theorem keeps_noticePopulated_sameLists (h : TypeHandle) :
    Build.Keeps SameLists (Build.noticePopulated h) := by
  unfold Build.noticePopulated
  refine Build.Keeps.bind Build.Keeps.get fun s => ?_
  split
  · exact Build.Keeps.pure ()
  · exact keeps_notice_sameLists rfl

end ClrImage
