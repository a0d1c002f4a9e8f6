import ClrImage.Proofs.HierarchyOrder
import ClrImage.Proofs.LockStepPopulation

/-!
# A type's turn

When the members of independent types are made, the state in which a type's turn comes depends on
the types before it. This module shows that for the type itself all these states are alike: any two
of them make a `Twin`, so the type is populated alike in both, and leaves alone whatever the others
depend on.

- `BuildState.identity`: the objects of a state, each paired with itself.
- `Ready`: the state behind the hierarchy pass, for independent types.
- `Reached`: a state in which some of the types have been populated, in whatever order.
- `Ready.twin`, `Ready.coupled`: two reached states as starting points for one more type.
- `Reached.step`: that type is populated as it would have been at once.
-/

namespace ClrImage

/-! ## The identity -/

theorem TablePairs.eq {s : BuildState} {k : ObjectKind} {g h : Handle k}
    (hpair : TablePairs s s g h) : g = h := by
  cases k with
  | type =>
    obtain ⟨token, hg, hh⟩ := hpair
    exact Option.some.inj (hg.symm.trans hh)
  | generic =>
    obtain ⟨key, hg, hh⟩ := hpair
    exact Option.some.inj (hg.symm.trans hh)
  | _ => cases hpair

/-- Every object that the tables of a state lead to, paired with itself. -/
def BuildState.identity (s : BuildState) : Pairing where
  pairs := TablePairs s s
  functional hh hh' := hh.eq.symm.trans hh'.eq
  injective hg hg' := hg.eq.trans hg'.eq.symm

theorem BuildState.eq_of_identity {s : BuildState} {k : ObjectKind} {g h : Handle k}
    (hpair : s.identity.pairs g h) : g = h :=
  TablePairs.eq hpair

theorem BuildState.identity_names {s : BuildState} {topLevel : Token} (a : RefAtom)
    (b c : SigAtom) (hb : (s.scope topLevel).Names a b) (hc : (s.scope topLevel).Names a c) :
    s.identity.atom b c := by
  cases a with
  | primitive p =>
    cases b <;> cases c <;> simp only [Scope.Names] at hb hc
    exact hb.symm.trans hc
  | typeDef token =>
    cases b <;> cases c <;> simp only [Scope.Names] at hb hc
    · exact ⟨token, hb.1, hc.1⟩
    · -- one type is not of two flavors
      obtain ⟨hg, t, ht, hclass⟩ := hb
      obtain ⟨hh, u, hu, hvalue⟩ := hc
      obtain rfl := Option.some.inj (hg.symm.trans hh)
      obtain rfl := Option.some.inj (ht.symm.trans hu)
      exact absurd hvalue hclass
    · obtain ⟨hg, t, ht, hvalue⟩ := hb
      obtain ⟨hh, u, hu, hclass⟩ := hc
      obtain rfl := Option.some.inj (hg.symm.trans hh)
      obtain rfl := Option.some.inj (ht.symm.trans hu)
      exact absurd hvalue hclass
    · exact ⟨token, hb.1, hc.1⟩
  | var index =>
    cases b <;> cases c <;> simp only [Scope.Names] at hb hc
    exact ⟨_, hb, hc⟩
  | mvar index =>
    cases b <;> cases c <;> simp only [Scope.Names] at hb hc
    exact ⟨_, hb, hc⟩

theorem BuildState.identity_resolves {s : BuildState} {topLevel : Token} {rs : List TypeRef}
    {sigs : List Signature} (h : (s.scope topLevel).Resolves rs sigs) :
    List.Forall₂ s.identity.signature sigs sigs := by
  refine forall₂_meet ?_ h h
  intro r sig sig' hsig hsig'
  exact Pairing.signature_of_resolve BuildState.identity_names hsig hsig'

theorem rel_identity {k : ObjectKind} {ρ : Pairing} {held : Option (Handle k)}
    (h : ∀ g, held = some g → ρ.pairs g g) : Option.Rel ρ.pairs held held := by
  cases held with
  | none => exact .none
  | some g => exact .some (h g rfl)

namespace Arranged

variable {setup : Setup} {s : BuildState} (hs : Arranged setup s)
include hs

theorem identity_types :
    s.store.types.Paired s.identity (TypeDef.Same s.identity) s.store.types := by
  intro g h hpair
  obtain rfl := BuildState.eq_of_identity hpair
  obtain ⟨token, hlink, -⟩ := hpair
  obtain ⟨p, -, -, t, ht, -, hbare, hmirrored, hnested⟩ := hs.of_linked hlink
  refine ⟨t, t, ht, ht, ?_⟩
  constructor
  case rest => rfl
  case declaring =>
    rw [hnested]
    refine rel_identity fun g hg => ?_
    obtain ⟨outer, -, houter⟩ := Option.bind_eq_some_iff.mp hg
    exact ⟨outer, houter, houter⟩
  case base =>
    refine rel_meet ?_ hmirrored.base hmirrored.base
    intro r sig sig' hsig hsig'
    exact Pairing.signature_of_resolve BuildState.identity_names hsig hsig'
  case interfaces => exact BuildState.identity_resolves hmirrored.interfaces
  case generics =>
    obtain ⟨objects, hobjects, hlisted⟩ := hmirrored.generics
    rw [hlisted]
    refine Pairing.eraseDups (forall₂_meet (fun d o o' ho ho' => ?_) hobjects hobjects)
    exact ⟨_, ho, ho'⟩
  case fields => rw [hbare.fields]; exact .nil
  case methods => rw [hbare.methods]; exact .nil
  case properties => rw [hbare.properties]; exact .nil
  case events => rw [hbare.events]; exact .nil

theorem identity_generics :
    s.store.generics.Paired s.identity (GenericParam.Same s.identity) s.store.generics := by
  intro g h hpair
  obtain rfl := BuildState.eq_of_identity hpair
  obtain ⟨key, hkey, -⟩ := hpair
  obtain ⟨p, d, x, -, hx, -, hconstrained⟩ := hs.generics key g hkey
  exact ⟨x, x, hx, hx, rfl, BuildState.identity_resolves hconstrained.constraints⟩

/-- Objects of the state hold only handles of objects that its tables lead to. -/
theorem identity_objects (k : ObjectKind) :
    (s.store.arena k).Paired s.identity (Object.Same s.identity k) (s.store.arena k) := by
  cases k with
  | type => exact hs.identity_types
  | generic => exact hs.identity_generics
  | _ => exact nofun

end Arranged

/-! ## The states of a pass -/

/-- The state behind the hierarchy pass over independent types. -/
structure Ready (setup : Setup) (s : BuildState) : Prop extends Arranged setup s where
  resolver : setup.resolver = Resolver.default
  independent : setup.Independent
  distinct : setup.DistinctTokens

/-- Some of the types have been populated. -/
structure Reached (setup : Setup) (s : BuildState) (done : List TypePlan) (b : BuildState) : Prop
    extends Confined setup done s b where
  planned : ∀ q ∈ done, q ∈ setup.types

theorem Reached.start (setup : Setup) (s : BuildState) : Reached setup s [] s :=
  ⟨.refl s, nofun⟩

section Others

variable {setup : Setup} {s b b' : BuildState} {plans : List TypePlan} {p : TypePlan}
  (hs : Ready setup s) (hp : p ∈ setup.types) (hplans : ∀ q ∈ plans, q ∈ setup.types)
  (hnot : p ∉ plans) (h : Confined setup plans b b')
include hplans hnot h

/-- Steps for other types leave a key alone that no other type's method declares. -/
theorem Confined.visible_eq {key : GenericKey} (hkey : setup.VisibleTo p key) :
    b'.registry.get? key = b.registry.get? key := by
  refine h.otherKeys key fun q hq => hkey q (hplans q hq) ?_
  rintro rfl
  exact hnot hq

include hs hp

/-- They leave the tokens of the type's members alone. -/
theorem Confined.member_eq {m : MemberSort} {token : Token} (htoken : token ∈ m.tokens p) :
    (m.places.table b'.links).get? token = (m.places.table b.links).get? token := by
  refine h.otherLinks m token fun q hq hmem => ?_
  have hne : q ≠ p := fun heq => hnot (heq ▸ hq)
  exact hs.distinct.disjoint hp (hplans q hq) hne (MemberSort.mem_tokens htoken)
    (MemberSort.mem_tokens hmem)

/-- They leave the type itself alone. -/
theorem Confined.type_eq (hlinks : b.links.types = s.links.types) {g : TypeHandle}
    (hlink : s.links.types.get? p.token = some g) :
    b'.store.types.get? g = b.store.types.get? g := by
  refine h.otherTypes g fun q hq hlink' => hnot ?_
  rw [hlinks] at hlink'
  have htoken := hs.injective q (hplans q hq) p hp g hlink' hlink
  exact List.inj_on_of_nodup_map hs.nodup (hplans q hq) hp htoken ▸ hq

end Others

namespace Ready

variable {setup : Setup} {s : BuildState} (hs : Ready setup s) {p : TypePlan}
  {done done' : List TypePlan} {b b' : BuildState}

/-- Two states in which the turn of a type may come. -/
def twin (hp : p ∈ setup.types) (hb : Reached setup s done b) (hb' : Reached setup s done' b')
    (hnot : p ∉ done) (hnot' : p ∉ done') : Twin where
  setup := setup
  plan := p
  base := s.identity
  left := b
  right := b'
  resolver := hs.resolver
  independent := hs.independent
  distinct := hs.distinct
  planned := hp
  size := hb'.size.trans hb.size.symm
  frames := hb.frames.symm.trans hb'.frames
  linkedTypes := hb'.linkedTypes.trans hb.linkedTypes.symm
  types g h := by
    constructor
    · intro hpair
      obtain rfl := BuildState.eq_of_identity hpair
      obtain ⟨t, -, ht, -, -⟩ := hs.identity_types g g hpair
      obtain ⟨u, hu, -⟩ := hb.frames.of_some ht
      exact ⟨rfl, u, hu⟩
    · rintro ⟨rfl, u, hu⟩
      obtain ⟨t, ht, -⟩ := hb.frames.symm.of_some hu
      obtain ⟨q, -, hlink⟩ := hs.known g t ht
      exact ⟨q.token, hlink, hlink⟩
  scope := hb.registryScope.trans hs.scope
  scope' := hb'.registryScope.trans hs.scope
  registered key hkey := by
    rw [hb.visible_eq hb.planned hnot hkey, hb'.visible_eq hb'.planned hnot' hkey]
    exact rel_identity fun g hg => ⟨key, hg, hg⟩

/-- Before its turn no parameter of a type's methods is registered. -/
theorem unregistered (hs : Ready setup s) (hp : p ∈ setup.types) {key : GenericKey}
    (hkey : setup.PlansKey p key) : s.registry.get? key = none := by
  rw [Option.eq_none_iff_forall_ne_some]
  intro g hg
  obtain ⟨d, hd, rfl⟩ := (hs.registry key).mp (by rw [hg]; rfl)
  obtain ⟨m, hm, hdeclared⟩ := hkey
  obtain ⟨hq, hplan⟩ := Setup.mem_declarations.mp hd
  have hnone := (hs.independent.separate p hp m hm _ hdeclared).1 d.1 hq
  have hsome : setup.declares (setup.genericKey d.1 d.2) d.1 = true :=
    Setup.declares_iff.mpr ⟨d.2, hplan, rfl⟩
  rw [hnone] at hsome
  cases hsome

/-- Before the pass no member is linked. -/
theorem unlinked (hs : Ready setup s) (m : MemberSort) (token : Token) :
    (m.places.table s.links).get? token = none := by
  rw [hs.links]
  cases m <;> exact WriteOnce.get?_empty token

/-- Two states in which the turn of a type may come are coupled. -/
theorem coupled (hp : p ∈ setup.types) (hb : Reached setup s done b)
    (hb' : Reached setup s done' b') (hnot : p ∉ done) (hnot' : p ∉ done') :
    (hs.twin hp hb hb' hnot hnot').Coupled s.identity b b' where
  base := le_refl s.identity
  left := .refl b
  right := .refl b'
  new _ _ hpair := .inl hpair
  objects k hk g h hpair := by
    obtain ⟨x, y, hx, hy, hsame⟩ := hs.identity_objects k g h hpair
    exact ⟨x, y, hb.get?_eq hk hx, hb'.get?_eq hk hy, hsame⟩
  registered key hkey := by
    have hvisible := hs.independent.own_visible hs.distinct hp hkey
    rw [hb.visible_eq hb.planned hnot hvisible, hb'.visible_eq hb'.planned hnot' hvisible,
      hs.unregistered hp hkey]
    exact .none
  linked m token htoken := by
    rw [hb.member_eq hs hp hb.planned hnot htoken, hb'.member_eq hs hp hb'.planned hnot' htoken,
      hs.unlinked]
    exact .none
  listed h t u hlink ht hu m := by
    have hlink' : s.links.types.get? p.token = some h := by
      rw [← hb.linkedTypes]
      exact hlink
    obtain ⟨q, -, -, t₀, ht₀, -, hbare, -⟩ := hs.of_linked hlink'
    rw [hb.type_eq hs hp hb.planned hnot rfl hlink', ht₀] at ht
    rw [hb'.type_eq hs hp hb'.planned hnot' rfl hlink', ht₀] at hu
    obtain rfl := Option.some.inj ht
    obtain rfl := Option.some.inj hu
    have hnone : m.places.handles t₀ = #[] := by
      cases m
      · exact hbare.fields
      · exact hbare.methods
      · exact hbare.properties
      · exact hbare.events
    rw [hnone]
    exact .nil

end Ready

/-- A type that has not been populated is populated as it would have been at once, and leaves alone
what the others depend on. -/
theorem Reached.step {setup : Setup} {s b : BuildState} {done : List TypePlan} {p : TypePlan}
    (hs : Ready setup s) (hb : Reached setup s done b) (hp : p ∈ setup.types) (hnot : p ∉ done) :
    ((setup.populateType p).outcome b).1 = ((setup.populateType p).outcome s).1 ∧
      Confined setup [p] b ((setup.populateType p).outcome b).2 := by
  have hstart := hs.coupled hp hb (.start setup s) hnot List.not_mem_nil
  obtain ⟨σ, -, hcoupled, hagree⟩ := Twin.couples_populateType b s hstart
  exact ⟨hagree.eq, hcoupled.left⟩

end ClrImage
