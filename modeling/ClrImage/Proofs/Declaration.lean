import ClrImage.Proofs.Growth
import Mathlib.Data.List.Nodup

/-!
# Declared types

What the first pass of a build leaves behind: one type for every plan, known by the plan's token,
with nothing in it but its declaration.

- `Declares`: the state of a build while its types are being declared.
- `Declared`: the state of a build when all of them are.
- `declared_of_yields`: a declaration pass that succeeds leaves such a state.
-/

namespace ClrImage

/-- The types of the plans `done` have been made and linked, and nothing else has. -/
structure Declares (config : Config) (done : List TypePlan) (s : BuildState) : Prop where
  nodup : (done.map TypePlan.token).Nodup
  linked : ∀ p ∈ done, ∃ h d, s.links.types.get? p.token = some h ∧
    s.store.types.get? h = some { p.declaration with declaring := d }
  /-- Every link is that of a plan. -/
  planned : ∀ token h, s.links.types.get? token = some h → ∃ p ∈ done, p.token = token
  /-- Every type is linked. -/
  known : ∀ h t, s.store.types.get? h = some t →
    ∃ p ∈ done, s.links.types.get? p.token = some h
  /-- The types are listed in the order of their plans. -/
  listed : List.Forall₂ (fun p h => s.links.types.get? p.token = some h) done s.declared.toList
  /-- No type has anything but its declaration. -/
  store : s.store = { types := s.store.types }
  links : s.links = { types := s.links.types }
  registry : s.registry = ⟨config.registryScope, {}⟩
  failures : s.failures = #[]

/-- All planned types have been declared, and nothing else has been made. -/
def Declared (setup : Setup) (s : BuildState) : Prop :=
  Declares setup.config setup.types s

namespace Declares

variable {config : Config} {done : List TypePlan} {s s' : BuildState}

theorem initial (config : Config) : Declares config [] (.initial config) where
  nodup := .nil
  linked := by simp
  planned token h hh := by simp [BuildState.initial] at hh
  known h t ht := by simp [BuildState.initial] at ht
  listed := .nil
  store := rfl
  links := rfl
  registry := rfl
  failures := rfl

/-- Two links to one type have one token. -/
theorem token_injective (hs : Declares config done s) {p q : TypePlan} {h : TypeHandle}
    (hp : p ∈ done) (hq : q ∈ done) (hph : s.links.types.get? p.token = some h)
    (hqh : s.links.types.get? q.token = some h) : p.token = q.token := by
  obtain ⟨h₁, d₁, hlink₁, ht₁⟩ := hs.linked p hp
  obtain ⟨h₂, d₂, hlink₂, ht₂⟩ := hs.linked q hq
  obtain rfl := Option.some.inj (hlink₁.symm.trans hph)
  obtain rfl := Option.some.inj (hlink₂.symm.trans hqh)
  exact congrArg TypeDef.token (Option.some.inj (ht₁.symm.trans ht₂))

/-- A linked token names a type. -/
theorem get?_of_linked (hs : Declares config done s) {token : Token} {h : TypeHandle}
    (hh : s.links.types.get? token = some h) :
    ∃ t, s.store.types.get? h = some t ∧ t.token = token := by
  obtain ⟨p, hp, rfl⟩ := hs.planned token h hh
  obtain ⟨h', d, hlink, ht⟩ := hs.linked p hp
  obtain rfl := Option.some.inj (hlink.symm.trans hh)
  exact ⟨_, ht, rfl⟩

/-- No type is declared twice. -/
theorem nodup_declared (hs : Declares config done s) : s.declared.toList.Nodup := by
  have htokens : done.map (fun p => some p.token) =
      s.declared.toList.map fun h => (s.store.types.get? h).map TypeDef.token := by
    rw [← List.forall₂_eq_eq_eq, List.forall₂_map_left_iff, List.forall₂_map_right_iff]
    refine hs.listed.imp fun p h hlink => ?_
    obtain ⟨t, ht, htoken⟩ := hs.get?_of_linked hlink
    rw [ht, ← htoken]
    rfl
  have hnodup := hs.nodup.map fun _ _ h => Option.some.inj h
  rw [List.map_map] at hnodup
  exact List.Nodup.of_map _ (htokens ▸ hnodup)

theorem declareType {p : TypePlan} (hs : Declares config done s)
    (hrun : (Build.declareType p).Yields s () s') : Declares config (done ++ [p]) s' := by
  unfold Build.declareType at hrun
  simp only [Build.yields_get_bind, Build.yields_liftExcept_bind, Build.yields_modify] at hrun
  obtain ⟨links, hlinks, rfl⟩ := hrun
  obtain ⟨types, hlink, rfl⟩ := map_eq_ok.mp hlinks
  -- the next type is not linked yet, so the token is free
  obtain ⟨hfree, rfl⟩ : s.links.types.get? p.token = none ∧
      types = s.links.types.offer p.token s.store.types.next := by
    rcases LinkTable.link_eq_ok.mp hlink with hfree | ⟨hheld, -⟩
    · exact hfree
    · obtain ⟨t, ht, -⟩ := hs.get?_of_linked hheld
      rw [Arena.get?_next] at ht
      cases ht
  have hoffer (token : Token) : (s.links.types.offer p.token s.store.types.next).get? token =
      if token = p.token then some s.store.types.next else s.links.types.get? token := by
    rw [WriteOnce.get?_offer, hfree]
    rfl
  have hnew : ∀ q ∈ done, q.token ≠ p.token := by
    intro q hq heq
    obtain ⟨h, d, hlink, -⟩ := hs.linked q hq
    rw [heq, hfree] at hlink
    cases hlink
  refine {
    nodup := ?nodup
    linked := ?linked
    planned := ?planned
    known := ?known
    listed := ?listed
    store := by rw [hs.store]
    links := by rw [hs.links]
    registry := hs.registry
    failures := hs.failures }
  case nodup =>
    rw [List.map_append, List.nodup_append]
    refine ⟨hs.nodup, by simp, ?_⟩
    rintro _ hq _ hp rfl
    obtain ⟨q, hq, heq⟩ := List.mem_map.mp hq
    exact hnew q hq (heq.trans (by simpa using hp))
  case linked =>
    intro q hq
    rcases List.mem_append.mp hq with hq | hq
    · obtain ⟨h, d, hlink, ht⟩ := hs.linked q hq
      refine ⟨h, d, ?_, Arena.get?_alloc_of_some _ ht⟩
      exact (hoffer q.token).trans ((if_neg (hnew q hq)).trans hlink)
    · obtain rfl : q = p := by simpa using hq
      exact ⟨s.store.types.next, none, (hoffer q.token).trans (if_pos rfl),
        Arena.get?_alloc_next _ _⟩
  case planned =>
    intro token h hh
    have hh := (hoffer token).symm.trans hh
    split at hh
    next htoken => exact ⟨p, by simp, htoken.symm⟩
    next =>
      obtain ⟨q, hq, htoken⟩ := hs.planned token h hh
      exact ⟨q, List.mem_append_left _ hq, htoken⟩
  case known =>
    intro h t ht
    have ht : (s.store.types.alloc p.declaration).get? h = some t := ht
    rw [Arena.get?_alloc] at ht
    split at ht
    next hh => exact ⟨p, by simp, (hoffer p.token).trans (by rw [if_pos rfl, hh])⟩
    next =>
      obtain ⟨q, hq, hlink⟩ := hs.known h t ht
      refine ⟨q, List.mem_append_left _ hq, ?_⟩
      exact (hoffer q.token).trans ((if_neg (hnew q hq)).trans hlink)
  case listed =>
    show List.Forall₂ _ _ (s.declared.push s.store.types.next).toList
    rw [Array.toList_push]
    have hold := (List.forall₂_and_left _ _).mpr ⟨hnew, hs.listed⟩
    refine List.rel_append (hold.imp ?_) (.cons ?_ .nil)
    · rintro q h ⟨hne, hlink⟩
      exact (hoffer q.token).trans ((if_neg hne).trans hlink)
    · exact (hoffer p.token).trans (if_pos rfl)

/-- Nesting a type changes its declaring type only. -/
theorem setDeclaring (hs : Declares config done s) (h outer : TypeHandle) :
    Declares config done
      { s with
        store := { s.store with
          types := s.store.types.modify h fun t => { t with declaring := some outer } } } where
  nodup := hs.nodup
  linked p hp := by
    obtain ⟨g, d, hlink, ht⟩ := hs.linked p hp
    by_cases hg : g = h
    · refine ⟨g, some outer, hlink, ?_⟩
      rw [Arena.get?_modify, if_pos hg, ht]
      rfl
    · refine ⟨g, d, hlink, ?_⟩
      rw [Arena.get?_modify, if_neg hg, ht]
  planned := hs.planned
  known g t ht := by
    rw [Arena.get?_modify] at ht
    split at ht
    · obtain ⟨u, hu, -⟩ := Option.map_eq_some_iff.mp ht
      exact hs.known g u hu
    · exact hs.known g t ht
  listed := hs.listed
  store := by rw [hs.store]
  links := hs.links
  registry := hs.registry
  failures := hs.failures

theorem wireDeclaring {setup : Setup} {p : TypePlan} (hs : Declares config done s)
    (hrun : (setup.wireDeclaring p).Yields s () s') : Declares config done s' := by
  unfold Setup.wireDeclaring at hrun
  split at hrun
  next =>
    obtain ⟨-, rfl⟩ := Build.yields_pure.mp hrun
    exact hs
  next outer _ =>
    split at hrun
    next => cases Build.yields_throw.mp hrun
    next =>
      rw [Build.yields_get_bind] at hrun
      split at hrun
      next => cases Build.yields_throw.mp hrun
      next outerHandle _ =>
        obtain ⟨h, s₁, hmanaged, hset⟩ := Build.yields_bind.mp hrun
        obtain ⟨-, rfl⟩ := Build.yields_managed.mp hmanaged
        simp only [Build.yields_get_bind, Build.yields_liftExcept_bind, Build.yields_modify]
          at hset
        obtain ⟨store, hstore, rfl⟩ := hset
        unfold Store.setDeclaring at hstore
        split at hstore
        next =>
          obtain rfl := Except.ok.inj hstore
          exact hs
        next =>
          split at hstore
          next => cases hstore
          next =>
            obtain rfl := Except.ok.inj hstore
            exact hs.setDeclaring h outerHandle

theorem of_notices (hs : Declares config done s) (notices : Array Notice) :
    Declares config done { s with notices } :=
  ⟨hs.nodup, hs.linked, hs.planned, hs.known, hs.listed, hs.store, hs.links, hs.registry,
    hs.failures⟩

end Declares

/-- A declaration pass from nothing that succeeds declares all planned types. -/
theorem declared_of_yields {setup : Setup} {notices : Array Notice} {s : BuildState}
    (hrun : setup.declareTypes.Yields { BuildState.initial setup.config with notices } () s) :
    Declared setup s := by
  unfold Setup.declareTypes at hrun
  obtain ⟨_, s₁, hdeclare, hrun⟩ := Build.yields_bind.mp hrun
  obtain ⟨_, s₂, hwire, htell⟩ := Build.yields_bind.mp hrun
  rw [Build.yields_get_bind] at htell
  obtain rfl := Build.yields_modify.mp htell
  have h₁ : Declares setup.config setup.types s₁ :=
    Build.forM_induction (fun done _ s => Declares setup.config done s)
      ((Declares.initial setup.config).of_notices notices)
      (fun _ _ _ _ _ _ hs hstep => hs.declareType (Setup.yields_inContext.mp hstep)) hdeclare
  have h₂ : Declares setup.config setup.types s₂ :=
    Build.forM_induction (fun _ _ s => Declares setup.config setup.types s) h₁
      (fun _ _ _ _ _ _ hs hstep => hs.wireDeclaring (Setup.yields_inContext.mp hstep)) hwire
  exact h₂.of_notices _

end ClrImage
