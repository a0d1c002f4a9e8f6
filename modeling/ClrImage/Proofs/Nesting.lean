import ClrImage.Proofs.Hierarchy
import ClrImage.Proofs.Lookup

/-!
# Nested types

When the first pass succeeds, and what it makes of declaring tokens: each type is nested in the type
of its declaring token, and a type without one is nested in none.

- `Setup.WellNested`: distinct tokens, and declaring tokens that lead to types and never in circles.
- `Nests`: the state of a build while its types are being nested.
- `declareTypes_yields_iff`: the first pass succeeds **exactly if** the plans are well nested.
- `WellNested.reordered`: plans in another order are as well nested as before.
-/

namespace ClrImage

/-- Tokens are distinct, declaring tokens are those of types, and no way outwards is a circle. -/
structure Setup.WellNested (setup : Setup) : Prop where
  nodup : (setup.types.map TypePlan.token).Nodup
  acyclic : ∀ p ∈ setup.types, setup.blueprint.isNestingCyclic p = false
  named : ∀ p ∈ setup.types, ∀ outer, p.declaring = some outer →
    ∃ q ∈ setup.types, q.token = outer

/-! ## Single types -/

/-- A type is declared if its token is free. -/
theorem declareType_yields {config : Config} {done : List TypePlan} {p : TypePlan} {s : BuildState}
    (hs : Declares config done s) (hnew : p.token ∉ done.map TypePlan.token) :
    ∃ s', (Build.declareType p).Yields s () s' := by
  have hfree : s.links.types.get? p.token = none := by
    cases hlink : s.links.types.get? p.token with
    | none => rfl
    | some h =>
      obtain ⟨q, hq, htoken⟩ := hs.planned p.token h hlink
      exact absurd (htoken ▸ List.mem_map_of_mem hq) hnew
  unfold Build.declareType
  simp only [Build.yields_get_bind, Build.yields_liftExcept_bind, Build.yields_modify]
  exact ⟨_, _, map_eq_ok.mpr ⟨_, LinkTable.link_eq_ok.mpr (.inl ⟨hfree, rfl⟩), rfl⟩, rfl⟩

/-- Declaring a type gives it no declaring type yet. -/
theorem declareType_free {p : TypePlan} {s s' : BuildState}
    (hs : ∀ h t, s.store.types.get? h = some t → t.declaring = none)
    (hrun : (Build.declareType p).Yields s () s') :
    ∀ h t, s'.store.types.get? h = some t → t.declaring = none := by
  unfold Build.declareType at hrun
  simp only [Build.yields_get_bind, Build.yields_liftExcept_bind, Build.yields_modify] at hrun
  obtain ⟨links, -, rfl⟩ := hrun
  intro h t ht
  have ht : (s.store.types.alloc p.declaration).get? h = some t := ht
  rw [Arena.get?_alloc] at ht
  split at ht
  · obtain rfl := Option.some.inj ht
    rfl
  · exact hs h t ht

/-- A type that is not nested yet is nested in the type of its declaring token, if it has one. This
succeeds exactly if the token leads to a type and not in a circle. -/
theorem yields_wireDeclaring_iff {setup : Setup} {p : TypePlan} {h : TypeHandle} {t : TypeDef}
    {s : BuildState} (hlink : s.links.types.get? p.token = some h)
    (ht : s.store.types.get? h = some t) (hfree : t.declaring = none) :
    (∃ s', (setup.wireDeclaring p).Yields s () s') ↔
      setup.blueprint.isNestingCyclic p = false ∧
        ∀ outer, p.declaring = some outer → ∃ o, s.links.types.get? outer = some o := by
  unfold Setup.wireDeclaring
  cases hdeclaring : p.declaring with
  | none =>
    have hacyclic : setup.blueprint.isNestingCyclic p = false := by
      simp [Blueprint.isNestingCyclic, hdeclaring, Blueprint.revisits]
    exact iff_of_true ⟨s, rfl⟩ ⟨hacyclic, fun _ h => by cases h⟩
  | some outer =>
    dsimp only
    cases hcyclic : setup.blueprint.isNestingCyclic p with
    | true =>
      refine iff_of_false ?_ (fun h => by cases h.1)
      rintro ⟨s', hrun⟩
      cases Build.yields_throw.mp hrun
    | false =>
      simp only [Bool.false_eq_true, if_false, Build.yields_get_bind]
      cases houter : s.links.types.get? outer with
      | none =>
        refine iff_of_false ?_ (fun h => by simpa [houter] using h.2 outer rfl)
        rintro ⟨s', hrun⟩
        cases Build.yields_throw.mp hrun
      | some o =>
        refine iff_of_true ?_ ⟨trivial, fun outer' heq => ⟨o, Option.some.inj heq ▸ houter⟩⟩
        have hset : s.store.setDeclaring h o =
            .ok { s.store with
                  types := s.store.types.modify h fun t => { t with declaring := some o } } := by
          simp [Store.setDeclaring, ht, hfree]
        have hmanaged : (Build.managed p).Yields s h s := Build.yields_managed.mpr ⟨hlink, rfl⟩
        refine Exists.imp (fun s' hrest => Build.yields_bind.mpr ⟨h, s, hmanaged, hrest⟩) ?_
        simp only [Build.yields_get_bind, Build.yields_liftExcept_bind, Build.yields_modify]
        exact ⟨_, _, hset, rfl⟩

/-- Nesting a type sets its declaring type and changes nothing else. -/
theorem yields_wireDeclaring {setup : Setup} {p : TypePlan} {h : TypeHandle} {t : TypeDef}
    {s s' : BuildState} (hlink : s.links.types.get? p.token = some h)
    (ht : s.store.types.get? h = some t) (hfree : t.declaring = none)
    (hrun : (setup.wireDeclaring p).Yields s () s') :
    ChangesType h (fun t => { t with declaring := p.declaring.bind s.links.types.get? }) s s' := by
  unfold Setup.wireDeclaring at hrun
  cases hdeclaring : p.declaring with
  | none =>
    rw [hdeclaring] at hrun
    obtain ⟨-, rfl⟩ := Build.yields_pure.mp hrun
    refine .of_fixed ht ?_
    rw [Option.bind_none, ← hfree]
  | some outer =>
    simp only [hdeclaring] at hrun
    split at hrun
    next => cases Build.yields_throw.mp hrun
    next =>
      rw [Build.yields_get_bind] at hrun
      split at hrun
      next => cases Build.yields_throw.mp hrun
      next o houter =>
        obtain ⟨h', _, hmanaged, hset⟩ := Build.yields_bind.mp hrun
        obtain ⟨hlink', rfl⟩ := Build.yields_managed.mp hmanaged
        obtain rfl := Option.some.inj (hlink.symm.trans hlink')
        simp only [Build.yields_get_bind, Build.yields_liftExcept_bind, Build.yields_modify] at hset
        obtain ⟨store, hstore, rfl⟩ := hset
        unfold Store.setDeclaring at hstore
        simp only [ht, hfree, Option.isSome_none, Bool.false_eq_true, if_false] at hstore
        obtain rfl := Except.ok.inj hstore
        rw [Option.bind_some, houter]
        exact .modifyType h _ s

/-! ## All types -/

/-- The types of the plans `done` have been nested, and those of `todo` have not. -/
structure Nests (setup : Setup) (done todo : List TypePlan) (s : BuildState) : Prop
    extends Declares setup.config setup.types s where
  nested : ∀ p ∈ done, s.TypeOf p fun t => t.declaring = p.declaring.bind s.links.types.get?
  free : ∀ p ∈ todo, s.TypeOf p fun t => t.declaring = none

namespace Nests

variable {setup : Setup} {done todo : List TypePlan} {p : TypePlan} {s s' : BuildState}

/-- A step for one type leaves those of other plans as they are. -/
theorem typeOf_of_ne (hs : Nests setup done todo s) {h : TypeHandle} {f : TypeDef → TypeDef}
    (hp : p ∈ setup.types) (hlink : s.links.types.get? p.token = some h)
    (hchange : ChangesType h f s s') {q : TypePlan} (hq : q ∈ setup.types)
    (hne : q.token ≠ p.token) {Q : TypeDef → Prop} (htype : s.TypeOf q Q) : s'.TypeOf q Q := by
  obtain ⟨g, t, hg, ht, hQ⟩ := htype
  have hgh : g ≠ h := by
    rintro rfl
    exact hne (hs.token_injective hq hp hg hlink)
  exact ⟨g, t, by rw [hchange.links, hg], by rw [hchange.of_ne hgh, ht], hQ⟩

/-- Nesting a type moves it to those that are nested. -/
theorem step (hall : setup.types = done ++ p :: todo) (hs : Nests setup done (p :: todo) s)
    (hrun : (setup.wireDeclaring p).Yields s () s') : Nests setup (done ++ [p]) todo s' := by
  obtain ⟨h, t, hlink, ht, hfree⟩ := hs.free p List.mem_cons_self
  have hchange := yields_wireDeclaring hlink ht hfree hrun
  have hp : p ∈ setup.types := by simp [hall]
  have hnodup := hs.nodup
  rw [hall] at hnodup
  refine ⟨hs.toDeclares.wireDeclaring hrun, fun q hq => ?_, fun q hq => ?_⟩
  · rw [hchange.links]
    rcases List.mem_append.mp hq with hq | hq
    · exact hs.typeOf_of_ne hp hlink hchange (by simp [hall, hq])
        (ne_of_nodup_map hnodup (.inl hq)) (hs.nested q hq)
    · obtain rfl := List.mem_singleton.mp hq
      exact ⟨h, _, by rw [hchange.links, hlink], hchange.of_some ht, rfl⟩
  · exact hs.typeOf_of_ne hp hlink hchange (by simp [hall, hq])
      (ne_of_nodup_map hnodup (.inr hq)) (hs.free q (List.mem_cons_of_mem p hq))

/-- A type is nested exactly if its declaring token leads to a type and not in a circle. -/
theorem yields_iff (hs : Nests setup done (p :: todo) s) :
    (∃ s', (setup.wireDeclaring p).Yields s () s') ↔
      setup.blueprint.isNestingCyclic p = false ∧
        ∀ outer, p.declaring = some outer → ∃ q ∈ setup.types, q.token = outer := by
  obtain ⟨h, t, hlink, ht, hfree⟩ := hs.free p List.mem_cons_self
  rw [yields_wireDeclaring_iff hlink ht hfree]
  refine and_congr_right fun _ => forall₂_congr fun outer _ => ?_
  constructor
  · rintro ⟨o, ho⟩
    exact hs.planned outer o ho
  · rintro ⟨q, hq, rfl⟩
    obtain ⟨o, -, ho, -⟩ := hs.linked q hq
    exact ⟨o, ho⟩

end Nests

/-- Types that have been declared and not been nested. -/
theorem nests_of_declares {setup : Setup} {s : BuildState}
    (hs : Declares setup.config setup.types s)
    (hfree : ∀ h t, s.store.types.get? h = some t → t.declaring = none) :
    Nests setup [] setup.types s := by
  refine ⟨hs, by simp, fun p hp => ?_⟩
  obtain ⟨h, d, hlink, ht⟩ := hs.linked p hp
  exact ⟨h, _, hlink, ht, hfree h _ ht⟩

/-- Types are declared one after the other, and none of them is nested yet. -/
theorem declares_of_declareRound {setup : Setup} {notices : Array Notice} {done : List TypePlan}
    {s : BuildState}
    (hrun : Build.Yields (done.forM fun p => setup.inContext .declare p (Build.declareType p))
      { BuildState.initial setup.config with notices } () s) :
    Declares setup.config done s ∧ ∀ h t, s.store.types.get? h = some t → t.declaring = none :=
  Build.forM_induction
    (fun done _ s => Declares setup.config done s ∧
      ∀ h t, s.store.types.get? h = some t → t.declaring = none)
    ⟨(Declares.initial setup.config).of_notices notices, by simp [BuildState.initial]⟩
    (fun _ _ _ _ _ _ hs hstep => ⟨hs.1.declareType (Setup.yields_inContext.mp hstep),
      declareType_free hs.2 (Setup.yields_inContext.mp hstep)⟩) hrun

/-- If the first pass succeeds, the plans are well nested, and every type is nested in the type of
its declaring token. -/
theorem yields_declareTypes {setup : Setup} {notices : Array Notice} {s : BuildState}
    (hrun : setup.declareTypes.Yields { BuildState.initial setup.config with notices } () s) :
    setup.WellNested ∧ Nests setup setup.types [] s := by
  unfold Setup.declareTypes at hrun
  obtain ⟨_, s₁, hdeclare, hrun⟩ := Build.yields_bind.mp hrun
  obtain ⟨_, s₂, hwire, htell⟩ := Build.yields_bind.mp hrun
  rw [Build.yields_get_bind] at htell
  obtain rfl := Build.yields_modify.mp htell
  have h₁ := declares_of_declareRound hdeclare
  have h₂ := Build.forM_induction
    (fun done todo s => Nests setup done todo s ∧ ∀ p ∈ done,
      setup.blueprint.isNestingCyclic p = false ∧
        ∀ outer, p.declaring = some outer → ∃ q ∈ setup.types, q.token = outer)
    ⟨nests_of_declares h₁.1 h₁.2, by simp⟩
    (fun done p todo s s' hall hs hstep => by
      have hstep := Setup.yields_inContext.mp hstep
      refine ⟨hs.1.step hall hstep, fun q hq => ?_⟩
      rcases List.mem_append.mp hq with hq | hq
      · exact hs.2 q hq
      · obtain rfl := List.mem_singleton.mp hq
        exact hs.1.yields_iff.mp ⟨s', hstep⟩) hwire
  obtain ⟨hnests, hwell⟩ := h₂
  refine ⟨⟨hnests.nodup, fun p hp => (hwell p hp).1, fun p hp => (hwell p hp).2⟩, ?_⟩
  exact ⟨hnests.toDeclares.of_notices _, hnests.nested, hnests.free⟩

/-- Types with distinct tokens are all declared, and none of them is nested yet. -/
theorem declareRound_yields {setup : Setup} {notices : Array Notice}
    (hnodup : (setup.types.map TypePlan.token).Nodup) :
    ∃ s, Build.Yields (setup.types.forM fun p => setup.inContext .declare p (Build.declareType p))
      { BuildState.initial setup.config with notices } () s ∧ Nests setup [] setup.types s := by
  obtain ⟨s, hrun, hdeclares, hfree⟩ := Build.forM_yields (l := setup.types)
    (f := fun p => setup.inContext .declare p (Build.declareType p))
    (fun done _ s => Declares setup.config done s ∧
      ∀ h t, s.store.types.get? h = some t → t.declaring = none)
    ⟨(Declares.initial setup.config).of_notices notices, by simp [BuildState.initial]⟩
    (fun done p todo s hall hs => by
      have hnodup := hnodup
      rw [hall] at hnodup
      have hnew : p.token ∉ done.map TypePlan.token := by
        intro hmem
        obtain ⟨q, hq, heq⟩ := List.mem_map.mp hmem
        exact ne_of_nodup_map hnodup (.inl hq) heq
      obtain ⟨s', hstep⟩ := declareType_yields hs.1 hnew
      exact ⟨s', Setup.yields_inContext.mpr hstep, hs.1.declareType hstep,
        declareType_free hs.2 hstep⟩)
  exact ⟨s, hrun, nests_of_declares hdeclares hfree⟩

/-- The first pass succeeds **exactly if** the plans are well nested. -/
theorem declareTypes_yields_iff {setup : Setup} {notices : Array Notice} :
    (∃ s, setup.declareTypes.Yields { BuildState.initial setup.config with notices } () s) ↔
      setup.WellNested := by
  refine ⟨fun ⟨s, hrun⟩ => (yields_declareTypes hrun).1, fun hwell => ?_⟩
  obtain ⟨s₁, hdeclare, hnests⟩ := @declareRound_yields setup notices hwell.nodup
  have hwire := Build.forM_yields (l := setup.types)
    (f := fun p => setup.inContext .declare p (setup.wireDeclaring p))
    (fun done todo s => Nests setup done todo s) hnests
    (fun done p todo s hall hs => by
      have hp : p ∈ setup.types := by simp [hall]
      obtain ⟨s', hstep⟩ := hs.yields_iff.mpr ⟨hwell.acyclic p hp, hwell.named p hp⟩
      exact ⟨s', Setup.yields_inContext.mpr hstep, hs.step hall hstep⟩)
  obtain ⟨s₂, hwire, -⟩ := hwire
  unfold Setup.declareTypes
  exact ⟨_, Build.yields_bind.mpr ⟨(), s₁, hdeclare, Build.yields_bind.mpr ⟨(), s₂, hwire, rfl⟩⟩⟩

/-- Plans in another order are as well nested as before. -/
theorem Setup.WellNested.reordered {setup : Setup} {types : Array TypePlan}
    (h : setup.WellNested) (hperm : types.toList.Perm setup.types) :
    (setup.reordered types).WellNested where
  nodup := (hperm.map TypePlan.token).nodup_iff.mpr h.nodup
  acyclic p hp := by
    rw [Setup.isNestingCyclic_reordered h.nodup hperm]
    exact h.acyclic p (hperm.mem_iff.mp hp)
  named p hp outer houter := by
    obtain ⟨q, hq, htoken⟩ := h.named p (hperm.mem_iff.mp hp) outer houter
    exact ⟨q, hperm.mem_iff.mpr hq, htoken⟩

end ClrImage
