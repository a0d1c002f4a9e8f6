import ClrImage.Proofs.Audit

/-!
# The scope of the registry

A registry may tell equal indices apart by top-level type, or not. Where no index is declared below
two top-level types there is nothing to tell apart. This module relates the states of two builds
whose registries differ in this respect, and shows what steps keep them related.

- `Setup.scopedBy`: the same setup with another scope of its registry.
- `Setup.Unaliased`: no index is declared below two top-level types.
- `Rescoped`: two states that differ at most in the keys of their parameters, and in what has been
  told.
- `Build.Follows`: a step that succeeds in the left one of two related states does the same in the
  right one. There is one rule for each way of putting steps together.
- `follows_declareGenerics`, `follows_resolve`: so do the steps that use the registry.
-/

namespace ClrImage

/-! ## Setups -/

/-- The same setup with another scope of the registry. -/
def Setup.scopedBy (setup : Setup) (scope : RegistryScope) : Setup :=
  { setup with config := { setup.config with registryScope := scope } }

/-- The indices that a type and its methods declare. -/
def TypePlan.declaredIndices (p : TypePlan) : List UInt32 :=
  (p.genericPlans ++ p.methods.toList.flatMap MethodPlan.genericPlans).map GenericPlan.index

/-- No index is declared below two top-level types. -/
def Setup.Unaliased (setup : Setup) : Prop :=
  ∀ p ∈ setup.types, ∀ q ∈ setup.types, ∀ i ∈ p.declaredIndices, i ∈ q.declaredIndices →
    setup.blueprint.topLevel p = setup.blueprint.topLevel q

-- the indices that a type declares are looked through, not all of UInt32
instance (priority := 2000) (p : TypePlan) (P : UInt32 → Prop) [DecidablePred P] :
    Decidable (∀ i ∈ TypePlan.declaredIndices p, P i) :=
  List.decidableBAll P (TypePlan.declaredIndices p)

instance (setup : Setup) : Decidable setup.Unaliased :=
  inferInstanceAs (Decidable (∀ p ∈ setup.types, ∀ q ∈ setup.types, ∀ i ∈ p.declaredIndices,
    i ∈ q.declaredIndices → setup.blueprint.topLevel p = setup.blueprint.topLevel q))

/-! ## States that differ in keys -/

/-- The left registry tells indices apart by top-level type, the right one does not, and they hold
the same parameters under the same indices. -/
structure Rescopes (setup : Setup) (r q : GenericRegistry) : Prop where
  left : r.scope = .perTopLevelType
  right : q.scope = .perRun
  planned : ∀ k h, r.get? k = some h → ∃ p ∈ setup.types,
    k.scope = some (setup.blueprint.topLevel p) ∧ k.index ∈ p.declaredIndices
  unscoped : ∀ k h, q.get? k = some h → k.scope = none
  held : ∀ i h, q.get? ⟨none, i⟩ = some h ↔ ∃ topLevel, r.get? ⟨some topLevel, i⟩ = some h

/-- The states differ at most in their registries, which hold the same parameters, and in what has
been told. -/
def Rescoped (setup : Setup) (s u : BuildState) : Prop :=
  ∃ registry notices, u = { s with registry, notices } ∧ Rescopes setup s.registry registry

namespace Rescopes

variable {setup : Setup} {r q : GenericRegistry}

theorem key_left (h : Rescopes setup r q) (i : UInt32) (topLevel : Token) :
    r.key i topLevel = ⟨some topLevel, i⟩ := by
  unfold GenericRegistry.key
  rw [h.left]

theorem key_right (h : Rescopes setup r q) (i : UInt32) (topLevel : Token) :
    q.key i topLevel = ⟨none, i⟩ := by
  unfold GenericRegistry.key
  rw [h.right]

/-- What an index stands for on the left it stands for on the right. -/
theorem get?_of_some (h : Rescopes setup r q) {i : UInt32} {topLevel : Token} {g : GenericHandle}
    (hg : r.get? (r.key i topLevel) = some g) : q.get? (q.key i topLevel) = some g := by
  rw [h.key_left] at hg
  rw [h.key_right]
  exact (h.held i g).mpr ⟨topLevel, hg⟩

/-- An index that is free where it is declared is free everywhere, because no other top-level type
declares it. -/
theorem get?_of_none (h : Rescopes setup r q) (hunaliased : setup.Unaliased) {p : TypePlan}
    (hp : p ∈ setup.types) {i : UInt32} (hi : i ∈ p.declaredIndices)
    (hnone : r.get? (r.key i (setup.blueprint.topLevel p)) = none) :
    q.get? (q.key i (setup.blueprint.topLevel p)) = none := by
  rw [h.key_left] at hnone
  rw [h.key_right]
  by_contra hsome
  obtain ⟨g, hg⟩ := Option.ne_none_iff_exists'.mp hsome
  obtain ⟨topLevel, hheld⟩ := (h.held i g).mp hg
  obtain ⟨p', hp', hscope, hi'⟩ := h.planned _ g hheld
  obtain rfl : topLevel = setup.blueprint.topLevel p' := Option.some.inj hscope
  rw [hunaliased p' hp' p hp i hi' hi, hnone] at hheld
  cases hheld

/-- A new parameter is registered on both sides. -/
theorem register (h : Rescopes setup r q) {p : TypePlan} (hp : p ∈ setup.types) {i : UInt32}
    (hi : i ∈ p.declaredIndices) {g : GenericHandle}
    (hleft : r.get? (r.key i (setup.blueprint.topLevel p)) = none)
    (hright : q.get? (q.key i (setup.blueprint.topLevel p)) = none) :
    Rescopes setup
      { r with params := r.params.offer (r.key i (setup.blueprint.topLevel p)) g }
      { q with params := q.params.offer (q.key i (setup.blueprint.topLevel p)) g } := by
  have hr (k : GenericKey) :
      (r.params.offer (r.key i (setup.blueprint.topLevel p)) g).get? k =
        if k = ⟨some (setup.blueprint.topLevel p), i⟩ then some g else r.get? k := by
    rw [GenericRegistry.get?_offer_of_none hleft, h.key_left]
  have hq (k : GenericKey) :
      (q.params.offer (q.key i (setup.blueprint.topLevel p)) g).get? k =
        if k = ⟨none, i⟩ then some g else q.get? k := by
    rw [GenericRegistry.get?_offer_of_none hright, h.key_right]
  refine ⟨h.left, h.right, fun k o ho => ?_, fun k o ho => ?_, fun j o => ?_⟩
  · rw [GenericRegistry.get?, hr] at ho
    split at ho
    next hk => exact ⟨p, hp, by rw [hk], by rwa [hk]⟩
    next => exact h.planned k o ho
  · rw [GenericRegistry.get?, hq] at ho
    split at ho
    next hk => rw [hk]
    next => exact h.unscoped k o ho
  · rw [GenericRegistry.get?, hq]
    simp only [GenericRegistry.get?, hr]
    by_cases hj : j = i
    · subst hj
      rw [if_pos rfl]
      constructor
      · rintro ho
        exact ⟨_, (if_pos rfl).trans ho⟩
      · rintro ⟨topLevel, ho⟩
        split at ho
        · exact ho
        · -- the index was free below every top-level type
          have hheld := (h.held j o).mpr ⟨topLevel, ho⟩
          rw [h.key_right, hheld] at hright
          cases hright
    · rw [if_neg (by simpa using hj)]
      rw [show q.params.get? ⟨none, j⟩ = some o ↔ _ from h.held j o]
      refine exists_congr fun topLevel => ?_
      rw [if_neg (by simp [hj])]
      exact Iff.rfl

end Rescopes

/-! ## Steps that go the same way -/

namespace Build

variable {α β : Type} {R : BuildState → BuildState → Prop}

/-- Where the step succeeds in the left one of two related states, it succeeds in the right one with
the same value, and the states stay related. -/
def Follows (R : BuildState → BuildState → Prop) (step : Build α) : Prop :=
  ∀ s u a s', R s u → step.Yields s a s' → ∃ u', step.Yields u a u' ∧ R s' u'

namespace Follows

theorem pure (a : α) : Follows R (pure a : Build α) := by
  intro s u b s' h hrun
  obtain ⟨rfl, rfl⟩ := yields_pure.mp hrun
  exact ⟨u, rfl, h⟩

theorem throw (e : Failure) : Follows R (throw e : Build α) :=
  fun _ _ _ _ _ hrun => False.elim (yields_throw.mp hrun)

theorem liftExcept (x : Except Failure α) : Follows R (liftExcept x : Build α) := by
  intro s u a s' h hrun
  obtain ⟨hx, rfl⟩ := yields_liftExcept.mp hrun
  exact ⟨u, yields_liftExcept.mpr ⟨hx, rfl⟩, h⟩

theorem bind {step : Build α} {next : α → Build β} (hstep : Follows R step)
    (hnext : ∀ a, Follows R (next a)) : Follows R (step >>= next) := by
  intro s u b s' h hrun
  obtain ⟨a, s₁, hfirst, hrest⟩ := yields_bind.mp hrun
  obtain ⟨u₁, hfirst', h₁⟩ := hstep s u a s₁ h hfirst
  obtain ⟨u', hrest', h'⟩ := hnext a s₁ u₁ b s' h₁ hrest
  exact ⟨u', yields_bind.mpr ⟨a, u₁, hfirst', hrest'⟩, h'⟩

theorem forM {f : α → Build Unit} {l : List α} (h : ∀ a ∈ l, Follows R (f a)) :
    Follows R (l.forM f) := by
  induction l with
  | nil => exact pure ()
  | cons a l ih =>
    rw [forM_cons_eq]
    exact bind (h a List.mem_cons_self) fun _ => ih fun b hb => h b (List.mem_cons_of_mem a hb)

theorem mapM {f : α → Build β} {l : List α} (h : ∀ a ∈ l, Follows R (f a)) :
    Follows R (l.mapM f) := by
  induction l with
  | nil =>
    rw [List.mapM_nil]
    exact pure []
  | cons a l ih =>
    rw [List.mapM_cons]
    exact bind (h a List.mem_cons_self) fun _ =>
      bind (ih fun b hb => h b (List.mem_cons_of_mem a hb)) fun _ => pure _

theorem foldlM {f : β → α → Build β} {l : List α} (h : ∀ b, ∀ a ∈ l, Follows R (f b a)) (b : β) :
    Follows R (l.foldlM f b) := by
  induction l generalizing b with
  | nil => exact pure b
  | cons a l ih =>
    rw [List.foldlM_cons]
    exact bind (h b a List.mem_cons_self) fun b' =>
      ih (fun b a ha => h b a (List.mem_cons_of_mem _ ha)) b'

theorem inContext {setup : Setup} {phase : Phase} {p : TypePlan} {step : Build α}
    (h : Follows R step) : Follows R (setup.inContext phase p step) := by
  intro s u a s' hR hrun
  obtain ⟨u', hrun', hR'⟩ := h s u a s' hR (Setup.yields_inContext.mp hrun)
  exact ⟨u', Setup.yields_inContext.mpr hrun', hR'⟩

variable {setup : Setup}

/-- What is read from something else than the registry and the notices is the same. -/
theorem read {next : BuildState → Build β}
    (hread : ∀ s registry notices, next { s with registry, notices } = next s)
    (h : ∀ s, Follows (Rescoped setup) (next s)) :
    Follows (Rescoped setup) (get >>= next) := by
  intro s u b s' hR hrun
  obtain ⟨registry, notices, hu, -⟩ := id hR
  obtain ⟨u', hrun', hR'⟩ := h s s u b s' hR hrun
  refine ⟨u', ?_, hR'⟩
  rw [yields_get_bind, hu, hread, ← hu]
  exact hrun'

/-- A change of something else than the registry is the same. -/
theorem modify {f : BuildState → BuildState}
    (hf : ∀ s registry notices, (f s).registry = s.registry ∧
      ∃ notices', f { s with registry, notices } = { f s with registry, notices := notices' }) :
    Follows (Rescoped setup) (modify f : Build Unit) := by
  rintro s u _ s' ⟨registry, notices, rfl, hkeys⟩ hrun
  obtain rfl := yields_modify.mp hrun
  obtain ⟨hregistry, notices', heq⟩ := hf s registry notices
  exact ⟨_, rfl, registry, notices', heq, hregistry ▸ hkeys⟩

theorem modifyGet {f : BuildState → α × BuildState}
    (hf : ∀ s registry notices, (f s).2.registry = s.registry ∧
      f { s with registry, notices } = ((f s).1, { (f s).2 with registry, notices })) :
    Follows (Rescoped setup) (modifyGet f : Build α) := by
  rintro s u a s' ⟨registry, notices, rfl, hkeys⟩ hrun
  obtain ⟨rfl, rfl⟩ := yields_modifyGet.mp hrun
  obtain ⟨hregistry, heq⟩ := hf s registry notices
  refine ⟨_, yields_modifyGet.mpr ⟨?_, rfl⟩, registry, notices, ?_, hregistry ▸ hkeys⟩ <;> rw [heq]

end Follows

end Build

section Steps

variable {setup : Setup}

/-! ## Steps of all passes -/

theorem follows_notice (n : Notice) : Build.Follows (Rescoped setup) (Build.notice n) :=
  .modify fun _ _ _ => ⟨rfl, _, rfl⟩

/-- What is told may depend on the registry. -/
theorem follows_tell (n : BuildState → Notice) :
    Build.Follows (Rescoped setup) (get >>= fun s => Build.notice (n s)) := by
  rintro s u _ s' ⟨registry, notices, rfl, hkeys⟩ hrun
  obtain rfl := Build.yields_modify.mp (Build.yields_get_bind.mp hrun)
  exact ⟨_, rfl, registry, _, rfl, hkeys⟩

theorem follows_modifyStore (f : Store → Store) :
    Build.Follows (Rescoped setup) (Build.modifyStore f) :=
  .modify fun _ _ notices => ⟨rfl, notices, rfl⟩

theorem follows_managed (p : TypePlan) : Build.Follows (Rescoped setup) (Build.managed p) := by
  refine .read (fun _ _ _ => rfl) fun s => ?_
  split
  · exact .pure _
  · exact .throw _

theorem follows_managedType (p : TypePlan) :
    Build.Follows (Rescoped setup) (Build.managedType p) := by
  refine .bind (follows_managed p) fun h => .read (fun _ _ _ => rfl) fun s => ?_
  split
  · exact .pure _
  · exact .throw _

/-! ## Parameters -/

/-- An index that is declared is registered on both sides, or on neither. -/
theorem Rescoped.register {s u s' : BuildState} (h : Rescoped setup s u)
    (hunaliased : setup.Unaliased) {p : TypePlan} (hp : p ∈ setup.types) {g : GenericPlan}
    (hg : g.index ∈ p.declaredIndices) {owner : GenericOwner} {out : GenericHandle × Bool}
    (hrun : (Build.registerGeneric (s.registry.key g.index (setup.blueprint.topLevel p)) owner
      g).Yields s out s') :
    ∃ u', (Build.registerGeneric (u.registry.key g.index (setup.blueprint.topLevel p)) owner
      g).Yields u out u' ∧ Rescoped setup s' u' := by
  obtain ⟨registry, notices, rfl, hkeys⟩ := h
  cases hheld : s.registry.get? (s.registry.key g.index (setup.blueprint.topLevel p)) with
  | some held =>
    obtain ⟨rfl, rfl⟩ := (registerGeneric_of_some hheld owner g).unique hrun
    exact ⟨_, registerGeneric_of_some (hkeys.get?_of_some hheld) owner g, registry, notices, rfl,
      hkeys⟩
  | none =>
    obtain ⟨rfl, rfl⟩ := (registerGeneric_of_none hheld owner g).unique hrun
    have hfree := hkeys.get?_of_none hunaliased hp hg hheld
    exact ⟨_, registerGeneric_of_none hfree owner g, _, notices, rfl,
      hkeys.register hp hg hheld hfree⟩

theorem follows_addOwner (h : GenericHandle) (owner : GenericOwner) :
    Build.Follows (Rescoped setup) (Build.addOwner h owner) := by
  refine .read (fun _ _ _ => rfl) fun s => ?_
  split
  · exact .pure ()
  split
  · exact .pure ()
  refine .bind (follows_modifyStore _) fun _ => ?_
  split
  · exact follows_notice _
  · exact .pure ()

section Declaring

variable (hunaliased : setup.Unaliased) {p : TypePlan} (hp : p ∈ setup.types)
include hunaliased hp

theorem follows_declareGeneric (owner : GenericOwner)
    (acc : Array GenericHandle × Array PendingGeneric) {g : GenericPlan}
    (hg : g.index ∈ p.declaredIndices) :
    Build.Follows (Rescoped setup)
      (Setup.declareGeneric owner (setup.blueprint.topLevel p) acc g) := by
  intro s u out s' h hrun
  unfold Setup.declareGeneric at hrun ⊢
  rw [Build.yields_get_bind] at hrun
  obtain ⟨entry, s₁, hregister, hrest⟩ := Build.yields_bind.mp hrun
  obtain ⟨u₁, hregister', h₁⟩ := h.register hunaliased hp hg hregister
  suffices hnext : Build.Follows (Rescoped setup) _ by
    obtain ⟨u', hrest', h'⟩ := hnext s₁ u₁ out s' h₁ hrest
    exact ⟨u', Build.yields_get_bind.mpr
      (Build.yields_bind.mpr ⟨entry, u₁, hregister', hrest'⟩), h'⟩
  refine .bind (follows_addOwner _ owner) fun _ => ?_
  split
  · exact .bind (follows_notice _) fun _ => .pure _
  · exact .pure _

theorem follows_declareGenerics (owner : GenericOwner) (listed : Array GenericHandle)
    {params : Array GenericPlan} (hparams : ∀ g ∈ params.toList, g.index ∈ p.declaredIndices) :
    Build.Follows (Rescoped setup)
      (Setup.declareGenerics owner (setup.blueprint.topLevel p) listed params) :=
  .foldlM (fun acc _ hg => follows_declareGeneric hunaliased hp owner acc (hparams _ hg)) _

end Declaring

/-! ## References -/

/-- What the atoms of a reference stand for on the left they stand for on the right. -/
theorem Rescopes.covers {s : BuildState} {registry : GenericRegistry} {notices : Array Notice}
    (h : Rescopes setup s.registry registry) (topLevel : Token) :
    (s.scope topLevel).Covers ({ s with registry, notices }.scope topLevel) := by
  have hindex {reference : TypeRef} {i : UInt32} {g : GenericHandle}
      (hg : (s.scope topLevel).resolveIndex reference i = .ok g) :
      ({ s with registry, notices }.scope topLevel).resolveIndex reference i = .ok g :=
    Scope.resolveIndex_eq_ok.mpr (h.get?_of_some (Scope.resolveIndex_eq_ok.mp hg))
  intro a sig hsig
  cases a with
  | primitive _ => exact hsig
  | typeDef _ => exact hsig
  | var i =>
    obtain ⟨g, hg, rfl⟩ := map_eq_ok.mp hsig
    exact map_eq_ok.mpr ⟨g, hindex hg, rfl⟩
  | mvar i =>
    obtain ⟨g, hg, rfl⟩ := map_eq_ok.mp hsig
    exact map_eq_ok.mpr ⟨g, hindex hg, rfl⟩

variable (hresolver : setup.resolver = Resolver.default)
include hresolver

theorem follows_resolve (topLevel : Token) (r : TypeRef) :
    Build.Follows (Rescoped setup) (setup.resolve topLevel r) := by
  rintro s u sig s' ⟨registry, notices, rfl, hkeys⟩ hrun
  obtain ⟨hsig, rfl⟩ := (yields_resolve hresolver).mp hrun
  refine ⟨_, (yields_resolve hresolver).mpr ⟨?_, rfl⟩, registry, notices, rfl, hkeys⟩
  exact Scope.resolve_covers (hkeys.covers topLevel) hsig

theorem follows_constrainGenerics (topLevel : Token) (pending : Array PendingGeneric) :
    Build.Follows (Rescoped setup) (setup.constrainGenerics topLevel pending) :=
  .forM fun _ _ => .bind (.forM fun c _ => .bind (follows_resolve hresolver topLevel c) fun _ =>
    follows_modifyStore _) fun _ => follows_modifyStore _

end Steps

end ClrImage
