import ClrImage.Proofs.Independence
import ClrImage.Proofs.Objects

/-!
# Runs in lock step

The same steps for one type, taken in two states of a build, do the same: they fail alike or make
the same objects, up to the handles. This module says what the two states have to have in common,
and gives one rule for each way of putting steps together, so that the two runs of a step are
compared by comparing those of its parts.

- `StaysWithin`, `Confined`: what steps for some types leave alone.
- `Twin`: a type and two states in which its members are to be made, with what both states have
  in common.
- `Twin.Coupled`: the two states on the way. The objects made so far are paired, and the pairing
  grows with them.
- `Agree`: two outcomes are the same failure, or related values.
- `Twin.Couples`: two steps keep states coupled and have outcomes that agree. Its rules are
  `Couples.bind`, `Couples.mapM`, `Couples.forM`, …
-/

namespace ClrImage

/-! ## What steps leave alone -/

/-- The two types differ at most in the members that they list. -/
def TypeDef.SameFrame (t u : TypeDef) : Prop :=
  u = { t with
    fields := u.fields, methods := u.methods, properties := u.properties, events := u.events }

namespace TypeDef.SameFrame

variable {t u v : TypeDef}

theorem refl (t : TypeDef) : t.SameFrame t := rfl

theorem symm (h : t.SameFrame u) : u.SameFrame t := by
  unfold SameFrame
  rw [h]

theorem trans (h₁ : t.SameFrame u) (h₂ : u.SameFrame v) : t.SameFrame v := by
  unfold SameFrame
  rw [h₂, h₁]

/-- Listing other members does not show. -/
theorem withHandles (m : MemberSort) (t : TypeDef) (handles : Array (Handle m.kind)) :
    t.SameFrame (m.places.withHandles t handles) := by
  cases m <;> rfl

end TypeDef.SameFrame

/-- In the two states a handle names types of one frame, or no type. -/
def BuildState.SameFrames (s s' : BuildState) : Prop :=
  ∀ h, Option.Rel TypeDef.SameFrame (s.store.types.get? h) (s'.store.types.get? h)

namespace BuildState.SameFrames

variable {s s₁ s' : BuildState}

theorem of_eq (h : s'.store.types = s.store.types) : s.SameFrames s' := by
  intro g
  rw [h]
  cases s.store.types.get? g with
  | none => exact .none
  | some t => exact .some (.refl t)

theorem symm (h : s.SameFrames s') : s'.SameFrames s := by
  intro g
  obtain ⟨hs, hs'⟩ | ⟨t, u, hs, hs', hframe⟩ := rel_cases (h g) <;> rw [hs, hs']
  · exact .none
  · exact .some hframe.symm

theorem trans (h₁ : s.SameFrames s₁) (h₂ : s₁.SameFrames s') : s.SameFrames s' :=
  fun g => rel_meet (fun _ _ _ ht hu => ht.symm.trans hu) (h₁.symm g) (h₂ g)

/-- The type of a handle has the same frame in the other state. -/
theorem of_some (h : s.SameFrames s') {g : TypeHandle} {t : TypeDef}
    (ht : s.store.types.get? g = some t) :
    ∃ u, s'.store.types.get? g = some u ∧ t.SameFrame u := by
  obtain ⟨hnone, -⟩ | ⟨t', u, ht', hu, hframe⟩ := rel_cases (h g)
  · cases ht.symm.trans hnone
  · obtain rfl := Option.some.inj (ht.symm.trans ht')
    exact ⟨u, hu, hframe⟩

end BuildState.SameFrames

variable {setup : Setup} {plans plans' : List TypePlan}

/-- Steps for some types link and list only their members, and register only their methods'
parameters. -/
structure StaysWithin (setup : Setup) (plans : List TypePlan) (s s' : BuildState) : Prop
    extends BuildState.Extends s s' where
  size : s'.store.types.size = s.store.types.size
  frames : s.SameFrames s'
  linkedTypes : s'.links.types = s.links.types
  otherTypes : ∀ h, (∀ q ∈ plans, s.links.types.get? q.token ≠ some h) →
    s'.store.types.get? h = s.store.types.get? h
  otherLinks : ∀ (m : MemberSort) (token : Token), (∀ q ∈ plans, token ∉ m.tokens q) →
    (m.places.table s'.links).get? token = (m.places.table s.links).get? token
  otherKeys : ∀ key, (∀ q ∈ plans, ¬ setup.PlansKey q key) →
    s'.registry.get? key = s.registry.get? key

namespace StaysWithin

variable {s s₁ s' : BuildState}

/-- Staging registers parameters at most. -/
theorem of_stages (h : Stages s s') (hkeys : ∀ key, (∀ q ∈ plans, ¬ setup.PlansKey q key) →
    s'.registry.get? key = s.registry.get? key) : StaysWithin setup plans s s' where
  toExtends := h.toExtends
  size := by rw [h.types_eq]
  frames := .of_eq h.types_eq
  linkedTypes := by rw [h.links_eq]
  otherTypes _ _ := by rw [h.types_eq]
  otherLinks _ _ _ := by rw [h.links_eq]
  otherKeys := hkeys

theorem refl (s : BuildState) : StaysWithin setup plans s s :=
  .of_stages (.refl s) fun _ _ => rfl

theorem append (h₁ : StaysWithin setup plans s s₁) (h₂ : StaysWithin setup plans' s₁ s') :
    StaysWithin setup (plans ++ plans') s s' where
  toExtends := h₁.toExtends.trans h₂.toExtends
  size := h₂.size.trans h₁.size
  frames := h₁.frames.trans h₂.frames
  linkedTypes := h₂.linkedTypes.trans h₁.linkedTypes
  otherTypes h hh := by
    rw [List.forall_mem_append] at hh
    rw [h₂.otherTypes h (by rw [h₁.linkedTypes]; exact hh.2), h₁.otherTypes h hh.1]
  otherLinks m token htoken := by
    rw [List.forall_mem_append] at htoken
    rw [h₂.otherLinks m token htoken.2, h₁.otherLinks m token htoken.1]
  otherKeys key hkey := by
    rw [List.forall_mem_append] at hkey
    rw [h₂.otherKeys key hkey.2, h₁.otherKeys key hkey.1]

theorem mono (hplans : ∀ q ∈ plans, q ∈ plans') (h : StaysWithin setup plans s s') :
    StaysWithin setup plans' s s' where
  toExtends := h.toExtends
  size := h.size
  frames := h.frames
  linkedTypes := h.linkedTypes
  otherTypes g hg := h.otherTypes g fun q hq => hg q (hplans q hq)
  otherLinks m token htoken := h.otherLinks m token fun q hq => htoken q (hplans q hq)
  otherKeys key hkey := h.otherKeys key fun q hq => hkey q (hplans q hq)

theorem trans (h₁ : StaysWithin setup plans s s₁) (h₂ : StaysWithin setup plans s₁ s') :
    StaysWithin setup plans s s' :=
  (h₁.append h₂).mono fun _ hq => (List.mem_append.mp hq).elim id id

end StaysWithin

/-- Also the parameters that were there before are left as they were. -/
structure Confined (setup : Setup) (plans : List TypePlan) (s s' : BuildState) : Prop
    extends StaysWithin setup plans s s' where
  unchanged : s.store.generics.Extends Eq s'.store.generics

namespace Confined

variable {s s₁ s' : BuildState}

theorem refl (s : BuildState) : Confined setup plans s s := ⟨.refl s, .refl Eq.refl _⟩

theorem append (h₁ : Confined setup plans s s₁) (h₂ : Confined setup plans' s₁ s') :
    Confined setup (plans ++ plans') s s' :=
  ⟨h₁.toStaysWithin.append h₂.toStaysWithin,
    h₁.unchanged.trans (fun _ _ _ => Eq.trans) h₂.unchanged⟩

/-- Further steps may change the parameters that were made on the way. -/
theorem step (h : Confined setup plans s s₁) (hstep : StaysWithin setup plans s₁ s')
    (hgenerics : ∀ g x, s.store.generics.get? g = some x → s₁.store.generics.get? g = some x →
      s'.store.generics.get? g = some x) : Confined setup plans s s' where
  toStaysWithin := h.toStaysWithin.trans hstep
  unchanged g x hx := ⟨x, hgenerics g x hx (h.unchanged.get?_eq hx), rfl⟩

/-- Objects of any other kind than types are left as they were. -/
theorem get?_eq (h : Confined setup plans s s') {k : ObjectKind} (htype : k ≠ .type)
    {g : Handle k} {x : Object k} (hx : (s.store.arena k).get? g = some x) :
    (s'.store.arena k).get? g = some x := by
  by_cases hgeneric : k = .generic
  · subst hgeneric
    exact h.unchanged.get?_eq hx
  · exact h.toExtends.get?_eq htype hgeneric hx

end Confined

/-! ## Two states for one type -/

/-- A type whose members are to be made, in two states that differ only in what does not matter for
it: in the members of other types, and in the parameters of their methods. The objects that both
states start from are paired. -/
structure Twin where
  setup : Setup
  plan : TypePlan
  base : Pairing
  left : BuildState
  right : BuildState
  resolver : setup.resolver = Resolver.default
  independent : setup.Independent
  distinct : setup.DistinctTokens
  planned : plan ∈ setup.types
  size : right.store.types.size = left.store.types.size
  frames : left.SameFrames right
  linkedTypes : right.links.types = left.links.types
  types : ∀ g h : TypeHandle, base.pairs g h ↔ g = h ∧ left.Live g
  scope : left.registry.scope = setup.config.registryScope
  scope' : right.registry.scope = setup.config.registryScope
  registered : ∀ key, setup.VisibleTo plan key →
    Option.Rel base.pairs (left.registry.get? key) (right.registry.get? key)

namespace Twin

variable {w : Twin} {ρ σ : Pairing} {b b' : BuildState}

/-- The two objects are paired, and have been made on the way. -/
def New (w : Twin) (ρ : Pairing) {k : ObjectKind} (g h : Handle k) : Prop :=
  ρ.pairs g h ∧ ¬ w.left.Live g ∧ ¬ w.right.Live h

/-- Two states that the steps for the type lead to. What has been made and registered, linked and
listed for the type is paired. -/
structure Coupled (w : Twin) (ρ : Pairing) (b b' : BuildState) : Prop where
  base : w.base ≤ ρ
  left : Confined w.setup [w.plan] w.left b
  right : Confined w.setup [w.plan] w.right b'
  new : ∀ {k : ObjectKind} (g h : Handle k), ρ.pairs g h →
    w.base.pairs g h ∨ (k ≠ .type ∧ w.New ρ g h)
  objects : ∀ k, k ≠ .type → (b.store.arena k).Paired ρ (Object.Same ρ k) (b'.store.arena k)
  registered : ∀ key, w.setup.PlansKey w.plan key →
    Option.Rel (w.New ρ) (b.registry.get? key) (b'.registry.get? key)
  linked : ∀ (m : MemberSort) (token : Token), token ∈ m.tokens w.plan →
    Option.Rel ρ.pairs ((m.places.table b.links).get? token) ((m.places.table b'.links).get? token)
  listed : ∀ h t u, w.left.links.types.get? w.plan.token = some h →
    b.store.types.get? h = some t → b'.store.types.get? h = some u → ∀ m : MemberSort,
    List.Forall₂ ρ.pairs (m.places.handles t).toList (m.places.handles u).toList

namespace Coupled

variable (hc : w.Coupled ρ b b')
include hc

/-- Types are paired with themselves. -/
theorem types {g h : TypeHandle} (hpair : ρ.pairs g h) : g = h ∧ w.left.Live g := by
  rcases hc.new g h hpair with hbase | ⟨hkind, -⟩
  · exact (w.types g h).mp hbase
  · exact absurd rfl hkind

theorem linkedTypes : b'.links.types = b.links.types :=
  hc.right.linkedTypes.trans (w.linkedTypes.trans hc.left.linkedTypes.symm)

theorem size : b'.store.types.size = b.store.types.size :=
  hc.right.size.trans (w.size.trans hc.left.size.symm)

theorem frames : b.SameFrames b' :=
  hc.left.frames.symm.trans (w.frames.trans hc.right.frames)

theorem key_eq (index : UInt32) :
    b.registry.key index (w.setup.blueprint.topLevel w.plan) = w.setup.keyAt w.plan index :=
  GenericRegistry.key_congr (hc.left.registryScope.trans w.scope) index _

theorem key_eq' (index : UInt32) :
    b'.registry.key index (w.setup.blueprint.topLevel w.plan) = w.setup.keyAt w.plan index :=
  GenericRegistry.key_congr (hc.right.registryScope.trans w.scope') index _

/-- A key that no other type's method declares holds paired parameters, or none. -/
theorem visible {key : GenericKey} (hkey : w.setup.VisibleTo w.plan key) :
    Option.Rel ρ.pairs (b.registry.get? key) (b'.registry.get? key) := by
  by_cases hown : w.setup.PlansKey w.plan key
  · exact rel_imp (fun _ _ => And.left) (hc.registered key hown)
  · have hothers : ∀ q ∈ [w.plan], ¬ w.setup.PlansKey q key := by
      rintro q hq
      rwa [List.mem_singleton.mp hq]
    rw [hc.left.otherKeys key hothers, hc.right.otherKeys key hothers]
    exact rel_imp (fun _ _ => Pairing.pairs_mono hc.base) (w.registered key hkey)

/-- The objects of paired handles are there. -/
theorem live {k : ObjectKind} {g h : Handle k} (hpair : ρ.pairs g h) : b.Live g ∧ b'.Live h := by
  by_cases hkind : k = .type
  · subst hkind
    obtain ⟨rfl, hlive⟩ := hc.types hpair
    have hlive' := hc.left.live hlive
    obtain ⟨t, ht⟩ := hlive'
    obtain ⟨u, hu, -⟩ := hc.frames.of_some ht
    exact ⟨⟨t, ht⟩, u, hu⟩
  · obtain ⟨x, y, hx, hy, -⟩ := hc.objects k hkind g h hpair
    exact ⟨⟨x, hx⟩, y, hy⟩

end Coupled

theorem New.mono (hle : ρ ≤ σ) {k : ObjectKind} {g h : Handle k} (hnew : w.New ρ g h) :
    w.New σ g h :=
  ⟨Pairing.pairs_mono hle hnew.1, hnew.2⟩

end Twin

/-! ## Steps in lock step -/

/-- The two outcomes are the same failure, or related values. -/
inductive Agree {α β : Type} (R : α → β → Prop) : Except Failure α → Except Failure β → Prop
  | ok {a : α} {b : β} (h : R a b) : Agree R (.ok a) (.ok b)
  | error (e : Failure) : Agree R (.error e) (.error e)

namespace Agree

variable {α α' β β' : Type} {R : α → α' → Prop} {S : β → β' → Prop}

theorem refl (x : Except Failure α) : Agree Eq x x := by
  cases x with
  | ok a => exact .ok rfl
  | error e => exact .error e

theorem bind {x : Except Failure α} {x' : Except Failure α'} {f : α → Except Failure β}
    {f' : α' → Except Failure β'} (h : Agree R x x') (hf : ∀ a a', R a a' → Agree S (f a) (f' a')) :
    Agree S (x >>= f) (x' >>= f') := by
  cases h with
  | ok h => exact hf _ _ h
  | error e => exact .error e

theorem map {x : Except Failure α} {x' : Except Failure α'} {f : α → β} {f' : α' → β'}
    (h : Agree R x x') (hf : ∀ a a', R a a' → S (f a) (f' a')) : Agree S (x.map f) (x'.map f') := by
  cases h with
  | ok h => exact .ok (hf _ _ h)
  | error e => exact .error e

/-- Outcomes with equal values are equal. -/
theorem eq {x x' : Except Failure α} (h : Agree Eq x x') : x = x' := by
  cases h with
  | ok h => rw [h]
  | error e => rfl

end Agree

namespace Twin

/-- From states that are coupled the two steps lead to states that are coupled, with outcomes that
agree; the values may speak of objects made on the way. -/
def Couples (w : Twin) {α α' : Type} (ρ : Pairing) (R : Pairing → α → α' → Prop) (step : Build α)
    (step' : Build α') : Prop :=
  ∀ b b', w.Coupled ρ b b' → ∃ σ, ρ ≤ σ ∧
    w.Coupled σ (step.outcome b).2 (step'.outcome b').2 ∧
    Agree (R σ) (step.outcome b).1 (step'.outcome b').1

namespace Couples

variable {w : Twin} {ρ : Pairing} {α α' β β' : Type} {R : Pairing → α → α' → Prop}
  {S : Pairing → β → β' → Prop}

theorem pure {a : α} {a' : α'} (h : R ρ a a') :
    w.Couples ρ R (pure a : Build α) (pure a' : Build α') :=
  fun _ _ hc => ⟨ρ, le_refl ρ, hc, .ok h⟩

theorem throw (e : Failure) : w.Couples ρ R (throw e : Build α) (throw e : Build α') :=
  fun _ _ hc => ⟨ρ, le_refl ρ, hc, .error e⟩

theorem liftExcept {x : Except Failure α} {x' : Except Failure α'} (h : Agree (R ρ) x x') :
    w.Couples ρ R (liftExcept x : Build α) (liftExcept x' : Build α') := by
  intro b b' hc
  refine ⟨ρ, le_refl ρ, ?_⟩
  rw [Build.outcome_liftExcept, Build.outcome_liftExcept]
  exact ⟨hc, h⟩

theorem bind {step : Build α} {step' : Build α'} {next : α → Build β} {next' : α' → Build β'}
    (h : w.Couples ρ R step step')
    (hnext : ∀ σ a a', ρ ≤ σ → R σ a a' → w.Couples σ S (next a) (next' a')) :
    w.Couples ρ S (step >>= next) (step' >>= next') := by
  intro b b' hc
  obtain ⟨σ, hle, hc₁, hagree⟩ := h b b' hc
  rcases hrun : step.outcome b with ⟨r, b₁⟩
  rcases hrun' : step'.outcome b' with ⟨r', b₁'⟩
  rw [hrun, hrun'] at hc₁ hagree
  rw [Build.outcome_bind, Build.outcome_bind, hrun, hrun']
  cases hagree with
  | ok hR =>
    obtain ⟨τ, hle', hc₂, hagree₂⟩ := hnext σ _ _ hle hR b₁ b₁' hc₁
    exact ⟨τ, hle.trans hle', hc₂, hagree₂⟩
  | error e => exact ⟨σ, hle, hc₁, .error e⟩

/-- One step after another. -/
theorem seq {step step' : Build Unit} {next : Unit → Build β} {next' : Unit → Build β'}
    (h : w.Couples ρ (fun _ => Eq) step step')
    (hnext : ∀ σ, ρ ≤ σ → w.Couples σ S (next ()) (next' ())) :
    w.Couples ρ S (step >>= next) (step' >>= next') :=
  h.bind fun σ _ _ hle _ => hnext σ hle

/-- What is read off a state counts as far as it is the same in all coupled states. -/
theorem get_bind {next : BuildState → Build β} {next' : BuildState → Build β'}
    (h : ∀ b b', w.Coupled ρ b b' → w.Couples ρ S (next b) (next' b')) :
    w.Couples ρ S (get >>= next) (get >>= next') :=
  fun b b' hc => h b b' hc b b' hc

theorem tryCatch {step : Build α} {step' : Build α'} {handle : Failure → Build α}
    {handle' : Failure → Build α'} (h : w.Couples ρ R step step')
    (hhandle : ∀ σ e, ρ ≤ σ → w.Couples σ R (handle e) (handle' e)) :
    w.Couples ρ R (tryCatch step handle) (tryCatch step' handle') := by
  intro b b' hc
  obtain ⟨σ, hle, hc₁, hagree⟩ := h b b' hc
  rcases hrun : step.outcome b with ⟨r, b₁⟩
  rcases hrun' : step'.outcome b' with ⟨r', b₁'⟩
  rw [hrun, hrun'] at hc₁ hagree
  rw [Build.outcome_tryCatch, Build.outcome_tryCatch, hrun, hrun']
  cases hagree with
  | ok hR => exact ⟨σ, hle, hc₁, .ok hR⟩
  | error e =>
    obtain ⟨τ, hle', hc₂, hagree₂⟩ := hhandle σ e hle b₁ b₁' hc₁
    exact ⟨τ, hle.trans hle', hc₂, hagree₂⟩

/-- The results of a pass are related one by one. -/
theorem mapM (hS : Monotone S) {f : α → Build β} {f' : α → Build β'} (l : List α)
    (h : ∀ a ∈ l, ∀ σ, ρ ≤ σ → w.Couples σ S (f a) (f' a)) :
    w.Couples ρ (fun σ => List.Forall₂ (S σ)) (l.mapM f) (l.mapM f') := by
  induction l generalizing ρ with
  | nil =>
    rw [List.mapM_nil, List.mapM_nil]
    exact .pure .nil
  | cons a l ih =>
    rw [List.mapM_cons, List.mapM_cons]
    refine .bind (h a List.mem_cons_self ρ (le_refl ρ)) fun σ c c' hle hfirst => ?_
    have htail := ih fun d hd τ hτ => h d (List.mem_cons_of_mem a hd) τ (hle.trans hτ)
    -- the first result is still related when the others have been made
    exact .bind htail fun τ cs cs' hle' hrest => .pure (.cons (hS hle' c c' hfirst) hrest)

/-- A pass over related elements. -/
theorem forM (hR : Monotone R) {f : α → Build Unit} {f' : α' → Build Unit} {l : List α}
    {l' : List α'} (hl : List.Forall₂ (R ρ) l l')
    (h : ∀ σ a a', ρ ≤ σ → R σ a a' → w.Couples σ (fun _ => Eq) (f a) (f' a')) :
    w.Couples ρ (fun _ => Eq) (l.forM f) (l'.forM f') := by
  induction l generalizing l' ρ with
  | nil =>
    cases hl
    exact .pure rfl
  | cons a l ih =>
    cases hl with
    | cons hfirst hrest =>
      rw [Build.forM_cons_eq, Build.forM_cons_eq]
      refine .bind (h ρ _ _ (le_refl ρ) hfirst) fun σ _ _ hle _ => ?_
      exact ih (hrest.imp (hR hle)) fun τ c c' hle' => h τ c c' (hle.trans hle')

/-- A pass that carries related values along. -/
theorem foldlM {f : α → β → Build α} {f' : α' → β → Build α'} (l : List β)
    (h : ∀ d ∈ l, ∀ σ a a', ρ ≤ σ → R σ a a' → w.Couples σ R (f a d) (f' a' d)) {a : α} {a' : α'}
    (ha : R ρ a a') : w.Couples ρ R (l.foldlM f a) (l.foldlM f' a') := by
  induction l generalizing a a' ρ with
  | nil => exact .pure ha
  | cons d l ih =>
    rw [List.foldlM_cons, List.foldlM_cons]
    refine .bind (h d List.mem_cons_self ρ a a' (le_refl ρ) ha) fun σ c c' hle hc => ?_
    exact ih (fun e he τ c c' hle' => h e (List.mem_cons_of_mem d he) τ c c' (hle.trans hle')) hc

end Couples

end Twin

end ClrImage
