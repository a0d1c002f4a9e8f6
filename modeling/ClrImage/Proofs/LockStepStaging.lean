import ClrImage.Proofs.LockStepReading

/-!
# Making members in lock step

The steps that give a type its members, taken in two coupled states, keep the states coupled. The
rules for single steps come first: making an object, registering a parameter, changing one that was
made on the way. Each step of staging is then put together from its parts.

- `Coupled.make`: one more object in both states.
- `couples_alloc`, `couples_registerGeneric`, `couples_modifyGeneric`: the single steps.
- `couples_makeField`, `couples_makeMethod`, …: single members.
- `couples_stage`: all members of the type.
-/

namespace ClrImage

namespace Twin

variable {w : Twin} {ρ : Pairing}

/-! ## Single steps -/

theorem couples_notice (n n' : Notice) :
    w.Couples ρ (fun _ => Eq) (Build.notice n) (Build.notice n') := by
  intro b b' hc
  have hleft : StaysWithin w.setup [w.plan] b ((Build.notice n).outcome b).2 :=
    .of_stages ((keeps_notice n).stages b) fun _ _ => rfl
  have hright : StaysWithin w.setup [w.plan] b' ((Build.notice n').outcome b').2 :=
    .of_stages ((keeps_notice n').stages b') fun _ _ => rfl
  refine ⟨ρ, le_refl ρ, ?_, .ok rfl⟩
  exact { hc with
    left := hc.left.step hleft fun _ _ _ hx => hx
    right := hc.right.step hright fun _ _ _ hx => hx }

theorem couples_resolve {r : TypeRef} (hvisible : ∀ i ∈ TypeRef.indices r,
    w.setup.VisibleTo w.plan (w.setup.keyAt w.plan i)) :
    w.Couples ρ Pairing.signature (w.setup.resolve (w.setup.blueprint.topLevel w.plan) r)
      (w.setup.resolve (w.setup.blueprint.topLevel w.plan) r) := by
  refine .get_bind fun b b' hc => .liftExcept ?_
  rw [w.resolver]
  exact hc.resolve hvisible

/-- An object that an arena has gained shows in no other arena, and hides nothing. -/
theorem get?_withArena_alloc {s : Store} {j k : ObjectKind} {h : Handle j} {x : Object j}
    (y : Object k) (hx : (s.arena j).get? h = some x) :
    ((s.withArena k ((s.arena k).alloc y)).arena j).get? h = some x := by
  by_cases hjk : j = k
  · subst hjk
    rw [Store.arena_withArena]
    exact Arena.get?_alloc_of_some y hx
  · rw [Store.arena_withArena_of_ne _ _ hjk]
    exact hx

/-- One more object of a kind in both states, the two of them paired. -/
theorem Coupled.make {b b' b₁ b₁' : BuildState} (hc : w.Coupled ρ b b') {k : ObjectKind}
    (htype : k ≠ .type) {x y : Object k} (hsame : Object.Same ρ k x y)
    (hstep : StaysWithin w.setup [w.plan] b b₁) (hstep' : StaysWithin w.setup [w.plan] b' b₁')
    (hstore : b₁.store = b.store.withArena k ((b.store.arena k).alloc x))
    (hstore' : b₁'.store = b'.store.withArena k ((b'.store.arena k).alloc y))
    (hlinks : b₁.links = b.links) (hlinks' : b₁'.links = b'.links)
    (hregistered : ∀ σ : Pairing, ρ ≤ σ →
      w.New σ (b.store.arena k).next (b'.store.arena k).next →
      ∀ key, w.setup.PlansKey w.plan key →
        Option.Rel (w.New σ) (b₁.registry.get? key) (b₁'.registry.get? key)) :
    ∃ σ : Pairing, ρ ≤ σ ∧ w.Coupled σ b₁ b₁' ∧
      w.New σ (b.store.arena k).next (b'.store.arena k).next := by
  have hfree {s : BuildState} : ¬ s.Live (s.store.arena k).next :=
    (BuildState.Extends.refl s).not_live_next k
  -- what is paired is there already, so the two next handles are not
  let σ := ρ.insert (b.store.arena k).next (b'.store.arena k).next
    (fun _ hpair => hfree (hc.live hpair).1) (fun _ hpair => hfree (hc.live hpair).2)
  have hle : ρ ≤ σ := Pairing.le_insert
  have hnew : w.New σ (b.store.arena k).next (b'.store.arena k).next :=
    ⟨Pairing.insert_self, hc.left.toExtends.not_live_next k, hc.right.toExtends.not_live_next k⟩
  have htypes : b₁.store.types = b.store.types := by
    rw [hstore]
    exact Store.arena_withArena_of_ne _ _ htype.symm
  have htypes' : b₁'.store.types = b'.store.types := by
    rw [hstore']
    exact Store.arena_withArena_of_ne _ _ htype.symm
  refine ⟨σ, hle, ?_, hnew⟩
  constructor
  case base => exact hc.base.trans hle
  case left =>
    refine hc.left.step hstep fun g z _ hz => ?_
    rw [hstore]
    exact get?_withArena_alloc (j := .generic) x hz
  case right =>
    refine hc.right.step hstep' fun g z _ hz => ?_
    rw [hstore']
    exact get?_withArena_alloc (j := .generic) y hz
  case new =>
    intro j g h hpair
    rcases Pairing.of_insert hpair with hold | ⟨rfl, rfl, rfl⟩
    · exact (hc.new g h hold).imp id fun ⟨hkind, hmade⟩ => ⟨hkind, hmade.mono hle⟩
    · exact .inr ⟨htype, hnew⟩
  case objects =>
    intro j hj g h hpair
    rw [hstore, hstore']
    rcases Pairing.of_insert hpair with hold | ⟨rfl, rfl, rfl⟩
    · obtain ⟨u, v, hu, hv, huv⟩ := hc.objects j hj g h hold
      exact ⟨u, v, get?_withArena_alloc x hu, get?_withArena_alloc y hv, huv.mono hle⟩
    · rw [Store.arena_withArena, Store.arena_withArena]
      exact ⟨x, y, Arena.get?_alloc_next _ x, Arena.get?_alloc_next _ y, hsame.mono hle⟩
  case registered => exact hregistered σ hle hnew
  case linked =>
    intro m token htoken
    rw [hlinks, hlinks']
    exact rel_imp (fun _ _ => Pairing.pairs_mono hle) (hc.linked m token htoken)
  case listed =>
    intro h t u hlink ht hu m
    rw [htypes] at ht
    rw [htypes'] at hu
    exact (hc.listed h t u hlink ht hu m).imp fun _ _ => Pairing.pairs_mono hle

theorem keeps_alloc {k : ObjectKind} (htype : k ≠ .type) (hgeneric : k ≠ .generic) (x : Object k) :
    Build.Keeps Stages (Build.alloc x) := by
  cases k
  case type => exact absurd rfl htype
  case generic => exact absurd rfl hgeneric
  case field => exact (keeps_allocField x).stages
  case param => exact (keeps_allocParam x).stages
  case method => exact keeps_allocMethod x
  case property => exact (keeps_allocProperty x).stages
  case event => exact (keeps_allocEvent x).stages

/-- A member or a parameter of a method is made. -/
theorem couples_alloc {k : ObjectKind} (htype : k ≠ .type) (hgeneric : k ≠ .generic)
    {x y : Object k} (hsame : Object.Same ρ k x y) :
    w.Couples ρ (fun σ => σ.pairs) (Build.alloc x) (Build.alloc y) := by
  intro b b' hc
  have hstep : StaysWithin w.setup [w.plan] b ((Build.alloc x).outcome b).2 :=
    .of_stages (keeps_alloc htype hgeneric x b) fun _ _ => rfl
  have hstep' : StaysWithin w.setup [w.plan] b' ((Build.alloc y).outcome b').2 :=
    .of_stages (keeps_alloc htype hgeneric y b') fun _ _ => rfl
  obtain ⟨σ, hle, hcoupled, hnew⟩ := hc.make htype hsame hstep hstep' rfl rfl rfl rfl
    fun σ hle _ key hkey => rel_imp (fun _ _ => New.mono hle) (hc.registered key hkey)
  exact ⟨σ, hle, hcoupled, .ok hnew.1⟩

/-- A parameter that is made for a key is registered under it, and nothing else changes. -/
theorem registerGeneric_staysWithin {key : GenericKey} (hkey : w.setup.PlansKey w.plan key)
    (owner : GenericOwner) (g : GenericPlan) {s s' : BuildState} {r : GenericHandle × Bool}
    (hrun : (Build.registerGeneric key owner g).Yields s r s') :
    StaysWithin w.setup [w.plan] s s' := by
  obtain ⟨h, isNew, s₁, hrun', hregisters⟩ := registerGeneric_registers (fun _ => key) owner g s
  obtain ⟨-, rfl⟩ := hrun.unique hrun'
  refine .of_stages hregisters.stages fun k hk => ?_
  have hne : k ≠ key := by
    rintro rfl
    exact hk w.plan List.mem_cons_self hkey
  obtain ⟨-, rfl⟩ := Build.yields_modifyGet.mp hrun
  exact (GenericRegistry.get?_register _ _ _ k).trans (if_neg hne)

/-- A parameter of a method is found in both states, or made in both. -/
theorem couples_registerGeneric {key : GenericKey} (hkey : w.setup.PlansKey w.plan key)
    (owner : GenericOwner) (g : GenericPlan) :
    w.Couples ρ (fun σ r r' => w.New σ r.1 r'.1 ∧ r'.2 = r.2)
      (Build.registerGeneric key owner g) (Build.registerGeneric key owner g) := by
  intro b b' hc
  obtain ⟨hb, hb'⟩ | ⟨g₀, h₀, hb, hb', hnew⟩ := rel_cases (hc.registered key hkey)
  · have hrun := registerGeneric_of_none hb owner g
    have hrun' := registerGeneric_of_none hb' owner g
    have hstep := registerGeneric_staysWithin hkey owner g hrun
    have hstep' := registerGeneric_staysWithin hkey owner g hrun'
    have hsame (σ : Pairing) (x : GenericParam) (hx : x.constraints = #[]) : x.Same σ x :=
      ⟨rfl, by rw [hx]; exact .nil⟩
    have hmake := hc.make (k := .generic) nofun (hsame ρ _ rfl) hstep hstep' rfl rfl rfl rfl
    obtain ⟨σ, hle, hcoupled, hnew⟩ := hmake fun σ hle hnew k hk => by
      simp only [GenericRegistry.get?, WriteOnce.get?_offer]
      split
      next =>
        simp only [GenericRegistry.get?] at hb hb'
        rw [hb, hb']
        exact .some hnew
      next => exact rel_imp (fun _ _ => New.mono hle) (hc.registered k hk)
    unfold Build.Yields at hrun hrun'
    rw [hrun, hrun']
    exact ⟨σ, hle, hcoupled, .ok ⟨hnew, rfl⟩⟩
  · have hrun := registerGeneric_of_some hb owner g
    have hrun' := registerGeneric_of_some hb' owner g
    unfold Build.Yields at hrun hrun'
    rw [hrun, hrun']
    exact ⟨ρ, le_refl ρ, hc, .ok ⟨hnew, rfl⟩⟩

/-- A change of two parameters that were made on the way. -/
theorem couples_modifyGeneric {g h : GenericHandle} (hnew : w.New ρ g h)
    {f f' : GenericParam → GenericParam} (hf : ∀ x, GenericParam.Alike x (f x))
    (hf' : ∀ x, GenericParam.Alike x (f' x)) (hsame : ∀ x y, x.Same ρ y → (f x).Same ρ (f' y)) :
    w.Couples ρ (fun _ => Eq) (Build.modifyGeneric g f) (Build.modifyGeneric h f') := by
  intro b b' hc
  have hstep : StaysWithin w.setup [w.plan] b ((Build.modifyGeneric g f).outcome b).2 :=
    .of_stages (keeps_modifyGeneric g hf b) fun _ _ => rfl
  have hstep' : StaysWithin w.setup [w.plan] b' ((Build.modifyGeneric h f').outcome b').2 :=
    .of_stages (keeps_modifyGeneric h hf' b') fun _ _ => rfl
  have hothers {s : BuildState} {a c : GenericHandle} {f : GenericParam → GenericParam}
      {x : GenericParam} (hne : a ≠ c) (hx : s.store.generics.get? a = some x) :
      (s.store.generics.modify c f).get? a = some x := by
    rw [Arena.get?_modify, if_neg hne, hx]
  refine ⟨ρ, le_refl ρ, ?_, .ok rfl⟩
  refine { hc with left := ?left, right := ?right, objects := ?objects }
  case left =>
    refine hc.left.step hstep fun a x hx hx' => hothers ?_ hx'
    rintro rfl
    exact hnew.2.1 ⟨x, hx⟩
  case right =>
    refine hc.right.step hstep' fun a x hx hx' => hothers ?_ hx'
    rintro rfl
    exact hnew.2.2 ⟨x, hx⟩
  case objects =>
    intro k hk a c hpair
    by_cases hkind : k = .generic
    · subst hkind
      obtain ⟨x, y, hx, hy, hxy⟩ := hc.generics hpair
      by_cases ha : a = g
      · -- the parameter is changed in both states
        have hc' : c = h := (Pairing.eq_iff hpair hnew.1).mp ha
        subst ha hc'
        refine ⟨f x, f' y, ?_, ?_, hsame x y hxy⟩
        · exact (Arena.get?_modify _ a f a).trans (by rw [if_pos rfl, hx]; rfl)
        · exact (Arena.get?_modify _ c f' c).trans (by rw [if_pos rfl, hy]; rfl)
      · have hc' : c ≠ h := ha ∘ (Pairing.eq_iff hpair hnew.1).mpr
        exact ⟨x, y, hothers ha hx, hothers hc' hy, hxy⟩
    · obtain ⟨x, y, hx, hy, hxy⟩ := hc.objects k hk a c hpair
      cases k <;> first | exact absurd rfl hk | exact absurd rfl hkind | exact ⟨x, y, hx, hy, hxy⟩

/-! ## Parameters of methods -/

theorem couples_addOwner {g h : GenericHandle} (hnew : w.New ρ g h) (owner : GenericOwner) :
    w.Couples ρ (fun _ => Eq) (Build.addOwner g owner) (Build.addOwner h owner) := by
  unfold Build.addOwner
  refine .get_bind fun b b' hc => ?_
  obtain ⟨x, y, hx, hy, hsame⟩ := hc.generics hnew.1
  have howners : y.owners = x.owners := by rw [hsame.rest]
  have howned : y.isOwnedBy owner = x.isOwnedBy owner := by rw [hsame.rest]; rfl
  rw [hx, hy]
  dsimp only
  rw [howned, howners]
  split
  · exact .pure rfl
  · refine .seq (couples_modifyGeneric hnew ?_ ?_ ?_) fun σ _ => ?_
    · exact fun _ => ⟨rfl, rfl, rfl, rfl, rfl⟩
    · exact fun _ => ⟨rfl, rfl, rfl, rfl, rfl⟩
    · exact fun x y h =>
        ⟨congrArg (fun z : GenericParam => { z with owners := z.owners.push owner }) h.rest,
          h.constraints⟩
    · split
      · exact couples_notice _ _
      · exact .pure rfl

/-- Two parameters that were made on the way for a method, and whose constraints are still to be
attached. -/
structure Pends (w : Twin) (m : MethodPlan) (σ : Pairing) (i i' : PendingGeneric) : Prop where
  new : w.New σ i.param i'.param
  constraints : i'.constraints = i.constraints
  planned : ∀ r ∈ i.constraints.toList, r ∈ m.references

theorem monotone_pends (m : MethodPlan) : Monotone (w.Pends m) :=
  fun _ _ hle _ _ h => ⟨h.new.mono hle, h.constraints, h.planned⟩

/-- What has been listed and what is pending for a method is paired. -/
structure Declares (w : Twin) (m : MethodPlan) (σ : Pairing)
    (acc acc' : Array GenericHandle × Array PendingGeneric) : Prop where
  listed : List.Forall₂ σ.pairs acc.1.toList acc'.1.toList
  pending : List.Forall₂ (w.Pends m σ) acc.2.toList acc'.2.toList

section Method

variable {m : MethodPlan} (hm : m ∈ w.plan.methods.toList)
include hm

/-- The references of a method name only visible keys. -/
theorem method_visible {r : TypeRef} (hr : r ∈ m.references) :
    ∀ i ∈ TypeRef.indices r, w.setup.VisibleTo w.plan (w.setup.keyAt w.plan i) :=
  w.independent.signature_visible w.distinct w.planned hm hr

theorem couples_declareGeneric {g : GenericPlan} (hg : g ∈ m.genericPlans)
    {acc acc' : Array GenericHandle × Array PendingGeneric} (hacc : w.Declares m ρ acc acc')
    (owner : GenericOwner) :
    w.Couples ρ (w.Declares m)
      (Setup.declareGeneric owner (w.setup.blueprint.topLevel w.plan) acc g)
      (Setup.declareGeneric owner (w.setup.blueprint.topLevel w.plan) acc' g) := by
  have hkey : w.setup.PlansKey w.plan (w.setup.keyAt w.plan g.index) :=
    ⟨m, hm, List.mem_map_of_mem (f := w.setup.genericKey w.plan) hg⟩
  unfold Setup.declareGeneric
  refine .get_bind fun b b' hc => ?_
  rw [hc.key_eq, hc.key_eq']
  refine .bind (couples_registerGeneric hkey owner g) fun σ r r' hle ⟨hnew, hisNew⟩ => ?_
  obtain ⟨h, isNew⟩ := r
  obtain ⟨h', isNew'⟩ := r'
  obtain rfl : isNew' = isNew := hisNew
  have hlisted : List.Forall₂ σ.pairs (listOnce acc.1 h).toList (listOnce acc'.1 h').toList :=
    Pairing.listOnce (hacc.listed.imp fun _ _ => Pairing.pairs_mono hle) hnew.1
  have hpending := hacc.pending.imp (monotone_pends m hle)
  refine .seq (couples_addOwner hnew owner) fun τ hle' => ?_
  have hlisted' := hlisted.imp fun _ _ => Pairing.pairs_mono hle'
  have hpending' := hpending.imp (monotone_pends m hle')
  split
  · refine .seq (couples_notice _ _) fun υ hle'' => .pure ⟨?_, ?_⟩
    · exact hlisted'.imp fun _ _ => Pairing.pairs_mono hle''
    · have hitem : w.Pends m υ ⟨h, g.constraints⟩ ⟨h', g.constraints⟩ :=
        ⟨(hnew.mono hle').mono hle'', rfl, fun r hr => List.mem_append_right _
          (List.mem_flatMap.mpr ⟨g, hg, hr⟩)⟩
      rw [Array.toList_push, Array.toList_push]
      exact List.rel_append (hpending'.imp (monotone_pends m hle'')) (.cons hitem .nil)
  · exact .pure ⟨hlisted', hpending'⟩

theorem couples_constrainGeneric {i i' : PendingGeneric} (hpends : w.Pends m ρ i i') :
    w.Couples ρ (fun _ => Eq)
      (w.setup.constrainGeneric (w.setup.blueprint.topLevel w.plan) i)
      (w.setup.constrainGeneric (w.setup.blueprint.topLevel w.plan) i') := by
  unfold Setup.constrainGeneric
  rw [hpends.constraints]
  have hsame : List.Forall₂ (fun r r' => r' = r ∧ r ∈ m.references) i.constraints.toList
      i.constraints.toList := by
    exact List.forall₂_same.mpr fun r hr => ⟨rfl, hpends.planned r hr⟩
  refine .seq ?_ fun σ hle => ?_
  · refine .forM (R := fun _ r r' => r' = r ∧ r ∈ m.references) monotone_const hsame ?_
    rintro σ r _ hle ⟨rfl, hr⟩
    refine .bind (couples_resolve (method_visible hm hr)) fun τ sig sig' hle' hsig => ?_
    refine couples_modifyGeneric ((hpends.new.mono hle).mono hle') ?_ ?_ ?_
    · exact fun _ => ⟨rfl, rfl, rfl, rfl, rfl⟩
    · exact fun _ => ⟨rfl, rfl, rfl, rfl, rfl⟩
    · refine fun x y h => ⟨congrArg (fun z : GenericParam =>
        { z with constraints := y.constraints.push sig' }) h.rest, ?_⟩
      rw [Array.toList_push, Array.toList_push]
      exact List.rel_append h.constraints (.cons hsig .nil)
  · refine couples_modifyGeneric (hpends.new.mono hle) ?_ ?_ ?_
    · exact fun _ => ⟨rfl, rfl, rfl, rfl, rfl⟩
    · exact fun _ => ⟨rfl, rfl, rfl, rfl, rfl⟩
    · exact fun x y h =>
        ⟨congrArg (fun z : GenericParam => { z with isConstrained := true }) h.rest, h.constraints⟩

/-- The parameters of a method are made and constrained alike. -/
theorem couples_makeMethodGenerics (name : String) :
    w.Couples ρ (fun σ l l' => List.Forall₂ σ.pairs l.toList l'.toList)
      (w.setup.makeMethodGenerics ⟨name, w.setup.blueprint.topLevel w.plan⟩ m)
      (w.setup.makeMethodGenerics ⟨name, w.setup.blueprint.topLevel w.plan⟩ m) := by
  unfold Setup.makeMethodGenerics
  cases hgenerics : m.generics with
  | none => exact .pure .nil
  | some params =>
    have hplans : m.genericPlans = params.toList := by
      unfold MethodPlan.genericPlans
      rw [hgenerics]
      rfl
    have hdeclare : w.Couples ρ (w.Declares m)
        (Setup.declareGenerics (.method m.token) (w.setup.blueprint.topLevel w.plan) #[] params)
        (Setup.declareGenerics (.method m.token) (w.setup.blueprint.topLevel w.plan) #[]
          params) := by
      unfold Setup.declareGenerics
      refine .foldlM params.toList (fun g hg σ acc acc' _ hacc => ?_) ⟨.nil, .nil⟩
      rw [← hplans] at hg
      exact couples_declareGeneric hm hg hacc (.method m.token)
    refine .bind hdeclare fun σ acc acc' hle hacc => ?_
    obtain ⟨listed, pending⟩ := acc
    obtain ⟨listed', pending'⟩ := acc'
    refine .seq ?_ fun τ hle' => .pure (hacc.listed.imp fun _ _ => Pairing.pairs_mono hle')
    unfold Setup.constrainGenerics
    exact .forM (monotone_pends m) hacc.pending fun τ i i' _ hpends =>
      couples_constrainGeneric hm hpends

end Method

/-! ## Single members -/

theorem couples_demand (lacking : Bool) (datum : MissingDatum) :
    w.Couples ρ (fun _ => Eq) (w.setup.demand lacking datum) (w.setup.demand lacking datum) := by
  unfold Setup.demand Setup.missing
  split
  · split
    · exact .throw _
    · exact couples_notice _ _
  · exact .pure rfl

theorem monotone_pairs {k : ObjectKind} :
    Monotone fun ρ : Pairing => (ρ.pairs : Handle k → Handle k → Prop) :=
  fun _ _ hle _ _ => Pairing.pairs_mono hle

theorem monotone_signature : Monotone Pairing.signature :=
  fun _ _ hle _ _ => Pairing.signature_mono hle

theorem couples_makeField {f : FieldPlan} (hf : f ∈ w.plan.fields.toList) (name : String) :
    w.Couples ρ (fun σ => σ.pairs)
      (w.setup.makeField ⟨name, w.setup.blueprint.topLevel w.plan⟩ f)
      (w.setup.makeField ⟨name, w.setup.blueprint.topLevel w.plan⟩ f) := by
  have hr : f.type ∈ w.plan.memberTypes :=
    List.mem_append_left _ (List.mem_append_left _ (List.mem_map_of_mem hf))
  have hvisible := w.independent.memberTypes_visible w.planned hr
  rw [makeField_eq]
  refine .bind (couples_resolve hvisible) fun σ sig sig' _ hsig => ?_
  refine .seq (couples_demand _ _) fun τ hle => .seq (couples_demand _ _) fun υ hle' => ?_
  exact couples_alloc (k := .field) nofun nofun
    ⟨rfl, Pairing.signature_mono (hle.trans hle') hsig⟩

theorem couples_makeParam (name method : String) (position : Nat) (p : ParamPlan) :
    w.Couples ρ (fun σ => σ.pairs)
      (w.setup.makeParam ⟨name, w.setup.blueprint.topLevel w.plan⟩ method position p)
      (w.setup.makeParam ⟨name, w.setup.blueprint.topLevel w.plan⟩ method position p) := by
  rw [makeParam_eq]
  refine .seq ?_ fun σ _ => .seq (couples_demand _ _) fun τ _ => .seq ?_ fun υ _ => ?_
  · split
    · exact .throw _
    · exact .pure rfl
  · split
    · exact couples_notice _ _
    · exact .pure rfl
  · exact couples_alloc (k := .param) nofun nofun rfl

theorem couples_makeMethod {m : MethodPlan} (hm : m ∈ w.plan.methods.toList) (name : String) :
    w.Couples ρ (fun σ => σ.pairs)
      (w.setup.makeMethod ⟨name, w.setup.blueprint.topLevel w.plan⟩ m)
      (w.setup.makeMethod ⟨name, w.setup.blueprint.topLevel w.plan⟩ m) := by
  have hreturn : m.returnType ∈ m.references := List.mem_cons_self
  have hparams (p : ParamPlan) (hp : p ∈ m.params.toList) : p.type ∈ m.references :=
    List.mem_append_left _ (List.mem_cons_of_mem _ (List.mem_map_of_mem hp))
  unfold Setup.makeMethod
  refine .bind (couples_makeMethodGenerics hm name) fun ρ₁ generics generics' _ hgenerics => ?_
  refine .bind (couples_resolve (method_visible hm hreturn)) fun ρ₂ ret ret' hle₂ hret => ?_
  refine .bind (.mapM monotone_signature _ fun p hp σ _ =>
    couples_resolve (method_visible hm (hparams p hp))) fun ρ₃ types types' hle₃ htypes => ?_
  refine .bind (.mapM monotone_pairs _ fun entry _ σ _ =>
    couples_makeParam name m.name entry.2 entry.1) fun ρ₄ made made' hle₄ hmade => ?_
  have hsize : generics'.size = generics.size := by
    rw [← Array.length_toList, ← Array.length_toList]
    exact hgenerics.length_eq.symm
  have hret₄ := Pairing.signature_mono (hle₃.trans hle₄) hret
  refine .get_bind fun b b' hc => ?_
  refine couples_alloc (k := .method) nofun nofun ?_
  rw [hsize]
  constructor
  case rest => rfl
  case signature => exact ⟨rfl, hret₄, htypes.imp fun _ _ => Pairing.signature_mono hle₄⟩
  case generics =>
    exact hgenerics.imp fun _ _ => Pairing.pairs_mono (hle₂.trans (hle₃.trans hle₄))
  case params => exact hmade
  case body =>
    -- whether a body is expected shows in the flags, which are those of the plan
    unfold MethodDef.expectsBody
    split
    · exact .some (hc.stub hret₄)
    · exact .none

/-! ## Accessors -/

/-- Two staged members of a sort have one token, that of a plan of the type. -/
def Entry (w : Twin) (m : MemberSort) (σ : Pairing) (e e' : Token × Handle m.kind) : Prop :=
  e'.1 = e.1 ∧ e.1 ∈ m.tokens w.plan ∧ σ.pairs e.2 e'.2

theorem monotone_entry (m : MemberSort) : Monotone (w.Entry m) :=
  fun _ _ hle _ _ h => ⟨h.1, h.2.1, Pairing.pairs_mono hle h.2.2⟩

/-- Members that were staged alike. -/
structure StagedAlike (w : Twin) (σ : Pairing) (staged staged' : Staged) : Prop where
  fields : List.Forall₂ (w.Entry .field σ) staged.fields.toList staged'.fields.toList
  methods : List.Forall₂ (w.Entry .method σ) staged.methods.toList staged'.methods.toList
  properties : List.Forall₂ (w.Entry .property σ) staged.properties.toList
    staged'.properties.toList
  events : List.Forall₂ (w.Entry .event σ) staged.events.toList staged'.events.toList

/-- The first entries with a token are at the same place. -/
theorem find?_entry {m : MemberSort} {l l' : List (Token × Handle m.kind)}
    (hl : List.Forall₂ (w.Entry m ρ) l l') (P : Token → Bool) :
    Option.Rel (w.Entry m ρ) (l.find? fun e => P e.1) (l'.find? fun e => P e.1) := by
  induction hl with
  | nil => exact .none
  | cons hfirst _ ih =>
    rw [List.find?_cons, List.find?_cons, hfirst.1]
    split
    · exact .some hfirst
    · exact ih

theorem method?_rel {staged staged' : Staged}
    (hstaged : List.Forall₂ (w.Entry .method ρ) staged.methods.toList staged'.methods.toList)
    (token : Token) : Option.Rel ρ.pairs (staged.method? token) (staged'.method? token) := by
  have hfind := find?_entry hstaged fun t => decide (t = token)
  unfold Staged.method?
  rw [← Array.find?_toList, ← Array.find?_toList]
  exact rel_map (fun _ _ h => h.2.2) hfind

theorem couples_wireAccessor {staged staged' : Staged}
    (hstaged : List.Forall₂ (w.Entry .method ρ) staged.methods.toList staged'.methods.toList)
    (owner : String) (accessor : Accessor) {m : Option MethodPlan}
    (hm : ∀ n, m = some n → (accessor, n) ∈ w.plan.accessors) :
    w.Couples ρ (fun σ a a' => List.Forall₂ (Semantics.Same σ) a.toList a'.toList)
      (Setup.wireAccessor staged owner accessor m)
      (Setup.wireAccessor staged' owner accessor m) := by
  unfold Setup.wireAccessor
  cases m with
  | none => exact .pure .nil
  | some n =>
    refine .get_bind fun b b' hc => ?_
    obtain ⟨n', hn', htoken⟩ := w.independent.accessors w.plan w.planned _ (hm n rfl)
    have hown : n.token ∈ MemberSort.method.tokens w.plan :=
      List.mem_map.mpr ⟨n', hn', htoken⟩
    have hlinked : Option.Rel ρ.pairs (b.links.methods.get? n.token)
        (b'.links.methods.get? n.token) := hc.linked .method n.token hown
    have hfound : Option.Rel ρ.pairs (staged.method? n.token <|> b.links.methods.get? n.token)
        (staged'.method? n.token <|> b'.links.methods.get? n.token) := by
      obtain ⟨hs, hs'⟩ | ⟨g, h, hs, hs', hpair⟩ := rel_cases (method?_rel hstaged n.token) <;>
        rw [hs, hs']
      · exact hlinked
      · exact .some hpair
    obtain ⟨hs, hs'⟩ | ⟨g, h, hs, hs', hpair⟩ := rel_cases hfound <;> rw [hs, hs']
    · exact .throw _
    · exact .pure (.cons ⟨rfl, hpair⟩ .nil)

theorem couples_makeProperty {p : PropertyPlan} (hp : p ∈ w.plan.properties.toList)
    (name : String) {staged staged' : Staged}
    (hstaged : List.Forall₂ (w.Entry .method ρ) staged.methods.toList staged'.methods.toList) :
    w.Couples ρ (fun σ => σ.pairs)
      (w.setup.makeProperty ⟨name, w.setup.blueprint.topLevel w.plan⟩ staged p)
      (w.setup.makeProperty ⟨name, w.setup.blueprint.topLevel w.plan⟩ staged' p) := by
  have hr : p.type ∈ w.plan.memberTypes :=
    List.mem_append_left _ (List.mem_append_right _ (List.mem_map_of_mem hp))
  have hvisible := w.independent.memberTypes_visible w.planned hr
  have haccessor {entry : Accessor × MethodPlan} (hentry : entry ∈ p.accessors) :
      entry ∈ w.plan.accessors :=
    List.mem_append_left _ (List.mem_flatMap.mpr ⟨p, hp, hentry⟩)
  unfold Setup.makeProperty
  refine .bind (couples_resolve hvisible) fun ρ₁ sig sig' hle₁ hsig => ?_
  have hstaged₁ := hstaged.imp (monotone_entry .method hle₁)
  refine .bind (couples_wireAccessor hstaged₁ _ .getter fun n hn => haccessor
    (by simp [PropertyPlan.accessors, hn])) fun ρ₂ getter getter' hle₂ hgetter => ?_
  have hstaged₂ := hstaged₁.imp (monotone_entry .method hle₂)
  refine .bind (couples_wireAccessor hstaged₂ _ .setter fun n hn => haccessor
    (by simp [PropertyPlan.accessors, hn])) fun ρ₃ setter setter' hle₃ hsetter => ?_
  refine couples_alloc (k := .property) nofun nofun ⟨rfl, ?_, ?_⟩
  · exact Pairing.signature_mono (hle₂.trans hle₃) hsig
  · rw [Array.toList_append, Array.toList_append]
    exact List.rel_append (hgetter.imp fun _ _ => Semantics.Same.mono hle₃) hsetter

theorem couples_makeEvent {e : EventPlan} (he : e ∈ w.plan.events.toList) (name : String)
    {staged staged' : Staged}
    (hstaged : List.Forall₂ (w.Entry .method ρ) staged.methods.toList staged'.methods.toList) :
    w.Couples ρ (fun σ => σ.pairs)
      (w.setup.makeEvent ⟨name, w.setup.blueprint.topLevel w.plan⟩ staged e)
      (w.setup.makeEvent ⟨name, w.setup.blueprint.topLevel w.plan⟩ staged' e) := by
  have hr : e.type ∈ w.plan.memberTypes := List.mem_append_right _ (List.mem_map_of_mem he)
  have hvisible := w.independent.memberTypes_visible w.planned hr
  have haccessor {entry : Accessor × MethodPlan} (hentry : entry ∈ e.accessors) :
      entry ∈ w.plan.accessors :=
    List.mem_append_right _ (List.mem_flatMap.mpr ⟨e, he, hentry⟩)
  unfold Setup.makeEvent
  refine .bind (couples_resolve hvisible) fun ρ₁ sig sig' hle₁ hsig => ?_
  have hstaged₁ := hstaged.imp (monotone_entry .method hle₁)
  refine .bind (couples_wireAccessor hstaged₁ _ .add fun n hn => haccessor
    (by simp [EventPlan.accessors, hn])) fun ρ₂ add add' hle₂ hadd => ?_
  have hstaged₂ := hstaged₁.imp (monotone_entry .method hle₂)
  refine .bind (couples_wireAccessor hstaged₂ _ .remove fun n hn => haccessor
    (by simp [EventPlan.accessors, hn])) fun ρ₃ remove remove' hle₃ hremove => ?_
  have hstaged₃ := hstaged₂.imp (monotone_entry .method hle₃)
  refine .bind (couples_wireAccessor hstaged₃ _ .raise fun n hn => haccessor
    (by simp [EventPlan.accessors, hn])) fun ρ₄ raise raise' hle₄ hraise => ?_
  refine couples_alloc (k := .event) nofun nofun ⟨rfl, ?_, ?_⟩
  · exact Pairing.signature_mono (hle₂.trans (hle₃.trans hle₄)) hsig
  · simp only [Array.toList_append]
    refine List.rel_append (List.rel_append ?_ ?_) hraise
    · exact hadd.imp fun _ _ => Semantics.Same.mono (hle₃.trans hle₄)
    · exact hremove.imp fun _ _ => Semantics.Same.mono hle₄

/-! ## All members -/

/-- A member is made and kept with its token. -/
theorem couples_withToken {m : MemberSort} {token : Token} (htoken : token ∈ m.tokens w.plan)
    {step step' : Build (Handle m.kind)} (h : w.Couples ρ (fun σ => σ.pairs) step step') :
    w.Couples ρ (w.Entry m) (do pure (token, ← step)) (do pure (token, ← step')) :=
  .bind h fun _ _ _ _ hpair => .pure ⟨rfl, htoken, hpair⟩

/-- All members of the type are staged alike, or staging fails alike. -/
theorem couples_stage (name : String) :
    w.Couples ρ w.StagedAlike
      (w.setup.stage ⟨name, w.setup.blueprint.topLevel w.plan⟩ w.plan)
      (w.setup.stage ⟨name, w.setup.blueprint.topLevel w.plan⟩ w.plan) := by
  unfold Setup.stage
  refine .bind (.mapM (monotone_entry .field) _ fun f hf σ _ =>
    couples_withToken (List.mem_map_of_mem hf) (couples_makeField hf name))
    fun ρ₁ fields fields' _ hfields => ?_
  refine .bind (.mapM (monotone_entry .method) _ fun m hm σ _ =>
    couples_withToken (List.mem_map_of_mem hm) (couples_makeMethod hm name))
    fun ρ₂ methods methods' hle₂ hmethods => ?_
  refine .bind (.mapM (monotone_entry .property) _ fun q hq σ hle =>
    couples_withToken (List.mem_map_of_mem hq) (couples_makeProperty hq name
      (hmethods.imp (monotone_entry .method hle))))
    fun ρ₃ properties properties' hle₃ hproperties => ?_
  refine .bind (.mapM (monotone_entry .event) _ fun e he σ hle =>
    couples_withToken (List.mem_map_of_mem he) (couples_makeEvent he name
      (hmethods.imp (monotone_entry .method (hle₃.trans hle)))))
    fun ρ₄ events events' hle₄ hevents => ?_
  refine .pure ⟨?_, ?_, ?_, hevents⟩
  · exact hfields.imp (monotone_entry .field (hle₂.trans (hle₃.trans hle₄)))
  · exact hmethods.imp (monotone_entry .method (hle₃.trans hle₄))
  · exact hproperties.imp (monotone_entry .property hle₄)

end Twin

end ClrImage
