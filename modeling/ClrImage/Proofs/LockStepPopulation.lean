import ClrImage.Proofs.LockStepStaging
import ClrImage.Proofs.Population

/-!
# Populating a type in lock step

Staged members are published alike in two coupled states: their tokens are those of the type's plan,
and under these the two states have linked paired members or none.

- `couples_publishOne`, `couples_publish`: one member, and all staged ones.
- `couples_populateType`: **a type is populated alike** in coupled states, or fails alike.
-/

namespace ClrImage

/-! ## One member -/

section Publish

variable {k : ObjectKind} {K : MemberKind k} {type : TypeHandle} {e : Token × Handle k}
  {s : BuildState}

/-- A member that is linked already is published again. -/
theorem publishOne_of_linked (type : TypeHandle) (hheld : (K.table s.links).get? e.1 = some e.2) :
    ∃ s', (K.publish type e).Yields s () s' := by
  unfold MemberKind.publish Build.publishMember
  simp only [Build.yields_get_bind, Build.yields_liftExcept_bind, Build.yields_modify_bind]
  exact ⟨_, _, map_eq_ok.mpr ⟨_, LinkTable.link_eq_ok.mpr (.inr ⟨hheld, rfl⟩), rfl⟩, rfl⟩

/-- A member whose token names another one is refused. -/
theorem publishOne_of_taken (type : TypeHandle) {held : Handle k}
    (hheld : (K.table s.links).get? e.1 = some held) (hne : held ≠ e.2) :
    (K.publish type e).Fails s (.duplicateLink e.1) s := by
  have hlink : LinkTable.link (K.table s.links) e.1 e.2 = .error (.duplicateLink e.1) := by
    unfold LinkTable.link
    rw [hheld]
    exact if_neg hne
  unfold MemberKind.publish Build.publishMember Build.Fails
  rw [Build.outcome_bind, Build.outcome_get]
  dsimp only
  rw [hlink, Build.outcome_bind, Build.outcome_liftExcept]
  rfl

end Publish

namespace Twin

variable {w : Twin} {ρ : Pairing}

/-- Publishing members of a type stays within the type. -/
theorem publishes_staysWithin {m : MemberSort} {type : TypeHandle} {e : Token × Handle m.kind}
    {s s' : BuildState} (hlink : s.links.types.get? w.plan.token = some type)
    (htoken : e.1 ∈ m.tokens w.plan) (h : Publishes m.places type [e] s s') :
    StaysWithin w.setup [w.plan] s s' where
  toExtends := h.extends_state
  size := h.size
  frames g := by
    rw [h.types g]
    cases s.store.types.get? g with
    | none => split <;> exact .none
    | some t =>
      split
      · exact .some (.withHandles m t _)
      · exact .some (.refl t)
  linkedTypes := by rw [h.links, m.places.types_withTable]
  otherTypes g hg := by
    rw [h.types g, if_neg]
    rintro rfl
    exact hg w.plan List.mem_cons_self hlink
  otherLinks n token hn := by
    by_cases hnm : n = m
    · subst hnm
      refine h.others token fun hmem => ?_
      obtain rfl := List.mem_singleton.mp hmem
      exact hn w.plan List.mem_cons_self htoken
    · rw [h.links, MemberSort.table_of_ne hnm]
  otherKeys key _ := by rw [h.registry]

/-- A member of the type that is published in both states is linked and listed in both. -/
theorem Coupled.publish {b b' b₁ b₁' : BuildState} (hc : w.Coupled ρ b b') {m : MemberSort}
    {type : TypeHandle} (hlink : w.left.links.types.get? w.plan.token = some type)
    {e e' : Token × Handle m.kind} (hentry : w.Entry m ρ e e')
    (h : Publishes m.places type [e] b b₁) (h' : Publishes m.places type [e'] b' b₁') :
    w.Coupled ρ b₁ b₁' := by
  obtain ⟨htoken, hown, hpair⟩ := hentry
  have hlink₁ : b.links.types.get? w.plan.token = some type := by
    rw [hc.left.linkedTypes]
    exact hlink
  have hlink₂ : b'.links.types.get? w.plan.token = some type := by
    rw [hc.linkedTypes]
    exact hlink₁
  refine { hc with
    left := hc.left.step (publishes_staysWithin hlink₁ hown h) fun g x _ hx => ?left
    right := hc.right.step (publishes_staysWithin hlink₂ (htoken ▸ hown) h') fun g x _ hx => ?right
    objects := ?objects, registered := ?registered, linked := ?linked, listed := ?listed }
  case left =>
    rw [h.store]
    exact hx
  case right =>
    rw [h'.store]
    exact hx
  case objects =>
    intro k hk
    have harena : b₁.store.arena k = b.store.arena k := by
      rw [h.store]
      exact Store.arena_withArena_of_ne _ _ hk
    have harena' : b₁'.store.arena k = b'.store.arena k := by
      rw [h'.store]
      exact Store.arena_withArena_of_ne _ _ hk
    rw [harena, harena']
    exact hc.objects k hk
  case registered =>
    rw [h.registry, h'.registry]
    exact hc.registered
  case linked =>
    intro n token hn
    by_cases hnm : n = m
    · subst hnm
      by_cases heq : token = e.1
      · subst heq
        have hlinked := h'.linked e' List.mem_cons_self
        rw [htoken] at hlinked
        rw [h.linked e List.mem_cons_self, hlinked]
        exact .some hpair
      · have hne : token ∉ [e].map Prod.fst := fun hmem => heq (List.mem_singleton.mp hmem)
        have hne' : token ∉ [e'].map Prod.fst := fun hmem =>
          heq ((List.mem_singleton.mp hmem).trans htoken)
        rw [h.others token hne, h'.others token hne']
        exact hc.linked n token hn
    · rw [h.links, h'.links, MemberSort.table_of_ne hnm, MemberSort.table_of_ne hnm]
      exact hc.linked n token hn
  case listed =>
    intro g t u hg ht hu n
    obtain rfl := Option.some.inj (hlink.symm.trans hg)
    rw [h.types type, if_pos rfl] at ht
    rw [h'.types type, if_pos rfl] at hu
    obtain ⟨t₀, ht₀, rfl⟩ := Option.map_eq_some_iff.mp ht
    obtain ⟨u₀, hu₀, rfl⟩ := Option.map_eq_some_iff.mp hu
    have hlisted := hc.listed type t₀ u₀ hg ht₀ hu₀ n
    unfold MemberKind.addAll
    by_cases hnm : n = m
    · subst hnm
      rw [n.places.handles_withHandles, n.places.handles_withHandles, Array.toList_append,
        Array.toList_append]
      exact List.rel_append hlisted (.cons hpair .nil)
    · rw [MemberSort.handles_of_ne hnm, MemberSort.handles_of_ne hnm]
      exact hlisted

/-- One staged member of the type is published in both states, or refused in both. -/
theorem couples_publishOne {m : MemberSort} {type : TypeHandle}
    (hlink : w.left.links.types.get? w.plan.token = some type) {e e' : Token × Handle m.kind}
    (hentry : w.Entry m ρ e e') :
    w.Couples ρ (fun _ => Eq) (m.places.publish type e) (m.places.publish type e') := by
  intro b b' hc
  -- if both runs succeed, both publish the member
  have hpublish {b₁ b₁' : BuildState} (hrun : (m.places.publish type e).Yields b () b₁)
      (hrun' : (m.places.publish type e').Yields b' () b₁') :
      ∃ σ, ρ ≤ σ ∧ w.Coupled σ ((m.places.publish type e).outcome b).2
        ((m.places.publish type e').outcome b').2 ∧
        Agree Eq ((m.places.publish type e).outcome b).1
          ((m.places.publish type e').outcome b').1 := by
    have hcoupled := hc.publish hlink hentry (yields_publishOne hrun) (yields_publishOne hrun')
    unfold Build.Yields at hrun hrun'
    rw [hrun, hrun']
    exact ⟨ρ, le_refl ρ, hcoupled, .ok rfl⟩
  obtain ⟨htoken, hown, hpair⟩ := hentry
  obtain ⟨hb, hb'⟩ | ⟨held, held', hb, hb', hpairs⟩ := rel_cases (hc.linked m e.1 hown)
  · obtain ⟨b₁, hrun⟩ := publishOne_of_free type hb
    obtain ⟨b₁', hrun'⟩ := publishOne_of_free (e := e') type (htoken ▸ hb')
    exact hpublish hrun hrun'
  · by_cases heq : held = e.2
    · have heq' : held' = e'.2 := (Pairing.eq_iff hpairs hpair).mp heq
      obtain ⟨b₁, hrun⟩ := publishOne_of_linked type (heq ▸ hb)
      obtain ⟨b₁', hrun'⟩ := publishOne_of_linked (e := e') type (htoken ▸ heq' ▸ hb')
      exact hpublish hrun hrun'
    · have hne' : held' ≠ e'.2 := heq ∘ (Pairing.eq_iff hpairs hpair).mpr
      have hfails := publishOne_of_taken type hb heq
      have hfails' := publishOne_of_taken (e := e') type (htoken ▸ hb') hne'
      unfold Build.Fails at hfails hfails'
      rw [hfails, hfails', htoken]
      exact ⟨ρ, le_refl ρ, hc, .error _⟩

/-! ## All members -/

/-- Members that were staged alike have the same first token that is taken. -/
theorem taken?_eq {b b' : BuildState} (hc : w.Coupled ρ b b') {m : MemberSort}
    {staged staged' : Array (Token × Handle m.kind)}
    (hstaged : List.Forall₂ (w.Entry m ρ) staged.toList staged'.toList) :
    LinkTable.taken? (m.places.table b.links) staged =
      LinkTable.taken? (m.places.table b'.links) staged' := by
  unfold LinkTable.taken?
  rw [← Array.find?_toList, ← Array.find?_toList]
  generalize staged.toList = l at hstaged
  generalize staged'.toList = l' at hstaged
  induction hstaged with
  | nil => rfl
  | cons hfirst _ ih =>
    rw [List.find?_cons, List.find?_cons, hfirst.1, isSome_of_rel (hc.linked m _ hfirst.2.1)]
    split
    · exact congrArg some hfirst.1.symm
    · exact ih

theorem Coupled.firstTaken?_eq {b b' : BuildState} (hc : w.Coupled ρ b b') {staged staged' : Staged}
    (hstaged : w.StagedAlike ρ staged staged') :
    b.links.firstTaken? staged = b'.links.firstTaken? staged' := by
  have hfields : LinkTable.taken? b.links.fields staged.fields =
      LinkTable.taken? b'.links.fields staged'.fields := taken?_eq hc hstaged.fields
  have hmethods : LinkTable.taken? b.links.methods staged.methods =
      LinkTable.taken? b'.links.methods staged'.methods := taken?_eq hc hstaged.methods
  have hproperties : LinkTable.taken? b.links.properties staged.properties =
      LinkTable.taken? b'.links.properties staged'.properties := taken?_eq hc hstaged.properties
  have hevents : LinkTable.taken? b.links.events staged.events =
      LinkTable.taken? b'.links.events staged'.events := taken?_eq hc hstaged.events
  unfold LinkTable.firstTaken?
  rw [hfields, hmethods, hproperties, hevents]

/-- Members that were staged alike are published alike, or refused alike. -/
theorem couples_publish {type : TypeHandle}
    (hlink : w.left.links.types.get? w.plan.token = some type) {staged staged' : Staged}
    (hstaged : w.StagedAlike ρ staged staged') :
    w.Couples ρ (fun _ => Eq) (Build.publish type staged) (Build.publish type staged') := by
  have hpass {σ : Pairing} {m : MemberSort} {l l' : List (Token × Handle m.kind)} (hle : ρ ≤ σ)
      (hl : List.Forall₂ (w.Entry m ρ) l l') :
      w.Couples σ (fun _ => Eq) (l.forM (m.places.publish type))
        (l'.forM (m.places.publish type)) :=
    .forM (monotone_entry m) (hl.imp (monotone_entry m hle)) fun _ _ _ _ hentry =>
      couples_publishOne hlink hentry
  rw [publish_eq, publish_eq]
  refine .get_bind fun b b' hc => ?_
  rw [hc.firstTaken?_eq hstaged]
  cases b'.links.firstTaken? staged' with
  | some token => exact .throw _
  | none =>
    refine .seq (hpass (m := .field) (le_refl ρ) hstaged.fields) fun σ hle₁ => ?_
    refine .seq (hpass (m := .method) hle₁ hstaged.methods) fun τ hle₂ => ?_
    refine .seq (hpass (m := .property) (hle₁.trans hle₂) hstaged.properties) fun υ hle₃ => ?_
    exact hpass (m := .event) (hle₁.trans (hle₂.trans hle₃)) hstaged.events

/-! ## The type -/

/-- The type is found in both states, or missing in both. -/
theorem couples_managedType :
    w.Couples ρ (fun _ e e' => w.left.links.types.get? w.plan.token = some e.1 ∧ e'.1 = e.1 ∧
      e.2.SameFrame e'.2) (Build.managedType w.plan) (Build.managedType w.plan) := by
  unfold Build.managedType Build.managed
  refine .bind (R := fun _ h h' => w.left.links.types.get? w.plan.token = some h ∧ h' = h) ?_ ?_
  · refine .get_bind fun b b' hc => ?_
    rw [hc.linkedTypes, hc.left.linkedTypes]
    split
    next h hlink => exact .pure ⟨hlink, rfl⟩
    next => exact .throw _
  · rintro σ _ h hle ⟨hlink, rfl⟩
    refine .get_bind fun b b' hc => ?_
    obtain ⟨hs, hs'⟩ | ⟨t, u, hs, hs', hframe⟩ := rel_cases (hc.frames h) <;> rw [hs, hs']
    · exact .throw _
    · exact .pure ⟨hlink, rfl, hframe⟩

theorem couples_noticePopulated (h : TypeHandle) :
    w.Couples ρ (fun _ => Eq) (Build.noticePopulated h) (Build.noticePopulated h) := by
  unfold Build.noticePopulated
  refine .get_bind fun b b' hc => ?_
  obtain ⟨hs, hs'⟩ | ⟨t, u, hs, hs', -⟩ := rel_cases (hc.frames h) <;> rw [hs, hs']
  · exact .pure rfl
  · exact couples_notice _ _

theorem couples_populate :
    w.Couples ρ (fun _ => Eq) (w.setup.populate w.plan) (w.setup.populate w.plan) := by
  unfold Setup.populate
  refine .bind couples_managedType fun σ e e' _ ⟨hlink, hhandle, hframe⟩ => ?_
  obtain ⟨h, t⟩ := e
  obtain ⟨h', t'⟩ := e'
  obtain rfl : h' = h := hhandle
  refine .get_bind fun b b' hc => ?_
  dsimp only at hframe ⊢
  -- members are made under the same name of the type
  rw [hc.fullName_eq hframe]
  refine .bind (couples_stage _) fun τ staged staged' _ hstaged => ?_
  exact .seq (couples_publish hlink hstaged) fun _ _ => couples_noticePopulated _

/-- In coupled states a type is populated alike, or fails alike. -/
theorem couples_populateType :
    w.Couples ρ (fun _ => Eq) (w.setup.populateType w.plan) (w.setup.populateType w.plan) := by
  unfold Setup.populateType
  split
  · exact couples_notice _ _
  · unfold Setup.inContext Setup.fail
    refine .tryCatch couples_populate fun σ e _ => ?_
    refine .bind (R := fun _ => Eq) (.seq (couples_notice _ _) fun _ _ => .pure rfl) ?_
    rintro τ failure _ - rfl
    exact .throw _

end Twin

end ClrImage
