import ClrImage.Proofs.Apart

/-!
# Types apart are registered

The first round of the second pass, for types that plan no parameter with the same key. Whatever
steps other types take in between, the thread for a type makes one parameter for each of its plans
that counts, and lists and awaits what it would by itself.

- `ParamsMade`: how far the parameters of a type have been registered.
- `MayConfigure`: the second round may go on with a type.
- `Stepwise.registers_declareGeneric`, `Stepwise.registers_type`: one more plan, and all of them.
- `Piecemeal.registers`: the round always succeeds, and leaves all types ready.
-/

namespace ClrImage

/-! ## Parameters under way -/

/-- The plans `done` of a type have been registered, and `plans` of them count. Parameters have
been made for those, and are pending. No key is held but those of the plans `taken`. -/
structure ParamsMade (setup : Setup) (p : TypePlan) (h : TypeHandle) (t : TypeDef)
    (done taken plans : List GenericPlan) (objects : List GenericHandle)
    (pending : List PendingGeneric) (s : BuildState) : Prop where
  link : s.links.types.get? p.token = some h
  type : s.store.types.get? h = some t
  objects_eq : List.Forall₂ (fun g o => s.registry.get? (setup.genericKey p g) = some o) done
    objects
  made : List.Forall₂ (fun g item => item.constraints = g.constraints ∧
    s.registry.get? (setup.genericKey p g) = some item.param ∧
    s.store.generics.get? item.param = some (g.paramFor (.type p.token))) plans pending
  nodup : (pending.map PendingGeneric.param).Nodup
  free : ∀ g ∈ p.genericPlans, (∀ d ∈ taken, d.index ≠ g.index) →
    s.registry.get? (setup.genericKey p g) = none

/-- A parameter that is not pending yet is held under the key of a plan. -/
structure NewParam (setup : Setup) (p : TypePlan) (g : GenericPlan) (pending : List PendingGeneric)
    (o : GenericHandle) (x : GenericParam) (s : BuildState) : Prop where
  held : s.registry.get? (setup.genericKey p g) = some o
  param : s.store.generics.get? o = some x
  declaredBy : x.declaredBy = .type p.token
  fresh : o ∉ pending.map PendingGeneric.param

/-- The second round may go on with a type: the type is configured already, or its parameters are
registered and pending. -/
def MayConfigure (setup : Setup) (p : TypePlan) (pending : Array PendingGeneric)
    (s : BuildState) : Prop :=
  Stands setup p .configured s ∨ Stands setup p .registered s ∧ AwaitsConstraints setup s p pending

theorem MayConfigure.spared {setup : Setup} {p : TypePlan} {pending : Array PendingGeneric}
    {s s' : BuildState} (h : MayConfigure setup p pending s) (hs : SparesType setup p s s') :
    MayConfigure setup p pending s' :=
  h.imp (·.spared hs) fun hregistered =>
    ⟨hregistered.1.spared hs, hregistered.2.mono hs.grows.registry⟩

section

variable {setup : Setup} {p : TypePlan} {h : TypeHandle} {t : TypeDef}
  {done taken plans : List GenericPlan} {objects : List GenericHandle}
  {pending : List PendingGeneric} {g : GenericPlan} {o : GenericHandle} {x : GenericParam}
  {s s' : BuildState}

theorem ParamsMade.spared
    (hr : ParamsMade setup p h t done taken plans objects pending s)
    (hs : SparesType setup p s s') :
    ParamsMade setup p h t done taken plans objects pending s' where
  link := hs.grows.links.types _ _ hr.link
  type := (hs.type h hr.link).trans hr.type
  objects_eq := hr.objects_eq.imp fun _ _ ho => hs.grows.registry _ _ ho
  made := hr.made.imp fun _ _ ⟨hconstraints, hheld, hx⟩ =>
    ⟨hconstraints, hs.grows.registry _ _ hheld, hs.params _ _ hx rfl⟩
  nodup := hr.nodup
  free g hg hnew := (hs.keys g hg).trans (hr.free g hg hnew)

theorem NewParam.spared (hn : NewParam setup p g pending o x s) (hs : SparesType setup p s s') :
    NewParam setup p g pending o x s' where
  held := hs.grows.registry _ _ hn.held
  param := hs.params o x hn.param hn.declaredBy
  declaredBy := hn.declaredBy
  fresh := hn.fresh

/-- A type that is only declared has not been begun with. -/
theorem Stands.registering (hstands : Stands setup p .declared s) : ∃ h d,
    ParamsMade setup p h { p.declaration with declaring := d } [] [] [] [] [] s := by
  obtain ⟨h, t, hlink, ht, d, rfl⟩ := hstands.type
  refine ⟨h, d, hlink, ht, .nil, .nil, .nil, fun g hg _ => ?_⟩
  obtain ⟨g', hdescribes, hindex⟩ := TypePlan.exists_describes hg
  rw [← Setup.genericKey_eq_iff.mpr hindex]
  exact hstands.params g' hdescribes

/-- A plan whose index has been planned before finds the parameter of that plan. -/
theorem ParamsMade.again (hr : ParamsMade setup p h t done plans plans objects pending s)
    {d : GenericPlan} (hd : d ∈ plans) (hindex : d.index = g.index) :
    ∃ o, s.registry.get? (setup.genericKey p g) = some o ∧
      s.store.generics.get? o = some (d.paramFor (.type p.token)) ∧
      ParamsMade setup p h t (done ++ [g]) plans plans (objects ++ [o]) pending s := by
  obtain ⟨item, -, -, hheld, hx⟩ := exists_of_forall₂ hr.made hd
  rw [Setup.genericKey_eq_iff.mpr hindex] at hheld
  exact ⟨item.param, hheld, hx,
    { hr with objects_eq := List.rel_append hr.objects_eq (.cons hheld .nil) }⟩

/-- The plan's own parameter is pending behind the others. -/
theorem ParamsMade.push
    (hr : ParamsMade setup p h t done (plans ++ [g]) plans objects pending s)
    (hn : NewParam setup p g pending o (g.paramFor (.type p.token)) s) :
    ParamsMade setup p h t (done ++ [g]) (plans ++ [g]) (plans ++ [g]) (objects ++ [o])
      (pending ++ [⟨o, g.constraints⟩]) s where
  link := hr.link
  type := hr.type
  objects_eq := List.rel_append hr.objects_eq (.cons hn.held .nil)
  made := List.rel_append hr.made (.cons ⟨rfl, hn.held, hn.param⟩ .nil)
  nodup := by
    rw [List.map_append, List.nodup_append]
    refine ⟨hr.nodup, List.nodup_singleton _, ?_⟩
    rintro _ hmem _ hlast rfl
    obtain rfl : _ = o := List.mem_singleton.mp hlast
    exact hn.fresh hmem
  free := hr.free

/-- Registering a plan whose key is free makes a parameter. -/
theorem ParamsMade.register
    (hr : ParamsMade setup p h t done plans plans objects pending s) {key : GenericKey}
    (hkey : setup.genericKey p g = key) (hfree : s.registry.get? key = none) :
    ∃ o s', (Build.registerGeneric key (.type p.token) g).Yields s (o, true) s' ∧
      ParamsMade setup p h t done (plans ++ [g]) plans objects pending s' ∧
      NewParam setup p g pending o { g.paramFor (.type p.token) with owners := #[] } s' := by
  subst hkey
  have hnew := GenericRegistry.get?_offer_of_none hfree s.store.generics.next
  refine ⟨_, _, registerGeneric_of_none hfree (.type p.token) g, ⟨hr.link, hr.type, ?_, ?_,
    hr.nodup, fun d hd hother => ?_⟩, (hnew _).trans (if_pos rfl),
    Arena.get?_alloc_next _ _, rfl, fun hmem => ?_⟩
  · -- what is held already has another key
    refine hr.objects_eq.imp fun d o ho => (hnew _).trans ?_
    rw [if_neg, ho]
    intro heq
    rw [heq, hfree] at ho
    cases ho
  · refine hr.made.imp fun d item ⟨hconstraints, hheld, hx⟩ => ⟨hconstraints, (hnew _).trans ?_,
      Arena.get?_alloc_of_some _ hx⟩
    rw [if_neg, hheld]
    intro heq
    rw [heq, hfree] at hheld
    cases hheld
  · obtain ⟨hother, hlast⟩ := List.forall_mem_append.mp hother
    refine (hnew _).trans ?_
    rw [if_neg, hr.free d hd hother]
    intro heq
    exact hlast g (List.mem_singleton.mpr rfl) (Setup.genericKey_eq_iff.mp heq).symm
  · -- nothing that is pending is the handle of a parameter yet to be made
    obtain ⟨item, hitem, heq⟩ := List.mem_map.mp hmem
    obtain ⟨d, -, -, -, hx⟩ := exists_of_forall₂ hr.made.flip hitem
    rw [heq, Arena.get?_next] at hx
    cases hx

/-- Recording the owner of a new parameter leaves the others. -/
theorem ParamsMade.record
    (hr : ParamsMade setup p h t done taken plans objects pending s)
    (hn : NewParam setup p g pending o x s) {f : GenericParam → GenericParam}
    (hdeclared : (f x).declaredBy = .type p.token) :
    ParamsMade setup p h t done taken plans objects pending
        ((Build.modifyGeneric o f).outcome s).2 ∧
      NewParam setup p g pending o (f x) ((Build.modifyGeneric o f).outcome s).2 := by
  have hget (o' : GenericHandle) :
      ((Build.modifyGeneric o f).outcome s).2.store.generics.get? o' =
        if o' = o then (s.store.generics.get? o').map f else s.store.generics.get? o' :=
    Arena.get?_modify _ o f o'
  refine ⟨⟨hr.link, hr.type, hr.objects_eq, ?_, hr.nodup, hr.free⟩, hn.held, ?_, hdeclared,
    hn.fresh⟩
  · -- what is pending is another parameter
    have hmem : List.Forall₂ _ pending plans :=
      (List.forall₂_and_left pending plans).mpr ⟨fun _ => id, hr.made.flip⟩
    refine hmem.flip.imp fun d item ⟨hitem, hconstraints, hheld, hx⟩ =>
      ⟨hconstraints, hheld, ?_⟩
    rw [hget, if_neg, hx]
    rintro rfl
    exact hn.fresh (List.mem_map_of_mem hitem)
  · rw [hget, if_pos rfl, hn.param]
    rfl

/-- Changing the type leaves its parameters. -/
theorem ParamsMade.changeType
    (hr : ParamsMade setup p h t done taken plans objects pending s) (f : TypeDef → TypeDef) :
    ParamsMade setup p h (f t) done taken plans objects pending
      ((Build.modifyType h f).outcome s).2 := by
  refine { hr with type := ?_ }
  show (s.store.types.modify h f).get? h = some (f t)
  rw [Arena.get?_modify, if_pos rfl, hr.type]
  rfl

/-- All parameters are registered and listed. -/
theorem ParamsMade.ready {s₀ : BuildState} (hamid : Amid setup s₀ s) (d : Option TypeHandle)
    (objects : List GenericHandle) {pending : Array PendingGeneric}
    (hr : ParamsMade setup p h { p.declaration with
      declaring := d, generics := objects.foldl listOnce #[] }
      p.genericPlans p.ownPlans p.ownPlans objects pending.toList s) :
    MayConfigure setup p pending s := by
  refine .inr ⟨⟨⟨h, _, hr.link, hr.type, d, _, rfl, objects, ?_, foldl_listOnce objects⟩,
    fun g hg => ?_⟩, hr.made.imp fun _ _ hitem => ⟨hitem.1, hitem.2.1⟩, hr.nodup⟩
  · refine hr.objects_eq.imp fun g o ho => ?_
    show s.registry.get? (s.registry.key g.index (setup.blueprint.topLevel p)) = some o
    rw [congrFun (hamid.key_eq p) g, ho]
  · obtain ⟨item, -, -, hheld, hx⟩ := exists_of_forall₂ hr.made (TypePlan.mem_ownPlans.mpr hg)
    exact ⟨item.param, _, hheld, hx, ⟨rfl, rfl, rfl, rfl, rfl⟩, rfl, rfl, rfl⟩

end

/-! ## Threads -/

namespace Stepwise

open Thread

variable {setup : Setup} {s₀ s : BuildState} {p : TypePlan} {h : TypeHandle} {t : TypeDef}
  {done plans : List GenericPlan} {objects : List GenericHandle} {g : GenericPlan}

/-- The key of a plan and what it holds are looked up. -/
theorem looksUp_generic (hg : g ∈ p.genericPlans) {found : Option GenericHandle}
    (hfound : s.registry.get? (setup.genericKey p g) = found) :
    (liftM (Build.lookUpGeneric g.index (setup.blueprint.topLevel p)) :
      Thread (GenericKey × Option GenericHandle)).Safe (setup.apart (Amid setup s₀) p)
        (fun entry s' => entry = (setup.genericKey p g, found) ∧ SparesType setup p s s')
        (fun _ _ => False) s := by
  refine .tells (fun _ n h => h.of_notices n) (fun s => ⟨s.notices, rfl⟩)
    (fun s₁ entry s₂ hs₁ hamid hrun s' hs' _ _ => ?_) fun _ _ _ _ _ hrun => nomatch hrun
  obtain ⟨rfl, -⟩ := (show (Build.lookUpGeneric g.index _).Yields s₁ (_, _) s₁ from rfl).unique hrun
  rw [congrFun (hamid.key_eq p) g, hs₁.keys g hg, hfound]
  exact ⟨rfl, hs'⟩

/-- Whether a type has to be recorded for a parameter that was made for it. -/
theorem looksUp_owner {o : GenericHandle} {x : GenericParam}
    (hx : s.store.generics.get? o = some x) (hdeclared : x.declaredBy = .type p.token) :
    (liftM (Build.lacksOwner o (.type p.token)) : Thread Bool).Safe
      (setup.apart (Amid setup s₀) p)
      (fun lacks s' => lacks = !x.isOwnedBy (.type p.token) ∧ SparesType setup p s s')
      (fun _ _ => False) s := by
  refine .tells (fun _ n h => h.of_notices n) (fun s₁ => ?_)
    (fun s₁ lacks s₂ hs₁ _ hrun s' hs' _ _ => ?_)
    fun s₁ e s₂ _ _ hrun => absurd hrun (yields_lacksOwner o _ s₁).not_fails
  · rw [(yields_lacksOwner o _ s₁).outcome_snd]
    exact refl_of OnlyTells s₁
  · obtain ⟨rfl, -⟩ := (yields_lacksOwner o _ s₁).unique hrun
    rw [hs₁.params o x hx hdeclared]
    exact ⟨rfl, hs'⟩

/-- A plan whose index has been planned before makes nothing. -/
theorem registers_again (hg : g ∈ p.genericPlans)
    (acc : Array GenericHandle × Array PendingGeneric)
    (hmade : ParamsMade setup p h t done plans plans objects acc.2.toList s) {d : GenericPlan}
    (hd : d ∈ plans) (hindex : d.index = g.index) :
    (declareGeneric (.type p.token) (setup.blueprint.topLevel p) acc g).Safe
      (setup.apart (Amid setup s₀) p)
      (fun acc' s' => ∃ o, acc'.1 = listOnce acc.1 o ∧
        ParamsMade setup p h t (done ++ [g]) plans plans (objects ++ [o]) acc'.2.toList s')
      (fun _ _ => False) s := by
  obtain ⟨listed, pending⟩ := acc
  obtain ⟨o, hheld, hx, hagain⟩ := hmade.again hd hindex
  unfold declareGeneric obtainGeneric addOwner
  refine Safe.bind (P := fun made s' => made = (o, false) ∧ SparesType setup p s s') ?_ ?_
  · refine (looksUp_generic hg hheld).bind ?_
    rintro _ s₁ - - ⟨rfl, hs₁⟩
    exact Safe.pure fun s' hs' _ => ⟨rfl, hs₁.trans hs'⟩
  rintro _ s₁ - - ⟨rfl, hs₁⟩
  refine Safe.bind (P := fun _ s' => SparesType setup p s s') ?_ fun _ s₂ _ _ hs₂ => ?_
  · refine (looksUp_owner (hs₁.params o _ hx rfl) rfl).bind ?_
    rintro _ s₂ - - ⟨rfl, hs₂⟩
    have howned : (d.paramFor (.type p.token)).isOwnedBy (.type p.token) = true := by
      simp [GenericPlan.paramFor, GenericParam.isOwnedBy]
    rw [howned]
    exact Safe.pure fun s' hs' _ => hs₁.trans (hs₂.trans hs')
  · exact Safe.pure fun s' hs' _ => ⟨o, rfl, hagain.spared (hs₂.trans hs')⟩

/-- For a plan with a new index a parameter is made. -/
theorem obtains_new (hseparate : setup.SeparateKeys) (hp : p ∈ setup.types)
    (hg : g ∈ p.genericPlans) {pending : List PendingGeneric}
    (hmade : ParamsMade setup p h t done plans plans objects pending s)
    (hnew : ∀ d ∈ plans, d.index ≠ g.index) :
    (obtainGeneric (.type p.token) (setup.blueprint.topLevel p) g).Safe
      (setup.apart (Amid setup s₀) p)
      (fun made s' => ∃ o, made = (o, true) ∧
        ParamsMade setup p h t done (plans ++ [g]) plans objects pending s' ∧
        NewParam setup p g pending o { g.paramFor (.type p.token) with owners := #[] } s')
      (fun _ _ => False) s := by
  unfold obtainGeneric
  refine (looksUp_generic hg (hmade.free g hg hnew)).bind ?_
  rintro _ s₁ - - ⟨rfl, hs₁⟩
  refine Safe.lift_of_yields fun s₂ hs₂ hamid => ?_
  -- nobody else plans a parameter with this key, so it is still free
  have hmade₂ := hmade.spared (hs₁.trans hs₂)
  obtain ⟨o, s₃, hrun, hmade₃, hparam⟩ := hmade₂.register rfl (hmade₂.free g hg hnew)
  have hinv := hamid.registerGeneric hp hg (.type p.token)
  have hsteps := StepsFor.registerGeneric hseparate hp hg (.type p.token) s₂
  rw [hrun.outcome_snd] at hinv hsteps
  exact ⟨_, s₃, hrun, hinv, hsteps, fun s' hs' _ =>
    ⟨o, rfl, hmade₃.spared hs', hparam.spared hs'⟩⟩

/-- Then the type is recorded as its owner. -/
theorem records_owner {taken : List GenericPlan} {pending : List PendingGeneric} {o : GenericHandle}
    (hmade : ParamsMade setup p h t done taken plans objects pending s)
    (hparam : NewParam setup p g pending o { g.paramFor (.type p.token) with owners := #[] } s) :
    (addOwner o (.type p.token)).Safe (setup.apart (Amid setup s₀) p)
      (fun _ s' => ParamsMade setup p h t done taken plans objects pending s' ∧
        NewParam setup p g pending o (g.paramFor (.type p.token)) s')
      (fun _ _ => False) s := by
  unfold addOwner
  refine (looksUp_owner hparam.param rfl).bind ?_
  rintro _ s₁ - - ⟨rfl, hs₁⟩
  have hlacks : GenericParam.isOwnedBy { g.paramFor (.type p.token) with owners := #[] }
      (.type p.token) = false := by simp [GenericParam.isOwnedBy]
  rw [hlacks]
  refine Safe.bind (P := fun _ s' =>
    ParamsMade setup p h t done taken plans objects pending s' ∧
      NewParam setup p g pending o (g.paramFor (.type p.token)) s') ?_ ?_
  · refine Safe.lift_of_yields fun s₂ hs₂ hamid => ?_
    have hparam₂ := hparam.spared (hs₁.trans hs₂)
    obtain ⟨hmade₃, hparam₃⟩ := (hmade.spared (hs₁.trans hs₂)).record hparam₂
      (f := fun x => { x with owners := x.owners.push (.type p.token) }) rfl
    refine ⟨(), _, rfl, hamid.modifyGeneric o _, .modifyGeneric (fun x hx => ?_) fun _ => ?_,
      fun s' hs' _ => ⟨hmade₃.spared hs', hparam₃.spared hs'⟩⟩
    · obtain rfl := Option.some.inj (hparam₂.param.symm.trans hx)
      rfl
    · exact ⟨rfl, rfl, rfl, rfl, rfl⟩
  · rintro _ s₂ - - ⟨hmade₂, hparam₂⟩
    refine .tells (fun _ n h => h.of_notices n)
      (keeps_noticeSharing keeps_notice_onlyTells o _)
      (fun _ _ _ _ _ _ s' hs' _ _ => ⟨hmade₂.spared hs', hparam₂.spared hs'⟩) ?_
    intro s₃ e s₄ _ _ hrun
    obtain ⟨_, _, hyields⟩ := succeeds_noticeSharing o (.type p.token) s₃
    exact absurd hrun hyields.not_fails

/-- A plan with a new index gets a parameter of its own. -/
theorem registers_new (hseparate : setup.SeparateKeys) (hp : p ∈ setup.types)
    (hg : g ∈ p.genericPlans) (acc : Array GenericHandle × Array PendingGeneric)
    (hmade : ParamsMade setup p h t done plans plans objects acc.2.toList s)
    (hnew : ∀ d ∈ plans, d.index ≠ g.index) :
    (declareGeneric (.type p.token) (setup.blueprint.topLevel p) acc g).Safe
      (setup.apart (Amid setup s₀) p)
      (fun acc' s' => ∃ o, acc'.1 = listOnce acc.1 o ∧
        ParamsMade setup p h t (done ++ [g]) (plans ++ [g]) (plans ++ [g]) (objects ++ [o])
          acc'.2.toList s')
      (fun _ _ => False) s := by
  obtain ⟨listed, pending⟩ := acc
  unfold declareGeneric
  refine (obtains_new hseparate hp hg hmade hnew).bind ?_
  rintro _ s₁ - - ⟨o, rfl, hmade₁, hparam₁⟩
  refine (records_owner hmade₁ hparam₁).bind fun _ s₂ _ _ ⟨hmade₂, hparam₂⟩ => ?_
  refine (Safe.notice (fun _ n h => h.of_notices n) _).bind
    fun _ s₃ _ _ hs₃ => ?_
  refine Safe.pure fun s' hs' _ => ⟨o, rfl, ?_⟩
  rw [Array.toList_push]
  have hspared := hs₃.trans hs'
  exact (hmade₂.spared hspared).push (hparam₂.spared hspared)

/-- One more plan of the type, wherever the thread has got to. -/
theorem registers_declareGeneric (hseparate : setup.SeparateKeys) (hp : p ∈ setup.types)
    (hg : g ∈ p.genericPlans) (acc : Array GenericHandle × Array PendingGeneric)
    (hmade : ParamsMade setup p h t done plans plans objects acc.2.toList s) :
    (declareGeneric (.type p.token) (setup.blueprint.topLevel p) acc g).Safe
      (setup.apart (Amid setup s₀) p)
      (fun acc' s' => ∃ o, acc'.1 = listOnce acc.1 o ∧
        ParamsMade setup p h t (done ++ [g]) (addPlan plans g) (addPlan plans g) (objects ++ [o])
          acc'.2.toList s')
      (fun _ _ => False) s := by
  by_cases hold : ∃ d ∈ plans, d.index = g.index
  · obtain ⟨d, hd, hindex⟩ := hold
    rw [addPlan_of_mem hd hindex]
    exact registers_again hg acc hmade hd hindex
  · have hnew : ∀ d ∈ plans, d.index ≠ g.index := fun d hd hindex => hold ⟨d, hd, hindex⟩
    rw [addPlan_of_forall_ne hnew]
    exact registers_new hseparate hp hg acc hmade hnew

/-- All plans of the type. -/
theorem registers_declareGenerics (hseparate : setup.SeparateKeys) (hp : p ∈ setup.types)
    {params : Array GenericPlan} (hparams : p.generics = some params)
    (hmade : ParamsMade setup p h t [] [] [] [] [] s) :
    (declareGenerics (.type p.token) (setup.blueprint.topLevel p) #[] params).Safe
      (setup.apart (Amid setup s₀) p)
      (fun acc s' => ∃ objects, acc.1 = objects.foldl listOnce #[] ∧
        ParamsMade setup p h t p.genericPlans p.ownPlans p.ownPlans objects acc.2.toList s')
      (fun _ _ => False) s := by
  have hplans : p.genericPlans = params.toList := by simp [TypePlan.genericPlans, hparams]
  unfold declareGenerics
  rw [← hplans]
  refine Safe.foldlM (fun done acc s' => ∃ objects, acc.1 = objects.foldl listOnce #[] ∧
    ParamsMade setup p h t done (done.foldl addPlan []) (done.foldl addPlan []) objects
      acc.2.toList s') ?_ ⟨[], rfl, hmade⟩ ?_ fun acc s' _ => id
  · rintro done acc s₁ s₂ hs₂ ⟨objects, hlisted, hmade₁⟩
    exact ⟨objects, hlisted, hmade₁.spared hs₂⟩
  · rintro done g todo acc s₁ hsplit - - ⟨objects, hlisted, hmade₁⟩
    have hg : g ∈ p.genericPlans := by simp [hsplit]
    refine (registers_declareGeneric hseparate hp hg acc hmade₁).imp ?_ fun _ _ _ _ => id
    rintro acc' s₂ - - ⟨o, hlisted', hmade₂⟩
    refine ⟨objects ++ [o], ?_, ?_⟩
    · rw [hlisted', hlisted, List.foldl_append]
      rfl
    · rwa [List.foldl_append]

/-- A type that is only declared gets its parameters. -/
theorem registers_declaredType (hs₀ : Declared setup s₀) (hseparate : setup.SeparateKeys)
    (hp : p ∈ setup.types) (hstands : Stands setup p .declared s) :
    (declareTypeGenerics setup p).Safe (setup.apart (Amid setup s₀) p) (MayConfigure setup p)
      (fun _ _ => False) s := by
  obtain ⟨h, d, hmade⟩ := hstands.registering
  unfold declareTypeGenerics
  refine (Safe.managedType (fun _ n h => h.of_notices n) hmade.link
    hmade.type).bind ?_
  rintro _ s₁ - - ⟨rfl, hs₁⟩
  dsimp only
  cases hparams : p.generics with
  | none =>
    have hnone : p.genericPlans = [] := by simp [TypePlan.genericPlans, hparams]
    refine Safe.pure fun s' hs' hamid => ParamsMade.ready (h := h) hamid d [] ?_
    unfold TypePlan.ownPlans
    rw [hnone]
    exact hmade.spared (hs₁.trans hs')
  | some params =>
    refine (registers_declareGenerics hseparate hp hparams (hmade.spared hs₁)).bind ?_
    rintro ⟨_, pending⟩ s₂ - - ⟨objects, rfl, hmade₂⟩
    refine Safe.bind (P := fun _ => MayConfigure setup p pending)
      (Safe.lift_of_yields fun s₃ hs₃ hamid => ?_)
      fun _ s₃ _ _ hready => Safe.pure fun s' hs' _ => hready.spared hs'
    have hmade₃ := hmade₂.spared hs₃
    have hplace (t : TypeDef) : t.SamePlace { t with generics := objects.foldl listOnce #[] } :=
      ⟨⟨rfl, rfl, rfl, rfl, rfl, rfl⟩, rfl⟩
    exact ⟨(), _, rfl, hamid.modifyType h hplace, .modifyType hs₀ hamid hp hmade₃.link hplace,
      fun s' hs' hamid' =>
        ParamsMade.ready hamid' d objects ((hmade₃.changeType _).spared hs')⟩

/-- A type that is configured gets none. -/
theorem registers_configuredType {I : BuildState → Prop}
    (hI : ∀ s notices, I s → I { s with notices }) (hstands : Stands setup p .configured s) :
    (declareTypeGenerics setup p).Safe (setup.apart I p)
      (fun _ => Stands setup p .configured) (fun _ _ => False) s := by
  obtain ⟨h, t, hlink, ht, -, -, hmirrored⟩ := hstands.type
  unfold declareTypeGenerics
  refine (Safe.managedType hI hlink ht).bind ?_
  rintro _ s₁ - - ⟨rfl, hs₁⟩
  cases p.generics with
  | none => exact Safe.pure fun s' hs' _ => hstands.spared (hs₁.trans hs')
  | some params =>
    dsimp only
    rw [if_pos hmirrored.isConfigured]
    exact Safe.pure fun s' hs' _ => hstands.spared (hs₁.trans hs')

/-- Whether it has been configured or not. -/
theorem registers_type (hs₀ : Declared setup s₀) (hseparate : setup.SeparateKeys)
    (hp : p ∈ setup.types) {progress : Progress} (hstands : Stands setup p progress s)
    (hsettled : progress ≠ .registered) :
    (inContext setup .hierarchy p (declareTypeGenerics setup p)).Safe
      (setup.apart (Amid setup s₀) p) (MayConfigure setup p) (fun _ _ => False) s := by
  refine Safe.inContext_of_succeeds (fun _ n h => h.of_notices n) ?_
  cases progress with
  | declared => exact registers_declaredType hs₀ hseparate hp hstands
  | registered => exact absurd rfl hsettled
  | configured =>
    exact (registers_configuredType (fun _ n h => h.of_notices n) hstands).imp
      (fun _ _ _ _ => .inl) fun _ _ _ _ => id

end Stepwise

/-! ## The first round -/

section

variable {setup : Setup} {s₀ s : BuildState}

/-- From between two calls the first round always succeeds, whatever the schedule, and the second
one may go on with all types then. -/
theorem Piecemeal.registers (hs₀ : Declared setup s₀) (hseparate : setup.SeparateKeys)
    {progress : Token → Progress} (hs : Piecemeal setup s₀ progress s)
    (hsettled : ∀ token, progress token ≠ .registered) (σ : Schedule) :
    ∃ made s', (setup.registeringRound σ).Yields s made s' ∧ Amid setup s₀ s' ∧
      List.Forall₂ (fun p pending => MayConfigure setup p pending s') setup.types made := by
  have hagree := Setup.apart_agree hs₀.nodup (Amid setup s₀)
  have hsafe : List.Forall₂ (fun p t => Thread.Safe (setup.apart (Amid setup s₀) p)
      (MayConfigure setup p) (fun _ _ => False) t s) setup.types (setup.types.map fun p =>
        Stepwise.inContext setup .hierarchy p (Stepwise.declareTypeGenerics setup p)) :=
    List.forall₂_map_right_iff.mpr (List.forall₂_same.mpr fun p hp =>
      Stepwise.registers_type hs₀ hseparate hp (hs.stands hp) (hsettled p.token))
  unfold Setup.registeringRound
  rw [Setup.runAll_eq]
  generalize (if setup.config.concurrent then σ else {}) = σ
  rcases Build.yields_or_fails (sideBySide σ _) s with ⟨made, s', hrun⟩ | ⟨e, s', hrun⟩
  · obtain ⟨hamid, -, hready⟩ := yields_sideBySide hagree hsafe hs.amid hrun
    exact ⟨made, s', hrun, hamid, hready⟩
  · obtain ⟨-, -, _, -, hfalse⟩ := fails_sideBySide hagree hsafe hs.amid hrun
    exact hfalse.elim

/-- Then all types are registered or configured. -/
theorem Amid.exists_piecemeal (hs₀ : Declared setup s₀) (hs : Amid setup s₀ s)
    {made : List (Array PendingGeneric)}
    (hready : List.Forall₂ (fun p pending => MayConfigure setup p pending s) setup.types made) :
    ∃ progress, Piecemeal setup s₀ progress s ∧
      ∀ p ∈ setup.types, progress p.token ≠ .declared := by
  have hnext : ∀ token, ∃ next, ∀ p ∈ setup.types, p.token = token →
      next ≠ Progress.declared ∧ Stands setup p next s := by
    intro token
    by_cases htoken : ∃ p ∈ setup.types, p.token = token
    · obtain ⟨p, hp, rfl⟩ := htoken
      obtain ⟨next, hnext⟩ : ∃ next, next ≠ Progress.declared ∧ Stands setup p next s := by
        obtain ⟨pending, -, hconfigured | ⟨hregistered, -⟩⟩ := exists_of_forall₂ hready hp
        · exact ⟨.configured, by decide, hconfigured⟩
        · exact ⟨.registered, by decide, hregistered⟩
      refine ⟨next, fun q hq heq => ?_⟩
      obtain rfl := List.inj_on_of_nodup_map hs₀.nodup hq hp heq
      exact hnext
    · exact ⟨.declared, fun p hp heq => absurd ⟨p, hp, heq⟩ htoken⟩
  -- one choice for each token, which is that of the type with the token
  choose progress hprogress using hnext
  have hfurther (p : TypePlan) (hp : p ∈ setup.types) := (hprogress p.token p hp rfl).1
  exact ⟨progress, hs.piecemeal hfurther fun p hp => (hprogress p.token p hp rfl).2, hfurther⟩

end

end ClrImage
