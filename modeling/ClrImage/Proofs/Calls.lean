import ClrImage.Proofs.Directory
import ClrImage.Proofs.Underway

/-!
# Calls in any order

Behind the declaration of its types, an image may be built by any calls: types are configured one at
a time or all at once, and so are their members made, of plans that may repeat tokens or have been
made before. Each call may fail and leave what it has done so far.

- `Makes`, `stage_makes`: members that are staged are new, and differ from each other.
- `Catalogue.populate`, `Catalogue.call`: calls preserve the agreement of links and lists.
- `BuildCall`, `Setup.callAll`: the calls, and any sequence of them.
- `directory_exact`: links and lists agree behind all sequences of calls.
-/

namespace ClrImage

/-! ## Members that are made -/

/-- A member with a token has been made, and `P` holds of the methods behind it. -/
structure Makes (m : MemberSort) (P : MethodHandle → Prop) (s : BuildState) (token : Token)
    (h : Handle m.kind) (s' : BuildState) : Prop where
  fresh : ¬ s.Live h
  made : ∃ x, (s'.store.arena m.kind).get? h = some x ∧ m.tokenOf x = token ∧
    ∀ a ∈ m.semantics x, P a.method

theorem Makes.mono {m : MemberSort} {P : MethodHandle → Prop} {s₀ s s' s₁ : BuildState}
    {token : Token} {h : Handle m.kind} (hmade : Makes m P s token h s') (hbefore : s₀.Extends s)
    (hbehind : s'.Extends s₁) : Makes m P s₀ token h s₁ where
  fresh hlive := hmade.fresh (hbefore.live hlive)
  made := hmade.made.imp fun _ hx => ⟨hbehind.get?_member hx.1, hx.2⟩

/-- Members that are made one after the other are new, and differ from each other. -/
theorem makes_of_yields {m : MemberSort} {P : MethodHandle → Prop} {α : Type}
    {tokenOf : α → Token} {make : α → Build (Handle m.kind)} {l : List α}
    {made : List (Token × Handle m.kind)} {s s' : BuildState}
    (hkeeps : ∀ a, Build.Keeps Stages (make a))
    (hmakes : ∀ a s₁ h s₂, s₁.links = s.links → (make a).Yields s₁ h s₂ →
      Makes m P s₁ (tokenOf a) h s₂)
    (hrun : Build.Yields (l.mapM fun a => do pure (tokenOf a, ← make a)) s made s') :
    (∀ e ∈ made, Makes m P s e.1 e.2 s') ∧ (made.map Prod.snd).Nodup := by
  refine (Build.mapM_induction (fun _ _ done s₁ => Stages s s₁ ∧
    (∀ e ∈ done, Makes m P s e.1 e.2 s₁) ∧ (done.map Prod.snd).Nodup)
    ⟨.refl s, by simp, .nil⟩ ?_ hrun).2
  rintro _ a _ done ⟨token, h⟩ s₁ s₂ _ ⟨hstages, hdone, hnodup⟩ hstep
  obtain ⟨rfl, hmake⟩ := yields_withToken hstep
  have hnew := hmakes a s₁ h s₂ hstages.links_eq hmake
  have hlater := (hkeeps a).of_yields hmake
  refine ⟨hstages.trans hlater, ?_, ?_⟩
  · refine List.forall_mem_append.mpr ⟨fun e he => ?_, ?_⟩
    · exact (hdone e he).mono (.refl s) hlater.toExtends
    · exact List.forall_mem_singleton.mpr (hnew.mono hstages.toExtends (.refl s₂))
  · rw [List.map_append, List.nodup_append]
    refine ⟨hnodup, List.nodup_singleton _, ?_⟩
    rintro _ hold _ hlast rfl
    obtain rfl := List.mem_singleton.mp hlast
    obtain ⟨e, he, rfl⟩ := List.mem_map.mp hold
    obtain ⟨x, hx, -⟩ := (hdone e he).made
    -- what was made before is there by now, and the new member is not
    exact hnew.fresh ⟨x, hx⟩

section Making

variable {setup : Setup} {site : MemberSite} {P : MethodHandle → Prop} {s s' : BuildState}

theorem makes_field {f : FieldPlan} {h : FieldHandle}
    (hrun : (setup.makeField site f).Yields s h s') : Makes .field P s f.token h s' := by
  rw [makeField_eq] at hrun
  obtain ⟨type, s₁, hresolve, hrun⟩ := Build.yields_bind.mp hrun
  obtain ⟨_, s₂, hdefault, hrun⟩ := Build.yields_bind.mp hrun
  obtain ⟨_, s₃, hdata, halloc⟩ := Build.yields_bind.mp hrun
  have h₁ : Allocates s s₁ := (keeps_resolve _ _).of_yields hresolve
  have h₂ : Allocates s₁ s₂ := (keeps_demand _ _).of_yields hdefault
  have h₃ : Allocates s₂ s₃ := (keeps_demand _ _).of_yields hdata
  have hx := yields_allocField halloc
  obtain ⟨rfl, -⟩ := Build.yields_modifyGet.mp halloc
  exact ⟨(h₁.trans (h₂.trans h₃)).not_live_next .field, _, hx, rfl, by simp [MemberSort.semantics]⟩

theorem makes_method {n : MethodPlan} {h : MethodHandle}
    (hrun : (setup.makeMethod site n).Yields s h s') : Makes .method P s n.token h s' := by
  unfold Setup.makeMethod at hrun
  obtain ⟨generics, s₁, hgenerics, hrun⟩ := Build.yields_bind.mp hrun
  obtain ⟨returnType, s₂, hreturn, hrun⟩ := Build.yields_bind.mp hrun
  obtain ⟨types, s₃, htypes, hrun⟩ := Build.yields_bind.mp hrun
  obtain ⟨params, s₄, hparams, hrun⟩ := Build.yields_bind.mp hrun
  have h₁ : Stages s s₁ := (keeps_makeMethodGenerics site n).of_yields hgenerics
  have h₂ : Stages s₁ s₂ := (keeps_resolve _ _).of_yields hreturn
  have h₃ : Stages s₂ s₃ := (Build.Keeps.mapM (fun _ => keeps_resolve _ _) _).of_yields htypes
  have h₄ : Stages s₃ s₄ :=
    (Build.Keeps.mapM (fun _ => keeps_makeParam site _ _ _) _).stages.of_yields hparams
  rw [Build.yields_get_bind] at hrun
  have hx := yields_allocMethod hrun
  obtain ⟨rfl, -⟩ := Build.yields_modifyGet.mp hrun
  exact ⟨(h₁.trans (h₂.trans (h₃.trans h₄))).not_live_next .method, _, hx, rfl,
    by simp [MemberSort.semantics]⟩

/-- The methods behind an accessor are those that are found for it. -/
theorem found_of_wireAccessor {staged : Staged} {owner : String} {accessor : Accessor}
    {n : Option MethodPlan} {semantics : Array Semantics}
    (hrun : (Setup.wireAccessor staged owner accessor n).Yields s semantics s') :
    s = s' ∧ ∀ a ∈ semantics, ∃ token, staged.find s.links token = some a.method := by
  obtain ⟨rfl, hwired⟩ := yields_wireAccessor hrun
  refine ⟨rfl, fun a ha => ?_⟩
  obtain ⟨b, -, -, hfound⟩ := exists_of_forall₂ hwired.flip (Array.mem_toList_iff.mpr ha)
  exact ⟨_, hfound⟩

theorem makes_property {staged : Staged} {q : PropertyPlan} {h : PropertyHandle}
    (hP : ∀ token g, staged.find s.links token = some g → P g)
    (hrun : (setup.makeProperty site staged q).Yields s h s') :
    Makes .property P s q.token h s' := by
  unfold Setup.makeProperty at hrun
  obtain ⟨type, s₁, hresolve, hrun⟩ := Build.yields_bind.mp hrun
  have hsame : Allocates s s₁ := (keeps_resolve _ _).of_yields hresolve
  obtain ⟨getter, _, hgetter, hrun⟩ := Build.yields_bind.mp hrun
  obtain ⟨rfl, hfound₁⟩ := found_of_wireAccessor hgetter
  obtain ⟨setter, _, hsetter, halloc⟩ := Build.yields_bind.mp hrun
  obtain ⟨rfl, hfound₂⟩ := found_of_wireAccessor hsetter
  have hx := yields_allocProperty halloc
  obtain ⟨rfl, -⟩ := Build.yields_modifyGet.mp halloc
  refine ⟨hsame.not_live_next .property, _, hx, rfl, fun a ha => ?_⟩
  rw [hsame.links_eq] at hfound₁ hfound₂
  obtain ⟨token, hfound⟩ := (Array.mem_append.mp ha).elim (hfound₁ a) (hfound₂ a)
  exact hP token a.method hfound

theorem makes_event {staged : Staged} {e : EventPlan} {h : EventHandle}
    (hP : ∀ token g, staged.find s.links token = some g → P g)
    (hrun : (setup.makeEvent site staged e).Yields s h s') : Makes .event P s e.token h s' := by
  unfold Setup.makeEvent at hrun
  obtain ⟨type, s₁, hresolve, hrun⟩ := Build.yields_bind.mp hrun
  have hsame : Allocates s s₁ := (keeps_resolve _ _).of_yields hresolve
  obtain ⟨add, _, hadd, hrun⟩ := Build.yields_bind.mp hrun
  obtain ⟨rfl, hfound₁⟩ := found_of_wireAccessor hadd
  obtain ⟨remove, _, hremove, hrun⟩ := Build.yields_bind.mp hrun
  obtain ⟨rfl, hfound₂⟩ := found_of_wireAccessor hremove
  obtain ⟨raise, _, hraise, halloc⟩ := Build.yields_bind.mp hrun
  obtain ⟨rfl, hfound₃⟩ := found_of_wireAccessor hraise
  have hx := yields_allocEvent halloc
  obtain ⟨rfl, -⟩ := Build.yields_modifyGet.mp halloc
  refine ⟨hsame.not_live_next .event, _, hx, rfl, fun a ha => ?_⟩
  rw [hsame.links_eq] at hfound₁ hfound₂ hfound₃
  obtain ⟨token, hfound⟩ := (Array.mem_append.mp ha).elim
    (fun ha => (Array.mem_append.mp ha).elim (hfound₁ a) (hfound₂ a)) (hfound₃ a)
  exact hP token a.method hfound

/-- All staged members are new, and differ from each other; the methods behind them have been staged
too or are linked. -/
theorem stage_makes {p : TypePlan} {staged : Staged} (m : MemberSort)
    (hrun : (setup.stage site p).Yields s staged s') :
    (∀ e ∈ m.staged staged,
      Makes m (fun h => ∃ token, staged.find s.links token = some h) s e.1 e.2 s') ∧
    ((m.staged staged).map Prod.snd).Nodup := by
  obtain ⟨fields, s₁, methods, s₂, properties, s₃, events, hfields, hmethods, hproperties, hevents,
    rfl⟩ := yields_stage hrun
  have h₁ := (keeps_makeFields (R := Allocates) site p).stages.of_yields hfields
  have h₂ := (Build.Keeps.mapM (keeps_withToken (keeps_makeMethod site)) _).of_yields hmethods
  have h₃ := (keeps_makeProperties (R := Allocates) site _ p).stages.of_yields hproperties
  have h₄ := (keeps_makeEvents (R := Allocates) site _ p).stages.of_yields hevents
  -- each sort is made behind those before it, and those behind it let it be
  cases m with
  | field =>
    obtain ⟨hmade, hnodup⟩ := makes_of_yields (m := .field)
      (fun f => (keeps_makeField (R := Allocates) site f).stages)
      (fun _ _ _ _ _ hstep => makes_field hstep) hfields
    exact ⟨fun e he => (hmade e he).mono (.refl s)
      (h₂.toExtends.trans (h₃.toExtends.trans h₄.toExtends)), hnodup⟩
  | method =>
    obtain ⟨hmade, hnodup⟩ := makes_of_yields (m := .method) (keeps_makeMethod site)
      (fun _ _ _ _ _ hstep => makes_method hstep) hmethods
    exact ⟨fun e he => (hmade e he).mono h₁.toExtends (h₃.toExtends.trans h₄.toExtends), hnodup⟩
  | property =>
    obtain ⟨hmade, hnodup⟩ := makes_of_yields (m := .property)
      (P := fun h => ∃ token, Staged.find { methods := methods.toArray } s.links token = some h)
      (fun q => (keeps_makeProperty (R := Allocates) site _ q).stages)
      (fun _ _ _ _ hlinks hstep => makes_property (fun token g hfound => ⟨token, by
        rwa [hlinks, h₂.links_eq, h₁.links_eq] at hfound⟩) hstep) hproperties
    exact ⟨fun e he => (hmade e he).mono (h₁.toExtends.trans h₂.toExtends) h₄.toExtends, hnodup⟩
  | event =>
    obtain ⟨hmade, hnodup⟩ := makes_of_yields (m := .event)
      (P := fun h => ∃ token, Staged.find { methods := methods.toArray } s.links token = some h)
      (fun e => (keeps_makeEvent (R := Allocates) site _ e).stages)
      (fun _ _ _ _ hlinks hstep => makes_event (fun token g hfound => ⟨token, by
        rwa [hlinks, h₃.links_eq, h₂.links_eq, h₁.links_eq] at hfound⟩) hstep) hevents
    exact ⟨fun e he => (hmade e he).mono (h₁.toExtends.trans (h₂.toExtends.trans h₃.toExtends))
      (.refl s'), hnodup⟩

end Making

/-! ## Calls for members -/

theorem keeps_notice_sameDirectory (n : Notice) : Build.Keeps SameDirectory (Build.notice n) :=
  (keeps_notice n).stages.mono fun _ _ => Stages.sameDirectory

/-- Members that have been made await their publication. -/
theorem Catalogue.awaits {m : MemberSort} {P : MethodHandle → Prop}
    {made : List (Token × Handle m.kind)} {s s' : BuildState} (hs : Catalogue s)
    (hstages : Stages s s') (hmade : ∀ e ∈ made, Makes m P s e.1 e.2 s')
    (hnodup : (made.map Prod.snd).Nodup) : Awaits m made s' where
  unlinked e he hlinked :=
    (hmade e he).fresh ((hs.sorts m).live (hstages.sameDirectory.isLinked.mp hlinked))
  own e he := by
    obtain ⟨x, hx, htoken, -⟩ := (hmade e he).made
    exact Option.map_eq_some_iff.mpr ⟨x, hx, htoken⟩
  nodup := hnodup

namespace Catalogue

variable {setup : Setup} {s s' : BuildState}

/-- A pass of publication preserves the invariant, whatever its outcome. -/
theorem publishAll {m : MemberSort} {type : TypeHandle} {members : List (Token × Handle m.kind)}
    (hs : Catalogue s) (hawaits : Awaits m members s) (hlive : s.Live type)
    (htype : type ∈ s.declared) (hwires : s.Wires m members) :
    Catalogue (Build.outcome (members.forM (m.places.publish type)) s).2 := by
  obtain ⟨part, hpart, hpublishes⟩ := publishAll_part m.places type members s
  exact hs.publishes (hawaits.part hpart) hlive htype (fun e he => hwires e (hpart.subset he))
    hpublishes

/-- Where the staged methods are linked, so are all methods that have been found for accessors. -/
theorem isLinked_of_find {staged : Staged} {token : Token} {h : MethodHandle}
    (hgrows : s.Extends s')
    (hstaged : ∀ e ∈ MemberSort.method.staged staged, s'.IsLinked .method e.2)
    (hfind : staged.find s.links token = some h) : s'.IsLinked .method h := by
  unfold Staged.find at hfind
  rw [Option.orElse_eq_orElse, Option.orElse_eq_or, Option.or_eq_some_iff] at hfind
  rcases hfind with hmethod | ⟨-, hbefore⟩
  · obtain ⟨e, he, rfl⟩ := Option.map_eq_some_iff.mp hmethod
    exact hstaged e (Array.mem_toList_iff.mpr (Array.mem_of_find?_eq_some he))
  · exact hgrows.isLinked ⟨token, hbefore⟩

/-- A whole publication preserves the invariant, whatever its outcome. Properties and events come to
be listed only behind all staged methods. -/
theorem publish {type : TypeHandle} {staged : Staged} (hs : Catalogue s) (hlive : s.Live type)
    (htype : type ∈ s.declared) (hawaits : ∀ m, Awaits m (MemberSort.staged staged m) s)
    (hfound : ∀ m, ∀ e ∈ MemberSort.staged staged m, ∀ x,
      (s.store.arena m.kind).get? e.2 = some x → ∀ a ∈ m.semantics x,
        ∃ token, staged.find s.links token = some a.method) :
    Catalogue ((Build.publish type staged).outcome s).2 := by
  rw [publish_eq, Build.outcome_bind, Build.outcome_get]
  dsimp only
  split
  next => exact hs
  refine Build.outcome_bind_induction Catalogue
    (hs.publishAll (m := .field) (hawaits .field) hlive htype ?_) fun _ s₁ hrun₁ hs₁ => ?_
  · -- no methods stand behind fields, nor behind methods
    simp [BuildState.Wires, MemberSort.semantics]
  have h₁ : Publishes MemberSort.field.places type _ s s₁ := yields_publishAll hrun₁
  have hlive₁ := h₁.extends_state.live hlive
  have htype₁ : type ∈ s₁.declared := h₁.declared ▸ htype
  refine Build.outcome_bind_induction Catalogue
    (hs₁.publishAll (m := .method) ((hawaits .method).of_publishes h₁ (by decide)) hlive₁ htype₁ ?_)
    fun _ s₂ hrun₂ hs₂ => ?_
  · simp [BuildState.Wires, MemberSort.semantics]
  have h₂ : Publishes MemberSort.method.places type _ s₁ s₂ := yields_publishAll hrun₂
  have hlive₂ := h₂.extends_state.live hlive₁
  have htype₂ : type ∈ s₂.declared := h₂.declared ▸ htype₁
  have hgrows := h₁.extends_state.trans h₂.extends_state
  -- all staged methods are linked now, so whatever an accessor has been found to name is
  have hwires (m : MemberSort) : s₂.Wires m (m.staged staged) := by
    intro e he x hx a ha
    obtain ⟨token, hfind⟩ := hfound m e he x ((hawaits m).get?_eq hgrows he hx) a ha
    exact isLinked_of_find hgrows (fun e he => ⟨e.1, h₂.linked e he⟩) hfind
  have hawaits₂ {m : MemberSort} (hfield : m ≠ .field) (hmethod : m ≠ .method) :
      Awaits m (m.staged staged) s₂ :=
    ((hawaits m).of_publishes h₁ hfield).of_publishes h₂ hmethod
  refine Build.outcome_bind_induction Catalogue
    (hs₂.publishAll (m := .property) (hawaits₂ (by decide) (by decide)) hlive₂ htype₂
      (hwires .property)) fun _ s₃ hrun₃ hs₃ => ?_
  have h₃ : Publishes MemberSort.property.places type _ s₂ s₃ := yields_publishAll hrun₃
  have hevents := hawaits₂ (m := .event) (by decide) (by decide)
  exact hs₃.publishAll (hevents.of_publishes h₃ (by decide)) (h₃.extends_state.live hlive₂)
    (h₃.declared ▸ htype₂) (hevents.wires h₃.extends_state (hwires .event))

/-- The members of a type are made and published. -/
theorem populate (hs : Catalogue s) (p : TypePlan) :
    Catalogue ((setup.populate p).outcome s).2 := by
  have published {h : TypeHandle} {t : TypeDef} {staged : Staged} {s₁ : BuildState}
      (hlink : s.links.types.get? p.token = some h) (ht : s.store.types.get? h = some t)
      (hstage : (setup.stage ⟨s.store.fullName t, setup.blueprint.topLevel p⟩ p).Yields s staged
        s₁) : Catalogue ((Build.publish h staged).outcome s₁).2 := by
    have hstages := (keeps_stage _ p).of_yields hstage
    have hmade (m : MemberSort) := stage_makes m hstage
    refine (hs.sameDirectory hstages.sameDirectory).publish (hstages.live ⟨t, ht⟩)
      (hstages.declared_eq ▸ hs.managed _ h hlink)
      (fun m => hs.awaits hstages (hmade m).1 (hmade m).2) fun m e he x hx a ha => ?_
    obtain ⟨y, hy, -, hfound⟩ := ((hmade m).1 e he).made
    obtain rfl := Option.some.inj (hy.symm.trans hx)
    exact hstages.links_eq ▸ hfound a ha
  rcases Build.yields_or_fails (setup.populate p) s with ⟨_, s', hrun⟩ | ⟨e, s', hrun⟩ <;>
    rw [hrun.outcome_snd]
  · obtain ⟨h, t, staged, s₁, s₂, hlink, ht, hstage, hpublish, hnotice⟩ := yields_populate hrun
    have hs₂ := published hlink ht hstage
    rw [hpublish.outcome_snd] at hs₂
    exact hs₂.sameDirectory ((keeps_noticePopulated h).of_yields hnotice).stages.sameDirectory
  · rcases fails_populate hrun with ⟨rfl, -⟩ | ⟨h, t, hlink, ht, hstage | hpublish⟩
    · exact hs
    · exact hs.sameDirectory ((keeps_stage _ p).of_fails hstage).sameDirectory
    · obtain ⟨staged, s₁, hstage, hpublish⟩ := hpublish
      exact hpublish.outcome_snd ▸ published hlink ht hstage

theorem populateType (p : TypePlan) :
    Build.Keeps (Build.Preserves Catalogue) (setup.populateType p) := by
  unfold Setup.populateType
  split
  · exact keeps (keeps_notice_sameDirectory _)
  · exact Setup.keeps_inContext (fun _ => keeps (keeps_notice_sameDirectory _))
      fun _ hs => hs.populate p

theorem populateOrRecord (p : TypePlan) :
    Build.Keeps (Build.Preserves Catalogue) (setup.populateOrRecord p) := by
  unfold Setup.populateOrRecord
  split
  · refine Build.Keeps.tryCatch (populateType p) fun e => keeps (Build.Keeps.modify fun s => ?_)
    exact ⟨{ BuildState.Extends.refl s with }, ⟨rfl, rfl, rfl, rfl, fun _ => rfl⟩, rfl, rfl⟩
  · exact populateType p

end Catalogue

/-! ## Calls for the hierarchy -/

section Hierarchy

variable {setup : Setup}

/-- A change of a type that keeps what identifies it and what members it lists. -/
theorem keeps_modifyType_sameDirectory (h : TypeHandle) {f : TypeDef → TypeDef}
    (halike : ∀ t, TypeDef.Alike t (f t)) (hmembers : ∀ t, (f t).members = t.members) :
    Build.Keeps SameDirectory (Build.modifyType h f) := by
  refine Build.Keeps.modify fun s => ⟨{ BuildState.Extends.refl s with types := ?_ },
    ⟨rfl, rfl, rfl, rfl, fun g => ?_⟩, rfl, rfl⟩
  · exact Arena.extends_modify TypeDef.Alike.refl _ h halike
  · show ((s.store.types.modify h f).get? g).map _ = _
    rw [Arena.get?_modify]
    split
    · rw [Option.map_map]
      exact congrArg (Option.map · _) (funext hmembers)
    · rfl

theorem keeps_configureBase_sameDirectory (topLevel : Token) (h : TypeHandle) (r : TypeRef) :
    Build.Keeps SameDirectory (setup.configureBase topLevel h r) := by
  refine Build.Keeps.bind (keeps_resolve topLevel r) fun sig s => ?_
  rw [Build.outcome_bind, Build.outcome_get]
  dsimp only
  rw [Build.outcome_bind, Build.outcome_liftExcept]
  rcases hset : s.store.setBase h sig with e | store
  · exact .refl s
  unfold Store.setBase at hset
  split at hset
  next =>
    obtain rfl := Except.ok.inj hset
    exact .refl s
  next =>
    split at hset
    next => cases hset
    next =>
      obtain rfl := Except.ok.inj hset
      exact keeps_modifyType_sameDirectory (f := fun t => { t with base := some sig }) h
        (fun _ => ⟨rfl, rfl, rfl, rfl, rfl, rfl⟩) (fun _ => rfl) s

theorem keeps_noticeConfigured_sameDirectory (h : TypeHandle) :
    Build.Keeps SameDirectory (Setup.noticeConfigured h) := by
  unfold Setup.noticeConfigured
  refine Build.Keeps.bind Build.Keeps.get fun s => ?_
  split
  · exact Build.Keeps.pure ()
  · exact keeps_notice_sameDirectory _

theorem keeps_declareTypeGenerics_sameDirectory (p : TypePlan) :
    Build.Keeps SameDirectory (setup.declareTypeGenerics p) := by
  unfold Setup.declareTypeGenerics
  refine Build.Keeps.bind keeps_managedType fun entry => ?_
  dsimp only
  split
  · exact Build.Keeps.pure _
  · split
    · exact Build.Keeps.pure _
    · refine Build.Keeps.bind ((keeps_declareGenerics _ _ _ _).mono fun _ _ =>
        Stages.sameDirectory) fun _ => ?_
      exact Build.Keeps.bind (keeps_modifyType_sameDirectory entry.1
        (fun _ => ⟨rfl, rfl, rfl, rfl, rfl, rfl⟩) fun _ => rfl) fun _ => Build.Keeps.pure _

theorem keeps_configure_sameDirectory (p : TypePlan) (pending : Array PendingGeneric) :
    Build.Keeps SameDirectory (setup.configure p pending) := by
  unfold Setup.configure
  refine Build.Keeps.bind keeps_managedType fun entry => ?_
  dsimp only
  split
  · exact keeps_notice_sameDirectory _
  refine Build.Keeps.bind ((keeps_constrainGenerics _ _).mono fun _ _ => Stages.sameDirectory)
    fun _ => ?_
  refine Build.Keeps.bind ?_ fun _ => ?_
  · cases p.base with
    | none => exact Build.Keeps.pure ()
    | some r => exact keeps_configureBase_sameDirectory _ entry.1 r
  refine Build.Keeps.bind (Build.Keeps.forM (fun r => ?_) _) fun _ => ?_
  · exact Build.Keeps.bind (keeps_resolve _ r) fun _ =>
      keeps_modifyType_sameDirectory entry.1 (fun _ => ⟨rfl, rfl, rfl, rfl, rfl, rfl⟩) fun _ => rfl
  exact Build.Keeps.bind (keeps_modifyType_sameDirectory entry.1
    (fun _ => ⟨rfl, rfl, rfl, rfl, rfl, rfl⟩) fun _ => rfl)
    fun _ => keeps_noticeConfigured_sameDirectory entry.1

/-- Calls for the hierarchy link and list no members. -/
theorem keeps_perform_sameDirectory (call : HierarchyCall) :
    Build.Keeps SameDirectory (setup.perform call) := by
  have hdeclare (p : TypePlan) : Build.Keeps SameDirectory
      (setup.inContext .hierarchy p (setup.declareTypeGenerics p)) :=
    Setup.keeps_inContext (fun _ => keeps_notice_sameDirectory _)
      (keeps_declareTypeGenerics_sameDirectory p)
  have hconfigure (e : PendingType) : Build.Keeps SameDirectory
      (setup.inContext .hierarchy e.1 (setup.configure e.1 e.2)) :=
    Setup.keeps_inContext (fun _ => keeps_notice_sameDirectory _)
      (keeps_configure_sameDirectory e.1 e.2)
  cases call with
  | type p => exact Build.Keeps.bind (hdeclare p) fun pending => hconfigure (p, pending)
  | all =>
    have hfirst : Build.Keeps SameDirectory setup.registerTypes := Build.Keeps.mapM hdeclare _
    have hsecond (work : List PendingType) : Build.Keeps SameDirectory
        (setup.configureTypes work) := by
      unfold Setup.configureTypes
      exact Build.Keeps.forM hconfigure work
    unfold Setup.perform Setup.configureHierarchy
    refine Build.Keeps.bind (keeps_notice_sameDirectory _) fun _ => ?_
    refine Build.Keeps.bind hfirst fun made => ?_
    refine Build.Keeps.bind (hsecond (setup.types.zip made)) fun _ => ?_
    exact Build.Keeps.bind Build.Keeps.get fun _ => keeps_notice_sameDirectory _

end Hierarchy

/-! ## Sequences of calls -/

/-- A call for the hierarchy, or for the members of one type or of all types. The type is given by
any plan. -/
inductive BuildCall
  | hierarchy (call : HierarchyCall)
  | populate (p : TypePlan)
  | populateAll

namespace Setup

def call (setup : Setup) : BuildCall → Build Unit
  | .hierarchy call => setup.perform call
  | .populate p => setup.populateType p
  | .populateAll => setup.populateMembers

/-- The state behind some calls. Each one is made in the state that the one before it leaves, also
if that one has failed. -/
def callAll (setup : Setup) (s : BuildState) (calls : List BuildCall) : BuildState :=
  calls.foldl (fun s call => ((setup.call call).outcome s).2) s

end Setup

namespace Catalogue

variable {setup : Setup} {s : BuildState}

theorem call (call : BuildCall) : Build.Keeps (Build.Preserves Catalogue) (setup.call call) := by
  cases call with
  | hierarchy call => exact keeps (keeps_perform_sameDirectory call)
  | populate p => exact populateType p
  | populateAll =>
    exact Build.Keeps.bind (keeps (keeps_notice_sameDirectory _)) fun _ =>
      Build.Keeps.bind (Build.Keeps.forM populateOrRecord _) fun _ =>
        Build.Keeps.bind Build.Keeps.get fun _ => keeps (keeps_notice_sameDirectory _)

theorem callAll (hs : Catalogue s) (calls : List BuildCall) :
    Catalogue (setup.callAll s calls) := by
  induction calls generalizing s with
  | nil => exact hs
  | cons first calls ih => exact ih (call first s hs)

/-- Behind the declaration of the types there are no members. -/
theorem of_declared (hs : Declared setup s) : Catalogue s := by
  have hlinks := BuildState.linked?_eq_none hs.links
  have hmembers (m : MemberSort) (type : TypeHandle) : s.members m type = [] := by
    unfold BuildState.members
    cases ht : s.store.types.get? type with
    | none => rfl
    | some t =>
      -- a type that is there is the one that its plan has been declared as
      obtain ⟨p, hp, hlink⟩ := hs.known type t ht
      obtain ⟨h, d, hlink', ht'⟩ := hs.linked p hp
      obtain rfl := Option.some.inj (hlink.symm.trans hlink')
      obtain rfl := Option.some.inj (ht.symm.trans ht')
      cases m <;> rfl
  have hlisted (m : MemberSort) : s.listed m = [] := by
    unfold BuildState.listed
    rw [List.flatMap_eq_nil_iff]
    exact fun type _ => hmembers m type
  refine ⟨?_, fun token h hlink => ?_, fun m => ⟨fun token h hlinked => ?_, fun h => ?_, ?_⟩,
    fun m h hmem => ?_⟩
  · exact hs.nodup_declared
  · obtain ⟨p, hp, rfl⟩ := hs.planned token h hlink
    obtain ⟨h', hmem, hlink'⟩ := exists_of_forall₂ hs.listed hp
    obtain rfl := Option.some.inj (hlink.symm.trans hlink')
    exact Array.mem_toList_iff.mp hmem
  · rw [hlinks] at hlinked
    cases hlinked
  · rw [hlisted]
    simp [BuildState.IsLinked, hlinks]
  · rw [hlisted]
    exact .nil
  · rw [hlisted] at hmem
    cases hmem

end Catalogue

end ClrImage
