import ClrImage.Proofs.Mirror

/-!
# Making members

What the steps of staging make: members that mirror their plans. Each step reads the tables as they
are at the time; that the result still holds of later tables is growth.

- `yields_makeField`, `yields_makeMethod`, …: each step makes a member that mirrors its plan.
- `StagedMirrored`: all members of a type have been made.
- `yields_stage_mirrored`: staging that succeeds has made them.
-/

namespace ClrImage

/-! ## New objects -/

section Alloc

variable {s s' : BuildState}

theorem yields_allocField {f : FieldDef} {h : FieldHandle}
    (hrun : (Build.allocField f).Yields s h s') : s'.store.fields.get? h = some f := by
  obtain ⟨rfl, rfl⟩ := Build.yields_modifyGet.mp hrun
  exact Arena.get?_alloc_next _ f

theorem yields_allocParam {p : ParamDef} {h : ParamHandle}
    (hrun : (Build.allocParam p).Yields s h s') : s'.store.params.get? h = some p := by
  obtain ⟨rfl, rfl⟩ := Build.yields_modifyGet.mp hrun
  exact Arena.get?_alloc_next _ p

theorem yields_allocMethod {m : MethodDef} {h : MethodHandle}
    (hrun : (Build.allocMethod m).Yields s h s') : s'.store.methods.get? h = some m := by
  obtain ⟨rfl, rfl⟩ := Build.yields_modifyGet.mp hrun
  exact Arena.get?_alloc_next _ m

theorem yields_allocProperty {p : PropertyDef} {h : PropertyHandle}
    (hrun : (Build.allocProperty p).Yields s h s') : s'.store.properties.get? h = some p := by
  obtain ⟨rfl, rfl⟩ := Build.yields_modifyGet.mp hrun
  exact Arena.get?_alloc_next _ p

theorem yields_allocEvent {e : EventDef} {h : EventHandle}
    (hrun : (Build.allocEvent e).Yields s h s') : s'.store.events.get? h = some e := by
  obtain ⟨rfl, rfl⟩ := Build.yields_modifyGet.mp hrun
  exact Arena.get?_alloc_next _ e

end Alloc

/-! ## Single members -/

section Members

variable {setup : Setup} (hresolver : setup.resolver = Resolver.default) {site : MemberSite}
  {s s' : BuildState}
include hresolver

/-- A field is made as planned. -/
theorem yields_makeField {f : FieldPlan} {h : FieldHandle}
    (hrun : (setup.makeField site f).Yields s h s') :
    ∃ d, s'.store.fields.get? h = some d ∧ FieldMirrored (s'.scope site.topLevel) f d := by
  have hstages := (keeps_makeField site f).stages.of_yields hrun
  rw [makeField_eq] at hrun
  obtain ⟨type, _, hresolve, hrun⟩ := Build.yields_bind.mp hrun
  obtain ⟨htype, rfl⟩ := (yields_resolve hresolver).mp hresolve
  obtain ⟨_, s₁, -, hrun⟩ := Build.yields_bind.mp hrun
  obtain ⟨_, s₂, -, halloc⟩ := Build.yields_bind.mp hrun
  exact ⟨_, yields_allocField halloc, rfl, rfl, rfl, rfl,
    Scope.resolve_extends (hstages.scope _) htype, rfl, rfl⟩

omit hresolver in
/-- A parameter is made as planned, and its number is that of its position. -/
theorem yields_makeParam {method : String} {position : Nat} {p : ParamPlan} {h : ParamHandle}
    (hrun : (setup.makeParam site method position p).Yields s h s') :
    ∃ x, s'.store.params.get? h = some x ∧ ParamMirrored p position x := by
  rw [makeParam_eq] at hrun
  obtain ⟨_, s₁, hcheck, hrun⟩ := Build.yields_bind.mp hrun
  obtain ⟨_, s₂, -, hrun⟩ := Build.yields_bind.mp hrun
  obtain ⟨_, s₃, -, halloc⟩ := Build.yields_bind.mp hrun
  have hposition : position < 0xFFFF := by
    split at hcheck
    · cases Build.yields_throw.mp hcheck
    · omega
  refine ⟨_, yields_allocParam halloc, ?_, rfl, rfl, rfl⟩
  exact UInt16.toNat_ofNat_of_lt (show position + 1 < 65536 by omega)

/-- References that are resolved one after the other in one state. -/
theorem yields_resolveAll {α : Type} {topLevel : Token} {refOf : α → TypeRef} {l : List α}
    {sigs : List Signature}
    (hrun : Build.Yields (l.mapM fun a => setup.resolve topLevel (refOf a)) s sigs s') :
    s = s' ∧ (s.scope topLevel).Resolves (l.map refOf) sigs := by
  induction l generalizing s sigs with
  | nil =>
    obtain ⟨rfl, rfl⟩ := Build.yields_mapM_nil.mp hrun
    exact ⟨rfl, .nil⟩
  | cons a l ih =>
    obtain ⟨sig, _, rest, hresolve, hrest, rfl⟩ := Build.yields_mapM_cons.mp hrun
    obtain ⟨hsig, rfl⟩ := (yields_resolve hresolver).mp hresolve
    obtain ⟨rfl, hsigs⟩ := ih hrest
    exact ⟨rfl, .cons hsig hsigs⟩

omit hresolver in
/-- A method lists the objects of its planned parameters. -/
theorem yields_makeMethodGenerics {m : MethodPlan} {listed : Array GenericHandle}
    (hrun : (setup.makeMethodGenerics site m).Yields s listed s') :
    (s'.scope site.topLevel).Lists (m.generics.getD #[]).toList listed := by
  unfold Setup.makeMethodGenerics at hrun
  split at hrun
  next hnone =>
    obtain ⟨rfl, rfl⟩ := Build.yields_pure.mp hrun
    rw [hnone]
    exact ⟨[], .nil, rfl⟩
  next params hsome =>
    obtain ⟨objects, made, s₁, hdeclare, hregisters⟩ :=
      declareGenerics_registers (.method m.token) site.topLevel #[] params s
    obtain ⟨_, _, hdeclare', hrun⟩ := Build.yields_bind.mp hrun
    obtain ⟨rfl, rfl⟩ := hdeclare.unique hdeclare'
    obtain ⟨_, s₂, hconstrain, hpure⟩ := Build.yields_bind.mp hrun
    obtain ⟨rfl, rfl⟩ := Build.yields_pure.mp hpure
    have hstages := (keeps_constrainGenerics site.topLevel made).of_yields hconstrain
    rw [hsome]
    exact hregisters.lists.mono (hstages.scope _)

/-- A method is made as planned. -/
theorem yields_makeMethod (hclosed : s.RegistryClosed) {m : MethodPlan} {h : MethodHandle}
    (hrun : (setup.makeMethod site m).Yields s h s') :
    ∃ d, s'.store.methods.get? h = some d ∧ MethodMirrored (s'.scope site.topLevel) m d := by
  unfold Setup.makeMethod at hrun
  obtain ⟨generics, s₁, hgenerics, hrun⟩ := Build.yields_bind.mp hrun
  obtain ⟨returnType, _, hresolve, hrun⟩ := Build.yields_bind.mp hrun
  obtain ⟨hreturn, rfl⟩ := (yields_resolve hresolver).mp hresolve
  obtain ⟨paramTypes, _, hresolve, hrun⟩ := Build.yields_bind.mp hrun
  obtain ⟨rfl, hparamTypes⟩ := yields_resolveAll hresolver hresolve
  obtain ⟨params, s₂, hparams, halloc⟩ := Build.yields_bind.mp hrun
  rw [Build.yields_get_bind] at halloc
  have h₁ := (keeps_makeMethodGenerics site m).of_yields hgenerics
  have h₂ := (Build.Keeps.mapM (fun _ => (keeps_makeParam site _ _ _).stages) _).of_yields hparams
  have h₃ := (keeps_allocMethod _).of_yields halloc
  have hclosed₂ := h₂.closed (h₁.closed hclosed)
  have hmade := Build.yields_mapM_forall₂
    (P := fun entry g s => ∃ x, s.store.params.get? g = some x ∧ ParamMirrored entry.1 entry.2 x)
    (Q := fun _ => True) (fun _ => (keeps_makeParam site _ _ _).stages) (fun _ _ _ _ => trivial)
    (fun _ g s s' hstages _ ⟨x, hx, hmirrored⟩ => by
      exact ⟨x, hstages.params.get?_eq hx, hmirrored⟩)
    (fun _ _ _ _ _ hrun => yields_makeParam hrun) trivial hparams
  refine ⟨_, yields_allocMethod halloc, {
    token := rfl, name := rfl, flags := rfl, implFlags := rfl, hasThis := rfl, genericCount := rfl
    returnType := Scope.resolve_extends ((h₂.trans h₃).scope _) hreturn
    paramTypes := hparamTypes.mono ((h₂.trans h₃).scope _)
    params := ?params
    generics := (yields_makeMethodGenerics hgenerics).mono ((h₂.trans h₃).scope _)
    body := ?body }⟩
  case params =>
    refine hmade.imp ?_
    rintro entry g ⟨x, hx, hmirrored⟩
    exact ⟨x, h₃.params.get?_eq hx, hmirrored⟩
  case body =>
    -- the stub was made before the method, and looks the same behind it
    have hstub := stub_extends h₃.toExtends hclosed₂
      (Scope.resolve_extends (h₂.scope site.topLevel) hreturn)
    show _ = if _ then some (stub s'.store returnType) else none
    rw [hstub]
    rfl

/-- An accessor is wired to the method that is found for it, if it is planned. -/
def Staged.find (staged : Staged) (links : LinkTable) (token : Token) : Option MethodHandle :=
  staged.method? token <|> links.methods.get? token

omit hresolver in
theorem yields_wireAccessor {staged : Staged} {owner : String} {accessor : Accessor}
    {m : Option MethodPlan} {semantics : Array Semantics}
    (hrun : (Setup.wireAccessor staged owner accessor m).Yields s semantics s') :
    s = s' ∧ AccessorsWired (staged.find s.links) (m.map (accessor, ·)).toList
      semantics.toList := by
  unfold Setup.wireAccessor at hrun
  split at hrun
  next =>
    obtain ⟨rfl, rfl⟩ := Build.yields_pure.mp hrun
    exact ⟨rfl, .nil⟩
  next m =>
    rw [Build.yields_get_bind] at hrun
    split at hrun
    next h hfound =>
      obtain ⟨rfl, rfl⟩ := Build.yields_pure.mp hrun
      exact ⟨rfl, .cons ⟨rfl, hfound⟩ .nil⟩
    next => cases Build.yields_throw.mp hrun

/-- A property is made as planned. -/
theorem yields_makeProperty {staged : Staged} {p : PropertyPlan} {h : PropertyHandle}
    (hrun : (setup.makeProperty site staged p).Yields s h s') :
    ∃ d, s'.store.properties.get? h = some d ∧
      PropertyMirrored (s'.scope site.topLevel) (staged.find s'.links) p d := by
  have hstages := (keeps_makeProperty site staged p).stages.of_yields hrun
  unfold Setup.makeProperty at hrun
  obtain ⟨type, _, hresolve, hrun⟩ := Build.yields_bind.mp hrun
  obtain ⟨htype, rfl⟩ := (yields_resolve hresolver).mp hresolve
  obtain ⟨getter, _, hgetter, hrun⟩ := Build.yields_bind.mp hrun
  obtain ⟨rfl, wired_getter⟩ := yields_wireAccessor hgetter
  obtain ⟨setter, _, hsetter, halloc⟩ := Build.yields_bind.mp hrun
  obtain ⟨rfl, wired_setter⟩ := yields_wireAccessor hsetter
  refine ⟨_, yields_allocProperty halloc, rfl, rfl, rfl, rfl,
    Scope.resolve_extends (hstages.scope _) htype, ?_⟩
  rw [hstages.links_eq, Array.toList_append]
  exact List.rel_append wired_getter wired_setter

/-- An event is made as planned. -/
theorem yields_makeEvent {staged : Staged} {e : EventPlan} {h : EventHandle}
    (hrun : (setup.makeEvent site staged e).Yields s h s') :
    ∃ d, s'.store.events.get? h = some d ∧
      EventMirrored (s'.scope site.topLevel) (staged.find s'.links) e d := by
  have hstages := (keeps_makeEvent site staged e).stages.of_yields hrun
  unfold Setup.makeEvent at hrun
  obtain ⟨type, _, hresolve, hrun⟩ := Build.yields_bind.mp hrun
  obtain ⟨htype, rfl⟩ := (yields_resolve hresolver).mp hresolve
  obtain ⟨add, _, hadd, hrun⟩ := Build.yields_bind.mp hrun
  obtain ⟨rfl, wired_add⟩ := yields_wireAccessor hadd
  obtain ⟨remove, _, hremove, hrun⟩ := Build.yields_bind.mp hrun
  obtain ⟨rfl, wired_remove⟩ := yields_wireAccessor hremove
  obtain ⟨raise, _, hraise, halloc⟩ := Build.yields_bind.mp hrun
  obtain ⟨rfl, wired_raise⟩ := yields_wireAccessor hraise
  refine ⟨_, yields_allocEvent halloc, rfl, rfl, rfl,
    Scope.resolve_extends (hstages.scope _) htype, ?_⟩
  rw [hstages.links_eq, Array.toList_append, Array.toList_append]
  exact List.rel_append (List.rel_append wired_add wired_remove) wired_raise

end Members

/-! ## All members of a type -/

/-- All members of a plan have been made, each with the token to link it under. -/
structure StagedMirrored (s : BuildState) (topLevel : Token) (p : TypePlan) (staged : Staged) :
    Prop where
  fields : List.Forall₂ (fun f e => e.1 = f.token ∧
    ∃ d, s.store.fields.get? e.2 = some d ∧ FieldMirrored (s.scope topLevel) f d)
    p.fields.toList staged.fields.toList
  methods : List.Forall₂ (fun m e => e.1 = m.token ∧
    ∃ d, s.store.methods.get? e.2 = some d ∧ MethodMirrored (s.scope topLevel) m d)
    p.methods.toList staged.methods.toList
  properties : List.Forall₂ (fun q e => e.1 = q.token ∧
    ∃ d, s.store.properties.get? e.2 = some d ∧
      PropertyMirrored (s.scope topLevel) (staged.find s.links) q d)
    p.properties.toList staged.properties.toList
  events : List.Forall₂ (fun v e => e.1 = v.token ∧
    ∃ d, s.store.events.get? e.2 = some d ∧
      EventMirrored (s.scope topLevel) (staged.find s.links) v d)
    p.events.toList staged.events.toList

/-- Members that are made one after the other, each as planned, are all as planned. What `made` says
of a member holds on in a build that goes on staging. -/
theorem yields_makeAll {α β γ : Type} (get? : BuildState → β → Option γ)
    (made : BuildState → α → γ → Prop) {tokenOf : α → Token} {make : α → Build β} {l : List α}
    {entries : List (Token × β)} {s s' : BuildState}
    (hkeeps : ∀ a, Build.Keeps Stages (make a))
    (hgrows : ∀ s s', Stages s s' → s.RegistryClosed → ∀ a h d, get? s h = some d → made s a d →
      get? s' h = some d ∧ made s' a d)
    (hmake : ∀ a h s s', s.RegistryClosed → (make a).Yields s h s' →
      ∃ d, get? s' h = some d ∧ made s' a d)
    (hclosed : s.RegistryClosed)
    (hrun : Build.Yields (l.mapM fun a => do pure (tokenOf a, ← make a)) s entries s') :
    List.Forall₂ (fun a e => e.1 = tokenOf a ∧ ∃ d, get? s' e.2 = some d ∧ made s' a d) l
      entries := by
  -- what is made is read off the closed registry, which staging keeps closed
  refine Build.yields_mapM_forall₂ (Q := BuildState.RegistryClosed)
    (P := fun a e s => e.1 = tokenOf a ∧ ∃ d, get? s e.2 = some d ∧ made s a d)
    (keeps_withToken hkeeps) (fun _ _ hstages => hstages.closed) ?_ ?_ hclosed hrun
  · rintro a e s s' hstages hclosed ⟨htoken, d, hd, hmade⟩
    exact ⟨htoken, d, hgrows s s' hstages hclosed a e.2 d hd hmade⟩
  · intro a e s s' hclosed hrun
    obtain ⟨htoken, hrun⟩ := yields_withToken hrun
    exact ⟨htoken, hmake a e.2 s s' hclosed hrun⟩

/-- Staging that succeeds makes all members as planned. -/
theorem yields_stage_mirrored {setup : Setup} (hresolver : setup.resolver = Resolver.default)
    {site : MemberSite} {p : TypePlan} {staged : Staged} {s s' : BuildState}
    (hclosed : s.RegistryClosed) (hrun : (setup.stage site p).Yields s staged s') :
    StagedMirrored s' site.topLevel p staged := by
  obtain ⟨fields, s₁, methods, s₂, properties, s₃, events, hfields, hmethods, hproperties, hevents,
    rfl⟩ := yields_stage hrun
  have h₁ := (keeps_makeFields site p).stages.of_yields hfields
  have h₂ := (Build.Keeps.mapM (keeps_withToken (keeps_makeMethod site)) _).of_yields hmethods
  have h₃ := (keeps_makeProperties site _ p).stages.of_yields hproperties
  have h₄ := (keeps_makeEvents site _ p).stages.of_yields hevents
  have hclosed₁ := h₁.closed hclosed
  have hclosed₂ := h₂.closed hclosed₁
  have hclosed₃ := h₃.closed hclosed₂
  have hfields := yields_makeAll (fun s h => s.store.fields.get? h)
    (fun s f d => FieldMirrored (s.scope site.topLevel) f d)
    (fun f => (keeps_makeField site f).stages)
    (fun _ _ h _ _ _ _ hd hm => ⟨h.fields.get?_eq hd, hm.mono (h.scope _)⟩)
    (fun _ _ _ _ _ hrun => yields_makeField hresolver hrun) hclosed hfields
  have hmethods := yields_makeAll (fun s h => s.store.methods.get? h)
    (fun s m d => MethodMirrored (s.scope site.topLevel) m d) (keeps_makeMethod site)
    (fun _ _ h hc _ _ _ hd hm => ⟨h.methods.get?_eq hd, hm.mono h.toExtends hc⟩)
    (fun _ _ _ _ hc hrun => yields_makeMethod hresolver hc hrun) hclosed₁ hmethods
  have hproperties := yields_makeAll (fun s h => s.store.properties.get? h)
    (fun s q d => PropertyMirrored (s.scope site.topLevel) (Staged.find _ s.links) q d)
    (fun q => (keeps_makeProperty site _ q).stages)
    (fun _ _ h _ _ _ _ hd hm =>
      ⟨h.properties.get?_eq hd, hm.mono (h.scope _) (h.links_eq ▸ fun _ _ => id)⟩)
    (fun _ _ _ _ _ hrun => yields_makeProperty hresolver hrun) hclosed₂ hproperties
  have hevents := yields_makeAll (fun s h => s.store.events.get? h)
    (fun s e d => EventMirrored (s.scope site.topLevel) (Staged.find _ s.links) e d)
    (fun e => (keeps_makeEvent site _ e).stages)
    (fun _ _ h _ _ _ _ hd hm =>
      ⟨h.events.get?_eq hd, hm.mono (h.scope _) (h.links_eq ▸ fun _ _ => id)⟩)
    (fun _ _ _ _ _ hrun => yields_makeEvent hresolver hrun) hclosed₃ hevents
  have h₂₄ := h₂.trans (h₃.trans h₄)
  refine ⟨hfields.imp ?_, hmethods.imp ?_, hproperties.imp ?_, hevents⟩
  · rintro f e ⟨htoken, d, hd, hm⟩
    exact ⟨htoken, d, h₂₄.fields.get?_eq hd, hm.mono (h₂₄.scope _)⟩
  · rintro m e ⟨htoken, d, hd, hm⟩
    exact ⟨htoken, d, (h₃.trans h₄).methods.get?_eq hd, hm.mono (h₃.trans h₄).toExtends hclosed₂⟩
  · rintro q e ⟨htoken, d, hd, hm⟩
    exact ⟨htoken, d, h₄.properties.get?_eq hd, hm.mono (h₄.scope _) (h₄.links_eq ▸ fun _ _ => id)⟩

end ClrImage
