import ClrImage.Proofs.Causes
import ClrImage.Proofs.Making
import ClrImage.Proofs.Population

/-!
# Wiring of accessors

Properties and events are made behind the methods of their type, and their accessors are looked up
one after the other: among these methods, and then among those that have been published. Between two
accessors types are resolved, which may fail as well. This module says which accessor a failure is
about, in any state and with any resolver that leaves accessors alone.

- `AccessorUse`, `TypePlan.accessorUses`: the accessors of a type, in the order of their wiring.
- `TypePlan.dangling?`: the first of them whose method is not found.
- `Build.Wires`: a step wires some accessors, in order. Its rules are `Wires.bind`, `Wires.mapM`, …
- `wires_stage`: staging wires the accessors of the type.
- `dangling_of_fails`, `dangling_of_yields`: what a population that fails, or does not, says about
  them.
-/

namespace ClrImage

/-! ## Accessors of a type -/

/-- A property or an event that has a method as an accessor. -/
structure AccessorUse where
  sort : MemberSort
  token : Token
  member : String
  accessor : Accessor
  method : Token
deriving DecidableEq

namespace AccessorUse

/-- What a property or an event uses. -/
def ofMember (sort : MemberSort) (token : Token) (member : String) (a : Accessor × MethodPlan) :
    AccessorUse :=
  ⟨sort, token, member, a.1, a.2.token⟩

/-- The failure over an accessor whose method is not found. -/
def failure (typeName : String) (x : AccessorUse) : Failure :=
  .missingLink s!"{typeName}::{x.member}" x.accessor.name x.method

/-- The first accessor whose method is not found. -/
def missing? (found : Token → Bool) (uses : List AccessorUse) : Option AccessorUse :=
  uses.find? fun x => !found x.method

theorem missing?_append (found : Token → Bool) (uses uses' : List AccessorUse) :
    missing? found (uses ++ uses') = (missing? found uses).or (missing? found uses') :=
  List.find?_append

end AccessorUse

namespace TypePlan

/-- The accessors of a type: those of its properties, and then those of its events. -/
def accessorUses (p : TypePlan) : List AccessorUse :=
  p.properties.toList.flatMap
      (fun q => q.accessors.map (AccessorUse.ofMember .property q.token q.name)) ++
    p.events.toList.flatMap fun v => v.accessors.map (AccessorUse.ofMember .event v.token v.name)

/-- The method is planned by the type itself, or is linked. -/
def finds (p : TypePlan) (links : LinkTable) (method : Token) : Bool :=
  (MemberSort.method.tokens p).contains method || (links.methods.get? method).isSome

/-- The first accessor of a type whose method is neither planned by the type itself nor linked. -/
def dangling? (p : TypePlan) (links : LinkTable) : Option AccessorUse :=
  AccessorUse.missing? (p.finds links) p.accessorUses

theorem finds_iff {p : TypePlan} {links : LinkTable} {method : Token} :
    p.finds links method = true ↔
      method ∈ MemberSort.method.tokens p ∨ (links.methods.get? method).isSome = true := by
  simp [finds]

/-- The member that uses an accessor is one of the type's own. -/
theorem token_mem_of_use {p : TypePlan} {x : AccessorUse} (hx : x ∈ p.accessorUses) :
    x.token ∈ x.sort.tokens p := by
  rcases List.mem_append.mp hx with hproperty | hevent
  · obtain ⟨q, hq, hx⟩ := List.mem_flatMap.mp hproperty
    obtain ⟨a, -, rfl⟩ := List.mem_map.mp hx
    exact List.mem_map_of_mem hq
  · obtain ⟨v, hv, hx⟩ := List.mem_flatMap.mp hevent
    obtain ⟨a, -, rfl⟩ := List.mem_map.mp hx
    exact List.mem_map_of_mem hv

end TypePlan

/-- Methods that have been staged for a type are found as those that it plans. -/
theorem Staged.isSome_find {staged : Staged} {p : TypePlan}
    (h : staged.methods.toList.map Prod.fst = MemberSort.method.tokens p) (links : LinkTable)
    (method : Token) : (staged.find links method).isSome = p.finds links method := by
  have hown : (staged.method? method).isSome = (MemberSort.method.tokens p).contains method := by
    rw [Bool.eq_iff_iff, ← h, Staged.method?, Option.isSome_map, Array.find?_isSome,
      List.contains_iff_mem, List.mem_map]
    simp
  rw [Staged.find, Option.orElse_eq_orElse, Option.orElse_eq_or, Option.isSome_or, hown]
  rfl

/-! ## Steps that wire -/

/-- In a build with the links, the step looks up the methods of the accessors in order, and links
nothing. It fails over the first one that is not found, or as `P` says. -/
structure Build.Wires {α : Type} (P : Failure → Prop) (links : LinkTable) (found : Token → Bool)
    (typeName : String) (uses : List AccessorUse) (step : Build α) : Prop where
  of_yields : ∀ s a s', s.links = links → step.Yields s a s' →
    s'.links = links ∧ AccessorUse.missing? found uses = none
  of_fails : ∀ s e s', s.links = links → step.Fails s e s' →
    P e ∨ ∃ x, AccessorUse.missing? found uses = some x ∧ e = x.failure typeName

namespace Build.Wires

variable {α β : Type} {P : Failure → Prop} {links : LinkTable} {found : Token → Bool}
  {typeName : String} {uses uses' : List AccessorUse} {step : Build α}

/-- A step that looks up no accessors. -/
theorem silent (hkeeps : Build.Keeps Stages step) (hfails : Build.FailsOnly P step) :
    Wires P links found typeName [] step where
  of_yields _ _ _ hlinks hrun := ⟨(hkeeps.of_yields hrun).links_eq.trans hlinks, rfl⟩
  of_fails s e s' _ hrun := .inl (hfails s e s' hrun)

/-- Behind the first step the links are the same, and its accessors have been found. -/
theorem bind {next : α → Build β} (h : Wires P links found typeName uses step)
    (hnext : ∀ s a s', step.Yields s a s' → Wires P links found typeName uses' (next a)) :
    Wires P links found typeName (uses ++ uses') (step >>= next) where
  of_yields s b s' hlinks hrun := by
    obtain ⟨a, s₁, hstep, hrest⟩ := Build.yields_bind.mp hrun
    obtain ⟨hlinks₁, hnone⟩ := h.of_yields s a s₁ hlinks hstep
    rw [AccessorUse.missing?_append, hnone, Option.none_or]
    exact (hnext s a s₁ hstep).of_yields s₁ b s' hlinks₁ hrest
  of_fails s e s' hlinks hrun := by
    rw [AccessorUse.missing?_append]
    rcases Build.fails_bind.mp hrun with hstep | ⟨a, s₁, hstep, hrest⟩
    · refine (h.of_fails s e s' hlinks hstep).imp_right ?_
      rintro ⟨x, hx, he⟩
      exact ⟨x, by rw [hx, Option.some_or], he⟩
    · obtain ⟨hlinks₁, hnone⟩ := h.of_yields s a s₁ hlinks hstep
      rw [hnone, Option.none_or]
      exact (hnext s a s₁ hstep).of_fails s₁ e s' hlinks₁ hrest

theorem silent_bind {next : α → Build β} (hkeeps : Build.Keeps Stages step)
    (hfails : Build.FailsOnly P step)
    (hnext : ∀ s a s', step.Yields s a s' → Wires P links found typeName uses (next a)) :
    Wires P links found typeName uses (step >>= next) :=
  (silent hkeeps hfails).bind hnext

theorem bind_silent {next : α → Build β} (h : Wires P links found typeName uses step)
    (hkeeps : ∀ a, Build.Keeps Stages (next a)) (hfails : ∀ a, Build.FailsOnly P (next a)) :
    Wires P links found typeName uses (step >>= next) := by
  rw [← List.append_nil uses]
  exact h.bind fun _ a _ _ => silent (hkeeps a) (hfails a)

theorem pure (a : α) : Wires P links found typeName [] (pure a : Build α) :=
  silent (.pure a) (.pure a)

theorem mapM {ι : Type} {f : ι → Build α} {usesOf : ι → List AccessorUse} {l : List ι}
    (h : ∀ i, Wires P links found typeName (usesOf i) (f i)) :
    Wires P links found typeName (l.flatMap usesOf) (List.mapM f l) := by
  induction l with
  | nil =>
    rw [List.mapM_nil]
    exact pure []
  | cons i l ih =>
    rw [List.mapM_cons, List.flatMap_cons]
    exact (h i).bind fun _ b _ _ => ih.bind_silent (fun bs => .pure (b :: bs)) fun bs => .pure _

end Build.Wires

/-! ## Making members -/

/-- All that a population does besides wiring accessors fails as `P` says. -/
structure Setup.FailsApart (setup : Setup) (P : Failure → Prop) : Prop where
  reference : ∀ scope r e, setup.resolver scope r = .error e → P e
  flawed : ∀ flaw, P (.flawed flaw)
  notDeclared : ∀ text, P (.unresolved text .notDeclared)
  taken : ∀ token, P (.duplicateLink token)

namespace Setup.FailsApart

variable {setup : Setup} {P : Failure → Prop} (h : setup.FailsApart P) {site : MemberSite}
include h

theorem resolve (topLevel : Token) (r : TypeRef) :
    Build.FailsOnly P (setup.resolve topLevel r) :=
  failsOnly_of_resolver fun scope e => h.reference scope r e

theorem makeField (f : FieldPlan) : Build.FailsOnly P (setup.makeField site f) :=
  failsOnly_makeField (h.resolve _ _) (fun _ _ _ => h.flawed _) fun _ _ _ => h.flawed _

theorem makeMethod (m : MethodPlan) : Build.FailsOnly P (setup.makeMethod site m) :=
  failsOnly_makeMethod (h.resolve _) fun _ _ _ =>
    failsOnly_makeParam (fun _ => h.flawed _) fun _ _ _ => h.flawed _

theorem managedType (p : TypePlan) : Build.FailsOnly P (Build.managedType p) := by
  unfold Build.managedType Build.managed
  refine .bind (.bind (.of_succeeds .get) fun s => ?_) fun type =>
    .bind (.of_succeeds .get) fun s => ?_
  · split
    · exact .pure _
    · exact .throw (h.notDeclared _)
  · split
    · exact .pure _
    · exact .throw (h.notDeclared _)

theorem publish (type : TypeHandle) (staged : Staged) :
    Build.FailsOnly P (Build.publish type staged) := by
  -- a token is taken before the publication, or by a member that comes earlier in it
  have hmember {k : ObjectKind} (K : MemberKind k) (member : Token × Handle k) :
      Build.FailsOnly P (K.publish type member) := by
    refine .bind (.of_succeeds .get) fun s => .bind ?_ fun _ =>
      .bind (.of_succeeds (.modify _)) fun _ => .of_succeeds (.modify _)
    intro s₁ e s' hrun
    obtain rfl := LinkTable.eq_of_link_eq_error
      (map_eq_error.mp (Build.fails_liftExcept.mp hrun).1)
    exact h.taken _
  rw [publish_eq]
  refine .bind (.of_succeeds .get) fun s => ?_
  split
  · exact .throw (h.taken _)
  · exact .bind (.forM fun e _ => hmember _ e) fun _ =>
      .bind (.forM fun e _ => hmember _ e) fun _ =>
      .bind (.forM fun e _ => hmember _ e) fun _ => .forM fun e _ => hmember _ e

end Setup.FailsApart

section Members

variable {setup : Setup} {P : Failure → Prop} {site : MemberSite} {links : LinkTable}
  {found : Token → Bool} {staged : Staged}
  (hstaged : ∀ method, (staged.find links method).isSome = found method)
include hstaged

/-- An accessor, if there is one, is looked up among the staged methods and the linked ones. -/
theorem wires_wireAccessor (sort : MemberSort) (token : Token) (member typeName : String)
    (accessor : Accessor) (m : Option MethodPlan) :
    Build.Wires P links found typeName
      ((m.map (accessor, ·)).toList.map (AccessorUse.ofMember sort token member))
      (Setup.wireAccessor staged s!"{typeName}::{member}" accessor m) := by
  unfold Setup.wireAccessor
  cases m with
  | none => exact .pure _
  | some m =>
    have hfound : found m.token = (staged.find links m.token).isSome := (hstaged m.token).symm
    constructor
    case of_yields =>
      intro s semantics s' hlinks hrun
      rw [Build.yields_get_bind, hlinks] at hrun
      split at hrun
      next h hsome =>
        obtain ⟨-, rfl⟩ := Build.yields_pure.mp hrun
        have hnone : found m.token = true := by
          rw [hfound, Staged.find, hsome]
          rfl
        exact ⟨hlinks, by simp [AccessorUse.missing?, AccessorUse.ofMember, hnone]⟩
      next => cases Build.yields_throw.mp hrun
    case of_fails =>
      intro s e s' hlinks hrun
      rcases Build.fails_bind.mp hrun with hget | ⟨_, _, hget, hrun⟩
      · cases Build.fails_get.mp hget
      obtain ⟨rfl, rfl⟩ := Build.yields_get.mp hget
      rw [hlinks] at hrun
      split at hrun
      next => cases Build.fails_pure.mp hrun
      next hnone =>
        obtain ⟨rfl, -⟩ := Build.fails_throw.mp hrun
        have hmissing : found m.token = false := by
          rw [hfound, Staged.find, hnone]
          rfl
        exact .inr ⟨AccessorUse.ofMember sort token member (accessor, m),
          by simp [AccessorUse.missing?, AccessorUse.ofMember, hmissing], rfl⟩

variable (h : setup.FailsApart P)
include h

theorem wires_makeProperty (q : PropertyPlan) :
    Build.Wires P links found site.typeName
      (q.accessors.map (AccessorUse.ofMember .property q.token q.name))
      (setup.makeProperty site staged q) := by
  have hwire := wires_wireAccessor (P := P) hstaged .property q.token q.name site.typeName
  unfold Setup.makeProperty PropertyPlan.accessors
  rw [List.map_append]
  refine .silent_bind (keeps_resolve _ _) (h.resolve _ _) fun _ _ _ _ => ?_
  refine (hwire .getter q.getter).bind fun _ _ _ _ => ?_
  exact (hwire .setter q.setter).bind_silent
    (fun _ => (keeps_allocProperty _).stages) fun _ => .of_succeeds (.modifyGet _)

theorem wires_makeEvent (v : EventPlan) :
    Build.Wires P links found site.typeName
      (v.accessors.map (AccessorUse.ofMember .event v.token v.name))
      (setup.makeEvent site staged v) := by
  have hwire := wires_wireAccessor (P := P) hstaged .event v.token v.name site.typeName
  unfold Setup.makeEvent EventPlan.accessors
  rw [List.map_append, List.map_append, List.append_assoc]
  refine .silent_bind (keeps_resolve _ _) (h.resolve _ _) fun _ _ _ _ => ?_
  refine (hwire .add v.add).bind fun _ _ _ _ => ?_
  refine (hwire .remove v.remove).bind fun _ _ _ _ => ?_
  exact (hwire .raise v.raise).bind_silent
    (fun _ => (keeps_allocEvent _).stages) fun _ => .of_succeeds (.modifyGet _)

end Members

/-- Staging looks up the accessors of the type in order. Its own methods have been staged by
then. -/
theorem wires_stage {setup : Setup} {P : Failure → Prop} (h : setup.FailsApart P)
    (site : MemberSite) (p : TypePlan) (links : LinkTable) :
    Build.Wires P links (p.finds links) site.typeName p.accessorUses (setup.stage site p) := by
  unfold Setup.stage
  refine .silent_bind (keeps_makeFields site p).stages ?_ fun _ fields _ _ => ?_
  · exact .mapM fun f _ => .bind (h.makeField f) fun _ => .pure _
  refine .silent_bind (.mapM (keeps_withToken (keeps_makeMethod site)) _) ?_
    fun _ methods _ hmethods => ?_
  · exact .mapM fun m _ => .bind (h.makeMethod m) fun _ => .pure _
  have hstaged (method : Token) : (Staged.find { fields := fields.toArray
                                                 methods := methods.toArray } links method).isSome =
      p.finds links method := Staged.isSome_find (tokens_of_yields hmethods) links method
  refine (Build.Wires.mapM fun q => ?_).bind fun _ properties _ _ => ?_
  · exact (wires_makeProperty hstaged h q).bind_silent (fun _ => .pure _) fun _ => .pure _
  refine (Build.Wires.mapM fun v => ?_).bind_silent (fun _ => .pure _) fun _ => .pure _
  exact (wires_makeEvent hstaged h v).bind_silent (fun _ => .pure _) fun _ => .pure _

/-! ## Populations -/

/-- The root cause is an accessor whose method is not found. -/
def Failure.IsMissingLink (e : Failure) : Prop :=
  ∃ owner accessor token, e.rootCause = .missingLink owner accessor token

/-- Failures of the resolver are not about accessors. -/
def Resolver.SparesAccessors (r : Resolver) : Prop :=
  ∀ scope reference e, r scope reference = .error e → ¬ e.IsMissingLink

theorem Failure.OfReference.not_isMissingLink {e : Failure} (h : e.OfReference) :
    ¬ e.IsMissingLink := by
  rintro ⟨owner, accessor, token, hroot⟩
  cases h <;> cases hroot

namespace Resolver

/-- The resolver that a build has by default has no such failures. -/
theorem sparesAccessors_default : Resolver.default.SparesAccessors := fun _ _ _ hfail =>
  (Scope.ofReference_of_resolve hfail).not_isMissingLink

/-- Nor has one that puts up with unknown types. -/
theorem SparesAccessors.orObject {r : Resolver} (h : r.SparesAccessors) :
    r.orObject.SparesAccessors := by
  intro scope reference e hfail
  unfold Resolver.orObject at hfail
  split at hfail
  · cases hfail
  · exact h scope reference e hfail

end Resolver

namespace Setup

variable {setup : Setup} {p : TypePlan} {s s' : BuildState}

theorem failsApart_of_sparesAccessors (h : setup.resolver.SparesAccessors) :
    setup.FailsApart fun e => ¬ e.IsMissingLink where
  reference := h
  flawed flaw := by
    rintro ⟨owner, accessor, token, hroot⟩
    cases hroot
  notDeclared text := by
    rintro ⟨owner, accessor, token, hroot⟩
    cases hroot
  taken token := by
    rintro ⟨owner, accessor, token, hroot⟩
    cases hroot

/-- A population that does not fail as `P` says fails over the first accessor whose method is not
found. -/
theorem dangling_of_fails_populate {P : Failure → Prop} (h : setup.FailsApart P) {e : Failure}
    (hrun : (setup.populate p).Fails s e s') (hother : ¬ P e) :
    ∃ type t x, s.links.types.get? p.token = some type ∧ s.store.types.get? type = some t ∧
      p.dangling? s.links = some x ∧ e = x.failure (s.store.fullName t) ∧ s'.links = s.links := by
  unfold populate at hrun
  rcases Build.fails_bind.mp hrun with hmanaged | ⟨⟨type, t⟩, _, hmanaged, hrun⟩
  · exact absurd (h.managedType p s e s' hmanaged) hother
  obtain ⟨hlink, ht, rfl⟩ := Build.yields_managedType.mp hmanaged
  rcases Build.fails_bind.mp hrun with hget | ⟨_, _, hget, hrun⟩
  · cases Build.fails_get.mp hget
  obtain ⟨rfl, rfl⟩ := Build.yields_get.mp hget
  rcases Build.fails_bind.mp hrun with hstage | ⟨staged, s₁, -, hrun⟩
  · rcases (wires_stage h _ p s.links).of_fails s e s' rfl hstage with hP | ⟨x, hx, he⟩
    · exact absurd hP hother
    · exact ⟨type, t, x, hlink, ht, hx, he, ((keeps_stage _ p).of_fails hstage).links_eq⟩
  rcases Build.fails_bind.mp hrun with hpublish | ⟨_, s₂, -, hnotice⟩
  · exact absurd (h.publish type staged s₁ e s' hpublish) hother
  · obtain ⟨_, _, htold⟩ := succeeds_noticePopulated type s₂
    exact absurd hnotice htold.not_fails

/-- A population that succeeds has found the methods of all accessors. -/
theorem dangling_of_yields_populate (hrun : (setup.populate p).Yields s () s') :
    p.dangling? s.links = none := by
  obtain ⟨_, t, staged, s₁, _, -, -, hstage, -⟩ := yields_populate hrun
  have hany : setup.FailsApart fun _ => True := ⟨fun _ _ _ _ => trivial, fun _ => trivial,
    fun _ => trivial, fun _ => trivial⟩
  exact ((wires_stage hany _ p s.links).of_yields s staged s₁ rfl hstage).2

/-- A type that fails over an accessor does so over the first one whose method is not found. Nothing
has been linked by then. -/
theorem dangling_of_fails (hresolver : setup.resolver.SparesAccessors) (hskip : ¬ setup.Skips p)
    {e : Failure} (hrun : (setup.populateType p).Fails s e s') {owner accessor : String}
    {token : Token} (hroot : e.rootCause = .missingLink owner accessor token) :
    ∃ type t x, s.links.types.get? p.token = some type ∧ s.store.types.get? type = some t ∧
      p.dangling? s.links = some x ∧ owner = s!"{s.store.fullName t}::{x.member}" ∧
      accessor = x.accessor.name ∧ token = x.method ∧ s'.links = s.links := by
  rw [populateType_eq hskip] at hrun
  obtain ⟨source, s₁, hfail, rfl, rfl⟩ := fails_inContext.mp hrun
  have hsource : source.rootCause = .missingLink owner accessor token := hroot
  obtain ⟨type, t, x, hlink, ht, hx, rfl, hlinks⟩ := dangling_of_fails_populate
    (failsApart_of_sparesAccessors hresolver) hfail
    (not_not_intro ⟨owner, accessor, token, hsource⟩)
  obtain ⟨rfl, rfl, rfl⟩ := Failure.missingLink.inj hsource
  exact ⟨type, t, x, hlink, ht, hx, rfl, rfl, rfl, hlinks⟩

/-- A type that gets its members has no such accessor. -/
theorem dangling_of_yields (hskip : ¬ setup.Skips p)
    (hrun : (setup.populateType p).Yields s () s') : p.dangling? s.links = none := by
  rw [populateType_eq hskip] at hrun
  exact dangling_of_yields_populate (yields_inContext.mp hrun)

end Setup

end ClrImage
