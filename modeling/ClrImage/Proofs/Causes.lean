import ClrImage.Proofs.Circles
import ClrImage.Proofs.Independence
import ClrImage.Proofs.Resolvable

/-!
# Causes of failures

What a step can fail with, whatever the state in which it is run.

- `Build.FailsOnly`: all failures of a step are of one sort, put together from the parts of the
  step.
- `Failure.OfReference`: the failures of a resolver. A reference is malformed, too high, or names
  nothing that is there (`ofReference_of_resolve`).
- `Setup.Fault`: the causes that processing a planned type has in each pass.
- `failsOnly_makeField`, `failsOnly_makeMethod`: what fails with a member are its references and its
  data.
- `failsOnly_stage`: making the members of a type has no others.
-/

namespace ClrImage

/-! ## Steps -/

namespace Build

variable {α β : Type}

/-- All failures of the step are as `P` says. -/
def FailsOnly (P : Failure → Prop) (step : Build α) : Prop :=
  ∀ s e s', step.Fails s e s' → P e

namespace FailsOnly

variable {P Q : Failure → Prop} {step : Build α}

theorem mono (hPQ : ∀ e, P e → Q e) (h : FailsOnly P step) : FailsOnly Q step :=
  fun s e s' hrun => hPQ e (h s e s' hrun)

theorem of_succeeds (h : Succeeds step) : FailsOnly P step := by
  intro s e s' hrun
  obtain ⟨a, s₁, hyields⟩ := h s
  exact absurd hrun hyields.not_fails

theorem pure (a : α) : FailsOnly P (pure a : Build α) := of_succeeds (.pure a)

theorem throw {e : Failure} (h : P e) : FailsOnly P (throw e : Build α) := by
  intro s e' s' hrun
  obtain ⟨rfl, -⟩ := fails_throw.mp hrun
  exact h

theorem bind {next : α → Build β} (h : FailsOnly P step) (hnext : ∀ a, FailsOnly P (next a)) :
    FailsOnly P (step >>= next) := by
  intro s e s' hrun
  rcases fails_bind.mp hrun with hstep | ⟨a, s₁, -, hrest⟩
  · exact h s e s' hstep
  · exact hnext a s₁ e s' hrest

theorem mapM {f : α → Build β} {l : List α} (h : ∀ a ∈ l, FailsOnly P (f a)) :
    FailsOnly P (List.mapM f l) := by
  induction l with
  | nil =>
    rw [List.mapM_nil]
    exact pure []
  | cons a l ih =>
    obtain ⟨ha, hl⟩ := List.forall_mem_cons.mp h
    rw [List.mapM_cons]
    exact bind ha fun b => bind (ih hl) fun bs => pure (b :: bs)

theorem forM {f : α → Build Unit} {l : List α} (h : ∀ a ∈ l, FailsOnly P (f a)) :
    FailsOnly P (List.forM l f) := by
  induction l with
  | nil => exact pure ()
  | cons a l ih =>
    obtain ⟨ha, hl⟩ := List.forall_mem_cons.mp h
    exact bind ha fun _ => ih hl

end FailsOnly

end Build

/-! ## References -/

/-- A reason that lies in a reference, and in what there is under its tokens and indices. -/
def Unresolved.isOfReference : Unresolved → Bool
  | notTypeDef | notLinked | undeclaredParameter _ | zeroRank | noArguments | notGeneric _ => true
  | notDeclared | noToken | other _ => false

/-- A reference has no signature, or is too high for one. -/
inductive Failure.OfReference : Failure → Prop
  | unresolved (reference : String) {reason : Unresolved} (h : reason.isOfReference = true) :
    OfReference (.unresolved reference reason)
  | tooDeep : OfReference (.tooDeep Scope.maxDepth)

theorem bind_eq_error {ε α β : Type} {x : Except ε α} {f : α → Except ε β} {e : ε} :
    (x >>= f) = .error e ↔ x = .error e ∨ ∃ a, x = .ok a ∧ f a = .error e := by
  cases x <;> simp [bind, Except.bind]

namespace Scope

variable {s : Scope} {e : Failure}

theorem ofReference_of_checkDepth {depth : Nat} (h : checkDepth depth = .error e) :
    e.OfReference := by
  unfold checkDepth at h
  split at h <;> cases h
  exact .tooDeep

theorem ofReference_of_resolveTypeDef {token : Token} (h : s.resolveTypeDef token = .error e) :
    e.OfReference := by
  unfold resolveTypeDef at h
  dsimp only at h
  split at h
  next =>
    cases h
    exact .unresolved _ rfl
  next =>
    split at h
    next =>
      cases h
      exact .unresolved _ rfl
    next =>
      split at h <;> cases h
      exact .unresolved _ rfl

theorem ofReference_of_resolveIndex {reference : TypeRef} {index : UInt32}
    {make : GenericHandle → Signature}
    (h : (s.resolveIndex reference index).map make = .error e) : e.OfReference := by
  unfold resolveIndex at h
  split at h <;> cases h
  exact .unresolved _ rfl

theorem ofReference_of_resolveAtom {a : RefAtom} (h : s.resolveAtom a = .error e) :
    e.OfReference := by
  cases a with
  | primitive p => cases h
  | typeDef token => exact ofReference_of_resolveTypeDef h
  | var index => exact ofReference_of_resolveIndex h
  | mvar index => exact ofReference_of_resolveIndex h

/-- A node of a reference that resolves if its part does. -/
theorem ofReference_of_part {depth : Nat} {part : Except Failure Signature}
    {make : Signature → Signature} (hpart : ∀ e, part = .error e → e.OfReference)
    (h : (do checkDepth depth; let sig ← part; return make sig) = .error e) : e.OfReference := by
  rcases bind_eq_error.mp h with hdepth | ⟨_, -, h⟩
  · exact ofReference_of_checkDepth hdepth
  rcases bind_eq_error.mp h with hfail | ⟨_, -, hreturn⟩
  · exact hpart e hfail
  · cases hreturn

mutual

theorem ofReference_of_resolveAt : (r : TypeRef) → (depth : Nat) → (e : Failure) →
    s.resolveAt r depth = .error e → e.OfReference
  | .atom a, depth, e, h => by
    rcases bind_eq_error.mp h with hdepth | ⟨_, -, h⟩
    · exact ofReference_of_checkDepth hdepth
    · exact ofReference_of_resolveAtom h
  | .szArray elem, depth, _, h =>
    ofReference_of_part (ofReference_of_resolveAt elem (depth + 1)) h
  | .array elem rank, depth, e, h => by
    rcases bind_eq_error.mp h with hdepth | ⟨_, -, h⟩
    · exact ofReference_of_checkDepth hdepth
    split at h
    next =>
      cases h
      exact .unresolved _ rfl
    next =>
      rcases bind_eq_error.mp h with hfail | ⟨_, -, hreturn⟩
      · exact ofReference_of_resolveAt elem (depth + 1) e hfail
      · cases hreturn
  | .pointer elem, depth, _, h =>
    ofReference_of_part (ofReference_of_resolveAt elem (depth + 1)) h
  | .byRef elem, depth, _, h =>
    ofReference_of_part (ofReference_of_resolveAt elem (depth + 1)) h
  | .inst definition args, depth, e, h => by
    rcases bind_eq_error.mp h with hdepth | ⟨_, -, h⟩
    · exact ofReference_of_checkDepth hdepth
    split at h
    next =>
      cases h
      exact .unresolved _ rfl
    next =>
      rcases bind_eq_error.mp h with hfail | ⟨sig, -, h⟩
      · exact ofReference_of_resolveAt definition (depth + 1) e hfail
      split at h
      next =>
        rcases bind_eq_error.mp h with hfail | ⟨_, -, hreturn⟩
        · exact ofReference_of_resolveAll args (depth + 1) e hfail
        · cases hreturn
      next =>
        cases h
        exact .unresolved _ rfl

theorem ofReference_of_resolveAll : (rs : List TypeRef) → (depth : Nat) → (e : Failure) →
    s.resolveAll rs depth = .error e → e.OfReference
  | [], _, _, h => by cases h
  | r :: rest, depth, e, h => by
    rcases bind_eq_error.mp h with hfail | ⟨_, -, h⟩
    · exact ofReference_of_resolveAt r depth e hfail
    rcases bind_eq_error.mp h with hfail | ⟨_, -, hreturn⟩
    · exact ofReference_of_resolveAll rest depth e hfail
    · cases hreturn

end

/-- A reference that does not resolve is at fault itself, or names nothing that is there. -/
theorem ofReference_of_resolve {r : TypeRef} (h : s.resolve r = .error e) : e.OfReference :=
  ofReference_of_resolveAt r 0 e h

end Scope

/-! ## Types -/

/-- What processing a planned type can fail with in a pass. -/
inductive Setup.Fault (setup : Setup) (p : TypePlan) : Phase → Failure → Prop
  /-- The way outwards from the type comes to a circle. -/
  | circle (h : setup.blueprint.Circles p.token) :
    Fault setup p .declare (.flawed (.cyclicNesting p.name))
  /-- Behind the declaration, a reference has no signature. -/
  | reference {phase : Phase} (hphase : phase ≠ .declare) {e : Failure} (h : e.OfReference) :
    Fault setup p phase e
  /-- The method behind an accessor has not been made. -/
  | missingLink (owner : String) {a : Accessor × MethodPlan} (ha : a ∈ p.accessors) :
    Fault setup p .members (.missingLink owner a.1.name a.2.token)
  /-- The build is strict, and a field is flagged to have a constant that it lacks. -/
  | fieldDefault (owner : String) {f : FieldPlan} (hf : f ∈ p.fields.toList)
    (hstrict : setup.config.strictDescriptors = true)
    (hflag : f.flags.contains FieldFlags.hasDefault = true) (hnone : f.default = none) :
    Fault setup p .members (.flawed (.missing (.fieldDefault owner f.name)))
  /-- The build is strict, and a field is flagged to have initial data that it lacks. -/
  | fieldData (owner : String) {f : FieldPlan} (hf : f ∈ p.fields.toList)
    (hstrict : setup.config.strictDescriptors = true)
    (hflag : f.flags.contains FieldFlags.hasInitialData = true) (hnone : f.initialData = none) :
    Fault setup p .members (.flawed (.missing (.fieldData owner f.name)))
  /-- The build is strict, and a parameter is flagged to have a default that it lacks. -/
  | parameterDefault (owner : String) {m : MethodPlan} (hm : m ∈ p.methods.toList) {q : ParamPlan}
    (hq : q ∈ m.params.toList) (hstrict : setup.config.strictDescriptors = true)
    (hflag : q.flags.contains ParamFlags.hasDefault = true) (hnone : q.default = none) :
    Fault setup p .members (.flawed (.missing (.parameterDefault q.name owner m.name)))
  /-- A method has more parameters than 16 bits can number from one. -/
  | tooManyParameters {m : MethodPlan} (hm : m ∈ p.methods.toList)
    (hmany : 65535 < m.params.size) :
    Fault setup p .members (.flawed (.tooManyParameters m.name))

/-- The cause of a fault has no context of a type in it. -/
theorem Setup.Fault.rootCause_eq {setup : Setup} {p : TypePlan} {phase : Phase} {e : Failure}
    (h : setup.Fault p phase e) : e.rootCause = e := by
  cases h
  case reference _ h => cases h <;> rfl
  all_goals rfl

/-! ## Parts of members -/

section Parts

variable {setup : Setup} {site : MemberSite} {P : Failure → Prop}

/-- A reference fails as the resolver does. -/
theorem failsOnly_of_resolver {topLevel : Token} {r : TypeRef}
    (h : ∀ scope e, setup.resolver scope r = .error e → P e) :
    Build.FailsOnly P (setup.resolve topLevel r) := by
  refine .bind (.of_succeeds .get) fun s => ?_
  intro s₁ e s' hrun
  exact h _ e (Build.fails_liftExcept.mp hrun).1

theorem failsOnly_constrainGenerics {topLevel : Token}
    (hresolve : ∀ r, Build.FailsOnly P (setup.resolve topLevel r))
    (pending : Array PendingGeneric) :
    Build.FailsOnly P (setup.constrainGenerics topLevel pending) :=
  .forM fun _ _ => .bind
    (.forM fun c _ => .bind (hresolve c) fun _ => .of_succeeds (.modify _))
    fun _ => .of_succeeds (.modify _)

/-- A strict build fails over a datum that a flag announces and the descriptor lacks. -/
theorem failsOnly_demand {α : Type} {flagged : Bool} {given : Option α} {datum : MissingDatum}
    (h : setup.config.strictDescriptors = true → flagged = true → given = none →
      P (.flawed (.missing datum))) :
    Build.FailsOnly P (setup.demand (flagged && given.isNone) datum) := by
  unfold Setup.demand Setup.missing
  split
  next hlacks =>
    rw [Bool.and_eq_true, Option.isNone_iff_eq_none] at hlacks
    split
    next hstrict => exact .throw (h hstrict hlacks.1 hlacks.2)
    next => exact .of_succeeds (.modify _)
  next => exact .pure ()

theorem failsOnly_makeField {f : FieldPlan}
    (hresolve : Build.FailsOnly P (setup.resolve site.topLevel f.type))
    (hdefault : setup.config.strictDescriptors = true →
      f.flags.contains FieldFlags.hasDefault = true → f.default = none →
      P (.flawed (.missing (.fieldDefault site.typeName f.name))))
    (hdata : setup.config.strictDescriptors = true →
      f.flags.contains FieldFlags.hasInitialData = true → f.initialData = none →
      P (.flawed (.missing (.fieldData site.typeName f.name)))) :
    Build.FailsOnly P (setup.makeField site f) := by
  rw [makeField_eq]
  refine .bind hresolve fun _ => ?_
  refine .bind (failsOnly_demand hdefault) fun _ => ?_
  exact .bind (failsOnly_demand hdata) fun _ => .of_succeeds (.modifyGet _)

theorem failsOnly_makeParam {method : String} {position : Nat} {q : ParamPlan}
    (hposition : 65535 ≤ position → P (.flawed (.tooManyParameters method)))
    (hdefault : setup.config.strictDescriptors = true →
      q.flags.contains ParamFlags.hasDefault = true → q.default = none →
      P (.flawed (.missing (.parameterDefault q.name site.typeName method)))) :
    Build.FailsOnly P (setup.makeParam site method position q) := by
  rw [makeParam_eq]
  refine .bind ?_ fun _ => ?_
  · split
    next hmany => exact .throw (hposition hmany)
    next => exact .pure ()
  refine .bind (failsOnly_demand hdefault) fun _ => ?_
  refine .bind ?_ fun _ => .of_succeeds (.modifyGet _)
  split
  · exact .of_succeeds (.modify _)
  · exact .pure ()

theorem failsOnly_makeMethodGenerics
    (hresolve : ∀ r, Build.FailsOnly P (setup.resolve site.topLevel r)) (m : MethodPlan) :
    Build.FailsOnly P (setup.makeMethodGenerics site m) := by
  unfold Setup.makeMethodGenerics
  split
  next => exact .pure _
  next params _ =>
    refine .bind (.of_succeeds fun s => ?_) fun _ =>
      .bind (failsOnly_constrainGenerics hresolve _) fun _ => .pure _
    obtain ⟨_, _, s', hrun, -⟩ := declareGenerics_registers (.method m.token) site.topLevel #[]
      params s
    exact ⟨_, s', hrun⟩

/-- A method fails over a reference or over one of its parameters, of which each has a position. -/
theorem failsOnly_makeMethod {m : MethodPlan}
    (hresolve : ∀ r, Build.FailsOnly P (setup.resolve site.topLevel r))
    (hparam : ∀ position q, m.params.toList[position]? = some q →
      Build.FailsOnly P (setup.makeParam site m.name position q)) :
    Build.FailsOnly P (setup.makeMethod site m) := by
  unfold Setup.makeMethod
  refine .bind (failsOnly_makeMethodGenerics hresolve m) fun _ => ?_
  refine .bind (hresolve _) fun _ => ?_
  refine .bind (.mapM fun _ _ => hresolve _) fun _ => ?_
  refine .bind (.mapM fun entry hentry => ?_) fun _ =>
    .bind (.of_succeeds .get) fun _ => .of_succeeds (.modifyGet _)
  exact hparam entry.2 entry.1 (List.mk_mem_zipIdx_iff_getElem?.mp hentry)

end Parts

/-! ## Members -/

section Members

variable {setup : Setup} (hresolver : setup.resolver = Resolver.default) {site : MemberSite}
  {p : TypePlan}
include hresolver

theorem failsOnly_resolve (topLevel : Token) (r : TypeRef) :
    Build.FailsOnly Failure.OfReference (setup.resolve topLevel r) :=
  failsOnly_of_resolver fun _ _ hfail => Scope.ofReference_of_resolve (hresolver ▸ hfail)

theorem failsOnly_memberReference (topLevel : Token) (r : TypeRef) :
    Build.FailsOnly (setup.Fault p .members) (setup.resolve topLevel r) :=
  (failsOnly_resolve hresolver topLevel r).mono fun _ => .reference (by decide)

omit hresolver in
/-- Positions are counted from zero, so there is at least one parameter more. -/
theorem failsOnly_plannedParam {m : MethodPlan} (hm : m ∈ p.methods.toList) {q : ParamPlan}
    {position : Nat} (hq : m.params.toList[position]? = some q) :
    Build.FailsOnly (setup.Fault p .members) (setup.makeParam site m.name position q) := by
  refine failsOnly_makeParam (fun hposition => .tooManyParameters hm ?_)
    (.parameterDefault _ hm (List.mem_of_getElem? hq))
  have hlt := (List.getElem?_eq_some_iff.mp hq).1
  rw [Array.length_toList] at hlt
  omega

omit hresolver in
theorem failsOnly_wireAccessor {staged : Staged} {owner : String} {accessor : Accessor}
    {m : Option MethodPlan} (hm : ∀ n, m = some n → (accessor, n) ∈ p.accessors) :
    Build.FailsOnly (setup.Fault p .members) (Setup.wireAccessor staged owner accessor m) := by
  unfold Setup.wireAccessor
  cases m with
  | none => exact .pure _
  | some n =>
    refine .bind (.of_succeeds .get) fun _ => ?_
    split
    · exact .pure _
    · exact .throw (.missingLink owner (hm n rfl))

theorem failsOnly_makeProperty {staged : Staged} {q : PropertyPlan}
    (hq : q ∈ p.properties.toList) :
    Build.FailsOnly (setup.Fault p .members) (setup.makeProperty site staged q) := by
  have haccessor {a : Accessor × MethodPlan} (ha : a ∈ q.accessors) : a ∈ p.accessors :=
    List.mem_append_left _ (List.mem_flatMap.mpr ⟨q, hq, ha⟩)
  refine .bind (failsOnly_memberReference hresolver _ _) fun _ => ?_
  refine .bind (failsOnly_wireAccessor fun n hn => haccessor ?_) fun _ =>
    .bind (failsOnly_wireAccessor fun n hn => haccessor ?_) fun _ => .of_succeeds (.modifyGet _)
  · simp [PropertyPlan.accessors, hn]
  · simp [PropertyPlan.accessors, hn]

theorem failsOnly_makeEvent {staged : Staged} {v : EventPlan} (hv : v ∈ p.events.toList) :
    Build.FailsOnly (setup.Fault p .members) (setup.makeEvent site staged v) := by
  have haccessor {a : Accessor × MethodPlan} (ha : a ∈ v.accessors) : a ∈ p.accessors :=
    List.mem_append_right _ (List.mem_flatMap.mpr ⟨v, hv, ha⟩)
  refine .bind (failsOnly_memberReference hresolver _ _) fun _ => ?_
  refine .bind (failsOnly_wireAccessor fun n hn => haccessor ?_) fun _ =>
    .bind (failsOnly_wireAccessor fun n hn => haccessor ?_) fun _ =>
      .bind (failsOnly_wireAccessor fun n hn => haccessor ?_) fun _ => .of_succeeds (.modifyGet _)
  · simp [EventPlan.accessors, hn]
  · simp [EventPlan.accessors, hn]
  · simp [EventPlan.accessors, hn]

/-- The members of a type that cannot all be made have one of the faults. -/
theorem failsOnly_stage (site : MemberSite) (p : TypePlan) :
    Build.FailsOnly (setup.Fault p .members) (setup.stage site p) := by
  unfold Setup.stage
  refine .bind (.mapM fun f hf => ?_) fun _ => ?_
  · exact .bind (failsOnly_makeField (failsOnly_memberReference hresolver _ _)
      (.fieldDefault _ hf) (.fieldData _ hf)) fun _ => .pure _
  refine .bind (.mapM fun m hm => ?_) fun _ => ?_
  · exact .bind (failsOnly_makeMethod (failsOnly_memberReference hresolver _)
      fun _ _ hq => failsOnly_plannedParam hm hq) fun _ => .pure _
  refine .bind (.mapM fun q hq => ?_) fun _ => ?_
  · exact .bind (failsOnly_makeProperty hresolver hq) fun _ => .pure _
  refine .bind (.mapM fun v hv => ?_) fun _ => .pure _
  exact .bind (failsOnly_makeEvent hresolver hv) fun _ => .pure _

end Members

end ClrImage
