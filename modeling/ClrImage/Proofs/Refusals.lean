import ClrImage.Proofs.Sessions

/-!
# Refused requests

A request that is refused should leave the draft as if it had not been made. All requests but one
look for what they name before they change anything. The one is a constraint: its owner gets a list
of generic parameters, if it had none, and then the parameter is looked for. Later requests do not
notice an empty list, but the blueprint shows it.

- `Draft.kept?`, `Draft.opened`: what is kept for an owner, and the draft with a list opened there.
- `Drafting.Reads`, `Drafting.Writes`, `Drafting.Checks`: operations that look for something, that
  are never refused, and that look first and change then.
- `Drafting.Overlooks`: whether a list has been opened makes no difference to an operation, and
  `Draft.overlooks_perform`: nor to any request.
- `Draft.refused_cases`, `Draft.run_opened`: what a refused request leaves behind, and what becomes
  of it.
- `refusal_unnoticed_iff`: which refused requests the blueprint does not show.
-/

namespace ClrImage

open Drafting

/-! ## Lists of parameters -/

/-- Two changes of elements can be made in either order, unless they are of one element and get in
each other's way there. -/
theorem modify_comm {α : Type} {a : Array α} {i j : Nat} {f g : α → α}
    (h : ∀ x, a[i]? = some x → i = j → f (g x) = g (f x)) :
    (a.modify i f).modify j g = (a.modify j g).modify i f := by
  refine Array.ext_getElem? fun k => ?_
  simp only [Array.getElem?_modify]
  by_cases hi : i = k <;> by_cases hj : j = k
  · subst hi
    subst hj
    cases hx : a[j]? with
    | none => simp
    | some x => simp [h x hx rfl]
  all_goals simp [hi, hj]

/-- A change of an element that is there comes before or behind an addition. -/
theorem modify_push {α : Type} {a : Array α} {i : Nat} (hi : i < a.size) (f : α → α) (x : α) :
    (a.push x).modify i f = (a.modify i f).push x := by
  refine Array.ext_getElem? fun k => ?_
  simp only [Array.getElem?_modify, Array.getElem?_push, Array.size_modify]
  by_cases hk : k = a.size
  · have hne : i ≠ k := by omega
    simp [hk, hk ▸ hne]
  · simp [hk]

namespace Draft

namespace GenericPlace

/-- The position of the type that changes when the parameters at the place do. -/
def home : GenericPlace → Nat
  | .type i => i
  | .method place => place.type

/-- Changes the parameters at the place. -/
def change (f : Array GenericPlan → Array GenericPlan) : GenericPlace → TypeDraft → TypeDraft
  | .type _ => fun t => { t with plan := t.plan.mapGenerics f }
  | .method place => fun t =>
    { t with plan.methods := t.plan.methods.modify place.member (.mapGenerics f) }

/-- What a type keeps at the place: a list of parameters, or no list yet. -/
def kept? : GenericPlace → TypePlan → Option (Option (Array GenericPlan))
  | .type _, p => some p.generics
  | .method place, p => p.methods[place.member]?.map (·.generics)

/-- The parameters that a type keeps at the place. -/
def paramsOf (place : GenericPlace) (p : TypePlan) : Array GenericPlan :=
  (place.kept? p).join.getD #[]

/-- A list that is there stays as it is, and where there is nothing, nothing is opened. -/
theorem change_id_of_ne {place : GenericPlace} {t : TypeDraft}
    (h : place.kept? t.plan ≠ some none) : place.change id t = t := by
  cases place with
  | type i =>
    obtain ⟨params, hparams⟩ :=
      Option.ne_none_iff_exists'.mp fun hnone => h (congrArg some hnone)
    have hplan : t.plan.mapGenerics id = t.plan := by
      rw [TypePlan.mapGenerics, hparams, Option.getD_some, id, ← hparams]
    exact congrArg (fun plan => { t with plan }) hplan
  | method place =>
    have hmethods : t.plan.methods.modify place.member (.mapGenerics id) = t.plan.methods := by
      refine (modify_congr (g := id) fun m hm => ?_).trans ?_
      · obtain ⟨params, hparams⟩ : ∃ params, m.generics = some params := by
          refine Option.ne_none_iff_exists'.mp fun hnone => h ?_
          rw [kept?, hm, Option.map_some, hnone]
        rw [MethodPlan.mapGenerics, hparams, Option.getD_some, id, ← hparams]
        rfl
      · refine Array.ext_getElem? fun k => ?_
        simp [Array.getElem?_modify]
    exact congrArg (fun methods => { t with plan.methods := methods }) hmethods

theorem kept?_change_ne (place : GenericPlace) (t : TypeDraft) :
    place.kept? (place.change id t).plan ≠ some none := by
  cases place with
  | type i => exact Option.some_ne_none _ ∘ Option.some.inj
  | method place =>
    simp only [kept?, change, Array.getElem?_modify, if_true]
    cases t.plan.methods[place.member]? <;> simp [MethodPlan.mapGenerics]

/-- An empty list has no more parameters than none. -/
theorem paramsOf_change (place place' : GenericPlace) (t : TypeDraft) :
    place'.paramsOf (place.change id t).plan = place'.paramsOf t.plan := by
  cases place with
  | type i => cases place' <;> rfl
  | method place =>
    cases place' with
    | type i => rfl
    | method place' =>
      simp only [paramsOf, kept?, change, Array.getElem?_modify]
      split
      · cases t.plan.methods[place'.member]? <;> rfl
      · rfl

end GenericPlace

variable {d : Draft} {place : GenericPlace}

/-- What is kept at a place, if there is such a type or method. -/
def kept? (d : Draft) (place : GenericPlace) : Option (Option (Array GenericPlan)) :=
  d.types[place.home]?.bind fun t => place.kept? t.plan

/-- The draft with a list of parameters at the place. -/
def opened (d : Draft) (place : GenericPlace) : Draft :=
  { d with types := d.types.modify place.home (place.change id) }

theorem opened_eq_withGenerics (d : Draft) (place : GenericPlace) :
    d.opened place = d.withGenerics place id := by
  cases place <;> rfl

theorem exists_of_kept? (h : (d.kept? place).isSome = true) :
    ∃ t, d.types[place.home]? = some t ∧ (place.kept? t.plan).isSome = true := by
  unfold kept? at h
  cases ht : d.types[place.home]? with
  | none =>
    rw [ht] at h
    cases h
  | some t =>
    rw [ht] at h
    exact ⟨t, rfl, h⟩

theorem opened_of_ne (h : d.kept? place ≠ some none) : d.opened place = d := by
  have htypes : d.types.modify place.home (place.change id) = d.types := by
    refine (modify_congr (g := id) fun t ht => ?_).trans ?_
    · rw [kept?, ht] at h
      exact GenericPlace.change_id_of_ne h
    · refine Array.ext_getElem? fun k => ?_
      simp [Array.getElem?_modify]
  exact congrArg (fun types => { d with types }) htypes

/-- What a list of parameters does not change about a type is the same. -/
theorem map_opened {α : Type} {read : TypeDraft → α} (h : ∀ t, read (place.change id t) = read t)
    (i : Nat) : (d.opened place).types[i]?.map read = d.types[i]?.map read := by
  show (d.types.modify place.home (place.change id))[i]?.map read = _
  rw [Array.getElem?_modify]
  split
  · rw [Option.map_map]
    exact congrArg (Option.map · _) (funext h)
  · rfl

theorem generics_opened (d : Draft) (place place' : GenericPlace) :
    (d.opened place).generics place' = d.generics place' := by
  have hgenerics (d : Draft) : d.generics place' =
      (d.types[place'.home]?.map fun t => place'.paramsOf t.plan).getD #[] := by
    cases place' with
    | type i =>
      simp only [generics, GenericPlace.home]
      cases d.types[i]? <;> rfl
    | method place' =>
      simp only [generics, GenericPlace.home]
      cases d.types[place'.type]? with
      | none => rfl
      | some t =>
        simp only [GenericPlace.paramsOf, GenericPlace.kept?, Option.bind_some, Option.map_some]
        cases t.plan.methods[place'.member]? <;> rfl
  rw [hgenerics, hgenerics, map_opened (GenericPlace.paramsOf_change place place')]

/-- A blueprint shows whether there is a list. -/
theorem kept?_finish (d : Draft) (place : GenericPlace) :
    d.finish.types[place.home]?.bind place.kept? = d.kept? place := by
  show (d.types.map _)[place.home]?.bind _ = _
  rw [Array.getElem?_map, kept?]
  cases d.types[place.home]? with
  | none => rfl
  | some t => cases place <;> rfl

/-- Opening a list shows in the blueprint exactly if there was none. -/
theorem finish_opened_eq_iff :
    (d.opened place).finish = d.finish ↔ d.kept? place ≠ some none := by
  constructor
  · intro heq hnone
    have hkept : (d.opened place).kept? place = some none := by
      rw [← kept?_finish, heq, kept?_finish, hnone]
    obtain ⟨t, ht, -⟩ := exists_of_kept? (hnone ▸ rfl : (d.kept? place).isSome = true)
    have hchanged : (d.opened place).types[place.home]? = some (place.change id t) := by
      show (d.types.modify place.home (place.change id))[place.home]? = _
      rw [Array.getElem?_modify, if_pos rfl, ht, Option.map_some]
    rw [kept?, hchanged, Option.bind_some] at hkept
    exact place.kept?_change_ne t hkept
  · intro hne
    rw [opened_of_ne hne]

end Draft

/-! ## Operations that do not notice -/

namespace Drafting

variable {α β : Type}

/-- Whether a list of parameters has been opened at a place makes no difference to the operation. -/
def Overlooks (step : Drafting α) : Prop :=
  ∀ (d : Draft) (place : Draft.GenericPlace), (d.kept? place).isSome = true →
    outcome step (d.opened place) = ((outcome step d).1, (outcome step d).2.opened place) ∧
    ((outcome step d).2.kept? place).isSome = true

/-- The operation only looks for something. -/
structure Reads (step : Drafting α) : Prop where
  unchanged : ∀ d, (outcome step d).2 = d
  answer : ∀ (d : Draft) (place : Draft.GenericPlace),
    (outcome step (d.opened place)).1 = (outcome step d).1

/-- The operation is never refused. -/
structure Writes (step : Drafting α) : Prop where
  overlooks : Overlooks step
  succeeds : ∀ d, ∃ a, (outcome step d).1 = .ok a

/-- The operation is refused, if at all, before it has changed anything. -/
structure Checks (step : Drafting α) : Prop where
  overlooks : Overlooks step
  unchanged : ∀ d e, (outcome step d).1 = .error e → (outcome step d).2 = d

namespace Overlooks

variable {step : Drafting α} {next : α → Drafting β}

theorem pure (a : α) : Overlooks (pure a : Drafting α) := fun _ _ hkept => ⟨rfl, hkept⟩

theorem throw (e : Failure) : Overlooks (throw e : Drafting α) := fun _ _ hkept => ⟨rfl, hkept⟩

theorem modify {f : Draft → Draft}
    (h : ∀ (d : Draft) (place : Draft.GenericPlace), (d.kept? place).isSome = true →
      f (d.opened place) = (f d).opened place ∧ ((f d).kept? place).isSome = true) :
    Overlooks (modify f : Drafting Unit) := by
  intro d place hkept
  obtain ⟨hopened, hkept'⟩ := h d place hkept
  exact ⟨congrArg (Prod.mk _) hopened, hkept'⟩

theorem bind (h : Overlooks step) (hnext : ∀ a, Overlooks (next a)) :
    Overlooks (step >>= next) := by
  intro d place hkept
  obtain ⟨hopened, hkept'⟩ := h d place hkept
  rw [outcome_bind, outcome_bind, hopened]
  rcases hstep : outcome step d with ⟨e | a, d₁⟩
  · rw [hstep] at hkept'
    exact ⟨rfl, hkept'⟩
  · rw [hstep] at hkept'
    exact hnext a d₁ place hkept'

/-- What is read of the draft goes on alike from both. -/
theorem get_bind {next : Draft → Drafting β} (h : ∀ c, Overlooks (next c))
    (hread : ∀ (d : Draft) (place : Draft.GenericPlace), next (d.opened place) = next d) :
    Overlooks (get >>= next) := by
  intro d place hkept
  rw [outcome_get_bind, outcome_get_bind, hread]
  exact h d d place hkept

end Overlooks

namespace Reads

variable {step : Drafting α} {next : α → Drafting β}

/-- What is looked for is found or not in the tables of positions. -/
theorem of_outcome {f : Draft → Except Failure α} (h : ∀ d, outcome step d = (f d, d))
    (hf : ∀ (d : Draft) (place : Draft.GenericPlace), f (d.opened place) = f d) : Reads step where
  unchanged d := by rw [h]
  answer d place := by rw [h, h, hf]

theorem overlooks (h : Reads step) : Overlooks step := by
  intro d place hkept
  rw [h.unchanged d]
  exact ⟨Prod.ext (h.answer d place) (h.unchanged (d.opened place)), hkept⟩

theorem bind (h : Reads step) (hnext : ∀ a, Checks (next a)) : Checks (step >>= next) where
  overlooks := h.overlooks.bind fun a => (hnext a).overlooks
  unchanged d e he := by
    have hd := h.unchanged d
    rw [outcome_bind] at he ⊢
    rcases hstep : outcome step d with ⟨e' | a, d₁⟩
    · rw [hstep] at hd
      exact hd
    · rw [hstep] at hd he
      obtain rfl : d₁ = d := hd
      exact (hnext a).unchanged d₁ e he

end Reads

namespace Writes

variable {step : Drafting α} {next : α → Drafting β}

theorem pure (a : α) : Writes (pure a : Drafting α) := ⟨.pure a, fun _ => ⟨a, rfl⟩⟩

theorem modify {f : Draft → Draft}
    (h : ∀ (d : Draft) (place : Draft.GenericPlace), (d.kept? place).isSome = true →
      f (d.opened place) = (f d).opened place ∧ ((f d).kept? place).isSome = true) :
    Writes (modify f : Drafting Unit) :=
  ⟨.modify h, fun _ => ⟨(), rfl⟩⟩

theorem bind (h : Writes step) (hnext : ∀ a, Writes (next a)) : Writes (step >>= next) where
  overlooks := h.overlooks.bind fun a => (hnext a).overlooks
  succeeds d := by
    obtain ⟨a, ha⟩ := h.succeeds d
    rw [outcome_bind]
    rcases hstep : outcome step d with ⟨e | a', d₁⟩
    · rw [hstep] at ha
      cases ha
    · exact (hnext a').succeeds d₁

theorem checks (h : Writes step) : Checks step where
  overlooks := h.overlooks
  unchanged d e he := by
    obtain ⟨a, ha⟩ := h.succeeds d
    cases ha.symm.trans he

end Writes

namespace Checks

theorem get_bind {next : Draft → Drafting β} (h : ∀ c, Checks (next c))
    (hread : ∀ (d : Draft) (place : Draft.GenericPlace), next (d.opened place) = next d) :
    Checks (get >>= next) where
  overlooks := .get_bind (fun c => (h c).overlooks) hread
  unchanged d := by
    rw [outcome_get_bind]
    exact (h d).unchanged d

theorem map {step : Drafting α} (h : Checks step) (f : α → β) : Checks (f <$> step) where
  overlooks := by
    rw [map_eq_pure_bind]
    exact h.overlooks.bind fun a => .pure (f a)
  unchanged d e he := by
    rw [outcome_map] at he ⊢
    cases ha : (outcome step d).1 with
    | error e' => exact h.unchanged d e' ha
    | ok a =>
      rw [ha] at he
      cases he

end Checks

end Drafting

/-! ## What is asked of a draft -/

namespace Draft

variable {d : Draft} {place : GenericPlace}

/-! ### Looking up and changing -/

section LookUps

variable (token : Token)

theorem reads_typePlace : Reads (typePlace token) := by
  refine .of_outcome (f := fun d =>
    (d.typePlaces[token]?).elim (.error (.flawed (.unknownType token))) .ok) ?_ fun _ _ => rfl
  intro d
  unfold typePlace
  rw [outcome_get_bind]
  cases d.typePlaces[token]? <;> rfl

theorem reads_fieldPlace : Reads (fieldPlace token) := by
  refine .of_outcome (f := fun d =>
    (d.fieldPlaces[token]?).elim (.error (.flawed (.unknownField token))) .ok) ?_ fun _ _ => rfl
  intro d
  unfold fieldPlace
  rw [outcome_get_bind]
  cases d.fieldPlaces[token]? <;> rfl

theorem reads_methodPlace : Reads (methodPlace token) := by
  refine .of_outcome (f := fun d =>
    (d.methodPlaces[token]?).elim (.error (.flawed (.unknownMethod token))) .ok) ?_ fun _ _ => rfl
  intro d
  unfold methodPlace
  rw [outcome_get_bind]
  cases d.methodPlaces[token]? <;> rfl

theorem reads_checkAccessor (accessor : Option Token) : Reads (checkAccessor accessor) := by
  refine .of_outcome (f := fun d => (d.refusal? accessor).elim (.ok ()) .error) ?_ fun _ _ => by
    cases accessor <;> rfl
  intro d
  rw [← bind_pure (checkAccessor accessor), outcome_checkAccessor_bind]
  cases d.refusal? accessor <;> rfl

theorem reads_genericPlace (owner : Token) : Reads (genericPlace owner) := by
  refine .of_outcome (f := fun d => d.ownerPlace owner) ?_ fun _ _ => rfl
  intro d
  rw [← bind_pure (genericPlace owner), outcome_genericPlace_bind]
  cases d.ownerPlace owner <;> rfl

end LookUps

/-- A change of a type goes unnoticed if it does not matter which comes first, the change or the
list, and if it takes nothing away from the place of the list. -/
theorem writes_modifyType (i : Nat) {f : TypeDraft → TypeDraft}
    (h : ∀ (place : GenericPlace) t, (place.kept? t.plan).isSome = true →
      f (place.change id t) = place.change id (f t) ∧
        (place.kept? (f t).plan).isSome = true) :
    Writes (modifyType i f) := by
  refine .modify fun d place hkept => ?_
  obtain ⟨t, ht, hkept⟩ := exists_of_kept? hkept
  constructor
  · refine congrArg (fun types => { d with types }) (modify_comm fun x hx hi => ?_)
    subst hi
    obtain rfl := Option.some.inj (ht.symm.trans hx)
    exact (h place t hkept).1.symm
  · unfold kept?
    rw [Array.getElem?_modify, ht]
    split
    · exact (h place t hkept).2
    · exact hkept

/-- A change of a plan that has nothing to do with its generic parameters and methods. -/
theorem writes_modifyPlan (i : Nat) {f : TypePlan → TypePlan}
    (hframe : ∀ p generics methods,
      f { p with generics, methods } = { f p with generics, methods }) :
    Writes (modifyPlan i f) := by
  have hgenerics (p : TypePlan) : (f p).generics = p.generics := by
    have h := congrArg TypePlan.generics (hframe p p.generics p.methods)
    exact h
  have hmethods (p : TypePlan) : (f p).methods = p.methods := by
    have h := congrArg TypePlan.methods (hframe p p.generics p.methods)
    exact h
  refine writes_modifyType i fun place t hkept => ?_
  cases place with
  | type j =>
    refine ⟨congrArg (fun plan => { t with plan }) ?_, rfl⟩
    calc f (t.plan.mapGenerics id)
        = { f t.plan with
            generics := some (t.plan.generics.getD #[])
            methods := t.plan.methods } := hframe ..
      _ = (f t.plan).mapGenerics id := by rw [TypePlan.mapGenerics, hgenerics, ← hmethods]; rfl
  | method place =>
    constructor
    · refine congrArg (fun plan => { t with plan }) ?_
      calc f { t.plan with methods := t.plan.methods.modify place.member (.mapGenerics id) }
          = { f t.plan with
              generics := t.plan.generics
              methods := t.plan.methods.modify place.member (.mapGenerics id) } := hframe ..
        _ = { f t.plan with
              methods := (f t.plan).methods.modify place.member (.mapGenerics id) } := by
          rw [hmethods, ← hgenerics]
    · show ((f t.plan).methods[place.member]?.map _).isSome = true
      rw [hmethods]
      exact hkept

theorem writes_modifyMethod (place : Place) {f : MethodPlan → MethodPlan}
    (h : ∀ m, f (m.mapGenerics id) = (f m).mapGenerics id) : Writes (modifyMethod place f) := by
  refine writes_modifyType place.type fun place' t hkept => ?_
  cases place' with
  | type i => exact ⟨rfl, rfl⟩
  | method place' =>
    constructor
    · exact congrArg (fun methods => { t with plan.methods := methods })
        (modify_comm fun m _ _ => (h m).symm)
    · simp only [GenericPlace.kept?, Option.isSome_map, Array.getElem?_modify] at hkept ⊢
      split
      · rw [Option.isSome_map]
        exact hkept
      · exact hkept

theorem writes_modifyGenerics (place : GenericPlace) (f : Array GenericPlan → Array GenericPlan) :
    Writes (modifyGenerics place f) := by
  cases place with
  | type i =>
    refine writes_modifyType i fun place t hkept => ?_
    cases place <;> exact ⟨rfl, hkept⟩
  | method place => exact writes_modifyMethod place fun _ => rfl

/-- An addition to a type: what the draft keeps besides its types is brought up to date, then the
type changes, and the answer is the token. -/
theorem writes_addition {g : Draft → Draft}
    (hg : ∀ d types, g { d with types } = { g d with types }) {change : Drafting Unit}
    (hchange : Writes change) (token : Token) :
    Writes (modify g >>= fun _ => change >>= fun _ => pure token) := by
  refine Writes.bind (.modify fun d place hkept => ?_) fun _ => hchange.bind fun _ => .pure token
  have htypes : (g d).types = d.types := by
    have h := congrArg Draft.types (hg d d.types)
    exact h
  constructor
  · calc g (d.opened place) = { g d with types := d.types.modify place.home (place.change id) } :=
          hg ..
      _ = (g d).opened place := by rw [opened, htypes]
  · unfold kept? at hkept ⊢
    rw [htypes]
    exact hkept

/-! ### Types and their parts -/

/-- A request that changes the plan of a type. -/
theorem checks_typePlace_bind (token : Token) {f : TypePlan → TypePlan}
    (hframe : ∀ p generics methods,
      f { p with generics, methods } = { f p with generics, methods }) :
    Checks (typePlace token >>= fun i => modifyPlan i f) :=
  (reads_typePlace token).bind fun i => (writes_modifyPlan i hframe).checks

/-- A request that changes the plan of a field. -/
theorem checks_fieldPlace_bind (token : Token) (f : FieldPlan → FieldPlan) :
    Checks (fieldPlace token >>= fun place => modifyField place f) :=
  (reads_fieldPlace token).bind fun place =>
    (writes_modifyPlan place.type fun _ _ _ => rfl).checks

theorem checks_setDeclaring (inner outer : Token) : Checks (setDeclaring inner outer) := by
  rw [setDeclaring_eq]
  exact (reads_typePlace outer).bind fun _ => checks_typePlace_bind inner fun _ _ _ => rfl

theorem checks_setBase (type : Token) (base : TypeRef) : Checks (setBase type base) :=
  checks_typePlace_bind type fun _ _ _ => rfl

theorem checks_addInterface (type : Token) (interface : TypeRef) :
    Checks (addInterface type interface) :=
  checks_typePlace_bind type fun _ _ _ => rfl

theorem checks_setFieldDefault (field : Token) (value : Constant) :
    Checks (setFieldDefault field value) :=
  checks_fieldPlace_bind field _

theorem checks_setFieldData (field : Token) (data : List UInt8) :
    Checks (setFieldData field data) :=
  checks_fieldPlace_bind field _

theorem checks_addParam (method : Token) (param : ParamPlan) : Checks (addParam method param) := by
  unfold addParam
  refine (reads_methodPlace method).bind fun place => Writes.checks ?_
  exact writes_modifyMethod place fun _ => rfl

/-! ### Additions -/

theorem checks_addType (space name : String) (flags : TypeFlags) (flavor : Flavor) :
    Checks (addType space name flags flavor) := by
  unfold addType
  refine .get_bind (fun c => Writes.checks ?_) fun d place => ?_
  · refine Writes.bind (.modify fun d place hkept => ?_) fun _ => .pure _
    -- the new type comes behind the one at the place
    obtain ⟨t, ht, hkept⟩ := exists_of_kept? hkept
    have hlt : place.home < d.types.size := (Array.getElem?_eq_some_iff.mp ht).1
    constructor
    · exact congrArg (fun types => { d with
          types
          typePlaces := d.typePlaces.insert
            (Token.ofParts Table.typeDef (UInt32.ofNat c.types.size + 1)) c.types.size })
        (modify_push hlt (place.change id) _).symm
    · have hlast : place.home ≠ d.types.size := by omega
      simpa [kept?, Array.getElem?_push, hlast, ht] using hkept
  · have hsize : (d.opened place).types.size = d.types.size := Array.size_modify
    simp only [hsize]
    rfl

theorem checks_addField (type : Token) (name : String) (flags : FieldFlags) (fieldType : TypeRef) :
    Checks (addField type name flags fieldType) := by
  unfold addField
  refine (reads_typePlace type).bind fun i =>
    .get_bind (fun c => Writes.checks ?_) fun d place => ?_
  · exact writes_addition (fun _ _ => rfl) (writes_modifyPlan i fun _ _ _ => rfl) _
  · have hsize : (d.opened place).types[i]?.map (·.plan.fields.size) =
        d.types[i]?.map (·.plan.fields.size) := map_opened (by cases place <;> exact fun _ => rfl) i
    simp only [hsize]
    rfl

theorem checks_addMethod (type : Token) (name : String) (flags : MethodFlags)
    (implFlags : MethodImplFlags) (returnType : TypeRef) :
    Checks (addMethod type name flags implFlags returnType) := by
  unfold addMethod
  refine (reads_typePlace type).bind fun i =>
    .get_bind (fun c => Writes.checks ?_) fun d place => ?_
  · refine writes_addition (fun _ _ => rfl) (writes_modifyType i fun place t hkept => ?_) _
    cases place with
    | type => exact ⟨rfl, hkept⟩
    | method place =>
      -- the new method comes behind the one at the place
      simp only [GenericPlace.kept?, Option.isSome_map] at hkept
      have hlt : place.member < t.plan.methods.size := by simpa using hkept
      constructor
      · exact congrArg (fun methods => { t with plan.methods := methods })
          (modify_push hlt _ _).symm
      · have hlast : place.member ≠ t.plan.methods.size := by omega
        simpa [GenericPlace.kept?, Array.getElem?_push, hlast] using hkept
  · have hsize : (d.opened place).types[i]?.map (·.plan.methods.size) =
        d.types[i]?.map (·.plan.methods.size) :=
      map_opened (by cases place <;> simp [GenericPlace.change, TypePlan.mapGenerics]) i
    simp only [hsize]
    rfl

theorem checks_addProperty (type : Token) (name : String) (flags : PropertyFlags)
    (propertyType : TypeRef) (getter setter : Option Token) :
    Checks (addProperty type name flags propertyType getter setter) := by
  unfold addProperty
  refine (reads_typePlace type).bind fun i => (reads_checkAccessor getter).bind fun _ =>
    (reads_checkAccessor setter).bind fun _ => .get_bind (fun c => Writes.checks ?_) fun _ _ => rfl
  refine writes_addition (fun _ _ => rfl) (writes_modifyType i fun place t hkept => ?_) _
  cases place <;> exact ⟨rfl, hkept⟩

theorem checks_addEvent (type : Token) (name : String) (flags : EventFlags) (eventType : TypeRef)
    (add remove raise : Option Token) :
    Checks (addEvent type name flags eventType add remove raise) := by
  unfold addEvent
  refine (reads_typePlace type).bind fun i => (reads_checkAccessor add).bind fun _ =>
    (reads_checkAccessor remove).bind fun _ => (reads_checkAccessor raise).bind fun _ =>
      .get_bind (fun c => Writes.checks ?_) fun _ _ => rfl
  refine writes_addition (fun _ _ => rfl) (writes_modifyType i fun place t hkept => ?_) _
  cases place <;> exact ⟨rfl, hkept⟩

/-! ### Generic parameters -/

theorem checks_declareGeneric (owner : Token) (index : UInt32) (name : String)
    (flags : GenericFlags) : Checks (declareGeneric owner index name flags) := by
  unfold declareGeneric
  refine (reads_genericPlace owner).bind fun place => Writes.checks ?_
  exact (writes_modifyGenerics place _).bind fun _ => .modify fun _ _ hkept => ⟨rfl, hkept⟩

theorem checks_addGeneric (owner : Token) (name : String) (flags : GenericFlags) :
    Checks (addGeneric owner name flags) := by
  unfold addGeneric
  refine .get_bind (fun c => ?_) fun _ _ => rfl
  rw [← map_eq_pure_bind]
  exact (checks_declareGeneric owner c.nextGeneric name flags).map _

/-- A constraint is refused too late for `Checks`: the list is open when the parameter is looked
for. It does not notice a list that has been opened before, though. -/
theorem overlooks_addConstraint (owner : Token) (index : UInt32) (constraint : TypeRef) :
    Overlooks (addConstraint owner index constraint) := by
  unfold addConstraint
  refine (reads_genericPlace owner).overlooks.bind fun place =>
    (writes_modifyGenerics place id).overlooks.bind fun _ =>
      .get_bind (fun c => ?_) fun d place' => ?_
  · cases (c.generics place).findIdx? (·.index == index) with
    | some i => exact (writes_modifyGenerics place _).overlooks
    | none => exact .throw _
  · rw [generics_opened]

/-! ### Requests -/

/-- All other requests are refused before they have changed anything. -/
theorem checks_perform {r : Request}
    (hr : ∀ owner index constraint, r ≠ .addConstraint owner index constraint) :
    Checks (perform r) := by
  cases r with
  | addType space name flags flavor => exact (checks_addType space name flags flavor).map _
  | setDeclaring inner outer => exact (checks_setDeclaring inner outer).map _
  | setBase type base => exact (checks_setBase type base).map _
  | addInterface type interface => exact (checks_addInterface type interface).map _
  | declareGeneric owner index name flags =>
    exact (checks_declareGeneric owner index name flags).map _
  | addGeneric owner name flags => exact (checks_addGeneric owner name flags).map _
  | addConstraint owner index constraint => exact absurd rfl (hr owner index constraint)
  | addField type name flags fieldType => exact (checks_addField type name flags fieldType).map _
  | setFieldDefault field value => exact (checks_setFieldDefault field value).map _
  | setFieldData field data => exact (checks_setFieldData field data).map _
  | addMethod type name flags implFlags returnType =>
    exact (checks_addMethod type name flags implFlags returnType).map _
  | addParam method param => exact (checks_addParam method param).map _
  | addProperty type name flags propertyType getter setter =>
    exact (checks_addProperty type name flags propertyType getter setter).map _
  | addEvent type name flags eventType add remove raise =>
    exact (checks_addEvent type name flags eventType add remove raise).map _

theorem overlooks_perform (r : Request) : Overlooks (perform r) := by
  by_cases hr : ∃ owner index constraint, r = .addConstraint owner index constraint
  · obtain ⟨owner, index, constraint, rfl⟩ := hr
    show Overlooks ((fun _ => Answer.done) <$> addConstraint owner index constraint)
    rw [map_eq_pure_bind]
    exact (overlooks_addConstraint owner index constraint).bind fun _ => .pure _
  · exact (checks_perform fun owner index constraint heq =>
      hr ⟨owner, index, constraint, heq⟩).overlooks

/-! ## Refusals -/

/-- The request is to constrain a parameter of a type or method that the draft has, which keeps its
parameters at the place. -/
def ConstrainsAt (d : Draft) (r : Request) (place : GenericPlace) : Prop :=
  ∃ owner index constraint, r = .addConstraint owner index constraint ∧
    d.ownerPlace owner = .ok place

theorem ConstrainsAt.unique {r : Request} {place' : GenericPlace} (h : d.ConstrainsAt r place)
    (h' : d.ConstrainsAt r place') : place = place' := by
  obtain ⟨owner, index, constraint, rfl, hplace⟩ := h
  obtain ⟨_, _, _, heq, hplace'⟩ := h'
  obtain ⟨rfl, -, -⟩ := Request.addConstraint.inj heq
  exact Except.ok.inj (hplace.symm.trans hplace')

/-- A refused request changes nothing, or it leaves a list of parameters where it was to constrain
one. -/
theorem refused_cases {r : Request} {e : Failure} {d' : Draft}
    (h : outcome (perform r) d = (.error e, d')) :
    ((∀ place, ¬ d.ConstrainsAt r place) ∧ d' = d) ∨
      ∃ place, d.ConstrainsAt r place ∧ d' = d.opened place := by
  have herror : (outcome (perform r) d).1 = .error e := congrArg Prod.fst h
  obtain rfl : (outcome (perform r) d).2 = d' := congrArg Prod.snd h
  by_cases hr : ∃ owner index constraint, r = .addConstraint owner index constraint
  · obtain ⟨owner, index, constraint, rfl⟩ := hr
    have hmap : outcome (perform (.addConstraint owner index constraint)) d =
        ((outcome (addConstraint owner index constraint) d).1.map fun _ => .done,
          (outcome (addConstraint owner index constraint) d).2) := outcome_map ..
    rw [hmap] at herror ⊢
    cases hplace : d.ownerPlace owner with
    | error e =>
      refine .inl ⟨?_, ?_⟩
      · rintro place ⟨_, _, _, heq, hok⟩
        obtain ⟨rfl, -, -⟩ := Request.addConstraint.inj heq
        cases hplace.symm.trans hok
      · unfold addConstraint
        rw [outcome_genericPlace_bind, hplace]
    | ok place =>
      refine .inr ⟨place, ⟨owner, index, constraint, rfl, hplace⟩, ?_⟩
      rw [outcome_addConstraint_at hplace, ← opened_eq_withGenerics, generics_opened] at herror ⊢
      cases hfind : (d.generics place).findIdx? (·.index == index) with
      | none => rfl
      | some i =>
        rw [hfind] at herror
        cases herror
  · have hother : ∀ owner index constraint, r ≠ .addConstraint owner index constraint :=
      fun owner index constraint heq => hr ⟨owner, index, constraint, heq⟩
    refine .inl ⟨?_, (checks_perform hother).unchanged d e herror⟩
    rintro place ⟨owner, index, constraint, heq, -⟩
    exact hother owner index constraint heq

/-- Further requests are answered alike, and the list of parameters stays the only difference. -/
theorem run_opened (hkept : (d.kept? place).isSome = true) (requests : List Request) :
    (d.opened place).answers requests = d.answers requests ∧
    (d.opened place).after requests = (d.after requests).opened place := by
  induction requests generalizing d with
  | nil => exact ⟨rfl, rfl⟩
  | cons r requests ih =>
    obtain ⟨hopened, hkept'⟩ := overlooks_perform r d place hkept
    obtain ⟨hanswers, hafter⟩ := ih hkept'
    constructor
    · rw [answers, answers, hopened, hanswers]
    · rw [after, after, List.foldl_cons, List.foldl_cons, hopened]
      exact hafter

end Draft

open Draft in
/-- **A refused request has no effect, unless it is for a constraint.** Further requests are
answered as if the refused one had not been made. The blueprint is the same, too, unless a
constraint was refused for a type or method that the draft has, that had no list of generic
parameters, and that gets none by any further request: the draft then has an empty list there, and
differs in nothing else. -/
theorem refusal_unnoticed_iff {d d' : Draft} {r : Request} {e : Failure}
    (h : outcome (perform r) d = (.error e, d')) (rest : List Request) :
    d'.answers rest = d.answers rest ∧
    ((d'.after rest).finish = (d.after rest).finish ↔
      ¬ ∃ place, d.ConstrainsAt r place ∧ d.kept? place = some none ∧
        (d.after rest).kept? place = some none) ∧
    (d'.after rest = d.after rest ∨
      ∃ place, d.ConstrainsAt r place ∧ d'.after rest = (d.after rest).opened place) := by
  rcases refused_cases h with ⟨hnone, rfl⟩ | ⟨place, hat, rfl⟩
  · refine ⟨rfl, iff_of_true rfl ?_, .inl rfl⟩
    rintro ⟨place, hat, -⟩
    exact hnone place hat
  · by_cases hclosed : d.kept? place = some none
    · obtain ⟨hanswers, hafter⟩ := run_opened (hclosed ▸ rfl : (d.kept? place).isSome = true) rest
      refine ⟨hanswers, ?_, .inr ⟨place, hat, hafter⟩⟩
      rw [hafter, finish_opened_eq_iff, not_iff_not]
      constructor
      · intro hrest
        exact ⟨place, hat, hclosed, hrest⟩
      · rintro ⟨place', hat', -, hrest⟩
        rw [hat.unique hat']
        exact hrest
    · rw [opened_of_ne hclosed]
      refine ⟨rfl, iff_of_true rfl ?_, .inl rfl⟩
      rintro ⟨place', hat', hclosed', -⟩
      rw [hat.unique hat'] at hclosed
      exact hclosed hclosed'

/-- A draft with a type that is not generic. -/
def stall : Draft := Draft.after { module := "stall" } [.addType "" "Stall" .empty .classType]

/-- The constraint is refused, and the blueprint shows it. It would not if the type got a generic
parameter later. -/
theorem refusal_unnoticed_iff_stall :
    ∃ d' e, outcome (Draft.perform (.addConstraint ⟨0x02000001⟩ 0 (TypeRef.primitive .object)))
        stall = (.error e, d') ∧
      d'.finish ≠ stall.finish ∧
      (d'.after [.addGeneric ⟨0x02000001⟩ "T" .empty]).finish =
        (stall.after [.addGeneric ⟨0x02000001⟩ "T" .empty]).finish := by
  have hplace : stall.ownerPlace ⟨0x02000001⟩ = .ok (.type 0) := rfl
  have hrefused : outcome
      (Draft.perform (.addConstraint ⟨0x02000001⟩ 0 (TypeRef.primitive .object))) stall =
      (.error (.flawed (.undeclaredGeneric ⟨0x02000001⟩ 0)), stall.opened (.type 0)) := by
    unfold Draft.perform
    have hfind : (stall.generics (.type 0)).findIdx? (·.index == 0) = none := Array.findIdx?_empty
    rw [outcome_map, Draft.outcome_addConstraint_at hplace, ← Draft.opened_eq_withGenerics,
      Draft.generics_opened, hfind]
    rfl
  refine ⟨_, _, hrefused, ?_, ?_⟩
  · intro heq
    refine (refusal_unnoticed_iff hrefused []).2.1.mp heq ?_
    exact ⟨.type 0, ⟨_, _, _, rfl, hplace⟩, rfl, rfl⟩
  · refine (refusal_unnoticed_iff hrefused _).2.1.mpr ?_
    rintro ⟨place, ⟨_, _, _, heq, hplace'⟩, -, hnone⟩
    obtain ⟨rfl, -, -⟩ := Request.addConstraint.inj heq
    obtain rfl := Except.ok.inj (hplace.symm.trans hplace')
    cases hnone

end ClrImage
