import ClrImage.Proofs.Drafting

/-!
# Histories of a draft

The history of a draft is the list of its deeds, oldest first. What a type or a member looks like
can be read off the history: lists are the additions in order, and of values the last one counts.

- `History.typeDraft`: a type as the history tells it, from what it was added with.
- `typeDraft_snoc`: one deed more changes what the history tells as the deed says.
-/

namespace ClrImage

namespace Deed

variable (token : Token)

/-! ## What deeds say of an entity -/

/-- A property with the token of its type. -/
def property? : Deed → Option PropertyDraft
  | addProperty type q => if type = token then some q else none
  | _ => none

def event? : Deed → Option EventDraft
  | addEvent type e => if type = token then some e else none
  | _ => none

def field? : Deed → Option FieldPlan
  | addField type f => if type = token then some f else none
  | _ => none

def method? : Deed → Option MethodPlan
  | addMethod type m => if type = token then some m else none
  | _ => none

def declaring? : Deed → Option Token
  | setDeclaring inner outer => if inner = token then some outer else none
  | _ => none

def base? : Deed → Option TypeRef
  | setBase type base => if type = token then some base else none
  | _ => none

def interface? : Deed → Option TypeRef
  | addInterface type interface => if type = token then some interface else none
  | _ => none

def default? : Deed → Option Constant
  | setFieldDefault field value => if field = token then some value else none
  | _ => none

def data? : Deed → Option (List UInt8)
  | setFieldData field data => if field = token then some data else none
  | _ => none

def param? : Deed → Option ParamPlan
  | addParam method param => if method = token then some param else none
  | _ => none

/-- Whether the owner has a list of generic parameters from the deed on. -/
def opens : Deed → Bool
  | openGenerics owner | addGeneric owner _ _ _ | addConstraint owner _ _ => owner = token
  | _ => false

/-- A new generic parameter without its number. -/
def generic? : Deed → Option GenericPlan
  | addGeneric owner index name flags =>
    if owner = token then some { index, number := 0, name, flags } else none
  | _ => none

def constraint? (index : UInt32) : Deed → Option TypeRef
  | addConstraint owner i constraint =>
    if owner = token ∧ i = index then some constraint else none
  | _ => none

end Deed

/-! ## Entities as the history tells them -/

namespace History

variable {α : Type} (h : List Deed)

/-- The last thing that deeds say. -/
def last? (say : Deed → Option α) : Option α := (h.filterMap say).getLast?

/-- All things that deeds say, in order. -/
def all (say : Deed → Option α) : Array α := (h.filterMap say).toArray

def field (f : FieldPlan) : FieldPlan :=
  { f with default := last? h (Deed.default? f.token), initialData := last? h (Deed.data? f.token) }

/-- The position of the first parameter with an index. -/
def first? (ps : Array GenericPlan) (index : UInt32) : Option Nat := ps.findIdx? (·.index == index)

/-- A parameter's number is its position. Constraints are those of the first parameter with the
index. -/
def generic (owner : Token) (params : Array GenericPlan) (n : Nat) (g : GenericPlan) :
    GenericPlan :=
  { g with
    number := UInt16.ofNat n
    constraints :=
      if first? params g.index = some n then all h (Deed.constraint? owner g.index)
      else #[] }

def params (owner : Token) : Array GenericPlan :=
  (all h (Deed.generic? owner)).mapIdx (generic h owner (all h (Deed.generic? owner)))

def generics? (owner : Token) : Option (Array GenericPlan) :=
  if h.any (Deed.opens owner) then some (params h owner) else none

def method (m : MethodPlan) : MethodPlan :=
  { m with params := all h (Deed.param? m.token), generics := generics? h m.token }

/-- A type as the history tells it. -/
def typeDraft (p : TypePlan) : TypeDraft where
  plan :=
    { p with
      declaring := last? h (Deed.declaring? p.token)
      base := last? h (Deed.base? p.token)
      interfaces := all h (Deed.interface? p.token)
      generics := generics? h p.token
      fields := (all h (Deed.field? p.token)).map (field h)
      methods := (all h (Deed.method? p.token)).map (method h) }
  properties := all h (Deed.property? p.token)
  events := all h (Deed.event? p.token)

/-! ## One deed more -/

variable {h} {x : Deed}

theorem last?_snoc (say : Deed → Option α) :
    last? (h ++ [x]) say = (say x).or (last? h say) := by
  unfold last?
  rw [List.filterMap_append]
  cases hx : say x <;> simp [hx]

theorem all_snoc (say : Deed → Option α) :
    all (h ++ [x]) say = (say x).elim (all h say) (all h say).push := by
  unfold all
  rw [List.filterMap_append]
  cases hx : say x <;> simp [hx]

/-! ### A deed about other things -/

theorem all_snoc_of_eq_none {say : Deed → Option α} (hx : say x = none) :
    all (h ++ [x]) say = all h say := by
  rw [all_snoc, hx]
  rfl

/-! ### Members -/

theorem field_snoc (f : FieldPlan) :
    field (h ++ [x]) f =
      { f with
        default := (x.default? f.token).or (last? h (Deed.default? f.token))
        initialData := (x.data? f.token).or (last? h (Deed.data? f.token)) } := by
  rw [field, last?_snoc, last?_snoc]

theorem field_snoc_of_eq_none (hdefault : ∀ t, x.default? t = none)
    (hdata : ∀ t, x.data? t = none) :
    field (h ++ [x]) = field h := by
  funext f
  rw [field_snoc, hdefault, hdata, Option.none_or, Option.none_or, field]

theorem generics?_snoc_of_unopened {owner : Token} (hx : x.opens owner = false) :
    generics? (h ++ [x]) owner = generics? h owner := by
  have hgeneric : x.generic? owner = none := by
    cases x <;> first | rfl | exact if_neg (by simpa [Deed.opens] using hx)
  have hconstraint (index : UInt32) : x.constraint? owner index = none := by
    cases x <;> first | rfl | exact if_neg (fun hw => by simp [Deed.opens, hw.1] at hx)
  have hparams : params (h ++ [x]) owner = params h owner := by
    unfold params
    rw [all_snoc_of_eq_none hgeneric]
    congr 1
    funext n g
    unfold generic
    rw [all_snoc_of_eq_none (hconstraint g.index)]
  unfold generics?
  rw [hparams, List.any_append]
  simp [hx]

theorem method_snoc_of_eq_none (hparam : ∀ t, x.param? t = none) (hopens : ∀ t, x.opens t = false) :
    method (h ++ [x]) = method h := by
  funext m
  unfold method
  rw [all_snoc_of_eq_none (hparam m.token), generics?_snoc_of_unopened (hopens m.token)]

/-! ### Generic parameters -/

/-- Who has no list of parameters has no parameters. -/
theorem params_eq_empty {owner : Token} (hopens : h.any (Deed.opens owner) = false) :
    params h owner = #[] := by
  have hnone : ∀ x ∈ h, x.generic? owner = none := by
    intro x hx
    have hclosed : x.opens owner = false := by
      simpa using List.any_eq_false.mp hopens x hx
    cases x <;> first | rfl | exact if_neg (by simpa [Deed.opens] using hclosed)
  have hempty : all h (Deed.generic? owner) = #[] := by
    unfold all
    rw [List.filterMap_eq_nil_iff.mpr hnone]
  rw [params, hempty]
  rfl

theorem getD_generics? (owner : Token) : (generics? h owner).getD #[] = params h owner := by
  unfold generics?
  split
  next => rfl
  next hopens => exact (params_eq_empty (eq_false_of_ne_true hopens)).symm

theorem generics?_openGenerics (owner : Token) :
    generics? (h ++ [.openGenerics owner]) owner = some (params h owner) := by
  have hparams : params (h ++ [.openGenerics owner]) owner = params h owner := by
    unfold params
    rw [all_snoc_of_eq_none rfl]
    congr 1
    funext n g
    unfold generic
    rw [all_snoc_of_eq_none rfl]
  rw [generics?, hparams, if_pos (by simp [Deed.opens])]

/-- Only declared parameters have got constraints. -/
def Constrained (h : List Deed) : Prop :=
  ∀ owner index constraint, .addConstraint owner index constraint ∈ h →
    ∃ g ∈ all h (Deed.generic? owner), g.index = index

theorem first?_push_eq_some_iff {ps : Array GenericPlan} {g : GenericPlan} {index : UInt32}
    {n : Nat} (hn : n < ps.size) :
    first? (ps.push g) index = some n ↔ first? ps index = some n := by
  unfold first?
  rw [Array.findIdx?_push]
  cases hfind : ps.findIdx? (·.index == index) with
  | some i => rfl
  | none =>
    rw [Option.none_or]
    split
    next =>
      constructor
      · rintro ⟨⟩
        exact absurd hn (Nat.lt_irrefl _)
      · nofun
    next => rfl

/-- A parameter with an index that is declared already is not the first one. -/
theorem first?_push_ne {ps : Array GenericPlan} {g a : GenericPlan} {index : UInt32} (ha : a ∈ ps)
    (hindex : a.index = index) : first? (ps.push g) index ≠ some ps.size := by
  unfold first?
  rw [Array.findIdx?_push]
  cases hfind : ps.findIdx? (·.index == index) with
  | none => simpa [hindex] using Array.findIdx?_eq_none_iff.mp hfind a ha
  | some i =>
    obtain ⟨hlt, -⟩ := Array.findIdx?_eq_some_iff_getElem.mp hfind
    rw [Option.some_or]
    exact fun heq => absurd (Option.some.inj heq) (Nat.ne_of_lt hlt)

/-- A parameter that is the first with its index when it is added has no constraints yet. -/
theorem Constrained.constraints_eq_empty (hconstrained : Constrained h) {owner : Token}
    {g : GenericPlan} {index : UInt32}
    (hfirst : first? ((all h (Deed.generic? owner)).push g) index =
      some (all h (Deed.generic? owner)).size) : all h (Deed.constraint? owner index) = #[] := by
  unfold all
  rw [List.filterMap_eq_nil_iff.mpr]
  intro x hx
  by_contra hsome
  cases x <;> try exact hsome rfl
  case addConstraint o i constraint =>
    obtain ⟨rfl, rfl⟩ : o = owner ∧ i = index := by
      by_contra hother
      exact hsome (if_neg hother)
    obtain ⟨a, ha, hindex⟩ := hconstrained _ _ _ hx
    exact first?_push_ne ha hindex hfirst

theorem generics?_addGeneric (hconstrained : Constrained h) (owner : Token) (index : UInt32)
    (name : String) (flags : GenericFlags) :
    generics? (h ++ [.addGeneric owner index name flags]) owner =
      some (pushGeneric index name flags (params h owner)) := by
  have hall : all (h ++ [.addGeneric owner index name flags]) (Deed.generic? owner) =
      (all h (Deed.generic? owner)).push { index, number := 0, name, flags } := by
    rw [all_snoc, Deed.generic?, if_pos rfl, Option.elim_some]
  have hconstraints (i : UInt32) : all (h ++ [.addGeneric owner index name flags])
      (Deed.constraint? owner i) = all h (Deed.constraint? owner i) := all_snoc_of_eq_none rfl
  rw [generics?, if_pos (by simp [Deed.opens])]
  unfold params pushGeneric
  rw [hall, Array.mapIdx_push, Array.size_mapIdx]
  congr 2
  · refine Array.mapIdx_eq_mapIdx_iff.mpr fun n hn => ?_
    unfold generic
    rw [hconstraints]
    simp only [first?_push_eq_some_iff hn]
  · unfold generic
    rw [hconstraints]
    split
    next hfirst => rw [hconstrained.constraints_eq_empty hfirst]
    next => rfl

theorem first?_params (owner : Token) (index : UInt32) :
    first? (params h owner) index = first? (all h (Deed.generic? owner)) index := by
  refine Option.ext fun i => ?_
  simp [first?, Array.findIdx?_eq_some_iff_getElem, params, generic]

/-- A constraint changes the first parameter with its index and no other. -/
theorem generic_addConstraint {ps : Array GenericPlan} (owner : Token) (index : UInt32)
    (constraint : TypeRef) {n : Nat} {g : GenericPlan} (hg : ps[n]? = some g) :
    generic (h ++ [.addConstraint owner index constraint]) owner ps n g =
      if first? ps index = some n then
        { generic h owner ps n g with
          constraints := (generic h owner ps n g).constraints.push constraint }
      else generic h owner ps n g := by
  by_cases hindex : index = g.index
  · subst hindex
    by_cases hfirst : first? ps g.index = some n <;>
      simp [generic, hfirst, all_snoc, Deed.constraint?]
  · have hfirst : first? ps index ≠ some n := by
      intro hfirst
      obtain ⟨hn, hfound, -⟩ := Array.findIdx?_eq_some_iff_getElem.mp hfirst
      rw [Array.getElem?_eq_getElem hn] at hg
      rw [Option.some.inj hg] at hfound
      exact hindex (eq_of_beq hfound).symm
    rw [if_neg hfirst, generic, all_snoc_of_eq_none (if_neg fun hsame => hindex hsame.2), generic]

theorem generics?_addConstraint (owner : Token) (index : UInt32) (constraint : TypeRef) :
    generics? (h ++ [.addConstraint owner index constraint]) owner =
      some (constrainFirst index constraint (params h owner)) := by
  have hall : all (h ++ [.addConstraint owner index constraint]) (Deed.generic? owner) =
      all h (Deed.generic? owner) := all_snoc_of_eq_none rfl
  rw [generics?, if_pos (by simp [Deed.opens])]
  congr 1
  unfold constrainFirst
  rw [show (params h owner).findIdx? (·.index == index) = _ from first?_params owner index]
  refine Array.ext_getElem? fun n => ?_
  unfold params
  rw [hall, Array.getElem?_mapIdx]
  cases hg : (all h (Deed.generic? owner))[n]? with
  | none => cases first? (all h (Deed.generic? owner)) index <;> simp [Array.getElem?_modify, hg]
  | some g =>
    rw [Option.map_some, generic_addConstraint owner index constraint hg]
    -- the parameter that is changed is the first one of both lists, which have the same indices
    cases hfirst : first? (all h (Deed.generic? owner)) index with
    | none => simp [hg]
    | some i => by_cases hi : i = n <;> simp [Array.getElem?_modify, hg, hi]

/-! ### Entities that are not named yet -/

/-- No deed has been done to an entity of a kind with the token. -/
def Unnamed (h : List Deed) (k : EntityKind) (token : Token) : Prop := ∀ x ∈ h, token ∉ x.names k

variable {token : Token}

theorem last?_eq_none {say : Deed → Option α} (hsay : ∀ x ∈ h, say x = none) :
    last? h say = none := by
  rw [last?, List.filterMap_eq_nil_iff.mpr hsay, List.getLast?_nil]

theorem all_eq_empty {say : Deed → Option α} (hsay : ∀ x ∈ h, say x = none) : all h say = #[] := by
  rw [all, List.filterMap_eq_nil_iff.mpr hsay]

/-- A new field is as it was added. -/
theorem field_of_unnamed {type : Token} {f : FieldPlan} (hunnamed : Unnamed h .field f.token)
    (hbare : (Deed.addField type f).Bare) : field h f = f := by
  have hdefault : ∀ x ∈ h, x.default? f.token = none := by
    intro x hx
    have hx := hunnamed x hx
    cases x <;> first | rfl | exact if_neg (by simpa [Deed.names, eq_comm] using hx)
  have hdata : ∀ x ∈ h, x.data? f.token = none := by
    intro x hx
    have hx := hunnamed x hx
    cases x <;> first | rfl | exact if_neg (by simpa [Deed.names, eq_comm] using hx)
  rw [field, last?_eq_none hdefault, last?_eq_none hdata, ← hbare.1, ← hbare.2]

theorem generics?_eq_none {owner : Token}
    (hunnamed : Unnamed h (if owner.isIn Table.typeDef then .type else .method) owner) :
    generics? h owner = none := by
  refine if_neg fun hopens => ?_
  obtain ⟨x, hx, ho⟩ := List.any_eq_true.mp hopens
  have hx := hunnamed x hx
  cases x <;> simp [Deed.opens] at ho <;> simp [Deed.names, ho] at hx

/-- A new method is as it was added. -/
theorem method_of_unnamed {type : Token} {m : MethodPlan} (hunnamed : Unnamed h .method m.token)
    (htable : m.token.isIn Table.typeDef = false) (hbare : (Deed.addMethod type m).Bare) :
    method h m = m := by
  have hparam : ∀ x ∈ h, x.param? m.token = none := by
    intro x hx
    have hx := hunnamed x hx
    cases x <;> first | rfl | exact if_neg (by simpa [Deed.names, eq_comm] using hx)
  rw [method, all_eq_empty hparam, generics?_eq_none (by simpa [htable] using hunnamed), ← hbare.1,
    ← hbare.2]

/-- A new type is as it was added. -/
theorem typeDraft_of_unnamed {p : TypePlan} (hunnamed : Unnamed h .type p.token)
    (htable : p.token.isIn Table.typeDef = true) (hbare : (Deed.addType p).Bare) :
    typeDraft h p = { plan := p } := by
  have hsilent (x : Deed) (hx : x ∈ h) : x.declaring? p.token = none ∧ x.base? p.token = none ∧
      x.interface? p.token = none ∧ x.field? p.token = none ∧ x.method? p.token = none ∧
      x.property? p.token = none ∧ x.event? p.token = none := by
    have hx := hunnamed x hx
    cases x <;> refine ⟨?_, ?_, ?_, ?_, ?_, ?_, ?_⟩ <;> first
      | rfl
      | exact if_neg fun heq => hx (by simp [Deed.names, heq])
  have hdeclaring := last?_eq_none fun x hx => (hsilent x hx).1
  have hbase := last?_eq_none fun x hx => (hsilent x hx).2.1
  have hinterfaces := all_eq_empty fun x hx => (hsilent x hx).2.2.1
  have hfields := all_eq_empty fun x hx => (hsilent x hx).2.2.2.1
  have hmethods := all_eq_empty fun x hx => (hsilent x hx).2.2.2.2.1
  have hproperties := all_eq_empty fun x hx => (hsilent x hx).2.2.2.2.2.1
  have hevents := all_eq_empty fun x hx => (hsilent x hx).2.2.2.2.2.2
  have hgenerics : generics? h p.token = none :=
    generics?_eq_none (by simpa [htable] using hunnamed)
  rw [typeDraft, hdeclaring, hbase, hinterfaces, hfields, hmethods, hproperties, hevents, hgenerics]
  have hplanned : p.properties = #[] ∧ p.events = #[] :=
    ⟨congrArg TypePlan.properties hbare, congrArg TypePlan.events hbare⟩
  rw [Array.map_empty, Array.map_empty, hplanned.1, hplanned.2]
  exact congrArg (TypeDraft.mk · #[] #[]) hbare.symm

/-! ### Types -/

/-- The members that a deed adds are not named in a history. -/
structure Fits (h : List Deed) (x : Deed) : Prop where
  bare : x.Bare
  unnamed : ∀ k t, x.adds? k = some t → Unnamed h k t
  type_table : ∀ p, x = .addType p → p.token.isIn Table.typeDef = true
  method_table : ∀ type m, x = .addMethod type m → m.token.isIn Table.typeDef = false

variable {p : TypePlan}

/-- A deed that changes a type itself and none of its members or generic parameters. -/
theorem typeDraft_snoc_of_eq_none (hdefault : ∀ t, x.default? t = none)
    (hdata : ∀ t, x.data? t = none) (hparam : ∀ t, x.param? t = none)
    (hopens : ∀ t, x.opens t = false) :
    typeDraft (h ++ [x]) p =
      { plan :=
          { p with
            declaring := (x.declaring? p.token).or (typeDraft h p).plan.declaring
            base := (x.base? p.token).or (typeDraft h p).plan.base
            interfaces := (x.interface? p.token).elim (typeDraft h p).plan.interfaces
              (typeDraft h p).plan.interfaces.push
            generics := (typeDraft h p).plan.generics
            fields := (x.field? p.token).elim (typeDraft h p).plan.fields
              fun f => (typeDraft h p).plan.fields.push (field h f)
            methods := (x.method? p.token).elim (typeDraft h p).plan.methods
              fun m => (typeDraft h p).plan.methods.push (method h m) }
        properties := (x.property? p.token).elim (typeDraft h p).properties
          (typeDraft h p).properties.push
        events := (x.event? p.token).elim (typeDraft h p).events (typeDraft h p).events.push } := by
  simp only [typeDraft, last?_snoc, all_snoc, field_snoc_of_eq_none hdefault hdata,
    method_snoc_of_eq_none hparam hopens, generics?_snoc_of_unopened (hopens p.token)]
  cases x.field? p.token <;> cases x.method? p.token <;> simp

/-- A deed that changes members or generic parameters and nothing else. -/
def AboutMembers (x : Deed) : Prop :=
  ∀ t, x.declaring? t = none ∧ x.base? t = none ∧ x.interface? t = none ∧ x.field? t = none ∧
    x.method? t = none ∧ x.property? t = none ∧ x.event? t = none

theorem AboutMembers.typeDraft_snoc (hx : AboutMembers x) (p : TypePlan) :
    typeDraft (h ++ [x]) p =
      { typeDraft h p with
        plan :=
          { (typeDraft h p).plan with
            generics := generics? (h ++ [x]) p.token
            fields := (all h (Deed.field? p.token)).map (field (h ++ [x]))
            methods := (all h (Deed.method? p.token)).map (method (h ++ [x])) } } := by
  obtain ⟨hdeclaring, hbase, hinterface, hfield, hmethod, hproperty, hevent⟩ := hx p.token
  simp only [typeDraft, last?_snoc, all_snoc, hdeclaring, hbase, hinterface, hfield, hmethod,
    hproperty, hevent, Option.none_or, Option.elim_none]

/-- A deed that changes fields. -/
theorem AboutMembers.typeDraft_snoc_onField (hx : AboutMembers x) (hparam : ∀ t, x.param? t = none)
    (hopens : ∀ t, x.opens t = false) {t : Token} {f : FieldPlan → FieldPlan}
    (hfield : ∀ y, field (h ++ [x]) y = if (field h y).token = t then f (field h y) else field h y)
    (p : TypePlan) : typeDraft (h ++ [x]) p = (typeDraft h p).onField t f := by
  have hfields : (all h (Deed.field? p.token)).map (field (h ++ [x])) =
      ((all h (Deed.field? p.token)).map (field h)).map
        fun y => if y.token = t then f y else y := by
    rw [Array.map_map]
    exact Array.map_congr_left fun y _ => hfield y
  rw [hx.typeDraft_snoc, hfields, method_snoc_of_eq_none hparam hopens,
    generics?_snoc_of_unopened (hopens p.token)]
  rfl

/-- A deed that changes methods. -/
theorem AboutMembers.typeDraft_snoc_onMethod (hx : AboutMembers x)
    (hdefault : ∀ t, x.default? t = none) (hdata : ∀ t, x.data? t = none)
    (hopens : ∀ t, x.opens t = false) {t : Token} {f : MethodPlan → MethodPlan}
    (hmethod : ∀ y,
      method (h ++ [x]) y = if (method h y).token = t then f (method h y) else method h y)
    (p : TypePlan) : typeDraft (h ++ [x]) p = (typeDraft h p).onMethod t f := by
  have hmethods : (all h (Deed.method? p.token)).map (method (h ++ [x])) =
      ((all h (Deed.method? p.token)).map (method h)).map fun y =>
        if y.token = t then f y else y := by
    rw [Array.map_map]
    exact Array.map_congr_left fun y _ => hmethod y
  rw [hx.typeDraft_snoc, hmethods, field_snoc_of_eq_none hdefault hdata,
    generics?_snoc_of_unopened (hopens p.token)]
  rfl

/-- A deed that changes generic parameters. -/
theorem AboutMembers.typeDraft_snoc_onOwner (hx : AboutMembers x)
    (hdefault : ∀ t, x.default? t = none) (hdata : ∀ t, x.data? t = none)
    (hparam : ∀ t, x.param? t = none) {owner : Token}
    (hopens : ∀ t, owner ≠ t → x.opens t = false) {f : Array GenericPlan → Array GenericPlan}
    (hgenerics : generics? (h ++ [x]) owner = some (f (params h owner))) (p : TypePlan) :
    typeDraft (h ++ [x]) p = (typeDraft h p).onOwner owner f := by
  have hmethod (m : MethodPlan) : method (h ++ [x]) m =
      if (method h m).token = owner then (method h m).mapGenerics f else method h m := by
    rw [method, all_snoc_of_eq_none (hparam m.token)]
    by_cases hm : owner = m.token
    · subst hm
      rw [hgenerics, ← getD_generics?]
      exact (if_pos rfl).symm
    · rw [generics?_snoc_of_unopened (hopens _ hm)]
      exact (if_neg (Ne.symm hm)).symm
  have hmethods : (all h (Deed.method? p.token)).map (method (h ++ [x])) =
      ((all h (Deed.method? p.token)).map (method h)).map fun m =>
        if m.token = owner then m.mapGenerics f else m := by
    rw [Array.map_map]
    exact Array.map_congr_left fun m _ => hmethod m
  rw [hx.typeDraft_snoc, hmethods, field_snoc_of_eq_none hdefault hdata]
  unfold TypeDraft.onOwner TypeDraft.onType
  by_cases hp : owner = p.token
  · subst hp
    rw [hgenerics, ← getD_generics?, if_pos (show (typeDraft h p).plan.token = p.token from rfl)]
    rfl
  · rw [generics?_snoc_of_unopened (hopens _ hp),
      if_neg (show (typeDraft h p).plan.token ≠ owner from Ne.symm hp)]
    rfl

/-- One deed more changes what the history tells as the deed says. -/
theorem typeDraft_snoc (hconstrained : Constrained h) (hx : Fits h x) (p : TypePlan) :
    typeDraft (h ++ [x]) p = x.apply (typeDraft h p) := by
  have htoken : (typeDraft h p).plan.token = p.token := rfl
  cases x with
  | addType =>
    exact typeDraft_snoc_of_eq_none (fun _ => rfl) (fun _ => rfl) (fun _ => rfl) fun _ => rfl
  | setDeclaring type | setBase type | addInterface type | addProperty type | addEvent type =>
    -- one list of the type gets an entry, and what is told of members stays
    rw [typeDraft_snoc_of_eq_none (fun _ => rfl) (fun _ => rfl) (fun _ => rfl) (fun _ => rfl)]
    unfold Deed.apply
    by_cases hp : type = p.token
    · simp only [Deed.declaring?, Deed.base?, Deed.interface?, Deed.property?, Deed.event?,
        TypeDraft.onType, htoken, hp, ↓reduceIte]
      rfl
    · simp only [Deed.declaring?, Deed.base?, Deed.interface?, Deed.property?, Deed.event?,
        TypeDraft.onType, htoken, hp, Ne.symm hp, ↓reduceIte]
      rfl
  | addField type f =>
    rw [typeDraft_snoc_of_eq_none (fun _ => rfl) (fun _ => rfl) (fun _ => rfl) (fun _ => rfl)]
    -- nothing has been done to the new field yet, so it is listed as it was added
    have hf : field h f = f := field_of_unnamed (hx.unnamed .field _ rfl) hx.bare
    unfold Deed.apply
    by_cases hp : type = p.token
    · simp only [Deed.field?, TypeDraft.onType, htoken, hp, ↓reduceIte, Option.elim_some, hf]
      rfl
    · simp only [Deed.field?, TypeDraft.onType, htoken, hp, Ne.symm hp, ↓reduceIte]
      rfl
  | addMethod type m =>
    rw [typeDraft_snoc_of_eq_none (fun _ => rfl) (fun _ => rfl) (fun _ => rfl) (fun _ => rfl)]
    have hm : method h m = m :=
      method_of_unnamed (hx.unnamed .method _ rfl) (hx.method_table type m rfl) hx.bare
    unfold Deed.apply
    by_cases hp : type = p.token
    · simp only [Deed.method?, TypeDraft.onType, htoken, hp, ↓reduceIte, Option.elim_some, hm]
      rfl
    · simp only [Deed.method?, TypeDraft.onType, htoken, hp, Ne.symm hp, ↓reduceIte]
      rfl
  | setFieldDefault t | setFieldData t =>
    refine AboutMembers.typeDraft_snoc_onField (fun _ => ⟨rfl, rfl, rfl, rfl, rfl, rfl, rfl⟩)
      (fun _ => rfl) (fun _ => rfl) (fun f => ?_) p
    by_cases hf : t = f.token
    · simp [field, last?_snoc, Deed.default?, Deed.data?, hf]
    · simp [field, last?_snoc, Deed.default?, Deed.data?, hf, Ne.symm hf]
  | addParam t =>
    refine AboutMembers.typeDraft_snoc_onMethod (fun _ => ⟨rfl, rfl, rfl, rfl, rfl, rfl, rfl⟩)
      (fun _ => rfl) (fun _ => rfl) (fun _ => rfl) (fun m => ?_) p
    rw [method, generics?_snoc_of_unopened rfl]
    by_cases hm : t = m.token
    · simp [method, all_snoc, Deed.param?, hm]
    · simp [method, all_snoc, Deed.param?, hm, Ne.symm hm]
  | openGenerics owner =>
    exact AboutMembers.typeDraft_snoc_onOwner (fun _ => ⟨rfl, rfl, rfl, rfl, rfl, rfl, rfl⟩)
      (fun _ => rfl) (fun _ => rfl) (fun _ => rfl) (fun _ => decide_eq_false)
      (generics?_openGenerics owner) p
  | addGeneric owner index name flags =>
    exact AboutMembers.typeDraft_snoc_onOwner (fun _ => ⟨rfl, rfl, rfl, rfl, rfl, rfl, rfl⟩)
      (fun _ => rfl) (fun _ => rfl) (fun _ => rfl) (fun _ => decide_eq_false)
      (generics?_addGeneric hconstrained owner index name flags) p
  | addConstraint owner index constraint =>
    exact AboutMembers.typeDraft_snoc_onOwner (fun _ => ⟨rfl, rfl, rfl, rfl, rfl, rfl, rfl⟩)
      (fun _ => rfl) (fun _ => rfl) (fun _ => rfl) (fun _ => decide_eq_false)
      (generics?_addConstraint owner index constraint) p

/-! ### All types -/

/-- The types as the history tells them, in the order of addition. -/
def types (h : List Deed) : List TypeDraft := (h.filterMap Deed.type?).map (typeDraft h)

theorem types_snoc (hconstrained : Constrained h) (hx : Fits h x) :
    types (h ++ [x]) = (types h).map x.apply ++ (x.type?.map ({ plan := · })).toList := by
  have hold (p : TypePlan) : typeDraft (h ++ [x]) p = (x.apply ∘ typeDraft h) p :=
    typeDraft_snoc hconstrained hx p
  unfold types
  rw [List.filterMap_append, List.map_append, List.map_map, List.map_congr_left fun p _ => hold p]
  congr 1
  cases x <;> try rfl
  case addType p =>
    have hnew : typeDraft (h ++ [.addType p]) p = { plan := p } :=
      (hold p).trans (typeDraft_of_unnamed (hx.unnamed .type _ rfl) (hx.type_table p rfl) hx.bare)
    exact congrArg (fun t => [t]) hnew

end History

end ClrImage
