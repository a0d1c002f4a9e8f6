import ClrImage.Blueprint.Draft
import ClrImage.Proofs.Growth

/-!
# Deeds

A draft keeps positions: of a type by its token, and of a field or method by its type and its place
in it. A request names entities by their tokens. What a request has done to a draft is a deed: it is
said in terms of tokens, for all types at a time.

- `Request`, `Draft.perform`: what can be asked of a draft.
- `Deed`, `Deed.of`: what a request has done, with the token or index that it was answered with.
- `Deed.apply`: a deed changes the entities that it names by token.
- `Draft.Indexed`: the positions that a draft keeps are those of the entities.
- `Indexed.modifyType`, `Indexed.modifyField`, `Indexed.modifyMethod`, `Indexed.withGenerics`: a
  change at the position of an entity is a change of what has its token.
-/

namespace ClrImage

/-! ## Requests and deeds -/

/-- What is asked of a draft. -/
inductive Request
  | addType (space name : String) (flags : TypeFlags) (flavor : Flavor)
  | setDeclaring (inner outer : Token)
  | setBase (type : Token) (base : TypeRef)
  | addInterface (type : Token) (interface : TypeRef)
  | declareGeneric (owner : Token) (index : UInt32) (name : String) (flags : GenericFlags)
  | addGeneric (owner : Token) (name : String) (flags : GenericFlags)
  | addConstraint (owner : Token) (index : UInt32) (constraint : TypeRef)
  | addField (type : Token) (name : String) (flags : FieldFlags) (fieldType : TypeRef)
  | setFieldDefault (field : Token) (value : Constant)
  | setFieldData (field : Token) (data : List UInt8)
  | addMethod (type : Token) (name : String) (flags : MethodFlags) (implFlags : MethodImplFlags)
      (returnType : TypeRef)
  | addParam (method : Token) (param : ParamPlan)
  | addProperty (type : Token) (name : String) (flags : PropertyFlags) (propertyType : TypeRef)
      (getter setter : Option Token)
  | addEvent (type : Token) (name : String) (flags : EventFlags) (eventType : TypeRef)
      (add remove raise : Option Token)

/-- What a request is answered with. -/
inductive Answer
  | done
  | token (token : Token)
  | index (index : UInt32)

namespace Draft

def perform : Request → Drafting Answer
  | .addType space name flags flavor => .token <$> addType space name flags flavor
  | .setDeclaring inner outer => (fun _ => .done) <$> setDeclaring inner outer
  | .setBase type base => (fun _ => .done) <$> setBase type base
  | .addInterface type interface => (fun _ => .done) <$> addInterface type interface
  | .declareGeneric owner index name flags =>
    (fun _ => .done) <$> declareGeneric owner index name flags
  | .addGeneric owner name flags => .index <$> addGeneric owner name flags
  | .addConstraint owner index constraint =>
    (fun _ => .done) <$> addConstraint owner index constraint
  | .addField type name flags fieldType => .token <$> addField type name flags fieldType
  | .setFieldDefault field value => (fun _ => .done) <$> setFieldDefault field value
  | .setFieldData field data => (fun _ => .done) <$> setFieldData field data
  | .addMethod type name flags implFlags returnType =>
    .token <$> addMethod type name flags implFlags returnType
  | .addParam method param => (fun _ => .done) <$> addParam method param
  | .addProperty type name flags propertyType getter setter =>
    .token <$> addProperty type name flags propertyType getter setter
  | .addEvent type name flags eventType add remove raise =>
    .token <$> addEvent type name flags eventType add remove raise

end Draft

/-- What a request has done to a draft. New entities are as they are added, with their tokens. -/
inductive Deed
  | addType (p : TypePlan)
  | setDeclaring (inner outer : Token)
  | setBase (type : Token) (base : TypeRef)
  | addInterface (type : Token) (interface : TypeRef)
  /-- The owner has got a list of generic parameters, if it had none. -/
  | openGenerics (owner : Token)
  | addGeneric (owner : Token) (index : UInt32) (name : String) (flags : GenericFlags)
  | addConstraint (owner : Token) (index : UInt32) (constraint : TypeRef)
  | addField (type : Token) (f : FieldPlan)
  | setFieldDefault (field : Token) (value : Constant)
  | setFieldData (field : Token) (data : List UInt8)
  | addMethod (type : Token) (m : MethodPlan)
  | addParam (method : Token) (param : ParamPlan)
  | addProperty (type : Token) (q : PropertyDraft)
  | addEvent (type : Token) (e : EventDraft)

namespace Deed

/-- What a request with an answer has done; a refused one has done nothing, but for a constraint of
a parameter that its owner does not declare. -/
def of (module : String) : Request → Except Failure Answer → Option Deed
  | .addType space name flags flavor, .ok (.token token) =>
    some (.addType { token, space, name, flags, flavor, module })
  | .setDeclaring inner outer, .ok _ => some (.setDeclaring inner outer)
  | .setBase type base, .ok _ => some (.setBase type base)
  | .addInterface type interface, .ok _ => some (.addInterface type interface)
  | .declareGeneric owner index name flags, .ok _ => some (.addGeneric owner index name flags)
  | .addGeneric owner name flags, .ok (.index index) => some (.addGeneric owner index name flags)
  | .addConstraint owner index constraint, .ok _ => some (.addConstraint owner index constraint)
  | .addConstraint owner _ _, .error (.flawed (.undeclaredGeneric _ _)) =>
    some (.openGenerics owner)
  | .addField type name flags fieldType, .ok (.token token) =>
    some (.addField type { token, name, flags, type := fieldType })
  | .setFieldDefault field value, .ok _ => some (.setFieldDefault field value)
  | .setFieldData field data, .ok _ => some (.setFieldData field data)
  | .addMethod type name flags implFlags returnType, .ok (.token token) =>
    some (.addMethod type { token, name, flags, implFlags, returnType })
  | .addParam method param, .ok _ => some (.addParam method param)
  | .addProperty type name flags propertyType getter setter, .ok (.token token) =>
    some (.addProperty type { token, name, flags, type := propertyType, getter, setter })
  | .addEvent type name flags eventType add remove raise, .ok (.token token) =>
    some (.addEvent type { token, name, flags, type := eventType, add, remove, raise })
  | _, _ => none

theorem of_error {module : String} {r : Request} {e : Failure}
    (he : ∀ owner index, e ≠ .flawed (.undeclaredGeneric owner index)) :
    of module r (.error e) = none := by
  unfold of
  split
  case h_8 heq => exact absurd (Except.error.inj heq) (he _ _)
  all_goals first | rfl | contradiction

end Deed

/-! ## Deeds by token -/

namespace TypeDraft

/-- Changes the type if it has the token. -/
def onType (token : Token) (f : TypePlan → TypePlan) (t : TypeDraft) : TypeDraft :=
  if t.plan.token = token then { t with plan := f t.plan } else t

/-- Changes the fields that have the token. -/
def onField (token : Token) (f : FieldPlan → FieldPlan) (t : TypeDraft) : TypeDraft :=
  { t with plan.fields := t.plan.fields.map fun x => if x.token = token then f x else x }

/-- Changes the methods that have the token. -/
def onMethod (token : Token) (f : MethodPlan → MethodPlan) (t : TypeDraft) : TypeDraft :=
  { t with plan.methods := t.plan.methods.map fun x => if x.token = token then f x else x }

end TypeDraft

/-- Changes the generic parameters of a type, which has a list of them from then on. -/
def TypePlan.mapGenerics (f : Array GenericPlan → Array GenericPlan) (p : TypePlan) : TypePlan :=
  { p with generics := some (f (p.generics.getD #[])) }

/-- Changes the generic parameters of a method, which has a list of them from then on. -/
def MethodPlan.mapGenerics (f : Array GenericPlan → Array GenericPlan) (m : MethodPlan) :
    MethodPlan :=
  { m with generics := some (f (m.generics.getD #[])) }

/-- Changes the generic parameters of the type and of its methods, if they have the token. -/
def TypeDraft.onOwner (token : Token) (f : Array GenericPlan → Array GenericPlan) (t : TypeDraft) :
    TypeDraft :=
  (t.onType token (.mapGenerics f)).onMethod token (.mapGenerics f)

/-- Adds a constraint to the first parameter that has the index. -/
def constrainFirst (index : UInt32) (constraint : TypeRef) (params : Array GenericPlan) :
    Array GenericPlan :=
  match params.findIdx? (·.index == index) with
  | some i => params.modify i fun p => { p with constraints := p.constraints.push constraint }
  | none => params

/-- Adds a parameter behind the others; its number is its position. -/
def pushGeneric (index : UInt32) (name : String) (flags : GenericFlags)
    (params : Array GenericPlan) : Array GenericPlan :=
  params.push { index, number := UInt16.ofNat params.size, name, flags }

namespace Deed

/-- What a deed does to any type that is there. -/
def apply : Deed → TypeDraft → TypeDraft
  | addType _ => id
  | setDeclaring inner outer => .onType inner fun p => { p with declaring := some outer }
  | setBase type base => .onType type fun p => { p with base := some base }
  | addInterface type interface =>
    .onType type fun p => { p with interfaces := p.interfaces.push interface }
  | openGenerics owner => .onOwner owner id
  | addGeneric owner index name flags => .onOwner owner (pushGeneric index name flags)
  | addConstraint owner index constraint => .onOwner owner (constrainFirst index constraint)
  | addField type f => .onType type fun p => { p with fields := p.fields.push f }
  | setFieldDefault field value => .onField field fun f => { f with default := some value }
  | setFieldData field data => .onField field fun f => { f with initialData := some data }
  | addMethod type m => .onType type fun p => { p with methods := p.methods.push m }
  | addParam method param => .onMethod method fun m => { m with params := m.params.push param }
  | addProperty type q => fun t =>
    if t.plan.token = type then { t with properties := t.properties.push q } else t
  | addEvent type e => fun t =>
    if t.plan.token = type then { t with events := t.events.push e } else t

end Deed

/-- The kinds of entities that get tokens of a draft. -/
inductive EntityKind
  | type | field | method | property | event
deriving DecidableEq

/-- The table whose tokens the entities get. -/
def EntityKind.table : EntityKind → UInt8
  | type => Table.typeDef
  | field => Table.field
  | method => Table.methodDef
  | property => Table.property
  | event => Table.event

namespace Deed

/-- The token of a new entity of a kind. -/
def adds? (k : EntityKind) : Deed → Option Token
  | addType p => if k = .type then some p.token else none
  | addField _ f => if k = .field then some f.token else none
  | addMethod _ m => if k = .method then some m.token else none
  | addProperty _ q => if k = .property then some q.token else none
  | addEvent _ e => if k = .event then some e.token else none
  | _ => none

/-- The plan of a new type. -/
def type? : Deed → Option TypePlan
  | addType p => some p
  | _ => none

/-- The tokens of a kind that a deed relies on. -/
def names (k : EntityKind) : Deed → List Token
  | addType _ => []
  | setDeclaring inner outer => if k = .type then [inner, outer] else []
  | setBase type _ | addInterface type _ | addField type _ | addMethod type _ =>
    if k = .type then [type] else []
  | openGenerics owner | addGeneric owner _ _ _ | addConstraint owner _ _ =>
    if k = (if owner.isIn Table.typeDef then .type else .method) then [owner] else []
  | setFieldDefault field _ | setFieldData field _ => if k = .field then [field] else []
  | addParam method _ => if k = .method then [method] else []
  | addProperty type q =>
    if k = .type then [type] else if k = .method then q.getter.toList ++ q.setter.toList else []
  | addEvent type e =>
    if k = .type then [type]
    else if k = .method then e.add.toList ++ e.remove.toList ++ e.raise.toList else []

end Deed

/-! ## Positions -/

/-- The tokens of a type, of its fields and of its methods. -/
structure Shape where
  type : Token
  fields : List Token
  methods : List Token

def TypeDraft.shape (t : TypeDraft) : Shape :=
  ⟨t.plan.token, t.plan.fields.toList.map (·.token), t.plan.methods.toList.map (·.token)⟩

namespace TypeDraft

variable {token : Token}

theorem shape_onType {f : TypePlan → TypePlan}
    (hf : ∀ p properties events, (⟨f p, properties, events⟩ : TypeDraft).shape =
      (⟨p, properties, events⟩ : TypeDraft).shape) (t : TypeDraft) :
    (t.onType token f).shape = t.shape := by
  unfold onType
  split
  · exact hf _ _ _
  · rfl

theorem shape_onField {f : FieldPlan → FieldPlan} (hf : ∀ x, (f x).token = x.token)
    (t : TypeDraft) : (t.onField token f).shape = t.shape := by
  simp only [shape, onField, Array.toList_map, List.map_map]
  congr 2
  funext x
  exact (apply_ite FieldPlan.token ..).trans (by rw [hf, ite_self])

theorem shape_onMethod {f : MethodPlan → MethodPlan} (hf : ∀ x, (f x).token = x.token)
    (t : TypeDraft) : (t.onMethod token f).shape = t.shape := by
  simp only [shape, onMethod, Array.toList_map, List.map_map]
  congr 2
  funext x
  exact (apply_ite MethodPlan.token ..).trans (by rw [hf, ite_self])

theorem shape_onOwner (f : Array GenericPlan → Array GenericPlan) (t : TypeDraft) :
    (t.onOwner token f).shape = t.shape :=
  (shape_onMethod (by exact fun _ => rfl) _).trans (shape_onType (by exact fun _ _ _ => rfl) t)

end TypeDraft

/-- What becomes of the tokens of a type: a new field or method comes behind the others. -/
def Deed.grow : Deed → Shape → Shape
  | addField type f, s => if s.type = type then { s with fields := s.fields ++ [f.token] } else s
  | addMethod type m, s => if s.type = type then { s with methods := s.methods ++ [m.token] } else s
  | _, s => s

theorem Deed.shape_apply (x : Deed) (t : TypeDraft) : (x.apply t).shape = x.grow t.shape := by
  cases x with
  | addType => rfl
  | setDeclaring | setBase | addInterface =>
    exact TypeDraft.shape_onType (by exact fun _ _ _ => rfl) t
  | openGenerics | addGeneric | addConstraint => exact TypeDraft.shape_onOwner _ t
  | setFieldDefault | setFieldData => exact TypeDraft.shape_onField (by exact fun _ => rfl) t
  | addParam => exact TypeDraft.shape_onMethod (by exact fun _ => rfl) t
  | addField type f =>
    by_cases ht : t.plan.token = type <;>
      simp [apply, grow, TypeDraft.onType, TypeDraft.shape, ht]
  | addMethod type m =>
    by_cases ht : t.plan.token = type <;>
      simp [apply, grow, TypeDraft.onType, TypeDraft.shape, ht]
  | addProperty type | addEvent type =>
    by_cases ht : t.plan.token = type <;> simp [apply, grow, TypeDraft.shape, ht]

namespace Draft

/-- The tokens of all types with their fields and methods, in order. -/
def shapes (d : Draft) : List Shape := d.types.toList.map TypeDraft.shape

/-- The positions that a draft keeps are those of its types, fields and methods. -/
structure Indexed (d : Draft) : Prop where
  type : ∀ (token : Token) (i : Nat),
    d.typePlaces[token]? = some i ↔ ∃ x, d.shapes[i]? = some x ∧ x.type = token
  field : ∀ (token : Token) (place : Place), d.fieldPlaces[token]? = some place ↔
    ∃ x, d.shapes[place.type]? = some x ∧ x.fields[place.member]? = some token
  method : ∀ (token : Token) (place : Place), d.methodPlaces[token]? = some place ↔
    ∃ x, d.shapes[place.type]? = some x ∧ x.methods[place.member]? = some token
  types_table : ∀ x ∈ d.shapes, x.type.isIn Table.typeDef = true
  methods_table : ∀ x ∈ d.shapes, ∀ token ∈ x.methods, token.isIn Table.typeDef = false

/-- Positions depend on tokens only. -/
theorem Indexed.of_shapes {d d' : Draft} (hd : d.Indexed) (hshapes : d'.shapes = d.shapes)
    (htypes : d'.typePlaces = d.typePlaces) (hfields : d'.fieldPlaces = d.fieldPlaces)
    (hmethods : d'.methodPlaces = d.methodPlaces) : d'.Indexed where
  type := by rw [hshapes, htypes]; exact hd.type
  field := by rw [hshapes, hfields]; exact hd.field
  method := by rw [hshapes, hmethods]; exact hd.method
  types_table := by rw [hshapes]; exact hd.types_table
  methods_table := by rw [hshapes]; exact hd.methods_table

theorem getElem?_shapes (d : Draft) (i : Nat) :
    d.shapes[i]? = (d.types[i]?).map TypeDraft.shape := by
  rw [shapes, List.getElem?_map, Array.getElem?_toList]

end Draft

/-- Changing one element is changing, alike, all elements that are told from others by their
position. -/
theorem modify_eq_map {α : Type} {a : Array α} {i : Nat} {f g : α → α}
    (h : ∀ j x, a[j]? = some x → g x = if j = i then f x else x) : a.modify i f = a.map g := by
  refine Array.ext_getElem? fun j => ?_
  rw [Array.getElem?_modify, Array.getElem?_map]
  cases hj : a[j]? with
  | none => simp
  | some x =>
    rw [Option.map_some, Option.map_some, h j x hj]
    by_cases hij : j = i
    · rw [if_pos hij, if_pos hij.symm]
    · rw [if_neg hij, if_neg (Ne.symm hij)]

/-- It only matters what becomes of the element that is there. -/
theorem modify_congr {α : Type} {a : Array α} {i : Nat} {f g : α → α}
    (h : ∀ x, a[i]? = some x → f x = g x) : a.modify i f = a.modify i g := by
  refine Array.ext_getElem? fun j => ?_
  rw [Array.getElem?_modify, Array.getElem?_modify]
  split
  next hij =>
    subst hij
    cases hx : a[i]? with
    | none => rfl
    | some x => rw [Option.map_some, Option.map_some, h x hx]
  next => rfl

namespace Draft

variable {d : Draft} {token : Token} {i : Nat} {place : Place}

/-- A type is told from others by its token. -/
theorem Indexed.type_eq_iff (hd : d.Indexed) {j : Nat} {s : Shape}
    (hplace : d.typePlaces[token]? = some i) (hs : d.shapes[j]? = some s) :
    s.type = token ↔ j = i := by
  constructor
  · intro heq
    exact Option.some.inj (((hd.type token j).mpr ⟨s, hs, heq⟩).symm.trans hplace)
  · rintro rfl
    obtain ⟨x, hx, htoken⟩ := (hd.type token j).mp hplace
    exact Option.some.inj (hs.symm.trans hx) ▸ htoken

/-- A change at the position of a type changes what has its token. -/
theorem Indexed.modifyType (hd : d.Indexed) (hplace : d.typePlaces[token]? = some i)
    (f : TypeDraft → TypeDraft) :
    d.types.modify i f = d.types.map fun t => if t.plan.token = token then f t else t := by
  refine modify_eq_map fun j t ht => ?_
  have hj : d.shapes[j]? = some t.shape := by rw [getElem?_shapes, ht]; rfl
  have hiff : t.plan.token = token ↔ j = i := hd.type_eq_iff hplace hj
  simp only [hiff]

/-- A change at the position of a member changes what has its token. The members of a kind are
those that `get` and `set` say, with the tokens `tokens` in the shape of their type. -/
theorem modifyMember {α : Type} (get : TypeDraft → Array α) (set : TypeDraft → Array α → TypeDraft)
    (tokenOf : α → Token) (tokens : Shape → List Token)
    (hset : ∀ t, set t (get t) = t)
    (htokens : ∀ t, tokens t.shape = (get t).toList.map tokenOf)
    {places : Std.TreeMap Token Place compare}
    (hplaces : ∀ (token : Token) (place : Place), places[token]? = some place ↔
      ∃ x, d.shapes[place.type]? = some x ∧ (tokens x)[place.member]? = some token)
    (hplace : places[token]? = some place) (f : α → α) :
    (d.types.modify place.type fun t => set t ((get t).modify place.member f)) =
      d.types.map fun t => set t ((get t).map fun x => if tokenOf x = token then f x else x) := by
  have hiff {j k : Nat} {t : TypeDraft} {x : α} (ht : d.types[j]? = some t)
      (hx : (get t)[k]? = some x) : tokenOf x = token ↔ j = place.type ∧ k = place.member := by
    have hj : d.shapes[j]? = some t.shape := by rw [getElem?_shapes, ht]; rfl
    have hk : (tokens t.shape)[k]? = some (tokenOf x) := by
      rw [htokens, List.getElem?_map, Array.getElem?_toList, hx]
      rfl
    constructor
    · rintro rfl
      obtain rfl := Option.some.inj (((hplaces _ ⟨j, k⟩).mpr ⟨_, hj, hk⟩).symm.trans hplace)
      exact ⟨rfl, rfl⟩
    · rintro ⟨rfl, rfl⟩
      obtain ⟨y, hy, htoken⟩ := (hplaces token place).mp hplace
      obtain rfl := Option.some.inj (hj.symm.trans hy)
      exact Option.some.inj (hk.symm.trans htoken)
  refine modify_eq_map fun j t ht => ?_
  -- in the type at the place one member has the token, in all others none
  by_cases hj : j = place.type
  · rw [if_pos hj]
    congr 1
    exact (modify_eq_map fun k x hx => by simp only [hiff ht hx, hj, true_and]).symm
  · rw [if_neg hj]
    have hid : (get t).map (fun x => if tokenOf x = token then f x else x) = get t := by
      refine Array.ext_getElem? fun k => ?_
      rw [Array.getElem?_map]
      cases hx : (get t)[k]? with
      | none => rfl
      | some x => simp [hiff ht hx, hj]
    rw [hid, hset]

theorem Indexed.modifyField (hd : d.Indexed) (hplace : d.fieldPlaces[token]? = some place)
    (f : FieldPlan → FieldPlan) :
    (d.types.modify place.type fun t =>
      { t with plan.fields := t.plan.fields.modify place.member f }) =
      d.types.map (.onField token f) :=
  modifyMember (fun t => t.plan.fields) (fun t fields => { t with plan.fields := fields })
    (·.token) Shape.fields (fun _ => rfl) (fun _ => rfl) hd.field hplace f

theorem Indexed.modifyMethod (hd : d.Indexed) (hplace : d.methodPlaces[token]? = some place)
    (f : MethodPlan → MethodPlan) :
    (d.types.modify place.type fun t =>
      { t with plan.methods := t.plan.methods.modify place.member f }) =
      d.types.map (.onMethod token f) :=
  modifyMember (fun t => t.plan.methods) (fun t methods => { t with plan.methods := methods })
    (·.token) Shape.methods (fun _ => rfl) (fun _ => rfl) hd.method hplace f

end Draft

/-! ## Runs of operations -/

namespace Drafting

variable {α β : Type}

/-- What an operation answers, and the draft behind it. -/
def outcome (step : Drafting α) (d : Draft) : Except Failure α × Draft := step.run.run d

variable (d : Draft)

@[simp] theorem outcome_pure (a : α) : outcome (pure a) d = (.ok a, d) := rfl

@[simp] theorem outcome_throw (e : Failure) :
    outcome (throw e : Drafting α) d = (.error e, d) := rfl

@[simp] theorem outcome_get : outcome get d = (.ok d, d) := rfl

@[simp] theorem outcome_modify (f : Draft → Draft) : outcome (modify f) d = (.ok (), f d) := rfl

/-- A refusal ends a sequence of operations. -/
theorem outcome_bind (step : Drafting α) (next : α → Drafting β) :
    outcome (step >>= next) d =
      match outcome step d with
      | (.ok a, d') => outcome (next a) d'
      | (.error e, d') => (.error e, d') := by
  unfold outcome ExceptT.run StateT.run
  simp only [bind, ExceptT.bind, ExceptT.mk, StateT.bind, ExceptT.bindCont]
  rcases step d with ⟨_ | _, d'⟩ <;> rfl

theorem outcome_map (f : α → β) (step : Drafting α) :
    outcome (f <$> step) d = ((outcome step d).1.map f, (outcome step d).2) := by
  unfold outcome ExceptT.run StateT.run
  simp only [Functor.map, ExceptT.map, ExceptT.mk, bind, StateT.bind]
  rcases step d with ⟨_ | _, d'⟩ <;> rfl

theorem outcome_get_bind (next : Draft → Drafting β) :
    outcome (get >>= next) d = outcome (next d) d := by
  rw [outcome_bind, outcome_get]

end Drafting

namespace Draft

open Drafting

variable {α : Type} (d : Draft) (token : Token)

/-- An operation on a type is done at its position, or refused. -/
theorem outcome_typePlace_bind (next : Nat → Drafting α) :
    outcome (typePlace token >>= next) d =
      match d.typePlaces[token]? with
      | some place => outcome (next place) d
      | none => (.error (.flawed (.unknownType token)), d) := by
  unfold typePlace
  rw [bind_assoc, outcome_get_bind]
  cases d.typePlaces[token]? <;> simp

theorem outcome_fieldPlace_bind (next : Place → Drafting α) :
    outcome (fieldPlace token >>= next) d =
      match d.fieldPlaces[token]? with
      | some place => outcome (next place) d
      | none => (.error (.flawed (.unknownField token)), d) := by
  unfold fieldPlace
  rw [bind_assoc, outcome_get_bind]
  cases d.fieldPlaces[token]? <;> simp

theorem outcome_methodPlace_bind (next : Place → Drafting α) :
    outcome (methodPlace token >>= next) d =
      match d.methodPlaces[token]? with
      | some place => outcome (next place) d
      | none => (.error (.flawed (.unknownMethod token)), d) := by
  unfold methodPlace
  rw [bind_assoc, outcome_get_bind]
  cases d.methodPlaces[token]? <;> simp

/-- The outer type is only looked for. -/
theorem setDeclaring_eq (inner outer : Token) :
    setDeclaring inner outer = typePlace outer >>= fun _ => typePlace inner >>= fun place =>
      modifyPlan place fun p => { p with declaring := some outer } := by
  simp [setDeclaring, discard, Functor.discard, map_const]

/-- Why an accessor is refused: the draft has no such method. -/
def refusal? (d : Draft) : (accessor : Option Token) → Option Failure
  | some token =>
    if (d.methodPlaces[token]?).isSome then none else some (.flawed (.unknownMethod token))
  | none => none

theorem outcome_checkAccessor_bind (accessor : Option Token) (next : Unit → Drafting α) :
    outcome (checkAccessor accessor >>= next) d =
      match d.refusal? accessor with
      | none => outcome (next ()) d
      | some e => (.error e, d) := by
  cases accessor with
  | none => simp [checkAccessor, refusal?]
  | some token =>
    have hdiscard : (checkAccessor (some token) >>= next) =
        methodPlace token >>= fun _ => next () := by
      simp [checkAccessor, discard, Functor.discard, map_const]
    rw [hdiscard, outcome_methodPlace_bind, refusal?]
    cases d.methodPlaces[token]? <;> rfl

end Draft

/-! ## Generic parameters at a place -/

namespace Draft

open Drafting

variable {α : Type} {d : Draft} {owner : Token} {place : GenericPlace}
  {f g : Array GenericPlan → Array GenericPlan}

/-- The draft with the generic parameters at a place changed. -/
def withGenerics (d : Draft) :
    GenericPlace → (Array GenericPlan → Array GenericPlan) → Draft
  | .type i, f =>
    { d with types := d.types.modify i fun t => { t with plan := t.plan.mapGenerics f } }
  | .method place, f =>
    { d with types := d.types.modify place.type fun t =>
        { t with plan.methods := t.plan.methods.modify place.member (.mapGenerics f) } }

theorem outcome_modifyGenerics (d : Draft) (place : GenericPlace)
    (f : Array GenericPlan → Array GenericPlan) :
    outcome (modifyGenerics place f) d = (.ok (), d.withGenerics place f) := by
  cases place <;> rfl

/-- The place is that of the generic parameters of an owner. -/
def OwnerAt (d : Draft) (owner : Token) : GenericPlace → Prop
  | .type i => owner.isIn Table.typeDef = true ∧ d.typePlaces[owner]? = some i
  | .method place => owner.isIn Table.typeDef = false ∧ d.methodPlaces[owner]? = some place

/-- Where the generic parameters of an owner are, or why it has none. -/
def ownerPlace (d : Draft) (owner : Token) : Except Failure GenericPlace :=
  if owner.isIn Table.typeDef then
    (d.typePlaces[owner]?).elim (.error (.flawed (.unknownType owner))) (.ok <| .type ·)
  else if owner.isIn Table.methodDef then
    (d.methodPlaces[owner]?).elim (.error (.flawed (.unknownMethod owner))) (.ok <| .method ·)
  else .error (.flawed (.cannotOwnGenerics owner))

/-- An operation on generic parameters is done at the place of the owner, or refused. -/
theorem outcome_genericPlace_bind (d : Draft) (owner : Token) (next : GenericPlace → Drafting α) :
    outcome (genericPlace owner >>= next) d =
      match d.ownerPlace owner with
      | .ok place => outcome (next place) d
      | .error e => (.error e, d) := by
  unfold genericPlace ownerPlace
  split
  · rw [bind_map_left, outcome_typePlace_bind]
    cases d.typePlaces[owner]? <;> rfl
  · split
    · rw [bind_map_left, outcome_methodPlace_bind]
      cases d.methodPlaces[owner]? <;> rfl
    · rw [outcome_bind]
      rfl

theorem ownerAt_of_ownerPlace (hplace : d.ownerPlace owner = .ok place) :
    d.OwnerAt owner place := by
  unfold ownerPlace at hplace
  split at hplace
  next htable =>
    cases htype : d.typePlaces[owner]? with
    | none =>
      rw [htype] at hplace
      cases hplace
    | some i =>
      rw [htype] at hplace
      cases hplace
      exact ⟨htable, htype⟩
  next htable =>
    split at hplace
    · cases hmethod : d.methodPlaces[owner]? with
      | none =>
        rw [hmethod] at hplace
        cases hplace
      | some i =>
        rw [hmethod] at hplace
        cases hplace
        exact ⟨eq_false_of_ne_true htable, hmethod⟩
    · cases hplace

/-- Whoever finds no owner has not looked for a parameter yet. -/
theorem ownerPlace_ne_undeclaredGeneric (d : Draft) (owner o : Token) (i : UInt32) :
    d.ownerPlace owner ≠ .error (.flawed (.undeclaredGeneric o i)) := by
  unfold ownerPlace
  split
  · cases d.typePlaces[owner]? <;> nofun
  · split
    · cases d.methodPlaces[owner]? <;> nofun
    · nofun

/-- What is at the place of an owner. -/
theorem Indexed.exists_type (hd : d.Indexed) {token : Token} {i : Nat}
    (hplace : d.typePlaces[token]? = some i) :
    ∃ t, d.types[i]? = some t ∧ t.plan.token = token := by
  obtain ⟨x, hx, rfl⟩ := (hd.type token i).mp hplace
  rw [getElem?_shapes] at hx
  obtain ⟨t, ht, rfl⟩ := Option.map_eq_some_iff.mp hx
  exact ⟨t, ht, rfl⟩

theorem Indexed.exists_method (hd : d.Indexed) {token : Token} {place : Place}
    (hplace : d.methodPlaces[token]? = some place) :
    ∃ t m, d.types[place.type]? = some t ∧ t.plan.methods[place.member]? = some m ∧
      m.token = token := by
  obtain ⟨x, hx, hm⟩ := (hd.method token place).mp hplace
  rw [getElem?_shapes] at hx
  obtain ⟨t, ht, rfl⟩ := Option.map_eq_some_iff.mp hx
  simp only [TypeDraft.shape, List.getElem?_map, Array.getElem?_toList] at hm
  obtain ⟨m, hget, htoken⟩ := Option.map_eq_some_iff.mp hm
  exact ⟨t, m, ht, hget, htoken⟩

theorem generics_withGenerics (hd : d.Indexed) (hat : d.OwnerAt owner place) :
    (d.withGenerics place f).generics place = f (d.generics place) := by
  cases place with
  | type i =>
    obtain ⟨t, ht, -⟩ := hd.exists_type hat.2
    simp [withGenerics, generics, TypePlan.mapGenerics, Array.getElem?_modify, ht]
  | method place =>
    obtain ⟨t, m, ht, hm, -⟩ := hd.exists_method hat.2
    simp [withGenerics, generics, MethodPlan.mapGenerics, Array.getElem?_modify, ht, hm]

/-- It only matters what becomes of the parameters that are there. -/
theorem withGenerics_congr (h : f (d.generics place) = g (d.generics place)) :
    d.withGenerics place f = d.withGenerics place g := by
  cases place with
  | type i =>
    have htypes := modify_congr (a := d.types) (i := i)
      (f := fun t => { t with plan := t.plan.mapGenerics f })
      (g := fun t => { t with plan := t.plan.mapGenerics g }) fun t ht => by
        have h : f (t.plan.generics.getD #[]) = g (t.plan.generics.getD #[]) := by
          simpa [generics, ht] using h
        simp only [TypePlan.mapGenerics, h]
    exact congrArg (fun types => { d with types }) htypes
  | method place =>
    have htypes := modify_congr (a := d.types) (i := place.type)
      (f := fun t =>
        { t with plan.methods := t.plan.methods.modify place.member (.mapGenerics f) })
      (g := fun t =>
        { t with plan.methods := t.plan.methods.modify place.member (.mapGenerics g) })
      fun t ht => by
        have hmethods := modify_congr (a := t.plan.methods) (i := place.member)
          (f := .mapGenerics f) (g := .mapGenerics g) fun m hm => by
            have h : f (m.generics.getD #[]) = g (m.generics.getD #[]) := by
              simpa [generics, ht, hm] using h
            simp only [MethodPlan.mapGenerics, h]
        simp only [hmethods]
    exact congrArg (fun types => { d with types }) htypes

/-- A change at the place of an owner changes what has its token. -/
theorem Indexed.withGenerics (hd : d.Indexed) (hat : d.OwnerAt owner place)
    (f : Array GenericPlan → Array GenericPlan) :
    d.withGenerics place f = { d with types := d.types.map (.onOwner owner f) } := by
  have hshape {t : TypeDraft} (ht : t ∈ d.types) : t.shape ∈ d.shapes :=
    List.mem_map_of_mem (Array.mem_toList_iff.mpr ht)
  cases place with
  | type i =>
    refine congrArg (fun types => { d with types }) ((hd.modifyType hat.2 _).trans ?_)
    refine Array.map_congr_left fun t ht => ?_
    -- no method has a token of the table of types
    have hid : t.plan.methods.map (fun m => if m.token = owner then m.mapGenerics f else m) =
        t.plan.methods := by
      refine (Array.map_congr_left fun m hm => if_neg ?_).trans (Array.map_id _)
      rintro rfl
      have htable := hd.methods_table _ (hshape ht) m.token
        (List.mem_map_of_mem (Array.mem_toList_iff.mpr hm))
      rw [hat.1] at htable
      cases htable
    unfold TypeDraft.onOwner TypeDraft.onType TypeDraft.onMethod
    split
    · exact congrArg (fun methods => { t with plan := { t.plan.mapGenerics f with methods } })
        hid.symm
    · exact congrArg (fun methods => { t with plan.methods := methods }) hid.symm
  | method place =>
    refine congrArg (fun types => { d with types }) ((hd.modifyMethod hat.2 _).trans ?_)
    refine Array.map_congr_left fun t ht => ?_
    -- no type has a token outside its table
    unfold TypeDraft.onOwner TypeDraft.onType
    rw [if_neg]
    rintro rfl
    have htable := hd.types_table _ (hshape ht)
    rw [show t.shape.type = t.plan.token from rfl, hat.1] at htable
    cases htable

theorem onOwner_onOwner (owner : Token) (f g : Array GenericPlan → Array GenericPlan)
    (t : TypeDraft) : (t.onOwner owner f).onOwner owner g = t.onOwner owner (g ∘ f) := by
  have hmethods (l : Array MethodPlan) :
      (l.map fun m => if m.token = owner then m.mapGenerics f else m).map
        (fun m => if m.token = owner then m.mapGenerics g else m) =
      l.map fun m => if m.token = owner then m.mapGenerics (g ∘ f) else m := by
    rw [Array.map_map]
    refine Array.map_congr_left fun m _ => ?_
    by_cases hm : m.token = owner <;> simp [hm, MethodPlan.mapGenerics]
  by_cases ht : t.plan.token = owner <;>
    simp [TypeDraft.onOwner, TypeDraft.onType, TypeDraft.onMethod, TypePlan.mapGenerics, ht,
      ← hmethods]

end Draft

end ClrImage
