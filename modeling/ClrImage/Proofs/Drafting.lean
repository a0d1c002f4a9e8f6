import ClrImage.Proofs.Deeds

/-!
# What requests do to a draft

- `Draft.Does`: a deed has been done to a draft.
- `perform_cases`: a request does nothing, or one deed.
-/

namespace ClrImage

/-! ## What a request does -/

namespace Deed

/-- The position of a new field. -/
def fieldPlace? (d : Draft) : Deed → Option (Token × Place)
  | addField type f => (d.typePlaces[type]?).map fun i =>
    (f.token, ⟨i, ((d.types[i]?).map (·.plan.fields.size)).getD 0⟩)
  | _ => none

/-- The position of a new method. -/
def methodPlace? (d : Draft) : Deed → Option (Token × Place)
  | addMethod type m => (d.typePlaces[type]?).map fun i =>
    (m.token, ⟨i, ((d.types[i]?).map (·.plan.methods.size)).getD 0⟩)
  | _ => none

/-- The index of a new generic parameter. -/
def index? : Deed → Option UInt32
  | addGeneric _ index _ _ => some index
  | _ => none

/-- A new entity has nothing yet but what it is added with. -/
def Bare : Deed → Prop
  | addType p => p = { token := p.token, space := p.space, name := p.name, flags := p.flags
                       flavor := p.flavor, module := p.module }
  | addField _ f => f.default = none ∧ f.initialData = none
  | addMethod _ m => m.params = #[] ∧ m.generics = none
  | _ => True

/-- Nothing is added that has a token or an index of its own. -/
def Quiet : Deed → Prop
  | setDeclaring _ _ | setBase _ _ | addInterface _ _ | openGenerics _ | addConstraint _ _ _
  | setFieldDefault _ _ | setFieldData _ _ | addParam _ _ => True
  | _ => False

end Deed

namespace Draft

open Drafting

/-- The number of the row that the next entity of a kind gets. -/
def next (d : Draft) : EntityKind → UInt32
  | .type => UInt32.ofNat d.types.size + 1
  | .field => d.nextField
  | .method => d.nextMethod
  | .property => d.nextProperty
  | .event => d.nextEvent

/-- The draft keeps a position for the token. -/
def Has (d : Draft) (k : EntityKind) (token : Token) : Prop :=
  match k with
  | .type => (d.typePlaces[token]?).isSome = true
  | .field => (d.fieldPlaces[token]?).isSome = true
  | .method => (d.methodPlaces[token]?).isSome = true
  | _ => False

/-- A deed has been done to a draft. -/
structure Does (d : Draft) (x : Deed) (d' : Draft) : Prop where
  module : d'.module = d.module
  types : d'.types =
    x.type?.elim (d.types.map x.apply) fun p => (d.types.map x.apply).push { plan := p }
  typePlaces : d'.typePlaces =
    x.type?.elim d.typePlaces fun p => d.typePlaces.insert p.token d.types.size
  fieldPlaces : d'.fieldPlaces =
    (x.fieldPlace? d).elim d.fieldPlaces fun e => d.fieldPlaces.insert e.1 e.2
  methodPlaces : d'.methodPlaces =
    (x.methodPlace? d).elim d.methodPlaces fun e => d.methodPlaces.insert e.1 e.2
  next : ∀ k, d'.next k = if (x.adds? k).isSome then d.next k + 1 else d.next k
  /-- A new entity gets the next row of its table. -/
  token : ∀ k t, x.adds? k = some t → t = Token.ofParts k.table (d.next k)
  bare : x.Bare
  nextGeneric : d'.nextGeneric =
    x.index?.elim d.nextGeneric fun index => max d.nextGeneric (index + 1)
  /-- A deed is only done to entities that are there. -/
  named : ∀ k, ∀ t ∈ x.names k, d.Has k t
  /-- Only declared parameters get constraints. -/
  declared : ∀ owner index constraint, x = .addConstraint owner index constraint →
    ∃ place, d.OwnerAt owner place ∧ ∃ g ∈ d.generics place, g.index = index

variable {d : Draft} {x : Deed}

theorem has_type {token : Token} {i : Nat} (hplace : d.typePlaces[token]? = some i) :
    d.Has .type token := by
  rw [Has, hplace]
  rfl

/-- A deed that names one entity names only what the draft has, if it has that entity. -/
theorem Has.named {k : EntityKind} {token : Token} (hhas : d.Has k token)
    (hnames : ∀ k', x.names k' = if k' = k then [token] else []) :
    ∀ k', ∀ t ∈ x.names k', d.Has k' t := by
  intro k' t ht
  rw [hnames] at ht
  split at ht
  next hk =>
    rw [hk, List.mem_singleton.mp ht]
    exact hhas
  next => cases ht

/-- A deed that adds one entity gives it the next row of its table, if it is given its token. -/
theorem token_of_adds? {k : EntityKind}
    (hadds : ∀ k', x.adds? k' =
      if k' = k then some (Token.ofParts k.table (d.next k)) else none) :
    ∀ k' t, x.adds? k' = some t → t = Token.ofParts k'.table (d.next k') := by
  intro k' t ht
  rw [hadds] at ht
  split at ht
  next hk => rw [hk, Option.some.inj ht]
  next => cases ht

/-- A deed that only changes what is there. -/
theorem Does.of_quiet (hquiet : x.Quiet) {types : Array TypeDraft}
    (htypes : types = d.types.map x.apply) (hnamed : ∀ k, ∀ t ∈ x.names k, d.Has k t)
    (hdeclared : ∀ owner index constraint, x = .addConstraint owner index constraint →
      ∃ place, d.OwnerAt owner place ∧ ∃ g ∈ d.generics place, g.index = index) :
    d.Does x { d with types } := by
  subst htypes
  have hsize : (d.types.map x.apply).size = d.types.size := Array.size_map
  cases x <;> first
    | exact hquiet.elim
    | exact {
        module := rfl, typePlaces := rfl, fieldPlaces := rfl, methodPlaces := rfl
        nextGeneric := rfl, bare := trivial, named := hnamed, declared := hdeclared
        types := rfl
        next := fun k => by cases k <;> simp [Deed.adds?, Draft.next]
        token := fun k t ht => by simp [Deed.adds?] at ht }

/-- A request does nothing, or one deed. -/
def DoesAtMost (d : Draft) (r : Request) : Prop :=
  (Deed.of d.module r (outcome (perform r) d).1 = none ∧ (outcome (perform r) d).2 = d) ∨
    ∃ x, Deed.of d.module r (outcome (perform r) d).1 = some x ∧
      d.Does x (outcome (perform r) d).2

/-- A request that looks for one entity and, at its place, only changes what is there. -/
theorem DoesAtMost.of_change {r : Request} {β : Type} (place? : Option β)
    (types : β → Array TypeDraft) {e : Failure}
    (hperform : outcome (perform r) d =
      match place? with
      | some place => (.ok .done, { d with types := types place })
      | none => (.error e, d))
    (hok : Deed.of d.module r (.ok .done) = some x)
    (herror : Deed.of d.module r (.error e) = none) (hquiet : x.Quiet)
    (htypes : ∀ place, place? = some place → types place = d.types.map x.apply)
    (hnamed : place?.isSome = true → ∀ k, ∀ t ∈ x.names k, d.Has k t)
    (hdeclared : ∀ owner index constraint, x ≠ .addConstraint owner index constraint) :
    d.DoesAtMost r := by
  unfold DoesAtMost
  rw [hperform]
  cases hplace : place? with
  | none => exact .inl ⟨herror, rfl⟩
  | some place =>
    exact .inr ⟨x, hok, .of_quiet hquiet (htypes place hplace) (hnamed (hplace ▸ rfl))
      fun _ _ _ heq => absurd heq (hdeclared _ _ _)⟩

/-- A request that changes a plan at the position of a type. -/
theorem DoesAtMost.of_type (hd : d.Indexed) {r : Request} {token : Token}
    {f : TypePlan → TypePlan}
    (hperform : perform r =
      (fun _ => .done) <$> (typePlace token >>= fun place => modifyPlan place f))
    (hok : Deed.of d.module r (.ok .done) = some x)
    (herror : Deed.of d.module r (.error (.flawed (.unknownType token))) = none)
    (hquiet : x.Quiet) (happly : x.apply = .onType token f)
    (hnames : ∀ k, x.names k = if k = .type then [token] else [])
    (hdeclared : ∀ owner index constraint, x ≠ .addConstraint owner index constraint) :
    d.DoesAtMost r := by
  refine .of_change d.typePlaces[token]?
    (fun i => d.types.modify i fun t => { t with plan := f t.plan }) ?_ hok herror hquiet
    (fun _ hplace => happly ▸ hd.modifyType hplace _)
    (fun hhas => Has.named (k := .type) hhas hnames) hdeclared
  rw [hperform, outcome_map, outcome_typePlace_bind]
  cases d.typePlaces[token]? <;> rfl

/-- A request that changes a field. -/
theorem DoesAtMost.of_field (hd : d.Indexed) {r : Request} {token : Token}
    {f : FieldPlan → FieldPlan}
    (hperform : perform r =
      (fun _ => .done) <$> (fieldPlace token >>= fun place => modifyField place f))
    (hok : Deed.of d.module r (.ok .done) = some x)
    (herror : Deed.of d.module r (.error (.flawed (.unknownField token))) = none)
    (hquiet : x.Quiet) (happly : x.apply = .onField token f)
    (hnames : ∀ k, x.names k = if k = .field then [token] else [])
    (hdeclared : ∀ owner index constraint, x ≠ .addConstraint owner index constraint) :
    d.DoesAtMost r := by
  refine .of_change d.fieldPlaces[token]?
    (fun place => d.types.modify place.type fun t =>
      { t with plan.fields := t.plan.fields.modify place.member f }) ?_ hok herror hquiet
    (fun _ hplace => happly ▸ hd.modifyField hplace _)
    (fun hhas => Has.named (k := .field) hhas hnames) hdeclared
  rw [hperform, outcome_map, outcome_fieldPlace_bind]
  cases d.fieldPlaces[token]? <;> rfl

/-! ### Types and members -/

theorem addType_doesAtMost (d : Draft) (space name : String) (flags : TypeFlags) (flavor : Flavor) :
    d.DoesAtMost (.addType space name flags flavor) := by
  refine .inr ⟨_, rfl, ?_⟩
  exact {
    module := rfl, typePlaces := rfl, fieldPlaces := rfl, methodPlaces := rfl
    nextGeneric := rfl, bare := rfl, declared := nofun
    named := fun _ _ ht => absurd ht List.not_mem_nil
    types := congrArg (Array.push · _) (Array.map_id _).symm
    next := fun k => by
      cases k
      case type =>
        change UInt32.ofNat (d.types.push _).size + 1 = UInt32.ofNat d.types.size + 1 + 1
        rw [Array.size_push, UInt32.ofNat_add]
        rfl
      all_goals rfl
    token := token_of_adds? fun _ => rfl }

theorem setDeclaring_doesAtMost (hd : d.Indexed) (inner outer : Token) :
    d.DoesAtMost (.setDeclaring inner outer) := by
  have hperform : perform (.setDeclaring inner outer) = (fun _ => .done) <$>
      (typePlace outer >>= fun _ => typePlace inner >>= fun place =>
        modifyPlan place fun p => { p with declaring := some outer }) := by
    rw [← setDeclaring_eq]
    rfl
  cases houter : d.typePlaces[outer]? with
  | none =>
    refine .inl ?_
    rw [hperform, outcome_map, outcome_typePlace_bind, houter]
    exact ⟨rfl, rfl⟩
  | some i =>
    -- the outer type is only looked for, so the position that decides is that of the inner one
    refine .of_change (x := .setDeclaring inner outer) (e := .flawed (.unknownType inner))
      d.typePlaces[inner]? (fun i =>
        d.types.modify i fun t => { t with plan := { t.plan with declaring := some outer } })
      ?_ rfl rfl trivial (fun _ hplace => hd.modifyType hplace _) ?_
      (fun _ _ _ heq => Deed.noConfusion heq)
    · rw [hperform, outcome_map, outcome_typePlace_bind, houter]
      change ((outcome (typePlace inner >>= _) d).1.map _,
        (outcome (typePlace inner >>= _) d).2) = _
      rw [outcome_typePlace_bind]
      cases d.typePlaces[inner]? <;> rfl
    · intro hinner k t ht
      cases k <;> simp [Deed.names] at ht
      obtain rfl | rfl := ht
      · exact hinner
      · exact has_type houter

theorem addParam_doesAtMost (hd : d.Indexed) (method : Token) (param : ParamPlan) :
    d.DoesAtMost (.addParam method param) := by
  refine .of_change (x := .addParam method param) (e := .flawed (.unknownMethod method))
    d.methodPlaces[method]? (fun place =>
      d.types.modify place.type fun t =>
        { t with plan.methods := t.plan.methods.modify place.member fun m =>
          { m with params := m.params.push param } })
    ?_ rfl rfl trivial (fun _ hplace => hd.modifyMethod hplace _)
    (fun hhas => Has.named (k := .method) hhas fun _ => rfl) nofun
  unfold perform addParam
  rw [outcome_map, outcome_methodPlace_bind]
  cases d.methodPlaces[method]? <;> rfl

theorem addField_doesAtMost (hd : d.Indexed) (type : Token) (name : String) (flags : FieldFlags)
    (fieldType : TypeRef) : d.DoesAtMost (.addField type name flags fieldType) := by
  unfold DoesAtMost perform addField
  rw [outcome_map, outcome_typePlace_bind]
  cases hplace : d.typePlaces[type]? with
  | none => exact .inl ⟨rfl, rfl⟩
  | some i =>
    refine .inr ⟨.addField type
      { token := .ofParts Table.field d.nextField, name, flags, type := fieldType }, rfl, ?_⟩
    exact {
      module := rfl, typePlaces := rfl, methodPlaces := rfl
      nextGeneric := rfl, bare := ⟨rfl, rfl⟩, declared := nofun
      types := hd.modifyType hplace fun t =>
        { t with plan.fields := t.plan.fields.push _ }
      fieldPlaces := by simp only [Deed.fieldPlace?, hplace]; rfl
      next := fun k => by
        cases k
        case type => exact congrArg (UInt32.ofNat · + 1) Array.size_modify
        all_goals rfl
      token := token_of_adds? fun _ => rfl
      named := (has_type hplace).named fun _ => rfl }

theorem addMethod_doesAtMost (hd : d.Indexed) (type : Token) (name : String) (flags : MethodFlags)
    (implFlags : MethodImplFlags) (returnType : TypeRef) :
    d.DoesAtMost (.addMethod type name flags implFlags returnType) := by
  unfold DoesAtMost perform addMethod
  rw [outcome_map, outcome_typePlace_bind]
  cases hplace : d.typePlaces[type]? with
  | none => exact .inl ⟨rfl, rfl⟩
  | some i =>
    refine .inr ⟨.addMethod type
      { token := .ofParts Table.methodDef d.nextMethod, name, flags, implFlags, returnType }, rfl,
      ?_⟩
    exact {
      module := rfl, typePlaces := rfl, fieldPlaces := rfl
      nextGeneric := rfl, bare := ⟨rfl, rfl⟩, declared := nofun
      types := hd.modifyType hplace fun t =>
        { t with plan.methods := t.plan.methods.push _ }
      methodPlaces := by simp only [Deed.methodPlace?, hplace]; rfl
      next := fun k => by
        cases k
        case type => exact congrArg (UInt32.ofNat · + 1) Array.size_modify
        all_goals rfl
      token := token_of_adds? fun _ => rfl
      named := (has_type hplace).named fun _ => rfl }

/-- An accessor that is not refused is a method of the draft, if one is given. -/
theorem has_of_refusal?_eq_none {accessor : Option Token} (h : d.refusal? accessor = none) :
    ∀ t ∈ accessor.toList, d.Has .method t := by
  intro t ht
  obtain rfl := Option.mem_toList.mp ht
  simp only [refusal?] at h
  split at h
  next hhas => exact hhas
  next => cases h

theorem addProperty_doesAtMost (hd : d.Indexed) (type : Token) (name : String)
    (flags : PropertyFlags) (propertyType : TypeRef) (getter setter : Option Token) :
    d.DoesAtMost (.addProperty type name flags propertyType getter setter) := by
  unfold DoesAtMost perform addProperty
  rw [outcome_map, outcome_typePlace_bind]
  cases hplace : d.typePlaces[type]? with
  | none => exact .inl ⟨rfl, rfl⟩
  | some i =>
    simp only [outcome_checkAccessor_bind]
    cases hgetter : d.refusal? getter with
    | some e => exact .inl ⟨rfl, rfl⟩
    | none =>
    cases hsetter : d.refusal? setter with
    | some e => exact .inl ⟨rfl, rfl⟩
    | none =>
    refine .inr ⟨.addProperty type { token := .ofParts Table.property d.nextProperty, name, flags
                                     type := propertyType, getter, setter }, rfl, ?_⟩
    exact {
      module := rfl, typePlaces := rfl, fieldPlaces := rfl, methodPlaces := rfl
      nextGeneric := rfl, bare := trivial, declared := nofun
      types := hd.modifyType hplace fun t =>
        { t with properties := t.properties.push _ }
      next := fun k => by
        cases k
        case type => exact congrArg (UInt32.ofNat · + 1) Array.size_modify
        all_goals rfl
      token := token_of_adds? fun _ => rfl
      named := fun k t ht => by
        cases k <;> simp only [Deed.names, reduceCtorEq, ↓reduceIte, List.mem_singleton,
          List.mem_append, List.not_mem_nil] at ht
        case type => exact ht ▸ has_type hplace
        case method =>
          exact ht.elim (has_of_refusal?_eq_none hgetter t) (has_of_refusal?_eq_none hsetter t) }

theorem addEvent_doesAtMost (hd : d.Indexed) (type : Token) (name : String) (flags : EventFlags)
    (eventType : TypeRef) (add remove raise : Option Token) :
    d.DoesAtMost (.addEvent type name flags eventType add remove raise) := by
  unfold DoesAtMost perform addEvent
  rw [outcome_map, outcome_typePlace_bind]
  cases hplace : d.typePlaces[type]? with
  | none => exact .inl ⟨rfl, rfl⟩
  | some i =>
    simp only [outcome_checkAccessor_bind]
    cases hadd : d.refusal? add with
    | some e => exact .inl ⟨rfl, rfl⟩
    | none =>
    cases hremove : d.refusal? remove with
    | some e => exact .inl ⟨rfl, rfl⟩
    | none =>
    cases hraise : d.refusal? raise with
    | some e => exact .inl ⟨rfl, rfl⟩
    | none =>
    refine .inr ⟨.addEvent type { token := .ofParts Table.event d.nextEvent, name, flags
                                  type := eventType, add, remove, raise }, rfl, ?_⟩
    exact {
      module := rfl, typePlaces := rfl, fieldPlaces := rfl, methodPlaces := rfl
      nextGeneric := rfl, bare := trivial, declared := nofun
      types := hd.modifyType hplace fun t => { t with events := t.events.push _ }
      next := fun k => by
        cases k
        case type => exact congrArg (UInt32.ofNat · + 1) Array.size_modify
        all_goals rfl
      token := token_of_adds? fun _ => rfl
      named := fun k t ht => by
        cases k <;> simp only [Deed.names, reduceCtorEq, ↓reduceIte, List.mem_singleton,
          List.mem_append, List.not_mem_nil] at ht
        case type => exact ht ▸ has_type hplace
        case method =>
          obtain (ht | ht) | ht := ht
          · exact has_of_refusal?_eq_none hadd t ht
          · exact has_of_refusal?_eq_none hremove t ht
          · exact has_of_refusal?_eq_none hraise t ht }

/-! ### Generic parameters -/

variable {owner : Token} {place : GenericPlace}

/-- An owner is a type or a method of the draft. -/
theorem OwnerAt.has (hat : d.OwnerAt owner place) :
    d.Has (if owner.isIn Table.typeDef then .type else .method) owner := by
  cases place with
  | type i =>
    rw [if_pos hat.1, Has, hat.2]
    rfl
  | method place =>
    rw [if_neg (ne_true_of_eq_false hat.1), Has, hat.2]
    rfl

/-- A new parameter is listed behind the others of its owner. -/
theorem Does.addGeneric (hd : d.Indexed) (hat : d.OwnerAt owner place) (index : UInt32)
    (name : String) (flags : GenericFlags) :
    d.Does (.addGeneric owner index name flags)
      { d.withGenerics place (pushGeneric index name flags) with
        nextGeneric := max d.nextGeneric (index + 1) } := by
  rw [hd.withGenerics hat]
  exact {
    module := rfl, typePlaces := rfl, fieldPlaces := rfl, methodPlaces := rfl
    nextGeneric := rfl, bare := trivial, declared := nofun, types := rfl
    next := fun k => by
      cases k
      case type => exact congrArg (UInt32.ofNat · + 1) Array.size_map
      all_goals rfl
    token := fun k t ht => by simp [Deed.adds?] at ht
    named := hat.has.named fun _ => rfl }

theorem outcome_declareGeneric (hplace : d.ownerPlace owner = .ok place) (index : UInt32)
    (name : String) (flags : GenericFlags) :
    outcome (declareGeneric owner index name flags) d =
      (.ok (), { d.withGenerics place (pushGeneric index name flags) with
        nextGeneric := max d.nextGeneric (index + 1) }) := by
  unfold declareGeneric
  rw [outcome_genericPlace_bind, hplace]
  cases place <;> rfl

theorem outcome_declareGeneric_refused {e : Failure} (hplace : d.ownerPlace owner = .error e)
    (index : UInt32) (name : String) (flags : GenericFlags) :
    outcome (declareGeneric owner index name flags) d = (.error e, d) := by
  unfold declareGeneric
  rw [outcome_genericPlace_bind, hplace]

theorem declareGeneric_doesAtMost (hd : d.Indexed) (owner : Token) (index : UInt32) (name : String)
    (flags : GenericFlags) : d.DoesAtMost (.declareGeneric owner index name flags) := by
  unfold DoesAtMost perform
  rw [outcome_map]
  cases hplace : d.ownerPlace owner with
  | error e =>
    rw [outcome_declareGeneric_refused hplace]
    exact .inl ⟨rfl, rfl⟩
  | ok place =>
    rw [outcome_declareGeneric hplace]
    exact .inr ⟨_, rfl, .addGeneric hd (ownerAt_of_ownerPlace hplace) index name flags⟩

/-- A fresh index is the one that the draft keeps for that. -/
theorem outcome_addGeneric (d : Draft) (owner : Token) (name : String) (flags : GenericFlags) :
    outcome (addGeneric owner name flags) d =
      ((outcome (declareGeneric owner d.nextGeneric name flags) d).1.map fun _ => d.nextGeneric,
        (outcome (declareGeneric owner d.nextGeneric name flags) d).2) := by
  unfold addGeneric
  rw [outcome_get_bind, ← map_eq_pure_bind, outcome_map]

theorem addGeneric_doesAtMost (hd : d.Indexed) (owner : Token) (name : String)
    (flags : GenericFlags) : d.DoesAtMost (.addGeneric owner name flags) := by
  unfold DoesAtMost perform
  rw [outcome_map, outcome_addGeneric]
  cases hplace : d.ownerPlace owner with
  | error e =>
    rw [outcome_declareGeneric_refused hplace]
    exact .inl ⟨rfl, rfl⟩
  | ok place =>
    rw [outcome_declareGeneric hplace]
    exact .inr ⟨_, rfl, .addGeneric hd (ownerAt_of_ownerPlace hplace) _ name flags⟩

/-- Constraining the parameter that was found is constraining the first one with the index. -/
theorem withGenerics_constrain (hd : d.Indexed) (hat : d.OwnerAt owner place) {index : UInt32}
    {constraint : TypeRef} {i : Nat}
    (hfind : (d.generics place).findIdx? (·.index == index) = some i) :
    ((d.withGenerics place id).withGenerics place fun params =>
      params.modify i fun p => { p with constraints := p.constraints.push constraint }) =
      { d with types := d.types.map (.onOwner owner (constrainFirst index constraint)) } := by
  have hsame : (d.withGenerics place id).generics place = d.generics place :=
    generics_withGenerics hd hat
  have hopened : (d.withGenerics place id).Indexed := by
    rw [hd.withGenerics hat]
    refine hd.of_shapes ?_ rfl rfl rfl
    simp only [shapes, Array.toList_map, List.map_map]
    exact List.map_congr_left fun t _ => TypeDraft.shape_onOwner id t
  have hat' : (d.withGenerics place id).OwnerAt owner place := by
    cases place <;> exact hat
  rw [withGenerics_congr (g := constrainFirst index constraint)
      (by rw [hsame, constrainFirst, hfind]),
    hopened.withGenerics hat', hd.withGenerics hat]
  refine congrArg (fun types => { d with types }) (Array.map_map.trans ?_)
  exact Array.map_congr_left fun t _ => onOwner_onOwner owner id _ t

/-- The owner of a constraint gets a list of parameters, and then the parameter is looked for. -/
theorem outcome_addConstraint_at (hplace : d.ownerPlace owner = .ok place) (index : UInt32)
    (constraint : TypeRef) :
    outcome (addConstraint owner index constraint) d =
      match ((d.withGenerics place id).generics place).findIdx? (·.index == index) with
      | some i => (.ok (), (d.withGenerics place id).withGenerics place fun params =>
        params.modify i fun p => { p with constraints := p.constraints.push constraint })
      | none => (.error (.flawed (.undeclaredGeneric owner index)), d.withGenerics place id) := by
  unfold addConstraint
  rw [outcome_genericPlace_bind, hplace]
  dsimp only
  rw [outcome_bind, outcome_modifyGenerics]
  dsimp only
  rw [outcome_get_bind]
  cases ((d.withGenerics place id).generics place).findIdx? (·.index == index) with
  | none => rfl
  | some i => exact outcome_modifyGenerics _ _ _

/-- The same, said of all types by the token of the owner. -/
theorem outcome_addConstraint (hd : d.Indexed) (hplace : d.ownerPlace owner = .ok place)
    (index : UInt32) (constraint : TypeRef) :
    outcome (addConstraint owner index constraint) d =
      if ((d.generics place).findIdx? (·.index == index)).isSome then
        (.ok (),
          { d with types := d.types.map (.onOwner owner (constrainFirst index constraint)) })
      else
        (.error (.flawed (.undeclaredGeneric owner index)),
          { d with types := d.types.map (.onOwner owner id) }) := by
  have hat := ownerAt_of_ownerPlace hplace
  rw [outcome_addConstraint_at hplace, generics_withGenerics hd hat, id]
  cases hfind : (d.generics place).findIdx? (·.index == index) with
  | none => exact congrArg (Prod.mk _) (hd.withGenerics hat id)
  | some i => exact congrArg (Prod.mk _) (withGenerics_constrain hd hat hfind)

theorem addConstraint_doesAtMost (hd : d.Indexed) (owner : Token) (index : UInt32)
    (constraint : TypeRef) : d.DoesAtMost (.addConstraint owner index constraint) := by
  unfold DoesAtMost perform
  rw [outcome_map]
  cases hplace : d.ownerPlace owner with
  | error e =>
    have hrefused : outcome (addConstraint owner index constraint) d = (.error e, d) := by
      unfold addConstraint
      rw [outcome_genericPlace_bind, hplace]
    rw [hrefused]
    have he (o : Token) (i : UInt32) : e ≠ .flawed (.undeclaredGeneric o i) := by
      rintro rfl
      exact ownerPlace_ne_undeclaredGeneric d owner o i hplace
    exact .inl ⟨Deed.of_error he, rfl⟩
  | ok place =>
    have hat := ownerAt_of_ownerPlace hplace
    rw [outcome_addConstraint hd hplace]
    cases hfind : (d.generics place).findIdx? (·.index == index) with
    | none =>
      -- a refused constraint leaves the list that its owner has got
      exact .inr ⟨.openGenerics owner, rfl,
        .of_quiet (by exact trivial) rfl (hat.has.named fun _ => rfl) nofun⟩
    | some i =>
      refine .inr ⟨.addConstraint owner index constraint, rfl,
        .of_quiet (by exact trivial) rfl (hat.has.named fun _ => rfl) ?_⟩
      rintro _ _ _ ⟨⟩
      obtain ⟨hlt, hindex, -⟩ := Array.findIdx?_eq_some_iff_getElem.mp hfind
      exact ⟨place, hat, _, Array.getElem_mem hlt, eq_of_beq hindex⟩

/-! ### Every request -/

theorem perform_cases (hd : d.Indexed) (r : Request) : d.DoesAtMost r := by
  cases r with
  | addType space name flags flavor => exact addType_doesAtMost d space name flags flavor
  | setDeclaring inner outer => exact setDeclaring_doesAtMost hd inner outer
  | setBase type base =>
    exact .of_type (x := .setBase type base) hd rfl rfl rfl trivial rfl (fun _ => rfl) nofun
  | addInterface type interface =>
    exact .of_type (x := .addInterface type interface) hd rfl rfl rfl trivial rfl (fun _ => rfl)
      nofun
  | declareGeneric owner index name flags =>
    exact declareGeneric_doesAtMost hd owner index name flags
  | addGeneric owner name flags => exact addGeneric_doesAtMost hd owner name flags
  | addConstraint owner index constraint => exact addConstraint_doesAtMost hd owner index constraint
  | addField type name flags fieldType => exact addField_doesAtMost hd type name flags fieldType
  | setFieldDefault field value =>
    exact .of_field (x := .setFieldDefault field value) hd rfl rfl rfl trivial rfl (fun _ => rfl)
      nofun
  | setFieldData field data =>
    exact .of_field (x := .setFieldData field data) hd rfl rfl rfl trivial rfl (fun _ => rfl) nofun
  | addMethod type name flags implFlags returnType =>
    exact addMethod_doesAtMost hd type name flags implFlags returnType
  | addParam method param => exact addParam_doesAtMost hd method param
  | addProperty type name flags propertyType getter setter =>
    exact addProperty_doesAtMost hd type name flags propertyType getter setter
  | addEvent type name flags eventType add remove raise =>
    exact addEvent_doesAtMost hd type name flags eventType add remove raise

end Draft

end ClrImage
