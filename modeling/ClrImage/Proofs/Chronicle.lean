import ClrImage.Proofs.History

/-!
# Histories tell drafts

A draft is at all times as its history tells it, and it knows where to find what the history adds.

- `Indexed.snoc`: the positions that a draft keeps stay those of its entities.
- `Tells`: a draft is as a history tells it.
- `Tells.snoc`: it stays so with each deed, as long as the rows of the tables last.
-/

namespace ClrImage

/-! ## Positions -/

/-- The tokens of a kind whose positions are kept. -/
def Shape.tokens (s : Shape) : EntityKind → List Token
  | .type => [s.type]
  | .field => s.fields
  | .method => s.methods
  | _ => []

/-- What is at a place, if `tokens` are those of the members of a kind. -/
def memberAt (tokens : Shape → List Token) (shapes : List Shape) (place : Place) : Option Token :=
  (shapes[place.type]?).bind fun s => (tokens s)[place.member]?

theorem exists_iff_memberAt {tokens : Shape → List Token} {shapes : List Shape} {place : Place}
    {token : Token} :
    (∃ s, shapes[place.type]? = some s ∧ (tokens s)[place.member]? = some token) ↔
      memberAt tokens shapes place = some token :=
  Option.bind_eq_some_iff.symm

/-- The new member of a type comes behind the others; all others stay where they are. -/
theorem memberAt_map_grow {tokens : Shape → List Token} {shapes : List Shape} {grow : Shape → Shape}
    {i : Nat} {s : Shape} {new : Token} (hs : shapes[i]? = some s)
    (hgrow : ∀ j x, shapes[j]? = some x →
      tokens (grow x) = if j = i then tokens x ++ [new] else tokens x) (place : Place) :
    memberAt tokens (shapes.map grow) place =
      if place.type = i ∧ place.member = (tokens s).length then some new
      else memberAt tokens shapes place := by
  unfold memberAt
  rw [List.getElem?_map]
  cases hx : shapes[place.type]? with
  | none =>
    rw [if_neg]
    · rfl
    · rintro ⟨rfl, -⟩
      rw [hs] at hx
      cases hx
  | some x =>
    rw [Option.map_some, Option.bind_some, Option.bind_some, hgrow _ _ hx]
    -- a place in the type that grows is before the new member, at it, or behind it
    by_cases htype : place.type = i
    · obtain rfl : x = s := by
        rw [htype, hs] at hx
        exact (Option.some.inj hx).symm
      rw [if_pos htype, List.getElem?_append]
      simp only [htype, true_and]
      split
      next hlt => rw [if_neg (Nat.ne_of_lt hlt)]
      next hge =>
        split
        next heq => rw [heq, Nat.sub_self]; rfl
        next hne =>
          rw [List.getElem?_eq_none (by simp only [List.length_singleton]; omega),
            List.getElem?_eq_none (by omega)]
    · rw [if_neg htype, if_neg fun h => htype h.1]

/-- A new token gets a free place, and nothing else changes. -/
theorem getElem?_insert_iff {places : Std.TreeMap Token Place compare}
    (before : Place → Option Token) {after : Place → Option Token} {new : Token} {i n : Nat}
    (hplaces : ∀ (token : Token) (place : Place),
      places[token]? = some place ↔ before place = some token)
    (hfree : before ⟨i, n⟩ = none) (hnew : ∀ place, before place ≠ some new)
    (hafter : ∀ place,
      after place = if place.type = i ∧ place.member = n then some new else before place)
    (token : Token) (place : Place) :
    (places.insert new ⟨i, n⟩)[token]? = some place ↔ after place = some token := by
  obtain ⟨j, m⟩ := place
  rw [Std.TreeMap.getElem?_insert, hafter]
  by_cases htoken : new = token
  · subst htoken
    rw [if_pos (Std.ReflCmp.compare_self)]
    by_cases hplace : j = i ∧ m = n
    · obtain ⟨rfl, rfl⟩ := hplace
      simp
    · rw [if_neg hplace]
      refine ⟨fun heq => ?_, fun heq => absurd heq (hnew _)⟩
      cases heq
      exact absurd ⟨rfl, rfl⟩ hplace
  · rw [if_neg fun heq => htoken (Std.LawfulEqOrd.eq_of_compare heq), hplaces]
    by_cases hplace : j = i ∧ m = n
    · obtain ⟨rfl, rfl⟩ := hplace
      simp [hfree, htoken]
    · rw [if_neg hplace]

/-- Where members are found at their places, a new member is found behind those that its type had,
and the others where they were. -/
theorem getElem?_insert_grow_iff {places : Std.TreeMap Token Place compare}
    {tokens : Shape → List Token} {shapes : List Shape} {grow : Shape → Shape} {i : Nat} {s : Shape}
    {new : Token}
    (hplaces : ∀ (token : Token) (place : Place), places[token]? = some place ↔
      ∃ s, shapes[place.type]? = some s ∧ (tokens s)[place.member]? = some token)
    (hs : shapes[i]? = some s) (hnew : ∀ s ∈ shapes, new ∉ tokens s)
    (hgrow : ∀ j x, shapes[j]? = some x →
      tokens (grow x) = if j = i then tokens x ++ [new] else tokens x)
    (token : Token) (place : Place) :
    (places.insert new ⟨i, (tokens s).length⟩)[token]? = some place ↔
      ∃ s, (shapes.map grow)[place.type]? = some s ∧ (tokens s)[place.member]? = some token := by
  rw [exists_iff_memberAt]
  refine getElem?_insert_iff (memberAt tokens shapes)
    (fun token place => (hplaces token place).trans exists_iff_memberAt) ?_ (fun place hfound => ?_)
    (memberAt_map_grow hs hgrow) token place
  · rw [memberAt, hs]
    exact List.getElem?_eq_none (Nat.le_refl _)
  · obtain ⟨s, hs, hmem⟩ := exists_iff_memberAt.mpr hfound
    exact hnew s (List.mem_of_getElem? hs) (List.mem_of_getElem? hmem)

namespace Draft

variable {d d' : Draft} {x : Deed}

/-- A new type has no members yet. -/
theorem Does.shapes (hx : d.Does x d') :
    d'.shapes = d.shapes.map x.grow ++ (x.type?.map fun p => ⟨p.token, [], []⟩).toList := by
  have hold : (d.types.map x.apply).toList.map TypeDraft.shape = d.shapes.map x.grow := by
    rw [Array.toList_map, List.map_map, Draft.shapes, List.map_map]
    exact List.map_congr_left fun t _ => x.shape_apply t
  rw [Draft.shapes, hx.types]
  cases x with
  | addType p =>
    have hfields : p.fields = #[] := congrArg TypePlan.fields hx.bare
    have hmethods : p.methods = #[] := congrArg TypePlan.methods hx.bare
    have hnew : TypeDraft.shape { plan := p } = ⟨p.token, [], []⟩ := by
      rw [TypeDraft.shape, hfields, hmethods]
      rfl
    change ((d.types.map (Deed.addType p).apply).push { plan := p }).toList.map TypeDraft.shape = _
    rw [Array.toList_push, List.map_append, hold, List.map_singleton, hnew]
    rfl
  | _ => exact hold.trans (List.append_nil _).symm

/-- No entity has the token of a new one. -/
def Fresh (d : Draft) (x : Deed) : Prop :=
  ∀ k t, x.adds? k = some t → ∀ s ∈ d.shapes, t ∉ s.tokens k

/-- A type without members adds no places of members. -/
theorem memberAt_append_bare {tokens : Shape → List Token} {shapes : List Shape} {s : Shape}
    (hs : tokens s = []) (place : Place) :
    memberAt tokens (shapes ++ [s]) place = memberAt tokens shapes place := by
  unfold memberAt
  rw [List.getElem?_append]
  split
  next => rfl
  next hge =>
    rw [List.getElem?_eq_none (Nat.le_of_not_lt hge)]
    cases hfound : ([s] : List Shape)[place.type - shapes.length]? with
    | none => rfl
    | some x =>
      rw [List.mem_singleton.mp (List.mem_of_getElem? hfound)]
      exact congrArg (·[place.member]?) hs

theorem Indexed.addType (hd : d.Indexed) {p : TypePlan} (hx : d.Does (.addType p) d')
    (hfresh : d.Fresh (.addType p)) (htable : p.token.isIn Table.typeDef = true) : d'.Indexed := by
  have hshapes : d'.shapes = d.shapes ++ [⟨p.token, [], []⟩] :=
    hx.shapes.trans (congrArg (· ++ _) (List.map_id _))
  have hsize : d.types.size = d.shapes.length := (List.length_map _).symm
  refine ⟨fun token i => ?_, fun token place => ?_, fun token place => ?_, ?_, ?_⟩
  · have hplaces : d'.typePlaces = d.typePlaces.insert p.token d.types.size := hx.typePlaces
    have hunused : d.typePlaces[p.token]? ≠ some i := by
      intro hi
      obtain ⟨s, hs, htoken⟩ := (hd.type _ _).mp hi
      exact hfresh .type _ rfl s (List.mem_of_getElem? hs) (List.mem_singleton.mpr htoken.symm)
    rw [hplaces, hshapes, Std.TreeMap.getElem?_insert, hsize]
    by_cases htoken : p.token = token
    · subst htoken
      rw [if_pos (Std.ReflCmp.compare_self), Option.some.injEq]
      constructor
      · rintro rfl
        exact ⟨_, List.getElem?_concat_length, rfl⟩
      · rintro ⟨s, hs, htoken⟩
        -- the token is fresh, so no position before the last one has it
        rcases Nat.lt_trichotomy i d.shapes.length with hlt | heq | hgt
        · rw [List.getElem?_append_left hlt] at hs
          exact absurd ((hd.type _ _).mpr ⟨s, hs, htoken⟩) hunused
        · exact heq.symm
        · rw [List.getElem?_eq_none (by simp; omega)] at hs
          cases hs
    · rw [if_neg fun heq => htoken (Std.LawfulEqOrd.eq_of_compare heq), hd.type]
      refine exists_congr fun s => and_congr_left fun hs => ?_
      rcases Nat.lt_or_ge i d.shapes.length with hlt | hge
      · rw [List.getElem?_append_left hlt]
      · rw [List.getElem?_eq_none hge]
        refine ⟨fun hnone => absurd hnone (by simp), fun hnew => ?_⟩
        rw [List.getElem?_append_right hge] at hnew
        rw [List.mem_singleton.mp (List.mem_of_getElem? hnew)] at hs
        exact absurd hs htoken
  · have hplaces : d'.fieldPlaces = d.fieldPlaces := hx.fieldPlaces
    rw [hplaces, hshapes, exists_iff_memberAt, @memberAt_append_bare Shape.fields _ _ rfl, hd.field,
      exists_iff_memberAt]
  · have hplaces : d'.methodPlaces = d.methodPlaces := hx.methodPlaces
    rw [hplaces, hshapes, exists_iff_memberAt, @memberAt_append_bare Shape.methods _ _ rfl,
      hd.method, exists_iff_memberAt]
  · rw [hshapes]
    intro s hs
    rcases List.mem_append.mp hs with hs | hs
    · exact hd.types_table s hs
    · exact List.mem_singleton.mp hs ▸ htable
  · rw [hshapes]
    intro s hs token htoken
    rcases List.mem_append.mp hs with hs | hs
    · exact hd.methods_table s hs token htoken
    · rw [List.mem_singleton.mp hs] at htoken
      cases htoken

theorem exists_type_map_iff {grow : Shape → Shape} (hgrow : ∀ s, (grow s).type = s.type)
    {shapes : List Shape} {i : Nat} {token : Token} :
    (∃ s, (shapes.map grow)[i]? = some s ∧ s.type = token) ↔
      ∃ s, shapes[i]? = some s ∧ s.type = token := by
  simp [List.getElem?_map, hgrow]

theorem memberAt_map {tokens : Shape → List Token} {grow : Shape → Shape}
    (hgrow : ∀ s, tokens (grow s) = tokens s) (shapes : List Shape) (place : Place) :
    memberAt tokens (shapes.map grow) place = memberAt tokens shapes place := by
  unfold memberAt
  rw [List.getElem?_map]
  cases shapes[place.type]? with
  | none => rfl
  | some s => exact congrArg (·[place.member]?) (hgrow s)

theorem Indexed.addField (hd : d.Indexed) {type : Token} {f : FieldPlan}
    (hx : d.Does (.addField type f) d') (hfresh : d.Fresh (.addField type f)) : d'.Indexed := by
  have hshapes : d'.shapes = d.shapes.map (Deed.addField type f).grow :=
    hx.shapes.trans (List.append_nil _)
  have hgrow (s : Shape) : ((Deed.addField type f).grow s).type = s.type ∧
      ((Deed.addField type f).grow s).methods = s.methods := by
    simp only [Deed.grow]
    split <;> exact ⟨rfl, rfl⟩
  obtain ⟨i, hplace⟩ := Option.isSome_iff_exists.mp (hx.named .type type (by simp [Deed.names]))
  obtain ⟨t, ht, -⟩ := hd.exists_type hplace
  have hs : d.shapes[i]? = some t.shape := by rw [getElem?_shapes, ht]; rfl
  have hplaces : d'.fieldPlaces = d.fieldPlaces.insert f.token ⟨i, t.shape.fields.length⟩ := by
    rw [hx.fieldPlaces]
    simp [Deed.fieldPlace?, hplace, ht, TypeDraft.shape]
  refine ⟨fun token j => ?_, fun token place => ?_, fun token place => ?_, ?_, ?_⟩
  · rw [show d'.typePlaces = d.typePlaces from hx.typePlaces, hshapes,
      exists_type_map_iff fun s => (hgrow s).1, hd.type]
  · rw [hplaces, hshapes]
    refine getElem?_insert_grow_iff hd.field hs (hfresh .field _ rfl) (fun j s hs => ?_) token place
    simp only [Deed.grow, hd.type_eq_iff hplace hs]
    split <;> rfl
  · rw [show d'.methodPlaces = d.methodPlaces from hx.methodPlaces, hshapes, exists_iff_memberAt,
      memberAt_map fun s => (hgrow s).2, hd.method, exists_iff_memberAt]
  · rw [hshapes, List.forall_mem_map]
    exact fun s hs => (hgrow s).1 ▸ hd.types_table s hs
  · rw [hshapes, List.forall_mem_map]
    exact fun s hs => (hgrow s).2 ▸ hd.methods_table s hs

theorem Indexed.addMethod (hd : d.Indexed) {type : Token} {m : MethodPlan}
    (hx : d.Does (.addMethod type m) d') (hfresh : d.Fresh (.addMethod type m))
    (htable : m.token.isIn Table.typeDef = false) : d'.Indexed := by
  have hshapes : d'.shapes = d.shapes.map (Deed.addMethod type m).grow :=
    hx.shapes.trans (List.append_nil _)
  have hgrow (s : Shape) : ((Deed.addMethod type m).grow s).type = s.type ∧
      ((Deed.addMethod type m).grow s).fields = s.fields := by
    simp only [Deed.grow]
    split <;> exact ⟨rfl, rfl⟩
  obtain ⟨i, hplace⟩ := Option.isSome_iff_exists.mp (hx.named .type type (by simp [Deed.names]))
  obtain ⟨t, ht, -⟩ := hd.exists_type hplace
  have hs : d.shapes[i]? = some t.shape := by rw [getElem?_shapes, ht]; rfl
  have hplaces : d'.methodPlaces = d.methodPlaces.insert m.token ⟨i, t.shape.methods.length⟩ := by
    rw [hx.methodPlaces]
    simp [Deed.methodPlace?, hplace, ht, TypeDraft.shape]
  refine ⟨fun token j => ?_, fun token place => ?_, fun token place => ?_, ?_, ?_⟩
  · rw [show d'.typePlaces = d.typePlaces from hx.typePlaces, hshapes,
      exists_type_map_iff fun s => (hgrow s).1, hd.type]
  · rw [show d'.fieldPlaces = d.fieldPlaces from hx.fieldPlaces, hshapes, exists_iff_memberAt,
      memberAt_map fun s => (hgrow s).2, hd.field, exists_iff_memberAt]
  · rw [hplaces, hshapes]
    refine getElem?_insert_grow_iff hd.method hs (hfresh .method _ rfl) (fun j s hs => ?_) token
      place
    simp only [Deed.grow, hd.type_eq_iff hplace hs]
    split <;> rfl
  · rw [hshapes, List.forall_mem_map]
    exact fun s hs => (hgrow s).1 ▸ hd.types_table s hs
  · rw [hshapes, List.forall_mem_map]
    intro s hs token htoken
    simp only [Deed.grow] at htoken
    split at htoken
    · rcases List.mem_append.mp htoken with htoken | htoken
      · exact hd.methods_table s hs token htoken
      · exact List.mem_singleton.mp htoken ▸ htable
    · exact hd.methods_table s hs token htoken

/-- The positions that a draft keeps stay those of its entities. -/
theorem Indexed.snoc (hd : d.Indexed) (hx : d.Does x d') (hfresh : d.Fresh x)
    (htype : ∀ p, x = .addType p → p.token.isIn Table.typeDef = true)
    (hmethod : ∀ type m, x = .addMethod type m → m.token.isIn Table.typeDef = false) :
    d'.Indexed := by
  cases x with
  | addType p => exact hd.addType hx hfresh (htype p rfl)
  | addField => exact hd.addField hx hfresh
  | addMethod type m => exact hd.addMethod hx hfresh (hmethod type m rfl)
  | _ =>
    refine hd.of_shapes ?_ hx.typePlaces hx.fieldPlaces hx.methodPlaces
    exact hx.shapes.trans ((List.append_nil _).trans (List.map_id _))

end Draft

/-! ## Tokens in order -/

/-- The token of the entity of a kind that is added when there are `n` of them. -/
def EntityKind.nth (k : EntityKind) (n : Nat) : Token := .ofParts k.table (.ofNat (n + 1))

theorem EntityKind.table_nth (k : EntityKind) (n : Nat) : (k.nth n).table = k.table :=
  Token.table_ofParts _ _

theorem EntityKind.isIn_nth (k : EntityKind) (n : Nat) (table : UInt8) :
    (k.nth n).isIn table = (k.table == table) := by
  rw [Token.isIn, k.table_nth]

theorem EntityKind.row_nth (k : EntityKind) {n : Nat} (hn : n + 1 < 0x1000000) :
    (k.nth n).row.toNat = n + 1 := by
  rw [nth, Token.toNat_row_ofParts, UInt32.toNat_ofNat_of_lt' (Nat.lt_trans hn (by decide)),
    Nat.mod_eq_of_lt hn]

/-- Before the rows run out, no token is given twice. -/
theorem EntityKind.nth_inj {k : EntityKind} {n m : Nat} (hn : n + 1 < 0x1000000)
    (hm : m + 1 < 0x1000000) (heq : k.nth n = k.nth m) : n = m := by
  have hrow := congrArg (fun t => t.row.toNat) heq
  simp only [k.row_nth hn, k.row_nth hm] at hrow
  exact Nat.succ.inj hrow

namespace History

/-- The tokens of a kind that have been given, oldest first. -/
def added (k : EntityKind) (h : List Deed) : List Token := h.filterMap (Deed.adds? k)

/-- The rows of no table have run out. -/
def InRange (h : List Deed) : Prop := ∀ k, (added k h).length < 0x1000000

theorem added_append (k : EntityKind) (h h' : List Deed) :
    added k (h ++ h') = added k h ++ added k h' :=
  List.filterMap_append

theorem added_snoc (k : EntityKind) (h : List Deed) (x : Deed) :
    added k (h ++ [x]) = added k h ++ (x.adds? k).toList := by
  rw [added_append]
  unfold added
  cases hx : x.adds? k <;> simp [hx]

theorem InRange.of_append {h h' : List Deed} (hrange : InRange (h ++ h')) : InRange h := by
  intro k
  have hk := hrange k
  rw [added_append, List.length_append] at hk
  omega

theorem mem_added {k : EntityKind} {token : Token} {h : List Deed} :
    token ∈ added k h ↔ ∃ x ∈ h, x.adds? k = some token :=
  List.mem_filterMap

variable {α : Type} {h : List Deed}

theorem mem_all {say : Deed → Option α} {a : α} : a ∈ all h say ↔ ∃ x ∈ h, say x = some a := by
  rw [all, List.mem_toArray, List.mem_filterMap]

theorem mem_added_of_field? {token : Token} {f : FieldPlan} {x : Deed} (hx : x ∈ h)
    (hsay : x.field? token = some f) : f.token ∈ added .field h := by
  refine mem_added.mpr ⟨x, hx, ?_⟩
  cases x <;> simp only [Deed.field?, reduceCtorEq, Option.ite_none_right_eq_some] at hsay
  exact congrArg (fun f => some f.token) (Option.some.inj hsay.2)

theorem mem_added_of_method? {token : Token} {m : MethodPlan} {x : Deed} (hx : x ∈ h)
    (hsay : x.method? token = some m) : m.token ∈ added .method h := by
  refine mem_added.mpr ⟨x, hx, ?_⟩
  cases x <;> simp only [Deed.method?, reduceCtorEq, Option.ite_none_right_eq_some] at hsay
  exact congrArg (fun m => some m.token) (Option.some.inj hsay.2)

/-- What a history tells of has been added. -/
theorem mem_added_of_mem_tokens {t : TypeDraft} (ht : t ∈ types h) {k : EntityKind} {token : Token}
    (htoken : token ∈ t.shape.tokens k) : token ∈ added k h := by
  obtain ⟨p, hp, rfl⟩ := List.mem_map.mp ht
  cases k with
  | type =>
    obtain rfl := List.mem_singleton.mp htoken
    obtain ⟨x, hx, hsay⟩ := List.mem_filterMap.mp hp
    refine mem_added.mpr ⟨x, hx, ?_⟩
    cases x <;> cases hsay
    rfl
  | field =>
    obtain ⟨_, hmem, rfl⟩ := List.mem_map.mp htoken
    obtain ⟨f, hf, rfl⟩ := Array.mem_map.mp (Array.mem_toList_iff.mp hmem)
    obtain ⟨x, hx, hsay⟩ := mem_all.mp hf
    exact (mem_added_of_field? hx hsay : f.token ∈ _)
  | method =>
    obtain ⟨_, hmem, rfl⟩ := List.mem_map.mp htoken
    obtain ⟨m, hm, rfl⟩ := Array.mem_map.mp (Array.mem_toList_iff.mp hmem)
    obtain ⟨x, hx, hsay⟩ := mem_all.mp hm
    exact (mem_added_of_method? hx hsay : m.token ∈ _)
  | property | event => cases htoken

end History

/-! ## Histories and drafts -/

open History

/-- The last index of all has not been declared, so that there is always one above. -/
def IndicesInRange (h : List Deed) : Prop :=
  ∀ x ∈ h, ∀ index, x.index? = some index → index.toNat < 0xFFFFFFFF

/-- A draft is as its history tells it. -/
structure Tells (h : List Deed) (d : Draft) : Prop where
  types_eq : d.types.toList = types h
  indexed : d.Indexed
  added_eq : ∀ k, added k h = (List.range (added k h).length).map k.nth
  next_eq : ∀ k, d.next k = .ofNat ((added k h).length + 1)
  /-- Deeds are only done to what has been added. -/
  named : ∀ k, ∀ x ∈ h, ∀ t ∈ x.names k, t ∈ added k h
  constrained : Constrained h
  /-- A fresh index is above all others. -/
  fresh : IndicesInRange h →
    ∀ x ∈ h, ∀ index, x.index? = some index → index.toNat < d.nextGeneric.toNat

namespace Tells

variable {h : List Deed} {d d' : Draft} {x : Deed}

theorem empty (module : String) : Tells [] { module } where
  types_eq := rfl
  indexed := by constructor <;> simp [Draft.shapes]
  added_eq _ := rfl
  next_eq k := by cases k <;> rfl
  named _ _ hx := absurd hx List.not_mem_nil
  constrained _ _ _ hx := absurd hx List.not_mem_nil
  fresh _ _ hx := absurd hx List.not_mem_nil

/-- A token that the draft has a position for has been added. -/
theorem mem_added_of_has (hd : Tells h d) {k : EntityKind} {token : Token} (hhas : d.Has k token) :
    token ∈ added k h := by
  have hshapes {i : Nat} {s : Shape} (hs : d.shapes[i]? = some s) (htoken : token ∈ s.tokens k) :
      token ∈ added k h := by
    obtain ⟨t, ht, rfl⟩ := List.mem_map.mp (List.mem_of_getElem? hs)
    exact mem_added_of_mem_tokens (hd.types_eq ▸ ht) htoken
  cases k with
  | type =>
    obtain ⟨i, hi⟩ := Option.isSome_iff_exists.mp hhas
    obtain ⟨s, hs, rfl⟩ := (hd.indexed.type _ _).mp hi
    exact hshapes hs (List.mem_singleton.mpr rfl)
  | field =>
    obtain ⟨place, hplace⟩ := Option.isSome_iff_exists.mp hhas
    obtain ⟨s, hs, htoken⟩ := (hd.indexed.field _ _).mp hplace
    exact hshapes hs (List.mem_of_getElem? htoken)
  | method =>
    obtain ⟨place, hplace⟩ := Option.isSome_iff_exists.mp hhas
    obtain ⟨s, hs, htoken⟩ := (hd.indexed.method _ _).mp hplace
    exact hshapes hs (List.mem_of_getElem? htoken)
  | property | event => exact hhas.elim

/-- A new token is the next one of its kind. -/
theorem eq_nth (hd : Tells h d) (hx : d.Does x d') {k : EntityKind} {token : Token}
    (hadds : x.adds? k = some token) : token = k.nth (added k h).length := by
  rw [hx.token k token hadds, hd.next_eq]
  rfl

/-- There is a row for a new token. -/
theorem lt_of_adds? (hrange : InRange (h ++ [x])) {k : EntityKind} {token : Token}
    (hadds : x.adds? k = some token) : (added k h).length + 1 < 0x1000000 := by
  have hk := hrange k
  rw [added_snoc, hadds, List.length_append] at hk
  exact hk

/-- A new token has not been given before. -/
theorem not_mem_added (hd : Tells h d) (hx : d.Does x d') (hrange : InRange (h ++ [x]))
    {k : EntityKind} {token : Token} (hadds : x.adds? k = some token) :
    token ∉ added k h := by
  intro hmem
  have hlast := lt_of_adds? hrange hadds
  rw [hd.added_eq k, List.mem_map] at hmem
  obtain ⟨n, hn, heq⟩ := hmem
  have hn := List.mem_range.mp hn
  have hsame := EntityKind.nth_inj (by omega) hlast (heq.trans (hd.eq_nth hx hadds))
  omega

theorem fits (hd : Tells h d) (hx : d.Does x d') (hrange : InRange (h ++ [x])) : Fits h x where
  bare := hx.bare
  unnamed k t hadds y hy ht := hd.not_mem_added hx hrange hadds (hd.named k y hy t ht)
  type_table p hp := by
    subst hp
    rw [hd.eq_nth hx (k := .type) rfl, EntityKind.isIn_nth]
    rfl
  method_table type m hm := by
    subst hm
    rw [hd.eq_nth hx (k := .method) rfl, EntityKind.isIn_nth]
    rfl

/-- The generic parameters at the place of an owner are as the history tells them. -/
theorem generics_eq (hd : Tells h d) {owner : Token} {place : Draft.GenericPlace}
    (hat : d.OwnerAt owner place) : d.generics place = params h owner := by
  cases place with
  | type i =>
    obtain ⟨t, ht, rfl⟩ := hd.indexed.exists_type hat.2
    have hmem : t ∈ types h := hd.types_eq ▸ Array.mem_toList_iff.mpr (Array.mem_of_getElem? ht)
    obtain ⟨p, -, rfl⟩ := List.mem_map.mp hmem
    rw [Draft.generics, ht]
    exact getD_generics? p.token
  | method place =>
    obtain ⟨t, m, ht, hm, rfl⟩ := hd.indexed.exists_method hat.2
    have hmem : t ∈ types h := hd.types_eq ▸ Array.mem_toList_iff.mpr (Array.mem_of_getElem? ht)
    obtain ⟨p, -, rfl⟩ := List.mem_map.mp hmem
    obtain ⟨a, -, rfl⟩ := Array.mem_map.mp (Array.mem_of_getElem? hm)
    rw [Draft.generics, ht, Option.bind_some, hm]
    exact getD_generics? a.token

/-- A parameter that a history lists has been declared. -/
theorem exists_generic? {owner : Token} {g : GenericPlan} (hg : g ∈ params h owner) :
    ∃ a ∈ all h (Deed.generic? owner), a.index = g.index := by
  obtain ⟨n, hn, rfl⟩ := Array.mem_mapIdx.mp hg
  exact ⟨_, Array.getElem_mem _, rfl⟩

/-- The next fresh index does not wrap around. -/
theorem toNat_max_succ {next index : UInt32} (hlt : index.toNat < 0xFFFFFFFF) :
    (max next (index + 1)).toNat = max next.toNat (index.toNat + 1) := by
  have hsucc : (index + 1).toNat = index.toNat + 1 := by
    rw [UInt32.toNat_add]
    exact Nat.mod_eq_of_lt (by simp; omega)
  change (if next ≤ index + 1 then index + 1 else next).toNat = _
  rw [apply_ite UInt32.toNat, hsucc, Nat.max_def]
  exact if_congr (by rw [UInt32.le_iff_toNat_le, hsucc]) rfl rfl

/-- A draft stays as its history tells it. -/
theorem snoc (hd : Tells h d) (hx : d.Does x d') (hrange : InRange (h ++ [x])) :
    Tells (h ++ [x]) d' := by
  have hfits := hd.fits hx hrange
  refine ⟨?_, ?_, fun k => ?_, fun k => ?_, fun k => ?_, ?_, fun hindices => ?_⟩
  · rw [types_snoc hd.constrained hfits, ← hd.types_eq, hx.types]
    cases x.type? with
    | none => simp
    | some p => simp
  · refine hd.indexed.snoc hx ?_ hfits.type_table hfits.method_table
    -- tokens of one kind count on, so the new one is not among those that types list
    intro k t hadds s hs ht
    obtain ⟨_, hmem, rfl⟩ := List.mem_map.mp hs
    exact hd.not_mem_added hx hrange hadds (mem_added_of_mem_tokens (hd.types_eq ▸ hmem) ht)
  · rw [added_snoc]
    cases hadds : x.adds? k with
    | none => simpa using hd.added_eq k
    | some t =>
      rw [Option.toList_some, List.length_append, List.length_singleton, List.range_succ,
        List.map_append, ← hd.added_eq k, List.map_singleton, ← hd.eq_nth hx hadds]
  · rw [hx.next, hd.next_eq, added_snoc, List.length_append]
    cases x.adds? k with
    | none => rfl
    | some t => exact (UInt32.ofNat_add _ _).symm
  · intro y hy t ht
    rw [added_snoc]
    rcases List.mem_append.mp hy with hy | hy
    · exact List.mem_append_left _ (hd.named k y hy t ht)
    · obtain rfl := List.mem_singleton.mp hy
      exact List.mem_append_left _ (hd.mem_added_of_has (hx.named k t ht))
  · intro owner index constraint hmem
    have hgrown {g : GenericPlan} (hg : g ∈ all h (Deed.generic? owner)) :
        g ∈ all (h ++ [x]) (Deed.generic? owner) := by
      obtain ⟨y, hy, hsay⟩ := mem_all.mp hg
      exact mem_all.mpr ⟨y, List.mem_append_left _ hy, hsay⟩
    rcases List.mem_append.mp hmem with hmem | hmem
    · obtain ⟨g, hg, hindex⟩ := hd.constrained _ _ _ hmem
      exact ⟨g, hgrown hg, hindex⟩
    · obtain ⟨place, hat, g, hg, hindex⟩ :=
        hx.declared _ _ _ (List.mem_singleton.mp hmem).symm
      obtain ⟨a, ha, hsame⟩ := exists_generic? (hd.generics_eq hat ▸ hg)
      exact ⟨a, hgrown ha, hsame.trans hindex⟩
  · -- the next fresh index never falls, and it passes the index that the deed declares
    have hgrown : d.nextGeneric.toNat ≤ d'.nextGeneric.toNat ∧
        ∀ index, x.index? = some index → index.toNat < d'.nextGeneric.toNat := by
      rw [hx.nextGeneric]
      cases hindex : x.index? with
      | none => exact ⟨Nat.le_refl _, nofun⟩
      | some index =>
        have hlt := hindices x (List.mem_append_right _ (List.mem_singleton.mpr rfl)) index hindex
        rw [Option.elim_some, toNat_max_succ hlt]
        refine ⟨Nat.le_max_left _ _, fun i hi => ?_⟩
        obtain rfl := Option.some.inj hi
        exact Nat.lt_of_lt_of_le (Nat.lt_succ_self _) (Nat.le_max_right _ _)
    intro y hy index hindex
    rcases List.mem_append.mp hy with hy | hy
    · have hold := hd.fresh (fun y hy => hindices y (List.mem_append_left _ hy)) y hy index hindex
      exact Nat.lt_of_lt_of_le hold hgrown.1
    · exact hgrown.2 index (List.mem_singleton.mp hy ▸ hindex)

end Tells

end ClrImage
