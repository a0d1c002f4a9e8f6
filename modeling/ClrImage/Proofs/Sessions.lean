import ClrImage.Proofs.Chronicle
import ClrImage.Proofs.Lookup
import ClrImage.Proofs.Rescoping

/-!
# Sessions

A session is a list of requests to an empty draft. Each one is made whatever the ones before it have
been answered.

- `Draft.answers`, `Draft.after`, `Draft.history`: what the session is told, the draft behind it,
  and its history, which can be read off requests and answers.
- `tells_after`: the draft behind a session is as its history tells it.
- `History.plan`: a type of the blueprint as the history tells it.
- `session_exact`: tokens are rows in the order of addition, fresh indices are fresh, and the
  blueprint is what the session has asked for.
-/

namespace ClrImage

open Drafting History

/-! ## Runs -/

namespace Draft

/-- What requests are answered, one after the other. -/
def answers : Draft → List Request → List (Except Failure Answer)
  | _, [] => []
  | d, r :: requests =>
    (outcome (perform r) d).1 :: answers (outcome (perform r) d).2 requests

/-- The draft behind requests. -/
def after (d : Draft) (requests : List Request) : Draft :=
  requests.foldl (fun d r => (outcome (perform r) d).2) d

/-- What requests have done, by their answers. -/
def history (d : Draft) (requests : List Request) : List Deed :=
  (requests.zip (d.answers requests)).filterMap fun e => Deed.of d.module e.1 e.2

variable {d : Draft} {h : List Deed}

theorem module_outcome (hd : d.Indexed) (r : Request) :
    (outcome (perform r) d).2.module = d.module := by
  obtain ⟨-, hsame⟩ | ⟨x, -, hx⟩ := perform_cases hd r
  · rw [hsame]
  · exact hx.module

theorem history_cons (hd : d.Indexed) (r : Request) (requests : List Request) :
    d.history (r :: requests) =
      (Deed.of d.module r (outcome (perform r) d).1).toList ++
        (outcome (perform r) d).2.history requests := by
  unfold history
  rw [module_outcome hd r, answers, List.zip_cons_cons, List.filterMap_cons]
  cases Deed.of d.module r (outcome (perform r) d).1 <;> rfl

/-- The draft behind the first requests is as their history tells it, as long as the rows of the
tables last. -/
theorem tells_after {requests : List Request} (rest : List Request) (hd : Tells h d)
    (hrange : InRange (h ++ d.history (requests ++ rest))) :
    Tells (h ++ d.history requests) (d.after requests) := by
  induction requests generalizing d h with
  | nil => exact (List.append_nil h).symm ▸ hd
  | cons r requests ih =>
    rw [List.cons_append, history_cons hd.indexed] at hrange
    rw [history_cons hd.indexed]
    obtain ⟨hof, hsame⟩ | ⟨x, hof, hx⟩ := perform_cases hd.indexed r
    · rw [hof, hsame, Option.toList_none, List.nil_append] at hrange ⊢
      rw [after, List.foldl_cons, hsame]
      exact ih hd hrange
    · rw [hof, Option.toList_some, ← List.append_assoc] at hrange ⊢
      exact ih (hd.snoc hx hrange.of_append) hrange

theorem getElem?_answers (d : Draft) (before : List Request) (r : Request) (rest : List Request) :
    (d.answers (before ++ r :: rest))[before.length]? =
      some (outcome (perform r) (d.after before)).1 := by
  induction before generalizing d with
  | nil => rfl
  | cons first before ih => exact ih (outcome (perform first) d).2

end Draft

/-! ## The blueprint as the history tells it -/

/-- A new method as it is added. -/
def Deed.newMethod? : Deed → Option MethodPlan
  | addMethod _ m => some m
  | _ => none

namespace History

variable (h : List Deed)

/-- The method that was added with a token. -/
def method? (token : Token) : Option MethodPlan :=
  ((h.filterMap Deed.newMethod?).find? (·.token = token)).map (method h)

def property (q : PropertyDraft) : PropertyPlan :=
  { token := q.token, name := q.name, flags := q.flags, type := q.type
    getter := q.getter.bind (method? h)
    setter := q.setter.bind (method? h) }

def event (e : EventDraft) : EventPlan :=
  { token := e.token, name := e.name, flags := e.flags, type := e.type
    add := e.add.bind (method? h)
    remove := e.remove.bind (method? h)
    raise := e.raise.bind (method? h) }

/-- A type of the blueprint, from what it was added with. -/
def plan (p : TypePlan) : TypePlan :=
  { (typeDraft h p).plan with
    properties := (all h (Deed.property? p.token)).map (property h)
    events := (all h (Deed.event? p.token)).map (event h) }

variable {h}

theorem mem_filterMap_type? {p : TypePlan} : p ∈ h.filterMap Deed.type? ↔ .addType p ∈ h := by
  rw [List.mem_filterMap]
  constructor
  · rintro ⟨x, hx, hsay⟩
    cases x <;> cases hsay
    exact hx
  · exact fun hp => ⟨_, hp, rfl⟩

theorem mem_types {p : TypePlan} (hp : .addType p ∈ h) : typeDraft h p ∈ types h :=
  List.mem_map_of_mem (mem_filterMap_type?.mpr hp)

end History

/-- What a list gets from a mapping without repetition, it gets from one element. -/
theorem eq_of_nodup_filterMap {α β : Type} {l : List α} {f : α → Option β}
    (hnodup : (l.filterMap f).Nodup) {x y : α} {b : β} (hx : x ∈ l) (hy : y ∈ l)
    (hfx : f x = some b) (hfy : f y = some b) : x = y := by
  induction l with
  | nil => cases hx
  | cons a l ih =>
    have hmem {z : α} (hz : z ∈ l) (hfz : f z = some b) : b ∈ l.filterMap f :=
      List.mem_filterMap.mpr ⟨z, hz, hfz⟩
    rw [List.filterMap_cons] at hnodup
    rcases List.mem_cons.mp hx with rfl | hx' <;> rcases List.mem_cons.mp hy with rfl | hy'
    · rfl
    · rw [hfx] at hnodup
      exact absurd (hmem hy' hfy) (List.nodup_cons.mp hnodup).1
    · rw [hfy] at hnodup
      exact absurd (hmem hx' hfx) (List.nodup_cons.mp hnodup).1
    · refine ih ?_ hx' hy'
      split at hnodup
      · exact hnodup
      · exact (List.nodup_cons.mp hnodup).2

namespace Tells

variable {h : List Deed} {d : Draft} (hd : Tells h d)
include hd

section Distinct

variable (hrange : InRange h)
include hrange

/-- No token has been given twice. -/
theorem nodup_added (k : EntityKind) : (added k h).Nodup := by
  rw [hd.added_eq k]
  refine List.Nodup.map_on (fun n hn m hm heq => ?_) List.nodup_range
  have hk := hrange k
  have hn := List.mem_range.mp hn
  have hm := List.mem_range.mp hm
  exact EntityKind.nth_inj (by omega) (by omega) heq

/-- Two deeds that add the same token are one. -/
theorem eq_of_adds? {k : EntityKind} {token : Token} {x y : Deed} (hx : x ∈ h) (hy : y ∈ h)
    (hkx : x.adds? k = some token) (hky : y.adds? k = some token) : x = y :=
  eq_of_nodup_filterMap (hd.nodup_added hrange k) hx hy hkx hky

theorem method?_eq_some_iff {token : Token} {m' : MethodPlan} :
    method? h token = some m' ↔
      ∃ type m, .addMethod type m ∈ h ∧ m.token = token ∧ method h m = m' := by
  have hnew {m : MethodPlan} : m ∈ h.filterMap Deed.newMethod? ↔ ∃ type, .addMethod type m ∈ h := by
    rw [List.mem_filterMap]
    constructor
    · rintro ⟨x, hx, hsay⟩
      cases x <;> cases hsay
      exact ⟨_, hx⟩
    · rintro ⟨type, hm⟩
      exact ⟨_, hm, rfl⟩
  rw [method?, Option.map_eq_some_iff]
  constructor
  · rintro ⟨m, hfind, rfl⟩
    obtain ⟨type, hm⟩ := hnew.mp (List.mem_of_find?_eq_some hfind)
    exact ⟨type, m, hm, by simpa using List.find?_some hfind, rfl⟩
  · rintro ⟨type, m, hm, rfl, rfl⟩
    obtain ⟨a, ha⟩ := Option.isSome_iff_exists.mp (List.find?_isSome.mpr
      (⟨m, hnew.mpr ⟨type, hm⟩, decide_eq_true rfl⟩ :
        ∃ x ∈ h.filterMap Deed.newMethod?, decide (x.token = m.token) = true))
    obtain ⟨type', hm'⟩ := hnew.mp (List.mem_of_find?_eq_some ha)
    have htoken : a.token = m.token := by simpa using List.find?_some ha
    have hsame := hd.eq_of_adds? hrange (k := .method) hm hm' rfl (congrArg some htoken)
    cases hsame
    exact ⟨m, ha, rfl⟩

end Distinct

/-- A type that a deed has been done to has been added. -/
theorem exists_addType {token : Token} {x : Deed} (hx : x ∈ h) (hnames : token ∈ x.names .type) :
    ∃ p, .addType p ∈ h ∧ p.token = token := by
  obtain ⟨y, hy, hadds⟩ := mem_added.mp (hd.named .type x hx token hnames)
  cases y <;> cases hadds
  exact ⟨_, hy, rfl⟩

/-- The methods that a draft finds are those of the history. -/
theorem draftMethod?_eq_some_iff {token : Token} {m' : MethodPlan} :
    d.method? token = some m' ↔
      ∃ type m, .addMethod type m ∈ h ∧ m.token = token ∧ method h m = m' := by
  have hfound {place : Place} {t : TypeDraft} {m : MethodPlan}
      (hplace : d.methodPlaces[token]? = some place) (ht : d.types[place.type]? = some t)
      (hm : t.plan.methods[place.member]? = some m) : d.method? token = some m := by
    simp [Draft.method?, hplace, ht, hm]
  constructor
  · intro hm'
    obtain ⟨place, hplace, -⟩ := Option.bind_eq_some_iff.mp hm'
    obtain ⟨t, m, ht, hm, htoken⟩ := hd.indexed.exists_method hplace
    obtain rfl := Option.some.inj ((hfound hplace ht hm).symm.trans hm')
    have hmem : t ∈ types h := hd.types_eq ▸ Array.mem_toList_iff.mpr (Array.mem_of_getElem? ht)
    obtain ⟨p, -, rfl⟩ := List.mem_map.mp hmem
    obtain ⟨a, ha, rfl⟩ := Array.mem_map.mp (Array.mem_of_getElem? hm)
    obtain ⟨x, hx, hsay⟩ := mem_all.mp ha
    cases x <;> simp only [Deed.method?, reduceCtorEq, Option.ite_none_right_eq_some] at hsay
    obtain ⟨rfl, heq⟩ := hsay
    obtain rfl := Option.some.inj heq
    exact ⟨_, _, hx, htoken, rfl⟩
  · rintro ⟨type, m, hm, rfl, rfl⟩
    obtain ⟨p, hp, rfl⟩ := hd.exists_addType hm (show type ∈ _ by simp [Deed.names])
    obtain ⟨i, hi⟩ := List.getElem?_of_mem (hd.types_eq ▸ mem_types hp)
    have hlisted : method h m ∈ (typeDraft h p).plan.methods :=
      Array.mem_map_of_mem (mem_all.mpr ⟨_, hm, if_pos rfl⟩)
    obtain ⟨j, hj⟩ := Array.getElem?_of_mem hlisted
    have ht : d.types[i]? = some (typeDraft h p) := Array.getElem?_toList.symm.trans hi
    have hplace : d.methodPlaces[m.token]? = some ⟨i, j⟩ := by
      refine (hd.indexed.method _ _).mpr ⟨(typeDraft h p).shape, ?_, ?_⟩
      · rw [Draft.getElem?_shapes, ht, Option.map_some]
      · rw [TypeDraft.shape, List.getElem?_map, Array.getElem?_toList, hj]
        rfl
    exact hfound hplace ht hj

/-- The types of the blueprint are as the history tells them, in the order of addition. -/
theorem finish_types (hrange : InRange h) :
    d.finish.types.toList = (h.filterMap Deed.type?).map (plan h) := by
  have hmethod : d.method? = method? h := by
    funext token
    refine Option.ext fun m => ?_
    rw [hd.draftMethod?_eq_some_iff, hd.method?_eq_some_iff hrange]
  have hproperty : d.planProperty = property h := by
    funext q
    rw [Draft.planProperty, hmethod, property]
  have hevent : d.planEvent = event h := by
    funext e
    rw [Draft.planEvent, hmethod, event]
  change (d.types.map _).toList = _
  rw [Array.toList_map, hd.types_eq, types, List.map_map, hproperty, hevent]
  rfl

end Tells

/-! ## Tokens of the blueprint -/

/-- The tokens of a kind that belong to a type. -/
def EntityKind.tokens (p : TypePlan) : EntityKind → List Token
  | type => [p.token]
  | field => p.fields.toList.map (·.token)
  | method => p.methods.toList.map (·.token)
  | property => p.properties.toList.map (·.token)
  | event => p.events.toList.map (·.token)

theorem TypePlan.tokens_eq_flatMap (p : TypePlan) :
    p.tokens = [.type, .field, .method, .property, .event].flatMap (EntityKind.tokens p) := by
  simp [tokens, MemberSort.tokens, EntityKind.tokens]

/-- The type that a new member belongs to. -/
def Deed.home? : Deed → Option Token
  | addField type _ | addMethod type _ | addProperty type _ | addEvent type _ => some type
  | _ => none

/-- The members of a type are those that were added to it. -/
theorem History.tokens_plan (h : List Deed) (p : TypePlan) {k : EntityKind} (hk : k ≠ .type) :
    k.tokens (plan h p) = added k (h.filter (·.home? = some p.token)) := by
  rw [added, List.filterMap_filter]
  cases k with
  | type => exact absurd rfl hk
  | field | method | property | event =>
    simp only [EntityKind.tokens, plan, typeDraft, all, List.map_toArray, List.map_filterMap]
    refine List.filterMap_congr fun x hx => ?_
    clear hx
    cases x with
    | addField type | addMethod type | addProperty type | addEvent type =>
      by_cases hp : type = p.token <;>
        simp [Deed.field?, Deed.method?, Deed.property?, Deed.event?, Deed.home?, Deed.adds?, hp,
          field, method, property, event]
    | _ => simp [Deed.field?, Deed.method?, Deed.property?, Deed.event?, Deed.home?]

theorem History.map_token_types (h : List Deed) :
    (h.filterMap Deed.type?).map TypePlan.token = added .type h := by
  rw [List.map_filterMap, added]
  refine List.filterMap_congr fun x hx => ?_
  cases x <;> rfl

/-- An index that a type or one of its methods lists comes from a deed. -/
theorem History.exists_index? {h : List Deed} {p : TypePlan} {index : UInt32}
    (hmem : index ∈ (typeDraft h p).plan.declaredIndices) : ∃ x ∈ h, x.index? = some index := by
  have hlisted (owner : Token) {g : GenericPlan} (hg : g ∈ params h owner) :
      ∃ x ∈ h, x.index? = some g.index := by
    obtain ⟨a, ha, hindex⟩ := Tells.exists_generic? hg
    obtain ⟨x, hx, hsay⟩ := mem_all.mp ha
    refine ⟨x, hx, ?_⟩
    cases x <;> simp only [Deed.generic?, reduceCtorEq, Option.ite_none_right_eq_some] at hsay
    rw [← hindex, ← Option.some.inj hsay.2]
    rfl
  obtain ⟨g, hg, rfl⟩ := List.mem_map.mp hmem
  rcases List.mem_append.mp hg with hg | hg
  · refine hlisted p.token ?_
    rw [← getD_generics?]
    exact Array.mem_toList_iff.mp hg
  · obtain ⟨m, hm, hg⟩ := List.mem_flatMap.mp hg
    obtain ⟨a, -, rfl⟩ := Array.mem_map.mp (Array.mem_toList_iff.mp hm)
    refine hlisted a.token ?_
    rw [← getD_generics?]
    exact Array.mem_toList_iff.mp hg

/-- Each token of a type comes from a deed to it. -/
theorem History.exists_adds? {h : List Deed} {p : TypePlan} (hp : .addType p ∈ h) {k : EntityKind}
    {token : Token} (htoken : token ∈ k.tokens (plan h p)) :
    ∃ x ∈ h, x.adds? k = some token ∧ (x = .addType p ∨ x.home? = some p.token) := by
  by_cases hk : k = .type
  · subst hk
    obtain rfl := List.mem_singleton.mp htoken
    exact ⟨_, hp, rfl, .inl rfl⟩
  · rw [tokens_plan h p hk] at htoken
    obtain ⟨x, hx, hadds⟩ := mem_added.mp htoken
    obtain ⟨hx, hhome⟩ := List.mem_filter.mp hx
    exact ⟨x, hx, hadds, .inr (of_decide_eq_true hhome)⟩

theorem EntityKind.table_inj {k k' : EntityKind} (htable : k.table = k'.table) : k = k' := by
  revert htable
  cases k <;> cases k' <;> decide

namespace Tells

variable {h : List Deed} {d : Draft} (hd : Tells h d)
include hd

theorem table_of_mem_added {k : EntityKind} {token : Token} (htoken : token ∈ added k h) :
    token.table = k.table := by
  rw [hd.added_eq k] at htoken
  obtain ⟨n, -, rfl⟩ := List.mem_map.mp htoken
  exact k.table_nth n

/-- A token says its kind. -/
theorem kind_eq {p q : TypePlan} (hp : .addType p ∈ h) (hq : .addType q ∈ h) {k k' : EntityKind}
    {token : Token} (htoken : token ∈ k.tokens (plan h p))
    (htoken' : token ∈ k'.tokens (plan h q)) : k = k' := by
  obtain ⟨x, hx, hadds, -⟩ := exists_adds? hp htoken
  obtain ⟨y, hy, hadds', -⟩ := exists_adds? hq htoken'
  refine EntityKind.table_inj ?_
  rw [← hd.table_of_mem_added (mem_added.mpr ⟨x, hx, hadds⟩),
    ← hd.table_of_mem_added (mem_added.mpr ⟨y, hy, hadds'⟩)]

variable (hrange : InRange h)
include hrange

/-- A token belongs to one type. -/
theorem type_eq {p q : TypePlan} (hp : .addType p ∈ h) (hq : .addType q ∈ h) {k k' : EntityKind}
    {token : Token} (htoken : token ∈ k.tokens (plan h p))
    (htoken' : token ∈ k'.tokens (plan h q)) : p.token = q.token := by
  obtain rfl := hd.kind_eq hp hq htoken htoken'
  obtain ⟨x, hx, hadds, hhome⟩ := exists_adds? hp htoken
  obtain ⟨y, hy, hadds', hhome'⟩ := exists_adds? hq htoken'
  obtain rfl := hd.eq_of_adds? hrange hx hy hadds hadds'
  rcases hhome with rfl | hhome <;> rcases hhome' with hsame | hhome'
  · cases hsame
    rfl
  · cases hhome'
  · rw [hsame] at hhome
    cases hhome
  · exact Option.some.inj (hhome.symm.trans hhome')

theorem nodup_tokens (p : TypePlan) (k : EntityKind) : (k.tokens (plan h p)).Nodup := by
  by_cases hk : k = .type
  · subst hk
    exact List.nodup_singleton _
  · rw [tokens_plan h p hk]
    exact (hd.nodup_added hrange k).sublist (List.filter_sublist.filterMap _)

/-- The tokens of some kinds are distinct over all types. -/
theorem nodup_flatMap_kinds {kinds : List EntityKind} (hkinds : kinds.Nodup) :
    (((h.filterMap Deed.type?).map (plan h)).flatMap fun p =>
      kinds.flatMap (EntityKind.tokens p)).Nodup := by
  have htypes : ((h.filterMap Deed.type?).map TypePlan.token).Pairwise (· ≠ ·) :=
    map_token_types h ▸ hd.nodup_added hrange .type
  refine List.nodup_flatMap.mpr ⟨List.forall_mem_map.mpr fun p hp => ?_, ?_⟩
  · refine List.nodup_flatMap.mpr ⟨fun k _ => hd.nodup_tokens hrange p k, ?_⟩
    refine List.Pairwise.imp (fun hne token htoken htoken' => ?_) hkinds
    exact hne (hd.kind_eq (mem_filterMap_type?.mp hp) (mem_filterMap_type?.mp hp) htoken htoken')
  · refine List.pairwise_map.mpr ((List.pairwise_map.mp htypes).imp_of_mem ?_)
    intro p q hp hq hne token htoken htoken'
    obtain ⟨k, -, htoken⟩ := List.mem_flatMap.mp htoken
    obtain ⟨k', -, htoken'⟩ := List.mem_flatMap.mp htoken'
    exact hne (hd.type_eq hrange (mem_filterMap_type?.mp hp) (mem_filterMap_type?.mp hq) htoken
      htoken')

/-- All tokens of types and members are distinct. -/
theorem nodup_flatMap_tokens :
    (((h.filterMap Deed.type?).map (plan h)).flatMap TypePlan.tokens).Nodup := by
  rw [funext TypePlan.tokens_eq_flatMap]
  exact hd.nodup_flatMap_kinds hrange (by decide)

omit hrange in
/-- What a draft lists is below the next fresh index. -/
theorem lt_nextGeneric (hindices : IndicesInRange h) {p : TypePlan} {index : UInt32}
    (hmem : index ∈ (typeDraft h p).plan.declaredIndices) : index.toNat < d.nextGeneric.toNat := by
  obtain ⟨x, hx, hindex⟩ := exists_index? hmem
  exact hd.fresh hindices x hx index hindex

end Tells

/-! ## Accessors -/

/-- The methods of all types. -/
def Blueprint.methods (b : Blueprint) : List MethodPlan := b.types.toList.flatMap (·.methods.toList)

/-- An accessor is there exactly if its token is given, and it is the method that types list under
the token, one type once. -/
def Blueprint.Represents (b : Blueprint) : (given : Option Token) → Option MethodPlan → Prop
  | none, accessor => accessor = none
  | some token, accessor => ∃ m, accessor = some m ∧ b.methods.filter (·.token = token) = [m]

/-- Among things with different names, one is found by its name. -/
theorem filter_eq_singleton {α β : Type} [DecidableEq β] {l : List α} {f : α → β}
    (hnodup : (l.map f).Nodup) {a : α} (ha : a ∈ l) : l.filter (f · = f a) = [a] := by
  induction l with
  | nil => cases ha
  | cons b l ih =>
    rw [List.map_cons, List.nodup_cons] at hnodup
    rcases List.mem_cons.mp ha with rfl | ha
    · rw [List.filter_cons_of_pos (by simp), List.filter_eq_nil_iff.mpr]
      intro b hb heq
      exact hnodup.1 (of_decide_eq_true heq ▸ List.mem_map_of_mem hb)
    · rw [List.filter_cons_of_neg, ih hnodup.2 ha]
      intro heq
      exact hnodup.1 (of_decide_eq_true heq ▸ List.mem_map_of_mem ha)

theorem Tells.represents {h : List Deed} {d : Draft} (hd : Tells h d) (hrange : InRange h)
    {x : Deed} (hx : x ∈ h) {given : Option Token}
    (hgiven : ∀ token ∈ given.toList, token ∈ x.names .method) :
    d.finish.Represents given (given.bind (method? h)) := by
  cases given with
  | none => rfl
  | some token =>
    obtain ⟨y, hy, hadds⟩ :=
      mem_added.mp (hd.named .method x hx token (hgiven token (List.mem_singleton.mpr rfl)))
    cases y <;> cases hadds
    -- only the addition of a method gives a token of that kind
    case some.addMethod.refl type m =>
    obtain ⟨p, hp, rfl⟩ := hd.exists_addType hy (show type ∈ _ by simp [Deed.names])
    have hmethods : d.finish.methods =
        ((h.filterMap Deed.type?).map (plan h)).flatMap (·.methods.toList) := by
      rw [Blueprint.methods, hd.finish_types hrange]
    have hnodup : (d.finish.methods.map (·.token)).Nodup := by
      rw [hmethods, List.map_flatMap]
      simpa [EntityKind.tokens] using hd.nodup_flatMap_kinds hrange (List.nodup_singleton .method)
    have hlisted : method h m ∈ d.finish.methods := by
      rw [hmethods]
      refine List.mem_flatMap.mpr ⟨plan h p, List.mem_map_of_mem (mem_filterMap_type?.mpr hp), ?_⟩
      exact Array.mem_toList_iff.mpr (Array.mem_map_of_mem (mem_all.mpr ⟨_, hy, if_pos rfl⟩))
    refine ⟨method h m, (hd.method?_eq_some_iff hrange).mpr ⟨_, m, hy, rfl, rfl⟩, ?_⟩
    exact filter_eq_singleton hnodup hlisted

/-! ## Sessions -/

namespace Session

variable (module : String) (requests : List Request)

def answers : List (Except Failure Answer) := Draft.answers { module } requests

def history : List Deed := Draft.history { module } requests

def blueprint : Blueprint := (Draft.after { module } requests).finish

/-- A session keeps its indices exact. -/
structure Exact : Prop where
  /-- The tokens of a kind are the rows of a table, in the order of addition. -/
  rows : ∀ k n token, (added k (history module requests))[n]? = some token →
    token.table = k.table ∧ token.row.toNat = n + 1
  /-- No token is given twice. -/
  distinct : ([.type, .field, .method, .property, .event].flatMap
    (added · (history module requests))).Nodup
  /-- A fresh index is listed by no type or method when it is handed out. -/
  fresh : ∀ before owner name flags rest index,
    requests = before ++ .addGeneric owner name flags :: rest →
    (answers module requests)[before.length]? = some (.ok (.index index)) →
    IndicesInRange (history module before) →
    ∀ p ∈ (blueprint module before).types, index ∉ p.declaredIndices
  /-- The blueprint has the types in the order of addition, each as the history tells it. -/
  types : (blueprint module requests).types.toList =
    ((history module requests).filterMap Deed.type?).map (plan (history module requests))
  /-- Under a token there is what was added with it. -/
  type? : ∀ token p, (blueprint module requests).type? token = some p ↔
    ∃ q, .addType q ∈ history module requests ∧ q.token = token ∧
      plan (history module requests) q = p
  properties : ∀ type q, .addProperty type q ∈ history module requests →
    (blueprint module requests).Represents q.getter
      (property (history module requests) q).getter ∧
    (blueprint module requests).Represents q.setter
      (property (history module requests) q).setter
  events : ∀ type e, .addEvent type e ∈ history module requests →
    (blueprint module requests).Represents e.add (event (history module requests) e).add ∧
    (blueprint module requests).Represents e.remove (event (history module requests) e).remove ∧
    (blueprint module requests).Represents e.raise (event (history module requests) e).raise

variable {module requests}

theorem tells (hrange : InRange (history module requests)) :
    Tells (history module requests) (Draft.after { module } requests) :=
  Draft.tells_after [] (Tells.empty module) (by rwa [List.append_nil])

end Session

/-- An index that is handed out is the one that the draft keeps for that. -/
theorem Draft.nextGeneric_of_answer {d : Draft} {owner : Token} {name : String}
    {flags : GenericFlags} {index : UInt32}
    (hanswer : (outcome (perform (.addGeneric owner name flags)) d).1 = .ok (.index index)) :
    d.nextGeneric = index := by
  unfold perform at hanswer
  rw [outcome_map, outcome_addGeneric] at hanswer
  cases hdeclared : (outcome (declareGeneric owner d.nextGeneric name flags) d).1 with
  | error e =>
    rw [hdeclared] at hanswer
    cases hanswer
  | ok =>
    rw [hdeclared] at hanswer
    cases hanswer
    rfl

/-- The n-th entity of a kind has the n-th row of the table. -/
theorem Tells.row_added {h : List Deed} {d : Draft} (hd : Tells h d) (hrange : InRange h)
    {k : EntityKind} {n : Nat} {token : Token} (htoken : (added k h)[n]? = some token) :
    token.table = k.table ∧ token.row.toNat = n + 1 := by
  have hn := (List.getElem?_eq_some_iff.mp htoken).1
  have hk := hrange k
  rw [hd.added_eq k, List.getElem?_map, List.getElem?_range hn, Option.map_some] at htoken
  obtain rfl := Option.some.inj htoken
  exact ⟨k.table_nth n, k.row_nth (by omega)⟩

/-- No token is given twice, nor to entities of two kinds. -/
theorem Tells.nodup_flatMap_added {h : List Deed} {d : Draft} (hd : Tells h d) (hrange : InRange h)
    {kinds : List EntityKind} (hkinds : kinds.Nodup) : (kinds.flatMap (added · h)).Nodup := by
  refine List.nodup_flatMap.mpr ⟨fun k _ => hd.nodup_added hrange k, ?_⟩
  refine List.Pairwise.imp (fun hne token htoken htoken' => hne (EntityKind.table_inj ?_)) hkinds
  rw [← hd.table_of_mem_added htoken, ← hd.table_of_mem_added htoken']

open Session in
/-- A session keeps its indices exact, whatever is asked and refused in it, as long as the rows of
the tables last. -/
theorem session_exact {module : String} {requests : List Request}
    (hrange : InRange (history module requests)) : Session.Exact module requests := by
  have htells := tells hrange
  have htypes : (blueprint module requests).types.toList =
      ((history module requests).filterMap Deed.type?).map (plan (history module requests)) :=
    htells.finish_types hrange
  refine ⟨fun k n token htoken => htells.row_added hrange htoken,
    htells.nodup_flatMap_added hrange (by decide), ?_, htypes, fun token p => ?_, ?_, ?_⟩
  · -- the index that is answered is the next fresh one, and what is listed lies below it
    rintro before owner name flags rest index rfl hanswer hindices p hp hmem
    have hbefore : Tells (history module before) (Draft.after { module } before) :=
      Draft.tells_after _ (Tells.empty module) (List.nil_append _ ▸ hrange)
    rw [answers, Draft.getElem?_answers] at hanswer
    have hindex := Draft.nextGeneric_of_answer (Option.some.inj hanswer)
    obtain ⟨t, ht, rfl⟩ := Array.mem_map.mp hp
    obtain ⟨q, -, rfl⟩ := List.mem_map.mp (hbefore.types_eq ▸ Array.mem_toList_iff.mpr ht)
    have hlt := hbefore.lt_nextGeneric hindices hmem
    rw [hindex] at hlt
    exact Nat.lt_irrefl _ hlt
  · have hnodup : ((blueprint module requests).types.toList.map TypePlan.token).Nodup := by
      rw [htypes, List.map_map]
      exact map_token_types _ ▸ htells.nodup_added hrange .type
    rw [Blueprint.type?_eq_some hnodup, htypes, List.mem_map]
    constructor
    · rintro ⟨⟨q, hq, rfl⟩, rfl⟩
      exact ⟨q, mem_filterMap_type?.mp hq, rfl, rfl⟩
    · rintro ⟨q, hq, rfl, rfl⟩
      exact ⟨⟨q, mem_filterMap_type?.mpr hq, rfl⟩, rfl⟩
  · intro type q hq
    exact ⟨htells.represents hrange hq fun token ht => by simp [Deed.names, ht],
      htells.represents hrange hq fun token ht => by simp [Deed.names, ht]⟩
  · intro type e he
    exact ⟨htells.represents hrange he fun token ht => by simp [Deed.names, ht],
      htells.represents hrange he fun token ht => by simp [Deed.names, ht],
      htells.represents hrange he fun token ht => by simp [Deed.names, ht]⟩

/-- A lender and a loan. The lender's property is read through a method of the loan, a parameter
is constrained before it is declared, and two requests are about entities that are not there. -/
def lending : List Request := [
  .addType "Books" "Lender`1" .empty .classType,
  .addType "Books" "Loan" .empty .classType,
  .setBase ⟨0x02000003⟩ (TypeRef.primitive .object),
  .addConstraint ⟨0x02000001⟩ 7 (TypeRef.primitive .object),
  .declareGeneric ⟨0x02000001⟩ 7 "T" .empty,
  .addMethod ⟨0x02000002⟩ "get_Due" .empty .empty (TypeRef.primitive .object),
  .addGeneric ⟨0x06000001⟩ "U" .empty,
  .addProperty ⟨0x02000001⟩ "Due" .empty (TypeRef.primitive .object) (some ⟨0x06000001⟩) none,
  .addProperty ⟨0x02000001⟩ "Late" .empty (TypeRef.primitive .object) (some ⟨0x06000001⟩)
    (some ⟨0x06000002⟩),
  .addField ⟨0x02000002⟩ "Days" .empty (TypeRef.primitive .object),
  .setFieldDefault ⟨0x04000001⟩ (Datum.i4 14).constant,
  .setFieldDefault ⟨0x04000001⟩ (Datum.i4 28).constant]

theorem session_exact_lending :
    InRange (Session.history "Books.dll" lending) ∧
      (Session.history "Books.dll" lending).length = 10 ∧ Session.Exact "Books.dll" lending := by
  have hrange : InRange (Session.history "Books.dll" lending) := by
    intro k
    cases k <;> decide +kernel
  exact ⟨hrange, by decide +kernel, session_exact hrange⟩

end ClrImage
