import ClrImage.Proofs.Deeds
import ClrImage.Proofs.TableCalls
import Mathlib.Data.Finset.Card

/-!
# First offers

The link table has a map for each kind of object, the registry has one for generic parameters. All
six are write-once: whatever is asked of them, and in whatever order, a token or a key holds **the
first object that was offered for it**, and nothing else from then on.

- `WriteOnce.offerAll`, `WriteOnce.get?_offerAll`: many offers to one map.
- `LinkTable.ofKind`, `LinkTable.link_eq`: the map of a kind, and a link as an offer.
- `TableRequest`, `Pool.answer`, `Pool.step`, `Pool.after`: what can be asked, the answers, and any
  sequence of requests.
- `Pool.ofKind_step`, `Pool.ofKind_after`: a request offers something to at most one map.
- `Pool.Registered`: registered objects are there, each under one key only.
- `GenericKey.Before`: the order of keys in words.
- `tables_hold_first_offers`: what the tables hold and list behind any requests, and what any
  request is answered.
-/

namespace ClrImage

/-! ## Offers to one map -/

namespace WriteOnce

variable {κ ν : Type} [Ord κ]

/-- The keys in their order. -/
def keys (m : WriteOnce κ ν) : List κ := m.entries.keys

theorem pairwise_keys [Std.TransOrd κ] (m : WriteOnce κ ν) :
    m.keys.Pairwise fun a b => compare a b = .lt :=
  Std.TreeMap.ordered_keys

theorem mem_keys [Std.TransOrd κ] [Std.LawfulEqOrd κ] {m : WriteOnce κ ν} {key : κ} :
    key ∈ m.keys ↔ (m.get? key).isSome = true := by
  unfold keys get?
  rw [Std.TreeMap.mem_keys, Std.TreeMap.mem_iff_isSome_getElem?]

/-- The values are those of the keys, in their order. -/
theorem map_values [Std.TransOrd κ] [Std.LawfulEqOrd κ] (m : WriteOnce κ ν) :
    m.values.map some = m.keys.map m.get? := by
  unfold keys
  rw [values_eq, ← Std.TreeMap.map_fst_toList_eq_keys, List.map_map, List.map_map]
  refine List.map_congr_left fun entry hentry => ?_
  exact (Std.TreeMap.mem_toList_iff_getElem?_eq_some.mp hentry).symm

/-- There are as many entries as keys that hold something. -/
theorem size_eq_card [Std.TransOrd κ] [Std.LawfulEqOrd κ] [DecidableEq κ] {m : WriteOnce κ ν}
    {used : Finset κ} (h : ∀ key, key ∈ used ↔ (m.get? key).isSome = true) :
    m.size = used.card := by
  have hnodup : m.keys.Nodup := by
    refine m.pairwise_keys.imp fun {a b} hlt heq => ?_
    rw [heq, Std.ReflOrd.compare_self] at hlt
    cases hlt
  have hused : m.keys.toFinset = used := by
    ext key
    rw [List.mem_toFinset, mem_keys, h]
  calc m.size = m.keys.length := Std.TreeMap.length_keys.symm
    _ = m.keys.toFinset.card := (List.toFinset_card_of_nodup hnodup).symm
    _ = used.card := by rw [hused]

/-- A key that holds another value is not changed by the offer. -/
theorem offer_of_ne {m : WriteOnce κ ν} {key : κ} {value : ν}
    (hother : ¬ (m.get? key).getD value = value) : m.offer key value = m := by
  have hheld : (m.get? key).isSome = true := by
    cases hheld : m.get? key with
    | none =>
      rw [hheld] at hother
      exact absurd rfl hother
    | some held => rfl
  exact if_pos hheld

/-- Offers values one after the other. -/
def offerAll (m : WriteOnce κ ν) (offers : List (κ × ν)) : WriteOnce κ ν :=
  offers.foldl (fun m offer => m.offer offer.1 offer.2) m

variable [Std.TransOrd κ] [Std.LawfulEqOrd κ] [DecidableEq κ]

/-- A key holds what it held already, or else the first value that is offered for it. -/
theorem get?_offerAll (m : WriteOnce κ ν) (offers : List (κ × ν)) (key : κ) :
    (m.offerAll offers).get? key = (m.get? key).or (offers.lookup key) := by
  induction offers generalizing m with
  | nil => exact (Option.or_none).symm
  | cons offer offers ih =>
    refine (ih _).trans ?_
    rw [get?_offer, List.lookup_cons]
    by_cases hkey : key = offer.1
    · subst hkey
      cases m.get? offer.1 <;> simp
    · have hne : (key == offer.1) = false := beq_false_of_ne hkey
      rw [if_neg hkey, hne]

omit [Ord κ] [Std.TransOrd κ] [Std.LawfulEqOrd κ] in
theorem isSome_lookup_iff {offers : List (κ × ν)} {key : κ} :
    (offers.lookup key).isSome = true ↔ key ∈ offers.map Prod.fst := by
  rw [List.lookup_isSome_iff, List.mem_map]
  constructor
  · rintro ⟨offer, hoffer, hkey⟩
    exact ⟨offer, hoffer, (eq_of_beq hkey).symm⟩
  · rintro ⟨offer, hoffer, rfl⟩
    exact ⟨offer, hoffer, beq_self_eq_true _⟩

/-- A map that was empty has as many entries as there are keys among the offers. -/
theorem size_offerAll (offers : List (κ × ν)) :
    (({} : WriteOnce κ ν).offerAll offers).size = (offers.map Prod.fst).toFinset.card := by
  refine size_eq_card fun key => ?_
  rw [List.mem_toFinset, get?_offerAll, get?_empty, Option.none_or, isSome_lookup_iff]

end WriteOnce

/-! ## The maps of the link table -/

/-- The objects that are made of entities of a kind. -/
def EntityKind.object : EntityKind → ObjectKind
  | type => .type
  | field => .field
  | method => .method
  | property => .property
  | event => .event

namespace LinkTable

/-- The map of a kind. -/
def ofKind (t : LinkTable) : (k : EntityKind) → WriteOnce Token (Handle k.object)
  | .type => t.types
  | .field => t.fields
  | .method => t.methods
  | .property => t.properties
  | .event => t.events

/-- The table with another map for a kind. -/
def withKind (t : LinkTable) : (k : EntityKind) → WriteOnce Token (Handle k.object) → LinkTable
  | .type, types => { t with types }
  | .field, fields => { t with fields }
  | .method, methods => { t with methods }
  | .property, properties => { t with properties }
  | .event, events => { t with events }

@[simp] theorem ofKind_withKind (t : LinkTable) (k : EntityKind)
    (m : WriteOnce Token (Handle k.object)) : (t.withKind k m).ofKind k = m := by
  cases k <;> rfl

theorem ofKind_withKind_of_ne (t : LinkTable) {k k' : EntityKind}
    (m : WriteOnce Token (Handle k'.object)) (hne : k ≠ k') :
    (t.withKind k' m).ofKind k = t.ofKind k := by
  cases k <;> cases k' <;> first | rfl | exact absurd rfl hne

@[simp] theorem withKind_ofKind (t : LinkTable) (k : EntityKind) :
    t.withKind k (t.ofKind k) = t := by
  cases k <;> rfl

variable {k : ObjectKind}

/-- A link is an offer. It is refused if another object is held behind it. -/
theorem link_eq (m : WriteOnce Token (Handle k)) (token : Token) (h : Handle k) :
    link m token h =
      if (m.get? token).getD h = h then .ok (m.offer token h)
      else .error (.duplicateLink token) := by
  unfold link WriteOnce.offer
  cases hheld : m.get? token with
  | none => simp
  | some held => simp

end LinkTable

/-! ## Requests -/

/-- What can be asked of the tables, and of the pool that the objects come from. -/
inductive TableRequest
  | write (call : TableCall)
  /-- The key of an index below a top-level type. -/
  | keyOf (index : UInt32) (topLevel : Token)

/-- What a request is answered. -/
inductive TableAnswer
  | done
  | key (key : GenericKey)
  /-- The parameter that is held, and whether it is the one that the request has brought. -/
  | registered (held : GenericHandle) (inserted : Bool)
deriving DecidableEq

/-- What a call offers for a token of a kind. -/
def TableCall.link? : (k : EntityKind) → TableCall → Option (Token × Handle k.object)
  | .type, .linkType token h => some (token, h)
  | .field, .linkField token h => some (token, h)
  | .method, .linkMethod token h => some (token, h)
  | .property, .linkProperty token h => some (token, h)
  | .event, .linkEvent token h => some (token, h)
  | _, _ => none

namespace TableRequest

/-- What a request offers for a token of a kind. -/
def link? (k : EntityKind) : TableRequest → Option (Token × Handle k.object)
  | .write call => call.link? k
  | .keyOf _ _ => none

/-- The parameter that a request brings, and the key for it. -/
def param? : TableRequest → Option (GenericKey × GenericParam)
  | .write (.register key param) => some (key, param)
  | _ => none

/-- A request offers an object for a token of some kind, or brings a parameter, or leaves the tables
alone. -/
theorem cases (r : TableRequest) :
    (∃ k offer, r.link? k = some offer) ∨ (∃ key param, r = .write (.register key param)) ∨
      (∃ k object, r = .write (.make k object)) ∨ ∃ index topLevel, r = .keyOf index topLevel := by
  cases r with
  | keyOf index topLevel => exact .inr (.inr (.inr ⟨index, topLevel, rfl⟩))
  | write call =>
    cases call with
    | make k object => exact .inr (.inr (.inl ⟨k, object, rfl⟩))
    | register key param => exact .inr (.inl ⟨key, param, rfl⟩)
    | linkType => exact .inl ⟨.type, _, rfl⟩
    | linkField => exact .inl ⟨.field, _, rfl⟩
    | linkMethod => exact .inl ⟨.method, _, rfl⟩
    | linkProperty => exact .inl ⟨.property, _, rfl⟩
    | linkEvent => exact .inl ⟨.event, _, rfl⟩

theorem eq_of_param? {r : TableRequest} {key : GenericKey} {param : GenericParam}
    (h : r.param? = some (key, param)) : r = .write (.register key param) := by
  unfold param? at h
  split at h
  · cases h
    rfl
  · cases h

end TableRequest

namespace Pool

/-- What a request is answered. -/
def answer (p : Pool) : TableRequest → Except Failure TableAnswer
  | .write (.register key param) =>
    .ok (.registered (p.register key param).1.1 (p.register key param).1.2)
  | .write call => (p.call call).map fun _ => .done
  | .keyOf index topLevel => .ok (.key (p.registry.key index topLevel))

/-- The pool behind a request. One that is refused leaves it as it is. -/
def step (p : Pool) : TableRequest → Pool
  | .write call => (p.call call).toOption.getD p
  | .keyOf _ _ => p

/-- The pool behind some requests. -/
def after (p : Pool) (requests : List TableRequest) : Pool := requests.foldl step p

variable {p : Pool}

/-- No request takes anything back. -/
theorem extends_step (p : Pool) (r : TableRequest) : p.Extends (p.step r) := by
  cases r with
  | write call => exact p.extends_callAll [call]
  | keyOf => exact .refl p

theorem extends_after (p : Pool) (requests : List TableRequest) : p.Extends (p.after requests) := by
  induction requests generalizing p with
  | nil => exact .refl p
  | cons r requests ih => exact (p.extends_step r).trans (ih (p.step r))

/-! ### Links -/

variable {call : TableCall} {r : TableRequest} {k : EntityKind} {token : Token}
  {h : Handle k.object}

/-- The calls that link objects are one function of the kind. -/
theorem call_eq_of_link? (hlink : call.link? k = some (token, h)) :
    p.call call = (LinkTable.link (p.links.ofKind k) token h).map fun m =>
      { p with links := p.links.withKind k m } := by
  have hmap {j : ObjectKind} (m : WriteOnce Token (Handle j)) (h : Handle j)
      (withMap : WriteOnce Token (Handle j) → LinkTable) :
      ((LinkTable.link m token h).map withMap).map (fun links => { p with links }) =
        (LinkTable.link m token h).map fun m => { p with links := withMap m } := by
    cases LinkTable.link m token h <;> rfl
  cases k <;> cases call <;> cases hlink <;> exact hmap _ h _

/-- What is offered for a token of a kind is offered to the map of the kind, also if it is refused.
Nothing else changes. -/
theorem step_of_link? (hlink : r.link? k = some (token, h)) :
    p.step r =
      { p with links := p.links.withKind k ((p.links.ofKind k).offer token h) } := by
  cases r with
  | keyOf => cases hlink
  | write call =>
    have hcall : p.call call = _ := call_eq_of_link? hlink
    rw [step, hcall, LinkTable.link_eq]
    split
    next => rfl
    next hother =>
      rw [WriteOnce.offer_of_ne hother, LinkTable.withKind_ofKind]
      rfl

/-- A request changes at most one map, the one of the kind that it offers something for. -/
theorem ofKind_step (p : Pool) (r : TableRequest) (k : EntityKind) :
    (p.step r).links.ofKind k =
      (p.links.ofKind k).offerAll (r.link? k).toList := by
  cases hlink : r.link? k with
  | some offer =>
    rw [step_of_link? hlink, LinkTable.ofKind_withKind]
    rfl
  | none =>
    show _ = p.links.ofKind k
    obtain ⟨k', offer, hoffer⟩ | ⟨key, param, rfl⟩ | ⟨j, object, rfl⟩ | ⟨index, top, rfl⟩ := r.cases
    · have hne : k ≠ k' := by
        rintro rfl
        cases hlink.symm.trans hoffer
      rw [step_of_link? hoffer, LinkTable.ofKind_withKind_of_ne _ _ hne]
    all_goals rfl

/-- A map has been offered what all requests have offered for tokens of its kind. -/
theorem ofKind_after (p : Pool) (requests : List TableRequest) (k : EntityKind) :
    (p.after requests).links.ofKind k =
      (p.links.ofKind k).offerAll (requests.filterMap (·.link? k)) := by
  induction requests generalizing p with
  | nil => rfl
  | cons r requests ih =>
    refine (ih (p.step r)).trans ?_
    rw [ofKind_step, List.filterMap_cons]
    cases r.link? k <;> rfl

theorem answer_of_link? (hlink : r.link? k = some (token, h)) :
    p.answer r = if ((p.links.ofKind k).get? token).getD h = h then .ok .done
      else .error (.duplicateLink token) := by
  cases r with
  | keyOf => cases hlink
  | write call =>
    have hanswer : p.answer (.write call) = (p.call call).map fun _ => .done := by
      cases call <;> first | rfl | (cases k <;> cases hlink)
    have hcall : p.call call = _ := call_eq_of_link? hlink
    rw [hanswer, hcall, LinkTable.link_eq]
    split <;> rfl

/-! ### Registrations -/

/-- Registered parameters are objects, and none is registered for two keys. -/
structure Registered (p : Pool) : Prop where
  live : ∀ key g, p.registry.get? key = some g → (p.store.generics.get? g).isSome = true
  apart : ∀ key key' g, p.registry.get? key = some g → p.registry.get? key' = some g → key = key'

variable {key : GenericKey} {param : GenericParam} {g : GenericHandle}

theorem step_register (p : Pool) (key : GenericKey) (param : GenericParam) :
    p.step (.write (.register key param)) = (p.register key param).2 := rfl

theorem answer_register (p : Pool) (key : GenericKey) (param : GenericParam) :
    p.answer (.write (.register key param)) =
      .ok (.registered (p.register key param).1.1 (p.register key param).1.2) := rfl

/-- A parameter that is brought for a free key becomes a new object. -/
theorem step_of_free (hparam : r.param? = some (key, param))
    (hfree : p.registry.get? key = none) :
    p.answer r = .ok (.registered p.store.generics.next true) ∧
      (p.step r).store.generics = p.store.generics.alloc param ∧
      ∀ k, (p.step r).registry.get? k =
        if k = key then some p.store.generics.next else p.registry.get? k := by
  obtain rfl : r = .write (.register key param) := TableRequest.eq_of_param? hparam
  have hregister : p.registry.register key p.store.generics.next =
      ((p.store.generics.next, true), { p.registry with
        params := p.registry.params.offer key p.store.generics.next }) := by
    rw [GenericRegistry.register, hfree]
  rw [answer_register, step_register, register, hregister]
  exact ⟨rfl, rfl, GenericRegistry.get?_offer_of_none hfree _⟩

theorem step_of_held (hparam : r.param? = some (key, param))
    (hheld : p.registry.get? key = some g) :
    p.answer r = .ok (.registered g false) ∧ p.step r = p := by
  obtain rfl : r = .write (.register key param) := TableRequest.eq_of_param? hparam
  have hregister : p.registry.register key p.store.generics.next = ((g, false), p.registry) := by
    rw [GenericRegistry.register, hheld]
  rw [answer_register, step_register, register, hregister]
  exact ⟨rfl, rfl⟩

/-- All other requests leave the registry as it is. -/
theorem registry_step_of_eq_none (hparam : r.param? = none) :
    (p.step r).registry = p.registry := by
  obtain ⟨k, offer, hoffer⟩ | ⟨key, param, rfl⟩ | ⟨j, object, rfl⟩ | ⟨index, top, rfl⟩ := r.cases
  · rw [step_of_link? hoffer]
  · cases hparam
  · rfl
  · rfl

theorem Registered.step (hp : p.Registered) (r : TableRequest) : (p.step r).Registered := by
  have hkept {g : GenericHandle} (hg : (p.store.generics.get? g).isSome = true) :
      ((p.step r).store.generics.get? g).isSome = true := by
    obtain ⟨x, hx⟩ := Option.isSome_iff_exists.mp hg
    have hx := ((p.extends_step r).objects .generic).get?_eq hx
    exact Option.isSome_iff_exists.mpr ⟨x, hx⟩
  rcases hparam : r.param? with _ | ⟨key, param⟩
  · have hsame : (p.step r).registry = p.registry := registry_step_of_eq_none hparam
    exact ⟨fun k g hg => hkept (hp.live k g (hsame ▸ hg)), fun k k' g hg hg' =>
      hp.apart k k' g (hsame ▸ hg) (hsame ▸ hg')⟩
  · cases hheld : p.registry.get? key with
    | some g =>
      rw [(step_of_held hparam hheld).2]
      exact hp
    | none =>
      obtain ⟨-, hgenerics, hget⟩ := step_of_free hparam hheld
      -- the new object is registered for no other key
      have hnew (k : GenericKey) : p.registry.get? k ≠ some p.store.generics.next := by
        intro hk
        have hlive := hp.live k _ hk
        rw [Arena.get?_next] at hlive
        cases hlive
      constructor
      · intro k g hg
        rw [hget] at hg
        split at hg
        · obtain rfl := Option.some.inj hg
          rw [hgenerics, Arena.get?_alloc_next]
          rfl
        · exact hkept (hp.live k g hg)
      · intro k k' g hg hg'
        rw [hget] at hg hg'
        split at hg <;> split at hg'
        next hk hk' => rw [hk, hk']
        next => exact absurd (hg.symm ▸ hg') (hnew k')
        next => exact absurd (hg'.symm ▸ hg) (hnew k)
        next => exact hp.apart k k' g hg hg'

theorem Registered.after (hp : p.Registered) (requests : List TableRequest) :
    (p.after requests).Registered := by
  induction requests generalizing p with
  | nil => exact hp
  | cons r requests ih => exact ih (hp.step r)

/-- What is registered for a key, as an object. -/
def paramFor? (p : Pool) (key : GenericKey) : Option GenericParam :=
  (p.registry.get? key).bind p.store.generics.get?

theorem Registered.isSome_paramFor? (hp : p.Registered) (key : GenericKey) :
    (p.paramFor? key).isSome = (p.registry.get? key).isSome := by
  unfold paramFor?
  cases hg : p.registry.get? key with
  | none => rfl
  | some g => exact hp.live key g hg

/-- A registered parameter stays the same object. -/
theorem Extends.paramFor?_eq {p' : Pool} (h : p.Extends p') {x : GenericParam}
    (hx : p.paramFor? key = some x) : p'.paramFor? key = some x := by
  obtain ⟨g, hg, hx⟩ := Option.bind_eq_some_iff.mp hx
  exact Option.bind_eq_some_iff.mpr ⟨g, h.registry key g hg, (h.objects .generic).get?_eq hx⟩

theorem Registered.paramFor?_step (hp : p.Registered) (r : TableRequest) (key : GenericKey) :
    (p.step r).paramFor? key = (p.paramFor? key).or (r.param?.toList.lookup key) := by
  cases hx : p.paramFor? key with
  | some x => exact (p.extends_step r).paramFor?_eq hx
  | none =>
    have hfree : p.registry.get? key = none := by
      have hsome := hp.isSome_paramFor? key
      rw [hx] at hsome
      exact Option.not_isSome_iff_eq_none.mp (hsome ▸ Bool.false_ne_true)
    rw [Option.none_or]
    rcases hparam : r.param? with _ | ⟨key', param⟩
    · rw [paramFor?, registry_step_of_eq_none hparam, hfree]
      rfl
    · show _ = List.lookup key [(key', param)]
      rw [List.lookup_cons, List.lookup_nil]
      by_cases hkey : key = key'
      · subst hkey
        obtain ⟨-, hgenerics, hget⟩ := step_of_free hparam hfree
        rw [paramFor?, hget, if_pos rfl, hgenerics, beq_self_eq_true]
        exact Arena.get?_alloc_next _ param
      · have hsame : (p.step r).registry.get? key = none := by
          cases hheld : p.registry.get? key' with
          | some g => rw [(step_of_held hparam hheld).2, hfree]
          | none => rw [(step_of_free hparam hheld).2.2, if_neg hkey, hfree]
        rw [paramFor?, hsame, beq_false_of_ne hkey]
        rfl

theorem Registered.paramFor?_after (hp : p.Registered) (requests : List TableRequest)
    (key : GenericKey) :
    (p.after requests).paramFor? key =
      (p.paramFor? key).or ((requests.filterMap (·.param?)).lookup key) := by
  induction requests generalizing p with
  | nil => exact (Option.or_none).symm
  | cons r requests ih =>
    refine (ih (hp.step r)).trans ?_
    rw [hp.paramFor?_step, List.filterMap_cons, Option.or_assoc]
    rcases r.param? with _ | offer
    · rfl
    · rw [Option.toList_some, ← List.lookup_append]
      rfl

end Pool

/-! ## The order of keys -/

/-- Keys without a scope come first. Then it is the scope that counts, and last the index. -/
inductive GenericKey.Before : GenericKey → GenericKey → Prop
  | unscoped (scope : Token) (i j : UInt32) : Before ⟨none, i⟩ ⟨some scope, j⟩
  | scope {s t : Token} (h : s.value < t.value) (i j : UInt32) : Before ⟨some s, i⟩ ⟨some t, j⟩
  | index (scope : Option Token) {i j : UInt32} (h : i < j) : Before ⟨scope, i⟩ ⟨scope, j⟩

theorem GenericKey.before_of_compare {a b : GenericKey} (h : compare a b = .lt) : a.Before b := by
  obtain ⟨s, i⟩ := a
  obtain ⟨t, j⟩ := b
  have h : (compare s t).then (compare i j) = .lt := h
  rcases Ordering.then_eq_lt.mp h with hscope | ⟨hscope, hindex⟩
  · cases s with
    | none =>
      cases t with
      | none => cases hscope
      | some t => exact .unscoped t i j
    | some s =>
      cases t with
      | none => cases hscope
      | some t => exact .scope (Std.compare_eq_lt.mp hscope) i j
  · obtain rfl : s = t := Std.LawfulEqOrd.eq_of_compare hscope
    exact .index s (Std.compare_eq_lt.mp hindex)

/-! ## What tables hold -/

namespace TableRequest

/-- The tokens of a kind for which requests offer something. -/
def tokens (k : EntityKind) (requests : List TableRequest) : List Token :=
  (requests.filterMap (·.link? k)).map Prod.fst

/-- The keys for which requests bring a parameter. -/
def keys (requests : List TableRequest) : List GenericKey :=
  (requests.filterMap (·.param?)).map Prod.fst

end TableRequest

namespace Pool

/-- Tables that are still empty, and the objects that there are already. -/
def fresh (store : Store) (scope : RegistryScope) : Pool := { store, registry := ⟨scope, {}⟩ }

/-- The tables hold the first offers behind requests, and answer the next one by them. -/
structure HoldsFirst (start : Pool) (requests : List TableRequest) : Prop where
  /-- A token holds the first object that was offered for it, within each kind. -/
  linked : ∀ k token, ((start.after requests).links.ofKind k).get? token =
    (requests.filterMap (·.link? k)).lookup token
  /-- A link is accepted if the token is free or holds that very object, and else refused. -/
  linkAnswer : ∀ k token h r, r.link? k = some (token, h) →
    ((start.after requests).answer r = .ok .done ∧
        ∀ held, (requests.filterMap (·.link? k)).lookup token = some held → held = h) ∨
      ((start.after requests).answer r = .error (.duplicateLink token) ∧
        ∃ held, (requests.filterMap (·.link? k)).lookup token = some held ∧ held ≠ h)
  /-- A key holds an object with what was first brought for it. -/
  registered : ∀ key, (start.after requests).paramFor? key =
    (requests.filterMap (·.param?)).lookup key
  /-- All registrations for a key are answered with the object that it holds from the first of them
  on. The first one has made this object and says so; the others change nothing. -/
  registerAnswer : ∀ before r rest key param, requests = before ++ r :: rest →
    r.param? = some (key, param) → ∃ g, (start.after requests).registry.get? key = some g ∧
      (start.after before).answer r =
        .ok (.registered g (decide (key ∉ TableRequest.keys before))) ∧
      (key ∉ TableRequest.keys before → (start.after before).store.generics.get? g = none) ∧
      (key ∈ TableRequest.keys before → start.after (before ++ [r]) = start.after before)
  /-- Nothing is registered for a key for which nothing was brought. -/
  unregistered : ∀ key, key ∉ TableRequest.keys requests →
    (start.after requests).registry.get? key = none
  /-- The key of an index is the same at all times. -/
  keyAnswer : ∀ index topLevel, (start.after requests).answer (.keyOf index topLevel) =
    .ok (.key (start.registry.key index topLevel))
  /-- A request about one kind leaves the maps of all others as they are. -/
  apart : ∀ r, (∀ k, r.link? k = none →
      ((start.after (requests ++ [r])).links.ofKind k) = (start.after requests).links.ofKind k) ∧
    (r.param? = none → (start.after (requests ++ [r])).registry = (start.after requests).registry)
  typeCount : (start.after requests).links.typeCount =
    (TableRequest.tokens .type requests).toFinset.card
  methodCount : (start.after requests).links.methodCount =
    (TableRequest.tokens .method requests).toFinset.card
  registrySize : (start.after requests).registry.size =
    (TableRequest.keys requests).toFinset.card
  /-- The parameters are listed in the order of their keys, each of them once. -/
  listed : ∃ keys : List GenericKey, keys.Pairwise GenericKey.Before ∧
    (∀ key, key ∈ keys ↔ key ∈ TableRequest.keys requests) ∧
    (start.after requests).registry.toList.map some =
      keys.map (start.after requests).registry.get? ∧
    (start.after requests).registry.toList.Nodup

variable (store : Store) (scope : RegistryScope) (requests : List TableRequest)

theorem after_concat (p : Pool) (r : TableRequest) :
    p.after (requests ++ [r]) = (p.after requests).step r := by
  rw [after, List.foldl_append]
  rfl

theorem ofKind_fresh (k : EntityKind) : (fresh store scope).links.ofKind k = {} := by
  cases k <;> rfl

theorem registered_fresh : (fresh store scope).Registered := by
  have hempty (key : GenericKey) : (fresh store scope).registry.get? key = none :=
    WriteOnce.get?_empty key
  constructor
  · intro key g hg
    cases (hempty key).symm.trans hg
  · intro key key' g hg
    cases (hempty key).symm.trans hg

/-- What the map of a kind holds. -/
theorem get?_ofKind_after (k : EntityKind) (token : Token) :
    (((fresh store scope).after requests).links.ofKind k).get? token =
      (requests.filterMap (·.link? k)).lookup token := by
  rw [ofKind_after, ofKind_fresh, WriteOnce.get?_offerAll, WriteOnce.get?_empty, Option.none_or]

theorem size_ofKind_after (k : EntityKind) :
    (((fresh store scope).after requests).links.ofKind k).size =
      (TableRequest.tokens k requests).toFinset.card := by
  rw [ofKind_after, ofKind_fresh, WriteOnce.size_offerAll]
  rfl

/-- What the registry holds. -/
theorem paramFor?_after (key : GenericKey) :
    ((fresh store scope).after requests).paramFor? key =
      (requests.filterMap (·.param?)).lookup key := by
  have hempty : (fresh store scope).paramFor? key = none := by
    rw [paramFor?, GenericRegistry.get?]
    exact congrArg (Option.bind · _) (WriteOnce.get?_empty key)
  rw [(registered_fresh store scope).paramFor?_after, hempty, Option.none_or]

theorem isSome_get?_after_iff (key : GenericKey) :
    (((fresh store scope).after requests).registry.get? key).isSome = true ↔
      key ∈ TableRequest.keys requests := by
  have hp := (registered_fresh store scope).after requests
  rw [← hp.isSome_paramFor?, paramFor?_after, WriteOnce.isSome_lookup_iff]
  rfl

/-- All registrations for a key are answered with one object. -/
theorem registered_of_param? {before : List TableRequest} {r : TableRequest}
    (rest : List TableRequest) {key : GenericKey} {param : GenericParam}
    (hparam : r.param? = some (key, param)) :
    ∃ g, ((fresh store scope).after (before ++ r :: rest)).registry.get? key = some g ∧
      ((fresh store scope).after before).answer r =
        .ok (.registered g (decide (key ∉ TableRequest.keys before))) ∧
      (key ∉ TableRequest.keys before →
        ((fresh store scope).after before).store.generics.get? g = none) ∧
      (key ∈ TableRequest.keys before →
        (fresh store scope).after (before ++ [r]) = (fresh store scope).after before) := by
  have hused := isSome_get?_after_iff store scope before key
  have hafter : (fresh store scope).after (before ++ r :: rest) =
      (((fresh store scope).after before).step r).after rest := List.foldl_append
  have hkept := (((fresh store scope).after before).step r).extends_after rest
  rw [hafter, after_concat]
  cases hheld : ((fresh store scope).after before).registry.get? key with
  | none =>
    obtain ⟨hanswer, -, hget⟩ := step_of_free hparam hheld
    rw [hheld] at hused
    have hnew : key ∉ TableRequest.keys before := fun hmem => Bool.false_ne_true (hused.mpr hmem)
    refine ⟨_, hkept.registry key _ ((hget key).trans (if_pos rfl)), ?_,
      fun _ => Arena.get?_next _, fun hold => absurd hold hnew⟩
    rw [hanswer, decide_eq_true hnew]
  | some g =>
    obtain ⟨hanswer, hsame⟩ := step_of_held hparam hheld
    rw [hheld] at hused
    have hold : key ∈ TableRequest.keys before := hused.mp rfl
    refine ⟨g, hkept.registry key g (by rw [hsame]; exact hheld), ?_,
      fun hnew => absurd hold hnew, fun _ => hsame⟩
    rw [hanswer, decide_eq_false (not_not.mpr hold)]

end Pool

/-- **Tables are write-once, and hold the first offers.** Whatever is asked of tables that are empty
at first, and whatever is refused, each token of a kind holds the first object that was offered for
it, and each key the first parameter that was registered for it. -/
theorem tables_hold_first_offers (store : Store) (scope : RegistryScope)
    (requests : List TableRequest) : (Pool.fresh store scope).HoldsFirst requests where
  linked := Pool.get?_ofKind_after store scope requests
  linkAnswer k token h r hlink := by
    rw [Pool.answer_of_link? hlink, Pool.get?_ofKind_after]
    cases (requests.filterMap (·.link? k)).lookup token with
    | none => exact .inl ⟨if_pos rfl, nofun⟩
    | some held =>
      by_cases heq : held = h
      · subst heq
        exact .inl ⟨if_pos rfl, fun _ hheld => (Option.some.inj hheld).symm⟩
      · exact .inr ⟨if_neg heq, held, rfl, heq⟩
  registered := Pool.paramFor?_after store scope requests
  registerAnswer before r rest key param hsplit hparam := by
    rw [hsplit]
    exact Pool.registered_of_param? store scope rest hparam
  unregistered key hkey := by
    rw [← Pool.isSome_get?_after_iff store scope] at hkey
    exact Option.not_isSome_iff_eq_none.mp hkey
  keyAnswer index topLevel := by
    have hscope := ((Pool.fresh store scope).extends_after requests).registryScope
    exact congrArg (Except.ok ∘ TableAnswer.key) (GenericRegistry.key_congr hscope index topLevel)
  apart r := by
    rw [Pool.after_concat]
    refine ⟨fun k hlink => ?_, Pool.registry_step_of_eq_none⟩
    rw [Pool.ofKind_step, hlink]
    rfl
  typeCount := Pool.size_ofKind_after store scope requests .type
  methodCount := Pool.size_ofKind_after store scope requests .method
  registrySize := WriteOnce.size_eq_card fun key => by
    rw [List.mem_toFinset, ← Pool.isSome_get?_after_iff store scope]
    rfl
  listed := by
    have hp := (Pool.registered_fresh store scope).after requests
    refine ⟨_, (WriteOnce.pairwise_keys _).imp GenericKey.before_of_compare, fun key => ?_,
      WriteOnce.map_values _, WriteOnce.nodup_values hp.apart⟩
    rw [WriteOnce.mem_keys]
    exact Pool.isSome_get?_after_iff store scope requests key

/-! ### A cabinet -/

/-- A request for a parameter, whatever it looks like. -/
def shelve (scope : Option Token) (index : UInt32) : TableRequest :=
  .write (.register ⟨scope, index⟩ ⟨index, 0, "T", .empty, .type ⟨0x02000001⟩, #[], #[], false⟩)

/-- Some requests about methods and parameters. One link is refused, and one registration comes too
late. -/
def cabinet : List TableRequest := [
  .write (.linkMethod ⟨0x06000001⟩ ⟨4⟩), .write (.linkMethod ⟨0x06000001⟩ ⟨7⟩),
  .write (.linkMethod ⟨0x06000001⟩ ⟨4⟩), .write (.linkField ⟨0x06000001⟩ ⟨7⟩),
  shelve (some ⟨0x02000002⟩) 0, shelve none 9, shelve (some ⟨0x02000001⟩) 5, shelve none 9]

example : ((Pool.fresh {} .perRun).after cabinet).links.methodCount = 1 ∧
    ((Pool.fresh {} .perRun).after cabinet).links.methods.get? ⟨0x06000001⟩ = some ⟨4⟩ ∧
    ((Pool.fresh {} .perRun).after cabinet).registry.toList = [⟨1⟩, ⟨2⟩, ⟨0⟩] := by decide

end ClrImage
