import ClrImage.Proofs.Declaration
import ClrImage.Proofs.Independence
import ClrImage.Proofs.Ledger
import ClrImage.Proofs.Making
import ClrImage.Proofs.Objects
import ClrImage.Proofs.Population

/-!
# The directory of members

A member is linked under its token and listed in its type. The two are written one after the other,
and a failure may come in between any two members. This module shows that links and lists agree all
the same.

- `BuildState.members`, `BuildState.listed`: what a type lists, and what all declared types list.
- `Directory`: links and lists agree on a sort of members. Links are one to one with list entries
  (`linked_iff`), and as many (`size_eq`).
- `Catalogued`, `Catalogue`: the invariant behind it, which every step preserves.
- `SameDirectory`: no member has been linked or listed, and nothing has been lost.
- `Awaits`: members that have been made and neither linked nor listed. Publishing some of them
  preserves the invariant (`Catalogue.publish`).
-/

namespace ClrImage

/-! ## Listed members -/

namespace MemberSort

/-- The token of a member. -/
def tokenOf : (m : MemberSort) → Object m.kind → Token
  | field => FieldDef.token
  | method => MethodDef.token
  | property => PropertyDef.token
  | event => EventDef.token

/-- The methods behind a member; only properties and events have any. -/
def semantics : (m : MemberSort) → Object m.kind → Array Semantics
  | property => PropertyDef.semantics
  | event => EventDef.semantics
  | field | method => fun _ => #[]

/-- The staged members of a sort. -/
def staged (staged : Staged) : (m : MemberSort) → List (Token × Handle m.kind)
  | field => staged.fields.toList
  | method => staged.methods.toList
  | property => staged.properties.toList
  | event => staged.events.toList

theorem kind_ne_type (m : MemberSort) : m.kind ≠ .type := by
  cases m <;> decide

theorem kind_ne_generic (m : MemberSort) : m.kind ≠ .generic := by
  cases m <;> decide

end MemberSort

namespace BuildState

/-- The own token of a member. -/
def token? (s : BuildState) (m : MemberSort) (h : Handle m.kind) : Option Token :=
  ((s.store.arena m.kind).get? h).map m.tokenOf

/-- The members of a sort that a type lists. -/
def members (s : BuildState) (m : MemberSort) (type : TypeHandle) : List (Handle m.kind) :=
  (s.store.types.get? type).elim [] fun t => (m.places.handles t).toList

/-- The members of a sort that the declared types list, type by type. -/
def listed (s : BuildState) (m : MemberSort) : List (Handle m.kind) :=
  s.declared.toList.flatMap (s.members m)

/-- The object under a token. -/
def linked? (s : BuildState) (m : MemberSort) (token : Token) : Option (Handle m.kind) :=
  (m.places.table s.links).get? token

/-- Where only types are linked, no member is. -/
theorem linked?_eq_none {s : BuildState} (hlinks : s.links = { types := s.links.types })
    (m : MemberSort) (token : Token) : s.linked? m token = none := by
  unfold linked?
  rw [hlinks]
  cases m <;> exact WriteOnce.get?_empty token

/-- The member is linked under some token. -/
def IsLinked (s : BuildState) (m : MemberSort) (h : Handle m.kind) : Prop :=
  ∃ token, s.linked? m token = some h

/-- Exactly one declared type lists the member, and it does so once. -/
def ListsOnce (s : BuildState) (m : MemberSort) (h : Handle m.kind) : Prop :=
  ∃ type ∈ s.declared, (s.members m type).count h = 1 ∧
    ∀ other ∈ s.declared, h ∈ s.members m other → other = type

end BuildState

/-- Links and lists agree on a sort of members. -/
structure Directory (m : MemberSort) (s : BuildState) : Prop where
  /-- A token names the member that has it and is listed, once, in one type. -/
  linked_iff : ∀ token h,
    s.linked? m token = some h ↔ s.ListsOnce m h ∧ s.token? m h = some token
  /-- A listed member is there, and is listed once. -/
  listsOnce : ∀ h ∈ s.listed m, s.ListsOnce m h ∧ ∃ token, s.token? m h = some token
  /-- No two list entries have the same token. -/
  distinct : ((s.listed m).map (s.token? m)).Nodup
  /-- There are as many links as list entries. -/
  size_eq : (m.places.table s.links).size =
    (s.declared.toList.map fun type => (s.members m type).length).sum
  /-- The methods behind a listed member are linked under their own tokens. -/
  wired : ∀ h ∈ s.listed m, ∀ x, (s.store.arena m.kind).get? h = some x → ∀ a ∈ m.semantics x,
    ∃ d, s.store.methods.get? a.method = some d ∧
      s.links.methods.get? d.token = some a.method

/-! ## The invariant -/

/-- The links of a sort of members are the entries of the lists. -/
structure Catalogued (m : MemberSort) (s : BuildState) : Prop where
  own : ∀ token h, s.linked? m token = some h → s.token? m h = some token
  mem_listed : ∀ h, h ∈ s.listed m ↔ s.IsLinked m h
  nodup : (s.listed m).Nodup

/-- The links of all sorts of members are the entries of the lists of declared types. -/
structure Catalogue (s : BuildState) : Prop where
  declared : s.declared.toList.Nodup
  managed : ∀ token h, s.links.types.get? token = some h → h ∈ s.declared
  sorts : ∀ m, Catalogued m s
  wired : ∀ m, ∀ h ∈ s.listed m, ∀ x, (s.store.arena m.kind).get? h = some x →
    ∀ a ∈ m.semantics x, s.IsLinked .method a.method

namespace Catalogued

variable {m : MemberSort} {s : BuildState}

/-- What is linked is there. -/
theorem live (hs : Catalogued m s) {h : Handle m.kind} (hlinked : s.IsLinked m h) : s.Live h := by
  obtain ⟨token, hlinked⟩ := hlinked
  obtain ⟨x, hx, -⟩ := Option.map_eq_some_iff.mp (hs.own token h hlinked)
  exact ⟨x, hx⟩

/-- Two tokens of one member are the same. -/
theorem token_injective (hs : Catalogued m s) {token token' : Token} {h : Handle m.kind}
    (hlinked : s.linked? m token = some h) (hlinked' : s.linked? m token' = some h) :
    token = token' :=
  Option.some.inj ((hs.own token h hlinked).symm.trans (hs.own token' h hlinked'))

/-- A listed member is listed once. -/
theorem listsOnce (hs : Catalogued m s) {h : Handle m.kind} (hmem : h ∈ s.listed m) :
    s.ListsOnce m h := by
  obtain ⟨hnodup, hdisjoint⟩ := List.nodup_flatMap.mp hs.nodup
  obtain ⟨type, htype, hmem⟩ := List.mem_flatMap.mp hmem
  refine ⟨type, Array.mem_toList_iff.mp htype, List.count_eq_one_of_mem (hnodup type htype) hmem,
    fun other hother hmem' => ?_⟩
  by_contra hne
  have hsymm : Std.Symm (Function.onFun List.Disjoint (s.members m)) :=
    ⟨fun _ _ h ha hb hc => h hc hb⟩
  exact hdisjoint.forall (Array.mem_toList_iff.mpr hother) htype hne hmem' hmem

theorem linked_iff (hs : Catalogued m s) (token : Token) (h : Handle m.kind) :
    s.linked? m token = some h ↔ s.ListsOnce m h ∧ s.token? m h = some token := by
  constructor
  · intro hlinked
    exact ⟨hs.listsOnce ((hs.mem_listed h).mpr ⟨token, hlinked⟩), hs.own token h hlinked⟩
  · rintro ⟨⟨type, htype, hcount, -⟩, htoken⟩
    have hmem : h ∈ s.members m type := List.count_pos_iff.mp (by omega)
    obtain ⟨token', hlinked⟩ := (hs.mem_listed h).mp
      (List.mem_flatMap.mpr ⟨type, Array.mem_toList_iff.mpr htype, hmem⟩)
    obtain rfl := Option.some.inj ((hs.own token' h hlinked).symm.trans htoken)
    exact hlinked

/-- Two list entries with one token are the same member. -/
theorem eq_of_token (hs : Catalogued m s) {h h' : Handle m.kind} (hmem : h ∈ s.listed m)
    (hmem' : h' ∈ s.listed m) (heq : s.token? m h = s.token? m h') : h = h' := by
  obtain ⟨token, hlinked⟩ := (hs.mem_listed h).mp hmem
  obtain ⟨token', hlinked'⟩ := (hs.mem_listed h').mp hmem'
  rw [hs.own token h hlinked, hs.own token' h' hlinked'] at heq
  obtain rfl := Option.some.inj heq
  exact Option.some.inj (hlinked.symm.trans hlinked')

/-- The linked members are the listed ones, in another order. -/
theorem values_perm (hs : Catalogued m s) : (m.places.table s.links).values.Perm (s.listed m) := by
  refine (List.perm_ext_iff_of_nodup (WriteOnce.nodup_values fun k k' h hk hk' => ?_) hs.nodup).mpr
    fun h => ?_
  · exact hs.token_injective hk hk'
  · rw [WriteOnce.mem_values]
    exact (hs.mem_listed h).symm

end Catalogued

namespace Catalogue

variable {s : BuildState}

/-- Where the invariant holds, links and lists agree on every sort of members. -/
theorem directory (hs : Catalogue s) (m : MemberSort) : Directory m s where
  linked_iff := (hs.sorts m).linked_iff
  listsOnce h hmem := by
    obtain ⟨token, hlinked⟩ := ((hs.sorts m).mem_listed h).mp hmem
    exact ⟨(hs.sorts m).listsOnce hmem, token, (hs.sorts m).own token h hlinked⟩
  distinct := (hs.sorts m).nodup.map_on fun _ hmem _ hmem' => (hs.sorts m).eq_of_token hmem hmem'
  size_eq := by
    rw [← WriteOnce.length_values, (hs.sorts m).values_perm.length_eq]
    exact List.length_flatMap
  wired h hmem x hx a ha := by
    obtain ⟨token, hlinked⟩ := hs.wired m h hmem x hx a ha
    obtain ⟨d, hd, htoken⟩ := Option.map_eq_some_iff.mp ((hs.sorts .method).own token _ hlinked)
    obtain rfl : d.token = token := htoken
    exact ⟨d, hd, hlinked⟩

end Catalogue

/-! ## Steps that neither link nor list members -/

/-- Members have the same links, sort by sort. -/
theorem SameMembers.linked? {s s' : BuildState} (h : SameMembers s s') (m : MemberSort)
    (token : Token) : s'.linked? m token = s.linked? m token := by
  have htable : m.places.table s'.links = m.places.table s.links := by
    cases m
    · exact h.fields
    · exact h.methods
    · exact h.properties
    · exact h.events
  unfold BuildState.linked?
  rw [htable]

/-- No member has been linked or listed, and nothing has been lost. -/
structure SameDirectory (s s' : BuildState) : Prop where
  grows : s.Extends s'
  members : SameMembers s s'
  linkedTypes : s'.links.types = s.links.types
  declared : s'.declared = s.declared

namespace SameDirectory

variable {s s₁ s' : BuildState}

theorem refl (s : BuildState) : SameDirectory s s :=
  ⟨.refl s, (Stages.refl s).sameMembers, rfl, rfl⟩

theorem trans (h₁ : SameDirectory s s₁) (h₂ : SameDirectory s₁ s') : SameDirectory s s' where
  grows := h₁.grows.trans h₂.grows
  members :=
    ⟨h₂.members.fields.trans h₁.members.fields, h₂.members.methods.trans h₁.members.methods,
      h₂.members.properties.trans h₁.members.properties,
      h₂.members.events.trans h₁.members.events,
      fun h => (h₂.members.listed h).trans (h₁.members.listed h)⟩
  linkedTypes := h₂.linkedTypes.trans h₁.linkedTypes
  declared := h₂.declared.trans h₁.declared

instance : IsPreorder BuildState SameDirectory where
  refl := refl
  trans _ _ _ := trans

theorem linked? (h : SameDirectory s s') (m : MemberSort) (token : Token) :
    s'.linked? m token = s.linked? m token :=
  h.members.linked? m token

theorem isLinked (h : SameDirectory s s') {m : MemberSort} {g : Handle m.kind} :
    s'.IsLinked m g ↔ s.IsLinked m g := by
  unfold BuildState.IsLinked
  simp only [h.linked?]

theorem listed (h : SameDirectory s s') (m : MemberSort) : s'.listed m = s.listed m := by
  have hmembers (type : TypeHandle) : s'.members m type = s.members m type := by
    have hsame := h.members.listed type
    unfold BuildState.members
    revert hsame
    rcases s'.store.types.get? type with _ | t' <;>
      rcases s.store.types.get? type with _ | t <;> intro hsame
    · rfl
    · cases hsame
    · cases hsame
    · obtain ⟨hfields, hmethods, hproperties, hevents⟩ : t'.fields = t.fields ∧
          t'.methods = t.methods ∧ t'.properties = t.properties ∧ t'.events = t.events := by
        simpa [TypeDef.members] using hsame
      cases m
      · exact congrArg Array.toList hfields
      · exact congrArg Array.toList hmethods
      · exact congrArg Array.toList hproperties
      · exact congrArg Array.toList hevents
  unfold BuildState.listed
  rw [h.declared, funext hmembers]

end SameDirectory

/-- Members stay what they are. -/
theorem BuildState.Extends.get?_member {s s' : BuildState} (h : s.Extends s') {m : MemberSort}
    {g : Handle m.kind} {x : Object m.kind} (hx : (s.store.arena m.kind).get? g = some x) :
    (s'.store.arena m.kind).get? g = some x :=
  h.get?_eq m.kind_ne_type m.kind_ne_generic hx

theorem BuildState.Extends.token? {s s' : BuildState} (h : s.Extends s') {m : MemberSort}
    {g : Handle m.kind} {token : Token} (htoken : s.token? m g = some token) :
    s'.token? m g = some token := by
  obtain ⟨x, hx, rfl⟩ := Option.map_eq_some_iff.mp htoken
  unfold BuildState.token?
  rw [h.get?_member hx]
  rfl

theorem BuildState.Extends.linked? {s s' : BuildState} (h : s.Extends s') {m : MemberSort}
    {token : Token} {g : Handle m.kind} (hlinked : s.linked? m token = some g) :
    s'.linked? m token = some g :=
  m.places.table_extends _ _ h.links token g hlinked

theorem BuildState.Extends.isLinked {s s' : BuildState} (h : s.Extends s') {m : MemberSort}
    {g : Handle m.kind} (hlinked : s.IsLinked m g) : s'.IsLinked m g :=
  hlinked.imp fun _ => h.linked?

theorem Stages.sameDirectory {s s' : BuildState} (h : Stages s s') : SameDirectory s s' :=
  ⟨h.toExtends, h.sameMembers, by rw [h.links_eq], h.declared_eq⟩

namespace Catalogue

variable {s s' : BuildState}

/-- What is listed is what it was when it was listed. -/
theorem get?_listed (hs : Catalogue s) (hgrows : s.Extends s') {m : MemberSort} {h : Handle m.kind}
    (hmem : h ∈ s.listed m) {x : Object m.kind} (hx : (s'.store.arena m.kind).get? h = some x) :
    (s.store.arena m.kind).get? h = some x := by
  obtain ⟨y, hy⟩ := (hs.sorts m).live (((hs.sorts m).mem_listed h).mp hmem)
  rw [hy, ← hgrows.get?_member hy, hx]

/-- The methods behind what is listed stay linked. -/
theorem wired_extends (hs : Catalogue s) (hgrows : s.Extends s') {m : MemberSort}
    {h : Handle m.kind} (hmem : h ∈ s.listed m) {x : Object m.kind}
    (hx : (s'.store.arena m.kind).get? h = some x) :
    ∀ a ∈ m.semantics x, s'.IsLinked .method a.method := fun a ha =>
  hgrows.isLinked (hs.wired m h hmem x (hs.get?_listed hgrows hmem hx) a ha)

theorem sameDirectory (hs : Catalogue s) (h : SameDirectory s s') : Catalogue s' where
  declared := by
    rw [h.declared]
    exact hs.declared
  managed token g hlink := by
    rw [h.linkedTypes] at hlink
    rw [h.declared]
    exact hs.managed token g hlink
  sorts m :=
    { own := fun token g hlinked =>
        h.grows.token? ((hs.sorts m).own token g ((h.linked? m token).symm.trans hlinked))
      mem_listed := fun g => by rw [h.listed, h.isLinked, (hs.sorts m).mem_listed]
      nodup := by
        rw [h.listed]
        exact (hs.sorts m).nodup }
  wired m g hmem x hx := hs.wired_extends h.grows (h.listed m ▸ hmem) hx

/-- What neither links nor lists members preserves the invariant. -/
theorem keeps {α : Type} {step : Build α} (h : Build.Keeps SameDirectory step) :
    Build.Keeps (Build.Preserves Catalogue) step :=
  h.mono fun _ _ hsame hs => hs.sameDirectory hsame

end Catalogue

/-! ## Publication -/

/-- Members that have been made and neither linked nor listed, with the tokens that they have. -/
structure Awaits (m : MemberSort) (members : List (Token × Handle m.kind)) (s : BuildState) :
    Prop where
  unlinked : ∀ e ∈ members, ¬ s.IsLinked m e.2
  own : ∀ e ∈ members, s.token? m e.2 = some e.1
  nodup : (members.map Prod.snd).Nodup

/-- The methods behind the members are linked. -/
def BuildState.Wires (s : BuildState) (m : MemberSort) (members : List (Token × Handle m.kind)) :
    Prop :=
  ∀ e ∈ members, ∀ x, (s.store.arena m.kind).get? e.2 = some x → ∀ a ∈ m.semantics x,
    s.IsLinked .method a.method

section Publish

variable {m : MemberSort} {type : TypeHandle} {members : List (Token × Handle m.kind)}
  {s s' : BuildState}

/-- Members of other sorts are linked as before. -/
theorem Publishes.linked?_of_ne (h : Publishes m.places type members s s') {n : MemberSort}
    (hne : n ≠ m) (token : Token) : s'.linked? n token = s.linked? n token := by
  unfold BuildState.linked?
  rw [h.links, MemberSort.table_of_ne hne]

/-- The type lists the members behind those of the sort that it listed. -/
theorem Publishes.members_self (h : Publishes m.places type members s s') (hlive : s.Live type) :
    s'.members m type = s.members m type ++ members.map Prod.snd := by
  obtain ⟨t, ht⟩ := hlive
  have ht : s.store.types.get? type = some t := ht
  unfold BuildState.members
  rw [h.types, if_pos rfl, ht]
  simp [MemberKind.addAll, m.places.handles_withHandles]

/-- Other types, and other sorts of members, are listed as before. -/
theorem Publishes.members_of_ne (h : Publishes m.places type members s s') {n : MemberSort}
    {other : TypeHandle} (hne : n ≠ m ∨ other ≠ type) :
    s'.members n other = s.members n other := by
  unfold BuildState.members
  rw [h.types]
  split
  next heq =>
    rcases s.store.types.get? other with _ | t
    · rfl
    · have hn : n ≠ m := hne.resolve_right (not_not_intro heq)
      exact congrArg Array.toList (MemberSort.handles_of_ne hn t _)
  next => rfl

/-- All that is listed of another sort is what was listed of it. -/
theorem Publishes.listed_of_ne (h : Publishes m.places type members s s') {n : MemberSort}
    (hne : n ≠ m) : s'.listed n = s.listed n := by
  have hmembers : s'.members n = s.members n := funext fun _ => h.members_of_ne (.inl hne)
  unfold BuildState.listed
  rw [h.declared, hmembers]

/-- The members come to what is listed of their sort. -/
theorem Publishes.listed_perm (h : Publishes m.places type members s s') (hlive : s.Live type)
    (hnodup : s.declared.toList.Nodup) (htype : type ∈ s.declared) :
    (s'.listed m).Perm (s.listed m ++ members.map Prod.snd) := by
  obtain ⟨before, behind, hsplit⟩ := List.append_of_mem (Array.mem_toList_iff.mpr htype)
  have hothers {l : List TypeHandle} (hnot : type ∉ l) :
      l.flatMap (s'.members m) = l.flatMap (s.members m) :=
    List.flatMap_congr fun other hmem =>
      h.members_of_ne (.inr fun heq => hnot (heq ▸ hmem))
  rw [hsplit, List.nodup_append, List.nodup_cons] at hnodup
  obtain ⟨-, ⟨hbehind, -⟩, hbefore⟩ := hnodup
  unfold BuildState.listed
  rw [h.declared, hsplit, List.flatMap_append, List.flatMap_append, List.flatMap_cons,
    List.flatMap_cons, h.members_self hlive, hothers hbehind,
    hothers fun hmem => hbefore type hmem type List.mem_cons_self rfl, List.append_assoc,
    List.append_assoc, List.append_assoc]
  exact ((List.perm_append_comm).append_left _).append_left _

/-- What is linked of the sort are the members besides what was linked of it. -/
theorem Publishes.linked?_iff (h : Publishes m.places type members s s') {token : Token}
    {g : Handle m.kind} :
    s'.linked? m token = some g ↔ s.linked? m token = some g ∨ (token, g) ∈ members := by
  constructor
  · intro hlinked
    by_cases hmem : token ∈ members.map Prod.fst
    · obtain ⟨e, he, rfl⟩ := List.mem_map.mp hmem
      obtain rfl : e.2 = g := Option.some.inj ((h.linked e he).symm.trans hlinked)
      exact .inr he
    · exact .inl ((h.others token hmem).symm.trans hlinked)
  · rintro (hlinked | hmem)
    · exact h.extends_state.linked? hlinked
    · exact h.linked _ hmem

theorem Publishes.isLinked_iff (h : Publishes m.places type members s s') {g : Handle m.kind} :
    s'.IsLinked m g ↔ s.IsLinked m g ∨ g ∈ members.map Prod.snd := by
  unfold BuildState.IsLinked
  simp only [h.linked?_iff, exists_or, List.mem_map, Prod.exists, exists_eq_right]

/-- Members of other sorts still await their publication. -/
theorem Awaits.of_publishes {n : MemberSort} {waiting : List (Token × Handle n.kind)}
    (h : Publishes m.places type members s s') (hne : n ≠ m) (hn : Awaits n waiting s) :
    Awaits n waiting s' where
  unlinked e he := by
    unfold BuildState.IsLinked
    simp only [h.linked?_of_ne hne]
    exact hn.unlinked e he
  own e he := h.extends_state.token? (hn.own e he)
  nodup := hn.nodup

/-- What awaits its publication stays what it is. -/
theorem Awaits.get?_eq (h : Awaits m members s) (hgrows : s.Extends s')
    {e : Token × Handle m.kind} (he : e ∈ members) {x : Object m.kind}
    (hx : (s'.store.arena m.kind).get? e.2 = some x) :
    (s.store.arena m.kind).get? e.2 = some x := by
  obtain ⟨y, hy, -⟩ := Option.map_eq_some_iff.mp (h.own e he)
  rw [hy, ← hgrows.get?_member hy, hx]

theorem Awaits.wires (h : Awaits m members s) (hgrows : s.Extends s') (hwires : s.Wires m members) :
    s'.Wires m members := fun e he x hx a ha =>
  hgrows.isLinked (hwires e he x (h.get?_eq hgrows he hx) a ha)

theorem Awaits.part {part : List (Token × Handle m.kind)} (h : Awaits m members s)
    (hpart : part <+: members) : Awaits m part s where
  unlinked e he := h.unlinked e (hpart.subset he)
  own e he := h.own e (hpart.subset he)
  nodup := (hpart.sublist.map Prod.snd).nodup h.nodup

/-- Publishing members of one sort preserves the invariant, if the methods behind them are
linked. -/
theorem Catalogue.publishes (hs : Catalogue s) (hawaits : Awaits m members s)
    (hlive : s.Live type) (htype : type ∈ s.declared) (hwires : s.Wires m members)
    (h : Publishes m.places type members s s') : Catalogue s' where
  declared := by
    rw [h.declared]
    exact hs.declared
  managed token g hlink := by
    rw [h.links, m.places.types_withTable] at hlink
    rw [h.declared]
    exact hs.managed token g hlink
  sorts n := by
    -- the sort that is published grows by its members, which nothing has linked; others stay
    by_cases hne : n = m
    · subst hne
      have hperm := h.listed_perm hlive hs.declared htype
      refine ⟨fun token g hlinked => ?_, fun g => ?_, ?_⟩
      · rcases h.linked?_iff.mp hlinked with hold | hnew
        · exact h.extends_state.token? ((hs.sorts n).own token g hold)
        · exact h.extends_state.token? (hawaits.own _ hnew)
      · rw [hperm.mem_iff, List.mem_append, (hs.sorts n).mem_listed, h.isLinked_iff]
      · rw [hperm.nodup_iff, List.nodup_append]
        refine ⟨(hs.sorts n).nodup, hawaits.nodup, ?_⟩
        rintro g hold _ hnew rfl
        obtain ⟨e, he, rfl⟩ := List.mem_map.mp hnew
        exact hawaits.unlinked e he (((hs.sorts n).mem_listed e.2).mp hold)
    · refine ⟨fun token g hlinked => ?_, fun g => ?_, ?_⟩
      · rw [h.linked?_of_ne hne] at hlinked
        exact h.extends_state.token? ((hs.sorts n).own token g hlinked)
      · unfold BuildState.IsLinked
        simp only [h.linked?_of_ne hne]
        rw [h.listed_of_ne hne]
        exact (hs.sorts n).mem_listed g
      · rw [h.listed_of_ne hne]
        exact (hs.sorts n).nodup
  wired n g hmem x hx := by
    by_cases hold : g ∈ s.listed n
    · exact hs.wired_extends h.extends_state hold hx
    · -- what was not listed before has been published now
      obtain rfl : n = m := by
        by_contra hne
        exact hold (h.listed_of_ne hne ▸ hmem)
      have hnew := (h.listed_perm hlive hs.declared htype).mem_iff.mp hmem
      obtain ⟨e, he, rfl⟩ := List.mem_map.mp ((List.mem_append.mp hnew).resolve_left hold)
      exact hawaits.wires h.extends_state hwires e he x hx

end Publish

end ClrImage
