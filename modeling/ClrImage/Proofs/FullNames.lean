import ClrImage.Proofs.CallEffects
import ClrImage.Proofs.Nesting
import ClrImage.Proofs.Circles

/-!
# Two ways to a full name

A failure names its type by the blueprint, which follows declaring tokens from the inside out. The
name index of an image lists the type by the objects, whose names are put together from the outside
in. The blueprint writes the namespace of **every** type on the way, and the objects that of the
outermost one alone. So the two names of a type are the same as long as no type that is nested has a
namespace, and no longer.

- `Blueprint.Around`: the types around a type, as declaring tokens give them.
- `plannedName`, `builtName`: the two names, by recursion on these types.
- `Blueprint.InnerBare`: no nested type on the way outwards has a namespace.
- `SameNesting`: types keep names and nesting, which all calls preserve.
- `Placed.typesNamed_eq_filter`: what the index of an image finds under a name.
- `full_names_agree_iff`: when the two names agree, and the index finds what a failure names.
-/

namespace ClrImage

/-! ## Names by the types around a type -/

namespace Blueprint

/-- The types that declaring tokens lead to, innermost first. The last of them has none. -/
inductive Around (b : Blueprint) : Option Token → List TypePlan → Prop
  | outermost : Around b none []
  | nested {outer : Token} {q : TypePlan} {way : List TypePlan} :
    b.type? outer = some q → Around b q.declaring way → Around b (some outer) (q :: way)

theorem around_nil_iff {b : Blueprint} {declaring : Option Token} :
    b.Around declaring [] ↔ declaring = none :=
  ⟨fun h => by cases h; rfl, fun h => h ▸ .outermost⟩

theorem around_cons_iff {b : Blueprint} {declaring : Option Token} {q : TypePlan}
    {way : List TypePlan} : b.Around declaring (q :: way) ↔
      ∃ outer, declaring = some outer ∧ b.type? outer = some q ∧ b.Around q.declaring way := by
  constructor
  · rintro (_ | ⟨hq, hrest⟩)
    exact ⟨_, rfl, hq, hrest⟩
  · rintro ⟨outer, rfl, hq, hrest⟩
    exact .nested hq hrest

/-- Of the type and those that it is nested in, none but the outermost has a namespace. -/
def InnerBare (b : Blueprint) (p : TypePlan) : Prop :=
  ∀ q ∈ b.types.toList, Relation.ReflTransGen b.NestedIn p.token q.token → q.declaring ≠ none →
    q.space = ""

end Blueprint

/-- The name with the namespaces of all types. -/
def plannedName (p : TypePlan) : List TypePlan → String
  | [] => p.ownName
  | q :: way => plannedName q way ++ "/" ++ p.ownName

/-- The name with the namespace of the outermost type. -/
def builtName (p : TypePlan) : List TypePlan → String
  | [] => p.ownName
  | q :: way => builtName q way ++ "/" ++ p.name

/-! ## The two names compared -/

theorem length_qualifiedName (space name : String) :
    (qualifiedName space name).length =
      if space = "" then name.length else space.length + 1 + name.length := by
  unfold qualifiedName
  by_cases hspace : space = ""
  · subst hspace
    rfl
  · have hempty : ¬ space.isEmpty = true := by simpa using hspace
    rw [if_neg hempty, if_neg hspace]
    show (toString space ++ "." ++ toString name).length = _
    rw [String.length_append, String.length_append]
    rfl

/-- A qualified name is the bare one exactly if there is no namespace. -/
theorem qualifiedName_eq_iff {space name : String} :
    qualifiedName space name = name ↔ space = "" := by
  constructor
  · intro heq
    have hlength := length_qualifiedName space name
    by_contra hspace
    rw [heq, if_neg hspace] at hlength
    omega
  · rintro rfl
    rfl

theorem length_le_qualifiedName (space name : String) :
    name.length ≤ (qualifiedName space name).length := by
  rw [length_qualifiedName]
  split <;> omega

/-- Namespaces only make a name longer. -/
theorem length_builtName_le (p : TypePlan) (way : List TypePlan) :
    (builtName p way).length ≤ (plannedName p way).length := by
  induction way generalizing p with
  | nil => exact Nat.le_refl _
  | cons q way ih =>
    have hrest := ih q
    have hown : p.name.length ≤ p.ownName.length := length_le_qualifiedName p.space p.name
    simp only [builtName, plannedName, String.length_append]
    omega

/-- Two names that are put together from parts, the one from parts that are no longer than those of
the other, are the same exactly if the parts are. -/
theorem append_separator_eq_iff {a b c d : String} (hac : a.length ≤ c.length)
    (hbd : b.length ≤ d.length) : c ++ "/" ++ d = a ++ "/" ++ b ↔ c = a ∧ d = b := by
  refine ⟨fun heq => ?_, fun ⟨hac, hbd⟩ => by rw [hac, hbd]⟩
  have hlength := congrArg String.length heq
  simp only [String.length_append] at hlength
  have hlist := congrArg String.toList heq
  simp only [String.toList_append, List.append_assoc] at hlist
  obtain ⟨hleft, hright⟩ := List.append_inj hlist
    (by rw [String.length_toList, String.length_toList]; omega)
  exact ⟨String.toList_inj.mp hleft, String.toList_inj.mp (List.append_cancel_left hright)⟩

/-- The two names of a type are the same exactly if no nested type has a namespace. -/
theorem plannedName_eq_builtName_iff {b : Blueprint} {p : TypePlan} {way : List TypePlan}
    (hway : b.Around p.declaring way) :
    plannedName p way = builtName p way ↔
      ∀ q ∈ p :: way, q.declaring ≠ none → q.space = "" := by
  induction way generalizing p with
  | nil => simp [plannedName, builtName, Blueprint.around_nil_iff.mp hway]
  | cons q way ih =>
    obtain ⟨outer, houter, -, hrest⟩ := Blueprint.around_cons_iff.mp hway
    have hnested : p.declaring ≠ none := houter ▸ Option.some_ne_none outer
    have hlength : p.name.length ≤ p.ownName.length := length_le_qualifiedName p.space p.name
    have hown : p.ownName = p.name ↔ p.space = "" := qualifiedName_eq_iff
    rw [plannedName, builtName, append_separator_eq_iff (length_builtName_le q way) hlength,
      ih hrest, hown]
    refine Iff.trans ?_ List.forall_mem_cons.symm
    exact ⟨fun ⟨hway, hspace⟩ => ⟨fun _ => hspace, hway⟩, fun ⟨hspace, hway⟩ =>
      ⟨hway, hspace hnested⟩⟩

/-! ## The types around a type -/

namespace Blueprint

variable {b : Blueprint}

/-- The bounded walk of the blueprint writes the planned name, if the bound is not short of the
types around. -/
theorem fullNameFrom_eq {declaring : Option Token} {way : List TypePlan}
    (hway : b.Around declaring way) {fuel : Nat} (hfuel : way.length ≤ fuel) (name : String) :
    b.fullNameFrom fuel name declaring =
      way.foldl (fun name q => q.ownName ++ "/" ++ name) name := by
  induction hway generalizing fuel name with
  | outermost => cases fuel <;> rfl
  | @nested outer q way hq _ ih =>
    cases fuel with
    | zero => cases hfuel
    | succ fuel =>
      rw [fullNameFrom, hq, List.foldl_cons]
      exact ih (Nat.le_of_succ_le_succ hfuel) _

/-- What is written behind a name stays behind it. -/
theorem foldl_ownName_append (way : List TypePlan) (name rest : String) :
    way.foldl (fun name q => q.ownName ++ "/" ++ name) (name ++ rest) =
      way.foldl (fun name q => q.ownName ++ "/" ++ name) name ++ rest := by
  induction way generalizing name with
  | nil => rfl
  | cons q way ih =>
    rw [List.foldl_cons, List.foldl_cons, ← ih]
    congr 1
    exact (String.append_assoc ..).symm

theorem foldl_ownName (p : TypePlan) (way : List TypePlan) :
    way.foldl (fun name q => q.ownName ++ "/" ++ name) p.ownName = plannedName p way := by
  induction way generalizing p with
  | nil => rfl
  | cons q way ih =>
    rw [List.foldl_cons, String.append_assoc, foldl_ownName_append, ih, plannedName,
      String.append_assoc]

/-- A walk that finds nothing twice ends, and has met fewer types than there are. -/
theorem exists_around {fuel : Nat} {visited : List Token} {declaring : Option Token}
    (hnamed : ∀ outer, (declaring = some outer ∨ ∃ p ∈ b.types.toList, p.declaring = some outer) →
      ∃ q, b.type? outer = some q)
    (hdistinct : visited.Nodup) (hplanned : visited ⊆ b.types.toList.map TypePlan.token)
    (hfuel : b.types.size < fuel + visited.length)
    (hends : b.revisits fuel visited declaring = false) :
    ∃ way, b.Around declaring way ∧ way.length + visited.length ≤ b.types.size := by
  have hvisited : visited.length ≤ b.types.size := by
    simpa using (hdistinct.subperm hplanned).length_le
  induction fuel generalizing visited declaring with
  | zero => omega
  | succ fuel ih =>
    cases declaring with
    | none => exact ⟨[], .outermost, by simpa using hvisited⟩
    | some outer =>
      obtain ⟨q, hq⟩ := hnamed outer (.inl rfl)
      obtain ⟨hmem, htoken⟩ := of_type? hq
      obtain ⟨hnew, hends⟩ := Bool.or_eq_false_iff.mp hends
      rw [hq, Option.bind_some] at hends
      have hdistinct' : (outer :: visited).Nodup :=
        List.nodup_cons.mpr ⟨by simpa using hnew, hdistinct⟩
      have hplanned' : outer :: visited ⊆ b.types.toList.map TypePlan.token :=
        List.cons_subset.mpr ⟨htoken ▸ List.mem_map_of_mem hmem, hplanned⟩
      obtain ⟨way, hway, hlength⟩ := ih
        (fun o ho => hnamed o (.inr (ho.elim (fun ho => ⟨q, hmem, ho⟩) id))) hdistinct' hplanned'
        (by rw [List.length_cons]; omega) hends
        (by simpa using (hdistinct'.subperm hplanned').length_le)
      refine ⟨q :: way, .nested hq hway, ?_⟩
      rw [List.length_cons] at hlength ⊢
      omega

/-- The types around a type are those that it is nested in. -/
theorem mem_around_iff (hnodup : (b.types.toList.map TypePlan.token).Nodup) {p : TypePlan}
    (hp : p ∈ b.types.toList) {way : List TypePlan} (hway : b.Around p.declaring way)
    {q : TypePlan} : q ∈ p :: way ↔
      q ∈ b.types.toList ∧ Relation.ReflTransGen b.NestedIn p.token q.token := by
  induction way generalizing p with
  | nil =>
    have houtermost := around_nil_iff.mp hway
    rw [List.mem_singleton]
    constructor
    · rintro rfl
      exact ⟨hp, .refl⟩
    · rintro ⟨hq, hnested⟩
      rcases hnested.cases_head with htoken | ⟨outer, hstep, -⟩
      · exact List.inj_on_of_nodup_map hnodup hq hp htoken.symm
      · rw [nestedIn_iff hnodup hp, houtermost] at hstep
        cases hstep
  | cons o way ih =>
    obtain ⟨outer, houter, ho, hrest⟩ := around_cons_iff.mp hway
    obtain ⟨hmem, rfl⟩ := of_type? ho
    rw [List.mem_cons, ih hmem hrest]
    have hstep : b.NestedIn p.token o.token := (nestedIn_iff hnodup hp).mpr houter
    constructor
    · rintro (rfl | ⟨hq, hnested⟩)
      · exact ⟨hp, .refl⟩
      · exact ⟨hq, .head hstep hnested⟩
    · rintro ⟨hq, hnested⟩
      rcases hnested.cases_head with htoken | ⟨outer, hfirst, hnested⟩
      · exact .inl (List.inj_on_of_nodup_map hnodup hq hp htoken.symm)
      · rw [nestedIn_iff hnodup hp, houter, Option.some.injEq] at hfirst
        exact .inr ⟨hq, hfirst ▸ hnested⟩

end Blueprint

/-- Well nested types have types around them, which are fewer than all types. -/
theorem Setup.WellNested.exists_around {setup : Setup} (hwell : setup.WellNested) {p : TypePlan}
    (hp : p ∈ setup.types) :
    ∃ way, setup.blueprint.Around p.declaring way ∧ way.length < setup.blueprint.types.size := by
  have hfind : ∀ q ∈ setup.types, ∀ outer, q.declaring = some outer →
      ∃ o, setup.blueprint.type? outer = some o := fun q hq outer houter => by
    obtain ⟨o, ho, htoken⟩ := hwell.named q hq outer houter
    exact ⟨o, (Blueprint.type?_eq_some hwell.nodup).mpr ⟨ho, htoken⟩⟩
  have hnamed : ∀ outer, (p.declaring = some outer ∨
      ∃ q ∈ setup.blueprint.types.toList, q.declaring = some outer) →
      ∃ q, setup.blueprint.type? outer = some q := by
    rintro outer (houter | ⟨q, hq, houter⟩)
    · exact hfind p hp outer houter
    · exact hfind q hq outer houter
  exact Blueprint.exists_around hnamed (List.nodup_singleton p.token)
    (List.cons_subset.mpr ⟨List.mem_map_of_mem hp, List.nil_subset _⟩)
    (by rw [List.length_singleton]; omega) (hwell.acyclic p hp)

/-! ## Names in a build -/

/-- Types keep their identity and are nested as they were, none is added, and links and the list of
declared types stay. -/
structure SameNesting (s s' : BuildState) : Prop where
  size : s'.store.types.size = s.store.types.size
  types : ∀ h, Option.Rel TypeDef.SamePlace (s.store.types.get? h) (s'.store.types.get? h)
  linkedTypes : s'.links.types = s.links.types
  declared : s'.declared = s.declared

namespace SameNesting

variable {s s₁ s' : BuildState}

theorem of_eq (types : s'.store.types = s.store.types)
    (linkedTypes : s'.links.types = s.links.types) (declared : s'.declared = s.declared) :
    SameNesting s s' := by
  refine ⟨by rw [types], fun h => ?_, linkedTypes, declared⟩
  rw [types]
  cases s.store.types.get? h with
  | none => exact .none
  | some t => exact .some (.refl t)

theorem refl (s : BuildState) : SameNesting s s := .of_eq rfl rfl rfl

theorem trans (h₁ : SameNesting s s₁) (h₂ : SameNesting s₁ s') : SameNesting s s' where
  size := h₂.size.trans h₁.size
  types h := by
    obtain ⟨hs, hs₁⟩ | ⟨t, u, ht, hu, htu⟩ := rel_cases (h₁.types h)
    · obtain ⟨-, hs'⟩ | ⟨u, v, hu, -⟩ := rel_cases (h₂.types h)
      · rw [hs, hs']
        exact .none
      · cases hu.symm.trans hs₁
    · obtain ⟨hs₁, -⟩ | ⟨u', v, hu', hv, huv⟩ := rel_cases (h₂.types h)
      · cases hu.symm.trans hs₁
      · obtain rfl := Option.some.inj (hu.symm.trans hu')
        rw [ht, hv]
        exact .some (htu.trans huv)
  linkedTypes := h₂.linkedTypes.trans h₁.linkedTypes
  declared := h₂.declared.trans h₁.declared

instance : IsPreorder BuildState SameNesting where
  refl := refl
  trans _ _ _ := trans

theorem stages (h : Stages s s') : SameNesting s s' :=
  .of_eq h.types_eq (by rw [h.links_eq]) h.declared_eq

theorem keeps_modifyType (h : TypeHandle) {f : TypeDef → TypeDef}
    (hf : ∀ t, TypeDef.SamePlace t (f t)) : Build.Keeps SameNesting (Build.modifyType h f) := by
  refine Build.Keeps.modify fun s => ⟨Arena.size_modify _ h f, fun g => ?_, rfl, rfl⟩
  show Option.Rel _ _ ((s.store.types.modify h f).get? g)
  rw [Arena.get?_modify]
  cases s.store.types.get? g with
  | none => split <;> exact .none
  | some t =>
    split
    · exact .some (hf t)
    · exact .some (.refl t)

/-- Listing further members of a type keeps its place. -/
theorem of_publishes {m : MemberSort} {type : TypeHandle} {e : Token × Handle m.kind}
    (h : Publishes m.places type [e] s s') : SameNesting s s' where
  size := h.size
  types g := by
    rw [h.types g]
    cases s.store.types.get? g with
    | none => split <;> exact .none
    | some t =>
      split
      · exact .some ⟨m.places.alike_withHandles t _, by cases m <;> rfl⟩
      · exact .some (.refl t)
  linkedTypes := by rw [h.links, m.places.types_withTable]
  declared := h.declared

instance : AllowsCalls SameNesting where
  notice n _ := (keeps_notice n).mono fun _ _ h => stages h.stages
  allocField f := (keeps_allocField f).mono fun _ _ h => stages h.stages
  allocParam p := (keeps_allocParam p).mono fun _ _ h => stages h.stages
  allocProperty p := (keeps_allocProperty p).mono fun _ _ h => stages h.stages
  allocEvent e := (keeps_allocEvent e).mono fun _ _ h => stages h.stages
  tells n := (keeps_notice n).mono fun _ _ h => stages h.stages
  allocMethod m := (keeps_allocMethod m).mono fun _ _ => stages
  registerGeneric _ _ _ := Build.Keeps.modifyGet fun _ => .of_eq rfl rfl rfl
  modifyGeneric _ _ _ := Build.Keeps.modify fun _ => .of_eq rfl rfl rfl
  modifyType h _ hf := keeps_modifyType h hf
  publishes _ _ _ _ _ := of_publishes
  record _ := Build.Keeps.modify fun _ => .of_eq rfl rfl rfl

end SameNesting

/-- There are no fewer objects than plans that have been declared. -/
theorem Declares.length_le_size {config : Config} {done : List TypePlan} {s : BuildState}
    (hs : Declares config done s) : done.length ≤ s.store.types.size := by
  -- the declared types are different objects of the arena
  have hbound : s.declared.toList.map Handle.index ⊆ List.range s.store.types.size := by
    intro i hi
    obtain ⟨h, hh, rfl⟩ := List.mem_map.mp hi
    obtain ⟨p, -, hlink⟩ := exists_of_forall₂ hs.listed.flip hh
    obtain ⟨t, ht, -⟩ := hs.get?_of_linked hlink
    exact List.mem_range.mpr (Arena.index_lt_size ht)
  have hnodup : (s.declared.toList.map Handle.index).Nodup :=
    hs.nodup_declared.map fun h h' heq => by
      cases h
      cases h'
      exact congrArg Handle.mk heq
  have hlength := (hnodup.subperm hbound).length_le
  rw [List.length_map, List.length_range] at hlength
  rw [hs.listed.length_eq]
  exact hlength

/-- Every planned type has its object, with the planned name, in the object of its declaring token,
and there are no fewer objects than plans. -/
structure Placed (setup : Setup) (s : BuildState) : Prop where
  types : ∀ p ∈ setup.types, s.TypeOf p fun t => t.token = p.token ∧ t.space = p.space ∧
    t.name = p.name ∧ t.declaring = p.declaring.bind s.links.types.get?
  listed : List.Forall₂ (fun p h => s.links.types.get? p.token = some h) setup.types
    s.declared.toList
  size : setup.types.length ≤ s.store.types.size

namespace Placed

variable {setup : Setup} {s s' : BuildState}

/-- A declaration leaves such a state. -/
theorem of_declares (hs : Nests setup setup.types [] s) : Placed setup s where
  types p hp := by
    obtain ⟨h, t, hlink, ht, hnested⟩ := hs.nested p hp
    obtain ⟨h', d, hlink', ht'⟩ := hs.linked p hp
    obtain rfl := Option.some.inj (hlink.symm.trans hlink')
    obtain rfl := Option.some.inj (ht.symm.trans ht')
    exact ⟨h, _, hlink, ht, rfl, rfl, rfl, hnested⟩
  listed := hs.listed
  size := hs.length_le_size

/-- Types that keep their places have their names. -/
theorem sameNesting (hs : Placed setup s) (h : SameNesting s s') : Placed setup s' where
  types p hp := by
    obtain ⟨g, t, hlink, ht, htoken, hspace, hname, hnested⟩ := hs.types p hp
    obtain ⟨hnone, -⟩ | ⟨t', u, ht', hu, hplace⟩ := rel_cases (h.types g)
    · cases ht.symm.trans hnone
    obtain rfl := Option.some.inj (ht.symm.trans ht')
    exact ⟨g, u, h.linkedTypes ▸ hlink, hu, hplace.token.trans htoken, hplace.space.trans hspace,
      hplace.name.trans hname, by rw [hplace.declaring, hnested, h.linkedTypes]⟩
  listed := by
    rw [h.linkedTypes, h.declared]
    exact hs.listed
  size := h.size ▸ hs.size

/-- The bounded walk over objects writes the built name, if the bound is not short of the types
around. -/
theorem fullNameWithin_eq (hs : Placed setup s) {p : TypePlan} (hp : p ∈ setup.types)
    {way : List TypePlan} (hway : setup.blueprint.Around p.declaring way) {fuel : Nat}
    (hfuel : way.length ≤ fuel) {h : TypeHandle} {t : TypeDef}
    (hlink : s.links.types.get? p.token = some h) (ht : s.store.types.get? h = some t) :
    s.store.fullNameWithin fuel t = builtName p way := by
  induction way generalizing p fuel h t with
  | nil =>
    obtain ⟨h', t', hlink', ht', -, hspace, hname, hnested⟩ := hs.types p hp
    obtain rfl := Option.some.inj (hlink.symm.trans hlink')
    obtain rfl := Option.some.inj (ht.symm.trans ht')
    rw [Blueprint.around_nil_iff.mp hway] at hnested
    have hown : t.ownName = p.ownName := by rw [TypeDef.ownName, hspace, hname, TypePlan.ownName]
    have houter : s.store.outer? t = none := by rw [Store.outer?, hnested]; rfl
    cases fuel with
    | zero => exact hown
    | succ fuel =>
      rw [Store.fullNameWithin, houter]
      exact hown
  | cons q way ih =>
    obtain ⟨h', t', hlink', ht', -, -, hname, hnested⟩ := hs.types p hp
    obtain rfl := Option.some.inj (hlink.symm.trans hlink')
    obtain rfl := Option.some.inj (ht.symm.trans ht')
    obtain ⟨outer, houter, hq, hrest⟩ := Blueprint.around_cons_iff.mp hway
    obtain ⟨hmem, rfl⟩ := Blueprint.of_type? hq
    obtain ⟨o, u, hlinked, hu, -⟩ := hs.types q hmem
    have hfound : s.store.outer? t = some u := by
      rw [Store.outer?, hnested, houter, Option.bind_some, hlinked, Option.bind_some, hu]
    cases fuel with
    | zero => cases hfuel
    | succ fuel =>
      rw [Store.fullNameWithin, hfound, builtName,
        ← ih hmem hrest (Nat.le_of_succ_le_succ hfuel) hlinked hu, ← hname]
      rfl

/-- The two names of a type are the same exactly if no nested type has a namespace. -/
theorem fullName_eq_iff (hs : Placed setup s) (hwell : setup.WellNested) {p : TypePlan}
    (hp : p ∈ setup.types) {h : TypeHandle} {t : TypeDef}
    (hlink : s.links.types.get? p.token = some h) (ht : s.store.types.get? h = some t) :
    s.store.fullName t = setup.blueprint.fullName p ↔ setup.blueprint.InnerBare p := by
  obtain ⟨way, hway, hlength⟩ := hwell.exists_around hp
  have hplans : setup.types.length = setup.blueprint.types.size := Array.length_toList
  have hsize := hs.size
  have hbuilt : s.store.fullName t = builtName p way :=
    hs.fullNameWithin_eq hp hway (by omega) hlink ht
  have hplanned : setup.blueprint.fullName p = plannedName p way := by
    rw [Blueprint.fullName, Blueprint.fullNameFrom_eq hway (by omega), Blueprint.foldl_ownName]
  rw [hbuilt, hplanned, eq_comm, plannedName_eq_builtName_iff hway]
  constructor
  · intro hbare q hq hnested
    exact hbare q ((Blueprint.mem_around_iff hwell.nodup hp hway).mpr ⟨hq, hnested⟩)
  · intro hbare q hq
    obtain ⟨hmem, hnested⟩ := (Blueprint.mem_around_iff hwell.nodup hp hway).mp hq
    exact hbare q hmem hnested

end Placed

/-! ## The name index -/

/-- What each step of a pass adds to a list is there in the end, in the order of the steps. -/
theorem foldl_eq_append {α β γ : Type} {f : β → α → β} {v : β → List γ} {w : α → List γ}
    (hf : ∀ b a, v (f b a) = v b ++ w a) (l : List α) (b : β) :
    v (l.foldl f b) = v b ++ l.flatMap w := by
  induction l generalizing b with
  | nil => simp
  | cons a l ih => rw [List.foldl_cons, ih, hf, List.append_assoc, List.flatMap_cons]

/-- The full name of a type, if it is still there. -/
def Store.fullName? (s : Store) (h : TypeHandle) : Option String :=
  (s.types.get? h).map s.fullName

/-- The index lists the tokens of types under their full names, in the order of the types. -/
theorem toList_nameIndex (store : Store) (types : Array TypeHandle) (name : String) :
    (((Image.nameIndex store types)[name]?).getD #[]).toList =
      types.toList.filterMap fun h =>
        ((store.types.get? h).filter (store.fullName · == name)).map (·.token) := by
  unfold Image.nameIndex
  rw [← Array.foldl_toList, foldl_eq_append
    (v := fun names => ((names[name]?).getD #[]).toList)
    (w := fun h =>
      (((store.types.get? h).filter (store.fullName · == name)).map (·.token)).toList)]
  · simp [List.filterMap_eq_flatMap_toList]
  · intro names h
    cases ht : store.types.get? h with
    | none => simp
    | some t =>
      simp only [Std.TreeMap.getElem?_alter]
      by_cases hname : store.fullName t = name
      · subst hname
        simp [Option.filter_some]
      · simp [Option.filter_some, hname]

namespace Placed

variable {setup : Setup} {s : BuildState}

/-- The image finds the types with a full name, in the order in which it lists them. -/
theorem typesNamed_eq_filter (hs : Placed setup s) (name : String) :
    (setup.image s).typesNamed name =
      (setup.image s).types.toList.filter (s.store.fullName? · == some name) := by
  have htokens : (((setup.image s).names[name]?).getD #[]).toList =
      s.declared.toList.filterMap fun h =>
        ((s.store.types.get? h).filter (s.store.fullName · == name)).map (·.token) :=
    toList_nameIndex s.store s.declared name
  unfold Image.typesNamed
  rw [htokens, List.filterMap_filterMap, ← List.filterMap_eq_filter]
  refine List.filterMap_congr fun h hh => ?_
  -- a listed type is the one that its token leads to
  obtain ⟨p, hp, hlisted⟩ := exists_of_forall₂ hs.listed.flip hh
  obtain ⟨g, t, hlink, ht, htoken, -⟩ := hs.types p hp
  obtain rfl := Option.some.inj (hlink.symm.trans hlisted)
  have hfound : (setup.image s).type? t.token = some g := htoken ▸ hlink
  by_cases hname : s.store.fullName t = name
  · simp [Option.guard, Option.filter_some, Store.fullName?, ht, hname, hfound]
  · simp [Option.guard, Option.filter_some, Store.fullName?, ht, hname]

/-- The image finds a type under its full name alone. -/
theorem mem_typesNamed_iff (hs : Placed setup s) {p : TypePlan} (hp : p ∈ setup.types)
    {h : TypeHandle} {t : TypeDef} (hlink : s.links.types.get? p.token = some h)
    (ht : s.store.types.get? h = some t) {name : String} :
    h ∈ (setup.image s).typesNamed name ↔ s.store.fullName t = name := by
  obtain ⟨g, hg, hlisted⟩ := exists_of_forall₂ hs.listed hp
  obtain rfl := Option.some.inj (hlink.symm.trans hlisted)
  have hmem : h ∈ (setup.image s).types.toList := hg
  simp [hs.typesNamed_eq_filter, Store.fullName?, ht, hmem]

end Placed

/-- **The two full names of a type agree exactly if no nested type has a namespace.** After a
declaration, and behind any further calls, the object of a type has the name that its blueprint
gives it if, and only if, the type and those around it have no namespace but the outermost's. Then,
and only then, the index lists the type under the name in its failures. -/
theorem full_names_agree_iff {setup : Setup} {s₀ : BuildState}
    (hdeclare : setup.declareTypes.Yields (.initial setup.config) () s₀)
    (calls : List BuildCall) {p : TypePlan} (hp : p ∈ setup.types) :
    ∃ h t, (setup.callAll s₀ calls).links.types.get? p.token = some h ∧
      (setup.callAll s₀ calls).store.types.get? h = some t ∧
      ((setup.callAll s₀ calls).store.fullName t = setup.blueprint.fullName p ↔
        setup.blueprint.InnerBare p) ∧
      ∀ phase source, ∃ name declaring module,
        setup.failureIn phase p source = .inType phase name declaring module source ∧
        (h ∈ (setup.image (setup.callAll s₀ calls)).typesNamed name ↔
          setup.blueprint.InnerBare p) := by
  obtain ⟨hwell, hnests⟩ := @yields_declareTypes setup #[] s₀ hdeclare
  have hplaced : Placed setup (setup.callAll s₀ calls) :=
    (Placed.of_declares hnests).sameNesting (callAll_related s₀ calls)
  obtain ⟨h, t, hlink, ht, -⟩ := hplaced.types p hp
  have hname := hplaced.fullName_eq_iff hwell hp hlink ht
  refine ⟨h, t, hlink, ht, hname, fun phase source => ⟨_, _, _, rfl, ?_⟩⟩
  rw [hplaced.mem_typesNamed_iff hp hlink ht, hname]

/-- A nested type with a namespace, whose member cannot be made. -/
def lodger : TypePlan :=
  { token := ⟨0x02000002⟩, space := "Lib", name := "Inner", flags := .empty, flavor := .classType
    module := "lodging", declaring := some ⟨0x02000001⟩
    fields := #[{ token := ⟨0x04000001⟩, name := "lost", flags := .empty
                  type := TypeRef.typeDef ⟨0x02000009⟩ }] }

def lodging : Setup where
  blueprint := .ofTypes "lodging"
    #[{ token := ⟨0x02000001⟩, space := "Game", name := "Outer", flags := .empty
        flavor := .classType, module := "lodging" }, lodger]
  config := .lenient

/-- The failure of the nested type speaks of `Game.Outer/Lib.Inner`, under which the image does not
find the type. -/
theorem full_names_agree_iff_lodger :
    ∃ s₀ h t source, lodging.declareTypes.Yields (.initial lodging.config) () s₀ ∧
      let s := lodging.callAll s₀ [.hierarchy .all, .populateAll]
      s.links.types.get? lodger.token = some h ∧ s.store.types.get? h = some t ∧
      s.failures = #[.inType .members "Game.Outer/Lib.Inner" "Game.Outer" "lodging" source] ∧
      s.store.fullName t ≠ "Game.Outer/Lib.Inner" ∧
      h ∉ (lodging.image s).typesNamed "Game.Outer/Lib.Inner" := by
  have hdeclare := Build.yields_of_isOk lodging.declareTypes (.initial lodging.config)
    (by decide +kernel)
  have hfailures : (lodging.callAll (lodging.declareTypes.outcome (.initial lodging.config)).2
      [.hierarchy .all, .populateAll]).failures =
        #[.inType .members "Game.Outer/Lib.Inner" "Game.Outer" "lodging"
          (.unresolved "TypeDef(0x02000009)" .notLinked)] := by decide +kernel
  have hplanned : lodging.blueprint.fullName lodger = "Game.Outer/Lib.Inner" := by decide +kernel
  have hp : lodger ∈ lodging.types := by simp [Setup.types, lodging, Blueprint.ofTypes]
  have hbare : ¬ lodging.blueprint.InnerBare lodger := fun h =>
    absurd (h lodger hp .refl (by decide)) (by decide)
  obtain ⟨h, t, hlink, ht, hname, hfound⟩ :=
    full_names_agree_iff hdeclare [.hierarchy .all, .populateAll] hp
  obtain ⟨_, _, _, hfailure, hlisted⟩ :=
    hfound .members (.unresolved "TypeDef(0x02000009)" .notLinked)
  obtain ⟨-, rfl, -, -, -⟩ := Failure.inType.inj hfailure
  rw [hplanned] at hname hlisted
  exact ⟨_, h, t, _, hdeclare, hlink, ht, hfailures, mt hname.mp hbare, mt hlisted.mp hbare⟩

end ClrImage
