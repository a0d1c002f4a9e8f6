import ClrImage.Proofs.FullNames

/-!
# Walks outwards

The way from a nested type outwards is followed in two structures. Over objects it is followed
without a bound, as far as there is a type around, and it is the check of the blueprint that keeps
it from running in circles; over declaring tokens it is followed for as many steps as there are
types. **Both walks end, and at the same type**, also while types are still being nested.

- `Store.Outwards`, `Store.Named`: the walk over objects, and the recursion that puts names
  together along it, without a bound. What has a derivation comes to an end.
- `Setup.PassesThrough`: the states between the steps of the first pass.
- `Nests.outwards`: the walk over objects takes the way of the declaring tokens, as far as types
  have been nested.
- `Blueprint.Around.nodup`: the way meets no type twice.
- `nesting_walks_agree`: the walks end, agree, and meet all types around a type.
-/

namespace ClrImage

/-! ## Over objects -/

namespace Store

/-- The types around a type, innermost first, as the objects have them. -/
inductive Outwards (s : Store) : TypeDef → List TypeDef → Prop
  | outermost {t : TypeDef} : s.outer? t = none → Outwards s t []
  | nested {t outer : TypeDef} {way : List TypeDef} :
    s.outer? t = some outer → Outwards s outer way → Outwards s t (outer :: way)

/-- The name that the recursion over the types around a type comes to, however deep it goes. -/
inductive Named (s : Store) : TypeDef → String → Prop
  | outermost {t : TypeDef} : s.outer? t = none → Named s t t.ownName
  | nested {t outer : TypeDef} {name : String} :
    s.outer? t = some outer → Named s outer name → Named s t (name ++ "/" ++ t.name)

variable {s : Store} {t : TypeDef}

theorem Named.unique {name name' : String} (h : s.Named t name) (h' : s.Named t name') :
    name = name' := by
  induction h generalizing name' with
  | outermost hnone =>
    cases h' with
    | outermost => rfl
    | nested hsome => cases hnone.symm.trans hsome
  | nested hsome _ ih =>
    cases h' with
    | outermost hnone => cases hnone.symm.trans hsome
    | nested hsome' hrest =>
      obtain rfl := Option.some.inj (hsome.symm.trans hsome')
      rw [ih hrest]

/-- Where the walk ends, so does the recursion, and a bound that is not short of the walk has no
effect on it. -/
theorem Outwards.named {way : List TypeDef} (h : s.Outwards t way) {fuel : Nat}
    (hfuel : way.length ≤ fuel) : s.Named t (s.fullNameWithin fuel t) := by
  induction h generalizing fuel with
  | outermost hnone =>
    cases fuel with
    | zero => exact .outermost hnone
    | succ fuel =>
      rw [fullNameWithin, hnone]
      exact .outermost hnone
  | nested hsome _ ih =>
    cases fuel with
    | zero => cases hfuel
    | succ fuel =>
      rw [fullNameWithin, hsome]
      exact .nested hsome (ih (Nat.le_of_succ_le_succ hfuel))

/-- The full name is what the recursion comes to. -/
theorem Outwards.named_iff {way : List TypeDef} (h : s.Outwards t way)
    (hlength : way.length ≤ s.types.size) (name : String) :
    s.Named t name ↔ name = s.fullName t := by
  have hnamed : s.Named t (s.fullName t) := h.named hlength
  constructor
  · intro hname
    exact hname.unique hnamed
  · rintro rfl
    exact hnamed

end Store

/-! ## Over declaring tokens -/

namespace Blueprint

variable {b : Blueprint}

namespace Around

variable {declaring : Option Token} {way : List TypePlan}

theorem unique {way' : List TypePlan} (h : b.Around declaring way) (h' : b.Around declaring way') :
    way = way' := by
  induction h generalizing way' with
  | outermost =>
    cases h' with
    | outermost => rfl
  | nested hq _ ih =>
    cases h' with
    | nested hq' hrest =>
      obtain rfl := Option.some.inj (hq.symm.trans hq')
      rw [ih hrest]

/-- From each type on the way, there is less of it to go. -/
theorem of_mem (h : b.Around declaring way) {q : TypePlan} (hq : q ∈ way) :
    ∃ rest, b.Around q.declaring rest ∧ rest.length < way.length := by
  induction h with
  | outermost => cases hq
  | @nested outer o way _ hrest ih =>
    rw [List.length_cons]
    rcases List.mem_cons.mp hq with rfl | hq
    · exact ⟨way, hrest, Nat.lt_succ_self _⟩
    · obtain ⟨rest, haround, hlength⟩ := ih hq
      exact ⟨rest, haround, Nat.lt_succ_of_lt hlength⟩

/-- The way from a type meets no type twice, and does not come back. -/
theorem nodup {p : TypePlan} (h : b.Around p.declaring way) : (p :: way).Nodup := by
  induction way generalizing p with
  | nil => exact List.nodup_singleton p
  | cons q way ih =>
    obtain ⟨outer, -, -, hrest⟩ := around_cons_iff.mp h
    refine List.nodup_cons.mpr ⟨fun hp => ?_, ih hrest⟩
    obtain ⟨rest, haround, hlength⟩ := h.of_mem hp
    rw [haround.unique h] at hlength
    exact absurd hlength (Nat.lt_irrefl _)

/-- The bounded walk ends at the last type around, if the bound is not short of the way. -/
theorem topLevelFrom_eq (h : b.Around declaring way) {fuel : Nat} (hfuel : way.length ≤ fuel)
    (current : Token) :
    (current :: way.map TypePlan.token).getLast? =
      some (b.topLevelFrom fuel current declaring) := by
  induction h generalizing fuel current with
  | outermost => cases fuel <;> rfl
  | @nested outer q way hq _ ih =>
    cases fuel with
    | zero => cases hfuel
    | succ fuel =>
      rw [topLevelFrom, hq, List.map_cons, List.getLast?_cons_cons]
      exact ih (Nat.le_of_succ_le_succ hfuel) q.token

end Around

end Blueprint

/-- The planned name has the own names of all types, outermost first. -/
theorem plannedName_eq_intercalate (p : TypePlan) (way : List TypePlan) :
    plannedName p way = "/".intercalate ((p :: way).reverse.map TypePlan.ownName) := by
  induction way generalizing p with
  | nil => rfl
  | cons q way ih =>
    have hlast : (p :: q :: way).reverse = (q :: way).reverse ++ [p] := List.reverse_cons
    rw [plannedName, ih, hlast, List.map_append,
      String.intercalate_append_of_ne_nil (by simp) (by simp)]
    rfl

/-! ## During the first pass -/

/-- The states between two steps of the first pass: some types have been declared, or all of them
have been, and some have been nested. -/
inductive Setup.PassesThrough (setup : Setup) : BuildState → Prop
  | declaring {done todo : List TypePlan} {s : BuildState} (htypes : setup.types = done ++ todo)
    (hrun : Build.Yields (done.forM fun p => setup.inContext .declare p (Build.declareType p))
      (.initial setup.config) () s) : PassesThrough setup s
  | nesting {done todo : List TypePlan} {s₁ s : BuildState} (htypes : setup.types = done ++ todo)
    (hdeclare :
      Build.Yields (setup.types.forM fun p => setup.inContext .declare p (Build.declareType p))
        (.initial setup.config) () s₁)
    (hrun : Build.Yields (done.forM fun p => setup.inContext .declare p (setup.wireDeclaring p))
      s₁ () s) : PassesThrough setup s

namespace Nests

variable {setup : Setup} {done todo : List TypePlan} {s : BuildState}

/-- Some of the types have been nested. -/
theorem of_nestRound {s₁ : BuildState} (htypes : setup.types = done ++ todo)
    (hs : Nests setup [] setup.types s₁)
    (hrun : Build.Yields (done.forM fun p => setup.inContext .declare p (setup.wireDeclaring p))
      s₁ () s) : Nests setup done todo s := by
  refine Build.forM_induction (fun first rest s => Nests setup first (rest ++ todo) s)
    (htypes ▸ hs) ?_ hrun
  intro first p rest s s' hdone hs hstep
  refine hs.step ?_ (Setup.yields_inContext.mp hstep)
  rw [htypes, hdone, List.append_assoc]
  rfl

/-- The walk over objects takes the way of the declaring tokens. It ends early at a type that has
not been nested yet, and nowhere else. -/
theorem outwards (hs : Nests setup done todo s) (htypes : setup.types = done ++ todo)
    {p : TypePlan} (hp : p ∈ setup.types) {way : List TypePlan}
    (hway : setup.blueprint.Around p.declaring way) {h : TypeHandle} {t : TypeDef}
    (hlink : s.links.types.get? p.token = some h) (ht : s.store.types.get? h = some t) :
    ∃ objects, s.store.Outwards t objects ∧
      objects.map (·.token) <+: way.map TypePlan.token ∧
      (todo = [] → objects.map (·.token) = way.map TypePlan.token) := by
  -- an object has been nested in that of its declaring token, or not at all
  have hdeclaring {p : TypePlan} (hp : p ∈ setup.types) {h : TypeHandle} {t : TypeDef}
      (hlink : s.links.types.get? p.token = some h) (ht : s.store.types.get? h = some t) :
      t.declaring = p.declaring.bind s.links.types.get? ∨ todo ≠ [] ∧ t.declaring = none := by
    rw [htypes, List.mem_append] at hp
    rcases hp with hp | hp
    · obtain ⟨h', t', hlink', ht', hnested⟩ := hs.nested p hp
      obtain rfl := Option.some.inj (hlink.symm.trans hlink')
      obtain rfl := Option.some.inj (ht.symm.trans ht')
      exact .inl hnested
    · obtain ⟨h', t', hlink', ht', hfree⟩ := hs.free p hp
      obtain rfl := Option.some.inj (hlink.symm.trans hlink')
      obtain rfl := Option.some.inj (ht.symm.trans ht')
      exact .inr ⟨List.ne_nil_of_mem hp, hfree⟩
  have hends {t : TypeDef} (h : t.declaring = none) : s.store.Outwards t [] :=
    .outermost (by rw [Store.outer?, h, Option.bind_none])
  induction way generalizing p h t with
  | nil =>
    have hnone : t.declaring = none := by
      rcases hdeclaring hp hlink ht with hnested | ⟨-, hfree⟩
      · rw [hnested, Blueprint.around_nil_iff.mp hway, Option.bind_none]
      · exact hfree
    exact ⟨[], hends hnone, List.nil_prefix, fun _ => rfl⟩
  | cons q way ih =>
    rcases hdeclaring hp hlink ht with hnested | ⟨htodo, hfree⟩
    · obtain ⟨outer, houter, hq, hrest⟩ := Blueprint.around_cons_iff.mp hway
      obtain ⟨hmem, rfl⟩ := Blueprint.of_type? hq
      obtain ⟨o, d, hlinked, ho⟩ := hs.linked q hmem
      have hstep : s.store.outer? t = some { q.declaration with declaring := d } := by
        rw [Store.outer?, hnested, houter, Option.bind_some, hlinked, Option.bind_some, ho]
      obtain ⟨objects, hwalk, hprefix, hall⟩ := ih hmem hrest hlinked ho
      refine ⟨_ :: objects, .nested hstep hwalk, ?_, fun htodo => ?_⟩
      · exact List.cons_prefix_cons.mpr ⟨rfl, hprefix⟩
      · exact congrArg (q.token :: ·) (hall htodo)
    · exact ⟨[], hends hfree, List.nil_prefix, fun h => absurd h htodo⟩

/-- No walk over objects has more steps than there are objects. -/
theorem outwards_le_size (hs : Nests setup done todo s) (htypes : setup.types = done ++ todo)
    (hwell : setup.WellNested) {h : TypeHandle} {t : TypeDef}
    (ht : s.store.types.get? h = some t) :
    ∃ objects, s.store.Outwards t objects ∧ objects.length ≤ s.store.types.size := by
  obtain ⟨p, hp, hlink⟩ := hs.known h t ht
  obtain ⟨way, hway, hlength⟩ := hwell.exists_around hp
  obtain ⟨objects, hwalk, hprefix, -⟩ := hs.outwards htypes hp hway hlink ht
  refine ⟨objects, hwalk, ?_⟩
  calc objects.length = (objects.map (·.token)).length := (List.length_map _).symm
    _ ≤ (way.map TypePlan.token).length := hprefix.length_le
    _ = way.length := List.length_map _
    _ ≤ setup.blueprint.types.size := Nat.le_of_lt hlength
    _ = setup.types.length := Array.length_toList.symm
    _ ≤ s.store.types.size := hs.length_le_size

end Nests

/-- At each state of the pass, the walk from each object ends. -/
theorem Setup.PassesThrough.outwards {setup : Setup} {s : BuildState} (hs : setup.PassesThrough s)
    (hwell : setup.WellNested) {h : TypeHandle} {t : TypeDef}
    (ht : s.store.types.get? h = some t) :
    ∃ objects, s.store.Outwards t objects ∧ objects.length ≤ s.store.types.size := by
  cases hs with
  | declaring htypes hrun =>
    have hfree : t.declaring = none := (@declares_of_declareRound setup #[] _ s hrun).2 h t ht
    exact ⟨[], .outermost (by rw [Store.outer?, hfree, Option.bind_none]), Nat.zero_le _⟩
  | nesting htypes hdeclare hrun =>
    obtain ⟨hdeclares, hfree⟩ := @declares_of_declareRound setup #[] _ _ hdeclare
    exact (Nests.of_nestRound htypes (nests_of_declares hdeclares hfree) hrun).outwards_le_size
      htypes hwell ht

/-- **The walks outwards end and agree.** If the first pass accepts the types of a blueprint, then
at each of its states, and behind it, the walk from any object outwards comes to an end, and so does
the unbounded recursion for its full name. Behind the pass, the walk from the object of a type ends
at the object with the token of its top-level type. The full name in the blueprint joins the own
names of the type and of all types that it is nested in, each once and outermost first: the bound on
the steps never cuts it short. -/
theorem nesting_walks_agree {setup : Setup} {s : BuildState}
    (hdeclare : setup.declareTypes.Yields (.initial setup.config) () s) :
    (∀ s', setup.PassesThrough s' ∨ s' = s → ∀ h t, s'.store.types.get? h = some t →
      ∃ objects, s'.store.Outwards t objects ∧
        ∀ name, s'.store.Named t name ↔ name = s'.store.fullName t) ∧
    ∀ p ∈ setup.types, ∃ h t objects way,
      s.links.types.get? p.token = some h ∧ s.store.types.get? h = some t ∧
      s.store.Outwards t objects ∧
      ((t :: objects).map (·.token)).getLast? = some (setup.blueprint.topLevel p) ∧
      setup.blueprint.Around p.declaring way ∧ (p :: way).Nodup ∧
      (∀ q, q ∈ p :: way ↔
        q ∈ setup.types ∧ Relation.ReflTransGen setup.blueprint.NestedIn p.token q.token) ∧
      objects.map (·.token) = way.map TypePlan.token ∧
      setup.blueprint.fullName p = "/".intercalate ((p :: way).reverse.map TypePlan.ownName) := by
  obtain ⟨hwell, hnests⟩ := @yields_declareTypes setup #[] s hdeclare
  have hall : setup.types = setup.types ++ [] := (List.append_nil _).symm
  constructor
  · intro s' hs' h t ht
    obtain ⟨objects, hwalk, hlength⟩ :
        ∃ objects, s'.store.Outwards t objects ∧ objects.length ≤ s'.store.types.size := by
      rcases hs' with hs' | rfl
      · exact hs'.outwards hwell ht
      · exact hnests.outwards_le_size hall hwell ht
    exact ⟨objects, hwalk, hwalk.named_iff hlength⟩
  · intro p hp
    obtain ⟨way, hway, hlength⟩ := hwell.exists_around hp
    obtain ⟨h, d, hlink, ht⟩ := hnests.linked p hp
    obtain ⟨objects, hwalk, -, htokens⟩ := hnests.outwards hall hp hway hlink ht
    have htop : (p.token :: way.map TypePlan.token).getLast? =
        some (setup.blueprint.topLevel p) :=
      hway.topLevelFrom_eq (Nat.le_of_lt hlength) p.token
    have hname : setup.blueprint.fullName p = plannedName p way := by
      rw [Blueprint.fullName, Blueprint.fullNameFrom_eq hway (Nat.le_of_lt hlength),
        Blueprint.foldl_ownName]
    refine ⟨h, _, objects, way, hlink, ht, hwalk, ?_, hway, hway.nodup,
      fun q => Blueprint.mem_around_iff hwell.nodup hp hway, htokens rfl, ?_⟩
    · rw [List.map_cons, htokens rfl]
      exact htop
    · rw [hname, plannedName_eq_intercalate]

/-- A type in a nest of types. -/
def nestling (row : UInt32) (space name : String) (declaring : Option Token) : TypePlan :=
  { token := Token.ofParts Table.typeDef row, space, name, flags := .empty, flavor := .classType
    module := "nest", declaring }

/-- Each type but the last is nested in the next one. -/
def nest : Setup where
  blueprint := .ofTypes "nest"
    #[nestling 1 "" "Small" (some ⟨0x02000002⟩), nestling 2 "" "Medium" (some ⟨0x02000003⟩),
      nestling 3 "Toys" "Large" none]

/-- The way from the innermost type has as many steps as there are other types. -/
theorem nesting_walks_agree_nest :
    ∃ s h t objects, nest.declareTypes.Yields (.initial nest.config) () s ∧
      s.links.types.get? ⟨0x02000001⟩ = some h ∧ s.store.types.get? h = some t ∧
      s.store.Outwards t objects ∧ ((t :: objects).map (·.token)).getLast? = some ⟨0x02000003⟩ ∧
      s.store.Named t (s.store.fullName t) ∧
      nest.blueprint.fullName (nestling 1 "" "Small" (some ⟨0x02000002⟩)) =
        "Toys.Large/Medium/Small" := by
  have hdeclare := Build.yields_of_isOk nest.declareTypes (.initial nest.config)
    (by decide +kernel)
  have hp : nestling 1 "" "Small" (some ⟨0x02000002⟩) ∈ nest.types := by
    simp [Setup.types, nest, Blueprint.ofTypes]
  obtain ⟨hwalks, hends⟩ := nesting_walks_agree hdeclare
  obtain ⟨h, t, objects, -, hlink, ht, hwalk, htop, -⟩ := hends _ hp
  have htoken : nest.blueprint.topLevel (nestling 1 "" "Small" (some ⟨0x02000002⟩)) =
      ⟨0x02000003⟩ := by decide +kernel
  obtain ⟨_, -, hnamed⟩ := hwalks _ (.inr rfl) h t ht
  rw [htoken] at htop
  exact ⟨_, h, t, objects, hdeclare, hlink, ht, hwalk, htop, (hnamed _).mpr rfl,
    by decide +kernel⟩

end ClrImage
