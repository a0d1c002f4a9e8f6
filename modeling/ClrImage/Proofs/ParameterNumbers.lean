import ClrImage.Proofs.OrderlyDrafts

/-!
# Numbers of generic parameters

A generic parameter should carry its position as its number. A number has 16 bits, and an addition
takes those of the number of parameters that are there already. From the parameter at position
65536 on numbers therefore come a second time, and nothing is refused for that.

- `Draft.outcome_addition`, `Draft.refused_addition`: what an addition does, and when it is refused.
- `Draft.Orderly.size_generics_after`: additions are accepted one after the other.
- `TypePlan.containers`, `Blueprint.containers`: all lists of generic parameters.
- `numbers_are_positions_iff`: for which lists of a blueprint numbers are positions.
-/

namespace ClrImage

open Drafting

/-! ## Additions -/

/-- The owner of the generic parameter that a request is to add. -/
def Request.addsTo? : Request → Option Token
  | declareGeneric owner _ _ _ | addGeneric owner _ _ => some owner
  | _ => none

namespace Draft

variable {d : Draft} {r : Request} {owner : Token} {place : GenericPlace}

theorem refused_addition (hr : r.addsTo? = some owner) {e : Failure}
    (hplace : d.ownerPlace owner = .error e) : outcome (perform r) d = (.error e, d) := by
  cases r with
  | declareGeneric _ index name flags =>
    obtain rfl := Option.some.inj hr
    refine (outcome_map ..).trans ?_
    rw [outcome_declareGeneric_refused hplace]
    rfl
  | addGeneric _ name flags =>
    obtain rfl := Option.some.inj hr
    refine (outcome_map ..).trans ?_
    rw [outcome_addGeneric, outcome_declareGeneric_refused hplace]
    rfl
  | _ => cases hr

/-- An addition for an owner that the draft has is accepted, however many parameters there are. -/
theorem outcome_addition (hr : r.addsTo? = some owner) (hplace : d.ownerPlace owner = .ok place) :
    ∃ answer index name flags, outcome (perform r) d =
      (.ok answer, { d.withGenerics place (pushGeneric index name flags) with
        nextGeneric := max d.nextGeneric (index + 1) }) := by
  cases r with
  | declareGeneric _ index name flags =>
    obtain rfl := Option.some.inj hr
    refine ⟨.done, index, name, flags, (outcome_map ..).trans ?_⟩
    rw [outcome_declareGeneric hplace]
    rfl
  | addGeneric _ name flags =>
    obtain rfl := Option.some.inj hr
    refine ⟨.index d.nextGeneric, d.nextGeneric, name, flags, (outcome_map ..).trans ?_⟩
    rw [outcome_addGeneric, outcome_declareGeneric hplace]
    rfl
  | _ => cases hr

/-- The new parameter comes behind the others, and takes its number from how many there are. -/
theorem Orderly.generics_of_addition (hd : d.Orderly) (hr : r.addsTo? = some owner)
    (hplace : d.ownerPlace owner = .ok place) :
    ∃ g, (outcome (perform r) d).2.generics place = (d.generics place).push g ∧
      g.number = UInt16.ofNat (d.generics place).size := by
  obtain ⟨answer, index, name, flags, houtcome⟩ := outcome_addition hr hplace
  have hnext (d : Draft) (next : UInt32) :
      ({ d with nextGeneric := next } : Draft).generics place = d.generics place := by
    cases place <;> rfl
  refine ⟨{ index, number := UInt16.ofNat (d.generics place).size, name, flags }, ?_, rfl⟩
  rw [houtcome, hnext, generics_withGenerics_of_kept? (hd.kept?_of_ownerPlace hplace)]
  rfl

/-- An addition leaves all owners where they are. -/
theorem ownerPlace_of_addition (hr : r.addsTo? = some owner) (other : Token) :
    (outcome (perform r) d).2.ownerPlace other = d.ownerPlace other := by
  cases hplace : d.ownerPlace owner with
  | error e => rw [refused_addition hr hplace]
  | ok place =>
    obtain ⟨answer, index, name, flags, houtcome⟩ := outcome_addition hr hplace
    rw [houtcome]
    cases place <;> rfl

/-- Additions are accepted one after the other. -/
theorem Orderly.size_generics_after (hd : d.Orderly) (hplace : d.ownerPlace owner = .ok place)
    {requests : List Request} (hall : ∀ r ∈ requests, r.addsTo? = some owner) :
    (d.after requests).ownerPlace owner = .ok place ∧
      ((d.after requests).generics place).size = (d.generics place).size + requests.length := by
  induction requests generalizing d with
  | nil => exact ⟨hplace, rfl⟩
  | cons r requests ih =>
    obtain ⟨hr, hall⟩ := List.forall_mem_cons.mp hall
    obtain ⟨g, hpush, -⟩ := hd.generics_of_addition hr hplace
    have hplace' := (ownerPlace_of_addition hr owner).trans hplace
    obtain ⟨hafter, hsize⟩ := ih (keeps_perform r d hd) hplace' hall
    refine ⟨hafter, ?_⟩
    calc ((d.after (r :: requests)).generics place).size
        = ((outcome (perform r) d).2.generics place).size + requests.length := hsize
      _ = (d.generics place).size + 1 + requests.length := by rw [hpush, Array.size_push]
      _ = (d.generics place).size + (r :: requests).length := by
          rw [List.length_cons, Nat.add_assoc, Nat.add_comm 1]

end Draft

/-! ## Numbers in a blueprint -/

/-- The lists of generic parameters in a type: its own, those of its methods, and those of the
methods that its properties and events refer to. -/
def TypePlan.containers (p : TypePlan) : List (Array GenericPlan) :=
  p.generics.toList ++
    (p.methods.toList ++ p.accessors.map Prod.snd).filterMap (·.generics)

/-- All lists of generic parameters in a blueprint. -/
def Blueprint.containers (b : Blueprint) : List (Array GenericPlan) :=
  b.types.toList.flatMap TypePlan.containers

namespace Draft

variable {d : Draft}

theorem Orderly.numbered_method? (hd : d.Orderly) {token : Token} {m : MethodPlan}
    (hm : d.method? token = some m) : m.Numbered := by
  obtain ⟨place, -, hm⟩ := Option.bind_eq_some_iff.mp hm
  obtain ⟨t, ht, hm⟩ := Option.bind_eq_some_iff.mp hm
  exact (hd.numbered _ t ht).methods m (Array.mem_of_getElem? hm)

/-- What a property or an event refers to is a method of the draft. -/
theorem exists_method?_of_accessor {t : TypeDraft} {a : Accessor × MethodPlan}
    (ha : a ∈ ({ t.plan with
      properties := t.properties.map d.planProperty
      events := t.events.map d.planEvent } : TypePlan).accessors) :
    ∃ token, d.method? token = some a.2 := by
  have hbind {accessor : Option Token} {role : Accessor}
      (ha : (accessor.bind d.method?).map (role, ·) = some a) :
      ∃ token, d.method? token = some a.2 := by
    obtain ⟨m, hm, rfl⟩ := Option.map_eq_some_iff.mp ha
    obtain ⟨token, -, hm⟩ := Option.bind_eq_some_iff.mp hm
    exact ⟨token, hm⟩
  simp only [TypePlan.accessors, PropertyPlan.accessors, EventPlan.accessors, Array.toList_map,
    List.flatMap_map, List.mem_append, List.mem_flatMap, Option.mem_toList, planProperty,
    planEvent] at ha
  rcases ha with ⟨q, -, ha | ha⟩ | ⟨e, -, (ha | ha) | ha⟩ <;> exact hbind ha

theorem Orderly.numbered_of_mem_containers (hd : d.Orderly) {params : Array GenericPlan}
    (hparams : params ∈ d.finish.containers) : Numbered params := by
  obtain ⟨p, hp, hparams⟩ := List.mem_flatMap.mp hparams
  obtain ⟨t, ht, rfl⟩ : ∃ t ∈ d.types, _ = p := Array.mem_map.mp (Array.mem_toList_iff.mp hp)
  obtain ⟨i, hi⟩ := Array.mem_iff_getElem?.mp ht
  have ht := hd.numbered i t hi
  rcases List.mem_append.mp hparams with hparams | hparams
  · exact ht.type params (Option.mem_toList.mp hparams)
  · obtain ⟨m, hm, hparams⟩ := List.mem_filterMap.mp hparams
    rcases List.mem_append.mp hm with hm | hm
    · exact ht.methods m (Array.mem_toList_iff.mp hm) params hparams
    · obtain ⟨a, ha, rfl⟩ := List.mem_map.mp hm
      obtain ⟨token, hm⟩ := exists_method?_of_accessor ha
      exact hd.numbered_method? hm params hparams

/-- What a list is in a blueprint: the parameters of an owner, if it has any. -/
theorem mem_containers_of_generics {place : GenericPlace} (h : d.generics place ≠ #[]) :
    d.generics place ∈ d.finish.containers := by
  have hget {generics : Option (Array GenericPlan)} (h : generics.getD #[] ≠ #[]) :
      generics = some (generics.getD #[]) := by
    cases generics with
    | none => exact absurd rfl h
    | some params => rfl
  have htype {i : Nat} {t : TypeDraft} (ht : d.types[i]? = some t) :
      ({ t.plan with
        properties := t.properties.map d.planProperty
        events := t.events.map d.planEvent } : TypePlan) ∈ d.finish.types.toList :=
    Array.mem_toList_iff.mpr (Array.mem_map.mpr ⟨t, Array.mem_of_getElem? ht, rfl⟩)
  cases place with
  | type i =>
    obtain ⟨t, ht, hparams⟩ := Option.bind_eq_some_iff.mp (hget h)
    refine List.mem_flatMap.mpr ⟨_, htype ht, List.mem_append_left _ ?_⟩
    exact Option.mem_toList.mpr hparams
  | method place =>
    obtain ⟨m, hm, hparams⟩ := Option.bind_eq_some_iff.mp (hget h)
    obtain ⟨t, ht, hm⟩ := Option.bind_eq_some_iff.mp hm
    refine List.mem_flatMap.mpr ⟨_, htype ht, List.mem_append_right _ ?_⟩
    exact List.mem_filterMap.mpr ⟨m, List.mem_append_left _
      (Array.mem_toList_iff.mpr (Array.mem_of_getElem? hm)), hparams⟩

/-- An addition is refused only if there is no such owner. A new parameter carries the lowest 16
bits of its position, also if another one carries the same. -/
structure AddsBehind (d : Draft) (r : Request) (owner : Token) : Prop where
  refused_iff : ∀ e, (outcome (perform r) d).1 = .error e ↔ d.ownerPlace owner = .error e
  added : ∀ place, d.ownerPlace owner = .ok place → ∃ g,
    (outcome (perform r) d).2.generics place = (d.generics place).push g ∧
    (d.generics place).push g ∈ (outcome (perform r) d).2.finish.containers ∧
    g.number.toNat = (d.generics place).size % 0x10000 ∧
    ((∃ x ∈ d.generics place, x.number = g.number) ↔ 0x10000 ≤ (d.generics place).size)

theorem Orderly.addsBehind (hd : d.Orderly) {r : Request} {owner : Token}
    (hr : r.addsTo? = some owner) : d.AddsBehind r owner where
  refused_iff e := by
    cases hplace : d.ownerPlace owner with
    | error e' =>
      rw [refused_addition hr hplace]
      simp
    | ok place =>
      obtain ⟨answer, index, name, flags, houtcome⟩ := outcome_addition hr hplace
      rw [houtcome]
      simp
  added place hplace := by
    obtain ⟨g, hpush, hnumber⟩ := hd.generics_of_addition hr hplace
    refine ⟨g, hpush, hpush ▸ mem_containers_of_generics ?_, ?_, ?_⟩
    · rw [hpush]
      exact Array.push_ne_empty
    · rw [hnumber, toNat_ofNat_uint16]
    · rw [hnumber]
      exact (hd.numbered_generics place).exists_number_eq_iff

end Draft

/-- **Numbers are positions in lists of at most 65536 parameters, and only there.** Whatever has
been asked of a draft and refused by it, each parameter in its blueprint carries the lowest 16 bits
of its position. The numbers in a list are the positions, and are different, if and only if there
are no more positions than numbers. Further additions are refused only if the draft has no such
owner: a parameter for which there is no number left gets that of another one. -/
theorem numbers_are_positions_iff (module : String) (requests : List Request) :
    (∀ params ∈ (Session.blueprint module requests).containers,
      (∀ (i : Nat) g, params[i]? = some g → g.number.toNat = i % 0x10000) ∧
      ((∀ (i : Nat) g, params[i]? = some g → g.number.toNat = i) ↔ params.size ≤ 0x10000) ∧
      ((params.toList.map (·.number)).Nodup ↔ params.size ≤ 0x10000)) ∧
    ∀ r owner, r.addsTo? = some owner →
      (Draft.after { module } requests).AddsBehind r owner := by
  have horderly : (Draft.after { module } requests).Orderly :=
    (Draft.orderly_empty module).after requests
  constructor
  · intro params hparams
    have hnumbered := horderly.numbered_of_mem_containers hparams
    exact ⟨fun _ _ => hnumbered.toNat_number, hnumbered.toNat_number_eq_iff, hnumbered.nodup_iff⟩
  · exact fun r owner hr => horderly.addsBehind hr

/-- Adds a parameter to the first type. -/
def widen : Request := .addGeneric ⟨0x02000001⟩ "T" .empty

/-- A type with many parameters. -/
def wide (n : Nat) : List Request :=
  .addType "" "Wide" .empty .classType :: List.replicate n widen

theorem size_wide (n : Nat) :
    (Draft.after { module := "wide" } (wide n)).ownerPlace ⟨0x02000001⟩ = .ok (.type 0) ∧
      ((Draft.after { module := "wide" } (wide n)).generics (.type 0)).size = n := by
  have horderly : (Draft.after { module := "wide" } (wide 0)).Orderly :=
    (Draft.orderly_empty "wide").after (wide 0)
  have hall : ∀ r ∈ List.replicate n widen, r.addsTo? = some ⟨0x02000001⟩ := by
    intro r hr
    rw [List.eq_of_mem_replicate hr]
    rfl
  have hplace : (Draft.after { module := "wide" } (wide 0)).ownerPlace ⟨0x02000001⟩ =
      .ok (.type 0) := rfl
  obtain ⟨hplace, hsize⟩ := horderly.size_generics_after hplace hall
  refine ⟨hplace, hsize.trans ?_⟩
  rw [List.length_replicate]
  exact Nat.zero_add n

/-- The parameter at position 65536 is accepted, and carries the number of the first one. Behind it,
numbers are not positions any more. -/
theorem numbers_are_positions_iff_wide :
    widen.addsTo? = some ⟨0x02000001⟩ ∧
    (∃ g, (outcome (Draft.perform widen)
        (Draft.after { module := "wide" } (wide 0x10000))).2.generics (.type 0) =
        ((Draft.after { module := "wide" } (wide 0x10000)).generics (.type 0)).push g ∧
      g.number.toNat = 0 ∧
      ∃ x ∈ (Draft.after { module := "wide" } (wide 0x10000)).generics (.type 0),
        x.number = g.number) ∧
    ∃ params ∈ (Session.blueprint "wide" (wide 0x10001)).containers,
      params.size = 0x10001 ∧ ¬ (params.toList.map (·.number)).Nodup := by
  refine ⟨rfl, ?_, ?_⟩
  · obtain ⟨hplace, hsize⟩ := size_wide 0x10000
    obtain ⟨g, hpush, -, hnumber, htaken⟩ :=
      ((numbers_are_positions_iff "wide" (wide 0x10000)).2 widen _ rfl).added _ hplace
    rw [hsize] at hnumber htaken
    exact ⟨g, hpush, hnumber, htaken.mpr (Nat.le_refl _)⟩
  · obtain ⟨-, hsize⟩ := size_wide 0x10001
    have hsome : (Draft.after { module := "wide" } (wide 0x10001)).generics (.type 0) ≠ #[] := by
      intro hnone
      rw [hnone] at hsize
      cases hsize
    have hparams := Draft.mem_containers_of_generics hsome
    refine ⟨_, hparams, hsize, fun hnodup => ?_⟩
    have hle := ((numbers_are_positions_iff "wide" (wide 0x10001)).1 _ hparams).2.2.mp hnodup
    rw [hsize] at hle
    exact absurd hle (by decide)

end ClrImage
