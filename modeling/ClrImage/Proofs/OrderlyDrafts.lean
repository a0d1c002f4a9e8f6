import ClrImage.Proofs.Refusals

/-!
# Orderly drafts

In a draft, each generic parameter takes its number from how many its owner has already, and the
positions that are kept for tokens are those of types and methods. Both stay so whatever is asked
of the draft, also when the rows of the tables are used up and tokens come a second time.

- `Numbered`: each parameter of a list carries the lowest 16 bits of its position.
- `Numbered.nodup_iff`, `Numbered.toNat_number_eq_iff`: the numbers are different, and are the
  positions, if and only if the list has at most 65536 parameters.
- `Draft.Orderly`: the lists of a draft are numbered, and its positions are those of types and
  methods that it has.
- `Draft.Careful`, `Drafting.Keeps`: changes of a type and operations that keep a draft orderly.
- `Draft.keeps_perform`, `Draft.Orderly.after`: no request disturbs it, nor does any sequence of
  them.
-/

namespace ClrImage

open Drafting

/-! ## Numbered lists -/

/-- Each parameter carries the lowest 16 bits of its position. -/
def Numbered (params : Array GenericPlan) : Prop :=
  ∀ i g, params[i]? = some g → g.number = UInt16.ofNat i

theorem toNat_ofNat_uint16 (n : Nat) : (UInt16.ofNat n).toNat = n % 0x10000 :=
  UInt16.toNat_ofNat'

namespace Numbered

variable {params : Array GenericPlan}

theorem empty : Numbered #[] := by
  intro i g hg
  cases hg

theorem push (h : Numbered params) {g : GenericPlan} (hg : g.number = UInt16.ofNat params.size) :
    Numbered (params.push g) := by
  intro i x hx
  rw [Array.getElem?_push] at hx
  split at hx
  next hi =>
    obtain rfl := Option.some.inj hx
    rw [hi, hg]
  next => exact h i x hx

/-- A change of one parameter that leaves its number as it is. -/
theorem modify (h : Numbered params) (i : Nat) {f : GenericPlan → GenericPlan}
    (hf : ∀ g, (f g).number = g.number) : Numbered (params.modify i f) := by
  intro j x hx
  rw [Array.getElem?_modify] at hx
  split at hx
  · obtain ⟨g, hg, rfl⟩ := Option.map_eq_some_iff.mp hx
    rw [hf]
    exact h j g hg
  · exact h j x hx

theorem toNat_number (h : Numbered params) {i : Nat} {g : GenericPlan}
    (hg : params[i]? = some g) : g.number.toNat = i % 0x10000 := by
  rw [h i g hg, toNat_ofNat_uint16]

theorem map_number_eq (h : Numbered params) :
    params.toList.map (·.number) = (List.range params.size).map UInt16.ofNat := by
  refine List.ext_getElem? fun i => ?_
  rw [List.getElem?_map, List.getElem?_map, Array.getElem?_toList]
  cases hg : params[i]? with
  | none =>
    have hi : (List.range params.size)[i]? = none := by
      simpa using hg
    rw [hi]
    rfl
  | some g =>
    have hi : i < params.size := (Array.getElem?_eq_some_iff.mp hg).1
    rw [List.getElem?_range hi, Option.map_some, Option.map_some, h i g hg]

/-- Numbers are positions as long as these have 16 bits. -/
theorem toNat_number_eq_iff (h : Numbered params) :
    (∀ (i : Nat) g, params[i]? = some g → g.number.toNat = i) ↔ params.size ≤ 0x10000 := by
  constructor
  · intro heq
    by_contra hsize
    have hlt : 0x10000 < params.size := by omega
    have hlast : params[0x10000]? = some params[0x10000] := Array.getElem?_eq_getElem hlt
    -- the parameter at position 65536 carries the number 0
    have hnumber := h.toNat_number hlast
    rw [heq _ _ hlast] at hnumber
    omega
  · intro hsize i g hg
    have hi : i < params.size := (Array.getElem?_eq_some_iff.mp hg).1
    rw [h.toNat_number hg]
    omega

/-- And as long as they have, no number comes twice. -/
theorem nodup_iff (h : Numbered params) :
    (params.toList.map (·.number)).Nodup ↔ params.size ≤ 0x10000 := by
  rw [h.map_number_eq, List.nodup_map_iff_inj_on List.nodup_range]
  constructor
  · intro hinj
    by_contra hsize
    have hfirst : 0 ∈ List.range params.size := List.mem_range.mpr (by omega)
    have hlast : 0x10000 ∈ List.range params.size := List.mem_range.mpr (by omega)
    exact absurd (hinj 0 hfirst 0x10000 hlast rfl) (by decide)
  · intro hsize i hi j hj heq
    have hi := List.mem_range.mp hi
    have hj := List.mem_range.mp hj
    have hmod : i % 0x10000 = j % 0x10000 := by
      rw [← toNat_ofNat_uint16, ← toNat_ofNat_uint16, heq]
    omega

/-- The number of the next parameter is taken if all numbers are. -/
theorem exists_number_eq_iff (h : Numbered params) :
    (∃ x ∈ params, x.number = UInt16.ofNat params.size) ↔ 0x10000 ≤ params.size := by
  constructor
  · rintro ⟨x, hx, hsame⟩
    obtain ⟨i, hi⟩ := Array.mem_iff_getElem?.mp hx
    have hlt : i < params.size := (Array.getElem?_eq_some_iff.mp hi).1
    have hnumber := h.toNat_number hi
    rw [hsame, toNat_ofNat_uint16] at hnumber
    omega
  · intro hsize
    -- the one that stands 65536 positions before the new one
    have hlt : params.size - 0x10000 < params.size := by omega
    refine ⟨params[params.size - 0x10000], Array.getElem_mem hlt, ?_⟩
    rw [h _ _ (Array.getElem?_eq_getElem hlt)]
    apply UInt16.toNat.inj
    rw [toNat_ofNat_uint16, toNat_ofNat_uint16]
    omega

end Numbered

/-- The list of a method is numbered, if it has one. -/
def MethodPlan.Numbered (m : MethodPlan) : Prop :=
  ∀ params, m.generics = some params → ClrImage.Numbered params

/-- So are the lists of a type and of its methods. -/
structure TypePlan.Numbered (p : TypePlan) : Prop where
  type : ∀ params, p.generics = some params → ClrImage.Numbered params
  methods : ∀ m ∈ p.methods, m.Numbered

/-- A list that there is not counts as an empty one. -/
theorem numbered_getD {generics : Option (Array GenericPlan)}
    (h : ∀ params, generics = some params → Numbered params) : Numbered (generics.getD #[]) := by
  cases generics with
  | none => exact .empty
  | some params => exact h params rfl

/-! ## Orderly drafts -/

namespace Draft

/-- The lists of parameters are numbered, and the positions that are kept are those of types and
methods that are there. -/
structure Orderly (d : Draft) : Prop where
  numbered : ∀ (i : Nat) (t : TypeDraft), d.types[i]? = some t → t.plan.Numbered
  type : ∀ (token : Token) (i : Nat), d.typePlaces[token]? = some i → i < d.types.size
  method : ∀ (token : Token) (place : Place), d.methodPlaces[token]? = some place →
    ∃ t, d.types[place.type]? = some t ∧ place.member < t.plan.methods.size

/-- A change of a type that keeps its lists numbered and its methods where they are. -/
structure Careful (f : TypeDraft → TypeDraft) : Prop where
  numbered : ∀ t, t.plan.Numbered → (f t).plan.Numbered
  methods : ∀ t, t.plan.methods.size ≤ (f t).plan.methods.size

variable {d d' : Draft} {i : Nat} {f : TypeDraft → TypeDraft}

theorem orderly_empty (module : String) : Orderly { module } where
  numbered := nofun
  type := by simp
  method := by simp

/-- A method that is there is still there behind a careful change. -/
theorem Careful.exists_method (hf : Careful f) {place : Place}
    (h : ∃ t, d.types[place.type]? = some t ∧ place.member < t.plan.methods.size) :
    ∃ t, (d.types.modify i f)[place.type]? = some t ∧ place.member < t.plan.methods.size := by
  obtain ⟨t, ht, hlt⟩ := h
  rw [Array.getElem?_modify, ht]
  split
  · exact ⟨f t, rfl, Nat.lt_of_lt_of_le hlt (hf.methods t)⟩
  · exact ⟨t, rfl, hlt⟩

theorem Orderly.numbered_modify (hd : d.Orderly) (hf : Careful f) (j : Nat) (t : TypeDraft)
    (ht : (d.types.modify i f)[j]? = some t) : t.plan.Numbered := by
  rw [Array.getElem?_modify] at ht
  split at ht
  · obtain ⟨t', ht', rfl⟩ := Option.map_eq_some_iff.mp ht
    exact hf.numbered t' (hd.numbered j t' ht')
  · exact hd.numbered j t ht

/-- A careful change of one type, with which no position is added. -/
theorem Orderly.of_modify (hd : d.Orderly) (hf : Careful f)
    (htypes : d'.types = d.types.modify i f) (htypePlaces : d'.typePlaces = d.typePlaces)
    (hmethodPlaces : d'.methodPlaces = d.methodPlaces) : d'.Orderly where
  numbered := htypes ▸ hd.numbered_modify hf
  type token j hj := by
    rw [htypePlaces] at hj
    rw [htypes, Array.size_modify]
    exact hd.type token j hj
  method token place hplace := by
    rw [hmethodPlaces] at hplace
    rw [htypes]
    exact hf.exists_method (hd.method token place hplace)

/-- What has a place for parameters is there. -/
theorem Orderly.kept?_of_ownerPlace (hd : d.Orderly) {owner : Token} {place : GenericPlace}
    (hplace : d.ownerPlace owner = .ok place) : (d.kept? place).isSome = true := by
  cases place with
  | type i =>
    obtain ⟨-, hplace⟩ := ownerAt_of_ownerPlace hplace
    have hi := hd.type owner i hplace
    simp [kept?, GenericPlace.home, GenericPlace.kept?, hi]
  | method place =>
    obtain ⟨-, hplace⟩ := ownerAt_of_ownerPlace hplace
    obtain ⟨t, ht, hlt⟩ := hd.method owner place hplace
    simp [kept?, GenericPlace.home, GenericPlace.kept?, ht, hlt]

theorem Orderly.numbered_generics (hd : d.Orderly) (place : GenericPlace) :
    Numbered (d.generics place) := by
  cases place with
  | type i =>
    refine numbered_getD fun params hparams => ?_
    obtain ⟨t, ht, hparams⟩ := Option.bind_eq_some_iff.mp hparams
    exact (hd.numbered i t ht).type params hparams
  | method place =>
    refine numbered_getD fun params hparams => ?_
    obtain ⟨m, hm, hparams⟩ := Option.bind_eq_some_iff.mp hparams
    obtain ⟨t, ht, hm⟩ := Option.bind_eq_some_iff.mp hm
    exact (hd.numbered place.type t ht).methods m (Array.mem_of_getElem? hm) params hparams

theorem generics_withGenerics_of_kept? {place : GenericPlace}
    (h : (d.kept? place).isSome = true) (f : Array GenericPlan → Array GenericPlan) :
    (d.withGenerics place f).generics place = f (d.generics place) := by
  obtain ⟨t, ht, hkept⟩ := exists_of_kept? h
  cases place with
  | type i =>
    have ht : d.types[i]? = some t := ht
    simp [withGenerics, generics, TypePlan.mapGenerics, Array.getElem?_modify, ht]
  | method place =>
    have ht : d.types[place.type]? = some t := ht
    have hlt : place.member < t.plan.methods.size := by simpa [GenericPlace.kept?] using hkept
    have hm := Array.getElem?_eq_getElem hlt
    simp [withGenerics, generics, MethodPlan.mapGenerics, Array.getElem?_modify, ht, hm]

end Draft

/-! ## Operations that keep a draft orderly -/

namespace Drafting

variable {α β : Type} {step : Drafting α}

/-- A draft that is orderly before the operation is orderly behind it. -/
def Keeps (step : Drafting α) : Prop := ∀ d, d.Orderly → (outcome step d).2.Orderly

namespace Keeps

theorem pure (a : α) : Keeps (pure a : Drafting α) := fun _ hd => hd

theorem throw (e : Failure) : Keeps (throw e : Drafting α) := fun _ hd => hd

theorem modify {f : Draft → Draft} (h : ∀ d, d.Orderly → (f d).Orderly) :
    Keeps (modify f : Drafting Unit) := h

theorem bind {next : α → Drafting β} (h : Keeps step) (hnext : ∀ a, Keeps (next a)) :
    Keeps (step >>= next) := by
  intro d hd
  have hstep := h d hd
  rw [outcome_bind]
  rcases houtcome : outcome step d with ⟨e | a, d₁⟩
  · rw [houtcome] at hstep
    exact hstep
  · rw [houtcome] at hstep
    exact hnext a d₁ hstep

theorem get_bind {next : Draft → Drafting β} (h : ∀ c, Keeps (next c)) : Keeps (get >>= next) := by
  intro d hd
  rw [outcome_get_bind]
  exact h d d hd

theorem map (h : Keeps step) (f : α → β) : Keeps (f <$> step) := by
  rw [map_eq_pure_bind]
  exact h.bind fun a => .pure (f a)

end Keeps

theorem Reads.keeps (h : Reads step) : Keeps step := by
  intro d hd
  rw [h.unchanged]
  exact hd

end Drafting

namespace Draft

theorem keeps_modifyType (i : Nat) {f : TypeDraft → TypeDraft} (hf : Careful f) :
    Keeps (modifyType i f) :=
  .modify fun _ hd => hd.of_modify hf rfl rfl rfl

/-- A change of a plan that has nothing to do with parameters and methods. -/
theorem keeps_modifyPlan (i : Nat) {f : TypePlan → TypePlan}
    (hgenerics : ∀ p, (f p).generics = p.generics) (hmethods : ∀ p, (f p).methods = p.methods) :
    Keeps (modifyPlan i f) := by
  refine keeps_modifyType i ⟨fun t ht => ⟨?_, ?_⟩, fun t => ?_⟩
  · rw [hgenerics]
    exact ht.type
  · rw [hmethods]
    exact ht.methods
  · rw [hmethods]

theorem keeps_modifyMethod (place : Place) {f : MethodPlan → MethodPlan}
    (hf : ∀ m, m.Numbered → (f m).Numbered) : Keeps (modifyMethod place f) := by
  refine keeps_modifyType place.type ⟨fun t ht => ⟨ht.type, fun m hm => ?_⟩, fun t => ?_⟩
  · obtain ⟨j, hj⟩ := Array.mem_iff_getElem?.mp hm
    rw [Array.getElem?_modify] at hj
    split at hj
    · obtain ⟨m', hm', rfl⟩ := Option.map_eq_some_iff.mp hj
      exact hf m' (ht.methods m' (Array.mem_of_getElem? hm'))
    · exact ht.methods m (Array.mem_of_getElem? hj)
  · exact (Array.size_modify).ge

theorem keeps_modifyGenerics (place : GenericPlace) {f : Array GenericPlan → Array GenericPlan}
    (hf : ∀ params, Numbered params → Numbered (f params)) : Keeps (modifyGenerics place f) := by
  cases place with
  | type i =>
    refine keeps_modifyType i ⟨fun t ht => ⟨fun params hparams => ?_, ht.methods⟩, fun t => le_rfl⟩
    obtain rfl := Option.some.inj hparams
    exact hf _ (numbered_getD ht.type)
  | method place =>
    refine keeps_modifyMethod place fun m hm params hparams => ?_
    obtain rfl := Option.some.inj hparams
    exact hf _ (numbered_getD hm)

/-! ### Requests -/

/-- A new type has no list yet, and comes behind the others. -/
theorem keeps_addType (space name : String) (flags : TypeFlags) (flavor : Flavor) :
    Keeps (addType space name flags flavor) := by
  intro d hd
  refine ⟨fun i t ht => ?_, fun token i hi => ?_, fun token place hplace => ?_⟩
  · have ht : (d.types.push _)[i]? = some t := ht
    rw [Array.getElem?_push] at ht
    split at ht
    · obtain rfl := Option.some.inj ht
      exact ⟨nofun, nofun⟩
    · exact hd.numbered i t ht
  · have hi : (d.typePlaces.insert _ d.types.size)[token]? = some i := hi
    show i < (d.types.push _).size
    rw [Std.TreeMap.getElem?_insert] at hi
    rw [Array.size_push]
    split at hi
    · obtain rfl := Option.some.inj hi
      exact Nat.lt_succ_self _
    · exact Nat.lt_succ_of_lt (hd.type token i hi)
  · obtain ⟨t, ht, hlt⟩ := hd.method token place hplace
    refine ⟨t, ?_, hlt⟩
    show (d.types.push _)[place.type]? = some t
    rw [Array.getElem?_push, if_neg, ht]
    have hbound := (Array.getElem?_eq_some_iff.mp ht).1
    omega

/-- A new method has no list yet, and comes behind the others of its type. -/
theorem keeps_addMethod (type : Token) (name : String) (flags : MethodFlags)
    (implFlags : MethodImplFlags) (returnType : TypeRef) :
    Keeps (addMethod type name flags implFlags returnType) := by
  intro d hd
  unfold addMethod
  rw [outcome_typePlace_bind]
  cases hplace : d.typePlaces[type]? with
  | none => exact hd
  | some i =>
    obtain ⟨t, ht⟩ : ∃ t, d.types[i]? = some t :=
      ⟨_, Array.getElem?_eq_getElem (hd.type type i hplace)⟩
    let m : MethodPlan :=
      { token := .ofParts Table.methodDef d.nextMethod, name, flags, implFlags, returnType }
    let add (t : TypeDraft) : TypeDraft := { t with plan.methods := t.plan.methods.push m }
    have hadd : Careful add := by
      refine ⟨fun t ht => ⟨ht.type, fun m' hm' => ?_⟩, fun t => ?_⟩
      · rcases Array.mem_push.mp hm' with hm' | rfl
        · exact ht.methods m' hm'
        · exact nofun
      · exact (Array.size_push m).symm ▸ Nat.le_succ _
    refine ⟨hd.numbered_modify hadd, fun token j hj => ?_, fun token place hplace => ?_⟩
    · exact Array.size_modify.symm ▸ hd.type token j hj
    · have hplace : (d.methodPlaces.insert m.token
          ⟨i, (d.types[i]?.map (·.plan.methods.size)).getD 0⟩)[token]? = some place := hplace
      rw [Std.TreeMap.getElem?_insert] at hplace
      split at hplace
      · obtain rfl := Option.some.inj hplace
        refine ⟨add t, ?_, ?_⟩
        · show (d.types.modify i add)[i]? = some (add t)
          rw [Array.getElem?_modify, if_pos rfl, ht, Option.map_some]
        · show (d.types[i]?.map (·.plan.methods.size)).getD 0 < (t.plan.methods.push m).size
          rw [ht, Array.size_push]
          exact Nat.lt_succ_self _
      · exact hadd.exists_method (hd.method token place hplace)

theorem keeps_declareGeneric (owner : Token) (index : UInt32) (name : String)
    (flags : GenericFlags) : Keeps (declareGeneric owner index name flags) := by
  unfold declareGeneric
  refine (reads_genericPlace owner).keeps.bind fun place =>
    (keeps_modifyGenerics place fun params hparams => ?_).bind fun _ =>
      .modify fun d hd => ⟨hd.numbered, hd.type, hd.method⟩
  exact hparams.push rfl

theorem keeps_addConstraint (owner : Token) (index : UInt32) (constraint : TypeRef) :
    Keeps (addConstraint owner index constraint) := by
  unfold addConstraint
  refine (reads_genericPlace owner).keeps.bind fun place =>
    (keeps_modifyGenerics place fun _ hparams => hparams).bind fun _ => .get_bind fun c => ?_
  cases (c.generics place).findIdx? (·.index == index) with
  | some i =>
    exact keeps_modifyGenerics place fun params hparams => hparams.modify i fun _ => rfl
  | none => exact .throw _

/-- A request that changes the plan of a type. -/
theorem keeps_typePlace_bind (token : Token) {f : TypePlan → TypePlan}
    (hgenerics : ∀ p, (f p).generics = p.generics) (hmethods : ∀ p, (f p).methods = p.methods) :
    Keeps (typePlace token >>= fun i => modifyPlan i f) :=
  (reads_typePlace token).keeps.bind fun i => keeps_modifyPlan i hgenerics hmethods

theorem keeps_setDeclaring (inner outer : Token) : Keeps (setDeclaring inner outer) := by
  rw [setDeclaring_eq]
  exact (reads_typePlace outer).keeps.bind fun _ =>
    keeps_typePlace_bind inner (by exact fun _ => rfl) fun _ => rfl

theorem keeps_setBase (type : Token) (base : TypeRef) : Keeps (setBase type base) :=
  keeps_typePlace_bind type (by exact fun _ => rfl) fun _ => rfl

theorem keeps_addInterface (type : Token) (interface : TypeRef) :
    Keeps (addInterface type interface) :=
  keeps_typePlace_bind type (by exact fun _ => rfl) fun _ => rfl

/-- A request that changes the plan of a field. -/
theorem keeps_fieldPlace_bind (token : Token) (f : FieldPlan → FieldPlan) :
    Keeps (fieldPlace token >>= fun place => modifyField place f) :=
  (reads_fieldPlace token).keeps.bind fun place =>
    keeps_modifyPlan place.type (by exact fun _ => rfl) fun _ => rfl

theorem keeps_addParam (method : Token) (param : ParamPlan) : Keeps (addParam method param) :=
  (reads_methodPlace method).keeps.bind fun place => keeps_modifyMethod place fun _ hm => hm

theorem keeps_addField (type : Token) (name : String) (flags : FieldFlags) (fieldType : TypeRef) :
    Keeps (addField type name flags fieldType) :=
  (reads_typePlace type).keeps.bind fun i => .get_bind fun _ =>
    .bind (.modify fun _ hd => ⟨hd.numbered, hd.type, hd.method⟩) fun _ =>
      .bind (keeps_modifyPlan i (by exact fun _ => rfl) fun _ => rfl) fun _ => .pure _

theorem keeps_addProperty (type : Token) (name : String) (flags : PropertyFlags)
    (propertyType : TypeRef) (getter setter : Option Token) :
    Keeps (addProperty type name flags propertyType getter setter) :=
  (reads_typePlace type).keeps.bind fun i => (reads_checkAccessor getter).keeps.bind fun _ =>
    (reads_checkAccessor setter).keeps.bind fun _ => .get_bind fun _ =>
      .bind (.modify fun _ hd => ⟨hd.numbered, hd.type, hd.method⟩) fun _ =>
        .bind (keeps_modifyType i ⟨fun _ ht => ht, fun _ => le_rfl⟩) fun _ => .pure _

theorem keeps_addEvent (type : Token) (name : String) (flags : EventFlags) (eventType : TypeRef)
    (add remove raise : Option Token) :
    Keeps (addEvent type name flags eventType add remove raise) :=
  (reads_typePlace type).keeps.bind fun i => (reads_checkAccessor add).keeps.bind fun _ =>
    (reads_checkAccessor remove).keeps.bind fun _ =>
      (reads_checkAccessor raise).keeps.bind fun _ => .get_bind fun _ =>
        .bind (.modify fun _ hd => ⟨hd.numbered, hd.type, hd.method⟩) fun _ =>
          .bind (keeps_modifyType i ⟨fun _ ht => ht, fun _ => le_rfl⟩) fun _ => .pure _

theorem keeps_addGeneric (owner : Token) (name : String) (flags : GenericFlags) :
    Keeps (addGeneric owner name flags) :=
  .get_bind fun c => (keeps_declareGeneric owner c.nextGeneric name flags).bind fun _ => .pure _

/-- No request disturbs the numbers. -/
theorem keeps_perform (r : Request) : Keeps (perform r) := by
  cases r with
  | addType space name flags flavor => exact (keeps_addType space name flags flavor).map _
  | setDeclaring inner outer => exact (keeps_setDeclaring inner outer).map _
  | setBase type base => exact (keeps_setBase type base).map _
  | addInterface type interface => exact (keeps_addInterface type interface).map _
  | declareGeneric owner index name flags =>
    exact (keeps_declareGeneric owner index name flags).map _
  | addGeneric owner name flags => exact (keeps_addGeneric owner name flags).map _
  | addConstraint owner index constraint => exact (keeps_addConstraint owner index constraint).map _
  | addField type name flags fieldType => exact (keeps_addField type name flags fieldType).map _
  | setFieldDefault field value => exact (keeps_fieldPlace_bind field _).map _
  | setFieldData field data => exact (keeps_fieldPlace_bind field _).map _
  | addMethod type name flags implFlags returnType =>
    exact (keeps_addMethod type name flags implFlags returnType).map _
  | addParam method param => exact (keeps_addParam method param).map _
  | addProperty type name flags propertyType getter setter =>
    exact (keeps_addProperty type name flags propertyType getter setter).map _
  | addEvent type name flags eventType add remove raise =>
    exact (keeps_addEvent type name flags eventType add remove raise).map _

variable {d : Draft}

/-- Nor does any sequence of requests. -/
theorem Orderly.after (hd : d.Orderly) (requests : List Request) : (d.after requests).Orderly := by
  induction requests generalizing d with
  | nil => exact hd
  | cons r requests ih => exact ih (keeps_perform r d hd)

end Draft

end ClrImage
