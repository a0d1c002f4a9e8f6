import ClrImage.Proofs.LockStep

/-!
# What coupled states read alike

Whatever the steps for a type read of two coupled states is the same, or differs only in paired
handles: names and texts, the signatures of references, and stub bodies. A reference that has no
signature in the one state has none in the other, and for the same reason; its failure may quote a
signature, so texts come first.

- `TypeExpr.text_congr`: types that are built alike from atoms with equal texts have equal texts.
- `Coupled.fullName_eq`, `Coupled.sigText_eq`: names and texts.
- `Coupled.resolve`: references that name only visible keys resolve alike, **or fail alike**.
- `Coupled.stub`: paired return types have the same stubs.
-/

namespace ClrImage

/-! ## Texts -/

namespace TypeExpr

variable {α β : Type} {R : α → β → Prop} {f : α → String} {g : β → String}

mutual

/-- Types that are built alike from atoms with equal texts have equal texts. -/
theorem text_congr (h : ∀ a b, R a b → f a = g b) (rankText : UInt32 → String) :
    (x : TypeExpr α) → (y : TypeExpr β) → x.Rel R y → x.text f rankText = y.text g rankText
  | .atom a, y, hxy => by
    cases y <;> simp only [Rel] at hxy
    exact h _ _ hxy
  | .szArray a, y, hxy => by
    cases y <;> simp only [Rel] at hxy
    simp only [text, text_congr h rankText a _ hxy]
  | .array a rank, y, hxy => by
    cases y <;> simp only [Rel] at hxy
    simp only [text, text_congr h rankText a _ hxy.1, hxy.2]
  | .pointer a, y, hxy => by
    cases y <;> simp only [Rel] at hxy
    simp only [text, text_congr h rankText a _ hxy]
  | .byRef a, y, hxy => by
    cases y <;> simp only [Rel] at hxy
    simp only [text, text_congr h rankText a _ hxy]
  | .inst d as, y, hxy => by
    cases y <;> simp only [Rel] at hxy
    simp only [text, text_congr h rankText d _ hxy.1, texts_congr h rankText as _ hxy.2]

theorem texts_congr (h : ∀ a b, R a b → f a = g b) (rankText : UInt32 → String) :
    (xs : List (TypeExpr α)) → (ys : List (TypeExpr β)) → RelAll R xs ys →
    texts f rankText xs = texts g rankText ys
  | [], ys, hxy => by cases ys <;> simp only [RelAll] at hxy; rfl
  | x :: xs, ys, hxy => by
    cases ys <;> simp only [RelAll] at hxy
    simp only [texts, text_congr h rankText x _ hxy.1, texts_congr h rankText xs _ hxy.2]

end

end TypeExpr

namespace TypeDef.SameFrame

variable {t u : TypeDef}

theorem alike (h : t.SameFrame u) : t.Alike u := by
  constructor <;> rw [h]

theorem declaring (h : t.SameFrame u) : u.declaring = t.declaring := by
  rw [h]

end TypeDef.SameFrame

/-- Types of one frame have one name, if those around them do. -/
theorem BuildState.SameFrames.fullNameWithin {s s' : BuildState} (h : s.SameFrames s')
    (fuel : Nat) {t u : TypeDef} (hframe : t.SameFrame u) :
    s'.store.fullNameWithin fuel u = s.store.fullNameWithin fuel t :=
  Store.fullNameWithin_eq (fun _ _ hframe => ⟨hframe.alike, hframe.declaring⟩) h fuel hframe

namespace Twin

variable {w : Twin} {ρ : Pairing} {b b' : BuildState}

namespace Coupled

variable (hc : w.Coupled ρ b b')
include hc

theorem fullName_eq {t u : TypeDef} (hframe : t.SameFrame u) :
    b'.store.fullName u = b.store.fullName t := by
  unfold Store.fullName
  rw [hc.size]
  exact hc.frames.fullNameWithin _ hframe

theorem typeText_eq (h : TypeHandle) : b'.store.typeText h = b.store.typeText h := by
  unfold Store.typeText
  obtain ⟨hs, hs'⟩ | ⟨t, u, hs, hs', hframe⟩ := rel_cases (hc.frames h) <;> rw [hs, hs']
  · rfl
  · rw [Option.map_some, Option.map_some, hc.fullName_eq hframe]

/-- Paired parameters are the same. -/
theorem generics {g h : GenericHandle} (hpair : ρ.pairs g h) :
    ∃ x y, b.store.generics.get? g = some x ∧ b'.store.generics.get? h = some y ∧ x.Same ρ y :=
  hc.objects .generic nofun g h hpair

theorem atomText_eq (a a' : SigAtom) (hatom : ρ.atom a a') :
    b.store.atomText a = b'.store.atomText a' := by
  have htype {g h : TypeHandle} (hpair : ρ.pairs g h) :
      b.store.typeText g = b'.store.typeText h := by
    obtain ⟨rfl, -⟩ := hc.types hpair
    exact (hc.typeText_eq g).symm
  have hparam {g h : GenericHandle} (hpair : ρ.pairs g h) :
      (b.store.generics.get? g).map (·.name) = (b'.store.generics.get? h).map (·.name) := by
    obtain ⟨x, y, hx, hy, hsame⟩ := hc.generics hpair
    rw [hx, hy, Option.map_some, Option.map_some, hsame.rest]
  cases a <;> cases a' <;> simp only [Pairing.atom] at hatom
  · exact congrArg Primitive.fullName hatom
  · exact htype hatom
  · exact htype hatom
  · exact congrArg (Option.getD · Store.droppedText) (hparam hatom)
  · exact congrArg (Option.getD · Store.droppedText) (hparam hatom)

theorem sigText_eq {sig sig' : Signature} (hsig : ρ.signature sig sig') :
    b.store.sigText sig = b'.store.sigText sig' :=
  TypeExpr.text_congr hc.atomText_eq Store.rankText sig sig' hsig

end Coupled

/-! ## References -/

theorem isDeclared_eq {sig sig' : Signature} (hsig : ρ.signature sig sig') :
    Signature.isDeclared sig = Signature.isDeclared sig' := by
  unfold Pairing.signature at hsig
  cases sig <;> cases sig' <;> simp only [TypeExpr.Rel] at hsig
  next a a' => cases a <;> cases a' <;> first | rfl | cases hsig
  all_goals rfl

/-- The reference names only keys that no other type's methods declare. -/
def Sees (w : Twin) (a : RefAtom) : Prop :=
  ∀ i, a.index? = some i → w.setup.VisibleTo w.plan (w.setup.keyAt w.plan i)

/-- What references of the type are resolved against in a state. -/
abbrev scopeOf (w : Twin) (b : BuildState) : Scope := b.scope (w.setup.blueprint.topLevel w.plan)

namespace Coupled

variable (hc : w.Coupled ρ b b')
include hc

theorem resolveTypeDef (token : Token) :
    Agree ρ.signature ((w.scopeOf b).resolveTypeDef token)
      ((w.scopeOf b').resolveTypeDef token) := by
  unfold Scope.resolveTypeDef
  simp only [scopeOf, BuildState.scope]
  rw [hc.linkedTypes]
  split
  · exact .error _
  · split
    · exact .error _
    next h _ =>
      obtain ⟨hs, hs'⟩ | ⟨t, u, hs, hs', hframe⟩ := rel_cases (hc.frames h) <;> rw [hs, hs']
      · exact .error _
      · have hlive : w.left.Live h :=
          (hc.left.frames.symm.of_some hs).imp fun _ => And.left
        have hpair : ρ.pairs h h := Pairing.pairs_mono hc.base ((w.types h h).mpr ⟨rfl, hlive⟩)
        dsimp only
        rw [hframe.alike.flavor]
        split <;> exact .ok hpair

theorem resolveIndex (reference : TypeRef) {index : UInt32}
    (hvisible : w.setup.VisibleTo w.plan (w.setup.keyAt w.plan index)) :
    Agree ρ.pairs ((w.scopeOf b).resolveIndex reference index)
      ((w.scopeOf b').resolveIndex reference index) := by
  unfold Scope.resolveIndex
  simp only [scopeOf, BuildState.scope]
  rw [hc.key_eq, hc.key_eq']
  obtain ⟨hb, hb'⟩ | ⟨g, h, hb, hb', hpair⟩ := rel_cases (hc.visible hvisible) <;> rw [hb, hb']
  · exact .error _
  · exact .ok hpair

theorem resolveAtom {a : RefAtom} (hsees : w.Sees a) :
    Agree ρ.signature ((w.scopeOf b).resolveAtom a) ((w.scopeOf b').resolveAtom a) := by
  cases a with
  | primitive p => exact .ok rfl
  | typeDef token => exact hc.resolveTypeDef token
  | var index => exact (hc.resolveIndex _ (hsees index rfl)).map fun _ _ hpair => hpair
  | mvar index => exact (hc.resolveIndex _ (hsees index rfl)).map fun _ _ hpair => hpair

end Coupled

mutual

theorem Coupled.resolveAt (hc : w.Coupled ρ b b') : (r : TypeRef) → (depth : Nat) →
    (∀ a ∈ r.atoms, w.Sees a) →
    Agree ρ.signature ((w.scopeOf b).resolveAt r depth) ((w.scopeOf b').resolveAt r depth)
  | .atom a, depth, hsees => by
    unfold Scope.resolveAt
    refine .bind (.refl (Scope.checkDepth depth)) fun _ _ _ => ?_
    exact hc.resolveAtom (hsees a (by simp [TypeExpr.atoms]))
  | .szArray elem, depth, hsees => by
    unfold Scope.resolveAt
    refine .bind (.refl (Scope.checkDepth depth)) fun _ _ _ => ?_
    exact .bind (Coupled.resolveAt hc elem (depth + 1) hsees) fun _ _ helem => .ok helem
  | .array elem rank, depth, hsees => by
    unfold Scope.resolveAt
    refine .bind (.refl (Scope.checkDepth depth)) fun _ _ _ => ?_
    split
    · exact .error _
    · exact .bind (Coupled.resolveAt hc elem (depth + 1) hsees) fun _ _ helem => .ok ⟨helem, rfl⟩
  | .pointer elem, depth, hsees => by
    unfold Scope.resolveAt
    refine .bind (.refl (Scope.checkDepth depth)) fun _ _ _ => ?_
    exact .bind (Coupled.resolveAt hc elem (depth + 1) hsees) fun _ _ helem => .ok helem
  | .byRef elem, depth, hsees => by
    unfold Scope.resolveAt
    refine .bind (.refl (Scope.checkDepth depth)) fun _ _ _ => ?_
    exact .bind (Coupled.resolveAt hc elem (depth + 1) hsees) fun _ _ helem => .ok helem
  | .inst definition args, depth, hsees => by
    have hdefinition : ∀ a ∈ definition.atoms, w.Sees a := fun a ha =>
      hsees a (List.mem_append_left _ ha)
    have hargs : ∀ a ∈ TypeExpr.atomsAll args, w.Sees a := fun a ha =>
      hsees a (List.mem_append_right _ ha)
    unfold Scope.resolveAt
    refine .bind (.refl (Scope.checkDepth depth)) fun _ _ _ => ?_
    split
    · exact .error _
    · refine .bind (Coupled.resolveAt hc definition (depth + 1) hdefinition) fun sig sig' hsig => ?_
      -- the failure quotes the definition, whose text is the same in both states
      have htext : (w.scopeOf b).store.sigText sig = (w.scopeOf b').store.sigText sig' :=
        hc.sigText_eq hsig
      rw [isDeclared_eq hsig, htext]
      split
      · exact .bind (Coupled.resolveAll hc args (depth + 1) hargs)
          fun _ _ hsigs => .ok ⟨hsig, hsigs⟩
      · exact .error _

theorem Coupled.resolveAll (hc : w.Coupled ρ b b') : (rs : List TypeRef) → (depth : Nat) →
    (∀ a ∈ TypeExpr.atomsAll rs, w.Sees a) →
    Agree (TypeExpr.RelAll ρ.atom) ((w.scopeOf b).resolveAll rs depth)
      ((w.scopeOf b').resolveAll rs depth)
  | [], _, _ => .ok trivial
  | r :: rest, depth, hsees => by
    have hfirst : ∀ a ∈ r.atoms, w.Sees a := fun a ha => hsees a (List.mem_append_left _ ha)
    have hrest : ∀ a ∈ TypeExpr.atomsAll rest, w.Sees a := fun a ha =>
      hsees a (List.mem_append_right _ ha)
    unfold Scope.resolveAll
    refine .bind (Coupled.resolveAt hc r depth hfirst) fun sig sig' hsig => ?_
    exact .bind (Coupled.resolveAll hc rest depth hrest) fun _ _ hsigs => .ok ⟨hsig, hsigs⟩

end

namespace Coupled

variable (hc : w.Coupled ρ b b')
include hc

/-- A reference that names only visible keys resolves alike in both states, or fails alike. -/
theorem resolve {r : TypeRef} (hvisible : ∀ i ∈ TypeRef.indices r,
    w.setup.VisibleTo w.plan (w.setup.keyAt w.plan i)) :
    Agree ρ.signature ((w.scopeOf b).resolve r) ((w.scopeOf b').resolve r) := by
  refine hc.resolveAt r 0 fun a ha i hi => hvisible i ?_
  exact List.mem_filterMap.mpr ⟨a, ha, hi⟩

/-! ## Stubs -/

theorem isValueType_eq : (sig sig' : Signature) → ρ.signature sig sig' →
    b.store.isValueType sig = b'.store.isValueType sig'
  | .atom a, sig', hsig => by
    have hparam {g h : GenericHandle} (hpair : ρ.pairs g h) :
        (b.store.generics.get? g).map (·.flags.contains GenericFlags.valueType) =
          (b'.store.generics.get? h).map (·.flags.contains GenericFlags.valueType) := by
      obtain ⟨x, y, hx, hy, hsame⟩ := hc.generics hpair
      rw [hx, hy, Option.map_some, Option.map_some, hsame.rest]
    unfold Pairing.signature at hsig
    cases sig' <;> simp only [TypeExpr.Rel] at hsig
    next a' =>
      cases a <;> cases a' <;> simp only [Pairing.atom] at hsig
      · exact congrArg Primitive.isValueType hsig
      · rfl
      · rfl
      · exact congrArg (Option.getD · false) (hparam hsig)
      · exact congrArg (Option.getD · false) (hparam hsig)
  | .inst d as, sig', hsig => by
    unfold Pairing.signature at hsig
    cases sig' <;> simp only [TypeExpr.Rel] at hsig
    next d' as' => exact isValueType_eq d d' hsig.1
  | .szArray _, sig', hsig | .array _ _, sig', hsig | .pointer _, sig', hsig
  | .byRef _, sig', hsig => by
    unfold Pairing.signature at hsig
    cases sig' <;> simp only [TypeExpr.Rel] at hsig
    rfl

/-- Paired signatures stand for the same parameter, or for none. -/
theorem paramOf {sig sig' : Signature} (hsig : ρ.signature sig sig') :
    Option.Rel (GenericParam.Same ρ) (b.store.paramOf? sig) (b'.store.paramOf? sig') := by
  have hparam {g h : GenericHandle} (hpair : ρ.pairs g h) :
      Option.Rel (GenericParam.Same ρ) (b.store.generics.get? g) (b'.store.generics.get? h) := by
    obtain ⟨x, y, hx, hy, hsame⟩ := hc.generics hpair
    rw [hx, hy]
    exact .some hsame
  unfold Pairing.signature at hsig
  cases sig <;> cases sig' <;> simp only [TypeExpr.Rel] at hsig
  next a a' =>
    cases a <;> cases a' <;> simp only [Pairing.atom] at hsig
    · exact .none
    · exact .none
    · exact .none
    · exact hparam hsig
    · exact hparam hsig
  all_goals exact .none

theorem stubKind_eq {sig sig' : Signature} (hsig : ρ.signature sig sig') :
    StubKind.of b.store sig = StubKind.of b'.store sig' := by
  have hvoid : sig.isVoid = sig'.isVoid := by
    have hrel := hsig
    unfold Pairing.signature at hrel
    cases sig <;> cases sig' <;> simp only [TypeExpr.Rel] at hrel
    next a a' =>
      cases a <;> cases a' <;> simp only [Pairing.atom] at hrel
      · exact congrArg Primitive.isVoid hrel
      all_goals rfl
    all_goals rfl
  unfold StubKind.of
  rw [hvoid, hc.isValueType_eq sig sig' hsig]
  obtain ⟨hb, hb'⟩ | ⟨x, y, hb, hb', hsame⟩ := rel_cases (hc.paramOf hsig) <;> rw [hb, hb']
  dsimp only
  rw [hsame.rest]

/-- Paired return types have the same stubs. -/
theorem stub {sig sig' : Signature} (hsig : ρ.signature sig sig') :
    Body.Same ρ (stub b.store sig) (stub b'.store sig') := by
  unfold ClrImage.stub
  rw [← hc.stubKind_eq hsig]
  cases StubKind.of b.store sig with
  | void => exact ⟨rfl, .nil, .cons ⟨rfl, .none⟩ .nil⟩
  | value =>
    refine ⟨rfl, .cons hsig .nil, ?_⟩
    exact .cons ⟨rfl, .slot 0⟩ (.cons ⟨rfl, .type hsig⟩
      (.cons ⟨rfl, .none⟩ (.cons ⟨rfl, .none⟩ .nil)))
  | reference => exact ⟨rfl, .nil, .cons ⟨rfl, .none⟩ (.cons ⟨rfl, .none⟩ .nil)⟩

end Coupled

end Twin

end ClrImage
