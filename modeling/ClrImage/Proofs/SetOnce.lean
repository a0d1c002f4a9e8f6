import ClrImage.Proofs.Independence
import ClrImage.Proofs.Locks
import ClrImage.Proofs.Strictness
import Mathlib.Data.List.Perm.Subperm
import Mathlib.Data.Option.Basic

/-!
# Parts that are set once

A field or parameter is made with all its data. It could also be made bare, and its data be set part
by part, each by a setter that refuses a part that is there; the generic parameters of a method
could be counted in 32 bits, and its body be put in behind a lock. This module shows that nothing is
ever refused: members that are made with all these checks are **the same members**, made in the same
steps.

- `Setup.setAnnounced`: sets a datum that a flag announces.
- `Setup.makeFieldBySetting`, `Setup.makeParamBySetting`: members that are made bare.
- `makeField_eq_bySetting`, `makeParam_eq_bySetting`: no setter refuses.
- `size_of_makeMethodGenerics`: a method lists no more objects than there are indices.
- `Setup.makeMethodBySetting`, `makeMethod_eq_bySetting`: so counting them never fails either, and
  no lock is lost.
-/

namespace ClrImage

namespace Setup

variable {α β : Type}

/-- Sets a datum that a flag announces. A datum that is announced and not given is missing. -/
def setAnnounced (setup : Setup) (announced : Bool) (given : Option α) (datum : MissingDatum)
    (set : β → α → Except Failure β) (x : β) : Build β := do
  if announced then
    match given with
    | some value => liftExcept (set x value)
    | none =>
      setup.missing datum
      pure x
  else
    pure x

/-- Makes a field without data, and sets its data one after the other. -/
def makeFieldBySetting (setup : Setup) (site : MemberSite) (f : FieldPlan) :
    Build FieldHandle := do
  let type ← setup.resolve site.topLevel f.type
  let bare : FieldDef :=
    { token := f.token, name := f.name, flags := f.flags, isStatic := f.isStatic, type }
  let withConstant ← setup.setAnnounced (f.flags.contains FieldFlags.hasDefault) f.default
    (.fieldDefault site.typeName f.name) FieldDef.setConstant bare
  let withData ← setup.setAnnounced (f.flags.contains FieldFlags.hasInitialData) f.initialData
    (.fieldData site.typeName f.name) FieldDef.setInitialData withConstant
  Build.allocField withData

/-- Makes a parameter without a default, and sets the default. -/
def makeParamBySetting (setup : Setup) (site : MemberSite) (method : String) (position : Nat)
    (p : ParamPlan) : Build ParamHandle := do
  if 0xFFFF ≤ position then
    throw (.flawed (.tooManyParameters method))
  let bare : ParamDef :=
    { sequence := UInt16.ofNat (position + 1), name := p.name, flags := p.flags }
  let withDefault ← setup.setAnnounced (p.flags.contains ParamFlags.hasDefault) p.default
    (.parameterDefault p.name site.typeName method) ParamDef.setConstant bare
  if !p.flags.contains ParamFlags.hasDefault && p.default.isSome then
    Build.notice (.defaultIgnored p.name site.typeName method)
  Build.allocParam withDefault

/-- Makes a method whose generic parameters are counted in 32 bits, whose parameters are given their
defaults by setting them, and whose body is put in behind a lock. -/
def makeMethodBySetting (setup : Setup) (site : MemberSite) (m : MethodPlan) :
    Build MethodHandle := do
  let generics ← setup.makeMethodGenerics site m
  let returnType ← setup.resolve site.topLevel m.returnType
  let paramTypes ← m.params.toList.mapM fun p => setup.resolve site.topLevel p.type
  if 0x100000000 ≤ generics.size then
    throw (.flawed (.tooManyGenerics m.name))
  let params ← m.params.toList.zipIdx.mapM fun (p, position) =>
    setup.makeParamBySetting site m.name position p
  let method : MethodDef :=
    { token := m.token, name := m.name, flags := m.flags, implFlags := m.implFlags
      signature :=
        { hasThis := !m.isStatic, genericCount := generics.size, returnType, params := paramTypes }
      generics, params := params.toArray }
  let store := (← get).store
  let bare : Lock (Option Body) := .new none
  let body ←
    if method.expectsBody then liftExcept (bare.change fun _ => some (some (stub store returnType)))
    else pure bare
  Build.allocMethod { method with body := body.value }

end Setup

/-! ## Data of fields and parameters -/

section Data

variable (setup : Setup) (site : MemberSite)

/-- A setter that does not refuse puts in what is announced and given. -/
theorem setAnnounced_eq {α β : Type} {announced : Bool} {given : Option α} {datum : MissingDatum}
    {set : β → α → Except Failure β} {x : β} (put : Option α → β) (hnone : put none = x)
    (hset : ∀ value, set x value = .ok (put (some value))) :
    setup.setAnnounced announced given datum set x = (do
      setup.demand (announced && given.isNone) datum
      pure (put (if announced then given else none))) := by
  unfold Setup.setAnnounced Setup.demand
  cases announced with
  | false => simp [hnone]
  | true =>
    cases given with
    | none => simp [hnone]
    | some value =>
      simp only [if_true, hset]
      rfl

/-- Setting the data of a new field is never refused. -/
theorem makeField_eq_bySetting (f : FieldPlan) :
    setup.makeField site f = setup.makeFieldBySetting site f := by
  rw [makeField_eq]
  unfold Setup.makeFieldBySetting
  refine bind_congr fun type => ?_
  dsimp only
  rw [setAnnounced_eq setup (fun constant : Option Constant => ({
      token := f.token, name := f.name, flags := f.flags, isStatic := f.isStatic, type
      constant } : FieldDef)) rfl fun _ => rfl]
  simp only [bind_assoc, pure_bind]
  refine bind_congr fun _ => ?_
  -- the second setter meets a field that may have a constant, but has no initial data
  rw [setAnnounced_eq setup (fun initialData : Option (List UInt8) => ({
      token := f.token, name := f.name, flags := f.flags, isStatic := f.isStatic, type
      constant := if f.flags.contains FieldFlags.hasDefault then f.default else none
      initialData } : FieldDef)) rfl fun _ => rfl]
  simp only [bind_assoc, pure_bind]

/-- Setting the default of a new parameter is never refused. -/
theorem makeParam_eq_bySetting (method : String) (position : Nat) (p : ParamPlan) :
    setup.makeParam site method position p =
      setup.makeParamBySetting site method position p := by
  rw [makeParam_eq]
  unfold Setup.makeParamBySetting
  dsimp only
  rw [setAnnounced_eq setup (fun constant : Option Constant => ({
      sequence := UInt16.ofNat (position + 1), name := p.name, flags := p.flags
      constant } : ParamDef)) rfl fun _ => rfl]
  simp only [bind_assoc, pure_bind]
  split
  · rfl
  · refine (pure_bind _ _).trans (bind_congr fun _ => ?_)
    split <;> simp only [pure_bind]

end Data

/-! ## Generic parameters of methods -/

/-- A list without repetitions is no longer than the range of numbers that its elements belong
to. -/
theorem length_le_of_numbered {α : Type} {l : List α} (hnodup : l.Nodup) {n : Nat}
    (f : Nat → Option α) (h : ∀ a ∈ l, ∃ i < n, f i = some a) : l.length ≤ n := by
  have hsome : (l.map some).Nodup := hnodup.map (Option.some_injective α)
  have hsubset : l.map some ⊆ (List.range n).map f := by
    rintro _ hmem
    obtain ⟨a, ha, rfl⟩ := List.mem_map.mp hmem
    obtain ⟨i, hi, heq⟩ := h a ha
    exact List.mem_map.mpr ⟨i, List.mem_range.mpr hi, heq⟩
  have hle := (hsome.subperm hsubset).length_le
  rwa [List.length_map, List.length_map, List.length_range] at hle

section Methods

variable {setup : Setup} {site : MemberSite} {m : MethodPlan}

/-- A method lists at most one object for each index, so if the last index is not among those that
it declares, the objects can be counted in as many bits. -/
theorem size_of_makeMethodGenerics (hindices : ∀ g ∈ m.genericPlans, g.index.toNat < 0xFFFFFFFF)
    {generics : Array GenericHandle} {s s' : BuildState}
    (hrun : (setup.makeMethodGenerics site m).Yields s generics s') :
    generics.size < 0x100000000 := by
  unfold Setup.makeMethodGenerics at hrun
  split at hrun
  next =>
    obtain ⟨rfl, -⟩ := Build.yields_pure.mp hrun
    exact Nat.two_pow_pos 32
  next params hplans =>
    have hparams : m.genericPlans = params.toList := by simp [MethodPlan.genericPlans, hplans]
    rw [hparams] at hindices
    obtain ⟨out, s₁, hdeclare, hrun⟩ := Build.yields_bind.mp hrun
    obtain ⟨_, s₂, -, hpure⟩ := Build.yields_bind.mp hrun
    obtain ⟨rfl, -⟩ := Build.yields_pure.mp hpure
    obtain ⟨objects, pending, _, hlisted, hregisters⟩ :=
      declareGenerics_registers (.method m.token) site.topLevel #[] params s
    obtain ⟨rfl, rfl⟩ := hdeclare.unique hlisted
    suffices (objects.foldl listOnce #[]).toList.length ≤ 0xFFFFFFFF by
      rw [Array.length_toList] at this
      exact Nat.lt_of_le_of_lt this (by decide)
    -- an object is found under the key of its index
    refine length_le_of_numbered (nodup_foldl_listOnce objects .nil)
      (fun i => s₁.registry.get? (s.registry.key (UInt32.ofNat i) site.topLevel)) fun o ho => ?_
    rw [foldl_listOnce, List.mem_eraseDups] at ho
    obtain ⟨g, hg, hheld⟩ := exists_of_forall₂ hregisters.objects_eq.flip ho
    exact ⟨g.index.toNat, hindices g hg, by rw [UInt32.ofNat_toNat]; exact hheld⟩

/-- The checks in making a method refuse nothing beyond what making it refuses. -/
theorem makeMethod_eq_bySetting (hindices : ∀ g ∈ m.genericPlans, g.index.toNat < 0xFFFFFFFF) :
    setup.makeMethod site m = setup.makeMethodBySetting site m := by
  suffices ∀ s, (setup.makeMethod site m).outcome s =
      (setup.makeMethodBySetting site m).outcome s from funext this
  intro s
  unfold Setup.makeMethod Setup.makeMethodBySetting
  rw [Build.outcome_bind, Build.outcome_bind]
  rcases hgenerics : (setup.makeMethodGenerics site m).outcome s with ⟨e | generics, s₁⟩
  · rfl
  have hcount : ¬ 0x100000000 ≤ generics.size :=
    Nat.not_le.mpr (size_of_makeMethodGenerics hindices hgenerics)
  refine congrArg (Build.outcome · s₁) ?_
  refine bind_congr fun returnType => bind_congr fun paramTypes => ?_
  simp only [if_neg hcount, makeParam_eq_bySetting]
  refine bind_congr fun params => bind_congr fun s₂ => ?_
  -- the lock around the body is new, so the body is put in
  split <;> rfl

end Methods

end ClrImage
