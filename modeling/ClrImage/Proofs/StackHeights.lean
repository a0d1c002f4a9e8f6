import Mathlib.Data.List.DropRight
import Mathlib.Order.Bounds.Basic
import ClrImage.Proofs.StackMachine

/-!
# Announced stack heights

How much stack a body announces, for any code, whether or not a machine could run it. The height
behind a prefix is what the loads since its last return have put on the stack, less what
initialisations have taken; it may be negative.

- `Body.height`, `Body.height_concat`: the height behind a prefix, and what one more instruction
  does to it.
- `Body.isGreatest_peak`: the peak is the greatest of the heights.
- `Body.peakFrom32?`: the peak as it is computed in 32 bits, where each step may overflow, and
  `Body.peakFrom32?_eq`: no step does before there are as many instructions as 31 bits can count.
- `announced_height_is_peak`: a body announces the peak, as far as 16 bits hold it. So what a small
  header allows for is never exceeded.
-/

namespace ClrImage

/-! ## Heights -/

/-- Whether the operation puts an item on the stack. -/
def Opcode.isLoad (op : Opcode) : Bool := op ∈ [ldnull, ldloc0, ldlocaS]

namespace Body

/-- The code behind the last return. -/
def sinceReturn (code : List Instruction) : List Instruction :=
  code.rtakeWhile (·.opcode ≠ .ret)

/-- The height of the stack behind some code: the loads since the last return, less the
initialisations. -/
def height (code : List Instruction) : Int :=
  (sinceReturn code).countP (·.opcode.isLoad) -
    (sinceReturn code).countP (·.opcode = .initobj)

/-- One more instruction changes the height as its operation says, whatever the height was. -/
theorem height_concat (code : List Instruction) (i : Instruction) :
    height (code ++ [i]) = i.opcode.depthAfter (height code) := by
  unfold height sinceReturn
  rw [List.rtakeWhile_concat]
  cases hop : i.opcode with
  | ret => simp [Opcode.depthAfter]
  | ldnull | ldloc0 | ldlocaS | initobj =>
    simp [hop, Opcode.isLoad, Opcode.depthAfter]
    omega

theorem depthFrom_concat (depth : Int) (code : List Instruction) (i : Instruction) :
    depthFrom depth (code ++ [i]) = i.opcode.depthAfter (depthFrom depth code) := by
  induction code generalizing depth with
  | nil => rfl
  | cons first code ih => exact ih (first.opcode.depthAfter depth)

/-- The running height is the height of the prefix. -/
theorem depthFrom_zero (code : List Instruction) : depthFrom 0 code = height code := by
  induction code using List.reverseRecOn with
  | nil => rfl
  | append_singleton code i ih => rw [depthFrom_concat, height_concat, ih]

/-- The peak is the greatest of the heights. The stack starts empty, so it is never negative. -/
theorem isGreatest_peak (code : List Instruction) :
    IsGreatest {depth | ∃ before, before <+: code ∧ height before = depth} (peak code) := by
  constructor
  · obtain ⟨n, -, hreached⟩ := exists_depthFrom_eq_peak code
    rw [depthFrom_zero] at hreached
    exact ⟨code.take n, List.take_prefix n code, hreached⟩
  · rintro depth ⟨before, hbefore, rfl⟩
    rw [List.prefix_iff_eq_take.mp hbefore, ← depthFrom_zero]
    exact depthFrom_le_peakFrom (Int.le_refl 0) code before.length

theorem height_le_peak {before code : List Instruction} (h : before <+: code) :
    height before ≤ peak code :=
  (isGreatest_peak code).2 ⟨before, h, rfl⟩

end Body

/-! ## Counting in 32 bits -/

/-- A number that 32 bits hold together with its sign. -/
def int32? (n : Int) : Option Int := if -0x80000000 ≤ n ∧ n < 0x80000000 then some n else none

theorem int32?_of_natAbs_lt {n : Int} (h : n.natAbs < 0x80000000) : int32? n = some n :=
  if_pos (by omega)

namespace Opcode

/-- What the operation adds to the height. -/
def delta32? (op : Opcode) (depth : Int) : Option Int :=
  match op with
  | ldnull | ldloc0 | ldlocaS => some 1
  | initobj => some (-1)
  | ret => int32? (-depth)

/-- The height after the operation, unless it overflows. -/
def depthAfter32? (op : Opcode) (depth : Int) : Option Int := do
  let delta ← op.delta32? depth
  int32? (depth + delta)

/-- One operation moves the height by at most one, or back to the ground. -/
theorem natAbs_depthAfter_le (op : Opcode) (depth : Int) :
    (op.depthAfter depth).natAbs ≤ depth.natAbs + 1 := by
  cases op <;> simp only [depthAfter] <;> omega

theorem depthAfter32?_eq (op : Opcode) {depth : Int} (h : depth.natAbs + 1 < 0x80000000) :
    op.depthAfter32? depth = some (op.depthAfter depth) := by
  have hafter : int32? (op.depthAfter depth) = some (op.depthAfter depth) :=
    int32?_of_natAbs_lt (Nat.lt_of_le_of_lt (op.natAbs_depthAfter_le depth) h)
  cases op with
  | ldnull | ldloc0 | ldlocaS | initobj => exact hafter
  | ret =>
    have hdelta : int32? (-depth) = some (-depth) := int32?_of_natAbs_lt (by omega)
    show (int32? (-depth) >>= fun delta => int32? (depth + delta)) = _
    rw [hdelta]
    show int32? (depth + -depth) = _
    rw [Int.add_right_neg]
    exact hafter

end Opcode

namespace Body

/-- The greatest of `peak` and the heights from `depth` on, unless a step overflows. -/
def peakFrom32? (peak depth : Int) : List Instruction → Option Int
  | [] => some peak
  | i :: rest => do
    let depth ← i.opcode.depthAfter32? depth
    peakFrom32? (max peak depth) depth rest

/-- Nothing overflows: each instruction moves the height by at most one, and there are too few of
them. -/
theorem peakFrom32?_eq {peak depth : Int} {code : List Instruction}
    (h : depth.natAbs + code.length < 0x80000000) :
    peakFrom32? peak depth code = some (peakFrom peak depth code) := by
  induction code generalizing peak depth with
  | nil => rfl
  | cons i code ih =>
    rw [List.length_cons] at h
    have hmoved : (i.opcode.depthAfter depth).natAbs ≤ depth.natAbs + 1 :=
      i.opcode.natAbs_depthAfter_le depth
    show (i.opcode.depthAfter32? depth >>= fun depth => peakFrom32? (max peak depth) depth code) = _
    rw [i.opcode.depthAfter32?_eq (by omega)]
    exact ih (by omega)

/-! ## Announced heights -/

theorem toNat_maxStack_le_of_isTiny {b : Body} (h : b.isTiny = true) : b.maxStack.toNat ≤ 8 := by
  unfold isTiny at h
  simp only [Bool.and_eq_true, decide_eq_true_eq] at h
  exact h.1.2

end Body

/-- **A body announces the greatest height of its stack**, as far as 16 bits hold it. The heights
are those behind all prefixes of the code, the empty one among them, and nothing overflows where
they are counted in 32 bits. A body with a small header never holds more than eight items, and a
peak that can be announced bounds all heights and is reached. -/
theorem announced_height_is_peak (locals : List Signature) (initLocals : Bool)
    (code : List Instruction) (hlength : code.length < 0x80000000) :
    ∃ top : Int,
      IsGreatest {depth | ∃ before, before <+: code ∧ Body.height before = depth} top ∧
      Body.peakFrom32? 0 0 code = some top ∧
      ((Body.ofCode locals initLocals code).maxStack.toNat : Int) = min 0xFFFF top ∧
      ((Body.ofCode locals initLocals code).isTiny = true →
        ∀ before, before <+: code → Body.height before ≤ 8) ∧
      (top ≤ 0xFFFF →
        (∀ before, before <+: code →
          Body.height before ≤ (Body.ofCode locals initLocals code).maxStack.toNat) ∧
        ∃ before, before <+: code ∧
          Body.height before = (Body.ofCode locals initLocals code).maxStack.toNat) := by
  have hmax := Body.toNat_maxStack locals initLocals code
  refine ⟨Body.peak code, Body.isGreatest_peak code, Body.peakFrom32?_eq (by simpa using hlength),
    hmax, ?_, ?_⟩
  · intro htiny before hbefore
    have hheight : Body.height before ≤ Body.peak code := Body.height_le_peak hbefore
    have hsmall := Body.toNat_maxStack_le_of_isTiny htiny
    omega
  · intro hfits
    rw [hmax, Int.min_eq_right hfits]
    obtain ⟨before, hbefore, hreached⟩ := (Body.isGreatest_peak code).1
    exact ⟨fun _ => Body.height_le_peak, before, hbefore, hreached⟩

/-- The stack goes below the ground, and a return brings it back. -/
theorem announced_height_is_peak_underflow :
    let code : List Instruction := [⟨.initobj, .none⟩, ⟨.initobj, .none⟩, ⟨.ret, .none⟩,
      ⟨.ldnull, .none⟩, ⟨.ldnull, .none⟩, ⟨.ret, .none⟩, ⟨.ldnull, .none⟩]
    IsGreatest {depth | ∃ before, before <+: code ∧ Body.height before = depth} 2 ∧
      Body.height (code.take 2) = -2 ∧ (Body.ofCode [] false code).maxStack.toNat = (2 : Int) ∧
      ∀ before, before <+: code → Body.height before ≤ 8 := by
  intro code
  obtain ⟨top, htop, hcounted, hmax, htiny, -⟩ :=
    announced_height_is_peak [] false code (by decide)
  obtain rfl : 2 = top := Option.some.inj hcounted
  exact ⟨htop, rfl, hmax, htiny rfl⟩

end ClrImage
