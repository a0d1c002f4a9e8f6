import ClrImage.Stub
import ClrImage.Proofs.TokenRequests

/-!
# Running bodies

The machine that runs a body has a stack and the locals that the body declares. It stops with a
fault where an instruction takes what is not there: an item of an empty stack, a local behind the
last one, a local that nothing has been put into. **A stub runs to its end without a fault**, within
the stack height that it announces, and returns the default of its return type.

- `Machine.step`, `Machine.run`: the machine, which checks everything that it takes.
- `Machine.Step`: what a step that is not refused does.
- `Body.depthFrom`, `Body.depthFrom_le_peakFrom`, `Body.exists_depthFrom_eq_peakFrom`: the heights
  that announce how much stack a body needs, and the peak as the greatest of them.
- `Machine.height_run`: the machine's stack has these heights.
- `Body.RunsSafely`, `Body.runsSafely_ofCode`: what it takes that a body runs within its bounds.
- `stub_runs_safely`: stubs do, and are encoded unless their local lacks a signature.
-/

namespace ClrImage

/-! ## The machine -/

namespace Machine

/-- What the stack holds. -/
inductive Item
  | null
  | address (slot : Nat)
  | value (sig : Signature)
deriving DecidableEq, Repr

/-- Why the machine stops before the end. -/
inductive Fault
  | underflow
  | noSuchLocal (slot : Nat)
  | unsetLocal (slot : Nat)
  | notAnAddress
  | otherType (declared given : Signature)
  | badOperand
  | afterReturn
deriving DecidableEq, Repr

/-- The state of a body that runs: the stack, top first, the locals that have been initialised, and
what has been on the stack when it returned. -/
structure Frame where
  stack : List Item := []
  filled : List Nat := []
  returned : Option (List Item) := none
deriving DecidableEq, Repr

def Frame.push (f : Frame) (item : Item) : Frame := { f with stack := item :: f.stack }

/-- One instruction. A local is initialised through its address, as the type that it is declared
with, and is loaded only behind that. -/
def step (locals : List Signature) (f : Frame) (i : Instruction) : Except Fault Frame :=
  if f.returned.isSome then .error .afterReturn
  else match i with
  | ⟨.ret, .none⟩ => .ok { f with stack := [], returned := some f.stack }
  | ⟨.ldnull, .none⟩ => .ok (f.push .null)
  | ⟨.ldloc0, .none⟩ =>
    match locals[0]? with
    | none => .error (.noSuchLocal 0)
    | some sig => if 0 ∈ f.filled then .ok (f.push (.value sig)) else .error (.unsetLocal 0)
  | ⟨.ldlocaS, .slot index⟩ =>
    if index.toNat < locals.length then .ok (f.push (.address index.toNat))
    else .error (.noSuchLocal index.toNat)
  | ⟨.initobj, .type sig⟩ =>
    match f.stack with
    | [] => .error .underflow
    | .address slot :: stack =>
      match locals[slot]? with
      | none => .error (.noSuchLocal slot)
      | some declared =>
        if declared = sig then .ok { f with stack, filled := slot :: f.filled }
        else .error (.otherType declared sig)
    | _ :: _ => .error .notAnAddress
  | _ => .error .badOperand

/-- Instructions one after the other. -/
def run (locals : List Signature) : Frame → List Instruction → Except Fault Frame
  | f, [] => .ok f
  | f, i :: code => do
    let g ← step locals f i
    run locals g code

variable {locals : List Signature} {f g : Frame} {i : Instruction} {code : List Instruction}

/-! ## Steps -/

/-- A step that is not refused. -/
inductive Step (locals : List Signature) (f : Frame) : Instruction → Frame → Prop
  | ret : Step locals f ⟨.ret, .none⟩ { f with stack := [], returned := some f.stack }
  | ldnull : Step locals f ⟨.ldnull, .none⟩ (f.push .null)
  | ldloc0 {sig : Signature} (hslot : locals[0]? = some sig) (hfilled : 0 ∈ f.filled) :
    Step locals f ⟨.ldloc0, .none⟩ (f.push (.value sig))
  | ldlocaS {index : UInt8} (hslot : index.toNat < locals.length) :
    Step locals f ⟨.ldlocaS, .slot index⟩ (f.push (.address index.toNat))
  | initobj {sig : Signature} {slot : Nat} {stack : List Item}
    (htop : f.stack = .address slot :: stack) (hslot : locals[slot]? = some sig) :
    Step locals f ⟨.initobj, .type sig⟩ { f with stack, filled := slot :: f.filled }

/-- The machine accepts these steps, and no others, until it has returned. -/
theorem step_eq_ok : step locals f i = .ok g ↔ f.returned = none ∧ Step locals f i g := by
  constructor
  · intro h
    unfold step at h
    split at h
    next => cases h
    next hreturned =>
      refine ⟨by simpa using hreturned, ?_⟩
      split at h
      next =>
        cases h
        exact .ret
      next =>
        cases h
        exact .ldnull
      next =>
        split at h
        next => cases h
        next sig hslot =>
          split at h
          next hfilled =>
            cases h
            exact .ldloc0 hslot hfilled
          next => cases h
      next =>
        split at h
        next hslot =>
          cases h
          exact .ldlocaS hslot
        next => cases h
      next =>
        split at h
        next => cases h
        next slot stack htop =>
          split at h
          next => cases h
          next declared hslot =>
            split at h
            next heq =>
              cases h
              exact .initobj htop (heq ▸ hslot)
            next => cases h
        next => cases h
      next => cases h
  · rintro ⟨hreturned, h⟩
    have hrunning : ¬ f.returned.isSome = true := by simp [hreturned]
    unfold step
    rw [if_neg hrunning]
    cases h with
    | ret => rfl
    | ldnull => rfl
    | ldloc0 hslot hfilled => simp only [hslot, if_pos hfilled]
    | ldlocaS hslot => simp only [if_pos hslot]
    | initobj htop hslot => simp only [htop, hslot, if_true]

namespace Step

/-- The height of the stack changes as the operation says. -/
theorem height (h : Step locals f i g) :
    (g.stack.length : Int) = i.opcode.depthAfter f.stack.length := by
  cases h with
  | ret => rfl
  | ldnull => rfl
  | ldloc0 => rfl
  | ldlocaS => rfl
  | initobj htop =>
    rw [htop]
    simp [Opcode.depthAfter]

/-- The local that an instruction names by itself. -/
theorem slot_lt (h : Step locals f i g) : ∀ slot ∈ i.operand.slot?, slot.toNat < locals.length := by
  cases h with
  | ldlocaS hslot =>
    intro slot hmem
    cases hmem
    exact hslot
  | ret | ldnull | ldloc0 | initobj => simp [Operand.slot?]

/-- Only a return ends a run. -/
theorem returned (h : Step locals f i g) :
    g.returned = f.returned ∨ i = ⟨.ret, .none⟩ ∧ g.returned = some f.stack := by
  cases h with
  | ret => exact .inr ⟨rfl, rfl⟩
  | ldnull | ldloc0 | ldlocaS | initobj => exact .inl rfl

/-- A local is initialised through its address, as the type that it is declared with. -/
theorem filled (h : Step locals f i g) {slot : Nat} (hslot : slot ∈ g.filled) :
    slot ∈ f.filled ∨ ∃ sig stack, i = ⟨.initobj, .type sig⟩ ∧
      f.stack = .address slot :: stack ∧ locals[slot]? = some sig := by
  cases h with
  | ret | ldnull | ldloc0 | ldlocaS => exact .inl hslot
  | initobj htop hdeclared =>
    obtain rfl | hslot := List.mem_cons.mp hslot
    · exact .inr ⟨_, _, rfl, htop, hdeclared⟩
    · exact .inl hslot

end Step

/-! ## Runs -/

theorem run_cons_eq_ok :
    run locals f (i :: code) = .ok g ↔
      f.returned = none ∧ ∃ mid, Step locals f i mid ∧ run locals mid code = .ok g := by
  show (step locals f i >>= fun mid => run locals mid code) = .ok g ↔ _
  constructor
  · intro h
    cases hstep : step locals f i with
    | error fault =>
      rw [hstep] at h
      cases h
    | ok mid =>
      rw [hstep] at h
      obtain ⟨hreturned, hmid⟩ := step_eq_ok.mp hstep
      exact ⟨hreturned, mid, hmid, h⟩
  · rintro ⟨hreturned, mid, hmid, hrest⟩
    rw [step_eq_ok.mpr ⟨hreturned, hmid⟩]
    exact hrest

theorem run_append {before rest : List Instruction} :
    run locals f (before ++ rest) = .ok g ↔
      ∃ mid, run locals f before = .ok mid ∧ run locals mid rest = .ok g := by
  induction before generalizing f with
  | nil =>
    constructor
    · intro h
      exact ⟨f, rfl, h⟩
    · rintro ⟨mid, hmid, h⟩
      cases hmid
      exact h
  | cons i before ih =>
    rw [List.cons_append, run_cons_eq_ok]
    constructor
    · rintro ⟨hreturned, first, hfirst, h⟩
      obtain ⟨mid, hmid, hrest⟩ := ih.mp h
      exact ⟨mid, run_cons_eq_ok.mpr ⟨hreturned, first, hfirst, hmid⟩, hrest⟩
    · rintro ⟨mid, hmid, hrest⟩
      obtain ⟨hreturned, first, hfirst, hmid⟩ := run_cons_eq_ok.mp hmid
      exact ⟨hreturned, first, hfirst, ih.mpr ⟨mid, hmid, hrest⟩⟩

/-- Every local that the code of a run names is declared. -/
theorem slot_lt_run (h : run locals f code = .ok g) :
    ∀ i ∈ code, ∀ slot ∈ i.operand.slot?, slot.toNat < locals.length := by
  induction code generalizing f with
  | nil =>
    intro i hi
    cases hi
  | cons first code ih =>
    obtain ⟨-, mid, hfirst, hrest⟩ := run_cons_eq_ok.mp h
    intro i hi
    obtain rfl | hi := List.mem_cons.mp hi
    · exact hfirst.slot_lt
    · exact ih hrest i hi

/-- A local that is initialised in the end has been so from the start, or by an instruction of the
run, which has found its address on the stack. -/
theorem filled_run {slot : Nat} (h : run locals f code = .ok g) (hslot : slot ∈ g.filled) :
    slot ∈ f.filled ∨ ∃ sig before rest mid stack,
      code = before ++ ⟨.initobj, .type sig⟩ :: rest ∧ run locals f before = .ok mid ∧
      mid.stack = .address slot :: stack ∧ locals[slot]? = some sig := by
  induction code generalizing f with
  | nil =>
    cases h
    exact .inl hslot
  | cons first code ih =>
    obtain ⟨hreturned, second, hfirst, hrest⟩ := run_cons_eq_ok.mp h
    obtain hslot | ⟨sig, before, rest, mid, stack, rfl, hmid, htop, hdeclared⟩ := ih hrest
    · obtain hslot | ⟨sig, stack, rfl, htop, hdeclared⟩ := hfirst.filled hslot
      · exact .inl hslot
      · exact .inr ⟨sig, [], code, f, stack, rfl, rfl, htop, hdeclared⟩
    · exact .inr ⟨sig, first :: before, rest, mid, stack, rfl,
        run_cons_eq_ok.mpr ⟨hreturned, second, hfirst, hmid⟩, htop, hdeclared⟩

/-- Nothing runs behind a return: a run that has returned ends in one, and what it returns has been
on the stack there. -/
theorem returned_run {items : List Item} (h : run locals f code = .ok g)
    (hrunning : f.returned = none) (hreturned : g.returned = some items) :
    ∃ before mid, code = before ++ [⟨.ret, .none⟩] ∧ run locals f before = .ok mid ∧
      mid.returned = none ∧ mid.stack = items := by
  induction code generalizing f with
  | nil =>
    cases h
    rw [hrunning] at hreturned
    cases hreturned
  | cons first code ih =>
    obtain ⟨-, second, hfirst, hrest⟩ := run_cons_eq_ok.mp h
    obtain hsecond | ⟨rfl, hsecond⟩ := hfirst.returned
    · obtain ⟨before, mid, rfl, hmid, hreturned⟩ := ih hrest (hsecond.trans hrunning)
      exact ⟨first :: before, mid, rfl,
        run_cons_eq_ok.mpr ⟨hrunning, second, hfirst, hmid⟩, hreturned⟩
    · cases code with
      | nil =>
        cases hrest
        exact ⟨[], f, rfl, rfl, hrunning, Option.some.inj (hsecond.symm.trans hreturned)⟩
      | cons next code =>
        obtain ⟨hnone, -⟩ := run_cons_eq_ok.mp hrest
        rw [hnone] at hsecond
        cases hsecond

end Machine

/-! ## Stack heights -/

namespace Body

/-- The height of the stack after some code, as the operations have it. Nothing is checked, so it
may be negative. -/
def depthFrom (depth : Int) : List Instruction → Int
  | [] => depth
  | i :: code => depthFrom (i.opcode.depthAfter depth) code

theorem le_peakFrom (peak depth : Int) (code : List Instruction) :
    peak ≤ peakFrom peak depth code := by
  induction code generalizing peak depth with
  | nil => exact Int.le_refl peak
  | cons i code ih =>
    calc peak ≤ max peak (i.opcode.depthAfter depth) := Int.le_max_left ..
      _ ≤ _ := ih ..

/-- No height is above the peak. -/
theorem depthFrom_le_peakFrom {peak depth : Int} (h : depth ≤ peak) (code : List Instruction)
    (n : Nat) : depthFrom depth (code.take n) ≤ peakFrom peak depth code := by
  induction code generalizing peak depth n with
  | nil =>
    rw [List.take_nil]
    exact h
  | cons i code ih =>
    cases n with
    | zero => exact Int.le_trans h (le_peakFrom ..)
    | succ n => exact ih (Int.le_max_right ..) n

/-- The peak is where it starts, or some height on the way. -/
theorem exists_depthFrom_eq_peakFrom (peak depth : Int) (code : List Instruction) :
    peakFrom peak depth code = peak ∨
      ∃ n ≤ code.length, depthFrom depth (code.take n) = peakFrom peak depth code := by
  induction code generalizing peak depth with
  | nil => exact .inl rfl
  | cons i code ih =>
    obtain hpeak | ⟨n, hn, hdepth⟩ := ih (max peak (i.opcode.depthAfter depth))
      (i.opcode.depthAfter depth)
    · by_cases hle : i.opcode.depthAfter depth ≤ peak
      · left
        show peakFrom _ _ code = peak
        rw [hpeak, Int.max_eq_left hle]
      · right
        refine ⟨1, by simp, ?_⟩
        show i.opcode.depthAfter depth = peakFrom _ _ code
        rw [hpeak, Int.max_eq_right (by omega)]
    · exact .inr ⟨n + 1, by simpa using hn, hdepth⟩

/-- The stack starts empty, so that the peak is always reached. -/
theorem exists_depthFrom_eq_peak (code : List Instruction) :
    ∃ n ≤ code.length, depthFrom 0 (code.take n) = peak code := by
  obtain hpeak | hreached := exists_depthFrom_eq_peakFrom 0 0 code
  · exact ⟨0, Nat.zero_le _, hpeak.symm⟩
  · exact hreached

/-- A body announces the peak, or the greatest height that 16 bits hold. -/
theorem toNat_maxStack (locals : List Signature) (initLocals : Bool) (code : List Instruction) :
    ((ofCode locals initLocals code).maxStack.toNat : Int) = min 0xFFFF (peak code) := by
  have hnonneg : 0 ≤ peak code := le_peakFrom 0 0 code
  show ((UInt16.ofNat (min (peak code).toNat 0xFFFF)).toNat : Int) = _
  rw [UInt16.toNat_ofNat_of_lt' (by show _ < 2 ^ 16; omega)]
  omega

/-- A peak that fits is announced as it is. -/
theorem toNat_maxStack_ofCode {code : List Instruction} (hpeak : peak code ≤ 0xFFFF)
    (locals : List Signature) (initLocals : Bool) :
    ((ofCode locals initLocals code).maxStack.toNat : Int) = peak code := by
  rw [toNat_maxStack, Int.min_eq_right hpeak]

end Body

namespace Machine

variable {locals : List Signature} {f g : Frame} {code : List Instruction}

/-- The stack of a run is as high as the operations have it. -/
theorem height_run (h : run locals f code = .ok g) :
    (g.stack.length : Int) = Body.depthFrom f.stack.length code := by
  induction code generalizing f with
  | nil =>
    cases h
    rfl
  | cons i code ih =>
    obtain ⟨-, mid, hfirst, hrest⟩ := run_cons_eq_ok.mp h
    show _ = Body.depthFrom (i.opcode.depthAfter f.stack.length) code
    rw [← hfirst.height]
    exact ih hrest

end Machine

/-! ## Bodies -/

namespace Body

open Machine

/-- The machine after the first `n` instructions of a body. -/
def after (b : Body) (n : Nat) : Except Fault Frame := run b.locals {} (b.code.take n)

/-- A body that runs to its end and returns with `items` on the stack. -/
structure RunsSafely (b : Body) (items : List Item) : Prop where
  /-- No instruction is refused, and the stack is never higher than announced. -/
  runs : ∀ n, ∃ f, b.after n = .ok f ∧ f.stack.length ≤ b.maxStack.toNat
  /-- It is as high as announced at some point. -/
  peak : ∃ n ≤ b.code.length, ∃ f, b.after n = .ok f ∧ f.stack.length = b.maxStack.toNat
  /-- The locals that are named are declared. -/
  slots : ∀ i ∈ b.code, ∀ slot ∈ i.operand.slot?, slot.toNat < b.locals.length
  /-- The local that is loaded has been initialised before, as the type that it is declared with,
  by an instruction that has found its address on the stack. -/
  loads : ∀ before rest, b.code = before ++ ⟨.ldloc0, .none⟩ :: rest →
    ∃ sig first second f stack, b.locals[0]? = some sig ∧
      before = first ++ ⟨.initobj, .type sig⟩ :: second ∧
      run b.locals {} first = .ok f ∧ f.stack = .address 0 :: stack
  /-- The last instruction is the only return, and finds the items on the stack. -/
  returns : ∃ before f, b.code = before ++ [⟨.ret, .none⟩] ∧ run b.locals {} before = .ok f ∧
    f.returned = none ∧ f.stack = items

/-- A body that runs to its end does so safely, if the height of its stack can be announced. -/
theorem runsSafely_ofCode {locals : List Signature} {code : List Instruction} {g : Frame}
    {items : List Item} (h : run locals {} code = .ok g) (hreturned : g.returned = some items)
    (hpeak : Body.peak code ≤ 0xFFFF) (initLocals : Bool) :
    (ofCode locals initLocals code).RunsSafely items := by
  have hafter (n : Nat) : ∃ f, (ofCode locals initLocals code).after n = .ok f ∧
      (f.stack.length : Int) = depthFrom 0 (code.take n) := by
    have hsplit : run locals {} (code.take n ++ code.drop n) = .ok g := by
      rw [List.take_append_drop]
      exact h
    obtain ⟨f, hf, -⟩ := run_append.mp hsplit
    exact ⟨f, hf, height_run hf⟩
  have hmax := toNat_maxStack_ofCode hpeak locals initLocals
  refine ⟨fun n => ?_, ?_, slot_lt_run h, ?_, returned_run h rfl hreturned⟩
  · obtain ⟨f, hf, hheight⟩ := hafter n
    have hle : depthFrom 0 (code.take n) ≤ Body.peak code :=
      depthFrom_le_peakFrom (Int.le_refl 0) code n
    exact ⟨f, hf, by omega⟩
  · obtain ⟨n, hn, hreached⟩ := exists_depthFrom_eq_peak code
    obtain ⟨f, hf, hheight⟩ := hafter n
    exact ⟨n, hn, f, hf, by omega⟩
  · intro before rest hcode
    obtain rfl : code = before ++ ⟨.ldloc0, .none⟩ :: rest := hcode
    obtain ⟨mid, hmid, hload⟩ := run_append.mp h
    obtain ⟨-, _, hstep, -⟩ := run_cons_eq_ok.mp hload
    cases hstep with
    | @ldloc0 sig hslot hfilled =>
      obtain hnone | ⟨sig', first, second, f, stack, hbefore, hf, htop, hdeclared⟩ :=
        filled_run hmid hfilled
      · cases hnone
      · obtain rfl : sig' = sig := Option.some.inj (hdeclared.symm.trans hslot)
        exact ⟨sig', first, second, f, stack, hslot, hbefore, hf, htop⟩

/-! ## Encoding -/

section

variable {σ : Type} {tokenOf : TokenSource σ} {b : Body} {localSig : Token}

/-- A source that gives a token for every type, whatever it has been asked before. -/
def Total (tokenOf : TokenSource σ) : Prop :=
  ∀ sig st, ∃ token st', Gives (tokenOf sig) st token st'

/-- With such a source, encoding succeeds unless the locals lack a signature. -/
theorem gives_encode (htotal : Total tokenOf) (hsize : b.codeSize < 0x100000000)
    (hsig : ¬ (b.locals ≠ [] ∧ localSig.isNull = true)) (st : σ) :
    ∃ bytes st', Gives (b.encode localSig tokenOf) st bytes st' := by
  obtain ⟨header, hheader, -⟩ := exists_header hsig hsize
  obtain ⟨given, st', htypes, hgiven⟩ | ⟨given, sig, rest, e, st₁, st₂, -, -, hrefuses⟩ :=
    exists_answers tokenOf (typesOf b.code) st
  · exact ⟨_, st', (encodes_of_answers hheader htypes hgiven).outcome⟩
  · obtain ⟨token, st₃, hgives⟩ := htotal sig st₁
    have hboth : (Except.error e, st₂) = (Except.ok token, st₃) := hrefuses.symm.trans hgives
    cases hboth

/-- Without a signature, it fails exactly on a body with locals. -/
theorem fails_encode_iff (htotal : Total tokenOf) (hsize : b.codeSize < 0x100000000)
    (hnull : localSig.isNull = true) (st : σ) :
    (∃ e st', outcome (b.encode localSig tokenOf) st = (.error e, st')) ↔ b.locals ≠ [] := by
  constructor
  · rintro ⟨e, st', hfails⟩ hlocals
    obtain ⟨bytes, st'', hgives⟩ : ∃ bytes st'', Gives (b.encode localSig tokenOf) st bytes st'' :=
      gives_encode htotal hsize (by simp [hlocals]) st
    have hboth : (Except.error e, st') = (Except.ok bytes, st'') := hfails.symm.trans hgives
    cases hboth
  · intro hlocals
    have hheader := header_of_missing_signature hlocals hnull
    exact ⟨_, st, outcome_encode_of_header_error hheader tokenOf st⟩

end

end Body

/-! ## Stubs -/

/-- Returns at once. -/
def voidStub : Body := .ofCode [] false [⟨.ret, .none⟩]

/-- Returns its local, which it initialises. -/
def valueStub (sig : Signature) : Body :=
  .ofCode [sig] true
    [⟨.ldlocaS, .slot 0⟩, ⟨.initobj, .type sig⟩, ⟨.ldloc0, .none⟩, ⟨.ret, .none⟩]

/-- Returns the null reference. -/
def nullStub : Body := .ofCode [] false [⟨.ldnull, .none⟩, ⟨.ret, .none⟩]

theorem stub_eq (s : Store) (sig : Signature) :
    stub s sig = match StubKind.of s sig with
      | .void => voidStub
      | .value => valueStub sig
      | .reference => nullStub := rfl

/-- Only void is returned as nothing. -/
theorem StubKind.of_eq_void {s : Store} {sig : Signature} :
    StubKind.of s sig = .void ↔ sig.isVoid = true := by
  unfold StubKind.of
  constructor
  · intro h
    by_contra hvoid
    rw [if_neg hvoid] at h
    split at h <;> split at h <;> cases h
  · intro hvoid
    rw [if_pos hvoid]

section

open Machine

theorem voidStub_runsSafely : voidStub.RunsSafely [] :=
  Body.runsSafely_ofCode (g := { returned := some [] }) rfl rfl (by decide) false

theorem nullStub_runsSafely : nullStub.RunsSafely [.null] :=
  Body.runsSafely_ofCode (g := { returned := some [.null] }) rfl rfl (by decide) false

/-- The local is initialised through its address, and is there when it is loaded. -/
theorem valueStub_runsSafely (sig : Signature) : (valueStub sig).RunsSafely [.value sig] := by
  have haddress : Step [sig] {} ⟨.ldlocaS, .slot 0⟩ { stack := [.address 0] } :=
    .ldlocaS Nat.zero_lt_one
  have hinit : Step [sig] { stack := [.address 0] } ⟨.initobj, .type sig⟩ { filled := [0] } :=
    .initobj rfl rfl
  have hload : Step [sig] { filled := [0] } ⟨.ldloc0, .none⟩
      { stack := [.value sig], filled := [0] } :=
    .ldloc0 rfl List.mem_cons_self
  have hret : Step [sig] { stack := [.value sig], filled := [0] } ⟨.ret, .none⟩
      { filled := [0], returned := some [.value sig] } := .ret
  have hrun : run [sig] {} (valueStub sig).code =
      .ok { filled := [0], returned := some [.value sig] } :=
    run_cons_eq_ok.mpr ⟨rfl, _, haddress, run_cons_eq_ok.mpr ⟨rfl, _, hinit,
      run_cons_eq_ok.mpr ⟨rfl, _, hload, run_cons_eq_ok.mpr ⟨rfl, _, hret, rfl⟩⟩⟩⟩
  have hpeak : Body.peak (valueStub sig).code = 1 := rfl
  exact Body.runsSafely_ofCode hrun rfl (by omega) true

/-- **Stubs run.** The machine runs the stub of any return type, declared or not, to its only return
without a fault and within the height that it announces. Void returns with an empty stack, and any
other type with one item: a value of the type if the stub has a local, which it then has initialised
and loaded, and the null reference if it has none. With tokens for its types, a stub is encoded
unless it has a local and no signature for it. -/
theorem stub_runs_safely (s : Store) (sig : Signature) :
    (stub s sig).RunsSafely
      (if sig.isVoid then [] else if (stub s sig).locals = [] then [.null] else [.value sig]) ∧
    ((stub s sig).locals ≠ [] →
      (stub s sig).locals = [sig] ∧ ⟨.ldloc0, .none⟩ ∈ (stub s sig).code) ∧
    ∀ {σ : Type} (tokenOf : Body.TokenSource σ), Body.Total tokenOf → ∀ localSig st,
      (localSig.isNull = false →
        ∃ bytes st', Body.Gives ((stub s sig).encode localSig tokenOf) st bytes st') ∧
      (localSig.isNull = true →
        ((∃ e st', Body.outcome ((stub s sig).encode localSig tokenOf) st = (.error e, st')) ↔
          (stub s sig).locals ≠ [])) := by
  have hsize : (stub s sig).codeSize < 0x100000000 := by
    rw [stub_eq]
    cases StubKind.of s sig with
    | void => show 1 < _; decide
    | value => show 10 < _; decide
    | reference => show 2 < _; decide
  refine ⟨?_, ?_, ?_⟩
  · rw [stub_eq]
    cases hkind : StubKind.of s sig with
    | void =>
      rw [if_pos (StubKind.of_eq_void.mp hkind)]
      exact voidStub_runsSafely
    | value =>
      have hvoid : ¬ sig.isVoid = true := fun h => by simp [StubKind.of_eq_void.mpr h] at hkind
      rw [if_neg hvoid]
      show (valueStub sig).RunsSafely (if [sig] = [] then [.null] else [.value sig])
      rw [if_neg (List.cons_ne_nil sig [])]
      exact valueStub_runsSafely sig
    | reference =>
      have hvoid : ¬ sig.isVoid = true := fun h => by simp [StubKind.of_eq_void.mpr h] at hkind
      rw [if_neg hvoid]
      exact nullStub_runsSafely
  · rw [stub_eq]
    cases StubKind.of s sig with
    | void | reference =>
      intro hlocals
      exact absurd rfl hlocals
    | value =>
      intro _
      exact ⟨rfl, by simp [valueStub, Body.ofCode]⟩
  · intro σ tokenOf htotal localSig st
    constructor
    · intro hsig
      exact Body.gives_encode htotal hsize (by simp [hsig]) st
    · intro hnull
      exact Body.fails_encode_iff htotal hsize hnull st

/-- The stub of an integer returns one, and is encoded with a signature for its local only. -/
theorem stub_runs_safely_i4 :
    Body.Total nextRow ∧
    (stub {} (.primitive .i4)).RunsSafely [.value (.primitive .i4)] ∧
    (∃ bytes row, Body.Gives ((stub {} (.primitive .i4)).encode ⟨0x11000001⟩ nextRow) 7 bytes row) ∧
    ∃ e row, Body.outcome ((stub {} (.primitive .i4)).encode ⟨0⟩ nextRow) 7 = (.error e, row) := by
  have htotal : Body.Total nextRow := fun _ row => ⟨_, row + 1, rfl⟩
  have hlocals : (stub {} (.primitive .i4)).locals ≠ [] := by decide
  obtain ⟨hruns, -, hencode⟩ := stub_runs_safely {} (.primitive .i4)
  exact ⟨htotal, hruns, (hencode nextRow htotal ⟨0x11000001⟩ 7).1 rfl,
    ((hencode nextRow htotal ⟨0⟩ 7).2 rfl).mpr hlocals⟩

end

end ClrImage
