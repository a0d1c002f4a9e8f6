import ClrImage.Body
import ClrImage.Proofs.LittleEndian
import Mathlib.Data.List.Forall2

/-!
# Reading method bodies

The reader of an image has nothing but bytes: it takes a header and as many bytes of code as the
header says, and knows the types of a body by their tokens. Whatever body has been written, the
reader finds its operations, its locals and the tokens that it has been given, in order, and **stops
where the body ends**.

- `RawBody`: a body as bytes tell it, with tokens for types.
- `RawBody.read`: the reader. It knows bodies by their bytes alone.
- `Instruction.Written`: an instruction with a token in the place of its type.
- `read_encode`: what the reader makes of an encoded body.
- `encoding_readable`: bodies are read back, so those that differ are written differently.
-/

namespace ClrImage

/-! ## Bodies in bytes -/

/-- An operand in bytes. -/
inductive RawOperand
  | none
  | slot (index : UInt8)
  | token (token : Token)
deriving DecidableEq

structure RawInstruction where
  opcode : Opcode
  operand : RawOperand
deriving DecidableEq

/-- What a header tells. A tiny one has room for the code size alone. -/
inductive RawHeader
  | tiny (codeSize : Nat)
  | fat (maxStack : UInt16) (initLocals : Bool) (codeSize : Nat) (localSig : Token)
deriving DecidableEq

def RawHeader.codeSize : RawHeader → Nat
  | tiny codeSize | fat _ _ codeSize _ => codeSize

/-- A body as bytes tell it. -/
structure RawBody where
  header : RawHeader
  code : List RawInstruction
deriving DecidableEq

/-! ## The reader -/

namespace RawBody

/-- Reads an operation and what it is applied to: `ldloca.s` takes the byte of a local, `initobj`
the word of a token. -/
def readInstruction : List UInt8 → Option (RawInstruction × List UInt8)
  | 0x2A :: rest => some (⟨.ret, .none⟩, rest)
  | 0x14 :: rest => some (⟨.ldnull, .none⟩, rest)
  | 0x06 :: rest => some (⟨.ldloc0, .none⟩, rest)
  | 0x12 :: index :: rest => some (⟨.ldlocaS, .slot index⟩, rest)
  | 0xFE :: 0x15 :: rest => do
    let (word, rest) ← Bytes.read 4 rest
    return (⟨.initobj, .token ⟨UInt32.ofNat word⟩⟩, rest)
  | _ => none

/-- Reads instructions up to the end. Each of them has a byte at least, so that as many steps as
there are bytes are enough. -/
def readCode : (fuel : Nat) → List UInt8 → Option (List RawInstruction)
  | _, [] => some []
  | 0, _ :: _ => none
  | fuel + 1, bytes => do
    let (instruction, rest) ← readInstruction bytes
    let code ← readCode fuel rest
    return instruction :: code

/-- Reads a large header. Its flags share a word with its length, which is that of three words of
four bytes; it announces no sections behind the code. -/
def readFatHeader (bytes : List UInt8) : Option (RawHeader × List UInt8) := do
  let (flags, rest) ← Bytes.read 2 bytes
  guard (flags / 0x1000 = 3 ∧ flags / 0x8 % 2 = 0)
  let (maxStack, rest) ← Bytes.read 2 rest
  let (codeSize, rest) ← Bytes.read 4 rest
  let (localSig, rest) ← Bytes.read 4 rest
  return (.fat (UInt16.ofNat maxStack) (flags / 0x10 % 2 = 1) codeSize ⟨UInt32.ofNat localSig⟩,
    rest)

/-- Reads a header. The two lowest bits of the first byte are its format. -/
def readHeader : List UInt8 → Option (RawHeader × List UInt8)
  | [] => none
  | first :: rest =>
    if first.toNat % 4 = 2 then some (.tiny (first.toNat / 4), rest)
    else if first.toNat % 4 = 3 then readFatHeader (first :: rest)
    else none

/-- Reads a body, and hands on what follows it. -/
def read (bytes : List UInt8) : Option (RawBody × List UInt8) := do
  let (header, rest) ← readHeader bytes
  guard (header.codeSize ≤ rest.length)
  let code ← readCode header.codeSize (rest.take header.codeSize)
  return (⟨header, code⟩, rest.drop header.codeSize)

/-- A step reads an instruction, and the next ones read what follows it. -/
theorem readCode_of_readInstruction {bytes rest : List UInt8} {i : RawInstruction} (fuel : Nat)
    (h : readInstruction bytes = some (i, rest)) :
    readCode (fuel + 1) bytes = (readCode fuel rest).map (i :: ·) := by
  cases bytes with
  | nil => cases h
  | cons byte bytes =>
    show (readInstruction (byte :: bytes)).bind _ = _
    rw [h, Option.bind_some]
    dsimp only
    cases readCode fuel rest <;> rfl

end RawBody

/-! ## Written instructions -/

def RawOperand.bytes : RawOperand → List UInt8
  | none => []
  | slot index => [index]
  | token value => Bytes.ofUInt32 value.value

def RawInstruction.bytes (i : RawInstruction) : List UInt8 := i.opcode.bytes ++ i.operand.bytes

def RawOperand.slot? : RawOperand → Option UInt8
  | slot index => some index
  | _ => .none

def RawOperand.token? : RawOperand → Option Token
  | token value => some value
  | _ => .none

def Operand.slot? : Operand → Option UInt8
  | slot index => some index
  | _ => .none

def Operand.type? : Operand → Option Signature
  | type sig => some sig
  | _ => .none

/-- The operands that an operation takes: `ldloca.s` a local, `initobj` a type, and the others
none. -/
def Opcode.takes : Opcode → Operand → Bool
  | ldlocaS, .slot _ | initobj, .type _ | ret, .none | ldnull, .none | ldloc0, .none => true
  | _, _ => false

/-- The instruction in bytes has the operation and the local of the other one, and a token if that
one has a type. -/
inductive Instruction.Written : Instruction → RawInstruction → Prop
  | none (op : Opcode) : Written ⟨op, .none⟩ ⟨op, .none⟩
  | slot (op : Opcode) (index : UInt8) : Written ⟨op, .slot index⟩ ⟨op, .slot index⟩
  | type (op : Opcode) (sig : Signature) (token : Token) :
    Written ⟨op, .type sig⟩ ⟨op, .token token⟩

/-- Every instruction has a byte. -/
theorem Instruction.size_pos (i : Instruction) : 0 < i.size := by
  obtain ⟨op, operand⟩ := i
  have hop : 0 < op.bytes.length := by cases op <;> decide
  show 0 < op.bytes.length + operand.size
  omega

namespace Instruction.Written

variable {i : Instruction} {raw : RawInstruction}

theorem opcode (h : i.Written raw) : raw.opcode = i.opcode := by
  cases h <;> rfl

theorem slot? (h : i.Written raw) : raw.operand.slot? = i.operand.slot? := by
  cases h <;> rfl

/-- An instruction has as many bytes as it counts. -/
theorem length_bytes (h : i.Written raw) : raw.bytes.length = i.size := by
  cases h <;> simp [RawInstruction.bytes, RawOperand.bytes, size, Operand.size, Bytes.ofUInt32]

/-- An instruction whose operand is what its operation takes is read back. -/
theorem readInstruction (h : i.Written raw) (htakes : i.opcode.takes i.operand = true)
    (rest : List UInt8) : RawBody.readInstruction (raw.bytes ++ rest) = some (raw, rest) := by
  cases h with
  | none op => cases op <;> first | rfl | cases htakes
  | slot op index => cases op <;> first | rfl | cases htakes
  | type op sig token =>
    cases op <;> try cases htakes
    show RawBody.readInstruction (0xFE :: 0x15 :: (Bytes.ofUInt32 token.value ++ rest)) = _
    rw [RawBody.readInstruction, Bytes.read_ofUInt32_append]
    show some (RawInstruction.mk _ (.token ⟨UInt32.ofNat token.value.toNat⟩), rest) = _
    rw [UInt32.ofNat_toNat]

end Instruction.Written

/-- The list of instructions in bytes is written for the other one. -/
abbrev WrittenCode : List Instruction → List RawInstruction → Prop :=
  List.Forall₂ Instruction.Written

namespace WrittenCode

variable {code : List Instruction} {raws : List RawInstruction}

theorem opcodes (h : WrittenCode code raws) : raws.map (·.opcode) = code.map (·.opcode) := by
  induction h with
  | nil => rfl
  | cons hfirst _ ih => rw [List.map_cons, List.map_cons, hfirst.opcode, ih]

theorem slots (h : WrittenCode code raws) :
    raws.filterMap (·.operand.slot?) = code.filterMap (·.operand.slot?) := by
  induction h with
  | nil => rfl
  | cons hfirst _ ih => rw [List.filterMap_cons, List.filterMap_cons, hfirst.slot?, ih]

/-- Code has as many bytes as its instructions count. -/
theorem length_bytes (h : WrittenCode code raws) (size : Nat) :
    code.foldl (fun size i => size + i.size) size =
      size + (raws.flatMap RawInstruction.bytes).length := by
  induction h generalizing size with
  | nil => rfl
  | cons hfirst _ ih =>
    rw [List.foldl_cons, ih, List.flatMap_cons, List.length_append, hfirst.length_bytes]
    omega

/-- Code is read back, with as many steps as it has bytes or more. -/
theorem readCode (h : WrittenCode code raws)
    (htakes : ∀ i ∈ code, i.opcode.takes i.operand = true) {fuel : Nat}
    (hfuel : (raws.flatMap RawInstruction.bytes).length ≤ fuel) :
    RawBody.readCode fuel (raws.flatMap RawInstruction.bytes) = some raws := by
  induction h generalizing fuel with
  | nil => cases fuel <;> rfl
  | @cons i raw code raws hfirst _ ih =>
    obtain ⟨hi, hcode⟩ := List.forall_mem_cons.mp htakes
    rw [List.flatMap_cons, List.length_append] at hfuel
    rw [List.flatMap_cons]
    -- the step is there, because the instruction has a byte
    cases fuel with
    | zero =>
      have hpos : 0 < raw.bytes.length := hfirst.length_bytes ▸ i.size_pos
      omega
    | succ fuel =>
      rw [RawBody.readCode_of_readInstruction fuel (hfirst.readInstruction hi _)]
      rw [ih hcode (by have hpos := hfirst.length_bytes ▸ i.size_pos; omega)]
      rfl

end WrittenCode

/-! ## Encoding -/

namespace Body

variable {σ α β : Type} {st st' : σ}

/-- The outcome of a step, and the state in which it leaves the source of tokens. -/
def outcome (step : ExceptT Failure (StateM σ) α) (st : σ) : Except Failure α × σ := step.run.run st

/-- The step gives a result. -/
def Gives (step : ExceptT Failure (StateM σ) α) (st : σ) (a : α) (st' : σ) : Prop :=
  outcome step st = (.ok a, st')

theorem outcome_bind (step : ExceptT Failure (StateM σ) α)
    (next : α → ExceptT Failure (StateM σ) β) (st : σ) :
    outcome (step >>= next) st =
      match outcome step st with
      | (.ok a, st') => outcome (next a) st'
      | (.error e, st') => (.error e, st') := by
  unfold outcome ExceptT.run StateT.run
  simp only [bind, ExceptT.bind, ExceptT.mk, StateT.bind, ExceptT.bindCont]
  rcases step st with ⟨_ | _, st'⟩ <;> rfl

theorem gives_pure {a b : α} :
    Gives (pure a : ExceptT Failure (StateM σ) α) st b st' ↔ a = b ∧ st = st' := by
  show (Except.ok a, st) = (Except.ok b, st') ↔ _
  simp

theorem gives_liftExcept {x : Except Failure α} {a : α} :
    Gives (liftExcept x : ExceptT Failure (StateM σ) α) st a st' ↔ x = .ok a ∧ st = st' := by
  cases x with
  | ok b => exact gives_pure.trans (by simp)
  | error e =>
    show (Except.error e, st) = (Except.ok a, st') ↔ _
    simp

theorem gives_bind {step : ExceptT Failure (StateM σ) α} {next : α → ExceptT Failure (StateM σ) β}
    {b : β} : Gives (step >>= next) st b st' ↔
      ∃ a st₁, Gives step st a st₁ ∧ Gives (next a) st₁ b st' := by
  unfold Gives
  rw [outcome_bind]
  rcases outcome step st with ⟨_ | a, st₁⟩ <;> simp

/-- The types of the code that tokens are asked for, in order. -/
def typesOf (code : List Instruction) : List Signature := code.filterMap (·.operand.type?)

/-- The instructions in bytes, with the given tokens for their types. -/
def withTokens : List Instruction → List Token → List RawInstruction
  | [], _ => []
  | ⟨op, .none⟩ :: code, tokens => ⟨op, .none⟩ :: withTokens code tokens
  | ⟨op, .slot index⟩ :: code, tokens => ⟨op, .slot index⟩ :: withTokens code tokens
  | ⟨op, .type _⟩ :: code, token :: tokens => ⟨op, .token token⟩ :: withTokens code tokens
  | ⟨_, .type _⟩ :: _, [] => []

/-- Code is encoded by asking for the tokens of its types and putting them in their places. -/
theorem map_flatten_mapM_encodeInstruction (tokenOf : TokenSource σ) (code : List Instruction) :
    List.flatten <$> code.mapM (encodeInstruction tokenOf) =
      (fun tokens => (withTokens code tokens).flatMap RawInstruction.bytes) <$>
        (typesOf code).mapM tokenOf := by
  induction code with
  | nil => rfl
  | cons i code ih =>
    obtain ⟨op, operand⟩ := i
    have hstep : List.flatten <$> (⟨op, operand⟩ :: code).mapM (encodeInstruction tokenOf) = (do
        let bytes ← encodeInstruction tokenOf ⟨op, operand⟩
        (bytes ++ ·) <$> (List.flatten <$> code.mapM (encodeInstruction tokenOf))) := by
      simp [map_bind, Functor.map_map]
    rw [hstep, ih]
    cases operand <;> simp [encodeInstruction, typesOf, Operand.type?, withTokens, Functor.map_map,
      RawInstruction.bytes, RawOperand.bytes]

/-- A body is encoded as a header and its code, after tokens have been asked for. -/
theorem encode_eq (b : Body) (localSig : Token) (tokenOf : TokenSource σ) :
    b.encode localSig tokenOf = (do
      let header ← liftExcept (b.header localSig)
      let tokens ← (typesOf b.code).mapM tokenOf
      pure (header ++ (withTokens b.code tokens).flatMap RawInstruction.bytes)) := by
  have hcode : ∀ header : List UInt8,
      (b.code.mapM (encodeInstruction tokenOf) >>= fun chunks => pure (header ++ chunks.flatten)) =
        (header ++ ·) <$> (List.flatten <$> b.code.mapM (encodeInstruction tokenOf)) := by
    intro header
    simp [Functor.map_map]
  unfold encode
  simp only [hcode, map_flatten_mapM_encodeInstruction]
  simp [Functor.map_map]

/-- One token is given for each type. -/
theorem length_of_gives_mapM {tokenOf : TokenSource σ} {sigs : List Signature}
    {tokens : List Token} (h : Gives (sigs.mapM tokenOf) st tokens st') :
    tokens.length = sigs.length := by
  induction sigs generalizing st tokens with
  | nil =>
    rw [List.mapM_nil, gives_pure] at h
    rw [← h.1]
    rfl
  | cons sig sigs ih =>
    rw [List.mapM_cons, gives_bind] at h
    obtain ⟨token, st₁, -, h⟩ := h
    obtain ⟨rest, st₂, hrest, h⟩ := gives_bind.mp h
    obtain ⟨rfl, rfl⟩ := gives_pure.mp h
    rw [List.length_cons, ih hrest, List.length_cons]

/-- With one token for each type, all of the code is written. -/
theorem written_withTokens {code : List Instruction} {tokens : List Token}
    (h : tokens.length = (typesOf code).length) :
    WrittenCode code (withTokens code tokens) ∧
      (withTokens code tokens).filterMap (·.operand.token?) = tokens := by
  induction code generalizing tokens with
  | nil =>
    obtain rfl := List.length_eq_zero_iff.mp h
    exact ⟨.nil, rfl⟩
  | cons i code ih =>
    obtain ⟨op, operand⟩ := i
    cases operand with
    | none =>
      obtain ⟨hcode, htokens⟩ := ih h
      exact ⟨.cons (.none op) hcode, htokens⟩
    | slot index =>
      obtain ⟨hcode, htokens⟩ := ih h
      exact ⟨.cons (.slot op index) hcode, htokens⟩
    | type sig =>
      cases tokens with
      | nil => cases h
      | cons token tokens =>
        obtain ⟨hcode, htokens⟩ := ih (Nat.succ.inj h)
        exact ⟨.cons (.type op sig token) hcode, congrArg (token :: ·) htokens⟩

/-! ## Headers -/

/-- What the header of a body tells. -/
def rawHeader (b : Body) (localSig : Token) : RawHeader :=
  if b.isTiny then .tiny b.codeSize
  else .fat b.maxStack b.initLocals b.codeSize (if b.locals.isEmpty then ⟨0⟩ else localSig)

theorem codeSize_rawHeader (b : Body) (localSig : Token) :
    (b.rawHeader localSig).codeSize = b.codeSize := by
  unfold rawHeader
  split <;> rfl

/-- A tiny header says enough of a body: it has little code, a low stack, and no locals. -/
theorem isTiny_iff (b : Body) :
    b.isTiny = true ↔ b.codeSize ≤ 63 ∧ b.maxStack ≤ 8 ∧ b.locals = [] := by
  unfold isTiny
  rw [Bool.and_eq_true, Bool.and_eq_true, decide_eq_true_iff, decide_eq_true_iff,
    List.isEmpty_iff, and_assoc]
  exact Iff.rfl

/-- A tiny header has the format in its lowest two bits and the code size above them. -/
theorem readHeader_tinyHeader {b : Body} (hsize : b.codeSize ≤ 63) (rest : List UInt8) :
    RawBody.readHeader (b.tinyHeader ++ rest) = some (.tiny b.codeSize, rest) := by
  have hbyte : ∀ n < 64, ((UInt8.ofNat n <<< 2) ||| UInt8.ofNat BodyFlags.tinyFormat.toNat).toNat =
      4 * n + 2 := by decide
  have hfirst := hbyte b.codeSize (by omega)
  show (if _ then _ else _) = _
  rw [hfirst, if_pos (by omega), show (4 * b.codeSize + 2) / 4 = b.codeSize by omega]
  rfl

/-- The word in front of a large header holds its own length, its format, and one flag. -/
theorem fatHeader_eq (b : Body) (localSig : Token) :
    b.fatHeader localSig = Bytes.ofUInt16 (if b.initLocals then 0x3013 else 0x3003) ++
      (Bytes.ofUInt16 b.maxStack ++ (Bytes.ofNat 4 b.codeSize ++
        Bytes.ofUInt32 (if b.locals.isEmpty then 0 else localSig.value))) := by
  have hword : (fatHeaderWords <<< 12) ||| UInt16.ofNat (if b.initLocals then
      BodyFlags.fatFormat.union BodyFlags.initLocals else BodyFlags.fatFormat).toNat =
        if b.initLocals then 0x3013 else 0x3003 := by
    cases b.initLocals <;> rfl
  unfold fatHeader
  rw [← hword]
  simp only [List.append_assoc]

/-- The format of a large header is in the lowest two bits of its first byte. -/
theorem fatHeader_eq_cons (b : Body) (localSig : Token) :
    ∃ first more, b.fatHeader localSig = first :: more ∧ first.toNat % 4 = 3 := by
  rw [fatHeader_eq]
  cases b.initLocals with
  | false => exact ⟨0x03, _, rfl, rfl⟩
  | true => exact ⟨0x13, _, rfl, rfl⟩

/-- A large header is read field by field. -/
theorem readFatHeader_fatHeader {b : Body} (hsize : b.codeSize ≤ 0xFFFFFFFF) (localSig : Token)
    (rest : List UInt8) :
    RawBody.readFatHeader (b.fatHeader localSig ++ rest) =
      some (.fat b.maxStack b.initLocals b.codeSize (if b.locals.isEmpty then ⟨0⟩ else localSig),
        rest) := by
  have hsig : (⟨UInt32.ofNat (if b.locals.isEmpty then 0 else localSig.value).toNat⟩ : Token) =
      if b.locals.isEmpty then ⟨0⟩ else localSig := by
    rw [UInt32.ofNat_toNat]
    split <;> rfl
  have hcodeSize : b.codeSize < 0x100 ^ 4 := by omega
  have hword : ∀ initLocals : Bool,
      ((if initLocals then 0x3013 else 0x3003 : UInt16).toNat / 0x1000 = 3 ∧
        (if initLocals then 0x3013 else 0x3003 : UInt16).toNat / 0x8 % 2 = 0) ∧
      decide ((if initLocals then 0x3013 else 0x3003 : UInt16).toNat / 0x10 % 2 = 1) =
        initLocals := by decide
  rw [fatHeader_eq]
  simp only [RawBody.readFatHeader, List.append_assoc, Bytes.read_ofUInt16_append,
    Bytes.read_ofNat_append hcodeSize, Bytes.read_ofUInt32_append, Option.bind_eq_bind,
    Option.bind_some, UInt16.ofNat_toNat, hsig, guard, if_pos (hword b.initLocals).1,
    (hword b.initLocals).2]
  rfl

/-- The header of a body is read back, **whatever follows it**. -/
theorem readHeader_append {b : Body} {localSig : Token} {bytes : List UInt8}
    (h : b.header localSig = .ok bytes) (rest : List UInt8) :
    RawBody.readHeader (bytes ++ rest) = some (b.rawHeader localSig, rest) := by
  unfold header at h
  unfold rawHeader
  by_cases htiny : b.isTiny = true
  · rw [if_pos htiny] at h ⊢
    obtain rfl := Except.ok.inj h
    exact readHeader_tinyHeader (b.isTiny_iff.mp htiny).1 rest
  · rw [if_neg htiny] at h ⊢
    split at h
    next => cases h
    next =>
      by_cases hsize : b.codeSize ≤ 0xFFFFFFFF
      · rw [if_pos hsize] at h
        obtain rfl := Except.ok.inj h
        obtain ⟨first, more, hbytes, hformat⟩ := fatHeader_eq_cons b localSig
        have hread := readFatHeader_fatHeader hsize localSig rest
        rw [hbytes, List.cons_append] at hread ⊢
        show (if _ then _ else _) = _
        rw [if_neg (by omega), if_pos hformat, hread]
      · rw [if_neg hsize] at h
        cases h

end Body

/-! ## Bodies -/

/-- What has been read is what the body is, with the given tokens for its types. -/
structure RawBody.Describes (raw : RawBody) (b : Body) (localSig : Token) (tokens : List Token) :
    Prop where
  opcodes : raw.code.map (·.opcode) = b.code.map (·.opcode)
  slots : raw.code.filterMap (·.operand.slot?) = b.code.filterMap (·.operand.slot?)
  tokens : raw.code.filterMap (·.operand.token?) = tokens
  header : match raw.header with
    | .tiny codeSize => codeSize = b.codeSize ∧ b.locals = [] ∧ b.maxStack ≤ 8
    | .fat maxStack initLocals codeSize sig =>
      maxStack = b.maxStack ∧ initLocals = b.initLocals ∧ codeSize = b.codeSize ∧
        sig = if b.locals.isEmpty then ⟨0⟩ else localSig

/-- A header that tells what it should describes the body. -/
theorem Body.describes_rawHeader {b : Body} {localSig : Token} {raws : List RawInstruction}
    {tokens : List Token} (hcode : WrittenCode b.code raws)
    (htokens : raws.filterMap (·.operand.token?) = tokens) :
    RawBody.Describes ⟨b.rawHeader localSig, raws⟩ b localSig tokens where
  opcodes := hcode.opcodes
  slots := hcode.slots
  tokens := htokens
  header := by
    unfold Body.rawHeader
    by_cases htiny : b.isTiny = true
    · obtain ⟨-, hstack, hlocals⟩ := b.isTiny_iff.mp htiny
      rw [if_pos htiny]
      exact ⟨rfl, hlocals, hstack⟩
    · rw [if_neg htiny]
      exact ⟨rfl, rfl, rfl, rfl⟩

/-- The operands of a body are those that its operations take. -/
def Body.Takes (b : Body) : Prop := ∀ i ∈ b.code, i.opcode.takes i.operand = true

instance (b : Body) : Decidable b.Takes :=
  inferInstanceAs (Decidable (∀ i ∈ b.code, i.opcode.takes i.operand = true))

section

variable {σ : Type} {b : Body} {localSig : Token} {tokenOf : Body.TokenSource σ} {st st' : σ}
  {bytes : List UInt8}

/-- An encoded body is read back, and the reader stops where it ends. The tokens are those that its
source has given. -/
theorem read_encode (htakes : b.Takes)
    (h : Body.Gives (b.encode localSig tokenOf) st bytes st') (rest : List UInt8) :
    ∃ raw tokens, RawBody.read (bytes ++ rest) = some (raw, rest) ∧
      Body.Gives ((Body.typesOf b.code).mapM tokenOf) st tokens st' ∧
      raw.Describes b localSig tokens := by
  rw [Body.encode_eq, Body.gives_bind] at h
  obtain ⟨header, _, hlift, hrest⟩ := h
  obtain ⟨hheader, rfl⟩ := Body.gives_liftExcept.mp hlift
  obtain ⟨tokens, _, htokens, hbytes⟩ := Body.gives_bind.mp hrest
  obtain ⟨rfl, rfl⟩ := Body.gives_pure.mp hbytes
  obtain ⟨hcode, hgiven⟩ := Body.written_withTokens (Body.length_of_gives_mapM htokens)
  generalize Body.withTokens b.code tokens = raws at hcode hgiven ⊢
  refine ⟨⟨b.rawHeader localSig, raws⟩, tokens, ?_, htokens, Body.describes_rawHeader hcode hgiven⟩
  have hsize : (raws.flatMap RawInstruction.bytes).length = (b.rawHeader localSig).codeSize := by
    rw [b.codeSize_rawHeader, Body.codeSize, hcode.length_bytes 0, Nat.zero_add]
  have henough : (b.rawHeader localSig).codeSize ≤
      (raws.flatMap RawInstruction.bytes ++ rest).length := by
    rw [List.length_append]
    omega
  unfold RawBody.read
  rw [List.append_assoc, Body.readHeader_append hheader]
  simp only [Option.bind_eq_bind, Option.bind_some, guard, if_pos henough,
    List.take_left' hsize, List.drop_left' hsize, hcode.readCode htakes (Nat.le_of_eq hsize)]
  rfl

/-- **Bodies are read back.** The reader consumes all bytes of an encoded body, and finds its
operations, its locals, the tokens that its source has given, and what its header has room for. So
bodies that differ in any of these are never encoded to the same bytes. -/
theorem encoding_readable (htakes : b.Takes)
    (h : Body.Gives (b.encode localSig tokenOf) st bytes st') :
    ∃ raw tokens, RawBody.read bytes = some (raw, []) ∧
      Body.Gives ((Body.typesOf b.code).mapM tokenOf) st tokens st' ∧
      raw.Describes b localSig tokens ∧
      ∀ {τ : Type} {b' : Body} {localSig' : Token} {tokenOf' : Body.TokenSource τ} {u u' : τ},
        b'.Takes → Body.Gives (b'.encode localSig' tokenOf') u bytes u' →
        b'.code.map (·.opcode) = b.code.map (·.opcode) ∧
        b'.code.filterMap (·.operand.slot?) = b.code.filterMap (·.operand.slot?) ∧
        Body.Gives ((Body.typesOf b'.code).mapM tokenOf') u tokens u' := by
  obtain ⟨raw, tokens, hread, htokens, hraw⟩ := read_encode htakes h []
  rw [List.append_nil] at hread
  refine ⟨raw, tokens, hread, htokens, hraw, ?_⟩
  intro τ b' localSig' tokenOf' u u' htakes' h'
  obtain ⟨raw', tokens', hread', htokens', hraw'⟩ := read_encode htakes' h' []
  rw [List.append_nil, hread] at hread'
  obtain rfl := congrArg Prod.fst (Option.some.inj hread')
  obtain rfl : tokens = tokens' := hraw.tokens.symm.trans hraw'.tokens
  exact ⟨hraw'.opcodes.symm.trans hraw.opcodes, hraw'.slots.symm.trans hraw.slots, htokens'⟩

end

/-! ### Two slots -/

/-- Clears two values in place and returns the first of them. -/
def twoSlots : Body :=
  .ofCode [Signature.valueType ⟨0⟩, Signature.valueType ⟨1⟩] true
    [⟨.ldlocaS, .slot 0⟩, ⟨.initobj, .type (Signature.valueType ⟨0⟩)⟩,
      ⟨.ldlocaS, .slot 1⟩, ⟨.initobj, .type (Signature.valueType ⟨1⟩)⟩,
      ⟨.ldloc0, .none⟩, ⟨.ret, .none⟩]

/-- Gives one row after the other. -/
def nextRow : Body.TokenSource UInt32 := fun _ =>
  modifyGet fun row => (Token.ofParts Table.typeDef row, row + 1)

def twoSlotsBytes : List UInt8 :=
  [0x13, 0x30, 0x01, 0x00, 0x12, 0x00, 0x00, 0x00, 0x01, 0x00, 0x00, 0x11,
    0x12, 0x00, 0xFE, 0x15, 0x07, 0x00, 0x00, 0x02,
    0x12, 0x01, 0xFE, 0x15, 0x08, 0x00, 0x00, 0x02, 0x06, 0x2A]

theorem encoding_readable_twoSlots :
    Body.Gives (twoSlots.encode ⟨0x11000001⟩ nextRow) 7 twoSlotsBytes 9 ∧
    ∃ raw tokens, RawBody.read twoSlotsBytes = some (raw, []) ∧
      Body.Gives ((Body.typesOf twoSlots.code).mapM nextRow) 7 tokens 9 ∧
      raw.Describes twoSlots ⟨0x11000001⟩ tokens := by
  have htakes : twoSlots.Takes := by decide
  have hencode : Body.Gives (twoSlots.encode ⟨0x11000001⟩ nextRow) 7 twoSlotsBytes 9 := by
    unfold Body.Gives
    decide +kernel
  obtain ⟨raw, tokens, hread, htokens, hraw, -⟩ := encoding_readable htakes hencode
  exact ⟨hencode, raw, tokens, hread, htokens, hraw⟩

end ClrImage
