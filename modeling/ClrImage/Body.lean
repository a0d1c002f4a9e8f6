import ClrImage.Failure
import ClrImage.Flags
import ClrImage.Signature
import ClrImage.Bytes

/-!
# Method bodies

Straight-line code with its locals and stack height, and its binary form.

* `Opcode`, `Operand`, `Instruction`: the instructions that bodies are made of.
* `Body`, `Body.ofCode`: a body, and the body of given code with the stack height that it needs.
* `Body.isTiny`, `Body.encode`: the choice between the two headers, and the bytes of a body.
-/

namespace ClrImage

/-! ## Instructions -/

/-- The operations of stub code. -/
inductive Opcode
  | ret | ldnull | ldloc0 | ldlocaS | initobj
deriving DecidableEq, Repr

namespace Opcode

/-- Every operation once. -/
def list : List Opcode := [ret, ldnull, ldloc0, ldlocaS, initobj]

def name : Opcode → String
  | ret => "ret"
  | ldnull => "ldnull"
  | ldloc0 => "ldloc.0"
  | ldlocaS => "ldloca.s"
  | initobj => "initobj"

/-- The operation with a name. -/
def ofName? (name : String) : Option Opcode := list.find? (·.name == name)

/-- The bytes of the operation itself. -/
def bytes : Opcode → List UInt8
  | ret => [0x2A]
  | ldnull => [0x14]
  | ldloc0 => [0x06]
  | ldlocaS => [0x12]
  | initobj => [0xFE, 0x15]

/-- The height of the stack after the operation: loads push one item, initialisation takes one, and
a return leaves nothing. -/
def depthAfter (op : Opcode) (depth : Int) : Int :=
  match op with
  | ldnull | ldloc0 | ldlocaS => depth + 1
  | initobj => depth - 1
  | ret => 0

end Opcode

/-- What an operation is applied to. -/
inductive Operand
  | none
  | slot (index : UInt8)
  | type (sig : Signature)
deriving DecidableEq, Repr

/-- A local takes one byte, a type the four bytes of its token. -/
def Operand.size : Operand → Nat
  | none => 0
  | slot _ => 1
  | type _ => 4

structure Instruction where
  opcode : Opcode
  operand : Operand := .none
deriving DecidableEq, Repr

namespace Instruction

/-- The number of bytes of an instruction. -/
def size (i : Instruction) : Nat := i.opcode.bytes.length + i.operand.size

end Instruction

/-! ## Bodies -/

structure Body where
  maxStack : UInt16
  initLocals : Bool
  locals : List Signature
  code : List Instruction
deriving DecidableEq, Repr

namespace Body

/-- The greatest of `peak` and the heights that the stack reaches from `depth` on. -/
def peakFrom (peak depth : Int) : List Instruction → Int
  | [] => peak
  | i :: rest =>
    let depth := i.opcode.depthAfter depth
    peakFrom (max peak depth) depth rest

/-- The greatest height of the stack, which starts empty. -/
def peak (code : List Instruction) : Int := peakFrom 0 0 code

/-- The body of some code; its stack height is the greatest that the code reaches, or the greatest
that fits. -/
def ofCode (locals : List Signature) (initLocals : Bool) (code : List Instruction) : Body :=
  { maxStack := UInt16.ofNat (min (peak code).toNat 0xFFFF), initLocals, locals, code }

/-- The number of bytes of the code. -/
def codeSize (b : Body) : Nat := b.code.foldl (fun size i => size + i.size) 0

/-- The largest code with a header of one byte. -/
def tinyCodeSize : Nat := 63

/-- The greatest stack height with a header of one byte. -/
def tinyMaxStack : UInt16 := 8

/-- Whether a header of one byte, which has room for the code size alone, says enough. -/
def isTiny (b : Body) : Bool :=
  b.codeSize ≤ tinyCodeSize && b.maxStack ≤ tinyMaxStack && b.locals.isEmpty

/-! ## Binary form -/

/-- The large header counts its own length in words of four bytes. -/
def fatHeaderWords : UInt16 := 3

/-- The small header: the code size above the two format bits. -/
def tinyHeader (b : Body) : List UInt8 :=
  [(UInt8.ofNat b.codeSize <<< 2) ||| UInt8.ofNat BodyFlags.tinyFormat.toNat]

/-- The large header: flags and header length, stack height, code size, signature of the locals. -/
def fatHeader (b : Body) (localSig : Token) : List UInt8 :=
  let flags := if b.initLocals then BodyFlags.fatFormat.union BodyFlags.initLocals
    else BodyFlags.fatFormat
  Bytes.ofUInt16 ((fatHeaderWords <<< 12) ||| UInt16.ofNat flags.toNat) ++
    Bytes.ofUInt16 b.maxStack ++
    Bytes.ofNat 4 b.codeSize ++
    Bytes.ofUInt32 (if b.locals.isEmpty then 0 else localSig.value)

/-- The header of a body. Locals need a signature token. -/
def header (b : Body) (localSig : Token) : Except Failure (List UInt8) :=
  if b.isTiny then
    .ok b.tinyHeader
  else if !b.locals.isEmpty && localSig.isNull then
    .error (.flawed (.localsNeedSignature b.locals.length))
  else if b.codeSize ≤ 0xFFFFFFFF then
    .ok (b.fatHeader localSig)
  else
    .error (.flawed (.codeTooLarge b.codeSize))

variable {σ : Type}

/-- A source of tokens for types, which may fail and may depend on what it was asked before. -/
abbrev TokenSource (σ : Type) := Signature → ExceptT Failure (StateM σ) Token

/-- The bytes of an instruction. -/
def encodeInstruction (tokenOf : TokenSource σ) (i : Instruction) :
    ExceptT Failure (StateM σ) (List UInt8) :=
  match i.operand with
  | .none => pure i.opcode.bytes
  | .slot index => pure (i.opcode.bytes ++ [index])
  | .type sig => do
    let token ← tokenOf sig
    pure (i.opcode.bytes ++ Bytes.ofUInt32 token.value)

/-- The bytes of a body. Tokens are asked for once per type operand, in the order of the code. -/
def encode (b : Body) (localSig : Token) (tokenOf : TokenSource σ) :
    ExceptT Failure (StateM σ) (List UInt8) := do
  let header ← liftExcept (b.header localSig)
  let code ← b.code.mapM (encodeInstruction tokenOf)
  pure (header ++ code.flatten)

end Body

end ClrImage
