/-!
# Binary floating-point words

The bit patterns of the two binary interchange formats, read as integers.

* `BinaryFormat`, `binary32`, `binary64`: the widths of the fields of a word.
* `BinaryFormat.classify`: the number that a word stands for.
* `BinaryFormat.sameNumber`: equality of numbers, which is not equality of words.
-/

namespace ClrImage.Decimal

/-- A word has a sign bit, an exponent field and a fraction field, from the top down. -/
structure BinaryFormat where
  exponentBits : Nat
  fractionBits : Nat
deriving DecidableEq, Repr

/-- Single precision. -/
def binary32 : BinaryFormat := ⟨8, 23⟩

/-- Double precision. -/
def binary64 : BinaryFormat := ⟨11, 52⟩

/-- A positive number `mantissa * 2 ^ exponent`. The gap to the next smaller number is half the gap
to the next larger one when `narrowBelow` holds. -/
structure Scaled where
  mantissa : Nat
  exponent : Int
  narrowBelow : Bool
deriving DecidableEq, Repr

/-- What a word stands for, apart from the sign. -/
inductive Magnitude
  | zero
  | finite (value : Scaled)
  | infinite
  | nan
deriving DecidableEq, Repr

namespace BinaryFormat

variable (f : BinaryFormat)

def fraction (word : Nat) : Nat := word % Nat.pow 2 f.fractionBits

def exponentField (word : Nat) : Nat :=
  word / Nat.pow 2 f.fractionBits % Nat.pow 2 f.exponentBits

/-- Whether the sign bit is set. -/
def isNegative (word : Nat) : Bool :=
  word / Nat.pow 2 (f.fractionBits + f.exponentBits) % 2 == 1

/-- The largest exponent field marks infinity and what is no number, the field zero the numbers
without a leading one. -/
def classify (word : Nat) : Magnitude :=
  let fraction := f.fraction word
  let field := f.exponentField word
  let bias : Int := Int.ofNat (Nat.pow 2 (f.exponentBits - 1)) - 1 + f.fractionBits
  if field = Nat.pow 2 f.exponentBits - 1 then
    if fraction = 0 then .infinite else .nan
  else if field = 0 then
    if fraction = 0 then .zero else .finite ⟨fraction, 1 - bias, false⟩
  else
    .finite ⟨Nat.pow 2 f.fractionBits + fraction, field - bias, fraction == 0 && field > 1⟩

/-- Two words stand for the same number: what is no number equals nothing, the two zeros are equal,
and any other number has one word. -/
def sameNumber (a b : Nat) : Bool :=
  match f.classify a, f.classify b with
  | .nan, _ | _, .nan => false
  | .zero, .zero => true
  | _, _ => a == b

end BinaryFormat

end ClrImage.Decimal
