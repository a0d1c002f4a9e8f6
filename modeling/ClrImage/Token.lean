import ClrImage.Bytes

/-!
# Metadata tokens

A token names a row of a metadata table: the table in the top byte, the row in the other three.

* `Token`, `Token.ofParts`, `Token.table`, `Token.row`: the 32-bit word and its two parts.
* `Token.text`, `Token.describe`: the short and the long written form.
-/

namespace ClrImage

/-- A table and a row of it, packed into one word. -/
structure Token where
  value : UInt32
deriving DecidableEq, Hashable, Repr, Inhabited

/-- Tokens are ordered as numbers: by table first, then by row. -/
instance : Ord Token := ⟨compareOn Token.value⟩

instance : Std.TransOrd Token := inferInstanceAs (Std.TransCmp (compareOn Token.value))

instance : Std.LawfulEqOrd Token where
  eq_of_compare {a b} h := by
    cases a
    cases b
    exact congrArg Token.mk (Std.LawfulEqOrd.eq_of_compare h)

/-! ## The tables that the library writes tokens for -/

namespace Table

def typeDef : UInt8 := 0x02
def field : UInt8 := 0x04
def methodDef : UInt8 := 0x06
def event : UInt8 := 0x14
def property : UInt8 := 0x17
def typeSpec : UInt8 := 0x1B
def genericParam : UInt8 := 0x2A

end Table

namespace Token

/-- The token of a row; only the lowest 24 bits of the row fit. -/
def ofParts (table : UInt8) (row : UInt32) : Token :=
  ⟨(table.toUInt32 <<< 24) ||| (row &&& 0x00FFFFFF)⟩

/-- The table, in the top byte. -/
def table (t : Token) : UInt8 := (t.value >>> 24).toUInt8

/-- The row, in the lowest three bytes. -/
def row (t : Token) : UInt32 := t.value &&& 0x00FFFFFF

theorem toNat_ofParts (table : UInt8) (row : UInt32) :
    (ofParts table row).value.toNat = table.toNat * 0x1000000 + row.toNat % 0x1000000 := by
  have htable : table.toNat <<< 24 % 0x100000000 = table.toNat <<< 24 := by
    have hlt := table.toNat_lt
    rw [Nat.shiftLeft_eq]
    omega
  have hrow : row.toNat &&& 0x00FFFFFF = row.toNat % 0x1000000 :=
    Nat.and_two_pow_sub_one_eq_mod _ 24
  simp only [ofParts, UInt32.toNat_or, UInt32.toNat_shiftLeft, UInt32.toNat_and,
    UInt8.toNat_toUInt32, UInt32.reduceToNat, Nat.reduceMod]
  rw [hrow, htable, ← Nat.shiftLeft_add_eq_or_of_lt (Nat.mod_lt _ (by decide)), Nat.shiftLeft_eq]

@[simp] theorem table_ofParts (table : UInt8) (row : UInt32) :
    (ofParts table row).table = table := by
  have hlt := table.toNat_lt
  apply UInt8.toNat.inj
  simp only [Token.table, UInt32.toNat_toUInt8, UInt32.toNat_shiftRight, toNat_ofParts,
    UInt32.reduceToNat, Nat.reduceMod, Nat.shiftRight_eq_div_pow]
  omega

theorem toNat_row_ofParts (table : UInt8) (row : UInt32) :
    (ofParts table row).row.toNat = row.toNat % 0x1000000 := by
  have hrow (n : Nat) : n &&& 0x00FFFFFF = n % 0x1000000 := Nat.and_two_pow_sub_one_eq_mod n 24
  simp only [Token.row, UInt32.toNat_and, UInt32.reduceToNat, hrow, toNat_ofParts]
  omega

/-- The null token is the zero word. -/
def isNull (t : Token) : Bool := t.value == 0

/-- Whether the token names a row of the given table. -/
def isIn (t : Token) (table : UInt8) : Bool := t.table == table

/-- Eight hexadecimal digits. -/
def text (t : Token) : String := "0x" ++ Text.hex 8 t.value.toNat

/-- The word together with its table and row. -/
def describe (t : Token) : String :=
  s!"Token({t.text}, table: 0x{Text.hex 2 t.table.toNat}, row: {t.row.toNat})"

end Token

end ClrImage
