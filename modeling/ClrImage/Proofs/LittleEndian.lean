import ClrImage.Bytes
import Mathlib.Algebra.Ring.Nat

/-!
# Reading little-endian bytes

Fixed-width integers are read back from the bytes that they are stored as. Readers take what they
need off the front and hand on the rest.

- `Bytes.toNat`: the number that bytes stand for.
- `Bytes.read`: takes a number of some width off the front.
- `toNat_ofNat`, `read_ofNat_append`: what has been written is read back, **whatever follows it**.
- `Numbers`: values that have a number each, with all numbers of a width in use. They are read from
  the bytes of their numbers **and from no others**, `Numbers.read_iff`.
- `signed`: two's complement.
- `words?`: the 16-bit words of some bytes.
-/

namespace ClrImage.Bytes

/-- The number that some bytes stand for, least significant byte first. -/
def toNat : List UInt8 → Nat
  | [] => 0
  | byte :: rest => byte.toNat + 0x100 * toNat rest

/-- Takes a number of `width` bytes off the front, if there are as many. -/
def read (width : Nat) (bytes : List UInt8) : Option (Nat × List UInt8) :=
  if bytes.length < width then none else some (toNat (bytes.take width), bytes.drop width)

theorem toNat_ofNat {width n : Nat} (h : n < 0x100 ^ width) : toNat (ofNat width n) = n := by
  induction width generalizing n with
  | zero =>
    rw [pow_zero] at h
    show 0 = n
    omega
  | succ width ih =>
    have hrest : n / 0x100 < 0x100 ^ width := by
      rw [pow_succ] at h
      omega
    show (UInt8.ofNat n).toNat + 0x100 * toNat (ofNat width (n / 0x100)) = n
    rw [ih hrest, UInt8.toNat_ofNat']
    omega

/-- What has been written is read back, and the rest is handed on. -/
theorem read_ofNat_append {width n : Nat} (h : n < 0x100 ^ width) (rest : List UInt8) :
    read width (ofNat width n ++ rest) = some (n, rest) := by
  have hlength : (ofNat width n).length = width := length_ofNat width n
  have hlong : ¬ (ofNat width n ++ rest).length < width := by
    rw [List.length_append]
    omega
  rw [read, if_neg hlong, List.take_left' hlength, List.drop_left' hlength, toNat_ofNat h]

theorem read_ofUInt16_append (word : UInt16) (rest : List UInt8) :
    read 2 (ofUInt16 word ++ rest) = some (word.toNat, rest) :=
  read_ofNat_append word.toNat_lt rest

theorem read_ofUInt32_append (word : UInt32) (rest : List UInt8) :
    read 4 (ofUInt32 word ++ rest) = some (word.toNat, rest) :=
  read_ofNat_append word.toNat_lt rest

theorem toNat_lt (bytes : List UInt8) : toNat bytes < 0x100 ^ bytes.length := by
  induction bytes with
  | nil => exact Nat.one_pos
  | cons byte bytes ih =>
    have hbyte : byte.toNat < 0x100 := byte.toNat_lt
    rw [toNat, List.length_cons, pow_succ]
    omega

/-- Bytes are those of the number that they stand for. -/
theorem ofNat_toNat (bytes : List UInt8) : ofNat bytes.length (toNat bytes) = bytes := by
  induction bytes with
  | nil => rfl
  | cons byte bytes ih =>
    have hbyte : byte.toNat < 0x100 := byte.toNat_lt
    have hfirst : UInt8.ofNat (byte.toNat + 0x100 * toNat bytes) = byte := by
      apply UInt8.toNat_inj.mp
      rw [UInt8.toNat_ofNat']
      omega
    have hrest : (byte.toNat + 0x100 * toNat bytes) / 0x100 = toNat bytes := by omega
    rw [toNat, List.length_cons, ofNat, hfirst, hrest, ih]

/-! ## Numbers that stand for values -/

/-- The number that `width` bytes stand for, if there are as many. -/
def number? (width : Nat) (bytes : List UInt8) : Option Nat :=
  if bytes.length = width then some (toNat bytes) else none

/-- A number is read from the bytes that it is written in, and from no others. -/
theorem number?_eq_some_iff {width n : Nat} {bytes : List UInt8} :
    number? width bytes = some n ↔ n < 0x100 ^ width ∧ ofNat width n = bytes := by
  unfold number?
  constructor
  · intro h
    split at h
    next hlength =>
      subst hlength
      obtain rfl := Option.some.inj h
      exact ⟨toNat_lt bytes, ofNat_toNat bytes⟩
    next => cases h
  · rintro ⟨hlt, rfl⟩
    rw [if_pos (length_ofNat width n), toNat_ofNat hlt]

/-- Each value has a number of `width` bytes, and each of these numbers is that of a value. -/
structure Numbers {α : Type} (width : Nat) (number : α → Nat) (value : Nat → α) : Prop where
  number_lt : ∀ a, number a < 0x100 ^ width
  value_number : ∀ a, value (number a) = a
  number_value : ∀ n < 0x100 ^ width, number (value n) = n

/-- A value is read from the bytes of its number, and from no others. -/
theorem Numbers.read_iff {α : Type} {width : Nat} {number : α → Nat} {value : Nat → α}
    (h : Numbers width number value) {bytes : List UInt8} {a : α} :
    (number? width bytes).map value = some a ↔ ofNat width (number a) = bytes := by
  rw [Option.map_eq_some_iff]
  constructor
  · rintro ⟨n, hn, rfl⟩
    obtain ⟨hlt, hbytes⟩ := number?_eq_some_iff.mp hn
    rw [h.number_value n hlt, hbytes]
  · intro hbytes
    exact ⟨number a, number?_eq_some_iff.mpr ⟨h.number_lt a, hbytes⟩, h.value_number a⟩

/-- Values in a wrapper have the numbers that they have without it. -/
theorem Numbers.wrap {α β : Type} {width : Nat} {number : α → Nat} {value : Nat → α}
    (h : Numbers width number value) (wrap : α → β) (unwrap : β → α)
    (hwrap : ∀ b, wrap (unwrap b) = b) (hunwrap : ∀ a, unwrap (wrap a) = a) :
    Numbers width (number ∘ unwrap) (wrap ∘ value) where
  number_lt b := h.number_lt (unwrap b)
  value_number b := by
    show wrap (value (number (unwrap b))) = b
    rw [h.value_number, hwrap]
  number_value n hn := by
    show number (unwrap (wrap (value n))) = n
    rw [hunwrap, h.number_value n hn]

theorem numbers_uint8 : Numbers 1 UInt8.toNat UInt8.ofNat :=
  ⟨UInt8.toNat_lt, fun _ => UInt8.ofNat_toNat, fun _ => UInt8.toNat_ofNat_of_lt'⟩

theorem numbers_uint16 : Numbers 2 UInt16.toNat UInt16.ofNat :=
  ⟨UInt16.toNat_lt, fun _ => UInt16.ofNat_toNat, fun _ => UInt16.toNat_ofNat_of_lt'⟩

theorem numbers_uint32 : Numbers 4 UInt32.toNat UInt32.ofNat :=
  ⟨UInt32.toNat_lt, fun _ => UInt32.ofNat_toNat, fun _ => UInt32.toNat_ofNat_of_lt'⟩

theorem numbers_uint64 : Numbers 8 UInt64.toNat UInt64.ofNat :=
  ⟨UInt64.toNat_lt, fun _ => UInt64.ofNat_toNat, fun _ => UInt64.toNat_ofNat_of_lt'⟩

/-! ## Two's complement -/

/-- The integer that a number of `width` bytes stands for in two's complement. -/
def signed (width n : Nat) : Int :=
  if 2 * n < 0x100 ^ width then n else n - (0x100 ^ width : Nat)

theorem two_pow_eight_mul (width : Nat) : 2 ^ (8 * width) = 0x100 ^ width := pow_mul 2 8 width

theorem signed_toNat {width : Nat} (x : BitVec (8 * width)) : signed width x.toNat = x.toInt := by
  rw [BitVec.toInt_eq_toNat_cond, two_pow_eight_mul, signed]

theorem toNat_ofInt_signed {width n : Nat} (h : n < 0x100 ^ width) :
    (BitVec.ofInt (8 * width) (signed width n)).toNat = n := by
  have hmod : signed width n % ((0x100 ^ width : Nat) : Int) = n := by
    have hlt : (n : Int) < ((0x100 ^ width : Nat) : Int) := Int.ofNat_lt.mpr h
    unfold signed
    split
    · exact Int.emod_eq_of_lt (Int.natCast_nonneg n) hlt
    · rw [Int.sub_emod_right]
      exact Int.emod_eq_of_lt (Int.natCast_nonneg n) hlt
  rw [BitVec.toNat_ofInt, two_pow_eight_mul, hmod, Int.toNat_natCast]

/-- The words of `width` bytes as integers. -/
theorem numbers_signed (width : Nat) :
    Numbers width (fun x : BitVec (8 * width) => x.toNat)
      fun n => BitVec.ofInt (8 * width) (signed width n) where
  number_lt x := two_pow_eight_mul width ▸ x.isLt
  value_number x := by rw [signed_toNat, BitVec.ofInt_toInt]
  number_value _ hn := toNat_ofInt_signed hn

theorem numbers_int8 : Numbers 1 (fun v : Int8 => v.toUInt8.toNat) (Int8.ofInt ∘ signed 1) :=
  (numbers_signed 1).wrap Int8.ofBitVec Int8.toBitVec (fun _ => rfl) fun _ => rfl

theorem numbers_int16 : Numbers 2 (fun v : Int16 => v.toUInt16.toNat) (Int16.ofInt ∘ signed 2) :=
  (numbers_signed 2).wrap Int16.ofBitVec Int16.toBitVec (fun _ => rfl) fun _ => rfl

theorem numbers_int32 : Numbers 4 (fun v : Int32 => v.toUInt32.toNat) (Int32.ofInt ∘ signed 4) :=
  (numbers_signed 4).wrap Int32.ofBitVec Int32.toBitVec (fun _ => rfl) fun _ => rfl

theorem numbers_int64 : Numbers 8 (fun v : Int64 => v.toUInt64.toNat) (Int64.ofInt ∘ signed 8) :=
  (numbers_signed 8).wrap Int64.ofBitVec Int64.toBitVec (fun _ => rfl) fun _ => rfl

/-! ## Words -/

/-- The 16-bit words of some bytes, if none is left over. -/
def words? : List UInt8 → Option (List UInt16)
  | [] => some []
  | [_] => none
  | low :: high :: rest => (words? rest).map (UInt16.ofNat (toNat [low, high]) :: ·)

/-- Words are read from the bytes that they are written in, and from no others. -/
theorem words?_eq_some_iff {bytes : List UInt8} {words : List UInt16} :
    words? bytes = some words ↔ words.flatMap ofUInt16 = bytes := by
  constructor
  · intro h
    induction bytes using words?.induct generalizing words with
    | case1 =>
      obtain rfl := Option.some.inj h
      rfl
    | case2 => cases h
    | case3 low high rest ih =>
      obtain ⟨words, hwords, rfl⟩ := Option.map_eq_some_iff.mp h
      have hword : (UInt16.ofNat (toNat [low, high])).toNat = toNat [low, high] :=
        numbers_uint16.number_value _ (toNat_lt [low, high])
      rw [List.flatMap_cons, ih hwords, ofUInt16, hword]
      exact congrArg (· ++ rest) (ofNat_toNat [low, high])
  · rintro rfl
    induction words with
    | nil => rfl
    | cons word words ih =>
      have hword : toNat (ofUInt16 word) = word.toNat := toNat_ofNat word.toNat_lt
      show (words? (words.flatMap ofUInt16)).map (UInt16.ofNat (toNat (ofUInt16 word)) :: ·) = _
      rw [ih, hword, UInt16.ofNat_toNat, Option.map_some]

end ClrImage.Bytes
