import ClrImage.Constant
import ClrImage.Proofs.LittleEndian
import ClrImage.Proofs.Utf16

/-!
# Reading constants

The stored bytes of a constant are read by its element type. Nothing else says which value they are.

- `Datum.ofBlob?`: the value of some bytes under an element type.
- `Datum.ofBlob?_eq_some_iff`: a value is read from its own bytes **and from no others**.
- `constants_readable`: every constant is read back, so that no two values of an element type have
  the same bytes.
- `blob_width_iff`: the bytes have the width of the element type, **but for characters that do not
  fit into one code unit**.
-/

namespace ClrImage

/-! ## Parts of blobs -/

/-- The element of a list that has just one. -/
def single? {α : Type} : List α → Option α
  | [a] => some a
  | _ => none

theorem single?_eq_some_iff {α : Type} {l : List α} {a : α} : single? l = some a ↔ [a] = l := by
  constructor
  · intro h
    unfold single? at h
    split at h
    next b =>
      obtain rfl := Option.some.inj h
      rfl
    next => cases h
  · rintro rfl
    rfl

namespace Bytes

/-- The truth value in a byte. -/
def truth? : List UInt8 → Option Bool
  | [0] => some false
  | [1] => some true
  | _ => none

theorem truth?_eq_some_iff {bytes : List UInt8} {b : Bool} :
    truth? bytes = some b ↔ [if b then 1 else 0] = bytes := by
  constructor
  · intro h
    unfold truth? at h
    split at h
    next =>
      obtain rfl := Option.some.inj h
      rfl
    next =>
      obtain rfl := Option.some.inj h
      rfl
    next => cases h
  · rintro rfl
    cases b <;> rfl

/-- The characters of some bytes in UTF-16. -/
def chars? (bytes : List UInt8) : Option (List Char) := (words? bytes).bind Text.chars?

theorem chars?_eq_some_iff {bytes : List UInt8} {cs : List Char} :
    chars? bytes = some cs ↔ (cs.flatMap Text.utf16OfChar).flatMap ofUInt16 = bytes := by
  unfold chars?
  rw [Option.bind_eq_some_iff]
  constructor
  · rintro ⟨words, hwords, hcs⟩
    rw [Text.chars?_eq_some_iff.mp hcs, words?_eq_some_iff.mp hwords]
  · intro hbytes
    exact ⟨_, words?_eq_some_iff.mpr hbytes, Text.chars?_eq_some_iff.mpr rfl⟩

theorem ofNat_one_toNat (byte : UInt8) : ofNat 1 byte.toNat = [byte] := by
  rw [ofNat, ofNat, UInt8.ofNat_toNat]

end Bytes

/-! ## Values of blobs -/

namespace Datum

open Bytes

/-- The value that some bytes have under an element type. -/
def ofBlob? (elementType : UInt8) (bytes : List UInt8) : Option Datum :=
  match elementType with
  | 0x02 => (truth? bytes).map boolean
  | 0x03 => ((chars? bytes).bind single?).map char
  | 0x04 => ((number? 1 bytes).map (Int8.ofInt ∘ signed 1)).map i1
  | 0x05 => ((number? 1 bytes).map UInt8.ofNat).map u1
  | 0x06 => ((number? 2 bytes).map (Int16.ofInt ∘ signed 2)).map i2
  | 0x07 => ((number? 2 bytes).map UInt16.ofNat).map u2
  | 0x08 => ((number? 4 bytes).map (Int32.ofInt ∘ signed 4)).map i4
  | 0x09 => ((number? 4 bytes).map UInt32.ofNat).map u4
  | 0x0a => ((number? 8 bytes).map (Int64.ofInt ∘ signed 8)).map i8
  | 0x0b => ((number? 8 bytes).map UInt64.ofNat).map u8
  | 0x0c => ((number? 4 bytes).map UInt32.ofNat).map r4
  | 0x0d => ((number? 8 bytes).map UInt64.ofNat).map r8
  | 0x0e => (chars? bytes).map fun cs => string (.ofList cs)
  | 0x12 => if bytes = [0, 0, 0, 0] then some null else none
  | _ => none

variable {e : UInt8} {bytes : List UInt8} {d : Datum}

theorem of_map {α : Type} {value : Option α} {make : α → Datum}
    (h : value.map make = some d)
    (hmake : ∀ a, value = some a → (make a).elementType = e ∧ (make a).blob = bytes) :
    d.elementType = e ∧ d.blob = bytes := by
  obtain ⟨a, ha, rfl⟩ := Option.map_eq_some_iff.mp h
  exact hmake a ha

theorem bind_single?_eq_some_iff {c : Char} :
    (chars? bytes).bind single? = some c ↔ (char c).blob = bytes := by
  rw [Option.bind_eq_some_iff]
  constructor
  · rintro ⟨cs, hcs, hc⟩
    obtain rfl := single?_eq_some_iff.mp hc
    rw [← chars?_eq_some_iff.mp hcs, List.flatMap_singleton]
    rfl
  · intro h
    refine ⟨[c], chars?_eq_some_iff.mpr ?_, rfl⟩
    rw [List.flatMap_singleton]
    exact h

/-- What is read under an element type has this type, and the bytes that it is read from. -/
theorem of_ofBlob? (h : ofBlob? e bytes = some d) : d.elementType = e ∧ d.blob = bytes := by
  unfold ofBlob? at h
  split at h
  -- one case for each element type of the table, in its order
  · exact of_map h fun _ hv => ⟨rfl, truth?_eq_some_iff.mp hv⟩
  · exact of_map h fun _ hv => ⟨rfl, bind_single?_eq_some_iff.mp hv⟩
  · exact of_map h fun v hv =>
      ⟨rfl, (ofNat_one_toNat v.toUInt8).symm.trans (numbers_int8.read_iff.mp hv)⟩
  · exact of_map h fun v hv => ⟨rfl, (ofNat_one_toNat v).symm.trans (numbers_uint8.read_iff.mp hv)⟩
  · exact of_map h fun _ hv => ⟨rfl, numbers_int16.read_iff.mp hv⟩
  · exact of_map h fun _ hv => ⟨rfl, numbers_uint16.read_iff.mp hv⟩
  · exact of_map h fun _ hv => ⟨rfl, numbers_int32.read_iff.mp hv⟩
  · exact of_map h fun _ hv => ⟨rfl, numbers_uint32.read_iff.mp hv⟩
  · exact of_map h fun _ hv => ⟨rfl, numbers_int64.read_iff.mp hv⟩
  · exact of_map h fun _ hv => ⟨rfl, numbers_uint64.read_iff.mp hv⟩
  · exact of_map h fun _ hv => ⟨rfl, numbers_uint32.read_iff.mp hv⟩
  · exact of_map h fun _ hv => ⟨rfl, numbers_uint64.read_iff.mp hv⟩
  · refine of_map h fun cs hcs => ⟨rfl, ?_⟩
    rw [← chars?_eq_some_iff.mp hcs, blob, Text.utf16, String.toList_ofList]
  · split at h
    next hbytes =>
      obtain rfl := Option.some.inj h
      exact ⟨rfl, hbytes.symm⟩
    next => cases h
  · cases h

/-- A value is read from its bytes under its element type. -/
theorem ofBlob?_blob (d : Datum) : ofBlob? d.elementType d.blob = some d := by
  have hmap {α : Type} {value : Option α} {make : α → Datum} {a : α} (h : value = some a) :
      value.map make = some (make a) := congrArg (Option.map make) h
  cases d with
  | null => rfl
  | boolean b => exact hmap (truth?_eq_some_iff.mpr rfl)
  | char c => exact hmap (bind_single?_eq_some_iff.mpr rfl)
  | i1 v => exact hmap (numbers_int8.read_iff.mpr (ofNat_one_toNat v.toUInt8))
  | u1 v => exact hmap (numbers_uint8.read_iff.mpr (ofNat_one_toNat v))
  | i2 v => exact hmap (numbers_int16.read_iff.mpr rfl)
  | u2 v => exact hmap (numbers_uint16.read_iff.mpr rfl)
  | i4 v => exact hmap (numbers_int32.read_iff.mpr rfl)
  | u4 v => exact hmap (numbers_uint32.read_iff.mpr rfl)
  | i8 v => exact hmap (numbers_int64.read_iff.mpr rfl)
  | u8 v => exact hmap (numbers_uint64.read_iff.mpr rfl)
  | r4 w => exact hmap (numbers_uint32.read_iff.mpr rfl)
  | r8 w => exact hmap (numbers_uint64.read_iff.mpr rfl)
  | string s =>
    have hs : chars? (string s).blob = some s.toList := chars?_eq_some_iff.mpr rfl
    show (chars? (string s).blob).map _ = _
    rw [hs, Option.map_some, String.ofList_toList]

/-- A value is read from its own bytes and from no others. -/
theorem ofBlob?_eq_some_iff : ofBlob? e bytes = some d ↔ d.elementType = e ∧ d.blob = bytes := by
  refine ⟨of_ofBlob?, ?_⟩
  rintro ⟨rfl, rfl⟩
  exact ofBlob?_blob d

end Datum

/-- **Constants can be read back.** From the bytes of a constant, its element type makes its value
again, floats word by word, and a value is read from the bytes of its own constant only. So two
values that have the same bytes under the same element type are equal. -/
theorem constants_readable (d : Datum) :
    Datum.ofBlob? d.constant.elementType d.constant.blob = some d ∧
      (∀ e bytes, Datum.ofBlob? e bytes = some d ↔
        d.constant.elementType = e ∧ d.constant.blob = bytes) ∧
      ∀ d' : Datum, d'.constant.elementType = d.constant.elementType →
        d'.constant.blob = d.constant.blob → d' = d := by
  refine ⟨d.ofBlob?_blob, fun e bytes => Datum.ofBlob?_eq_some_iff, fun d' htype hblob => ?_⟩
  have hread : Datum.ofBlob? d.elementType d.blob = some d' :=
    Datum.ofBlob?_eq_some_iff.mpr ⟨htype, hblob⟩
  exact Option.some.inj (hread.symm.trans d.ofBlob?_blob)

/-! ## Widths -/

/-- The width of the values of an element type, if it is the same for all of them. -/
def ElementType.width? (e : UInt8) : Option Nat :=
  if e ∈ [boolean, i1, u1] then some 1
  else if e ∈ [char, i2, u2] then some 2
  else if e ∈ [i4, u4, r4, reference] then some 4
  else if e ∈ [i8, u8, r8] then some 8
  else none

namespace Datum

/-- The width of a value by its element type. Strings are as wide as their code units. -/
def width? : Datum → Option Nat
  | string s => some (2 * Text.units s)
  | d => ElementType.width? d.elementType

theorem length_flatMap_ofUInt16 (units : List UInt16) :
    (units.flatMap Bytes.ofUInt16).length = 2 * units.length := by
  induction units with
  | nil => rfl
  | cons unit units ih =>
    have hunit : (Bytes.ofUInt16 unit).length = 2 := Bytes.length_ofNat 2 unit.toNat
    rw [List.flatMap_cons, List.length_append, hunit, ih, List.length_cons]
    omega

/-- A character has two bytes for each of its code units. -/
theorem length_blob_char (c : Char) :
    (char c).blob.length = if c.toNat < 0x10000 then 2 else 4 := by
  rw [blob, length_flatMap_ofUInt16, Text.length_utf16OfChar]
  split <;> split <;> omega

/-- Values have the width of their element type, as long as characters have a single code unit. -/
theorem width?_eq_length (d : Datum) (h : ∀ c, d = char c → c.toNat < 0x10000) :
    d.width? = some d.blob.length := by
  cases d with
  | char c =>
    rw [length_blob_char, if_pos (h c rfl)]
    rfl
  | string s => rw [width?, blob, length_flatMap_ofUInt16, Text.length_utf16]
  | _ => rfl

end Datum

/-- **A constant has the width of its element type, but for characters of two code units.** The
bytes of a constant are as many as its element type says, exactly if it is no character from
`0x10000` on. Such a character has four bytes, under an element type for two. -/
theorem blob_width_iff (d : Datum) :
    (d.width? = some d.constant.blob.length ↔ ∀ c, d = .char c → c.toNat < 0x10000) ∧
      ∀ c, d = .char c → 0x10000 ≤ c.toNat →
        d.width? = some 2 ∧ d.constant.blob.length = 4 := by
  have hwide (c : Char) (hc : 0x10000 ≤ c.toNat) : (Datum.char c).constant.blob.length = 4 := by
    show (Datum.char c).blob.length = 4
    rw [Datum.length_blob_char, if_neg (Nat.not_lt.mpr hc)]
  refine ⟨⟨?_, d.width?_eq_length⟩, ?_⟩
  · rintro hwidth c rfl
    by_contra hc
    rw [hwide c (Nat.le_of_not_lt hc)] at hwidth
    exact absurd hwidth (by decide : some 2 ≠ some 4)
  · rintro c rfl hc
    exact ⟨rfl, hwide c hc⟩

/-- A character outside the basic plane has twice the bytes of its element type. -/
theorem blob_width_iff_supplementary :
    (Datum.char '😀').constant.elementType = ElementType.char ∧
      (Datum.char '😀').width? = some 2 ∧ (Datum.char '😀').constant.blob.length = 4 ∧
      (Datum.char '😀').width? ≠ some (Datum.char '😀').constant.blob.length := by
  obtain ⟨hiff, hwide⟩ := blob_width_iff (.char '😀')
  obtain ⟨hwidth, hlength⟩ := hwide '😀' rfl (by decide)
  exact ⟨rfl, hwidth, hlength, fun h => absurd (hiff.mp h '😀' rfl) (by decide)⟩

end ClrImage
