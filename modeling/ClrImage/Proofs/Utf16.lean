import ClrImage.Bytes

/-!
# Reading UTF-16

Characters are read back from their code units. A high surrogate and a low one behind it stand for
one character; on their own they stand for none.

- `Text.chars?`: the characters of some code units.
- `chars?_eq_some_iff`: characters are read from the units that they are written in, **and from no
  others**.
- `Text.units`, `length_utf16`: the number of code units of a string.
-/

namespace ClrImage.Text

/-! ## Single characters -/

/-- The character with a code point. Surrogates have none. -/
def charOf? (n : Nat) : Option Char :=
  if n.isValidChar then some (Char.ofNat n) else none

theorem charOf?_eq_some_iff {n : Nat} {c : Char} : charOf? n = some c ↔ c.toNat = n := by
  unfold charOf?
  split
  next h =>
    rw [Option.some.injEq]
    constructor
    · rintro rfl
      rw [Char.ofNat, dif_pos h]
      rfl
    · rintro rfl
      exact c.ofNat_toNat
  next h =>
    refine iff_of_false (by simp) fun hc => h ?_
    rw [← hc]
    exact c.valid

/-- Whether a code unit is the first one of a surrogate pair. -/
def isHigh (unit : UInt16) : Bool := 0xD800 ≤ unit.toNat && unit.toNat < 0xDC00

/-- Whether a code unit is the second one of a surrogate pair. -/
def isLow (unit : UInt16) : Bool := 0xDC00 ≤ unit.toNat && unit.toNat < 0xE000

/-- The code point that a surrogate pair stands for. -/
def codePoint (high low : UInt16) : Nat :=
  0x10000 + (high.toNat - 0xD800) * 0x400 + (low.toNat - 0xDC00)

theorem exists_toNat_eq {n : Nat} (h : n < 0x10000) : ∃ unit : UInt16, unit.toNat = n :=
  ⟨UInt16.ofNat n, UInt16.toNat_ofNat_of_lt' h⟩

section Units

variable {c : Char}

theorem utf16OfChar_of_unit {unit : UInt16} (h : c.toNat = unit.toNat) :
    utf16OfChar c = [unit] := by
  have hlt : c.toNat < 0x10000 := h ▸ unit.toNat_lt
  rw [utf16OfChar, if_pos hlt, h, UInt16.ofNat_toNat]

theorem utf16OfChar_of_pair {high low : UInt16} (hpair : (isHigh high && isLow low) = true)
    (h : c.toNat = codePoint high low) : utf16OfChar c = [high, low] := by
  simp only [isHigh, isLow, Bool.and_eq_true, decide_eq_true_eq] at hpair
  unfold codePoint at h
  have hfirst : 0xD800 + (c.toNat - 0x10000) / 0x400 = high.toNat := by omega
  have hsecond : 0xDC00 + (c.toNat - 0x10000) % 0x400 = low.toNat := by omega
  rw [utf16OfChar, if_neg (by omega)]
  dsimp only
  rw [hfirst, hsecond, UInt16.ofNat_toNat, UInt16.ofNat_toNat]

/-- The unit of a character of the basic plane is not a surrogate. -/
theorem exists_unit (hc : c.toNat < 0x10000) :
    ∃ unit, c.toNat = unit.toNat ∧ isHigh unit = false := by
  have hvalid : c.toNat < 0xD800 ∨ 0xDFFF < c.toNat ∧ c.toNat < 0x110000 := c.valid
  obtain ⟨unit, hunit⟩ := exists_toNat_eq hc
  refine ⟨unit, hunit.symm, ?_⟩
  rw [isHigh, hunit, Bool.and_eq_false_iff, decide_eq_false_iff_not, decide_eq_false_iff_not]
  omega

/-- Every other character has a surrogate pair. -/
theorem exists_pair (hc : 0x10000 ≤ c.toNat) :
    ∃ high low, c.toNat = codePoint high low ∧ (isHigh high && isLow low) = true := by
  have hvalid : c.toNat < 0xD800 ∨ 0xDFFF < c.toNat ∧ c.toNat < 0x110000 := c.valid
  obtain ⟨high, hhigh⟩ :=
    exists_toNat_eq (n := 0xD800 + (c.toNat - 0x10000) / 0x400) (by omega)
  obtain ⟨low, hlow⟩ := exists_toNat_eq (n := 0xDC00 + (c.toNat - 0x10000) % 0x400) (by omega)
  have hcode : c.toNat = codePoint high low := by
    unfold codePoint
    omega
  have hpair : (isHigh high && isLow low) = true := by
    simp only [isHigh, isLow, Bool.and_eq_true, decide_eq_true_eq]
    omega
  exact ⟨high, low, hcode, hpair⟩

end Units

/-! ## Sequences -/

/-- The characters of some code units. Surrogates must come in pairs. -/
def chars? : List UInt16 → Option (List Char)
  | [] => some []
  | [unit] => (charOf? unit.toNat).map ([·])
  | unit :: next :: rest =>
    if isHigh unit && isLow next then do
      let c ← charOf? (codePoint unit next)
      let cs ← chars? rest
      return c :: cs
    else do
      let c ← charOf? unit.toNat
      let cs ← chars? (next :: rest)
      return c :: cs

/-- Characters are written in the units that they are read from. -/
theorem flatMap_utf16OfChar_of_chars? {units : List UInt16} {cs : List Char}
    (h : chars? units = some cs) : cs.flatMap utf16OfChar = units := by
  induction units using chars?.induct generalizing cs with
  | case1 =>
    obtain rfl := Option.some.inj h
    rfl
  | case2 unit =>
    obtain ⟨c, hc, rfl⟩ := Option.map_eq_some_iff.mp h
    rw [List.flatMap_singleton, utf16OfChar_of_unit (charOf?_eq_some_iff.mp hc)]
  | case3 high low rest hpair ih =>
    rw [chars?, if_pos hpair] at h
    obtain ⟨c, hc, h⟩ := Option.bind_eq_some_iff.mp h
    obtain ⟨cs, hcs, h⟩ := Option.bind_eq_some_iff.mp h
    obtain rfl := Option.some.inj h
    rw [List.flatMap_cons, utf16OfChar_of_pair hpair (charOf?_eq_some_iff.mp hc), ih hcs]
    rfl
  | case4 unit next rest hpair ih =>
    rw [chars?, if_neg hpair] at h
    obtain ⟨c, hc, h⟩ := Option.bind_eq_some_iff.mp h
    obtain ⟨cs, hcs, h⟩ := Option.bind_eq_some_iff.mp h
    obtain rfl := Option.some.inj h
    rw [List.flatMap_cons, utf16OfChar_of_unit (charOf?_eq_some_iff.mp hc), ih hcs]
    rfl

/-- A character is read from the front, whatever follows it. -/
theorem chars?_append (c : Char) (rest : List UInt16) :
    chars? (utf16OfChar c ++ rest) = (chars? rest).map (c :: ·) := by
  rcases Nat.lt_or_ge c.toNat 0x10000 with hc | hc
  · obtain ⟨unit, hunit, hhigh⟩ := exists_unit hc
    rw [utf16OfChar_of_unit hunit, List.singleton_append]
    cases rest with
    | nil =>
      show (charOf? unit.toNat).map ([·]) = _
      rw [charOf?_eq_some_iff.mpr hunit]
      rfl
    | cons next rest =>
      rw [chars?, hhigh, Bool.false_and, if_neg Bool.false_ne_true, charOf?_eq_some_iff.mpr hunit]
      cases chars? (next :: rest) <;> rfl
  · obtain ⟨high, low, hcode, hpair⟩ := exists_pair hc
    rw [utf16OfChar_of_pair hpair hcode, List.cons_append, List.singleton_append, chars?,
      if_pos hpair, charOf?_eq_some_iff.mpr hcode]
    cases chars? rest <;> rfl

/-- Characters are read from the units that they are written in, and from no others. -/
theorem chars?_eq_some_iff {units : List UInt16} {cs : List Char} :
    chars? units = some cs ↔ cs.flatMap utf16OfChar = units := by
  refine ⟨flatMap_utf16OfChar_of_chars?, ?_⟩
  rintro rfl
  induction cs with
  | nil => rfl
  | cons c cs ih => rw [List.flatMap_cons, chars?_append, ih, Option.map_some]

/-! ## Numbers of units -/

/-- The number of code units of a string: two for each character from `0x10000` on, and one for each
other character. -/
def units (text : String) : Nat :=
  text.toList.length + text.toList.countP (0x10000 ≤ ·.toNat)

theorem length_utf16OfChar (c : Char) :
    (utf16OfChar c).length = 1 + if 0x10000 ≤ c.toNat then 1 else 0 := by
  unfold utf16OfChar
  split
  next h => rw [if_neg (Nat.not_le.mpr h)]; rfl
  next h => rw [if_pos (Nat.le_of_not_lt h)]; rfl

theorem length_utf16 (text : String) : (utf16 text).length = units text := by
  unfold utf16 units
  induction text.toList with
  | nil => rfl
  | cons c cs ih =>
    simp only [List.flatMap_cons, List.length_append, ih, length_utf16OfChar, List.length_cons,
      List.countP_cons, decide_eq_true_eq]
    omega

end ClrImage.Text
