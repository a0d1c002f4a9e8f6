import ClrImage.Proofs.Causes
import ClrImage.Proofs.Checks

/-!
# Texts of references

The text of a reference is unique to it. It is read from its end: the last letter tells how the
reference is built, and names and numbers, which have no mark of their own, reach back to the blank
or the bracket that they stand behind.

- `natOfHex?_hex`: hexadecimal numbers are read back, whatever their padding.
- `RefAtom.text_injective`: an atom is known by its text.
- `TypeExpr.inductionOn`: induction over a type with all arguments of an instantiation at once.
- `TypeRef.letters_unique`: where a text ends with that of a reference, it ends with that of no
  other, and so `TypeRef.text_inj`.
- `reference_texts_identify`: a text belongs to **one** reference, so that a failure to resolve
  tells which part of a reference it is about.
-/

namespace ClrImage

/-! ## Numbers -/

namespace Text

theorem hexDigit?_digitChar {d : Nat} (h : d < 16) : hexDigit? d.digitChar = some d := by
  have hall : ∀ d : Fin 16, hexDigit? (Nat.digitChar d) = some d.val := by decide
  exact hall ⟨d, h⟩

theorem toDigits_ten_injective {n m : Nat} (h : Nat.toDigits 10 n = Nat.toDigits 10 m) : n = m := by
  rw [← Nat.ofDigitChars_ten_toDigits (n := n), h, Nat.ofDigitChars_ten_toDigits]

/-- Reads one digit behind those that have been read. -/
def readHexDigit (n : Nat) (c : Char) : Option Nat := (hexDigit? c).map (16 * n + ·)

theorem foldlM_toDigits (n : Nat) : (Nat.toDigits 16 n).foldlM readHexDigit 0 = some n := by
  induction n using Nat.strongRecOn with
  | ind n ih =>
    rw [Nat.toDigits_eq_if (by decide)]
    split
    next hsmall => simp [readHexDigit, hexDigit?_digitChar hsmall]
    next hlarge =>
      have hrest : n / 16 < n := by omega
      have hlast : n % 16 < 16 := by omega
      have hsplit : 16 * (n / 16) + n % 16 = n := by omega
      simp [ih _ hrest, readHexDigit, hexDigit?_digitChar hlast, hsplit]

/-- Hexadecimal numbers are read back: the zeros in front say nothing. -/
theorem natOfHex?_hex (width n : Nat) : natOfHex? (hex width n) = some n := by
  have hzeros (count : Nat) : (List.replicate count '0').foldlM readHexDigit 0 = some 0 := by
    induction count with
    | zero => rfl
    | succ count ih =>
      rw [List.replicate_succ, List.foldlM_cons]
      exact ih
  show ((hex width n).toList).foldlM readHexDigit 0 = some n
  rw [hex, String.toList_ofList, List.foldlM_append, hzeros]
  exact foldlM_toDigits n

theorem hex_injective {width width' n m : Nat} (h : hex width n = hex width' m) : n = m :=
  Option.some.inj ((natOfHex?_hex width n).symm.trans (h ▸ natOfHex?_hex width' m))

end Text

theorem Token.text_injective {t t' : Token} (h : t.text = t'.text) : t = t' := by
  have hletters : "0x".toList ++ (Text.hex 8 t.value.toNat).toList =
      "0x".toList ++ (Text.hex 8 t'.value.toNat).toList := by
    rw [← String.toList_append, ← String.toList_append]
    exact congrArg String.toList h
  have hhex : Text.hex 8 t.value.toNat = Text.hex 8 t'.value.toNat :=
    String.toList_inj.mp (List.append_cancel_left hletters)
  cases t
  cases t'
  exact congrArg Token.mk (UInt32.toNat_inj.mp (Text.hex_injective hhex))

/-! ## Atoms -/

namespace Text

/-- The letters that show how a reference is built. -/
def isMark (c : Char) : Bool := c ∈ [' ', ',', '<', '>', '[', ']', '*', '&']

/-- A text without marks. -/
def Plain (cs : List Char) : Prop := ∀ c ∈ cs, isMark c = false

@[simp] theorem plain_nil : Plain [] := nofun

@[simp] theorem plain_cons {c : Char} {cs : List Char} :
    Plain (c :: cs) ↔ isMark c = false ∧ Plain cs :=
  List.forall_mem_cons

@[simp] theorem plain_append {cs cs' : List Char} : Plain (cs ++ cs') ↔ Plain cs ∧ Plain cs' :=
  List.forall_mem_append

theorem plain_replicate {c : Char} (hc : isMark c = false) (count : Nat) :
    Plain (List.replicate count c) := by
  intro x hx
  rw [(List.mem_replicate.mp hx).2]
  exact hc

theorem exists_digitChar {b n : Nat} (hb : 1 < b) {c : Char} (hc : c ∈ Nat.toDigits b n) :
    ∃ d < b, c = d.digitChar := by
  induction n using Nat.strongRecOn with
  | ind n ih =>
    rw [Nat.toDigits_eq_if hb] at hc
    split at hc
    next hsmall => exact ⟨n, hsmall, List.mem_singleton.mp hc⟩
    next hlarge =>
      rcases List.mem_append.mp hc with hc | hc
      · exact ih _ (Nat.div_lt_self (by omega) hb) hc
      · exact ⟨n % b, Nat.mod_lt _ (by omega), List.mem_singleton.mp hc⟩

theorem plain_toDigits {b : Nat} (hb : 1 < b) (hb' : b ≤ 16) (n : Nat) :
    Plain (Nat.toDigits b n) := by
  intro c hc
  obtain ⟨d, hd, rfl⟩ := exists_digitChar hb hc
  have hall : ∀ d : Fin 16, isMark (Nat.digitChar d) = false := by decide
  exact hall ⟨d, by omega⟩

end Text

theorem Primitive.fullName_injective {p p' : Primitive} (h : p.fullName = p'.fullName) :
    p = p' := by
  have hfind (p : Primitive) : list.find? (·.fullName == p.fullName) = some p := by
    cases p <;> decide
  exact Option.some.inj ((hfind p).symm.trans (h ▸ hfind p'))

namespace RefAtom

variable (token : Token) (index : UInt32)

theorem toList_text_typeDef : (typeDef token).text.toList =
    "TypeDef(".toList ++ token.text.toList ++ [')'] := by
  simp [text, toString]

theorem toList_text_var : (var index).text.toList = '!' :: Nat.toDigits 10 index.toNat := by
  simp [text, toString]

theorem toList_text_mvar :
    (mvar index).text.toList = '!' :: '!' :: Nat.toDigits 10 index.toNat := by
  simp [text, toString]

/-- The name of an atom has no marks. -/
theorem plain_text (a : RefAtom) : Text.Plain a.text.toList := by
  have hdigits (n : Nat) : Text.Plain (Nat.toDigits 10 n) :=
    Text.plain_toDigits (by decide) (by decide) n
  cases a with
  | primitive p => cases p <;> simp [text, Primitive.fullName, Text.isMark]
  | typeDef token =>
    have hhex : Text.Plain (Text.hex 8 token.value.toNat).toList := by
      rw [Text.hex, String.toList_ofList, Text.plain_append]
      exact ⟨Text.plain_replicate rfl _, Text.plain_toDigits (by decide) (by decide) _⟩
    simp [toList_text_typeDef, Token.text, hhex, Text.isMark]
  | var index => simp [toList_text_var, hdigits, Text.isMark]
  | mvar index => simp [toList_text_mvar, hdigits, Text.isMark]

theorem toList_text_ne_nil (a : RefAtom) : a.text.toList ≠ [] := by
  cases a with
  | primitive p => cases p <;> simp [text, Primitive.fullName]
  | typeDef token => simp [toList_text_typeDef]
  | var index => simp [toList_text_var]
  | mvar index => simp [toList_text_mvar]

/-- An atom is known by its text. -/
theorem text_injective {a a' : RefAtom} (h : a.text = a'.text) : a = a' := by
  have hletters := congrArg String.toList h
  have hname (p : Primitive) : (primitive p).text.toList.head? = some 'S' := by cases p <;> rfl
  have hindex {index index' : UInt32}
      (h : Nat.toDigits 10 index.toNat = Nat.toDigits 10 index'.toNat) : index = index' :=
    UInt32.toNat_inj.mp (Text.toDigits_ten_injective h)
  have hdigit {n : Nat} {cs : List Char} : Nat.toDigits 10 n ≠ '!' :: cs := by
    intro heq
    have hbang := Nat.isDigit_of_mem_toDigits (b := 10) (n := n) (c := '!') (by decide) (by decide)
      (heq ▸ List.mem_cons_self)
    exact absurd hbang (by decide)
  -- names, tokens and indices begin with different letters, and the two kinds of index are told
  -- apart by the letter behind the first mark
  have hfirst := congrArg List.head? hletters
  cases a with
  | primitive p =>
    cases a' with
    | primitive p' => exact congrArg primitive (Primitive.fullName_injective h)
    | typeDef | var | mvar =>
      simp [hname, toList_text_typeDef, toList_text_var, toList_text_mvar] at hfirst
  | typeDef token =>
    cases a' with
    | primitive | var | mvar =>
      simp [hname, toList_text_typeDef, toList_text_var, toList_text_mvar] at hfirst
    | typeDef token' =>
      rw [toList_text_typeDef, toList_text_typeDef, List.append_cancel_right_eq,
        List.append_cancel_left_eq] at hletters
      exact congrArg typeDef (Token.text_injective (String.toList_inj.mp hletters))
  | var index =>
    cases a' with
    | primitive | typeDef => simp [hname, toList_text_typeDef, toList_text_var] at hfirst
    | var index' =>
      rw [toList_text_var, toList_text_var] at hletters
      exact congrArg var (hindex (List.cons.inj hletters).2)
    | mvar index' =>
      rw [toList_text_var, toList_text_mvar] at hletters
      exact absurd (List.cons.inj hletters).2 hdigit
  | mvar index =>
    cases a' with
    | primitive | typeDef => simp [hname, toList_text_typeDef, toList_text_mvar] at hfirst
    | var index' =>
      rw [toList_text_mvar, toList_text_var] at hletters
      exact absurd (List.cons.inj hletters).2.symm hdigit
    | mvar index' =>
      rw [toList_text_mvar, toList_text_mvar] at hletters
      exact congrArg mvar (hindex (List.cons.inj (List.cons.inj hletters).2).2)

end RefAtom

/-! ## References -/

/-- Induction over a type, with all arguments of an instantiation at once. -/
@[elab_as_elim]
theorem TypeExpr.inductionOn {α : Type} {P : TypeExpr α → Prop} (e : TypeExpr α)
    (atom : ∀ a, P (.atom a)) (szArray : ∀ e, P e → P (.szArray e))
    (array : ∀ e rank, P e → P (.array e rank)) (pointer : ∀ e, P e → P (.pointer e))
    (byRef : ∀ e, P e → P (.byRef e))
    (inst : ∀ d args, P d → (∀ a ∈ args, P a) → P (.inst d args)) : P e :=
  @TypeExpr.rec α P (fun es => ∀ e ∈ es, P e) atom szArray array pointer byRef inst
    (List.forall_mem_nil P) (fun _ _ he hrest => List.forall_mem_cons.mpr ⟨he, hrest⟩) e

namespace Text

/-- Where a name or a number can begin: behind a blank or an opening bracket, or with nothing in
front. -/
def Begins (u : List Char) : Prop := ∀ c ∈ u.getLast?, c = ' ' ∨ c = '<'

theorem Begins.nil : Begins [] := by simp [Begins]

theorem Begins.blank (u : List Char) : Begins (u ++ [' ']) := by simp [Begins]

/-- A text without marks reaches back to where it can begin. -/
theorem Plain.split {u u' cs cs' : List Char} (hcs : Plain cs) (hcs' : Plain cs') (hu : Begins u)
    (hu' : Begins u') (h : u ++ cs = u' ++ cs') : u = u' ∧ cs = cs' := by
  -- what one of the two texts has more than the other is nothing, or else it would end where a
  -- name can begin
  have hnone {v m n : List Char} (hv : Begins (v ++ m)) (hm : Plain (m ++ n)) : m = [] := by
    induction m using List.reverseRecOn with
    | nil => rfl
    | append_singleton m c _ =>
      have hmark : isMark c = false := hm c (by simp)
      rcases hv c (by simp) with rfl | rfl <;> exact absurd hmark (by decide)
  rcases List.append_eq_append_iff.mp h with ⟨m, rfl, rfl⟩ | ⟨m, rfl, rfl⟩
  · obtain rfl := hnone hu' hcs
    simp
  · obtain rfl := hnone hu hcs'
    simp

/-- A text that ends with a mark is not one that ends without. -/
theorem Plain.append_ne {u u' cs : List Char} {c : Char} (hcs : Plain cs) (hne : cs ≠ [])
    (hc : isMark c = true) : u ++ [c] ≠ u' ++ cs := by
  induction cs using List.reverseRecOn with
  | nil => contradiction
  | append_singleton cs d _ =>
    intro h
    rw [← List.append_assoc] at h
    obtain rfl : c = d := (List.append_singleton_inj.mp h).2
    have hplain : isMark c = false := hcs c (by simp)
    rw [hc] at hplain
    contradiction

end Text

theorem TypeExpr.texts_eq_map {α : Type} (atomText : α → String) (rankText : UInt32 → String)
    (es : List (TypeExpr α)) :
    TypeExpr.texts atomText rankText es = es.map (TypeExpr.text atomText rankText) := by
  induction es with
  | nil => rfl
  | cons e rest ih => exact congrArg (_ :: ·) ih

namespace TypeRef

variable (r d : TypeRef) (rank : UInt32) (args : List TypeRef)

/-- The letters of the text of a reference. -/
def letters : List Char := r.text.toList

/-- The letters of the arguments of an instantiation, from the opening bracket on. -/
def argLetters : List Char := '<' :: (", ".intercalate (args.map text)).toList

theorem letters_szArray : letters (.szArray r) = r.letters ++ ['['] ++ [']'] := by
  simp [letters, text, TypeExpr.text]

theorem letters_array : letters (.array r rank) =
    r.letters ++ "[rank".toList ++ [' '] ++ Nat.toDigits 10 rank.toNat ++ [']'] := by
  simp [letters, text, TypeExpr.text, toString]

theorem letters_pointer : letters (.pointer r) = r.letters ++ ['*'] := by
  simp [letters, text, TypeExpr.text]

theorem letters_byRef : letters (.byRef r) = r.letters ++ ['&'] := by
  simp [letters, text, TypeExpr.text]

theorem letters_inst : letters (.inst d args) = d.letters ++ argLetters args ++ ['>'] := by
  have htext : text (.inst d args) = d.text ++ "<" ++ ", ".intercalate (args.map text) ++ ">" := by
    simp only [text, TypeExpr.text, TypeExpr.texts_eq_map]
    rfl
  simp [letters, htext, argLetters]

/-- What stands in front of a further argument. -/
def argFront : List Char := if args = [] then ['<'] else argLetters args ++ [','] ++ [' ']

theorem argFront_of_ne_nil {args : List TypeRef} (h : args ≠ []) :
    argFront args = argLetters args ++ [','] ++ [' '] :=
  if_neg h

theorem argLetters_snoc (a : TypeRef) :
    argLetters (args ++ [a]) = argFront args ++ a.letters := by
  by_cases hargs : args = []
  · simp [hargs, argLetters, argFront, letters]
  · have htext : ", ".intercalate ((args ++ [a]).map text) =
        ", ".intercalate (args.map text) ++ ", " ++ a.text := by
      rw [List.map_append, String.intercalate_append_of_ne_nil (by simpa using hargs) (by simp)]
      rfl
    rw [argFront_of_ne_nil hargs, argLetters, htext]
    simp [argLetters, letters]

theorem getLast?_argFront (u : List Char) :
    (u ++ argFront args).getLast? = some (if args = [] then '<' else ' ') := by
  by_cases hargs : args = []
  · simp [hargs, argFront]
  · rw [argFront_of_ne_nil hargs, ← List.append_assoc, List.getLast?_concat, if_neg hargs]

theorem begins_argFront (u : List Char) : Text.Begins (u ++ argFront args) := by
  unfold Text.Begins
  rw [getLast?_argFront]
  by_cases hargs : args = [] <;> simp [hargs]

theorem argFront_cancel {u u' : List Char} {args args' : List TypeRef}
    (h : u ++ argFront args = u' ++ argFront args') :
    u ++ argLetters args = u' ++ argLetters args' := by
  have hlast : some (if args = [] then '<' else ' ') = some (if args' = [] then '<' else ' ') := by
    rw [← getLast?_argFront args u, h, getLast?_argFront args' u']
  by_cases hargs : args = [] <;> by_cases hargs' : args' = []
  · rw [hargs, hargs'] at h ⊢
    exact h
  · simp [hargs, hargs'] at hlast
  · simp [hargs, hargs'] at hlast
  · rw [argFront_of_ne_nil hargs, argFront_of_ne_nil hargs'] at h
    simp only [← List.append_assoc] at h
    exact List.append_cancel_right (List.append_cancel_right h)

/-- The mark at the end of the text of a reference that is not an atom. -/
def ending : TypeRef → Option Char
  | .atom _ => none
  | .szArray _ | .array _ _ => some ']'
  | .pointer _ => some '*'
  | .byRef _ => some '&'
  | .inst _ _ => some '>'

theorem letters_ne_nil : r.letters ≠ [] := by
  cases r with
  | atom a => exact a.toList_text_ne_nil
  | szArray | array | pointer | byRef | inst =>
    simp [letters_szArray, letters_array, letters_pointer, letters_byRef, letters_inst]

/-- The last letter tells how a reference is built. -/
theorem getLast?_letters (u : List Char) :
    (u ++ r.letters).getLast?.filter Text.isMark = r.ending := by
  have hne : r.letters.getLast?.isSome := List.getLast?_isSome.mpr r.letters_ne_nil
  rw [List.getLast?_append, Option.or_of_isSome hne]
  cases r with
  | atom a =>
    refine Option.filter_eq_none_iff.mpr ?_
    intro c hc
    rw [a.plain_text c (List.mem_of_getLast? hc)]
    decide
  | szArray | array | pointer | byRef | inst =>
    simp only [letters_szArray, letters_array, letters_pointer, letters_byRef, letters_inst,
      List.getLast?_concat]
    rfl

theorem ending_eq_of_append {u u' : List Char} {r r' : TypeRef}
    (h : u ++ r.letters = u' ++ r'.letters) : r.ending = r'.ending := by
  rw [← getLast?_letters r u, h, getLast?_letters]

/-- No reference ends with a bracket that opens. -/
theorem append_open_ne (u u' : List Char) : u ++ ['<'] ≠ u' ++ r.letters := by
  intro h
  have hending : r.ending = some '<' := by
    rw [← getLast?_letters r u', ← h, List.getLast?_concat]
    rfl
  cases r <;> simp [ending] at hending

/-- Where a text ends with that of an argument list, it ends with that of no other, if this holds of
the arguments. -/
theorem argLetters_unique {args : List TypeRef}
    (hargs : ∀ a ∈ args, ∀ {u u' : List Char} {a' : TypeRef}, Text.Begins u → Text.Begins u' →
      u ++ letters a = u' ++ a'.letters → u = u' ∧ a = a')
    {u u' : List Char} {args' : List TypeRef}
    (h : u ++ argLetters args = u' ++ argLetters args') : u = u' ∧ args = args' := by
  have hopen {v v' : List Char} {args : List TypeRef} {a : TypeRef} :
      v ++ argLetters [] ≠ v' ++ argLetters (args ++ [a]) := by
    rw [argLetters_snoc, ← List.append_assoc]
    exact append_open_ne a v (v' ++ argFront args)
  induction args using List.reverseRecOn generalizing args' with
  | nil =>
    induction args' using List.reverseRecOn with
    | nil => exact ⟨List.append_cancel_right h, rfl⟩
    | append_singleton args' a' _ => exact absurd h hopen
  | append_singleton args a ih =>
    induction args' using List.reverseRecOn with
    | nil => exact absurd h.symm hopen
    | append_singleton args' a' _ =>
      rw [argLetters_snoc, argLetters_snoc, ← List.append_assoc, ← List.append_assoc] at h
      obtain ⟨hfront, rfl⟩ :=
        hargs a (by simp) (begins_argFront args u) (begins_argFront args' u') h
      obtain ⟨rfl, rfl⟩ := ih (fun b hb => hargs b (by simp [hb])) (argFront_cancel hfront)
      exact ⟨rfl, rfl⟩

/-- In front of its last letter, the text of a vector has a bracket and that of an array a digit. -/
theorem letters_szArray_ne_array {u u' : List Char} {r r' : TypeRef} {rank : UInt32} :
    u ++ letters (.szArray r) ≠ u' ++ letters (.array r' rank) := by
  intro h
  simp only [letters_szArray, letters_array, ← List.append_assoc] at h
  have hdigits : Text.Plain (Nat.toDigits 10 rank.toNat) :=
    Text.plain_toDigits (by decide) (by decide) rank.toNat
  exact hdigits.append_ne (by simp) rfl (List.append_cancel_right h)

/-- Where a text ends with that of a reference, it ends with that of no other. -/
theorem letters_unique {u u' : List Char} {r r' : TypeRef} (hu : Text.Begins u)
    (hu' : Text.Begins u') (h : u ++ r.letters = u' ++ r'.letters) : u = u' ∧ r = r' := by
  induction r using TypeExpr.inductionOn generalizing u u' r' with
  | atom a =>
    cases r' with
    | atom a' =>
      obtain ⟨rfl, hname⟩ := Text.Plain.split a.plain_text a'.plain_text hu hu' h
      exact ⟨rfl, congrArg TypeExpr.atom (RefAtom.text_injective (String.toList_inj.mp hname))⟩
    | szArray | array | pointer | byRef | inst =>
      exact absurd (ending_eq_of_append h) (by simp [ending])
  | szArray e ih =>
    cases r' with
    | szArray e' =>
      simp only [letters_szArray, ← List.append_assoc] at h
      obtain ⟨rfl, rfl⟩ := ih hu hu' (List.append_cancel_right (List.append_cancel_right h))
      exact ⟨rfl, rfl⟩
    | array e' rank' => exact absurd h letters_szArray_ne_array
    | atom | pointer | byRef | inst => exact absurd (ending_eq_of_append h) (by simp [ending])
  | array e rank ih =>
    cases r' with
    | szArray e' => exact absurd h.symm letters_szArray_ne_array
    | array e' rank' =>
      simp only [letters_array, ← List.append_assoc] at h
      have hdigits (rank : UInt32) : Text.Plain (Nat.toDigits 10 rank.toNat) :=
        Text.plain_toDigits (by decide) (by decide) rank.toNat
      obtain ⟨hfront, hrank⟩ := Text.Plain.split (hdigits rank) (hdigits rank')
        (Text.Begins.blank _) (Text.Begins.blank _) (List.append_cancel_right h)
      obtain rfl : rank = rank' := UInt32.toNat_inj.mp (Text.toDigits_ten_injective hrank)
      obtain ⟨rfl, rfl⟩ := ih hu hu' (List.append_cancel_right (List.append_cancel_right hfront))
      exact ⟨rfl, rfl⟩
    | atom | pointer | byRef | inst => exact absurd (ending_eq_of_append h) (by simp [ending])
  | pointer e ih =>
    cases r' with
    | pointer e' =>
      simp only [letters_pointer, ← List.append_assoc] at h
      obtain ⟨rfl, rfl⟩ := ih hu hu' (List.append_cancel_right h)
      exact ⟨rfl, rfl⟩
    | atom | szArray | array | byRef | inst =>
      exact absurd (ending_eq_of_append h) (by simp [ending])
  | byRef e ih =>
    cases r' with
    | byRef e' =>
      simp only [letters_byRef, ← List.append_assoc] at h
      obtain ⟨rfl, rfl⟩ := ih hu hu' (List.append_cancel_right h)
      exact ⟨rfl, rfl⟩
    | atom | szArray | array | pointer | inst =>
      exact absurd (ending_eq_of_append h) (by simp [ending])
  | inst d args ihd ihargs =>
    cases r' with
    | inst d' args' =>
      simp only [letters_inst, ← List.append_assoc] at h
      obtain ⟨hfront, rfl⟩ := argLetters_unique ihargs (List.append_cancel_right h)
      obtain ⟨rfl, rfl⟩ := ihd hu hu' hfront
      exact ⟨rfl, rfl⟩
    | atom | szArray | array | pointer | byRef =>
      exact absurd (ending_eq_of_append h) (by simp [ending])

end TypeRef

namespace Scope

variable {s : Scope} {r : TypeRef}

theorem exists_firstFault {e : Failure} (h : s.resolve r = .error e) :
    ∃ c, s.FirstFault r c e := by
  have hsettles : Settles (s.resolve r) (s.first? (r.checks 0)) :=
    settles_resolveAt r (Nat.zero_le maxDepth)
  rw [h] at hsettles
  generalize hfirst : s.first? (r.checks 0) = first at hsettles
  cases hsettles with
  | error => exact ⟨_, first?_checks_eq_some.mp hfirst⟩

/-- What the checks report, apart from the limit on depth, is the text of the node that is
checked. -/
theorem FirstFault.text_eq {c : Check} {text : String} {reason : Unresolved}
    (h : s.FirstFault r c (.unresolved text reason)) : text = c.node.text := by
  obtain ⟨_, _, _, _, hfault⟩ := h
  unfold fault? at hfault
  split at hfault
  · split at hfault <;> simp at hfault
  · obtain ⟨_, _, heq⟩ := Option.map_eq_some_iff.mp hfault
    simp_all
  · obtain ⟨_, _, heq⟩ := Option.map_eq_some_iff.mp hfault
    simp_all

end Scope

/-- Only the token that is looked up makes a look-up fail. -/
theorem Build.failsOnly_managedType (p : TypePlan) :
    FailsOnly (· = .unresolved (TypeRef.typeDef p.token).text .notDeclared) (managedType p) := by
  unfold managedType managed
  refine .bind (.bind (.of_succeeds .get) fun s => ?_) fun type =>
    .bind (.of_succeeds .get) fun s => ?_
  · split
    · exact .pure _
    · exact .throw rfl
  · split
    · exact .pure _
    · exact .throw rfl

/-- A reference is known by its text. -/
theorem TypeRef.text_inj {r r' : TypeRef} : r.text = r'.text ↔ r = r' := by
  constructor
  · intro h
    have hletters : [] ++ r.letters = [] ++ r'.letters := congrArg String.toList h
    exact (letters_unique Text.Begins.nil Text.Begins.nil hletters).2
  · exact congrArg text

/-- **The text of a reference identifies it.** No two references have the same text. So the text of
a failure to resolve belongs to one reference alone: to the node at which the first check found
something, and where a planned type was looked up, to the reference by its token. -/
theorem reference_texts_identify :
    (∀ r r' : TypeRef, r.text = r'.text → r = r') ∧
    (∀ (s : Scope) (r : TypeRef) (text : String) (reason : Unresolved),
      s.resolve r = .error (.unresolved text reason) →
      ∃ c, s.FirstFault r c (.unresolved text reason) ∧
        ∀ q : TypeRef, q.text = text ↔ q = c.node) ∧
    ∀ (p : TypePlan) (s s' : BuildState) (text : String) (reason : Unresolved),
      (Build.managedType p).Fails s (.unresolved text reason) s' →
      ∀ q : TypeRef, q.text = text ↔ q = TypeRef.typeDef p.token := by
  refine ⟨fun r r' => TypeRef.text_inj.mp, ?_, ?_⟩
  · intro s r text reason h
    obtain ⟨c, hc⟩ := Scope.exists_firstFault h
    refine ⟨c, hc, fun q => ?_⟩
    rw [hc.text_eq]
    exact TypeRef.text_inj
  · intro p s s' text reason h q
    obtain ⟨rfl, -⟩ := Failure.unresolved.inj (Build.failsOnly_managedType p s _ s' h)
    exact TypeRef.text_inj

/-- An array without dimensions that stands in a vector, and a token that no type has. -/
theorem reference_texts_identify_dimensionless :
    (∃ c, Scope.FirstFault ⟨{}, {}, ⟨.perRun, {}⟩, ⟨0x02000001⟩⟩
        (.szArray (.array (TypeRef.primitive .object) 0)) c
        (.unresolved "System.Object[rank 0]" .zeroRank) ∧
      ∀ q : TypeRef, q.text = "System.Object[rank 0]" ↔ q = c.node) ∧
    ∀ q : TypeRef, q.text = "TypeDef(0x02000002)" ↔ q = TypeRef.typeDef ⟨0x02000002⟩ :=
  ⟨reference_texts_identify.2.1 ⟨{}, {}, ⟨.perRun, {}⟩, ⟨0x02000001⟩⟩ _ _ _ rfl,
    reference_texts_identify.2.2
      { token := ⟨0x02000002⟩, space := "Game", name := "Shop", flags := ⟨0⟩, flavor := .classType,
        module := "Game.dll" } (.initial {}) (.initial {}) _ .notDeclared rfl⟩

end ClrImage
