import ClrImage.Proofs.BodyReader

/-!
# What encoding asks for

The writer of an image gives out tokens as bodies are encoded, so the source of tokens may change
with every question and may refuse. Whatever it does, encoding asks for the types of the code
**once each, in order, up to the first refusal**, and a body whose locals lack a signature is
refused before the first question.

- `Body.recorded`: a source that writes down what it is asked for.
- `Body.Answers`: questions that a source answers one after the other.
- `Body.Encodes`: the outcome of encoding, and what it has asked for.
- `Body.exists_answers`: questions are all answered, or up to a first one that is not.
- `encoding_requests`: what encoding asks for, how it fails, and what it writes.
-/

namespace ClrImage

namespace Body

variable {σ : Type} {tokenOf : TokenSource σ} {st st₁ st₂ : σ}

/-! ## Questions and answers -/

/-- The source with a record of the types that it has been asked for. It writes down refused
questions, too. -/
def recorded (tokenOf : TokenSource σ) : TokenSource (σ × List Signature) := fun sig =>
  ExceptT.mk fun (st, asked) =>
    let (answer, st') := outcome (tokenOf sig) st
    (answer, (st', asked ++ [sig]))

theorem outcome_recorded (sig : Signature) (st : σ) (asked : List Signature) :
    outcome (recorded tokenOf sig) (st, asked) =
      ((outcome (tokenOf sig) st).1, ((outcome (tokenOf sig) st).2, asked ++ [sig])) := rfl

/-- The source gives a token for each of the types, asked for one after the other. -/
inductive Answers (tokenOf : TokenSource σ) : σ → List (Signature × Token) → σ → Prop
  | none (st : σ) : Answers tokenOf st [] st
  | next {st st₁ st₂ : σ} {sig : Signature} {token : Token} {given : List (Signature × Token)} :
    Gives (tokenOf sig) st token st₁ → Answers tokenOf st₁ given st₂ →
    Answers tokenOf st ((sig, token) :: given) st₂

namespace Answers

variable {given : List (Signature × Token)}

/-- Tokens that are given are given to who asks for all of them, and the next questions are asked
behind them. -/
theorem outcome_mapM_append (h : Answers tokenOf st given st₁) (sigs : List Signature) :
    outcome ((given.map (·.1) ++ sigs).mapM tokenOf) st =
      ((outcome (sigs.mapM tokenOf) st₁).1.map (given.map (·.2) ++ ·),
        (outcome (sigs.mapM tokenOf) st₁).2) := by
  induction h with
  | none st => rcases houtcome : outcome (sigs.mapM tokenOf) st with ⟨_ | _, _⟩ <;> exact houtcome
  | @next st st₁ st₂ sig token given hfirst _ ih =>
    have hgives : outcome (tokenOf sig) st = (.ok token, st₁) := hfirst
    rw [List.map_cons, List.cons_append, List.mapM_cons, outcome_bind, hgives]
    dsimp only
    rw [outcome_bind, ih]
    rcases outcome (sigs.mapM tokenOf) st₂ with ⟨_ | _, _⟩ <;> rfl

/-- The source that keeps a record gives the same tokens, and has written down the questions. -/
theorem recorded (h : Answers tokenOf st given st₁) (asked : List Signature) :
    Answers (recorded tokenOf) (st, asked) given (st₁, asked ++ given.map (·.1)) := by
  induction h generalizing asked with
  | none st =>
    rw [List.map_nil, List.append_nil]
    exact .none _
  | @next st st₁ st₂ sig token given hfirst _ ih =>
    have hgives : outcome (tokenOf sig) st = (.ok token, st₁) := hfirst
    have hrest := ih (asked ++ [sig])
    rw [List.append_assoc] at hrest
    refine .next ?_ hrest
    show outcome (Body.recorded tokenOf sig) (st, asked) = _
    rw [outcome_recorded, hgives]

end Answers

/-- All questions are answered, or all before a first one that is not. -/
theorem exists_answers (tokenOf : TokenSource σ) (sigs : List Signature) (st : σ) :
    (∃ given st₁, sigs = given.map (·.1) ∧ Answers tokenOf st given st₁) ∨
      ∃ given sig rest e st₁ st₂, sigs = given.map (·.1) ++ sig :: rest ∧
        Answers tokenOf st given st₁ ∧ outcome (tokenOf sig) st₁ = (.error e, st₂) := by
  induction sigs generalizing st with
  | nil => exact .inl ⟨[], st, rfl, .none st⟩
  | cons sig sigs ih =>
    rcases hfirst : outcome (tokenOf sig) st with ⟨e | token, st₁⟩
    · exact .inr ⟨[], sig, sigs, e, st, st₁, rfl, .none st, hfirst⟩
    · obtain ⟨given, st₂, rfl, hgiven⟩ | ⟨given, failing, rest, e, st₂, st₃, rfl, hgiven, hfails⟩ :=
        ih st₁
      · exact .inl ⟨(sig, token) :: given, st₂, rfl, .next hfirst hgiven⟩
      · exact .inr ⟨(sig, token) :: given, failing, rest, e, st₂, st₃, rfl, .next hfirst hgiven,
          hfails⟩

/-! ## Headers -/

/-- Locals without a signature are refused: such a body is never tiny. -/
theorem header_of_missing_signature {b : Body} {localSig : Token} (hlocals : b.locals ≠ [])
    (hnull : localSig.isNull = true) :
    b.header localSig = .error (.flawed (.localsNeedSignature b.locals.length)) := by
  have htiny : ¬ b.isTiny = true := fun htiny => hlocals (b.isTiny_iff.mp htiny).2.2
  have hempty : b.locals.isEmpty = false := by simpa using hlocals
  unfold header
  rw [if_neg htiny, hempty, hnull]
  rfl

/-- Other bodies have a header: one byte if they are tiny, twelve if they are not. -/
theorem exists_header {b : Body} {localSig : Token}
    (hsig : ¬ (b.locals ≠ [] ∧ localSig.isNull = true)) (hsize : b.codeSize < 0x100000000) :
    ∃ header, b.header localSig = .ok header ∧ header.length = if b.isTiny then 1 else 12 := by
  unfold header
  by_cases htiny : b.isTiny = true
  · rw [if_pos htiny, if_pos htiny]
    exact ⟨_, rfl, rfl⟩
  · have hmissing : ¬ (!b.locals.isEmpty && localSig.isNull) = true := by simpa using hsig
    rw [if_neg htiny, if_neg htiny, if_neg hmissing, if_pos (by omega)]
    exact ⟨_, rfl, by rw [fatHeader_eq]; simp [Bytes.ofUInt16, Bytes.ofUInt32]⟩

/-! ## Encoding -/

/-- The outcome of encoding, the types that it has asked for in order, and the state in which it
leaves the source. -/
structure Encodes (b : Body) (localSig : Token) (tokenOf : TokenSource σ) (st : σ)
    (asked : List Signature) (result : Except Failure (List UInt8)) (st' : σ) : Prop where
  outcome : outcome (b.encode localSig tokenOf) st = (result, st')
  recorded : ∀ earlier, Body.outcome (b.encode localSig (recorded tokenOf)) (st, earlier) =
    (result, (st', earlier ++ asked))

variable {b : Body} {localSig : Token}

/-- Without a header, encoding fails and nothing is asked for. -/
theorem outcome_encode_of_header_error {e : Failure} (h : b.header localSig = .error e)
    (tokenOf : TokenSource σ) (st : σ) :
    outcome (b.encode localSig tokenOf) st = (.error e, st) := by
  rw [encode_eq, h]
  rfl

/-- Behind a header, the outcome is that of the questions for the types of the code. -/
theorem outcome_encode_of_header_ok {header : List UInt8} (h : b.header localSig = .ok header)
    (tokenOf : TokenSource σ) (st : σ) :
    outcome (b.encode localSig tokenOf) st =
      ((outcome ((typesOf b.code).mapM tokenOf) st).1.map fun tokens =>
          header ++ (withTokens b.code tokens).flatMap RawInstruction.bytes,
        (outcome ((typesOf b.code).mapM tokenOf) st).2) := by
  rw [encode_eq, h, outcome_bind]
  show outcome ((typesOf b.code).mapM tokenOf >>= _) st = _
  rw [outcome_bind]
  rcases outcome ((typesOf b.code).mapM tokenOf) st with ⟨_ | _, _⟩ <;> rfl

/-- With an answer to all questions, the tokens are put into the code behind the header. -/
theorem encodes_of_answers {header : List UInt8} {given : List (Signature × Token)}
    (hheader : b.header localSig = .ok header) (htypes : typesOf b.code = given.map (·.1))
    (hgiven : Answers tokenOf st given st₁) :
    b.Encodes localSig tokenOf st (typesOf b.code)
      (.ok (header ++ (withTokens b.code (given.map (·.2))).flatMap RawInstruction.bytes)) st₁ := by
  have hall : ∀ {τ : Type} {tokenOf : TokenSource τ} {u u₁ : τ}, Answers tokenOf u given u₁ →
      outcome ((typesOf b.code).mapM tokenOf) u = (.ok (given.map (·.2)), u₁) := by
    intro τ tokenOf u u₁ h
    have hmap := h.outcome_mapM_append []
    rw [List.append_nil, ← htypes] at hmap
    rw [hmap]
    show (Except.ok (given.map (·.2) ++ []), u₁) = _
    rw [List.append_nil]
  refine ⟨?_, fun earlier => ?_⟩
  · rw [outcome_encode_of_header_ok hheader, hall hgiven]
    rfl
  · rw [outcome_encode_of_header_ok hheader, hall (hgiven.recorded earlier), htypes]
    rfl

/-- A refusal is the outcome, and the questions behind it are never asked. -/
theorem encodes_of_refusal {header : List UInt8} {given : List (Signature × Token)}
    {sig : Signature} {rest : List Signature} {e : Failure}
    (hheader : b.header localSig = .ok header)
    (htypes : typesOf b.code = given.map (·.1) ++ sig :: rest)
    (hgiven : Answers tokenOf st given st₁)
    (hrefuses : outcome (tokenOf sig) st₁ = (.error e, st₂)) :
    b.Encodes localSig tokenOf st (given.map (·.1) ++ [sig]) (.error e) st₂ := by
  have hfirst : ∀ {τ : Type} {tokenOf : TokenSource τ} {u u₁ u₂ : τ}, Answers tokenOf u given u₁ →
      outcome (tokenOf sig) u₁ = (.error e, u₂) →
      outcome ((typesOf b.code).mapM tokenOf) u = (.error e, u₂) := by
    intro τ tokenOf u u₁ u₂ h hrefuses
    have hnext : outcome ((sig :: rest).mapM tokenOf) u₁ = (.error e, u₂) := by
      rw [List.mapM_cons, outcome_bind, hrefuses]
    rw [htypes, h.outcome_mapM_append, hnext]
    rfl
  refine ⟨?_, fun earlier => ?_⟩
  · rw [outcome_encode_of_header_ok hheader, hfirst hgiven hrefuses]
    rfl
  · have hrecorded : outcome (Body.recorded tokenOf sig) (st₁, earlier ++ given.map (·.1)) =
        (.error e, (st₂, earlier ++ given.map (·.1) ++ [sig])) := by
      rw [outcome_recorded, hrefuses]
    rw [outcome_encode_of_header_ok hheader, hfirst (hgiven.recorded earlier) hrecorded,
      List.append_assoc]
    rfl

end Body

open Body in
/-- **Encoding asks for tokens in order and stops at the first refusal.** A body whose locals lack a
signature is refused before any question. The types of every other one are asked for once each, in
the order of the code: up to the first one that the source refuses, whose error is the outcome, or
all of them. Then the bytes are a header, of one byte for tiny bodies and of twelve for others, and
as many bytes of code as the body counts and as the header tells. -/
theorem encoding_requests {σ : Type} (b : Body) (hsize : b.codeSize < 0x100000000)
    (localSig : Token) (tokenOf : TokenSource σ) (st : σ) :
    (b.locals ≠ [] ∧ localSig.isNull = true →
      b.Encodes localSig tokenOf st []
        (.error (.flawed (.localsNeedSignature b.locals.length))) st) ∧
    (¬ (b.locals ≠ [] ∧ localSig.isNull = true) →
      (∃ given sig rest e st₁ st₂,
        typesOf b.code = given.map (·.1) ++ sig :: rest ∧
        Answers tokenOf st given st₁ ∧ outcome (tokenOf sig) st₁ = (.error e, st₂) ∧
        b.Encodes localSig tokenOf st (given.map (·.1) ++ [sig]) (.error e) st₂) ∨
      ∃ given st₁ header code,
        typesOf b.code = given.map (·.1) ∧ Answers tokenOf st given st₁ ∧
        b.Encodes localSig tokenOf st (typesOf b.code) (.ok (header ++ code)) st₁ ∧
        header.length = (if b.isTiny then 1 else 12) ∧ code.length = b.codeSize ∧
        ∃ told, RawBody.readHeader (header ++ code) = some (told, code) ∧
          told.codeSize = code.length) := by
  refine ⟨fun ⟨hlocals, hnull⟩ => ?_, fun hsig => ?_⟩
  · have hheader := header_of_missing_signature hlocals hnull
    exact ⟨outcome_encode_of_header_error hheader tokenOf st, fun earlier => by
      rw [outcome_encode_of_header_error hheader, List.append_nil]⟩
  obtain ⟨header, hheader, hlength⟩ := exists_header hsig hsize
  obtain ⟨given, st₁, htypes, hgiven⟩ | ⟨given, sig, rest, e, st₁, st₂, htypes, hgiven, hrefuses⟩ :=
    exists_answers tokenOf (typesOf b.code) st
  · have hone : (given.map (·.2)).length = (typesOf b.code).length := by
      rw [htypes, List.length_map, List.length_map]
    obtain ⟨hwritten, -⟩ := written_withTokens hone
    have hcode : ((withTokens b.code (given.map (·.2))).flatMap RawInstruction.bytes).length =
        b.codeSize := by
      rw [codeSize, hwritten.length_bytes 0, Nat.zero_add]
    exact .inr ⟨given, st₁, header, _, htypes, hgiven, encodes_of_answers hheader htypes hgiven,
      hlength, hcode, _, readHeader_append hheader _, by rw [codeSize_rawHeader, hcode]⟩
  · exact .inl ⟨given, sig, rest, e, st₁, st₂, htypes, hgiven, hrefuses,
      encodes_of_refusal hheader htypes hgiven hrefuses⟩

/-- The two types of `twoSlots` are asked for in turn, and nothing is asked without a signature for
its locals. -/
theorem encoding_requests_twoSlots :
    twoSlots.codeSize < 0x100000000 ∧
    twoSlots.Encodes ⟨0⟩ nextRow 7 [] (.error (.flawed (.localsNeedSignature 2))) 7 ∧
    ∃ header code, twoSlots.Encodes ⟨0x11000001⟩ nextRow 7
        [Signature.valueType ⟨0⟩, Signature.valueType ⟨1⟩] (.ok (header ++ code)) 9 ∧
      header.length = 12 ∧ code.length = 18 := by
  have hsize : twoSlots.codeSize < 0x100000000 := by decide
  have hencode : Body.outcome (twoSlots.encode ⟨0x11000001⟩ nextRow) 7 =
      (.ok twoSlotsBytes, 9) := by decide +kernel
  refine ⟨hsize, (encoding_requests twoSlots hsize ⟨0⟩ nextRow 7).1 (by decide), ?_⟩
  obtain ⟨_, _, _, e, _, _, _, _, _, hrefused⟩ |
      ⟨_, st₁, header, code, _, _, hgiven, hheader, hcode, _⟩ :=
    (encoding_requests twoSlots hsize ⟨0x11000001⟩ nextRow 7).2 (by decide)
  · exact absurd (hrefused.outcome.symm.trans hencode) (by simp)
  · obtain rfl : st₁ = 9 := congrArg Prod.snd (hgiven.outcome.symm.trans hencode)
    exact ⟨header, code, hgiven, hheader, hcode⟩

end ClrImage
