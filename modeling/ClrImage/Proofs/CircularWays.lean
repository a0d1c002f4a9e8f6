import ClrImage.Proofs.Lookup
import Mathlib.Data.List.Chain
import Mathlib.Data.List.Perm.Subperm

/-!
# Ways that come back

Before a blueprint has been validated, its declaring tokens may lead in circles. The walk to the
top-level type does not look whether it comes back; it stops after as many steps as there are types.

- `Blueprint.Explores`: the way outwards that stops where it would visit a type again. There is one
  from each type, `exists_way`, and no other one, `Explores.unique`. Where tokens are distinct, they
  tell which types have been visited, `Explores.mem_iff_token`.
- `topLevelWithin_of_chain`, `topLevelWithin_of_circle`: the walk follows a way to its last type;
  on a circle only the steps beyond whole rounds count.
- `top_level_before_return_iff`: **when the walk ends at the last type of that way**, and where it
  ends when it does not.
-/

namespace ClrImage

namespace Blueprint

variable {b : Blueprint} {p q : TypePlan}

/-- The type that the declaring token of a type leads to, if there is a token and it is known. -/
def outer? (b : Blueprint) (p : TypePlan) : Option TypePlan := p.declaring.bind b.type?

/-- The way outwards from a type, through types that have not been visited before. It stops where no
type is around, and before a visited one. A token stands for the type that is found under it. -/
inductive Explores (b : Blueprint) : (visited : List TypePlan) → TypePlan → List TypePlan → Prop
  | ends {visited : List TypePlan} {p : TypePlan} : b.outer? p = none → Explores b visited p []
  | returns {visited : List TypePlan} {p q : TypePlan} :
    b.outer? p = some q → q ∈ visited → Explores b visited p []
  | onward {visited : List TypePlan} {p q : TypePlan} {way : List TypePlan} :
    b.outer? p = some q → q ∉ visited → Explores b (q :: visited) q way →
      Explores b visited p (q :: way)

/-- What lies around a type is found under its own token. -/
theorem type?_of_outer? (h : b.outer? p = some q) :
    q ∈ b.types.toList ∧ b.type? q.token = some q := by
  obtain ⟨outer, -, hq⟩ := Option.bind_eq_some_iff.mp h
  obtain ⟨hmem, htoken⟩ := of_type? hq
  exact ⟨hmem, htoken ▸ hq⟩

namespace Explores

variable {visited way : List TypePlan}

theorem unique {way' : List TypePlan} (h : b.Explores visited p way)
    (h' : b.Explores visited p way') : way' = way := by
  induction h generalizing way' with
  | ends hnone =>
    cases h' with
    | ends => rfl
    | returns => rfl
    | onward hsome => cases hnone.symm.trans hsome
  | returns hsome hvisited =>
    cases h' with
    | ends => rfl
    | returns => rfl
    | onward hsome' hnew =>
      obtain rfl := Option.some.inj (hsome.symm.trans hsome')
      exact absurd hvisited hnew
  | onward hsome hnew _ ih =>
    cases h' with
    | ends hnone => cases hnone.symm.trans hsome
    | returns hsome' hvisited =>
      obtain rfl := Option.some.inj (hsome.symm.trans hsome')
      exact absurd hvisited hnew
    | onward hsome' _ hrest =>
      obtain rfl := Option.some.inj (hsome.symm.trans hsome')
      rw [ih hrest]

/-- Each type lies around the one before. -/
theorem chain (h : b.Explores visited p way) :
    List.IsChain (fun q r => b.outer? q = some r) (p :: way) := by
  induction h with
  | ends => exact .singleton _
  | returns => exact .singleton _
  | onward hsome _ _ ih => exact .cons_cons hsome ih

/-- No type is visited twice. -/
theorem nodup (h : b.Explores visited p way) (hvisited : visited.Nodup) :
    (way.reverse ++ visited).Nodup := by
  induction h with
  | ends => exact hvisited
  | returns => exact hvisited
  | onward _ hnew _ ih =>
    rw [List.reverse_cons, List.append_assoc]
    exact ih (List.nodup_cons.mpr ⟨hnew, hvisited⟩)

/-- What lies around the last type has been visited. -/
theorem mem_of_outer? (h : b.Explores visited p way) (hq : b.outer? (way.getLastD p) = some q) :
    q ∈ way.reverse ++ visited := by
  induction h with
  | ends hnone => cases hnone.symm.trans hq
  | returns hsome hvisited =>
    obtain rfl := Option.some.inj (hsome.symm.trans hq)
    exact hvisited
  | onward _ _ _ ih =>
    rw [List.reverse_cons, List.append_assoc]
    exact ih (by rwa [List.getLastD_cons] at hq)

/-- A walk stops, because there are only so many types that it can visit. -/
theorem exists_way {start : TypePlan} (hnodup : visited.Nodup)
    (hknown : visited ⊆ start :: b.types.toList) (left : Nat)
    (hleft : b.types.size + 1 < left + visited.length) (p : TypePlan) :
    ∃ way, b.Explores visited p way := by
  induction left generalizing visited p with
  | zero =>
    have hlength : visited.length ≤ b.types.size + 1 := by
      simpa using (hnodup.subperm hknown).length_le
    omega
  | succ left ih =>
    cases hq : b.outer? p with
    | none => exact ⟨[], .ends hq⟩
    | some q =>
      by_cases hvisited : q ∈ visited
      · exact ⟨[], .returns hq hvisited⟩
      · have hmem : q ∈ start :: b.types.toList :=
          List.mem_cons_of_mem start (type?_of_outer? hq).1
        obtain ⟨way, hway⟩ := ih (List.nodup_cons.mpr ⟨hvisited, hnodup⟩)
          (List.cons_subset.mpr ⟨hmem, hknown⟩) (by rw [List.length_cons]; omega) q
        exact ⟨q :: way, .onward hq hvisited hway⟩

end Explores

/-! ## Bounded walks -/

/-- The type at which a walk of at most `steps` steps outwards ends. -/
def topLevelWithin (b : Blueprint) (steps : Nat) (p : TypePlan) : Token :=
  b.topLevelFrom steps p.token p.declaring

theorem topLevelWithin_of_none (h : b.outer? p = none) (steps : Nat) :
    b.topLevelWithin steps p = p.token := by
  unfold topLevelWithin
  cases steps with
  | zero => rfl
  | succ steps =>
    cases hdeclaring : p.declaring with
    | none => rfl
    | some outer =>
      rw [outer?, hdeclaring, Option.bind_some] at h
      rw [topLevelFrom, h]

theorem topLevelWithin_succ (h : b.outer? p = some q) (steps : Nat) :
    b.topLevelWithin (steps + 1) p = b.topLevelWithin steps q := by
  obtain ⟨outer, hdeclaring, hq⟩ := Option.bind_eq_some_iff.mp h
  unfold topLevelWithin
  rw [hdeclaring, topLevelFrom, hq]

section Chain

variable {way : List TypePlan} (hchain : List.IsChain (fun q r => b.outer? q = some r) (p :: way))
include hchain

/-- Steps along a way lead to its last type. -/
theorem topLevelWithin_of_chain (steps : Nat) :
    b.topLevelWithin (way.length + steps) p = b.topLevelWithin steps (way.getLastD p) := by
  induction way generalizing p with
  | nil => rw [List.length_nil, Nat.zero_add, List.getLastD_nil]
  | cons q way ih =>
    obtain ⟨hq, hrest⟩ := List.isChain_cons_cons.mp hchain
    rw [List.length_cons, Nat.add_right_comm, topLevelWithin_succ hq, ih hrest, List.getLastD_cons]

/-- Fewer steps lead to one of its types. -/
theorem getElem?_of_chain {steps : Nat} (hsteps : steps ≤ way.length) :
    ((p :: way).map TypePlan.token)[steps]? = some (b.topLevelWithin steps p) := by
  induction way generalizing p steps with
  | nil =>
    obtain rfl : steps = 0 := Nat.le_zero.mp hsteps
    rfl
  | cons q way ih =>
    obtain ⟨hq, hrest⟩ := List.isChain_cons_cons.mp hchain
    cases steps with
    | zero => rfl
    | succ steps =>
      rw [List.map_cons, List.getElem?_cons_succ, topLevelWithin_succ hq]
      exact ih hrest (Nat.le_of_succ_le_succ hsteps)

/-- On a circle, only the steps beyond whole rounds count. -/
theorem topLevelWithin_of_circle (hcircle : b.outer? (way.getLastD p) = some p) (steps : Nat) :
    b.topLevelWithin steps p = b.topLevelWithin (steps % (way.length + 1)) p := by
  have hround (steps : Nat) :
      b.topLevelWithin (way.length + 1 + steps) p = b.topLevelWithin steps p := by
    rw [Nat.add_assoc, topLevelWithin_of_chain hchain, Nat.add_comm 1 steps,
      topLevelWithin_succ hcircle]
  -- so whole rounds can be left out, one after the other
  have hrounds (rounds steps : Nat) :
      b.topLevelWithin ((way.length + 1) * rounds + steps) p = b.topLevelWithin steps p := by
    induction rounds with
    | zero => rw [Nat.mul_zero, Nat.zero_add]
    | succ rounds ih =>
      rw [Nat.mul_succ, Nat.add_comm _ (way.length + 1), Nat.add_assoc, hround, ih]
  calc b.topLevelWithin steps p
      = b.topLevelWithin ((way.length + 1) * (steps / (way.length + 1)) +
          steps % (way.length + 1)) p := by rw [Nat.div_add_mod]
    _ = b.topLevelWithin (steps % (way.length + 1)) p := hrounds _ _

/-- The types of a way behind its first one are found under their own tokens. -/
theorem type?_of_chain : ∀ r ∈ way, r ∈ b.types.toList ∧ b.type? r.token = some r := by
  induction way generalizing p with
  | nil => simp
  | cons q way ih =>
    obtain ⟨hq, hrest⟩ := List.isChain_cons_cons.mp hchain
    exact List.forall_mem_cons.mpr ⟨type?_of_outer? hq, ih hrest⟩

end Chain

/-! ## Ways into a circle -/

/-- A way has no more types than there are steps. -/
theorem Explores.length_le {way : List TypePlan} (hway : b.Explores [p] p way) :
    way.length ≤ b.types.size := by
  have hall := List.nodup_append_comm.mp (hway.nodup (List.nodup_singleton p))
  have hnodup : way.Nodup := List.nodup_reverse.mp (List.nodup_cons.mp hall).2
  exact (hnodup.subperm fun r hr => (type?_of_chain hway.chain r hr).1).length_le

/-- Visited types can be told by their tokens, if the first one is found under its own. -/
theorem Explores.mem_iff_token {way : List TypePlan} (hway : b.Explores [p] p way)
    (hp : b.type? p.token = some p) (hq : b.type? q.token = some q) :
    q ∈ p :: way ↔ q.token ∈ (p :: way).map TypePlan.token := by
  refine ⟨List.mem_map_of_mem, fun htoken => ?_⟩
  obtain ⟨r, hr, htoken⟩ := List.mem_map.mp htoken
  have hfound : ∀ r ∈ p :: way, b.type? r.token = some r :=
    List.forall_mem_cons.mpr ⟨hp, fun r hr => (type?_of_chain hway.chain r hr).2⟩
  have hsame : some r = some q := by rw [← hfound r hr, htoken, hq]
  exact Option.some.inj hsame ▸ hr

/-- A list that is split at a type ends as what is behind it does. -/
theorem getLastD_of_split {way before after : List TypePlan}
    (hsplit : p :: way = before ++ q :: after) : way.getLastD p = after.getLastD q := by
  have hlast := congrArg List.getLast? hsplit
  rw [List.getLast?_append_cons, List.getLast?_cons, List.getLast?_cons] at hlast
  rw [List.getLastD_eq_getLast?, List.getLastD_eq_getLast?]
  exact Option.some.inj hlast

/-- A walk that does not come back has enough steps. -/
theorem Explores.topLevel_of_none {way : List TypePlan} (hway : b.Explores [p] p way)
    (hnone : b.outer? (way.getLastD p) = none) : b.topLevel p = (way.getLastD p).token := by
  have hsteps : b.types.size = way.length + (b.types.size - way.length) :=
    (Nat.add_sub_of_le hway.length_le).symm
  show b.topLevelWithin b.types.size p = _
  rw [hsteps, topLevelWithin_of_chain hway.chain, topLevelWithin_of_none hnone]

section Circle

variable {way before after : List TypePlan} (hway : b.Explores [p] p way)
  (hsplit : p :: way = before ++ q :: after)
include hway hsplit

/-- There are no more types before the circle than steps. -/
theorem length_before_le : before.length ≤ b.types.size := by
  have hshort := hway.length_le
  have hlength := congrArg List.length hsplit
  simp only [List.length_append, List.length_cons] at hlength
  omega

/-- The walk comes to the circle, and goes on with the steps that are left. -/
theorem topLevel_of_split :
    b.topLevel p = b.topLevelWithin (b.types.size - before.length) q := by
  have hle : before.length ≤ b.types.size := length_before_le hway hsplit
  show b.topLevelWithin b.types.size p = _
  cases before with
  | nil =>
    obtain ⟨rfl, -⟩ := List.cons.inj hsplit
    rfl
  | cons r before =>
    obtain ⟨rfl, rfl⟩ := List.cons.inj hsplit
    have hall : List.IsChain (fun q r => b.outer? q = some r) ((p :: before) ++ q :: after) :=
      hway.chain
    have hchain : List.IsChain (fun q r => b.outer? q = some r) (p :: (before ++ [q])) :=
      (List.isChain_split.mp hall).1
    have hsteps : b.types.size =
        (before ++ [q]).length + (b.types.size - (p :: before).length) := by
      simp only [List.length_append, List.length_cons, List.length_nil] at hle ⊢
      omega
    -- the steps up to `q` are those of the way there
    have hwalk := topLevelWithin_of_chain hchain (b.types.size - (p :: before).length)
    rw [← hsteps, List.getLastD_concat] at hwalk
    exact hwalk

variable (hback : b.outer? (way.getLastD p) = some q)
include hback

/-- The walk ends at a type of the circle: the one where it is after all rounds that it has steps
for. -/
theorem getElem?_of_split :
    ((q :: after).map TypePlan.token)[(b.types.size - before.length) % (after.length + 1)]? =
      some (b.topLevel p) := by
  have hchain : List.IsChain (fun q r => b.outer? q = some r) (q :: after) :=
    (List.isChain_split.mp (hsplit ▸ hway.chain)).2
  have hcircle : b.outer? (after.getLastD q) = some q := getLastD_of_split hsplit ▸ hback
  rw [topLevel_of_split hway hsplit, topLevelWithin_of_circle hchain hcircle]
  exact getElem?_of_chain hchain (Nat.le_of_lt_succ (Nat.mod_lt _ (Nat.succ_pos _)))

/-- The types of the circle have different tokens. -/
theorem nodup_tokens_of_split : ((q :: after).map TypePlan.token).Nodup := by
  have hnodup : (q :: after).Nodup := by
    have h := List.nodup_append_comm.mp (hway.nodup (List.nodup_singleton p))
    have hall : (p :: way).Nodup := by simpa using h
    rw [hsplit] at hall
    exact (List.nodup_append.mp hall).2.1
  have hfound : ∀ r ∈ q :: after, b.type? r.token = some r := by
    have hchain := (List.isChain_split.mp (hsplit ▸ hway.chain)).2
    exact List.forall_mem_cons.mpr
      ⟨(type?_of_outer? hback).2, fun r hr => (type?_of_chain hchain r hr).2⟩
  refine List.Nodup.map_on (fun r hr r' hr' htoken => ?_) hnodup
  have hsame : some r = some r' := by rw [← hfound r hr, ← hfound r' hr', htoken]
  exact Option.some.inj hsame

/-- The walk ends at the last type of the way exactly if it has the steps for whole rounds. -/
theorem topLevel_eq_iff_of_split :
    b.topLevel p = (way.getLastD p).token ↔
      after.length + 1 ∣ b.types.size + 1 - before.length := by
  have hend := getElem?_of_split hway hsplit hback
  have hnodup := nodup_tokens_of_split hway hsplit hback
  have hlast : ((q :: after).map TypePlan.token)[after.length]? = some (way.getLastD p).token := by
    have hlast : (q :: after)[after.length]? = some (after.getLastD q) := by
      rw [List.getLastD_eq_getLast?, ← List.getLast?_cons, List.getLast?_eq_getElem?]
      rfl
    rw [getLastD_of_split hsplit, List.getElem?_map, hlast, Option.map_some]
  -- tokens on the circle are different, so that positions can be compared instead
  have hshort : (b.types.size - before.length) % (after.length + 1) <
      ((q :: after).map TypePlan.token).length := by
    rw [List.length_map, List.length_cons]
    exact Nat.mod_lt _ (Nat.succ_pos _)
  have hsteps : b.types.size + 1 - before.length = b.types.size - before.length + 1 :=
    Nat.succ_sub (length_before_le hway hsplit)
  rw [hsteps, Nat.dvd_iff_mod_eq_zero, Nat.succ_mod_succ_eq_zero_iff,
    ← List.getElem?_inj hshort hnodup, hend, hlast, Option.some.injEq]

end Circle

end Blueprint

/-! ## The end of the bounded walk -/

/-- **The walk ends at the last type before it comes back, exactly if it has the steps for whole
rounds.** From each type there is one way outwards that stops where the declaring token is missing,
unknown or that of a visited type, and the type itself counts as visited. The top-level type is the
last one on this way, if and only if the way does not come back, or comes back behind the types
`before` to a circle `q :: after` whose length divides the number of the steps that are left there
and one more. In a circle, it is always the type at which these steps end. -/
theorem top_level_before_return_iff (b : Blueprint) (p : TypePlan) :
    ∃ way, b.Explores [p] p way ∧ (∀ way', b.Explores [p] p way' → way' = way) ∧
      (b.topLevel p = (way.getLastD p).token ↔
        ∀ before q after, p :: way = before ++ q :: after → b.outer? (way.getLastD p) = some q →
          after.length + 1 ∣ b.types.size + 1 - before.length) ∧
      ∀ before q after, p :: way = before ++ q :: after → b.outer? (way.getLastD p) = some q →
        ((q :: after).map TypePlan.token)[(b.types.size - before.length) % (after.length + 1)]? =
          some (b.topLevel p) := by
  have hknown : [p] ⊆ p :: b.types.toList := List.cons_subset_cons p (List.nil_subset _)
  obtain ⟨way, hway⟩ := Blueprint.Explores.exists_way (List.nodup_singleton p) hknown
    (b.types.size + 1) (Nat.lt_succ_self _) p
  refine ⟨way, hway, fun way' hway' => hway.unique hway', ⟨?_, ?_⟩,
    fun before q after hsplit hback => Blueprint.getElem?_of_split hway hsplit hback⟩
  · intro hend before q after hsplit hback
    exact (Blueprint.topLevel_eq_iff_of_split hway hsplit hback).mp hend
  · intro hrounds
    cases hback : b.outer? (way.getLastD p) with
    | none => exact hway.topLevel_of_none hback
    | some q =>
      have hvisited : q ∈ p :: way := by
        simpa [or_comm] using hway.mem_of_outer? hback
      obtain ⟨before, after, hsplit⟩ := List.append_of_mem hvisited
      exact (Blueprint.topLevel_eq_iff_of_split hway hsplit hback).mpr
        (hrounds before q after hsplit hback)

/-- A type that is nested in another one, by their rows. -/
def ringType (row outer : UInt32) (name : String) : TypePlan :=
  { token := Token.ofParts Table.typeDef row, space := "", name, flags := .empty
    flavor := .classType, module := "ring", declaring := some (Token.ofParts Table.typeDef outer) }

def ringInner : TypePlan := ringType 1 2 "Inner"

def ringOuter : TypePlan := ringType 2 1 "Outer"

/-- Two types, each of which is nested in the other one. -/
def ring : Blueprint := .ofTypes "ring" #[ringInner, ringOuter]

/-- The way from a type stops at the other one, but the walk goes on to where it began. -/
theorem top_level_before_return_iff_ring :
    ring.Explores [ringInner] ringInner [ringOuter] ∧
      ring.topLevel ringInner = ringInner.token ∧ ring.topLevel ringInner ≠ ringOuter.token := by
  have houter : ring.outer? ringInner = some ringOuter := rfl
  have hinner : ring.outer? ringOuter = some ringInner := rfl
  have hnew : ringOuter ∉ [ringInner] := by
    intro hmem
    exact absurd (congrArg TypePlan.token (List.mem_singleton.mp hmem)) (by decide)
  have hway : ring.Explores [ringInner] ringInner [ringOuter] :=
    .onward houter hnew (.returns hinner (by simp))
  obtain ⟨_, -, hunique, -, hend⟩ := top_level_before_return_iff ring ringInner
  obtain rfl := hunique [ringOuter] hway
  have htop : some ringInner.token = some (ring.topLevel ringInner) :=
    hend [] ringInner [ringOuter] rfl hinner
  have hback : ring.topLevel ringInner = ringInner.token := (Option.some.inj htop).symm
  exact ⟨hway, hback, hback ▸ by decide⟩

end ClrImage
