import ClrImage.Decimal.Binary

/-!
# Shortest decimals

The shortest decimal that reads back as a given binary number, and of those the nearest.

* `Decimal.shortest`: digits and exponent of that decimal.
* `Decimal.positional`: a decimal without an exponent.
* `Decimal.render`: the text of a floating-point word.
-/

namespace ClrImage.Decimal

/-- The number of decimal digits of `n`. -/
def digitCount (n : Nat) : Nat := (Nat.toDigits 10 n).length

/-- The fraction `num / den` lies between `10 ^ (leading num den - 1)` and
`10 ^ leading num den`, the latter excluded. -/
def leading (num den : Nat) : Int :=
  if den ≤ num then digitCount (num / den) else 1 - (digitCount ((den - 1) / num) : Int)

/-- The reals that round to a number, scaled by four: `center` over `unit`, from `low` to `high`,
the ends included if `closed`. -/
structure Interval where
  low : Nat
  center : Nat
  high : Nat
  unit : Nat
  closed : Bool

/-- Half the gap to either neighbour rounds to the number, and the midpoints do exactly if the
mantissa is even. -/
def Scaled.interval (v : Scaled) : Interval :=
  let up := Nat.pow 2 v.exponent.toNat
  { low := (4 * v.mantissa - if v.narrowBelow then 1 else 2) * up
    center := 4 * v.mantissa * up
    high := (4 * v.mantissa + 2) * up
    unit := 4 * Nat.pow 2 (-v.exponent).toNat
    closed := v.mantissa % 2 == 0 }

/-- Whether the fraction `num / den` lies in the interval. -/
def Interval.holds (i : Interval) (num den : Nat) : Bool :=
  let value := num * i.unit
  if i.closed then i.low * den ≤ value && value ≤ i.high * den
  else i.low * den < value && value < i.high * den

/-- A decimal `digits * 10 ^ exponent`. -/
structure Digits where
  digits : Nat
  exponent : Int
deriving DecidableEq, Repr

/-- Of the two multiples of `10 ^ exponent` next to the number, the nearest that lies in the
interval. A number midway between them goes up. -/
def Interval.onGrid (i : Interval) (exponent : Int) : Option Digits :=
  let scale := Nat.pow 10 (-exponent).toNat
  let step := Nat.pow 10 exponent.toNat
  let below := i.center * scale / (i.unit * step)
  let lowIn := i.holds (below * step) scale
  let highIn := i.holds ((below + 1) * step) scale
  let upper := i.unit * step ≤ 2 * (i.center * scale % (i.unit * step))
  if highIn && (upper || !lowIn) then some ⟨below + 1, exponent⟩
  else if lowIn then some ⟨below, exponent⟩
  else none

/-- The first grid with a hit, from the coarsest on; `fuel` bounds the number of grids. -/
def Interval.search (i : Interval) : (fuel : Nat) → (exponent : Int) → Option Digits
  | 0, _ => none
  | fuel + 1, exponent => i.onGrid exponent <|> i.search fuel (exponent - 1)

/-- Seventeen digits identify every number of either format. -/
def shortest (v : Scaled) : Option Digits :=
  let i := v.interval
  i.search 17 (leading i.center i.unit - 1)

/-- A decimal without exponent, without trailing zeros after the point, and without a point if no
digit follows it. -/
def positional (d : Digits) : String :=
  let digits := Nat.toDigits 10 d.digits
  if 0 ≤ d.exponent then
    String.ofList (digits ++ List.replicate d.exponent.toNat '0')
  else
    let places := (-d.exponent).toNat
    let padded := List.replicate (places + 1 - digits.length) '0' ++ digits
    let whole := padded.take (padded.length - places)
    let rest := (padded.drop (padded.length - places)).reverse.dropWhile (· == '0') |>.reverse
    if rest.isEmpty then String.ofList whole else String.ofList (whole ++ '.' :: rest)

/-- The text of a floating-point word: the shortest decimal in positional notation. Zeros keep their
sign. -/
def render (f : BinaryFormat) (word : Nat) : String :=
  let sign := if f.isNegative word then "-" else ""
  match f.classify word with
  | .nan => "NaN"
  | .infinite => sign ++ "inf"
  | .zero => sign ++ "0"
  | .finite v => sign ++ ((shortest v).map positional).getD ""

end ClrImage.Decimal
