import TaxonomyPress.Number.Digits
import TaxonomyPress.Reader

/-!
# Decimal numbers and their nearest binary ones

* `Decimal` : a sign, a coefficient and a power of ten; `Decimal.ofText?` reads one;
* `Binary64` : a sign, a significand below `2 ^ 53` and a power of two;
* `Decimal.nearest` : the nearest double, ties to the even significand, unless it is too large;
* `Binary64.shortest` : of the decimals that a double is nearest to, one with the fewest digits, and
  of those the nearest;
* `DecimalNotation.write` : a decimal as text, positional or with an exponent.
-/

namespace TaxonomyPress

/-- The number `± coefficient * 10 ^ exponent`. -/
structure Decimal where
  negative : Bool
  coefficient : Nat
  exponent : Int
deriving DecidableEq

/-- The number `± significand * 2 ^ exponent`. -/
structure Binary64 where
  negative : Bool
  significand : Nat
  exponent : Int
deriving DecidableEq

/-! ## Reading -/

namespace Decimal

/-- A sign, which may be absent. -/
def sign : Reader Bool :=
  (do Reader.char '-'; return true) <|> (do Reader.char '+'; return false) <|> return false

/-- The power of ten behind an `e`, zero if there is none. -/
def power : Reader Int :=
  (do
    let _ ← Reader.satisfying fun c => c == 'e' || c == 'E'
    let negative ← sign
    let digits ← Reader.takeSome isDecimalDigit
    let n : Int := ofDigits 10 digits
    return if negative then -n else n)
  <|> return 0

/-- Digits with at most one point among, before or behind them, and a power of ten. -/
def unsigned (negative : Bool) : Reader Decimal := do
  let whole ← Reader.takeWhile isDecimalDigit
  let fraction ← (do Reader.char '.'; Reader.takeWhile isDecimalDigit) <|> return []
  Reader.check !(whole ++ fraction).isEmpty
  let e ← power
  return ⟨negative, ofDigits 10 (whole ++ fraction), e - fraction.length⟩

/-- The number that a text writes, such as `1`, `-1.5`, `.5`, `5.` or `+1E3`. -/
def ofText? (s : String) : Option Decimal :=
  Reader.run (do let negative ← sign; unsigned negative) s.toList

end Decimal

/-- The decimal with its first `count` digits only. -/
def Decimal.leading (count : Nat) (x : Decimal) : Decimal :=
  let excess := (decimalText x.coefficient).length - count
  { x with coefficient := x.coefficient / Nat.pow 10 excess, exponent := x.exponent + excess }

/-! ## Rounding to a double -/

/-- The quotient `n / d` to the nearest whole number, ties to the even one. -/
def roundQuotient (n d : Nat) : Nat :=
  let q := n / d
  let twice := 2 * (n % d)
  if twice < d then q else if d < twice then q + 1 else if q % 2 = 0 then q else q + 1

namespace Decimal

/-- The nearest double; `none` if it would exceed the largest finite one. -/
def nearest (x : Decimal) : Option Binary64 :=
  let magnitude : Int := (decimalText x.coefficient).length + x.exponent
  if x.coefficient = 0 ∨ magnitude < -400 then some ⟨x.negative, 0, 0⟩
  else if 400 < magnitude then none
  else
    let n := x.coefficient * Nat.pow 10 x.exponent.toNat
    let d := Nat.pow 10 (-x.exponent).toNat
    let scaled (q : Int) : Nat × Nat := (n * Nat.pow 2 (-q).toNat, d * Nat.pow 2 q.toNat)
    let low : Int := max (-1074) (Int.ofNat n.log2 - Int.ofNat d.log2 - 53)
    let quotient := (scaled low).1 / (scaled low).2
    let q := if quotient < Nat.pow 2 53 then low else low + 1
    let m := roundQuotient (scaled q).1 (scaled q).2
    let (m, q) := if m = Nat.pow 2 53 then (Nat.pow 2 52, q + 1) else (m, q)
    if 971 < q then none else some ⟨x.negative, m, q⟩

end Decimal

/-! ## Shortest digits -/

namespace Binary64

/-- A decimal grid point `d * 10 ^ k` that rounds to the double, the nearer one of two neighbours.
All quantities are multiples of a quarter of the unit in the last place, scaled to whole numbers;
the ends of the interval count if the significand is even. -/
def gridPoint (m : Nat) (q k : Int) : Option Nat :=
  let scale := Nat.pow 2 (q - 2).toNat * Nat.pow 10 (-k).toNat
  let step := Nat.pow 2 (2 - q).toNat * Nat.pow 10 k.toNat
  let value := 4 * m * scale
  let low := (if m = Nat.pow 2 52 ∧ -1074 < q then 4 * m - 1 else 4 * m - 2) * scale
  let high := (4 * m + 2) * scale
  let rounds (d : Nat) : Bool :=
    if m % 2 = 0 then low ≤ d * step && d * step ≤ high else low < d * step && d * step < high
  let below := value / step
  let above := below + 1
  match rounds below, rounds above with
  | false, false => none
  | true, false => some below
  | false, true => some above
  | true, true =>
    let down := value - below * step
    let up := above * step - value
    some (if down < up ∨ (down = up ∧ below % 2 = 0) then below else above)

/-- The decimal with the fewest digits that rounds to the double. -/
def shortest (x : Binary64) : Decimal :=
  if x.significand = 0 then ⟨x.negative, 0, 0⟩
  else
    let top : Int := (Int.ofNat x.significand.log2 + x.exponent + 1) * 30103 / 100000 + 2
    let candidates := (List.range 25).findSome? fun i =>
      let k := top - Int.ofNat i
      (gridPoint x.significand x.exponent k).map (·, k)
    match candidates with
    | some (d, k) => ⟨x.negative, d, k⟩
    | none => ⟨x.negative, 0, 0⟩

end Binary64

/-! ## Writing -/

/-- How a decimal is written: where the point may stand for positional digits, and the mark and the
signs of the exponent elsewhere. The point stands behind the digit with the given number. -/
structure DecimalNotation where
  leastPoint : Int
  greatestPoint : Int
  mark : String
  plus : String
  /-- Whether a lone first digit is followed by `.0` in front of an exponent. -/
  pointBeforeMark : Bool
  /-- Whether the positional digits of a whole number are followed by `.0`. -/
  pointAfterWhole : Bool := true

namespace DecimalNotation

/-- `count` zeros. -/
def zeros (count : Int) : String := String.ofList (List.replicate count.toNat '0')

/-- Digits with the point behind the digit number `point`. -/
def positional (style : DecimalNotation) (digits : List Char) (point : Int) : String :=
  let count : Int := digits.length
  if point ≤ 0 then "0." ++ zeros (-point) ++ String.ofList digits
  else if count ≤ point then
    String.ofList digits ++ zeros (point - count) ++ (if style.pointAfterWhole then ".0" else "")
  else String.ofList (digits.take point.toNat) ++ "." ++ String.ofList (digits.drop point.toNat)

/-- One digit before the point and an exponent. -/
def scientific (style : DecimalNotation) (digits : List Char) (point : Int) : String :=
  let fraction := digits.drop 1
  let e := point - 1
  String.ofList (digits.take 1)
    ++ (if fraction.isEmpty then (if style.pointBeforeMark then ".0" else "")
        else "." ++ String.ofList fraction)
    ++ style.mark ++ (if e < 0 then signedText e else style.plus ++ signedText e)

/-- A decimal as text. Zero has the digit 0 before the point. -/
def write (style : DecimalNotation) (x : Decimal) : String :=
  let digits := decimalDigits x.coefficient []
  let point : Int := if x.coefficient = 0 then 1 else digits.length + x.exponent
  (if x.negative then "-" else "")
    ++ (if style.leastPoint ≤ point ∧ point ≤ style.greatestPoint then style.positional digits point
        else style.scientific digits point)

end DecimalNotation

end TaxonomyPress
