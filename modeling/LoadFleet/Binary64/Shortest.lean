import LoadFleet.Binary64.Form
import LoadFleet.Text.Numeral

/-!
# The fewest digits that read back

The numbers that round to a given binary64 number fill an interval around it, which includes its
ends exactly when the significand is even. The shortest decimal is looked for grid by grid, from
one significant digit to seventeen: on each grid only the two neighbours of the number can lie
in the interval, the first grid with a hit decides, and of two hits the nearer one is taken.
-/

namespace LoadFleet
namespace Binary64

/-- Significant digits with the place of the decimal point: the value is `0.digits` times ten to
the power `point`. -/
structure Digits where
  digits : List Char
  point : Int
deriving DecidableEq

inductive Tie where
  | up
  | even
deriving DecidableEq

/-- The numbers that round to a binary64 number, in units of a quarter of its last place. -/
structure Interval where
  low : Nat
  value : Nat
  high : Nat
  unit : Quotient
  closed : Bool

/-- The interval of a positive number. Below a power of two the numbers lie half as far apart. -/
def interval (significand : Nat) (exponent : Int) : Interval where
  low := if significand = leadingBit ∧ -1074 < exponent then 4 * significand - 1
    else 4 * significand - 2
  value := 4 * significand
  high := 4 * significand + 2
  unit := dyadic 1 (exponent - 2)
  closed := significand % 2 = 0

def digitCount (n : Nat) : Nat := (Text.decimal n).length

/-- The power `k` for which a positive quotient lies from `10 ^ (k - 1)` to below `10 ^ k`. -/
def magnitude (q : Quotient) : Int :=
  if q.denominator ≤ q.numerator then digitCount (q.numerator / q.denominator)
  else
    let count := digitCount (q.denominator / q.numerator)
    if q.denominator = q.numerator * Nat.pow 10 (count - 1) then 2 - (count : Int)
    else 1 - (count : Int)

/-- Whether a multiple of a grid's unit lies in the interval; `step` is the unit of the interval
in units of the grid. -/
def Interval.holds (i : Interval) (step : Quotient) (candidate : Nat) : Bool :=
  let scaled := candidate * step.denominator
  let low := i.low * step.numerator
  let high := i.high * step.numerator
  if i.closed then decide (low ≤ scaled ∧ scaled ≤ high) else decide (low < scaled ∧ scaled < high)

def Interval.nearest? (i : Interval) (tie : Tie) (step : Quotient) : Option Nat :=
  let scaled := i.value * step.numerator
  let below := scaled / step.denominator
  let rest := scaled % step.denominator
  let above := if rest = 0 then below else below + 1
  match i.holds step below, i.holds step above with
  | true, true =>
      if 2 * rest < step.denominator then some below
      else if step.denominator < 2 * rest then some above
      else
        match tie with
        | .up => some above
        | .even => if below % 2 = 0 then some below else some above
  | true, false => some below
  | false, true => some above
  | false, false => none

def withoutTrailingZeros (digits : List Char) : List Char :=
  (digits.reverse.dropWhile (· == '0')).reverse

def shortestFrom (i : Interval) (tie : Tie) (power : Int) (count : Nat) : Nat -> Digits
  | 0 => ⟨['0'], 1⟩
  | fuel + 1 =>
      match i.nearest? tie (i.unit.scale (count - power)) with
      | some found =>
          let digits := Text.decimal found
          ⟨withoutTrailingZeros digits, power + digits.length - count⟩
      | none => shortestFrom i tie power (count + 1) fuel

def shortest (tie : Tie) (significand : Nat) (exponent : Int) : Digits :=
  if significand = 0 then ⟨['0'], 1⟩
  else
    shortestFrom (interval significand exponent) tie (magnitude (dyadic significand exponent)) 1 17

end Binary64
end LoadFleet
