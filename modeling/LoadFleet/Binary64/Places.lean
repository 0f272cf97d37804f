import LoadFleet.Binary64.Form
import LoadFleet.Text.Numeral

/-!
# A fixed number of places

The exact value of a number is rounded to a given count of decimal places, a half to the even
neighbour. The sign is kept, also where nothing but zeros is left.
-/

namespace LoadFleet
namespace Binary64

/-- The natural number nearest to a quotient, a half to the even neighbour. -/
def Quotient.round (q : Quotient) : Nat :=
  let below := q.numerator / q.denominator
  let rest := q.numerator % q.denominator
  if 2 * rest < q.denominator then below
  else if q.denominator < 2 * rest then below + 1
  else if below % 2 = 0 then below else below + 1

/-- A count of units in the last place, with the decimal point put in. -/
def placed (places units : Nat) : List Char :=
  let digits := Text.decimal units
  let filled := List.replicate (places + 1 - digits.length) '0' ++ digits
  let whole := filled.take (filled.length - places)
  if places = 0 then whole else whole ++ '.' :: filled.drop (filled.length - places)

def fixed (places : Nat) (x : Float) : String :=
  match form x with
  | .nan => "NaN"
  | .infinite negative => if negative then "-inf" else "inf"
  | .finite negative significand exponent =>
      String.ofList <|
        (if negative then ['-'] else [])
          ++ placed places ((dyadic significand exponent).scale places).round

end Binary64
end LoadFleet
