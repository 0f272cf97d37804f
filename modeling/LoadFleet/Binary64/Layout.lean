import LoadFleet.Binary64.Shortest

/-!
# Laying out a shortest decimal

A layout says how the digits of a number become text: for which places of the decimal point they
are written positionally, whether a whole number keeps a fraction, and how an exponent looks.
-/

namespace LoadFleet
namespace Binary64

structure Layout where
  /-- Whether digits with this place of the decimal point are written positionally. -/
  positional : Int -> Bool
  /-- Whether a whole number written positionally ends in `.0`. -/
  fraction : Bool
  /-- Whether an exponent that is not negative has a plus sign. -/
  plus : Bool
  tie : Tie
  nan : String
  infinity : String

def Digits.positional (fraction : Bool) (d : Digits) : List Char :=
  if d.point ≤ 0 then
    '0' :: '.' :: (List.replicate (-d.point).toNat '0' ++ d.digits)
  else
    let whole := d.digits.take d.point.toNat
    let rest := d.digits.drop d.point.toNat
    let filled := whole ++ List.replicate (d.point.toNat - d.digits.length) '0'
    if rest.isEmpty then
      if fraction then filled ++ ['.', '0'] else filled
    else filled ++ '.' :: rest

def Digits.scientific (plus : Bool) (d : Digits) : List Char :=
  let power := d.point - 1
  let sign := if power < 0 then ['-'] else if plus then ['+'] else []
  let mantissa :=
    match d.digits with
    | [] => ['0']
    | [digit] => [digit]
    | digit :: rest => digit :: '.' :: rest
  mantissa ++ 'e' :: (sign ++ Text.decimal power.natAbs)

def Layout.digits (layout : Layout) (d : Digits) : List Char :=
  if layout.positional d.point then d.positional layout.fraction else d.scientific layout.plus

def Layout.write (layout : Layout) (x : Float) : List Char :=
  match form x with
  | .nan => layout.nan.toList
  | .infinite negative => (if negative then ['-'] else []) ++ layout.infinity.toList
  | .finite negative significand exponent =>
      (if negative then ['-'] else []) ++ layout.digits (shortest layout.tie significand exponent)

def Layout.text (layout : Layout) (x : Float) : String :=
  String.ofList (layout.write x)

end Binary64
end LoadFleet
