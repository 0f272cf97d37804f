/-!
# Binary64 numbers taken apart

A binary64 word holds a sign, eleven exponent bits and fifty-two fraction bits. Unless it is an
infinity or no number at all, its magnitude is a natural number times a power of two, and all
exact questions about it (its digits, its ceiling) are asked of that pair.
-/

namespace LoadFleet
namespace Binary64

inductive Form where
  | nan
  | infinite (negative : Bool)
  | finite (negative : Bool) (significand : Nat) (exponent : Int)
deriving DecidableEq

/-- The number of fractions, which is also the weight of the leading bit in front of them. -/
def leadingBit : Nat := 4503599627370496

def signBit (word : Nat) : Bool := decide (word / 9223372036854775808 % 2 = 1)

def exponentField (word : Nat) : Nat := word / leadingBit % 2048

def fractionField (word : Nat) : Nat := word % leadingBit

/-- The form of a word. An exponent field of zero holds the subnormal numbers, without the
leading bit; a field of all ones holds the infinities and what is no number. -/
def formOfWord (word : Nat) : Form :=
  if exponentField word = 2047 then
    if fractionField word = 0 then .infinite (signBit word) else .nan
  else if exponentField word = 0 then
    .finite (signBit word) (fractionField word) (-1074)
  else
    .finite (signBit word) (leadingBit + fractionField word) (exponentField word - 1075)

def form (x : Float) : Form :=
  formOfWord x.toBits.toNat

/-!
## Exact magnitudes as quotients
-/

structure Quotient where
  numerator : Nat
  denominator : Nat
  denominator_pos : 0 < denominator

def dyadic (significand : Nat) (exponent : Int) : Quotient where
  numerator := significand * Nat.pow 2 exponent.toNat
  denominator := Nat.pow 2 (-exponent).toNat
  denominator_pos := Nat.two_pow_pos _

def Quotient.ceil (q : Quotient) : Nat :=
  (q.numerator + (q.denominator - 1)) / q.denominator

def Quotient.scale (q : Quotient) (power : Int) : Quotient where
  numerator := q.numerator * Nat.pow 10 power.toNat
  denominator := q.denominator * Nat.pow 10 (-power).toNat
  denominator_pos := Nat.mul_pos q.denominator_pos (Nat.pow_pos (by decide))

/-- The ceiling of a number that is finite and not below zero. -/
def ceil? (x : Float) : Option Nat :=
  match form x with
  | .finite false significand exponent => some (dyadic significand exponent).ceil
  | .finite true 0 _ => some 0
  | _ => none

end Binary64
end LoadFleet
