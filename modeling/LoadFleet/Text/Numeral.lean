/-!
# Decimal numerals

A natural number is written with its decimal digits and no leading zero. Reading is wider: it
takes an optional plus sign and any number of leading zeros, and refuses a value above a limit.
When a text is both too large and badly formed, the fault that stands further left is reported.
-/

namespace LoadFleet
namespace Text

/-!
## Writing
-/

def digitChar (digit : Nat) : Char :=
  Char.ofNat (48 + digit)

def decimal (n : Nat) : List Char :=
  if n < 10 then [digitChar n] else decimal (n / 10) ++ [digitChar (n % 10)]

def natural (n : Nat) : String :=
  String.ofList (decimal n)

/-!
## Reading
-/

inductive NumeralFault where
  | empty
  | invalidDigit
  | tooLarge
deriving DecidableEq

def NumeralFault.message : NumeralFault -> String
  | .empty => "cannot parse integer from empty string"
  | .invalidDigit => "invalid digit found in string"
  | .tooLarge => "number too large to fit in target type"

def digit? (c : Char) : Option Nat :=
  if '0' ≤ c ∧ c ≤ '9' then some (c.toNat - 48) else none

/-- The value of a run of digits after the digits already read, as long as it stays within the
limit. -/
def readDigits (limit : Nat) (value : Nat) : List Char -> Except NumeralFault Nat
  | [] => .ok value
  | c :: rest =>
      match digit? c with
      | none => .error .invalidDigit
      | some digit =>
          if value * 10 + digit ≤ limit then readDigits limit (value * 10 + digit) rest
          else .error .tooLarge

/-- The value of a numeral: an optional plus sign and at least one digit. -/
def readNumeral (limit : Nat) : List Char -> Except NumeralFault Nat
  | [] => .error .empty
  | ['+'] => .error .invalidDigit
  | '+' :: rest => readDigits limit 0 rest
  | cs => readDigits limit 0 cs

def greatest16 : Nat := 65535

def greatest32 : Nat := 4294967295

def greatest64 : Nat := 18446744073709551615

def readWord32 (cs : List Char) : Except NumeralFault UInt32 :=
  UInt32.ofNat <$> readNumeral greatest32 cs

def readWord64 (cs : List Char) : Except NumeralFault UInt64 :=
  UInt64.ofNat <$> readNumeral greatest64 cs

end Text
end LoadFleet
