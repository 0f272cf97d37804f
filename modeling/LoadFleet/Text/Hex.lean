/-!
# Hexadecimal bytes

Each byte is written as two lower-case hexadecimal digits, the high half first.
-/

namespace LoadFleet
namespace Text

def hexDigit (value : Nat) : Char :=
  if value < 10 then Char.ofNat (48 + value) else Char.ofNat (87 + value)

def hexByte (byte : UInt8) : List Char :=
  [hexDigit (byte.toNat / 16), hexDigit (byte.toNat % 16)]

def hex (bytes : List UInt8) : String :=
  String.ofList (bytes.flatMap hexByte)

def hexValue? (c : Char) : Option Nat :=
  if '0' ≤ c ∧ c ≤ '9' then some (c.toNat - 48)
  else if 'a' ≤ c ∧ c ≤ 'f' then some (c.toNat - 87)
  else if 'A' ≤ c ∧ c ≤ 'F' then some (c.toNat - 55)
  else none

def hexNumber? (cs : List Char) : Option Nat :=
  cs.foldl (fun value c => do return (← value) * 16 + (← hexValue? c)) (some 0)

def hexBytes? : List Char -> Option (List UInt8)
  | [] => some []
  | [_] => none
  | high :: low :: rest => do
      let value := (← hexValue? high) * 16 + (← hexValue? low)
      return UInt8.ofNat value :: (← hexBytes? rest)

end Text
end LoadFleet
