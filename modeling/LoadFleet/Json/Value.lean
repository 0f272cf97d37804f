import LoadFleet.Binary64.Layout
import LoadFleet.Text.Hex

/-!
# JSON values and their text

Values are written without blanks. How single strings and numbers are written is a parameter; the
standard way escapes in strings only the quote, the backslash and control characters, keeps the
fewest digits of a number that read back, and has `null` for what is no finite number.
-/

namespace LoadFleet
namespace Json

inductive Value where
  | null
  | natural (n : Nat)
  | real (x : Float)
  | text (s : String)
  | list (items : List Value)
  | record (fields : List (String × Value))

/-- How strings and numbers with a fraction are written. -/
structure Writer where
  string : String -> List Char
  real : Float -> List Char

mutual

def Value.write (writer : Writer) : Value -> List Char
  | .null => "null".toList
  | .natural n => Text.decimal n
  | .real x => writer.real x
  | .text s => writer.string s
  | .list items => '[' :: (Value.writeItems writer items ++ [']'])
  | .record fields => '\x7b' :: (Value.writeFields writer fields ++ ['\x7d'])

def Value.writeItems (writer : Writer) : List Value -> List Char
  | [] => []
  | [item] => item.write writer
  | item :: rest => item.write writer ++ ',' :: Value.writeItems writer rest

def Value.writeFields (writer : Writer) : List (String × Value) -> List Char
  | [] => []
  | [(name, value)] => writer.string name ++ ':' :: value.write writer
  | (name, value) :: rest =>
      writer.string name ++ ':' :: (value.write writer ++ ',' :: Value.writeFields writer rest)

end

def Value.optional (write : α -> Value) : Option α -> Value
  | none => .null
  | some a => write a

/-!
## The standard writer
-/

namespace Writer

/-- Numbers from a hundred-thousandth to below ten to the sixteenth are written positionally, a
whole number keeps a fraction, and an exponent always has a sign. -/
def numberLayout : Binary64.Layout where
  positional point := decide (-4 ≤ point ∧ point ≤ 16)
  fraction := true
  plus := true
  tie := .even
  nan := "null"
  infinity := "null"

def writeReal (x : Float) : List Char :=
  match Binary64.form x with
  | .finite _ _ _ => numberLayout.write x
  | _ => "null".toList

def escape (c : Char) : List Char :=
  if c = '"' then ['\\', '"']
  else if c = '\\' then ['\\', '\\']
  else if c = '\x08' then ['\\', 'b']
  else if c = '\t' then ['\\', 't']
  else if c = '\n' then ['\\', 'n']
  else if c = '\x0c' then ['\\', 'f']
  else if c = '\r' then ['\\', 'r']
  else if c.toNat < 32 then
    ['\\', 'u', '0', '0', Text.hexDigit (c.toNat / 16), Text.hexDigit (c.toNat % 16)]
  else [c]

def quote (s : String) : List Char :=
  '"' :: (s.toList.flatMap escape ++ ['"'])

def standard : Writer := ⟨quote, writeReal⟩

end Writer
end Json
end LoadFleet
