import LoadFleet.Text.Hex
import LoadFleet.Text.Numeral

/-!
# JSON texts read into trees

The reader checks the grammar of a whole text and keeps what a typed reading needs: numbers as
they are written, fields in order and with repetitions. A string that stands for no sequence of
characters, because an escape names half a surrogate pair, is kept as such, so that it can still
be passed over.
-/

namespace LoadFleet
namespace Json

inductive Tree where
  | null
  | boolean (value : Bool)
  | number (lexeme : List Char)
  | text (value : Option String)
  | list (items : List Tree)
  | record (fields : List (Option String × Tree))

/-!
## Lexemes

Each reader gives what it has read and the characters after it. The number of an escape is not yet a
character: two of them may make up one. A number has no leading zero, and its fraction and exponent
may be left out.
-/

def isBlank (c : Char) : Bool :=
  c == ' ' || c == '\n' || c == '\t' || c == '\r'

def skipBlank (cs : List Char) : List Char := cs.dropWhile isBlank

inductive Piece where
  | plain (c : Char)
  | unit (value : Nat)

def shortEscape? : Char -> Option Char
  | '"' => some '"'
  | '\\' => some '\\'
  | '/' => some '/'
  | 'b' => some '\x08'
  | 'f' => some '\x0c'
  | 'n' => some '\n'
  | 'r' => some '\r'
  | 't' => some '\t'
  | _ => none

def readPieces : List Char -> Option (List Piece × List Char)
  | [] => none
  | '"' :: rest => some ([], rest)
  | '\\' :: 'u' :: a :: b :: c :: d :: rest => do
      let value ← Text.hexNumber? [a, b, c, d]
      let (pieces, rest) ← readPieces rest
      return (.unit value :: pieces, rest)
  | '\\' :: c :: rest => do
      let plain ← shortEscape? c
      let (pieces, rest) ← readPieces rest
      return (.plain plain :: pieces, rest)
  | c :: rest => do
      if c.toNat < 32 then none
      else
        let (pieces, rest) ← readPieces rest
        return (.plain c :: pieces, rest)

def isHighSurrogate (unit : Nat) : Bool := 0xD800 ≤ unit && unit ≤ 0xDBFF

def isLowSurrogate (unit : Nat) : Bool := 0xDC00 ≤ unit && unit ≤ 0xDFFF

/-- The characters of pieces, if every surrogate has its partner. -/
def decodePieces : List Piece -> Option (List Char)
  | [] => some []
  | .plain c :: rest => (decodePieces rest).map (c :: ·)
  | .unit high :: .unit low :: rest =>
      if isHighSurrogate high then
        if isLowSurrogate low then
          (decodePieces rest).map
            (Char.ofNat (0x10000 + (high - 0xD800) * 0x400 + (low - 0xDC00)) :: ·)
        else none
      else if isLowSurrogate high then none
      else (decodePieces (.unit low :: rest)).map (Char.ofNat high :: ·)
  | .unit value :: rest =>
      if isHighSurrogate value || isLowSurrogate value then none
      else (decodePieces rest).map (Char.ofNat value :: ·)

def pieceText (pieces : List Piece) : Option String := (decodePieces pieces).map String.ofList

def spanDigits (cs : List Char) : List Char × List Char := cs.span Char.isDigit

def readWhole (cs : List Char) : Option (List Char × List Char) :=
  match spanDigits cs with
  | ([], _) => none
  | (['0'], rest) => some (['0'], rest)
  | ('0' :: _, _) => none
  | (digits, rest) => some (digits, rest)

def readFraction : List Char -> Option (List Char × List Char)
  | '.' :: cs =>
      match spanDigits cs with
      | ([], _) => none
      | (digits, rest) => some ('.' :: digits, rest)
  | cs => some ([], cs)

def readExponent (cs : List Char) : Option (List Char × List Char) :=
  match cs with
  | e :: rest =>
      if e = 'e' ∨ e = 'E' then
        let (sign, rest) :=
          match rest with
          | '+' :: rest => (['+'], rest)
          | '-' :: rest => (['-'], rest)
          | _ => ([], rest)
        match spanDigits rest with
        | ([], _) => none
        | (digits, rest) => some (e :: sign ++ digits, rest)
      else some ([], cs)
  | [] => some ([], [])

def readNumber (cs : List Char) : Option (List Char × List Char) := do
  let (sign, cs) :=
    match cs with
    | '-' :: rest => (['-'], rest)
    | _ => ([], cs)
  let (whole, cs) ← readWhole cs
  let (fraction, cs) ← readFraction cs
  let (exponent, cs) ← readExponent cs
  return (sign ++ whole ++ fraction ++ exponent, cs)

def readScalar : List Char -> Option (Tree × List Char)
  | 'n' :: 'u' :: 'l' :: 'l' :: rest => some (.null, rest)
  | 't' :: 'r' :: 'u' :: 'e' :: rest => some (.boolean true, rest)
  | 'f' :: 'a' :: 'l' :: 's' :: 'e' :: rest => some (.boolean false, rest)
  | cs => do
      let (lexeme, rest) ← readNumber cs
      return (.number lexeme, rest)

/-!
## Trees

The fuel of these functions bounds the depth of their calls; each character needs at most two.
-/

mutual

def readValue : Nat -> List Char -> Option (Tree × List Char)
  | 0, _ => none
  | fuel + 1, cs =>
      match skipBlank cs with
      | '"' :: rest => do
          let (pieces, rest) ← readPieces rest
          return (.text (pieceText pieces), rest)
      | '[' :: rest =>
          match skipBlank rest with
          | ']' :: rest => some (.list [], rest)
          | rest => do
              let (items, rest) ← readItems fuel rest
              return (.list items, rest)
      | '\x7b' :: rest =>
          match skipBlank rest with
          | '\x7d' :: rest => some (.record [], rest)
          | rest => do
              let (fields, rest) ← readFields fuel rest
              return (.record fields, rest)
      | cs => readScalar cs

def readItems : Nat -> List Char -> Option (List Tree × List Char)
  | 0, _ => none
  | fuel + 1, cs => do
      let (item, rest) ← readValue fuel cs
      match skipBlank rest with
      | ',' :: rest =>
          let (items, rest) ← readItems fuel rest
          return (item :: items, rest)
      | ']' :: rest => return ([item], rest)
      | _ => none

def readFields : Nat -> List Char -> Option (List (Option String × Tree) × List Char)
  | 0, _ => none
  | fuel + 1, cs =>
      match skipBlank cs with
      | '"' :: cs => do
          let (name, cs) ← readPieces cs
          match skipBlank cs with
          | ':' :: cs =>
              let (value, rest) ← readValue fuel cs
              match skipBlank rest with
              | ',' :: rest =>
                  let (fields, rest) ← readFields fuel rest
                  return ((pieceText name, value) :: fields, rest)
              | '\x7d' :: rest => return ([(pieceText name, value)], rest)
              | _ => none
          | _ => none
      | _ => none

end

def Tree.ofText? (text : String) : Option Tree := do
  let cs := text.toList
  let (tree, rest) ← readValue (2 * cs.length + 2) cs
  if (skipBlank rest).isEmpty then some tree else none

/-!
## Typed readings
-/

namespace Tree

def string? : Tree -> Option String
  | .text value => value
  | _ => none

def strings? : Tree -> Option (List String)
  | .list items => items.mapM string?
  | _ => none

end Tree
end Json
end LoadFleet
