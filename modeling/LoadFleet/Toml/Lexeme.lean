import LoadFleet.Text.Hex
import LoadFleet.Text.Numeral

/-!
# The lexemes of TOML

Blanks, comments, strings, keys, numbers, dates and times. Each reader gives what it has read and
the characters after it.
-/

namespace LoadFleet
namespace Toml

/-!
## Blanks and comments

Inside a comment any character may stand but the control characters other than the tab. Between
values, blanks, ends of lines and comments are skipped together; behind a value only a comment may
follow on its line.
-/

def isBlank (c : Char) : Bool := c == ' ' || c == '\t'

def skipBlank (cs : List Char) : List Char := cs.dropWhile isBlank

def isPlain (c : Char) : Bool := c == '\t' || (0x20 ≤ c.toNat && c.toNat != 0x7F)

def newline? : List Char -> Option (List Char)
  | '\n' :: rest => some rest
  | '\r' :: '\n' :: rest => some rest
  | _ => none

def skipNewline (cs : List Char) : List Char := (newline? cs).getD cs

def skipTrivia : (comment : Bool) -> List Char -> List Char
  | _, [] => []
  | comment, c :: rest =>
      if comment && isPlain c then skipTrivia true rest
      else if isBlank c || c == '\n' then skipTrivia false rest
      else if c == '#' then skipTrivia true rest
      else if c == '\r' && rest.head? == some '\n' then skipTrivia false rest
      else c :: rest

def endLine (cs : List Char) : Option (List Char) :=
  let cs := skipBlank cs
  let cs :=
    match cs with
    | '#' :: comment => comment.dropWhile isPlain
    | _ => cs
  if cs.isEmpty then some [] else newline? cs

/-!
## Strings

Every reader starts behind the opening quotes and stops behind the closing ones. Strings over
several lines may end in up to two quotes of their own, and a basic one skips blanks and ends of
lines after a backslash at the end of a line.
-/

def scalar? (value : Nat) : Option Char :=
  if value < 0xD800 ∨ (0xDFFF < value ∧ value < 0x110000) then some (Char.ofNat value) else none

def shortEscape? : Char -> Option Char
  | 'b' => some '\x08'
  | 'f' => some '\x0c'
  | 'n' => some '\n'
  | 'r' => some '\r'
  | 't' => some '\t'
  | '"' => some '"'
  | '\\' => some '\\'
  | _ => none

def hexEscape? (digits : List Char) : Option Char := do scalar? (← Text.hexNumber? digits)

def readBasic : List Char -> Option (List Char × List Char)
  | [] => none
  | '"' :: rest => some ([], rest)
  | '\\' :: 'u' :: a :: b :: c :: d :: rest => do
      let escaped ← hexEscape? [a, b, c, d]
      let (text, rest) ← readBasic rest
      return (escaped :: text, rest)
  | '\\' :: 'U' :: a :: b :: c :: d :: e :: f :: g :: h :: rest => do
      let escaped ← hexEscape? [a, b, c, d, e, f, g, h]
      let (text, rest) ← readBasic rest
      return (escaped :: text, rest)
  | '\\' :: c :: rest => do
      let escaped ← shortEscape? c
      let (text, rest) ← readBasic rest
      return (escaped :: text, rest)
  | c :: rest =>
      if isPlain c then do
        let (text, rest) ← readBasic rest
        return (c :: text, rest)
      else none

def readLiteral : List Char -> Option (List Char × List Char)
  | [] => none
  | '\x27' :: rest => some ([], rest)
  | c :: rest =>
      if isPlain c then do
        let (text, rest) ← readLiteral rest
        return (c :: text, rest)
      else none

def blankToNewline (cs : List Char) : Bool := (newline? (skipBlank cs)).isSome

def readLongBasic : (skipping : Bool) -> List Char -> Option (List Char × List Char)
  | _, [] => none
  | skipping, c :: rest =>
      if skipping && (isBlank c || c == '\n' || (c == '\r' && rest.head? == some '\n')) then
        readLongBasic true rest
      else
        match c, rest with
        | '"', '"' :: '"' :: '"' :: '"' :: rest => some (['"', '"'], rest)
        | '"', '"' :: '"' :: '"' :: rest => some (['"'], rest)
        | '"', '"' :: '"' :: rest => some ([], rest)
        | '\\', 'u' :: a :: b :: c :: d :: rest => do
            let escaped ← hexEscape? [a, b, c, d]
            let (text, rest) ← readLongBasic false rest
            return (escaped :: text, rest)
        | '\\', 'U' :: a :: b :: c :: d :: e :: f :: g :: h :: rest => do
            let escaped ← hexEscape? [a, b, c, d, e, f, g, h]
            let (text, rest) ← readLongBasic false rest
            return (escaped :: text, rest)
        | '\\', c :: rest =>
            if blankToNewline (c :: rest) then readLongBasic true (c :: rest)
            else do
              let escaped ← shortEscape? c
              let (text, rest) ← readLongBasic false rest
              return (escaped :: text, rest)
        | '\r', '\n' :: rest => do
            let (text, rest) ← readLongBasic false rest
            return ('\n' :: text, rest)
        | c, rest =>
            if isPlain c || c == '\n' then do
              let (text, rest) ← readLongBasic false rest
              return (c :: text, rest)
            else none

def readLongLiteral : List Char -> Option (List Char × List Char)
  | [] => none
  | '\x27' :: '\x27' :: '\x27' :: '\x27' :: '\x27' :: rest => some (['\x27', '\x27'], rest)
  | '\x27' :: '\x27' :: '\x27' :: '\x27' :: rest => some (['\x27'], rest)
  | '\x27' :: '\x27' :: '\x27' :: rest => some ([], rest)
  | '\r' :: '\n' :: rest => do
      let (text, rest) ← readLongLiteral rest
      return ('\n' :: text, rest)
  | c :: rest =>
      if isPlain c || c == '\n' then do
        let (text, rest) ← readLongLiteral rest
        return (c :: text, rest)
      else none

def readString : List Char -> Option (List Char × List Char)
  | '"' :: '"' :: '"' :: rest => readLongBasic false (skipNewline rest)
  | '"' :: rest => readBasic rest
  | '\x27' :: '\x27' :: '\x27' :: rest => readLongLiteral (skipNewline rest)
  | '\x27' :: rest => readLiteral rest
  | _ => none

/-!
## Keys

The parts of a key have dots between them. Levels of nesting, and parts of a key, stay below a
limit; the fuel of the readers counts what is left of it.
-/

def isBare (c : Char) : Bool :=
  ('a' ≤ c && c ≤ 'z') || ('A' ≤ c && c ≤ 'Z') || c.isDigit || c == '-' || c == '_'

def readSimpleKey : List Char -> Option (String × List Char)
  | '"' :: rest => do
      let (text, rest) ← readBasic rest
      return (String.ofList text, rest)
  | '\x27' :: rest => do
      let (text, rest) ← readLiteral rest
      return (String.ofList text, rest)
  | cs =>
      match cs.span isBare with
      | ([], _) => none
      | (name, rest) => some (String.ofList name, rest)

def depthLimit : Nat := 80

def readKeyParts : (count : Nat) -> List Char -> Option (List String × List Char)
  | 0, _ => none
  | count + 1, cs => do
      let (part, rest) ← readSimpleKey (skipBlank cs)
      match skipBlank rest with
      | '.' :: rest =>
          let (parts, rest) ← readKeyParts count rest
          return (part :: parts, rest)
      | rest => return ([part], rest)

def readKey (cs : List Char) : Option (List String × List Char) :=
  readKeyParts (depthLimit - 1) cs

/-!
## Numbers

Single underscores may stand among the digits of a number. Integers have 64 bits. Numbers with a
fraction or an exponent are only passed over: no option takes one, but one that would round to
infinity makes the whole text unreadable.
-/

def spanDigits (isDigit : Char -> Bool) : List Char -> List Char × List Char
  | [] => ([], [])
  | '_' :: d :: rest =>
      if isDigit d then
        let (digits, rest) := spanDigits isDigit rest
        (d :: digits, rest)
      else ([], '_' :: d :: rest)
  | d :: rest =>
      if isDigit d then
        let (digits, rest) := spanDigits isDigit rest
        (d :: digits, rest)
      else ([], d :: rest)

def readDigits (isDigit : Char -> Bool) (cs : List Char) : Option (List Char × List Char) :=
  match cs with
  | d :: _ => if isDigit d then some (spanDigits isDigit cs) else none
  | [] => none

def readSign : List Char -> Bool × List Char
  | '-' :: rest => (true, rest)
  | '+' :: rest => (false, rest)
  | cs => (false, cs)

def readWhole (cs : List Char) : Option (List Char × List Char) :=
  match cs with
  | '0' :: rest => some (['0'], rest)
  | _ => readDigits Char.isDigit cs

def numberOf (base : Nat) (digits : List Char) : Nat :=
  digits.foldl (fun value c => value * base + (Text.hexValue? c).getD 0) 0

def integer? (value : Int) : Option Int :=
  if -9223372036854775808 ≤ value ∧ value < 9223372036854775808 then some value else none

def readBased (base : Nat) (isDigit : Char -> Bool) (cs : List Char) :
    Option (Int × List Char) := do
  let (digits, rest) ← readDigits isDigit cs
  return (← integer? (numberOf base digits), rest)

def readInteger (cs : List Char) : Option (Int × List Char) :=
  match cs with
  | '0' :: 'x' :: rest => readBased 16 (fun c => (Text.hexValue? c).isSome) rest
  | '0' :: 'o' :: rest => readBased 8 (fun c => '0' ≤ c && c ≤ '7') rest
  | '0' :: 'b' :: rest => readBased 2 (fun c => c == '0' || c == '1') rest
  | _ => do
      let (negative, cs) := readSign cs
      let (digits, rest) ← readWhole cs
      let value : Int := numberOf 10 digits
      return (← integer? (if negative then -value else value), rest)

/-- Whether `digits` times ten to a power is beyond the half way from the greatest finite number to
the next power of two. -/
def exceedsBinary64 (digits : List Char) (power : Int) : Bool :=
  let digits := digits.dropWhile (· == '0')
  let size := (digits.length : Int) + power
  if digits.isEmpty || size < 309 then false
  else if 309 < size then true
  else
    let value := numberOf 10 digits
    let bound := Nat.pow 2 1024 - Nat.pow 2 970
    decide (bound * Nat.pow 10 (-power).toNat ≤ value * Nat.pow 10 power.toNat)

def readFraction : List Char -> Option (List Char × List Char)
  | '.' :: rest => readDigits Char.isDigit rest
  | cs => some ([], cs)

def readExponent (cs : List Char) : Option (Option Int × List Char) :=
  match cs with
  | c :: rest =>
      if c = 'e' ∨ c = 'E' then do
        let (negative, rest) := readSign rest
        let (digits, rest) ← readDigits Char.isDigit rest
        let value : Int := numberOf 10 digits
        return (some (if negative then -value else value), rest)
      else some (none, cs)
  | [] => some (none, [])

def skipFraction (cs : List Char) : Option (List Char) := do
  let (negative, cs) := readSign cs
  let (whole, afterWhole) ← readWhole cs
  let (fraction, afterFraction) ← readFraction afterWhole
  let (exponent, rest) ← readExponent afterFraction
  if fraction.isEmpty && exponent.isNone then none
  else if !negative && exceedsBinary64 (whole ++ fraction) (exponent.getD 0 - fraction.length) then
    none
  else some rest

def skipSpecial (cs : List Char) : Option (List Char) :=
  match (readSign cs).2 with
  | 'i' :: 'n' :: 'f' :: rest => some rest
  | 'n' :: 'a' :: 'n' :: rest => some rest
  | _ => none

/-!
## Dates and times

These are passed over, too, once their parts are seen to lie in their ranges.
-/

def readCount (count : Nat) (cs : List Char) : Option (Nat × List Char) :=
  let digits := cs.take count
  if digits.length = count ∧ digits.all Char.isDigit then some (numberOf 10 digits, cs.drop count)
  else none

def readRanged (least greatest : Nat) (cs : List Char) : Option (Nat × List Char) := do
  let (value, rest) ← readCount 2 cs
  if least ≤ value ∧ value ≤ greatest then some (value, rest) else none

def skipChar (c : Char) : List Char -> Option (List Char)
  | [] => none
  | d :: rest => if d = c then some rest else none

def isLeapYear (year : Nat) : Bool := year % 4 == 0 && (year % 100 != 0 || year % 400 == 0)

def daysInMonth (year month : Nat) : Nat :=
  if month = 2 then if isLeapYear year then 29 else 28
  else if month ∈ [4, 6, 9, 11] then 30
  else 31

def skipDate (cs : List Char) : Option (List Char) := do
  let (year, cs) ← readCount 4 cs
  let (month, cs) ← readRanged 1 12 (← skipChar '-' cs)
  let (_, cs) ← readRanged 1 (daysInMonth year month) (← skipChar '-' cs)
  return cs

def skipTime (cs : List Char) : Option (List Char) := do
  let (_, cs) ← readRanged 0 23 cs
  let (_, cs) ← readRanged 0 59 (← skipChar ':' cs)
  let (_, cs) ← readRanged 0 60 (← skipChar ':' cs)
  match cs with
  | '.' :: rest =>
      let (digits, rest) := rest.span Char.isDigit
      return if digits.isEmpty then cs else rest
  | _ => return cs

def skipOffset (cs : List Char) : Option (List Char) :=
  match cs with
  | c :: rest =>
      if c = 'Z' ∨ c = 'z' then some rest
      else if c = '+' ∨ c = '-' then do
        let (_, rest) ← readRanged 0 23 rest
        let (_, rest) ← readRanged 0 59 (← skipChar ':' rest)
        return rest
      else some cs
  | [] => some []

def skipDatedTime (cs : List Char) : Option (List Char) :=
  match cs with
  | c :: rest =>
      if c = 'T' ∨ c = 't' ∨ c = ' ' then
        match skipTime rest with
        | some rest => skipOffset rest
        | none => some cs
      else some cs
  | [] => some []

def skipDateTime (cs : List Char) : Option (List Char) :=
  match skipDate cs with
  | some rest => skipDatedTime rest
  | none => skipTime cs

end Toml
end LoadFleet
