import LoadFleet.Toml.Lexeme
import LoadFleet.Toml.Table

/-!
# TOML documents

A document is read line by line: headers open tables, and keys add values to the table that was
opened last. Lists and tables written as values nest below a fixed depth.
-/

namespace LoadFleet
namespace Toml

/-!
## Values

The fuel of these functions bounds the depth of their calls; each character needs at most two. The
depth counts the lists and tables around a value.
-/

def readScalar (cs : List Char) : Option (Value × List Char) :=
  match cs with
  | 't' :: 'r' :: 'u' :: 'e' :: rest => some (.boolean true, rest)
  | 'f' :: 'a' :: 'l' :: 's' :: 'e' :: rest => some (.boolean false, rest)
  | '"' :: _ => do
      let (text, rest) ← readString cs
      return (.text (String.ofList text), rest)
  | '\x27' :: _ => do
      let (text, rest) ← readString cs
      return (.text (String.ofList text), rest)
  | _ =>
      match ((skipDateTime cs).or (skipFraction cs)).or (skipSpecial cs) with
      | some rest => some (.scalar, rest)
      | none => do
          let (value, rest) ← readInteger cs
          return (.integer value, rest)

mutual

def readValue : (fuel depth : Nat) -> List Char -> Option (Value × List Char)
  | 0, _, _ => none
  | fuel + 1, depth, cs =>
      match cs with
      | '[' :: rest =>
          if depth + 1 < depthLimit then do
            let (items, rest) ← readItems fuel (depth + 1) rest
            return (.list items, rest)
          else none
      | '\x7b' :: rest =>
          if depth + 1 < depthLimit then
            match skipBlank rest with
            | '\x7d' :: rest => some (.table .complete [], rest)
            | rest => do
                let (fields, rest) ← readFields fuel (depth + 1) [] rest
                return (.table .complete fields, rest)
          else none
      | _ => readScalar cs

def readItems : (fuel depth : Nat) -> List Char -> Option (List Value × List Char)
  | 0, _, _ => none
  | fuel + 1, depth, cs =>
      match skipTrivia false cs with
      | ']' :: rest => some ([], rest)
      | cs => do
          let (item, rest) ← readValue fuel depth cs
          match skipTrivia false rest with
          | ',' :: rest =>
              let (items, rest) ← readItems fuel depth rest
              return (item :: items, rest)
          | ']' :: rest => return ([item], rest)
          | _ => none

def readFields : (fuel depth : Nat) -> Fields -> List Char -> Option (Fields × List Char)
  | 0, _, _, _ => none
  | fuel + 1, depth, fields, cs => do
      let (keys, rest) ← readKey cs
      match rest with
      | '=' :: rest =>
          let (value, rest) ← readValue fuel depth (skipBlank rest)
          let fields ← fields.add keys value
          match skipBlank rest with
          | ',' :: rest => readFields fuel depth fields rest
          | '\x7d' :: rest => return (fields, rest)
          | _ => none
      | _ => none

end

/-!
## Lines
-/

/-- A document read in part: its fields, and the header of the table that was opened last. -/
structure Reading where
  fields : Fields
  header : List String

def readHeader (reading : Reading) (cs : List Char) : Option (Reading × List Char) := do
  let (header, rest) ← readKey cs
  match rest with
  | ']' :: rest => return (⟨← reading.fields.openTable header, header⟩, ← endLine rest)
  | _ => none

def readRepeatedHeader (reading : Reading) (cs : List Char) : Option (Reading × List Char) := do
  let (header, rest) ← readKey cs
  match rest with
  | ']' :: ']' :: rest => return (⟨← reading.fields.openElement header, header⟩, ← endLine rest)
  | _ => none

def readKeyValue (reading : Reading) (cs : List Char) : Option (Reading × List Char) := do
  let (keys, rest) ← readKey cs
  match rest with
  | '=' :: rest =>
      let (value, rest) ← readValue (2 * rest.length + 2) 0 (skipBlank rest)
      let rest ← endLine rest
      return ({ reading with fields := ← reading.fields.addBelow reading.header keys value }, rest)
  | _ => none

/-- Reads lines; each takes at least one character off. -/
def readLines : (fuel : Nat) -> Reading -> List Char -> Option Reading
  | 0, _, _ => none
  | fuel + 1, reading, cs =>
      match skipBlank cs with
      | [] => some reading
      | '[' :: '[' :: rest => do
          let (reading, rest) ← readRepeatedHeader reading rest
          readLines fuel reading rest
      | '[' :: rest => do
          let (reading, rest) ← readHeader reading rest
          readLines fuel reading rest
      | c :: rest =>
          if c = '#' ∨ c = '\n' ∨ c = '\r' then do
            readLines fuel reading (← endLine (c :: rest))
          else do
            let (reading, rest) ← readKeyValue reading (c :: rest)
            readLines fuel reading rest

def fieldsOf? (text : String) : Option Fields := do
  let cs :=
    match text.toList with
    | '\ufeff' :: rest => rest
    | cs => cs
  return (← readLines (cs.length + 1) ⟨[], []⟩ cs).fields

end Toml
end LoadFleet
