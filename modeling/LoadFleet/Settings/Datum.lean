import LoadFleet.Json.Tree
import LoadFleet.Options.Values
import LoadFleet.Toml.Document

/-!
# Data of configuration files

Both file formats are read into the same data before anything is known of options. A datum keeps
no more than what options can be made of, and each reading of it says for which data it fails.
-/

namespace LoadFleet

inductive Datum where
  | null
  | boolean (value : Bool)
  | integer (value : Int)
  | text (value : String)
  | list (items : List Datum)
  | table (fields : List (String × Datum))
  /-- A number with a fraction, a date, or a text that stands for no characters. -/
  | other

namespace Datum

/-!
## From the two formats
-/

def ofLexeme (lexeme : List Char) : Datum :=
  match lexeme with
  | '-' :: rest =>
      match Text.readDigits Text.greatest64 0 rest with
      | .ok value => if value = 0 then .other else .integer (-value)
      | .error _ => .other
  | _ =>
      match Text.readDigits Text.greatest64 0 lexeme with
      | .ok value => .integer value
      | .error _ => .other

mutual

/-- The datum of a JSON tree; names that stand for no characters make their record unusable. -/
def ofTree : Json.Tree -> Datum
  | .null => .null
  | .boolean value => .boolean value
  | .number lexeme => ofLexeme lexeme
  | .text none => .other
  | .text (some value) => .text value
  | .list items => .list (ofTrees items)
  | .record fields =>
      match ofNamedTrees fields with
      | some fields => .table fields
      | none => .other

def ofTrees : List Json.Tree -> List Datum
  | [] => []
  | tree :: rest => ofTree tree :: ofTrees rest

def ofNamedTrees : List (Option String × Json.Tree) -> Option (List (String × Datum))
  | [] => some []
  | (none, _) :: _ => none
  | (some name, tree) :: rest => (ofNamedTrees rest).map ((name, ofTree tree) :: ·)

end

mutual

def ofToml : Toml.Value -> Datum
  | .text value => .text value
  | .integer value => .integer value
  | .boolean value => .boolean value
  | .scalar => .other
  | .list items => .list (ofTomls items)
  | .table _ fields => .table (ofNamedTomls fields)
  | .tables elements => .list (ofTables elements)

def ofTomls : List Toml.Value -> List Datum
  | [] => []
  | value :: rest => ofToml value :: ofTomls rest

def ofNamedTomls : List (String × Toml.Value) -> List (String × Datum)
  | [] => []
  | (name, value) :: rest => (name, ofToml value) :: ofNamedTomls rest

def ofTables : List (List (String × Toml.Value)) -> List Datum
  | [] => []
  | fields :: rest => .table (ofNamedTomls fields) :: ofTables rest

end

/-!
## Typed readings
-/

def text? : Datum -> Option String
  | .text value => some value
  | _ => none

def texts? : Datum -> Option (List String)
  | .list items => items.mapM text?
  | _ => none

def boolean? : Datum -> Option Bool
  | .boolean value => some value
  | _ => none

def natural? (limit : Nat) : Datum -> Option Nat
  | .integer value => if 0 ≤ value ∧ value ≤ limit then some value.toNat else none
  | _ => none

/-- A choice: its word, or a table with the word as the name of the one field, which is empty. -/
def choice? (word? : String -> Option α) (isUnit : Datum -> Bool) : Datum -> Option α
  | .text word => word? word
  | .table [(word, value)] => if isUnit value then word? word else none
  | _ => none

def isNull : Datum -> Bool
  | .null => true
  | _ => false

def isEmpty : Datum -> Bool
  | .list [] => true
  | .table [] => true
  | _ => false

end Datum
end LoadFleet
