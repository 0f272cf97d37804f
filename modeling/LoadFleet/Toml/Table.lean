/-!
# TOML values and the tables they are put in

A table is opened by a header, or implied by a header or key that leads through it. What may be
added to a table afterwards depends on how it came about: a header may come once, a dotted key may
go on through tables that were only implied, and a value that was written down is complete.
-/

namespace LoadFleet
namespace Toml

/-- How a table came about. -/
inductive TableKind where
  | complete
  | headed
  | implied
  | dotted
deriving DecidableEq

inductive Value where
  | text (value : String)
  | integer (value : Int)
  | boolean (value : Bool)
  | scalar
  | list (items : List Value)
  | table (kind : TableKind) (fields : List (String × Value))
  | tables (elements : List (List (String × Value)))

abbrev Fields := List (String × Value)

namespace Fields

def put (key : String) (value : Value) : Fields -> Fields
  | [] => []
  | field :: rest => if field.1 = key then (key, value) :: rest else field :: put key value rest

/-- Changes the table that keys lead to. Tables on the way are implied where they are missing. The
change is told whether a dotted key made the table it applies to; a dotted key does not lead
through a table with a header of its own. -/
def update (dotted : Bool) (change : (made : Bool) -> Fields -> Option Fields) :
    List String -> (made : Bool) -> Fields -> Option Fields
  | [], made, fields => change made fields
  | key :: keys, _, fields =>
      match fields.lookup key with
      | none => do
          let inner ← update dotted change keys dotted []
          return fields ++ [(key, .table (if dotted then .dotted else .implied) inner)]
      | some (.table .complete _) => none
      | some (.table .headed inner) =>
          if dotted then none
          else do return put key (.table .headed (← update dotted change keys false inner)) fields
      | some (.table kind inner) => do
          let made := kind == .dotted
          return put key (.table kind (← update dotted change keys made inner)) fields
      | some (.tables elements) => do
          let inner ← update dotted change keys false (← elements.getLast?)
          return put key (.tables (elements.dropLast ++ [inner])) fields
      | some _ => none

/-- Adds a value under a key; only a key without dots goes into a table that no dotted key made. -/
def add (keys : List String) (value : Value) (fields : Fields) : Option Fields := do
  let key ← keys.getLast?
  let way := keys.dropLast
  fields.update true (fun made inner =>
    if made == way.isEmpty then none
    else if (inner.lookup key).isSome then none
    else some (inner ++ [(key, value)])) way false

def addBelow (header keys : List String) (value : Value) (fields : Fields) : Option Fields :=
  fields.update false (fun _ inner => inner.add keys value) header false

def openTable (header : List String) (fields : Fields) : Option Fields := do
  let key ← header.getLast?
  fields.update false (fun _ inner =>
    match inner.lookup key with
    | none => some (inner ++ [(key, .table .headed [])])
    | some (.table .implied below) => some (inner.put key (.table .headed below))
    | some _ => none) header.dropLast false

def openElement (header : List String) (fields : Fields) : Option Fields := do
  let key ← header.getLast?
  fields.update false (fun _ inner =>
    match inner.lookup key with
    | none => some (inner ++ [(key, .tables [[]])])
    | some (.tables elements) => some (inner.put key (.tables (elements ++ [[]])))
    | some _ => none) header.dropLast false

end Fields
end Toml
end LoadFleet
