import LoadFleet.Agent.Roster
import LoadFleet.Json.Tree

/-!
# Rosters read from JSON

A roster is a record of up to three lists of names, or a list of up to three such lists in the
order of registration. Lists that are left out are empty, and other fields are passed over.
-/

namespace LoadFleet
namespace Roster

open Json (Tree)

/-- The only field with a name, if any; a name must not repeat. -/
def uniqueField? (fields : List (String × Tree)) (name : String) : Option (Option Tree) :=
  match fields.filter fun field => field.1 == name with
  | [] => some none
  | [field] => some (some field.2)
  | _ => none

def names? : Option Tree -> Option (List String)
  | none => some []
  | some tree => tree.strings?

def ofTree? : Tree -> Option Roster
  | .record fields => do
      let fields ← fields.mapM fun field => field.1.map (·, field.2)
      let throughput ← names? (← uniqueField? fields "throughput")
      let latency ← names? (← uniqueField? fields "latency")
      let symmetric ← names? (← uniqueField? fields "symmetric")
      return { throughput, latency, symmetric }
  | .list items => do
      if 3 < items.length then none
      else
        let throughput ← names? items[0]?
        let latency ← names? items[1]?
        let symmetric ← names? items[2]?
        return { throughput, latency, symmetric }
  | _ => none

def ofJson? (text : String) : Option Roster := do ofTree? (← Tree.ofText? text)

end Roster
end LoadFleet
