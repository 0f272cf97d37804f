import LoadFleet.Text.Blank
import LoadFleet.Text.Pieces

/-!
# Lists of agent names

Agents of one role are named in one text, separated by commas, or entry by entry. Names are
trimmed, must not be blank and must not repeat. A blank text names no agents, while a blank entry
is a fault.
-/

namespace LoadFleet
namespace Agent

inductive NamesFault where
  /-- The entry with this index is blank; the value is the whole list. -/
  | blank (value : String) (index : Nat)
  | repeated (name : String)
deriving DecidableEq

def listText (entries : List String) : String :=
  String.intercalate "," entries

/-- Checks the entries after those already named; `value` is the text of the whole list. -/
def namesAfter (value : String) (known : List String) :
    List String -> Except NamesFault (List String)
  | [] => .ok known
  | entry :: rest =>
      let name := Text.trimmed entry
      if name = "" then .error (.blank value known.length)
      else if name ∈ known then .error (.repeated name)
      else namesAfter value (known ++ [name]) rest

def namesOfEntries (entries : List String) : Except NamesFault (List String) :=
  namesAfter (listText entries) [] entries

def readNames (text : String) : Except NamesFault (List String) :=
  if Text.trimmed text = "" then .ok [] else namesOfEntries (Text.splitString ',' text)

end Agent
end LoadFleet
