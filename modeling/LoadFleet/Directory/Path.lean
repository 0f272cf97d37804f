import LoadFleet.Text.Pieces

/-!
# Paths

A path is a sequence of steps with slashes between them. The name of a file is the last step,
unless that leads to a parent directory, and its extension is what stands behind the last full
stop that is not the first character.
-/

namespace LoadFleet
namespace Path

/-- The steps of a path, without those that lead nowhere. -/
def steps (path : String) : List String :=
  (Text.splitString '/' path).filter fun step => step != "" && step != "."

def fileName? (path : String) : Option String :=
  (steps path).getLast?.filter fun step => step != ".."

def nameExtension? (name : String) : Option String :=
  match (Text.pieces '.' name.toList).reverse with
  | last :: earlier =>
      if Text.joined '.' earlier.reverse = [] then none else some (String.ofList last)
  | [] => none

def extension? (path : String) : Option String := do nameExtension? (← fileName? path)

end Path
end LoadFleet
