import LoadFleet.Directory.Path

/-!
# Files

Files are looked at through an interface, so that nothing above it knows whether they lie on a
disk or in a directory held in memory. Such a directory is a list of files with their paths below
it. A path is followed step by step from the directory; above it nothing is known but that the
parent directories exist.
-/

namespace LoadFleet

structure Files (m : Type -> Type) where
  check : (path : String) -> m (Except String Unit)
  readText : (path : String) -> m (Except String String)

abbrev Directory := List (String × List UInt8)

namespace Directory

inductive Entry where
  | file (content : List UInt8)
  | directory
  | absent
  | notDirectory
deriving DecidableEq

/-- Where a path has led so far: below the directory, at a file, or a number of levels above. -/
inductive Place where
  | below (steps : List String)
  | file (content : List UInt8)
  | above (levels : Nat)
  | nowhere
deriving DecidableEq

def lookup (d : Directory) (steps : List String) : Place :=
  match d.find? fun file => Path.steps file.1 == steps with
  | some file => .file file.2
  | none =>
      if d.any fun file => steps.isPrefixOf (Path.steps file.1) then .below steps else .nowhere

/-- Follows steps; `none` means that they go on behind a file. -/
def follow (d : Directory) : Place -> List String -> Option Place
  | place, [] => some place
  | .file _, _ :: _ => none
  | .nowhere, _ :: _ => some .nowhere
  | .above levels, step :: rest =>
      if step = "" ∨ step = "." then d.follow (.above levels) rest
      else if step = ".." then d.follow (.above (levels + 1)) rest
      else some .nowhere
  | .below steps, step :: rest =>
      if step = "" ∨ step = "." then d.follow (.below steps) rest
      else if step = ".." then
        d.follow (if steps.isEmpty then .above 1 else .below steps.dropLast) rest
      else d.follow (d.lookup (steps ++ [step])) rest

def entry (d : Directory) (path : String) : Entry :=
  let start : Place := if path.startsWith "/" then .above 0 else .below []
  match if path = "" then some .nowhere else d.follow start (Text.splitString '/' path) with
  | some (.file content) => .file content
  | some (.below _) => .directory
  | some (.above _) => .directory
  | some .nowhere => .absent
  | none => .notDirectory

def Entry.reason? : Entry -> Option String
  | .absent => some "No such file or directory (os error 2)"
  | .notDirectory => some "Not a directory (os error 20)"
  | _ => none

def check (d : Directory) (path : String) : Except String Unit :=
  match (d.entry path).reason? with
  | some reason => .error reason
  | none => .ok ()

def readText (d : Directory) (path : String) : Except String String :=
  match d.entry path with
  | .file content =>
      match String.fromUTF8? (ByteArray.mk content.toArray) with
      | some text => .ok text
      | none => .error "stream did not contain valid UTF-8"
  | .directory => .error "Is a directory (os error 21)"
  | .absent => .error "No such file or directory (os error 2)"
  | .notDirectory => .error "Not a directory (os error 20)"

def files [Monad m] (d : Directory) : Files m where
  check path := pure (d.check path)
  readText path := pure (d.readText path)

end Directory
end LoadFleet
