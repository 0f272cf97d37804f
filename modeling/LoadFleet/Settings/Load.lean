import LoadFleet.Directory.Files
import LoadFleet.Settings.Override

/-!
# Finding the configuration file

The file may be named on the command line; otherwise the first of the standard files that is there
counts, and without any the command line stands alone. The form of a file goes by its extension,
which is looked at once the text is read.
-/

namespace LoadFleet
namespace ConfigFile

def standardPaths : List String := ["fleetbench.toml", "fleetbench.json"]

def ofText (path text : String) : Except ConfigFault ConfigFile :=
  match Path.extension? path with
  | none => .error .missingExtension
  | some "toml" =>
      (ofToml? text).elim (.error (.malformedToml path "not a table of known values")) .ok
  | some "json" =>
      (ofJson? text).elim (.error (.malformedJson path "not an object of known values")) .ok
  | some extension => .error (.unsupportedExtension extension)

def loadFrom [Monad m] (files : Files m) (path : String) : m (Except ConfigFault ConfigFile) := do
  match ← files.readText path with
  | .error reason => return .error (.unreadable path reason)
  | .ok text => return ofText path text

def firstPresent? [Monad m] (files : Files m) : List String -> m (Option String)
  | [] => pure none
  | path :: rest => do
      match ← files.check path with
      | .ok () => return some path
      | .error _ => firstPresent? files rest

def load [Monad m] (files : Files m) (named : Option String) :
    m (Except ConfigFault (Option ConfigFile)) := do
  let path ←
    match named with
    | some path => pure (some path)
    | none => firstPresent? files standardPaths
  match path with
  | none => return .ok none
  | some path => return some <$> (← loadFrom files path)

end ConfigFile

def CommandLine.complete [Monad m] (files : Files m) (line : CommandLine) :
    m (Except Failure Arguments) := do
  match ← ConfigFile.load files line.arguments.config with
  | .error fault => return .error (.config fault)
  | .ok none => return .ok line.arguments
  | .ok (some file) => return file.apply line

end LoadFleet
