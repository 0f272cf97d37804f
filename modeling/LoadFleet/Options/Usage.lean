import LoadFleet.Options.CommandLine

/-!
# What the user is told about the command line

The names of all options, the version, and the wording of each complaint.
-/

namespace LoadFleet
namespace Usage

def version : String := "fleetbench 0.1.0\n"

def optionText (option : OptionId) : String :=
  "  --" ++ option.name ++ (if option.isSwitch then "" else " <value>") ++ "\n"

def text : String :=
  "Usage: fleetbench [OPTIONS]\n\nOptions:\n" ++ String.join (OptionId.all.map optionText)
    ++ "  --help\n  --version\n"

end Usage

def Complaint.message : Complaint -> String
  | .unknownArgument argument => "unexpected argument '" ++ argument ++ "'"
  | .invalidValue option none => "no value for '--" ++ option.name ++ "'"
  | .invalidValue option (some value) =>
      "invalid value '" ++ value ++ "' for '--" ++ option.name ++ "'"
  | .valueValidation option value none =>
      "value '" ++ value ++ "' for '--" ++ option.name ++ "' is not a number in range"
  | .valueValidation option value (some fault) =>
      "invalid value '" ++ value ++ "' for '--" ++ option.name ++ "': " ++ fault.message
  | .argumentConflict option => "'--" ++ option.name ++ "' is given more than once"
  | .tooManyValues argument => "unexpected value in '" ++ argument ++ "'"
  | .displayHelp => Usage.text
  | .displayVersion => Usage.version

end LoadFleet
