import LoadFleet.Options.Arguments

/-!
# Reading the command line

An option takes its value behind an equals sign or as the next argument; an argument that starts
with a hyphen is never taken as the value before it. The value of an option is looked at when the
next option comes or the line ends, and an option may be given once. There are no other arguments.
-/

namespace LoadFleet

inductive Complaint where
  | unknownArgument (argument : String)
  | invalidValue (option : OptionId) (value : Option String)
  /-- The value is refused, for this reason where there is a wording for it. -/
  | valueValidation (option : OptionId) (value : String) (fault : Option ValidationFault)
  | argumentConflict (option : OptionId)
  | tooManyValues (argument : String)
  | displayHelp
  | displayVersion
deriving DecidableEq

structure CommandLine where
  arguments : Arguments
  given : List OptionId
deriving DecidableEq

namespace CommandLine

/-- A number with an optional sign that lies between zero and a limit. -/
def readSigned (limit : Nat) (text : String) : Option Nat :=
  match text.toList with
  | '-' :: rest => (Text.readDigits 0 0 rest).toOption.filter fun _ => !rest.isEmpty
  | cs => (Text.readNumeral limit cs).toOption

def assign (option : OptionId) (text : String) (a : Arguments) : Except Complaint Arguments :=
  let checked {α : Type} (value : Except ValidationFault α) : Except Complaint α :=
    value.mapError fun fault => .valueValidation option text (some fault)
  let chosen {α : Type} (value : Option α) : Except Complaint α :=
    value.elim (.error (.invalidValue option (some text))) .ok
  let ranged (limit : Nat) : Except Complaint Nat :=
    (readSigned limit text).elim (.error (.valueValidation option text none)) .ok
  let path : Except Complaint String :=
    if text = "" then .error (.invalidValue option (some text)) else .ok text
  match option with
  | .targetHost => .ok { a with targetHost := text }
  | .loadAgents => do return { a with loadAgents := ← checked (Options.agentNames text) }
  | .latencyAgents => do return { a with latencyAgents := ← checked (Options.agentNames text) }
  | .symmetricAgents => do return { a with symmetricAgents := ← checked (Options.agentNames text) }
  | .agentPort => do return { a with agentPort := UInt16.ofNat (← ranged Text.greatest16) }
  | .loadBinary => do return { a with loadBinary := some (← path) }
  | .latencyBinary => do return { a with latencyBinary := some (← path) }
  | .loadThreads => do return { a with loadThreads := ← checked (Options.positive32 text) }
  | .latencyThreads => do return { a with latencyThreads := ← checked (Options.positive32 text) }
  | .loadConnections => do return { a with loadConnections := ← checked (Options.positive32 text) }
  | .latencyConnections => do
      return { a with latencyConnections := ← checked (Options.positive32 text) }
  | .interArrival => .ok { a with interArrival := text }
  | .appProtocol => .ok { a with appProtocol := text }
  | .targetProtocol => do
      return { a with targetProtocol := ← chosen (Options.targetProtocol? true text) }
  | .latencyRate => do return { a with latencyRate := ← checked (Options.positive32 text) }
  | .loadPattern => .ok { a with loadPattern := text }
  | .intervalSize => do return { a with intervalSize := ← checked (Options.positive64 text) }
  | .keyCount => do return { a with keyCount := UInt32.ofNat (← ranged Text.greatest32) }
  | .nicTimestamps => do return { a with nicTimestamps := ← checked (Options.switch text) }
  | .maxTries => do return { a with maxTries := ← checked (Options.positive32 text) }
  | .outputFormat => do return { a with outputFormat := ← chosen (Options.outputFormat? true text) }
  | .config => .ok { a with config := some text }
  | .verbose => do return { a with verbose := ← checked (Options.switch text) }
  | .noColor => do return { a with noColor := ← checked (Options.switch text) }

/-!
## One argument after the other

An option that has been named waits for its value, and is settled by the next option or the end of
the line. Help and version are shown as soon as they are asked for, but after what was pending.
-/

structure Reading where
  arguments : Arguments
  given : List OptionId
  pending : Option (OptionId × Option String)
deriving DecidableEq

namespace Reading

def start : Reading := ⟨.standard, [], none⟩

def take (option : OptionId) (text : String) (r : Reading) : Except Complaint Reading := do
  if option ∈ r.given then
    throw (.argumentConflict option)
  let arguments ← assign option text r.arguments
  return { r with arguments, given := r.given ++ [option] }

def settle (r : Reading) : Except Complaint Reading :=
  match r.pending with
  | none => .ok r
  | some (option, none) => .error (.invalidValue option none)
  | some (option, some text) => { r with pending := none }.take option text

def throwSwitch (option : OptionId) (r : Reading) : Except Complaint Reading := do
  (← r.settle).take option "true"

def display (text : Complaint) (r : Reading) : Except Complaint Reading := do
  let _ ← r.settle
  throw text

def long (argument name : String) (attached : Option String) (r : Reading) :
    Except Complaint Reading :=
  match OptionId.ofName? name, attached with
  | some option, none =>
      if option.isSwitch then r.throwSwitch option
      else do return { ← r.settle with pending := some (option, none) }
  | some option, some text =>
      if option.isSwitch then .error (.tooManyValues argument)
      else do (← r.settle).take option text
  | none, none =>
      if name = "help" then r.display .displayHelp
      else if name = "version" then r.display .displayVersion
      else .error (.unknownArgument argument)
  | none, some _ =>
      if name = "help" ∨ name = "version" then .error (.tooManyValues argument)
      else .error (.unknownArgument argument)

def short (argument : String) : List Char -> Reading -> Except Complaint Reading
  | [], r => .ok r
  | 'v' :: rest, r => do short argument rest (← r.throwSwitch .verbose)
  | 'h' :: _, r => r.display .displayHelp
  | 'V' :: _, r => r.display .displayVersion
  | _ :: _, _ => .error (.unknownArgument argument)

def plain (argument : String) (r : Reading) : Except Complaint Reading :=
  match r.pending with
  | some (option, none) => .ok { r with pending := some (option, some argument) }
  | _ => .error (.unknownArgument argument)

def splitName (cs : List Char) : String × Option String :=
  match cs.span (· ≠ '=') with
  | (name, []) => (String.ofList name, none)
  | (name, _ :: value) => (String.ofList name, some (String.ofList value))

/-- Reads arguments; after two hyphens alone there must be no more. -/
def readAll : List String -> Reading -> Except Complaint Reading
  | [], r => r.settle
  | argument :: rest, r =>
      match argument.toList with
      | ['-', '-'] =>
          match rest with
          | [] => r.settle
          | unexpected :: _ => .error (.unknownArgument unexpected)
      | '-' :: '-' :: cs => do
          let (name, attached) := splitName cs
          readAll rest (← r.long argument name attached)
      | ['-'] => do readAll rest (← r.plain argument)
      | '-' :: cs => do readAll rest (← r.short argument cs)
      | _ => do readAll rest (← r.plain argument)

end Reading

def noColorVariable : String := "NO_COLOR"

/-- Reads the arguments of a run. An environment variable counts where the switch against colours
is not given. -/
def read (noColor : Option String) (arguments : List String) : Except Complaint CommandLine := do
  let r ← Reading.start.readAll arguments
  let read ←
    match noColor with
    | some text =>
        if .noColor ∈ r.given then pure r.arguments else assign .noColor text r.arguments
    | none => pure r.arguments
  return { arguments := read, given := r.given }

end CommandLine
end LoadFleet
