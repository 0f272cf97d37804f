import LoadFleet.Agent.Names
import LoadFleet.Failure

/-!
# Values of options

Numbers are read without the blanks around them and must be positive. The choices among a few
words are written in one way, and the command line takes them in any case of ASCII letters.
-/

namespace LoadFleet

inductive TargetProtocol where
  | tcp
  | r2p2
deriving DecidableEq

def TargetProtocol.label : TargetProtocol -> String
  | .tcp => "TCP"
  | .r2p2 => "R2P2"

inductive OutputFormat where
  | text
  | json
deriving DecidableEq

def OutputFormat.label : OutputFormat -> String
  | .text => "text"
  | .json => "json"

structure Positive32 where
  value : UInt32
  value_ne_zero : value ≠ 0
deriving DecidableEq

structure Positive64 where
  value : UInt64
  value_ne_zero : value ≠ 0
deriving DecidableEq

def Positive32.ofWord? (n : UInt32) : Option Positive32 :=
  if h : n = 0 then none else some ⟨n, h⟩

def Positive64.ofWord? (n : UInt64) : Option Positive64 :=
  if h : n = 0 then none else some ⟨n, h⟩

namespace Options

def lowerCase (s : String) : String := String.ofList (s.toList.map Char.toLower)

/-- The choice with a label, in the given case or in any. -/
def choice? (choices : List α) (label : α -> String) (ignoreCase : Bool) (text : String) :
    Option α :=
  choices.find? fun choice =>
    if ignoreCase then lowerCase (label choice) == lowerCase text else label choice == text

def targetProtocol? (ignoreCase : Bool) (text : String) : Option TargetProtocol :=
  choice? [.tcp, .r2p2] TargetProtocol.label ignoreCase text

def outputFormat? (ignoreCase : Bool) (text : String) : Option OutputFormat :=
  choice? [.text, .json] OutputFormat.label ignoreCase text

def positive32 (text : String) : Except ValidationFault Positive32 :=
  match Text.readWord32 (Text.trim text.toList) with
  | .error fault => .error (.invalidNumber fault)
  | .ok n => (Positive32.ofWord? n).elim (.error (.valueTooSmall 1)) .ok

def positive64 (text : String) : Except ValidationFault Positive64 :=
  match Text.readWord64 (Text.trim text.toList) with
  | .error fault => .error (.invalidNumber fault)
  | .ok n => (Positive64.ofWord? n).elim (.error (.valueTooSmall 1)) .ok

def namesFailure : Agent.NamesFault -> ValidationFault
  | .blank value index => .emptyAgentName value index
  | .repeated name => .duplicateAgent name

def agentNames (text : String) : Except ValidationFault (List String) :=
  (Agent.readNames text).mapError namesFailure

def agentEntries (entries : List String) : Except ValidationFault (List String) :=
  (Agent.namesOfEntries entries).mapError namesFailure

def switch (text : String) : Except ValidationFault Bool :=
  let word := lowerCase (Text.trimmed text)
  if word ∈ ["1", "true", "yes", "y", "on"] then .ok true
  else if word ∈ ["0", "false", "no", "n", "off"] then .ok false
  else .error (.invalidBoolean text)

end Options
end LoadFleet
