import LoadFleet.Failure
import LoadFleet.Text.Blank
import LoadFleet.Text.Pieces

/-!
# Reading load patterns

A pattern is read without the blanks around it and around its numbers, and its kind in any case of
ASCII letters. All numbers are positive, and the end of a sweep lies above its start.
-/

namespace LoadFleet

/-- The kind with a word, in any case. -/
def PatternKind.ofWord? (word : List Char) : Option PatternKind :=
  [PatternKind.fixed, .step, .test, .corr].find? fun kind =>
    kind.word.toList == word.map Char.toLower

def PatternKind.arity : PatternKind -> Nat
  | .fixed => 1
  | .step => 3
  | .test => 2
  | .corr => 2

namespace Pattern

def readNumber (piece : List Char) : Except PatternDefect UInt32 :=
  match Text.readWord32 (Text.trim piece) with
  | .ok n => if n = 0 then .error .zero else .ok n
  | .error _ => .error .notInteger

def ofNumbers : PatternKind -> List UInt32 -> Except PatternDefect Pattern
  | .fixed, [rate] => .ok (.fixed rate)
  | .step, [start, stop, stride] =>
      if stop ≤ start then .error .endNotAboveStart else .ok (.step start stop stride)
  | .test, [rate, samples] => .ok (.test rate samples)
  | .corr, [rate, samples] => .ok (.corr rate samples)
  | kind, _ => .error (.shape kind)

def readPieces (kind : PatternKind) (pieces : List (List Char)) : Except PatternDefect Pattern := do
  if pieces.length ≠ kind.arity then
    throw (.shape kind)
  ofNumbers kind (← pieces.mapM readNumber)

def read (text : String) : Except ConfigFault Pattern :=
  let trimmed := Text.trim text.toList
  match Text.pieces ':' trimmed with
  | [] => .error (.unknownPattern (String.ofList trimmed))
  | word :: pieces =>
      match PatternKind.ofWord? word with
      | none => .error (.unknownPattern (String.ofList trimmed))
      | some kind =>
          (readPieces kind pieces).mapError (.invalidPattern (String.ofList trimmed))

end Pattern
end LoadFleet
