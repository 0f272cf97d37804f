import LoadFleet.Text.Numeral

/-!
# Load patterns

A pattern says at which loads an experiment measures and how; its rates are operations per second
over all agents. A fixed pattern measures one rate again and again until the samples are accepted, a
step pattern once at each rate of a sweep, a test once with a given count of samples, and a
correlation pattern once at each of several sampling rates. A pattern is written as its kind and its
numbers with colons between them.
-/

namespace LoadFleet

inductive PatternKind where
  | fixed
  | step
  | test
  | corr
deriving DecidableEq

def PatternKind.word : PatternKind -> String
  | .fixed => "fixed"
  | .step => "step"
  | .test => "test"
  | .corr => "corr"

def PatternKind.shape : PatternKind -> String
  | .fixed => "fixed:<rate>"
  | .step => "step:<start>:<end>:<step>"
  | .test => "test:<rate>:<samples>"
  | .corr => "corr:<rate>:<samples>"

inductive PatternDefect where
  | shape (kind : PatternKind)
  | zero
  | notInteger
  | endNotAboveStart
deriving DecidableEq

def PatternDefect.message : PatternDefect -> String
  | .shape kind => "expected " ++ kind.shape
  | .zero => "values must be >= 1"
  | .notInteger => "values must be positive integers"
  | .endNotAboveStart => "end must exceed start"

inductive Pattern where
  | fixed (rate : UInt32)
  | step (start stop stride : UInt32)
  | test (rate samples : UInt32)
  | corr (rate samples : UInt32)
deriving DecidableEq

namespace Pattern

def kind : Pattern -> PatternKind
  | .fixed _ => .fixed
  | .step _ _ _ => .step
  | .test _ _ => .test
  | .corr _ _ => .corr

def numbers : Pattern -> List UInt32
  | .fixed rate => [rate]
  | .step start stop stride => [start, stop, stride]
  | .test rate samples => [rate, samples]
  | .corr rate samples => [rate, samples]

def write (p : Pattern) : List Char :=
  p.kind.word.toList ++ p.numbers.flatMap fun n => ':' :: Text.decimal n.toNat

def text (p : Pattern) : String := String.ofList p.write

/-- The loads of a sweep: `start` and every further stride below `stop`, as long as the load fits a
32-bit word. A stride of zero visits nothing. -/
def stepLoads (start stop stride : UInt32) : List UInt32 :=
  if start < stop ∧ 0 < stride then
    start ::
      if start.toNat + stride.toNat < 4294967296 then stepLoads (start + stride) stop stride else []
  else []
termination_by stop.toNat - start.toNat
decreasing_by
  rename_i h hsum
  have hlt : start.toNat < stop.toNat := UInt32.lt_iff_toNat_lt.mp h.1
  have hpos : 0 < stride.toNat := by simpa using UInt32.lt_iff_toNat_lt.mp h.2
  have hadd : (start + stride).toNat = start.toNat + stride.toNat := by
    rw [UInt32.toNat_add, Nat.mod_eq_of_lt hsum]
  omega

end Pattern
end LoadFleet
