import LoadFleet.Capped

/-!
# Spans of time

A duration counts whole seconds in a 64-bit word and nanoseconds below a second. Durations are
made from a count of nanoseconds, and whatever exceeds the longest duration becomes the longest
one.
-/

namespace LoadFleet

structure Duration where
  seconds : UInt64
  nanos : UInt32
  nanos_lt : nanos < 1000000000
deriving DecidableEq

namespace Duration

def nanosPerSecond : Nat := 1000000000

def longest : Duration := ⟨18446744073709551615, 999999999, by decide⟩

def inNanos (d : Duration) : Nat := d.seconds.toNat * nanosPerSecond + d.nanos.toNat

def ofNanos (n : Nat) : Duration :=
  if n / nanosPerSecond < 18446744073709551616 then
    { seconds := UInt64.ofNat (n / nanosPerSecond)
      nanos := UInt32.ofNat (n % nanosPerSecond)
      nanos_lt := by
        have h : n % nanosPerSecond < 1000000000 := Nat.mod_lt _ (by decide)
        rw [UInt32.lt_iff_toNat_lt, UInt32.toNat_ofNat',
          Nat.mod_eq_of_lt (Nat.lt_trans h (by decide))]
        exact h }
  else longest

def ofMillis (n : Nat) : Duration := ofNanos (n * 1000000)

def ofSeconds (seconds : UInt64) : Duration := ⟨seconds, 0, by decide⟩

def add (a b : Duration) : Duration := ofNanos (a.inNanos + b.inNanos)

def millis (d : Duration) : UInt64 := Capped.word64 (d.inNanos / 1000000)

def toSeconds (d : Duration) : Float := d.seconds.toFloat + d.nanos.toFloat / 1000000000.0

/-- The duration of a number of seconds rounded up to a whole number, if it is finite, not
negative and fits. -/
def ofCeiling? (n : Option Nat) : Option Duration :=
  match n with
  | some n => if n < 18446744073709551616 then some (ofSeconds (UInt64.ofNat n)) else none
  | none => none

end Duration
end LoadFleet
