import LoadFleet.Duration
import LoadFleet.Sample.Report

/-!
# Counters summed over agents

Each counter is the capped sum of the agents' counters. Rates divide a sum by the seconds of the
window that was waited for; a window of no length has no rates.
-/

namespace LoadFleet

structure Totals where
  agents : Nat
  rxBytes : UInt64
  txBytes : UInt64
  rxRequests : UInt64
  txRequests : UInt64
deriving DecidableEq

structure Rates where
  requests : Float
  rxBytes : Float
  txBytes : Float
  completed : UInt64
deriving DecidableEq

namespace Totals

def zero : Totals := ⟨0, 0, 0, 0, 0⟩

def absorb (t : Totals) (c : Counters) : Totals where
  agents := t.agents + 1
  rxBytes := Capped.add64 t.rxBytes c.rxBytes
  txBytes := Capped.add64 t.txBytes c.txBytes
  rxRequests := Capped.add64 t.rxRequests c.rxRequests
  txRequests := Capped.add64 t.txRequests c.txRequests

def ofCounters (counters : List Counters) : Totals :=
  counters.foldl absorb zero

def rates (t : Totals) (window : Duration) : Rates :=
  let seconds := window.toSeconds
  if seconds ≤ 0.0 then ⟨0.0, 0.0, 0.0, t.rxRequests⟩
  else
    { requests := t.rxRequests.toFloat / seconds
      rxBytes := t.rxBytes.toFloat / seconds
      txBytes := t.txBytes.toFloat / seconds
      completed := t.rxRequests }

end Totals
end LoadFleet
