import LoadFleet.Proofs.OrderFree
import LoadFleet.Proofs.Provenance
import Mathlib.Algebra.BigOperators.Group.List.Basic
import Mathlib.Data.List.Induction

/-!
# Totals as sums capped once

A capped sum that goes on is the cap of a sum that goes on, so it does not matter where on the way a
counter reached its cap, nor which agents were added up before they came together.
-/

namespace LoadFleet

namespace Capped

theorem add64_word64 (n : Nat) (b : UInt64) : add64 (word64 n) b = word64 (n + b.toNat) := by
  apply UInt64.toNat_inj.mp
  simp only [add64, word64_toNat]
  omega

/-- Nothing is lost when both sides of a sum are capped before they are added. -/
theorem add64_word64_word64 (m n : Nat) : add64 (word64 m) (word64 n) = word64 (m + n) := by
  apply UInt64.toNat_inj.mp
  simp only [add64, word64_toNat]
  omega

end Capped

/-- A counter that is added up over agents. -/
inductive Tally where
  | rxBytes
  | txBytes
  | rxRequests
  | txRequests
deriving DecidableEq

namespace Tally

def reported : Tally -> Counters -> UInt64
  | .rxBytes, c => c.rxBytes
  | .txBytes, c => c.txBytes
  | .rxRequests, c => c.rxRequests
  | .txRequests, c => c.txRequests

def total : Tally -> Totals -> UInt64
  | .rxBytes, t => t.rxBytes
  | .txBytes, t => t.txBytes
  | .rxRequests, t => t.rxRequests
  | .txRequests, t => t.txRequests

def sum (k : Tally) (counters : List Counters) : Nat :=
  (counters.map fun c => (k.reported c).toNat).sum

theorem sum_append (k : Tally) (counters others : List Counters) :
    k.sum (counters ++ others) = k.sum counters + k.sum others := by
  unfold sum
  rw [List.map_append, List.sum_append]

theorem total_absorb (k : Tally) (t : Totals) (c : Counters) :
    k.total (t.absorb c) = Capped.add64 (k.total t) (k.reported c) := by
  cases k <;> rfl

end Tally

namespace Totals

theorem eq_of_total {t u : Totals} (hagents : t.agents = u.agents)
    (htotal : forall k : Tally, k.total t = k.total u) : t = u := by
  cases t
  cases u
  cases hagents
  cases htotal .rxBytes
  cases htotal .txBytes
  cases htotal .rxRequests
  cases htotal .txRequests
  rfl

theorem ofCounters_concat (counters : List Counters) (c : Counters) :
    ofCounters (counters ++ [c]) = (ofCounters counters).absorb c :=
  List.foldl_append

theorem total_ofCounters (k : Tally) (counters : List Counters) :
    k.total (ofCounters counters) = Capped.word64 (k.sum counters) := by
  -- By induction on the agents from the last one, which is added to the sum of all others.
  induction counters using List.reverseRecOn with
  | nil => cases k <;> rfl
  | append_singleton counters c ih =>
      have hlast : k.sum [c] = (k.reported c).toNat := List.sum_singleton
      rw [ofCounters_concat, k.total_absorb, ih, Capped.add64_word64, k.sum_append, hlast]

/-- Two groups of agents in one, with counters that are capped once more. -/
def plus (t u : Totals) : Totals where
  agents := t.agents + u.agents
  rxBytes := Capped.add64 t.rxBytes u.rxBytes
  txBytes := Capped.add64 t.txBytes u.txBytes
  rxRequests := Capped.add64 t.rxRequests u.rxRequests
  txRequests := Capped.add64 t.txRequests u.txRequests

theorem total_plus (k : Tally) (t u : Totals) :
    k.total (t.plus u) = Capped.add64 (k.total t) (k.total u) := by
  cases k <;> rfl

theorem ofCounters_append (counters others : List Counters) :
    ofCounters (counters ++ others) = (ofCounters counters).plus (ofCounters others) := by
  apply eq_of_total
  · show _ = (ofCounters counters).agents + (ofCounters others).agents
    rw [agents_ofCounters, agents_ofCounters, agents_ofCounters, List.length_append]
  · intro k
    rw [total_plus, total_ofCounters, total_ofCounters, total_ofCounters,
      Capped.add64_word64_word64, k.sum_append]

theorem ofCounters_append_comm (counters others : List Counters) :
    ofCounters (counters ++ others) = ofCounters (others ++ counters) :=
  ofCounters_perm List.perm_append_comm

/-!
## Exact sums
-/

open Measurement (asymmetricPoint)

/-- Every total is the sum over the agents, capped once, and two groups of agents can be added up
apart and in either order.  The throughput and latency agents of a point are such groups. -/
theorem totals_capped_once (counters : List Counters) :
    (ofCounters counters).agents = counters.length ∧
      (forall k : Tally, (k.total (ofCounters counters)).toNat =
        min (counters.map fun c => (k.reported c).toNat).sum (2 ^ 64 - 1)) ∧
      (forall others,
        ofCounters (counters ++ others) = (ofCounters counters).plus (ofCounters others) ∧
        ofCounters (counters ++ others) = (ofCounters others).plus (ofCounters counters)) ∧
      forall loadRate latencyRate samplingRate tuning waited loadReports latencyReports,
        let point := asymmetricPoint loadRate latencyRate samplingRate tuning waited loadReports
          latencyReports
        let load := ofCounters (loadReports.map ThroughputReport.stats)
        let latency := ofCounters (latencyReports.map fun r => r.stats.throughput)
        point.totals = load.plus latency ∧ point.totals = latency.plus load := by
  have hgroups (load latency : List Counters) :
      ofCounters (load ++ latency) = (ofCounters load).plus (ofCounters latency) ∧
        ofCounters (load ++ latency) = (ofCounters latency).plus (ofCounters load) := by
    constructor
    · exact ofCounters_append load latency
    · rw [ofCounters_append_comm]
      exact ofCounters_append latency load
  refine ⟨agents_ofCounters counters, ?sums, fun others => hgroups counters others, ?point⟩
  case sums =>
    intro k
    rw [total_ofCounters, Capped.word64_toNat]
    rfl
  case point =>
    intro loadRate latencyRate samplingRate tuning waited loadReports latencyReports point load
      latency
    have htotals : point.totals = ofCounters (loadReports.map ThroughputReport.stats ++
        latencyReports.map fun r => r.stats.throughput) :=
      congrArg (fun counters => ofCounters (_ ++ counters)) List.map_map
    rw [htotals]
    exact hgroups _ _

/-- A counter that reached its cap before the last agent stays there, and the others go on. -/
example :
    ofCounters [⟨1, 2, 18446744073709551615, 4⟩, ⟨10, 20, 1, 40⟩, ⟨100, 200, 3, 400⟩] =
      ⟨3, 111, 222, 18446744073709551615, 444⟩ := by
  decide

end Totals
end LoadFleet
