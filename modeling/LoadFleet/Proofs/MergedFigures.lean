import LoadFleet.Sample.Merge
import Mathlib.Algebra.BigOperators.Ring.List
import Mathlib.Algebra.Order.BigOperators.Group.List
import Mathlib.Algebra.Order.Ring.Nat

/-!
# What merged latencies say of the agents

Every merged number is one weighted mean of what the agents report.  The mean grows with the numbers
it is taken of, however the weighted sum is capped, so bounds that are in order at every agent are
in order when they are merged.  As long as the weights add up to a 64-bit word nothing is capped,
and the mean is exact.
-/

namespace LoadFleet

/-!
## Merged numbers
-/

inductive Percentile where
  | p50
  | p90
  | p95
  | p99
deriving DecidableEq

namespace Percentile

def reported : Percentile -> LatencyStats -> Estimate
  | .p50, s => s.p50
  | .p90, s => s.p90
  | .p95, s => s.p95
  | .p99, s => s.p99

def merged : Percentile -> MergedLatency -> Estimate
  | .p50, m => m.p50
  | .p90, m => m.p90
  | .p95, m => m.p95
  | .p99, m => m.p99

end Percentile

inductive Figure where
  | average
  | lower (p : Percentile)
  | value (p : Percentile)
  | upper (p : Percentile)
deriving DecidableEq

namespace Figure

def reported : Figure -> LatencyStats -> UInt64
  | .average, s => s.average
  | .lower p, s => (p.reported s).lower
  | .value p, s => (p.reported s).value
  | .upper p, s => (p.reported s).upper

def merged : Figure -> MergedLatency -> UInt64
  | .average, m => m.average
  | .lower p, m => (p.merged m).lower
  | .value p, m => (p.merged m).value
  | .upper p, m => (p.merged m).upper

theorem merged_ofStats (f : Figure) (stats : List LatencyStats) :
    f.merged (.ofStats stats) =
      MergedLatency.mean (MergedLatency.weight (MergedLatency.totalWeight stats)) f.reported
        stats := by
  cases f with
  | average => rfl
  | lower p => cases p <;> rfl
  | value p => cases p <;> rfl
  | upper p => cases p <;> rfl

end Figure

namespace MergedLatency

/-!
## Weighted means
-/

section

variable {weight : LatencyStats -> Nat} {number other : LatencyStats -> UInt64}
  {stats : List LatencyStats}

/-- A weighted sum that is capped with every agent is as if it had been capped once, at the end. -/
theorem foldl_absorb (weight : LatencyStats -> Nat) (number : LatencyStats -> UInt64)
    (stats : List LatencyStats) (weighted weights : Nat) :
    stats.foldl (Sums.absorb weight number) ⟨min weighted greatestSum, weights⟩ =
      ⟨min (weighted + (stats.map fun s => (number s).toNat * weight s).sum) greatestSum,
        weights + (stats.map weight).sum⟩ := by
  induction stats generalizing weighted weights with
  | nil => rfl
  | cons s rest ih =>
      have hcap : min (min weighted greatestSum + min ((number s).toNat * weight s) greatestSum)
          greatestSum = min (weighted + (number s).toNat * weight s) greatestSum := by
        omega
      rw [List.foldl_cons, Sums.absorb, hcap, ih, List.map_cons, List.map_cons, List.sum_cons,
        List.sum_cons, Nat.add_assoc, Nat.add_assoc]

theorem mean_eq (weight : LatencyStats -> Nat) (number : LatencyStats -> UInt64)
    (stats : List LatencyStats) :
    mean weight number stats =
      Capped.word64 (min (stats.map fun s => (number s).toNat * weight s).sum greatestSum /
        (stats.map weight).sum) := by
  have hsums := foldl_absorb weight number stats 0 0
  rw [Nat.zero_add, Nat.zero_add] at hsums
  unfold mean
  rw [show (⟨0, 0⟩ : Sums) = ⟨min 0 greatestSum, 0⟩ from rfl, hsums]

theorem toNat_mean (weight : LatencyStats -> Nat) (number : LatencyStats -> UInt64)
    (stats : List LatencyStats) :
    (mean weight number stats).toNat =
      min (min (stats.map fun s => (number s).toNat * weight s).sum greatestSum /
        (stats.map weight).sum) 18446744073709551615 := by
  rw [mean_eq, Capped.word64_toNat]

theorem sum_weighted_le {number other : LatencyStats -> Nat}
    (h : forall s, s ∈ stats -> number s ≤ other s) :
    (stats.map fun s => number s * weight s).sum ≤ (stats.map fun s => other s * weight s).sum := by
  apply List.sum_le_sum
  intro s hs
  exact Nat.mul_le_mul_right _ (h s hs)

theorem sum_weighted_le_mul {number : LatencyStats -> Nat} {bound : Nat}
    (h : forall s, s ∈ stats -> number s ≤ bound) :
    (stats.map fun s => number s * weight s).sum ≤ bound * (stats.map weight).sum := by
  rw [← List.sum_map_mul_left]
  exact sum_weighted_le h

theorem mean_mono (h : forall s, s ∈ stats -> number s ≤ other s) :
    mean weight number stats ≤ mean weight other stats := by
  have hsum : (stats.map fun s => (number s).toNat * weight s).sum ≤
      (stats.map fun s => (other s).toNat * weight s).sum :=
    sum_weighted_le fun s hs => UInt64.le_iff_toNat_le.mp (h s hs)
  have hcapped := min_le_min_right greatestSum hsum
  rw [UInt64.le_iff_toNat_le, toNat_mean, toNat_mean]
  exact min_le_min_right _ (Nat.div_le_div_right hcapped)

/-- As long as the weights add up to a word, the weighted sum stays below its cap and the mean is a
word. -/
theorem toNat_mean_of_fits (hfits : (stats.map weight).sum ≤ 18446744073709551615) :
    (mean weight number stats).toNat =
      (stats.map fun s => (number s).toNat * weight s).sum / (stats.map weight).sum := by
  have hsum : (stats.map fun s => (number s).toNat * weight s).sum ≤
      18446744073709551615 * (stats.map weight).sum :=
    sum_weighted_le_mul fun s _ => Nat.le_of_lt_succ (number s).toNat_lt_size
  -- A product of two words fits the sum, so neither the sum nor the quotient is capped.
  have hcapped : (stats.map fun s => (number s).toNat * weight s).sum ≤ greatestSum := by
    calc (stats.map fun s => (number s).toNat * weight s).sum
        ≤ 18446744073709551615 * (stats.map weight).sum := hsum
      _ ≤ 18446744073709551615 * 18446744073709551615 := Nat.mul_le_mul_left _ hfits
      _ ≤ greatestSum := by decide
  have hword : (stats.map fun s => (number s).toNat * weight s).sum / (stats.map weight).sum ≤
      18446744073709551615 := by
    apply Nat.div_le_of_le_mul
    rw [Nat.mul_comm]
    exact hsum
  rw [toNat_mean, min_eq_left hcapped, min_eq_left hword]

theorem mean_eq_of_fits {x : UInt64} (hsome : 0 < (stats.map weight).sum)
    (hfits : (stats.map weight).sum ≤ 18446744073709551615)
    (h : forall s, s ∈ stats -> number s = x) : mean weight number stats = x := by
  have hsum : (stats.map fun s => (number s).toNat * weight s) =
      stats.map fun s => x.toNat * weight s := by
    apply List.map_congr_left
    intro s hs
    rw [h s hs]
  apply UInt64.toNat_inj.mp
  rw [toNat_mean_of_fits hfits, hsum, List.sum_map_mul_left, Nat.mul_div_cancel _ hsome]

/-- What weighs nothing does not count. -/
theorem mean_insert {idle : LatencyStats} (h : weight idle = 0) (before after : List LatencyStats) :
    mean weight number (before ++ idle :: after) = mean weight number (before ++ after) := by
  apply UInt64.toNat_inj.mp
  simp [toNat_mean, h]

end

/-!
## Weights
-/

/-- What an agent weighs among others: its completed operations, or as much as any other where no
agent completed one. -/
def requestWeight (stats : List LatencyStats) (s : LatencyStats) : Nat :=
  if exists t, t ∈ stats ∧ 0 < t.throughput.rxRequests then s.throughput.rxRequests.toNat else 1

section

variable {stats : List LatencyStats}

theorem totalWeight_eq_sum (stats : List LatencyStats) :
    totalWeight stats = (stats.map fun s => s.throughput.rxRequests.toNat).sum := by
  rw [totalWeight, List.sum_eq_foldr, List.foldr_map]

theorem totalWeight_eq_zero_iff :
    totalWeight stats = 0 <-> ¬ exists t, t ∈ stats ∧ 0 < t.throughput.rxRequests := by
  rw [totalWeight_eq_sum, List.sum_eq_zero_iff]
  constructor
  · intro hzero hsome
    rcases hsome with ⟨t, ht, hpos⟩
    have hnone := hzero _ (List.mem_map_of_mem ht)
    rw [UInt64.lt_iff_toNat_lt, hnone] at hpos
    exact Nat.lt_irrefl 0 hpos
  · intro hnone number hnumber
    rcases List.mem_map.mp hnumber with ⟨t, ht, rfl⟩
    apply Nat.eq_zero_of_not_pos
    intro hpos
    exact hnone ⟨t, ht, UInt64.lt_iff_toNat_lt.mpr hpos⟩

theorem weight_totalWeight (stats : List LatencyStats) :
    weight (totalWeight stats) = requestWeight stats := by
  funext s
  unfold weight requestWeight
  by_cases hsome : exists t, t ∈ stats ∧ 0 < t.throughput.rxRequests
  · have hpos : ¬ totalWeight stats = 0 := fun hzero => totalWeight_eq_zero_iff.mp hzero hsome
    rw [if_neg hpos, if_pos hsome]
  · rw [if_pos (totalWeight_eq_zero_iff.mpr hsome), if_neg hsome]

/-- The weights add up to the completed operations, or to the number of agents without any. -/
theorem sum_requestWeight (stats : List LatencyStats) :
    (stats.map (requestWeight stats)).sum =
      if totalWeight stats = 0 then stats.length else totalWeight stats := by
  rw [← weight_totalWeight]
  unfold weight
  by_cases hzero : totalWeight stats = 0
  · simp [hzero]
  · simp only [if_neg hzero]
    exact (totalWeight_eq_sum stats).symm

theorem sum_requestWeight_pos (hsome : stats ≠ []) :
    0 < (stats.map (requestWeight stats)).sum := by
  rw [sum_requestWeight]
  by_cases hzero : totalWeight stats = 0
  · rw [if_pos hzero]
    exact List.length_pos_iff.mpr hsome
  · rw [if_neg hzero]
    exact Nat.pos_of_ne_zero hzero

theorem sum_requestWeight_fits (hcount : stats.length ≤ 18446744073709551615)
    (hrequests : totalWeight stats ≤ 18446744073709551615) :
    (stats.map (requestWeight stats)).sum ≤ 18446744073709551615 := by
  rw [sum_requestWeight]
  split
  · exact hcount
  · exact hrequests

theorem totalWeight_insert {idle : LatencyStats} (hidle : idle.throughput.rxRequests = 0)
    (before after : List LatencyStats) :
    totalWeight (before ++ idle :: after) = totalWeight (before ++ after) := by
  simp [totalWeight_eq_sum, hidle]

end
end MergedLatency

/-!
## Order of the bounds
-/

/-- The value of an estimate lies between its bounds. -/
def Estimate.Ordered (e : Estimate) : Prop :=
  e.lower ≤ e.value ∧ e.value ≤ e.upper

instance (e : Estimate) : Decidable e.Ordered :=
  inferInstanceAs (Decidable (_ ∧ _))

/-- A percentile that every agent reports between its bounds is merged between its bounds. -/
theorem MergedLatency.merged_estimate_ordered {stats : List LatencyStats} (p : Percentile)
    (h : forall s, s ∈ stats -> (p.reported s).Ordered) : (p.merged (.ofStats stats)).Ordered := by
  have hlower : (Figure.lower p).merged (.ofStats stats) ≤
      (Figure.value p).merged (.ofStats stats) := by
    rw [Figure.merged_ofStats, Figure.merged_ofStats]
    exact mean_mono fun s hs => (h s hs).left
  have hupper : (Figure.value p).merged (.ofStats stats) ≤
      (Figure.upper p).merged (.ofStats stats) := by
    rw [Figure.merged_ofStats, Figure.merged_ofStats]
    exact mean_mono fun s hs => (h s hs).right
  exact ⟨hlower, hupper⟩

/-- Statistics of an agent with these completed operations, this average, and one estimate for all
percentiles. -/
def LatencyStats.uniform (requests average : UInt64) (e : Estimate) : LatencyStats :=
  ⟨⟨0, 0, requests, 0⟩, average, e, e, e, e⟩

/-- Two agents with as many operations and as great latencies as can be reported, so that the
weighted sums of all three numbers are capped, keep the order that they have. -/
theorem MergedLatency.merged_estimate_ordered_capped :
    let busiest := LatencyStats.uniform 18446744073709551615 0
      ⟨18446744073709551613, 18446744073709551614, 18446744073709551615⟩
    let merged := ofStats [busiest, busiest]
    greatestSum < 2 * (18446744073709551613 * 18446744073709551615) ∧
      merged.p99.lower = 9223372036854775808 ∧ merged.p99.Ordered := by
  intro busiest merged
  have hordered : forall s, s ∈ [busiest, busiest] -> (Percentile.p99.reported s).Ordered := by
    decide
  exact ⟨by decide, by decide, merged_estimate_ordered .p99 hordered⟩

namespace MergedLatency

/-!
## Exact means
-/

/-- Where counts and operations of the agents fit a word, every merged number is the weighted mean
of the agents' numbers, rounded down.  What all agents agree on is merged to itself, and an agent
without completed operations does not count beside agents with some, wherever it is listed. -/
theorem merged_is_weighted_mean {stats : List LatencyStats} (hsome : stats ≠ [])
    (hcount : stats.length < 2 ^ 64)
    (hrequests : (stats.map fun s => s.throughput.rxRequests.toNat).sum < 2 ^ 64) (f : Figure) :
    0 < (stats.map (requestWeight stats)).sum ∧
    (f.merged (ofStats stats)).toNat =
      (stats.map fun s => requestWeight stats s * (f.reported s).toNat).sum /
        (stats.map (requestWeight stats)).sum ∧
    (forall x, (forall s, s ∈ stats -> f.reported s = x) -> f.merged (ofStats stats) = x) ∧
    forall before after idle, stats = before ++ after ->
      (exists s, s ∈ stats ∧ 0 < s.throughput.rxRequests) -> idle.throughput.rxRequests = 0 ->
        f.merged (ofStats (before ++ idle :: after)) = f.merged (ofStats stats) := by
  rw [← totalWeight_eq_sum] at hrequests
  have hpos := sum_requestWeight_pos hsome
  have hfits := sum_requestWeight_fits (Nat.le_of_lt_succ hcount) (Nat.le_of_lt_succ hrequests)
  refine ⟨hpos, ?_, ?_, ?_⟩
  · rw [f.merged_ofStats, weight_totalWeight, toNat_mean_of_fits hfits]
    simp only [Nat.mul_comm]
  · intro x hx
    rw [f.merged_ofStats, weight_totalWeight]
    exact mean_eq_of_fits hpos hfits hx
  · intro before after idle hsplit hbusy hidle
    have htotal : ¬ totalWeight stats = 0 := fun hzero => totalWeight_eq_zero_iff.mp hzero hbusy
    have hweight : weight (totalWeight stats) idle = 0 := by
      unfold weight
      rw [if_neg htotal, hidle]
      rfl
    rw [f.merged_ofStats, f.merged_ofStats, totalWeight_insert hidle, ← hsplit, mean_insert hweight,
      ← hsplit]

/-- A third agent that completed nothing leaves the mean of two others as it was, rounded down. -/
theorem merged_is_weighted_mean_idleThird :
    let few := LatencyStats.uniform 100 1000 ⟨0, 0, 0⟩
    let many := LatencyStats.uniform 301 2000 ⟨0, 0, 0⟩
    let idle := LatencyStats.uniform 0 9000 ⟨0, 0, 0⟩
    (ofStats [few, many]).average.toNat = (100 * 1000 + 301 * 2000) / (100 + 301) ∧
      (ofStats [few, idle, many]).average = (ofStats [few, many]).average := by
  intro few many idle
  have hsome : [few, many] ≠ [] := List.cons_ne_nil few [many]
  have hmean := merged_is_weighted_mean hsome (by decide) (by decide) .average
  constructor
  · exact hmean.right.left.trans (by decide)
  · exact hmean.right.right.right [few] [many] idle rfl ⟨few, by decide, by decide⟩ rfl

end MergedLatency
end LoadFleet
