import LoadFleet.Proofs.MergedFigures
import LoadFleet.Proofs.Verdicts

/-!
# Merged latencies between those of the agents

A weighted mean lies between the least and the greatest of its numbers.  No merged number is
greater than all that the agents report.  It is less than all of them exactly where the weighted sum
would have to exceed its cap, which takes more completed operations than a 64-bit word holds.  Up to
there, numbers that differ by so much at every agent also differ by so much when they are merged, so
a merged interval is at least as wide as that of some agent, and at most as wide as that of some
agent.
-/

namespace LoadFleet

/-!
## Bounds that are attained
-/

section

variable {items : List α} {number : α -> Nat} {value : Nat}

theorem exists_ge_of_upper_bounds (hsome : items ≠ [])
    (h : forall bound, (forall item, item ∈ items -> number item ≤ bound) -> value ≤ bound) :
    exists item, item ∈ items ∧ value ≤ number item := by
  by_contra hnone
  have hbelow : forall item, item ∈ items -> number item < value := by
    intro item hitem
    exact Nat.lt_of_not_le fun hle => hnone ⟨item, hitem, hle⟩
  have hless : value ≤ value - 1 := by
    apply h
    intro item hitem
    exact Nat.le_sub_one_of_lt (hbelow item hitem)
  rcases List.exists_mem_of_ne_nil items hsome with ⟨item, hitem⟩
  have hpos := hbelow item hitem
  omega

theorem exists_le_of_lower_bounds
    (h : forall bound, (forall item, item ∈ items -> bound ≤ number item) -> bound ≤ value) :
    exists item, item ∈ items ∧ number item ≤ value := by
  by_contra hnone
  apply Nat.not_succ_le_self value
  apply h
  intro item hitem
  exact Nat.succ_le_of_lt (Nat.lt_of_not_le fun hle => hnone ⟨item, hitem, hle⟩)

end

namespace MergedLatency

/-!
## Bounds of a mean
-/

section

variable {weight : LatencyStats -> Nat} {number other : LatencyStats -> UInt64}
  {stats : List LatencyStats} {bound shift : Nat}

theorem sum_weighted_add (number weight : LatencyStats -> Nat) (stats : List LatencyStats)
    (shift : Nat) :
    (stats.map fun s => (number s + shift) * weight s).sum =
      (stats.map fun s => number s * weight s).sum + shift * (stats.map weight).sum := by
  simp only [Nat.add_mul, List.sum_map_add, List.sum_map_mul_left]

theorem toNat_mean_le (h : forall s, s ∈ stats -> (number s).toNat ≤ bound) :
    (mean weight number stats).toNat ≤ bound := by
  have hcapped : min (stats.map fun s => (number s).toNat * weight s).sum greatestSum ≤
      bound * (stats.map weight).sum :=
    Nat.le_trans (min_le_left _ _) (sum_weighted_le_mul h)
  have hquotient : min (stats.map fun s => (number s).toNat * weight s).sum greatestSum /
      (stats.map weight).sum ≤ bound := by
    apply Nat.div_le_of_le_mul
    rw [Nat.mul_comm]
    exact hcapped
  rw [toNat_mean]
  exact Nat.le_trans (min_le_left _ _) hquotient

/-- A lower bound of the numbers is one of their mean, unless agents that all reported just this
bound would exceed the cap of the weighted sum. -/
theorem le_toNat_mean_iff (hsome : 0 < (stats.map weight).sum)
    (hword : bound ≤ 18446744073709551615) (h : forall s, s ∈ stats -> bound ≤ (number s).toNat) :
    bound ≤ (mean weight number stats).toNat <->
      bound * (stats.map weight).sum ≤ greatestSum := by
  have hsum : bound * (stats.map weight).sum ≤
      (stats.map fun s => (number s).toNat * weight s).sum := by
    rw [← List.sum_map_mul_left]
    exact sum_weighted_le h
  rw [toNat_mean, le_min_iff, Nat.le_div_iff_mul_le hsome, le_min_iff]
  constructor
  · intro hmean
    exact hmean.left.right
  · intro hcap
    exact ⟨⟨hsum, hcap⟩, hword⟩

theorem toNat_mean_add_le (hsome : 0 < (stats.map weight).sum)
    (hfits : (stats.map weight).sum ≤ 18446744073709551615)
    (h : forall s, s ∈ stats -> (number s).toNat + shift ≤ (other s).toNat) :
    (mean weight number stats).toNat + shift ≤ (mean weight other stats).toNat := by
  rw [toNat_mean_of_fits hfits, toNat_mean_of_fits hfits, ← Nat.add_mul_div_right _ _ hsome,
    ← sum_weighted_add]
  exact Nat.div_le_div_right (sum_weighted_le h)

theorem toNat_mean_le_add (hsome : 0 < (stats.map weight).sum)
    (hfits : (stats.map weight).sum ≤ 18446744073709551615)
    (h : forall s, s ∈ stats -> (other s).toNat ≤ (number s).toNat + shift) :
    (mean weight other stats).toNat ≤ (mean weight number stats).toNat + shift := by
  rw [toNat_mean_of_fits hfits, toNat_mean_of_fits hfits, ← Nat.add_mul_div_right _ _ hsome,
    ← sum_weighted_add]
  exact Nat.div_le_div_right (sum_weighted_le h)

end

/-!
## Merged numbers
-/

/-- A merged number is at most the greatest one that an agent reports.  It is at least the least one
exactly if agents that all reported just this one would not exceed the cap of the weighted sum, and
so always where the weights add up to a word. -/
theorem merged_among_reported {stats : List LatencyStats} (hsome : stats ≠ []) (f : Figure) :
    (exists s, s ∈ stats ∧ f.merged (ofStats stats) ≤ f.reported s) ∧
    (forall s, s ∈ stats -> (forall t, t ∈ stats -> f.reported s ≤ f.reported t) ->
      (f.reported s ≤ f.merged (ofStats stats) <->
        (f.reported s).toNat * (stats.map (requestWeight stats)).sum < 2 ^ 128)) ∧
    ((stats.map (requestWeight stats)).sum ≤ 2 ^ 64 ->
      exists s, s ∈ stats ∧ f.reported s ≤ f.merged (ofStats stats)) := by
  have hpos := sum_requestWeight_pos hsome
  rw [f.merged_ofStats, weight_totalWeight]
  simp only [UInt64.le_iff_toNat_le]
  refine ⟨?_, ?_, ?_⟩
  · apply exists_ge_of_upper_bounds hsome
    intro bound hbound
    exact toNat_mean_le hbound
  · intro s hs hleast
    rw [le_toNat_mean_iff hpos (Nat.le_of_lt_succ (f.reported s).toNat_lt) hleast]
    exact Nat.lt_succ_iff.symm
  · intro hfits
    apply exists_le_of_lower_bounds
    intro bound hbound
    rcases List.exists_mem_of_ne_nil stats hsome with ⟨s, hs⟩
    have hword : bound ≤ 18446744073709551615 :=
      Nat.le_trans (hbound s hs) (Nat.le_of_lt_succ (f.reported s).toNat_lt)
    apply (le_toNat_mean_iff hpos hword hbound).mpr
    calc bound * (stats.map (requestWeight stats)).sum
        ≤ 18446744073709551615 * 2 ^ 64 := Nat.mul_le_mul hword hfits
      _ ≤ greatestSum := by decide

/-- Two agents with as many operations as can be reported take the weighted sum to its cap, and yet
their mean does not fall below the lesser number, which just fits. -/
theorem merged_among_reported_capped :
    let lesser := LatencyStats.uniform 18446744073709551615 9223372036854775808 ⟨0, 0, 0⟩
    let greater := LatencyStats.uniform 18446744073709551615 18446744073709551615 ⟨0, 0, 0⟩
    greatestSum < 18446744073709551615 * (9223372036854775808 + 18446744073709551615) ∧
      lesser.average ≤ (ofStats [lesser, greater]).average := by
  intro lesser greater
  have hsome : [lesser, greater] ≠ [] := List.cons_ne_nil lesser [greater]
  have hleast : forall t, t ∈ [lesser, greater] ->
      Figure.average.reported lesser ≤ Figure.average.reported t := by
    decide
  rcases merged_among_reported hsome .average with ⟨-, hkept, -⟩
  constructor
  · decide
  · exact (hkept lesser List.mem_cons_self hleast).mpr (by decide)

/-- Two agents that both report the greatest average over the greatest count of operations are
merged to half of it. -/
theorem merged_below_reported :
    let busiest := LatencyStats.uniform 18446744073709551615 18446744073709551615 ⟨0, 0, 0⟩
    let merged := ofStats [busiest, busiest]
    merged.average = 9223372036854775808 ∧
      forall s, s ∈ [busiest, busiest] -> merged.average < s.average := by
  decide

/-!
## Widths of intervals
-/

section

variable {stats : List LatencyStats} {p : Percentile} {bound : Nat}

theorem le_width_merged (hsome : stats ≠ []) (hcount : stats.length ≤ 18446744073709551615)
    (hrequests : totalWeight stats ≤ 18446744073709551615)
    (hordered : forall s, s ∈ stats -> (p.reported s).lower ≤ (p.reported s).upper)
    (h : forall s, s ∈ stats -> bound ≤ (p.reported s).width.toNat) :
    bound ≤ (p.merged (ofStats stats)).width.toNat := by
  have hshift : ((Figure.lower p).merged (ofStats stats)).toNat + bound ≤
      ((Figure.upper p).merged (ofStats stats)).toNat := by
    rw [Figure.merged_ofStats, Figure.merged_ofStats, weight_totalWeight]
    apply toNat_mean_add_le (sum_requestWeight_pos hsome) (sum_requestWeight_fits hcount hrequests)
    intro s hs
    have hbound := h s hs
    have hbounds := UInt64.le_iff_toNat_le.mp (hordered s hs)
    rw [Estimate.width, Capped.sub64_toNat] at hbound
    show (p.reported s).lower.toNat + bound ≤ (p.reported s).upper.toNat
    omega
  rw [Estimate.width, Capped.sub64_toNat]
  exact Nat.le_sub_of_add_le' hshift

theorem width_merged_le (hsome : stats ≠ []) (hcount : stats.length ≤ 18446744073709551615)
    (hrequests : totalWeight stats ≤ 18446744073709551615)
    (h : forall s, s ∈ stats -> (p.reported s).width.toNat ≤ bound) :
    (p.merged (ofStats stats)).width.toNat ≤ bound := by
  have hshift : ((Figure.upper p).merged (ofStats stats)).toNat ≤
      ((Figure.lower p).merged (ofStats stats)).toNat + bound := by
    rw [Figure.merged_ofStats, Figure.merged_ofStats, weight_totalWeight]
    apply toNat_mean_le_add (sum_requestWeight_pos hsome) (sum_requestWeight_fits hcount hrequests)
    intro s hs
    have hbound := h s hs
    rw [Estimate.width, Capped.sub64_toNat] at hbound
    exact Nat.sub_le_iff_le_add'.mp hbound
  rw [Estimate.width, Capped.sub64_toNat]
  exact Nat.sub_le_iff_le_add'.mpr hshift

end
end MergedLatency

/-!
## Judging merged intervals
-/

namespace MergedLatency

/-- As long as counts and operations of the agents fit a word, the interval of the merged percentile
is at least as wide as that of some agent and at most as wide as that of some agent.  So where no
correlation speaks against the samples, they are accepted if every agent knows the percentile
closely enough, and more are wanted if none does. -/
theorem merged_width_among_reported {stats : List LatencyStats} (hsome : stats ≠ [])
    (hcount : stats.length < 2 ^ 64)
    (hrequests : (stats.map fun s => s.throughput.rxRequests.toNat).sum < 2 ^ 64)
    (hordered : forall s, s ∈ stats -> s.p99.lower ≤ s.p99.upper) :
    let merged := (ofStats stats).p99
    (exists s, s ∈ stats ∧ s.p99.width ≤ merged.width) ∧
    (exists s, s ∈ stats ∧ merged.width ≤ s.p99.width) ∧
    forall (correlations : List Float) (widestMicros : UInt64),
      (forall c, c ∈ correlations -> ¬ 0.25 < c ∧ (c == 0.0) = false) ->
        ((forall s, s ∈ stats -> s.p99.width.toNat ≤ widestMicros.toNat * 1000) ->
          Acceptance.judge correlations merged widestMicros = .accept) ∧
        ((forall s, s ∈ stats -> widestMicros.toNat * 1000 < s.p99.width.toNat) ->
          Acceptance.judge correlations merged widestMicros = .grow .wideInterval) := by
  intro merged
  rw [← totalWeight_eq_sum] at hrequests
  have hleast (bound : Nat) (h : forall s, s ∈ stats -> bound ≤ s.p99.width.toNat) :
      bound ≤ merged.width.toNat :=
    le_width_merged (p := .p99) hsome (Nat.le_of_lt_succ hcount) (Nat.le_of_lt_succ hrequests)
      hordered h
  have hgreatest (bound : Nat) (h : forall s, s ∈ stats -> s.p99.width.toNat ≤ bound) :
      merged.width.toNat ≤ bound :=
    width_merged_le (p := .p99) hsome (Nat.le_of_lt_succ hcount) (Nat.le_of_lt_succ hrequests) h
  simp only [UInt64.le_iff_toNat_le]
  refine ⟨exists_le_of_lower_bounds hleast, exists_ge_of_upper_bounds hsome hgreatest, ?_⟩
  intro correlations widestMicros hindependent
  rw [Acceptance.judge_independent hindependent]
  constructor
  · intro hclose
    exact if_neg (Nat.not_lt_of_le (hgreatest _ hclose))
  · intro hwide
    exact if_pos (hleast _ hwide)

/-- Both bounds of this merged interval are rounded down, and its width stays between four and five
microseconds, as the widths that it is merged from. -/
theorem merged_width_among_reported_rounded :
    let narrow := LatencyStats.uniform 1 0 ⟨10000, 12000, 14000⟩
    let wide := LatencyStats.uniform 2 0 ⟨20001, 22000, 25001⟩
    let merged := (ofStats [narrow, wide]).p99
    merged = ⟨16667, 18666, 21334⟩ ∧ (exists s, s ∈ [narrow, wide] ∧ merged.width ≤ s.p99.width) ∧
      Acceptance.judge [0.125] merged 5 = .accept ∧
      Acceptance.judge [0.125] merged 3 = .grow .wideInterval := by
  intro narrow wide merged
  have hsome : [narrow, wide] ≠ [] := List.cons_ne_nil narrow [wide]
  have hordered : forall s, s ∈ [narrow, wide] -> s.p99.lower ≤ s.p99.upper := by decide
  have hindependent : forall c : Float, c ∈ [0.125] -> ¬ 0.25 < c ∧ (c == 0.0) = false := by
    decide +kernel
  rcases merged_width_among_reported hsome (by decide) (by decide) hordered with
    ⟨-, hgreatest, hjudge⟩
  refine ⟨by decide, hgreatest, ?_, ?_⟩
  · exact (hjudge [0.125] 5 hindependent).left (by decide)
  · exact (hjudge [0.125] 3 hindependent).right (by decide)

end MergedLatency
end LoadFleet
