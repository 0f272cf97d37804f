import LoadFleet.Measurement.Pattern
import LoadFleet.Proofs.MergedFigures
import LoadFleet.Proofs.Verdicts
import Mathlib.Data.List.Perm.Basic

/-!
# Numbers that do not depend on the order of agents

Totals, merged latencies and verdicts are the same for any two lists of the same reports.  Capped
sums are the same in any order because capping once more changes nothing, and the weighted sums are
as if they were capped once.  Only the trailer values of a point are listed agent by agent.
-/

namespace LoadFleet

/-!
## Totals
-/

theorem Capped.add64_right_comm (a b c : UInt64) :
    add64 (add64 a b) c = add64 (add64 a c) b := by
  apply UInt64.toNat_inj.mp
  simp only [add64, word64_toNat]
  omega

namespace Totals

theorem absorb_right_comm (t : Totals) (c d : Counters) :
    (t.absorb c).absorb d = (t.absorb d).absorb c := by
  simp only [absorb, Capped.add64_right_comm _ c.rxBytes, Capped.add64_right_comm _ c.txBytes,
    Capped.add64_right_comm _ c.rxRequests, Capped.add64_right_comm _ c.txRequests]

theorem ofCounters_perm {counters others : List Counters} (h : counters.Perm others) :
    ofCounters counters = ofCounters others := by
  have hcomm : RightCommutative absorb := ⟨absorb_right_comm⟩
  exact h.foldl_eq zero

end Totals

/-!
## Merged latencies
-/

namespace MergedLatency

variable {stats others : List LatencyStats}

theorem totalWeight_perm (h : stats.Perm others) : totalWeight stats = totalWeight others := by
  rw [totalWeight_eq_sum, totalWeight_eq_sum]
  exact (h.map _).sum_eq

theorem mean_perm (weight : LatencyStats -> Nat) (number : LatencyStats -> UInt64)
    (h : stats.Perm others) :
    mean weight number stats = mean weight number others := by
  rw [mean_eq, mean_eq, (h.map fun s => (number s).toNat * weight s).sum_eq, (h.map weight).sum_eq]

theorem meanEstimate_perm (weight : LatencyStats -> Nat) (estimate : LatencyStats -> Estimate)
    (h : stats.Perm others) :
    meanEstimate weight estimate stats = meanEstimate weight estimate others := by
  unfold meanEstimate
  rw [mean_perm weight _ h, mean_perm weight _ h, mean_perm weight _ h]

theorem ofStats_perm (h : stats.Perm others) : ofStats stats = ofStats others := by
  unfold ofStats
  simp only [totalWeight_perm h, h.length_eq, mean_perm _ _ h, meanEstimate_perm _ _ h,
    Totals.ofCounters_perm (h.map LatencyStats.throughput)]

end MergedLatency

/-!
## Trailers and verdicts
-/

/-- The same trailer values, list by list, in any order. -/
structure Trailers.Reordered (t u : Trailers) : Prop where
  convergence : t.convergence.Perm u.convergence
  correlations : t.correlations.Perm u.correlations
  interArrival : t.interArrival.Perm u.interArrival

namespace Trailers

theorem reordered_ofReports {reports others : List LatencyReport} (h : reports.Perm others) :
    (ofReports reports).Reordered (ofReports others) := by
  have htrailers := h.filterMap LatencyReport.trailer
  constructor
  · exact htrailers.map Trailer.convergence
  · exact htrailers.map Trailer.correlation
  · exact htrailers.map Trailer.interArrival

theorem Reordered.extend {t u : Trailers} (h : t.Reordered u)
    {reports others : List ThroughputReport} (hreports : reports.Perm others) :
    (t.extend reports).Reordered (u.extend others) := by
  constructor
  · exact h.convergence
  · exact h.correlations
  · exact h.interArrival.append (hreports.filterMap ThroughputReport.interArrival)

end Trailers

namespace Measurement.FixedSetting

variable (s : FixedSetting)

theorem probed_perm {reports others : List ThroughputReport} (h : reports.Perm others) :
    probed reports = probed others := by
  unfold probed
  rw [Totals.ofCounters_perm (h.map ThroughputReport.stats)]

theorem verdict_perm {reports others : List LatencyReport} (h : reports.Perm others) :
    s.verdict reports = s.verdict others := by
  unfold verdict
  rw [Acceptance.judge_perm (Trailers.reordered_ofReports h).correlations,
    MergedLatency.ofStats_perm (h.map LatencyReport.stats)]

end Measurement.FixedSetting

/-!
## Points
-/

/-- Points that agree in every field except the trailer values, which may come in another order. -/
structure Point.Reordered (p q : Point) : Prop where
  fields : { p with trailers := q.trailers } = q
  trailers : p.trailers.Reordered q.trailers

namespace Measurement

theorem reordered_symmetricPoint (rate : UInt32) (tuning : Tuning) (waited : Duration)
    {reports others : List LatencyReport} (h : reports.Perm others) :
    (symmetricPoint rate tuning waited reports).Reordered
      (symmetricPoint rate tuning waited others) := by
  have hlatency := MergedLatency.ofStats_perm (h.map LatencyReport.stats)
  constructor
  · unfold symmetricPoint
    rw [hlatency]
  · exact Trailers.reordered_ofReports h

theorem reordered_asymmetricPoint (loadRate latencyRate : UInt32) (samplingRate : Float)
    (tuning : Tuning) (waited : Duration) {loadReports loadOthers : List ThroughputReport}
    {latencyReports latencyOthers : List LatencyReport} (hload : loadReports.Perm loadOthers)
    (hlatency : latencyReports.Perm latencyOthers) :
    (asymmetricPoint loadRate latencyRate samplingRate tuning waited loadReports
      latencyReports).Reordered
      (asymmetricPoint loadRate latencyRate samplingRate tuning waited loadOthers
        latencyOthers) := by
  have hstats := hlatency.map LatencyReport.stats
  have hmerged := MergedLatency.ofStats_perm hstats
  have htotals := Totals.ofCounters_perm
    ((hload.map ThroughputReport.stats).append (hstats.map LatencyStats.throughput))
  constructor
  · simp only [asymmetricPoint, hmerged, htotals]
  · exact (Trailers.reordered_ofReports hlatency).extend hload

theorem FixedSetting.reordered_point (s : FixedSetting) (measured accepted : Tuning)
    (waited : Duration) {reports others : List LatencyReport} (h : reports.Perm others) :
    (s.point measured accepted waited reports).Reordered
      (s.point measured accepted waited others) := by
  have hlatency := MergedLatency.ofStats_perm (h.map LatencyReport.stats)
  constructor
  · unfold FixedSetting.point
    rw [hlatency]
  · exact Trailers.reordered_ofReports h

end Measurement
end LoadFleet
