import LoadFleet.Proofs.FixedSchedule
import LoadFleet.Proofs.MeasurementCourses

/-!
# The outcome of a fixed pattern

Let the throughput settle at probe `j` and let the samples first be accepted at measurement `k`,
both counted from one.  A fixed pattern ends in a point exactly where its tries suffice for `j`
probes and `k` measurements, and what it reports otherwise tells which of the two it was waiting
for.
-/

namespace LoadFleet

/-- The positions, counted from one, at which a property holds. -/
def positions (holds : Nat -> Prop) : Set Nat :=
  {i | 0 < i ∧ holds (i - 1)}

theorem eq_succ_of_isLeast_positions {holds : Nat -> Prop} {j : Nat}
    (hj : IsLeast (positions holds) j) :
    exists n, j = n + 1 ∧ holds n ∧ forall i, i < n -> ¬ holds i := by
  rcases hj with ⟨⟨hpos, hholds⟩, hleast⟩
  refine ⟨j - 1, (Nat.sub_add_cancel hpos).symm, hholds, ?_⟩
  intro i hi hi'
  have hle : j ≤ i + 1 := hleast ⟨Nat.succ_pos i, hi'⟩
  omega

/-- If nothing up to a bound is the first position, the property holds nowhere before the bound. -/
theorem not_of_no_isLeast_positions {holds : Nat -> Prop} {bound : Nat}
    (hnone : forall j, IsLeast (positions holds) j -> ¬ j ≤ bound) :
    forall i, i < bound -> ¬ holds i := by
  intro i
  induction i using Nat.strongRecOn with
  | ind i ih =>
      intro hi hholds
      -- With nothing before it, `i + 1` would be the first position.
      refine hnone (i + 1) ⟨⟨Nat.succ_pos i, hholds⟩, ?_⟩ hi
      intro n h
      rcases h with ⟨hn, hholdsn⟩
      apply Nat.le_of_not_lt
      intro hlt
      exact ih (n - 1) (by omega) (by omega) hholdsn

namespace Measurement
namespace FixedSetting

open Procedure

variable (s : FixedSetting) (throughput : Nat -> List ThroughputReport)
  (latency : Nat -> List LatencyReport) (windows : Nat -> Duration)

/-- The probes whose throughput is in band. -/
def settled : Set Nat :=
  positions fun i => Acceptance.throughputInBand (probed (throughput i)) s.rate = true

/-- The latency measurements whose samples are accepted. -/
def accepted : Set Nat :=
  positions fun i => s.verdict (latency i) = .accept

/-- Within a budget of tries a run computes the window of the measurement after `i` others. -/
def Opens (tries i : Nat) : Prop :=
  exists j, IsLeast (s.settled throughput) j ∧ j + i < tries ∧
    forall h, h < i -> s.verdict (latency h) ≠ .accept

/-- What a fixed pattern does that probes and measures so many times. -/
def schedule (probes measures : Nat) : List Event :=
  .asked (.startLoad .symmetric s.load) :: .paused fixedSettle ::
    (s.probesEvents probes ++ s.measuresEvents latency windows measures)

/-- The tries of a run, which follow the start of the load. -/
def tried (tries : Nat) : Run Script.Progress Point :=
  (s.attempts tries (.probing 0)).rehearse (handing throughput latency) ⟨1, 0, 0⟩

theorem tried_accepted {tries j k : Nat} (hj : IsLeast (s.settled throughput) j)
    (hk : IsLeast (s.accepted latency) k) (htries : j + k ≤ tries)
    (hwindows : forall i, s.Opens throughput latency tries i ->
      s.windowAfter latency i = .ok (windows i)) :
    (s.tried throughput latency tries).events =
        s.probesEvents j ++ s.measuresEvents latency windows k ∧
      (s.tried throughput latency tries).result =
        .ok (s.acceptedPoint latency j (k - 1) (windows (k - 1))) := by
  rcases eq_succ_of_isLeast_positions hj with ⟨a, rfl, hin, hout⟩
  rcases eq_succ_of_isLeast_positions hk with ⟨b, rfl, haccepted, hrejected⟩
  have hopen : forall i, i < b + 1 -> s.windowAfter latency i = .ok (windows i) := by
    intro i hi
    refine hwindows i ⟨a + 1, hj, by omega, ?_⟩
    intro h hh
    exact hrejected h (by omega)
  have hbudget : tries = tries - (a + 1 + (b + 1)) + (b + 1) + (a + 1) := by
    omega
  rw [tried, hbudget,
    rehearse_probes_settled s throughput latency a _ 1 hout hin,
    rehearse_measures_accepted s throughput latency b _ (a + 1) _ hopen hrejected haccepted]
  exact ⟨rfl, rfl⟩

theorem tried_unaccepted {tries j : Nat} (hj : IsLeast (s.settled throughput) j)
    (hle : j ≤ tries) (hnone : forall k, IsLeast (s.accepted latency) k -> ¬ j + k ≤ tries)
    (hwindows : forall i, s.Opens throughput latency tries i ->
      s.windowAfter latency i = .ok (windows i)) :
    (s.tried throughput latency tries).events =
        s.probesEvents j ++ s.measuresEvents latency windows (tries - j) ∧
      (s.tried throughput latency tries).result =
        .error (s.exhausted (.measuring j (s.verdicts latency (tries - j)))) := by
  -- The first accepted measurement, if there is one, comes after the last try.
  have hrejected : forall i, i < tries - j -> s.verdict (latency i) ≠ .accept := by
    apply not_of_no_isLeast_positions
    intro k hk hkle
    exact hnone k hk (by omega)
  have hopen : forall i, i < tries - j -> s.windowAfter latency i = .ok (windows i) := by
    intro i hi
    refine hwindows i ⟨j, hj, by omega, ?_⟩
    intro h hh
    exact hrejected h (by omega)
  rcases eq_succ_of_isLeast_positions hj with ⟨a, rfl, hin, hout⟩
  have hbudget : s.tried throughput latency tries =
      s.tried throughput latency (0 + (tries - (a + 1)) + (a + 1)) := by
    rw [Nat.zero_add, Nat.sub_add_cancel hle]
  rw [hbudget, tried,
    rehearse_probes_settled s throughput latency a _ 1 hout hin,
    rehearse_measures_rejected s throughput latency _ 0 (a + 1) _ hopen hrejected, attempts_zero]
  refine ⟨?_, rfl⟩
  simp [Run.afterAll]

theorem tried_unsettled {tries : Nat}
    (hnone : forall j, IsLeast (s.settled throughput) j -> ¬ j ≤ tries) :
    (s.tried throughput latency tries).events = s.probesEvents tries ∧
      (s.tried throughput latency tries).result = .error (s.exhausted (.probing tries)) := by
  have hout : forall i, i < tries ->
      Acceptance.throughputInBand (probed (throughput i)) s.rate ≠ true :=
    not_of_no_isLeast_positions hnone
  have hbudget : s.tried throughput latency tries = s.tried throughput latency (0 + tries) := by
    rw [Nat.zero_add]
  rw [hbudget, tried, rehearse_probes_out s throughput latency tries 0 1 hout, attempts_zero]
  refine ⟨?_, rfl⟩
  simp [Run.afterAll]

theorem acceptedPoint_iterations (probes rejected : Nat) (window : Duration) :
    (s.acceptedPoint latency probes rejected window).iterations =
      Capped.word32 (probes + rejected + 1) := by
  have hone : (1 : UInt32).toNat = 1 := rfl
  show Capped.add32 (Capped.word32 (probes + (s.verdicts latency rejected).length)) 1 = _
  rw [Capped.add32_word32, length_verdicts, hone]

theorem acceptedPoint_retries (probes rejected : Nat) (window : Duration) :
    (s.acceptedPoint latency probes rejected window).retries =
      Capped.word32 (probes - 1 + rejected) := by
  show Capped.word32 (probes - 1 + (s.verdicts latency rejected).length) = _
  rw [length_verdicts]

theorem exhausted_measuring (probes rejected : Nat) :
    s.exhausted (.measuring probes (s.verdicts latency rejected)) =
      .experiment (.maxTriesReached (Pattern.fixed s.rate).text
        (Capped.word32 (probes + rejected)) (Capped.word32 (probes - 1 + rejected))
        "wait-for-latency") := by
  simp only [exhausted, Tuning.measuring, length_verdicts, Phase.label]

theorem exhausted_probing (probes : Nat) :
    s.exhausted (.probing probes) =
      .experiment (.maxTriesReached (Pattern.fixed s.rate).text (Capped.word32 probes)
        (Capped.word32 probes) "wait-for-throughput") :=
  rfl

end FixedSetting
end Measurement

namespace Pattern

open Procedure Measurement

variable (count : Group -> Nat) (settings : MeasurementSettings) (rate : UInt32)
  (throughput : Nat -> List ThroughputReport) (latency : Nat -> List LatencyReport)

/-- What a fixed pattern measures on a fleet with these counts of agents. -/
def fixedSetting : FixedSetting :=
  ⟨count .symmetric, rate, settings.widestMicros⟩

/-- The run of a fixed pattern over reports that are handed out in order. -/
def fixedRun : Run Script.Progress Outcome :=
  ((Pattern.fixed rate).procedure count settings).rehearse (handing throughput latency) .start

theorem fixedRun_eq (hagents : 1 ≤ count .symmetric) :
    fixedRun count settings rate throughput latency =
      (((fixedSetting count settings rate).tried throughput latency
          settings.maxTries.toNat).afterAll
        [.asked (.startLoad .symmetric (fixedSetting count settings rate).load),
          .paused fixedSettle]).map fun point => ⟨(Pattern.fixed rate).text, [point]⟩ := by
  have hensure : (Pattern.fixed rate).ensureAgents count = .ok () :=
    if_neg (Nat.ne_of_gt hagents)
  rw [fixedRun, Procedure.rehearse, run_of_ensured hensure, points, run_single, Run.map_map]
  rfl

theorem fixedRun_events (hagents : 1 ≤ count .symmetric) :
    (fixedRun count settings rate throughput latency).events =
      .asked (.startLoad .symmetric (fixedSetting count settings rate).load) ::
        .paused fixedSettle ::
          ((fixedSetting count settings rate).tried throughput latency
            settings.maxTries.toNat).events := by
  rw [fixedRun_eq count settings rate throughput latency hagents]
  rfl

theorem fixedRun_result (hagents : 1 ≤ count .symmetric) :
    (fixedRun count settings rate throughput latency).result =
      ((fixedSetting count settings rate).tried throughput latency
        settings.maxTries.toNat).result.map fun point =>
          ⟨(Pattern.fixed rate).text, [point]⟩ := by
  rw [fixedRun_eq count settings rate throughput latency hagents]
  rfl

/-- The exact schedule and outcome of a fixed pattern, over reports handed out by a fleet in which
no request fails and for which every window is defined that the run computes. -/
theorem fixed_schedule_exact (windows : Nat -> Duration) :
    let s := fixedSetting count settings rate
    let run := fixedRun count settings rate throughput latency
    let tries := settings.maxTries.toNat
    1 ≤ count .symmetric ->
    (forall i, s.Opens throughput latency tries i ->
      s.windowAfter latency i = .ok (windows i)) ->
    (forall j k, IsLeast (s.settled throughput) j -> IsLeast (s.accepted latency) k ->
      j + k ≤ tries ->
        (exists point : Point,
          run.result = .ok ⟨(Pattern.fixed rate).text, [point]⟩ ∧
          point.iterations.toNat = j + k ∧
          point.retries.toNat = j + k - 2 ∧
          point.sampleCount.toNat =
            min 4294967295
              (10000 + 10000 * (s.verdicts latency (k - 1)).countP Verdict.isGrow) ∧
          point.samplingRate =
            (fun percent : Float => percent / 2.0)^[
              (s.verdicts latency (k - 1)).countP Verdict.isHalve] 20.0) ∧
        run.events = s.schedule latency windows j k) ∧
    (forall j, IsLeast (s.settled throughput) j -> j ≤ tries ->
      (forall k, IsLeast (s.accepted latency) k -> ¬ j + k ≤ tries) ->
        run.result =
          .error (.experiment (.maxTriesReached (Pattern.fixed rate).text settings.maxTries
            (settings.maxTries - 1) "wait-for-latency")) ∧
        run.events = s.schedule latency windows j (tries - j)) ∧
    ((forall j, IsLeast (s.settled throughput) j -> ¬ j ≤ tries) ->
        run.result =
          .error (.experiment (.maxTriesReached (Pattern.fixed rate).text settings.maxTries
            settings.maxTries "wait-for-throughput")) ∧
        run.events = s.schedule latency windows tries 0) := by
  intro s run tries hagents hwindows
  have hevents : run.events = .asked (.startLoad .symmetric s.load) :: .paused fixedSettle ::
      (s.tried throughput latency tries).events :=
    fixedRun_events count settings rate throughput latency hagents
  have hresult : run.result = (s.tried throughput latency tries).result.map fun point =>
      ⟨(Pattern.fixed rate).text, [point]⟩ :=
    fixedRun_result count settings rate throughput latency hagents
  have htries : tries < 4294967296 := settings.maxTries.toNat_lt
  have hword : Capped.word32 tries = settings.maxTries := by
    apply UInt32.toNat_inj.mp
    rw [Capped.word32_toNat]
    show min tries 4294967295 = tries
    omega
  refine ⟨?_, ?_, ?_⟩
  · intro j k hj hk hle
    have hjpos : 0 < j := hj.1.1
    have hkpos : 0 < k := hk.1.1
    rcases s.tried_accepted throughput latency windows hj hk hle hwindows with ⟨htried, hpoint⟩
    refine ⟨⟨s.acceptedPoint latency j (k - 1) (windows (k - 1)), ?_, ?_, ?_, ?_, ?_⟩, ?_⟩
    · rw [hresult, hpoint]
      rfl
    · rw [s.acceptedPoint_iterations, Capped.word32_toNat]
      omega
    · rw [s.acceptedPoint_retries, Capped.word32_toNat]
      omega
    · show (Capped.word32 _).toNat = _
      rw [Capped.word32_toNat, Nat.min_comm]
    · rfl
    · rw [hevents, htried]
      rfl
  · intro j hj hle hnone
    have hjpos : 0 < j := hj.1.1
    rcases s.tried_unaccepted throughput latency windows hj hle hnone hwindows with
      ⟨htried, hfailure⟩
    have hone : (1 : UInt32) ≤ settings.maxTries := by
      rw [UInt32.le_iff_toNat_le]
      exact Nat.le_trans hjpos hle
    have hretries : Capped.word32 (j - 1 + (tries - j)) = settings.maxTries - 1 := by
      apply UInt32.toNat_inj.mp
      rw [Capped.word32_toNat, UInt32.toNat_sub_of_le _ _ hone]
      show min (j - 1 + (tries - j)) 4294967295 = tries - 1
      omega
    constructor
    · rw [hresult, hfailure, s.exhausted_measuring, Nat.add_sub_cancel' hle, hword, hretries]
      rfl
    · rw [hevents, htried]
      rfl
  · intro hnone
    rcases s.tried_unsettled throughput latency hnone with ⟨htried, hfailure⟩
    constructor
    · rw [hresult, hfailure, s.exhausted_probing, hword]
      rfl
    · rw [hevents, htried]
      show _ = _ :: _ :: (s.probesEvents tries ++ [])
      rw [List.append_nil]

/-- Nothing at first, and then exactly a thousand requests in each second. -/
def lateThroughput (i : Nat) : List ThroughputReport :=
  [⟨⟨0, 0, if i = 0 then 0 else 1000, 0⟩, none⟩]

/-- Samples that are correlated at first and then sharp. -/
def correlatedOnce (i : Nat) : List LatencyReport :=
  [⟨⟨⟨0, 0, 0, 0⟩, 0, ⟨0, 0, 0⟩, ⟨0, 0, 0⟩, ⟨0, 0, 0⟩, ⟨0, 0, 0⟩⟩,
    some ⟨1, if i = 0 then 0.5 else 0.125, 1⟩⟩]

/-- Two probes and two measurements, the first of them correlated, are four iterations with two
retries, and the sampling rate halves once. -/
theorem fixed_schedule_exact_correlatedOnce :
    exists point : Point,
      (fixedRun (fun _ => 1) .standard 1000 lateThroughput correlatedOnce).result =
          .ok ⟨(Pattern.fixed 1000).text, [point]⟩ ∧
        point.iterations.toNat = 4 ∧ point.retries.toNat = 2 ∧
        point.sampleCount.toNat = 10000 ∧ point.samplingRate = 10.0 := by
  have hsettled :
      IsLeast ((fixedSetting (fun _ => 1) .standard 1000).settled lateThroughput) 2 := by
    refine ⟨⟨by decide, by decide +kernel⟩, ?_⟩
    intro i h
    rcases h with ⟨hpos, hin⟩
    apply Nat.lt_of_le_of_ne hpos
    intro heq
    subst heq
    exact absurd hin (by decide +kernel)
  have haccepted :
      IsLeast ((fixedSetting (fun _ => 1) .standard 1000).accepted correlatedOnce) 2 := by
    refine ⟨⟨by decide, by decide +kernel⟩, ?_⟩
    intro i h
    rcases h with ⟨hpos, haccept⟩
    apply Nat.lt_of_le_of_ne hpos
    intro heq
    subst heq
    exact absurd haccept (by decide +kernel)
  have hfirst : (fixedSetting (fun _ => 1) .standard 1000).windowAfter correlatedOnce 0 =
      .ok (.ofSeconds 50) :=
    Acceptance.measurementWindow_eq_ok (by decide +kernel) (by decide +kernel)
  have hsecond : (fixedSetting (fun _ => 1) .standard 1000).windowAfter correlatedOnce 1 =
      .ok (.ofSeconds 100) :=
    Acceptance.measurementWindow_eq_ok (by decide +kernel) (by decide +kernel)
  have hwindows : forall i,
      (fixedSetting (fun _ => 1) .standard 1000).Opens lateThroughput correlatedOnce 20 i ->
        (fixedSetting (fun _ => 1) .standard 1000).windowAfter correlatedOnce i =
          .ok (if i = 0 then .ofSeconds 50 else .ofSeconds 100) := by
    intro i h
    rcases h with ⟨j, hj, hlt, hrejected⟩
    match i with
    | 0 => exact hfirst
    | 1 => exact hsecond
    | i + 2 => exact absurd haccepted.1.2 (hrejected 1 (by omega))
  rcases fixed_schedule_exact (fun _ => 1) .standard 1000 lateThroughput correlatedOnce
      (fun i => if i = 0 then .ofSeconds 50 else .ofSeconds 100) (Nat.le_refl 1) hwindows with
    ⟨hpoint, -, -⟩
  rcases hpoint 2 2 hsettled haccepted (by decide) with
    ⟨⟨point, hresult, hiterations, hretries, hsamples, hrate⟩, -⟩
  refine ⟨point, hresult, hiterations, hretries, ?_, ?_⟩
  · rw [hsamples]
    decide +kernel
  · rw [hrate]
    decide +kernel

end Pattern
end LoadFleet
