import LoadFleet.Proofs.Requests
import LoadFleet.Proofs.Resolution
import LoadFleet.Proofs.SampleFlow
import LoadFleet.Rehearsal

/-!
# Sampling rates that are sent

A sampling rate is a percentage of the operations of an agent.  Every rate that a run sends is
positive: it may be halved again and again, but long before it comes close to zero a measurement
would take longer than the longest span of time.  That a rate is at most a hundred holds of every
pattern but one, in which the rate of each agent is the common one times the number of agents.
-/

namespace LoadFleet

open Procedure (Asks Event Keeps)
open Binary64

/-!
## Rates at a fixed load
-/

namespace Tuning

/-- The sampling rate after a number of halvings. -/
def Halved (t : Tuning) (k : Nat) : Prop :=
  HasValue t.samplingRate (20 / 2 ^ k)

theorem halved_initial : Halved .initial 0 := by
  unfold Halved
  rw [pow_zero, div_one]
  exact Acceptance.hasValue_initial

theorem Halved.grow {t : Tuning} {k : Nat} (h : t.Halved k) (reason : GrowReason) :
    (t.beginIteration.apply (.grow reason)).Halved k := by
  unfold Halved
  rw [samplingRate_grow]
  exact h

theorem Halved.halve {t : Tuning} {k : Nat} (h : t.Halved k) (hk : k ≤ 1000) :
    (t.beginIteration.apply .halve).Halved (k + 1) := by
  unfold Halved
  rw [samplingRate_halve]
  exact Acceptance.hasValue_halved hk h

end Tuning

namespace Measurement

theorem agentWord_pos {agents : Nat} (h : agents ≠ 0) : 1 ≤ (agentWord agents).toNat := by
  unfold agentWord
  rw [Capped.word32_toNat]
  omega

theorem agentWord_le (agents : Nat) : (agentWord agents).toNat ≤ agents := by
  unfold agentWord
  rw [Capped.word32_toNat]
  omega

namespace FixedSetting

variable {s : FixedSetting} {t : Tuning} {k : Nat}

/-- The rate that is sent to each agent is the common one times the number of agents, rounded. -/
theorem samplingRate_value (ht : t.Halved k) :
    exists q, HasValue (s.samplingRate t) q ∧
      Rounds ((agentWord s.agents).toNat * (20 / 2 ^ k)) q := by
  apply (hasValue_word (agentWord s.agents)).mul ht
  have hword := Acceptance.word_le (agentWord s.agents)
  have hone : (1 : Rat) ≤ 2 ^ k := one_le_pow₀ (by norm_num)
  have hrate : (20 : Rat) / 2 ^ k ≤ 20 := div_le_self (by norm_num) hone
  have hprod : ((agentWord s.agents).toNat : Rat) * (20 / 2 ^ k) ≤ 4294967296 * 20 :=
    mul_le_mul hword hrate (by positivity) (by norm_num)
  exact hprod.trans (by norm_num [bound])

/-- No agent is sent less than the common rate. -/
theorem le_samplingRate (hagents : s.agents ≠ 0) (ht : t.Halved k) {q : Rat}
    (hq : Rounds ((agentWord s.agents).toNat * (20 / 2 ^ k)) q) : 20 / 2 ^ k ≤ q := by
  apply hq.below _ ht.representable
  have hone : (1 : Rat) ≤ (agentWord s.agents).toNat := by exact_mod_cast agentWord_pos hagents
  exact le_mul_of_one_le_left (by positivity) hone

theorem samplingRate_pos (hagents : s.agents ≠ 0) (ht : t.Halved k) : 0.0 < s.samplingRate t := by
  rcases samplingRate_value (s := s) ht with ⟨q, hq, hrounds⟩
  rw [Acceptance.hasValue_zeroPercent.lt_iff hq]
  exact lt_of_lt_of_le (by positivity) (le_samplingRate hagents ht hrounds)

/-- Up to five agents are not sent more than all operations, however often the rate was halved. -/
theorem samplingRate_le (hagents : s.agents ≤ 5) (ht : t.Halved k) : s.samplingRate t ≤ 100.0 := by
  rcases samplingRate_value (s := s) ht with ⟨q, hq, hrounds⟩
  rw [hq.le_iff Acceptance.hasValue_hundredPercent]
  apply hrounds.above 100 (representable_natCast (n := 100) (by decide))
  have hone : (1 : Rat) ≤ 2 ^ k := one_le_pow₀ (by norm_num)
  have hrate : (20 : Rat) / 2 ^ k ≤ 20 := div_le_self (by norm_num) hone
  have hword : ((agentWord s.agents).toNat : Rat) ≤ 5 := by
    exact_mod_cast (agentWord_le s.agents).trans hagents
  calc ((agentWord s.agents).toNat : Rat) * (20 / 2 ^ k) ≤ 5 * 20 :=
        mul_le_mul hword hrate (by positivity) (by norm_num)
    _ = 100 := by norm_num

theorem lt_samplingRate (hagents : 6 ≤ s.agents) (ht : t.Halved 0) : 100.0 < s.samplingRate t := by
  rcases samplingRate_value (s := s) ht with ⟨q, hq, hrounds⟩
  rw [Acceptance.hasValue_hundredPercent.lt_iff hq]
  have hword : (6 : Rat) ≤ (agentWord s.agents).toNat := by
    have hsix : 6 ≤ (agentWord s.agents).toNat := by
      unfold agentWord
      rw [Capped.word32_toNat]
      omega
    exact_mod_cast hsix
  have hlarge : (120 : Rat) ≤ q := by
    apply hrounds.below 120 (representable_natCast (n := 120) (by decide))
    rw [pow_zero, div_one]
    linarith
  linarith

/-- After `130` halvings no window is short enough. -/
theorem windowOf_refused (hagents : s.agents ≠ 0) (ht : t.Halved 130)
    (hsamples : 1 ≤ t.sampleCount.toNat) : exists fault, s.windowOf t = .error fault := by
  rcases samplingRate_value (s := s) ht with ⟨q, hq, hrounds⟩
  apply Acceptance.measurementWindow_refused hsamples hq
  · refine le_trans ?_ (le_samplingRate hagents ht hrounds)
    norm_num
  · have hword := Acceptance.word_le (agentWord s.agents)
    have hrate : q ≤ 2 ^ (-93 : Int) := by
      apply hrounds.above _ (representable_two_pow (by decide))
      norm_num
      linarith
    have hload : (s.load.toNat : Rat) ≤ 4294967296 := Acceptance.word_le s.load
    calc (s.load.toNat : Rat) * q ≤ 4294967296 * 2 ^ (-93 : Int) :=
          mul_le_mul hload hrate hq.nonneg (by norm_num)
      _ ≤ 2 ^ (-58 : Int) := by norm_num

/-- Parameters that a run may come to: there are samples to wait for, and the rate was halved no
more often than some window was still short enough for. -/
structure Reachable (t : Tuning) : Prop where
  unfinished : t.phase ≠ .exit
  samples : 1 ≤ t.sampleCount.toNat
  halved : exists k, k ≤ 130 ∧ t.Halved k

theorem reachable_initial : Reachable .initial :=
  ⟨nofun, by decide, 0, by decide, Tuning.halved_initial⟩

theorem lasting_reachable (hagents : s.agents ≠ 0) : s.Lasting fun _ t => Reachable t := by
  constructor
  case going => exact fun ht => ht.unfinished
  case probe =>
    intro tries t reports ht hphase
    rcases ht with ⟨hunfinished, hsamples, k, hk, hhalved⟩
    unfold probedTuning
    split
    · exact ⟨nofun, hsamples, k, hk, hhalved⟩
    · refine ⟨?_, ?_, k, hk, ?_⟩
      · rw [Tuning.phase_retry]
        exact hunfinished
      · rw [Tuning.sampleCount_retry]
        exact hsamples
      · unfold Tuning.Halved
        rw [Tuning.samplingRate_retry]
        exact hhalved
  case measure =>
    intro tries t window v ht hphase hwindow hv
    rcases ht with ⟨hunfinished, hsamples, k, hk, hhalved⟩
    have hphaseNext : (t.beginIteration.apply v).phase ≠ .exit := by
      rw [Tuning.phase_apply t hv]
      exact hunfinished
    cases v with
    | accept => exact absurd rfl hv
    | grow reason =>
        refine ⟨hphaseNext, ?_, k, hk, hhalved.grow reason⟩
        rw [Tuning.sampleCount_grow, Capped.add32, Capped.word32_toNat]
        omega
    | halve =>
        refine ⟨hphaseNext, ?_, k + 1, ?_, hhalved.halve (by omega)⟩
        · rw [Tuning.sampleCount_halve]
          exact hsamples
        · -- There was a window, so this was not the last halving that is possible.
          apply Nat.lt_of_le_of_ne hk
          intro heq
          subst heq
          rcases windowOf_refused (s := s) (t := t.beginIteration) hagents hhalved hsamples with
            ⟨fault, hfault⟩
          rw [hwindow] at hfault
          cases hfault

end FixedSetting

/-!
## What measurements send
-/

def Sends (kind : Float -> Prop) : List Event -> Event -> Prop :=
  fun _ event => forall group sampleCount samplingRate,
    event = .asked (.startMeasure group sampleCount samplingRate) -> kind samplingRate

def StartsAt (kind : Float -> Prop) (request : Request) : Prop :=
  forall group sampleCount samplingRate,
    request = .startMeasure group sampleCount samplingRate -> kind samplingRate

variable {kind : Float -> Prop} {past : List Event}

theorem startsAt_startMeasure {group : Group} {sampleCount : UInt32} {samplingRate : Float}
    (h : kind samplingRate) : StartsAt kind (.startMeasure group sampleCount samplingRate) := by
  intro group' sampleCount' samplingRate' heq
  cases heq
  exact h

theorem sends_of_asks {post : α -> List Event -> Prop} {p : Procedure (Except Failure α)}
    (h : Keeps (Asks (StartsAt kind)) post p past) : Keeps (Sends kind) post p past := by
  apply h.weaken
  intro past event hevent group sampleCount samplingRate heq
  exact hevent _ heq group sampleCount samplingRate rfl

end Measurement

/-!
## What patterns send
-/

namespace Pattern

open Measurement

variable {count : Group -> Nat} {settings : MeasurementSettings}

/-- A percentage of the operations of an agent. -/
structure Percentage (r : Float) : Prop where
  pos : 0.0 < r
  le : r ≤ 100.0

theorem percentage_of_value {r : Float} {q : Rat} (hr : HasValue r q) (hpos : 0 < q)
    (hle : q ≤ 100) : Percentage r :=
  { pos := (Acceptance.hasValue_zeroPercent.lt_iff hr).mpr hpos
    le := (hr.le_iff Acceptance.hasValue_hundredPercent).mpr hle }

theorem percentage_asymmetric (load : UInt32) {latencyRate : UInt32} (h : 0 < latencyRate.toNat) :
    Percentage (Acceptance.latencySamplingRate load latencyRate Tuning.initialSamplingRate) := by
  rcases Acceptance.latencySamplingRate_value load h with ⟨q, hq, hleast, hmost⟩
  exact percentage_of_value hq (by linarith) hmost

theorem value_sweep {r : Float} (h : r ∈ sweepRates) :
    exists q, HasValue r q ∧ 100 * 2 ^ (-14 : Int) ≤ q ∧ q ≤ 100 := by
  have hparts : forall r, r ∈ sweepRates ->
      form r ∈ [.finite false 5764607523034235 (-59), .finite false 7205759403792794 (-57),
        .finite false 7205759403792794 (-56), .finite false 4503599627370496 (-53),
        .finite false 4503599627370496 (-52)] := by
    decide +kernel
  have hform := hparts r h
  simp only [List.mem_cons, List.not_mem_nil, or_false] at hform
  rcases hform with hform | hform | hform | hform | hform
  all_goals exact ⟨_, ⟨_, _, hform, rfl⟩, by norm_num, by norm_num⟩

theorem percentage_sweep {r : Float} (h : r ∈ sweepRates) : Percentage r := by
  rcases value_sweep h with ⟨q, hq, hleast, hmost⟩
  exact percentage_of_value hq (lt_of_lt_of_le (by positivity) hleast) hmost

/-!
## Runs
-/

section

variable (answer : (request : Request) -> σ -> Except Failure request.Answer × σ)

theorem mem_events_bind {p : Procedure (Except Failure α)}
    {f : Except Failure α -> Procedure (Except Failure β)} (hf : Procedure.Passes f) {fleet : σ}
    {event : Event} (h : event ∈ (p.run answer fleet).events) :
    event ∈ ((p.bind f).run answer fleet).events := by
  rw [Procedure.run_bind hf]
  unfold Procedure.Run.andThen
  split
  · exact List.mem_append_left _ h
  · exact h

theorem mem_events_ask (request : Request)
    (next : Except Failure request.Answer -> Procedure (Except Failure α)) (fleet : σ) :
    .asked request ∈ ((Procedure.ask request next).run answer fleet).events :=
  List.mem_cons_self

/-- The first try of a fixed pattern tells the agents to measure at the initial rate. -/
theorem startMeasure_mem_fixed {rate : UInt32} {fleet after : σ}
    (hagents : count .symmetric ≠ 0) (htries : 0 < settings.maxTries.toNat)
    (hload : answer (.startLoad .symmetric (share rate (count .symmetric))) fleet =
      (.ok (), after)) :
    .asked (.startMeasure .symmetric Tuning.initialSampleCount
        ((FixedSetting.mk (count .symmetric) rate settings.widestMicros).samplingRate .initial)) ∈
      (((Pattern.fixed rate).procedure count settings).run answer fleet).events := by
  have hensured : (Pattern.fixed rate).ensureAgents count = .ok () := if_neg hagents
  rcases Nat.exists_eq_succ_of_ne_zero (Nat.ne_of_gt htries) with ⟨tries, hsucc⟩
  rw [run_of_ensured hensured, points, run_single]
  simp only [Procedure.Run.map, Measurement.fixed]
  show _ ∈ (Procedure.run answer (.ask (.startLoad .symmetric (share rate (count .symmetric)))
    _) fleet).events
  simp only [Procedure.run, hload]
  apply List.mem_cons_of_mem
  apply List.mem_cons_of_mem
  rw [hsucc]
  refine mem_events_bind answer (p := FixedSetting.attempt _ .initial) ?_ ?_
  · exact fun _ => rfl
  refine mem_events_bind answer (p := FixedSetting.probe _ Tuning.initial.beginIteration) ?_ ?_
  · exact fun _ => rfl
  exact mem_events_ask answer _ _ after

end

/-- Which rates a pattern may send: up to a hundred, and greater ones where each of six agents or
more is to keep its part of a common rate. -/
def Admitted (p : Pattern) (agents : Nat) (r : Float) : Prop :=
  0.0 < r ∧ (r ≤ 100.0 ∨ 6 ≤ agents ∧ exists rate, p = .fixed rate)

theorem Percentage.admitted {p : Pattern} {agents : Nat} {r : Float} (h : Percentage r) :
    p.Admitted agents r :=
  ⟨h.pos, .inl h.le⟩

theorem admitted_fixed {rate : UInt32} {s : FixedSetting} {t : Tuning} (hagents : s.agents ≠ 0)
    (ht : FixedSetting.Reachable t) :
    (Pattern.fixed rate).Admitted s.agents (s.samplingRate t) := by
  rcases ht.halved with ⟨k, -, hhalved⟩
  refine ⟨FixedSetting.samplingRate_pos hagents hhalved, ?_⟩
  rcases Nat.lt_or_ge 5 s.agents with hmany | hfew
  · exact .inr ⟨hmany, rate, rfl⟩
  · exact .inl (FixedSetting.samplingRate_le hfew hhalved)

theorem admits_startsAt {p : Pattern} (hagents : p.ensureAgents count = .ok ())
    (hlatency : 0 < settings.latencyRate.toNat) :
    p.Admits (StartsAt (p.Admitted (count .symmetric)))
      (fun _ t => FixedSetting.Reachable t) count settings where
  share _ _ _ _ _ := nofun
  latencyLoad _ := nofun
  initial _ := startsAt_startMeasure
    (percentage_of_value Acceptance.hasValue_initial (by norm_num) (by norm_num)).admitted
  latency _ load := startsAt_startMeasure (percentage_asymmetric load hlatency).admitted
  sweep _ _ hmem := startsAt_startMeasure (percentage_sweep hmem).admitted
  fixed := by
    intro rate tries t heq ht
    subst heq
    have hsome := symmetric_of_ensured_fixed hagents
    exact startsAt_startMeasure
      (admitted_fixed (s := ⟨count .symmetric, rate, settings.widestMicros⟩) hsome ht)
  throughputReport _ := nofun
  latencyReport _ := nofun

theorem sends_admitted {p : Pattern} (hagents : p.ensureAgents count = .ok ())
    (hlatency : 0 < settings.latencyRate.toNat) :
    Keeps (Sends (p.Admitted (count .symmetric))) (fun _ _ => True) (p.procedure count settings)
      [] := by
  apply sends_of_asks
  apply asks_procedure (admits_startsAt hagents hlatency) _ FixedSetting.reachable_initial hagents
  intro rate heq
  subst heq
  exact FixedSetting.lasting_reachable (symmetric_of_ensured_fixed hagents)

/-- Every rate that is sent is positive, and it is at most a hundred unless a fixed pattern drives
six agents or more.  These are sent a greater one as soon as they have taken their load. -/
theorem sampling_rates_bounded
    (answer : (request : Request) -> σ -> Except Failure request.Answer × σ) (fleet : σ)
    (a : Arguments) (s : Settings) :
    let agents := s.roster.count .symmetric
    let run := (s.pattern.procedure s.roster.count s.measurement).run answer fleet
    Settings.resolve a = .ok s ->
      (forall group sampleCount r, .asked (.startMeasure group sampleCount r) ∈ run.events ->
        0.0 < r ∧ (r ≤ 100.0 ∨ 6 ≤ agents ∧ exists rate, s.pattern = .fixed rate)) ∧
      forall rate after, s.pattern = .fixed rate -> 6 ≤ agents ->
        answer (.startLoad .symmetric (share rate agents)) fleet = (.ok (), after) ->
          exists sampleCount r,
            .asked (.startMeasure .symmetric sampleCount r) ∈ run.events ∧ 100.0 < r := by
  intro agents run hresolve
  rcases Settings.resolve_ok hresolve with ⟨hagents, hlatency, htries⟩
  constructor
  · intro group sampleCount r hmem
    have hkeeps := sends_admitted hagents hlatency
    rcases List.append_of_mem hmem with ⟨before, later, hsplit⟩
    exact hkeeps.orderly answer fleet before _ later hsplit group sampleCount r rfl
  · intro rate after hfixed hmany hload
    let setting : FixedSetting := ⟨agents, rate, s.measurement.widestMicros⟩
    have hsome : agents ≠ 0 := by omega
    have hmem : .asked (.startMeasure .symmetric Tuning.initialSampleCount
        (setting.samplingRate .initial)) ∈ run.events := by
      show _ ∈ ((s.pattern.procedure s.roster.count s.measurement).run answer fleet).events
      rw [hfixed]
      exact startMeasure_mem_fixed answer hsome htries hload
    have hmost : 100.0 < setting.samplingRate .initial :=
      FixedSetting.lt_samplingRate hmany Tuning.halved_initial
    exact ⟨_, _, hmem, hmost⟩

/-- A fixed load on symmetric agents, with standard values for everything else. -/
def fixedOn (agents : List String) : Arguments :=
  { Arguments.standard with symmetricAgents := agents, loadPattern := "fixed:1000" }

def fixedSettings (agents : List String) : Settings where
  server := Arguments.standard.server
  roster := ⟨[], [], agents⟩
  agentPort := 5001
  loadBinary := none
  latencyBinary := none
  pattern := .fixed 1000
  nicTimestamps := false
  measurement := .standard
  outputFormat := .text

/-- Agents that take every command and have nothing to report. -/
def taciturn : Script :=
  ⟨fun _ => [], fun _ => [], none⟩

theorem sampling_rates_bounded_oneAgent :
    let s := fixedSettings ["a"]
    Settings.resolve (fixedOn ["a"]) = .ok s ∧
      forall group sampleCount r, .asked (.startMeasure group sampleCount r) ∈
          ((s.pattern.procedure s.roster.count s.measurement).run taciturn.answer .start).events ->
        0.0 < r ∧ r ≤ 100.0 := by
  intro s
  have hresolve : Settings.resolve (fixedOn ["a"]) = .ok s := by decide +kernel
  refine ⟨hresolve, ?_⟩
  intro group sampleCount r hmem
  rcases sampling_rates_bounded taciturn.answer .start (fixedOn ["a"]) s hresolve with ⟨hrates, -⟩
  rcases hrates group sampleCount r hmem with ⟨hpos, hle | ⟨hmany, -⟩⟩
  · exact ⟨hpos, hle⟩
  · exact absurd hmany (by decide)

/-- Six agents are told to keep six fifths of their operations. -/
theorem samplingRate_sixAgents :
    let agents := ["a", "b", "c", "d", "e", "f"]
    let s := fixedSettings agents
    Settings.resolve (fixedOn agents) = .ok s ∧
      .asked (.startMeasure .symmetric 10000 120.0) ∈
        ((s.pattern.procedure s.roster.count s.measurement).run taciturn.answer .start).events ∧
      ¬ (120.0 : Float) ≤ 100.0 := by
  refine ⟨?_, ?_, ?_⟩
  · decide +kernel
  · decide +kernel
  · decide +kernel

end Pattern
end LoadFleet
