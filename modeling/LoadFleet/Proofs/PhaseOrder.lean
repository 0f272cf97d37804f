import LoadFleet.Proofs.Requests

/-!
# Load, then measure, then report

Agents measure only under a load that they have been left to for a while, they report only what
they have just been told to measure, and they get no other load before they have reported.  This is
a rule for the steps of a procedure, and every pattern keeps it.
-/

namespace LoadFleet

def Role.group : Role -> Group
  | .throughput => .throughput
  | .latency => .latency
  | .symmetric => .symmetric

theorem Group.contains_symmetric {role : Role} (h : Group.symmetric.contains role = true) :
    role = .symmetric := by
  cases role with
  | symmetric => rfl
  | throughput => cases h
  | latency => cases h

theorem Group.load_contains {group : Group} {role : Role} (hrole : group.contains role = true)
    (h : group ≠ .symmetric) : Group.load.contains role = true := by
  cases role with
  | throughput => rfl
  | latency => rfl
  | symmetric =>
      cases group with
      | symmetric => exact absurd rfl h
      | throughput => cases hrole
      | latency => cases hrole
      | load => cases hrole

namespace Procedure

def Event.report? : Event -> Option Group
  | .asked (.reportThroughput group) => some group
  | .asked (.reportLatency group) => some group
  | _ => none

/-!
## What the past says about a role or a group
-/

/-- A load has been started on the agents of a role. -/
def Loaded (role : Role) (past : List Event) : Prop :=
  exists group load, .asked (.startLoad group load) ∈ past ∧ group.contains role = true

/-- A pause has gone by since a load was started on the agents of a role. -/
def WarmedUp (role : Role) (past : List Event) : Prop :=
  exists before span after, past = before ++ .paused span :: after ∧ Loaded role before

/-- The last measurement was started on a group; since then one pause has gone by, and nothing but
reports was asked for after it. -/
def Measured (group : Group) (past : List Event) : Prop :=
  exists before sampleCount samplingRate span reports,
    past = before ++
        .asked (.startMeasure group sampleCount samplingRate) :: .paused span :: reports ∧
      forall event, event ∈ reports -> event.report?.isSome = true

/-- A measurement was started on the agents of a role, and they have not been asked for a report
since. -/
def Owes (role : Role) (past : List Event) : Prop :=
  exists before group sampleCount samplingRate after,
    past = before ++ .asked (.startMeasure group sampleCount samplingRate) :: after ∧
      group.contains role = true ∧
      forall event, event ∈ after -> forall asked, event.report? = some asked ->
        asked.contains role = false

/-- What may come after a past, on a fleet with these counts of agents. -/
def InTurn (count : Group -> Nat) (past : List Event) : Event -> Prop
  | .paused _ => True
  | .asked (.startLoad _ _) => forall role, ¬ Owes role past
  | .asked (.startMeasure group _ _) =>
      forall role, group.contains role = true -> 0 < count role.group -> WarmedUp role past
  | .asked (.reportThroughput group) =>
      exists whole, Measured whole past ∧
        forall role, group.contains role = true -> whole.contains role = true
  | .asked (.reportLatency group) =>
      exists whole, Measured whole past ∧
        forall role, group.contains role = true -> whole.contains role = true

/-!
## Warming up
-/

theorem loaded_startLoad {role : Role} {group : Group} (h : group.contains role = true)
    (past : List Event) (load : UInt32) :
    Loaded role (past ++ [.asked (.startLoad group load)]) :=
  ⟨group, load, List.mem_append_right past List.mem_cons_self, h⟩

theorem Loaded.append {role : Role} {past : List Event} (h : Loaded role past)
    (more : List Event) : Loaded role (past ++ more) := by
  rcases h with ⟨group, load, hmem, hrole⟩
  exact ⟨group, load, List.mem_append_left more hmem, hrole⟩

theorem Loaded.pause {role : Role} {past : List Event} (h : Loaded role past) (span : Duration) :
    WarmedUp role (past ++ [.paused span]) :=
  ⟨past, span, [], rfl, h⟩

theorem warmedUp_pause {role : Role} {group : Group} (h : group.contains role = true)
    (past : List Event) (load : UInt32) (span : Duration) :
    WarmedUp role (past ++ [.asked (.startLoad group load)] ++ [.paused span]) :=
  (loaded_startLoad h past load).pause span

theorem WarmedUp.append {role : Role} {past : List Event} (h : WarmedUp role past)
    (more : List Event) : WarmedUp role (past ++ more) := by
  rcases h with ⟨before, span, after, rfl, hloaded⟩
  exact ⟨before, span, after ++ more, List.append_assoc _ _ _, hloaded⟩

theorem WarmedUp.inTurn {past : List Event} (h : WarmedUp .symmetric past) (count : Group -> Nat)
    (sampleCount : UInt32) (samplingRate : Float) :
    InTurn count past (.asked (.startMeasure .symmetric sampleCount samplingRate)) := by
  intro role hrole _
  rw [Group.contains_symmetric hrole]
  exact h

/-!
## Measuring
-/

theorem measured_pause (past : List Event) (group : Group) (sampleCount : UInt32)
    (samplingRate : Float) (span : Duration) :
    Measured group
      (past ++ [.asked (.startMeasure group sampleCount samplingRate)] ++ [.paused span]) := by
  refine ⟨past, sampleCount, samplingRate, span, [], List.append_assoc _ _ _, ?_⟩
  intro event hmem
  cases hmem

theorem Measured.report {group : Group} {past : List Event} (h : Measured group past)
    {event : Event} (hreport : event.report?.isSome = true) : Measured group (past ++ [event]) := by
  rcases h with ⟨before, sampleCount, samplingRate, span, reports, rfl, hreports⟩
  refine ⟨before, sampleCount, samplingRate, span, reports ++ [event], List.append_assoc _ _ _, ?_⟩
  intro other hmem
  rcases List.mem_append.mp hmem with hmem | hmem
  · exact hreports other hmem
  · rw [List.mem_singleton.mp hmem]
    exact hreport

/-!
## Reporting
-/

theorem owes_concat {role : Role} {past : List Event} {event : Event}
    (h : Owes role (past ++ [event])) :
    (exists group sampleCount samplingRate,
        event = .asked (.startMeasure group sampleCount samplingRate) ∧
          group.contains role = true) ∨
      (Owes role past ∧
        forall asked, event.report? = some asked -> asked.contains role = false) := by
  rcases h with ⟨before, group, sampleCount, samplingRate, after, hsplit, hrole, hunasked⟩
  rcases List.eq_nil_or_concat after with rfl | ⟨rest, last, rfl⟩
  · rcases List.append_inj' hsplit rfl with ⟨-, hevent⟩
    exact .inl ⟨group, sampleCount, samplingRate, (List.cons.inj hevent).left, hrole⟩
  · rw [List.concat_eq_append, ← List.cons_append, ← List.append_assoc] at hsplit
    rcases List.append_inj' hsplit rfl with ⟨rfl, hevent⟩
    rcases List.cons.inj hevent with ⟨rfl, -⟩
    refine .inr ⟨⟨before, group, sampleCount, samplingRate, rest, rfl, hrole, ?_⟩, ?_⟩
    · intro other hmem
      exact hunasked other (by simp [hmem])
    · exact hunasked event (by simp)

/-- Only the start of a measurement makes a role owe a report, and a report that is asked of it
settles it. -/
theorem Owes.before {role : Role} {past : List Event} {event : Event}
    (h : Owes role (past ++ [event]))
    (hother : forall group sampleCount samplingRate,
      event ≠ .asked (.startMeasure group sampleCount samplingRate)) :
    Owes role past ∧ forall asked, event.report? = some asked -> asked.contains role = false := by
  rcases owes_concat h with ⟨group, sampleCount, samplingRate, hevent, -⟩ | hbefore
  · exact absurd hevent (hother group sampleCount samplingRate)
  · exact hbefore

theorem Owes.before_startMeasure {role : Role} {past : List Event} {group : Group}
    {sampleCount : UInt32} {samplingRate : Float}
    (h : Owes role (past ++ [.asked (.startMeasure group sampleCount samplingRate)])) :
    group.contains role = true ∨ Owes role past := by
  rcases owes_concat h with ⟨group', sampleCount', samplingRate', hevent, hrole⟩ | ⟨hbefore, -⟩
  · cases hevent
    exact .inl hrole
  · exact .inr hbefore

theorem not_owes_nil (role : Role) : ¬ Owes role [] := by
  intro h
  rcases h with ⟨before, group, sampleCount, samplingRate, after, hsplit, -⟩
  cases before <;> cases hsplit

end Procedure

namespace Measurement

open Procedure

variable {count : Group -> Nat} {past : List Event}

/-!
## Single measurements
-/

/-- A measurement that starts with no report owed leaves none owed. -/
theorem keeps_symmetric (agents : Nat) (rate : UInt32) (tuning : Tuning)
    (hsettled : forall role, ¬ Owes role past) :
    Keeps (InTurn count) (fun _ now => forall role, ¬ Owes role now)
      (symmetric agents rate tuning) past := by
  refine .asked hsettled (fun _ => rfl) fun _ => ?_
  refine .wait trivial ?_
  refine .asked ((warmedUp_pause rfl _ _ _).inTurn _ _ _) (fun _ => rfl) fun _ => ?_
  refine (keeps_window _ _ _).bind (fun _ => rfl) ?_
  intro waited _ hgiven
  rcases hgiven with ⟨rfl, -⟩
  refine .wait trivial ?_
  refine .asked ⟨.symmetric, measured_pause _ _ _ _ _, fun _ h => h⟩ (fun _ => rfl)
    fun reports => ?_
  refine .wait trivial ?_
  apply Keeps.done
  -- Backwards from the end: the report settles what the start of the measurement made owed.
  intro role howes
  rcases (howes.before nofun).left.before nofun with ⟨howes, hasked⟩
  rcases (howes.before nofun).left.before_startMeasure with hrole | howes
  · rw [hasked .symmetric rfl] at hrole
    cases hrole
  · exact hsettled role ((howes.before nofun).left.before nofun).left

theorem keeps_startBackground (agents : Nat) (loadRate : UInt32)
    (hsettled : forall role, ¬ Owes role past) :
    Keeps (InTurn count)
      (fun _ now => (forall role, ¬ Owes role now) ∧ (0 < agents -> Loaded .throughput now))
      (startBackground agents loadRate) past := by
  unfold startBackground
  split
  case isTrue hnone =>
      exact .done ⟨hsettled, fun hsome => absurd hnone (Nat.ne_of_gt hsome)⟩
  case isFalse =>
      refine .asked hsettled (fun _ => rfl) fun _ => .done ⟨?_, fun _ => loaded_startLoad rfl _ _⟩
      intro role howes
      exact hsettled role (howes.before nofun).left

/-- The throughput agents are loaded only where there are any, and only then have to be. -/
theorem keeps_asymmetric (loadRate latencyRate : UInt32) (tuning : Tuning)
    (hsettled : forall role, ¬ Owes role past) :
    Keeps (InTurn count) (fun _ now => forall role, ¬ Owes role now)
      (asymmetric (count .throughput) loadRate latencyRate tuning) past := by
  refine (keeps_startBackground _ _ hsettled).bind (fun _ => rfl) ?_
  intro _ background h
  rcases h with ⟨hsettled, hbackground⟩
  refine .asked hsettled (fun _ => rfl) fun _ => ?_
  refine .wait trivial ?_
  refine .asked ?warm (fun _ => rfl) fun _ => ?_
  case warm =>
    intro role hrole hagents
    cases role with
    | throughput => exact ((hbackground hagents).append _).pause _
    | latency => exact warmedUp_pause rfl _ _ _
    | symmetric => cases hrole
  refine (keeps_window _ _ _).bind (fun _ => rfl) ?_
  intro waited _ h
  rcases h with ⟨rfl, -⟩
  refine .wait trivial ?_
  have hmeasured := measured_pause
    (background ++ [.asked (.startLoad .latency latencyRate)] ++ [.paused asymmetricWarmUp]) .load
    tuning.sampleCount
    (Acceptance.latencySamplingRate loadRate latencyRate tuning.samplingRate) waited
  refine .asked ⟨.load, hmeasured, fun _ hrole => Group.load_contains hrole nofun⟩ (fun _ => rfl)
    fun loadReports => ?_
  refine .asked ⟨.load, hmeasured.report rfl, fun _ hrole => Group.load_contains hrole nofun⟩
    (fun _ => rfl) fun latencyReports => ?_
  apply Keeps.done
  intro role howes
  rcases howes.before nofun with ⟨howes, hlatency⟩
  rcases howes.before nofun with ⟨howes, hthroughput⟩
  rcases (howes.before nofun).left.before_startMeasure with hrole | howes
  · cases role with
    | throughput => cases hthroughput .throughput rfl
    | latency => cases hlatency .latency rfl
    | symmetric => cases hrole
  · exact hsettled role ((howes.before nofun).left.before nofun).left

/-!
## Tries at a fixed rate
-/

namespace FixedSetting

variable (s : FixedSetting)

theorem keeps_probe (t : Tuning) (hwarm : WarmedUp .symmetric past) :
    Keeps (InTurn count) (fun _ now => WarmedUp .symmetric now) (s.probe t) past := by
  refine .asked (hwarm.inTurn _ _ _) (fun _ => rfl) fun _ => ?_
  refine .wait trivial ?_
  refine .asked ⟨.symmetric, measured_pause _ _ _ _ _, fun _ h => h⟩ (fun _ => rfl)
    fun reports => ?_
  exact .done (((hwarm.append _).append _).append _)

theorem keeps_measure (t : Tuning) (hwarm : WarmedUp .symmetric past) :
    Keeps (InTurn count) (fun _ now => WarmedUp .symmetric now) (s.measure t) past := by
  refine .asked (hwarm.inTurn _ _ _) (fun _ => rfl) fun _ => ?_
  refine (keeps_window _ _ _).bind (fun _ => rfl) ?_
  intro window _ hgiven
  rcases hgiven with ⟨rfl, -⟩
  refine .wait trivial ?_
  refine .asked ⟨.symmetric, measured_pause _ _ _ _ _, fun _ h => h⟩ (fun _ => rfl)
    fun reports => ?_
  exact .done (((hwarm.append _).append _).append _)

theorem keeps_attempt (t : Tuning) (hwarm : WarmedUp .symmetric past) :
    Keeps (InTurn count) (fun _ now => WarmedUp .symmetric now) (s.attempt t) past := by
  simp only [attempt]
  split
  · exact (s.keeps_probe _ hwarm).bind (fun _ => rfl) fun _ _ hnow => .done hnow
  · exact s.keeps_measure _ hwarm
  · exact .done hwarm

/-- No try starts a load, so the agents stay warm from one try to the next. -/
theorem keeps_attempts (tries : Nat) (t : Tuning) (hwarm : WarmedUp .symmetric past) :
    Keeps (InTurn count) (fun _ _ => True) (s.attempts tries t) past := by
  induction tries generalizing t past with
  | zero => exact .fail _ _
  | succ tries ih =>
      refine (s.keeps_attempt t hwarm).bind (fun _ => rfl) ?_
      intro judged now hnow
      rcases judged with ⟨next, point | point⟩
      · exact ih next hnow
      · exact .done trivial

end FixedSetting

theorem keeps_fixed (agents : Nat) (rate : UInt32) (widestMicros : UInt64) (maxTries : UInt32)
    (tuning : Tuning) (hsettled : forall role, ¬ Owes role past) :
    Keeps (InTurn count) (fun _ _ => True) (fixed agents rate widestMicros maxTries tuning)
      past := by
  refine .asked hsettled (fun _ => rfl) fun _ => ?_
  refine .wait trivial ?_
  exact FixedSetting.keeps_attempts _ _ _ (warmedUp_pause rfl _ _ _)

end Measurement

/-!
## Load patterns
-/

namespace Pattern

open Procedure Measurement

variable (count : Group -> Nat) (settings : MeasurementSettings)

theorem keeps_points (p : Pattern) :
    Keeps (InTurn count) (fun _ _ => True) (p.points count settings) [] := by
  cases p with
  | fixed rate =>
      exact (keeps_fixed _ _ _ _ _ not_owes_nil).bind (fun _ => rfl) fun _ _ _ => .done trivial
  | step start stop stride =>
      have hsweep : Keeps (InTurn count) (fun _ now => forall role, ¬ Owes role now)
          ((Pattern.step start stop stride).points count settings) [] :=
        Keeps.each (fun load _ => keeps_asymmetric load _ _) _ not_owes_nil
      exact hsweep.mono fun _ _ _ => trivial
  | test rate samples =>
      by_cases hsymmetric : 0 < count .symmetric
      · simp only [points, if_pos hsymmetric]
        exact (keeps_symmetric _ _ _ not_owes_nil).bind (fun _ => rfl) fun _ _ _ => .done trivial
      · simp only [points, if_neg hsymmetric]
        exact (keeps_asymmetric _ _ _ not_owes_nil).bind (fun _ => rfl) fun _ _ _ => .done trivial
  | corr rate samples =>
      have hsweep : Keeps (InTurn count) (fun _ now => forall role, ¬ Owes role now)
          ((Pattern.corr rate samples).points count settings) [] :=
        Keeps.each (fun samplingRate _ => keeps_symmetric _ _ _) _ not_owes_nil
      exact hsweep.mono fun _ _ _ => trivial

/-- Over any fleet, whatever it answers and wherever it fails, a run of a pattern asks for nothing
out of turn; where agents are missing it asks for nothing at all. -/
theorem load_measure_report (p : Pattern)
    (answer : (request : Request) -> σ -> Except Failure request.Answer × σ) (fleet : σ) :
    Orderly (InTurn count) [] ((p.procedure count settings).run answer fleet).events ∧
      forall fault, p.ensureAgents count = .error fault ->
        (p.procedure count settings).run answer fleet = ⟨[], .error (.config fault), fleet⟩ := by
  constructor
  · have hkeeps : Keeps (InTurn count) (fun _ _ => True) (p.procedure count settings) [] := by
      unfold procedure
      cases p.ensureAgents count with
      | error fault => exact .fail _ _
      | ok _ =>
          exact (p.keeps_points count settings).bind (fun _ => rfl) fun _ _ _ => .done trivial
    exact hkeeps.orderly answer fleet
  · intro fault hfault
    unfold procedure
    rw [hfault]
    rfl

end Pattern
end LoadFleet
