import LoadFleet.Proofs.LinkFailures
import LoadFleet.Proofs.Refusals
import LoadFleet.Proofs.Resolution

/-!
# Fleets that settings describe

Where a fleet has one link for each agent of a roster, it has as many links in each group as the
roster lists agents.  Settings that were resolved can therefore be run on it: no agents are missing,
and a load is only ever shared between agents that are there.
-/

namespace LoadFleet

open Procedure (Asks Event Keeps)

/-!
## Links of a roster
-/

theorem Roster.count_eq_length (r : Roster) (group : Group) :
    r.count group = (r.entries.filter fun entry => group.contains entry.2).length := by
  cases group <;>
    simp [count, entries, Group.contains, List.filter_append, List.filter_map, Function.comp_def]

namespace Fleet

theorem count_eq_length (fleet : Fleet κ) (group : Group) :
    fleet.count group =
      ((fleet.map Link.entry).filter fun entry => group.contains entry.2).length := by
  rw [List.filter_map, List.length_map]
  rfl

theorem count_of_entries {fleet : Fleet κ} {r : Roster} (h : fleet.map Link.entry = r.entries)
    (group : Group) : fleet.count group = r.count group := by
  rw [Roster.count_eq_length, count_eq_length, h]

/-- Connecting to the agents of a roster makes such a fleet, if all can be reached. -/
theorem connect_entries (dial : String -> UInt16 -> StateM W (Except DialFault κ)) (port : UInt16)
    (agents : List (String × Role)) :
    Always (fun connected => connected.1 = .ok () -> connected.2.map Link.entry = agents)
      (connect dial port agents) := by
  induction agents with
  | nil => exact always_pure fun _ => rfl
  | cons agent rest ih =>
      refine (always_true (dial agent.1 port)).bind ?_
      intro reached _
      rcases reached with fault | connection
      · exact always_pure nofun
      · refine ih.bind ?_
        intro outcome hlinks
        rcases outcome with ⟨result, links⟩
        exact always_pure fun hresult => congrArg (agent :: ·) (hlinks hresult)

end Fleet

/-!
## Loads of agents
-/

namespace Pattern

open Measurement

/-- Agents are there, and they have either the rate of latency agents or their share of a load. -/
def Apportioned (count : Group -> Nat) (latencyRate : UInt32) (loads : List UInt32) (group : Group)
    (load : UInt32) : Prop :=
  0 < count group ∧
    (group = .latency ∧ load = latencyRate ∨
      group ≠ .latency ∧ exists total, total ∈ loads ∧
        load.toNat = total.toNat / min (count group) 4294967295)

variable {count : Group -> Nat} {settings : MeasurementSettings} {latencyRate : UInt32}
  {loads : List UInt32}

theorem apportioned_share {group : Group} {total : UInt32} (hagents : count group ≠ 0)
    (hgroup : group ≠ .latency) (htotal : total ∈ loads) :
    Apportioned count latencyRate loads group (share total (count group)) := by
  refine ⟨Nat.pos_of_ne_zero hagents, .inr ⟨hgroup, total, htotal, ?_⟩⟩
  unfold share agentWord
  rw [UInt32.toNat_div, Capped.word32_toNat]

theorem apportioned_latency (hagents : count .latency ≠ 0) :
    Apportioned count latencyRate loads .latency latencyRate :=
  ⟨Nat.pos_of_ne_zero hagents, .inl ⟨rfl, rfl⟩⟩

/-- A load that a request starts is apportioned. -/
def Apportions (count : Group -> Nat) (latencyRate : UInt32) (loads : List UInt32)
    (request : Request) : Prop :=
  forall group load, request = .startLoad group load ->
    Apportioned count latencyRate loads group load

theorem apportions_startLoad {group : Group} {load : UInt32}
    (h : Apportioned count latencyRate loads group load) :
    Apportions count latencyRate loads (.startLoad group load) := by
  intro group' load' heq
  cases heq
  exact h

theorem admits_apportions (invariant : Nat -> Tuning -> Prop) (p : Pattern) :
    p.Admits (Apportions count settings.latencyRate p.offeredLoads) invariant count settings where
  share _ _ hgroup hagents htotal := apportions_startLoad (apportioned_share hagents hgroup htotal)
  latencyLoad hagents := apportions_startLoad (apportioned_latency hagents)
  initial _ := nofun
  latency _ _ := nofun
  sweep _ _ _ := nofun
  fixed _ _ _ _ _ := nofun
  throughputReport _ := nofun
  latencyReport _ := nofun

theorem asks_apportioned {p : Pattern} (hagents : p.ensureAgents count = .ok ()) :
    Keeps (Asks (Apportions count settings.latencyRate p.offeredLoads)) (fun _ _ => True)
      (p.procedure count settings) [] := by
  apply asks_procedure (admits_apportions (fun _ => FixedSetting.Reachable) p) _
    FixedSetting.reachable_initial hagents
  intro rate heq
  subst heq
  exact FixedSetting.lasting_reachable (symmetric_of_ensured_fixed hagents)

/-!
## Runs
-/

theorem noSampleFlow_of_refusal {agents : Nat} {maxTries : UInt32} {p : Pattern}
    {events : List Event} {fault : ConfigFault} (h : Refusal agents maxTries p events fault) :
    exists load samplingRate, fault = .noSampleFlow load samplingRate := by
  cases h with
  | test => exact ⟨_, _, rfl⟩
  | corr => exact ⟨_, _, rfl⟩
  | fixed => exact ⟨_, _, rfl⟩

/-- With the agents a pattern needs, its run has no failure of the configuration but a window that
is refused. -/
theorem noSampleFlow_of_run {p : Pattern} {fault : ConfigFault}
    (hagents : p.ensureAgents count = .ok ()) (hlatency : 0 < settings.latencyRate.toNat)
    {medium : Medium (StateM W) κ} (hjoin : LawfulJoin medium.join) (state : Fleet κ × W)
    (h : ((p.procedure count settings).run (Fleet.answerIn medium) state).result =
      .error (.config fault)) :
    exists load samplingRate, fault = .noSampleFlow load samplingRate := by
  rcases Procedure.run_course_error (Fleet.answerIn medium) (p.strict_procedure _ _) h
    (fun request before after => Fleet.answerIn_ne_config hjoin request before after fault) with
    ⟨hcourse, -⟩
  rcases course_procedure hcourse with
    ⟨points, -, -, hok⟩ | ⟨failure, -, hpoints, hfailed⟩ | ⟨missing, hmissing, -, -⟩
  · cases hok
  · cases hfailed
    exact noSampleFlow_of_refusal (refusal_of_course hagents hlatency hpoints)
  · rw [hagents] at hmissing
    cases hmissing

end Pattern

namespace Settings

/-- Arguments are refused for the first condition that they fail, and are resolved if they fail
none.  A fleet with one link for each agent of resolved settings has as many links in each group as
the roster counts.  A run on it never lacks the agents of its pattern, and starts loads only on
agents that are there, each with an even share or, for latency agents, a rate of their own. -/
theorem resolved_settings_can_run (a : Arguments) :
    (forall failure, resolve a = .error failure <-> Obstacle a failure) ∧
      ((exists s, resolve a = .ok s) <-> exists p, Resolvable a p) ∧
      forall s, resolve a = .ok s ->
        s.roster = a.roster ∧ Pattern.read a.loadPattern = .ok s.pattern ∧
          forall (κ W : Type) (medium : Medium (StateM W) κ) (fleet : Fleet κ) (world : W),
            fleet.map Link.entry = s.roster.entries ->
              let run := (s.pattern.procedure fleet.count s.measurement).run
                (Fleet.answerIn medium) (fleet, world)
              (forall group, fleet.count group = s.roster.count group ∧
                (fleet.select group).length = s.roster.count group) ∧
              (LawfulJoin medium.join -> forall fault, fault ∈ [ConfigFault.fixedRequiresSymmetric,
                .corrRequiresSymmetric, .asymmetricRequiresLatency] ->
                  run.result ≠ .error (.config fault)) ∧
              forall group load, .asked (.startLoad group load) ∈ run.events ->
                Pattern.Apportioned fleet.count s.measurement.latencyRate s.pattern.offeredLoads
                  group load := by
  refine ⟨fun failure => resolve_eq_error_iff, ?_, ?_⟩
  · constructor
    · intro h
      rcases h with ⟨s, hs⟩
      exact ⟨s.pattern, (resolvable_of_resolve hs).right.left⟩
    · intro h
      rcases h with ⟨p, hp⟩
      rcases resolve_of_resolvable hp with ⟨s, hs, -⟩
      exact ⟨s, hs⟩
  · intro s hs
    rcases resolvable_of_resolve hs with ⟨hroster, hresolvable, -⟩
    refine ⟨hroster, hresolvable.read, ?_⟩
    intro κ W medium fleet world hfleet run
    rcases resolve_ok hs with ⟨hagents, hlatency, -⟩
    have hcount : fleet.count = s.roster.count :=
      funext fun group => Fleet.count_of_entries hfleet group
    rw [← hcount] at hagents
    refine ⟨fun group => ⟨congrFun hcount group, congrFun hcount group⟩, ?_, ?_⟩
    · intro hjoin fault hfault hresult
      rcases Pattern.noSampleFlow_of_run hagents hlatency hjoin (fleet, world) hresult with
        ⟨load, samplingRate, rfl⟩
      simp at hfault
    · intro group load hmem
      have hasks : Keeps _ _ (s.pattern.procedure fleet.count s.measurement) [] :=
        Pattern.asks_apportioned hagents
      exact hasks.allowed_of_mem (Fleet.answerIn medium) (fleet, world) hmem group load rfl

/-- A load on two throughput agents beside one latency agent, with standard values for everything
else. -/
def besideLatency : Arguments :=
  { Arguments.standard with
    loadAgents := ["a", "b"], latencyAgents := ["c"], loadPattern := "test:1001:10" }

def besideLatencySettings : Settings where
  server := Arguments.standard.server
  roster := ⟨["a", "b"], ["c"], []⟩
  agentPort := 5001
  loadBinary := none
  latencyBinary := none
  pattern := .test 1001 10
  nicTimestamps := false
  measurement := .standard
  outputFormat := .text

/-- Connections that take every write and never say anything, in a world that counts the writes. -/
def mute : Medium (StateM Nat) Unit where
  write _ bytes := fun writes => ((.taken bytes.length, ()), writes + 1)
  readEach connections _ _ := pure (connections.map fun connection => (.silence, connection))
  join := Ending.join

def muteFleet : Fleet Unit :=
  besideLatencySettings.roster.entries.map fun entry => ⟨entry.1, entry.2, entry.1, ()⟩

theorem resolved_settings_can_run_besideLatency :
    let s := besideLatencySettings
    let run := (s.pattern.procedure muteFleet.count s.measurement).run (Fleet.answerIn mute)
      (muteFleet, 0)
    resolve besideLatency = .ok s ∧ muteFleet.map Link.entry = s.roster.entries ∧
      muteFleet.count .load = 3 ∧ run.events = [.asked (.startLoad .throughput 500)] ∧
      run.result ≠ .error (.config .asymmetricRequiresLatency) ∧ run.fleet.2 = 2 ∧
      Pattern.Apportioned muteFleet.count 16000 [1001] .throughput 500 := by
  intro s run
  have hresolve : resolve besideLatency = .ok s := by decide +kernel
  have hfleet : muteFleet.map Link.entry = s.roster.entries := by decide +kernel
  have hevents : run.events = [.asked (.startLoad .throughput 500)] := by decide +kernel
  rcases resolved_settings_can_run besideLatency with ⟨-, -, hruns⟩
  rcases hruns s hresolve with ⟨-, -, hrun⟩
  rcases hrun Unit Nat mute muteFleet 0 hfleet with ⟨hcounts, hagents, hloads⟩
  have hpossible := hagents Ending.lawful_join .asymmetricRequiresLatency (by decide)
  refine ⟨hresolve, hfleet, (hcounts .load).left, hevents, hpossible, ?_, ?_⟩
  · decide +kernel
  · apply hloads .throughput 500
    show _ ∈ run.events
    rw [hevents]
    exact List.mem_cons_self

end Settings

end LoadFleet
