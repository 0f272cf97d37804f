import LoadFleet.Launch.Remote
import LoadFleet.Proofs.Resolution

/-!
# Deployments

Which agents are started follows from the roster and the binaries alone.  They are started one after
the other as the roster lists them, each on a host of its own, and nothing is started behind the
first one that fails.
-/

namespace LoadFleet

namespace Launch

/-- What a deployer is told when it is called. -/
structure Call where
  host : String
  binary : String
  arguments : List String
deriving DecidableEq

def call (l : Launch) : Call := ⟨l.host, l.binary, l.arguments⟩

/-- A deployer that may answer each call by all calls so far, and notes them. -/
def noted (answer : List Call -> Except Failure α) (l : Launch) :
    StateM (List Call) (Except Failure α) :=
  fun before => (answer (before ++ [l.call]), before ++ [l.call])

/-- What is answered to calls that are made one after the other, behind earlier ones. -/
def answersTo (answer : List Call -> Except Failure α) (before : List Call) :
    List Call -> List (Except Failure α)
  | [] => []
  | c :: rest => answer (before ++ [c]) :: answersTo answer (before ++ [c]) rest

section

variable {answer : List Call -> Except Failure α} {before : List Call} {plan : List Launch}

/-!
## One agent after the other
-/

theorem deployAll_noted_ok {l : Launch} {session : α} {result : Except Failure (List α)}
    {after : List Call} (hfirst : answer (before ++ [l.call]) = .ok session)
    (hrest : deployAll (noted answer) plan (before ++ [l.call]) = (result, after)) :
    deployAll (noted answer) (l :: plan) before = ((session :: ·) <$> result, after) := by
  simp only [deployAll, bind, StateT.bind, noted, hfirst, hrest]
  rfl

theorem deployAll_noted_error {l : Launch} {failure : Failure}
    (hfirst : answer (before ++ [l.call]) = .error failure) :
    deployAll (noted answer) (l :: plan) before = (.error failure, before ++ [l.call]) := by
  simp only [deployAll, bind, StateT.bind, noted, hfirst]
  rfl

theorem deployAll_of_answered {sessions : List α}
    (h : answersTo answer before (plan.map call) = sessions.map .ok) :
    deployAll (noted answer) plan before = (.ok sessions, before ++ plan.map call) := by
  induction plan generalizing before sessions with
  | nil =>
      rw [List.map_eq_nil_iff.mp h.symm, List.map_nil, List.append_nil]
      rfl
  | cons l plan ih =>
      cases sessions with
      | nil => cases h
      | cons session sessions =>
          rcases List.cons.inj h with ⟨hfirst, hrest⟩
          rw [deployAll_noted_ok hfirst (ih hrest), List.append_assoc]
          rfl

theorem deployAll_of_failed {made : List Call} {sessions : List α} {failure : Failure}
    (hmade : made <+: plan.map call)
    (h : answersTo answer before made = sessions.map .ok ++ [.error failure]) :
    deployAll (noted answer) plan before = (.error failure, before ++ made) := by
  induction plan generalizing before made sessions with
  | nil =>
      rw [List.prefix_nil.mp hmade] at h
      exact absurd h.symm (List.append_ne_nil_of_right_ne_nil _ (List.cons_ne_nil _ _))
  | cons l plan ih =>
      cases made with
      | nil => exact absurd h.symm (List.append_ne_nil_of_right_ne_nil _ (List.cons_ne_nil _ _))
      | cons c made =>
          rcases List.cons_prefix_cons.mp hmade with ⟨rfl, hbehind⟩
          cases sessions with
          | nil =>
              rcases List.cons.inj h with ⟨hfirst, hrest⟩
              have hnone : made = [] := by
                cases made with
                | nil => rfl
                | cons c made => cases hrest
              rw [deployAll_noted_error hfirst, hnone]
          | cons session sessions =>
              rcases List.cons.inj h with ⟨hfirst, hrest⟩
              rw [deployAll_noted_ok hfirst (ih hbehind hrest), List.append_assoc]
              rfl

/-- Either all calls of a plan succeed, or one of them is the first that fails. -/
theorem answered_or_failed (answer : List Call -> Except Failure α) (before planned : List Call) :
    (exists sessions : List α, answersTo answer before planned = sessions.map .ok) ∨
      exists (made : List Call) (sessions : List α) (failure : Failure),
        made <+: planned ∧ answersTo answer before made = sessions.map .ok ++ [.error failure] := by
  induction planned generalizing before with
  | nil => exact .inl ⟨[], rfl⟩
  | cons c planned ih =>
      cases hfirst : answer (before ++ [c]) with
      | error failure =>
          refine .inr ⟨[c], [], failure, ⟨planned, rfl⟩, ?_⟩
          exact congrArg (· :: []) hfirst
      | ok session =>
          rcases ih (before ++ [c]) with
            ⟨sessions, hsessions⟩ | ⟨made, sessions, failure, hmade, hfailed⟩
          · refine .inl ⟨session :: sessions, ?_⟩
            rw [answersTo, hfirst, hsessions]
            rfl
          · refine .inr ⟨c :: made, session :: sessions, failure, ?_, ?_⟩
            · exact List.cons_prefix_cons.mpr ⟨rfl, hmade⟩
            · rw [answersTo, hfirst, hfailed]
              rfl

theorem deployAll_eq_ok_iff {sessions : List α} {calls : List Call} :
    deployAll (noted answer) plan [] = (.ok sessions, calls) <->
      calls = plan.map call ∧ answersTo answer [] calls = sessions.map .ok := by
  constructor
  · intro h
    rcases answered_or_failed answer [] (plan.map call) with
      ⟨others, hothers⟩ | ⟨made, others, failure, hmade, hfailed⟩
    · rw [deployAll_of_answered hothers] at h
      cases h
      exact ⟨rfl, hothers⟩
    · rw [deployAll_of_failed hmade hfailed] at h
      cases h
  · intro h
    rcases h with ⟨rfl, hsessions⟩
    exact deployAll_of_answered hsessions

theorem deployAll_eq_error_iff {failure : Failure} {calls : List Call} :
    deployAll (noted answer) plan [] = (.error failure, calls) <->
      calls <+: plan.map call ∧
        exists sessions : List α,
          answersTo answer [] calls = sessions.map .ok ++ [.error failure] := by
  constructor
  · intro h
    rcases answered_or_failed answer [] (plan.map call) with
      ⟨others, hothers⟩ | ⟨made, others, failed, hmade, hfailed⟩
    · rw [deployAll_of_answered hothers] at h
      cases h
    · rw [deployAll_of_failed hmade hfailed] at h
      cases h
      exact ⟨hmade, others, hfailed⟩
  · intro h
    rcases h with ⟨hmade, sessions, hfailed⟩
    exact deployAll_of_failed hmade hfailed

theorem calls_prefix (answer : List Call -> Except Failure α) (plan : List Launch) :
    (deployAll (noted answer) plan []).2 <+: plan.map call := by
  generalize hrun : deployAll (noted answer) plan [] = run
  rcases run with ⟨failure | sessions, calls⟩
  · exact (deployAll_eq_error_iff.mp hrun).left
  · exact (deployAll_eq_ok_iff.mp hrun).left ▸ List.prefix_rfl

end

end Launch

namespace Settings

/-!
## What is planned
-/

def callsFor (s : Settings) (role : Role) (binary : Option String) (hosts : List String) :
    List Launch.Call :=
  match binary with
  | none => []
  | some binary =>
      hosts.map fun host => ⟨host, binary, Launch.agentArguments s.server role s.nicTimestamps⟩

/-- The calls for all agents that are to be started, role by role. -/
def plannedCalls (s : Settings) : List Launch.Call :=
  s.callsFor .throughput s.loadBinary s.roster.throughput ++
    s.callsFor .latency s.latencyBinary s.roster.latency ++
    s.callsFor .symmetric s.loadBinary s.roster.symmetric

def launch? (s : Settings) (entry : String × Role) : Option Launch :=
  (s.binary? entry.2).map fun binary =>
    ⟨entry.1, entry.2, binary, Launch.agentArguments s.server entry.2 s.nicTimestamps⟩

theorem calls_of_role (s : Settings) (role : Role) (hosts : List String) :
    ((hosts.map (·, role)).filterMap s.launch?).map Launch.call =
      s.callsFor role (s.binary? role) hosts := by
  rw [List.filterMap_map, List.map_filterMap]
  unfold callsFor
  cases hbinary : s.binary? role with
  | none =>
      have hnone : forall host, (s.launch? (host, role)).map Launch.call = none := by
        intro host
        simp [launch?, hbinary]
      simp [hnone]
  | some binary =>
      have hsome : forall host, (s.launch? (host, role)).map Launch.call =
          some ⟨host, binary, Launch.agentArguments s.server role s.nicTimestamps⟩ := by
        intro host
        simp [launch?, hbinary, Launch.call]
      simp [hsome]

theorem map_call_launchPlan (s : Settings) : s.launchPlan.map Launch.call = s.plannedCalls := by
  show (s.roster.entries.filterMap s.launch?).map Launch.call = _
  unfold Roster.entries
  rw [List.filterMap_append, List.filterMap_append, List.map_append, List.map_append,
    calls_of_role, calls_of_role, calls_of_role]
  rfl

theorem hosts_callsFor (s : Settings) (role : Role) (binary : Option String)
    (hosts : List String) :
    ((s.callsFor role binary hosts).map Launch.Call.host).Sublist hosts := by
  cases binary with
  | none => exact List.nil_sublist hosts
  | some binary =>
      have hhosts : (s.callsFor role (some binary) hosts).map Launch.Call.host = hosts := by
        rw [callsFor, List.map_map]
        exact List.map_id hosts
      rw [hhosts]

theorem hosts_plannedCalls (s : Settings) :
    (s.plannedCalls.map Launch.Call.host).Sublist s.roster.hosts := by
  have hroster : s.roster.hosts =
      s.roster.throughput ++ s.roster.latency ++ s.roster.symmetric := by
    simp [Roster.hosts, Roster.entries, Function.comp_def]
  rw [hroster, plannedCalls, List.map_append, List.map_append]
  exact ((hosts_callsFor s _ _ _).append (hosts_callsFor s _ _ _)).append (hosts_callsFor s _ _ _)

/-!
## Deploying what is planned
-/

/-- Where settings were resolved, deploying their plan calls for the planned agents in order and for
no host twice.  It ends well with one session for each agent if every call succeeds, and otherwise
in the failure of the first call that fails, which is the last one made. -/
theorem deployment_follows_plan {a : Arguments} {s : Settings} (hresolve : resolve a = .ok s)
    (answer : List Launch.Call -> Except Failure α) :
    let run := Launch.deployAll (Launch.noted answer) s.launchPlan []
    (run.2.map Launch.Call.host).Nodup ∧
      (forall sessions calls, run = (.ok sessions, calls) <->
        calls = s.plannedCalls ∧ Launch.answersTo answer [] calls = sessions.map .ok) ∧
      forall failure calls, run = (.error failure, calls) <->
        calls <+: s.plannedCalls ∧
          exists sessions : List α,
            Launch.answersTo answer [] calls = sessions.map .ok ++ [.error failure] := by
  intro run
  rcases resolvable_of_resolve hresolve with ⟨hroster, hresolvable, -⟩
  have hdistinct : s.roster.hosts.Nodup := by
    rw [hroster]
    exact hresolvable.distinct
  have hcalls : run.2 <+: s.plannedCalls := by
    rw [← map_call_launchPlan]
    exact Launch.calls_prefix answer s.launchPlan
  refine ⟨?distinct, ?deployed, ?failed⟩
  case distinct =>
    have hsublist := (hcalls.sublist.map Launch.Call.host).trans s.hosts_plannedCalls
    exact hdistinct.sublist hsublist
  case deployed =>
    intro sessions calls
    rw [← map_call_launchPlan]
    exact Launch.deployAll_eq_ok_iff
  case failed =>
    intro failure calls
    rw [← map_call_launchPlan]
    exact Launch.deployAll_eq_error_iff

/-- Agents of every role, with a binary for those that offer load, and standard values for
everything else. -/
def stationed : Arguments :=
  { Arguments.standard with
    loadAgents := ["a", "b"], latencyAgents := ["c"], symmetricAgents := ["d"]
    loadBinary := some "/opt/agent" }

def stationedSettings : Settings where
  server := stationed.server
  roster := ⟨["a", "b"], ["c"], ["d"]⟩
  agentPort := 5001
  loadBinary := some "/opt/agent"
  latencyBinary := none
  pattern := .step 10000 100000 50000
  nicTimestamps := false
  measurement := .standard
  outputFormat := .text

/-- The latency agent has no binary and is passed over.  When the second call fails, the symmetric
agent behind it is not started either. -/
theorem deployment_follows_plan_secondFails :
    let answer (calls : List Launch.Call) : Except Failure Nat :=
      if calls.length = 2 then .error (.deploy .unknownUser) else .ok calls.length
    let run := Launch.deployAll (Launch.noted answer) stationedSettings.launchPlan []
    resolve stationed = .ok stationedSettings ∧
      stationedSettings.plannedCalls.map Launch.Call.host = ["a", "b", "d"] ∧
      run = (.error (.deploy .unknownUser), stationedSettings.plannedCalls.take 2) ∧
      (run.2.map Launch.Call.host).Nodup := by
  intro answer run
  have hresolve : resolve stationed = .ok stationedSettings := by decide +kernel
  rcases deployment_follows_plan hresolve answer with ⟨hdistinct, -, hfailed⟩
  refine ⟨hresolve, by decide, ?_, hdistinct⟩
  exact (hfailed _ _).mpr ⟨List.take_prefix 2 _, [1], by decide +kernel⟩

end Settings
end LoadFleet
