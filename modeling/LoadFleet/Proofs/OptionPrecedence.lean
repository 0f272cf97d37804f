import LoadFleet.Proofs.AgentNames
import LoadFleet.Settings.Override

/-!
# The command line over the file over the standard

Every option is settled on its own: what the command line gives counts before what the file gives,
and that before what was there.  A value of the file is refused only where it would count, and of
several such values the first in a fixed order of the options is reported.
-/

namespace LoadFleet

/-!
## Options one by one
-/

abbrev OptionId.Value : OptionId -> Type
  | .targetHost => String
  | .loadAgents => List String
  | .latencyAgents => List String
  | .symmetricAgents => List String
  | .agentPort => UInt16
  | .loadBinary => Option String
  | .latencyBinary => Option String
  | .loadThreads => Positive32
  | .latencyThreads => Positive32
  | .loadConnections => Positive32
  | .latencyConnections => Positive32
  | .interArrival => String
  | .appProtocol => String
  | .targetProtocol => TargetProtocol
  | .latencyRate => Positive32
  | .loadPattern => String
  | .intervalSize => Positive64
  | .keyCount => UInt32
  | .nicTimestamps => Bool
  | .maxTries => Positive32
  | .outputFormat => OutputFormat
  | .config => Option String
  | .verbose => Bool
  | .noColor => Bool

def Arguments.value (a : Arguments) : (o : OptionId) -> o.Value
  | .targetHost => a.targetHost
  | .loadAgents => a.loadAgents
  | .latencyAgents => a.latencyAgents
  | .symmetricAgents => a.symmetricAgents
  | .agentPort => a.agentPort
  | .loadBinary => a.loadBinary
  | .latencyBinary => a.latencyBinary
  | .loadThreads => a.loadThreads
  | .latencyThreads => a.latencyThreads
  | .loadConnections => a.loadConnections
  | .latencyConnections => a.latencyConnections
  | .interArrival => a.interArrival
  | .appProtocol => a.appProtocol
  | .targetProtocol => a.targetProtocol
  | .latencyRate => a.latencyRate
  | .loadPattern => a.loadPattern
  | .intervalSize => a.intervalSize
  | .keyCount => a.keyCount
  | .nicTimestamps => a.nicTimestamps
  | .maxTries => a.maxTries
  | .outputFormat => a.outputFormat
  | .config => a.config
  | .verbose => a.verbose
  | .noColor => a.noColor

/-- Arguments are known by the values of all options. -/
theorem Arguments.eq_of_value {a b : Arguments} (h : forall o, a.value o = b.value o) : a = b := by
  cases a
  cases b
  simp only [mk.injEq]
  exact ⟨h .targetHost, h .loadAgents, h .latencyAgents, h .symmetricAgents, h .agentPort,
    h .loadBinary, h .latencyBinary, h .loadThreads, h .latencyThreads, h .loadConnections,
    h .latencyConnections, h .interArrival, h .appProtocol, h .targetProtocol, h .latencyRate,
    h .loadPattern, h .intervalSize, h .keyCount, h .nicTimestamps, h .maxTries, h .outputFormat,
    h .config, h .verbose, h .noColor⟩

namespace ConfigFile

/-- The value that a file has for an option: names without the blanks around them, and of the
numbers that must be positive those that are.  Three options are never in a file. -/
def value? (f : ConfigFile) : (o : OptionId) -> Option o.Value
  | .targetHost => f.targetHost
  | .loadAgents => f.loadAgents.map (List.map Text.trimmed)
  | .latencyAgents => f.latencyAgents.map (List.map Text.trimmed)
  | .symmetricAgents => f.symmetricAgents.map (List.map Text.trimmed)
  | .agentPort => f.agentPort
  | .loadBinary => f.loadBinary.map some
  | .latencyBinary => f.latencyBinary.map some
  | .loadThreads => f.loadThreads.bind Positive32.ofWord?
  | .latencyThreads => f.latencyThreads.bind Positive32.ofWord?
  | .loadConnections => f.loadConnections.bind Positive32.ofWord?
  | .latencyConnections => f.latencyConnections.bind Positive32.ofWord?
  | .interArrival => f.interArrival
  | .appProtocol => f.appProtocol
  | .targetProtocol => f.targetProtocol
  | .latencyRate => f.latencyRate.bind Positive32.ofWord?
  | .loadPattern => f.loadPattern
  | .intervalSize => f.intervalSize.bind Positive64.ofWord?
  | .keyCount => f.keyCount
  | .nicTimestamps => f.nicTimestamps
  | .maxTries => f.maxTries.bind Positive32.ofWord?
  | .outputFormat => f.outputFormat
  | .config => none
  | .verbose => none
  | .noColor => none

/-- The value that counts: from the command line if the option is given there, else from the file if
it has one, and else the one that was there. -/
def preferred (f : ConfigFile) (line : CommandLine) (o : OptionId) : o.Value :=
  if o ∈ line.given then line.arguments.value o
  else (f.value? o).getD (line.arguments.value o)

def agents? (f : ConfigFile) : OptionId -> Option (List String)
  | .loadAgents => f.loadAgents
  | .latencyAgents => f.latencyAgents
  | .symmetricAgents => f.symmetricAgents
  | _ => none

def number? (f : ConfigFile) : OptionId -> Option Nat
  | .loadThreads => f.loadThreads.map UInt32.toNat
  | .latencyThreads => f.latencyThreads.map UInt32.toNat
  | .loadConnections => f.loadConnections.map UInt32.toNat
  | .latencyConnections => f.latencyConnections.map UInt32.toNat
  | .latencyRate => f.latencyRate.map UInt32.toNat
  | .intervalSize => f.intervalSize.map UInt64.toNat
  | .maxTries => f.maxTries.map UInt32.toNat
  | _ => none

/-- The options with values that may be refused, in the order they are looked at. -/
def checked : List OptionId :=
  [.loadAgents, .latencyAgents, .symmetricAgents, .loadThreads, .latencyThreads, .loadConnections,
    .latencyConnections, .latencyRate, .intervalSize, .maxTries]

def numberName : OptionId -> String
  | .loadThreads => "load_threads"
  | .latencyThreads => "lt_threads"
  | .loadConnections => "load_conn"
  | .latencyConnections => "lt_conn"
  | .latencyRate => "lqps"
  | .intervalSize => "ci_size"
  | _ => "max_tries"

/-- The value of a file for an option breaks a rule: an agent is blank or listed again, or a number
that must be positive is zero. -/
def Invalid (f : ConfigFile) (o : OptionId) : Prop :=
  (exists entries, f.agents? o = some entries ∧ ¬ Agent.Proper entries) ∨ f.number? o = some 0

/-- How an invalid value is reported: by its first fault or by the name of the number. -/
inductive Refused (f : ConfigFile) (o : OptionId) : Failure -> Prop
  | agents {entries : List String} {fault : Agent.NamesFault}
      (hentries : f.agents? o = some entries) (hfault : Agent.FirstFault entries fault) :
      Refused f o (.validation (Options.namesFailure fault))
  | zero (hzero : f.number? o = some 0) : Refused f o (.config (.notPositive (numberName o)))

variable {f : ConfigFile} {line : CommandLine}

theorem invalid_iff {o : OptionId} : f.Invalid o <-> exists failure, f.Refused o failure := by
  constructor
  · intro h
    rcases h with ⟨entries, hentries, himproper⟩ | hzero
    · rcases Agent.not_proper_iff.mp himproper with ⟨fault, hfault⟩
      exact ⟨_, .agents hentries hfault⟩
    · exact ⟨_, .zero hzero⟩
  · intro h
    rcases h with ⟨failure, hrefused⟩
    cases hrefused with
    | agents hentries hfault => exact .inl ⟨_, hentries, Agent.not_proper_iff.mpr ⟨_, hfault⟩⟩
    | zero hzero => exact .inr hzero

theorem number?_of_agents? {o : OptionId} {entries : List String}
    (h : f.agents? o = some entries) : f.number? o = none := by
  cases o
  case loadAgents => rfl
  case latencyAgents => rfl
  case symmetricAgents => rfl
  all_goals cases h

theorem mem_checked_of_invalid {o : OptionId} (h : f.Invalid o) : o ∈ checked := by
  have hsilent : o ∈ checked ∨ f.agents? o = none ∧ f.number? o = none := by
    cases o <;> simp [checked, agents?, number?]
  rcases hsilent with hmem | ⟨hagents, hnumber⟩
  · exact hmem
  · rcases h with ⟨entries, hentries, -⟩ | hzero
    · rw [hagents] at hentries
      cases hentries
    · rw [hnumber] at hzero
      cases hzero

theorem Refused.unique {o : OptionId} {failure other : Failure} (h : f.Refused o failure)
    (hother : f.Refused o other) : failure = other := by
  cases h with
  | agents hentries hfault =>
      cases hother with
      | agents hentries' hfault' =>
          rw [hentries] at hentries'
          cases hentries'
          rw [hfault.unique hfault']
      | zero hzero =>
          rw [number?_of_agents? hentries] at hzero
          cases hzero
  | zero hzero =>
      cases hother with
      | agents hentries hfault =>
          rw [number?_of_agents? hentries] at hzero
          cases hzero
      | zero => rfl

/-!
## Single options
-/

/-- An option is settled: it has the value that counts, or a value that would count is refused. -/
inductive Settled (f : ConfigFile) (line : CommandLine) (o : OptionId) :
    Except Failure o.Value -> Prop
  | preferred (h : o ∈ line.given ∨ ¬ f.Invalid o) : Settled f line o (.ok (f.preferred line o))
  | refused {failure : Failure} (hgiven : o ∉ line.given) (h : f.Refused o failure) :
      Settled f line o (.error failure)

section

variable {o : OptionId}

theorem preferred_given (h : o ∈ line.given) : f.preferred line o = line.arguments.value o :=
  if_pos h

theorem preferred_silent (h : f.value? o = none) :
    f.preferred line o = line.arguments.value o := by
  unfold preferred
  rw [h, Option.getD_none, ite_self]

theorem preferred_offered {value : o.Value} (hgiven : o ∉ line.given)
    (h : f.value? o = some value) : f.preferred line o = value := by
  unfold preferred
  rw [if_neg hgiven, h, Option.getD_some]

/-- A value of the file that is never refused counts where the option is not given. -/
theorem choose_free {wrap : β -> o.Value} {offered : Option β}
    (hvalue : f.value? o = offered.map wrap) :
    choose line.given o (line.arguments.value o) (fun value => .ok (wrap value)) offered =
      .ok (f.preferred line o) := by
  unfold choose
  by_cases hgiven : o ∈ line.given
  · rw [if_pos hgiven, preferred_given hgiven]
  · rw [if_neg hgiven]
    cases offered with
    | none => rw [preferred_silent hvalue]
    | some value => rw [preferred_offered hgiven hvalue]

/-- A value of the file is checked where the option is not given. -/
theorem settled_choose {check : β -> Except Failure o.Value} {offered : Option β}
    (hsilent : offered = none -> f.value? o = none ∧ ¬ f.Invalid o)
    (hok : forall value result, offered = some value -> check value = .ok result ->
      f.value? o = some result ∧ ¬ f.Invalid o)
    (herror : forall value failure, offered = some value -> check value = .error failure ->
      f.Refused o failure) :
    Settled f line o (choose line.given o (line.arguments.value o) check offered) := by
  unfold choose
  by_cases hgiven : o ∈ line.given
  · rw [if_pos hgiven, ← preferred_given (f := f) hgiven]
    exact .preferred (.inl hgiven)
  · rw [if_neg hgiven]
    cases hoffered : offered with
    | none =>
        rcases hsilent hoffered with ⟨hvalue, hvalid⟩
        dsimp only
        rw [← preferred_silent hvalue]
        exact .preferred (.inr hvalid)
    | some value =>
        show Settled f line o (check value)
        cases hcheck : check value with
        | error failure => exact .refused hgiven (herror value failure hoffered hcheck)
        | ok result =>
            rcases hok value result hoffered hcheck with ⟨hvalue, hvalid⟩
            rw [← preferred_offered hgiven hvalue]
            exact .preferred (.inr hvalid)

theorem settled_agents {check : List String -> Except Failure o.Value}
    {names : List String -> o.Value} (hvalue : f.value? o = (f.agents? o).map names)
    (hnumber : f.number? o = none)
    (hok : forall entries result, check entries = .ok result ->
      Agent.Proper entries ∧ names entries = result)
    (herror : forall entries failure, check entries = .error failure ->
      exists fault, Agent.FirstFault entries fault ∧
        failure = .validation (Options.namesFailure fault)) :
    Settled f line o (choose line.given o (line.arguments.value o) check (f.agents? o)) := by
  have hvalid : (forall entries, f.agents? o = some entries -> Agent.Proper entries) ->
      ¬ f.Invalid o := by
    intro hproper h
    rcases h with ⟨entries, hentries, himproper⟩ | hzero
    · exact himproper (hproper entries hentries)
    · rw [hnumber] at hzero
      cases hzero
  apply settled_choose
  · intro hsilent
    rw [hvalue, hsilent]
    refine ⟨rfl, hvalid ?_⟩
    rw [hsilent]
    exact nofun
  · intro entries result hoffered hcheck
    rcases hok entries result hcheck with ⟨hproper, rfl⟩
    rw [hvalue, hoffered]
    refine ⟨rfl, hvalid ?_⟩
    rw [hoffered]
    intro other hother
    cases hother
    exact hproper
  · intro entries failure hoffered hcheck
    rcases herror entries failure hcheck with ⟨fault, hfault, rfl⟩
    exact .agents hoffered hfault

theorem settled_number {positive? : β -> Option o.Value} {toNat : β -> Nat} {offered : Option β}
    (hvalue : f.value? o = offered.bind positive?) (hnumber : f.number? o = offered.map toNat)
    (hagents : f.agents? o = none) (hzero : forall n, positive? n = none <-> toNat n = 0) :
    Settled f line o (choose line.given o (line.arguments.value o)
      (fun n => (positive? n).elim (.error (.config (.notPositive (numberName o)))) .ok)
      offered) := by
  have hvalid : f.number? o ≠ some 0 -> ¬ f.Invalid o := by
    intro hsome h
    rcases h with ⟨entries, hentries, -⟩ | hzero
    · rw [hagents] at hentries
      cases hentries
    · exact hsome hzero
  apply settled_choose
  · intro hsilent
    rw [hvalue, hsilent]
    refine ⟨rfl, hvalid ?_⟩
    rw [hnumber, hsilent]
    exact nofun
  · intro n result hoffered hcheck
    cases hn : positive? n with
    | none =>
        rw [hn] at hcheck
        cases hcheck
    | some positive =>
        rw [hn] at hcheck
        cases hcheck
        rw [hvalue, hoffered]
        refine ⟨hn, hvalid ?_⟩
        rw [hnumber, hoffered, Option.map_some, Ne, Option.some.injEq, ← hzero, hn]
        exact nofun
  · intro n failure hoffered hcheck
    cases hn : positive? n with
    | none =>
        rw [hn] at hcheck
        cases hcheck
        apply Refused.zero
        rw [hnumber, hoffered, Option.map_some, (hzero n).mp hn]
    | some positive =>
        rw [hn] at hcheck
        cases hcheck

end

theorem checkAgents_ok (entries names : List String) (h : checkAgents entries = .ok names) :
    Agent.Proper entries ∧ entries.map Text.trimmed = names := by
  rw [← Agent.namesOfEntries_eq_ok_iff]
  unfold checkAgents Options.agentEntries at h
  cases hnames : Agent.namesOfEntries entries with
  | error fault =>
      rw [hnames] at h
      cases h
  | ok accepted =>
      rw [hnames] at h
      cases h
      rfl

theorem checkAgents_error (entries : List String) (failure : Failure)
    (h : checkAgents entries = .error failure) :
    exists fault, Agent.FirstFault entries fault ∧
      failure = .validation (Options.namesFailure fault) := by
  unfold checkAgents Options.agentEntries at h
  cases hnames : Agent.namesOfEntries entries with
  | error fault =>
      rw [hnames] at h
      cases h
      exact ⟨fault, Agent.namesOfEntries_eq_error_iff.mp hnames, rfl⟩
  | ok accepted =>
      rw [hnames] at h
      cases h

theorem positive32_eq_none_iff (n : UInt32) : Positive32.ofWord? n = none <-> n.toNat = 0 := by
  have hzero : n.toNat = 0 <-> n = 0 := UInt32.toNat_inj (b := 0)
  unfold Positive32.ofWord?
  rw [hzero]
  by_cases hn : n = 0
  · exact iff_of_true (dif_pos hn) hn
  · rw [dif_neg hn]
    exact iff_of_false nofun hn

theorem positive64_eq_none_iff (n : UInt64) : Positive64.ofWord? n = none <-> n.toNat = 0 := by
  have hzero : n.toNat = 0 <-> n = 0 := UInt64.toNat_inj (b := 0)
  unfold Positive64.ofWord?
  rw [hzero]
  by_cases hn : n = 0
  · exact iff_of_true (dif_pos hn) hn
  · rw [dif_neg hn]
    exact iff_of_false nofun hn

/-!
## All options in order
-/

/-- What is made of options that are settled in an order: the first that is refused decides, and if
none is, every option has the value that counts. -/
inductive Decided (f : ConfigFile) (line : CommandLine) :
    List OptionId -> Except Failure Arguments -> Prop
  | preferred {a : Arguments} (h : forall o, a.value o = f.preferred line o) :
      Decided f line [] (.ok a)
  | refused {o : OptionId} {rest : List OptionId} {failure : Failure} (hgiven : o ∉ line.given)
      (h : f.Refused o failure) : Decided f line (o :: rest) (.error failure)
  | passed {o : OptionId} {rest : List OptionId} {result : Except Failure Arguments}
      (h : o ∈ line.given ∨ ¬ f.Invalid o) (hrest : Decided f line rest result) :
      Decided f line (o :: rest) result

section

variable {o : OptionId} {rest : List OptionId} {onward : o.Value -> Except Failure Arguments}

theorem Settled.bind {result : Except Failure o.Value} (h : Settled f line o result)
    (hrest : Decided f line rest (onward (f.preferred line o))) :
    Decided f line (o :: rest) (result >>= onward) := by
  cases h with
  | preferred h => exact .passed h hrest
  | refused hgiven h => exact .refused hgiven h

theorem Decided.bind_free {wrap : β -> o.Value} {offered : Option β}
    (hvalue : f.value? o = offered.map wrap)
    (hrest : Decided f line rest (onward (f.preferred line o))) :
    Decided f line rest
      (choose line.given o (line.arguments.value o) (fun value => .ok (wrap value)) offered >>=
        onward) := by
  rw [choose_free hvalue]
  exact hrest

theorem Decided.bind_plain
    (hrest : Decided f line rest (onward (f.preferred line o))) :
    Decided f line rest
      (choose line.given o (line.arguments.value o) .ok (f.value? o) >>= onward) :=
  .bind_free (Option.map_id_apply).symm hrest

end

/-- Settling one option after the other is what applying a file comes to. -/
theorem decided_apply (f : ConfigFile) (line : CommandLine) :
    Decided f line checked (f.apply line) := by
  unfold apply checked
  refine (settled_agents (o := .loadAgents) rfl rfl checkAgents_ok checkAgents_error).bind ?_
  refine (settled_agents (o := .latencyAgents) rfl rfl checkAgents_ok checkAgents_error).bind ?_
  refine (settled_agents (o := .symmetricAgents) rfl rfl checkAgents_ok checkAgents_error).bind ?_
  refine (settled_number (o := .loadThreads) rfl rfl rfl positive32_eq_none_iff).bind ?_
  refine (settled_number (o := .latencyThreads) rfl rfl rfl positive32_eq_none_iff).bind ?_
  refine (settled_number (o := .loadConnections) rfl rfl rfl positive32_eq_none_iff).bind ?_
  refine (settled_number (o := .latencyConnections) rfl rfl rfl positive32_eq_none_iff).bind ?_
  refine (settled_number (o := .latencyRate) rfl rfl rfl positive32_eq_none_iff).bind ?_
  refine (settled_number (o := .intervalSize) rfl rfl rfl positive64_eq_none_iff).bind ?_
  refine (settled_number (o := .maxTries) rfl rfl rfl positive32_eq_none_iff).bind ?_
  -- The values of the other options are taken as they are, so none of them can end the chain.
  refine .bind_plain (o := .targetHost) ?_
  refine .bind_plain (o := .agentPort) ?_
  refine .bind_free (o := .loadBinary) rfl ?_
  refine .bind_free (o := .latencyBinary) rfl ?_
  refine .bind_plain (o := .interArrival) ?_
  refine .bind_plain (o := .appProtocol) ?_
  refine .bind_plain (o := .targetProtocol) ?_
  refine .bind_plain (o := .loadPattern) ?_
  refine .bind_plain (o := .keyCount) ?_
  refine .bind_plain (o := .nicTimestamps) ?_
  refine .bind_plain (o := .outputFormat) ?_
  apply Decided.preferred
  intro o
  cases o
  case config => exact (preferred_silent (f := f) (o := .config) rfl).symm
  case verbose => exact (preferred_silent (f := f) (o := .verbose) rfl).symm
  case noColor => exact (preferred_silent (f := f) (o := .noColor) rfl).symm
  all_goals rfl

namespace Decided

variable {order : List OptionId}

theorem of_ok {a : Arguments} (h : Decided f line order (.ok a)) :
    (forall o, o ∈ order -> o ∈ line.given ∨ ¬ f.Invalid o) ∧
      forall o, a.value o = f.preferred line o := by
  generalize hresult : Except.ok a = result at h
  induction h with
  | preferred h =>
      cases hresult
      exact ⟨nofun, h⟩
  | refused => cases hresult
  | passed h _ ih =>
      rcases ih hresult with ⟨hrest, hvalues⟩
      exact ⟨List.forall_mem_cons.mpr ⟨h, hrest⟩, hvalues⟩

theorem of_error {failure : Failure} (h : Decided f line order (.error failure)) :
    exists before o after, order = before ++ o :: after ∧ o ∉ line.given ∧ f.Refused o failure ∧
      forall other, other ∈ before -> other ∈ line.given ∨ ¬ f.Invalid other := by
  generalize hresult : Except.error failure = result at h
  induction h with
  | preferred => cases hresult
  | @refused o rest _ hgiven h =>
      cases hresult
      exact ⟨[], o, rest, rfl, hgiven, h, nofun⟩
  | @passed first rest _ h _ ih =>
      rcases ih hresult with ⟨before, o, after, rfl, hgiven, hrefused, hbefore⟩
      refine ⟨first :: before, o, after, rfl, hgiven, hrefused, ?_⟩
      exact List.forall_mem_cons.mpr ⟨h, hbefore⟩

theorem eq_error {result : Except Failure Arguments} {before after : List OptionId} {o : OptionId}
    {failure : Failure} (h : Decided f line order result) (horder : order = before ++ o :: after)
    (hgiven : o ∉ line.given) (hrefused : f.Refused o failure)
    (hbefore : forall other, other ∈ before -> other ∈ line.given ∨ ¬ f.Invalid other) :
    result = .error failure := by
  have hblocked : ¬ (o ∈ line.given ∨ ¬ f.Invalid o) := by
    intro hcase
    rcases hcase with hmem | hvalid
    · exact hgiven hmem
    · exact hvalid (invalid_iff.mpr ⟨failure, hrefused⟩)
  -- Whatever was passed has nothing that is refused, so it stands before the option in question.
  induction h generalizing before with
  | preferred => cases before <;> cases horder
  | refused hfirst h =>
      cases before with
      | nil =>
          cases horder
          rw [h.unique hrefused]
      | cons first before =>
          cases horder
          rcases hbefore _ List.mem_cons_self with hmem | hvalid
          · exact absurd hmem hfirst
          · exact absurd (invalid_iff.mpr ⟨_, h⟩) hvalid
  | passed h _ ih =>
      cases before with
      | nil =>
          cases horder
          exact absurd h hblocked
      | cons first before =>
          cases horder
          exact ih rfl (List.forall_mem_cons.mp hbefore).right

end Decided

theorem apply_eq_error_iff {failure : Failure} :
    f.apply line = .error failure <-> exists before o after,
      checked = before ++ o :: after ∧ o ∉ line.given ∧ f.Refused o failure ∧
        forall other, other ∈ before -> other ∈ line.given ∨ ¬ f.Invalid other := by
  have hdecided := decided_apply f line
  constructor
  · intro h
    rw [h] at hdecided
    exact hdecided.of_error
  · intro hcase
    rcases hcase with ⟨before, o, after, horder, hgiven, hrefused, hbefore⟩
    exact hdecided.eq_error horder hgiven hrefused hbefore

theorem apply_ok {a : Arguments} (h : f.apply line = .ok a) :
    (forall o, o ∈ line.given ∨ ¬ f.Invalid o) ∧ forall o, a.value o = f.preferred line o := by
  have hdecided := decided_apply f line
  rw [h] at hdecided
  rcases hdecided.of_ok with ⟨hchecked, hvalues⟩
  refine ⟨?_, hvalues⟩
  intro o
  by_cases hinvalid : f.Invalid o
  · exact hchecked o (mem_checked_of_invalid hinvalid)
  · exact .inr hinvalid

theorem exists_invalid_of_error {failure : Failure} (h : f.apply line = .error failure) :
    exists o, o ∉ line.given ∧ f.Invalid o := by
  rcases apply_eq_error_iff.mp h with ⟨before, o, after, -, hgiven, hrefused, -⟩
  exact ⟨o, hgiven, invalid_iff.mpr ⟨failure, hrefused⟩⟩

/-- A file is refused if and only if it has an invalid value for an option that is not given on the
command line, and then for the first such option.  Otherwise every option has the value that counts
for it, whatever becomes of the others. -/
theorem apply_by_precedence (f : ConfigFile) (line : CommandLine) :
    ((exists failure, f.apply line = .error failure) <->
      exists o, o ∉ line.given ∧ f.Invalid o) ∧
    (forall failure, f.apply line = .error failure <-> exists before o after,
      checked = before ++ o :: after ∧ o ∉ line.given ∧ f.Refused o failure ∧
        forall other, other ∈ before -> other ∈ line.given ∨ ¬ f.Invalid other) ∧
    forall a, f.apply line = .ok a <->
      (forall o, o ∈ line.given ∨ ¬ f.Invalid o) ∧ forall o, a.value o = f.preferred line o := by
  refine ⟨?_, fun failure => apply_eq_error_iff, ?_⟩
  · constructor
    · intro hcase
      rcases hcase with ⟨failure, h⟩
      exact exists_invalid_of_error h
    · intro hcase
      rcases hcase with ⟨o, hgiven, hinvalid⟩
      cases h : f.apply line with
      | error failure => exact ⟨failure, rfl⟩
      | ok a =>
          rcases (apply_ok h).left o with hmem | hvalid
          · exact absurd hmem hgiven
          · exact absurd hinvalid hvalid
  · intro a
    constructor
    · exact apply_ok
    · intro hcase
      rcases hcase with ⟨hvalid, hvalues⟩
      cases h : f.apply line with
      | error failure =>
          rcases exists_invalid_of_error h with ⟨o, hgiven, hinvalid⟩
          rcases hvalid o with hmem | hnot
          · exact absurd hmem hgiven
          · exact absurd hinvalid hnot
      | ok b =>
          have hsame : b = a := by
            apply Arguments.eq_of_value
            intro o
            rw [(apply_ok h).right o, hvalues o]
          rw [hsame]

end ConfigFile
end LoadFleet
