import LoadFleet.Settings.Resolve
import Mathlib.Data.List.Nodup

/-!
# Which arguments can be resolved

Arguments are resolved if four conditions hold of them.  Where some fail, the first of them is what
resolving reports, and of several hosts that are listed again it names the one that is so first.
-/

namespace LoadFleet

/-!
## Hosts
-/

namespace Roster

theorem isEmpty_iff {r : Roster} : r.isEmpty = true <-> r.hosts = [] := by
  simp [isEmpty, hosts, entries, and_assoc]

variable {known hosts : List String}

theorem nodup_concat {name : String} (hknown : known.Nodup) (h : name ∉ known) :
    (known ++ [name]).Nodup := by
  rw [← List.concat_eq_append]
  exact hknown.concat h

theorem firstRepeated_eq_none_iff (hknown : known.Nodup) :
    firstRepeated known hosts = none <-> (known ++ hosts).Nodup := by
  induction hosts generalizing known with
  | nil =>
      rw [List.append_nil]
      exact iff_of_true rfl hknown
  | cons host rest ih =>
      unfold firstRepeated
      by_cases hmem : host ∈ known
      · rw [if_pos hmem]
        refine iff_of_false nofun ?_
        intro hnodup
        exact List.disjoint_of_nodup_append hnodup hmem List.mem_cons_self
      · rw [if_neg hmem, ih (nodup_concat hknown hmem), List.append_assoc]
        rfl

theorem firstRepeated_eq_some_iff {name : String} (hknown : known.Nodup) :
    firstRepeated known hosts = some name <-> exists before after,
      hosts = before ++ name :: after ∧ (known ++ before).Nodup ∧ name ∈ known ++ before := by
  induction hosts generalizing known with
  | nil =>
      refine iff_of_false nofun ?_
      intro hgiven
      rcases hgiven with ⟨before, after, hhosts, -⟩
      cases before <;> cases hhosts
  | cons host rest ih =>
      unfold firstRepeated
      by_cases hmem : host ∈ known
      · rw [if_pos hmem]
        constructor
        · intro h
          cases h
          refine ⟨[], rest, rfl, ?_⟩
          rw [List.append_nil]
          exact ⟨hknown, hmem⟩
        · intro hgiven
          rcases hgiven with ⟨before, after, hhosts, hnodup, -⟩
          cases before with
          | nil =>
              cases hhosts
              rfl
          | cons first before =>
              cases hhosts
              exact (List.disjoint_of_nodup_append hnodup hmem List.mem_cons_self).elim
      · rw [if_neg hmem, ih (nodup_concat hknown hmem)]
        constructor
        · intro hgiven
          rcases hgiven with ⟨before, after, rfl, hbefore⟩
          rw [List.append_assoc] at hbefore
          exact ⟨host :: before, after, rfl, hbefore⟩
        · intro hgiven
          rcases hgiven with ⟨before, after, hhosts, hnodup, hname⟩
          cases before with
          | nil =>
              cases hhosts
              rw [List.append_nil] at hname
              exact absurd hname hmem
          | cons first before =>
              cases hhosts
              refine ⟨before, after, rfl, ?_⟩
              rw [List.append_assoc]
              exact ⟨hnodup, hname⟩

end Roster

/-!
## Conditions
-/

namespace Settings

/-- Arguments name agents, none of them twice, and these can run the pattern that is asked for. -/
structure Resolvable (a : Arguments) (p : Pattern) : Prop where
  someone : a.roster.hosts ≠ []
  distinct : a.roster.hosts.Nodup
  read : Pattern.read a.loadPattern = .ok p
  agents : p.ensureAgents a.roster.count = .ok ()

/-- The first condition that fails, as the failure it is reported with. -/
inductive Obstacle (a : Arguments) : Failure -> Prop
  | noAgents (h : a.roster.hosts = []) : Obstacle a (.validation .noAgents)
  /-- The host is the first in registration order that is listed before. -/
  | duplicate {name : String} {before after : List String}
      (hhosts : a.roster.hosts = before ++ name :: after) (hdistinct : before.Nodup)
      (hname : name ∈ before) : Obstacle a (.validation (.duplicateAgent name))
  | pattern {fault : ConfigFault} (hsomeone : a.roster.hosts ≠ [])
      (hdistinct : a.roster.hosts.Nodup) (hread : Pattern.read a.loadPattern = .error fault) :
      Obstacle a (.config fault)
  | agents {p : Pattern} {fault : ConfigFault} (hsomeone : a.roster.hosts ≠ [])
      (hdistinct : a.roster.hosts.Nodup) (hread : Pattern.read a.loadPattern = .ok p)
      (hagents : p.ensureAgents a.roster.count = .error fault) : Obstacle a (.config fault)

variable {a : Arguments} {p : Pattern}

theorem repeatedHost_of_distinct (hdistinct : a.roster.hosts.Nodup) :
    a.roster.repeatedHost = none :=
  (Roster.firstRepeated_eq_none_iff List.nodup_nil).mpr hdistinct

theorem resolve_of_obstacle {failure : Failure} (h : Obstacle a failure) :
    resolve a = .error failure := by
  unfold resolve
  cases h with
  | noAgents h =>
      rw [if_pos (Roster.isEmpty_iff.mpr h)]
      rfl
  | @duplicate name before after hhosts hdistinct hname =>
      have hsomeone : ¬ a.roster.isEmpty = true := by
        rw [Roster.isEmpty_iff, hhosts]
        exact List.append_ne_nil_of_right_ne_nil before (List.cons_ne_nil name after)
      have hrepeated : a.roster.repeatedHost = some name :=
        (Roster.firstRepeated_eq_some_iff List.nodup_nil).mpr
          ⟨before, after, hhosts, hdistinct, hname⟩
      rw [if_neg hsomeone, hrepeated]
      rfl
  | pattern hsomeone hdistinct hread =>
      rw [if_neg (mt Roster.isEmpty_iff.mp hsomeone), repeatedHost_of_distinct hdistinct, hread]
      rfl
  | @agents p fault hsomeone hdistinct hread hagents =>
      rw [if_neg (mt Roster.isEmpty_iff.mp hsomeone), repeatedHost_of_distinct hdistinct, hread]
      show (p.ensureAgents a.roster.count).mapError Failure.config >>= _ = _
      rw [hagents]
      rfl

theorem resolve_of_resolvable (h : Resolvable a p) :
    exists s, resolve a = .ok s ∧ s.roster = a.roster ∧ s.pattern = p ∧
      s.measurement = ⟨a.latencyRate.value, a.intervalSize.value, a.maxTries.value⟩ := by
  unfold resolve
  rw [if_neg (mt Roster.isEmpty_iff.mp h.someone), repeatedHost_of_distinct h.distinct, h.read]
  show exists s, (p.ensureAgents a.roster.count).mapError Failure.config >>= _ = .ok s ∧ _
  rw [h.agents]
  exact ⟨_, rfl, rfl, rfl, rfl⟩

theorem obstacle_or_resolvable (a : Arguments) :
    (exists failure, Obstacle a failure) ∨ exists p, Resolvable a p := by
  by_cases hnone : a.roster.hosts = []
  · exact .inl ⟨_, .noAgents hnone⟩
  cases hrepeated : a.roster.repeatedHost with
  | some name =>
      rcases (Roster.firstRepeated_eq_some_iff List.nodup_nil).mp hrepeated with
        ⟨before, after, hhosts, hdistinct, hname⟩
      exact .inl ⟨_, .duplicate hhosts hdistinct hname⟩
  | none =>
      have hdistinct : a.roster.hosts.Nodup :=
        (Roster.firstRepeated_eq_none_iff List.nodup_nil).mp hrepeated
      cases hread : Pattern.read a.loadPattern with
      | error fault => exact .inl ⟨_, .pattern hnone hdistinct hread⟩
      | ok p =>
          cases hagents : p.ensureAgents a.roster.count with
          | error fault => exact .inl ⟨_, .agents hnone hdistinct hread hagents⟩
          | ok => exact .inr ⟨p, hnone, hdistinct, hread, hagents⟩

theorem resolve_eq_error_iff {failure : Failure} :
    resolve a = .error failure <-> Obstacle a failure := by
  refine ⟨?_, resolve_of_obstacle⟩
  intro h
  rcases obstacle_or_resolvable a with ⟨other, hother⟩ | ⟨p, hp⟩
  · rw [resolve_of_obstacle hother] at h
    cases h
    exact hother
  · rcases resolve_of_resolvable hp with ⟨s, hs, -⟩
    rw [hs] at h
    cases h

/-- Arguments are resolved where all conditions hold, to settings of their roster and pattern and
with the numbers they give. -/
theorem resolvable_of_resolve {s : Settings} (h : resolve a = .ok s) :
    s.roster = a.roster ∧ Resolvable a s.pattern ∧
      s.measurement = ⟨a.latencyRate.value, a.intervalSize.value, a.maxTries.value⟩ := by
  rcases obstacle_or_resolvable a with ⟨failure, hfailure⟩ | ⟨p, hp⟩
  · rw [resolve_of_obstacle hfailure] at h
    cases h
  · rcases resolve_of_resolvable hp with ⟨other, hother, hroster, rfl, hmeasurement⟩
    rw [hother] at h
    cases h
    exact ⟨hroster, hp, hmeasurement⟩

/-- Settings that were resolved have the agents that their pattern needs, and numbers that may not
be zero are not. -/
theorem resolve_ok {s : Settings} (h : resolve a = .ok s) :
    s.pattern.ensureAgents s.roster.count = .ok () ∧
      0 < s.measurement.latencyRate.toNat ∧ 0 < s.measurement.maxTries.toNat := by
  rcases resolvable_of_resolve h with ⟨hroster, hresolvable, hmeasurement⟩
  have hpositive : forall n : Positive32, 0 < n.value.toNat := by
    intro n
    apply Nat.pos_of_ne_zero
    intro hzero
    exact n.value_ne_zero (UInt32.toNat_inj.mp hzero)
  rw [hroster, hmeasurement]
  exact ⟨hresolvable.agents, hpositive a.latencyRate, hpositive a.maxTries⟩

end Settings
end LoadFleet
