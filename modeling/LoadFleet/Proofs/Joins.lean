import LoadFleet.Link.Medium
import LoadFleet.Proofs.ItemsInTurn

/-!
# Joined reads

A lawful join gives a reply for each read, or the failure of one of them.  It is never relied on for
more than that, except where no read had to be waited for: then the first failure decides.  Reads
that have all ended are joined lawfully if silence counts only behind everything that was heard.
-/

namespace LoadFleet

namespace LawfulJoin

variable {join : List Ending -> Except Failure (List Reply)} {endings : List Ending}

theorem ok_of_results (hjoin : LawfulJoin join) {replies : List Reply}
    (h : endings.map Ending.result = replies.map .ok) : join endings = .ok replies :=
  (hjoin.all_iff endings replies).mpr h

theorem results_of_ok (hjoin : LawfulJoin join) {replies : List Reply}
    (h : join endings = .ok replies) :
    List.Forall₂ (fun ending r => ending.result = .ok r) endings replies := by
  have hresults := (hjoin.all_iff endings replies).mp h
  rw [← List.forall₂_eq_eq_eq, List.forall₂_map_left_iff, List.forall₂_map_right_iff] at hresults
  exact hresults

/-- Where nothing was waited for, every read before the one that decides has brought in a reply. -/
theorem first_of_error (hjoin : LawfulJoin join)
    (hready : forall ending, ending ∈ endings -> ending.waited = false) {failure : Failure}
    (h : join endings = .error failure) :
    exists before ending after, endings = before ++ ending :: after ∧
      ending.result = .error failure ∧
      forall other, other ∈ before -> exists r, other.result = .ok r := by
  rw [hjoin.inOrder endings hready] at h
  exact mapM_eq_error h

end LawfulJoin

namespace Ending

theorem mapM_result_eq_ok_iff {endings : List Ending} {replies : List Reply} :
    endings.mapM result = .ok replies <-> endings.map result = replies.map .ok := by
  rw [mapM_eq_ok_iff, ← List.forall₂_eq_eq_eq, List.forall₂_map_left_iff,
    List.forall₂_map_right_iff]

/-- The join finds a failure among the reads that did not wait, or among all of them. -/
theorem join_cases (endings : List Ending) :
    (exists failure, (endings.filter fun ending => !ending.waited).mapM result = .error failure ∧
      join endings = .error failure) ∨
    (exists replies, (endings.filter fun ending => !ending.waited).mapM result = .ok replies ∧
      join endings = endings.mapM result) := by
  unfold join
  cases (endings.filter fun ending => !ending.waited).mapM result with
  | error failure => exact .inl ⟨failure, rfl, rfl⟩
  | ok replies => exact .inr ⟨replies, rfl, rfl⟩

theorem found_of_mapM {endings : List Ending} {failure : Failure}
    (h : endings.mapM result = .error failure) :
    exists ending, ending ∈ endings ∧ ending.result = .error failure := by
  rcases mapM_eq_error h with ⟨before, ending, after, rfl, hresult, -⟩
  exact ⟨ending, List.mem_append_right before List.mem_cons_self, hresult⟩

theorem lawful_join : LawfulJoin join where
  all_iff endings replies := by
    rw [← mapM_result_eq_ok_iff]
    rcases join_cases endings with ⟨failure, hheard, hjoin⟩ | ⟨-, -, hjoin⟩
    · -- The read that failed is also among all reads, so these do not all succeed.
      rw [hjoin]
      constructor
      · nofun
      · intro hall
        rcases found_of_mapM hheard with ⟨ending, hmem, hresult⟩
        rcases exists_of_mapM_eq_ok hall ending (List.mem_of_mem_filter hmem) with ⟨r, hr⟩
        rw [hr] at hresult
        cases hresult
    · rw [hjoin]
  found endings failure h := by
    rcases join_cases endings with ⟨failed, hheard, hjoin⟩ | ⟨-, -, hjoin⟩
    · rw [hjoin] at h
      cases h
      rcases found_of_mapM hheard with ⟨ending, hmem, hresult⟩
      exact ⟨ending, List.mem_of_mem_filter hmem, hresult⟩
    · rw [hjoin] at h
      exact found_of_mapM h
  inOrder endings hready := by
    have hfilter : (endings.filter fun ending => !ending.waited) = endings := by
      apply List.filter_eq_self.mpr
      intro ending hmem
      rw [hready ending hmem]
      rfl
    rcases join_cases endings with ⟨failure, hheard, hjoin⟩ | ⟨-, -, hjoin⟩
    · rw [hjoin, ← hheard, hfilter]
    · exact hjoin

end Ending
end LoadFleet
