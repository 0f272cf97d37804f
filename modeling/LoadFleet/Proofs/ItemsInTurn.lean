import Mathlib.Data.List.Forall2

/-!
# Items dealt with in turn

What is done with each item of a list, one after the other, gives one value for each of them in
their order, or ends in the failure of the first item that fails.
-/

namespace LoadFleet

theorem mapM_eq_ok_iff {f : α -> Except ε β} {items : List α} {values : List β} :
    items.mapM f = .ok values <->
      List.Forall₂ (fun item value => f item = .ok value) items values := by
  induction items generalizing values with
  | nil =>
      rw [List.mapM_nil, List.forall₂_nil_left_iff]
      constructor
      · intro h
        cases h
        rfl
      · intro heq
        subst heq
        rfl
  | cons item rest ih =>
      rw [List.mapM_cons, List.forall₂_cons_left_iff]
      cases hitem : f item with
      | error fault =>
          constructor
          · intro h
            cases h
          · intro hgiven
            rcases hgiven with ⟨value, others, hvalue, -⟩
            cases hvalue
      | ok first =>
          constructor
          · intro h
            cases hrest : rest.mapM f with
            | error fault =>
                rw [hrest] at h
                cases h
            | ok others =>
                rw [hrest] at h
                cases h
                exact ⟨first, others, rfl, ih.mp hrest, rfl⟩
          · intro hgiven
            rcases hgiven with ⟨value, others, hvalue, hrest, rfl⟩
            cases hvalue
            rw [ih.mpr hrest]
            rfl

theorem exists_of_mapM_eq_ok {f : α -> Except ε β} {items : List α} {values : List β}
    (h : items.mapM f = .ok values) :
    forall item, item ∈ items -> exists value, f item = .ok value := by
  have hboth : List.Forall₂
      (fun item value => (exists v, f item = .ok v) ∧ f item = .ok value) items values :=
    (mapM_eq_ok_iff.mp h).imp fun item value hvalue => ⟨⟨value, hvalue⟩, hvalue⟩
  exact ((List.forall₂_and_left _ _).mp hboth).left

/-- Every item before the one whose failure decides has a value. -/
theorem mapM_eq_error {f : α -> Except ε β} {items : List α} {fault : ε}
    (h : items.mapM f = .error fault) :
    exists before item after, items = before ++ item :: after ∧ f item = .error fault ∧
      forall other, other ∈ before -> exists value, f other = .ok value := by
  induction items with
  | nil => cases h
  | cons first rest ih =>
      rw [List.mapM_cons] at h
      cases hfirst : f first with
      | error failed =>
          rw [hfirst] at h
          cases h
          exact ⟨[], first, rest, rfl, hfirst, nofun⟩
      | ok value =>
          rw [hfirst] at h
          cases hrest : rest.mapM f with
          | ok values =>
              rw [hrest] at h
              cases h
          | error failed =>
              rw [hrest] at h
              cases h
              rcases ih hrest with ⟨before, item, after, hsplit, hitem, hbefore⟩
              refine ⟨first :: before, item, after, congrArg (first :: ·) hsplit, hitem, ?_⟩
              exact List.forall_mem_cons.mpr ⟨⟨value, hfirst⟩, hbefore⟩

end LoadFleet
