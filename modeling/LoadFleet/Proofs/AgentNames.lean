import LoadFleet.Agent.Names
import Mathlib.Data.List.Induction
import Mathlib.Data.List.Nodup

/-!
# Agent names that are accepted

Entries are accepted as names if none is blank and no two are the same without the blanks around
them.  Otherwise the first entry that breaks this, given those before it, is the fault.
-/

namespace LoadFleet
namespace Agent

/-- No entry is blank, and no two entries name the same agent. -/
structure Proper (entries : List String) : Prop where
  named : forall entry, entry ∈ entries -> Text.trimmed entry ≠ ""
  distinct : (entries.map Text.trimmed).Nodup

/-- The fault of the first entry that is blank or names an agent again. -/
inductive FirstFault (entries : List String) : NamesFault -> Prop
  | blank {before after : List String} {entry : String}
      (hentries : entries = before ++ entry :: after) (hbefore : Proper before)
      (hblank : Text.trimmed entry = "") :
      FirstFault entries (.blank (listText entries) before.length)
  | repeated {before after : List String} {entry : String}
      (hentries : entries = before ++ entry :: after) (hbefore : Proper before)
      (hnamed : Text.trimmed entry ≠ "")
      (hknown : Text.trimmed entry ∈ before.map Text.trimmed) :
      FirstFault entries (.repeated (Text.trimmed entry))

/-!
## Checking entries in order
-/

/-- Entries without a fault are passed, and their names are known from then on. -/
theorem namesAfter_append (value : String) {known before : List String} (rest : List String)
    (hnamed : forall entry, entry ∈ before -> Text.trimmed entry ≠ "")
    (hdistinct : (known ++ before.map Text.trimmed).Nodup) :
    namesAfter value known (before ++ rest) =
      namesAfter value (known ++ before.map Text.trimmed) rest := by
  induction before generalizing known with
  | nil => rw [List.map_nil, List.append_nil, List.nil_append]
  | cons entry before ih =>
      rw [List.forall_mem_cons] at hnamed
      rw [List.map_cons] at hdistinct ⊢
      have hnew : Text.trimmed entry ∉ known := by
        intro hmem
        exact List.disjoint_of_nodup_append hdistinct hmem List.mem_cons_self
      rw [List.append_cons] at hdistinct ⊢
      rw [← ih hnamed.right hdistinct, List.cons_append]
      simp only [namesAfter, if_neg hnamed.left, if_neg hnew]

variable {entries : List String}

theorem namesOfEntries_append {before rest : List String} (h : Proper before) :
    namesOfEntries (before ++ rest) =
      namesAfter (listText (before ++ rest)) (before.map Text.trimmed) rest :=
  namesAfter_append _ rest h.named h.distinct

theorem namesOfEntries_of_proper (h : Proper entries) :
    namesOfEntries entries = .ok (entries.map Text.trimmed) := by
  have hall : namesOfEntries (entries ++ []) = .ok (entries.map Text.trimmed) :=
    namesOfEntries_append h
  rw [List.append_nil] at hall
  exact hall

theorem namesOfEntries_of_fault {fault : NamesFault} (h : FirstFault entries fault) :
    namesOfEntries entries = .error fault := by
  cases h with
  | blank hentries hbefore hblank =>
      subst hentries
      rw [namesOfEntries_append hbefore]
      simp only [namesAfter, if_pos hblank, List.length_map]
  | repeated hentries hbefore hnamed hknown =>
      subst hentries
      rw [namesOfEntries_append hbefore]
      simp only [namesAfter, if_neg hnamed, if_pos hknown]

/-!
## The first fault
-/

theorem proper_nil : Proper [] :=
  ⟨nofun, List.nodup_nil⟩

theorem Proper.concat {entry : String} (h : Proper entries) (hnamed : Text.trimmed entry ≠ "")
    (hnew : Text.trimmed entry ∉ entries.map Text.trimmed) : Proper (entries ++ [entry]) := by
  constructor
  · rw [List.forall_mem_append]
    exact ⟨h.named, List.forall_mem_singleton.mpr hnamed⟩
  · rw [List.map_append, List.map_singleton, ← List.concat_eq_append]
    exact h.distinct.concat hnew

theorem FirstFault.append {fault : NamesFault} (h : FirstFault entries fault)
    (more : List String) : exists other, FirstFault (entries ++ more) other := by
  cases h with
  | blank hentries hbefore hblank =>
      rw [hentries, List.append_assoc]
      exact ⟨_, .blank rfl hbefore hblank⟩
  | repeated hentries hbefore hnamed hknown =>
      rw [hentries, List.append_assoc]
      exact ⟨_, .repeated rfl hbefore hnamed hknown⟩

theorem proper_or_fault (entries : List String) :
    Proper entries ∨ exists fault, FirstFault entries fault := by
  induction entries using List.reverseRecOn with
  | nil => exact .inl proper_nil
  | append_singleton entries entry ih =>
      rcases ih with hproper | ⟨fault, hfault⟩
      · by_cases hblank : Text.trimmed entry = ""
        · exact .inr ⟨_, .blank rfl hproper hblank⟩
        · by_cases hknown : Text.trimmed entry ∈ entries.map Text.trimmed
          · exact .inr ⟨_, .repeated rfl hproper hblank hknown⟩
          · exact .inl (hproper.concat hblank hknown)
      · exact .inr (hfault.append [entry])

theorem not_proper_iff : ¬ Proper entries <-> exists fault, FirstFault entries fault := by
  constructor
  · intro h
    exact (proper_or_fault entries).resolve_left h
  · intro hgiven hproper
    rcases hgiven with ⟨fault, hfault⟩
    have hrefused := namesOfEntries_of_fault hfault
    rw [namesOfEntries_of_proper hproper] at hrefused
    cases hrefused

theorem FirstFault.unique {fault other : NamesFault} (h : FirstFault entries fault)
    (hother : FirstFault entries other) : fault = other := by
  have hsame := namesOfEntries_of_fault hother
  rw [namesOfEntries_of_fault h, Except.error.injEq] at hsame
  exact hsame

theorem namesOfEntries_eq_ok_iff {names : List String} :
    namesOfEntries entries = .ok names <-> Proper entries ∧ entries.map Text.trimmed = names := by
  rcases proper_or_fault entries with hproper | ⟨fault, hfault⟩
  · rw [namesOfEntries_of_proper hproper, Except.ok.injEq]
    exact (and_iff_right hproper).symm
  · rw [namesOfEntries_of_fault hfault]
    refine iff_of_false nofun ?_
    intro h
    rcases h with ⟨hproper, -⟩
    exact not_proper_iff.mpr ⟨fault, hfault⟩ hproper

theorem namesOfEntries_eq_error_iff {fault : NamesFault} :
    namesOfEntries entries = .error fault <-> FirstFault entries fault := by
  refine ⟨?_, namesOfEntries_of_fault⟩
  intro h
  rcases proper_or_fault entries with hproper | ⟨other, hother⟩
  · rw [namesOfEntries_of_proper hproper] at h
    cases h
  · rw [namesOfEntries_of_fault hother] at h
    cases h
    exact hother

end Agent
end LoadFleet
