import LoadFleet.Text.Blank
import LoadFleet.Text.Pieces
import Mathlib.Data.List.DropRight

/-!
# Trimming and splitting

A text without blanks is not changed by trimming, nor is one that was trimmed before.  Pieces hold
no separator, and pieces that hold none are found again when separators stand in front of all but
the first, or behind each of them.
-/

namespace LoadFleet
namespace Text

/-!
## Trimming
-/

theorem trimStart_of_not_blank {cs : List Char} (h : forall c, c ∈ cs -> isBlank c = false) :
    trimStart cs = cs := by
  cases cs with
  | nil => rfl
  | cons c rest => exact List.dropWhile_cons_of_neg (Bool.eq_false_iff.mp (h c List.mem_cons_self))

theorem trim_of_not_blank {cs : List Char} (h : forall c, c ∈ cs -> isBlank c = false) :
    trim cs = cs := by
  have hreverse : forall c, c ∈ cs.reverse -> isBlank c = false :=
    fun c hc => h c (List.mem_reverse.mp hc)
  rw [trim, trimStart_of_not_blank h, trimEnd, trimStart_of_not_blank hreverse,
    List.reverse_reverse]

theorem trim_eq_rdropWhile (cs : List Char) :
    trim cs = (cs.dropWhile isBlank).rdropWhile isBlank :=
  rfl

/-- The first character that is left at the front is still the first when the end is trimmed. -/
theorem trimStart_trimEnd {cs : List Char} (h : trimStart cs = cs) :
    trimStart (trimEnd cs) = trimEnd cs := by
  have hshorter : trimEnd cs <+: cs := List.rdropWhile_prefix isBlank cs
  unfold trimStart at h ⊢
  rw [List.dropWhile_eq_self_iff] at h ⊢
  intro hlength
  rw [hshorter.getElem hlength]
  exact h (hlength.trans_le hshorter.length_le)

theorem trim_trim (cs : List Char) : trim (trim cs) = trim cs := by
  have hfront : trimStart (trimStart cs) = trimStart cs := List.dropWhile_idempotent isBlank cs
  unfold trim
  rw [trimStart_trimEnd hfront]
  exact List.rdropWhile_idempotent isBlank (trimStart cs)

theorem trim_sublist (cs : List Char) : (trim cs).Sublist cs :=
  (List.rdropWhile_prefix isBlank _).sublist.trans (List.dropWhile_sublist isBlank)

theorem trim_eq_nil_iff {cs : List Char} :
    trim cs = [] <-> forall c, c ∈ cs -> isBlank c = true := by
  rw [trim_eq_rdropWhile, List.rdropWhile_eq_nil_iff, ← List.dropWhile_eq_nil_iff,
    List.dropWhile_idempotent, List.dropWhile_eq_nil_iff]

/-!
## Splitting
-/

section

variable {separator : Char}

theorem pieces_cons_of_ne {c : Char} {rest first : List Char} {others : List (List Char)}
    (hc : c ≠ separator) (hrest : pieces separator rest = first :: others) :
    pieces separator (c :: rest) = (c :: first) :: others := by
  simp only [pieces, if_neg hc, hrest]

theorem pieces_eq_splitOn (separator : Char) (cs : List Char) :
    pieces separator cs = cs.splitOn separator := by
  induction cs with
  | nil => rfl
  | cons c rest ih =>
      rw [List.splitOn_cons_eq_if_modifyHead, ← ih]
      by_cases hc : c = separator
      · simp only [pieces, hc, beq_self_eq_true, if_true]
      · rcases List.exists_cons_of_ne_nil (pieces_ne_nil separator rest) with
          ⟨first, others, hpieces⟩
        rw [if_neg (by simpa using hc), pieces_cons_of_ne hc hpieces, hpieces, List.modifyHead_cons]

theorem not_mem_of_mem_pieces {cs piece : List Char} (h : piece ∈ pieces separator cs) :
    separator ∉ piece := by
  induction cs generalizing piece with
  | nil =>
      rw [pieces, List.mem_singleton] at h
      rw [h]
      exact List.not_mem_nil
  | cons c rest ih =>
      by_cases hc : c = separator
      · simp only [pieces, hc, if_true, List.mem_cons] at h
        rcases h with rfl | hmem
        · exact List.not_mem_nil
        · exact ih hmem
      · rcases List.exists_cons_of_ne_nil (pieces_ne_nil separator rest) with
          ⟨first, others, hpieces⟩
        rw [pieces_cons_of_ne hc hpieces, List.mem_cons] at h
        rw [hpieces] at ih
        rcases h with rfl | hmem
        · exact List.not_mem_cons_of_ne_of_not_mem (Ne.symm hc) (ih List.mem_cons_self)
        · exact ih (List.mem_cons_of_mem first hmem)

theorem pieces_of_not_mem {cs : List Char} (h : separator ∉ cs) : pieces separator cs = [cs] := by
  rw [pieces_eq_splitOn]
  exact List.splitOn_eq_singleton h

theorem pieces_append {cs : List Char} (h : separator ∉ cs) (rest : List Char) :
    pieces separator (cs ++ separator :: rest) = cs :: pieces separator rest := by
  rw [pieces_eq_splitOn, pieces_eq_splitOn]
  exact List.splitOn_append_cons_self_of_not_mem h rest

theorem pieces_fields {word : List Char} {fields : List (List Char)} (hword : separator ∉ word)
    (hfields : forall field, field ∈ fields -> separator ∉ field) :
    pieces separator (word ++ fields.flatMap fun field => separator :: field) = word :: fields := by
  induction fields generalizing word with
  | nil =>
      rw [List.flatMap_nil, List.append_nil]
      exact pieces_of_not_mem hword
  | cons field rest ih =>
      rw [List.forall_mem_cons] at hfields
      rw [List.flatMap_cons, List.cons_append, pieces_append hword, ih hfields.left hfields.right]

/-- Lines without a separator are found again when each ends in one, and nothing is left. -/
theorem pieces_lines {lines : List (List Char)}
    (hlines : forall line, line ∈ lines -> separator ∉ line) :
    pieces separator (lines.flatMap fun line => line ++ [separator]) = lines ++ [[]] := by
  induction lines with
  | nil => rfl
  | cons line rest ih =>
      rw [List.forall_mem_cons] at hlines
      rw [List.flatMap_cons, List.append_assoc, List.singleton_append, pieces_append hlines.left,
        ih hlines.right, List.cons_append]

end

end Text
end LoadFleet
