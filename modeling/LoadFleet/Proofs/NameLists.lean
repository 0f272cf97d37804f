import LoadFleet.Proofs.AgentNames
import LoadFleet.Proofs.SplitTexts

/-!
# Lists of names in one text

A text that is not blank names the agents of its pieces between commas, so a list given in one text
and one given entry by entry are read alike.  What is read has no blanks to trim and no commas to
split at any more, and is read again from its own text.
-/

namespace LoadFleet
namespace Text

theorem trimmed_eq_empty_iff {s : String} :
    trimmed s = "" <-> forall c, c ∈ s.toList -> isBlank c = true := by
  rw [← trim_eq_nil_iff, ← String.toList_eq_nil_iff, trimmed_toList]

theorem trimmed_trimmed (s : String) : trimmed (trimmed s) = trimmed s := by
  rw [← String.toList_inj, trimmed_toList, trimmed_toList, trim_trim]

theorem not_mem_trimmed {c : Char} {s : String} (h : c ∉ s.toList) : c ∉ (trimmed s).toList := by
  rw [trimmed_toList]
  exact fun hmem => h ((trim_sublist _).mem hmem)

theorem splitString_ne_nil (separator : Char) (s : String) : splitString separator s ≠ [] :=
  mt List.map_eq_nil_iff.mp (pieces_ne_nil separator s.toList)

theorem not_mem_of_mem_splitString {separator : Char} {s piece : String}
    (h : piece ∈ splitString separator s) : separator ∉ piece.toList := by
  rcases List.mem_map.mp h with ⟨cs, hcs, rfl⟩
  rw [String.toList_ofList]
  exact not_mem_of_mem_pieces hcs

end Text

namespace Agent

/-!
## Texts and entries
-/

theorem toList_listText (entries : List String) :
    (listText entries).toList = [','].intercalate (entries.map String.toList) :=
  String.toList_intercalate

theorem listText_splitString (text : String) : listText (Text.splitString ',' text) = text := by
  rw [← String.toList_inj, toList_listText, Text.splitString, List.map_map]
  have hid : String.toList ∘ String.ofList = id := funext fun _ => String.toList_ofList
  rw [hid, List.map_id, Text.pieces_eq_splitOn, List.intercalate_splitOn]

theorem splitString_listText {entries : List String} (hsome : entries ≠ [])
    (hcommas : forall entry, entry ∈ entries -> ',' ∉ entry.toList) :
    Text.splitString ',' (listText entries) = entries := by
  have hfields : forall field, field ∈ entries.map String.toList -> ',' ∉ field :=
    List.forall_mem_map.mpr hcommas
  have hid : String.ofList ∘ String.toList = id := funext fun _ => String.ofList_toList
  rw [Text.splitString, toList_listText, Text.pieces_eq_splitOn,
    List.splitOn_intercalate ',' hfields (mt List.map_eq_nil_iff.mp hsome), List.map_map, hid,
    List.map_id]

theorem readNames_of_blank {text : String} (h : Text.trimmed text = "") : readNames text = .ok [] :=
  if_pos h

theorem readNames_of_not_blank {text : String} (h : Text.trimmed text ≠ "") :
    readNames text = namesOfEntries (Text.splitString ',' text) :=
  if_neg h

theorem readNames_listText {entries : List String}
    (hcommas : forall entry, entry ∈ entries -> ',' ∉ entry.toList)
    (htext : Text.trimmed (listText entries) ≠ "") :
    readNames (listText entries) = namesOfEntries entries := by
  have hsome : entries ≠ [] := by
    intro hnone
    rw [hnone] at htext
    exact htext (by decide)
  rw [readNames_of_not_blank htext, splitString_listText hsome hcommas]

/-!
## Names that were read
-/

theorem map_trimmed_trimmed (entries : List String) :
    (entries.map Text.trimmed).map Text.trimmed = entries.map Text.trimmed := by
  rw [List.map_map]
  exact List.map_congr_left fun entry _ => Text.trimmed_trimmed entry

theorem Proper.map_trimmed {entries : List String} (h : Proper entries) :
    Proper (entries.map Text.trimmed) := by
  constructor
  · rw [List.forall_mem_map]
    intro entry hentry
    rw [Text.trimmed_trimmed]
    exact h.named entry hentry
  · rw [map_trimmed_trimmed]
    exact h.distinct

theorem namesOfEntries_names {entries : List String} (h : Proper entries) :
    namesOfEntries (entries.map Text.trimmed) = .ok (entries.map Text.trimmed) := by
  rw [namesOfEntries_of_proper h.map_trimmed, map_trimmed_trimmed]

theorem listText_not_blank {entries : List String} (hsome : entries ≠ []) (h : Proper entries) :
    Text.trimmed (listText entries) ≠ "" := by
  -- The text starts with the first entry, and not all of its characters are blank.
  cases entries with
  | nil => exact absurd rfl hsome
  | cons entry rest =>
      intro hblank
      apply h.named entry List.mem_cons_self
      rw [Text.trimmed_eq_empty_iff] at hblank ⊢
      intro c hc
      apply hblank c
      rw [toList_listText, List.map_cons]
      cases rest with
      | nil =>
          rw [List.map_nil, List.intercalate_singleton]
          exact hc
      | cons second more =>
          rw [List.map_cons, List.intercalate_cons_cons, List.append_assoc]
          exact List.mem_append_left _ hc

theorem readNames_names {text : String} {names : List String} (h : readNames text = .ok names) :
    readNames (listText names) = .ok names := by
  by_cases htext : Text.trimmed text = ""
  · rw [readNames_of_blank htext] at h
    cases h
    exact readNames_of_blank (by decide)
  · rw [readNames_of_not_blank htext, namesOfEntries_eq_ok_iff] at h
    rcases h with ⟨hproper, rfl⟩
    have hcommas : forall name, name ∈ (Text.splitString ',' text).map Text.trimmed ->
        ',' ∉ name.toList := by
      rw [List.forall_mem_map]
      exact fun _ hpiece => Text.not_mem_trimmed (Text.not_mem_of_mem_splitString hpiece)
    have hsome : (Text.splitString ',' text).map Text.trimmed ≠ [] :=
      mt List.map_eq_nil_iff.mp (Text.splitString_ne_nil ',' text)
    rw [readNames_listText hcommas (listText_not_blank hsome hproper.map_trimmed)]
    exact namesOfEntries_names hproper

/-!
## Reading lists of names
-/

/-- A blank text names nobody, and any other names its trimmed pieces or has the fault of the first
piece that is blank or repeats a name.  The names that were read are read again from their own text,
and entries without commas are read as their text is, faults and all. -/
theorem name_lists_canonical (text : String) :
    let pieces := Text.splitString ',' text
    (listText pieces = text ∧ forall piece, piece ∈ pieces -> ',' ∉ piece.toList) ∧
      (Text.trimmed text = "" -> readNames text = .ok []) ∧
      (Text.trimmed text ≠ "" ->
        (forall names, readNames text = .ok names <->
          Proper pieces ∧ pieces.map Text.trimmed = names) ∧
        forall fault, readNames text = .error fault <-> FirstFault pieces fault) ∧
      (forall names, readNames text = .ok names -> readNames (listText names) = .ok names) ∧
      forall entries, (forall entry, entry ∈ entries -> ',' ∉ entry.toList) ->
        Text.trimmed (listText entries) ≠ "" ->
          namesOfEntries entries = readNames (listText entries) := by
  intro pieces
  refine ⟨⟨listText_splitString text, fun _ => Text.not_mem_of_mem_splitString⟩,
    readNames_of_blank, ?_, fun _ => readNames_names, ?_⟩
  · intro htext
    rw [readNames_of_not_blank htext]
    exact ⟨fun _ => namesOfEntries_eq_ok_iff, fun _ => namesOfEntries_eq_error_iff⟩
  · intro entries hcommas hentries
    exact (readNames_listText hcommas hentries).symm

/-- Blanks around names are dropped for good.  In the other list the second entry repeats a name,
which counts before the blank entry behind it, whichever way the list is given. -/
theorem name_lists_canonical_padded :
    readNames " \t" = .ok [] ∧ readNames " a,b ,c" = .ok ["a", "b", "c"] ∧
      readNames (listText ["a", "b", "c"]) = .ok ["a", "b", "c"] ∧ Proper [" a", "b ", "c"] ∧
      FirstFault ["a", " a", ""] (.repeated "a") ∧
      namesOfEntries ["a", " a", ""] = readNames (listText ["a", " a", ""]) := by
  have hpadded : readNames " a,b ,c" = .ok ["a", "b", "c"] := by decide +kernel
  have hpieces : Text.splitString ',' " a,b ,c" = [" a", "b ", "c"] := by decide +kernel
  have hrepeating : Text.splitString ',' "a, a," = ["a", " a", ""] := by decide +kernel
  rcases name_lists_canonical " \t" with ⟨-, hblank, -⟩
  rcases name_lists_canonical " a,b ,c" with ⟨-, -, hread, hagain, -⟩
  rcases name_lists_canonical "a, a," with ⟨-, -, hrefused, -, hentries⟩
  rw [hpieces] at hread
  rw [hrepeating] at hrefused
  refine ⟨hblank (by decide +kernel), hpadded, hagain _ hpadded, ?_, ?_, ?_⟩
  · exact (((hread (by decide +kernel)).left _).mp hpadded).left
  · exact ((hrefused (by decide +kernel)).right _).mp (by decide +kernel)
  · exact hentries _ (by decide +kernel) (by decide +kernel)

end Agent
end LoadFleet
