import LoadFleet.Pattern.Reading
import LoadFleet.Proofs.ItemsInTurn
import LoadFleet.Proofs.Numerals
import LoadFleet.Proofs.SplitTexts

/-!
# The grammar of load patterns

A text spells a pattern if its kind stands first, in any case of its letters, and its numbers follow
behind colons.  A pattern is read from exactly the texts that spell it.  What is written for a
pattern spells it as long as its numbers make sense.
-/

namespace LoadFleet

/-!
## Letters in any case
-/

def SameLetters (word letters : List Char) : Prop :=
  List.Forall₂ (fun c letter => c = letter ∨ c = letter.toUpper) word letters

theorem toNat_toLower (c : Char) :
    c.toLower.toNat = if 65 ≤ c.toNat ∧ c.toNat ≤ 90 then c.toNat + 32 else c.toNat := by
  have hupper : c.val ≥ 'A'.val ∧ c.val ≤ 'Z'.val <-> 65 ≤ c.toNat ∧ c.toNat ≤ 90 := by
    rw [ge_iff_le, UInt32.le_iff_toNat_le, UInt32.le_iff_toNat_le]
    rfl
  unfold Char.toLower
  by_cases h : 65 ≤ c.toNat ∧ c.toNat ≤ 90
  · rw [dif_pos (hupper.mpr h), if_pos h]
    have hle : c.val.toNat ≤ 90 := h.right
    have hstep : (32 : UInt32).toNat = 32 := rfl
    show (c.val + 32).toNat = c.val.toNat + 32
    rw [UInt32.toNat_add, hstep, Nat.mod_eq_of_lt (by omega)]
  · rw [dif_neg (mt hupper.mp h), if_neg h]

theorem toNat_toUpper {letter : Char} (h : letter.isLower = true) :
    97 ≤ letter.toNat ∧ letter.toNat ≤ 122 ∧ letter.toUpper.toNat = letter.toNat - 32 := by
  have hlower : 'a'.val ≤ letter.val ∧ letter.val ≤ 'z'.val := by
    have hboth := Bool.and_eq_true_iff.mp h
    exact ⟨of_decide_eq_true hboth.left, of_decide_eq_true hboth.right⟩
  have hleast : 97 ≤ letter.val.toNat := UInt32.le_iff_toNat_le.mp hlower.left
  have hmost : letter.val.toNat ≤ 122 := UInt32.le_iff_toNat_le.mp hlower.right
  refine ⟨hleast, hmost, ?_⟩
  unfold Char.toUpper
  rw [dif_pos hlower]
  -- The step from a lower-case letter to its upper-case form is taken modulo the word size.
  have hstep : ('A'.val - 'a'.val).toNat = 4294967264 := rfl
  show (letter.val + ('A'.val - 'a'.val)).toNat = letter.val.toNat - 32
  rw [UInt32.toNat_add, hstep]
  omega

/-- A character in lower case is a letter where it is one of the two forms of the letter. -/
theorem toLower_eq_iff {c letter : Char} (h : letter.isLower = true) :
    c.toLower = letter <-> c = letter ∨ c = letter.toUpper := by
  rcases toNat_toUpper h with ⟨hleast, hmost, hupper⟩
  rw [← Char.toNat_inj, ← Char.toNat_inj, ← Char.toNat_inj, toNat_toLower, hupper]
  split <;> omega

theorem map_toLower_eq_iff {word letters : List Char}
    (h : forall letter, letter ∈ letters -> letter.isLower = true) :
    word.map Char.toLower = letters <-> SameLetters word letters := by
  unfold SameLetters
  induction letters generalizing word with
  | nil => rw [List.map_eq_nil_iff, List.forall₂_nil_right_iff]
  | cons letter letters ih =>
      rw [List.forall_mem_cons] at h
      cases word with
      | nil => exact ⟨nofun, nofun⟩
      | cons c word =>
          rw [List.map_cons, List.cons.injEq, List.forall₂_cons, toLower_eq_iff h.left, ih h.right]

namespace PatternKind

theorem isLower_of_mem_word {kind : PatternKind} {letter : Char} (h : letter ∈ kind.word.toList) :
    letter.isLower = true := by
  have hall : kind.word.toList.all Char.isLower = true := by
    cases kind <;> decide
  exact List.all_eq_true.mp hall letter h

theorem ofWord?_eq_some_iff {word : List Char} {kind : PatternKind} :
    ofWord? word = some kind <-> SameLetters word kind.word.toList := by
  rw [← map_toLower_eq_iff fun letter => isLower_of_mem_word]
  constructor
  · intro h
    unfold ofWord? at h
    have hword := List.find?_some h
    exact (beq_iff_eq.mp hword).symm
  · intro h
    -- The words of the kinds differ, so no other kind is found before.
    rw [ofWord?, h]
    cases kind <;> decide

end PatternKind

/-!
## Numbers
-/

namespace Pattern

def Ascends (p : Pattern) : Prop :=
  forall start stop stride, p = .step start stop stride -> start < stop

/-- The numbers of a pattern are positive, and a sweep ends above its start. -/
structure Sensible (p : Pattern) : Prop where
  positive : forall n, n ∈ p.numbers -> 1 ≤ n
  ascends : p.Ascends

def StartsWith (text : String) (kind : PatternKind) : Prop :=
  exists word fields,
    Text.pieces ':' (Text.trim text.toList) = word :: fields ∧ SameLetters word kind.word.toList

/-- A field is a numeral of a positive number, with or without blanks around it. -/
def SpellsNumber (field : List Char) (n : UInt32) : Prop :=
  Text.Numeral (Text.trim field) n.toNat ∧ 1 ≤ n

/-- A text is the word of a kind and behind it one field for every number of the pattern, with
colons in front of the fields and with or without blanks around the whole. -/
def Spelled (text : String) (p : Pattern) : Prop :=
  exists word fields,
    Text.pieces ':' (Text.trim text.toList) = word :: fields ∧
      SameLetters word p.kind.word.toList ∧ List.Forall₂ SpellsNumber fields p.numbers ∧ p.Ascends

theorem length_numbers (p : Pattern) : p.numbers.length = p.kind.arity := by
  cases p <;> rfl

theorem readNumber_eq_ok_iff {field : List Char} {n : UInt32} :
    readNumber field = .ok n <-> SpellsNumber field n := by
  rw [SpellsNumber, ← Text.readWord32_eq_ok_iff]
  unfold readNumber
  cases Text.readWord32 (Text.trim field) with
  | error fault => exact ⟨nofun, nofun⟩
  | ok m =>
      have hpositive : m ≠ 0 <-> 1 ≤ m := by
        rw [UInt32.le_iff_toNat_le, Ne, ← UInt32.toNat_inj]
        exact Nat.one_le_iff_ne_zero.symm
      dsimp only
      by_cases hm : m = 0
      · rw [if_pos hm]
        constructor
        · intro h
          cases h
        · intro hgiven
          rcases hgiven with ⟨hn, hle⟩
          cases hn
          exact absurd hm (hpositive.mpr hle)
      · rw [if_neg hm]
        constructor
        · intro h
          cases h
          exact ⟨rfl, hpositive.mp hm⟩
        · intro hgiven
          rcases hgiven with ⟨hn, -⟩
          cases hn
          rfl

/-- The numbers make a pattern of a kind if they are as many as the kind asks for and do not let a
sweep end where it starts or below. -/
theorem ofNumbers_eq_ok_iff {kind : PatternKind} {numbers : List UInt32} {p : Pattern} :
    ofNumbers kind numbers = .ok p <-> p.kind = kind ∧ p.numbers = numbers ∧ p.Ascends := by
  constructor
  · intro h
    unfold ofNumbers at h
    split at h
    · cases h
      exact ⟨rfl, rfl, nofun⟩
    · split at h
      · cases h
      · rename_i hlt
        cases h
        refine ⟨rfl, rfl, ?_⟩
        intro start stop stride heq
        cases heq
        exact UInt32.not_le.mp hlt
    · cases h
      exact ⟨rfl, rfl, nofun⟩
    · cases h
      exact ⟨rfl, rfl, nofun⟩
    · cases h
  · intro hgiven
    rcases hgiven with ⟨rfl, rfl, hascends⟩
    cases p with
    | fixed rate => rfl
    | step start stop stride => exact if_neg (UInt32.not_le.mpr (hascends start stop stride rfl))
    | test rate samples => rfl
    | corr rate samples => rfl

theorem readPieces_eq_ok_iff {kind : PatternKind} {fields : List (List Char)} {p : Pattern} :
    readPieces kind fields = .ok p <->
      p.kind = kind ∧ List.Forall₂ SpellsNumber fields p.numbers ∧ p.Ascends := by
  have hmapM : forall numbers, fields.mapM readNumber = .ok numbers <->
      List.Forall₂ SpellsNumber fields numbers := by
    intro numbers
    simp only [mapM_eq_ok_iff, readNumber_eq_ok_iff]
  constructor
  · intro h
    unfold readPieces at h
    split at h
    · cases h
    · cases hnumbers : fields.mapM readNumber with
      | error defect =>
          rw [hnumbers] at h
          cases h
      | ok numbers =>
          rw [hnumbers] at h
          rcases ofNumbers_eq_ok_iff.mp h with ⟨hkind, rfl, hascends⟩
          exact ⟨hkind, (hmapM p.numbers).mp hnumbers, hascends⟩
  · intro hgiven
    rcases hgiven with ⟨hkind, hfields, hascends⟩
    have hlength : fields.length = kind.arity := by
      rw [hfields.length_eq, length_numbers, hkind]
    unfold readPieces
    rw [if_neg (not_not_intro hlength), (hmapM p.numbers).mpr hfields]
    exact ofNumbers_eq_ok_iff.mpr ⟨hkind, rfl, hascends⟩

/-!
## Texts
-/

section

variable {text : String} {word : List Char} {fields : List (List Char)}
  (hpieces : Text.pieces ':' (Text.trim text.toList) = word :: fields)

include hpieces

theorem startsWith_iff {kind : PatternKind} :
    StartsWith text kind <-> PatternKind.ofWord? word = some kind := by
  rw [PatternKind.ofWord?_eq_some_iff]
  constructor
  · intro h
    rcases h with ⟨word', fields', hpieces', hword⟩
    rw [hpieces] at hpieces'
    rcases List.cons.inj hpieces' with ⟨rfl, -⟩
    exact hword
  · intro hword
    exact ⟨word, fields, hpieces, hword⟩

theorem read_of_unknown (hword : PatternKind.ofWord? word = none) :
    read text = .error (.unknownPattern (Text.trimmed text)) := by
  simp only [read, hpieces, hword, Text.trimmed]

theorem read_of_kind {kind : PatternKind} (hword : PatternKind.ofWord? word = some kind) :
    read text = (readPieces kind fields).mapError (.invalidPattern (Text.trimmed text)) := by
  simp only [read, hpieces, hword, Text.trimmed]

theorem spelled_iff {p : Pattern} :
    Spelled text p <-> PatternKind.ofWord? word = some p.kind ∧
      List.Forall₂ SpellsNumber fields p.numbers ∧ p.Ascends := by
  rw [PatternKind.ofWord?_eq_some_iff]
  constructor
  · intro h
    rcases h with ⟨word', fields', hpieces', hspelled⟩
    rw [hpieces] at hpieces'
    rcases List.cons.inj hpieces' with ⟨rfl, rfl⟩
    exact hspelled
  · intro hspelled
    exact ⟨word, fields, hpieces, hspelled⟩

end

theorem exists_pieces (text : String) :
    exists word fields, Text.pieces ':' (Text.trim text.toList) = word :: fields :=
  List.exists_cons_of_ne_nil (Text.pieces_ne_nil ':' _)

/-- A pattern is read from exactly the texts that spell it. -/
theorem read_eq_ok_iff {text : String} {p : Pattern} : read text = .ok p <-> Spelled text p := by
  rcases exists_pieces text with ⟨word, fields, hpieces⟩
  rw [spelled_iff hpieces]
  cases hword : PatternKind.ofWord? word with
  | none =>
      rw [read_of_unknown hpieces hword]
      exact ⟨nofun, nofun⟩
  | some kind =>
      rw [read_of_kind hpieces hword, Option.some.injEq, eq_comm (a := kind),
        ← readPieces_eq_ok_iff]
      cases readPieces kind fields with
      | error defect => exact ⟨nofun, nofun⟩
      | ok q =>
          constructor
          · intro h
            cases h
            rfl
          · intro h
            cases h
            rfl

/-- A text that is refused has no kind in front, or one in front of a defect. -/
theorem read_error {text : String} {fault : ConfigFault} (h : read text = .error fault) :
    (fault = .unknownPattern (Text.trimmed text) ∧ forall kind, ¬ StartsWith text kind) ∨
      exists kind defect, fault = .invalidPattern (Text.trimmed text) defect ∧
        StartsWith text kind := by
  rcases exists_pieces text with ⟨word, fields, hpieces⟩
  cases hword : PatternKind.ofWord? word with
  | none =>
      rw [read_of_unknown hpieces hword] at h
      cases h
      refine Or.inl ⟨rfl, ?_⟩
      intro kind hkind
      rw [startsWith_iff hpieces, hword] at hkind
      cases hkind
  | some kind =>
      rw [read_of_kind hpieces hword] at h
      cases hfields : readPieces kind fields with
      | error defect =>
          rw [hfields] at h
          cases h
          exact Or.inr ⟨kind, defect, rfl, (startsWith_iff hpieces).mpr hword⟩
      | ok p =>
          rw [hfields] at h
          cases h

theorem startsWith_of_spelled {text : String} {p : Pattern} (h : Spelled text p) :
    StartsWith text p.kind := by
  rcases h with ⟨word, fields, hpieces, hword, -⟩
  exact ⟨word, fields, hpieces, hword⟩

theorem read_eq_unknown_iff {text : String} :
    read text = .error (.unknownPattern (Text.trimmed text)) <->
      forall kind, ¬ StartsWith text kind := by
  constructor
  · intro h
    rcases read_error h with ⟨-, hnone⟩ | ⟨kind, defect, hfault, -⟩
    · exact hnone
    · cases hfault
  · intro hnone
    cases h : read text with
    | ok p => exact absurd (startsWith_of_spelled (read_eq_ok_iff.mp h)) (hnone p.kind)
    | error fault =>
        rcases read_error h with ⟨rfl, -⟩ | ⟨kind, defect, -, hkind⟩
        · rfl
        · exact absurd hkind (hnone kind)

theorem exists_invalid_iff {text : String} :
    (exists defect, read text = .error (.invalidPattern (Text.trimmed text) defect)) <->
      (exists kind, StartsWith text kind) ∧ forall p, ¬ Spelled text p := by
  constructor
  · intro hgiven
    rcases hgiven with ⟨defect, h⟩
    have hunspelled : forall p, ¬ Spelled text p := by
      intro p hp
      rw [← read_eq_ok_iff, h] at hp
      cases hp
    rcases read_error h with ⟨hfault, -⟩ | ⟨kind, -, -, hkind⟩
    · cases hfault
    · exact ⟨⟨kind, hkind⟩, hunspelled⟩
  · intro hgiven
    rcases hgiven with ⟨⟨kind, hkind⟩, hunspelled⟩
    cases h : read text with
    | ok p => exact absurd (read_eq_ok_iff.mp h) (hunspelled p)
    | error fault =>
        rcases read_error h with ⟨-, hnone⟩ | ⟨other, defect, rfl, -⟩
        · exact absurd hkind (hnone kind)
        · exact ⟨defect, rfl⟩

/-!
## Written patterns
-/

theorem colon_not_digit : ¬ ':'.isDigit = true := by
  decide

theorem isBlank_of_isDigit {c : Char} (h : c.isDigit = true) : Text.isBlank c = false := by
  rcases Text.isDigit_iff.mp h with ⟨hzero, hnine⟩
  have hleast : 48 ≤ c.toNat := hzero
  have hmost : c.toNat ≤ 57 := hnine
  have hapart : forall range, range ∈ Text.blankRanges -> range.2 < 48 ∨ 57 < range.1 := by
    decide
  unfold Text.isBlank
  rw [List.any_eq_false]
  intro range hrange hinside
  rw [Bool.and_eq_true, decide_eq_true_iff, decide_eq_true_iff] at hinside
  have hout := hapart range hrange
  omega

theorem isBlank_of_mem_word {kind : PatternKind} {c : Char} (h : c ∈ kind.word.toList) :
    Text.isBlank c = false := by
  have hall : kind.word.toList.all (fun c => !Text.isBlank c) = true := by
    cases kind <;> decide
  have hc := List.all_eq_true.mp hall c h
  rwa [Bool.not_eq_true'] at hc

theorem colon_not_mem_word (kind : PatternKind) : ':' ∉ kind.word.toList := by
  cases kind <;> decide

theorem colon_not_mem_decimal (n : Nat) : ':' ∉ Text.decimal n := by
  intro h
  exact colon_not_digit (Text.isDigit_of_mem_decimal h)

theorem isBlank_of_mem_decimal {n : Nat} {c : Char} (h : c ∈ Text.decimal n) :
    Text.isBlank c = false :=
  isBlank_of_isDigit (Text.isDigit_of_mem_decimal h)

theorem isBlank_of_mem_write {p : Pattern} {c : Char} (h : c ∈ p.write) :
    Text.isBlank c = false := by
  rcases List.mem_append.mp h with hword | hnumbers
  · exact isBlank_of_mem_word hword
  · rcases List.mem_flatMap.mp hnumbers with ⟨n, -, hfield⟩
    rcases List.mem_cons.mp hfield with rfl | hdigit
    · rfl
    · exact isBlank_of_mem_decimal hdigit

theorem pieces_text (p : Pattern) :
    Text.pieces ':' (Text.trim p.text.toList) =
      p.kind.word.toList :: p.numbers.map fun n => Text.decimal n.toNat := by
  have hfields : forall field, field ∈ p.numbers.map (fun n => Text.decimal n.toNat) ->
      ':' ∉ field := by
    intro field hfield
    rcases List.mem_map.mp hfield with ⟨n, -, rfl⟩
    exact colon_not_mem_decimal n.toNat
  have hwrite : p.write = p.kind.word.toList ++
      (p.numbers.map fun n => Text.decimal n.toNat).flatMap fun field => ':' :: field := by
    rw [List.flatMap_map]
    rfl
  rw [text, String.toList_ofList, Text.trim_of_not_blank fun c => isBlank_of_mem_write, hwrite,
    Text.pieces_fields (colon_not_mem_word p.kind) hfields]

theorem sameLetters_word (kind : PatternKind) :
    SameLetters kind.word.toList kind.word.toList :=
  List.forall₂_same.mpr fun _ _ => Or.inl rfl

theorem spellsNumber_decimal_iff {n : UInt32} :
    SpellsNumber (Text.decimal n.toNat) n <-> 1 ≤ n := by
  rw [SpellsNumber, Text.trim_of_not_blank fun c => isBlank_of_mem_decimal]
  exact and_iff_right (Text.numeral_decimal n.toNat)

/-- What is written for a pattern spells it if the pattern is sensible. -/
theorem spelled_text_iff {p : Pattern} : Spelled p.text p <-> p.Sensible := by
  rw [spelled_iff (pieces_text p), PatternKind.ofWord?_eq_some_iff,
    List.forall₂_map_left_iff, List.forall₂_same]
  simp only [spellsNumber_decimal_iff]
  constructor
  · intro h
    rcases h with ⟨-, hpositive, hascends⟩
    exact ⟨hpositive, hascends⟩
  · intro h
    rcases h with ⟨hpositive, hascends⟩
    exact ⟨sameLetters_word p.kind, hpositive, hascends⟩

theorem positive_of_spellsNumber {fields : List (List Char)} {numbers : List UInt32}
    (h : List.Forall₂ SpellsNumber fields numbers) : forall n, n ∈ numbers -> 1 ≤ n := by
  induction h with
  | nil => exact nofun
  | cons hnumber _ ih => exact List.forall_mem_cons.mpr ⟨hnumber.right, ih⟩

theorem sensible_of_read {text : String} {p : Pattern} (h : read text = .ok p) : p.Sensible := by
  rcases read_eq_ok_iff.mp h with ⟨word, fields, -, -, hfields, hascends⟩
  exact ⟨positive_of_spellsNumber hfields, hascends⟩

/-- A text gives the pattern it spells, and if it spells none, what it is refused for depends on
whether a kind stands in front.  A pattern comes back from what is written for it if and only if it
is sensible, as every pattern that was read is. -/
theorem read_spellings (text : String) :
    (forall p, read text = .ok p <-> Spelled text p) ∧
      (read text = .error (.unknownPattern (Text.trimmed text)) <->
        forall kind, ¬ StartsWith text kind) ∧
      ((exists defect, read text = .error (.invalidPattern (Text.trimmed text) defect)) <->
        (exists kind, StartsWith text kind) ∧ forall p, ¬ Spelled text p) ∧
      (forall p : Pattern, read p.text = .ok p <-> p.Sensible) ∧
      forall p, read text = .ok p -> read p.text = .ok p := by
  refine ⟨fun p => read_eq_ok_iff, read_eq_unknown_iff, exists_invalid_iff, ?_, ?_⟩
  · intro p
    rw [read_eq_ok_iff, spelled_text_iff]
  · intro p h
    rw [read_eq_ok_iff, spelled_text_iff]
    exact sensible_of_read h

/-- Blanks around a number, its sign and leading zeros do not matter. -/
example : read " FIXED: +050 " = .ok (.fixed 50) := by decide +kernel

end Pattern
end LoadFleet
