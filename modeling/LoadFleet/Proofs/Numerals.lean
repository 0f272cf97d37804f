import LoadFleet.Text.Numeral

/-!
# Numerals and their values

A numeral is an optional plus sign and at least one decimal digit, leading zeros among them.
Reading finds exactly the numerals whose value stays within the limit, and what is written for a
number is a numeral of it.
-/

namespace LoadFleet
namespace Text

/-- The value of decimal digits behind a value that stands to their left. -/
def digitsValue (value : Nat) (digits : List Char) : Nat :=
  digits.foldl (fun value c => value * 10 + (c.toNat - '0'.toNat)) value

/-- An optional plus sign and at least one decimal digit, together with their value. -/
def Numeral (cs : List Char) (n : Nat) : Prop :=
  exists sign digits,
    cs = sign ++ digits ∧ (sign = [] ∨ sign = ['+']) ∧ digits ≠ [] ∧
      (forall c, c ∈ digits -> c.isDigit = true) ∧ n = digitsValue 0 digits

/-!
## Digits
-/

theorem isDigit_iff {c : Char} : c.isDigit = true <-> '0' ≤ c ∧ c ≤ '9' := by
  rw [Char.isDigit, Bool.and_eq_true, decide_eq_true_iff, decide_eq_true_iff]
  rfl

theorem digit?_of_isDigit {c : Char} (h : c.isDigit = true) :
    digit? c = some (c.toNat - '0'.toNat) :=
  if_pos (isDigit_iff.mp h)

theorem digit?_of_not_isDigit {c : Char} (h : ¬ c.isDigit = true) : digit? c = none :=
  if_neg fun hrange => h (isDigit_iff.mpr hrange)

theorem digitChar_spec {d : Nat} (h : d < 10) :
    (digitChar d).isDigit = true ∧ (digitChar d).toNat - '0'.toNat = d := by
  have hall : forall d : Fin 10,
      (digitChar d).isDigit = true ∧ (digitChar d).toNat - '0'.toNat = d := by
    decide
  exact hall ⟨d, h⟩

theorem le_digitsValue (value : Nat) (digits : List Char) : value ≤ digitsValue value digits := by
  induction digits generalizing value with
  | nil => exact Nat.le_refl value
  | cons c rest ih =>
      have hstep : value ≤ value * 10 + (c.toNat - '0'.toNat) := by omega
      exact Nat.le_trans hstep (ih _)

/-!
## Reading
-/

theorem readDigits_eq_ok_iff {limit value n : Nat} {cs : List Char} (hvalue : value ≤ limit) :
    readDigits limit value cs = .ok n <->
      (forall c, c ∈ cs -> c.isDigit = true) ∧ n = digitsValue value cs ∧ n ≤ limit := by
  induction cs generalizing value with
  | nil =>
      constructor
      · intro h
        cases h
        exact ⟨nofun, rfl, hvalue⟩
      · intro hgiven
        rcases hgiven with ⟨-, rfl, -⟩
        rfl
  | cons c rest ih =>
      unfold readDigits
      rw [List.forall_mem_cons]
      by_cases hdigit : c.isDigit = true
      · rw [digit?_of_isDigit hdigit]
        simp only [hdigit, true_and]
        by_cases hle : value * 10 + (c.toNat - '0'.toNat) ≤ limit
        · rw [if_pos hle]
          exact ih hle
        · -- What is too large stays too large, whatever digits follow.
          rw [if_neg hle]
          constructor
          · intro h
            cases h
          · intro hgiven
            rcases hgiven with ⟨-, rfl, hn⟩
            exact absurd (Nat.le_trans (le_digitsValue _ rest) hn) hle
      · rw [digit?_of_not_isDigit hdigit]
        constructor
        · intro h
          cases h
        · intro hgiven
          rcases hgiven with ⟨⟨hc, -⟩, -⟩
          exact absurd hc hdigit

theorem plus_not_digit : ¬ '+'.isDigit = true := by
  decide

theorem numeral_plus {rest : List Char} {n : Nat} :
    Numeral ('+' :: rest) n <->
      rest ≠ [] ∧ (forall c, c ∈ rest -> c.isDigit = true) ∧ n = digitsValue 0 rest := by
  constructor
  · intro h
    rcases h with ⟨sign, digits, hcs, rfl | rfl, hne, hdigits, hn⟩
    · rw [List.nil_append] at hcs
      rw [← hcs] at hdigits
      exact absurd (hdigits '+' List.mem_cons_self) plus_not_digit
    · rcases List.cons.inj hcs with ⟨-, rfl⟩
      exact ⟨hne, hdigits, hn⟩
  · intro h
    rcases h with ⟨hne, hdigits, hn⟩
    exact ⟨['+'], rest, rfl, .inr rfl, hne, hdigits, hn⟩

theorem numeral_unsigned {c : Char} {rest : List Char} {n : Nat} (hc : c ≠ '+') :
    Numeral (c :: rest) n <->
      (forall d, d ∈ c :: rest -> d.isDigit = true) ∧ n = digitsValue 0 (c :: rest) := by
  constructor
  · intro h
    rcases h with ⟨sign, digits, hcs, rfl | rfl, hne, hdigits, hn⟩
    · rw [List.nil_append] at hcs
      rw [hcs]
      exact ⟨hdigits, hn⟩
    · exact absurd (List.cons.inj hcs).left hc
  · intro h
    rcases h with ⟨hdigits, hn⟩
    exact ⟨[], c :: rest, rfl, .inl rfl, List.cons_ne_nil c rest, hdigits, hn⟩

theorem readNumeral_unsigned {limit : Nat} {c : Char} {rest : List Char} (hc : c ≠ '+') :
    readNumeral limit (c :: rest) = readDigits limit 0 (c :: rest) := by
  unfold readNumeral
  split
  · rename_i heq
    cases heq
  · rename_i heq
    exact absurd (List.cons.inj heq).left hc
  · rename_i heq
    exact absurd (List.cons.inj heq).left hc
  · rfl

theorem readNumeral_eq_ok_iff {limit n : Nat} {cs : List Char} :
    readNumeral limit cs = .ok n <-> Numeral cs n ∧ n ≤ limit := by
  cases cs with
  | nil =>
      constructor
      · intro h
        cases h
      · intro hgiven
        rcases hgiven with ⟨⟨sign, digits, hcs, -, hne, -⟩, -⟩
        exact absurd (List.append_eq_nil_iff.mp hcs.symm).right hne
  | cons c rest =>
      by_cases hc : c = '+'
      · subst hc
        rw [numeral_plus, and_assoc, and_assoc]
        -- A plus sign alone is no numeral.
        cases rest with
        | nil =>
            constructor
            · intro h
              cases h
            · intro hgiven
              rcases hgiven with ⟨hne, -⟩
              exact absurd rfl hne
        | cons d rest =>
            show readDigits limit 0 (d :: rest) = .ok n <-> _
            rw [readDigits_eq_ok_iff (Nat.zero_le limit)]
            exact (and_iff_right (List.cons_ne_nil d rest)).symm
      · rw [readNumeral_unsigned hc, readDigits_eq_ok_iff (Nat.zero_le limit), numeral_unsigned hc,
          and_assoc]

theorem readWord32_eq_ok_iff {cs : List Char} {n : UInt32} :
    readWord32 cs = .ok n <-> Numeral cs n.toNat := by
  have hlimit : n.toNat ≤ greatest32 := Nat.le_of_lt_succ n.toNat_lt
  rw [← and_iff_left (a := Numeral cs n.toNat) hlimit, ← readNumeral_eq_ok_iff, readWord32]
  cases hm : readNumeral greatest32 cs with
  | error fault => exact ⟨nofun, nofun⟩
  | ok m =>
      have hle : m < 4294967296 := Nat.lt_succ_of_le (readNumeral_eq_ok_iff.mp hm).right
      constructor
      · intro h
        cases h
        rw [UInt32.toNat_ofNat_of_lt' hle]
      · intro h
        cases h
        exact congrArg Except.ok UInt32.ofNat_toNat

/-!
## Writing
-/

theorem digitsValue_concat (value : Nat) (digits : List Char) (c : Char) :
    digitsValue value (digits ++ [c]) = digitsValue value digits * 10 + (c.toNat - '0'.toNat) := by
  rw [digitsValue, List.foldl_append]
  rfl

theorem decimal_ne_nil (n : Nat) : decimal n ≠ [] := by
  unfold decimal
  split
  · exact List.cons_ne_nil _ _
  · exact List.append_ne_nil_of_right_ne_nil _ (List.cons_ne_nil _ _)

theorem isDigit_of_mem_decimal {n : Nat} {c : Char} (h : c ∈ decimal n) : c.isDigit = true := by
  fun_induction decimal n with
  | case1 n hlt =>
      rw [List.mem_singleton.mp h]
      exact (digitChar_spec hlt).left
  | case2 n hge ih =>
      rcases List.mem_append.mp h with hfront | hlast
      · exact ih hfront
      · rw [List.mem_singleton.mp hlast]
        exact (digitChar_spec (Nat.mod_lt n (by decide))).left

theorem visible_of_mem_decimal {n : Nat} {c : Char} (h : c ∈ decimal n) : '!' ≤ c ∧ c ≤ '~' := by
  rcases isDigit_iff.mp (isDigit_of_mem_decimal h) with ⟨hzero, hnine⟩
  exact ⟨Char.le_trans (by decide) hzero, Char.le_trans hnine (by decide)⟩

theorem digitsValue_decimal (n : Nat) : digitsValue 0 (decimal n) = n := by
  fun_induction decimal n with
  | case1 n hlt =>
      show 0 * 10 + ((digitChar n).toNat - '0'.toNat) = n
      rw [(digitChar_spec hlt).right, Nat.zero_mul, Nat.zero_add]
  | case2 n hge ih =>
      rw [digitsValue_concat, ih, (digitChar_spec (Nat.mod_lt n (by decide))).right]
      exact Nat.div_add_mod' n 10

theorem numeral_decimal (n : Nat) : Numeral (decimal n) n :=
  ⟨[], decimal n, rfl, .inl rfl, decimal_ne_nil n, fun _ => isDigit_of_mem_decimal,
    (digitsValue_decimal n).symm⟩

end Text
end LoadFleet
