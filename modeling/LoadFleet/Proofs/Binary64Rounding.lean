import Mathlib.Algebra.Order.Field.Power
import Mathlib.Data.Nat.Log
import Mathlib.Tactic.FieldSimp
import Mathlib.Tactic.Linarith
import Mathlib.Tactic.NormNum
import Mathlib.Tactic.Ring
import LoadFleet.Binary64.Form

/-!
# Rounding to binary64

Arithmetic cuts an exact number down to fifty-three bits and keeps two further bits of what it cuts
off.  However the rest is rounded, the result stays on the same side of every binary64 number as the
exact number.
-/

namespace LoadFleet
namespace Binary64

open Float.Model
open Float.Model.UnpackedFloat (Accuracy ExtendedMantissa)

/-!
## Binary64 numbers among the rational numbers
-/

/-- A number with a significand of fifty-three bits whose exponent is not too small. -/
def Representable (q : Rat) : Prop :=
  exists (m : Nat) (e : Int), m < 2 ^ 53 ∧ -1074 ≤ e ∧ q = m * 2 ^ e

/-- A significand and an exponent of which the significand is as long as it can be. -/
structure Canonical (m : Nat) (e : Int) : Prop where
  lt : m < 2 ^ 53
  least : -1074 ≤ e
  full : 2 ^ 52 ≤ m ∨ e = -1074

theorem Canonical.representable {m : Nat} {e : Int} (h : Canonical m e) :
    Representable (m * 2 ^ e) :=
  ⟨m, e, h.lt, h.least, rfl⟩

theorem representable_natCast {n : Nat} (h : n < 2 ^ 53) : Representable n :=
  ⟨n, 0, h, by decide, by simp⟩

/-- No binary64 number lies between a number and what it is rounded to. -/
structure Rounds (x v : Rat) : Prop where
  below : forall q, Representable q -> q ≤ x -> q ≤ v
  above : forall q, Representable q -> x ≤ q -> v ≤ q

theorem Rounds.eq_of_representable {x v : Rat} (h : Rounds x v) (hx : Representable x) : v = x :=
  le_antisymm (h.above x hx (le_refl x)) (h.below x hx (le_refl x))

theorem Rounds.refl (x : Rat) : Rounds x x :=
  ⟨fun _ _ h => h, fun _ _ h => h⟩

/-!
## Significands with what is left of the bits behind them
-/

/-- What a significand with its two further bits says about a number. -/
def Holds (em : ExtendedMantissa) (y : Rat) : Prop :=
  match em.roundBit, em.stickyBit with
  | false, false => y = em.mantissa
  | false, true => em.mantissa < y ∧ y < em.mantissa + 1 / 2
  | true, false => y = em.mantissa + 1 / 2
  | true, true => em.mantissa + 1 / 2 < y ∧ y < em.mantissa + 1

variable {em : ExtendedMantissa} {y : Rat}

theorem holds_exact (m : Nat) : Holds (.ofMantissaAndAccuracy m .exact) m :=
  rfl

theorem Holds.shiftRightOne (h : Holds em y) : Holds em.shiftRightOne (y / 2) := by
  rcases em with ⟨m, r, s⟩
  have hcases : m % 2 = 0 ∨ m % 2 = 1 := Nat.mod_two_eq_zero_or_one m
  have hm : (m : Rat) = 2 * (m / 2 : Nat) + (m % 2 : Nat) := by
    exact_mod_cast (Nat.div_add_mod m 2).symm
  -- What is cut off is a half of a bit that was there, and less than a half otherwise.
  rcases hcases with heven | hodd
  · rw [heven] at hm
    cases r <;> cases s <;> simp [Holds, ExtendedMantissa.shiftRightOne, heven] at h ⊢ <;>
      first
        | (constructor <;> linarith [h.1, h.2])
        | (constructor <;> linarith)
        | linarith
  · rw [hodd] at hm
    cases r <;> cases s <;> simp [Holds, ExtendedMantissa.shiftRightOne, hodd] at h ⊢ <;>
      first
        | (constructor <;> linarith [h.1, h.2])
        | (constructor <;> linarith)
        | linarith

theorem Holds.shiftRight (h : Holds em y) (n : Nat) : Holds (em >>> n) (y / 2 ^ n) := by
  induction n with
  | zero =>
      rw [pow_zero, div_one]
      exact h
  | succ n ih =>
      rw [pow_succ, ← div_div]
      exact ih.shiftRightOne

theorem Holds.mantissa_le (h : Holds em y) : em.mantissa ≤ y := by
  rcases em with ⟨m, r, s⟩
  cases r <;> cases s <;> simp only [Holds] at h ⊢ <;> linarith

theorem Holds.lt_mantissa (h : Holds em y) : y < em.mantissa + 1 := by
  rcases em with ⟨m, r, s⟩
  cases r <;> cases s <;> simp only [Holds] at h ⊢ <;> linarith

theorem mantissa_le_rounded (em : ExtendedMantissa) : em.mantissa ≤ em.roundedMantissa := by
  rcases em with ⟨m, r, s⟩
  cases r <;> cases s <;>
    simp [ExtendedMantissa.roundedMantissa, ExtendedMantissa.accuracy, Accuracy.roundToNearestEven]

theorem rounded_le_mantissa (em : ExtendedMantissa) : em.roundedMantissa ≤ em.mantissa + 1 := by
  rcases em with ⟨m, r, s⟩
  cases r <;> cases s <;>
    simp [ExtendedMantissa.roundedMantissa, ExtendedMantissa.accuracy, Accuracy.roundToNearestEven]
  omega

theorem Holds.le_rounded (h : Holds em y) {k : Nat} (hk : (k : Rat) ≤ y) :
    k ≤ em.roundedMantissa := by
  have hlt : (k : Rat) < em.mantissa + 1 := lt_of_le_of_lt hk h.lt_mantissa
  have hle : k ≤ em.mantissa := Nat.lt_succ_iff.mp (by exact_mod_cast hlt)
  exact Nat.le_trans hle (mantissa_le_rounded em)

theorem Holds.rounded_le (h : Holds em y) {k : Nat} (hk : y ≤ k) : em.roundedMantissa ≤ k := by
  have hle : em.mantissa ≤ k := by exact_mod_cast h.mantissa_le.trans hk
  rcases Nat.lt_or_eq_of_le hle with hlt | heq
  · exact Nat.le_trans (rounded_le_mantissa em) hlt
  · -- Then the number is the significand itself, and nothing is rounded.
    rcases em with ⟨m, r, s⟩
    subst heq
    cases r <;> cases s <;> simp only [Holds] at h hk
    · exact Nat.le_refl m
    all_goals exfalso; linarith

/-!
## Rounded numbers
-/

/-- The exponent that a number with this significand and exponent is rounded to. -/
def target (m : Nat) (e : Int) : Int :=
  max (m.log2 + 1 + e - 53) (-1074)

/-- The number with these parts, which is zero without a significand. -/
def ofParts (m : Nat) (e : Int) : UnpackedFloat :=
  if h : m = 0 then .zero .positive else .finite .positive m e (Nat.pos_of_ne_zero h)

theorem shiftToTargetExponent_eq (m : Nat) (e : Int) (accuracy : Accuracy) :
    UnpackedFloat.shiftToTargetExponent .binary64 m e accuracy =
      (ExtendedMantissa.ofMantissaAndAccuracy m accuracy >>> (target m e - e).toNat,
        e + (target m e - e).toNat) :=
  rfl

theorem mantissa_ofMantissaAndAccuracy (m : Nat) (accuracy : Accuracy) :
    (ExtendedMantissa.ofMantissaAndAccuracy m accuracy).mantissa = m := by
  rcases accuracy with _ | ⟨_ | _ | _⟩ <;> rfl

theorem zpow_split {a b : Int} (h : a ≤ b) : (2 : Rat) ^ b = 2 ^ a * 2 ^ (b - a).toNat := by
  rw [← zpow_natCast, ← zpow_add₀ (by norm_num), Int.toNat_of_nonneg (by omega)]
  congr 1
  omega

section

variable {m : Nat} {e : Int} {accuracy : Accuracy} {x : Rat}

theorem scale_target (he : e ≤ target m e) :
    x / 2 ^ target m e = x / 2 ^ e / 2 ^ (target m e - e).toNat := by
  rw [div_div, ← zpow_split he]

theorem holds_target (hx : Holds (.ofMantissaAndAccuracy m accuracy) (x / 2 ^ e))
    (he : e ≤ target m e) :
    Holds (ExtendedMantissa.ofMantissaAndAccuracy m accuracy >>> (target m e - e).toNat)
      (x / 2 ^ target m e) := by
  rw [scale_target he]
  exact hx.shiftRight _

theorem target_le (hx : Holds (.ofMantissaAndAccuracy m accuracy) (x / 2 ^ e))
    (he : e ≤ target m e) : x / 2 ^ target m e ≤ (2 ^ 53 : Nat) := by
  have hlt := hx.lt_mantissa
  rw [mantissa_ofMantissaAndAccuracy] at hlt
  have hexponent : m.log2 + 1 ≤ 53 + (target m e - e).toNat := by
    have hmax := le_max_left (m.log2 + 1 + e - 53 : Int) (-1074)
    unfold target at he ⊢
    omega
  have hpow : m + 1 ≤ 2 ^ 53 * 2 ^ (target m e - e).toNat := by
    calc m + 1 ≤ 2 ^ (m.log2 + 1) := Nat.lt_log2_self
      _ ≤ 2 ^ (53 + (target m e - e).toNat) := Nat.pow_le_pow_right (by decide) hexponent
      _ = 2 ^ 53 * 2 ^ (target m e - e).toNat := Nat.pow_add _ _ _
  have hcast : (m : Rat) + 1 ≤ (2 ^ 53 : Nat) * 2 ^ (target m e - e).toNat := by
    exact_mod_cast hpow
  rw [scale_target he, div_le_iff₀ (by positivity)]
  exact hlt.le.trans hcast

theorem le_target (hx : Holds (.ofMantissaAndAccuracy m accuracy) (x / 2 ^ e))
    (he : e ≤ target m e) :
    target m e = -1074 ∨ ((2 ^ 52 : Nat) : Rat) ≤ x / 2 ^ target m e := by
  rcases eq_or_ne (target m e) (-1074) with hleast | hmore
  · exact .inl hleast
  · right
    have htarget : target m e = m.log2 + 1 + e - 53 := by
      unfold target at hmore ⊢
      omega
    have hlog : 52 + (target m e - e).toNat = m.log2 := by omega
    have hm : m ≠ 0 := by
      intro hzero
      rw [hzero, Nat.log2_zero] at hlog
      omega
    have hpow : 2 ^ 52 * 2 ^ (target m e - e).toNat ≤ m := by
      rw [← Nat.pow_add, hlog]
      exact Nat.log2_self_le hm
    have hle := hx.mantissa_le
    rw [mantissa_ofMantissaAndAccuracy] at hle
    have hcast : ((2 ^ 52 : Nat) : Rat) * 2 ^ (target m e - e).toNat ≤ m := by
      exact_mod_cast hpow
    rw [scale_target he, le_div_iff₀ (by positivity)]
    exact hcast.trans hle

/-- The second cut drops the one bit that rounding may have carried into. -/
theorem shiftToTargetExponent_rounded {r : Nat} (hr : r ≤ 2 ^ 53) (he : -1074 ≤ e)
    (hfull : 2 ^ 52 ≤ r ∨ e = -1074) :
    exists m' e',
      UnpackedFloat.shiftToTargetExponent .binary64 r e .exact = (⟨m', false, false⟩, e') ∧
        Canonical m' e' ∧ (m' * 2 ^ e' : Rat) = r * 2 ^ e := by
  rw [shiftToTargetExponent_eq]
  rcases Nat.lt_or_eq_of_le hr with hlt | heq
  · have hshift : (target r e - e).toNat = 0 := by
      have hlog : r.log2 < 53 := by
        rcases eq_or_ne r 0 with rfl | hzero
        · decide
        · exact (Nat.log2_lt hzero).mpr hlt
      unfold target
      omega
    rw [hshift]
    exact ⟨r, e, by simp [HShiftRight.hShiftRight, Nat.repeat,
      ExtendedMantissa.ofMantissaAndAccuracy], ⟨hlt, he, hfull⟩, rfl⟩
  · subst heq
    have hshift : (target (2 ^ 53) e - e).toNat = 1 := by
      unfold target
      rw [Nat.log2_two_pow]
      omega
    rw [hshift]
    refine ⟨2 ^ 52, e + 1, rfl, ⟨by decide, by omega, .inl (Nat.le_refl _)⟩, ?_⟩
    rw [zpow_add_one₀ (by norm_num)]
    push_cast
    ring

/-- With a smaller exponent no significand comes up to the least full one. -/
theorem lt_full {n : Nat} {e t : Int} (hn : n < 2 ^ 53) (h : e < t) :
    (n : Rat) * 2 ^ e < (2 ^ 52 : Nat) * 2 ^ t := by
  have hcast : (n : Rat) < (2 ^ 53 : Nat) := by exact_mod_cast hn
  have hmono : (2 : Rat) ^ (e + 1) ≤ 2 ^ t := zpow_le_zpow_right₀ (by norm_num) (by omega)
  calc (n : Rat) * 2 ^ e < (2 ^ 53 : Nat) * 2 ^ e :=
        mul_lt_mul_of_pos_right hcast (by positivity)
    _ = (2 ^ 52 : Nat) * 2 ^ (e + 1) := by
      rw [zpow_add_one₀ (by norm_num)]
      push_cast
      ring
    _ ≤ (2 ^ 52 : Nat) * 2 ^ t := mul_le_mul_of_nonneg_left hmono (by positivity)

/-- A binary64 number with an exponent from `t` on is a whole number of units, and any other one is
less than the least full significand. -/
theorem Representable.units {q : Rat} (h : Representable q) (t : Int) :
    (exists k : Nat, q = k * 2 ^ t) ∨ q < (2 ^ 52 : Nat) * 2 ^ t ∧ t ≠ -1074 := by
  rcases h with ⟨n, e, hn, he, rfl⟩
  rcases le_or_gt t e with hle | hgt
  · left
    refine ⟨n * 2 ^ (e - t).toNat, ?_⟩
    rw [zpow_split hle]
    push_cast
    ring
  · right
    exact ⟨lt_full hn hgt, by omega⟩

theorem rounds_of_rounded {t : Int} {r : Nat}
    (hfull : t = -1074 ∨ ((2 ^ 52 : Nat) : Rat) ≤ x / 2 ^ t)
    (hbelow : forall k : Nat, (k : Rat) ≤ x / 2 ^ t -> k ≤ r)
    (habove : forall k : Nat, x / 2 ^ t ≤ k -> r ≤ k) : Rounds x (r * 2 ^ t) := by
  have hpos : (0 : Rat) < 2 ^ t := by positivity
  constructor
  · intro q hq hqx
    rcases hq.units t with ⟨k, rfl⟩ | ⟨hlt, hmore⟩
    · have hk : (k : Rat) ≤ r := by
        exact_mod_cast hbelow k ((le_div_iff₀ hpos).mpr hqx)
      exact mul_le_mul_of_nonneg_right hk hpos.le
    · have hr : ((2 ^ 52 : Nat) : Rat) ≤ r := by
        exact_mod_cast hbelow (2 ^ 52) (hfull.resolve_left hmore)
      exact hlt.le.trans (mul_le_mul_of_nonneg_right hr hpos.le)
  · intro q hq hxq
    rcases hq.units t with ⟨k, rfl⟩ | ⟨hlt, hmore⟩
    · have hk : (r : Rat) ≤ k := by
        exact_mod_cast habove k ((div_le_iff₀ hpos).mpr hxq)
      exact mul_le_mul_of_nonneg_right hk hpos.le
    · have hx := (le_div_iff₀ hpos).mp (hfull.resolve_left hmore)
      exact absurd (hx.trans hxq) (not_le.mpr hlt)

/-- A number that is known to within its last two bits is rounded to a neighbour. -/
theorem roundWithAccuracy_rounds (hx : Holds (.ofMantissaAndAccuracy m accuracy) (x / 2 ^ e))
    (he : e ≤ target m e) :
    exists m' e',
      UnpackedFloat.roundWithAccuracy .binary64 .positive m e accuracy = ofParts m' e' ∧
        Canonical m' e' ∧ Rounds x (m' * 2 ^ e') := by
  have hholds := holds_target hx he
  have hmost := target_le hx he
  have hleast := le_target hx he
  generalize hem : ExtendedMantissa.ofMantissaAndAccuracy m accuracy >>> (target m e - e).toNat = em
    at hholds
  have htarget : -1074 ≤ target m e := le_max_right _ _
  have hr : em.roundedMantissa ≤ 2 ^ 53 := hholds.rounded_le hmost
  have hfull : 2 ^ 52 ≤ em.roundedMantissa ∨ target m e = -1074 := by
    rcases hleast with hleast | hleast
    · exact .inr hleast
    · exact .inl (hholds.le_rounded hleast)
  rcases shiftToTargetExponent_rounded hr htarget hfull with ⟨m', e', hshift, hcanonical, hvalue⟩
  refine ⟨m', e', ?_, hcanonical, ?_⟩
  · have hexponent : e + (target m e - e).toNat = target m e := by omega
    unfold UnpackedFloat.roundWithAccuracy
    rw [shiftToTargetExponent_eq, hem, hexponent]
    dsimp only
    rw [hshift]
    rfl
  · rw [hvalue]
    exact rounds_of_rounded hleast (fun _ hk => hholds.le_rounded hk)
      (fun _ hk => hholds.rounded_le hk)

end

end Binary64
end LoadFleet
