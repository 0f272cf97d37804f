import LoadFleet.Proofs.Binary64Values
import Mathlib.Algebra.Order.Floor.Semiring
import Mathlib.Data.Rat.Floor

/-!
# Arithmetic on binary64 numbers

Products, quotients and sums of numbers with values have the exact value, rounded; comparisons
compare the values.  All of this is about numbers that are not negative and far from overflowing.
-/

namespace LoadFleet
namespace Binary64

open Float.Model
open Float.Model.UnpackedFloat (Accuracy ExtendedMantissa)

variable {x y : Float} {p q : Rat}

/-!
## Results that are put together
-/

theorem HasValue.representable (h : HasValue x p) : Representable p := by
  rcases h with ⟨m, e, hform, rfl⟩
  exact (formOfWord_canonical hform).left.representable

theorem representable_two_pow {n : Int} (h : -1074 ≤ n) : Representable (2 ^ n) :=
  ⟨1, n, by decide, h, by simp⟩

def bound : Rat := 2 ^ 200

theorem representable_bound : Representable bound :=
  ⟨1, 200, by decide, by decide, by norm_num [bound]⟩

theorem hasValue_pack {m : Nat} {e : Int} {exact : Rat} (h : Canonical m e)
    (hrounds : Rounds exact (m * 2 ^ e)) (hle : exact ≤ bound) :
    HasValue (.ofModel (.pack (ofParts m e))) (m * 2 ^ e) := by
  have hvalue : (m : Rat) * 2 ^ e ≤ bound :=
    hrounds.above _ representable_bound hle
  have hexponent : e ≤ 971 := by
    by_contra hlarge
    have hm : ((2 ^ 52 : Nat) : Rat) ≤ m := by
      exact_mod_cast h.full.resolve_right (by omega)
    have hpow : bound < ((2 ^ 52 : Nat) : Rat) * 2 ^ e := by
      have hmono : (2 : Rat) ^ (200 : Int) ≤ 2 ^ e := zpow_le_zpow_right₀ (by norm_num) (by omega)
      unfold bound
      norm_num at hmono ⊢
      linarith
    have hprod : ((2 ^ 52 : Nat) : Rat) * 2 ^ e ≤ m * 2 ^ e :=
      mul_le_mul_of_nonneg_right hm (by positivity)
    exact absurd hvalue (not_le.mpr (hpow.trans_le hprod))
  exact ⟨m, e, form_pack h hexponent, rfl⟩

theorem hasValue_zero : HasValue (.ofModel (.pack (.zero .positive))) 0 :=
  ⟨0, -1074, rfl, by simp⟩

theorem ofParts_pos {m : Nat} (h : 0 < m) (e : Int) : ofParts m e = .finite .positive m e h :=
  dif_neg (Nat.ne_of_gt h)

/-!
## Products
-/

theorem le_target_mul {m n : Nat} {e f : Int} (hm : Canonical m e) (hn : Canonical n f)
    (hmpos : 0 < m) (hnpos : 0 < n) : e + f ≤ target (m * n) (e + f) := by
  unfold target
  rcases hm.full with hfull | hleast
  · have hlarge : 2 ^ 52 ≤ m * n := Nat.le_trans hfull (Nat.le_mul_of_pos_right m hnpos)
    have hlog : 52 ≤ (m * n).log2 :=
      (Nat.le_log2 (Nat.ne_of_gt (Nat.mul_pos hmpos hnpos))).mpr hlarge
    omega
  · rcases hn.full with hfull | hleast'
    · have hlarge : 2 ^ 52 ≤ m * n := Nat.le_trans hfull (Nat.le_mul_of_pos_left n hmpos)
      have hlog : 52 ≤ (m * n).log2 :=
        (Nat.le_log2 (Nat.ne_of_gt (Nat.mul_pos hmpos hnpos))).mpr hlarge
      omega
    · omega

theorem mul_ofParts {m n : Nat} {e f : Int} (hm : Canonical m e) (hn : Canonical n f) :
    exists m' e', UnpackedFloat.mul .binary64 (ofParts m e) (ofParts n f) = ofParts m' e' ∧
      Canonical m' e' ∧ Rounds (m * 2 ^ e * (n * 2 ^ f)) (m' * 2 ^ e') := by
  have hzero : Canonical 0 (-1074) := ⟨by decide, by decide, .inr rfl⟩
  rcases Nat.eq_zero_or_pos m with rfl | hmpos
  · refine ⟨0, -1074, ?_, hzero, by simp [Rounds.refl]⟩
    rcases Nat.eq_zero_or_pos n with rfl | hnpos
    · rfl
    · rw [ofParts_pos hnpos]
      rfl
  rcases Nat.eq_zero_or_pos n with rfl | hnpos
  · refine ⟨0, -1074, ?_, hzero, by simp [Rounds.refl]⟩
    rw [ofParts_pos hmpos]
    rfl
  rw [ofParts_pos hmpos, ofParts_pos hnpos]
  have hexact : (m : Rat) * 2 ^ e * (n * 2 ^ f) / 2 ^ (e + f) = (m * n : Nat) := by
    rw [zpow_add₀ (by norm_num)]
    field_simp
    push_cast
    ring
  have hholds : Holds (.ofMantissaAndAccuracy (m * n) .exact)
      ((m : Rat) * 2 ^ e * (n * 2 ^ f) / 2 ^ (e + f)) := by
    rw [hexact]
    exact holds_exact (m * n)
  exact roundWithAccuracy_rounds hholds (le_target_mul hm hn hmpos hnpos)

theorem HasValue.mul (hx : HasValue x p) (hy : HasValue y q) (hle : p * q ≤ bound) :
    exists v, HasValue (x * y) v ∧ Rounds (p * q) v := by
  rcases hx with ⟨m, e, hm, rfl⟩
  rcases hy with ⟨n, f, hn, rfl⟩
  rcases mul_ofParts (formOfWord_canonical hm).left (formOfWord_canonical hn).left with
    ⟨m', e', hmul, hcanonical, hrounds⟩
  refine ⟨_, ?_, hrounds⟩
  have hvalue := hasValue_pack hcanonical hrounds hle
  rw [← hmul, ← unpack_eq_ofParts hm, ← unpack_eq_ofParts hn] at hvalue
  exact hvalue

/-!
## Quotients
-/

theorem holds_fraction (k : Nat) {r d : Nat} (hd : 0 < d) (hr : r < d) :
    Holds (.ofMantissaAndAccuracy k (UnpackedFloat.accuracyOfFraction r d))
      (k + (r : Rat) / d) := by
  have hdpos : (0 : Rat) < d := by exact_mod_cast hd
  unfold UnpackedFloat.accuracyOfFraction
  by_cases hzero : r = 0
  · rw [if_pos hzero, hzero]
    simp [Holds, ExtendedMantissa.ofMantissaAndAccuracy]
  rw [if_neg hzero]
  have hpos : (0 : Rat) < (r : Rat) / d := by
    have hrpos : (0 : Rat) < r := by exact_mod_cast Nat.pos_of_ne_zero hzero
    positivity
  have hrest : (r : Rat) / d < 1 := by
    rw [div_lt_one hdpos]
    exact_mod_cast hr
  cases hcompare : compare (2 * r) d with
  | lt =>
      have hlt : (2 : Rat) * r < d := by exact_mod_cast Nat.compare_eq_lt.mp hcompare
      have hhalf : (r : Rat) / d < 1 / 2 := by
        rw [div_lt_div_iff₀ hdpos (by norm_num)]
        linarith
      show (k : Rat) < k + r / d ∧ k + r / d < (k : Rat) + 1 / 2
      constructor <;> linarith
  | eq =>
      have heq : (2 : Rat) * r = d := by exact_mod_cast Nat.compare_eq_eq.mp hcompare
      have hhalf : (r : Rat) / d = 1 / 2 := by
        rw [div_eq_div_iff hdpos.ne' (by norm_num)]
        linarith
      show (k : Rat) + r / d = k + 1 / 2
      rw [hhalf]
  | gt =>
      have hgt : (d : Rat) < 2 * r := by exact_mod_cast Nat.compare_eq_gt.mp hcompare
      have hhalf : (1 : Rat) / 2 < r / d := by
        rw [div_lt_div_iff₀ (by norm_num) hdpos]
        linarith
      show (k : Rat) + 1 / 2 < k + r / d ∧ (k : Rat) + r / d < k + 1
      constructor <;> linarith

theorem holds_quotient (n : Nat) {d : Nat} (hd : 0 < d) :
    Holds (.ofMantissaAndAccuracy (n / d) (UnpackedFloat.accuracyOfFraction (n % d) d))
      ((n : Rat) / d) := by
  have hdpos : (0 : Rat) < d := by exact_mod_cast hd
  have hsplit : (n : Rat) = d * (n / d : Nat) + (n % d : Nat) := by
    exact_mod_cast (Nat.div_add_mod n d).symm
  have hquotient : (n : Rat) / d = (n / d : Nat) + (n % d : Nat) / d := by
    rw [hsplit]
    field_simp
  rw [hquotient]
  exact holds_fraction (n / d) hd (Nat.mod_lt n hd)

def quotientExponent (m : Nat) (e : Int) (n : Nat) (f : Int) : Int :=
  min (e - f) (max (m.log2 + 1 + e - (n.log2 + 1 + f) - 53) (-1074))

/-- The dividend is shifted far enough for the quotient to fill a significand. -/
theorem le_target_div {m n : Nat} {e f : Int} (hm : 0 < m) (hn : 0 < n) :
    quotientExponent m e n f ≤
      target (m * 2 ^ (e - f - quotientExponent m e n f).toNat / n) (quotientExponent m e n f) := by
  have hmin := min_le_left (e - f) (max (m.log2 + 1 + e - (n.log2 + 1 + f) - 53 : Int) (-1074))
  have hmax := min_le_right (e - f) (max (m.log2 + 1 + e - (n.log2 + 1 + f) - 53 : Int) (-1074))
  change quotientExponent m e n f ≤ _ at hmin hmax
  generalize quotientExponent m e n f = t at *
  rcases le_or_gt t (-1074) with hsmall | hlarge
  · exact hsmall.trans (le_max_right _ _)
  · have hshift : n.log2 + 1 + 52 ≤ m.log2 + (e - f - t).toNat := by omega
    have hfull : 2 ^ 52 ≤ m * 2 ^ (e - f - t).toNat / n := by
      rw [Nat.le_div_iff_mul_le hn]
      calc 2 ^ 52 * n ≤ 2 ^ 52 * 2 ^ (n.log2 + 1) := Nat.mul_le_mul_left _ Nat.lt_log2_self.le
        _ = 2 ^ (n.log2 + 1 + 52) := by rw [← Nat.pow_add, Nat.add_comm]
        _ ≤ 2 ^ (m.log2 + (e - f - t).toNat) := Nat.pow_le_pow_right (by decide) hshift
        _ = 2 ^ m.log2 * 2 ^ (e - f - t).toNat := Nat.pow_add _ _ _
        _ ≤ m * 2 ^ (e - f - t).toNat :=
          Nat.mul_le_mul_right _ (Nat.log2_self_le (Nat.ne_of_gt hm))
    have hlog : 52 ≤ (m * 2 ^ (e - f - t).toNat / n).log2 :=
      (Nat.le_log2 (Nat.ne_of_gt (Nat.lt_of_lt_of_le (by decide) hfull))).mpr hfull
    unfold target
    omega

theorem div_ofParts {m n : Nat} {e f : Int} (hn : 0 < n) :
    exists m' e', UnpackedFloat.div .binary64 (ofParts m e) (ofParts n f) = ofParts m' e' ∧
      Canonical m' e' ∧ Rounds (m * 2 ^ e / (n * 2 ^ f)) (m' * 2 ^ e') := by
  rcases Nat.eq_zero_or_pos m with rfl | hm
  · refine ⟨0, -1074, ?_, ⟨by decide, by decide, .inr rfl⟩, by simp [Rounds.refl]⟩
    rw [ofParts_pos hn]
    rfl
  rw [ofParts_pos hm, ofParts_pos hn]
  have hle : quotientExponent m e n f ≤ e - f := min_le_left _ _
  have hdividend : (m : Rat) * 2 ^ e / (n * 2 ^ f) / 2 ^ quotientExponent m e n f =
      ((m * 2 ^ (e - f - quotientExponent m e n f).toNat : Nat) : Rat) / n := by
    have hexponent : (2 : Rat) ^ e = 2 ^ f * (2 ^ quotientExponent m e n f *
        2 ^ (e - f - quotientExponent m e n f).toNat) := by
      rw [← zpow_split hle, ← zpow_add₀ (by norm_num), add_sub_cancel]
    have hnpos : (0 : Rat) < n := by exact_mod_cast hn
    rw [hexponent]
    push_cast
    field_simp
  have hholds := holds_quotient (m * 2 ^ (e - f - quotientExponent m e n f).toNat) hn
  rw [← hdividend] at hholds
  rcases roundWithAccuracy_rounds hholds (le_target_div hm hn) with
    ⟨m', e', hround, hcanonical, hrounds⟩
  refine ⟨m', e', ?_, hcanonical, hrounds⟩
  rw [← hround, ← Nat.shiftLeft_eq]
  rfl

theorem HasValue.div (hx : HasValue x p) (hy : HasValue y q) (hq : 0 < q) (hle : p / q ≤ bound) :
    exists v, HasValue (x / y) v ∧ Rounds (p / q) v := by
  rcases hx with ⟨m, e, hm, rfl⟩
  rcases hy with ⟨n, f, hn, rfl⟩
  have hnpos : 0 < n := by
    apply Nat.pos_of_ne_zero
    intro heq
    subst heq
    simp at hq
  rcases div_ofParts (m := m) (e := e) (f := f) hnpos with ⟨m', e', hdiv, hcanonical, hrounds⟩
  refine ⟨_, ?_, hrounds⟩
  have hvalue := hasValue_pack hcanonical hrounds hle
  rw [← hdiv, ← unpack_eq_ofParts hm, ← unpack_eq_ofParts hn] at hvalue
  exact hvalue

/-!
## Whole numbers and sums
-/

theorem target_shift {m : Nat} (hm : 0 < m) (n : Nat) (e : Int) :
    target (m * 2 ^ n) (e - n) = target m e := by
  have hlog : (m * 2 ^ n).log2 = m.log2 + n := by
    rw [Nat.log2_eq_iff (Nat.ne_of_gt (Nat.mul_pos hm (Nat.two_pow_pos n))), Nat.pow_add,
      Nat.add_right_comm, Nat.pow_add]
    exact ⟨Nat.mul_le_mul_right _ (Nat.log2_self_le (Nat.ne_of_gt hm)),
      Nat.mul_lt_mul_of_pos_right Nat.lt_log2_self (Nat.two_pow_pos n)⟩
  unfold target
  rw [hlog]
  omega

theorem round_ofParts {m : Nat} {e : Int} (hm : 0 < m) :
    exists m' e', UnpackedFloat.round .binary64 .positive m e = ofParts m' e' ∧
      Canonical m' e' ∧ Rounds (m * 2 ^ e) (m' * 2 ^ e') := by
  have htarget : e - (e - target m e).toNat ≤
      target (m * 2 ^ (e - target m e).toNat) (e - (e - target m e).toNat) := by
    rw [target_shift hm]
    omega
  have hexact : (m : Rat) * 2 ^ e / 2 ^ (e - (e - target m e).toNat : Int) =
      (m * 2 ^ (e - target m e).toNat : Nat) := by
    rw [zpow_sub₀ (by norm_num), zpow_natCast]
    push_cast
    field_simp
  have hholds : Holds (.ofMantissaAndAccuracy (m * 2 ^ (e - target m e).toNat) .exact)
      ((m : Rat) * 2 ^ e / 2 ^ (e - (e - target m e).toNat : Int)) := by
    rw [hexact]
    exact holds_exact _
  rcases roundWithAccuracy_rounds hholds htarget with ⟨m', e', hround, hcanonical, hrounds⟩
  refine ⟨m', e', ?_, hcanonical, hrounds⟩
  rw [← hround, ← Nat.shiftLeft_eq]
  rfl

theorem hasValue_word (n : UInt32) : HasValue n.toFloat n.toNat := by
  have hlt := n.toNat_lt
  show HasValue (.ofModel (.pack (UnpackedFloat.normalize .binary64 n.toNat 0 .positive))) _
  rcases Nat.eq_zero_or_pos n.toNat with hzero | hpos
  · rw [hzero]
    exact_mod_cast hasValue_zero
  · rcases round_ofParts (e := 0) hpos with ⟨m', e', hround, hcanonical, hrounds⟩
    have hcompare : compare (n.toNat : Int) 0 = .gt := Int.compare_eq_gt.mpr (by omega)
    unfold UnpackedFloat.normalize
    simp only [hcompare, Int.toNat_natCast, hround]
    rw [zpow_zero, mul_one] at hrounds
    have hpack := hasValue_pack hcanonical hrounds (by
      have hbound : (n.toNat : Rat) ≤ 2 ^ 32 := by exact_mod_cast hlt.le
      unfold bound
      linarith)
    rw [hrounds.eq_of_representable (representable_natCast (by omega))] at hpack
    exact hpack

theorem add_ofParts {m n : Nat} {e f : Int} (hm : Canonical m e) (hn : Canonical n f) :
    exists m' e', UnpackedFloat.add .binary64 (ofParts m e) (ofParts n f) = ofParts m' e' ∧
      Canonical m' e' ∧ Rounds (m * 2 ^ e + n * 2 ^ f) (m' * 2 ^ e') := by
  rcases Nat.eq_zero_or_pos m with rfl | hmpos
  · refine ⟨n, f, ?_, hn, by simp [Rounds.refl]⟩
    rcases Nat.eq_zero_or_pos n with rfl | hnpos
    · rfl
    · rw [ofParts_pos hnpos]
      rfl
  rcases Nat.eq_zero_or_pos n with rfl | hnpos
  · refine ⟨m, e, ?_, hm, by simp [Rounds.refl]⟩
    rw [ofParts_pos hmpos]
    rfl
  rw [ofParts_pos hmpos, ofParts_pos hnpos]
  have hsum : 0 < m * 2 ^ (e - min e f).toNat + n * 2 ^ (f - min e f).toNat :=
    Nat.add_pos_left (Nat.mul_pos hmpos (Nat.two_pow_pos _)) _
  rcases round_ofParts (e := min e f) hsum with ⟨m', e', hround, hcanonical, hrounds⟩
  refine ⟨m', e', ?_, hcanonical, ?_⟩
  · have hcompare : compare
        ((m * 2 ^ (e - min e f).toNat + n * 2 ^ (f - min e f).toNat : Nat) : Int) 0 = .gt :=
      Int.compare_eq_gt.mpr (by exact_mod_cast hsum)
    show UnpackedFloat.normalize .binary64
      (((m <<< (e - min e f).toNat : Nat) : Int) + (n <<< (f - min e f).toNat : Nat)) (min e f)
        .positive = _
    rw [Nat.shiftLeft_eq, Nat.shiftLeft_eq, ← Nat.cast_add]
    unfold UnpackedFloat.normalize
    simp only [hcompare, Int.toNat_natCast, hround]
  · have hexact : ((m * 2 ^ (e - min e f).toNat + n * 2 ^ (f - min e f).toNat : Nat) : Rat) *
        2 ^ min e f = m * 2 ^ e + n * 2 ^ f := by
      rw [zpow_split (min_le_left e f), zpow_split (min_le_right e f)]
      push_cast
      ring
    rw [← hexact]
    exact hrounds

theorem HasValue.add (hx : HasValue x p) (hy : HasValue y q) (hle : p + q ≤ bound) :
    exists v, HasValue (x + y) v ∧ Rounds (p + q) v := by
  rcases hx with ⟨m, e, hm, rfl⟩
  rcases hy with ⟨n, f, hn, rfl⟩
  rcases add_ofParts (formOfWord_canonical hm).left (formOfWord_canonical hn).left with
    ⟨m', e', hadd, hcanonical, hrounds⟩
  refine ⟨_, ?_, hrounds⟩
  have hvalue := hasValue_pack hcanonical hrounds hle
  rw [← hadd, ← unpack_eq_ofParts hm, ← unpack_eq_ofParts hn] at hvalue
  exact hvalue

/-!
## Comparisons
-/

theorem lt_of_exponent_lt {m n : Nat} {e f : Int} (hm : Canonical m e) (hn : Canonical n f)
    (h : e < f) : (m : Rat) * 2 ^ e < n * 2 ^ f := by
  have hfull : ((2 ^ 52 : Nat) : Rat) ≤ n := by
    exact_mod_cast hn.full.resolve_right (by have := hm.least; omega)
  calc (m : Rat) * 2 ^ e < (2 ^ 52 : Nat) * 2 ^ f := lt_full hm.lt h
    _ ≤ n * 2 ^ f := mul_le_mul_of_nonneg_right hfull (by positivity)

theorem compare_parts {m n : Nat} {e f : Int} (hm : Canonical m e) (hn : Canonical n f) :
    (compare e f).then (compare m n) = compare ((m : Rat) * 2 ^ e) (n * 2 ^ f) := by
  rcases lt_trichotomy e f with hlt | rfl | hgt
  · rw [compare_lt_iff_lt.mpr hlt, compare_lt_iff_lt.mpr (lt_of_exponent_lt hm hn hlt)]
    rfl
  · have hpos : (0 : Rat) < 2 ^ e := by positivity
    rw [compare_eq_iff_eq.mpr rfl]
    show compare m n = _
    rcases lt_trichotomy m n with hlt | rfl | hgt
    · have hcast : (m : Rat) < n := by exact_mod_cast hlt
      rw [compare_lt_iff_lt.mpr hlt, compare_lt_iff_lt.mpr (mul_lt_mul_of_pos_right hcast hpos)]
    · rw [compare_eq_iff_eq.mpr rfl, compare_eq_iff_eq.mpr rfl]
    · have hcast : (n : Rat) < m := by exact_mod_cast hgt
      rw [compare_gt_iff_gt.mpr hgt, compare_gt_iff_gt.mpr (mul_lt_mul_of_pos_right hcast hpos)]
  · rw [compare_gt_iff_gt.mpr hgt, compare_gt_iff_gt.mpr (lt_of_exponent_lt hn hm hgt)]
    rfl

theorem HasValue.compare (hx : HasValue x p) (hy : HasValue y q) :
    UnpackedFloat.compare x.toModel.unpack y.toModel.unpack = some (Ord.compare p q) := by
  rcases hx with ⟨m, e, hm, rfl⟩
  rcases hy with ⟨n, f, hn, rfl⟩
  rw [unpack_eq_ofParts hm, unpack_eq_ofParts hn]
  have hmcanonical := (formOfWord_canonical hm).left
  have hncanonical := (formOfWord_canonical hn).left
  rcases Nat.eq_zero_or_pos m with rfl | hmpos
  · rcases Nat.eq_zero_or_pos n with rfl | hnpos
    · rw [compare_eq_iff_eq.mpr (by simp)]
      rfl
    · have hcast : (0 : Rat) < n := by exact_mod_cast hnpos
      rw [ofParts_pos hnpos, compare_lt_iff_lt.mpr (by rw [Nat.cast_zero, zero_mul]; positivity)]
      rfl
  · have hcast : (0 : Rat) < m := by exact_mod_cast hmpos
    rcases Nat.eq_zero_or_pos n with rfl | hnpos
    · rw [ofParts_pos hmpos,
        compare_gt_iff_gt.mpr (by rw [Nat.cast_zero, zero_mul]; positivity)]
      rfl
    · rw [ofParts_pos hmpos, ofParts_pos hnpos, ← compare_parts hmcanonical hncanonical]
      rfl

theorem HasValue.lt_iff (hx : HasValue x p) (hy : HasValue y q) : x < y <-> p < q := by
  have hcompare : x < y <->
      (UnpackedFloat.compare x.toModel.unpack y.toModel.unpack == some .lt) = true :=
    decide_eq_true_iff
  rw [hcompare, hx.compare hy, ← compare_lt_iff_lt]
  simp

theorem HasValue.le_iff (hx : HasValue x p) (hy : HasValue y q) : x ≤ y <-> p ≤ q := by
  have hcompare : x ≤ y <->
      (UnpackedFloat.compare x.toModel.unpack y.toModel.unpack).any (·.isLE) = true :=
    decide_eq_true_iff
  rw [hcompare, hx.compare hy, Option.any_some]
  exact Ordering.ne_gt_iff_isLE.symm.trans compare_le_iff_le

theorem HasValue.isNaN_eq_false (h : HasValue x p) : x.isNaN = false := by
  rcases h with ⟨m, e, hform, rfl⟩
  show x.toModel.unpack.isNaN = false
  rw [unpack_eq_ofParts hform]
  rcases Nat.eq_zero_or_pos m with rfl | hm
  · rfl
  · rw [ofParts_pos hm]
    rfl

/-!
## Ceilings
-/

theorem ceil_dyadic (m : Nat) (e : Int) : (dyadic m e).ceil = ⌈(m : Rat) * 2 ^ e⌉₊ := by
  have hquotient : (m : Rat) * 2 ^ e = (m * 2 ^ e.toNat : Nat) / (2 ^ (-e).toNat : Nat) := by
    have hsplit : e = e.toNat - (-e).toNat := by omega
    conv_lhs => rw [hsplit, zpow_sub₀ (by norm_num), zpow_natCast, zpow_natCast]
    push_cast
    rw [mul_div_assoc]
  have hpos : 0 < 2 ^ (-e).toNat := Nat.two_pow_pos _
  have hceil : forall k, (dyadic m e).ceil ≤ k <-> ⌈(m : Rat) * 2 ^ e⌉₊ ≤ k := by
    intro k
    rw [Nat.ceil_le, hquotient, div_le_iff₀ (by exact_mod_cast hpos), ← Nat.cast_mul, Nat.cast_le,
      Nat.mul_comm k]
    exact (Nat.div_le_iff_le_mul_add_pred hpos).trans Nat.add_le_add_iff_right
  exact le_antisymm ((hceil _).mpr (le_refl _)) ((hceil _).mp (le_refl _))

theorem HasValue.ceil?_eq (h : HasValue x p) : ceil? x = some ⌈p⌉₊ := by
  rcases h with ⟨m, e, hform, rfl⟩
  simp only [ceil?, hform, ceil_dyadic]

end Binary64
end LoadFleet
