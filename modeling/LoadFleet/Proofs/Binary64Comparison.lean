import LoadFleet.Proofs.Binary64Values

/-!
# Comparing binary64 numbers

A comparison has an outcome unless one side is no number, and turns round when the sides are
exchanged.  From this follows which tests can hold of the same numbers.  Both zeros equal zero, and
nothing else does.
-/

namespace LoadFleet
namespace Binary64

open Float.Model

/-!
## Numbers taken apart
-/

theorem unpacked_compare_swap (x y : UnpackedFloat) :
    UnpackedFloat.compare y x = (UnpackedFloat.compare x y).map Ordering.swap := by
  cases x with
  | notANumber => cases y <;> rfl
  | infinity s => cases y with
    | infinity t => cases s <;> cases t <;> rfl
    | notANumber => cases s <;> rfl
    | zero t => cases s <;> rfl
    | finite t n f hn => cases s <;> rfl
  | zero s => cases y with
    | infinity t => cases t <;> rfl
    | notANumber => rfl
    | zero t => rfl
    | finite t n f hn => cases t <;> rfl
  | finite s m e hm => cases y with
    | infinity t => cases s <;> cases t <;> rfl
    | notANumber => rfl
    | zero t => cases s <;> rfl
    | finite t n f hn =>
        have hparts : (compare f e).then (compare n m) =
            ((compare e f).then (compare m n)).swap := by
          rw [Ordering.swap_then, ← Std.OrientedCmp.eq_swap, ← Std.OrientedCmp.eq_swap]
        cases s with
        | positive => cases t with
          | positive => exact congrArg some hparts
          | negative => rfl
        | negative => cases t with
          | positive => rfl
          | negative => exact congrArg (fun order => some order.swap) hparts

theorem unpacked_comparable {x y : UnpackedFloat} (hx : x.isNaN = false) (hy : y.isNaN = false) :
    exists order, UnpackedFloat.compare x y = some order := by
  cases x with
  | notANumber => cases hx
  | infinity s => cases y with
    | notANumber => cases hy
    | infinity t => exact ⟨_, rfl⟩
    | zero t => cases s <;> exact ⟨_, rfl⟩
    | finite t n f hn => cases s <;> exact ⟨_, rfl⟩
  | zero s => cases y with
    | notANumber => cases hy
    | infinity t => cases t <;> exact ⟨_, rfl⟩
    | zero t => exact ⟨_, rfl⟩
    | finite t n f hn => cases t <;> exact ⟨_, rfl⟩
  | finite s m e hm => cases y with
    | notANumber => cases hy
    | infinity t => cases s <;> cases t <;> exact ⟨_, rfl⟩
    | zero t => cases s <;> exact ⟨_, rfl⟩
    | finite t n f hn => cases s <;> cases t <;> exact ⟨_, rfl⟩

theorem unpacked_compare_nan {u : UnpackedFloat} (h : u.isNaN = true) (v : UnpackedFloat) :
    UnpackedFloat.compare u v = none := by
  cases u with
  | notANumber => rfl
  | infinity s => cases h
  | zero s => cases h
  | finite s m e hm => cases h

theorem unpacked_compare_across {u v : UnpackedFloat}
    (hu : UnpackedFloat.compare u (.zero .positive) = some .lt)
    (hv : UnpackedFloat.compare (.zero .positive) v = some .lt) :
    UnpackedFloat.compare v u = some .gt := by
  cases u with
  | notANumber => cases hu
  | zero s => cases hu
  | infinity s => cases s with
    | positive => cases hu
    | negative => cases v with
      | notANumber => cases hv
      | zero t => cases hv
      | infinity t => cases t with
        | positive => rfl
        | negative => cases hv
      | finite t n f hn => cases t with
        | positive => rfl
        | negative => cases hv
  | finite s m e hm => cases s with
    | positive => cases hu
    | negative => cases v with
      | notANumber => cases hv
      | zero t => cases hv
      | infinity t => cases t with
        | positive => rfl
        | negative => cases hv
      | finite t n f hn => cases t with
        | positive => rfl
        | negative => cases hv

theorem unpacked_compare_zero {u : UnpackedFloat} :
    UnpackedFloat.compare u (.zero .positive) = some .eq <-> exists s, u = .zero s := by
  constructor
  · intro h
    cases u with
    | notANumber => cases h
    | infinity s => cases s <;> cases h
    | zero s => exact ⟨s, rfl⟩
    | finite s m e hm => cases s <;> cases h
  · intro h
    rcases h with ⟨s, rfl⟩
    rfl

theorem unpack_eq_zero_iff {b : BitVec Format.binary64.numBits} :
    (exists s, UnpackedFloat.unpack .binary64 b = .zero s) <->
      exponentField b.toNat = 0 ∧ fractionField b.toNat = 0 := by
  rw [← toNat_unpackExponent, ← toNat_unpackMantissa]
  unfold UnpackedFloat.unpack
  dsimp only
  by_cases hone : UnpackedFloat.unpackExponent b = -1#_
  · have hexponent : (UnpackedFloat.unpackExponent b).toNat ≠ 0 := by
      rw [hone]
      decide
    rw [if_pos hone]
    refine iff_of_false ?_ fun h => hexponent h.left
    split <;> nofun
  · rw [if_neg hone]
    by_cases hzero : UnpackedFloat.unpackExponent b = 0#_
    · rw [if_pos hzero]
      by_cases hfraction : UnpackedFloat.unpackMantissa b = 0#_
      · rw [dif_pos hfraction, hzero, hfraction]
        exact iff_of_true ⟨_, rfl⟩ ⟨rfl, rfl⟩
      · rw [dif_neg hfraction]
        exact iff_of_false nofun fun h => hfraction (BitVec.eq_of_toNat_eq h.right)
    · rw [if_neg hzero]
      exact iff_of_false nofun fun h => hzero (BitVec.eq_of_toNat_eq h.left)

/-!
## Tests
-/

section

variable {x y : Float}

theorem lt_iff_compare :
    x < y <-> UnpackedFloat.compare x.toModel.unpack y.toModel.unpack = some .lt := by
  have hlt : x < y <->
      (UnpackedFloat.compare x.toModel.unpack y.toModel.unpack == some .lt) = true :=
    decide_eq_true_iff
  rw [hlt, beq_iff_eq]

theorem le_iff_compare :
    x ≤ y <-> (UnpackedFloat.compare x.toModel.unpack y.toModel.unpack).any (·.isLE) = true :=
  decide_eq_true_iff

theorem beq_iff_compare :
    (x == y) = true <-> UnpackedFloat.compare x.toModel.unpack y.toModel.unpack = some .eq := by
  have heq : (x == y) =
      (UnpackedFloat.compare x.toModel.unpack y.toModel.unpack == some .eq) := rfl
  rw [heq, beq_iff_eq]

theorem le_of_not_lt (hx : x.isNaN = false) (hy : y.isNaN = false) (h : ¬ y < x) : x ≤ y := by
  rcases unpacked_comparable hx hy with ⟨order, horder⟩
  rw [lt_iff_compare, unpacked_compare_swap, horder, Option.map_some] at h
  rw [le_iff_compare, horder, Option.any_some]
  cases order with
  | lt => rfl
  | eq => rfl
  | gt => exact absurd rfl h

theorem not_lt_of_le (h : x ≤ y) : ¬ y < x := by
  rw [lt_iff_compare, unpacked_compare_swap]
  rw [le_iff_compare] at h
  intro hlt
  rcases Option.map_eq_some_iff.mp hlt with ⟨order, horder, hswap⟩
  rw [horder, Option.any_some] at h
  cases order with
  | lt => cases hswap
  | eq => cases hswap
  | gt => cases h

theorem beq_eq_false_of_lt (h : x < y) : (x == y) = false := by
  rw [lt_iff_compare] at h
  rw [← Bool.not_eq_true, beq_iff_compare, h]
  nofun

theorem beq_eq_false_of_gt (h : y < x) : (x == y) = false := by
  rw [lt_iff_compare] at h
  rw [← Bool.not_eq_true, beq_iff_compare, unpacked_compare_swap, h]
  nofun

theorem not_lt_of_isNaN (h : x.isNaN = true) : ¬ y < x := by
  rw [lt_iff_compare, unpacked_compare_swap, unpacked_compare_nan h]
  nofun

theorem beq_eq_false_of_isNaN (h : x.isNaN = true) : (x == y) = false := by
  rw [← Bool.not_eq_true, beq_iff_compare, unpacked_compare_nan h]
  nofun

/-- What is below zero does not exceed what is above it. -/
theorem not_lt_of_negative (hx : x < 0.0) (hy : 0.0 < y) : ¬ y < x := by
  rw [lt_iff_compare] at hx hy ⊢
  rw [unpacked_compare_across hx hy]
  nofun

/-- Exactly the two words without exponent and fraction equal zero. -/
theorem beq_zero_iff : (x == 0.0) = true <-> x.toBits = 0 ∨ x.toBits = 0x8000000000000000 := by
  have hword : x.toBits.toNat < 18446744073709551616 := x.toBits.toNat_lt
  have hfields : (x == 0.0) = true <->
      exponentField x.toBits.toNat = 0 ∧ fractionField x.toBits.toNat = 0 :=
    beq_iff_compare.trans (unpacked_compare_zero.trans unpack_eq_zero_iff)
  rw [hfields, ← UInt64.toNat_inj, ← UInt64.toNat_inj]
  unfold exponentField fractionField leadingBit
  show _ <-> x.toBits.toNat = 0 ∨ x.toBits.toNat = 9223372036854775808
  omega

end

end Binary64
end LoadFleet
