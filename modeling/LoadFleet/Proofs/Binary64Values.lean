import LoadFleet.Proofs.Binary64Rounding

/-!
# Values of binary64 numbers

A binary64 number that is finite and not negative has a rational value, which is read off its bits.
The parts that arithmetic works on are these same bits, so taking a number apart and putting it
together again changes nothing.
-/

namespace LoadFleet
namespace Binary64

open Float.Model

/-- A number is finite, not negative, and has this value. -/
def HasValue (x : Float) (q : Rat) : Prop :=
  exists significand exponent, form x = .finite false significand exponent ∧
    q = significand * 2 ^ exponent

theorem HasValue.nonneg {x : Float} {q : Rat} (h : HasValue x q) : 0 ≤ q := by
  rcases h with ⟨m, e, -, rfl⟩
  positivity

/-!
## Bits of a number
-/

theorem toNat_packComponents (exponent : BitVec 11) (fraction : BitVec 52) :
    (UnpackedFloat.packComponents .binary64 .positive exponent fraction).toNat =
      exponent.toNat * leadingBit + fraction.toNat := by
  have hfraction : fraction.toNat < 2 ^ 52 := fraction.isLt
  unfold UnpackedFloat.packComponents
  rw [BitVec.toNat_append, BitVec.toNat_append, ← Nat.shiftLeft_add_eq_or_of_lt hfraction]
  simp [UnpackedFloat.Sign.toBitVec, Nat.shiftLeft_eq, leadingBit]

theorem formOfWord_packComponents (exponent : BitVec 11) (fraction : BitVec 52)
    (hexponent : exponent.toNat ≠ 2047) :
    formOfWord (UnpackedFloat.packComponents .binary64 .positive exponent fraction).toNat =
      if exponent.toNat = 0 then .finite false fraction.toNat (-1074)
      else .finite false (leadingBit + fraction.toNat) (exponent.toNat - 1075) := by
  have hlt : exponent.toNat < 2048 := exponent.isLt
  have hfraction : fraction.toNat < 4503599627370496 := fraction.isLt
  rw [toNat_packComponents]
  generalize exponent.toNat = E at *
  generalize fraction.toNat = F at *
  have hsign : signBit (E * leadingBit + F) = false := by
    unfold signBit leadingBit
    rw [decide_eq_false_iff_not]
    omega
  have hE : exponentField (E * leadingBit + F) = E := by
    unfold exponentField leadingBit
    omega
  have hF : fractionField (E * leadingBit + F) = F := by
    unfold fractionField leadingBit
    omega
  unfold formOfWord
  rw [hsign, hE, hF, if_neg hexponent]

section

variable (b : BitVec Format.binary64.numBits)

theorem toNat_unpackMantissa : (UnpackedFloat.unpackMantissa b).toNat = fractionField b.toNat := by
  simp [UnpackedFloat.unpackMantissa, fractionField, leadingBit]

theorem toNat_unpackExponent : (UnpackedFloat.unpackExponent b).toNat = exponentField b.toNat := by
  simp [UnpackedFloat.unpackExponent, exponentField, leadingBit, Nat.shiftRight_eq_div_pow]

theorem ofBitVec_unpackSign (h : signBit b.toNat = false) :
    UnpackedFloat.Sign.ofBitVec (UnpackedFloat.unpackSign b) = .positive := by
  have hbit : (UnpackedFloat.unpackSign b).toNat = b.toNat / 9223372036854775808 % 2 := by
    show (BitVec.extractLsb 63 63 b).toNat = _
    simp [Nat.shiftRight_eq_div_pow]
  have hzero : b.toNat / 9223372036854775808 % 2 = 0 := by
    have := decide_eq_false_iff_not.mp h
    omega
  apply if_pos
  apply BitVec.eq_of_toNat_eq
  rw [hbit, hzero]
  rfl

end

/-!
## Taking numbers apart
-/

theorem formOfWord_canonical {word m : Nat} {e : Int} {negative : Bool}
    (h : formOfWord word = .finite negative m e) : Canonical m e ∧ e ≤ 971 := by
  have hfraction : fractionField word < leadingBit := Nat.mod_lt _ (by decide)
  have hexponent : exponentField word < 2048 := Nat.mod_lt _ (by decide)
  unfold leadingBit at hfraction
  unfold formOfWord at h
  split at h
  · split at h <;> cases h
  · split at h
    · cases h
      exact ⟨⟨by omega, by omega, .inr rfl⟩, by omega⟩
    · cases h
      unfold leadingBit
      exact ⟨⟨by omega, by omega, .inl (by omega)⟩, by omega⟩

theorem signBit_of_finite {word m : Nat} {e : Int} {negative : Bool}
    (h : formOfWord word = .finite negative m e) : signBit word = negative := by
  unfold formOfWord at h
  split at h
  · split at h <;> cases h
  · split at h <;> exact (Form.finite.inj h).left

section

variable {b : BitVec Format.binary64.numBits}

theorem unpack_subnormal
    (hsign : UnpackedFloat.Sign.ofBitVec (UnpackedFloat.unpackSign b) = .positive)
    (hzero : UnpackedFloat.unpackExponent b = 0#_) :
    UnpackedFloat.unpack .binary64 b = ofParts (UnpackedFloat.unpackMantissa b).toNat (-1074) := by
  have hone : ¬ UnpackedFloat.unpackExponent b = -1#_ := by
    rw [hzero]
    decide
  unfold UnpackedFloat.unpack
  dsimp only
  rw [if_neg hone, if_pos hzero, hsign, hzero]
  unfold ofParts
  by_cases hfraction : UnpackedFloat.unpackMantissa b = 0#_
  · rw [dif_pos hfraction, dif_pos (by rw [hfraction]; rfl)]
  · have hpos : (UnpackedFloat.unpackMantissa b).toNat ≠ 0 :=
      fun h => hfraction (BitVec.eq_of_toNat_eq h)
    rw [dif_neg hfraction, dif_neg hpos]
    rfl

theorem unpack_normal
    (hsign : UnpackedFloat.Sign.ofBitVec (UnpackedFloat.unpackSign b) = .positive)
    (hzero : UnpackedFloat.unpackExponent b ≠ 0#_) (hone : UnpackedFloat.unpackExponent b ≠ -1#_) :
    UnpackedFloat.unpack .binary64 b = ofParts (leadingBit + (UnpackedFloat.unpackMantissa b).toNat)
      ((UnpackedFloat.unpackExponent b).toNat - 1075) := by
  have hvalue : ((1#1 ++ UnpackedFloat.unpackMantissa b :
      BitVec (1 + Format.binary64.mantissaBitsWithoutImplicit))).toNat =
      leadingBit + (UnpackedFloat.unpackMantissa b).toNat := by
    have hfraction : (UnpackedFloat.unpackMantissa b).toNat < 2 ^ 52 :=
      (UnpackedFloat.unpackMantissa b).isLt
    rw [BitVec.toNat_append, ← Nat.shiftLeft_add_eq_or_of_lt hfraction]
    rfl
  have hpos : leadingBit + (UnpackedFloat.unpackMantissa b).toNat ≠ 0 := by
    unfold leadingBit
    omega
  unfold UnpackedFloat.unpack
  dsimp only
  rw [if_neg hone, if_neg hzero, hsign]
  unfold ofParts
  rw [dif_neg hpos]
  congr 1

end

theorem unpack_of_form {b : BitVec Format.binary64.numBits} {m : Nat} {e : Int}
    (h : formOfWord b.toNat = .finite false m e) :
    UnpackedFloat.unpack .binary64 b = ofParts m e := by
  have hsign := ofBitVec_unpackSign b (signBit_of_finite h)
  have hexponent := toNat_unpackExponent b
  unfold formOfWord at h
  rw [← toNat_unpackMantissa b, ← hexponent] at h
  split at h
  · split at h <;> cases h
  rename_i hfinite
  split at h
  · rename_i hzero
    rcases Form.finite.inj h with ⟨-, rfl, rfl⟩
    exact unpack_subnormal hsign (BitVec.eq_of_toNat_eq hzero)
  · rename_i hnormal
    rcases Form.finite.inj h with ⟨-, rfl, rfl⟩
    exact unpack_normal hsign (fun h => hnormal (congrArg BitVec.toNat h))
      fun h => hfinite (congrArg BitVec.toNat h)

theorem unpack_eq_ofParts {x : Float} {m : Nat} {e : Int} (h : form x = .finite false m e) :
    x.toModel.unpack = ofParts m e :=
  unpack_of_form h

/-!
## Putting numbers together
-/

theorem pack_finite {m : Nat} {e : Int} (hm : 0 < m) :
    UnpackedFloat.pack .binary64 (.finite .positive m e hm) =
      if 2 ^ 11 ≤ (e + 1075).toNat + 1 then UnpackedFloat.packedInfinity .binary64 .positive
      else if m.log2 + 1 = 53 then
        UnpackedFloat.packComponents .binary64 .positive (BitVec.ofNat 11 (e + 1075).toNat)
          (BitVec.ofNat 52 m)
      else UnpackedFloat.packComponents .binary64 .positive 0#11 (BitVec.ofNat 52 m) := by
  have hbias : e + 1075 = e + (1023 : Nat) + (52 : Nat) := by omega
  rw [hbias]
  rfl

theorem form_pack {m : Nat} {e : Int} (h : Canonical m e) (he : e ≤ 971) :
    form (.ofModel (.pack (ofParts m e))) = .finite false m e := by
  show formOfWord (UnpackedFloat.pack .binary64 (ofParts m e)).toNat = _
  rcases h with ⟨hlt, hleast, hfull⟩
  unfold ofParts
  by_cases hzero : m = 0
  · subst hzero
    have he' : e = -1074 := hfull.resolve_left (by decide)
    rw [dif_pos rfl, he']
    rfl
  · have hbiased : (e + 1075).toNat + 1 < 2 ^ 11 := by omega
    rw [dif_neg hzero, pack_finite, if_neg (Nat.not_le.mpr hbiased)]
    -- The leading bit of a full significand is left out, and the exponent stands for it.
    by_cases hlarge : 2 ^ 52 ≤ m
    · have hlog : m.log2 = 52 := (Nat.log2_eq_iff hzero).mpr ⟨hlarge, hlt⟩
      have hexponent : (BitVec.ofNat 11 (e + 1075).toNat).toNat = (e + 1075).toNat := by
        rw [BitVec.toNat_ofNat, Nat.mod_eq_of_lt (by omega)]
      have hfraction : leadingBit + (BitVec.ofNat 52 m).toNat = m := by
        rw [BitVec.toNat_ofNat]
        unfold leadingBit
        omega
      rw [if_pos (by rw [hlog]), formOfWord_packComponents _ _ (by omega), hexponent,
        if_neg (by omega), hfraction]
      congr 1
      omega
    · have hlog : m.log2 < 52 := (Nat.log2_lt hzero).mpr (Nat.not_le.mp hlarge)
      rw [if_neg (by omega), formOfWord_packComponents _ _ (by decide),
        if_pos (by decide), BitVec.toNat_ofNat, Nat.mod_eq_of_lt (Nat.not_le.mp hlarge),
        hfull.resolve_left hlarge]

end Binary64
end LoadFleet
