/-!
# Little-endian numbers

Numbers travel with their least significant byte first, in a fixed count of bytes. Binary64
numbers travel as the 64-bit word of their bits.
-/

namespace LoadFleet
namespace LittleEndian

/-- The low bytes of a number, least significant first. -/
def split : Nat -> Nat -> List UInt8
  | 0, _ => []
  | width + 1, n => UInt8.ofNat n :: split width (n / 256)

def combine : List UInt8 -> Nat
  | [] => 0
  | byte :: rest => byte.toNat + 256 * combine rest

@[simp]
theorem length_split (width n : Nat) : (split width n).length = width := by
  induction width generalizing n with
  | zero => rfl
  | succ width ih => simp [split, ih]

theorem combine_split (width n : Nat) : combine (split width n) = n % Nat.pow 256 width := by
  induction width generalizing n with
  | zero => simp [split, combine, Nat.mod_one]
  | succ width ih =>
      have hpow : Nat.pow 256 (width + 1) = 256 * Nat.pow 256 width := Nat.mul_comm _ _
      rw [hpow, Nat.mod_mul, split, combine, ih, UInt8.toNat_ofNat']

theorem split_combine (bytes : List UInt8) : split bytes.length (combine bytes) = bytes := by
  induction bytes with
  | nil => rfl
  | cons byte rest ih =>
      have hlt : byte.toNat < 256 := byte.toNat_lt
      simp only [List.length_cons, split, combine]
      rw [Nat.add_mul_div_left _ _ (by decide), Nat.div_eq_of_lt hlt, Nat.zero_add, ih]
      congr 1
      apply UInt8.toNat_inj.mp
      simp only [UInt8.toNat_ofNat']
      omega

/-!
## Words
-/

def ofWord32 (w : UInt32) : List UInt8 := split 4 w.toNat

def ofWord64 (w : UInt64) : List UInt8 := split 8 w.toNat

def ofFloat (x : Float) : List UInt8 := ofWord64 x.toBits

def word32 (bytes : List UInt8) : UInt32 := UInt32.ofNat (combine bytes)

def word64 (bytes : List UInt8) : UInt64 := UInt64.ofNat (combine bytes)

def float (bytes : List UInt8) : Float := Float.ofBits (word64 bytes)

@[simp]
theorem length_ofWord32 (w : UInt32) : (ofWord32 w).length = 4 := length_split _ _

@[simp]
theorem length_ofWord64 (w : UInt64) : (ofWord64 w).length = 8 := length_split _ _

@[simp]
theorem length_ofFloat (x : Float) : (ofFloat x).length = 8 := length_ofWord64 _

@[simp]
theorem word32_ofWord32 (w : UInt32) : word32 (ofWord32 w) = w := by
  apply UInt32.toNat_inj.mp
  simp only [word32, ofWord32, combine_split, UInt32.toNat_ofNat', Nat.pow_eq]
  have := w.toNat_lt
  omega

@[simp]
theorem word64_ofWord64 (w : UInt64) : word64 (ofWord64 w) = w := by
  apply UInt64.toNat_inj.mp
  simp only [word64, ofWord64, combine_split, UInt64.toNat_ofNat', Nat.pow_eq]
  have := w.toNat_lt
  omega

end LittleEndian
end LoadFleet
