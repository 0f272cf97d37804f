/-!
# Words capped at their greatest value

Counters never wrap: a sum or product that does not fit a word is the greatest word. The cap is
applied to the exact natural number.
-/

namespace LoadFleet
namespace Capped

def word32 (n : Nat) : UInt32 := UInt32.ofNat (min n (4294967295))

def word64 (n : Nat) : UInt64 := UInt64.ofNat (min n (18446744073709551615))

@[simp]
theorem word32_toNat (n : Nat) : (word32 n).toNat = min n (4294967295) := by
  simp only [word32, UInt32.toNat_ofNat']
  omega

@[simp]
theorem word64_toNat (n : Nat) : (word64 n).toNat = min n (18446744073709551615) := by
  simp only [word64, UInt64.toNat_ofNat']
  omega

theorem word64_lt_iff (n : Nat) (w : UInt64) : word64 n < w <-> n < w.toNat := by
  have hword := w.toNat_lt
  rw [UInt64.lt_iff_toNat_lt, word64_toNat]
  omega

def add32 (a b : UInt32) : UInt32 := word32 (a.toNat + b.toNat)

def add64 (a b : UInt64) : UInt64 := word64 (a.toNat + b.toNat)

def mul64 (a b : UInt64) : UInt64 := word64 (a.toNat * b.toNat)

/-- The difference of 64-bit words, zero where the second is greater. -/
def sub64 (a b : UInt64) : UInt64 := word64 (a.toNat - b.toNat)

@[simp]
theorem sub64_toNat (a b : UInt64) : (sub64 a b).toNat = a.toNat - b.toNat := by
  have ha := a.toNat_lt
  simp only [sub64, word64_toNat]
  omega

end Capped
end LoadFleet
