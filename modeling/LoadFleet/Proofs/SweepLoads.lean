import LoadFleet.Pattern.Basic
import Mathlib.Algebra.Order.Floor.Div

/-!
# Loads of a sweep

Read as natural numbers, the loads of a sweep are a range with its stride.  A sweep ends at the
first load that is not below its end, or where the next load would not fit a word.  A load of that
size lies below no end, so the second way to end cuts nothing off.
-/

namespace LoadFleet
namespace Pattern

/-!
## Strides
-/

/-- A stride is needed as long as anything is left. -/
theorem ceilDiv_eq_succ {left stride : Nat} (hstride : 0 < stride) (hleft : 0 < left) :
    left ⌈/⌉ stride = (left - stride) ⌈/⌉ stride + 1 := by
  rw [Nat.ceilDiv_eq_add_pred_div, Nat.ceilDiv_eq_add_pred_div]
  rcases Nat.lt_or_ge left stride with hlast | hmore
  · have hone : (left + stride - 1) / stride = 1 := Nat.div_eq_of_lt_le (by omega) (by omega)
    have hnone : (left - stride + stride - 1) / stride = 0 := Nat.div_eq_of_lt (by omega)
    rw [hone, hnone]
  · have hsum : left + stride - 1 = left - stride + stride - 1 + stride := by omega
    rw [hsum, Nat.add_div_right _ hstride]

/-- The loads are a range, whichever of the two ends the sweep. -/
theorem toNat_stepLoads (start stop stride : UInt32) :
    (stepLoads start stop stride).map UInt32.toNat =
      List.range' start.toNat ((stop.toNat - start.toNat) ⌈/⌉ stride.toNat) stride.toNat := by
  -- By induction on the recursion of the sweep, which gets nearer to its end.
  fun_induction stepLoads start stop stride with
  | case1 start h ih =>
      have hlt : start.toNat < stop.toNat := UInt32.lt_iff_toNat_lt.mp h.left
      have hstride : 0 < stride.toNat := UInt32.lt_iff_toNat_lt.mp h.right
      rw [List.map_cons, ceilDiv_eq_succ hstride (by omega), List.range'_succ, Nat.sub_sub]
      congr 1
      split
      · rename_i hfits
        have hnext : (start + stride).toNat = start.toNat + stride.toNat := by
          rw [UInt32.toNat_add, Nat.mod_eq_of_lt hfits]
        rw [ih hfits, hnext]
      · rename_i hover
        have hnone : stop.toNat - (start.toNat + stride.toNat) = 0 := by
          have hstop := stop.toNat_lt
          omega
        rw [hnone, zero_ceilDiv]
        rfl
  | case2 start h =>
      have hnone : (stop.toNat - start.toNat) ⌈/⌉ stride.toNat = 0 := by
        rcases Nat.eq_zero_or_pos stride.toNat with hzero | hstride
        · rw [hzero, ceilDiv_zero]
        · have hend : stop.toNat ≤ start.toNat := by
            apply Nat.le_of_not_lt
            intro hlt
            exact h ⟨UInt32.lt_iff_toNat_lt.mpr hlt, UInt32.lt_iff_toNat_lt.mpr hstride⟩
          rw [Nat.sub_eq_zero_of_le hend, zero_ceilDiv]
      rw [hnone]
      rfl

/-!
## Visited loads
-/

section

variable {start stop stride : UInt32}

theorem mem_toNat_stepLoads_iff (hstride : 0 < stride.toNat) {load : Nat} :
    load ∈ (stepLoads start stop stride).map UInt32.toNat <->
      exists i, load = start.toNat + stride.toNat * i ∧ load < stop.toNat := by
  have hcount (i : Nat) : i < (stop.toNat - start.toNat) ⌈/⌉ stride.toNat <->
      start.toNat + stride.toNat * i < stop.toNat := by
    rw [← Nat.not_le, ceilDiv_le_iff_le_mul hstride]
    omega
  rw [toNat_stepLoads, List.mem_range']
  constructor
  · intro h
    rcases h with ⟨i, hi, rfl⟩
    exact ⟨i, rfl, (hcount i).mp hi⟩
  · intro h
    rcases h with ⟨i, rfl, hstop⟩
    exact ⟨i, (hcount i).mpr hstop, rfl⟩

theorem mem_stepLoads_iff (hstride : 0 < stride.toNat) {load : UInt32} :
    load ∈ stepLoads start stop stride <->
      start ≤ load ∧ load < stop ∧ stride.toNat ∣ load.toNat - start.toNat := by
  have hinjective : Function.Injective UInt32.toNat := fun _ _ => UInt32.toNat_inj.mp
  rw [← List.mem_map_of_injective hinjective, mem_toNat_stepLoads_iff hstride,
    UInt32.le_iff_toNat_le, UInt32.lt_iff_toNat_lt]
  constructor
  · intro h
    rcases h with ⟨i, hload, hstop⟩
    exact ⟨by omega, hstop, i, by omega⟩
  · intro h
    rcases h with ⟨hstart, hstop, i, hi⟩
    exact ⟨i, by omega, hstop⟩

theorem stepLoads_increasing (hstride : 0 < stride.toNat) :
    (stepLoads start stop stride).Pairwise (· < ·) := by
  have hrange := List.pairwise_lt_range' (s := start.toNat)
    (n := (stop.toNat - start.toNat) ⌈/⌉ stride.toNat) stride.toNat hstride
  rw [← toNat_stepLoads, List.pairwise_map] at hrange
  exact hrange.imp UInt32.lt_iff_toNat_lt.mpr

theorem length_stepLoads (start stop stride : UInt32) :
    (stepLoads start stop stride).length = (stop.toNat - start.toNat) ⌈/⌉ stride.toNat := by
  rw [← List.length_map UInt32.toNat, toNat_stepLoads, List.length_range']

end

/-- The loads of a sweep are all that lie on its strides, from its start on and below its end.  The
last part says so of exact numbers, among which no sum is too large for a word. -/
theorem step_loads_progression (start stop stride : UInt32) :
    let loads := stepLoads start stop stride
    (stride = 0 ∨ stop ≤ start -> loads = []) ∧
      (0 < stride -> start < stop ->
        loads.Pairwise (· < ·) ∧ loads.head? = some start ∧
          loads.length = (stop.toNat - start.toNat) ⌈/⌉ stride.toNat ∧
          (forall load, load ∈ loads <->
            start ≤ load ∧ load < stop ∧ stride.toNat ∣ load.toNat - start.toNat) ∧
          forall i, start.toNat + stride.toNat * i < stop.toNat ->
            start.toNat + stride.toNat * i ∈ loads.map UInt32.toNat) := by
  intro loads
  constructor
  · intro hnone
    have hguard : ¬ (start < stop ∧ 0 < stride) := by
      intro h
      rcases hnone with rfl | hend
      · exact UInt32.lt_irrefl 0 h.right
      · exact UInt32.not_lt.mpr hend h.left
    show stepLoads start stop stride = []
    rw [stepLoads, if_neg hguard]
  · intro hpos hlt
    have hstride : 0 < stride.toNat := UInt32.lt_iff_toNat_lt.mp hpos
    have hhead : loads.head? = some start := by
      show (stepLoads start stop stride).head? = some start
      rw [stepLoads, if_pos ⟨hlt, hpos⟩, List.head?_cons]
    refine ⟨stepLoads_increasing hstride, hhead, length_stepLoads start stop stride,
      fun _ => mem_stepLoads_iff hstride, ?_⟩
    intro i hi
    exact (mem_toNat_stepLoads_iff hstride).mpr ⟨i, rfl, hi⟩

/-- Near the greatest word a sweep ends because its third load would not fit one.  That load lies
above the end, so the two before it are all there are. -/
theorem step_loads_progression_nearGreatest :
    let loads := stepLoads 4294967290 4294967295 3
    loads.head? = some 4294967290 ∧ loads.length = 2 ∧ 4294967293 ∈ loads ∧
      4294967294 ∉ loads ∧ stepLoads 7 7 3 = [] := by
  intro loads
  rcases step_loads_progression 4294967290 4294967295 3 with ⟨-, hvisited⟩
  rcases hvisited (by decide) (by decide) with ⟨-, hhead, hlength, hmem, -⟩
  rcases step_loads_progression 7 7 3 with ⟨hnone, -⟩
  have hcount : 5 ⌈/⌉ 3 = 2 := by
    rw [Nat.ceilDiv_eq_add_pred_div]
  refine ⟨hhead, hlength.trans hcount, ?_, ?_, hnone (.inr (by decide))⟩
  · rw [hmem]
    decide
  · rw [hmem]
    decide

end Pattern
end LoadFleet
