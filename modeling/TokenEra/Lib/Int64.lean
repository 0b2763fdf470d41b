import Mathlib.Tactic

/-!
# 64-bit integers

What Go's `int` and `int64` keep of an integer: its remainder modulo `2 ^ 64`, as a signed number.
-/

namespace TokenEra.Lib

/-- What an `int64` keeps of an integer. -/
def wrap64 (x : Int) : Int := Int.bmod x (2 ^ 64)

theorem wrap64_of_fits {x : Int} (h : -2 ^ 63 ≤ x) (h' : x < 2 ^ 63) : wrap64 x = x := by
  unfold wrap64
  rw [Int.bmod_eq_of_le] <;> omega

theorem wrap64_eq_iff {x : Int} : wrap64 x = x ↔ -2 ^ 63 ≤ x ∧ x < 2 ^ 63 := by
  refine ⟨fun heq => ?_, fun h => wrap64_of_fits h.1 h.2⟩
  have hle := Int.le_bmod (x := x) (m := 2 ^ 64) (by decide)
  have hlt := Int.bmod_lt (x := x) (m := 2 ^ 64) (by decide)
  rw [wrap64] at heq
  rw [heq] at hle hlt
  constructor <;> omega

/-- A number that is too large by less than `2 ^ 63` turns negative. -/
theorem wrap64_of_exceeds {x : Int} (h : 2 ^ 63 ≤ x) (h' : x < 2 ^ 64) : wrap64 x = x - 2 ^ 64 := by
  rw [wrap64, ← Int.sub_bmod_right, ← wrap64]
  exact wrap64_of_fits (by omega) (by omega)

end TokenEra.Lib
