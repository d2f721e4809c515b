import Mathlib

/-! Machine arithmetic on naturals and integers. -/

namespace AgentiumOs.Lib.Word

/-- Largest value of a `w`-bit word. -/
def maxValue (w : ℕ) : ℕ := 2 ^ w - 1

def saturatingAdd (w a b : ℕ) : ℕ := min (a + b) (maxValue w)

/-- A `w`-bit word read as a signed number. -/
def asSigned (w n : ℕ) : ℤ := (n : ℤ).bmod (2 ^ w)

theorem le_saturatingAdd {w a : ℕ} (b : ℕ) (h : a ≤ maxValue w) : a ≤ saturatingAdd w a b := by
  simp only [saturatingAdd]
  omega

theorem saturatingAdd_le (w a b : ℕ) : saturatingAdd w a b ≤ maxValue w := by
  simp only [saturatingAdd]
  omega

theorem saturatingAdd_one_eq_iff (w a : ℕ) : saturatingAdd w a 1 = a ↔ a = maxValue w := by
  simp only [saturatingAdd]
  omega

theorem lt_saturatingAdd_one {w a : ℕ} (h : a < maxValue w) : a < saturatingAdd w a 1 := by
  simp only [saturatingAdd]
  omega

end AgentiumOs.Lib.Word
