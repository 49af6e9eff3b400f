import Mathlib.Algebra.BigOperators.Group.List.Basic
import Mathlib.Tactic

/-!
# Saturating fixed-width arithmetic

A machine integer is a natural number together with the largest value its type
holds.  Addition and multiplication clamp at that value; subtraction clamps at
zero, which is what truncated subtraction on `ℕ` already does.
-/

namespace Substrate

def u32Max : ℕ := 2 ^ 32 - 1
def u64Max : ℕ := 2 ^ 64 - 1
def u128Max : ℕ := 2 ^ 128 - 1

def satAdd (bound a b : ℕ) : ℕ := min (a + b) bound

def satMul (bound a b : ℕ) : ℕ := min (a * b) bound

section Saturating

variable {bound cap a b c : ℕ}

theorem satAdd_le (bound a b : ℕ) : satAdd bound a b ≤ bound :=
  min_le_right _ _

theorem satMul_le (bound a b : ℕ) : satMul bound a b ≤ bound :=
  min_le_right _ _

@[simp] theorem satMul_zero_left (bound a : ℕ) : satMul bound 0 a = 0 := by
  simp [satMul]

theorem satMul_mono (h : a ≤ b) : satMul bound a c ≤ satMul bound b c :=
  min_le_min_right bound (Nat.mul_le_mul_right c h)

theorem satAdd_of_le (h : a + b ≤ bound) : satAdd bound a b = a + b :=
  min_eq_left h

theorem satAdd_succ_of_lt (h : a < bound) : satAdd bound a 1 = a + 1 :=
  satAdd_of_le h

/-- A saturating counter shows the clamped number of bumps. -/
theorem satAdd_min_succ (bound a : ℕ) : satAdd bound (min a bound) 1 = min (a + 1) bound := by
  unfold satAdd
  omega

/-- Under a cap that the type can hold, saturation is invisible. -/
theorem min_satAdd_satMul (hcap : cap ≤ bound) :
    min cap (satAdd bound a (satMul bound b c)) = min cap (a + b * c) := by
  unfold satAdd satMul
  omega

/-- Folding saturating additions clamps the plain sum once. -/
theorem foldl_satAdd (l : List ℕ) (ha : a ≤ bound) :
    l.foldl (satAdd bound) a = min (a + l.sum) bound := by
  induction l generalizing a with
  | nil => simpa using ha
  | cons x l ih =>
    rw [List.foldl_cons, ih (satAdd_le bound a x), List.sum_cons]
    unfold satAdd
    omega

end Saturating

end Substrate
