/-!
# Integers of 64 bits with a sign

Times, numbers in documents and numbers in options are such integers. Where sums of
them could leave the range they stop at its bounds.
-/

namespace CaseAccess.Integer64

def least : Int := -0x8000000000000000

def greatest : Int := 0x7fffffffffffffff

/-- Whether an integer is one of them. -/
def contains (n : Int) : Bool := least ≤ n && n ≤ greatest

/-- The nearest of them. -/
def clamp (n : Int) : Int :=
  if n < least then least else if greatest < n then greatest else n

/-- Clamping stays in the range. -/
theorem contains_clamp (n : Int) : contains (clamp n) = true := by
  unfold contains clamp
  split
  · decide
  · split
    · decide
    · simp; omega

theorem bounds_of_contains {n : Int} (h : contains n = true) :
    -0x8000000000000000 ≤ n ∧ n ≤ 0x7fffffffffffffff := by
  simp only [contains, Bool.and_eq_true, decide_eq_true_eq] at h
  exact h

/-- What is in the range is not changed by clamping. -/
theorem clamp_of_contains {n : Int} (h : contains n = true) : clamp n = n := by
  simp only [contains, Bool.and_eq_true, decide_eq_true_eq] at h
  rw [clamp, if_neg (by omega), if_neg (by omega)]

end CaseAccess.Integer64
