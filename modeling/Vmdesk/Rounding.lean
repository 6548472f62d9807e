import Mathlib.Algebra.Order.Floor.Ring
import Mathlib.Data.Rat.Floor
import Mathlib.Tactic.Linarith

/-! Rounding to the nearest integer with ties away from zero, and the saturating conversion of what
was rounded to an unsigned integer. -/
namespace Vmdesk.Rounding
variable {α : Type} [Field α] [LinearOrder α] [IsStrictOrderedRing α] [FloorRing α]
variable {x y : α} {n : ℤ}

def roundAway (x : α) : ℤ := if 0 ≤ x then ⌊x + 1/2⌋ else ⌈x - 1/2⌉

theorem roundAwayError (x : α) : |(roundAway x : α) - x| ≤ 1/2 := by
  rw [abs_le]
  unfold roundAway
  split
  · have lower := Int.lt_floor_add_one (x + 1/2)
    have upper := Int.floor_le (x + 1/2)
    constructor <;> linarith
  · have lower := Int.le_ceil (x - 1/2)
    have upper := Int.ceil_lt_add_one (x - 1/2)
    constructor <;> linarith

theorem roundAwayNear (near : |(n : α) - x| < 1/2) : roundAway x = n := by
  have error := roundAwayError x
  rw [abs_le] at error
  rw [abs_lt] at near
  have above : (roundAway x : α) < ((n + 1 : ℤ) : α) := by
    push_cast
    linarith
  have below : ((n - 1 : ℤ) : α) < (roundAway x : α) := by
    push_cast
    linarith
  rw [Int.cast_lt] at above below
  omega

@[simp] theorem roundAwayInt (n : ℤ) : roundAway (n : α) = n := roundAwayNear (by simp)

@[simp] theorem roundAwayNat (n : ℕ) : roundAway (n : α) = n := by
  rw [← Int.cast_natCast,roundAwayInt]

theorem roundAwayMono (le : x ≤ y) : roundAway x ≤ roundAway y := by
  unfold roundAway
  split <;> split
  · exact Int.floor_mono (by linarith)
  · linarith
  · have low : ⌈x - 1/2⌉ ≤ 0 := Int.ceil_le.mpr (by push_cast; linarith)
    have high : 0 ≤ ⌊y + 1/2⌋ := Int.le_floor.mpr (by push_cast; linarith)
    exact low.trans high
  · exact Int.ceil_mono (by linarith)

theorem roundAwayLe (le : x ≤ n) : roundAway x ≤ n := by
  have mono := roundAwayMono le
  rwa [roundAwayInt] at mono

theorem leRoundAway (le : (n : α) ≤ x) : n ≤ roundAway x := by
  have mono := roundAwayMono le
  rwa [roundAwayInt] at mono

/- The conversion of an integral value to an unsigned integer of at most `limit`. -/
def saturate (limit : Nat) (n : ℤ) : Nat := min n.toNat limit

theorem saturateFits {limit : Nat} (low : 0 ≤ n) (high : n ≤ limit) : (saturate limit n : ℤ) = n := by
  unfold saturate
  omega

def truncate (x : α) : ℤ := if 0 ≤ x then ⌊x⌋ else ⌈x⌉

theorem truncateError (x : α) : |x - truncate x| < 1 := by
  rw [abs_lt]
  unfold truncate
  split
  · have lower := Int.lt_floor_add_one x
    have upper := Int.floor_le x
    constructor <;> linarith
  · have lower := Int.le_ceil x
    have upper := Int.ceil_lt_add_one x
    constructor <;> linarith

@[simp] theorem truncateInt (n : ℤ) : truncate (n : α) = n := by simp [truncate]

theorem truncateLess (x : α) : |x - truncate x| ≤ |x| := by
  unfold truncate
  split
  · next positive =>
    have whole : (0 : α) ≤ ⌊x⌋ := by exact_mod_cast Int.floor_nonneg.mpr positive
    rw [abs_of_nonneg (sub_nonneg.mpr (Int.floor_le x)),abs_of_nonneg positive]
    linarith
  · next negative =>
    have below : x ≤ 0 := (not_le.mp negative).le
    have whole : (⌈x⌉ : α) ≤ 0 := by exact_mod_cast Int.ceil_le.mpr (by simpa using below)
    rw [abs_of_nonpos (sub_nonpos.mpr (Int.le_ceil x)),abs_of_nonpos below]
    linarith

theorem truncateBound {limit : Nat} (near : |x| < limit + 1) : |truncate x| ≤ limit := by
  rw [abs_lt] at near
  rw [abs_le]
  unfold truncate
  split
  · next positive =>
    have low : 0 ≤ ⌊x⌋ := Int.floor_nonneg.mpr positive
    have high : ⌊x⌋ < (limit : ℤ) + 1 := Int.floor_lt.mpr (by push_cast; linarith)
    constructor <;> omega
  · have high : ⌈x⌉ ≤ 0 := Int.ceil_le.mpr (by push_cast; linarith)
    have low : -((limit : ℤ) + 1) < ⌈x⌉ := Int.lt_ceil.mpr (by push_cast; linarith)
    constructor <;> omega

end Vmdesk.Rounding
