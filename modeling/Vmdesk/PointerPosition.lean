import Vmdesk.Message
import Vmdesk.Rounding
import Mathlib.Tactic.FieldSimp
import Mathlib.Tactic.Ring

/-! From a position inside the video to the sixteen bits that are sent. Numbers of the source are
read as exact rationals, so every position is finite. -/
namespace Vmdesk
open Rounding

namespace MouseMove

def top : Nat := 65535

def scaled (v size : ℚ) : ℚ := max 0 (min (v/(size-1)) 1) * top

def norm (v size : ℚ) : UInt16 :=
  if size ≤ 1 then 0 else UInt16.ofNat (saturate top (roundAway (scaled v size)))

def fromVideoPosition (x y width height : ℚ) : MouseMove := ⟨norm x width,norm y height⟩

section
variable {size v : ℚ}

theorem scaledLow (v size : ℚ) : 0 ≤ scaled v size :=
  mul_nonneg (le_max_left _ _) (Nat.cast_nonneg _)

theorem scaledHigh (v size : ℚ) : scaled v size ≤ top := by
  have part : max 0 (min (v/(size-1)) 1) ≤ 1 := max_le zero_le_one (min_le_right _ _)
  exact mul_le_of_le_one_left (Nat.cast_nonneg _) part

theorem normRounds (wide : 1 < size) : ((norm v size).toNat : ℤ) = roundAway (scaled v size) := by
  have low : 0 ≤ roundAway (scaled v size) := leRoundAway (by exact_mod_cast scaledLow v size)
  have high : roundAway (scaled v size) ≤ top := roundAwayLe (by exact_mod_cast scaledHigh v size)
  have fits := saturateFits low high
  have least : saturate top (roundAway (scaled v size)) < 65536 := by
    unfold top at high fits ⊢
    omega
  unfold norm
  rw [if_neg (not_le.mpr wide),UInt16.toNat_ofNat_of_lt' least]
  exact fits

theorem scaledMono {u v : ℚ} (wide : 1 < size) (le : u ≤ v) : scaled u size ≤ scaled v size := by
  have positive : 0 < size - 1 := sub_pos.mpr wide
  unfold scaled
  gcongr

theorem normMono {u v : ℚ} (le : u ≤ v) : norm u size ≤ norm v size := by
  by_cases wide : 1 < size
  · have rounds := roundAwayMono (scaledMono wide le)
    rw [← normRounds wide,← normRounds wide] at rounds
    rw [UInt16.le_iff_toNat_le]
    exact_mod_cast rounds
  · simp [norm,not_lt.mp wide]

theorem normLeft (before : v ≤ 0) : norm v size = 0 := by
  by_cases wide : 1 < size
  · have positive : 0 < size - 1 := sub_pos.mpr wide
    have zero : scaled v size = 0 := by
      have part : v/(size-1) ≤ 0 := div_nonpos_of_nonpos_of_nonneg before positive.le
      rw [scaled,max_eq_left ((min_le_left _ _).trans part),zero_mul]
    have rounds := normRounds (v := v) wide
    rw [zero,← Int.cast_zero,roundAwayInt] at rounds
    exact UInt16.toNat_inj.mp (by exact_mod_cast rounds)
  · simp [norm,not_lt.mp wide]

theorem normRight (wide : 1 < size) (past : size - 1 ≤ v) : norm v size = 65535 := by
  have positive : 0 < size - 1 := sub_pos.mpr wide
  have whole : scaled v size = top := by
    have part : 1 ≤ v/(size-1) := (one_le_div positive).mpr past
    rw [scaled,min_eq_right part,max_eq_right zero_le_one,one_mul]
  have rounds := normRounds (v := v) wide
  rw [whole,roundAwayNat] at rounds
  exact UInt16.toNat_inj.mp (by exact_mod_cast rounds)
end

theorem scaledPixel {size pixel : Nat} (wide : 2 ≤ size) (inside : pixel < size) :
    scaled pixel size * (size - 1) = pixel*top := by
  have positive : (0 : ℚ) < size - 1 := by
    have cast : (2 : ℚ) ≤ size := by exact_mod_cast wide
    linarith
  have fits : (pixel : ℚ) ≤ size - 1 := by
    have cast : ((pixel + 1 : ℕ) : ℚ) ≤ size := by exact_mod_cast inside
    push_cast at cast
    linarith
  have part : (pixel : ℚ)/(size-1) ≤ 1 := (div_le_one positive).mpr fits
  have least : 0 ≤ (pixel : ℚ)/(size-1) := div_nonneg (Nat.cast_nonneg _) positive.le
  rw [scaled,min_eq_left part,max_eq_right least]
  field_simp

/- What is sent for a pixel is less than half a pixel away from it. At the largest size every
pixel has a value of its own and nothing is rounded. -/
theorem normNear {size pixel : Nat} (wide : 2 ≤ size) (limit : size ≤ 65536) (inside : pixel < size) :
    |(pixel : ℚ) - (norm pixel size).toNat*(size - 1)/top| < 1/2 := by
  have cast : (2 : ℚ) ≤ size := by exact_mod_cast wide
  have rounds := normRounds (v := pixel) (lt_of_lt_of_le one_lt_two cast)
  have value : ((norm pixel size).toNat : ℚ) = roundAway (scaled pixel size) := by exact_mod_cast rounds
  have back := scaledPixel wide inside
  have error := roundAwayError (scaled pixel size)
  rw [value]
  generalize scaled (pixel : ℚ) size = s at *
  have positive : (0 : ℚ) < top := by norm_num [top]
  have moved : (pixel : ℚ) - roundAway s*(size - 1)/top = (s - roundAway s)*((size - 1)/top) := by
    field_simp
    linarith
  by_cases largest : size = 65536
  · have whole : s = (pixel : ℚ) := by
      rw [largest] at back
      norm_num [top] at back
      exact back
    rw [moved,whole,roundAwayNat]
    simp
  · have part : ((size : ℚ) - 1)/top < 1 := by
      have less : (size : ℚ) < 65536 := by exact_mod_cast lt_of_le_of_ne limit largest
      rw [div_lt_one positive]
      norm_num [top]
      linarith
    have least : 0 < ((size : ℚ) - 1)/top := div_pos (by linarith) positive
    rw [abs_sub_comm] at error
    rw [moved,abs_mul,abs_of_pos least]
    calc |s - roundAway s| * ((size - 1)/top) ≤ 1/2 * ((size - 1)/top) :=
          mul_le_mul_of_nonneg_right error least.le
      _ < 1/2 := by linarith

theorem normBack {size pixel : Nat} (wide : 2 ≤ size) (limit : size ≤ 65536) (inside : pixel < size) :
    roundAway ((norm pixel size).toNat*((size : ℚ) - 1)/top) = pixel := by
  refine roundAwayNear ?_
  exact_mod_cast normNear wide limit inside

theorem normStrict {size p q : Nat} (wide : 2 ≤ size) (limit : size ≤ 65536) (less : p < q)
    (inside : q < size) : norm p size < norm q size := by
  have le : norm p size ≤ norm q size := normMono (Nat.cast_le.mpr less.le)
  refine UInt16.lt_of_le_of_ne le (fun same => ?_)
  have left := normBack wide limit (less.trans inside)
  rw [same,normBack wide limit inside] at left
  omega

structure Lossless (coordinate : ℚ → UInt16) (size : Nat) : Prop where
  monotone : ∀ u v, u ≤ v → coordinate u ≤ coordinate v
  left : ∀ v ≤ 0, coordinate v = 0
  right : ∀ v, (size : ℚ) - 1 ≤ v → coordinate v = 65535
  strict : ∀ p q : Nat, p < q → q < size → coordinate p < coordinate q
  back : ∀ p : Nat, p < size → roundAway ((coordinate p).toNat*((size : ℚ) - 1)/65535) = p
  near : ∀ p : Nat, p < size → |(p : ℚ) - (coordinate p).toNat*((size : ℚ) - 1)/65535| < 1/2

theorem normLossless {size : Nat} (wide : 2 ≤ size) (limit : size ≤ 65536) :
    Lossless (fun v => norm v size) size where
  monotone := fun _ _ le => normMono le
  left := fun _ before => normLeft before
  right := fun _ past => normRight (by exact_mod_cast wide) past
  strict := fun _ _ less inside => normStrict wide limit less inside
  back := fun _ inside => by simpa [top] using normBack wide limit inside
  near := fun _ inside => by simpa [top] using normNear wide limit inside

theorem positionLossless {size : Nat} (wide : 2 ≤ size) (limit : size ≤ 65536) (other otherSize : ℚ) :
    Lossless (fun x => (fromVideoPosition x other size otherSize).x) size ∧
    Lossless (fun y => (fromVideoPosition other y otherSize size).y) size :=
  ⟨normLossless wide limit,normLossless wide limit⟩

theorem positionLosslessFull :
    Lossless (fun x => (fromVideoPosition x 0 1920 1080).x) 1920 ∧
    Lossless (fun y => (fromVideoPosition 0 y 1080 1920).y) 1920 :=
  positionLossless (by decide) (by decide) 0 1080

end MouseMove
end Vmdesk
