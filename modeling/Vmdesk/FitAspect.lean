import Vmdesk.VideoRect

/-! The size to which a decoded picture is scaled for the window. -/
namespace Vmdesk
open Rounding

namespace FitAspect

def top : Nat := 4294967295

/- `(side.round() as u32).clamp(1, limit).max(2)` -/
def roundSide (side : ℚ) (limit : Nat) : Nat :=
  max (max 1 (min (saturate top (roundAway side)) limit)) 2

def atLeastOne (size : UInt32) : Nat := max size.toNat 1

def scale (tw th sw sh : ℚ) : ℚ := min (tw/sw) (th/sh)

/- Computes the largest `src`-aspect rectangle that fits into `target`. -/
def fitAspect (target src : UInt32 × UInt32) : UInt32 × UInt32 :=
  let tw := atLeastOne target.1
  let th := atLeastOne target.2
  let sw := atLeastOne src.1
  let sh := atLeastOne src.2
  (UInt32.ofNat (roundSide (sw * scale tw th sw sh) tw),
    UInt32.ofNat (roundSide (sh * scale tw th sw sh) th))

def Near (side : Nat) (ideal : ℚ) : Prop :=
  |(side : ℚ) - ideal| ≤ 1/2 ∨ roundAway ideal < 2 ∧ side = 2

structure Fitted (tw th sw sh w h : Nat) : Prop where
  width : 2 ≤ w ∧ w ≤ tw
  height : 2 ≤ h ∧ h ≤ th
  touches : w = tw ∧ Near h (tw*sh/sw) ∨ h = th ∧ Near w (th*sw/sh)

section
variable {side : ℚ} {limit : Nat}

theorem roundSideValue (small : limit ≤ top) (low : 0 ≤ side)
    (high : side ≤ limit) : (roundSide side limit : ℤ) = max (roundAway side) 2 := by
  have lower : 0 ≤ roundAway side := leRoundAway (by exact_mod_cast low)
  have upper : roundAway side ≤ limit := roundAwayLe (by exact_mod_cast high)
  have fits := saturateFits lower (upper.trans (Nat.cast_le.mpr small))
  unfold roundSide
  omega

theorem roundSideFits (least : 2 ≤ limit) (small : limit ≤ top) (low : 0 ≤ side)
    (high : side ≤ limit) : 2 ≤ roundSide side limit ∧ roundSide side limit ≤ limit := by
  have value := roundSideValue small low high
  have upper : roundAway side ≤ limit := roundAwayLe (by exact_mod_cast high)
  omega

theorem roundSideNear (small : limit ≤ top) (low : 0 ≤ side)
    (high : side ≤ limit) : Near (roundSide side limit) side := by
  have value := roundSideValue small low high
  by_cases raised : roundAway side < 2
  · exact .inr ⟨raised,by omega⟩
  · left
    have same : (roundSide side limit : ℤ) = roundAway side := by omega
    have cast : (roundSide side limit : ℚ) = roundAway side := by exact_mod_cast same
    rw [cast]
    exact roundAwayError side

theorem roundSideWhole (least : 2 ≤ limit) (small : limit ≤ top) :
    roundSide limit limit = limit := by
  have value := roundSideValue small (Nat.cast_nonneg limit) le_rfl
  rw [roundAwayNat] at value
  omega
end

section
variable {tw th sw sh : Nat}

theorem fitted (wide : 2 ≤ tw) (high : 2 ≤ th) (smallW : tw ≤ top) (smallH : th ≤ top)
    (columns : 1 ≤ sw) (rows : 1 ≤ sh) :
    Fitted tw th sw sh (roundSide (sw * scale tw th sw sh) tw)
      (roundSide (sh * scale tw th sw sh) th) := by
  have posW : (0 : ℚ) < sw := by exact_mod_cast columns
  have posH : (0 : ℚ) < sh := by exact_mod_cast rows
  have tightW : (sw : ℚ) * scale tw th sw sh ≤ tw := by
    have least : scale tw th sw sh ≤ (tw : ℚ)/sw := min_le_left _ _
    rwa [le_div_iff₀ posW,mul_comm] at least
  have tightH : (sh : ℚ) * scale tw th sw sh ≤ th := by
    have least : scale tw th sw sh ≤ (th : ℚ)/sh := min_le_right _ _
    rwa [le_div_iff₀ posH,mul_comm] at least
  have nonneg : 0 ≤ scale (tw : ℚ) th sw sh := by
    unfold scale
    positivity
  have lowW := mul_nonneg posW.le nonneg
  have lowH := mul_nonneg posH.le nonneg
  refine ⟨roundSideFits wide smallW lowW tightW,roundSideFits high smallH lowH tightH,?_⟩
  obtain narrow | flat := min_choice ((tw : ℚ)/sw) ((th : ℚ)/sh)
  · left
    have whole : (sw : ℚ) * scale tw th sw sh = tw := by
      rw [scale,narrow]
      field_simp
    have other : (sh : ℚ) * scale tw th sw sh = tw*sh/sw := by
      rw [scale,narrow]
      field_simp
    rw [whole,roundSideWhole wide smallW]
    exact ⟨rfl,other ▸ roundSideNear smallH lowH tightH⟩
  · right
    have whole : (sh : ℚ) * scale tw th sw sh = th := by
      rw [scale,flat]
      field_simp
    have other : (sw : ℚ) * scale tw th sw sh = th*sw/sh := by
      rw [scale,flat]
      field_simp
    rw [whole,roundSideWhole high smallH]
    exact ⟨rfl,other ▸ roundSideNear smallW lowW tightW⟩
end

theorem belowTop (size : UInt32) : atLeastOne size ≤ top := by
  have limit := size.toNat_lt
  unfold atLeastOne top
  omega

section
variable {target src : UInt32 × UInt32}

theorem fitAspectFitted (wide : 2 ≤ target.1.toNat) (high : 2 ≤ target.2.toNat) :
    Fitted target.1.toNat target.2.toNat (max src.1.toNat 1) (max src.2.toNat 1)
      (fitAspect target src).1.toNat (fitAspect target src).2.toNat := by
  have width : atLeastOne target.1 = target.1.toNat := by
    unfold atLeastOne
    omega
  have height : atLeastOne target.2 = target.2.toNat := by
    unfold atLeastOne
    omega
  have columns : 1 ≤ atLeastOne src.1 := Nat.le_max_right _ _
  have rows : 1 ≤ atLeastOne src.2 := Nat.le_max_right _ _
  have fits := fitted wide high (width ▸ belowTop target.1) (height ▸ belowTop target.2) columns rows
  have limitW := target.1.toNat_lt
  have limitH := target.2.toNat_lt
  have first := fits.width.2
  have second := fits.height.2
  simp only [fitAspect,width,height]
  rw [UInt32.toNat_ofNat_of_lt' (first.trans_lt limitW),
    UInt32.toNat_ofNat_of_lt' (second.trans_lt limitH)]
  exact fits

theorem fitAspectExact (wide : 2 ≤ target.1.toNat) (high : 2 ≤ target.2.toNat) :
    Fitted target.1.toNat target.2.toNat (max src.1.toNat 1) (max src.2.toNat 1)
      (fitAspect target src).1.toNat (fitAspect target src).2.toNat ∧
    ∀ frame : RgbFrame, (frame.width,frame.height) = fitAspect target src →
      videoRect (some target) (some frame) =
        ⟨⌊((target.1.toNat : ℚ) - frame.width.toNat)/2⌋,⌊((target.2.toNat : ℚ) - frame.height.toNat)/2⌋,
          frame.width.toNat,frame.height.toNat⟩ := by
  have result : Fitted target.1.toNat target.2.toNat (max src.1.toNat 1) (max src.2.toNat 1)
      (fitAspect target src).1.toNat (fitAspect target src).2.toNat := fitAspectFitted wide high
  refine ⟨result,fun frame sized => ?_⟩
  rw [← sized] at result
  have fits : Fits frame target.1 target.2 := ⟨result.width.2,result.height.2⟩
  rw [videoRectFits (by omega) (by omega) fits,floorHalf fits.1,floorHalf fits.2]
  rfl

theorem fitAspectExactBanner :
    Fitted 10 10 1920 1080 (fitAspect (10,10) (1920,1080)).1.toNat
      (fitAspect (10,10) (1920,1080)).2.toNat ∧
    ∀ frame : RgbFrame, (frame.width,frame.height) = fitAspect (10,10) (1920,1080) →
      videoRect (some (10,10)) (some frame) =
        ⟨⌊(((10 : ℕ) : ℚ) - frame.width.toNat)/2⌋,⌊(((10 : ℕ) : ℚ) - frame.height.toNat)/2⌋,
          frame.width.toNat,frame.height.toNat⟩ :=
  @fitAspectExact (10,10) (1920,1080) (by decide) (by decide)

example : fitAspect (10,10) (1920,1080) = (10,6) := by decide +kernel
end

end FitAspect
end Vmdesk
