import Vmdesk.Binary
import Vmdesk.InputAgreement

/-! The mouse wheel, from the window of the client to the device of the server. What is less than
a notch is carried over to the next event, in single precision. -/
namespace Vmdesk
open Binary (single)
open Rounding (truncate)

namespace Winit

inductive MouseScrollDelta where
  | lineDelta (x y : ℚ)
  | pixelDelta (x y : ℚ)
  deriving DecidableEq

inductive Report where
  | wheel (delta : MouseScrollDelta)
  | event (e : WindowEvent) (unscrolled : ∀ notches, e ≠ .mouseWheel notches)

end Winit
open Winit (MouseScrollDelta Report WindowEvent)

namespace App

def pixelsPerNotch : ℚ := 60

/- Only the horizontal sign flips. Lines come in single precision, pixels in double. -/
def notchesOf : MouseScrollDelta → ℚ × ℚ
  | .lineDelta x y => (-x,y)
  | .pixelDelta x y => (single.nearest (-single.nearest x/pixelsPerNotch),
      single.nearest (single.nearest y/pixelsPerNotch))

/- `clamp(-1000.0, 1000.0) as i16` -/
def clampNotches (n : ℤ) : Int16 := Int16.ofInt (max (-1000) (min 1000 n))

def handleWheel (acc : ℚ × ℚ) (delta : MouseScrollDelta) : (ℚ × ℚ) × Option (Int16 × Int16) :=
  let (dx,dy) := notchesOf delta
  let x := single.nearest (acc.1 + dx)
  let y := single.nearest (acc.2 + dy)
  let h := truncate x
  let v := truncate y
  if h ≠ 0 ∨ v ≠ 0
  then ((single.nearest (x - h),single.nearest (y - v)),some (clampNotches h,clampNotches v))
  else ((x,y),none)

def reported (acc : ℚ × ℚ) : List Report → List WindowEvent
  | [] => []
  | .wheel delta::rest =>
      .mouseWheel (handleWheel acc delta).2 :: reported (handleWheel acc delta).1 rest
  | .event e _::rest => e :: reported acc rest

def scrolled (reports : List Report) : List (ℚ × ℚ) :=
  reports.filterMap (fun report => match report with
    | .wheel delta => some (notchesOf delta)
    | .event _ _ => none)

end App

def UinputSink.turns (raw : LittleEndian.Bytes) : List Evdev.Event :=
  match (ControlMessage.decode raw).run with
  | some (.ok (.wheel horizontal vertical)) => wheelEvents horizontal vertical
  | _ => []

def Evdev.turned (axis : RelativeAxisCode) (events : List Event) : ℤ :=
  (events.map (fun e => match e with
    | .relative code value => if code = axis then value else 0
    | _ => 0)).sum

namespace App
open Evdev (turned)

def arrived (axis : Evdev.RelativeAxisCode) (ms : List ControlMessage) : ℤ :=
  turned axis ((ms.map ControlMessage.encode).flatMap UinputSink.turns)

section Notches
variable {axis : Evdev.RelativeAxisCode}

theorem clampNotchesFits {n : ℤ} (fits : |n| ≤ 1000) : (clampNotches n).toInt = n := by
  rw [abs_le] at fits
  unfold clampNotches
  rw [min_eq_right fits.2,max_eq_right fits.1]
  exact Int16.toInt_ofInt_of_le (by omega) (by omega)

theorem turnedAppend (left right : List Evdev.Event) :
    turned axis (left ++ right) = turned axis left + turned axis right := by
  simp [turned]

theorem arrivedAppend (left right : List ControlMessage) :
    arrived axis (left ++ right) = arrived axis left + arrived axis right := by
  simp [arrived,turnedAppend]

theorem arrivedWheel (horizontal vertical : Int16) :
    arrived .relHwheel [.wheel horizontal vertical] = horizontal.toInt ∧
    arrived .relWheel [.wheel horizontal vertical] = vertical.toInt := by
  have decoded : (ControlMessage.decode (ControlMessage.wheel horizontal vertical).encode).run =
    some (.ok (.wheel horizontal vertical)) := ControlMessage.decodeEncode _
  have events : UinputSink.turns (ControlMessage.wheel horizontal vertical).encode =
      UinputSink.wheelEvents horizontal vertical := by
    rw [UinputSink.turns,decoded]
  simp only [arrived,List.map_cons,List.map_nil,List.flatMap_cons,List.flatMap_nil,events,
    List.append_nil,UinputSink.wheelEvents,turnedAppend]
  refine ⟨?_,?_⟩
  · by_cases still : horizontal = 0 <;> by_cases level : vertical = 0 <;>
      simp [turned,still,level]
  · by_cases still : horizontal = 0 <;> by_cases level : vertical = 0 <;>
      simp [turned,still,level]

theorem arrivedOther {m : ControlMessage} (other : ∀ h v, m ≠ .wheel h v) : arrived axis [m] = 0 := by
  have decoded : (ControlMessage.decode m.encode).run = some (.ok m) := m.decodeEncode
  have none' : UinputSink.turns m.encode = [] := by
    rw [UinputSink.turns,decoded]
    cases m with
    | wheel h v => exact absurd rfl (other h v)
    | hello | key | button | releaseAll | setBitrate => rfl
  simp [arrived,none',turned]

theorem otherStill {e : WindowEvent} (unscrolled : ∀ notches, e ≠ .mouseWheel notches) (a : App) :
    arrived axis (controls (a.windowEvent e).2) = 0 := by
  have none' : arrived axis [] = 0 := rfl
  have single {m : ControlMessage} (other : ∀ h v, m ≠ .wheel h v) : arrived axis [m] = 0 :=
    arrivedOther other
  cases e with
  | mouseWheel notches => exact absurd rfl (unscrolled notches)
  | closeRequested => exact single (by simp)
  | focused focused =>
    cases focused with
    | true => exact none'
    | false => exact single (by simp)
  | cursorMoved | other => exact none'
  | keyboardInput event isSynthetic =>
    cases isSynthetic with
    | true => exact none'
    | false =>
      simp only [windowEvent,Bool.not_false,if_true,handleKey]
      split
      · exact none'
      · split
        · exact none'
        · split
          · exact none'
          · split
            · exact none'
            · exact single (by simp)
  | mouseInput state button =>
    simp only [windowEvent]
    split
    · exact none'
    · exact single (by simp)

def part (axis : Evdev.RelativeAxisCode) (p : ℚ × ℚ) : ℚ := match axis with
  | .relHwheel => p.1
  | .relWheel => p.2

def carry (x : ℚ) : ℚ := single.nearest x - truncate (single.nearest x)

theorem carryExact (x : ℚ) : single.nearest (carry x) = carry x :=
  Binary.nearestSelf (by decide) (Binary.fractionRepresentable (Binary.nearestRepresentable x)
    (by decide))

theorem handleWheelCarries (acc : ℚ × ℚ) (delta : MouseScrollDelta) :
    (handleWheel acc delta).1 =
      (carry (acc.1 + (notchesOf delta).1),carry (acc.2 + (notchesOf delta).2)) := by
  simp only [handleWheel]
  split
  · exact Prod.ext (carryExact _) (carryExact _)
  · next still =>
    obtain ⟨h,v⟩ := not_or.mp still
    simp only [carry,not_not.mp h,not_not.mp v,Int.cast_zero,sub_zero]

theorem roundsBy {x : ℚ} (small : |x| < 1000) : |single.nearest x - x| ≤ 1/2^15 := by
  have below : |x| < 2^(10 : ℤ) := small.trans (by norm_num)
  have error := Binary.nearestError (f := single) below (by decide)
  norm_num [single] at error
  norm_num
  exact error

theorem notchesFit {x : ℚ} (small : |x| < 1000) : |truncate (single.nearest x)| ≤ 1000 := by
  refine Rounding.truncateBound ?_
  have error := abs_le.mp (roundsBy small)
  have range := abs_lt.mp small
  rw [abs_lt]
  push_cast
  constructor <;> linarith

theorem wheelArrives {acc : ℚ × ℚ} {delta : MouseScrollDelta} (a : App)
    (left : |acc.1 + (notchesOf delta).1| < 1000) (right : |acc.2 + (notchesOf delta).2| < 1000) :
    (arrived axis (controls (a.windowEvent (.mouseWheel (handleWheel acc delta).2)).2) : ℚ) =
      truncate (single.nearest (part axis acc + part axis (notchesOf delta))) := by
  simp only [handleWheel]
  split
  · obtain ⟨horizontal,vertical⟩ := arrivedWheel
      (clampNotches (truncate (single.nearest (acc.1 + (notchesOf delta).1))))
      (clampNotches (truncate (single.nearest (acc.2 + (notchesOf delta).2))))
    cases axis with
    | relHwheel =>
      change ((arrived .relHwheel [.wheel _ _] : ℤ) : ℚ) = _
      rw [horizontal,clampNotchesFits (notchesFit left)]
      rfl
    | relWheel =>
      change ((arrived .relWheel [.wheel _ _] : ℤ) : ℚ) = _
      rw [vertical,clampNotchesFits (notchesFit right)]
      rfl
  · next still =>
    obtain ⟨h,v⟩ := not_or.mp still
    change ((0 : ℤ) : ℚ) = _
    cases axis with
    | relHwheel => exact congrArg Int.cast (not_not.mp h).symm
    | relWheel => exact congrArg Int.cast (not_not.mp v).symm

theorem wheelKeeps {acc : ℚ × ℚ} {delta : MouseScrollDelta} (a : App)
    (small : ∀ axis, |part axis acc| < 1) (modest : ∀ axis, |part axis (notchesOf delta)| ≤ 999) :
    (∀ axis, |part axis (handleWheel acc delta).1| < 1) ∧
    |part axis acc + part axis (notchesOf delta) -
      (arrived axis (controls (a.windowEvent (.mouseWheel (handleWheel acc delta).2)).2) +
        part axis (handleWheel acc delta).1)| ≤ 1/2^15 := by
  have near (axis) : |part axis acc + part axis (notchesOf delta)| < 1000 := by
    have bound := abs_add_le (part axis acc) (part axis (notchesOf delta))
    linarith [small axis,modest axis]
  have carried (axis) : part axis (handleWheel acc delta).1 =
      carry (part axis acc + part axis (notchesOf delta)) := by
    rw [handleWheelCarries]
    cases axis <;> rfl
  refine ⟨fun axis => ?_,?_⟩
  · rw [carried]
    exact Rounding.truncateError _
  · rw [wheelArrives a (near .relHwheel) (near .relWheel),carried,carry,add_sub_cancel,abs_sub_comm]
    exact roundsBy (near axis)

theorem reportsKeep (a : App) (acc : ℚ × ℚ) (reports : List Report)
    (small : ∀ axis, |part axis acc| < 1)
    (modest : ∀ d ∈ scrolled reports, ∀ axis, |part axis d| ≤ 999) : ∃ rest : ℚ, |rest| < 1 ∧
    |part axis acc + ((scrolled reports).map (part axis)).sum -
      (arrived axis (a.messages (reported acc reports)) + rest)| ≤ (scrolled reports).length/2^15 := by
  induction reports generalizing a acc with
  | nil =>
    refine ⟨part axis acc,small axis,?_⟩
    simp [scrolled,reported,messages,sent,arrived,turned]
  | cons report reports ih =>
    cases report with
    | wheel delta =>
      obtain ⟨kept,step⟩ := @wheelKeeps axis acc delta a small
        (modest (notchesOf delta) (by simp [scrolled]))
      obtain ⟨rest,little,sum⟩ := ih (a.windowEvent (.mouseWheel (handleWheel acc delta).2)).1
        (handleWheel acc delta).1 kept (fun d inside => modest d (by simpa [scrolled] using Or.inr inside))
      refine ⟨rest,little,?_⟩
      have more : scrolled (.wheel delta::reports) = notchesOf delta :: scrolled reports := rfl
      rw [more,reported,messagesCons,arrivedAppend,List.map_cons,List.sum_cons,List.length_cons]
      have both := abs_add_le _ _ |>.trans (add_le_add step sum)
      push_cast
      rw [add_div]
      refine le_trans (le_of_eq ?_) (both.trans (le_of_eq (add_comm _ _)))
      congr 1
      ring
    | event e unscrolled =>
      obtain ⟨rest,little,sum⟩ := ih (a.windowEvent e).1 acc small modest
      refine ⟨rest,little,?_⟩
      rw [reported,messagesCons,arrivedAppend,otherStill unscrolled,zero_add]
      exact sum

end Notches

def swipes : List Report := [.wheel (.pixelDelta 0 57),.event (.focused false) (by simp),
  .wheel (.pixelDelta 0 57)]

end App
end Vmdesk
