import Vmdesk.LittleEndian
import Mathlib.Data.List.Basic

/-! The task that writes encoded frames to the video track. What a written sample's duration does
to the timestamps is the contract of the track: a sample is stamped with the clock, and the clock
then moves on by what `advance` makes of the sample's duration. -/
namespace Vmdesk.WriteFrames
open LittleEndian (Bytes)

structure EncodedFrame where
  data : Bytes
  keyframe : Bool
  ptsMs : UInt64
  deriving DecidableEq, Repr

/- Nanoseconds. -/
abbrev Duration := Nat

def fromMillis (ms : Nat) : Duration := ms*1000000
def fromSecs (secs : Nat) : Duration := secs*1000000000

/- A frame taken from the channel, with the payload type that the sender's parameters show by then
(asked for only until there is one) and whether the track takes the sample. -/
structure Arrival where
  frame : EncodedFrame
  parameters : Option UInt8
  succeeds : Bool
  deriving DecidableEq, Repr

structure Written where
  frame : EncodedFrame
  ssrc : UInt32
  payloadType : UInt8
  timestamp : UInt32
  deriving DecidableEq, Repr

section
variable (advance : Duration → UInt32) (frameDuration : Duration)

def durationOf (lastPts : Option UInt64) (frame : EncodedFrame) : Duration := match lastPts with
  | some prev =>
    if prev < frame.ptsMs then min (fromMillis (frame.ptsMs - prev).toNat) (fromSecs 2)
    else frameDuration
  | none => frameDuration

/- The loop, for the samples that it puts on a track whose clock stands at `clock`. -/
def writeLoop (ssrc : UInt32) :
    Option UInt8 → Option UInt64 → UInt32 → List Arrival → List Written
  | _,_,_,[] => []
  | payloadType,lastPts,clock,a::rest => match payloadType.or a.parameters with
    | none => writeLoop ssrc none lastPts clock rest
    | some pt =>
      if a.succeeds then
        ⟨a.frame,ssrc,pt,clock⟩ :: writeLoop ssrc (some pt) (some a.frame.ptsMs)
          (clock + advance (durationOf frameDuration lastPts a.frame)) rest
      else []

def writeFrames (ssrcs : List UInt32) (clock : UInt32) (arrivals : List Arrival) : List Written :=
  match ssrcs.head? with
  | some ssrc => writeLoop advance frameDuration ssrc none none clock arrivals
  | none => []
end

/- The frames that reach the track: those before the payload type is known are dropped, and the
first that the track refuses ends the loop. -/
def reaching (ssrcs : List UInt32) (arrivals : List Arrival) : List EncodedFrame :=
  match ssrcs.head? with
  | some _ => ((arrivals.dropWhile (·.parameters.isNone)).takeWhile (·.succeeds)).map (·.frame)
  | none => []

/- Milliseconds between two frames, at most two seconds. -/
def gap (f g : EncodedFrame) : Nat := min (g.ptsMs.toNat - f.ptsMs.toNat) 2000

def ticks (ms : Nat) : UInt32 := UInt32.ofNat (90*ms)

/- The clock moves on by the duration of a sample. -/
def Advances (advance : Duration → UInt32) : Prop :=
  ∀ ms ≤ 2000, advance (fromMillis ms) = ticks ms

def Follows (w v : Written) : Prop := v.timestamp - w.timestamp = ticks (gap w.frame v.frame)

instance (w v : Written) : Decidable (Follows w v) := inferInstanceAs (Decidable (_ = _))

section
variable {advance : Duration → UInt32} {frameDuration : Duration} {ssrc clock : UInt32}
variable {f g : EncodedFrame} {frames : List EncodedFrame}

def stamped (advance : Duration → UInt32) (frameDuration : Duration) (ssrc : UInt32) (pt : UInt8) :
    Option UInt64 → UInt32 → List EncodedFrame → List Written
  | _,_,[] => []
  | lastPts,clock,f::frames => ⟨f,ssrc,pt,clock⟩ :: stamped advance frameDuration ssrc pt
      (some f.ptsMs) (clock + advance (durationOf frameDuration lastPts f)) frames

theorem writeLoopKnown (pt : UInt8) (lastPts : Option UInt64) (clock : UInt32)
    (arrivals : List Arrival) :
    writeLoop advance frameDuration ssrc (some pt) lastPts clock arrivals =
      stamped advance frameDuration ssrc pt lastPts clock
        ((arrivals.takeWhile (·.succeeds)).map (·.frame)) := by
  induction arrivals generalizing lastPts clock with
  | nil => rfl
  | cons a rest ih =>
    rw [writeLoop]
    simp only [Option.some_or]
    by_cases succeeds : a.succeeds = true
    · simp only [if_pos succeeds,List.takeWhile_cons_of_pos succeeds,List.map_cons,stamped,ih]
    · rw [if_neg succeeds,List.takeWhile_cons_of_neg succeeds]
      rfl

theorem writeFramesStamped (ssrcs : List UInt32) (clock : UInt32) (arrivals : List Arrival) :
    ∃ ssrc pt, writeFrames advance frameDuration ssrcs clock arrivals =
      stamped advance frameDuration ssrc pt none clock (reaching ssrcs arrivals) := by
  unfold writeFrames reaching
  cases ssrcs.head? with
  | none => exact ⟨0,0,rfl⟩
  | some ssrc =>
    simp only
    induction arrivals with
    | nil => exact ⟨ssrc,0,rfl⟩
    | cons a rest ih =>
      rw [writeLoop,Option.none_or]
      cases known : a.parameters with
      | none => simpa [List.dropWhile_cons,known] using ih
      | some pt =>
        refine ⟨ssrc,pt,?_⟩
        simp only [writeLoopKnown,List.dropWhile_cons,known,Option.isNone_some,Bool.false_eq_true,
          if_false]
        by_cases succeeds : a.succeeds = true
        · simp only [if_pos succeeds,List.takeWhile_cons_of_pos succeeds,List.map_cons,stamped]
        · rw [if_neg succeeds,List.takeWhile_cons_of_neg succeeds]
          rfl

theorem gapSmall (f g : EncodedFrame) : gap f g ≤ 2000 := Nat.min_le_right _ _

theorem durationGap (increasing : f.ptsMs < g.ptsMs) :
    durationOf frameDuration (some f.ptsMs) g = fromMillis (gap f g) := by
  have less : f.ptsMs.toNat < g.ptsMs.toNat := UInt64.lt_iff_toNat_lt.mp increasing
  have difference : (g.ptsMs - f.ptsMs).toNat = g.ptsMs.toNat - f.ptsMs.toNat :=
    UInt64.toNat_sub_of_le _ _ (UInt64.le_iff_toNat_le.mpr less.le)
  have cut (n : Nat) : min (n*1000000) (2*1000000000) = min n 2000*1000000 := by omega
  simp only [durationOf,if_pos increasing,difference,gap,fromMillis,fromSecs]
  exact cut _

/- Both of two consecutive samples are right when the intervals before and after the first of them
are the same: its timestamp moves on by the interval before it. -/
theorem stampedFollows (advances : Advances advance) {pt : UInt8} (lastPts : Option UInt64)
    (clock : UInt32) (increasing : (f::frames).IsChain (fun f g => f.ptsMs < g.ptsMs)) :
    (stamped advance frameDuration ssrc pt lastPts clock (f::frames)).IsChain Follows ↔
      (f::frames).IsChain
        (fun f' g' => ticks (gap f' g') = advance (durationOf frameDuration lastPts f)) := by
  induction frames generalizing f lastPts clock with
  | nil => simp [stamped]
  | cons g frames ih =>
    obtain ⟨less,increasing⟩ := List.isChain_cons_cons.mp increasing
    have rest := ih (f := g) (some f.ptsMs)
      (clock + advance (durationOf frameDuration lastPts f)) increasing
    rw [durationGap less,advances _ (gapSmall f g)] at rest
    have first : Follows ⟨f,ssrc,pt,clock⟩
        ⟨g,ssrc,pt,clock + advance (durationOf frameDuration lastPts f)⟩ ↔
        ticks (gap f g) = advance (durationOf frameDuration lastPts f) := by
      unfold Follows
      rw [UInt32.add_comm,UInt32.add_sub_cancel]
      exact eq_comm
    rw [stamped,stamped,List.isChain_cons_cons,← stamped,rest,first,List.isChain_cons_cons]
    refine and_congr_right (fun same => ?_)
    rw [same]

/- Timestamps follow the capture times exactly when every interval between the frames that reach
the track, cut to two seconds, is as many ticks as the configured frame duration. -/
theorem followsExactly (advances : Advances advance) (ssrcs : List UInt32) (clock : UInt32)
    (arrivals : List Arrival)
    (increasing : (reaching ssrcs arrivals).IsChain (fun f g => f.ptsMs < g.ptsMs)) :
    (writeFrames advance frameDuration ssrcs clock arrivals).IsChain Follows ↔
      (reaching ssrcs arrivals).IsChain (fun f g => ticks (gap f g) = advance frameDuration) := by
  have written : ∃ ssrc pt, writeFrames advance frameDuration ssrcs clock arrivals =
      stamped advance frameDuration ssrc pt none clock (reaching ssrcs arrivals) :=
    writeFramesStamped ssrcs clock arrivals
  obtain ⟨ssrc,pt,written⟩ := written
  rw [written]
  generalize reaching ssrcs arrivals = frames at *
  cases frames with
  | nil => simp [stamped]
  | cons f frames => exact stampedFollows advances none clock increasing
end

def whole (duration : Duration) : UInt32 := UInt32.ofNat (duration*90/1000000)

theorem wholeAdvances : Advances whole := by
  intro ms small
  unfold whole fromMillis ticks
  congr 1
  omega

def arrived (ms : UInt64) : Arrival := ⟨⟨[],false,ms⟩,some 102,true⟩

theorem followsExactlyEven : Advances whole ∧
    (reaching [7] (List.map arrived [0,40,80])).IsChain (fun f g => f.ptsMs < g.ptsMs) ∧
    ((writeFrames whole (fromMillis 40) [7] 0 (List.map arrived [0,40,80])).IsChain Follows ↔
      (reaching [7] (List.map arrived [0,40,80])).IsChain
        (fun f g => ticks (gap f g) = whole (fromMillis 40))) := by
  have increasing : (reaching [7] (List.map arrived [0,40,80])).IsChain
      (fun f g => f.ptsMs < g.ptsMs) := by decide
  exact ⟨wholeAdvances,increasing,followsExactly wholeAdvances [7] 0 _ increasing⟩

/- A pause of one second between the second and the third frame is played after the third. -/
theorem pauseShifted : Advances whole ∧
    (reaching [7] (List.map arrived [0,40,1040,1080])).IsChain (fun f g => f.ptsMs < g.ptsMs) ∧
    (writeFrames whole (fromMillis 40) [7] 0 (List.map arrived [0,40,1040,1080])).map
      (fun w => w.timestamp) = [0,3600,7200,97200] ∧
    ¬ (writeFrames whole (fromMillis 40) [7] 0 (List.map arrived [0,40,1040,1080])).IsChain Follows :=
  ⟨wholeAdvances,by decide,by decide,by decide⟩

end Vmdesk.WriteFrames
