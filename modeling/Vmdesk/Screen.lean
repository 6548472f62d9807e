import Vmdesk.FitAspect
import Vmdesk.PublishedFrames

/-! What the window shows while the decode thread runs: the last frame that was published, whatever
size the window has by then. -/
namespace Vmdesk
open Blit (Centred)
open FitAspect (Fitted fitAspect)

/- One turn of `redraw`, on the buffer of a window. No buffer is asked for while a side is zero. -/
inductive Redraw where
  | skipped
  | presented (buffer : List UInt32)
  deriving DecidableEq, Repr

def redraw (view : SharedView) (size : UInt32 × UInt32) (buffer : List UInt32) : Option Redraw :=
  if size.1 = 0 ∨ size.2 = 0 then some .skipped
  else match view.latest with
    | some frame => (Blit.blit frame buffer size.1 size.2).map .presented
    | none => some (.presented (List.replicate buffer.length 0))

namespace DecodeLoop

def lastScaling (s : DecodeLoop) : Option Scaling :=
  (s.scalings.filter (fun x => x.frame.isSome)).getLast?

structure Latest (s : DecodeLoop) : Prop where
  frame : s.view.latest = s.lastScaling.bind Scaling.frame
  sized : ∀ x ∈ s.scalings, ∀ f, x.frame = some f → f.Full ∧
    (f.width,f.height) = fitAspect x.target (x.image.width,x.image.height)

section
variable {s t : DecodeLoop} {l : Label}

theorem latestSame (latest : Latest s) (frame : t.view.latest = s.view.latest)
    (scalings : t.scalings = s.scalings) : Latest t := by
  refine ⟨?_,?_⟩
  · rw [frame,lastScaling,scalings]
    exact latest.frame
  · rw [scalings]
    exact latest.sized

theorem handleLatest {opens : Except Text Unit} {r : VideoDecoder.Result}
    (handles : Handles s opens r t) : t.view.latest = s.view.latest := by
  cases handles with
  | ok | noted | givenUp | lost | failed | renewed | ended => rfl

theorem latestStep (latest : Latest s) (stepped : s.step l = some t) : Latest t := by
  cases stepCases stepped with
  | accessUnit c now again opens u waiting handles =>
    have frame : t.view.latest = (s.decoded c).view.latest := handleLatest handles
    exact latestSame latest frame (handleKeeps handles).scalings
  | scale pixels image rest frame drawing next sized =>
    refine ⟨?_,fun x inside f shape => ?_⟩
    · cases frame with
      | none =>
        have kept : (s.draw image rest none).lastScaling = s.lastScaling := by
          simp [lastScaling]
        rw [kept]
        exact latest.frame
      | some f => simp [lastScaling,draw,SharedView.publish]
    · simp only [drawScalings,List.mem_append,List.mem_singleton] at inside
      rcases inside with old|new
      · exact latest.sized x old f shape
      · subst new
        exact sized f shape
  | drawn | inputClosed | getFormat | resized => exact latestSame latest rfl rfl

theorem latestInitial (platform : Ffmpeg.Platform) (opens : Option Text → Except Text Unit)
    (preference : HwPreference) (now : Int) : Latest (initial platform opens preference now) := by
  unfold initial
  cases FfmpegDecoder.new platform opens preference with
  | ok d => exact ⟨rfl,fun x inside => by cases inside⟩
  | error e => exact ⟨rfl,fun x inside => by cases inside⟩

structure Showing (x : Scaling) (f : RgbFrame) (size : UInt32 × UInt32) (out : List UInt32) : Prop where
  centred : Centred f size.1.toNat size.2.toNat (min f.width.toNat size.1.toNat)
    (min f.height.toNat size.2.toNat) out
  whole : x.target = size → 2 ≤ size.1.toNat → 2 ≤ size.2.toNat →
    Centred f size.1.toNat size.2.toNat f.width.toNat f.height.toNat out ∧
    Fitted size.1.toNat size.2.toNat (max x.image.width.toNat 1) (max x.image.height.toNat 1)
      f.width.toNat f.height.toNat

/- At any moment of any run, and for a window of any size, drawing stays within its slices and shows
the last scaled picture, or black before the first. -/
theorem screenShows (platform : Ffmpeg.Platform) (opens : Option Text → Except Text Unit)
    (preference : HwPreference) (now : Int) (ls : List Label) (t : DecodeLoop)
    (reached : Runs.run step (initial platform opens preference now) ls = some t)
    (size : UInt32 × UInt32) (wide : size.1 ≠ 0) (high : size.2 ≠ 0) (buffer : List UInt32)
    (sized : buffer.length = size.1.toNat*size.2.toNat) :
    ∃ out, redraw t.view size buffer = some (.presented out) ∧
      (t.lastScaling = none ∧ out = List.replicate buffer.length 0 ∨
        ∃ x f, t.lastScaling = some x ∧ x.frame = some f ∧ Showing x f size out) := by
  have latest : Latest t := Runs.runKeeps Latest (latestInitial platform opens preference now)
    (fun _ _ _ latest stepped => latestStep latest stepped) reached
  have drawn : redraw t.view size buffer = match t.view.latest with
      | some frame => (Blit.blit frame buffer size.1 size.2).map .presented
      | none => some (.presented (List.replicate buffer.length 0)) :=
    if_neg (not_or.mpr ⟨wide,high⟩)
  rw [drawn,latest.frame]
  cases last : t.lastScaling with
  | none => exact ⟨_,rfl,Or.inl ⟨rfl,rfl⟩⟩
  | some x =>
    obtain ⟨inside,some'⟩ := List.mem_filter.mp (List.mem_of_getLast? last)
    obtain ⟨f,frame⟩ := Option.isSome_iff_exists.mp some'
    obtain ⟨full,scaled⟩ := latest.sized x inside f frame
    obtain ⟨out,blits,rows,_⟩ := Blit.blitDrawn full sized
    have centred : Centred f size.1.toNat size.2.toNat (min f.width.toNat size.1.toNat)
        (min f.height.toNat size.2.toNat) out := ⟨rows.sized,rows.copied,rows.bars⟩
    refine ⟨out,?_,Or.inr ⟨x,f,rfl,frame,centred,fun same two two' => ?_⟩⟩
    · simp [frame,blits]
    · have fitted : Fitted size.1.toNat size.2.toNat (max x.image.width.toNat 1)
          (max x.image.height.toNat 1) f.width.toNat f.height.toNat := by
        have fits := @FitAspect.fitAspectFitted size (x.image.width,x.image.height) two two'
        rwa [← same,← scaled,same] at fits
      rw [Nat.min_eq_left fitted.width.2,Nat.min_eq_left fitted.height.2] at centred
      exact ⟨centred,fitted⟩
end

theorem screenShowsGrown : ∃ t out, Runs.run step start (wholeRun ++ [.resized 5 5]) = some t ∧
    redraw t.view (5,5) (List.replicate 25 7) = some (.presented out) ∧
    (t.lastScaling = none ∧ out = List.replicate 25 0 ∨
      ∃ x f, t.lastScaling = some x ∧ x.frame = some f ∧ Showing x f (5,5) out) := by
  have runs : (Runs.run step start (wholeRun ++ [.resized 5 5])).isSome = true := by decide +kernel
  obtain ⟨t,reached⟩ := Option.isSome_iff_exists.mp runs
  obtain ⟨out,shown⟩ := screenShows .other anything .software 0 _ t reached (5,5) (by decide)
    (by decide) (List.replicate 25 7) (by decide)
  exact ⟨t,out,reached,shown⟩

end DecodeLoop
end Vmdesk
