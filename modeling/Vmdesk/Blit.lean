import Vmdesk.Blocks
import Vmdesk.Slices

/-! Drawing the latest frame into the buffer of the window: a centred copy between black bars. -/
namespace Vmdesk

/- A frame scaled to its size on the screen, one `0x00RRGGBB` word a pixel. -/
structure RgbFrame where
  width : UInt32
  height : UInt32
  pixels : List UInt32
  deriving DecidableEq, Repr

namespace RgbFrame

def Full (frame : RgbFrame) : Prop :=
  frame.pixels.length = frame.width.toNat * frame.height.toNat

instance (frame : RgbFrame) : Decidable frame.Full := inferInstanceAs (Decidable (_ = _))

def pixel (frame : RgbFrame) (x y : Nat) : Option UInt32 :=
  if x < frame.width.toNat ∧ y < frame.height.toNat then frame.pixels[y*frame.width.toNat + x]? else none

end RgbFrame

namespace Blit
open Slices Blocks

/- One axis of the copy: how many pixels are copied, where they start in the window and where in
the frame. -/
structure Axis where
  copied : Nat
  start : Nat
  skip : Nat
  deriving DecidableEq, Repr

def axis (frame window : Nat) : Axis :=
  let copied := min frame window
  ⟨copied,(window - copied)/2,(frame - copied)/2⟩

section
variable (frame : RgbFrame) (w h : Nat)

/- `copy_w`, `x0` and `sx0`. -/
def across : Axis := axis frame.width.toNat w

/- `copy_h`, `y0` and `sy0`. -/
def down : Axis := axis frame.height.toNat h

def copyRow (dst : List UInt32) (row : Nat) : Option (List UInt32) :=
  let x := across frame w
  let y := down frame h
  (slice frame.pixels ((y.skip + row)*frame.width.toNat + x.skip) x.copied).bind
    (copyInto dst ((y.start + row)*w + x.start))

def copyRows (dst : List UInt32) : Option (List UInt32) :=
  (List.range (down frame h).copied).foldlM (copyRow frame w h) (List.replicate dst.length 0)
end

/- Copies `frame` centred into `dst`, a buffer of `width` times `height`. `none` is a slice out of
bounds. -/
def blit (frame : RgbFrame) (dst : List UInt32) (width height : UInt32) : Option (List UInt32) :=
  if frame.width = width ∧ frame.height = height ∧ frame.pixels.length = dst.length then
    some frame.pixels
  else copyRows frame width.toNat height.toNat dst

theorem axisWindow (frame window : Nat) :
    (axis frame window).start + (axis frame window).copied ≤ window := by
  simp only [axis]
  omega

theorem axisFrame (frame window : Nat) :
    (axis frame window).skip + (axis frame window).copied ≤ frame := by
  simp only [axis]
  omega

namespace Axis

def Covers (a : Axis) (n place : Nat) : Prop := a.start ≤ place ∧ place < a.start + n

instance (a : Axis) (n place : Nat) : Decidable (a.Covers n place) :=
  inferInstanceAs (Decidable (_ ∧ _))

def source (a : Axis) (place : Nat) : Nat := place - a.start + a.skip

end Axis

theorem sourceBelow {frame window place : Nat}
    (covers : (axis frame window).Covers (axis frame window).copied place) :
    (axis frame window).source place < frame := by
  have inside := axisFrame frame window
  obtain ⟨above,below⟩ := covers
  unfold Axis.source
  omega

section
variable {frame : RgbFrame} {w h rows : Nat} {dst out : List UInt32}

structure Drawn (frame : RgbFrame) (w h rows : Nat) (out : List UInt32) : Prop where
  sized : out.length = w*h
  copied : ∀ x < w, ∀ y < h, (across frame w).Covers (across frame w).copied x →
    (down frame h).Covers rows y →
    ∃ p, frame.pixel ((across frame w).source x) ((down frame h).source y) = some p ∧
      out[y*w + x]? = some p
  bars : ∀ x < w, ∀ y < h,
    ¬ ((across frame w).Covers (across frame w).copied x ∧ (down frame h).Covers rows y) →
    out[y*w + x]? = some 0

theorem drawnStart (sized : dst.length = w*h) :
    Drawn frame w h 0 (List.replicate dst.length 0) where
  sized := by rw [List.length_replicate,sized]
  copied := fun x _ y _ _ covers => by
    have below := covers.2
    have above := covers.1
    omega
  bars := fun x inX y inY _ => by
    rw [List.getElem?_replicate,if_pos (sized ▸ placeBelow inX inY)]

theorem pixelRead (full : frame.Full) {x y : Nat} (inX : x < frame.width.toNat)
    (inY : y < frame.height.toNat) :
    ∃ p, frame.pixel x y = some p ∧ frame.pixels[y*frame.width.toNat + x]? = some p := by
  have below : y*frame.width.toNat + x < frame.pixels.length := by
    rw [full]
    exact placeBelow inX inY
  refine ⟨_,?_,List.getElem?_eq_getElem below⟩
  rw [RgbFrame.pixel,if_pos ⟨inX,inY⟩,List.getElem?_eq_getElem below]

theorem copyRowWrites (full : frame.Full) (sized : dst.length = w*h)
    (below : rows < (down frame h).copied) :
    ∃ out, copyRow frame w h dst rows = some out ∧ out.length = w*h ∧
      (∀ x, (across frame w).Covers (across frame w).copied x →
        ∃ p, frame.pixel ((across frame w).source x) ((down frame h).skip + rows) = some p ∧
          out[((down frame h).start + rows)*w + x]? = some p) ∧
      ∀ x < w, ∀ y, ¬ (y = (down frame h).start + rows ∧
        (across frame w).Covers (across frame w).copied x) → out[y*w + x]? = dst[y*w + x]? := by
  have frameX : (across frame w).skip + (across frame w).copied ≤ frame.width.toNat := axisFrame _ _
  have windowX : (across frame w).start + (across frame w).copied ≤ w := axisWindow _ _
  have frameY : (down frame h).skip + (down frame h).copied ≤ frame.height.toNat := axisFrame _ _
  have windowY : (down frame h).start + (down frame h).copied ≤ h := axisWindow _ _
  unfold copyRow
  generalize across frame w = X at *
  generalize down frame h = Y at *
  have source : (Y.skip + rows)*frame.width.toNat + X.skip + X.copied ≤ frame.pixels.length := by
    have step : (Y.skip + rows + 1)*frame.width.toNat ≤ frame.height.toNat*frame.width.toNat :=
      Nat.mul_le_mul_right _ (by omega)
    rw [Nat.succ_mul,Nat.mul_comm frame.height.toNat] at step
    rw [full]
    omega
  obtain ⟨src,sliced,length,read⟩ := sliceFits source
  have target : (Y.start + rows)*w + X.start + src.length ≤ dst.length := by
    have step : (Y.start + rows + 1)*w ≤ h*w := Nat.mul_le_mul_right _ (by omega)
    rw [Nat.succ_mul,Nat.mul_comm h] at step
    rw [sized,length]
    omega
  obtain ⟨out,written,kept,fresh,old⟩ := copyFits target
  refine ⟨out,?_,kept.trans sized,fun x covers => ?_,fun x inX y apart => ?_⟩
  · simp only [sliced,Option.bind_some,written]
  · obtain ⟨above,under⟩ := covers
    obtain ⟨p,pixel,stored⟩ := pixelRead full (x := X.source x) (y := Y.skip + rows)
      (by unfold Axis.source; omega) (by omega)
    refine ⟨p,pixel,?_⟩
    have here := fresh (x - X.start) (by omega)
    rw [read (x - X.start) (by omega)] at here
    calc out[(Y.start + rows)*w + x]? = out[(Y.start + rows)*w + X.start + (x - X.start)]? := by
          congr 1
          omega
      _ = frame.pixels[(Y.skip + rows)*frame.width.toNat + X.skip + (x - X.start)]? := here
      _ = frame.pixels[(Y.skip + rows)*frame.width.toNat + X.source x]? := by
          congr 1
          unfold Axis.source
          omega
      _ = some p := stored
  · refine old _ ?_
    rw [length]
    exact rowApart inX windowX (fun same => apart ⟨same.1,same.2⟩)

theorem copyRowDrawn (full : frame.Full) (drawn : Drawn frame w h rows dst)
    (below : rows < (down frame h).copied) :
    ∃ out, copyRow frame w h dst rows = some out ∧ Drawn frame w h (rows + 1) out := by
  obtain ⟨out,copies,sized,fresh,old⟩ := copyRowWrites full drawn.sized below
  refine ⟨out,copies,sized,fun x inX y inY coverX coverY => ?_,fun x inX y inY outside => ?_⟩
  · by_cases last : y = (down frame h).start + rows
    · subst last
      have source : (down frame h).source ((down frame h).start + rows) =
          (down frame h).skip + rows := by
        unfold Axis.source
        omega
      rw [source]
      exact fresh x coverX
    · have earlier : (down frame h).Covers rows y := ⟨coverY.1,by have under := coverY.2; omega⟩
      rw [old x inX y (fun same => last same.1)]
      exact drawn.copied x inX y inY coverX earlier
  · have apart : ¬ (y = (down frame h).start + rows ∧
        (across frame w).Covers (across frame w).copied x) := fun same =>
      outside ⟨same.2,by have here := same.1; unfold Axis.Covers; omega⟩
    rw [old x inX y apart]
    refine drawn.bars x inX y inY (fun covers => outside ⟨covers.1,covers.2.1,?_⟩)
    have under := covers.2.2
    omega

theorem copyRowsDrawn (full : frame.Full) (sized : dst.length = w*h) :
    ∃ out, copyRows frame w h dst = some out ∧ Drawn frame w h (down frame h).copied out := by
  have upTo : ∀ n ≤ (down frame h).copied, ∃ out, (List.range n).foldlM (copyRow frame w h)
      (List.replicate dst.length 0) = some out ∧ Drawn frame w h n out := by
    intro n
    induction n with
    | zero => exact fun _ => ⟨_,rfl,drawnStart sized⟩
    | succ n ih =>
      intro fits
      obtain ⟨now,runs,drawn⟩ := ih (by omega)
      obtain ⟨out,copies,next⟩ := copyRowDrawn full drawn fits
      refine ⟨out,?_,next⟩
      rw [List.range_succ,List.foldlM_append,runs]
      simpa using copies
  exact upTo _ (Nat.le_refl _)

theorem drawnUnique {out' : List UInt32} (left : Drawn frame w h rows out)
    (right : Drawn frame w h rows out') : out = out' := by
  refine joinedExt left.sized right.sized (fun y inY x inX => ?_)
  by_cases shown : (across frame w).Covers (across frame w).copied x ∧ (down frame h).Covers rows y
  · obtain ⟨p,pixel,here⟩ := left.copied x inX y inY shown.1 shown.2
    obtain ⟨q,pixel',here'⟩ := right.copied x inX y inY shown.1 shown.2
    rw [here,here',← pixel,← pixel']
  · rw [left.bars x inX y inY shown,right.bars x inX y inY shown]

theorem sameSizeDrawn (full : frame.Full) :
    Drawn frame frame.width.toNat frame.height.toNat frame.height.toNat frame.pixels where
  sized := full
  copied := fun x inX y inY _ _ => by
    have sourceX : (across frame frame.width.toNat).source x = x := by
      simp [across,axis,Axis.source]
    have sourceY : (down frame frame.height.toNat).source y = y := by
      simp [down,axis,Axis.source]
    rw [sourceX,sourceY]
    exact pixelRead full inX inY
  bars := fun x inX y inY outside => by
    refine absurd ⟨?_,?_⟩ outside
    · simp only [across,axis,Axis.Covers]
      omega
    · simp only [down,axis,Axis.Covers]
      omega

end

/- What the window shows after `blit`, in terms of the two sizes: the part of the frame that fits,
centred, cut around its centre and black elsewhere. -/
structure Centred (frame : RgbFrame) (w h cw ch : Nat) (out : List UInt32) : Prop where
  sized : out.length = w*h
  copied : ∀ x < w, ∀ y < h,
    (w - cw)/2 ≤ x ∧ x < (w - cw)/2 + cw → (h - ch)/2 ≤ y ∧ y < (h - ch)/2 + ch →
    ∃ p, frame.pixel (x - (w - cw)/2 + (frame.width.toNat - cw)/2)
        (y - (h - ch)/2 + (frame.height.toNat - ch)/2) = some p ∧ out[y*w + x]? = some p
  bars : ∀ x < w, ∀ y < h, ¬ (((w - cw)/2 ≤ x ∧ x < (w - cw)/2 + cw) ∧
    (h - ch)/2 ≤ y ∧ y < (h - ch)/2 + ch) → out[y*w + x]? = some 0

section
variable {frame : RgbFrame} {dst : List UInt32} {width height : UInt32}

theorem blitDrawn (full : frame.Full) (sized : dst.length = width.toNat*height.toNat) :
    ∃ out, blit frame dst width height = some out ∧
      Drawn frame width.toNat height.toNat (down frame height.toNat).copied out ∧
      copyRows frame width.toNat height.toNat dst = some out := by
  obtain ⟨out,copies,drawn⟩ := copyRowsDrawn full sized
  refine ⟨out,?_,drawn,copies⟩
  unfold blit
  split
  · rename_i same
    obtain ⟨rfl,rfl,_⟩ := same
    have rows : (down frame frame.height.toNat).copied = frame.height.toNat := by
      simp [down,axis]
    rw [rows] at drawn
    rw [drawnUnique (sameSizeDrawn full) drawn]
  · exact copies

/- No slice is out of bounds, the window shows the frame centred, and the path that copies row by
row gives the same as the one for equal sizes. -/
theorem blitExact (full : frame.Full) (sized : dst.length = width.toNat*height.toNat) :
    ∃ out, blit frame dst width height = some out ∧
      Centred frame width.toNat height.toNat (min frame.width.toNat width.toNat)
        (min frame.height.toNat height.toNat) out ∧
      copyRows frame width.toNat height.toNat dst = some out := by
  obtain ⟨out,blits,drawn,copies⟩ := blitDrawn full sized
  exact ⟨out,blits,⟨drawn.sized,drawn.copied,drawn.bars⟩,copies⟩
end

theorem blitExactWide : ∃ out, blit ⟨4,1,[1,2,3,4]⟩ [9,9,9,9,9,9] 2 3 = some out ∧
    Centred ⟨4,1,[1,2,3,4]⟩ 2 3 2 1 out ∧ copyRows ⟨4,1,[1,2,3,4]⟩ 2 3 [9,9,9,9,9,9] = some out :=
  blitExact (by decide) (by decide)

example : blit ⟨4,1,[1,2,3,4]⟩ [9,9,9,9,9,9] 2 3 = some [0,0,2,3,0,0] := by decide

end Blit
end Vmdesk
