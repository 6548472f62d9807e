import Vmdesk.Blit
import Vmdesk.PointerPosition

/-! Where the video lies in the window. The rectangle decides which position of the video a pointer
stands for; `blit` decides which pixel of the video is seen there. -/
namespace Vmdesk
open Rounding Blit Blocks

structure Rect where
  x : ℚ
  y : ℚ
  width : ℚ
  height : ℚ
  deriving DecidableEq

/- The sides of the window, (1,1) without one. -/
def windowSides (innerSize : Option (UInt32 × UInt32)) : Nat × Nat :=
  (innerSize.map (fun s => (max s.1.toNat 1,max s.2.toNat 1))).getD (1,1)

/- Video rectangle inside the window, from the latest frame's size. -/
def videoRect (innerSize : Option (UInt32 × UInt32)) (latest : Option RgbFrame) : Rect :=
  let ww : ℚ := (windowSides innerSize).1
  let wh : ℚ := (windowSides innerSize).2
  match latest with
  | some frame =>
      let fw : ℚ := frame.width.toNat
      let fh : ℚ := frame.height.toNat
      if fw ≤ ww ∧ fh ≤ wh then ⟨⌊(ww - fw)/2⌋,⌊(wh - fh)/2⌋,fw,fh⟩ else ⟨0,0,ww,wh⟩
  | none => ⟨0,0,ww,wh⟩

def positionInVideo (innerSize : Option (UInt32 × UInt32)) (latest : Option RgbFrame) (x y : ℚ) :
    Rect :=
  let r := videoRect innerSize latest
  ⟨x - r.x,y - r.y,r.width,r.height⟩

def cursorMoved (innerSize : Option (UInt32 × UInt32)) (latest : Option RgbFrame) (x y : ℚ) :
    MouseMove :=
  let p := positionInVideo innerSize latest x y
  .fromVideoPosition p.x p.y p.width p.height

/- The window pixel shows this pixel of every frame that has these sides. -/
structure Shows (fw fh w h : UInt32) (x y sx sy : Nat) : Prop where
  inX : x < w.toNat
  inY : y < h.toNat
  frameX : sx < fw.toNat
  frameY : sy < fh.toNat
  seen : ∀ frame : RgbFrame, frame.width = fw → frame.height = fh → frame.Full →
    ∀ dst : List UInt32, dst.length = w.toNat*h.toNat → ∀ out, blit frame dst w h = some out →
      out[y*w.toNat + x]? = frame.pixel sx sy

section
variable {fw fh w h : UInt32} {x y sx sy : Nat}

def spot (fw fh : UInt32) (sx sy : Nat) : RgbFrame where
  width := fw
  height := fh
  pixels := (List.range (fw.toNat*fh.toNat)).map (fun i => if i = sy*fw.toNat + sx then 1 else 0)

theorem spotFull (fw fh : UInt32) (sx sy : Nat) : (spot fw fh sx sy).Full := by
  simp [RgbFrame.Full,spot]

theorem spotPixel {px py : Nat} (inX : px < fw.toNat) (inY : py < fh.toNat) (sx sy : Nat) :
    (spot fw fh sx sy).pixel px py =
      some (if py*fw.toNat + px = sy*fw.toNat + sx then 1 else 0) := by
  have below := placeBelow inX inY
  simp [RgbFrame.pixel,spot,inX,inY,below]

theorem showsExactly (inX : x < w.toNat) (inY : y < h.toNat) :
    Shows fw fh w h x y sx sy ↔
      (axis fw.toNat w.toNat).Covers (axis fw.toNat w.toNat).copied x ∧
      (axis fh.toNat h.toNat).Covers (axis fh.toNat h.toNat).copied y ∧
      sx = (axis fw.toNat w.toNat).source x ∧ sy = (axis fh.toNat h.toNat).source y := by
  constructor
  · intro shows
    -- Of the frame with one bright pixel, only the pixel that is seen can be bright.
    obtain ⟨out,blits,drawn,_⟩ := blitDrawn (spotFull fw fh sx sy)
      (List.length_replicate : (List.replicate (w.toNat*h.toNat) (0 : UInt32)).length = _)
    have seen := shows.seen _ rfl rfl (spotFull fw fh sx sy) _ List.length_replicate _ blits
    rw [spotPixel shows.frameX shows.frameY,if_pos rfl] at seen
    by_cases covers : (axis fw.toNat w.toNat).Covers (axis fw.toNat w.toNat).copied x ∧
      (axis fh.toNat h.toNat).Covers (axis fh.toNat h.toNat).copied y
    · obtain ⟨p,pixel,here⟩ := drawn.copied x inX y inY covers.1 covers.2
      have sourceX : (axis fw.toNat w.toNat).source x < fw.toNat := sourceBelow covers.1
      have sourceY : (axis fh.toNat h.toNat).source y < fh.toNat := sourceBelow covers.2
      have spotted := spotPixel sourceX sourceY sx sy
      have bright : (spot fw fh sx sy).pixel ((axis fw.toNat w.toNat).source x)
          ((axis fh.toNat h.toNat).source y) = some 1 := pixel.trans (here.symm.trans seen)
      rw [spotted] at bright
      split at bright
      · rename_i same
        obtain ⟨left,right⟩ := sameRow sourceX shows.frameX same
        exact ⟨covers.1,covers.2,left.symm,right.symm⟩
      · cases bright
    · rw [drawn.bars x inX y inY covers] at seen
      cases seen
  · intro ⟨coverX,coverY,eqX,eqY⟩
    subst eqX eqY
    refine ⟨inX,inY,sourceBelow coverX,sourceBelow coverY,?_⟩
    intro frame rfl rfl full dst sized out blits
    obtain ⟨out',blits',drawn,_⟩ := blitDrawn full sized
    obtain ⟨p,pixel,here⟩ := drawn.copied x inX y inY coverX coverY
    rw [Option.some.inj (blits.symm.trans blits'),here]
    exact pixel.symm
end

section
variable {frame : RgbFrame} {w h : UInt32}

def Fits (frame : RgbFrame) (w h : UInt32) : Prop :=
  frame.width.toNat ≤ w.toNat ∧ frame.height.toNat ≤ h.toNat

instance (frame : RgbFrame) (w h : UInt32) : Decidable (Fits frame w h) :=
  inferInstanceAs (Decidable (_ ∧ _))

theorem floorHalf {m n : Nat} (le : n ≤ m) : ⌊((m : ℚ) - n)/2⌋ = ((m - n)/2 : ℕ) := by
  have cast : ((m : ℚ) - n)/2 = ((m - n : ℕ) : ℚ)/(2 : ℕ) := by
    rw [Nat.cast_sub le]
    rfl
  rw [cast,Rat.floor_natCast_div_natCast]
  rfl

theorem windowSidesPositive (wide : 1 ≤ w.toNat) (high : 1 ≤ h.toNat) :
    windowSides (some (w,h)) = (w.toNat,h.toNat) := by
  simp [windowSides,wide,high]

theorem videoRectFits (wide : 1 ≤ w.toNat) (high : 1 ≤ h.toNat) (fits : Fits frame w h) :
    videoRect (some (w,h)) (some frame) =
      ⟨((w.toNat - frame.width.toNat)/2 : ℕ),((h.toNat - frame.height.toNat)/2 : ℕ),
        frame.width.toNat,frame.height.toNat⟩ := by
  have casts : (frame.width.toNat : ℚ) ≤ w.toNat ∧ (frame.height.toNat : ℚ) ≤ h.toNat :=
    ⟨Nat.cast_le.mpr fits.1,Nat.cast_le.mpr fits.2⟩
  simp only [videoRect,windowSidesPositive wide high,if_pos casts,floorHalf fits.1,floorHalf fits.2,
    Int.cast_natCast]

theorem videoRectLarge (wide : 1 ≤ w.toNat) (high : 1 ≤ h.toNat) (large : ¬ Fits frame w h) :
    videoRect (some (w,h)) (some frame) = ⟨0,0,w.toNat,h.toNat⟩ := by
  have casts : ¬ ((frame.width.toNat : ℚ) ≤ w.toNat ∧ (frame.height.toNat : ℚ) ≤ h.toNat) :=
    fun fits => large ⟨Nat.cast_le.mp fits.1,Nat.cast_le.mp fits.2⟩
  simp only [videoRect,windowSidesPositive wide high,if_neg casts]

/- Wherever the window shows a pixel of the frame, the pointer's position is that pixel's. -/
def Agrees (frame : RgbFrame) (w h : UInt32) : Prop :=
  ∀ x y sx sy : Nat, Shows frame.width frame.height w h x y sx sy →
    positionInVideo (some (w,h)) (some frame) x y =
      ⟨sx,sy,frame.width.toNat,frame.height.toNat⟩

theorem sourceFits {frame window place : Nat} (fits : frame ≤ window)
    (covers : (axis frame window).Covers (axis frame window).copied place) :
    (place : ℚ) - ((window - frame)/2 : ℕ) = (axis frame window).source place := by
  obtain ⟨above,_⟩ := covers
  simp only [axis,Axis.source,Nat.min_eq_left fits] at above ⊢
  rw [Nat.sub_self,Nat.zero_div,Nat.add_zero,Nat.cast_sub above]

theorem fitsAgrees (wide : 1 ≤ w.toNat) (high : 1 ≤ h.toNat) (fits : Fits frame w h) :
    Agrees frame w h := by
  intro x y sx sy shows
  obtain ⟨coverX,coverY,eqX,eqY⟩ := (showsExactly shows.inX shows.inY).mp shows
  subst eqX eqY
  rw [positionInVideo,videoRectFits wide high fits]
  simp only [sourceFits fits.1 coverX,sourceFits fits.2 coverY]

theorem showsStart (wide : 1 ≤ w.toNat) (high : 1 ≤ h.toNat) (columns : frame.width.toNat ≠ 0)
    (rows : frame.height.toNat ≠ 0) :
    Shows frame.width frame.height w h (axis frame.width.toNat w.toNat).start
      (axis frame.height.toNat h.toNat).start
      ((axis frame.width.toNat w.toNat).source (axis frame.width.toNat w.toNat).start)
      ((axis frame.height.toNat h.toNat).source (axis frame.height.toNat h.toNat).start) := by
  have windowX := axisWindow frame.width.toNat w.toNat
  have windowY := axisWindow frame.height.toNat h.toNat
  have someX : 0 < (axis frame.width.toNat w.toNat).copied := by
    simp only [axis]
    omega
  have someY : 0 < (axis frame.height.toNat h.toNat).copied := by
    simp only [axis]
    omega
  refine (showsExactly (by omega) (by omega)).mpr ⟨?_,?_,rfl,rfl⟩
  · exact ⟨Nat.le_refl _,by omega⟩
  · exact ⟨Nat.le_refl _,by omega⟩

/- The pointer's position is the pixel seen under it, in every window, exactly for the frames that
fit into it and those without pixels. -/
theorem agreesExactly (wide : 1 ≤ w.toNat) (high : 1 ≤ h.toNat) :
    Agrees frame w h ↔ Fits frame w h ∨ frame.width.toNat = 0 ∨ frame.height.toNat = 0 := by
  constructor
  · intro agrees
    by_contra none
    obtain ⟨large,pixels⟩ := not_or.mp none
    obtain ⟨columns,rows⟩ := not_or.mp pixels
    have same := agrees _ _ _ _ (showsStart wide high columns rows)
    rw [positionInVideo,videoRectLarge wide high large,Rect.mk.injEq] at same
    obtain ⟨_,_,width,height⟩ := same
    exact large ⟨(Nat.cast_inj.mp width).ge,(Nat.cast_inj.mp height).ge⟩
  · intro holds
    obtain fits | columns | rows := holds
    · exact fitsAgrees wide high fits
    · intro x y sx sy shows
      exact absurd shows.frameX (by omega)
    · intro x y sx sy shows
      exact absurd shows.frameY (by omega)

theorem agreesExactlyScaled : Agrees (spot 640 360 0 0) 1280 720 ↔
    Fits (spot 640 360 0 0) 1280 720 ∨ (spot 640 360 0 0).width.toNat = 0 ∨
      (spot 640 360 0 0).height.toNat = 0 :=
  agreesExactly (by decide) (by decide)

theorem shrunkApart : Shows 1280 720 640 720 0 0 320 0 ∧
    positionInVideo (some (640,720)) (some (spot 1280 720 0 0)) (0 : ℕ) (0 : ℕ) = ⟨0,0,640,720⟩ ∧
    ¬ ∀ (frame : RgbFrame) (w h : UInt32), frame.Full → 1 ≤ w.toNat → 1 ≤ h.toNat →
      Agrees frame w h := by
  have shows : Shows 1280 720 640 720 0 0 320 0 :=
    (showsExactly (by decide) (by decide)).mpr (by decide)
  have position : positionInVideo (some (640,720)) (some (spot 1280 720 0 0)) (0 : ℕ) (0 : ℕ) =
      ⟨0,0,640,720⟩ := by
    rw [positionInVideo,videoRectLarge (by decide) (by decide) (by decide)]
    simp [show UInt32.toNat 640 = 640 from rfl,show UInt32.toNat 720 = 720 from rfl]
  refine ⟨shows,position,fun all => ?_⟩
  have same := all (spot 1280 720 0 0) 640 720 (spotFull _ _ _ _) (by decide) (by decide) 0 0 320 0 shows
  rw [position,Rect.mk.injEq] at same
  norm_num at same
end
end Vmdesk
