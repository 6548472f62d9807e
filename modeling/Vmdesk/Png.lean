import Vmdesk.ConvertPixels

/-! The picture that `capture --png` writes, and that it is the one the stream shows. -/
namespace Vmdesk
open LittleEndian (Bytes)

namespace I420

def rgbRow (line : Bytes) : Bytes := (List.range (line.length/4)).flatMap (fun i =>
  [line.getD (4*i + 2) 0,line.getD (4*i + 1) 0,line.getD (4*i) 0])

/- `count` rows from `row` on. A row that the source does not have is a panic. -/
def rgbRows (src : Bytes) (width pitch : Nat) (out : Bytes) : Nat → Nat → Option Bytes
  | 0,_ => some out
  | count + 1,row => if row*pitch + width*4 ≤ src.length
      then rgbRows src width pitch (out ++ rgbRow (slice src (row*pitch) (width*4))) count (row + 1)
      else none

end I420
open I420

def xrgbToRgb8 (src : Bytes) (width height pitch : Nat) : Option Bytes :=
  rgbRows src width pitch [] height 0

structure PngImage where
  width : UInt32
  height : UInt32
  data : Bytes
  deriving DecidableEq, Repr

inductive PngError where
  | creating
  | tooLarge
  | header
  | data
  | finishing
  deriving DecidableEq, Repr

structure PngCalls where
  creates : Bool
  header : Bool
  data : Bool
  finishes : Bool
  deriving DecidableEq, Repr

/- `u32::try_from` -/
def tryU32 (n : Nat) : Except PngError UInt32 := if n < 2^32 then .ok (UInt32.ofNat n) else .error .tooLarge

def PngCalls.succeed (ok : Bool) (e : PngError) : Except PngError Unit := if ok then .ok () else .error e

def encodePng (calls : PngCalls) (rgb : Bytes) (width height : Nat) : Except PngError PngImage := do
  PngCalls.succeed calls.creates .creating
  let w ← tryU32 width
  let h ← tryU32 height
  PngCalls.succeed calls.header .header
  PngCalls.succeed calls.data .data
  PngCalls.succeed calls.finishes .finishing
  .ok ⟨w,h,rgb⟩

def writeXrgbPng (calls : PngCalls) (src : Bytes) (width height pitch : Nat) :
    Option (Except PngError PngImage) :=
  (xrgbToRgb8 src width height pitch).map (fun rgb => encodePng calls rgb width height)

namespace I420

/- The picture of a file as a scanout buffer without padding, and with any byte beside the colours. -/
def repacked (rgb : Bytes) (width height : Nat) (x : UInt8) : Bytes :=
  (List.range (width*height)).flatMap (fun i =>
    [rgb.getD (3*i + 2) 0,rgb.getD (3*i + 1) 0,rgb.getD (3*i) 0,x])

section Rgb
variable {src : Bytes} {width height pitch x y k : Nat}

def rgbLine (src : Bytes) (width pitch row : Nat) : Bytes :=
  rgbRow (slice src (row*pitch) (width*4))

theorem rgbRowsExact (out : Bytes) (count row : Nat) :
    rgbRows src width pitch out count row =
      if ∀ i < count, (row + i)*pitch + width*4 ≤ src.length
      then some (out ++ (List.range count).flatMap (fun i => rgbLine src width pitch (row + i)))
      else none := by
  induction count generalizing out row with
  | zero => simp [rgbRows]
  | succ count ih =>
    unfold rgbRows
    split
    · next here =>
      rw [ih]
      have all : (∀ i < count, (row + 1 + i)*pitch + width*4 ≤ src.length) ↔
          ∀ i < count + 1, (row + i)*pitch + width*4 ≤ src.length := by
        refine ⟨fun later i below => ?_,fun all i below => ?_⟩
        · cases i with
          | zero => exact here
          | succ i =>
            have this := later i (by omega)
            rwa [Nat.add_assoc,Nat.add_comm 1 i] at this
        · have this := all (i + 1) (by omega)
          rwa [Nat.add_assoc,Nat.add_comm 1 i]
      have lines : rgbLine src width pitch row ++
          (List.range count).flatMap (fun i => rgbLine src width pitch (row + 1 + i)) =
          (List.range (count + 1)).flatMap (fun i => rgbLine src width pitch (row + i)) := by
        rw [List.range_succ_eq_map,List.flatMap_cons,List.flatMap_map]
        simp only [Nat.add_zero,Nat.add_assoc,Nat.succ_eq_add_one,Nat.add_comm 1]
      by_cases rest : ∀ i < count, (row + 1 + i)*pitch + width*4 ≤ src.length
      · rw [if_pos rest,if_pos (all.mp rest),List.append_assoc]
        exact congrArg (fun l => some (out ++ l)) lines
      · rw [if_neg rest,if_neg (fun whole => rest (all.mpr whole))]
    · next short =>
      rw [if_neg (fun all => short (all 0 (by omega)))]

theorem rgbRowLength {line : Bytes} (sized : line.length = width*4) :
    (rgbRow line).length = 3*width := by
  have quarter : width*4/4 = width := by omega
  simp [rgbRow,sized,quarter,List.length_flatMap,Nat.mul_comm]

theorem rgbRowGet {line : Bytes} (sized : line.length = width*4) (inX : x < width) (three : k < 3) :
    (rgbRow line)[x*3 + (2 - k)]? = some (line.getD (4*x + k) 0) := by
  have quarter : line.length/4 = width := by omega
  have block : (rgbRow line)[x*3 + (2 - k)]? =
      [line.getD (4*x + 2) 0,line.getD (4*x + 1) 0,line.getD (4*x) 0][2 - k]? := by
    unfold rgbRow
    rw [quarter]
    exact Blocks.joinedGet (by intro _ _; rfl) inX (by omega)
  rw [block]
  match k,three with
  | 0,_ => rfl
  | 1,_ => rfl
  | 2,_ => rfl

def RowsInside (src : Bytes) (width height pitch : Nat) : Prop :=
  ∀ row < height, row*pitch + width*4 ≤ src.length

theorem xrgbToRgb8Exact (inside : RowsInside src width height pitch) :
    xrgbToRgb8 src width height pitch =
      some ((List.range height).flatMap (rgbLine src width pitch)) := by
  have all : ∀ i < height, (0 + i)*pitch + width*4 ≤ src.length := by
    intro i below
    rw [Nat.zero_add]
    exact inside i below
  rw [xrgbToRgb8,rgbRowsExact,if_pos all]
  simp

theorem rgbLineLength (inside : RowsInside src width height pitch) {row : Nat} (below : row < height) :
    (rgbLine src width pitch row).length = 3*width :=
  rgbRowLength (sliceLength (inside row below))

theorem rgbGet (inside : RowsInside src width height pitch) (inX : x < width) (inY : y < height)
    (three : k < 3) : ((List.range height).flatMap (rgbLine src width pitch))[3*(y*width + x) + (2 - k)]? =
      some (src.getD (y*pitch + 4*x + k) 0) := by
  have place : 3*(y*width + x) + (2 - k) = y*(3*width) + (x*3 + (2 - k)) := by ring
  have line : (slice src (y*pitch) (width*4)).length = width*4 := sliceLength (inside y inY)
  rw [place,Blocks.joinedGet (fun _ below => rgbLineLength inside below) inY (by omega)]
  have own := rgbRowGet line inX three
  rw [sliceByte (by omega),← Nat.add_assoc] at own
  exact own

theorem repackedPixel (inside : RowsInside src width height pitch) (inX : x < width) (inY : y < height)
    (three : k < 3) (beside : UInt8) :
    pixel (repacked ((List.range height).flatMap (rgbLine src width pitch)) width height beside)
      (4*width) x y k = pixel src pitch x y k := by
  have below : y*width + x < width*height := Blocks.placeBelow inX inY
  have block (rgb : Bytes) : (repacked rgb width height beside)[(y*width + x)*4 + k]? =
      [rgb.getD (3*(y*width + x) + 2) 0,rgb.getD (3*(y*width + x) + 1) 0,
        rgb.getD (3*(y*width + x)) 0,beside][k]? :=
    Blocks.joinedGet (by intro _ _; rfl) below (by omega)
  have colour {j : Nat} (two : j < 3) := rgbGet inside inX inY two
  have place : y*(4*width) + 4*x + k = (y*width + x)*4 + k := by ring
  rw [pixel,pixel,place,List.getD_eq_getElem?_getD,block]
  have which : k = 0 ∨ k = 1 ∨ k = 2 := by omega
  rcases which with same|same|same
  · subst same
    have own := colour (j := 0) (by omega)
    simp [List.getD_eq_getElem?_getD,own]
  · subst same
    have own := colour (j := 1) (by omega)
    simp [List.getD_eq_getElem?_getD,own]
  · subst same
    have own := colour (j := 2) (by omega)
    simp only [Nat.sub_self,Nat.add_zero] at own
    simp [List.getD_eq_getElem?_getD,own]

theorem repackedLength (rgb : Bytes) (width height : Nat) (beside : UInt8) :
    (repacked rgb width height beside).length = 4*(width*height) :=
  Blocks.joinedLength 4 (by intro _ _; rfl)

theorem capturedInside (row : 4*width ≤ pitch) (whole : pitch*height ≤ src.length) :
    RowsInside src width height pitch := by
  intro i below
  have rows : (i + 1)*pitch ≤ height*pitch := Nat.mul_le_mul_right pitch below
  rw [Nat.succ_mul,Nat.mul_comm height] at rows
  omega

theorem croppedBelow (width height : Nat) :
    (cropped width height).1 ≤ width ∧ (cropped width height).2 ≤ height := by
  unfold cropped evenDown
  split
  · exact ⟨Nat.zero_le _,Nat.zero_le _⟩
  · exact ⟨Nat.sub_le _ _,Nat.sub_le _ _⟩

theorem capturedAsserted (row : 4*width ≤ pitch) (whole : pitch*height ≤ src.length) :
    Asserted src width height pitch := by
  have wide : evenDown width ≤ width := Nat.sub_le _ _
  have high : evenDown height ≤ height := Nat.sub_le _ _
  refine ⟨by omega,fun _ some' => ?_⟩
  have last := capturedInside row whole (evenDown height - 1) (by omega)
  omega

end Rgb

theorem pngWritten {calls : PngCalls} {rgb : Bytes} {width height : Nat} {image : PngImage}
    (written : encodePng calls rgb width height = .ok image) :
    image.width.toNat = width ∧ image.height.toNat = height ∧ image.data = rgb := by
  have side {n : Nat} {value : UInt32} (small : tryU32 n = .ok value) : value.toNat = n := by
    unfold tryU32 at small
    split at small
    · next below => exact Except.ok.inj small ▸ UInt32.toNat_ofNat_of_lt' below
    · cases small
  simp only [encodePng,bind,Except.bind] at written
  split at written <;> try contradiction
  split at written <;> try contradiction
  next w wide =>
    split at written <;> try contradiction
    next h high =>
      split at written <;> try contradiction
      split at written <;> try contradiction
      split at written <;> try contradiction
      cases Except.ok.inj written
      exact ⟨side wide,side high,rfl⟩

/- The file and the stream show the same picture: of any capture both can be made, the file has three
bytes for each pixel, and converting what it shows, in whatever buffer it is put, gives the frame that
the capture itself is converted to. -/
theorem pngShowsStream {src : Bytes} {width height pitch : Nat} (row : 4*width ≤ pitch)
    (whole : pitch*height ≤ src.length) (dst : I420Frame) : ∃ rgb f,
    xrgbToRgb8 src width height pitch = some rgb ∧ rgb.length = 3*(width*height) ∧
    xrgbToI420 src width height pitch dst = some f ∧
    (∀ beside dst', xrgbToI420 (repacked rgb width height beside) width height (4*width) dst' = some f) ∧
    ∀ calls image, writeXrgbPng calls src width height pitch = some (.ok image) →
      image.width.toNat = width ∧ image.height.toNat = height ∧ image.data = rgb := by
  have inside := capturedInside row whole
  obtain ⟨f,result,size,samples,_⟩ := convertsPixelwise dst (capturedAsserted row whole)
  refine ⟨_,f,xrgbToRgb8Exact inside,?_,result,fun beside dst' => ?_,fun calls image written => ?_⟩
  · rw [Blocks.joinedLength (3*width) (fun _ below => rgbLineLength inside below)]
    ring
  · have long := repackedLength ((List.range height).flatMap (rgbLine src width pitch)) width height beside
    obtain ⟨g,result',size',samples',_⟩ := convertsPixelwise dst' (capturedAsserted
      (Nat.le_refl (4*width)) (show 4*width*height ≤ _ by rw [long,Nat.mul_assoc]))
    have sizes := Prod.ext_iff.mp (size.trans size'.symm)
    have cropping : f.width ≤ width ∧ f.height ≤ height := by
      have below := croppedBelow width height
      rwa [← size] at below
    rw [result',pixelwiseUnique samples samples' sizes.1 sizes.2 (fun x inX y inY k three => ?_)]
    exact (repackedPixel inside (inX.trans_le cropping.1) (inY.trans_le cropping.2) three beside).symm
  · rw [writeXrgbPng,xrgbToRgb8Exact inside] at written
    exact pngWritten (Option.some.inj written)

theorem pngShowsStreamOdd : ∃ rgb f, xrgbToRgb8 ((List.range 39).map UInt8.ofNat) 3 3 13 = some rgb ∧
    rgb.length = 27 ∧ xrgbToI420 ((List.range 39).map UInt8.ofNat) 3 3 13 (.new 6 2) = some f ∧
    ∀ beside dst', xrgbToI420 (repacked rgb 3 3 beside) 3 3 12 dst' = some f := by
  have row : 4*3 ≤ 13 := by decide
  have whole : 13*3 ≤ ((List.range 39).map UInt8.ofNat).length := by decide
  obtain ⟨rgb,f,written,size,streamed,same,_⟩ := pngShowsStream row whole (.new 6 2)
  exact ⟨rgb,f,written,size,streamed,same⟩

end I420
end Vmdesk
