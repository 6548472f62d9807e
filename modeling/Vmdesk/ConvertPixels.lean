import Vmdesk.Convert

/-! The frame that the conversion is for, sample by sample. The conversion walks pairs of rows and
pairs of pixels; here every sample stands at its own place and only the pixels under it count. -/
namespace Vmdesk.I420
open LittleEndian (Bytes)

/- Byte `k` of pixel `x`,`y`, where the bytes of a pixel are B, G, R, X. -/
def pixel (src : Bytes) (pitch x y k : Nat) : Nat := (src.getD (y*pitch + 4*x + k) 0).toNat

def lumaAt (src : Bytes) (pitch x y : Nat) : Nat :=
  ((66*pixel src pitch x y 2 + 129*pixel src pitch x y 1 + 25*pixel src pitch x y 0 + 128) >>> 8) + 16

def meanAt (src : Bytes) (pitch x y k : Nat) : Nat :=
  (pixel src pitch (2*x) (2*y) k + pixel src pitch (2*x + 1) (2*y) k +
    pixel src pitch (2*x) (2*y + 1) k + pixel src pitch (2*x + 1) (2*y + 1) k + 2) >>> 2

def blueAt (src : Bytes) (pitch x y : Nat) : Int :=
  let (r,g,b) : Int × Int × Int :=
    (meanAt src pitch x y 2,meanAt src pitch x y 1,meanAt src pitch x y 0)
  ((-38*r - 74*g + 112*b + 128) >>> (8 : Nat)) + 128

def redAt (src : Bytes) (pitch x y : Nat) : Int :=
  let (r,g,b) : Int × Int × Int :=
    (meanAt src pitch x y 2,meanAt src pitch x y 1,meanAt src pitch x y 0)
  ((112*r - 94*g - 18*b + 128) >>> (8 : Nat)) + 128

/- Both sizes of the picture without its odd column and row; no picture has only one of them. -/
def cropped (width height : Nat) : Nat × Nat :=
  if evenDown width = 0 ∨ evenDown height = 0 then (0,0) else (evenDown width,evenDown height)

def Sample (plane : Bytes) (i : Nat) (value : Int) (low high : Int) : Prop :=
  ∃ s, plane[i]? = some s ∧ (s.toNat : Int) = value ∧ low ≤ value ∧ value ≤ high

structure Pixelwise (src : Bytes) (pitch : Nat) (f : I420Frame) : Prop where
  luma : ∀ x < f.width, ∀ y < f.height,
    Sample f.y (y*f.width + x) (lumaAt src pitch x y) 16 235
  blue : ∀ x < f.width/2, ∀ y < f.height/2,
    Sample f.u (y*(f.width/2) + x) (blueAt src pitch x y) 16 240
  red : ∀ x < f.width/2, ∀ y < f.height/2,
    Sample f.v (y*(f.width/2) + x) (redAt src pitch x y) 16 240

theorem lumaRange {r g b : Nat} (rByte : r < 256) (gByte : g < 256) (bByte : b < 256) :
    16 ≤ ((66*r + 129*g + 25*b + 128) >>> 8) + 16 ∧
      ((66*r + 129*g + 25*b + 128) >>> 8) + 16 ≤ 235 := by
  rw [Nat.shiftRight_eq_div_pow]
  omega

theorem lumaValue {r g b : Nat} (rByte : r < 256) (gByte : g < 256) (bByte : b < 256) :
    (luma r g b).toNat = ((66*r + 129*g + 25*b + 128) >>> 8) + 16 := by
  have range := lumaRange rByte gByte bByte
  rw [luma,UInt8.toNat_ofNat']
  omega

theorem ofIntValue {value : Int} (low : 16 ≤ value) (high : value ≤ 240) :
    ((UInt8.ofInt value).toNat : Int) = value := by
  rw [UInt8.ofInt,UInt8.toNat_ofNat']
  omega

theorem blueRange {r g b : Int} (rByte : 0 ≤ r ∧ r ≤ 255) (gByte : 0 ≤ g ∧ g ≤ 255)
    (bByte : 0 ≤ b ∧ b ≤ 255) : 16 ≤ ((-38*r - 74*g + 112*b + 128) >>> (8 : Nat)) + 128 ∧
      ((-38*r - 74*g + 112*b + 128) >>> (8 : Nat)) + 128 ≤ 240 := by
  rw [Int.shiftRight_eq_div_pow]
  omega

theorem redRange {r g b : Int} (rByte : 0 ≤ r ∧ r ≤ 255) (gByte : 0 ≤ g ∧ g ≤ 255)
    (bByte : 0 ≤ b ∧ b ≤ 255) : 16 ≤ ((112*r - 94*g - 18*b + 128) >>> (8 : Nat)) + 128 ∧
      ((112*r - 94*g - 18*b + 128) >>> (8 : Nat)) + 128 ≤ 240 := by
  rw [Int.shiftRight_eq_div_pow]
  omega

theorem pixelByte (src : Bytes) (pitch x y k : Nat) : pixel src pitch x y k < 256 :=
  UInt8.toNat_lt _

theorem meanByte (src : Bytes) (pitch x y k : Nat) : meanAt src pitch x y k ≤ 255 := by
  have a := pixelByte src pitch (2*x) (2*y) k
  have b := pixelByte src pitch (2*x + 1) (2*y) k
  have c := pixelByte src pitch (2*x) (2*y + 1) k
  have d := pixelByte src pitch (2*x + 1) (2*y + 1) k
  rw [meanAt,Nat.shiftRight_eq_div_pow]
  omega

section Rows
variable {src : Bytes} {pitch width x y k : Nat}

theorem sliceByte {bytes : Bytes} {start size j : Nat} (inside : j < size) :
    (slice bytes start size).getD j 0 = bytes.getD (start + j) 0 := by
  rw [List.getD_eq_getElem?_getD,List.getD_eq_getElem?_getD,slice,List.getElem?_take_of_lt inside,
    List.getElem?_drop]

/- `side` is the place of a pixel among the two of its chunk. -/
theorem samplePixel {i side : Nat} (below : i < width/2) (two : side < 2) (four : k < 4) :
    sample (slice src (y*pitch) (width*4)) i (4*side + k) = pixel src pitch (2*i + side) y k := by
  have place : y*pitch + (8*i + (4*side + k)) = y*pitch + 4*(2*i + side) + k := by omega
  rw [sample,sliceByte (by omega),pixel,place]

theorem lumaChunk (src : Bytes) (pitch y : Nat) {i side : Nat} (below : i < width/2) (two : side < 2) :
    let row := slice src (y*pitch) (width*4)
    luma (sample row i (4*side + 2)) (sample row i (4*side + 1)) (sample row i (4*side + 0)) =
      luma (pixel src pitch (2*i + side) y 2) (pixel src pitch (2*i + side) y 1)
        (pixel src pitch (2*i + side) y 0) := by
  intro row
  rw [samplePixel below two (by omega),samplePixel below two (by omega),
    samplePixel below two (by omega)]

theorem lumaRowPixel (even : width % 2 = 0) (inside : x < width) :
    (lumaRow (slice src (y*pitch) (width*4)) (width/2))[x]? =
      some (luma (pixel src pitch x y 2) (pixel src pitch x y 1) (pixel src pitch x y 0)) := by
  have below : x/2 < width/2 := by omega
  have block : ∀ row : Bytes, (lumaRow row (width/2))[x/2*2 + x%2]? =
      [luma (sample row (x/2) 2) (sample row (x/2) 1) (sample row (x/2) 0),
        luma (sample row (x/2) 6) (sample row (x/2) 5) (sample row (x/2) 4)][x%2]? :=
    fun row => Blocks.joinedGet (by intro _ _; rfl) below (Nat.mod_lt x Nat.two_pos)
  have split : x/2*2 + x%2 = x := by omega
  have pair : 2*(x/2) + x%2 = x := by omega
  have chunk := lumaChunk src pitch y below (Nat.mod_lt x Nat.two_pos)
  rw [pair] at chunk
  rw [split] at block
  rw [block,← chunk]
  rcases Nat.mod_two_eq_zero_or_one x with left | right
  · rw [left]
    rfl
  · rw [right]
    rfl

theorem chromaRowPixel (colour : Int → Int → Int → UInt8) (inside : x < width/2) :
    (chromaRow colour (slice src (y*2*pitch) (width*4)) (slice src ((y*2 + 1)*pitch) (width*4))
      (width/2))[x]? =
      some (colour (meanAt src pitch x y 2) (meanAt src pitch x y 1) (meanAt src pitch x y 0)) := by
  have block {k : Nat} (three : k < 3) : mean (slice src (y*2*pitch) (width*4))
      (slice src ((y*2 + 1)*pitch) (width*4)) x k = meanAt src pitch x y k := by
    have first {y : Nat} : sample (slice src (y*pitch) (width*4)) x k = pixel src pitch (2*x) y k := by
      have same : 4*0 + k = k := by omega
      rw [← same,samplePixel inside (show 0 < 2 by omega) (show k < 4 by omega),same]
      rfl
    have second {y : Nat} :
        sample (slice src (y*pitch) (width*4)) x (k + 4) = pixel src pitch (2*x + 1) y k := by
      rw [Nat.add_comm]
      exact samplePixel inside (show 1 < 2 by omega) (show k < 4 by omega)
    rw [mean,first,first,second,second,meanAt,Nat.mul_comm 2 y]
  rw [chromaRow,List.getElem?_map,List.getElem?_range inside]
  simp only [Option.map_some,block (show 2 < 3 by omega),block (show 1 < 3 by omega),
    block (show 0 < 3 by omega)]

end Rows

section Converted
variable {src : Bytes} {pitch x y : Nat} {dst : I420Frame}
  (enough : (dst.height - 1)*pitch + dst.width*4 ≤ src.length)
include enough

theorem convertedLuma (inX : x < dst.width) (inY : y < dst.height) :
    (convertInto src pitch dst enough).y[y*dst.width + x]? =
      some (luma (pixel src pitch x y 2) (pixel src pitch x y 1) (pixel src pitch x y 0)) := by
  have even := dst.widthEven
  have below : y/2 < dst.height/2 := by
    have rows := dst.heightEven
    omega
  have lengths {pair : Nat} (below : pair < dst.height/2) := rowPairLength below enough
  have block : (convertInto src pitch dst enough).y[y/2*(dst.width*2) + (y%2*dst.width + x)]? =
      ((rowPair src pitch dst (y/2)).y0 ++ (rowPair src pitch dst (y/2)).y1)[y%2*dst.width + x]? := by
    refine Blocks.joinedGet (fun pair below => ?_) below ?_
    · rw [List.length_append,(lengths below).1,(lengths below).2.1,Nat.mul_two]
    · rcases Nat.mod_two_eq_zero_or_one y with upper | lower
      · rw [upper]
        omega
      · rw [lower]
        omega
  have place : y/2*(dst.width*2) + (y%2*dst.width + x) = y*dst.width + x := by
    have split : y/2*2 + y%2 = y := by omega
    calc
      _ = (y/2*2 + y%2)*dst.width + x := by ring
      _ = y*dst.width + x := by rw [split]
  have rows := rowPairRows (bounds below enough)
  rw [← place,block]
  rcases Nat.mod_two_eq_zero_or_one y with upper | lower
  · have row : y/2*2 = y := by omega
    rw [upper,Nat.zero_mul,Nat.zero_add,List.getElem?_append_left (by rw [(lengths below).1]; exact inX),
      rows,row]
    exact lumaRowPixel even inX
  · have row : y/2*2 + 1 = y := by omega
    rw [lower,Nat.one_mul,List.getElem?_append_right (by rw [(lengths below).1]; omega),
      (lengths below).1,Nat.add_sub_cancel_left,rows,row]
    exact lumaRowPixel even inX

theorem convertedBlue (inX : x < dst.width/2) (inY : y < dst.height/2) :
    (convertInto src pitch dst enough).u[y*(dst.width/2) + x]? =
      some (blue (meanAt src pitch x y 2) (meanAt src pitch x y 1) (meanAt src pitch x y 0)) := by
  have block : (convertInto src pitch dst enough).u[y*(dst.width/2) + x]? =
      (rowPair src pitch dst y).u[x]? :=
    Blocks.joinedGet (fun pair below => (rowPairLength below enough).2.2.1) inY inX
  rw [block,rowPairRows (bounds inY enough)]
  exact chromaRowPixel blue inX

theorem convertedRed (inX : x < dst.width/2) (inY : y < dst.height/2) :
    (convertInto src pitch dst enough).v[y*(dst.width/2) + x]? =
      some (red (meanAt src pitch x y 2) (meanAt src pitch x y 1) (meanAt src pitch x y 0)) := by
  have block : (convertInto src pitch dst enough).v[y*(dst.width/2) + x]? =
      (rowPair src pitch dst y).v[x]? :=
    Blocks.joinedGet (fun pair below => (rowPairLength below enough).2.2.2) inY inX
  rw [block,rowPairRows (bounds inY enough)]
  exact chromaRowPixel red inX

theorem convertedPixelwise : Pixelwise src pitch (convertInto src pitch dst enough) := by
  have mean (x y k : Nat) : 0 ≤ (meanAt src pitch x y k : Int) ∧ (meanAt src pitch x y k : Int) ≤ 255 := by
    have byte := meanByte src pitch x y k
    omega
  constructor
  · intro x inX y inY
    have byte := pixelByte src pitch x y
    have range := lumaRange (byte 2) (byte 1) (byte 0)
    refine ⟨_,convertedLuma enough inX inY,?_,?_,?_⟩
    · rw [lumaValue (byte 2) (byte 1) (byte 0)]
      rfl
    · exact Int.ofNat_le.mpr range.1
    · exact Int.ofNat_le.mpr range.2
  · intro x inX y inY
    have range := blueRange (mean x y 2) (mean x y 1) (mean x y 0)
    exact ⟨_,convertedBlue enough inX inY,ofIntValue range.1 range.2,range.1,range.2⟩
  · intro x inX y inY
    have range := redRange (mean x y 2) (mean x y 1) (mean x y 0)
    exact ⟨_,convertedRed enough inX inY,ofIntValue range.1 range.2,range.1,range.2⟩

end Converted

def SameColours (width height : Nat) (src : Bytes) (pitch : Nat) (src' : Bytes) (pitch' : Nat) : Prop :=
  ∀ x < width, ∀ y < height, ∀ k < 3, pixel src pitch x y k = pixel src' pitch' x y k

theorem sampleUnique {plane plane' : Bytes} {i : Nat} {value low high : Int}
    (left : Sample plane i value low high) (right : Sample plane' i value low high) :
    plane[i]? = plane'[i]? := by
  obtain ⟨a,atA,valueA,_⟩ := left
  obtain ⟨b,atB,valueB,_⟩ := right
  have same : a.toNat = b.toNat := by omega
  rw [atA,atB,UInt8.toNat_inj.mp same]

theorem framesEqual {f g : I420Frame} (width : f.width = g.width) (height : f.height = g.height)
    (y : f.y = g.y) (u : f.u = g.u) (v : f.v = g.v) : f = g := by
  cases f
  cases g
  simp only at width height y u v
  subst width height y u v
  rfl

theorem pixelwiseUnique {src src' : Bytes} {pitch pitch' : Nat} {f g : I420Frame}
    (left : Pixelwise src pitch f) (right : Pixelwise src' pitch' g) (width : f.width = g.width)
    (height : f.height = g.height) (same : SameColours f.width f.height src pitch src' pitch') :
    f = g := by
  have luma {x y : Nat} (inX : x < f.width) (inY : y < f.height) :
      lumaAt src' pitch' x y = lumaAt src pitch x y := by
    have colour := same x inX y inY
    rw [lumaAt,lumaAt,colour 2 (by omega),colour 1 (by omega),colour 0 (by omega)]
  have mean {x y k : Nat} (inX : x < f.width/2) (inY : y < f.height/2) (three : k < 3) :
      meanAt src' pitch' x y k = meanAt src pitch x y k := by
    have at00 := same (2*x) (by omega) (2*y) (by omega) k three
    have at01 := same (2*x + 1) (by omega) (2*y) (by omega) k three
    have at10 := same (2*x) (by omega) (2*y + 1) (by omega) k three
    have at11 := same (2*x + 1) (by omega) (2*y + 1) (by omega) k three
    rw [meanAt,meanAt,at00,at01,at10,at11]
  have blue {x y : Nat} (inX : x < f.width/2) (inY : y < f.height/2) :
      blueAt src' pitch' x y = blueAt src pitch x y := by
    have average {k : Nat} (three : k < 3) := mean inX inY three
    rw [blueAt,blueAt,average (show 2 < 3 by omega),average (show 1 < 3 by omega),
      average (show 0 < 3 by omega)]
  have red {x y : Nat} (inX : x < f.width/2) (inY : y < f.height/2) :
      redAt src' pitch' x y = redAt src pitch x y := by
    have average {k : Nat} (three : k < 3) := mean inX inY three
    rw [redAt,redAt,average (show 2 < 3 by omega),average (show 1 < 3 by omega),
      average (show 0 < 3 by omega)]
  refine framesEqual width height ?_ ?_ ?_
  · refine Blocks.joinedExt f.ySize (by rw [g.ySize,width,height]) (fun y inY x inX => ?_)
    have there := right.luma x (width ▸ inX) y (height ▸ inY)
    rw [luma inX inY,← width] at there
    exact sampleUnique (left.luma x inX y inY) there
  · refine Blocks.joinedExt f.uSize (by rw [g.uSize,width,height]) (fun y inY x inX => ?_)
    have there := right.blue x (width ▸ inX) y (height ▸ inY)
    rw [blue inX inY,← width] at there
    exact sampleUnique (left.blue x inX y inY) there
  · refine Blocks.joinedExt f.vSize (by rw [g.vSize,width,height]) (fun y inY x inX => ?_)
    have there := right.red x (width ▸ inX) y (height ▸ inY)
    rw [red inX inY,← width] at there
    exact sampleUnique (left.red x inX y inY) there

def Asserted (src : Bytes) (width height pitch : Nat) : Prop :=
  evenDown width*4 ≤ pitch ∧ (evenDown width ≠ 0 → evenDown height ≠ 0 →
    (evenDown height - 1)*pitch + evenDown width*4 ≤ src.length)

instance (src width height pitch) : Decidable (Asserted src width height pitch) := by
  unfold Asserted
  infer_instance

/- The planes are cut into whole chunks, one of each for a pair of rows, and no index leaves its
slice. A product of sizes is no larger than the source, so that it is no overflow either. -/
structure InBounds (src : Bytes) (pitch : Nat) (dst : I420Frame) : Prop where
  yChunks : dst.y.length = dst.width*2*(dst.height/2)
  uChunks : dst.u.length = dst.width/2*(dst.height/2)
  vChunks : dst.v.length = dst.width/2*(dst.height/2)
  chunkSize : 0 < dst.height → 0 < dst.width/2
  rows : ∀ pair < dst.height/2, Bounds src pitch dst pair
  samples : ∀ i < dst.width*4/8, 8*i + 7 < dst.width*4 ∧ 2*i + 1 < dst.width ∧ i < dst.width/2
  products : 4*(dst.width*dst.height) ≤ src.length

theorem inBounds {src : Bytes} {pitch : Nat} {dst : I420Frame} (pixels : 0 < dst.height → 0 < dst.width)
    (row : dst.width*4 ≤ pitch) (enough : (dst.height - 1)*pitch + dst.width*4 ≤ src.length) :
    InBounds src pitch dst := by
  have evenWidth := dst.widthEven
  have evenHeight := dst.heightEven
  have whole : 2*(dst.height/2) = dst.height := by omega
  constructor
  · rw [dst.ySize,Nat.mul_assoc,whole]
  · exact dst.uSize
  · exact dst.vSize
  · omega
  · intro pair below
    exact bounds below enough
  · omega
  · rcases Nat.eq_zero_or_pos dst.height with none | some
    · rw [none]
      omega
    · have rows : (dst.height - 1)*(dst.width*4) ≤ (dst.height - 1)*pitch :=
        Nat.mul_le_mul_left _ row
      calc
        4*(dst.width*dst.height) = (dst.height - 1 + 1)*(dst.width*4) := by
          rw [Nat.sub_add_cancel some]
          ring
        _ = (dst.height - 1)*(dst.width*4) + dst.width*4 := Nat.succ_mul _ _
        _ ≤ src.length := by omega

theorem emptyPixelwise (src : Bytes) (pitch : Nat) : Pixelwise src pitch (.new 0 0) :=
  ⟨fun _ none => absurd none (Nat.not_lt_zero _),fun _ none => absurd none (Nat.not_lt_zero _),
    fun _ none => absurd none (Nat.not_lt_zero _)⟩

theorem convertsPixelwise {src : Bytes} {width height pitch : Nat} (dst : I420Frame)
    (asserted : Asserted src width height pitch) :
    ∃ f, xrgbToI420 src width height pitch dst = some f ∧ (f.width,f.height) = cropped width height ∧
      Pixelwise src pitch f ∧ InBounds src pitch (resize dst f.width f.height) := by
  unfold xrgbToI420 cropped
  rw [if_neg (Nat.not_lt.mpr asserted.1)]
  by_cases none : evenDown width = 0 ∨ evenDown height = 0
  · rw [if_pos none,if_pos none]
    have size : (resize dst 0 0).width = 0 ∧ (resize dst 0 0).height = 0 := resizeSize dst 0 0
    refine ⟨_,rfl,rfl,emptyPixelwise src pitch,inBounds ?_ ?_ ?_⟩
    · exact fun some => absurd some (by simp [I420Frame.new,evenDown,size.2])
    · simp [I420Frame.new,evenDown,size.1]
    · simp [I420Frame.new,evenDown,size.1,size.2]
  · rw [if_neg none,if_neg none]
    rw [not_or] at none
    have enough := asserted.2 none.1 none.2
    rw [dif_pos enough]
    have size := resizeSize dst width height
    have inside : InBounds src pitch (resize dst (evenDown width) (evenDown height)) := by
      refine inBounds (fun _ => ?_) ?_ ?_
      · rw [size.1]
        exact Nat.pos_of_ne_zero none.1
      · rw [size.1]
        exact asserted.1
      · rw [size.1,size.2]
        exact enough
    refine ⟨_,rfl,Prod.ext size.1 size.2,convertedPixelwise _,?_⟩
    simp only [convertInto,size.1,size.2]
    exact inside

theorem panicsExact (src : Bytes) (width height pitch : Nat) (dst : I420Frame) :
    xrgbToI420 src width height pitch dst = none ↔ ¬Asserted src width height pitch := by
  constructor
  · intro panics asserted
    obtain ⟨f,result,_⟩ := convertsPixelwise dst asserted
    rw [panics] at result
    contradiction
  · intro fails
    unfold xrgbToI420
    split
    · rfl
    · next row =>
      rw [Nat.not_lt] at row
      split
      · next none => exact absurd ⟨row,fun w h => absurd none (not_or.mpr ⟨w,h⟩)⟩ fails
      · split
        · next enough => exact absurd ⟨row,fun _ _ => enough⟩ fails
        · rfl

/- The frame is what its pixels make it: no X byte, no padding of a row and nothing of the old
destination is in it. -/
theorem xrgbToI420Exact {src : Bytes} {width height pitch : Nat} (dst : I420Frame)
    (asserted : Asserted src width height pitch) :
    ∃ f, xrgbToI420 src width height pitch dst = some f ∧ (f.width,f.height) = cropped width height ∧
      f.y.length = f.width*f.height ∧ f.u.length = f.width/2*(f.height/2) ∧
      f.v.length = f.width/2*(f.height/2) ∧ Pixelwise src pitch f ∧
      InBounds src pitch (resize dst f.width f.height) ∧
      ∀ src' pitch' dst', Asserted src' width height pitch' →
        SameColours f.width f.height src pitch src' pitch' →
        xrgbToI420 src' width height pitch' dst' = some f := by
  obtain ⟨f,result,size,samples,inside⟩ := convertsPixelwise dst asserted
  refine ⟨f,result,size,f.ySize,f.uSize,f.vSize,samples,inside,?_⟩
  intro src' pitch' dst' asserted' same
  obtain ⟨g,result',size',samples',_⟩ := convertsPixelwise dst' asserted'
  have sizes := Prod.ext_iff.mp (size.trans size'.symm)
  rw [result',pixelwiseUnique samples samples' sizes.1 sizes.2 same]

theorem xrgbToI420ExactOdd :
    let src := (List.range 39).map UInt8.ofNat
    ∃ f, xrgbToI420 src 3 3 13 (.new 6 2) = some f ∧ (f.width,f.height) = (2,2) ∧
      Pixelwise src 13 f := by
  have asserted : Asserted ((List.range 39).map UInt8.ofNat) 3 3 13 := by decide
  obtain ⟨f,result,size,_,_,_,samples,_⟩ := xrgbToI420Exact (.new 6 2) asserted
  exact ⟨f,result,size,samples⟩

example : (xrgbToI420 [0,0,255,9,0,0,255,9,7,7,0,0,255,9,0,0,255,9] 2 2 10 (.new 0 0)).map
    (fun f => (f.y,f.u,f.v)) = some ([82,82,82,82],[90],[240]) := by decide

end Vmdesk.I420
