import Vmdesk.LittleEndian
import Vmdesk.Blocks

/-! Pixel format conversion: a scanout buffer of `XRGB8888` pixels to a planar I420 frame. The
sizes of the planes are part of what a frame is. -/
namespace Vmdesk
open LittleEndian (Bytes)

/- `n & !1` -/
def evenDown (n : Nat) : Nat := n - n % 2

theorem evenDownEven (n : Nat) : evenDown n % 2 = 0 := by
  unfold evenDown
  omega

structure I420Frame where
  width : Nat
  height : Nat
  y : Bytes
  u : Bytes
  v : Bytes
  widthEven : width % 2 = 0
  heightEven : height % 2 = 0
  ySize : y.length = width * height
  uSize : u.length = width/2 * (height/2)
  vSize : v.length = width/2 * (height/2)
  deriving DecidableEq

def I420Frame.new (width height : Nat) : I420Frame where
  width := evenDown width
  height := evenDown height
  y := List.replicate (evenDown width * evenDown height) 16
  u := List.replicate (evenDown width/2 * (evenDown height/2)) 128
  v := List.replicate (evenDown width/2 * (evenDown height/2)) 128
  widthEven := evenDownEven width
  heightEven := evenDownEven height
  ySize := List.length_replicate
  uSize := List.length_replicate
  vSize := List.length_replicate

def I420Frame.strides (f : I420Frame) : Nat × Nat × Nat := (f.width,f.width/2,f.width/2)

namespace I420

def luma (r g b : Nat) : UInt8 := UInt8.ofNat (((66*r + 129*g + 25*b + 128) >>> 8) + 16)

/- Byte `k` of chunk `i` of a row: bytes `[B G R X B G R X]` of two adjacent pixels. -/
def sample (row : Bytes) (i k : Nat) : Nat := (row.getD (8*i + k) 0).toNat

/- The mean of a block of two by two pixels in the colour that stands at byte `k`. -/
def mean (row0 row1 : Bytes) (i k : Nat) : Int :=
  ((sample row0 i k + sample row0 i (k+4) + sample row1 i k + sample row1 i (k+4) + 2) >>> 2 : Nat)

def blue (r g b : Int) : UInt8 := UInt8.ofInt (((-38*r - 74*g + 112*b + 128) >>> (8 : Nat)) + 128)
def red (r g b : Int) : UInt8 := UInt8.ofInt (((112*r - 94*g - 18*b + 128) >>> (8 : Nat)) + 128)

def overwrite (old new : Bytes) : Bytes := new ++ old.drop new.length

def lumaRow (row : Bytes) (n : Nat) : Bytes := (List.range n).flatMap (fun i =>
  [luma (sample row i 2) (sample row i 1) (sample row i 0),
    luma (sample row i 6) (sample row i 5) (sample row i 4)])

def chromaRow (colour : Int → Int → Int → UInt8) (row0 row1 : Bytes) (n : Nat) : Bytes :=
  (List.range n).map (fun i => colour (mean row0 row1 i 2) (mean row0 row1 i 1) (mean row0 row1 i 0))

structure Rows where
  y0 : Bytes
  y1 : Bytes
  u : Bytes
  v : Bytes

def convertRowPair (row0 row1 : Bytes) (into : Rows) : Rows :=
  let n := min (row0.length/8) (row1.length/8)
  ⟨overwrite into.y0 (lumaRow row0 n),overwrite into.y1 (lumaRow row1 n),
    overwrite into.u (chromaRow blue row0 row1 n),overwrite into.v (chromaRow red row0 row1 n)⟩

/- `&bytes[at..][..size]` -/
def slice (bytes : Bytes) (start size : Nat) : Bytes := (bytes.drop start).take size

def rowPair (src : Bytes) (pitch : Nat) (dst : I420Frame) (pair : Nat) : Rows :=
  let width := dst.width
  convertRowPair (slice src (pair*2*pitch) (width*4)) (slice src ((pair*2 + 1)*pitch) (width*4))
    ⟨slice dst.y (pair*(width*2)) width,slice dst.y (pair*(width*2) + width) width,
      slice dst.u (pair*(width/2)) (width/2),slice dst.v (pair*(width/2)) (width/2)⟩

theorem lumaRowLength (row : Bytes) (n : Nat) : (lumaRow row n).length = 2*n := by
  simp [lumaRow,List.length_flatMap,Nat.mul_comm]

theorem chromaRowLength (colour : Int → Int → Int → UInt8) (row0 row1 : Bytes) (n : Nat) :
    (chromaRow colour row0 row1 n).length = n := by
  simp [chromaRow]

theorem overwriteWhole {old new : Bytes} (same : new.length = old.length) :
    overwrite old new = new := by
  rw [overwrite,same,List.drop_length,List.append_nil]

theorem sliceLength {bytes : Bytes} {start size : Nat} (fits : start + size ≤ bytes.length) :
    (slice bytes start size).length = size := by
  rw [slice,List.length_take,List.length_drop]
  omega

theorem blockFits {i k n size : Nat} (below : i < k) (least : n*k ≤ size) : i*n + n ≤ size := by
  have up : (i + 1)*n ≤ k*n := Nat.mul_le_mul_right n below
  have same : n*k = k*n := Nat.mul_comm n k
  have split : (i + 1)*n = i*n + n := Nat.succ_mul i n
  omega

structure Bounds (src : Bytes) (pitch : Nat) (dst : I420Frame) (pair : Nat) : Prop where
  row0 : pair*2*pitch + dst.width*4 ≤ src.length
  row1 : (pair*2 + 1)*pitch + dst.width*4 ≤ src.length
  y : pair*(dst.width*2) + dst.width*2 ≤ dst.y.length
  u : pair*(dst.width/2) + dst.width/2 ≤ dst.u.length
  v : pair*(dst.width/2) + dst.width/2 ≤ dst.v.length

section RowPair
variable {src : Bytes} {pitch : Nat} {dst : I420Frame} {pair : Nat}

theorem bounds (below : pair < dst.height/2)
    (enough : (dst.height - 1)*pitch + dst.width*4 ≤ src.length) : Bounds src pitch dst pair := by
  have upper : (pair*2 + 1)*pitch ≤ (dst.height - 1)*pitch := Nat.mul_le_mul_right pitch (by omega)
  have lower : pair*2*pitch ≤ (pair*2 + 1)*pitch := Nat.mul_le_mul_right pitch (by omega)
  constructor
  · omega
  · omega
  · refine blockFits below ?_
    rw [dst.ySize,Nat.mul_assoc]
    exact Nat.mul_le_mul_left dst.width (by omega)
  · exact blockFits below (by rw [dst.uSize])
  · exact blockFits below (by rw [dst.vSize])

theorem rowPairRows (inside : Bounds src pitch dst pair) :
    let row0 := slice src (pair*2*pitch) (dst.width*4)
    let row1 := slice src ((pair*2 + 1)*pitch) (dst.width*4)
    rowPair src pitch dst pair = ⟨lumaRow row0 (dst.width/2),lumaRow row1 (dst.width/2),
      chromaRow blue row0 row1 (dst.width/2),chromaRow red row0 row1 (dst.width/2)⟩ := by
  have even := dst.widthEven
  have double : 2*(dst.width/2) = dst.width := by omega
  have n : dst.width*4/8 = dst.width/2 := by omega
  have y := inside.y
  have y0 : (slice dst.y (pair*(dst.width*2)) dst.width).length = dst.width := sliceLength (by omega)
  have y1 : (slice dst.y (pair*(dst.width*2) + dst.width) dst.width).length = dst.width :=
    sliceLength (by omega)
  simp only [rowPair,convertRowPair,sliceLength inside.row0,sliceLength inside.row1,n,Nat.min_self]
  rw [overwriteWhole (by rw [lumaRowLength,y0,double]),
    overwriteWhole (by rw [lumaRowLength,y1,double]),
    overwriteWhole (by rw [chromaRowLength,sliceLength inside.u]),
    overwriteWhole (by rw [chromaRowLength,sliceLength inside.v])]

theorem rowPairLength (below : pair < dst.height/2)
    (enough : (dst.height - 1)*pitch + dst.width*4 ≤ src.length) :
    let rows := rowPair src pitch dst pair
    rows.y0.length = dst.width ∧ rows.y1.length = dst.width ∧
      rows.u.length = dst.width/2 ∧ rows.v.length = dst.width/2 := by
  have even := dst.widthEven
  have double : 2*(dst.width/2) = dst.width := by omega
  simp only [rowPairRows (bounds below enough),lumaRowLength,chromaRowLength,double,and_self]

end RowPair

def convertInto (src : Bytes) (pitch : Nat) (dst : I420Frame)
    (enough : (dst.height - 1)*pitch + dst.width*4 ≤ src.length) : I420Frame where
  width := dst.width
  height := dst.height
  y := (List.range (dst.height/2)).flatMap (fun pair =>
    (rowPair src pitch dst pair).y0 ++ (rowPair src pitch dst pair).y1)
  u := (List.range (dst.height/2)).flatMap (fun pair => (rowPair src pitch dst pair).u)
  v := (List.range (dst.height/2)).flatMap (fun pair => (rowPair src pitch dst pair).v)
  widthEven := dst.widthEven
  heightEven := dst.heightEven
  ySize := by
    rw [Blocks.joinedLength (dst.width*2)]
    · have even := dst.heightEven
      have double : 2*(dst.height/2) = dst.height := by omega
      rw [Nat.mul_assoc,double]
    · intro pair below
      have rows := rowPairLength below enough
      rw [List.length_append,rows.1,rows.2.1,Nat.mul_two]
  uSize := Blocks.joinedLength _ (fun _ below => (rowPairLength below enough).2.2.1)
  vSize := Blocks.joinedLength _ (fun _ below => (rowPairLength below enough).2.2.2)

def resize (dst : I420Frame) (width height : Nat) : I420Frame :=
  if dst.width ≠ width ∨ dst.height ≠ height then .new width height else dst

theorem resizeSize (dst : I420Frame) (width height : Nat) :
    (resize dst (evenDown width) (evenDown height)).width = evenDown width ∧
      (resize dst (evenDown width) (evenDown height)).height = evenDown height := by
  have again (n : Nat) : evenDown (evenDown n) = evenDown n := by
    have even := evenDownEven n
    unfold evenDown at even ⊢
    omega
  unfold resize
  split
  · exact ⟨again width,again height⟩
  · next same =>
    rw [not_or,not_not,not_not] at same
    exact same

end I420

open I420 in
/- `none` is a failed assertion. -/
def xrgbToI420 (src : Bytes) (width height pitch : Nat) (dst : I420Frame) : Option I420Frame :=
  if pitch < evenDown width * 4 then none
  else if evenDown width = 0 ∨ evenDown height = 0 then some (.new 0 0)
  else if enough : (evenDown height - 1)*pitch + evenDown width * 4 ≤ src.length then
    some (convertInto src pitch (resize dst (evenDown width) (evenDown height)) (by
      rw [(resizeSize dst width height).1,(resizeSize dst width height).2]
      exact enough))
  else none

end Vmdesk
