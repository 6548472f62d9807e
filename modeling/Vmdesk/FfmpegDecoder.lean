import Vmdesk.DecodeThread
import Vmdesk.LittleEndian
import Vmdesk.Text

/-! The H.264 decoder of the client. What the library answers to each call is the outside world's
choice; the texts of errors only go to the log. -/
namespace Vmdesk
open LittleEndian (Bytes)
open VideoDecoder (Result)

/- A decoded picture, in a pixel format that only the scaler knows. -/
structure DecodedImage where
  width : UInt32
  height : UInt32
  pixelFormat : Int
  data : Bytes
  deriving DecidableEq, Repr

inductive HwPreference where | auto | software
  deriving DecidableEq, Repr

namespace Ffmpeg

inductive Platform where | windows | linux | other
  deriving DecidableEq, Repr

def hwCandidates : Platform → List Text
  | .windows => ["d3d11va".toList,"dxva2".toList]
  | .linux => ["vaapi".toList]
  | .other => []

/- A negative answer that is neither `EAGAIN` nor, while receiving, the end of the stream. -/
inductive Failure where | invalidData | einval | other
  deriving DecidableEq, Repr

def classify : Failure → Result
  | .invalidData | .einval => .corrupt
  | .other => .fatal

inductive Send where | sent | again | failed (f : Failure)
  deriving DecidableEq, Repr

/- What comes of receiving frames until there are no more: the pictures that could be copied, and
then why the loop is left. -/
inductive Receive where
  | drained
  | failed (f : Failure)
  | untransferred
  | uncopied (corrupt : Bool)
  | copied (image : DecodedImage) (rest : Receive)
  deriving DecidableEq, Repr

structure Call where
  size : Nat
  allocates : Bool
  send : Send
  receive : Receive
  deriving DecidableEq, Repr

def intMax : Nat := 2147483647

end Ffmpeg
open Ffmpeg

/- `fellBack` is only ever set by the callback of a hardware decoder. -/
structure FfmpegDecoder where
  hwName : Option Text
  fellBack : Bool
  pictures : Nat
  deriving DecidableEq, Repr

namespace FfmpegDecoder

def openWith (opens : Option Text → Except Text Unit) (hw : Option Text) :
    Except Text FfmpegDecoder := (opens hw).map (fun _ => ⟨hw,false,0⟩)

def new (platform : Platform) (opens : Option Text → Except Text Unit) :
    HwPreference → Except Text FfmpegDecoder
  | .auto => match (hwCandidates platform).find? (fun name => (opens (some name)).toBool) with
    | some name => openWith opens (some name)
    | none => openWith opens none
  | .software => openWith opens none

/- The library asks for a format and cannot offer the one of the hardware. -/
def getFormat (d : FfmpegDecoder) : FfmpegDecoder := {d with fellBack := d.hwName.isSome || d.fellBack}

def name (d : FfmpegDecoder) : Text := match d.hwName with
  | some hw =>
    if d.fellBack then "h264 (software, ".toList ++ hw ++ " rejected the stream)".toList
    else "h264 (".toList ++ hw ++ ")".toList
  | none => "h264 (software)".toList

def isHardware (d : FfmpegDecoder) : Bool := d.hwName.isSome && !d.fellBack

def receiveFrames (d : FfmpegDecoder) (out : List DecodedImage) :
    Receive → FfmpegDecoder × List DecodedImage × Result
  | .drained => (d,out,.ok)
  | .failed f => (d,out,classify f)
  | .untransferred => (d,out,.fatal)
  | .uncopied corrupt => (d,out,if corrupt then .corrupt else .fatal)
  | .copied image rest => receiveFrames {d with pictures := d.pictures + 1} (out ++ [image]) rest

def decode (d : FfmpegDecoder) (c : Call) (out : List DecodedImage) :
    FfmpegDecoder × List DecodedImage × Result :=
  if c.size = 0 then (d,out,.ok)
  else if intMax < c.size then (d,out,.corrupt)
  else if c.allocates = false then (d,out,.fatal)
  else match c.send with
    | .failed f => (d,out,classify f)
    | .sent | .again => d.receiveFrames out c.receive

end FfmpegDecoder

namespace Ffmpeg

def Receive.images : Receive → List DecodedImage
  | .copied image rest => image::rest.images
  | .drained | .failed _ | .untransferred | .uncopied _ => []

def Receive.result : Receive → Result
  | .drained => .ok
  | .failed f => classify f
  | .untransferred => .fatal
  | .uncopied corrupt => if corrupt then .corrupt else .fatal
  | .copied _ rest => rest.result

def Call.images (c : Call) : List DecodedImage :=
  if c.size = 0 then []
  else if intMax < c.size then []
  else if c.allocates = false then []
  else match c.send with
    | .failed _ => []
    | .sent | .again => c.receive.images

def Call.result (c : Call) : Result :=
  if c.size = 0 then .ok
  else if intMax < c.size then .corrupt
  else if c.allocates = false then .fatal
  else match c.send with
    | .failed f => classify f
    | .sent | .again => c.receive.result

end Ffmpeg

namespace FfmpegDecoder
variable {d : FfmpegDecoder} {c : Call} {out : List DecodedImage}

theorem receiveExactly (r : Receive) : d.receiveFrames out r =
    ({d with pictures := d.pictures + r.images.length},out ++ r.images,r.result) := by
  induction r generalizing d out with
  | drained | failed | untransferred | uncopied => simp [receiveFrames,Receive.images,Receive.result]
  | copied image rest ih =>
    simp only [receiveFrames,ih,Receive.images,Receive.result,List.length_cons,List.append_assoc,
      List.singleton_append]
    rw [Nat.add_assoc,Nat.add_comm 1]

theorem decodeExactly : d.decode c out =
    ({d with pictures := d.pictures + c.images.length},out ++ c.images,c.result) := by
  unfold decode Call.images Call.result
  by_cases empty : c.size = 0
  · simp [empty]
  · by_cases large : intMax < c.size
    · simp [empty,large]
    · by_cases short : c.allocates = false
      · simp [empty,large,short]
      · simp only [if_neg empty,if_neg large,if_neg short]
        cases c.send with
        | failed f => simp
        | sent | again => exact receiveExactly c.receive

theorem newOpens (platform : Platform) {opens : Option Text → Except Text Unit}
    (preference : HwPreference) (software : opens none = .ok ()) :
    ∃ d, new platform opens preference = .ok d := by
  have bare : openWith opens none = .ok ⟨none,false,0⟩ := by
    rw [openWith,software]
    rfl
  cases preference with
  | software => exact ⟨_,bare⟩
  | auto =>
    simp only [new]
    split
    · next name found =>
      have opened := List.find?_some found
      unfold openWith
      cases shape : opens (some name) with
      | error e =>
        rw [shape] at opened
        cases opened
      | ok => exact ⟨_,rfl⟩
    · exact ⟨_,bare⟩

end FfmpegDecoder
end Vmdesk
