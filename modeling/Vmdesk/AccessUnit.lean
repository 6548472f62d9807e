import Vmdesk.AnnexB
import Vmdesk.OpenH264

/-! What `encode` makes of one call of the encoder library: the NAL units of all layers, one behind
the other, as one access unit. -/
namespace Vmdesk
open LittleEndian (Bytes)
open Pipeline (EncoderSettings EncodedFrame Encoded)

namespace OpenH264

inductive FrameType where | invalid | idr | i | p | skip | ipMixed
  deriving DecidableEq, Repr

/- `nalLengths` has an entry for each NAL unit of the layer, and the buffer holds all of them. -/
structure Layer where
  bsBuf : Option Bytes
  nalLengths : List Int
  deriving DecidableEq, Repr

structure FrameInfo where
  frameType : FrameType
  layerNum : Int
  layerInfo : List Layer
  deriving DecidableEq, Repr

def Layer.len (layer : Layer) : Nat := (layer.nalLengths.map Int.toNat).sum

def Layer.bytes (layer : Layer) : Bytes := match layer.bsBuf with
  | none => []
  | some buf => if layer.nalLengths = [] then [] else buf.take layer.len

def FrameInfo.data (info : FrameInfo) : Bytes :=
  (info.layerInfo.take info.layerNum.toNat).flatMap Layer.bytes

/- Nothing comes of a frame that the encoder has skipped, and nothing of one without data. -/
def FrameInfo.accessUnit (info : FrameInfo) (ptsMs : UInt64) : Option EncodedFrame :=
  if info.frameType = .skip ∨ info.frameType = .invalid then none
  else if info.data = [] then none
  else some ⟨info.data,info.frameType == .idr,ptsMs⟩

end OpenH264

namespace OpenH264Encoder
open OpenH264

/- `rc` and `info` are what the library answers. -/
def encode (settings : EncoderSettings) (frame : I420Frame) (ptsMs : UInt64) (rc : Int)
    (info : FrameInfo) : Except String (Option EncodedFrame) := do
  checkFrame settings frame
  Config.ensure (rc == 0) s!"EncodeFrame failed: {rc}"
  return info.accessUnit ptsMs

def encoded : Except String (Option EncodedFrame) → Encoded
  | .ok (some out) => .output out
  | .ok none => .skipped
  | .error _ => .failed

section Results
variable {settings : EncoderSettings} {frame : I420Frame} {ptsMs : UInt64} {rc : Int}
  {info : FrameInfo} {out : EncodedFrame}

theorem accessUnitOutput (made : info.accessUnit ptsMs = some out) :
    out.ptsMs = ptsMs ∧ out.data ≠ [] := by
  unfold FrameInfo.accessUnit at made
  split at made
  · contradiction
  · split at made
    · contradiction
    · next full =>
      cases Option.some.inj made
      exact ⟨rfl,full⟩

theorem encodeOk {unit : Option EncodedFrame} (made : encode settings frame ptsMs rc info = .ok unit) :
    unit = info.accessUnit ptsMs := by
  unfold encode at made
  cases checked : checkFrame settings frame with
  | error e =>
    rw [checked] at made
    contradiction
  | ok _ =>
    simp only [checked,Config.ensure,bind,Except.bind] at made
    split at made
    · contradiction
    · exact (Except.ok.inj made).symm

theorem encodeFits (fits : checkFrame settings frame = .ok ()) :
    encode settings frame ptsMs 0 info = .ok (info.accessUnit ptsMs) := by
  unfold encode
  rw [fits]
  rfl

theorem encodedTime (made : encoded (encode settings frame ptsMs rc info) = .output out) :
    out.ptsMs = ptsMs := by
  cases result : encode settings frame ptsMs rc info with
  | error e => simp [result,encoded] at made
  | ok unit =>
    cases unit with
    | none => simp [result,encoded] at made
    | some unit =>
      simp only [result,encoded,Encoded.output.injEq] at made
      subst made
      exact (accessUnitOutput (encodeOk result).symm).1

end Results

/- A layer as the library writes it: its NAL units with their start codes, and room behind them. -/
structure Written where
  units : List (AnnexB.StartCode × Bytes)
  room : Bytes
  deriving DecidableEq, Repr

def Written.layer (w : Written) : Layer where
  bsBuf := some (AnnexB.frame w.units ++ w.room)
  nalLengths := w.units.map (fun u => ((u.1.bytes ++ u.2).length : Int))

def layers (ws : List (Written ⊕ Layer)) : List Layer := ws.map (fun w => w.elim Written.layer id)

def units (ws : List (Written ⊕ Layer)) : List (AnnexB.StartCode × Bytes) :=
  ws.flatMap (fun w => w.elim Written.units (fun _ => []))

def Unused (ws : List (Written ⊕ Layer)) : Prop :=
  ∀ layer, .inr layer ∈ ws → layer.bsBuf = none ∨ layer.nalLengths = []

section Assembly
variable {w : Written} {ws : List (Written ⊕ Layer)}

theorem writtenLen (w : Written) : w.layer.len = (AnnexB.frame w.units).length := by
  have sizes : w.layer.nalLengths.map Int.toNat =
      w.units.map (fun u => (u.1.bytes ++ u.2).length) := by
    simp only [Written.layer,List.map_map,Function.comp_def,Int.toNat_natCast]
  rw [Layer.len,sizes,AnnexB.frame,List.length_flatMap]

theorem writtenBytes (w : Written) : w.layer.bytes = AnnexB.frame w.units := by
  have buffer : w.layer.bsBuf = some (AnnexB.frame w.units ++ w.room) := rfl
  simp only [Layer.bytes,buffer,writtenLen]
  split
  · next empty =>
    simp only [Written.layer,List.map_eq_nil_iff] at empty
    simp [empty,AnnexB.frame]
  · exact List.take_left

theorem unusedBytes {layer : Layer} (unused : layer.bsBuf = none ∨ layer.nalLengths = []) :
    layer.bytes = [] := by
  unfold Layer.bytes
  rcases unused with absent|empty
  · rw [absent]
  · cases layer.bsBuf <;> simp [empty]

theorem layersBytes (unused : Unused ws) :
    (layers ws).flatMap Layer.bytes = AnnexB.frame (units ws) := by
  induction ws with
  | nil => rfl
  | cons w ws ih =>
    have rest := ih (fun layer inside => unused layer (by simp [inside]))
    unfold layers units AnnexB.frame at rest ⊢
    rw [List.map_cons,List.flatMap_cons,rest,List.flatMap_cons,List.flatMap_append]
    congr 1
    cases w with
    | inl w => exact writtenBytes w
    | inr layer => exact unusedBytes (unused layer (by simp))

theorem frameFound {us : List (AnnexB.StartCode × Bytes)} (separable : AnnexB.Separable us) :
    AnnexB.nalUnits (AnnexB.frame us) = some (us.map Prod.snd) := by
  unfold AnnexB.nalUnits AnnexB.nalSpans
  simp only
  rw [AnnexB.spansExact]
  exact AnnexB.unitsFound separable List.drop_zero

theorem frameEmpty {us : List (AnnexB.StartCode × Bytes)} : AnnexB.frame us = [] ↔ us = [] := by
  cases us with
  | nil => simp [AnnexB.frame]
  | cons u us => rcases u with ⟨code,payload⟩; cases code <;> simp [AnnexB.frame,AnnexB.StartCode.bytes]

def answer (frameType : FrameType) (ws : List (Written ⊕ Layer)) (more : List Layer) : FrameInfo where
  frameType := frameType
  layerNum := ws.length
  layerInfo := layers ws ++ more

theorem answerData (frameType : FrameType) (more : List Layer) (unused : Unused ws) :
    (answer frameType ws more).data = AnnexB.frame (units ws) := by
  have counted : (layers ws ++ more).take ws.length = layers ws := by
    have length : ws.length = (layers ws).length := by simp [layers]
    rw [length]
    exact List.take_left
  rw [← layersBytes unused]
  simp only [FrameInfo.data,answer,Int.toNat_natCast,counted]

end Assembly

theorem accessUnitExact (settings : EncoderSettings) (frame : I420Frame) (ptsMs : UInt64)
    (frameType : FrameType) (ws : List (Written ⊕ Layer)) (more : List Layer)
    (fits : frame.width = settings.width.toNat ∧ frame.height = settings.height.toNat)
    (coded : frameType ≠ .skip ∧ frameType ≠ .invalid) (unused : Unused ws)
    (separable : AnnexB.Separable (units ws)) :
    if units ws = [] then encode settings frame ptsMs 0 (answer frameType ws more) = .ok none
    else ∃ out, encode settings frame ptsMs 0 (answer frameType ws more) = .ok (some out) ∧
      AnnexB.nalUnits out.data = some ((units ws).map Prod.snd) ∧
      out.keyframe = (frameType == .idr) ∧ out.ptsMs = ptsMs := by
  have checked := (checkFrameExact settings frame).mpr fits
  have called : encode settings frame ptsMs 0 (answer frameType ws more) =
      .ok ((answer frameType ws more).accessUnit ptsMs) := encodeFits checked
  have kind : ¬ ((answer frameType ws more).frameType = .skip ∨
      (answer frameType ws more).frameType = .invalid) := fun other => other.elim coded.1 coded.2
  have data := answerData frameType more unused
  rw [called,FrameInfo.accessUnit,if_neg kind,data]
  split
  · next empty => rw [if_pos (frameEmpty.mpr empty)]
  · next filled =>
    rw [if_neg (fun empty => filled (frameEmpty.mp empty))]
    exact ⟨_,rfl,frameFound separable,rfl,rfl⟩

def keyframeLayers : List (Written ⊕ Layer) :=
  [.inl ⟨[(.long,[0x67,1,2]),(.short,[0x68,3])],[9,9]⟩,.inr ⟨none,[4]⟩,.inl ⟨[(.long,[0x65,4,5,0])],[]⟩]

theorem accessUnitKeyframe : ∃ out,
    encode (desktop 12000) (.new 1920 1080) 40 0 (answer .idr keyframeLayers []) = .ok (some out) ∧
    AnnexB.nalUnits out.data = some [[0x67,1,2],[0x68,3],[0x65,4,5,0]] ∧
    out.keyframe = true ∧ out.ptsMs = 40 := by
  have unused : Unused keyframeLayers := by
    intro layer inside
    simp only [keyframeLayers,List.mem_cons,Sum.inr.injEq,reduceCtorEq,false_or,List.not_mem_nil,
      or_false] at inside
    exact Or.inl (by rw [inside])
  have separable : AnnexB.Separable (units keyframeLayers) := ⟨by decide,by decide⟩
  exact accessUnitExact (desktop 12000) (.new 1920 1080) 40 .idr keyframeLayers [] ⟨rfl,rfl⟩
    (by decide) unused separable

end OpenH264Encoder
end Vmdesk
