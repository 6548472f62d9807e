import Mathlib.Data.List.Forall2
import Vmdesk.ConvertPixels
import Vmdesk.PipelineKeyframe

/-! What the frames of a session show. Buffers go round between the two threads, and a frame is
still made from one image, the one that was taken for it. -/
namespace Vmdesk
open LittleEndian (Bytes)

namespace Pipeline

def takenImage : Label → Option Image
  | .capture (.taken image) => some image
  | _ => none

def pictureOf (image : Image) : Option I420Frame :=
  xrgbToI420 image.data image.width image.height image.pitch (.new 0 0)

def coded (p : Pipeline) : Label → Option (I420Frame × EncodedFrame)
  | .encode (.encoded (.output out)) => match p.encode.phase with
    | .encoding frame _ _ => some (frame,out)
    | _ => none
  | _ => none

def EncodePhase.due : EncodePhase → List I420Frame
  | .swapping captured => [captured.frame]
  | .creating frame _ _ | .tuning frame _ _ | .encoding frame _ _ => [frame]
  | _ => []

def CaptureLoop.pending (c : CaptureLoop) : List I420Frame := match c.phase with
  | .deciding _ | .recycling _ _ => [c.current]
  | .offering _ captured => [captured.frame]
  | _ => []

def underway (p : Pipeline) : List I420Frame :=
  p.encode.phase.due ++ (p.slot.toList.map (·.frame) ++ p.capture.pending)

def EncodePhase.out : EncodePhase → List EncodedFrame
  | .delivering _ out _ | .sending _ _ out _ => [out]
  | _ => []

def handed (p : Pipeline) (channel : Nat) : List EncodedFrame :=
  p.frames channel ++ p.encode.phase.out

/- The frame has the even part of the size of the image, and each of its samples is the one of the
image's pixels in its place. -/
structure Pictures (image : Image) (frame : I420Frame) : Prop where
  size : (frame.width,frame.height) = I420.cropped image.width image.height
  samples : I420.Pixelwise image.data image.pitch frame

section Flow
variable {xxh3 : Bytes → UInt64} {p q : Pipeline} {image : Image} {frame : I420Frame}

theorem convertedAsserted {dst : I420Frame}
    (converted : xrgbToI420 image.data image.width image.height image.pitch dst = some frame) :
    I420.Asserted image.data image.width image.height image.pitch := by
  by_contra fails
  rw [(I420.panicsExact _ _ _ _ dst).mpr fails] at converted
  contradiction

theorem convertedPictures (made : pictureOf image = some frame) : Pictures image frame := by
  obtain ⟨f,result,size,samples,_⟩ := I420.convertsPixelwise (.new 0 0) (convertedAsserted made)
  cases Option.some.inj (made.symm.trans result)
  exact ⟨size,samples⟩

theorem convertedPicture {dst : I420Frame}
    (converted : xrgbToI420 image.data image.width image.height image.pitch dst = some frame) :
    pictureOf image = some frame := by
  have asserted := convertedAsserted converted
  obtain ⟨f,result,size,samples,_⟩ := I420.convertsPixelwise dst asserted
  obtain ⟨g,made,size',samples',_⟩ := I420.convertsPixelwise (.new 0 0) asserted
  cases Option.some.inj (converted.symm.trans result)
  have sizes := Prod.ext_iff.mp (size.trans size'.symm)
  rw [I420.pixelwiseUnique samples samples' sizes.1 sizes.2 (fun _ _ _ _ _ _ => rfl)]
  exact made

theorem captureUnderway {input : CaptureInput} (stepped : CaptureStep xxh3 p input q) :
    q.capture.pending.Sublist (p.capture.pending ++
      ((takenImage (.capture input)).bind pictureOf).toList) ∧ q.slot = p.slot ∨
    (q.slot.toList.map (·.frame) ++ q.capture.pending).Sublist
      (p.slot.toList.map (·.frame) ++ p.capture.pending) := by
  cases stepped with
  | idle now at' | begin now at' =>
    refine Or.inl ⟨?_,rfl⟩
    simp [CaptureLoop.pending,at']
  | pace late again phase nextTick at' next | locate found phase at' next =>
    refine Or.inl ⟨?_,rfl⟩
    rcases next with same|same <;> simp [CaptureLoop.pending,same]
  | fail at' | fault image at' | skip hash now at' | stop hash captured now at' =>
    refine Or.inl ⟨?_,rfl⟩
    simp [CaptureLoop.pending,captureAt]
  | take image frame at' converted =>
    refine Or.inl ⟨?_,rfl⟩
    simp [CaptureLoop.pending,at',takenImage,convertedPicture converted]
  | offer hash now at' | recycle hash keyframe now at' =>
    refine Or.inl ⟨?_,rfl⟩
    simp [CaptureLoop.pending,captureAt,at']
  | busy hash captured now at' =>
    refine Or.inl ⟨?_,rfl⟩
    simp [CaptureLoop.pending]
  | accept hash captured now at' running room =>
    refine Or.inr ?_
    simp [CaptureLoop.pending,at',room]

theorem turnUnderway {input : EncodeInput} (stepped : TurnStep p input q) :
    (((p.coded (.encode input)).map Prod.fst).toList ++ q.underway).Sublist p.underway := by
  have capture := turnCapture stepped
  cases stepped with
  | discard captured at' slot =>
    simp [coded,underway,at',slot,EncodePhase.due]
  | take captured at' slot =>
    simp [coded,underway,encodeAt,at',slot,EncodePhase.due]
  | stop at' slot =>
    simp [coded,underway,encodeAt,at',slot,EncodePhase.due]
  | recreate captured at' | keep captured at' =>
    simp [coded,underway,encodeAt,at',EncodePhase.due]
  | create frame ptsMs force at' | uncreated frame ptsMs force at' | tune frame ptsMs force ok bitrate at' =>
    simp [coded,underway,encodeAt,at',EncodePhase.due]
  | output frame ptsMs force out at' =>
    simp [coded,underway,encodeAt,at',EncodePhase.due]
  | skip frame ptsMs force at' | fail frame ptsMs force at' =>
    simp [coded,underway,encodeAt,at',EncodePhase.due]
  | deliver frame out force channel at' =>
    simp [coded,underway,encodeAt,at',EncodePhase.due]
  | unheard frame out force at' sink phase next =>
    rcases next with same|same <;> simp [coded,underway,encodeAt,at',same,EncodePhase.due]
  | send frame channel out force at' =>
    obtain ⟨same,_,slot,_⟩ := sendKeeps p channel out force
    simp [coded,underway,encodeAt,at',same,slot,EncodePhase.due]
  | rearm frame at' =>
    simp [coded,underway,encodeAt,at',request,EncodePhase.due]
  | give frame spare at' =>
    simp [coded,underway,encodeAt,at',EncodePhase.due]

theorem underwayStep {l : Label} (stepped : p.step xxh3 l = some q) :
    (((p.coded l).map Prod.fst).toList ++ q.underway).Sublist
      (p.underway ++ ((takenImage l).bind pictureOf).toList) := by
  cases l with
  | write w =>
    cases Option.some.inj stepped
    cases w <;> simp [coded,takenImage,underway,stepWrite,request]
  | drop channel =>
    cases Option.some.inj stepped
    simp [coded,takenImage,underway,stepDrop]
  | capture input =>
    have taken := captureStep stepped
    have encode := captureEncode taken
    simp only [coded,Option.map_none,Option.toList_none,List.nil_append,underway,encode,
      List.append_assoc]
    refine List.Sublist.append_left ?_ _
    rcases captureUnderway taken with ⟨pending,slot⟩|moved
    · rw [slot]
      exact pending.append_left _
    · rw [← List.append_assoc]
      exact moved.trans (List.sublist_append_left _ _)
  | encode input =>
    simp only [takenImage,Option.bind_none,Option.toList_none,List.append_nil]
    exact turnUnderway (turnStep stepped)

theorem turnHanded {input : EncodeInput} (channel : Nat) (stepped : TurnStep p input q) :
    (q.handed channel).Sublist
      (p.handed channel ++ ((p.coded (.encode input)).map Prod.snd).toList) := by
  cases stepped with
  | discard captured at' | take captured at' | stop at' | recreate captured at' | keep captured at'
  | create frame ptsMs force at' | uncreated frame ptsMs force at'
  | tune frame ptsMs force ok bitrate at' | skip frame ptsMs force at' | fail frame ptsMs force at'
  | give frame spare at' | deliver frame out force channel at' =>
    simp [coded,handed,encodeAt,at',EncodePhase.out]
  | output frame ptsMs force out at' => simp [coded,handed,encodeAt,at',EncodePhase.out]
  | unheard frame out force at' sink phase next =>
    rcases next with same|same <;> simp [coded,handed,encodeAt,at',same,EncodePhase.out]
  | send frame other out force at' =>
    simp only [coded,handed,encodeAt,at',EncodePhase.out,send,Option.map_none,Option.toList_none,
      List.append_nil]
    split
    · simp
    · by_cases own : channel = other
      · simp [own]
      · simp [own]
  | rearm frame at' => simp [coded,handed,encodeAt,at',request,EncodePhase.out]

theorem handedStep {l : Label} (channel : Nat) (stepped : p.step xxh3 l = some q) :
    (q.handed channel).Sublist (p.handed channel ++ ((p.coded l).map Prod.snd).toList) := by
  cases l with
  | write w =>
    cases Option.some.inj stepped
    cases w <;> simp [coded,handed,stepWrite,request]
  | drop channel =>
    cases Option.some.inj stepped
    simp [coded,handed,stepDrop]
  | capture input =>
    have taken := captureStep stepped
    have same : q.handed channel = p.handed channel := by
      rw [handed,handed,captureEncode taken]
      cases taken <;> rfl
    simp [coded,same]
  | encode input => exact turnHanded channel (turnStep stepped)

theorem chosenImages {images : List Image} {frames : List I420Frame}
    (kept : frames.Sublist (images.filterMap pictureOf)) : ∃ chosen, chosen.Sublist images ∧
      List.Forall₂ Pictures chosen frames := by
  obtain ⟨some',inside,same⟩ := List.sublist_filterMap_iff.mp kept
  subst same
  refine ⟨some'.filter (fun image => (pictureOf image).isSome),List.filter_sublist.trans inside,?_⟩
  clear inside kept
  induction some' with
  | nil => exact .nil
  | cons image rest ih =>
    cases made : pictureOf image with
    | none => simpa [made] using ih
    | some frame =>
      simp only [made,Option.isSome_some,List.filter_cons_of_pos,List.filterMap_cons]
      exact .cons (convertedPictures made) ih

end Flow

/- Each frame that a session has got is what the encoder made of the picture of one image; the frames
come in the order in which their images were taken, and no image is shown twice. -/
theorem framesPicture (xxh3 : Bytes → UInt64) (config : Config) (epoch : Nat) (ls : List Label)
    {p : Pipeline} (reached : Runs.run (step xxh3) (initial config epoch) ls = some p)
    (channel : Nat) : ∃ images calls,
      images.Sublist (ls.filterMap takenImage) ∧
      calls.Sublist (Runs.observed (step xxh3) coded (initial config epoch) ls) ∧
      calls.map Prod.snd = p.frames channel ∧
      List.Forall₂ (fun image call => Pictures image call.1) images calls := by
  have taken : (Runs.observed (step xxh3) (fun p l => (coded p l).map Prod.fst)
      (initial config epoch) ls ++ p.underway).Sublist ((initial config epoch).underway ++
        Runs.observed (step xxh3) (fun _ l => (takenImage l).bind pictureOf) (initial config epoch) ls) :=
    Runs.observedSublist (fun _ => True) trivial (fun _ _ _ _ _ => trivial)
      (fun _ _ _ _ stepped => underwayStep stepped) reached
  have sent : (p.handed channel).Sublist ((initial config epoch).handed channel ++
      Runs.observed (step xxh3) (fun p l => (coded p l).map Prod.snd) (initial config epoch) ls) := by
    have all := @Runs.observedSublist _ _ (step xxh3) _ (fun p => p.handed channel)
      (fun p l => (coded p l).map Prod.snd) (fun _ _ => none) _ _ _ (fun _ => True) trivial
      (fun _ _ _ _ _ => trivial) (fun _ _ _ _ stepped => handedStep channel stepped) reached
    exact (List.sublist_append_right _ _).trans all
  have none' : (initial config epoch).underway = [] ∧ (initial config epoch).handed channel = [] :=
    ⟨rfl,rfl⟩
  rw [none'.1,Runs.observedMap,Runs.observedLabels _ reached,List.nil_append,
    ← List.filterMap_filterMap] at taken
  rw [none'.2,Runs.observedMap,List.nil_append] at sent
  have frames : (p.frames channel).Sublist _ := (List.sublist_append_left _ _).trans sent
  obtain ⟨calls,inside,same⟩ := List.sublist_map_iff.mp frames
  have pictures := (inside.map Prod.fst).trans ((List.sublist_append_left _ _).trans taken)
  obtain ⟨images,chosen,shows⟩ := chosenImages pictures
  exact ⟨images,calls,chosen,inside,same.symm,List.forall₂_map_right_iff.mp shows⟩

def encodesAgain : List Label :=
  [.encode .proceeds,.encode .proceeds,.encode (.tuned true),
    .encode (.encoded (.output ⟨[0,0,0,1,65],false,0⟩)),.encode .proceeds,.encode .proceeds,
    .encode .proceeds]

def bufferAgain : List Label := firstFrame ++
  captures false ⟨List.replicate 1024 255,16,16,64⟩ ++ encodesAgain ++
  captures false (black 16 16) ++ encodesAgain

def firstSample (bytes : Bytes) : UInt64 := (bytes.headD 0).toUInt64

theorem framesPictureAgain : ∃ p, Runs.run (step firstSample) (initial {} 0) bufferAgain = some p ∧
    (p.frames 1).length = 3 ∧ ∃ images calls,
      images.Sublist (bufferAgain.filterMap takenImage) ∧
      calls.Sublist (Runs.observed (step firstSample) coded (initial {} 0) bufferAgain) ∧
      calls.map Prod.snd = p.frames 1 ∧
      List.Forall₂ (fun image call => Pictures image call.1) images calls := by
  have facts : (Runs.run (step firstSample) (initial {} 0) bufferAgain).map
      (fun p => (p.frames 1).length) = some 3 := by decide +kernel
  obtain ⟨p,reached,length⟩ := Option.map_eq_some_iff.mp facts
  exact ⟨p,reached,length,framesPicture firstSample {} 0 bufferAgain reached 1⟩

end Pipeline
end Vmdesk
