import Vmdesk.FfmpegDecoder
import Vmdesk.FitAspect
import Vmdesk.Runs

/-! The main loop of the decode thread with all that it touches: the decoder and its replacements,
the pictures on their way to the screen and what the other threads see of it. -/
namespace Vmdesk
open VideoDecoder (Result)
open Ffmpeg (Call Platform)
open FitAspect (fitAspect)

inductive AnyDecoder where
  | ffmpeg (d : FfmpegDecoder)
  | broken
  deriving DecidableEq, Repr

namespace AnyDecoder

def decode (out : List DecodedImage) (c : Call) : AnyDecoder → AnyDecoder × List DecodedImage × Result
  | .ffmpeg d =>
    let r := d.decode c out
    (.ffmpeg r.1,r.2)
  | .broken => (.broken,out,.fatal)

def name : AnyDecoder → Text
  | .ffmpeg d => d.name
  | .broken => "none".toList

def isHardware : AnyDecoder → Bool
  | .ffmpeg d => d.isHardware
  | .broken => false

def picturesDecoded : AnyDecoder → Nat
  | .ffmpeg d => d.pictures
  | .broken => 0

def getFormat : AnyDecoder → AnyDecoder
  | .ffmpeg d => .ffmpeg d.getFormat
  | .broken => .broken

end AnyDecoder

/- What the decode thread shares with the window. `published` is every frame that `latest` has
held. -/
structure SharedView where
  latest : Option RgbFrame
  targetSize : UInt32 × UInt32
  sourceSize : UInt32 × UInt32
  decodedFrames : Nat
  decoderName : Text
  published : List RgbFrame
  deriving DecidableEq, Repr

namespace SharedView

def new : SharedView := ⟨none,(1280,720),(0,0),0,"starting".toList,[]⟩

def setTargetSize (v : SharedView) (w h : UInt32) : SharedView := {v with targetSize := (max w 1,max h 1)}

def publish (v : SharedView) (frame : RgbFrame) : SharedView :=
  {v with latest := some frame, decodedFrames := v.decodedFrames + 1, published := v.published ++ [frame]}

end SharedView

inductive ViewEvent where
  | frame
  | fatal (why : Text)
  deriving DecidableEq, Repr

structure Scaling where
  image : DecodedImage
  target : UInt32 × UInt32
  frame : Option RgbFrame
  deriving DecidableEq, Repr

namespace DecodeLoop

inductive Phase where | waiting | drawing | exited
  deriving DecidableEq, Repr

end DecodeLoop

/- The last four fields are an observer's notes: the results of `decode` and the pictures it has
appended, the calls of the scaler, and how often a decoder took the place of another. -/
structure DecodeLoop where
  phase : DecodeLoop.Phase
  decoder : AnyDecoder
  images : List DecodedImage
  hwFailures : Nat
  lastRequest : Int
  view : SharedView
  events : List ViewEvent
  requests : Nat
  results : List Result
  appended : List DecodedImage
  scalings : List Scaling
  replaced : Nat
  deriving DecidableEq, Repr

namespace DecodeLoop

/- What happens next. `opens` says whether a software decoder can be opened if one is asked for,
`pixels` is what the scaler makes of a picture, `getFormat` the decoder's callback. -/
inductive Label where
  | accessUnit (c : Call) (now again : Int) (opens : Except Text Unit)
  | scale (pixels : Option (List UInt32))
  | drawn
  | inputClosed
  | getFormat
  | resized (w h : UInt32)

/- No decoder could be created when the thread has exited already. -/
def initial (platform : Platform) (opens : Option Text → Except Text Unit)
    (preference : HwPreference) (now : Int) : DecodeLoop :=
  let start (phase : Phase) (decoder : AnyDecoder) (name : Text) (events : List ViewEvent) : DecodeLoop :=
    ⟨phase,decoder,[],0,now - 1000000000,{SharedView.new with decoderName := name},events,0,[],[],[],0⟩
  match FfmpegDecoder.new platform opens preference with
  | .ok d => start .waiting (.ffmpeg d) d.name []
  | .error e => start .exited .broken "starting".toList [.fatal ("cannot create decoder: ".toList ++ e)]

def requestKeyframe (s : DecodeLoop) (now again : Int) : DecodeLoop :=
  if DecodeThread.requestSpacing ≤ elapsed s.lastRequest now
  then {s with lastRequest := again, requests := s.requests + 1} else s

def setDecoderName (s : DecodeLoop) (name : Text) : DecodeLoop :=
  {s with view := {s.view with decoderName := name}}

/- `FfmpegDecoder::new(HwPreference::Software)` -/
def software (opens : Except Text Unit) : Except Text FfmpegDecoder :=
  opens.map (fun _ => ⟨none,false,0⟩)

def replace (s : DecodeLoop) (d : AnyDecoder) : DecodeLoop :=
  {s with decoder := d, replaced := s.replaced + 1}

def fallbackToSoftware (s : DecodeLoop) (opens : Except Text Unit) : DecodeLoop :=
  match software opens with
  | .ok d => (s.setDecoderName d.name).replace (.ffmpeg d)
  | .error _ => s.replace .broken

def corrupt (s : DecodeLoop) (now again : Int) (opens : Except Text Unit) : DecodeLoop :=
  let s := s.requestKeyframe now again
  if s.decoder.isHardware && s.decoder.picturesDecoded == 0 then
    let s := {s with hwFailures := s.hwFailures + 1}
    if hwFailureLimit ≤ s.hwFailures then {s.fallbackToSoftware opens with hwFailures := 0} else s
  else s

def fatal (s : DecodeLoop) (now again : Int) (opens : Except Text Unit) : DecodeLoop :=
  let s := s.requestKeyframe now again
  if s.decoder.isHardware then s.fallbackToSoftware opens
  else match software opens with
    | .ok d => s.replace (.ffmpeg d)
    | .error e =>
      let why := "cannot recreate decoder: ".toList ++ e
      {s with phase := .exited, events := s.events ++ [ViewEvent.fatal why]}

def handle (s : DecodeLoop) (now again : Int) (opens : Except Text Unit) : Result → DecodeLoop
  | .ok => {s with hwFailures := 0, phase := .drawing}
  | .corrupt => s.corrupt now again opens
  | .fatal => s.fatal now again opens

def decoded (s : DecodeLoop) (c : Call) : DecodeLoop :=
  let r := s.decoder.decode [] c
  let s := {s with decoder := r.1, images := r.2.1}
  {s with results := s.results ++ [r.2.2], appended := s.appended ++ r.2.1}

def draw (s : DecodeLoop) (image : DecodedImage) (rest : List DecodedImage)
    (frame : Option RgbFrame) : DecodeLoop :=
  let view := {s.view with sourceSize := (image.width,image.height)}
  let scaling : Scaling := ⟨image,view.targetSize,frame⟩
  let s := {s with images := rest, scalings := s.scalings ++ [scaling]}
  match frame with
  | some f => {s with view := view.publish f, events := s.events ++ [ViewEvent.frame]}
  | none => {s with view := view}

def step (s : DecodeLoop) : Label → Option DecodeLoop
  | .accessUnit c now again opens =>
    if s.phase = .waiting then
      some ((s.decoded c).handle now again opens (s.decoder.decode [] c).2.2)
    else none
  | .scale pixels =>
    if s.phase = .drawing then match s.images with
      | image::rest =>
        let size := fitAspect s.view.targetSize (image.width,image.height)
        let frame := pixels.map (fun p => (⟨size.1,size.2,p⟩ : RgbFrame))
        if frame.all (fun f => decide f.Full) then some (s.draw image rest frame) else none
      | [] => none
    else none
  | .drawn =>
    if s.phase = .drawing ∧ s.images = [] then
      let s := {s with phase := .waiting}
      some (if s.decoder.name = s.view.decoderName then s else s.setDecoderName s.decoder.name)
    else none
  | .inputClosed => if s.phase = .waiting then some {s with phase := .exited} else none
  | .getFormat => if s.phase = .exited then none else some {s with decoder := s.decoder.getFormat}
  | .resized w h => some {s with view := s.view.setTargetSize w h}

section
variable (s : DecodeLoop) (image : DecodedImage) (rest : List DecodedImage) (frame : Option RgbFrame)

@[simp] theorem drawPhase : (s.draw image rest frame).phase = s.phase := by cases frame <;> rfl
@[simp] theorem drawDecoder : (s.draw image rest frame).decoder = s.decoder := by cases frame <;> rfl
@[simp] theorem drawImages : (s.draw image rest frame).images = rest := by cases frame <;> rfl
@[simp] theorem drawFailures : (s.draw image rest frame).hwFailures = s.hwFailures := by
  cases frame <;> rfl
@[simp] theorem drawRequest : (s.draw image rest frame).lastRequest = s.lastRequest := by
  cases frame <;> rfl
@[simp] theorem drawRequests : (s.draw image rest frame).requests = s.requests := by
  cases frame <;> rfl
@[simp] theorem drawResults : (s.draw image rest frame).results = s.results := by cases frame <;> rfl
@[simp] theorem drawAppended : (s.draw image rest frame).appended = s.appended := by
  cases frame <;> rfl
@[simp] theorem drawReplaced : (s.draw image rest frame).replaced = s.replaced := by
  cases frame <;> rfl

@[simp] theorem drawScalings : (s.draw image rest frame).scalings =
    s.scalings ++ [⟨image,s.view.targetSize,frame⟩] := by cases frame <;> rfl

@[simp] theorem drawPublished : (s.draw image rest frame).view.published =
    s.view.published ++ frame.toList := by cases frame <;> simp [draw,SharedView.publish]
end

theorem requestSets (s : DecodeLoop) (now again : Int) : ∃ last n,
    s.requestKeyframe now again = {s with lastRequest := last, requests := n} := by
  unfold requestKeyframe
  split
  · exact ⟨_,_,rfl⟩
  · exact ⟨s.lastRequest,s.requests,rfl⟩

theorem fallbackSets (s : DecodeLoop) (opens : Except Text Unit) : ∃ d name,
    d.isHardware = false ∧ s.fallbackToSoftware opens =
      {s with decoder := d, view := {s.view with decoderName := name}, replaced := s.replaced + 1} := by
  unfold fallbackToSoftware software
  cases opens with
  | ok => exact ⟨_,_,rfl,rfl⟩
  | error e => exact ⟨.broken,s.view.decoderName,rfl,rfl⟩

inductive Handles (s : DecodeLoop) (opens : Except Text Unit) : Result → DecodeLoop → Prop where
  | ok : Handles s opens .ok {s with hwFailures := 0, phase := .drawing}
  | noted (last n) (hardware : s.decoder.isHardware = true) (blank : s.decoder.picturesDecoded = 0)
      (few : s.hwFailures + 1 < hwFailureLimit) : Handles s opens .corrupt
        {s with lastRequest := last, requests := n, hwFailures := s.hwFailures + 1}
  | givenUp (last n d name) (hardware : s.decoder.isHardware = true)
      (blank : s.decoder.picturesDecoded = 0) (many : hwFailureLimit ≤ s.hwFailures + 1)
      (soft : d.isHardware = false) : Handles s opens .corrupt
        {s with lastRequest := last, requests := n, hwFailures := 0, decoder := d,
                view := {s.view with decoderName := name}, replaced := s.replaced + 1}
  | lost (last n) (harmless : s.decoder.isHardware = true → s.decoder.picturesDecoded ≠ 0) :
      Handles s opens .corrupt {s with lastRequest := last, requests := n}
  | failed (last n d name) (hardware : s.decoder.isHardware = true) (soft : d.isHardware = false) :
      Handles s opens .fatal {s with lastRequest := last, requests := n, decoder := d,
                                     view := {s.view with decoderName := name},
                                     replaced := s.replaced + 1}
  | renewed (last n) (soft : s.decoder.isHardware = false) (opened : opens = .ok ()) :
      Handles s opens .fatal {s with lastRequest := last, requests := n,
                                     decoder := .ffmpeg ⟨none,false,0⟩, replaced := s.replaced + 1}
  | ended (last n e why) (soft : s.decoder.isHardware = false) (closed : opens = .error e) :
      Handles s opens .fatal {s with lastRequest := last, requests := n, phase := .exited,
                                     events := s.events ++ [ViewEvent.fatal why]}

theorem handleCases (s : DecodeLoop) (now again : Int) (opens : Except Text Unit) (r : Result) :
    Handles s opens r (s.handle now again opens r) := by
  obtain ⟨last,n,asked⟩ := requestSets s now again
  cases r with
  | ok => exact .ok
  | corrupt =>
    simp only [handle,corrupt,asked]
    split
    · next shape =>
      simp only [Bool.and_eq_true,beq_iff_eq] at shape
      split
      · next many =>
        obtain ⟨d,name,soft,falls⟩ := fallbackSets
          {s with lastRequest := last, requests := n, hwFailures := s.hwFailures + 1} opens
        rw [falls]
        exact .givenUp last n d name shape.1 shape.2 many soft
      · next few => exact .noted last n shape.1 shape.2 (Nat.lt_of_not_le few)
    · next shape =>
      simp only [Bool.and_eq_true,beq_iff_eq] at shape
      exact .lost last n (fun hardware blank => shape ⟨hardware,blank⟩)
  | fatal =>
    simp only [handle,fatal,asked]
    split
    · next hardware =>
      obtain ⟨d,name,soft,falls⟩ := fallbackSets {s with lastRequest := last, requests := n} opens
      rw [falls]
      exact .failed last n d name hardware soft
    · next soft =>
      cases opens with
      | ok => exact .renewed last n (by simpa using soft) rfl
      | error e => exact .ended last n e _ (by simpa using soft) rfl

structure HandleKeeps (s : DecodeLoop) (r : Result) (t : DecodeLoop) : Prop where
  images : t.images = s.images
  results : t.results = s.results
  appended : t.appended = s.appended
  scalings : t.scalings = s.scalings
  published : t.view.published = s.view.published
  drawing : s.phase = .waiting → (t.phase = .drawing ↔ r = .ok)

theorem handleKeeps {s t : DecodeLoop} {opens : Except Text Unit} {r : Result}
    (handles : Handles s opens r t) : HandleKeeps s r t := by
  cases handles with
  | ok | noted | givenUp | lost | failed | renewed | ended =>
    exact ⟨rfl,rfl,rfl,rfl,rfl,fun waiting => by simp [waiting]⟩

inductive Step (s : DecodeLoop) : Label → DecodeLoop → Prop where
  | accessUnit (c now again opens) (u) (waiting : s.phase = .waiting)
      (handles : Handles (s.decoded c) opens (s.decoder.decode [] c).2.2 u) :
      Step s (.accessUnit c now again opens) u
  | scale (pixels image rest frame) (drawing : s.phase = .drawing) (next : s.images = image::rest)
      (sized : ∀ f, frame = some f → f.Full ∧
        (f.width,f.height) = fitAspect s.view.targetSize (image.width,image.height)) :
      Step s (.scale pixels) (s.draw image rest frame)
  | drawn (name) (drawing : s.phase = .drawing) (drained : s.images = []) :
      Step s .drawn {s with phase := .waiting, view := {s.view with decoderName := name}}
  | inputClosed (waiting : s.phase = .waiting) : Step s .inputClosed {s with phase := .exited}
  | getFormat (running : s.phase ≠ .exited) :
      Step s .getFormat {s with decoder := s.decoder.getFormat}
  | resized (w h) : Step s (.resized w h) {s with view := s.view.setTargetSize w h}

section
variable {s t : DecodeLoop} {l : Label}

theorem stepCases (stepped : s.step l = some t) : Step s l t := by
  cases l with
  | accessUnit c now again opens =>
    simp only [step] at stepped
    split at stepped
    · next waiting =>
      cases Option.some.inj stepped
      exact .accessUnit c now again opens _ waiting (handleCases _ _ _ _ _)
    · cases stepped
  | scale pixels =>
    simp only [step] at stepped
    split at stepped
    · next drawing =>
      split at stepped
      · next image rest images =>
        split at stepped
        · next full =>
          cases Option.some.inj stepped
          refine .scale pixels image rest _ drawing images (fun f shape => ?_)
          obtain ⟨p,_,same⟩ := Option.map_eq_some_iff.mp shape
          rw [shape] at full
          rw [← same]
          exact ⟨by simpa [same] using full,rfl⟩
        · cases stepped
      · cases stepped
    · cases stepped
  | drawn =>
    simp only [step] at stepped
    split at stepped
    · next ready =>
      cases Option.some.inj stepped
      split
      · exact .drawn s.view.decoderName ready.1 ready.2
      · exact .drawn _ ready.1 ready.2
    · cases stepped
  | inputClosed =>
    simp only [step] at stepped
    split at stepped
    · next waiting =>
      cases Option.some.inj stepped
      exact .inputClosed waiting
    · cases stepped
  | getFormat =>
    simp only [step] at stepped
    split at stepped
    · cases stepped
    · next running =>
      cases Option.some.inj stepped
      exact .getFormat running
  | resized w h =>
    cases Option.some.inj stepped
    exact .resized w h
end

end DecodeLoop
end Vmdesk
