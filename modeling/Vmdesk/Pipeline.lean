import Mathlib.Logic.Function.Basic
import Vmdesk.Convert
import Vmdesk.Shared

/-! The two threads of the pipeline, the one-slot channel from the capture thread to the encoder
thread and the channel that brings used frames back. A step is one access to what the threads
share with each other or with the session layer. Clock readings, the display, the encoder and
the writes of the session layer stand in the label. -/
namespace Vmdesk
open LittleEndian (Bytes)

namespace Pipeline

structure Image where
  data : Bytes
  width : Nat
  height : Nat
  pitch : Nat
  deriving DecidableEq, Repr

structure Captured where
  frame : I420Frame
  ptsMs : UInt64
  keyframe : Bool
  deriving DecidableEq

structure EncoderSettings where
  width : UInt32
  height : UInt32
  fps : UInt32
  bitrateKbps : UInt32
  keyframeInterval : UInt32
  threads : UInt16
  deriving DecidableEq, Repr

structure EncodedFrame where
  data : Bytes
  keyframe : Bool
  ptsMs : UInt64
  deriving DecidableEq, Repr

inductive CapturePhase where
  | checking
  | pacing
  | locating
  | shooting
  | deciding (hash : UInt64)
  | recycling (hash : UInt64) (keyframe : Bool)
  | offering (hash : UInt64) (captured : Captured)
  | gone
  deriving DecidableEq

/- What the capture thread meets at its next step. Clock readings are in nanoseconds. -/
inductive CaptureInput where
  | clock (now : Nat)
  | paced (late again : Nat)
  | located (found : Bool)
  | failed
  | taken (image : Image)
  deriving DecidableEq, Repr

structure CaptureLoop where
  phase : CapturePhase
  source : Bool
  current : I420Frame
  lastHash : Option UInt64
  lastSent : Nat
  nextTick : Nat
  wasConnected : Bool
  deriving DecidableEq

inductive EncodePhase where
  | receiving
  | swapping (captured : Captured)
  | creating (frame : I420Frame) (ptsMs : UInt64) (force : Bool)
  | tuning (frame : I420Frame) (ptsMs : UInt64) (force : Bool)
  | encoding (frame : I420Frame) (ptsMs : UInt64) (force : Bool)
  | delivering (frame : I420Frame) (out : EncodedFrame) (force : Bool)
  | sending (frame : I420Frame) (channel : Nat) (out : EncodedFrame) (force : Bool)
  | rearming (frame : I420Frame)
  | returning (frame : I420Frame)
  | gone
  deriving DecidableEq

inductive Encoded where
  | output (out : EncodedFrame)
  | skipped
  | failed
  deriving DecidableEq, Repr

inductive EncodeInput where
  | proceeds
  | created (ok : Bool)
  | tuned (ok : Bool)
  | encoded (result : Encoded)
  deriving DecidableEq, Repr

/- An encoder is known by the settings it was created with. -/
structure EncodeLoop where
  phase : EncodePhase
  encoder : Option EncoderSettings
  encoderSize : Nat × Nat
  currentBitrate : UInt32
  deriving DecidableEq

inductive Label where
  | write (w : Shared.Write)
  | drop (channel : Nat)
  | capture (input : CaptureInput)
  | encode (input : EncodeInput)
  deriving DecidableEq, Repr

end Pipeline

open Pipeline

/- `owed` only records what happened: a keyframe was requested while the sink that is still
installed had its receiver, and no access unit encoded with `force` has been handed to it
since. -/
structure Pipeline where
  config : Config
  epoch : Nat
  shared : Shared
  capture : CaptureLoop
  encode : EncodeLoop
  slot : Option Captured
  spare : List I420Frame
  dropped : Nat → Bool
  frames : Nat → List EncodedFrame
  owed : Bool

namespace Pipeline
open Function

def initial (config : Config) (epoch : Nat) : Pipeline where
  config := config
  epoch := epoch
  shared := .new config.video.bitrateKbps
  capture := ⟨.checking,false,.new 0 0,none,epoch,epoch,false⟩
  encode := ⟨.receiving,none,(0,0),config.video.bitrateKbps⟩
  slot := none
  spare := []
  dropped := fun _ => false
  frames := fun _ => []
  owed := false

/- Nanoseconds from one tick to the next: `1.0 / fps` seconds, rounded to the nearest one. -/
def frameDuration (fps : UInt32) : Nat :=
  let fps := max fps.toNat 1
  let rest := 1000000000 % fps
  let down := 1000000000 / fps
  if 2*rest < fps then down else if fps < 2*rest then down + 1 else down + down % 2

def captureAt (p : Pipeline) (phase : CapturePhase) : Pipeline :=
  {p with capture := {p.capture with phase := phase}}

def encodeAt (p : Pipeline) (phase : EncodePhase) : Pipeline :=
  {p with encode := {p.encode with phase := phase}}

def live (p : Pipeline) : Bool := p.shared.sink.any (fun channel => !p.dropped channel)

def request (p : Pipeline) : Pipeline :=
  {p with
    shared := p.shared.storeForce true
    owed := p.owed || p.live}

def stepWrite (p : Pipeline) (w : Shared.Write) : Pipeline := match w with
  | .force => p.request
  | .install channel => {p with
      shared := p.shared.write w
      owed := p.owed && p.shared.sink == some channel}
  | .clear => {p with
      shared := p.shared.write w
      owed := false}
  | w => {p with shared := p.shared.write w}

def stepDrop (p : Pipeline) (channel : Nat) : Pipeline := {p with
  dropped := update p.dropped channel true
  owed := p.owed && p.shared.sink != some channel}

/- One turn of `capture_loop`. Nothing is sent as long as the picture stays the same, except
once a second and when the keyframe flag is seen. A frame the slot has no room for is dropped
and its buffer kept. -/
def stepCapture (xxh3 : Bytes → UInt64) (p : Pipeline) (input : CaptureInput) : Option Pipeline :=
  let c := p.capture
  match c.phase,input with
  | .checking,.clock now =>
      if !p.shared.clientConnected then some {p with capture := {c with
        wasConnected := false
        nextTick := now}}
      else some {p with capture := {c with
        phase := .pacing
        wasConnected := true
        lastHash := if c.wasConnected then c.lastHash else none}}
  -- Sleeping until the tick shows in the readings only.
  | .pacing,.paced late again =>
      let duration := frameDuration p.config.video.fps
      let nextTick := c.nextTick + duration
      some {p with capture := {c with
        phase := if c.source then .shooting else .locating
        nextTick := if nextTick + duration < late then again else nextTick}}
  | .locating,.located found => some {p with capture := {c with
      phase := if found then .shooting else .checking
      source := found}}
  | .shooting,.failed => some {p with capture := {c with
      phase := .checking
      source := false}}
  | .shooting,.taken image =>
      match xrgbToI420 image.data image.width image.height image.pitch c.current with
      | some frame => some {p with capture := {c with
          phase := .deciding (xxh3 (frame.y ++ frame.u ++ frame.v))
          current := frame}}
      | none => some (p.captureAt .gone)
  | .deciding hash,.clock now =>
      let keyframe := p.shared.forceKeyframe
      let unchanged := c.lastHash == some hash
      if unchanged && !keyframe && now - c.lastSent < 1000000000
      then some (p.captureAt .checking)
      else some (p.captureAt (.recycling hash keyframe))
  | .recycling hash keyframe,.clock now =>
      let fresh := p.spare.headD (.new c.current.width c.current.height)
      let captured := ⟨c.current,UInt64.ofNat ((now - p.epoch)/1000000),keyframe⟩
      some {p with
        spare := p.spare.tail
        capture := {c with
          phase := .offering hash captured
          current := fresh}}
  | .offering hash captured,.clock now =>
      if p.encode.phase = .gone then some (p.captureAt .gone)
      else match p.slot with
      | some _ => some {p with capture := {c with
          phase := .checking
          current := captured.frame}}
      | none => some {p with
          slot := some captured
          capture := {c with
            phase := .checking
            lastHash := some hash
            lastSent := now}}
  | _,_ => none

def settings (p : Pipeline) (frame : I420Frame) : EncoderSettings where
  width := UInt32.ofNat frame.width
  height := UInt32.ofNat frame.height
  fps := p.config.video.fps
  bitrateKbps := p.shared.bitrateKbps
  keyframeInterval := p.config.video.keyframeInterval
  threads := p.config.video.encoderThreads

/- The channel takes the frame, once it has room, unless its receiver is gone. -/
def send (p : Pipeline) (channel : Nat) (out : EncodedFrame) (force : Bool) : Pipeline :=
  if p.dropped channel then p else {p with
    frames := update p.frames channel (p.frames channel ++ [out])
    owed := p.owed && !(force && p.shared.sink == some channel)}

def stepEncode (p : Pipeline) (input : EncodeInput) : Option Pipeline :=
  let e := p.encode
  match e.phase,input with
  | .receiving,.proceeds => match p.slot with
      | some captured =>
          let p := {p with slot := none}
          if captured.frame.width = 0 ∨ captured.frame.height = 0 then some p
          else some (p.encodeAt (.swapping captured))
      | none => if p.capture.phase = .gone then some (p.encodeAt .gone) else none
  | .swapping captured,.proceeds =>
      let ⟨frame,ptsMs,keyframe⟩ := captured
      let force := keyframe || p.shared.forceKeyframe
      let p := {p with shared := p.shared.storeForce false}
      if e.encoder.isNone || e.encoderSize ≠ (frame.width,frame.height)
      then some (p.encodeAt (.creating frame ptsMs force))
      else some (p.encodeAt (.tuning frame ptsMs force))
  | .creating frame ptsMs _,.created true =>
      let settings := p.settings frame
      some {p with encode := ⟨.tuning frame ptsMs true,some settings,(frame.width,frame.height),
        settings.bitrateKbps⟩}
  -- The encoder of another size stays.
  | .creating frame _ _,.created false => some (p.encodeAt (.returning frame))
  | .tuning frame ptsMs force,.tuned ok =>
      let wanted := p.shared.bitrateKbps
      some {p with encode := {e with
        phase := .encoding frame ptsMs force
        currentBitrate := if wanted ≠ e.currentBitrate && ok then wanted else e.currentBitrate}}
  | .encoding frame _ force,.encoded (.output out) =>
      some (p.encodeAt (.delivering frame out force))
  | .encoding frame _ _,.encoded .skipped => some (p.encodeAt (.returning frame))
  | .encoding frame _ _,.encoded .failed => some {p with encode := {e with
      phase := .returning frame
      encoder := none}}
  | .delivering frame out force,.proceeds => match p.shared.sink with
      | some channel => some (p.encodeAt (.sending frame channel out force))
      | none => if force then some (p.encodeAt (.rearming frame))
          else some (p.encodeAt (.returning frame))
  | .sending frame channel out force,.proceeds =>
      some ((p.send channel out force).encodeAt (.returning frame))
  | .rearming frame,.proceeds => some (p.request.encodeAt (.returning frame))
  | .returning frame,.proceeds => some {p.encodeAt .receiving with
      spare := if p.spare.length < 3 then p.spare ++ [frame] else p.spare}
  | _,_ => none

def step (xxh3 : Bytes → UInt64) (p : Pipeline) : Label → Option Pipeline
  | .write w => some (p.stepWrite w)
  | .drop channel => some (p.stepDrop channel)
  | .capture input => p.stepCapture xxh3 input
  | .encode input => p.stepEncode input

end Pipeline
end Vmdesk
