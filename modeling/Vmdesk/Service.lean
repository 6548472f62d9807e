import Vmdesk.AccessUnit
import Vmdesk.PipelineKeyframe
import Vmdesk.SessionFrame

/-! The server at work: the session layer and the two threads of the pipeline with their encoder,
interleaved in any way. They meet in the shared words, which each side has a copy of here; a step of
one side is followed by the other. -/
namespace Vmdesk
open LittleEndian (Bytes)

namespace Server
open Session

def askedBitrate (reader : Reader) (data : Bytes) : Option UInt32 :=
  if reader.isControl then match (ControlMessage.decode data).run with
    | some (.ok (.setBitrate kbps)) => some (clampBitrate kbps)
    | _ => none
  else none

def wrote (s : Server) : Label → Option Shared.Write
  | .call c reply => match s.calls c,reply with
      | .disconnecting _,.proceeds => some (.connected false)
      | .clearing _,.proceeds => some .clear
      | .activating deal _ _,.proceeds => some (.active deal.session)
      | _,_ => none
  | .task n _ => match (s.tasks n).phase with
      | .storingBitrate => some (.bitrate s.config.video.bitrateKbps)
      | .installingSink => some (.install n)
      | .requestingKeyframe => some .force
      | .storingConnected => some (.connected true)
      | .clearingConnected => some (.connected false)
      | .clearingSink => some .clear
      | _ => none
  | .rtcp _ packets => if packets.any isKeyframeRequest then some .force else none
  | .reader r _ => (s.readers r).bind (fun reader => match reader.phase with
      | .admitted data => (askedBitrate reader data).map .bitrate
      | .polling | .received _ | .ended => none)
  | .offer _ _ | .event _ _ | .stop _ | .merge _ | .channel _ _ => none

end Server

namespace Service

/- What a `SetOption` comes to. One that fails may have changed its option all the same. -/
inductive Outcome where
  | accepted
  | failed (changed : Bool)
  deriving DecidableEq, Repr

inductive Call where
  | setBitrate (kbps : UInt32)
  | setOption (outcome : Outcome)
  deriving DecidableEq, Repr

inductive Label where
  | session (l : Session.Label)
  | drop (channel : Nat)
  | capture (input : Pipeline.CaptureInput)
  | turn
  | create (rc : Int) (null initialized : Bool)
  | tune (outcomes : List Outcome)
  | encode (rc : Int) (info : OpenH264.FrameInfo)
  deriving DecidableEq

end Service

open Service

/- `clock` only records the last reading of the capture thread. -/
structure Service where
  server : Server
  pipeline : Pipeline
  encoder : Option OpenH264Encoder
  clock : Nat

namespace Service

def initial (config : Config) (publicIp : Option Text) (epoch : Nat) : Service where
  server := .initial config publicIp
  pipeline := .initial config epoch
  encoder := none
  clock := epoch

/- The pipeline has made a step; the session layer sees what it has left in the shared words. -/
def follow (s : Service) (p : Pipeline) : Service :=
  {s with server := s.server.setShared p.shared, pipeline := p}

def stepSession (s : Service) (l : Session.Label) : Option Service := do
  let server ← s.server.step l
  some {s with
    server := server
    pipeline := (s.server.wrote l).elim s.pipeline s.pipeline.stepWrite}

def reading : Pipeline.CaptureInput → Option Nat
  | .clock now => some now
  | .paced _ _ | .located _ | .failed | .taken _ => none

def stepCapture (xxh3 : Bytes → UInt64) (s : Service) (input : Pipeline.CaptureInput) :
    Option Service := do
  let p ← s.pipeline.stepCapture xxh3 input
  some {s.follow p with clock := (reading input).getD s.clock}

def stepTurn (s : Service) : Option Service := do
  let p ← s.pipeline.stepEncode .proceeds
  some (s.follow p)

/- If the library refuses, an encoder of another size stays where it is. -/
def stepCreate (s : Service) (rc : Int) (null initialized : Bool) : Option Service :=
  match s.pipeline.encode.phase with
  | .creating frame _ _ =>
      match OpenH264Encoder.new (s.pipeline.settings frame) rc null initialized with
      | .ok encoder => do
          let p ← s.pipeline.stepEncode (.created true)
          some {s.follow p with encoder := some encoder}
      | .error _ => do
          let p ← s.pipeline.stepEncode (.created false)
          some (s.follow p)
  | _ => none

def stepCall (e : OpenH264Encoder) : Call → Option OpenH264Encoder
  | .setBitrate kbps => e.step (.setBitrate kbps)
  | .setOption .accepted => e.step (.setOption true)
  | .setOption (.failed false) => e.step (.setOption false)
  | .setOption (.failed true) => match e.phase with
      | .setting _ ((option,bps)::_) => some {e.write option bps with phase := .idle}
      | .idle | .setting _ [] => none

/- The options that a call of `set_bitrate` writes, up to the one that the library does not accept. -/
def setBitrate (e : OpenH264Encoder) (kbps : UInt32) (outcomes : List Outcome) :
    Option OpenH264Encoder := do
  let e ← Runs.run stepCall e (.setBitrate kbps :: outcomes.map .setOption)
  if e.phase = .idle then some e else none

def tuned (s : Service) (e : OpenH264Encoder) (outcomes : List Outcome) : Option OpenH264Encoder :=
  if s.pipeline.shared.bitrateKbps = s.pipeline.encode.currentBitrate then some e
  else setBitrate e s.pipeline.shared.bitrateKbps outcomes

def stepTune (s : Service) (outcomes : List Outcome) : Option Service :=
  match s.pipeline.encode.phase with
  | .tuning _ _ _ => do
      let e ← s.encoder
      let e ← s.tuned e outcomes
      let p ← s.pipeline.stepEncode (.tuned (outcomes.all (· == .accepted)))
      some {s.follow p with encoder := some e}
  | _ => none

def stepEncode (s : Service) (rc : Int) (info : OpenH264.FrameInfo) : Option Service :=
  match s.pipeline.encode.phase with
  | .encoding frame ptsMs _ => do
      let e ← s.encoder
      let result := OpenH264Encoder.encode e.settings frame ptsMs rc info
      let p ← s.pipeline.stepEncode (.encoded (OpenH264Encoder.encoded result))
      some {s.follow p with encoder := if result.isOk then some e else none}
  | _ => none

def step (xxh3 : Bytes → UInt64) (s : Service) : Label → Option Service
  | .session l => s.stepSession l
  | .drop channel => some {s with pipeline := s.pipeline.stepDrop channel}
  | .capture input => s.stepCapture xxh3 input
  | .turn => s.stepTurn
  | .create rc null initialized => s.stepCreate rc null initialized
  | .tune outcomes => s.stepTune outcomes
  | .encode rc info => s.stepEncode rc info

inductive Step (xxh3 : Bytes → UInt64) (s : Service) : Label → Service → Prop where
  | session (l server) (stepped : s.server.step l = some server) :
      Step xxh3 s (.session l) {s with
        server := server
        pipeline := (s.server.wrote l).elim s.pipeline s.pipeline.stepWrite}
  | drop (channel) : Step xxh3 s (.drop channel) {s with pipeline := s.pipeline.stepDrop channel}
  | capture (input p) (stepped : Pipeline.CaptureStep xxh3 s.pipeline input p) :
      Step xxh3 s (.capture input) {s.follow p with clock := (reading input).getD s.clock}
  | turn (p) (stepped : Pipeline.TurnStep s.pipeline .proceeds p) : Step xxh3 s .turn (s.follow p)
  | create (rc null initialized frame ptsMs force)
      (at' : s.pipeline.encode.phase = .creating frame ptsMs force) :
      Step xxh3 s (.create rc null initialized) {s.follow {s.pipeline with
          encode := ⟨.tuning frame ptsMs true,some (s.pipeline.settings frame),
            (frame.width,frame.height),(s.pipeline.settings frame).bitrateKbps⟩} with
        encoder := some (OpenH264Encoder.initialise (s.pipeline.settings frame))}
  | uncreated (rc null initialized frame ptsMs force)
      (at' : s.pipeline.encode.phase = .creating frame ptsMs force) :
      Step xxh3 s (.create rc null initialized)
        (s.follow (s.pipeline.encodeAt (.returning frame)))
  | tune (outcomes e e' p) (present : s.encoder = some e)
      (stepped : Pipeline.TurnStep s.pipeline (.tuned (outcomes.all (· == .accepted))) p)
      (called : e' = e ∨ setBitrate e s.pipeline.shared.bitrateKbps outcomes = some e') :
      Step xxh3 s (.tune outcomes) {s.follow p with encoder := some e'}
  | encode (rc info e frame ptsMs force p) (present : s.encoder = some e)
      (at' : s.pipeline.encode.phase = .encoding frame ptsMs force)
      (stepped : Pipeline.TurnStep s.pipeline (.encoded (OpenH264Encoder.encoded
        (OpenH264Encoder.encode e.settings frame ptsMs rc info))) p) :
      Step xxh3 s (.encode rc info) {s.follow p with
        encoder := if (OpenH264Encoder.encode e.settings frame ptsMs rc info).isOk then some e else none}

section Cases
variable {xxh3 : Bytes → UInt64} {s t : Service} {l : Label}

theorem newInitialises {settings : Pipeline.EncoderSettings} {rc : Int} {null initialized : Bool}
    {e : OpenH264Encoder} (created : OpenH264Encoder.new settings rc null initialized = .ok e) :
    e = OpenH264Encoder.initialise settings := by
  simp only [OpenH264Encoder.new,Config.ensure,bind,Except.bind] at created
  split at created <;> try contradiction
  split at created <;> try contradiction
  split at created <;> try contradiction
  split at created <;> try contradiction
  exact (Except.ok.inj created).symm

theorem createStep {rc : Int} {null initialized : Bool}
    (stepped : s.stepCreate rc null initialized = some t) :
    Step xxh3 s (.create rc null initialized) t := by
  unfold stepCreate at stepped
  split at stepped
  · next frame ptsMs force at' =>
    split at stepped
    · next e created =>
      obtain ⟨p,moved,same⟩ := Option.bind_eq_some_iff.mp stepped
      simp only [Pipeline.stepEncode,at',Option.some.injEq] at moved
      cases Option.some.inj same
      rw [newInitialises created,← moved]
      exact .create rc null initialized frame ptsMs force at'
    · obtain ⟨p,moved,same⟩ := Option.bind_eq_some_iff.mp stepped
      simp only [Pipeline.stepEncode,at',Option.some.injEq] at moved
      cases Option.some.inj same
      rw [← moved]
      exact .uncreated rc null initialized frame ptsMs force at'
  · contradiction

theorem tuneStep {outcomes : List Outcome} (stepped : s.stepTune outcomes = some t) :
    Step xxh3 s (.tune outcomes) t := by
  unfold stepTune at stepped
  split at stepped
  · simp only [Option.bind_eq_bind,Option.bind_eq_some_iff] at stepped
    obtain ⟨e,present,e',called,p,moved,same⟩ := stepped
    cases Option.some.inj same
    refine .tune outcomes e e' p present (Pipeline.turnStep moved) ?_
    unfold tuned at called
    split at called
    · exact Or.inl (Option.some.inj called).symm
    · exact Or.inr called
  · contradiction

theorem encodeStep {rc : Int} {info : OpenH264.FrameInfo} (stepped : s.stepEncode rc info = some t) :
    Step xxh3 s (.encode rc info) t := by
  unfold stepEncode at stepped
  split at stepped
  · next frame ptsMs force at' =>
    simp only [Option.bind_eq_bind,Option.bind_eq_some_iff] at stepped
    obtain ⟨e,present,p,moved,same⟩ := stepped
    cases Option.some.inj same
    exact .encode rc info e frame ptsMs force p present at' (Pipeline.turnStep moved)
  · contradiction

theorem stepCases (stepped : s.step xxh3 l = some t) : Step xxh3 s l t := by
  cases l with
  | session l =>
    obtain ⟨server,moved,same⟩ := Option.bind_eq_some_iff.mp stepped
    cases Option.some.inj same
    exact .session l server moved
  | drop channel =>
    cases Option.some.inj stepped
    exact .drop channel
  | capture input =>
    obtain ⟨p,moved,same⟩ := Option.bind_eq_some_iff.mp stepped
    cases Option.some.inj same
    exact .capture input p (Pipeline.captureStep moved)
  | turn =>
    obtain ⟨p,moved,same⟩ := Option.bind_eq_some_iff.mp stepped
    cases Option.some.inj same
    exact .turn p (Pipeline.turnStep moved)
  | create rc null initialized => exact createStep stepped
  | tune outcomes => exact tuneStep stepped
  | encode rc info => exact encodeStep stepped

end Cases
end Service
end Vmdesk
