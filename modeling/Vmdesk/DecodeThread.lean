/-! The decode thread of the client: which decoder it uses and when it asks for a keyframe. What
a decoder makes of an access unit, and whether a software decoder can be created, is the outside
world's choice. -/
namespace Vmdesk

/- Nanoseconds from one clock reading to a later one, none if it is not later. -/
def elapsed (last now : Int) : Nat := (now - last).toNat

/- Whether the decoder is a hardware decoder still, and the pictures it has produced. The broken
one stands for no decoder at all. -/
inductive VideoDecoder where
  | ffmpeg (hardware : Bool) (pictures : Nat)
  | broken
  deriving DecidableEq, Repr

namespace VideoDecoder

def isHardware : VideoDecoder → Bool
  | ffmpeg hardware _ => hardware
  | broken => false

def picturesDecoded : VideoDecoder → Nat
  | ffmpeg _ pictures => pictures
  | broken => 0

inductive Result where | ok | corrupt | fatal
  deriving DecidableEq, Repr

/- What one call of `decode` comes to. The stream may be rejected by the hardware on the way. -/
structure Decoded where
  result : Result
  pictures : Nat
  fellBack : Bool
  deriving DecidableEq, Repr

def decode : VideoDecoder → Decoded → Option (VideoDecoder × Result)
  | ffmpeg hardware pictures,d =>
      some (ffmpeg (hardware && !d.fellBack) (pictures + d.pictures),d.result)
  | broken,d => if d = ⟨.fatal,0,false⟩ then some (broken,.fatal) else none

/- `FfmpegDecoder::new(HwPreference::Software)` -/
def software (created : Bool) : Option VideoDecoder := if created then some (ffmpeg false 0) else none

def fallbackToSoftware (created : Bool) : VideoDecoder := (software created).getD broken

end VideoDecoder

/- Failures in a row of a hardware decoder without a picture before it is given up. -/
def hwFailureLimit : Nat := 8

inductive DecodePhase where | waiting | decoding | gone
  deriving DecidableEq, Repr

structure DecodeThread where
  phase : DecodePhase
  decoder : VideoDecoder
  hwFailures : Nat
  lastRequest : Int
  deriving DecidableEq, Repr

namespace DecodeThread

/- 200 ms -/
def requestSpacing : Nat := 200000000

def initial (decoder : Option VideoDecoder) (now : Int) : DecodeThread where
  phase := if decoder.isSome then .waiting else .gone
  decoder := decoder.getD .broken
  hwFailures := 0
  lastRequest := now - 1000000000

/- The request is sent right before the clock is read `again`. -/
def requestKeyframe (t : DecodeThread) (now again : Int) : DecodeThread × Bool :=
  if requestSpacing ≤ elapsed t.lastRequest now then ({t with lastRequest := again},true)
  else (t,false)

def decoded (t : DecodeThread) (d : VideoDecoder.Decoded) (now again : Int) (created : Bool) :
    Option (DecodeThread × Bool) := do
  let (decoder,result) ← t.decoder.decode d
  let t := {t with phase := .waiting, decoder := decoder}
  match result with
  | .ok => some ({t with hwFailures := 0},false)
  | .corrupt =>
      let (t,asked) := t.requestKeyframe now again
      if decoder.isHardware && decoder.picturesDecoded == 0 then
        if hwFailureLimit ≤ t.hwFailures + 1
        then some ({t with decoder := VideoDecoder.fallbackToSoftware created, hwFailures := 0},asked)
        else some ({t with hwFailures := t.hwFailures + 1},asked)
      else some (t,asked)
  | .fatal =>
      let (t,asked) := t.requestKeyframe now again
      if decoder.isHardware
      then some ({t with decoder := VideoDecoder.fallbackToSoftware created},asked)
      else match VideoDecoder.software created with
        | some software => some ({t with decoder := software},asked)
        | none => some ({t with phase := .gone},asked)

structure Asks (last lastAfter : Int) (result : VideoDecoder.Result) (now again : Int)
    (asked : Bool) : Prop where
  sent : asked = true → lastAfter = again ∧ result ≠ .ok
  spared : asked = false → lastAfter = last ∧ (result ≠ .ok → now < last + requestSpacing)

theorem requestAsks (t : DecodeThread) (now again : Int) {result : VideoDecoder.Result}
    (failed : result ≠ .ok) : Asks t.lastRequest (t.requestKeyframe now again).1.lastRequest
      result now again (t.requestKeyframe now again).2 := by
  unfold requestKeyframe
  split
  · exact ⟨fun _ => ⟨rfl,failed⟩,fun absurd => by contradiction⟩
  · next soon =>
    refine ⟨fun absurd => by contradiction,fun _ => ⟨rfl,fun _ => ?_⟩⟩
    simp only [elapsed] at soon
    have positive : 0 < requestSpacing := by decide
    omega

theorem requestPhase (t : DecodeThread) (now again : Int) :
    (t.requestKeyframe now again).1.phase = t.phase := by
  unfold requestKeyframe
  split <;> rfl

theorem decodeResult {decoder after : VideoDecoder} {d : VideoDecoder.Decoded} {result : VideoDecoder.Result}
    (made : decoder.decode d = some (after,result)) : result = d.result := by
  unfold VideoDecoder.decode at made
  split at made
  · cases Option.some.inj made
    rfl
  · split at made
    · next shape =>
      cases Option.some.inj made
      rw [shape]
    · contradiction

theorem decodedAsks {t u : DecodeThread} {d : VideoDecoder.Decoded} {now again : Int}
    {created asked : Bool} (done : t.decoded d now again created = some (u,asked)) :
    u.phase ≠ .decoding ∧ Asks t.lastRequest u.lastRequest d.result now again asked := by
  unfold decoded at done
  simp only [Option.bind_eq_bind,Option.bind_eq_some_iff] at done
  obtain ⟨⟨decoder,result⟩,made,done⟩ := done
  rw [← decodeResult made]
  have asks (failed : result ≠ .ok) :=
    requestAsks {t with phase := .waiting, decoder := decoder} now again failed
  have phase := requestPhase {t with phase := .waiting, decoder := decoder} now again
  simp only at done
  cases result with
  | ok =>
    cases Option.some.inj done
    exact ⟨by simp,fun absurd => by contradiction,fun _ => ⟨rfl,fun failed => absurd rfl failed⟩⟩
  | corrupt =>
    have asks := asks (by simp)
    simp only at done
    split at done
    · split at done
      all_goals
        cases Option.some.inj done
        exact ⟨by simp [phase],asks⟩
    · cases Option.some.inj done
      exact ⟨by simp [phase],asks⟩
  | fatal =>
    have asks := asks (by simp)
    simp only at done
    split at done
    · cases Option.some.inj done
      exact ⟨by simp [phase],asks⟩
    · split at done
      all_goals
        cases Option.some.inj done
        exact ⟨by simp [phase],asks⟩

end DecodeThread
end Vmdesk
