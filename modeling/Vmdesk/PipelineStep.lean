import Vmdesk.Pipeline

/-! What one step of the two threads can do, said once: each access comes to one of the cases
below. -/
namespace Vmdesk
open LittleEndian (Bytes)

namespace Pipeline

structure Unchanged (p : Pipeline) (hash : UInt64) (now : Nat) : Prop where
  same : p.capture.lastHash = some hash
  quiet : p.shared.forceKeyframe = false
  recent : now - p.capture.lastSent < 1000000000

inductive CaptureStep (xxh3 : Bytes → UInt64) (p : Pipeline) : CaptureInput → Pipeline → Prop where
  | idle (now) (at' : p.capture.phase = .checking) (gone : p.shared.clientConnected = false) :
      CaptureStep xxh3 p (.clock now) {p with capture := {p.capture with
        wasConnected := false
        nextTick := now}}
  | begin (now) (at' : p.capture.phase = .checking) (connected : p.shared.clientConnected = true) :
      CaptureStep xxh3 p (.clock now) {p with capture := {p.capture with
        phase := .pacing
        wasConnected := true
        lastHash := if p.capture.wasConnected then p.capture.lastHash else none}}
  | pace (late again phase nextTick) (at' : p.capture.phase = .pacing)
      (next : phase = .shooting ∨ phase = .locating) : CaptureStep xxh3 p (.paced late again)
        {p with capture := {p.capture with phase := phase, nextTick := nextTick}}
  | locate (found phase) (at' : p.capture.phase = .locating)
      (next : phase = .shooting ∨ phase = .checking) : CaptureStep xxh3 p (.located found)
        {p with capture := {p.capture with phase := phase, source := found}}
  | fail (at' : p.capture.phase = .shooting) : CaptureStep xxh3 p .failed
      {p with capture := {p.capture with phase := .checking, source := false}}
  | take (image frame) (at' : p.capture.phase = .shooting) (converted : xrgbToI420 image.data
        image.width image.height image.pitch p.capture.current = some frame) :
      CaptureStep xxh3 p (.taken image) {p with capture := {p.capture with
        phase := .deciding (xxh3 (frame.y ++ frame.u ++ frame.v))
        current := frame}}
  | fault (image) (at' : p.capture.phase = .shooting) (refused : xrgbToI420 image.data
        image.width image.height image.pitch p.capture.current = none) :
      CaptureStep xxh3 p (.taken image) (p.captureAt .gone)
  | skip (hash now) (at' : p.capture.phase = .deciding hash) (unchanged : p.Unchanged hash now) :
      CaptureStep xxh3 p (.clock now) (p.captureAt .checking)
  | offer (hash now) (at' : p.capture.phase = .deciding hash) (changed : ¬ p.Unchanged hash now) :
      CaptureStep xxh3 p (.clock now) (p.captureAt (.recycling hash p.shared.forceKeyframe))
  | recycle (hash keyframe now) (at' : p.capture.phase = .recycling hash keyframe) :
      CaptureStep xxh3 p (.clock now) {p with
        spare := p.spare.tail
        capture := {p.capture with
          phase := .offering hash
            ⟨p.capture.current,UInt64.ofNat ((now - p.epoch)/1000000),keyframe⟩
          current := p.spare.headD (.new p.capture.current.width p.capture.current.height)}}
  | stop (hash captured now) (at' : p.capture.phase = .offering hash captured)
      (ended : p.encode.phase = .gone) : CaptureStep xxh3 p (.clock now) (p.captureAt .gone)
  | busy (hash captured now) (at' : p.capture.phase = .offering hash captured)
      (running : p.encode.phase ≠ .gone) (full : p.slot ≠ none) : CaptureStep xxh3 p (.clock now) {p with capture := {p.capture with
        phase := .checking
        current := captured.frame}}
  | accept (hash captured now) (at' : p.capture.phase = .offering hash captured)
      (running : p.encode.phase ≠ .gone) (room : p.slot = none) : CaptureStep xxh3 p (.clock now) {p with
        slot := some captured
        capture := {p.capture with
          phase := .checking
          lastHash := some hash
          lastSent := now}}

inductive TurnStep (p : Pipeline) : EncodeInput → Pipeline → Prop where
  | discard (captured) (at' : p.encode.phase = .receiving) (slot : p.slot = some captured)
      (empty : captured.frame.width = 0 ∨ captured.frame.height = 0) :
      TurnStep p .proceeds {p with slot := none}
  | take (captured) (at' : p.encode.phase = .receiving) (slot : p.slot = some captured)
      (sized : ¬ (captured.frame.width = 0 ∨ captured.frame.height = 0)) :
      TurnStep p .proceeds ({p with slot := none}.encodeAt (.swapping captured))
  | stop (at' : p.encode.phase = .receiving) (slot : p.slot = none)
      (ended : p.capture.phase = .gone) : TurnStep p .proceeds (p.encodeAt .gone)
  | recreate (captured) (at' : p.encode.phase = .swapping captured) : TurnStep p .proceeds
      ({p with shared := p.shared.storeForce false}.encodeAt
        (.creating captured.frame captured.ptsMs (captured.keyframe || p.shared.forceKeyframe)))
  | keep (captured) (at' : p.encode.phase = .swapping captured) (present : p.encode.encoder ≠ none)
      (size : p.encode.encoderSize = (captured.frame.width,captured.frame.height)) :
      TurnStep p .proceeds ({p with shared := p.shared.storeForce false}.encodeAt
        (.tuning captured.frame captured.ptsMs (captured.keyframe || p.shared.forceKeyframe)))
  | create (frame ptsMs force) (at' : p.encode.phase = .creating frame ptsMs force) :
      TurnStep p (.created true) {p with encode := ⟨.tuning frame ptsMs true,
        some (p.settings frame),(frame.width,frame.height),(p.settings frame).bitrateKbps⟩}
  | uncreated (frame ptsMs force) (at' : p.encode.phase = .creating frame ptsMs force) :
      TurnStep p (.created false) (p.encodeAt (.returning frame))
  | tune (frame ptsMs force ok bitrate) (at' : p.encode.phase = .tuning frame ptsMs force) :
      TurnStep p (.tuned ok) {p with encode := {p.encode with
        phase := .encoding frame ptsMs force
        currentBitrate := bitrate}}
  | output (frame ptsMs force out) (at' : p.encode.phase = .encoding frame ptsMs force) :
      TurnStep p (.encoded (.output out)) (p.encodeAt (.delivering frame out force))
  | skip (frame ptsMs force) (at' : p.encode.phase = .encoding frame ptsMs force) :
      TurnStep p (.encoded .skipped) (p.encodeAt (.returning frame))
  | fail (frame ptsMs force) (at' : p.encode.phase = .encoding frame ptsMs force) :
      TurnStep p (.encoded .failed) {p with encode := {p.encode with
        phase := .returning frame
        encoder := none}}
  | deliver (frame out force channel) (at' : p.encode.phase = .delivering frame out force)
      (sink : p.shared.sink = some channel) :
      TurnStep p .proceeds (p.encodeAt (.sending frame channel out force))
  | unheard (frame out force) (at' : p.encode.phase = .delivering frame out force)
      (sink : p.shared.sink = none) (phase) (next : phase = .rearming frame ∨ phase = .returning frame) :
      TurnStep p .proceeds (p.encodeAt phase)
  | send (frame channel out force) (at' : p.encode.phase = .sending frame channel out force) :
      TurnStep p .proceeds ((p.send channel out force).encodeAt (.returning frame))
  | rearm (frame) (at' : p.encode.phase = .rearming frame) :
      TurnStep p .proceeds (p.request.encodeAt (.returning frame))
  | give (frame spare) (at' : p.encode.phase = .returning frame)
      (given : spare = p.spare ++ [frame] ∨ spare = p.spare) :
      TurnStep p .proceeds {p.encodeAt .receiving with spare := spare}

section Cases
variable {xxh3 : Bytes → UInt64} {p q : Pipeline}

theorem captureStep {input : CaptureInput} (stepped : p.stepCapture xxh3 input = some q) :
    CaptureStep xxh3 p input q := by
  unfold stepCapture at stepped
  simp only at stepped
  split at stepped
  case h_1 now at' =>
    split at stepped
    · next gone =>
      cases Option.some.inj stepped
      exact .idle now at' (by simpa using gone)
    · next connected =>
      cases Option.some.inj stepped
      exact .begin now at' (by simpa using connected)
  case h_2 late again at' =>
    cases Option.some.inj stepped
    refine .pace late again _ _ at' ?_
    cases p.capture.source <;> simp
  case h_3 found at' =>
    cases Option.some.inj stepped
    refine .locate found _ at' ?_
    cases found <;> simp
  case h_4 at' =>
    cases Option.some.inj stepped
    exact .fail at'
  case h_5 image at' =>
    split at stepped
    · next frame converted =>
      cases Option.some.inj stepped
      exact .take image frame at' converted
    · next refused =>
      cases Option.some.inj stepped
      exact .fault image at' refused
  case h_6 hash now at' =>
    have exact' : (p.capture.lastHash == some hash && !p.shared.forceKeyframe &&
        decide (now - p.capture.lastSent < 1000000000)) = true ↔ p.Unchanged hash now := by
      simp only [Bool.and_eq_true,beq_iff_eq,Bool.not_eq_true',decide_eq_true_eq]
      exact ⟨fun all => ⟨all.1.1,all.1.2,all.2⟩,fun all => ⟨⟨all.same,all.quiet⟩,all.recent⟩⟩
    split at stepped
    · next unchanged =>
      cases Option.some.inj stepped
      exact .skip hash now at' (exact'.mp (by simpa using unchanged))
    · next changed =>
      cases Option.some.inj stepped
      refine .offer hash now at' (fun unchanged => changed ?_)
      simpa using exact'.mpr unchanged
  case h_7 hash keyframe now at' =>
    cases Option.some.inj stepped
    exact .recycle hash keyframe now at'
  case h_8 hash captured now at' =>
    split at stepped
    · next ended =>
      cases Option.some.inj stepped
      exact .stop hash captured now at' ended
    · next running =>
      split at stepped
      · next other full =>
        cases Option.some.inj stepped
        exact .busy hash captured now at' running (by simp [full])
      · next room =>
        cases Option.some.inj stepped
        exact .accept hash captured now at' running room
  case h_9 => contradiction

theorem turnStep {input : EncodeInput} (stepped : p.stepEncode input = some q) :
    TurnStep p input q := by
  unfold stepEncode at stepped
  simp only at stepped
  split at stepped
  case h_1 at' =>
    split at stepped
    · next captured slot =>
      split at stepped
      · next empty =>
        cases Option.some.inj stepped
        exact .discard captured at' slot empty
      · next sized =>
        cases Option.some.inj stepped
        exact .take captured at' slot sized
    · next slot =>
      split at stepped
      · next ended =>
        cases Option.some.inj stepped
        exact .stop at' slot ended
      · contradiction
  case h_2 captured at' =>
    split at stepped
    · cases Option.some.inj stepped
      exact .recreate captured at'
    · next fits =>
      cases Option.some.inj stepped
      simp only [Bool.or_eq_true,decide_eq_true_eq,not_or,not_not] at fits
      refine .keep captured at' (fun absent => fits.1 ?_) fits.2
      rw [absent]
      rfl
  case h_3 frame ptsMs force at' =>
    cases Option.some.inj stepped
    exact .create frame ptsMs force at'
  case h_4 frame ptsMs force at' =>
    cases Option.some.inj stepped
    exact .uncreated frame ptsMs force at'
  case h_5 frame ptsMs force ok at' =>
    cases Option.some.inj stepped
    exact .tune frame ptsMs force ok _ at'
  case h_6 frame ptsMs force out at' =>
    cases Option.some.inj stepped
    exact .output frame ptsMs force out at'
  case h_7 frame ptsMs force at' =>
    cases Option.some.inj stepped
    exact .skip frame ptsMs force at'
  case h_8 frame ptsMs force at' =>
    cases Option.some.inj stepped
    exact .fail frame ptsMs force at'
  case h_9 frame out force at' =>
    split at stepped
    · next channel sink =>
      cases Option.some.inj stepped
      exact .deliver frame out force channel at' sink
    · next sink =>
      split at stepped
      · cases Option.some.inj stepped
        exact .unheard frame out force at' sink _ (Or.inl rfl)
      · cases Option.some.inj stepped
        exact .unheard frame out force at' sink _ (Or.inr rfl)
  case h_10 frame channel out force at' =>
    cases Option.some.inj stepped
    exact .send frame channel out force at'
  case h_11 frame at' =>
    cases Option.some.inj stepped
    exact .rearm frame at'
  case h_12 frame at' =>
    cases Option.some.inj stepped
    refine .give frame _ at' ?_
    split
    · exact Or.inl rfl
    · exact Or.inr rfl
  case h_13 => contradiction

theorem sendKeeps (p : Pipeline) (channel : Nat) (out : EncodedFrame) (force : Bool) :
    (p.send channel out force).capture = p.capture ∧ (p.send channel out force).encode = p.encode ∧
      (p.send channel out force).slot = p.slot ∧ (p.send channel out force).spare = p.spare ∧
      (p.send channel out force).shared = p.shared := by
  unfold send
  split <;> exact ⟨rfl,rfl,rfl,rfl,rfl⟩

theorem captureEncode {input : CaptureInput} (stepped : CaptureStep xxh3 p input q) :
    q.encode = p.encode := by
  cases stepped with
  | idle | begin | pace | locate | fail | take | fault | skip | offer | recycle | stop | busy
  | accept => rfl

theorem turnCapture {input : EncodeInput} (stepped : TurnStep p input q) : q.capture = p.capture := by
  cases stepped with
  | discard | take | stop | recreate | keep | create | uncreated | tune | output | skip | fail
  | deliver | unheard | rearm | give => rfl
  | send frame channel out force at' => exact (sendKeeps p channel out force).1

end Cases
end Pipeline
end Vmdesk
