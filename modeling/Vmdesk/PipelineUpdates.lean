import Vmdesk.PipelineKeyframe
import Vmdesk.PipelineStep

/-! Which pictures the capture thread leaves out. It compares the hash of a picture with that of
the last frame the slot has taken, and forgets it when a client appears. -/
namespace Vmdesk
open LittleEndian (Bytes)

namespace Pipeline

def planes (frame : I420Frame) : Bytes := frame.y ++ frame.u ++ frame.v

/- The pipeline and, beside it, the last frame that the slot has taken since the capture thread
last saw a client appear, with the time. -/
structure Watched where
  pipeline : Pipeline
  accepted : Option (I420Frame × Nat)

/- A step of the capture thread from `p` to `q`: the slot has taken what is in it after the step
and was not before. -/
def observe (p : Pipeline) (l : Label) (q : Pipeline) (accepted : Option (I420Frame × Nat)) :
    Option (I420Frame × Nat) := match l with
  | .capture (.clock now) =>
      if q.slot ≠ p.slot then q.slot.map (fun captured => (captured.frame,now))
      else if p.capture.phase = .checking && p.shared.clientConnected && !p.capture.wasConnected
      then none else accepted
  | _ => accepted

def stepWatched (xxh3 : Bytes → UInt64) (w : Watched) (l : Label) : Option Watched :=
  (w.pipeline.step xxh3 l).map (fun p => ⟨p,observe w.pipeline l p w.accepted⟩)

def elsewhere : Label → Bool
  | .capture _ => false
  | _ => true

/- The capture thread offers this picture: its next two steps put it into the slot, whatever the
others do in between, if at the second one the slot has room and the encoder thread runs. -/
def Offers (xxh3 : Bytes → UInt64) (p : Pipeline) (frame : I420Frame) : Prop :=
  ∀ before q, before.all elsewhere = true → Runs.run (step xxh3) p before = some q →
    ∀ now, ∃ r captured, q.step xxh3 (.capture (.clock now)) = some r ∧ captured.frame = frame ∧
      ∀ between s, between.all elsewhere = true → Runs.run (step xxh3) r between = some s →
        s.slot = none → s.encode.phase ≠ .gone → ∀ later, ∃ t,
          s.step xxh3 (.capture (.clock later)) = some t ∧ t.slot = some captured

def picture (c : CaptureLoop) : Option (UInt64 × I420Frame) := match c.phase with
  | .deciding hash | .recycling hash _ => some (hash,c.current)
  | .offering hash captured => some (hash,captured.frame)
  | _ => none

structure Informed (xxh3 : Bytes → UInt64) (w : Watched) : Prop where
  hash : ∀ hash frame, picture w.pipeline.capture = some (hash,frame) → xxh3 (planes frame) = hash
  last : ∀ hash, w.pipeline.capture.lastHash = some hash → ∃ frame time,
    w.accepted = some (frame,time) ∧ xxh3 (planes frame) = hash ∧
    w.pipeline.capture.lastSent = time

section Steps
variable {xxh3 : Bytes → UInt64} {p q : Pipeline} {v w : Watched}

theorem captureElsewhere {l : Label} (side : elsewhere l = true)
    (stepped : p.step xxh3 l = some q) : q.capture = p.capture := by
  cases l with
  | capture input => cases side
  | encode input => exact turnCapture (turnStep stepped)
  | drop channel =>
    cases Option.some.inj stepped
    rfl
  | write w =>
    cases Option.some.inj stepped
    cases w <;> rfl

theorem captureElsewhereRun {ls : List Label} (side : ls.all elsewhere = true)
    (reached : Runs.run (step xxh3) p ls = some q) : q.capture = p.capture :=
  Runs.runInvariant (fun q => q.capture = p.capture) rfl
    (fun _ _ _ same permitted stepped => (captureElsewhere permitted stepped).trans same)
    (Runs.allowedOf fun l member _ => List.all_eq_true.mp side l member) reached

theorem recyclingOffers {hash : UInt64} {keyframe : Bool}
    (at' : p.capture.phase = .recycling hash keyframe) : Offers xxh3 p p.capture.current := by
  intro before q side run now
  have same := captureElsewhereRun side run
  let captured : Captured := ⟨p.capture.current,UInt64.ofNat ((now - q.epoch)/1000000),keyframe⟩
  have stamped : q.step xxh3 (.capture (.clock now)) = some {q with
      spare := q.spare.tail
      capture := {p.capture with
        phase := .offering hash captured
        current := q.spare.headD (.new p.capture.current.width p.capture.current.height)}} := by
    simp only [step,stepCapture,same,at',captured]
  refine ⟨_,captured,stamped,rfl,fun between s side run room running later => ?_⟩
  have held := congrArg CaptureLoop.phase (captureElsewhereRun side run)
  exact ⟨{s with
    slot := some captured
    capture := {s.capture with
      phase := .checking
      lastHash := some hash
      lastSent := later}},by simp [step,stepCapture,held,room,running],rfl⟩

theorem fullKeeps {now : Nat} (full : p.slot ≠ none)
    (stepped : p.step xxh3 (.capture (.clock now)) = some q) : q.slot = p.slot := by
  cases captureStep stepped with
  | accept own held now here running room => exact absurd room full
  | _ => rfl

theorem informedIdle {capture : CaptureLoop} (informed : Informed xxh3 v)
    (same : w.pipeline.capture = capture) (none : picture capture = none)
    (hash : capture.lastHash = v.pipeline.capture.lastHash)
    (sent : capture.lastSent = v.pipeline.capture.lastSent) (accepted : w.accepted = v.accepted) :
    Informed xxh3 w := by
  refine ⟨fun h f shown => ?_,fun h known => ?_⟩
  · simp [same,none] at shown
  · rw [same,hash] at known
    rw [same,sent,accepted]
    exact informed.last h known

theorem informedSame {capture : CaptureLoop} (informed : Informed xxh3 v)
    (same : w.pipeline.capture = capture)
    (kept : ∀ shown, picture capture = some shown → picture v.pipeline.capture = some shown)
    (hash : capture.lastHash = v.pipeline.capture.lastHash)
    (sent : capture.lastSent = v.pipeline.capture.lastSent) (accepted : w.accepted = v.accepted) :
    Informed xxh3 w := by
  refine ⟨fun h f shown => ?_,fun h known => ?_⟩
  · rw [same] at shown
    exact informed.hash h f (kept _ shown)
  · rw [same,hash] at known
    rw [same,sent,accepted]
    exact informed.last h known

theorem captureInformed {input : CaptureInput} (informed : Informed xxh3 v)
    (stepped : CaptureStep xxh3 v.pipeline input p) :
    Informed xxh3 ⟨p,observe v.pipeline (.capture input) p v.accepted⟩ := by
  have idle {capture : CaptureLoop} (same : p.capture = capture) (none : picture capture = none)
      (hash : capture.lastHash = v.pipeline.capture.lastHash)
      (sent : capture.lastSent = v.pipeline.capture.lastSent)
      (accepted : observe v.pipeline (.capture input) p v.accepted = v.accepted) :
      Informed xxh3 ⟨p,observe v.pipeline (.capture input) p v.accepted⟩ :=
    informedIdle informed same none hash sent accepted
  cases stepped with
  | idle now at' gone =>
    exact idle rfl (by simp [picture,at']) rfl rfl (by simp [observe,at',gone])
  | begin now at' connected =>
    by_cases was : v.pipeline.capture.wasConnected = true
    · exact idle rfl rfl (by simp [was]) rfl (by simp [observe,at',was])
    · refine ⟨fun h f shown => by simp [picture] at shown,fun h known => ?_⟩
      simp [was] at known
  | pace late again phase nextTick at' next | locate found phase at' next =>
    refine idle rfl ?_ rfl rfl (by simp [observe])
    rcases next with same|same <;> rw [same] <;> rfl
  | fail at' => exact idle rfl rfl rfl rfl (by simp [observe])
  | fault image at' => exact idle rfl rfl rfl rfl (by simp [observe])
  | take image frame at' converted =>
    refine ⟨fun h f shown => ?_,fun h known => ?_⟩
    · cases Option.some.inj shown
      rfl
    · exact informed.last h known
  | skip hash now at' => exact idle rfl rfl rfl rfl (by simp [observe,at',captureAt])
  | stop hash captured now at' ended =>
    exact idle rfl rfl rfl rfl (by simp [observe,at',captureAt])
  | busy hash captured now at' running full =>
    exact idle rfl rfl rfl rfl (by simp [observe,at'])
  | offer hash now at' =>
    refine informedSame informed rfl (fun shown same => ?_) rfl rfl (by simp [observe,at',captureAt])
    simpa [picture,at',captureAt] using same
  | recycle hash keyframe now at' =>
    refine informedSame informed rfl (fun shown same => ?_) rfl rfl (by simp [observe,at'])
    simpa [picture,at'] using same
  | accept hash captured now at' running room =>
    refine ⟨fun h f shown => by simp [picture] at shown,fun h known => ?_⟩
    cases known
    refine ⟨captured.frame,now,?_,informed.hash hash captured.frame (by simp [picture,at']),rfl⟩
    simp [observe,room]

theorem informedStep {l : Label} (informed : Informed xxh3 v)
    (stepped : stepWatched xxh3 v l = some w) : Informed xxh3 w := by
  obtain ⟨p,moved,same⟩ := Option.map_eq_some_iff.mp stepped
  subst same
  have aside (same : p.capture = v.pipeline.capture)
      (accepted : observe v.pipeline l p v.accepted = v.accepted) :
      Informed xxh3 ⟨p,observe v.pipeline l p v.accepted⟩ :=
    informedSame informed same (fun _ shown => shown) rfl rfl accepted
  cases l with
  | capture input => exact captureInformed informed (captureStep moved)
  | encode input => exact aside (turnCapture (turnStep moved)) rfl
  | drop channel =>
    cases Option.some.inj moved
    exact aside rfl rfl
  | write w =>
    cases Option.some.inj moved
    cases w <;> exact aside rfl rfl

theorem informedInitial (config : Config) (epoch : Nat) :
    Informed xxh3 ⟨initial config epoch,none⟩ :=
  ⟨fun h f shown => by simp [picture,initial] at shown,fun h known => by simp [initial] at known⟩

structure Unaware (hash : UInt64) (p : Pipeline) : Prop where
  last : p.capture.lastHash ≠ some hash
  recycling : ∀ keyframe, p.capture.phase ≠ .recycling hash keyframe
  offering : ∀ captured, p.capture.phase ≠ .offering hash captured

theorem captureUnaware {hash : UInt64} {input : CaptureInput} (unaware : Unaware hash p)
    (other : p.capture.phase ≠ .deciding hash) (stepped : CaptureStep xxh3 p input q) :
    Unaware hash q := by
  have leaves (last : q.capture.lastHash = p.capture.lastHash)
      (recycling : ∀ keyframe, q.capture.phase ≠ .recycling hash keyframe)
      (offering : ∀ captured, q.capture.phase ≠ .offering hash captured) : Unaware hash q :=
    ⟨last ▸ unaware.last,recycling,offering⟩
  cases stepped with
  | idle now at' => exact leaves rfl (by simp [at']) (by simp [at'])
  | begin now at' connected =>
    by_cases was : p.capture.wasConnected = true
    · exact leaves (by simp [was]) (by simp) (by simp)
    · exact ⟨by simp [was],by simp,by simp⟩
  | pace late again phase nextTick at' next | locate found phase at' next =>
    rcases next with same|same <;> exact leaves rfl (by simp [same]) (by simp [same])
  | fail | fault | take | skip | stop | busy =>
    exact leaves rfl (by simp [captureAt]) (by simp [captureAt])
  | offer own now at' =>
    have apart : own ≠ hash := fun same => other (same ▸ at')
    exact leaves rfl (by simp [captureAt,apart]) (by simp [captureAt])
  | recycle own keyframe now at' =>
    have apart : own ≠ hash := fun same => unaware.recycling keyframe (same ▸ at')
    exact leaves rfl (by simp) (by simp [apart])
  | accept own captured now at' =>
    have apart : own ≠ hash := fun same => unaware.offering captured (same ▸ at')
    exact ⟨by simp [apart],by simp,by simp⟩

theorem unawareElsewhere {hash : UInt64} {l : Label} (unaware : Unaware hash p)
    (side : elsewhere l = true) (stepped : p.step xxh3 l = some q) : Unaware hash q := by
  have same := captureElsewhere side stepped
  exact ⟨same ▸ unaware.last,same ▸ unaware.recycling,same ▸ unaware.offering⟩

theorem unawareStep {hash : UInt64} {l : Label} (unaware : Unaware hash p)
    (other : p.capture.phase = .deciding hash → elsewhere l = true)
    (stepped : p.step xxh3 l = some q) : Unaware hash q := by
  by_cases side : elsewhere l = true
  · exact unawareElsewhere unaware side stepped
  · cases l with
    | capture input => exact captureUnaware unaware (fun at' => side (other at')) (captureStep stepped)
    | encode input | drop channel | write w => exact absurd rfl side

theorem decides {hash : UInt64} {now : Nat} (at' : p.capture.phase = .deciding hash)
    (stepped : p.step xxh3 (.capture (.clock now)) = some q) :
    Offers xxh3 q p.capture.current ∨ p.Unchanged hash now := by
  cases captureStep stepped with
  | offer own now here => exact Or.inl (recyclingOffers rfl)
  | skip own now here unchanged =>
    cases at'.symm.trans here
    exact Or.inr unchanged
  | idle now here | begin now here | recycle own keyframe now here | stop own captured now here
  | busy own captured now here | accept own captured now here =>
    rw [at'] at here
    contradiction

theorem offers {hash : UInt64} (unaware : Unaware hash p) (at' : p.capture.phase = .deciding hash)
    (now : Nat) : ∃ q, p.step xxh3 (.capture (.clock now)) = some q ∧
      Offers xxh3 q p.capture.current := by
  have other : (p.capture.lastHash == some hash) = false := by simpa using unaware.last
  exact ⟨p.captureAt (.recycling hash p.shared.forceKeyframe),
    by simp [step,stepCapture,at',other],recyclingOffers rfl⟩

end Steps

def captureAgain : List Label := connects ++ captures true (black 16 16) ++
  [.capture (.clock 0),.capture (.paced 0 0),.capture (.taken (black 16 16))]

end Pipeline
end Vmdesk
