import Vmdesk.PipelineStep
import Vmdesk.Runs

/-! Keyframe requests on their way through the pipeline: from the shared flag to the bit of a
captured frame, from there to the `force` of one turn of the encoder loop. Three exits of that
turn drop the request instead of arming the flag again. -/
namespace Vmdesk
open LittleEndian (Bytes)

namespace Pipeline
open Function

def marked (p : Pipeline) : Bool := p.slot.any (fun captured => captured.keyframe)

def forced (p : Pipeline) : Bool := match p.encode.phase with
  | .swapping captured => captured.keyframe
  | .creating _ _ force | .tuning _ _ force | .encoding _ _ force | .delivering _ _ force
  | .sending _ _ _ force => force
  | .rearming _ => true
  | .receiving | .returning _ | .gone => false

def carried (p : Pipeline) : Bool :=
  p.shared.forceKeyframe || p.marked || p.forced || p.encode.encoder.isNone

def RequestKept (p : Pipeline) : Prop := p.owed = true → p.carried = true

/- The request is nowhere but in the frame that this turn gives up: a marked frame without
pixels, a frame of a new size that no encoder can be created for while the old one stays, or a
forced frame that the encoder skips. -/
def givesUp (p : Pipeline) (l : Label) : Bool :=
  !p.shared.forceKeyframe && p.encode.encoder.isSome && match p.encode.phase,l with
    | .receiving,.encode .proceeds => p.slot.any (fun captured => captured.keyframe &&
        (captured.frame.width == 0 || captured.frame.height == 0))
    | .creating _ _ force,.encode (.created false) => force && !p.marked
    | .encoding _ _ force,.encode (.encoded .skipped) => force && !p.marked
    | _,_ => false

def Heeded (p : Pipeline) (l : Label) : Prop := ¬ (p.owed = true ∧ p.givesUp l = true)

structure Open (p : Pipeline) : Prop where
  live : p.owed = true → p.live = true
  current : ∀ frame channel out force, p.encode.phase = .sending frame channel out force →
    p.owed = true → p.shared.sink = some channel ∨ p.shared.forceKeyframe = true

section Steps
variable {p q : Pipeline}

theorem openInitial (config : Config) (epoch : Nat) : Open (initial config epoch) :=
  ⟨fun owed => absurd owed (by simp [initial]),fun _ _ _ _ at' => by simp [initial] at at'⟩

structure Leaves (p q : Pipeline) : Prop where
  encode : q.encode = p.encode
  slot : q.slot = p.slot ∨ p.slot = none
  flag : p.shared.forceKeyframe = true → q.shared.forceKeyframe = true
  owed : q.owed = true → (q.live = true ∧ q.shared.forceKeyframe = true) ∨
    p.owed = true ∧ q.shared.sink = p.shared.sink ∧ (p.live = true → q.live = true)

theorem leavesSame (shared : q.shared = p.shared) (dropped : q.dropped = p.dropped)
    (owed : q.owed = p.owed) (encode : q.encode = p.encode) (slot : q.slot = p.slot ∨ p.slot = none) :
    Leaves p q := by
  refine ⟨encode,slot,fun flag => by rw [shared]; exact flag,fun owes => Or.inr ?_⟩
  refine ⟨owed ▸ owes,by rw [shared],fun live => ?_⟩
  rw [Pipeline.live,shared,dropped]
  exact live

theorem captureLeaves {xxh3 : Bytes → UInt64} {input : CaptureInput}
    (stepped : p.stepCapture xxh3 input = some q) : Leaves p q := by
  cases captureStep stepped with
  | accept hash captured now at' running room => exact leavesSame rfl rfl rfl rfl (Or.inr room)
  | _ => exact leavesSame rfl rfl rfl rfl (Or.inl rfl)

theorem requestLeaves (open' : Open p) : Leaves p p.request := by
  refine ⟨rfl,Or.inl rfl,fun _ => rfl,fun owed => Or.inl ⟨?_,rfl⟩⟩
  rcases (Bool.or_eq_true _ _).mp owed with before|live
  · exact open'.live before
  · exact live

theorem writeLeaves (open' : Open p) (w : Shared.Write) : Leaves p (p.stepWrite w) := by
  cases w with
  | force => exact requestLeaves open'
  | clear => exact ⟨rfl,Or.inl rfl,id,fun owed => absurd owed (by simp [stepWrite])⟩
  | install channel =>
    refine ⟨rfl,Or.inl rfl,id,fun owed => Or.inr ?_⟩
    obtain ⟨before,same⟩ := (Bool.and_eq_true _ _).mp owed
    have sink : some channel = p.shared.sink := (eq_of_beq same).symm
    refine ⟨before,sink,fun live => ?_⟩
    rw [Pipeline.live,← sink] at live
    exact live
  | connected | bitrate | active =>
    exact ⟨rfl,Or.inl rfl,id,fun owed => Or.inr ⟨owed,rfl,id⟩⟩

theorem dropLeaves (p : Pipeline) (channel : Nat) : Leaves p (p.stepDrop channel) := by
  refine ⟨rfl,Or.inl rfl,id,fun owed => Or.inr ?_⟩
  obtain ⟨before,other⟩ := (Bool.and_eq_true _ _).mp owed
  refine ⟨before,rfl,fun live => ?_⟩
  unfold Pipeline.live at live ⊢
  simp only [stepDrop]
  cases sink : p.shared.sink with
  | none => simp [sink] at live
  | some installed =>
    have apart : installed ≠ channel := by simpa [sink] using other
    simpa [sink,apart] using live

theorem openLeaves (open' : Open p) (leaves : Leaves p q) : Open q := by
  apply Open.mk
  · intro owed
    rcases leaves.owed owed with asked|before
    · exact asked.1
    · exact before.2.2 (open'.live before.1)
  · intro frame channel out force sending owed
    rw [leaves.encode] at sending
    rcases leaves.owed owed with asked|before
    · exact Or.inr asked.2
    · rw [before.2.1]
      exact (open'.current frame channel out force sending before.1).imp_right leaves.flag

theorem keptLeaves (kept : RequestKept p) (leaves : Leaves p q) : RequestKept q := by
  intro owed
  rcases leaves.owed owed with asked|before
  · simp [carried,asked.2]
  · have carried := kept before.1
    simp only [Pipeline.carried,Bool.or_eq_true] at carried ⊢
    have forced : q.forced = p.forced := by rw [Pipeline.forced,leaves.encode]; rfl
    rw [forced,leaves.encode]
    rcases carried with ((flag|marked)|forced)|none
    · exact Or.inl (Or.inl (Or.inl (leaves.flag flag)))
    · refine Or.inl (Or.inl (Or.inr ?_))
      rcases leaves.slot with same|empty
      · rw [Pipeline.marked,same]
        exact marked
      · simp [Pipeline.marked,empty] at marked
    · exact Or.inl (Or.inr forced)
    · exact Or.inr none

theorem openTurn (open' : Open p) (sink : q.shared.sink = p.shared.sink)
    (dropped : q.dropped = p.dropped) (owed : q.owed = true → p.owed = true)
    (sends : ∀ frame channel out force, q.encode.phase = .sending frame channel out force →
      q.shared.sink = some channel) : Open q := by
  refine ⟨fun owes => ?_,fun frame channel out force at' _ =>
    Or.inl (sends frame channel out force at')⟩
  rw [Pipeline.live,sink,dropped]
  exact open'.live (owed owes)

theorem sendSink (p : Pipeline) (channel : Nat) (out : EncodedFrame) (force : Bool) :
    (p.send channel out force).shared = p.shared ∧ (p.send channel out force).dropped = p.dropped ∧
      ((p.send channel out force).owed = true → p.owed = true) := by
  unfold send
  split
  · exact ⟨rfl,rfl,id⟩
  · exact ⟨rfl,rfl,fun owed => ((Bool.and_eq_true _ _).mp owed).1⟩

theorem encodeOpen {input : EncodeInput} (open' : Open p) (stepped : p.stepEncode input = some q) :
    Open q := by
  cases turnStep stepped with
  | discard captured receiving => exact openTurn open' rfl rfl id (by simp [receiving])
  | deliver frame out force channel delivering sink =>
    refine openTurn open' rfl rfl id (fun _ channel _ _ at' => ?_)
    cases at'
    exact sink
  | unheard frame out force delivering sink phase next =>
    rcases next with rfl|rfl
    · exact openTurn open' rfl rfl id (by simp [encodeAt])
    · exact openTurn open' rfl rfl id (by simp [encodeAt])
  | send frame channel out force =>
    obtain ⟨shared,dropped,owed⟩ := sendSink p channel out force
    exact openTurn open' (congrArg Shared.sink shared) dropped owed (by simp [encodeAt])
  | rearm =>
    exact openTurn (openLeaves open' (requestLeaves open')) rfl rfl id (by simp [encodeAt])
  | _ => exact openTurn open' rfl rfl id (by simp [encodeAt])

theorem openStep {xxh3 : Bytes → UInt64} {l : Label} (open' : Open p)
    (stepped : p.step xxh3 l = some q) : Open q := by
  cases l with
  | write w =>
    cases Option.some.inj stepped
    exact openLeaves open' (writeLeaves open' w)
  | drop channel =>
    cases Option.some.inj stepped
    exact openLeaves open' (dropLeaves p channel)
  | capture input => exact openLeaves open' (captureLeaves stepped)
  | encode input => exact encodeOpen open' stepped

theorem heeded {l : Label} (takes : p.givesUp l = false) : Heeded p l := by
  intro lost
  rw [takes] at lost
  exact absurd lost.2 Bool.false_ne_true

theorem keptTurn (kept : RequestKept p) (owed : q.owed = p.owed)
    (carries : p.carried = true → q.carried = true) : RequestKept q :=
  fun owes => carries (kept (owed ▸ owes))

theorem sendKept (open' : Open p) (kept : RequestKept p) {frame : I420Frame} {channel : Nat}
    {out : EncodedFrame} {force : Bool}
    (sending : p.encode.phase = .sending frame channel out force) :
    RequestKept ((p.send channel out force).encodeAt (.returning frame)) := by
  intro owed
  have before : p.owed = true := (sendSink p channel out force).2.2 owed
  have carried := kept before
  -- A forced frame on its way answers the request, or the flag is up for another sink.
  have flag : force = true → p.shared.forceKeyframe = true := by
    intro forced
    rcases open'.current frame channel out force sending before with sink|flag
    · have live := open'.live before
      have taken : p.dropped channel = false := by simpa [Pipeline.live,sink] using live
      simp [encodeAt,send,taken,forced,sink] at owed
    · exact flag
  have same : ((p.send channel out force).encodeAt (.returning frame)).carried =
      (p.shared.forceKeyframe || p.marked || p.encode.encoder.isNone) := by
    unfold send
    split <;> simp [Pipeline.carried,encodeAt,Pipeline.marked,forced]
  rw [same]
  cases force with
  | true => simp [flag rfl]
  | false => simpa [Pipeline.carried,forced,sending] using carried

theorem lostExact {l : Label} (kept : RequestKept p) (owed : q.owed = p.owed) (rest only : Bool)
    (before : p.carried = (rest || only)) (after : q.carried = rest)
    (gives : p.givesUp l = (!rest && only)) : RequestKept q ↔ Heeded p l := by
  unfold RequestKept at kept ⊢
  unfold Heeded
  rw [before] at kept
  rw [after,owed,gives]
  cases rest with
  | true => simp
  | false =>
    cases only with
    | true => simp
    | false => simpa using kept

theorem lostForce {l : Label} {frame : I420Frame} (kept : RequestKept p) (force : Bool)
    (turn : p.forced = force) (gives : p.givesUp l =
      (!p.shared.forceKeyframe && p.encode.encoder.isSome && (force && !p.marked))) :
    RequestKept (p.encodeAt (.returning frame)) ↔ Heeded p l := by
  refine lostExact kept rfl (p.shared.forceKeyframe || p.marked || p.encode.encoder.isNone) force
    ?_ ?_ ?_
  · rw [← turn,carried,Bool.or_right_comm]
  · simp [carried,marked,forced,encodeAt]
  · rw [gives,← Option.not_isNone]
    cases p.shared.forceKeyframe <;> cases p.marked <;> cases p.encode.encoder.isNone <;>
      cases force <;> rfl

theorem encodeKept {input : EncodeInput} (open' : Open p) (kept : RequestKept p)
    (stepped : p.stepEncode input = some q) : RequestKept q ↔ Heeded p (.encode input) := by
  cases turnStep stepped with
  | discard captured receiving slot empty =>
    have pixels : (captured.frame.width == 0 || captured.frame.height == 0) = true := by
      simpa using empty
    refine lostExact kept rfl (p.shared.forceKeyframe || p.encode.encoder.isNone)
      captured.keyframe ?_ ?_ ?_
    · simp [carried,marked,forced,receiving,slot,Bool.or_right_comm]
    · simp [carried,marked,forced,receiving]
    · simp [givesUp,receiving,slot,pixels,Bool.and_assoc]
  | take captured receiving slot sized =>
    refine iff_of_true (keptTurn kept rfl ?_) (heeded ?_)
    · simp [carried,marked,forced,receiving,slot,encodeAt]
    · simp only [not_or] at sized
      simp [givesUp,receiving,slot,sized]
  | stop receiving slot =>
    refine iff_of_true (keptTurn kept rfl ?_) (heeded ?_)
    · simp [carried,marked,forced,receiving,slot,encodeAt]
    · simp [givesUp,receiving,slot]
  | recreate captured swapping | keep captured swapping =>
    refine iff_of_true (keptTurn kept rfl (fun carried => ?_)) (heeded (by simp [givesUp,swapping]))
    simp only [Pipeline.carried,forced,swapping,Bool.or_eq_true] at carried
    simp only [Pipeline.carried,marked,encodeAt,forced,Shared.storeForce,Bool.or_eq_true]
    tauto
  | create frame ptsMs force creating =>
    refine iff_of_true (fun _ => ?_) (heeded ?_)
    · simp [carried,forced]
    · simp [givesUp,creating]
  | uncreated frame ptsMs force creating =>
    exact lostForce kept force (by simp [forced,creating]) (by simp [givesUp,creating])
  | tune frame ptsMs force ok bitrate tuning =>
    refine iff_of_true (keptTurn kept rfl ?_) (heeded ?_)
    · simp [carried,marked,forced,tuning]
    · simp [givesUp,tuning]
  | output frame ptsMs force out encoding =>
    refine iff_of_true (keptTurn kept rfl ?_) (heeded ?_)
    · simp [carried,marked,forced,encoding,encodeAt]
    · simp [givesUp,encoding]
  | skip frame ptsMs force encoding =>
    exact lostForce kept force (by simp [forced,encoding]) (by simp [givesUp,encoding])
  | fail frame ptsMs force encoding =>
    refine iff_of_true (fun _ => ?_) (heeded ?_)
    · simp [carried]
    · simp [givesUp,encoding]
  | deliver frame out force channel delivering =>
    refine iff_of_true (keptTurn kept rfl ?_) (heeded ?_)
    · simp [carried,marked,forced,delivering,encodeAt]
    · simp [givesUp,delivering]
  | unheard frame out force delivering sink =>
    refine iff_of_true (fun owed => ?_) (heeded (by simp [givesUp,delivering]))
    -- Nobody is owed a keyframe without a sink.
    have live := open'.live owed
    simp [Pipeline.live,sink] at live
  | send frame channel out force sending =>
    exact iff_of_true (sendKept open' kept sending) (heeded (by simp [givesUp,sending]))
  | rearm frame rearming =>
    refine iff_of_true (fun _ => ?_) (heeded ?_)
    · simp [carried,request,encodeAt,Shared.storeForce]
    · simp [givesUp,rearming]
  | give frame spare returning =>
    refine iff_of_true (keptTurn kept rfl ?_) (heeded ?_)
    · simp [carried,marked,forced,returning,encodeAt]
    · simp [givesUp,returning]

theorem keptStep {xxh3 : Bytes → UInt64} {l : Label} (open' : Open p) (kept : RequestKept p)
    (stepped : p.step xxh3 l = some q) : RequestKept q ↔ Heeded p l := by
  have aside (leaves : Leaves p q) (takes : p.givesUp l = false) : RequestKept q ↔ Heeded p l :=
    iff_of_true (keptLeaves kept leaves) (heeded takes)
  have elsewhere (other : ∀ input, l ≠ .encode input) : p.givesUp l = false := by
    unfold givesUp
    split <;> simp_all
  cases l with
  | write w =>
    cases Option.some.inj stepped
    exact aside (writeLeaves open' w) (elsewhere (by simp))
  | drop channel =>
    cases Option.some.inj stepped
    exact aside (dropLeaves p channel) (elsewhere (by simp))
  | capture input => exact aside (captureLeaves stepped) (elsewhere (by simp))
  | encode input => exact encodeKept open' kept stepped

theorem requestCarried (xxh3 : Bytes → UInt64) (config : Config) (epoch : Nat) (ls : List Label)
    (reached : Runs.run (step xxh3) (initial config epoch) ls = some p) :
    Runs.Always (step xxh3) RequestKept (initial config epoch) ls ↔
      Runs.Allowed (step xxh3) Heeded (initial config epoch) ls :=
  Runs.alwaysExact Open (openInitial config epoch) (fun owed => absurd owed (by simp [initial]))
    (fun _ _ _ open' stepped => openStep open' stepped)
    (fun _ _ _ open' kept stepped => keptStep open' kept stepped) reached

end Steps

def connects : List Label :=
  [.write (.active 1),.write (.bitrate 12000),.write (.install 1),.write .force,
    .write (.connected true)]

def black (width height : Nat) : Image :=
  ⟨List.replicate (width*4*height) 0,width,height,width*4⟩

def captures (opens : Bool) (image : Image) : List Label :=
  [.capture (.clock 0),.capture (.paced 0 0)] ++
    (if opens then [.capture (.located true)] else []) ++
    [.capture (.taken image),.capture (.clock 0),.capture (.clock 0),.capture (.clock 0)]

def encodes : List Label :=
  [.encode .proceeds,.encode .proceeds,.encode (.created true),.encode (.tuned true),
    .encode (.encoded (.output ⟨[0,0,0,1,101],true,0⟩)),.encode .proceeds,.encode .proceeds,
    .encode .proceeds]

def firstFrame : List Label := connects ++ captures true (black 16 16) ++ encodes

theorem requestCarriedFirst :
    Runs.Always (step (fun _ => 0)) RequestKept (initial {} 0) firstFrame ∧
      (Runs.run (step (fun _ => 0)) (initial {} 0) firstFrame).map
        (fun p => (p.owed,(p.frames 1).length)) = some (false,1) := by
  have delivered : (Runs.run (step (fun _ => 0)) (initial {} 0) firstFrame).map
      (fun p => (p.owed,(p.frames 1).length)) = some (false,1) := by decide +kernel
  refine ⟨?_,delivered⟩
  obtain ⟨p,reached,_⟩ := Option.map_eq_some_iff.mp delivered
  refine (requestCarried _ _ _ _ reached).mpr ?_
  exact Runs.checkAllowed (fun _ => True) (fun p l => !(p.owed && p.givesUp l)) trivial
    (fun _ _ _ _ _ _ => trivial) (fun p l _ checked lost => by simp [lost.1,lost.2] at checked)
    (by decide +kernel)

/- The display has become smaller than what the encoder library takes when the client asks for
a keyframe. The encoder of the old size stays, and nothing is left of the request. -/
def smallerDisplay : List Label := firstFrame ++ [.write .force] ++ captures false (black 8 8) ++
  [.encode .proceeds,.encode .proceeds,.encode (.created false)]

theorem requestDropped : ∃ p,
    Runs.run (step (fun _ => 0)) (initial {} 0) smallerDisplay = some p ∧ ¬ RequestKept p := by
  have facts : (Runs.run (step (fun _ => 0)) (initial {} 0) smallerDisplay).map
      (fun p => (p.owed,p.carried)) = some (true,false) := by decide +kernel
  obtain ⟨p,reached,same⟩ := Option.map_eq_some_iff.mp facts
  obtain ⟨owed,nowhere⟩ := Prod.mk.inj same
  refine ⟨p,reached,fun kept => ?_⟩
  have carried := kept owed
  rw [nowhere] at carried
  exact Bool.false_ne_true carried

end Pipeline
end Vmdesk
