import Vmdesk.ConvertPixels
import Vmdesk.OpenH264
import Vmdesk.PipelineKeyframe
import Vmdesk.PipelineStep

/-! What reaches the encoder. Frames circulate through two channels and change their size on the
way, and the encoder is replaced, or not, when they do. -/
namespace Vmdesk
open LittleEndian (Bytes)

namespace Pipeline

/- What the kernel guarantees about a scanout buffer. Sizes are `u32`. -/
structure Image.Sound (image : Image) : Prop where
  width : image.width < 4294967296
  height : image.height < 4294967296
  pitch : 4*image.width ≤ image.pitch
  size : image.data.length = image.pitch*image.height

def Shows (l : Label) : Prop := ∀ image, l = .capture (.taken image) → image.Sound

def Small (frame : I420Frame) : Prop := frame.width < 4294967296 ∧ frame.height < 4294967296

theorem evenDownLeast (n : Nat) : evenDown n ≤ n := Nat.sub_le _ _

theorem newSmall {width height : Nat} (wide : width < 4294967296) (high : height < 4294967296) :
    Small (.new width height) :=
  ⟨(evenDownLeast width).trans_lt wide,(evenDownLeast height).trans_lt high⟩

theorem convertedSize {src : Bytes} {width height pitch : Nat} {dst frame : I420Frame}
    (converted : xrgbToI420 src width height pitch dst = some frame) :
    frame.width ≤ width ∧ frame.height ≤ height := by
  have asserted : I420.Asserted src width height pitch := by
    by_contra fails
    rw [(I420.panicsExact src width height pitch dst).mpr fails] at converted
    contradiction
  obtain ⟨f,result,size,_⟩ := I420.convertsPixelwise dst asserted
  cases Option.some.inj (converted.symm.trans result)
  unfold I420.cropped at size
  split at size
  · obtain ⟨wide,high⟩ := Prod.mk.inj size
    omega
  · obtain ⟨wide,high⟩ := Prod.mk.inj size
    rw [wide,high]
    exact ⟨evenDownLeast width,evenDownLeast height⟩

theorem soundConverts {image : Image} (sound : image.Sound) (dst : I420Frame) :
    ∃ frame, xrgbToI420 image.data image.width image.height image.pitch dst = some frame := by
  obtain ⟨width,height,pitch,size⟩ := sound
  have wide := evenDownLeast image.width
  have high := evenDownLeast image.height
  have asserted : I420.Asserted image.data image.width image.height image.pitch := by
    refine ⟨by omega,fun _ rows => ?_⟩
    calc
      _ ≤ (evenDown image.height - 1)*image.pitch + image.pitch := by omega
      _ = (evenDown image.height - 1 + 1)*image.pitch := (Nat.succ_mul _ _).symm
      _ ≤ image.height*image.pitch := Nat.mul_le_mul_right _ (by omega)
      _ = image.data.length := by rw [size,Nat.mul_comm]
  obtain ⟨frame,converted,_⟩ := I420.convertsPixelwise dst asserted
  exact ⟨frame,converted⟩

def CapturePhase.frame : CapturePhase → Option I420Frame
  | .offering _ captured => some captured.frame
  | _ => none

def EncodePhase.frame : EncodePhase → Option I420Frame
  | .swapping captured => some captured.frame
  | .creating frame _ _ | .tuning frame _ _ | .encoding frame _ _ | .delivering frame _ _
  | .sending frame _ _ _ | .rearming frame | .returning frame => some frame
  | .receiving | .gone => none

inductive Circulates (p : Pipeline) (frame : I420Frame) : Prop where
  | current (same : frame = p.capture.current)
  | offered (held : p.capture.phase.frame = some frame)
  | waiting (captured) (slot : p.slot = some captured) (same : frame = captured.frame)
  | spare (inside : frame ∈ p.spare)
  | encoding (held : p.encode.phase.frame = some frame)

structure Fitted (p : Pipeline) : Prop where
  running : p.capture.phase ≠ .gone ∧ p.encode.phase ≠ .gone
  small : ∀ frame, p.Circulates frame → Small frame
  size : ∀ settings, p.encode.encoder = some settings →
    p.encode.encoderSize = (settings.width.toNat,settings.height.toNat)
  ready : ∀ frame ptsMs force, p.encode.phase = .tuning frame ptsMs force ∨
    p.encode.phase = .encoding frame ptsMs force →
    p.encode.encoder ≠ none ∧ p.encode.encoderSize = (frame.width,frame.height)

section Steps
variable {xxh3 : Bytes → UInt64} {p q : Pipeline}

theorem fittedInitial (config : Config) (epoch : Nat) : Fitted (initial config epoch) where
  running := by simp [initial]
  small := by
    intro frame inside
    cases inside with
    | current same =>
      rw [same]
      exact newSmall (by omega) (by omega)
    | offered held | encoding held => contradiction
    | waiting captured slot => contradiction
    | spare inside => exact absurd inside List.not_mem_nil
  size := fun settings created => by simp [initial] at created
  ready := fun frame ptsMs force at' => by simp [initial] at at'

theorem circulatesKept {frame : I420Frame} (inside : q.Circulates frame)
    (current : q.capture.current = p.capture.current) (offered : q.capture.phase.frame = none)
    (slot : q.slot = p.slot) (spare : q.spare = p.spare) (encode : q.encode = p.encode) :
    p.Circulates frame := by
  cases inside with
  | current same => exact .current (same.trans current)
  | offered held => simp [offered] at held
  | waiting captured waits same => exact .waiting captured (slot ▸ waits) same
  | spare inside => exact .spare (spare ▸ inside)
  | encoding held => exact .encoding (encode ▸ held)

theorem captureCirculates {input : CaptureInput} (stepped : CaptureStep xxh3 p input q)
    {frame : I420Frame} (inside : q.Circulates frame) : p.Circulates frame ∨
      (∃ image, input = .taken image ∧ xrgbToI420 image.data image.width image.height image.pitch
        p.capture.current = some frame) ∨
      frame = .new p.capture.current.width p.capture.current.height := by
  cases stepped with
  | idle now at' => exact Or.inl (circulatesKept inside rfl (by simp [at',CapturePhase.frame]) rfl rfl rfl)
  | pace late again phase nextTick at' next =>
    refine Or.inl (circulatesKept inside rfl ?_ rfl rfl rfl)
    rcases next with same|same <;> rw [same] <;> rfl
  | locate found phase at' next =>
    refine Or.inl (circulatesKept inside rfl ?_ rfl rfl rfl)
    rcases next with same|same <;> rw [same] <;> rfl
  | begin | fail | fault | skip | offer | stop =>
    exact Or.inl (circulatesKept inside rfl rfl rfl rfl rfl)
  | take image fresh at' converted =>
    cases inside with
    | current same =>
      rw [same]
      exact Or.inr (Or.inl ⟨image,rfl,converted⟩)
    | offered held => contradiction
    | waiting captured waits same => exact Or.inl (.waiting captured waits same)
    | spare inside => exact Or.inl (.spare inside)
    | encoding held => exact Or.inl (.encoding held)
  | recycle hash keyframe now at' =>
    cases inside with
    | current same =>
      cases spare : p.spare with
      | nil => exact Or.inr (Or.inr (by simpa [spare] using same))
      | cons first rest =>
        refine Or.inl (.spare ?_)
        simp only [spare,List.headD_cons] at same
        simp [spare,same]
    | offered held => exact Or.inl (.current (Option.some.inj held).symm)
    | waiting captured waits same => exact Or.inl (.waiting captured waits same)
    | spare inside => exact Or.inl (.spare (List.mem_of_mem_tail inside))
    | encoding held => exact Or.inl (.encoding held)
  | busy hash captured now at' =>
    cases inside with
    | current same => exact Or.inl (.offered (by rw [at',same]; rfl))
    | offered held => contradiction
    | waiting captured waits same => exact Or.inl (.waiting captured waits same)
    | spare inside => exact Or.inl (.spare inside)
    | encoding held => exact Or.inl (.encoding held)
  | accept hash captured now at' =>
    cases inside with
    | current same => exact Or.inl (.current same)
    | offered held => contradiction
    | waiting other waits same =>
      cases waits
      exact Or.inl (.offered (by rw [at',same]; rfl))
    | spare inside => exact Or.inl (.spare inside)
    | encoding held => exact Or.inl (.encoding held)

theorem captureFitted {input : CaptureInput} (shown : Shows (.capture input)) (fitted : Fitted p)
    (stepped : CaptureStep xxh3 p input q) : Fitted q := by
  have encode := captureEncode stepped
  refine ⟨⟨?_,encode ▸ fitted.running.2⟩,fun frame inside => ?_,?_,?_⟩
  · cases stepped with
    | fault image at' refused =>
      obtain ⟨frame,converted⟩ := soundConverts (shown image rfl) p.capture.current
      simp [refused] at converted
    | stop hash captured now at' ended => exact absurd ended fitted.running.2
    | pace late again phase nextTick at' next | locate found phase at' next =>
      rcases next with same|same <;> simp [same]
    | idle now at' => simp [at']
    | begin | fail | take | skip | offer | recycle | busy | accept => simp [captureAt]
  · rcases captureCirculates stepped inside with before|⟨image,same,converted⟩|fresh
    · exact fitted.small frame before
    · obtain ⟨wide,high⟩ := convertedSize converted
      have sound := shown image (by rw [same])
      exact ⟨wide.trans_lt sound.width,high.trans_lt sound.height⟩
    · obtain ⟨wide,high⟩ := fitted.small _ (.current rfl)
      rw [fresh]
      exact newSmall wide high
  · rw [encode]
    exact fitted.size
  · rw [encode]
    exact fitted.ready

theorem turnKept {frame : I420Frame} (inside : q.Circulates frame) (capture : q.capture = p.capture)
    (slot : q.slot = p.slot ∨ q.slot = none) (spare : q.spare = p.spare)
    (held : q.encode.phase.frame = p.encode.phase.frame ∨ q.encode.phase.frame = none) :
    p.Circulates frame := by
  cases inside with
  | current same => exact .current (capture ▸ same)
  | offered offers => exact .offered (capture ▸ offers)
  | waiting captured waits same =>
    rcases slot with kept|empty
    · exact .waiting captured (kept ▸ waits) same
    · simp [empty] at waits
  | spare inside => exact .spare (spare ▸ inside)
  | encoding encodes =>
    rcases held with kept|none
    · exact .encoding (kept ▸ encodes)
    · simp [none] at encodes

theorem turnCirculates {input : EncodeInput} (stepped : TurnStep p input q) {frame : I420Frame}
    (inside : q.Circulates frame) : p.Circulates frame := by
  cases stepped with
  | discard captured at' => exact turnKept inside rfl (Or.inr rfl) rfl (Or.inl rfl)
  | take captured at' slot =>
    cases inside with
    | current same => exact .current same
    | offered offers => exact .offered offers
    | waiting other waits => contradiction
    | spare inside => exact .spare inside
    | encoding encodes => exact .waiting captured slot (Option.some.inj encodes).symm
  | stop => exact turnKept inside rfl (Or.inl rfl) rfl (Or.inr rfl)
  | recreate captured at' | keep captured at' =>
    exact turnKept inside rfl (Or.inl rfl) rfl (Or.inl (by rw [at']; rfl))
  | create current ptsMs force at' | uncreated current ptsMs force at' | skip current ptsMs force at'
  | fail current ptsMs force at' | tune current ptsMs force ok bitrate at'
  | output current ptsMs force out at' | deliver current out force channel at' | rearm current at' =>
    exact turnKept inside rfl (Or.inl rfl) rfl (Or.inl (by rw [at']; rfl))
  | unheard current out force at' sink phase next =>
    refine turnKept inside rfl (Or.inl rfl) rfl (Or.inl ?_)
    rw [at']
    rcases next with same|same <;> rw [same] <;> rfl
  | send current channel out force at' =>
    obtain ⟨capture,_,slot,spare,_⟩ := sendKeeps p channel out force
    exact turnKept inside capture (Or.inl slot) spare (Or.inl (by rw [at']; rfl))
  | give current spare at' given =>
    cases inside with
    | current same => exact .current same
    | offered offers => exact .offered offers
    | waiting captured waits same => exact .waiting captured waits same
    | encoding encodes => contradiction
    | spare inside =>
      rcases given with returned|full
      · rcases List.mem_append.mp (returned ▸ inside) with old|new
        · exact .spare old
        · exact .encoding (by rw [at',List.mem_singleton.mp new]; rfl)
      · exact .spare (full ▸ inside)

theorem settingsSize {frame : I420Frame} (small : Small frame) :
    ((p.settings frame).width.toNat,(p.settings frame).height.toNat) = (frame.width,frame.height) := by
  rw [settings,UInt32.toNat_ofNat_of_lt' small.1,UInt32.toNat_ofNat_of_lt' small.2]

theorem turnFitted {input : EncodeInput} (fitted : Fitted p) (stepped : TurnStep p input q) :
    Fitted q := by
  have small : ∀ frame, q.Circulates frame → Small frame :=
    fun frame inside => fitted.small frame (turnCirculates stepped inside)
  -- A turn that changes the phase only, to one in which the encoder is not called.
  have passes {r : Pipeline} {phase : EncodePhase} (same : q = r.encodeAt phase)
      (capture : r.capture = p.capture) (encode : r.encode = p.encode) (running : phase ≠ .gone)
      (idle : ∀ frame ptsMs force, phase ≠ .tuning frame ptsMs force ∧
        phase ≠ .encoding frame ptsMs force) : Fitted q := by
    subst same
    refine ⟨⟨capture ▸ fitted.running.1,running⟩,small,?_,fun frame ptsMs force at' => ?_⟩
    · simp only [encodeAt,encode]
      exact fitted.size
    · rcases at' with tuning|encoding
      · exact absurd tuning (idle frame ptsMs force).1
      · exact absurd encoding (idle frame ptsMs force).2
  cases stepped with
  | stop at' slot ended => exact absurd ended fitted.running.1
  | discard captured at' =>
    exact ⟨fitted.running,small,fitted.size,fitted.ready⟩
  | take | recreate | uncreated | output | skip | deliver =>
    exact passes rfl rfl rfl (by simp) (by simp)
  | unheard frame out force at' sink phase next =>
    rcases next with same|same <;> exact passes rfl rfl rfl (by simp [same]) (by simp [same])
  | rearm frame at' => exact passes rfl rfl rfl (by simp) (by simp)
  | send frame channel out force at' =>
    obtain ⟨capture,encode,_⟩ := sendKeeps p channel out force
    exact passes rfl capture encode (by simp) (by simp)
  | keep captured at' present size =>
    refine ⟨⟨fitted.running.1,by simp [encodeAt]⟩,small,fitted.size,fun frame ptsMs force at'' => ?_⟩
    rcases at'' with same|same <;> cases same
    exact ⟨present,size⟩
  | create frame ptsMs force at' =>
    have sized := settingsSize (p := p) (fitted.small frame (.encoding (by rw [at']; rfl)))
    refine ⟨⟨fitted.running.1,by simp⟩,small,fun settings created => ?_,fun f m b at'' => ?_⟩
    · cases created
      exact sized.symm
    · rcases at'' with same|same <;> cases same
      exact ⟨by simp,rfl⟩
  | tune frame ptsMs force ok bitrate at' =>
    refine ⟨⟨fitted.running.1,by simp⟩,small,fitted.size,fun f m b at'' => ?_⟩
    rcases at'' with same|same <;> cases same
    exact fitted.ready frame ptsMs force (Or.inl at')
  | fail frame ptsMs force at' =>
    refine ⟨⟨fitted.running.1,by simp⟩,small,fun settings created => ?_,fun f m b at'' => ?_⟩
    · simp at created
    · rcases at'' with same|same <;> contradiction
  | give frame spare at' given =>
    refine ⟨⟨fitted.running.1,by simp [encodeAt]⟩,small,fitted.size,fun f m b at'' => ?_⟩
    rcases at'' with same|same <;> contradiction

theorem fittedStep {l : Label} (fitted : Fitted p) (shown : Shows l)
    (stepped : p.step xxh3 l = some q) : Fitted q := by
  cases l with
  | capture input => exact captureFitted shown fitted (captureStep stepped)
  | encode input => exact turnFitted fitted (turnStep stepped)
  | write w =>
    cases Option.some.inj stepped
    cases w
    all_goals
      exact ⟨fitted.running,fun f inside => fitted.small f
        (turnKept inside rfl (Or.inl rfl) rfl (Or.inl rfl)),fitted.size,fitted.ready⟩
  | drop channel =>
    cases Option.some.inj stepped
    exact ⟨fitted.running,fun f inside => fitted.small f
      (turnKept inside rfl (Or.inl rfl) rfl (Or.inl rfl)),fitted.size,fitted.ready⟩

theorem encoderInput (xxh3 : Bytes → UInt64) (config : Config) (epoch : Nat) (ls : List Label)
    (shown : ∀ l ∈ ls, Shows l)
    (reached : Runs.run (step xxh3) (initial config epoch) ls = some p) :
    (∀ frame ptsMs force, p.encode.phase = .encoding frame ptsMs force → ∃ settings,
      p.encode.encoder = some settings ∧
      settings.width.toNat = frame.width ∧ settings.height.toNat = frame.height ∧
      frame.y.length = frame.strides.1*frame.height ∧
      frame.u.length = frame.strides.2.1*(frame.height/2) ∧
      frame.v.length = frame.strides.2.2*(frame.height/2) ∧
      OpenH264Encoder.checkFrame settings frame = .ok ()) ∧
    (∀ image : Image, image.Sound → (xrgbToI420 image.data image.width image.height image.pitch
      p.capture.current).isSome = true) ∧
    p.capture.phase ≠ .gone ∧ p.encode.phase ≠ .gone := by
  have allowed : Runs.Allowed (step xxh3) (fun _ l => Shows l) (initial config epoch) ls :=
    Runs.allowedOf (fun l mem _ => shown l mem)
  have fitted : Fitted p := Runs.runInvariant Fitted (fittedInitial config epoch)
    (fun _ _ _ fitted shown stepped => fittedStep fitted shown stepped) allowed reached
  refine ⟨fun frame ptsMs force at' => ?_,fun image sound => ?_,fitted.running⟩
  · obtain ⟨present,size⟩ := fitted.ready frame ptsMs force (Or.inr at')
    obtain ⟨settings,created⟩ := Option.ne_none_iff_exists'.mp present
    obtain ⟨width,height⟩ := Prod.mk.inj (size.symm.trans (fitted.size settings created))
    exact ⟨settings,created,width.symm,height.symm,frame.ySize,frame.uSize,frame.vSize,
      (OpenH264Encoder.checkFrameExact settings frame).mpr ⟨width,height⟩⟩
  · obtain ⟨frame,converted⟩ := soundConverts sound p.capture.current
    rw [converted]
    rfl

end Steps

def encodesFirst : List Label := connects ++ captures true (black 16 16) ++
  [.encode .proceeds,.encode .proceeds,.encode (.created true),.encode (.tuned true)]

theorem blackSound : (black 16 16).Sound := by
  refine ⟨?_,?_,?_,?_⟩ <;> decide +kernel

theorem encoderInputFirst : ∃ p frame settings,
    Runs.run (step (fun _ => 0)) (initial {} 0) encodesFirst = some p ∧
    p.encode.phase = .encoding frame 0 true ∧ p.encode.encoder = some settings ∧
    OpenH264Encoder.checkFrame settings frame = .ok () := by
  have encoding : (Runs.run (step (fun _ => 0)) (initial {} 0) encodesFirst).map
      (fun p => p.encode.phase) = some (.encoding (.new 16 16) 0 true) := by decide +kernel
  obtain ⟨p,reached,here⟩ := Option.map_eq_some_iff.mp encoding
  have shown : ∀ l ∈ encodesFirst, Shows l := by
    intro l inside image same
    subst same
    simp only [encodesFirst,connects,captures] at inside
    simp at inside
    rw [inside]
    exact blackSound
  obtain ⟨settings,created,_,_,_,_,_,checked⟩ :=
    (encoderInput _ _ _ _ shown reached).1 (.new 16 16) 0 true here
  exact ⟨p,.new 16 16,settings,reached,here,created,checked⟩

end Pipeline
end Vmdesk
