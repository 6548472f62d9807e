import Vmdesk.Pipeline
import Vmdesk.Runs

/-! The encoder: what `OpenH264Encoder` hands to the encoder library and what it keeps of it. Each
write of a library option is a step of its own, and whether the library accepts it stands in the
label. -/
namespace Vmdesk
open Pipeline (EncoderSettings)

namespace OpenH264

/- Only `max_bitrate` and `bitrate` are ever changed. -/
inductive EncoderOption where | maxBitrate | bitrate
  deriving DecidableEq, Repr

inductive BitratePhase where
  | idle
  | setting (kbps : UInt32) (writes : List (EncoderOption × Int))
  deriving DecidableEq, Repr

inductive Label where
  | setBitrate (kbps : UInt32)
  | setOption (succeeds : Bool)
  deriving DecidableEq, Repr

end OpenH264

open OpenH264

/- `target` and `max` are what the library holds of the two options, in bits per second. -/
structure OpenH264Encoder where
  settings : EncoderSettings
  bitrateKbps : UInt32
  target : Int
  max : Int
  phase : BitratePhase
  deriving DecidableEq, Repr

namespace OpenH264Encoder

def maxBitrateFactor : UInt32 := 3

def saturatingMul (a b : UInt32) : UInt32 := UInt32.ofNat (min (a.toNat*b.toNat) 4294967295)

/- `i32::try_from(n).unwrap_or(i32::MAX)` -/
def clip (n : UInt32) : Int := (min n.toNat 2147483647 : Nat)

/- `n as i32` -/
def asI32 (n : UInt32) : Int :=
  if n.toNat < 2147483648 then n.toNat else (n.toNat : Int) - 4294967296

def bitrate (kbps : UInt32) : UInt32 := saturatingMul kbps 1000

def ceiling (kbps : UInt32) : UInt32 := saturatingMul (bitrate kbps) maxBitrateFactor

def initialise (settings : EncoderSettings) : OpenH264Encoder where
  settings := settings
  bitrateKbps := settings.bitrateKbps
  target := clip (bitrate settings.bitrateKbps)
  max := clip (ceiling settings.bitrateKbps)
  phase := .idle

/- `rc` and `null` are what the library creates, `initialized` says whether it takes the
parameters. -/
def new (settings : EncoderSettings) (rc : Int) (null initialized : Bool) :
    Except String OpenH264Encoder := do
  Config.ensure (16 ≤ settings.width && 16 ≤ settings.height)
    s!"frame too small: {settings.width}x{settings.height}"
  Config.ensure (settings.width % 2 == 0 && settings.height % 2 == 0)
    "frame dimensions must be even"
  Config.ensure (rc == 0 && !null) s!"WelsCreateSVCEncoder failed: {rc}"
  Config.ensure initialized "initialising OpenH264 encoder"
  return initialise settings

def checkFrame (settings : EncoderSettings) (frame : I420Frame) : Except String Unit := do
  Config.ensure (frame.width == settings.width.toNat && frame.height == settings.height.toNat)
    s!"frame size {frame.width}x{frame.height} does not match encoder {settings.width}x{settings.height}"
  let (sy,su,sv) := frame.strides
  Config.ensure (frame.y.length == sy*frame.height && frame.u.length == su*(frame.height/2) &&
    frame.v.length == sv*(frame.height/2)) "malformed I420 planes"

theorem checkFrameExact (settings : EncoderSettings) (frame : I420Frame) :
    checkFrame settings frame = .ok () ↔
      frame.width = settings.width.toNat ∧ frame.height = settings.height.toNat := by
  unfold checkFrame
  rw [Config.ensureBind]
  simp [Config.ensureOk,I420Frame.strides,frame.ySize,frame.uSize,frame.vSize]

def writes (e : OpenH264Encoder) (kbps : UInt32) : List (EncoderOption × Int) :=
  let target := clip (bitrate kbps)
  let max := clip (ceiling kbps)
  if asI32 (ceiling e.bitrateKbps) < max
  then [(.maxBitrate,max),(.bitrate,target)]
  else [(.bitrate,target),(.maxBitrate,max)]

/- `kbps.max(100)` -/
def atLeast (kbps : UInt32) : UInt32 := if kbps < 100 then 100 else kbps

def stepBitrate (e : OpenH264Encoder) (kbps : UInt32) : Option OpenH264Encoder := match e.phase with
  | .idle =>
      if atLeast kbps = e.bitrateKbps then some e
      else some {e with phase := .setting (atLeast kbps) (e.writes (atLeast kbps))}
  | .setting _ _ => none

def write (e : OpenH264Encoder) : EncoderOption → Int → OpenH264Encoder
  | .maxBitrate,bps => {e with max := bps}
  | .bitrate,bps => {e with target := bps}

def stepOption (e : OpenH264Encoder) (succeeds : Bool) : Option OpenH264Encoder := match e.phase with
  | .setting kbps ((option,bps)::rest) =>
      if succeeds then match rest with
        | [] => some {e.write option bps with phase := .idle, bitrateKbps := kbps}
        | rest => some {e.write option bps with phase := .setting kbps rest}
      else some {e with phase := .idle}
  | .idle | .setting _ [] => none

def step (e : OpenH264Encoder) : Label → Option OpenH264Encoder
  | .setBitrate kbps => e.stepBitrate kbps
  | .setOption succeeds => e.stepOption succeeds

inductive Step (e : OpenH264Encoder) : Label → OpenH264Encoder → Prop where
  | known (kbps) (idle : e.phase = .idle) (recorded : atLeast kbps = e.bitrateKbps) :
      Step e (.setBitrate kbps) e
  | call (kbps) (idle : e.phase = .idle) (other : atLeast kbps ≠ e.bitrateKbps) :
      Step e (.setBitrate kbps)
        {e with phase := .setting (atLeast kbps) (e.writes (atLeast kbps))}
  | first (kbps w next rest) (at' : e.phase = .setting kbps (w::next::rest)) :
      Step e (.setOption true) {e.write w.1 w.2 with phase := .setting kbps (next::rest)}
  | last (kbps w) (at' : e.phase = .setting kbps [w]) :
      Step e (.setOption true) {e.write w.1 w.2 with phase := .idle, bitrateKbps := kbps}
  | fail (kbps w rest) (at' : e.phase = .setting kbps (w::rest)) :
      Step e (.setOption false) {e with phase := .idle}

theorem stepCases {e f : OpenH264Encoder} {l : Label} (stepped : e.step l = some f) : Step e l f := by
  cases l with
  | setBitrate kbps =>
    simp only [step,stepBitrate] at stepped
    split at stepped
    · next idle =>
      split at stepped
      · next recorded =>
        cases Option.some.inj stepped
        exact .known kbps idle recorded
      · next other =>
        cases Option.some.inj stepped
        exact .call kbps idle other
    · contradiction
  | setOption succeeds =>
    simp only [step,stepOption] at stepped
    split at stepped
    · next kbps option bps rest at' =>
      cases succeeds with
      | false =>
        cases Option.some.inj stepped
        exact .fail kbps (option,bps) rest at'
      | true =>
        cases rest with
        | nil =>
          cases Option.some.inj stepped
          exact .last kbps (option,bps) at'
        | cons next rest =>
          cases Option.some.inj stepped
          exact .first kbps (option,bps) next rest at'
    · contradiction
    · contradiction

section Arithmetic

theorem saturatingMulToNat (a b : UInt32) :
    (saturatingMul a b).toNat = min (a.toNat*b.toNat) 4294967295 := by
  rw [saturatingMul,UInt32.toNat_ofNat',Nat.mod_eq_of_lt]
  omega

theorem bitrateToNat (kbps : UInt32) : (bitrate kbps).toNat = min (kbps.toNat*1000) 4294967295 :=
  saturatingMulToNat kbps 1000

theorem ceilingToNat (kbps : UInt32) : (ceiling kbps).toNat = min (kbps.toNat*3000) 4294967295 := by
  have factor : maxBitrateFactor.toNat = 3 := rfl
  rw [ceiling,saturatingMulToNat,bitrateToNat,factor]
  omega

theorem clipMono {a b : UInt32} (least : a.toNat ≤ b.toNat) : clip a ≤ clip b := by
  unfold clip
  omega

theorem targetCovered (kbps : UInt32) : clip (bitrate kbps) ≤ clip (ceiling kbps) := by
  refine clipMono ?_
  rw [bitrateToNat,ceilingToNat]
  omega

/- Up to here the ceiling is the same number as an `i32`. -/
theorem asI32Ceiling (kbps : UInt32) : if kbps.toNat ≤ 715827
    then asI32 (ceiling kbps) = clip (ceiling kbps) else asI32 (ceiling kbps) < 0 := by
  have value := ceilingToNat kbps
  unfold asI32 clip
  split
  · rw [if_pos (by omega)]
    omega
  · rw [if_neg (by omega)]
    omega

theorem clipCovers (old kbps : UInt32) :
    clip (bitrate old) ≤ clip (ceiling kbps) ↔ 715827 < kbps.toNat ∨ old.toNat ≤ 3*kbps.toNat := by
  have target := bitrateToNat old
  have max := ceilingToNat kbps
  unfold clip
  omega

end Arithmetic

def Ceiling (e : OpenH264Encoder) : Prop := e.target ≤ e.max

def Accepted (_ : OpenH264Encoder) (l : Label) : Prop := l ≠ .setOption false

/- A write does not belong to a call that takes a bitrate beyond the range of the comparison down
to less than a third of it. -/
def Covered (e : OpenH264Encoder) (l : Label) : Prop :=
  ∀ kbps rest, l = .setOption true → e.phase = .setting kbps rest →
    e.bitrateKbps.toNat ≤ 715827 ∨ 715827 < kbps.toNat ∨ e.bitrateKbps.toNat ≤ 3*kbps.toNat

inductive Steady (e : OpenH264Encoder) : Prop where
  | idle (at' : e.phase = .idle) (target : e.target = clip (bitrate e.bitrateKbps))
      (max : e.max = clip (ceiling e.bitrateKbps))
  | called (kbps) (at' : e.phase = .setting kbps (e.writes kbps))
      (target : e.target = clip (bitrate e.bitrateKbps)) (max : e.max = clip (ceiling e.bitrateKbps))
  | raised (kbps) (at' : e.phase = .setting kbps [(.bitrate,clip (bitrate kbps))])
      (target : e.target = clip (bitrate e.bitrateKbps)) (max : e.max = clip (ceiling kbps))
  | lowered (kbps) (at' : e.phase = .setting kbps [(.maxBitrate,clip (ceiling kbps))])
      (target : e.target = clip (bitrate kbps))
      (wide : clip (ceiling kbps) ≤ asI32 (ceiling e.bitrateKbps))

section Steps
variable {e f : OpenH264Encoder} {l : Label}

theorem steadyInitial (settings : EncoderSettings) : Steady (initialise settings) :=
  .idle rfl rfl rfl

theorem writesCases (e : OpenH264Encoder) (kbps : UInt32) :
    (asI32 (ceiling e.bitrateKbps) < clip (ceiling kbps) ∧ e.writes kbps =
      [(.maxBitrate,clip (ceiling kbps)),(.bitrate,clip (bitrate kbps))]) ∨
    (clip (ceiling kbps) ≤ asI32 (ceiling e.bitrateKbps) ∧ e.writes kbps =
      [(.bitrate,clip (bitrate kbps)),(.maxBitrate,clip (ceiling kbps))]) := by
  unfold writes
  simp only
  split
  · next raises => exact Or.inl ⟨raises,rfl⟩
  · next lowers => exact Or.inr ⟨Int.not_lt.mp lowers,rfl⟩

theorem writesTwo (e : OpenH264Encoder) (kbps : UInt32) : (e.writes kbps).length = 2 := by
  rcases writesCases e kbps with ⟨_,same⟩|⟨_,same⟩
  all_goals
    rw [same]
    rfl

theorem calledAhead {kbps kbps' : UInt32} {w : EncoderOption × Int}
    (called : e.phase = .setting kbps (e.writes kbps)) : e.phase ≠ .setting kbps' [w] := by
  intro last
  obtain ⟨_,one⟩ := BitratePhase.setting.inj (called.symm.trans last)
  have two := writesTwo e kbps
  rw [one] at two
  cases two

theorem loweredWithin {old kbps : UInt32} (wide : clip (ceiling kbps) ≤ asI32 (ceiling old)) :
    old.toNat ≤ 715827 ∧ clip (ceiling kbps) ≤ clip (ceiling old) := by
  have exact' := asI32Ceiling old
  split at exact'
  · next within =>
    rw [exact'] at wide
    exact ⟨within,wide⟩
  · have positive : 0 ≤ clip (ceiling kbps) := by
      unfold clip
      omega
    omega

theorem raisedCovered {old kbps : UInt32} (raises : asI32 (ceiling old) < clip (ceiling kbps)) :
    clip (bitrate old) ≤ clip (ceiling kbps) ↔
      old.toNat ≤ 715827 ∨ 715827 < kbps.toNat ∨ old.toNat ≤ 3*kbps.toNat := by
  have exact' := asI32Ceiling old
  split at exact'
  · next within =>
    have covered := targetCovered old
    exact iff_of_true (by omega) (Or.inl within)
  · next above =>
    rw [clipCovers old kbps]
    omega

theorem steadyIdle (steady : Steady e) (idle : e.phase = .idle) :
    e.target = clip (bitrate e.bitrateKbps) ∧ e.max = clip (ceiling e.bitrateKbps) := by
  cases steady with
  | idle _ target max => exact ⟨target,max⟩
  | called kbps other | raised kbps other | lowered kbps other => cases idle.symm.trans other

theorem steadyStep (steady : Steady e) (accepted : Accepted e l) (stepped : e.step l = some f) :
    Steady f := by
  cases stepCases stepped with
  | known kbps idle => exact steady
  | call kbps idle other =>
    obtain ⟨target,max⟩ := steadyIdle steady idle
    exact .called _ rfl target max
  | first kbps w next rest at' =>
    cases steady with
    | called kbps here target max =>
      rcases writesCases e kbps with ⟨raises,same⟩|⟨wide,same⟩
      · rw [same] at here
        cases at'.symm.trans here
        exact .raised kbps rfl target rfl
      · rw [same] at here
        cases at'.symm.trans here
        exact .lowered kbps rfl rfl wide
    | idle here | raised kbps here | lowered kbps here => cases at'.symm.trans here
  | last kbps w at' =>
    cases steady with
    | raised kbps here target max =>
      cases at'.symm.trans here
      exact .idle rfl rfl max
    | lowered kbps here target wide =>
      cases at'.symm.trans here
      exact .idle rfl target rfl
    | idle here => cases at'.symm.trans here
    | called kbps here => exact absurd at' (calledAhead here)
  | fail => exact absurd rfl accepted

theorem coveredAt {kbps : UInt32} {rest : List (EncoderOption × Int)}
    (at' : e.phase = .setting kbps rest) : Covered e (.setOption true) ↔
      e.bitrateKbps.toNat ≤ 715827 ∨ 715827 < kbps.toNat ∨ e.bitrateKbps.toNat ≤ 3*kbps.toNat := by
  refine ⟨fun covered => covered kbps rest rfl at',fun covered kbps' rest' _ again => ?_⟩
  cases at'.symm.trans again
  exact covered

theorem ceilingStep (steady : Steady e) (holds : Ceiling e) (accepted : Accepted e l)
    (stepped : e.step l = some f) : Ceiling f ↔ Covered e l := by
  cases stepCases stepped with
  | known | call => exact iff_of_true holds (fun _ _ same => by contradiction)
  | first kbps w next rest at' =>
    rw [coveredAt at']
    cases steady with
    | called kbps here target max =>
      rcases writesCases e kbps with ⟨raises,same⟩|⟨wide,same⟩
      · rw [same] at here
        cases at'.symm.trans here
        rw [← raisedCovered raises,← target]
        rfl
      · rw [same] at here
        cases at'.symm.trans here
        obtain ⟨within,least⟩ := loweredWithin wide
        refine iff_of_true ?_ (Or.inl within)
        have fits := targetCovered kbps
        simp only [Ceiling,write,max]
        omega
    | idle here | raised kbps here | lowered kbps here => cases at'.symm.trans here
  | last kbps w at' =>
    rw [coveredAt at']
    cases steady with
    | raised kbps here target max =>
      cases at'.symm.trans here
      refine iff_of_true ?_ ?_
      · simp only [Ceiling,write,max]
        exact targetCovered kbps
      · rw [Ceiling,target,max] at holds
        by_cases within : e.bitrateKbps.toNat ≤ 715827
        · exact Or.inl within
        · exact Or.inr ((clipCovers _ _).mp holds)
    | lowered kbps here target wide =>
      cases at'.symm.trans here
      refine iff_of_true ?_ (Or.inl (loweredWithin wide).1)
      simp only [Ceiling,write,target]
      exact targetCovered kbps
    | idle here => cases at'.symm.trans here
    | called kbps here => exact absurd at' (calledAhead here)
  | fail => exact absurd rfl accepted

theorem ceilingExact (settings : EncoderSettings) (ls : List Label)
    (accepted : Runs.Allowed step Accepted (initialise settings) ls)
    (reached : Runs.run step (initialise settings) ls = some f) :
    Runs.Always step Ceiling (initialise settings) ls ↔
      Runs.Allowed step Covered (initialise settings) ls :=
  Runs.alwaysExactWhere Steady (steadyInitial settings) (targetCovered settings.bitrateKbps)
    (fun _ _ _ steady accepted stepped => steadyStep steady accepted stepped)
    (fun _ _ _ steady holds accepted stepped => ceilingStep steady holds accepted stepped)
    accepted reached

end Steps

def coveredCheck (e : OpenH264Encoder) (l : Label) : Bool := match l,e.phase with
  | .setOption true,.setting kbps _ => e.bitrateKbps.toNat ≤ 715827 || 715827 < kbps.toNat ||
      e.bitrateKbps.toNat ≤ 3*kbps.toNat
  | _,_ => true

theorem coveredChecked {e : OpenH264Encoder} {l : Label} (checked : coveredCheck e l = true) :
    Covered e l := by
  intro kbps rest same at'
  subst same
  simpa [coveredCheck,at',or_assoc] using checked

theorem acceptedChecked {e : OpenH264Encoder} {ls : List Label}
    (checked : ls.all (fun l => l != .setOption false) = true) : Runs.Allowed step Accepted e ls :=
  Runs.allowedOf (fun l mem _ => by simpa [Accepted] using List.all_eq_true.mp checked l mem)

def desktop (bitrateKbps : UInt32) : EncoderSettings := ⟨1920,1080,30,bitrateKbps,600,0⟩

def changes : List Label := [.setBitrate 40000,.setOption true,.setOption true,.setBitrate 50,
  .setOption true,.setOption true]

theorem changesCovered : Runs.Always step Ceiling (initialise (desktop 12000)) changes ∧
    (Runs.run step (initialise (desktop 12000)) changes).map (fun e => (e.target,e.max)) =
      some (100000,300000) := by
  have state : (Runs.run step (initialise (desktop 12000)) changes).map
      (fun e => (e.target,e.max)) = some (100000,300000) := by decide
  obtain ⟨e,reached,_⟩ := Option.map_eq_some_iff.mp state
  refine ⟨(ceilingExact _ _ (acceptedChecked (by decide)) reached).mpr ?_,state⟩
  exact Runs.checkAllowed (fun _ => True) coveredCheck trivial (fun _ _ _ _ _ _ => trivial)
    (fun _ _ _ checked => coveredChecked checked) (by decide)

/- The configuration asks for 3 Gbit/s, the client for the least there is. -/
theorem targetAbove : ∃ e, Runs.run step (initialise (desktop 3000000))
    [.setBitrate 100,.setOption true] = some e ∧ e.max = 300000 ∧ e.target = 2147483647 ∧
    ¬ Ceiling e := by
  have state : (Runs.run step (initialise (desktop 3000000))
      [.setBitrate 100,.setOption true]).map (fun e => (e.max,e.target)) =
      some (300000,2147483647) := by decide
  obtain ⟨e,reached,same⟩ := Option.map_eq_some_iff.mp state
  obtain ⟨max,target⟩ := Prod.mk.inj same
  refine ⟨e,reached,max,target,?_⟩
  rw [Ceiling,max,target]
  decide

end OpenH264Encoder
end Vmdesk
