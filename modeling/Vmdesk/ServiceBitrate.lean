import Vmdesk.ServiceStep
import Vmdesk.SessionInput

/-! No client makes the encoder's ceiling fall below its target. Only a configured bitrate beyond the
range in which ceilings are compared can do that, or a library that fails in the second write of a
call and has changed the option. -/
namespace Vmdesk
open LittleEndian (Bytes)

namespace OpenH264Encoder
open OpenH264
open Pipeline (EncoderSettings)

def Modest (kbps : UInt32) : Prop := kbps.toNat ≤ 715827

instance (kbps : UInt32) : Decidable (Modest kbps) := inferInstanceAs (Decidable (_ ≤ _))

def AsksModestly (_ : OpenH264Encoder) (l : Label) : Prop := ∀ kbps, l = .setBitrate kbps → Modest kbps

def Prepared (e : OpenH264Encoder) (kbps : UInt32) (rest : List (EncoderOption × Int)) : Prop :=
  rest = e.writes kbps ∨
    rest = [(.bitrate,clip (bitrate kbps))] ∧ clip (ceiling kbps) ≤ e.max ∨
    rest = [(.maxBitrate,clip (ceiling kbps))] ∧ e.target = clip (bitrate kbps)

/- However many calls have failed half way, the target is at most that of the bitrate on record, and
the ceiling at least its ceiling. -/
structure Sure (e : OpenH264Encoder) : Prop where
  within : Modest e.bitrateKbps
  low : e.target ≤ clip (bitrate e.bitrateKbps)
  high : clip (ceiling e.bitrateKbps) ≤ e.max
  prepared : ∀ kbps rest, e.phase = .setting kbps rest → Modest kbps ∧ e.Prepared kbps rest

section Steps
variable {e f : OpenH264Encoder} {l : Label}

theorem sureCeiling (sure : Sure e) : Ceiling e :=
  (sure.low.trans (targetCovered e.bitrateKbps)).trans sure.high

theorem sureInitial {settings : EncoderSettings} (modest : Modest settings.bitrateKbps) :
    Sure (initialise settings) := by
  refine ⟨modest,Int.le_refl _,Int.le_refl _,fun kbps rest at' => ?_⟩
  simp [initialise] at at'

theorem atLeastModest {kbps : UInt32} (modest : Modest kbps) : Modest (atLeast kbps) := by
  unfold atLeast
  split
  · decide
  · exact modest

theorem modestWrites {kbps : UInt32} (within : Modest e.bitrateKbps) :
    (clip (ceiling e.bitrateKbps) < clip (ceiling kbps) ∧ e.writes kbps =
      [(.maxBitrate,clip (ceiling kbps)),(.bitrate,clip (bitrate kbps))]) ∨
    (clip (bitrate kbps) ≤ clip (bitrate e.bitrateKbps) ∧ e.writes kbps =
      [(.bitrate,clip (bitrate kbps)),(.maxBitrate,clip (ceiling kbps))]) := by
  have number : asI32 (ceiling e.bitrateKbps) = clip (ceiling e.bitrateKbps) :=
    (if_pos within).mp (asI32Ceiling e.bitrateKbps)
  have old := ceilingToNat e.bitrateKbps
  have new := ceilingToNat kbps
  have before := bitrateToNat e.bitrateKbps
  have after := bitrateToNat kbps
  rcases writesCases e kbps with ⟨raises,same⟩|⟨wide,same⟩
  · rw [number] at raises
    exact Or.inl ⟨raises,same⟩
  · rw [number] at wide
    refine Or.inr ⟨?_,same⟩
    unfold Modest at within
    unfold clip at wide ⊢
    omega

theorem sureStep (sure : Sure e) (modest : AsksModestly e l) (stepped : e.step l = some f) :
    Sure f := by
  cases stepCases stepped with
  | known kbps idle => exact sure
  | call kbps idle other =>
    refine ⟨sure.within,sure.low,sure.high,fun kbps' rest at' => ?_⟩
    cases at'
    exact ⟨atLeastModest (modest kbps rfl),Or.inl rfl⟩
  | fail kbps w rest at' =>
    refine ⟨sure.within,sure.low,sure.high,fun kbps' rest at'' => ?_⟩
    cases at''
  | first kbps w next rest at' =>
    obtain ⟨asks,prepared⟩ := sure.prepared kbps _ at'
    rcases prepared with all|⟨one,_⟩|⟨one,_⟩
    · rcases modestWrites sure.within with ⟨raises,same⟩|⟨lower,same⟩
      · rw [same] at all
        cases all
        refine ⟨sure.within,sure.low,raises.le,fun kbps' rest at'' => ?_⟩
        cases at''
        exact ⟨asks,Or.inr (Or.inl ⟨rfl,Int.le_refl _⟩)⟩
      · rw [same] at all
        cases all
        refine ⟨sure.within,lower,sure.high,fun kbps' rest at'' => ?_⟩
        cases at''
        exact ⟨asks,Or.inr (Or.inr ⟨rfl,rfl⟩)⟩
    · cases one
    · cases one
  | last kbps w at' =>
    obtain ⟨asks,prepared⟩ := sure.prepared kbps _ at'
    have idle : ∀ kbps' rest, BitratePhase.idle = .setting kbps' rest → Modest kbps' ∧
        Prepared {e.write w.1 w.2 with phase := .idle, bitrateKbps := kbps} kbps' rest :=
      fun kbps' rest at'' => by cases at''
    rcases prepared with all|⟨one,wide⟩|⟨one,lower⟩
    · have two := writesTwo e kbps
      rw [← all] at two
      cases two
    · cases one
      exact ⟨asks,Int.le_refl _,wide,idle⟩
    · cases one
      exact ⟨asks,lower.le,Int.le_refl _,idle⟩

end Steps
end OpenH264Encoder

namespace Service
open OpenH264Encoder (Modest Sure)

section Calls
variable {e f : OpenH264Encoder} {c : Call} {kbps : UInt32}

/- Of two writes, the second one leaves its option as it is when it fails. -/
def lastKept : List Outcome → Bool
  | .accepted::.failed true::_ => false
  | _ => true

def Careful (e : OpenH264Encoder) (c : Call) : Prop :=
  (∀ kbps, c = .setBitrate kbps → Modest kbps) ∧
  ∀ kbps w, c = .setOption (.failed true) → e.phase ≠ .setting kbps [w]

theorem callCases (stepped : stepCall e c = some f) :
    (∃ l, e.step l = some f ∧ ∀ kbps, l = .setBitrate kbps → c = .setBitrate kbps) ∨
    ∃ kbps w rest, c = .setOption (.failed true) ∧ e.phase = .setting kbps (w::rest) ∧
      f = {e.write w.1 w.2 with phase := .idle} := by
  unfold stepCall at stepped
  split at stepped
  · next kbps => exact Or.inl ⟨.setBitrate kbps,stepped,fun _ same => by cases same; rfl⟩
  · exact Or.inl ⟨.setOption true,stepped,fun _ same => by cases same⟩
  · exact Or.inl ⟨.setOption false,stepped,fun _ same => by cases same⟩
  · split at stepped
    · next kbps option bps rest at' =>
      exact Or.inr ⟨kbps,(option,bps),rest,rfl,at',(Option.some.inj stepped).symm⟩
    · contradiction
    · contradiction

theorem sureChanged {w next : OpenH264.EncoderOption × Int}
    {rest : List (OpenH264.EncoderOption × Int)} (sure : Sure e)
    (at' : e.phase = .setting kbps (w::next::rest)) : Sure {e.write w.1 w.2 with phase := .idle} := by
  obtain ⟨asks,prepared⟩ := sure.prepared kbps _ at'
  rcases prepared with all|⟨one,_⟩|⟨one,_⟩
  · rcases OpenH264Encoder.modestWrites sure.within with ⟨raises,same⟩|⟨lower,same⟩
    · rw [same] at all
      cases all
      exact ⟨sure.within,sure.low,raises.le,fun kbps' rest at'' => by cases at''⟩
    · rw [same] at all
      cases all
      exact ⟨sure.within,lower,sure.high,fun kbps' rest at'' => by cases at''⟩
  · cases one
  · cases one

theorem sureCall (sure : Sure e) (careful : Careful e c) (stepped : stepCall e c = some f) :
    Sure f := by
  rcases callCases stepped with ⟨l,moved,asks⟩|⟨kbps,w,rest,failed,at',same⟩
  · exact OpenH264Encoder.sureStep sure (fun kbps same => careful.1 kbps (asks kbps same)) moved
  · rw [same]
    cases rest with
    | nil => exact absurd at' (careful.2 kbps w failed)
    | cons next rest => exact sureChanged sure at'

theorem idleCareful {outcomes : List Outcome} (idle : e.phase = .idle) :
    Runs.Allowed stepCall Careful e (outcomes.map .setOption) := by
  cases outcomes with
  | nil => trivial
  | cons outcome rest =>
    refine ⟨⟨nofun,fun kbps w _ at' => ?_⟩,fun n stepped => ?_⟩
    · cases idle.symm.trans at'
    · rcases outcome with _|_|_ <;>
        simp [stepCall,OpenH264Encoder.step,OpenH264Encoder.stepOption,idle] at stepped

theorem lastCareful {w : OpenH264.EncoderOption × Int} {outcomes : List Outcome}
    (at' : e.phase = .setting kbps [w]) (kept : lastKept (.accepted :: outcomes) = true) :
    Runs.Allowed stepCall Careful e (outcomes.map .setOption) := by
  cases outcomes with
  | nil => trivial
  | cons outcome rest =>
    refine ⟨⟨nofun,fun kbps' w' failed _ => ?_⟩,fun n stepped => ?_⟩
    · cases failed
      contradiction
    · refine idleCareful ?_
      rcases outcome with _|_|_ <;>
        simp [stepCall,OpenH264Encoder.step,OpenH264Encoder.stepOption,at'] at stepped <;>
        rw [← stepped]

theorem callCareful {outcomes : List Outcome} (idle : e.phase = .idle) (modest : Modest kbps)
    (kept : lastKept outcomes = true) :
    Runs.Allowed stepCall Careful e (.setBitrate kbps :: outcomes.map .setOption) := by
  refine ⟨⟨fun _ same => Call.setBitrate.inj same ▸ modest,nofun⟩,
    fun f called => ?_⟩
  have called : e.step (.setBitrate kbps) = some f := called
  cases OpenH264Encoder.stepCases called with
  | known => exact idleCareful idle
  | call _ _ other =>
    obtain ⟨first,last,two⟩ := List.length_eq_two.mp
      (OpenH264Encoder.writesTwo e (OpenH264Encoder.atLeast kbps))
    cases outcomes with
    | nil => trivial
    | cons outcome rest =>
      refine ⟨⟨nofun,fun kbps' w' _ at' => ?_⟩,fun n stepped => ?_⟩
      · simp [two] at at'
      · rcases outcome with _|_|_ <;>
          simp [stepCall,OpenH264Encoder.step,OpenH264Encoder.stepOption,two] at stepped <;>
          rw [← stepped]
        · exact lastCareful rfl kept
        · exact idleCareful rfl
        · exact idleCareful rfl

end Calls

structure Tame (s : Service) : Prop where
  joined : Joined s
  config : Modest s.server.config.video.bitrateKbps
  shared : Modest s.server.shared.bitrateKbps
  encoder : ∀ e, s.encoder = some e → Sure e ∧ e.phase = .idle

/- The ceiling is not below the target, and stays so throughout the call that would come now. -/
def CeilingKept (s : Service) : Prop := ∀ e, s.encoder = some e →
  ∀ outcomes, lastKept outcomes = true → Runs.Always stepCall OpenH264Encoder.Ceiling e
    (.setBitrate s.server.shared.bitrateKbps :: outcomes.map .setOption)

section Steps
variable {xxh3 : Bytes → UInt64} {s t : Service} {l : Label}

theorem clampModest (kbps : UInt32) : Modest (Server.clampBitrate kbps) := by
  unfold Server.clampBitrate Modest
  split
  · decide
  · split
    · decide
    · next least =>
      have small : kbps.toNat ≤ 100000 :=
        Nat.not_lt.mp (fun less => least (UInt32.lt_iff_toNat_lt.mpr less))
      omega

theorem wroteBitrate {s : Server} {l : Session.Label} {kbps : UInt32}
    (wrote : s.wrote l = some (.bitrate kbps)) :
    kbps = s.config.video.bitrateKbps ∨ ∃ asked, kbps = Server.clampBitrate asked := by
  unfold Server.wrote at wrote
  split at wrote
  · split at wrote <;> simp at wrote
  · split at wrote
    · exact Or.inl (by simpa using wrote.symm)
    all_goals simp at wrote
  · split at wrote <;> simp at wrote
  · obtain ⟨reader,_,stores⟩ := Option.bind_eq_some_iff.mp wrote
    split at stores
    · obtain ⟨asked,found,same⟩ := Option.map_eq_some_iff.mp stores
      cases same
      unfold Server.askedBitrate at found
      split at found
      · split at found
        · exact Or.inr ⟨_,(Option.some.inj found).symm⟩
        · contradiction
      · contradiction
    all_goals contradiction
  all_goals contradiction

theorem sessionModest (tame : Tame s) {l : Session.Label} {server : Server}
    (stepped : s.server.step l = some server) : Modest server.shared.bitrateKbps := by
  have wrote : server.shared = _ := Server.stepWrote stepped
  rw [wrote]
  cases write : s.server.wrote l with
  | none => exact tame.shared
  | some w =>
    cases w with
    | bitrate kbps =>
      rcases wroteBitrate write with configured|⟨asked,clamped⟩
      · rw [configured]
        exact tame.config
      · rw [clamped]
        exact clampModest asked
    | connected | force | active | install | clear => exact tame.shared

theorem captureBitrate {p q : Pipeline} {input : Pipeline.CaptureInput}
    (stepped : Pipeline.CaptureStep xxh3 p input q) : q.shared = p.shared := by
  cases stepped <;> rfl

theorem turnBitrate {p q : Pipeline} {input : Pipeline.EncodeInput}
    (stepped : Pipeline.TurnStep p input q) : q.shared.bitrateKbps = p.shared.bitrateKbps := by
  cases stepped with
  | send frame channel out force =>
    exact congrArg Shared.bitrateKbps (Pipeline.sendKeeps p channel out force).2.2.2.2
  | discard | take | stop | recreate | keep | create | uncreated | tune | output | skip | fail
  | deliver | unheard | rearm | give => rfl

theorem followTame (tame : Tame s) {p : Pipeline} (joined : Joined t)
    (server : t.server = s.server.setShared p.shared)
    (bitrate : p.shared.bitrateKbps = s.pipeline.shared.bitrateKbps)
    (encoder : ∀ e, t.encoder = some e → Sure e ∧ e.phase = .idle) : Tame t := by
  refine ⟨joined,?_,?_,encoder⟩
  · rw [server]
    exact tame.config
  · have same : t.server.shared.bitrateKbps = s.server.shared.bitrateKbps := by
      rw [server,← tame.joined.shared]
      exact bitrate
    rw [same]
    exact tame.shared

theorem setBitrateSure {e e' : OpenH264Encoder} {kbps : UInt32} {outcomes : List Outcome}
    (sure : Sure e ∧ e.phase = .idle) (modest : Modest kbps) (kept : lastKept outcomes = true)
    (called : setBitrate e kbps outcomes = some e') : Sure e' ∧ e'.phase = .idle := by
  obtain ⟨after,reached,idle⟩ := Option.bind_eq_some_iff.mp called
  split at idle
  · next ended =>
    cases Option.some.inj idle
    exact ⟨Runs.runInvariant Sure sure.1 (fun _ _ _ sure careful stepped =>
      sureCall sure careful stepped) (callCareful sure.2 modest kept) reached,ended⟩
  · contradiction

def keepsLast : Label → Bool
  | .tune outcomes => lastKept outcomes
  | _ => true

theorem tameStep (tame : Tame s) (kept : keepsLast l = true) (stepped : s.step xxh3 l = some t) :
    Tame t := by
  have joined := joinedStep tame.joined stepped
  cases stepCases stepped with
  | session l server moved =>
    have config : Modest server.config.video.bitrateKbps := by
      rw [Server.configKept moved]
      exact tame.config
    exact ⟨joined,config,sessionModest tame moved,tame.encoder⟩
  | drop channel => exact ⟨joined,tame.config,tame.shared,tame.encoder⟩
  | capture input p moved =>
    exact followTame tame joined rfl (congrArg Shared.bitrateKbps (captureBitrate moved)) tame.encoder
  | turn p moved => exact followTame tame joined rfl (turnBitrate moved) tame.encoder
  | uncreated rc null initialized frame ptsMs force at' =>
    exact followTame (p := s.pipeline.encodeAt (.returning frame)) tame joined rfl rfl tame.encoder
  | create rc null initialized frame ptsMs force at' =>
    refine ⟨joined,tame.config,?_,fun e created => ?_⟩
    · exact (congrArg Shared.bitrateKbps tame.joined.shared) ▸ tame.shared
    · cases created
      refine ⟨OpenH264Encoder.sureInitial ?_,rfl⟩
      simp only [Pipeline.settings,tame.joined.shared]
      exact tame.shared
  | tune outcomes e e' p present moved called =>
    refine followTame tame joined rfl (turnBitrate moved) (fun f created => ?_)
    cases created
    rcases called with same|called
    · rw [same]
      exact tame.encoder e present
    · rw [tame.joined.shared] at called
      exact setBitrateSure (tame.encoder e present) tame.shared kept called
  | encode rc info e frame ptsMs force p present at' moved =>
    refine followTame tame joined rfl (turnBitrate moved) (fun f created => ?_)
    simp only at created
    split at created
    · cases created
      exact tame.encoder e present
    · contradiction

end Steps

/- Whatever clients ask for, and whatever else the library refuses. -/
theorem ceilingKept (xxh3 : Bytes → UInt64) (config : Config) (publicIp : Option Text) (epoch : Nat)
    (ls : List Label) (modest : config.video.bitrateKbps.toNat ≤ 715827)
    (kept : ls.all keepsLast = true) :
    Runs.Always (step xxh3) CeilingKept (initial config publicIp epoch) ls := by
  have start : Tame (initial config publicIp epoch) :=
    ⟨joinedInitial config publicIp epoch,modest,modest,fun e created => by cases created⟩
  have everywhere : Runs.Allowed (step xxh3) (fun _ l => keepsLast l = true)
      (initial config publicIp epoch) ls :=
    Runs.allowedOf (fun l inside _ => List.all_eq_true.mp kept l inside)
  refine Runs.allowedAlways Tame start (fun _ _ _ tame kept stepped => tameStep tame kept stepped)
    (fun s tame e created outcomes kept => ?_) everywhere
  obtain ⟨sure,idle⟩ := tame.encoder e created
  exact Runs.allowedAlways Sure sure (fun _ _ _ sure careful stepped => sureCall sure careful stepped)
    (fun _ sure => OpenH264Encoder.sureCeiling sure) (callCareful idle tame.shared kept)

def arrives : List Label :=
  (Server.negotiate 0 ++ Server.conclude 0 ++ Server.connect 1 ++ Server.openControl 1).map .session

def shoots (opens : Bool) (now : Nat) : List Label :=
  [.capture (.clock now),.capture (.paced now now)] ++
    (if opens then [.capture (.located true)] else []) ++
    [.capture (.taken (Pipeline.black 16 16)),.capture (.clock now),.capture (.clock now),
      .capture (.clock now)]

def slice : OpenH264.FrameInfo := ⟨.idr,1,[⟨some [0,0,0,1,0x65],[5]⟩]⟩

def codes (fresh : Bool) (outcomes : List Outcome) : List Label :=
  [.turn,.turn] ++ (if fresh then [.create 0 false true] else []) ++
    [.tune outcomes,.encode 0 slice,.turn,.turn,.turn]

/- The client asks for less than the least there is, and the library refuses the second write. When
the next frame comes it fails in the first one, and has made it. -/
def asksLess : List Label := arrives ++ shoots true 5000000 ++ codes true [] ++
  (Server.deliver 0 (.setBitrate 50)).map .session ++ [.session (.rtcp 1 [.pictureLossIndication])] ++
  shoots false 45000000 ++ codes false [.accepted,.failed false] ++
  shoots false 2000000000 ++ codes false [.failed true]

theorem ceilingKeptLess :
    Runs.Always (step (fun _ => 0)) CeilingKept (initial {} (some "8.8.4.4".toList) 0) asksLess ∧
    (Runs.run (step (fun _ => 0)) (initial {} (some "8.8.4.4".toList) 0) asksLess).map
      (fun s => s.encoder.map (fun e => (e.target,e.max))) = some (some (200000,36000000)) :=
  ⟨ceilingKept _ {} _ 0 asksLess (by decide) (by decide),by decide +kernel⟩

end Service
end Vmdesk
