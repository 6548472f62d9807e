import Vmdesk.Pacing
import Vmdesk.PortRotation
import Vmdesk.Service

/-! The two copies of the shared words are the same after every step, and each step of the session
layer is the write it is known for. -/
namespace Vmdesk
open LittleEndian (Bytes)

namespace Server
open Function Session

section Writes
variable {s t : Server} {l : Label}

def Wrote (s : Server) (l : Label) (t : Server) : Prop :=
  t.shared = (s.wrote l).elim s.shared s.shared.write

theorem callWrote {c : Nat} {reply : Reply} (stepped : s.stepCall c reply = some t) :
    Wrote s (.call c reply) t := by
  cases callStep stepped with
  | take old at' | pass at' | disconnect old at' | clear old at' | release old emits at'
  | close old at' | allocate at' | allocatePort n at' | locate n port ip at' | detect n port at'
  | detected n port ip at' | undetected n port at' | cache n port ip at'
  | negotiate stage deal pending reply handler p at' | discard deal at'
  | install deal pending answer at' | activate deal pending answer at'
  | spawn deal pending answer at' =>
    simp only [Wrote,wrote,at']
    rfl

theorem openReaderShared (s : Server) (n : Nat) (label : Text) :
    (s.openReader n label).shared = s.shared := by
  unfold openReader
  simp only
  split <;> rfl

theorem taskWrote {n : Nat} {emits : Emits} (stepped : s.stepTask n emits = some t) :
    Wrote s (.task n emits) t := by
  cases taskStep stepped with
  | openChannel label at' =>
    simp only [Wrote,wrote,at']
    exact openReaderShared s n _
  | receive ev rest at' | finish at' | refuse at' | pass at' | storeBitrate at' | installSink at'
  | requestKeyframe at' | storeConnected at' | interrupt at' | tearDown at' | skip at'
  | disconnect at' | clear at' | release at' | vacate at' | close at' =>
    simp only [Wrote,wrote,at']
    rfl

theorem rtcpWrote {n : Nat} {packets : List RtcpPacket} (stepped : s.stepRtcp n packets = some t) :
    Wrote s (.rtcp n packets) t := by
  unfold stepRtcp at stepped
  split at stepped
  · contradiction
  · contradiction
  · split at stepped
    · next asks =>
      cases Option.some.inj stepped
      simp only [Wrote,wrote,if_pos asks]
      rfl
    · next silent =>
      cases Option.some.inj stepped
      simp only [Wrote,wrote,if_neg silent]
      rfl

theorem actWrote (s : Server) (reader : Reader) (data : Bytes) (emits : Emits) :
    (s.act reader data emits).shared =
      (askedBitrate reader data).elim s.shared s.shared.storeBitrate := by
  unfold act askedBitrate
  split
  · split <;> simp_all [setShared,inject]
  · split <;> rfl

theorem readerWrote {r : Nat} {emits : Emits} (stepped : s.stepReader r emits = some t) :
    Wrote s (.reader r emits) t := by
  cases readerStep stepped with
  | refuse reader data here at' | enter reader data here at' =>
    simp only [Wrote,wrote,here,Option.bind_some,at']
    rfl
  | act reader data here at' =>
    simp only [Wrote,wrote,here,Option.bind_some,at']
    refine (actWrote s reader data emits).trans ?_
    cases askedBitrate reader data <;> rfl

theorem stepWrote (stepped : s.step l = some t) : Wrote s l t := by
  cases l with
  | call c reply => exact callWrote stepped
  | task n emits => exact taskWrote stepped
  | rtcp n packets => exact rtcpWrote stepped
  | reader r emits => exact readerWrote stepped
  | offer c sdp =>
    cases offerStep stepped with
    | reject | begin => rfl
  | event n ev =>
    obtain ⟨handler,same⟩ := eventStep stepped
    subst same
    rfl
  | stop n =>
    cases Option.some.inj stepped
    rfl
  | merge n =>
    obtain ⟨handler,merges,events,same⟩ := mergeStep stepped
    subst same
    rfl
  | channel r ev => exact (channelSame stepped).1

end Writes
end Server

namespace Service

structure Joined (s : Service) : Prop where
  shared : s.pipeline.shared = s.server.shared
  config : s.pipeline.config = s.server.config

section Steps
variable {xxh3 : Bytes → UInt64} {s t : Service} {l : Label}

theorem joinedInitial (config : Config) (publicIp : Option Text) (epoch : Nat) :
    Joined (initial config publicIp epoch) := ⟨rfl,rfl⟩

theorem writeShared (p : Pipeline) (w : Shared.Write) : (p.stepWrite w).shared = p.shared.write w := by
  cases w <;> rfl

theorem followJoined (joined : Joined s) {p : Pipeline} (config : p.config = s.pipeline.config) :
    Joined (s.follow p) := ⟨rfl,config.trans joined.config⟩

theorem joinedStep (joined : Joined s) (stepped : s.step xxh3 l = some t) : Joined t := by
  cases stepCases stepped with
  | session l server moved =>
    have config := Server.configKept moved
    have wrote : server.shared = _ := Server.stepWrote moved
    cases write : s.server.wrote l with
    | none =>
      rw [write] at wrote
      exact ⟨joined.shared.trans wrote.symm,joined.config.trans config.symm⟩
    | some w =>
      rw [write] at wrote
      refine ⟨?_,?_⟩
      · rw [Option.elim_some,writeShared,joined.shared]
        exact wrote.symm
      · rw [Option.elim_some,(Pipeline.writeKeeps s.pipeline w).1]
        exact joined.config.trans config.symm
  | drop channel => exact ⟨joined.shared,joined.config⟩
  | capture input p moved =>
    have kept := followJoined joined (Pipeline.captureConfig moved)
    exact ⟨kept.shared,kept.config⟩
  | turn p moved => exact followJoined joined (Pipeline.turnConfig moved)
  | create rc null initialized frame ptsMs force at' => exact ⟨rfl,joined.config⟩
  | uncreated rc null initialized frame ptsMs force at' => exact ⟨rfl,joined.config⟩
  | tune outcomes e e' p present moved =>
    have kept := followJoined joined (Pipeline.turnConfig moved)
    exact ⟨kept.shared,kept.config⟩
  | encode rc info e frame ptsMs force p present at' moved =>
    have kept := followJoined joined (Pipeline.turnConfig moved)
    exact ⟨kept.shared,kept.config⟩

end Steps
end Service
end Vmdesk
