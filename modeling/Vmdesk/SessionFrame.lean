import Vmdesk.Runs
import Vmdesk.SessionStep

/-! What the steps of the session layer leave alone: a call other calls, a task the calls,
nobody but a reader the record of requested bitrates. Only finitely many calls, tasks and
readers have left their first state. -/
namespace Vmdesk
open LittleEndian (Bytes)

namespace Server
open Function Session

def caller : Label → Option Nat
  | .offer c _ | .call c _ => some c
  | _ => none

def worker : Label → Option Nat
  | .task n _ => some n
  | _ => none

structure CallKeeps (s : Server) (c : Nat) (t : Server) : Prop where
  others : ∀ d, d ≠ c → t.calls d = s.calls d
  tasks : t.tasks = s.tasks ∨ ∃ deal pending answer, s.calls c = .spawning deal pending answer ∧
    t.tasks = update s.tasks deal.session ⟨.waiting,false⟩
  active : t.shared.activeSession = s.shared.activeSession ∨ ∃ deal pending answer,
    s.calls c = .activating deal pending answer ∧ t.shared.activeSession = deal.session
  readers : t.readers = s.readers
  nextReader : t.nextReader = s.nextReader
  requested : t.requested = s.requested
  config : t.config = s.config
  bitrate : t.shared.bitrateKbps = s.shared.bitrateKbps

structure TaskKeeps (s : Server) (n : Nat) (t : Server) : Prop where
  calls : t.calls = s.calls
  others : ∀ m, m ≠ n → t.tasks m = s.tasks m
  requested : t.requested = s.requested
  config : t.config = s.config
  active : t.shared.activeSession = s.shared.activeSession
  nextSession : t.nextSession = s.nextSession

structure Aside (s t : Server) : Prop where
  calls : t.calls = s.calls
  tasks : t.tasks = s.tasks
  config : t.config = s.config
  active : t.shared.activeSession = s.shared.activeSession
  nextSession : t.nextSession = s.nextSession
  nextReader : t.nextReader = s.nextReader
  retired : t.retired = s.retired

structure Still (s t : Server) : Prop extends Aside s t where
  readers : t.readers = s.readers
  input : t.input = s.input
  requested : t.requested = s.requested
  bitrate : t.shared.bitrateKbps = s.shared.bitrateKbps

section Frames
variable {s t u : Server} {l : Label}

theorem callKeepsSet {c : Nat} (p : Phase) (kept : CallKeeps s c u) :
    CallKeeps s c (u.setCall c p) := by
  refine ⟨fun d other => ?_,kept.tasks,kept.active,kept.readers,kept.nextReader,kept.requested,
    kept.config,kept.bitrate⟩
  rw [← kept.others d other]
  exact update_of_ne other p u.calls

theorem callKeepsSame (s : Server) (c : Nat) : CallKeeps s c s :=
  ⟨fun _ _ => rfl,Or.inl rfl,Or.inl rfl,rfl,rfl,rfl,rfl,rfl⟩

theorem offerKeeps {c : Nat} {sdp : Text} (stepped : s.stepOffer c sdp = some t) :
    CallKeeps s c t := by
  cases offerStep stepped with
  | reject | begin => exact callKeepsSet _ (callKeepsSame s c)

theorem callKeeps {c : Nat} {reply : Reply} (stepped : s.stepCall c reply = some t) :
    CallKeeps s c t := by
  cases callStep stepped with
  | activate deal pending answer at' => exact callKeepsSet _ ⟨fun _ _ => rfl,Or.inl rfl,
      Or.inr ⟨deal,pending,answer,at',rfl⟩,rfl,rfl,rfl,rfl,rfl⟩
  | spawn deal pending answer at' => exact callKeepsSet _ ⟨fun _ _ => rfl,
      Or.inr ⟨deal,pending,answer,at',rfl⟩,Or.inl rfl,rfl,rfl,rfl,rfl,rfl⟩
  | _ => exact callKeepsSet _ ⟨fun _ _ => rfl,Or.inl rfl,Or.inl rfl,rfl,rfl,rfl,rfl,rfl⟩

theorem taskKeepsSet {n : Nat} (task : Task) (kept : TaskKeeps s n u) :
    TaskKeeps s n {u with tasks := update u.tasks n task} := by
  refine ⟨kept.calls,fun m other => ?_,kept.requested,kept.config,kept.active,kept.nextSession⟩
  rw [← kept.others m other]
  exact update_of_ne other task u.tasks

theorem openReaderKeeps (s : Server) (n : Nat) (label : Text) :
    TaskKeeps s n (s.openReader n label) := by
  unfold openReader
  simp only
  split <;> exact ⟨rfl,fun _ _ => rfl,rfl,rfl,rfl,rfl⟩

theorem taskKeeps {n : Nat} {emits : Emits} (stepped : s.stepTask n emits = some t) :
    TaskKeeps s n t := by
  cases taskStep stepped with
  | openChannel label at' => exact taskKeepsSet _ (openReaderKeeps s n _)
  | _ => exact taskKeepsSet _ ⟨rfl,fun _ _ => rfl,rfl,rfl,rfl,rfl⟩

def idle : Label → Bool
  | .event _ _ | .stop _ | .merge _ | .rtcp _ _ => true
  | .offer _ _ | .call _ _ | .task _ _ | .channel _ _ | .reader _ _ => false

theorem idleStill (quiet : idle l = true) (stepped : s.step l = some t) : Still s t := by
  cases l with
  | offer | call | task | channel | reader => contradiction
  | event n ev =>
    obtain ⟨handler,same⟩ := eventStep stepped
    subst same
    exact ⟨⟨rfl,rfl,rfl,rfl,rfl,rfl,rfl⟩,rfl,rfl,rfl,rfl⟩
  | stop n =>
    cases Option.some.inj stepped
    exact ⟨⟨rfl,rfl,rfl,rfl,rfl,rfl,rfl⟩,rfl,rfl,rfl,rfl⟩
  | merge n =>
    obtain ⟨handler,merges,events,same⟩ := mergeStep stepped
    subst same
    exact ⟨⟨rfl,rfl,rfl,rfl,rfl,rfl,rfl⟩,rfl,rfl,rfl,rfl⟩
  | rtcp n packets =>
    rcases rtcpStep stepped with same|same
    all_goals
      subst same
      exact ⟨⟨rfl,rfl,rfl,rfl,rfl,rfl,rfl⟩,rfl,rfl,rfl,rfl⟩

theorem channelAside {r : Nat} {ev : ChannelEvent} (stepped : s.stepChannel r ev = some t) :
    Aside s t := by
  cases channelStep stepped with
  | deliver | stop | ignore => exact ⟨rfl,rfl,rfl,rfl,rfl,rfl,rfl⟩

theorem channelSame {r : Nat} {ev : ChannelEvent} (stepped : s.stepChannel r ev = some t) :
    t.shared = s.shared ∧ t.input = s.input ∧ t.requested = s.requested := by
  cases channelStep stepped with
  | deliver | stop | ignore => exact ⟨rfl,rfl,rfl⟩

theorem actAside (s : Server) (reader : Reader) (data : Bytes) (emits : Emits) :
    Aside s (s.act reader data emits) := by
  unfold act
  split
  · split <;> exact ⟨rfl,rfl,rfl,rfl,rfl,rfl,rfl⟩
  · split <;> exact ⟨rfl,rfl,rfl,rfl,rfl,rfl,rfl⟩

theorem readerAside {r : Nat} {emits : Emits} (stepped : s.stepReader r emits = some t) :
    Aside s t := by
  cases readerStep stepped with
  | refuse | enter => exact ⟨rfl,rfl,rfl,rfl,rfl,rfl,rfl⟩
  | act reader data here at' =>
    have acted := actAside s reader data emits
    exact ⟨acted.calls,acted.tasks,acted.config,acted.active,acted.nextSession,acted.nextReader,
      acted.retired⟩

theorem callerKeeps {c : Nat} (caller : caller l = some c) (stepped : s.step l = some t) :
    CallKeeps s c t := by
  cases l with
  | offer d sdp =>
    cases Option.some.inj caller
    exact offerKeeps stepped
  | call d reply =>
    cases Option.some.inj caller
    exact callKeeps stepped
  | event | stop | merge | task | rtcp | channel | reader => contradiction

theorem asideKeeps (caller : caller l = none) (worker : worker l = none)
    (stepped : s.step l = some t) : Aside s t := by
  cases l with
  | offer | call | task => contradiction
  | event | stop | merge | rtcp => exact (idleStill rfl stepped).toAside
  | channel r ev => exact channelAside stepped
  | reader r emits => exact readerAside stepped

theorem workerKeeps {n : Nat} (worker : worker l = some n) (stepped : s.step l = some t) :
    TaskKeeps s n t := by
  cases l with
  | task m emits =>
    cases Option.some.inj worker
    exact taskKeeps stepped
  | offer | call | event | stop | merge | rtcp | channel | reader => contradiction

theorem taskHere {n : Nat} {emits : Emits} (stepped : s.stepTask n emits = some t) :
    (s.tasks n).phase ≠ .absent := by
  intro absent
  unfold stepTask at stepped
  rw [absent] at stepped
  contradiction

def Opens (s : Server) (n : Nat) (t : Server) : Prop :=
  (t.readers = s.readers ∧ t.nextReader = s.nextReader) ∨ ∃ isControl,
    t.readers = update s.readers s.nextReader (some ⟨n,isControl,.polling⟩) ∧
    t.nextReader = s.nextReader + 1

theorem taskOpens {n : Nat} {emits : Emits} (stepped : s.stepTask n emits = some t) :
    Opens s n t := by
  cases taskStep stepped with
  | openChannel label at' =>
    unfold Opens openReader
    simp only
    split
    · exact Or.inr ⟨_,rfl,rfl⟩
    · exact Or.inl ⟨rfl,rfl⟩
  | _ => exact Or.inl ⟨rfl,rfl⟩

def Moves (s t : Server) : Prop := t.nextReader = s.nextReader ∧ (t.readers = s.readers ∨
  ∃ r old new, s.readers r = some old ∧ t.readers = update s.readers r (some new) ∧
    new.session = old.session)

theorem channelMoves {r : Nat} {ev : ChannelEvent} (stepped : s.stepChannel r ev = some t) :
    Moves s t := by
  cases channelStep stepped with
  | deliver reader data here | stop reader ev here =>
    exact ⟨rfl,Or.inr ⟨r,reader,_,here,rfl,rfl⟩⟩
  | ignore => exact ⟨rfl,Or.inl rfl⟩

theorem actReaders (s : Server) (reader : Reader) (data : Bytes) (emits : Emits) :
    (s.act reader data emits).readers = s.readers := by
  unfold act
  split
  · split <;> rfl
  · split <;> rfl

theorem readerMoves {r : Nat} {emits : Emits} (stepped : s.stepReader r emits = some t) :
    Moves s t := by
  have aside := readerAside stepped
  refine ⟨aside.nextReader,Or.inr ?_⟩
  cases readerStep stepped with
  | refuse reader data here | enter reader data here => exact ⟨r,reader,_,here,rfl,rfl⟩
  | act reader data here at' =>
    refine ⟨r,reader,{reader with phase := .polling},here,?_,rfl⟩
    unfold setReader
    rw [actReaders]

end Frames
end Server
end Vmdesk
