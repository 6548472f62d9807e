import Vmdesk.OneClient

/-! The bitrate of a session: the configured one until the client asks for another, and the
last one asked for from then on, unless the connection comes back after an interruption. -/
namespace Vmdesk
open LittleEndian (Bytes)

namespace Server
open Function Session

def wanted (s : Server) (n : Nat) : UInt32 := match s.requested n with
  | some kbps => clampBitrate kbps
  | none => s.config.video.bitrateKbps

def BitrateKept (s : Server) : Prop := ∀ n, s.shared.activeSession = n →
  (s.tasks n).connected = true → s.shared.bitrateKbps = s.wanted n

def Single (s : Server) : Label → Prop
  | .call c _ => ∀ deal pending answer, s.calls c = .activating deal pending answer →
      s.shared.activeSession = 0
  | _ => True

/- The Connected branch stores the configured bitrate only while that is what the client is
owed: no bitrate has been asked for yet, or its clamped value is the configured one. -/
def Agreed (s : Server) : Label → Prop
  | .task n _ => (s.tasks n).phase = .storingBitrate →
      ∀ kbps, s.requested n = some kbps → clampBitrate kbps = s.config.video.bitrateKbps
  | _ => True

def TaskPhase.stored : TaskPhase → Bool
  | .installingSink | .requestingKeyframe | .storingConnected => true
  | _ => false

def asked (s : Server) (n : Nat) : Prop :=
  (s.tasks n).connected = true ∨ TaskPhase.stored (s.tasks n).phase = true

structure BitrateInv (s : Server) : Prop where
  ids : Takeover.Ids (view s)
  sole : Takeover.Sole (view s)
  unborn : ∀ n, (s.tasks n).phase = .absent → (s.tasks n).connected = false
  readers : ∀ r reader, s.readers r = some reader →
    reader.session = s.shared.activeSession ∧ 0 < reader.session
  kept : s.asked s.shared.activeSession → s.shared.bitrateKbps = s.wanted s.shared.activeSession

section Steps
variable {s t : Server} {l : Label}

theorem soleStep (inv : BitrateInv s) (single : s.Single l) (stepped : s.step l = some t) :
    Takeover.Sole (view t) := by
  obtain ⟨a,move,named⟩ := stepMoves stepped
  refine Takeover.soleMove inv.ids inv.sole (fun c activates => ?_) move
  subst activates
  obtain ⟨reply,deal,pending,answer,same,activating⟩ := named
  subst same
  exact single deal pending answer activating

theorem soleTask (inv : BitrateInv s) {n : Nat} (here : (s.tasks n).phase ≠ .absent) :
    n = s.shared.activeSession ∧ 0 < n :=
  inv.sole.tenants n (fun absent => here (tenantAbsent.mp absent))

def TaskBitrate (s : Server) (n : Nat) (t : Server) : Prop :=
  (t.tasks n).phase ≠ .absent ∧
  ((s.tasks n).phase = .storingBitrate ∧
      t.shared.bitrateKbps = s.config.video.bitrateKbps ∨
    t.shared.bitrateKbps = s.shared.bitrateKbps ∧ (t.asked n → s.asked n))

theorem setTaskBitrate {n : Nat} {p : TaskPhase} {u : Server} (present : p ≠ .absent)
    (unstored : TaskPhase.stored p = true → s.asked n)
    (tasks : u.tasks n = s.tasks n) (bitrate : u.shared.bitrateKbps = s.shared.bitrateKbps) :
    TaskBitrate s n (u.setTask n p) := by
  unfold TaskBitrate asked
  rw [setTaskSelf,tasks]
  refine ⟨present,Or.inr ⟨bitrate,fun owed => ?_⟩⟩
  rcases owed with connected|stored
  · exact Or.inl connected
  · exact unstored stored

theorem openReaderBitrate (s : Server) (n : Nat) (label : Text) :
    (s.openReader n label).tasks n = s.tasks n ∧
      (s.openReader n label).shared.bitrateKbps = s.shared.bitrateKbps := by
  unfold openReader
  simp only
  split <;> exact ⟨rfl,rfl⟩

theorem receivedUnstored (ev : PcEvent) :
    received ev ≠ .absent ∧ TaskPhase.stored (received ev) = false := by
  cases ev with
  | connection state => cases state <;> exact ⟨nofun,rfl⟩
  | gathering | dataChannel => exact ⟨nofun,rfl⟩

theorem taskBitrate {n : Nat} {emits : Emits} (stepped : s.stepTask n emits = some t) :
    TaskBitrate s n t := by
  cases taskStep stepped with
  | receive ev =>
    obtain ⟨present,unstored⟩ := receivedUnstored ev
    exact setTaskBitrate present (by simp [unstored]) rfl rfl
  | storeBitrate storing => exact ⟨by simp,Or.inl ⟨storing,rfl⟩⟩
  | installSink at' | requestKeyframe at' =>
    exact setTaskBitrate (by simp) (fun _ => Or.inr (by simp [at',TaskPhase.stored])) rfl rfl
  | storeConnected at' =>
    exact ⟨by simp,Or.inr ⟨rfl,fun _ => Or.inr (by simp [at',TaskPhase.stored])⟩⟩
  | openChannel label =>
    have opened := openReaderBitrate s n (label.getD [])
    exact setTaskBitrate (by simp) (by simp [TaskPhase.stored]) opened.1 opened.2
  | _ => exact setTaskBitrate (by simp) (by simp [TaskPhase.stored]) rfl rfl

theorem unbornStep (inv : BitrateInv s) (stepped : s.step l = some t) :
    ∀ n, (t.tasks n).phase = .absent → (t.tasks n).connected = false := by
  intro n absent
  cases owner : caller l with
  | some c =>
    rcases (callerKeeps owner stepped).tasks with same|⟨deal,_,_,_,set⟩
    · rw [same] at absent ⊢
      exact inv.unborn n absent
    · rw [set,update_apply] at absent ⊢
      split at absent
      · contradiction
      · next other =>
        rw [if_neg other]
        exact inv.unborn n absent
  | none =>
    cases working : worker l with
    | none =>
      rw [(asideKeeps owner working stepped).tasks] at absent ⊢
      exact inv.unborn n absent
    | some m =>
      have kept := workerKeeps working stepped
      by_cases same : n = m
      · subst same
        cases l with
        | task m emits =>
          cases Option.some.inj working
          exact absurd absent (taskBitrate stepped).1
        | offer | call | event | stop | merge | rtcp | channel | reader => contradiction
      · rw [kept.others n same] at absent ⊢
        exact inv.unborn n absent

theorem actBitrate (s : Server) (reader : Reader) (data : Bytes) (emits : Emits) :
    ((s.act reader data emits).shared.bitrateKbps = s.shared.bitrateKbps ∧
      (s.act reader data emits).requested = s.requested) ∨
    ∃ kbps, (s.act reader data emits).shared.bitrateKbps = clampBitrate kbps ∧
      (s.act reader data emits).requested = update s.requested reader.session (some kbps) := by
  unfold act
  split
  · split
    case h_2 kbps _ => exact Or.inr ⟨kbps,rfl,rfl⟩
    all_goals exact Or.inl ⟨rfl,rfl⟩
  · split <;> exact Or.inl ⟨rfl,rfl⟩

theorem readerBitrate {r : Nat} {emits : Emits} (stepped : s.stepReader r emits = some t) :
    (t.shared.bitrateKbps = s.shared.bitrateKbps ∧ t.requested = s.requested) ∨
    ∃ reader kbps, s.readers r = some reader ∧ t.shared.bitrateKbps = clampBitrate kbps ∧
      t.requested = update s.requested reader.session (some kbps) := by
  cases readerStep stepped with
  | refuse | enter => exact Or.inl ⟨rfl,rfl⟩
  | act reader data here =>
    rcases actBitrate s reader data emits with same|⟨kbps,bitrate,requested⟩
    · exact Or.inl same
    · exact Or.inr ⟨reader,kbps,here,bitrate,requested⟩

theorem activated (inv : BitrateInv s) {c : Nat} {deal : Deal} {pending : List PcEvent}
    {answer : Text} (activating : s.calls c = .activating deal pending answer) :
    ¬ s.asked deal.session := by
  have own : ((view s).claims c).tenant = some deal.session := by
    simp [view,activating,claimOf,Takeover.Claim.tenant]
  have absent := tenantAbsent.mp (inv.ids.fresh c deal.session own).2.2
  intro owed
  rcases owed with connected|stored
  · rw [inv.unborn _ absent] at connected
    contradiction
  · rw [absent] at stored
    contradiction

theorem movesOwned (owned : ∀ r reader, s.readers r = some reader →
      reader.session = s.shared.activeSession ∧ 0 < reader.session) (aside : Aside s t)
    (moves : Moves s t) : ∀ r reader, t.readers r = some reader →
      reader.session = t.shared.activeSession ∧ 0 < reader.session := by
  intro r reader here
  rw [aside.active]
  rcases moves.2 with same|⟨q,old,new,there,set,session⟩
  · rw [same] at here
    exact owned r reader here
  · rw [set,update_apply] at here
    split at here
    · cases Option.some.inj here
      rw [session]
      exact owned q old there
    · exact owned r reader here

theorem readersOwned (inv : BitrateInv s) (single : s.Single l) (stepped : s.step l = some t) :
    ∀ r reader, t.readers r = some reader →
      reader.session = t.shared.activeSession ∧ 0 < reader.session := by
  cases l with
  | offer c sdp =>
    intro r reader here
    have kept := offerKeeps stepped
    rw [kept.readers] at here
    rcases kept.active with same|⟨_,_,_,activating,_⟩
    · rw [same]
      exact inv.readers r reader here
    · simp only [step,stepOffer,activating] at stepped
      contradiction
  | call c reply =>
    intro r reader here
    have kept := callKeeps stepped
    rw [kept.readers] at here
    rcases kept.active with same|⟨deal,pending,answer,activating,_⟩
    · rw [same]
      exact inv.readers r reader here
    · have none := single deal pending answer activating
      have own := inv.readers r reader here
      omega
  | event | stop | merge | rtcp =>
    have kept := idleStill rfl stepped
    rw [kept.readers,kept.active]
    exact inv.readers
  | channel r ev => exact movesOwned inv.readers (channelAside stepped) (channelMoves stepped)
  | reader r emits => exact movesOwned inv.readers (readerAside stepped) (readerMoves stepped)
  | task n emits =>
    intro r reader here
    rw [(taskKeeps stepped).active]
    rcases taskOpens stepped with ⟨same,_⟩|⟨isControl,set,_⟩
    · rw [same] at here
      exact inv.readers r reader here
    · rw [set,update_apply] at here
      split at here
      · cases Option.some.inj here
        exact soleTask inv (taskHere stepped)
      · exact inv.readers r reader here

theorem wantedSame (requested : t.requested = s.requested) (config : t.config = s.config)
    (n : Nat) : t.wanted n = s.wanted n := by
  unfold wanted
  rw [requested,config]

theorem callKept (inv : BitrateInv s) {c : Nat} (kept : CallKeeps s c t)
    (owed : t.asked t.shared.activeSession) :
    t.shared.bitrateKbps = t.wanted t.shared.activeSession := by
  have before : s.asked t.shared.activeSession := by
    rcases kept.tasks with same|⟨_,_,_,_,set⟩
    · unfold asked at owed ⊢
      rwa [same] at owed
    · unfold asked at owed ⊢
      rw [set,update_apply] at owed
      split at owed
      · simp [TaskPhase.stored] at owed
      · exact owed
  rw [kept.bitrate,wantedSame kept.requested kept.config]
  rcases kept.active with same|⟨deal,pending,answer,activating,set⟩
  · rw [same] at before ⊢
    exact inv.kept before
  · rw [set] at before
    exact absurd before (activated inv activating)

theorem keptStep (inv : BitrateInv s) (agreed : s.Agreed l) (stepped : s.step l = some t)
    (owed : t.asked t.shared.activeSession) :
    t.shared.bitrateKbps = t.wanted t.shared.activeSession := by
  cases l with
  | offer c sdp => exact callKept inv (offerKeeps stepped) owed
  | call c reply => exact callKept inv (callKeeps stepped) owed
  | event | stop | merge | rtcp =>
    have kept := idleStill rfl stepped
    unfold asked at owed
    rw [kept.tasks,kept.active] at owed
    rw [kept.bitrate,kept.active,wantedSame kept.requested kept.config]
    exact inv.kept owed
  | channel r ev =>
    have kept := channelAside stepped
    have same := channelSame stepped
    unfold asked at owed
    rw [kept.tasks,kept.active] at owed
    rw [kept.active,same.1,wantedSame same.2.2 kept.config]
    exact inv.kept owed
  | reader r emits =>
    have kept := readerAside stepped
    unfold asked at owed
    rw [kept.tasks,kept.active] at owed
    rw [kept.active]
    rcases readerBitrate stepped with ⟨bitrate,requested⟩|⟨reader,kbps,here,bitrate,requested⟩
    · rw [bitrate,wantedSame requested kept.config]
      exact inv.kept owed
    · -- Every reader belongs to the active session.
      have own := (inv.readers r reader here).1
      rw [bitrate]
      unfold wanted
      rw [requested,own,update_self]
  | task n emits =>
    have kept := taskKeeps stepped
    have active := (soleTask inv (taskHere stepped)).1
    rw [kept.active] at owed ⊢
    rw [wantedSame kept.requested kept.config]
    rw [← active] at owed ⊢
    rcases (taskBitrate stepped).2 with ⟨storing,set⟩|⟨same,before⟩
    · rw [set]
      unfold wanted
      cases requested : s.requested n with
      | none => rfl
      | some kbps => exact (agreed storing kbps requested).symm
    · rw [same]
      have owes := before owed
      rw [active] at owes ⊢
      exact inv.kept owes

theorem bitrateStep (inv : BitrateInv s) (single : s.Single l) (agreed : s.Agreed l)
    (stepped : s.step l = some t) : BitrateInv t :=
  ⟨idsStep inv.ids stepped,soleStep inv single stepped,unbornStep inv stepped,
    readersOwned inv single stepped,keptStep inv agreed stepped⟩

end Steps

theorem bitrateInitial (config : Config) (publicIp : Option Text) :
    BitrateInv (initial config publicIp) := by
  refine ⟨(exclusiveInitial config publicIp).ids,⟨?_,?_⟩,?_,?_,?_⟩
  · intro n here
    exact absurd rfl here
  · intro c n activates
    simp [view,initial,claimOf] at activates
  · intro n _
    rfl
  · intro r reader here
    simp [initial] at here
  · intro owed
    simp [asked,initial,TaskPhase.stored] at owed

theorem bitrateKept (config : Config) (publicIp : Option Text) (ls : List Label)
    (permitted : Runs.Allowed step (fun s l => s.Single l ∧ s.Agreed l)
      (initial config publicIp) ls) :
    Runs.Always step BitrateKept (initial config publicIp) ls := by
  refine Runs.allowedAlways BitrateInv (bitrateInitial config publicIp) ?_ ?_ permitted
  · intro s l t inv permits stepped
    exact bitrateStep inv permits.1 permits.2 stepped
  · intro s inv n active connected
    subst active
    exact inv.kept (Or.inl connected)

def bitrateCheck (s : Server) : Label → Bool
  | .call c _ => match s.calls c with
    | .activating _ _ _ => s.shared.activeSession == 0
    | _ => true
  | .task n _ => match (s.tasks n).phase,s.requested n with
    | .storingBitrate,some kbps => clampBitrate kbps == s.config.video.bitrateKbps
    | _,_ => true
  | _ => true

theorem bitrateChecked {s : Server} {l : Label} (checked : bitrateCheck s l = true) :
    s.Single l ∧ s.Agreed l := by
  cases l with
  | call c reply =>
    refine ⟨fun deal pending answer activating => ?_,trivial⟩
    simpa [bitrateCheck,activating] using checked
  | task n emits =>
    refine ⟨trivial,fun storing kbps requested => ?_⟩
    simpa [bitrateCheck,storing,requested] using checked
  | offer | event | stop | merge | rtcp | channel | reader => exact ⟨trivial,trivial⟩

def askForBitrate : List Label :=
  negotiate 0 ++ conclude 0 ++ connect 1 ++
    [.event 1 (.dataChannel (some controlChannel)),.merge 1,.task 1 .succeed,.task 1 .succeed,
      .channel 0 (.onMessage (ControlMessage.setBitrate 5000).encode),.reader 0 .succeed,
      .reader 0 .succeed]

theorem bitrateAsked : Runs.Always step BitrateKept located askForBitrate ∧
    (Runs.run step located askForBitrate).map (fun s => s.shared.bitrateKbps) = some 5000 := by
  refine ⟨bitrateKept _ _ _ ?_,by decide⟩
  exact Runs.checkAllowed (fun _ => True) bitrateCheck trivial (fun _ _ _ _ _ _ => trivial)
    (fun _ _ _ checked => bitrateChecked checked) (by decide)

/- Then the connection is lost for a moment and comes back. -/
theorem bitrateReset : ∃ s, Runs.run step located (askForBitrate ++
    [.event 1 (.connection .disconnected),.merge 1,.task 1 .succeed,.task 1 .succeed,
      .event 1 (.connection .connected),.merge 1] ++ List.replicate 6 (.task 1 .succeed)) =
      some s ∧ ¬ BitrateKept s := by
  have facts : (Runs.run step located (askForBitrate ++
      [.event 1 (.connection .disconnected),.merge 1,.task 1 .succeed,.task 1 .succeed,
        .event 1 (.connection .connected),.merge 1] ++
        List.replicate 6 (.task 1 .succeed))).map
      (fun s => (s.shared.activeSession,(s.tasks 1).connected,s.shared.bitrateKbps,s.wanted 1)) =
    some (1,true,12000,5000) := by decide
  obtain ⟨s,reached,same⟩ := Option.map_eq_some_iff.mp facts
  simp only [Prod.mk.injEq] at same
  obtain ⟨active,connected,bitrate,wanted⟩ := same
  refine ⟨s,reached,fun kept => ?_⟩
  have same := kept 1 active connected
  rw [bitrate,wanted] at same
  contradiction

end Server
end Vmdesk
