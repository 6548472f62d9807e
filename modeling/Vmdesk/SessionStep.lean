import Vmdesk.Session

/-! What one step of the session layer can do, said once: a call, a session task, a channel and a
reader each come to one of the cases below. Every invariant is read off these. -/
namespace Vmdesk
open LittleEndian (Bytes)

namespace Server
open Function Session

inductive Negotiated (deal : Deal) : Phase → Prop where
  | goes (stage pending) : Negotiated deal (.negotiating stage deal pending)
  | discards : Negotiated deal (.discarding deal)
  | installs (pending answer) : Negotiated deal (.installing deal pending answer)
  | fails (e) : Negotiated deal (.finished (.error e))

inductive OfferStep (s : Server) (c : Nat) (sdp : Text) : Server → Prop where
  | reject (e) (idle : s.calls c = .idle) (checked : checkOffer sdp = some e) :
      OfferStep s c sdp (s.setCall c (.finished (.error e)))
  | begin (idle : s.calls c = .idle) (checked : checkOffer sdp = none) :
      OfferStep s c sdp (s.setCall c .taking)

inductive CallStep (s : Server) (c : Nat) : Reply → Server → Prop where
  | take (old) (at' : s.calls c = .taking) (found : s.current = some old) :
      CallStep s c .proceeds ({s with current := none}.setCall c (.disconnecting old))
  | pass (at' : s.calls c = .taking) (empty : s.current = none) :
      CallStep s c .proceeds (s.setCall c .allocating)
  | disconnect (old) (at' : s.calls c = .disconnecting old) : CallStep s c .proceeds
      ((s.setShared (s.shared.storeConnected false)).setCall c (.clearing old))
  | clear (old) (at' : s.calls c = .clearing old) : CallStep s c .proceeds
      ((s.setShared s.shared.clearSink).setCall c (.releasing old))
  | release (old emits) (at' : s.calls c = .releasing old) : CallStep s c (.released emits)
      (((s.releaseInput emits).retire old).setCall c (.closing old))
  | close (old) (at' : s.calls c = .closing old) : CallStep s c .proceeds
      ((s.close old).setCall c .allocating)
  | allocate (at' : s.calls c = .allocating) : CallStep s c .proceeds
      ({s with nextSession := s.nextSession + 1}.setCall c (.allocatingPort s.nextSession))
  | allocatePort (n) (at' : s.calls c = .allocatingPort n) : CallStep s c .proceeds
      (s.allocatePort.2.setCall c (.lookingUp n s.allocatePort.1))
  | locate (n port ip) (at' : s.calls c = .lookingUp n port) : CallStep s c .proceeds
      (s.setCall c (.negotiating .registering ⟨n,port,some ip⟩ []))
  | detect (n port) (at' : s.calls c = .lookingUp n port) : CallStep s c .proceeds
      (s.setCall c (.detecting n port))
  | detected (n port ip) (at' : s.calls c = .detecting n port) : CallStep s c (.detected (some ip))
      (s.setCall c (.caching n port ip))
  | undetected (n port) (at' : s.calls c = .detecting n port) : CallStep s c (.detected none)
      (s.setCall c (.negotiating .registering ⟨n,port,none⟩ []))
  | cache (n port ip) (at' : s.calls c = .caching n port ip) : CallStep s c .proceeds
      ({s with publicIp := some ip}.setCall c (.negotiating .registering ⟨n,port,some ip⟩ []))
  | negotiate (stage deal pending reply handler p) (at' : s.calls c = .negotiating stage deal pending)
      (leads : Negotiated deal p) : CallStep s c reply ({s with handler := handler}.setCall c p)
  | discard (deal) (at' : s.calls c = .discarding deal) : CallStep s c .proceeds
      ((s.close deal.session).setCall c (.finished (.error (noCandidates deal))))
  | install (deal pending answer) (at' : s.calls c = .installing deal pending answer) :
      CallStep s c .proceeds
        ({s with current := some deal.session}.setCall c (.activating deal pending answer))
  | activate (deal pending answer) (at' : s.calls c = .activating deal pending answer) :
      CallStep s c .proceeds ((s.setShared (s.shared.storeActive deal.session)).setCall c
        (.spawning deal pending answer))
  | spawn (deal pending answer) (at' : s.calls c = .spawning deal pending answer) :
      CallStep s c .proceeds ({s with
          tasks := update s.tasks deal.session ⟨.waiting,false⟩
          merges := update s.merges deal.session (.replaying pending)}.setCall c
        (.finished (.ok answer)))

def received : PcEvent → TaskPhase
  | .connection .connected => .connecting
  | .connection .disconnected => .disconnected
  | .connection .failed | .connection .closed => .leaving
  | .connection _ => .waiting
  | .dataChannel label => .opening label
  | .gathering _ => .waiting

inductive TaskStep (s : Server) (n : Nat) (emits : Emits) : Server → Prop where
  | receive (ev rest) (at' : (s.tasks n).phase = .waiting) (next : s.events n = ev::rest) :
      TaskStep s n emits ({s with events := update s.events n rest}.setTask n (received ev))
  | finish (at' : (s.tasks n).phase = .waiting) (ended : s.merges n = .ended) :
      TaskStep s n emits (s.setTask n .leaving)
  | refuse (at' : (s.tasks n).phase = .connecting) (other : s.shared.activeSession ≠ n) :
      TaskStep s n emits (s.setTask n .leaving)
  | pass (at' : (s.tasks n).phase = .connecting) (active : s.shared.activeSession = n) :
      TaskStep s n emits (s.setTask n .storingBitrate)
  | storeBitrate (at' : (s.tasks n).phase = .storingBitrate) : TaskStep s n emits
      ((s.setShared (s.shared.storeBitrate s.config.video.bitrateKbps)).setTask n .installingSink)
  | installSink (at' : (s.tasks n).phase = .installingSink) : TaskStep s n emits
      ((s.setShared (s.shared.installSink n)).setTask n .requestingKeyframe)
  | requestKeyframe (at' : (s.tasks n).phase = .requestingKeyframe) : TaskStep s n emits
      ((s.setShared (s.shared.storeForce true)).setTask n .storingConnected)
  | storeConnected (at' : (s.tasks n).phase = .storingConnected) : TaskStep s n emits
      {s.setShared (s.shared.storeConnected true) with
        tasks := update s.tasks n ⟨.waiting,true⟩}
  | interrupt (at' : (s.tasks n).phase = .disconnected) : TaskStep s n emits
      ((s.releaseInput emits).setTask n .waiting)
  | openChannel (label) (at' : (s.tasks n).phase = .opening label) : TaskStep s n emits
      ((s.openReader n (label.getD [])).setTask n .waiting)
  | tearDown (at' : (s.tasks n).phase = .leaving) (active : s.shared.activeSession = n) :
      TaskStep s n emits (s.setTask n .clearingConnected)
  | skip (at' : (s.tasks n).phase = .leaving) (other : s.shared.activeSession ≠ n) :
      TaskStep s n emits (s.setTask n .closing)
  | disconnect (at' : (s.tasks n).phase = .clearingConnected) : TaskStep s n emits
      ((s.setShared (s.shared.storeConnected false)).setTask n .clearingSink)
  | clear (at' : (s.tasks n).phase = .clearingSink) : TaskStep s n emits
      ((s.setShared s.shared.clearSink).setTask n .releasing)
  | release (at' : (s.tasks n).phase = .releasing) : TaskStep s n emits
      (((s.releaseInput emits).retire n).setTask n .clearingCurrent)
  | vacate (at' : (s.tasks n).phase = .clearingCurrent) : TaskStep s n emits
      ({s with current := if s.current = some n then none else s.current}.setTask n .closing)
  | close (at' : (s.tasks n).phase = .closing) : TaskStep s n emits
      ((s.close n).setTask n .ended)

inductive ChannelStep (s : Server) (r : Nat) : ChannelEvent → Server → Prop where
  | deliver (reader data) (here : s.readers r = some reader) (at' : reader.phase = .polling) :
      ChannelStep s r (.onMessage data) (s.setReader r reader (.received data))
  | stop (reader ev) (here : s.readers r = some reader) (at' : reader.phase = .polling) :
      ChannelStep s r ev (s.setReader r reader .ended)
  | ignore (ev) : ChannelStep s r ev s

inductive ReaderStep (s : Server) (r : Nat) (emits : Emits) : Server → Prop where
  | refuse (reader data) (here : s.readers r = some reader) (at' : reader.phase = .received data)
      (other : s.shared.activeSession ≠ reader.session) :
      ReaderStep s r emits (s.setReader r reader .polling)
  | enter (reader data) (here : s.readers r = some reader) (at' : reader.phase = .received data)
      (active : s.shared.activeSession = reader.session) :
      ReaderStep s r emits (s.setReader r reader (.admitted data))
  | act (reader data) (here : s.readers r = some reader) (at' : reader.phase = .admitted data) :
      ReaderStep s r emits ((s.act reader data emits).setReader r reader .polling)

section Cases
variable {s t : Server}

@[simp] theorem setCallSelf (s : Server) (c : Nat) (p : Phase) : (s.setCall c p).calls c = p := by
  simp [setCall]

@[simp] theorem setTaskSelf (s : Server) (n : Nat) (p : TaskPhase) :
    (s.setTask n p).tasks n = ⟨p,(s.tasks n).connected⟩ := by
  simp [setTask]

theorem offerStep {c : Nat} {sdp : Text} (stepped : s.stepOffer c sdp = some t) :
    OfferStep s c sdp t := by
  unfold stepOffer at stepped
  split at stepped
  · next idle =>
    split at stepped
    · next e checked =>
      cases Option.some.inj stepped
      exact .reject e idle checked
    · next checked =>
      cases Option.some.inj stepped
      exact .begin idle checked
  · contradiction

theorem gatherStep {c : Nat} {deal : Deal} {pending : List PcEvent}
    (stepped : s.stepGather c deal pending = some t) :
    ∃ handler p, Negotiated deal p ∧ t = {s with handler := handler}.setCall c p := by
  simp only [stepGather] at stepped
  split at stepped
  · split at stepped
    all_goals
      cases Option.some.inj stepped
      exact ⟨_,_,.goes _ _,rfl⟩
  · split at stepped
    · cases Option.some.inj stepped
      exact ⟨s.handler,_,.fails _,rfl⟩
    · contradiction

theorem negotiationStep {c : Nat} {stage : Stage} {deal : Deal} {pending : List PcEvent}
    {reply : Reply} (stepped : s.stepNegotiation c stage deal pending reply = some t) :
    ∃ handler p, Negotiated deal p ∧ t = {s with handler := handler}.setCall c p := by
  unfold stepNegotiation at stepped
  split at stepped
  · exact gatherStep stepped
  · cases Option.some.inj stepped
    exact ⟨s.handler,_,.goes _ _,rfl⟩
  · contradiction
  · cases Option.some.inj stepped
    unfold stepCollect
    split
    · exact ⟨s.handler,_,.fails _,rfl⟩
    · split
      · exact ⟨s.handler,_,.discards,rfl⟩
      · exact ⟨s.handler,_,.installs _ _,rfl⟩
  · contradiction
  · cases Option.some.inj stepped
    exact ⟨s.handler,_,.goes _ _,rfl⟩
  · cases Option.some.inj stepped
    exact ⟨s.handler,_,.fails _,rfl⟩
  · contradiction

theorem callStep {c : Nat} {reply : Reply} (stepped : s.stepCall c reply = some t) :
    CallStep s c reply t := by
  unfold stepCall at stepped
  split at stepped
  · next at' =>
    split at stepped
    · next old found =>
      cases Option.some.inj stepped
      exact .take old at' found
    · next empty =>
      cases Option.some.inj stepped
      exact .pass at' empty
  · next old at' =>
    cases Option.some.inj stepped
    exact .disconnect old at'
  · next old at' =>
    cases Option.some.inj stepped
    exact .clear old at'
  · next old emits at' =>
    cases Option.some.inj stepped
    exact .release old emits at'
  · next old at' =>
    cases Option.some.inj stepped
    exact .close old at'
  · next at' =>
    cases Option.some.inj stepped
    exact .allocate at'
  · next n at' =>
    cases Option.some.inj stepped
    exact .allocatePort n at'
  · next n port at' =>
    split at stepped
    · cases Option.some.inj stepped
      exact .locate n port _ at'
    · split at stepped
      · cases Option.some.inj stepped
        exact .locate n port _ at'
      · cases Option.some.inj stepped
        exact .detect n port at'
  · next n port ip at' =>
    cases Option.some.inj stepped
    exact .detected n port ip at'
  · next n port at' =>
    cases Option.some.inj stepped
    exact .undetected n port at'
  · next n port ip at' =>
    cases Option.some.inj stepped
    exact .cache n port ip at'
  · next stage deal pending at' =>
    obtain ⟨handler,p,leads,same⟩ := negotiationStep stepped
    subst same
    exact .negotiate stage deal pending _ handler p at' leads
  · next deal at' =>
    cases Option.some.inj stepped
    exact .discard deal at'
  · next deal pending answer at' =>
    cases Option.some.inj stepped
    exact .install deal pending answer at'
  · next deal pending answer at' =>
    cases Option.some.inj stepped
    exact .activate deal pending answer at'
  · next deal pending answer at' =>
    cases Option.some.inj stepped
    exact .spawn deal pending answer at'
  · contradiction

theorem receiveExact (s : Server) (n : Nat) (ev : PcEvent) :
    s.receive n ev = s.setTask n (received ev) := by
  cases ev with
  | connection state => cases state <;> rfl
  | gathering state => rfl
  | dataChannel label => rfl

theorem taskStep {n : Nat} {emits : Emits} (stepped : s.stepTask n emits = some t) :
    TaskStep s n emits t := by
  unfold stepTask at stepped
  split at stepped
  · contradiction
  · next at' =>
    split at stepped
    · next ev rest next =>
      cases Option.some.inj stepped
      rw [receiveExact]
      exact .receive ev rest at' next
    · split at stepped
      · next ended =>
        cases Option.some.inj stepped
        exact .finish at' ended
      · contradiction
  · next at' =>
    split at stepped
    · next other =>
      cases Option.some.inj stepped
      exact .refuse at' other
    · next active =>
      cases Option.some.inj stepped
      exact .pass at' (Decidable.of_not_not active)
  · next at' =>
    cases Option.some.inj stepped
    exact .storeBitrate at'
  · next at' =>
    cases Option.some.inj stepped
    exact .installSink at'
  · next at' =>
    cases Option.some.inj stepped
    exact .requestKeyframe at'
  · next at' =>
    cases Option.some.inj stepped
    exact .storeConnected at'
  · next at' =>
    cases Option.some.inj stepped
    exact .interrupt at'
  · next label at' =>
    cases Option.some.inj stepped
    exact .openChannel label at'
  · next at' =>
    split at stepped
    · next active =>
      cases Option.some.inj stepped
      exact .tearDown at' active
    · next other =>
      cases Option.some.inj stepped
      exact .skip at' other
  · next at' =>
    cases Option.some.inj stepped
    exact .disconnect at'
  · next at' =>
    cases Option.some.inj stepped
    exact .clear at'
  · next at' =>
    cases Option.some.inj stepped
    exact .release at'
  · next at' =>
    cases Option.some.inj stepped
    exact .vacate at'
  · next at' =>
    cases Option.some.inj stepped
    exact .close at'
  · contradiction

theorem mergeStep {n : Nat} (stepped : s.stepMerge n = some t) : ∃ handler merges events,
    t = {s with
      handler := handler
      merges := merges
      events := events} := by
  simp only [stepMerge] at stepped
  split at stepped
  · cases Option.some.inj stepped
    split <;> exact ⟨_,_,_,rfl⟩
  · cases Option.some.inj stepped
    exact ⟨_,_,_,rfl⟩
  · split at stepped
    · cases Option.some.inj stepped
      split <;> exact ⟨_,_,_,rfl⟩
    · split at stepped
      · cases Option.some.inj stepped
        exact ⟨_,_,_,rfl⟩
      · contradiction
  · contradiction
  · contradiction

theorem eventStep {n : Nat} {ev : PcEvent} (stepped : s.step (.event n ev) = some t) :
    ∃ handler, t = {s with handler := handler} := by
  simp only [step] at stepped
  split at stepped
  · contradiction
  · exact ⟨_,(Option.some.inj stepped).symm⟩

theorem rtcpStep {n : Nat} {packets : List RtcpPacket} (stepped : s.stepRtcp n packets = some t) :
    t = s ∨ t = s.setShared (s.shared.storeForce true) := by
  unfold stepRtcp at stepped
  split at stepped
  · contradiction
  · contradiction
  · split at stepped
    · exact Or.inr (Option.some.inj stepped).symm
    · exact Or.inl (Option.some.inj stepped).symm

theorem channelStep {r : Nat} {ev : ChannelEvent} (stepped : s.stepChannel r ev = some t) :
    ChannelStep s r ev t := by
  obtain ⟨reader,here,moved⟩ := Option.bind_eq_some_iff.mp stepped
  split at moved
  · next data at' =>
    cases Option.some.inj moved
    exact .deliver reader data here at'
  · next at' =>
    cases Option.some.inj moved
    exact .stop reader _ here at'
  · next at' =>
    cases Option.some.inj moved
    exact .stop reader _ here at'
  · next at' =>
    cases Option.some.inj moved
    exact .stop reader _ here at'
  · cases Option.some.inj moved
    exact .ignore _
  · cases Option.some.inj moved
    exact .ignore _
  · contradiction

theorem readerStep {r : Nat} {emits : Emits} (stepped : s.stepReader r emits = some t) :
    ReaderStep s r emits t := by
  obtain ⟨reader,here,moved⟩ := Option.bind_eq_some_iff.mp stepped
  split at moved
  · next data at' =>
    split at moved
    · next other =>
      cases Option.some.inj moved
      exact .refuse reader data here at' other
    · next active =>
      cases Option.some.inj moved
      exact .enter reader data here at' (Decidable.of_not_not active)
  · next data at' =>
    cases Option.some.inj moved
    exact .act reader data here at'
  · contradiction
  · contradiction

end Cases
end Server
end Vmdesk
