import Mathlib.Logic.Function.Basic
import Vmdesk.Sdp
import Vmdesk.Shared
import Vmdesk.Uinput

/-! The session layer of the server: any number of `accept_offer` calls, the task of each
session, the task that feeds it events and the readers of its data channels. A step is one
access to what they share or one await. What the stack, the client and the scheduler decide
stands in the label. A peer connection is known by the id of its session. -/
namespace Vmdesk
open LittleEndian (Bytes)

namespace Session

def controlChannel : Text := "control".toList
def mouseChannel : Text := "mouse".toList

inductive SessionError where
  | badOffer (message : String)
  | internal (message : String)
  deriving DecidableEq, Repr

inductive ConnectionState where
  | unspecified | new | connecting | connected | disconnected | failed | closed
  deriving DecidableEq, Repr

inductive GatheringState where | unspecified | new | gathering | complete
  deriving DecidableEq, Repr

/- A data channel comes with what asking for its label will give. -/
inductive PcEvent where
  | connection (state : ConnectionState)
  | gathering (state : GatheringState)
  | dataChannel (label : Option Text)
  deriving DecidableEq, Repr

inductive Stage where
  | registering | intercepting | building | tracking | adding | parsing | describing
  | answering | settling | gathering | collecting
  deriving DecidableEq, Repr

structure Deal where
  session : Nat
  port : UInt16
  publicIp : Option Text
  deriving DecidableEq, Repr

namespace Stage

def next : Stage → Stage
  | registering => intercepting
  | intercepting => building
  | building => tracking
  | tracking => adding
  | adding => parsing
  | parsing => describing
  | describing => answering
  | answering => settling
  | settling => gathering
  | gathering | collecting => collecting

def failure (stage : Stage) (deal : Deal) (cause : String) : SessionError := match stage with
  | registering => .internal "registering H264"
  | intercepting => .internal "default interceptors"
  | building => .internal
      ("creating peer connection on UDP port " ++ toString deal.port.toNat)
  | tracking => .internal "creating video track"
  | adding => .internal "adding video track"
  | parsing => .badOffer ("unparseable SDP: " ++ cause)
  | describing => .badOffer ("set_remote_description: " ++ cause)
  | answering => .internal "create_answer"
  | settling => .internal "set_local_description"
  | gathering => .internal "peer connection driver stopped during gathering"
  | collecting => .internal "no local description after create_answer"

end Stage

def noCandidates (deal : Deal) : SessionError := .internal
  ("no ICE candidates gathered on UDP port " ++ toString deal.port.toNat ++
    "; is the port free and does the VM have a non-loopback IPv4 interface?")

inductive Phase where
  | idle
  | taking
  | disconnecting (old : Nat)
  | clearing (old : Nat)
  | releasing (old : Nat)
  | closing (old : Nat)
  | allocating
  | allocatingPort (session : Nat)
  | lookingUp (session : Nat) (port : UInt16)
  | detecting (session : Nat) (port : UInt16)
  | caching (session : Nat) (port : UInt16) (ip : Text)
  | negotiating (stage : Stage) (deal : Deal) (pending : List PcEvent)
  | discarding (deal : Deal)
  | installing (deal : Deal) (pending : List PcEvent) (answer : Text)
  | activating (deal : Deal) (pending : List PcEvent) (answer : Text)
  | spawning (deal : Deal) (pending : List PcEvent) (answer : Text)
  | finished (result : Except SessionError Text)
  deriving DecidableEq

inductive Reply where
  | proceeds
  | fails (cause : String)
  | released (emits : Emits)
  | detected (ip : Option Text)
  | timedOut
  | described (sdp : Option Text)
  deriving DecidableEq

inductive TaskPhase where
  | absent
  | waiting
  | connecting
  | storingBitrate
  | installingSink
  | requestingKeyframe
  | storingConnected
  | disconnected
  | opening (label : Option Text)
  | leaving
  | clearingConnected
  | clearingSink
  | releasing
  | clearingCurrent
  | closing
  | ended
  deriving DecidableEq, Repr

structure Task where
  phase : TaskPhase
  connected : Bool
  deriving DecidableEq, Repr

/- The task behind `merge_events`: first what gathering had put aside, then the handler's
own channel. -/
inductive Merge where
  | absent
  | replaying (pending : List PcEvent)
  | forwarding
  | ended
  deriving DecidableEq, Repr

inductive ChannelEvent where
  | onOpen
  | onClose
  | onError
  | onMessage (data : Bytes)
  | other
  | finished
  deriving DecidableEq, Repr

inductive ReaderPhase where
  | polling
  | received (data : Bytes)
  | admitted (data : Bytes)
  | ended
  deriving DecidableEq, Repr

structure Reader where
  session : Nat
  isControl : Bool
  phase : ReaderPhase
  deriving DecidableEq, Repr

inductive RtcpPacket where | pictureLossIndication | fullIntraRequest | other
  deriving DecidableEq, Repr

def isKeyframeRequest : RtcpPacket → Bool
  | .pictureLossIndication | .fullIntraRequest => true
  | .other => false

inductive Label where
  | offer (c : Nat) (sdp : Text)
  | call (c : Nat) (reply : Reply)
  | event (n : Nat) (ev : PcEvent)
  | stop (n : Nat)
  | merge (n : Nat)
  | task (n : Nat) (emits : Emits)
  | rtcp (n : Nat) (packets : List RtcpPacket)
  | channel (r : Nat) (ev : ChannelEvent)
  | reader (r : Nat) (emits : Emits)
  deriving DecidableEq

end Session

open Session

/- `retired` and `requested` only record what happened: a session whose end has released the
input, and the last bitrate a session has stored on request. -/
structure Server where
  config : Config
  shared : Shared
  input : UinputSink
  publicIp : Option Text
  nextPort : UInt16
  nextSession : Nat
  current : Option Nat
  calls : Nat → Phase
  tasks : Nat → Task
  handler : Nat → List PcEvent
  stopped : Nat → Bool
  merges : Nat → Merge
  events : Nat → List PcEvent
  closed : Nat → Bool
  readers : Nat → Option Reader
  nextReader : Nat
  retired : Nat → Bool
  requested : Nat → Option UInt32

namespace Server
open Function

def initial (config : Config) (publicIp : Option Text) : Server where
  config := config
  shared := .new config.video.bitrateKbps
  input := .fresh
  publicIp := publicIp
  nextPort := config.network.udpPortMin
  nextSession := 1
  current := none
  calls := fun _ => .idle
  tasks := fun _ => ⟨.absent,false⟩
  handler := fun _ => []
  stopped := fun _ => false
  merges := fun _ => .absent
  events := fun _ => []
  closed := fun _ => false
  readers := fun _ => none
  nextReader := 0
  retired := fun n => n == 0
  requested := fun _ => none

def setCall (s : Server) (c : Nat) (p : Phase) : Server := {s with calls := update s.calls c p}

def setTask (s : Server) (n : Nat) (p : TaskPhase) : Server :=
  {s with tasks := update s.tasks n {s.tasks n with phase := p}}

def setReader (s : Server) (r : Nat) (reader : Reader) (p : ReaderPhase) : Server :=
  {s with readers := update s.readers r (some {reader with phase := p})}

def setShared (s : Server) (shared : Shared) : Server := {s with shared := shared}

def close (s : Server) (n : Nat) : Server := {s with closed := update s.closed n true}

/- Errors are logged only. -/
def releaseInput (s : Server) (emits : Emits) : Server :=
  {s with input := (s.input.releaseAll emits).1}

def retire (s : Server) (n : Nat) : Server := {s with retired := update s.retired n true}

def allocatePort (s : Server) : UInt16 × Server :=
  let min := s.config.network.udpPortMin
  let max := s.config.network.udpPortMax
  let port := if s.nextPort < min then min else if max < s.nextPort then max else s.nextPort
  (port,{s with nextPort := if max ≤ port then min else port + 1})

def checkOffer (sdp : Text) : Option SessionError :=
  if !Sdp.hasMedia sdp "video".toList then
    some (.badOffer "offer has no video media section")
  else if !Sdp.hasMedia sdp "application".toList then
    some (.badOffer "offer has no data channel (application) media section")
  else none

def stepOffer (s : Server) (c : Nat) (sdp : Text) : Option Server := match s.calls c with
  | .idle => match checkOffer sdp with
      | some e => some (s.setCall c (.finished (.error e)))
      | none => some (s.setCall c .taking)
  | _ => none

def stepGather (s : Server) (c : Nat) (deal : Deal) (pending : List PcEvent) : Option Server :=
  let n := deal.session
  match s.handler n with
  | ev::rest =>
      let s := {s with handler := update s.handler n rest}
      match ev with
      | .gathering .complete => some (s.setCall c (.negotiating .collecting deal pending))
      | .gathering _ => some (s.setCall c (.negotiating .gathering deal pending))
      | ev => some (s.setCall c (.negotiating .gathering deal (pending ++ [ev])))
  | [] => if s.stopped n
      then some (s.setCall c (.finished (.error (Stage.gathering.failure deal ""))))
      else none

def stepCollect (s : Server) (c : Nat) (deal : Deal) (pending : List PcEvent) :
    Option Text → Server
  | none => s.setCall c (.finished (.error (Stage.collecting.failure deal "")))
  | some sdp => if Sdp.candidateCount sdp = 0 then s.setCall c (.discarding deal)
      else s.setCall c (.installing deal pending (match deal.publicIp with
        | some ip => Sdp.rewriteHostCandidates sdp ip
        | none => sdp))

def stepNegotiation (s : Server) (c : Nat) (stage : Stage) (deal : Deal)
    (pending : List PcEvent) (reply : Reply) : Option Server := match stage,reply with
  | .gathering,.proceeds => s.stepGather c deal pending
  | .gathering,.timedOut => some (s.setCall c (.negotiating .collecting deal pending))
  | .gathering,_ => none
  | .collecting,.described sdp => some (s.stepCollect c deal pending sdp)
  | .collecting,_ => none
  | stage,.proceeds => some (s.setCall c (.negotiating stage.next deal pending))
  | stage,.fails cause => some (s.setCall c (.finished (.error (stage.failure deal cause))))
  | _,_ => none

def stepCall (s : Server) (c : Nat) (reply : Reply) : Option Server := match s.calls c,reply with
  | .taking,.proceeds => match s.current with
      | some old => some ({s with current := none}.setCall c (.disconnecting old))
      | none => some (s.setCall c .allocating)
  | .disconnecting old,.proceeds =>
      some ((s.setShared (s.shared.storeConnected false)).setCall c (.clearing old))
  | .clearing old,.proceeds =>
      some ((s.setShared s.shared.clearSink).setCall c (.releasing old))
  | .releasing old,.released emits =>
      some (((s.releaseInput emits).retire old).setCall c (.closing old))
  | .closing old,.proceeds => some ((s.close old).setCall c .allocating)
  | .allocating,.proceeds =>
      some ({s with nextSession := s.nextSession + 1}.setCall c (.allocatingPort s.nextSession))
  | .allocatingPort n,.proceeds =>
      let (port,s) := s.allocatePort
      some (s.setCall c (.lookingUp n port))
  | .lookingUp n port,.proceeds =>
      if !s.config.network.publicIp.isEmpty
      then some (s.setCall c
        (.negotiating .registering ⟨n,port,some s.config.network.publicIp⟩ []))
      else match s.publicIp with
        | some ip => some (s.setCall c (.negotiating .registering ⟨n,port,some ip⟩ []))
        | none => some (s.setCall c (.detecting n port))
  | .detecting n port,.detected (some ip) => some (s.setCall c (.caching n port ip))
  | .detecting n port,.detected none =>
      some (s.setCall c (.negotiating .registering ⟨n,port,none⟩ []))
  | .caching n port ip,.proceeds => some ({s with publicIp := some ip}.setCall c
      (.negotiating .registering ⟨n,port,some ip⟩ []))
  | .negotiating stage deal pending,reply => s.stepNegotiation c stage deal pending reply
  | .discarding deal,.proceeds =>
      some ((s.close deal.session).setCall c (.finished (.error (noCandidates deal))))
  | .installing deal pending answer,.proceeds =>
      some ({s with current := some deal.session}.setCall c (.activating deal pending answer))
  | .activating deal pending answer,.proceeds =>
      some ((s.setShared (s.shared.storeActive deal.session)).setCall c
        (.spawning deal pending answer))
  | .spawning deal pending answer,.proceeds => some ({s with
        tasks := update s.tasks deal.session ⟨.waiting,false⟩
        merges := update s.merges deal.session (.replaying pending)}.setCall c
      (.finished (.ok answer)))
  | _,_ => none

/- Sending fails once the session task is gone and its end of the channel with it. -/
def stepMerge (s : Server) (n : Nat) : Option Server :=
  let send (s : Server) (ev : PcEvent) (m : Merge) : Server :=
    if (s.tasks n).phase = .ended then {s with merges := update s.merges n .ended}
    else {s with
      events := update s.events n (s.events n ++ [ev])
      merges := update s.merges n m}
  match s.merges n with
  | .replaying (ev::rest) => some (send s ev (.replaying rest))
  | .replaying [] => some {s with merges := update s.merges n .forwarding}
  | .forwarding => match s.handler n with
      | ev::rest => some (send {s with handler := update s.handler n rest} ev .forwarding)
      | [] => if s.stopped n then some {s with merges := update s.merges n .ended} else none
  | .absent | .ended => none

/- A reader starts with a known label only; any other channel is ignored. -/
def openReader (s : Server) (n : Nat) (label : Text) : Server :=
  let isControl := label == controlChannel
  if isControl || label == mouseChannel
  then {s with
    readers := update s.readers s.nextReader (some ⟨n,isControl,.polling⟩)
    nextReader := s.nextReader + 1}
  else s

def receive (s : Server) (n : Nat) : PcEvent → Server
  | .connection .connected => s.setTask n .connecting
  | .connection .disconnected => s.setTask n .disconnected
  | .connection .failed | .connection .closed => s.setTask n .leaving
  | .connection _ => s.setTask n .waiting
  | .dataChannel label => s.setTask n (.opening label)
  | .gathering _ => s.setTask n .waiting

def stepTask (s : Server) (n : Nat) (emits : Emits) : Option Server := match (s.tasks n).phase with
  | .absent => none
  | .waiting => match s.events n with
      | ev::rest => some (receive {s with events := update s.events n rest} n ev)
      | [] => if s.merges n = .ended then some (s.setTask n .leaving) else none
  | .connecting =>
      if s.shared.activeSession ≠ n then some (s.setTask n .leaving)
      else some (s.setTask n .storingBitrate)
  | .storingBitrate => some ((s.setShared (s.shared.storeBitrate s.config.video.bitrateKbps)).setTask
      n .installingSink)
  | .installingSink => some ((s.setShared (s.shared.installSink n)).setTask n .requestingKeyframe)
  | .requestingKeyframe => some ((s.setShared (s.shared.storeForce true)).setTask n .storingConnected)
  | .storingConnected => some {s.setShared (s.shared.storeConnected true) with
      tasks := update s.tasks n ⟨.waiting,true⟩}
  | .disconnected => some ((s.releaseInput emits).setTask n .waiting)
  | .opening label => some ((s.openReader n (label.getD [])).setTask n .waiting)
  | .leaving =>
      if s.shared.activeSession = n then some (s.setTask n .clearingConnected)
      else some (s.setTask n .closing)
  | .clearingConnected =>
      some ((s.setShared (s.shared.storeConnected false)).setTask n .clearingSink)
  | .clearingSink => some ((s.setShared s.shared.clearSink).setTask n .releasing)
  | .releasing => some (((s.releaseInput emits).retire n).setTask n .clearingCurrent)
  | .clearingCurrent =>
      some ({s with current := if s.current = some n then none else s.current}.setTask n .closing)
  | .closing => some ((s.close n).setTask n .ended)
  | .ended => none

def stepRtcp (s : Server) (n : Nat) (packets : List RtcpPacket) : Option Server :=
  match (s.tasks n).phase with
  | .absent | .ended => none
  | _ => if packets.any isKeyframeRequest then some (s.setShared (s.shared.storeForce true))
      else some s

def stepChannel (s : Server) (r : Nat) (ev : ChannelEvent) : Option Server := do
  let reader ← s.readers r
  match reader.phase,ev with
  | .polling,.onMessage data => some (s.setReader r reader (.received data))
  | .polling,.onClose | .polling,.onError | .polling,.finished =>
      some (s.setReader r reader .ended)
  | .polling,.onOpen | .polling,.other => some s
  | _,_ => none

def inject (s : Server) (event : InputEvent) (emits : Emits) : Server :=
  {s with input := (s.input.handle event emits).1}

/- `kbps.clamp(200, 100_000)` -/
def clampBitrate (kbps : UInt32) : UInt32 :=
  if kbps < 200 then 200 else if 100000 < kbps then 100000 else kbps

/- What an admitted message does. Decoding never indexes out of bounds, so the outcome
without a result is never taken. -/
def act (s : Server) (reader : Reader) (data : Bytes) (emits : Emits) : Server :=
  if reader.isControl then match (ControlMessage.decode data).run with
    | some (.ok (.hello _)) => s
    | some (.ok (.setBitrate kbps)) =>
        {s.setShared (s.shared.storeBitrate (clampBitrate kbps)) with
          requested := update s.requested reader.session (some kbps)}
    | some (.ok m) => s.inject (.control m) emits
    | some (.error _) | none => s
  else match (MouseMove.decode data).run with
    | some (.ok m) => s.inject (.mouse m) emits
    | some (.error _) | none => s

def stepReader (s : Server) (r : Nat) (emits : Emits) : Option Server := do
  let reader ← s.readers r
  match reader.phase with
  | .received data =>
      if s.shared.activeSession ≠ reader.session then some (s.setReader r reader .polling)
      else some (s.setReader r reader (.admitted data))
  | .admitted data => some ((s.act reader data emits).setReader r reader .polling)
  | .polling | .ended => none

def step (s : Server) : Label → Option Server
  | .offer c sdp => s.stepOffer c sdp
  | .call c reply => s.stepCall c reply
  | .event n ev =>
      if s.stopped n then none
      else some {s with handler := update s.handler n (s.handler n ++ [ev])}
  | .stop n => some {s with stopped := update s.stopped n true}
  | .merge n => s.stepMerge n
  | .task n emits => s.stepTask n emits
  | .rtcp n packets => s.stepRtcp n packets
  | .channel r ev => s.stepChannel r ev
  | .reader r emits => s.stepReader r emits

end Server
end Vmdesk
