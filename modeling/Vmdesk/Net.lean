import Vmdesk.App
import Vmdesk.DecodeThread
import Vmdesk.Session

/-! The client's network loop with its two queues of keyframe requests, the task behind the
control channel, the readers of the video tracks and the decode thread, from the answer on. A
step is one access to what they share or one await. What the stack, the user and the scheduler
decide stands in the label, and the clock readings of a run never go back. -/
namespace Vmdesk
open Session (ConnectionState GatheringState ChannelEvent)

namespace Net

/- A track comes with what asking for its first SSRC will give. -/
inductive PcEvent where
  | connection (state : ConnectionState)
  | ice
  | gathering (state : GatheringState)
  | track (ssrc : Option UInt32)
  deriving DecidableEq, Repr

/- 250 ms -/
def pliInterval : Nat := 250000000

def protocolVersion : UInt16 := 1

def unitLimit : Nat := 32

inductive ChannelState where | connecting | opened | closed
  deriving DecidableEq, Repr

inductive GreetPhase where
  | polling
  | greeting
  | asking (kbps : UInt32)
  | ended
  deriving DecidableEq, Repr

inductive LoopPhase where
  | draining
  | selecting
  | requesting
  | controlling (m : ControlMessage)
  | mousing (m : MouseMove)
  | leaving
  | closing
  | gone (result : Except String Unit)
  deriving DecidableEq

inductive Sender where | task | loop
  deriving DecidableEq, Repr

inductive Branch where
  | drain
  | event
  | command
  | mouseTick
  | decoderRequest (now : Int)
  | keyframe (now : Int)
  | pliSent (now : Int)
  | proceed
  deriving DecidableEq, Repr

inductive Label where
  | ui (cmd : UiCommand)
  | uiGone
  | event (ev : PcEvent)
  | driverGone
  | opens
  | channel (ev : ChannelEvent)
  | greet
  | loop (branch : Branch)
  | sample (now : Int)
  | trackEnded
  | receive
  | decoded (d : VideoDecoder.Decoded) (now again : Int) (created : Bool)
  deriving DecidableEq

end Net

open Net

/- `taken`, `moves` and `sent` only record what happened: the commands taken from the queue, the
positions handed to the mouse channel and the messages that went out on the control channel. So
do `pliAt`, the last request sent to the server, and the last times a unit was dropped and a
decode failed. -/
structure Net where
  bitrateKbps : Option UInt32
  clock : Int
  phase : LoopPhase
  pending : List Net.PcEvent
  events : List Net.PcEvent
  driverGone : Bool
  ui : List UiCommand
  uiGone : Bool
  video : Option UInt32
  connected : Bool
  lastPli : Int
  latestMouse : Option MouseMove
  requests : Nat
  keyframes : Nat
  channel : ChannelState
  inbox : List ChannelEvent
  greet : GreetPhase
  tracks : Nat
  units : Nat
  decode : DecodeThread
  taken : List UiCommand
  moves : List MouseMove
  sent : List (Sender × ControlMessage)
  pliAt : Option Int
  dropAt : Option Int
  errorAt : Option Int

namespace Net

/- The client once the answer is set. `pending` is what gathering has put aside, and the user may
have been busy already. -/
def initial (bitrateKbps : Option UInt32) (now : Int) (pending : List PcEvent)
    (decode : DecodeThread) : Net where
  bitrateKbps := bitrateKbps
  clock := now
  phase := .draining
  pending := pending
  events := []
  driverGone := false
  ui := []
  uiGone := false
  video := none
  connected := false
  lastPli := now - pliInterval
  latestMouse := none
  requests := 0
  keyframes := 0
  channel := .connecting
  inbox := []
  greet := .polling
  tracks := 0
  units := 0
  decode := decode
  taken := []
  moves := []
  sent := []
  pliAt := none
  dropAt := none
  errorAt := none

def goto (n : Net) (phase : LoopPhase) : Net := {n with phase := phase}

/- A send fails, without a trace, unless the channel is open. -/
def send (n : Net) (sender : Sender) (m : ControlMessage) : Net :=
  if n.channel = .opened then {n with sent := n.sent ++ [(sender,m)]} else n

def lostMessage (connected : Bool) : String :=
  if connected then "connection lost (ICE failed)"
  else "could not connect: ICE failed. Check the OCI security list and iptables (UDP 50000-50100) and run `server doctor` on the VM"

/- `true` when a new video track appeared. -/
def onEvent (n : Net) : PcEvent → Except String (Net × Bool)
  | .connection .connected => .ok ({n with connected := true},false)
  | .connection .failed => .error (lostMessage n.connected)
  | .connection .closed => .error "connection closed by server"
  | .connection _ | .ice | .gathering _ => .ok (n,false)
  | .track ssrc => .ok ({n with
      video := ssrc.or n.video
      tracks := n.tracks + 1},true)

def handleEvent (n : Net) (ev : PcEvent) : Net := match n.onEvent ev with
  | .error e => n.goto (.gone (.error e))
  | .ok (n,fresh) => if fresh && n.video.isSome then n.goto .requesting else n

def handleRequest (n : Net) (now : Int) : Net :=
  if n.video.isSome ∧ pliInterval ≤ elapsed n.lastPli now then n.goto .requesting else n

def stepLoop (n : Net) (branch : Branch) : Option Net := match n.phase,branch with
  | .draining,.drain => match n.pending with
      | [] => some (n.goto .selecting)
      | ev::rest => some ({n with pending := rest}.handleEvent ev)
  | .selecting,.event => match n.events with
      | ev::rest => some ({n with events := rest}.handleEvent ev)
      | [] => if n.driverGone
          then some (n.goto (.gone (.error "peer connection driver stopped"))) else none
  | .selecting,.command => match n.ui with
      | cmd::rest =>
          let n := {n with ui := rest, taken := n.taken ++ [cmd]}
          match cmd with
          | .control m => some (n.goto (.controlling m))
          | .mouse m => some {n with latestMouse := some m}
          | .quit => some (n.goto .leaving)
      | [] => if n.uiGone then some (n.goto .leaving) else none
  | .selecting,.mouseTick => match n.latestMouse with
      | some m => some ({n with latestMouse := none}.goto (.mousing m))
      | none => some n
  | .selecting,.decoderRequest now =>
      if n.requests = 0 ∨ now < n.clock then none
      else some ({n with requests := n.requests - 1, clock := now}.handleRequest now)
  | .selecting,.keyframe now =>
      if n.keyframes = 0 ∨ now < n.clock then none
      else some ({n with keyframes := n.keyframes - 1, clock := now}.handleRequest now)
  | .requesting,.pliSent now =>
      if now < n.clock then none
      else some {n with
        phase := if n.pending = [] then .selecting else .draining
        clock := now
        lastPli := now
        pliAt := some now}
  | .controlling m,.proceed => some ((n.send .loop m).goto .selecting)
  | .mousing m,.proceed => some ({n with moves := n.moves ++ [m]}.goto .selecting)
  | .leaving,.proceed => some ((n.send .loop .releaseAll).goto .closing)
  | .closing,.proceed => some ({n with channel := .closed}.goto (.gone (.ok ())))
  | _,_ => none

def isGone (n : Net) : Bool := match n.phase with
  | .gone _ => true
  | _ => false

def stepGreet (n : Net) : Option Net := if n.isGone then none else match n.greet with
  | .polling => match n.inbox with
      | ev::rest =>
          let n := {n with inbox := rest}
          match ev with
          | .onOpen => some {n with greet := .greeting}
          | .onClose | .onError | .finished => some {n with greet := .ended}
          | .onMessage _ | .other => some n
      | [] => none
  | .greeting => some {n.send .task (.hello protocolVersion) with
      greet := match n.bitrateKbps with
        | some kbps => .asking kbps
        | none => .polling}
  | .asking kbps => some {n.send .task (.setBitrate kbps) with greet := .polling}
  | .ended => none

def stepOpens (n : Net) : Option Net :=
  if n.channel = .connecting
  then some {n with channel := .opened, inbox := n.inbox ++ [.onOpen]} else none

def stepChannel (n : Net) (ev : ChannelEvent) : Option Net := match ev with
  | .onOpen => none
  | .onClose | .onError | .finished =>
      some {n with channel := .closed, inbox := n.inbox ++ [ev]}
  | .onMessage _ | .other => some {n with inbox := n.inbox ++ [ev]}

/- A reader hands over one access unit. If it finds no room it asks for a keyframe instead. -/
def stepSample (n : Net) (now : Int) : Option Net :=
  if n.tracks = 0 ∨ now < n.clock then none
  else if n.decode.phase = .gone then some {n with tracks := n.tracks - 1, clock := now}
  else if n.units < unitLimit then some {n with units := n.units + 1, clock := now}
  else some {n with keyframes := n.keyframes + 1, clock := now, dropAt := some now}

/- The decode thread takes the next unit, and stops when nobody can send another. -/
def stepReceive (n : Net) : Option Net :=
  if n.decode.phase ≠ .waiting then none
  else if 0 < n.units
  then some {n with units := n.units - 1, decode := {n.decode with phase := .decoding}}
  else if n.isGone ∧ n.tracks = 0 then some {n with decode := {n.decode with phase := .gone}}
  else none

def stepDecoded (n : Net) (d : VideoDecoder.Decoded) (now again : Int) (created : Bool) :
    Option Net :=
  if n.decode.phase ≠ .decoding ∨ now < n.clock ∨ again < now then none else do
    let (decode,asked) ← n.decode.decoded d now again created
    some {n with
      decode := decode
      clock := again
      requests := if asked then n.requests + 1 else n.requests
      errorAt := if d.result = .ok then n.errorAt else some now}

def step (n : Net) : Label → Option Net
  | .ui cmd => if n.uiGone then none else some {n with ui := n.ui ++ [cmd]}
  | .uiGone => some {n with uiGone := true}
  | .event ev => if n.driverGone then none else some {n with events := n.events ++ [ev]}
  | .driverGone => some {n with driverGone := true}
  | .opens => n.stepOpens
  | .channel ev => n.stepChannel ev
  | .greet => n.stepGreet
  | .loop branch => n.stepLoop branch
  | .sample now => n.stepSample now
  | .trackEnded => if n.tracks = 0 then none else some {n with tracks := n.tracks - 1}
  | .receive => n.stepReceive
  | .decoded d now again created => n.stepDecoded d now again created

end Net
end Vmdesk
