import Vmdesk.Runs
import Vmdesk.Session

/-! The interceptor behind the default ones. Of the RTCP that comes in it lets keyframe requests
through and nothing else; all other packets pass in both directions. -/
namespace Vmdesk
open Session (RtcpPacket isKeyframeRequest)

namespace RtcpForward

inductive Packet (ρ : Type) where
  | rtp (packet : ρ)
  | rtcp (packets : List RtcpPacket)
  deriving DecidableEq, Repr

/- `rest` is whatever else a packet is tagged with. -/
structure TaggedPacket (ρ α : Type) where
  packet : Packet ρ
  deliverToApplication : Bool
  rest : α
  deriving DecidableEq, Repr

inductive Label (ρ α : Type) where
  | handleRead (msg : TaggedPacket ρ α)
  | pollRead
  | handleWrite (msg : TaggedPacket ρ α)
  | pollWrite

def requests {ρ α : Type} (msgs : List (TaggedPacket ρ α)) : List RtcpPacket :=
  msgs.flatMap (fun msg => match msg.packet with
    | .rtcp packets => packets.filter isKeyframeRequest
    | .rtp _ => [])

end RtcpForward

open RtcpForward

structure KeyframeRequestForwarder (ρ α : Type) where
  readQueue : List (TaggedPacket ρ α)
  writeQueue : List (TaggedPacket ρ α)

namespace KeyframeRequestForwarder
variable {ρ α : Type}

def new : KeyframeRequestForwarder ρ α := ⟨[],[]⟩

def handleRead (f : KeyframeRequestForwarder ρ α) (msg : TaggedPacket ρ α) :
    KeyframeRequestForwarder ρ α := match msg.packet with
  | .rtcp packets =>
      let requests := packets.filter isKeyframeRequest
      if requests.isEmpty then f
      else {f with readQueue := f.readQueue ++
        [{msg with
          packet := .rtcp requests
          deliverToApplication := true}]}
  | .rtp _ => {f with readQueue := f.readQueue ++ [msg]}

def pollRead (f : KeyframeRequestForwarder ρ α) :
    Option (TaggedPacket ρ α) × KeyframeRequestForwarder ρ α :=
  (f.readQueue.head?,{f with readQueue := f.readQueue.tail})

def handleWrite (f : KeyframeRequestForwarder ρ α) (msg : TaggedPacket ρ α) :
    KeyframeRequestForwarder ρ α := {f with writeQueue := f.writeQueue ++ [msg]}

def pollWrite (f : KeyframeRequestForwarder ρ α) :
    Option (TaggedPacket ρ α) × KeyframeRequestForwarder ρ α :=
  (f.writeQueue.head?,{f with writeQueue := f.writeQueue.tail})

def step (f : KeyframeRequestForwarder ρ α) : Label ρ α → KeyframeRequestForwarder ρ α
  | .handleRead msg => f.handleRead msg
  | .pollRead => f.pollRead.2
  | .handleWrite msg => f.handleWrite msg
  | .pollWrite => f.pollWrite.2

def received : Label ρ α → Option (TaggedPacket ρ α)
  | .handleRead msg => some msg
  | .pollRead | .handleWrite _ | .pollWrite => none

def handed : Label ρ α → Option (TaggedPacket ρ α)
  | .handleWrite msg => some msg
  | .handleRead _ | .pollRead | .pollWrite => none

def delivered (f : KeyframeRequestForwarder ρ α) : Label ρ α → Option (TaggedPacket ρ α)
  | .pollRead => f.pollRead.1
  | .handleRead _ | .handleWrite _ | .pollWrite => none

def sent (f : KeyframeRequestForwarder ρ α) : Label ρ α → Option (TaggedPacket ρ α)
  | .pollWrite => f.pollWrite.1
  | .handleRead _ | .pollRead | .handleWrite _ => none

def forwarded (msg : TaggedPacket ρ α) : Option (TaggedPacket ρ α) := match msg.packet with
  | .rtcp packets => if packets.any isKeyframeRequest then some {msg with
      packet := .rtcp (packets.filter isKeyframeRequest)
      deliverToApplication := true} else none
  | .rtp _ => some msg

section Flow
variable (f : KeyframeRequestForwarder ρ α) (l : Label ρ α)

theorem popped {queue : List (TaggedPacket ρ α)} : queue.head?.toList ++ queue.tail = queue := by
  cases queue <;> rfl

theorem handleReadForwards (msg : TaggedPacket ρ α) :
    (f.handleRead msg).readQueue = f.readQueue ++ (forwarded msg).toList := by
  unfold handleRead forwarded
  split
  · next packets same =>
    cases asks : packets.any isKeyframeRequest with
    | true =>
      have some' : (packets.filter isKeyframeRequest).isEmpty = false := by
        obtain ⟨p,inside,holds⟩ := List.any_eq_true.mp asks
        exact List.isEmpty_eq_false_iff.mpr (List.ne_nil_of_mem (List.mem_filter.mpr ⟨inside,holds⟩))
      simp [some']
    | false =>
      have none' : packets.filter isKeyframeRequest = [] :=
        List.filter_eq_nil_iff.mpr (by simpa using asks)
      simp [none']
  · rfl

theorem handleReadWrites (msg : TaggedPacket ρ α) : (f.handleRead msg).writeQueue = f.writeQueue := by
  unfold handleRead
  split
  · simp only
    split <;> rfl
  · rfl

theorem readFlow : (delivered f l).toList ++ (f.step l).readQueue =
    f.readQueue ++ ((received l).bind forwarded).toList := by
  cases l with
  | handleRead msg => exact handleReadForwards f msg
  | pollRead => exact popped.trans (List.append_nil _).symm
  | handleWrite | pollWrite => exact (List.append_nil _).symm

theorem writeFlow : (sent f l).toList ++ (f.step l).writeQueue =
    f.writeQueue ++ (handed l).toList := by
  cases l with
  | handleRead msg => exact (handleReadWrites f msg).trans (List.append_nil _).symm
  | handleWrite msg => rfl
  | pollWrite => exact popped.trans (List.append_nil _).symm
  | pollRead => exact (List.append_nil _).symm

theorem requestsKept (msg : TaggedPacket ρ α) :
    requests (forwarded msg).toList = requests [msg] := by
  unfold forwarded
  split
  · next packets same =>
    split
    · simp [requests,same]
    · next quiet =>
      have none' : packets.filter isKeyframeRequest = [] :=
        List.filter_eq_nil_iff.mpr (by simpa using quiet)
      simp [requests,same,none']
  · next same => simp [requests,same]

theorem requestsAppend (left right : List (TaggedPacket ρ α)) :
    requests (left ++ right) = requests left ++ requests right := List.flatMap_append

theorem requestsForwarded (msgs : List (TaggedPacket ρ α)) :
    requests (msgs.filterMap forwarded) = requests msgs := by
  induction msgs with
  | nil => rfl
  | cons msg msgs ih =>
    have split' : (msg::msgs).filterMap forwarded =
        (forwarded msg).toList ++ msgs.filterMap forwarded := by
      cases known : forwarded msg <;> simp [known]
    calc requests ((msg::msgs).filterMap forwarded)
      _ = requests (forwarded msg).toList ++ requests (msgs.filterMap forwarded) := by
        rw [split',requestsAppend]
      _ = requests [msg] ++ requests msgs := by rw [requestsKept,ih]
      _ = requests (msg::msgs) := (requestsAppend [msg] msgs).symm

end Flow

def stepSome (f : KeyframeRequestForwarder ρ α) (l : Label ρ α) :
    Option (KeyframeRequestForwarder ρ α) := some (f.step l)

def passedOn (ls : List (Label ρ α)) : List (TaggedPacket ρ α) :=
  Runs.observed stepSome delivered new ls

def sentOut (ls : List (Label ρ α)) : List (TaggedPacket ρ α) := Runs.observed stepSome sent new ls

section Runs
variable (ls : List (Label ρ α))

theorem everyRun : Runs.run stepSome new ls = some (ls.foldl step new) := Runs.runTotal step new ls

theorem passedOnQueue : passedOn ls ++ (ls.foldl step new).readQueue =
    (ls.filterMap received).filterMap forwarded := by
  have all : Runs.Allowed stepSome (fun _ _ => True) (new : KeyframeRequestForwarder ρ α) ls :=
    Runs.allowedOf (fun _ _ _ => trivial)
  have reads : passedOn ls ++ (ls.foldl step new).readQueue =
      Runs.observed stepSome (fun _ l => (received l).bind forwarded) new ls :=
    Runs.observedAll (fun _ => True) trivial (fun _ _ _ _ _ _ => trivial)
      (fun f l t _ _ stepped => Option.some.inj stepped ▸ readFlow f l) all (everyRun ls)
  rw [reads,Runs.observedLabels _ (everyRun ls),List.filterMap_filterMap]

theorem sentOutQueue : sentOut ls ++ (ls.foldl step new).writeQueue = ls.filterMap handed := by
  have all : Runs.Allowed stepSome (fun _ _ => True) (new : KeyframeRequestForwarder ρ α) ls :=
    Runs.allowedOf (fun _ _ _ => trivial)
  have writes : sentOut ls ++ (ls.foldl step new).writeQueue =
      Runs.observed stepSome (fun _ l => handed l) new ls :=
    Runs.observedAll (fun _ => True) trivial (fun _ _ _ _ _ _ => trivial)
      (fun f l t _ _ stepped => Option.some.inj stepped ▸ writeFlow f l) all (everyRun ls)
  rw [writes,Runs.observedLabels _ (everyRun ls)]

theorem polledRead (f : KeyframeRequestForwarder ρ α) (k : Nat) :
    Runs.observed stepSome delivered f (List.replicate k .pollRead) = f.readQueue.take k := by
  induction k generalizing f with
  | zero => rfl
  | succ k ih =>
    rw [List.replicate_succ]
    simp only [Runs.observed,stepSome,step,delivered,pollRead,ih]
    cases f.readQueue <;> simp

theorem polledWrite (f : KeyframeRequestForwarder ρ α) (k : Nat) :
    Runs.observed stepSome sent f (List.replicate k .pollWrite) = f.writeQueue.take k := by
  induction k generalizing f with
  | zero => rfl
  | succ k ih =>
    rw [List.replicate_succ]
    simp only [Runs.observed,stepSome,step,sent,pollWrite,ih]
    cases f.writeQueue <;> simp

/- In every order of calls: what comes in comes out in its order, RTCP cut down to the keyframe
requests in it and without the packets that have none, and each further poll hands out one more of
it as long as there is one; no request is lost, and none is added. What goes out is passed on as it
is. -/
theorem forwardsExactly (k : Nat) :
    passedOn (ls ++ List.replicate k .pollRead) =
      ((ls.filterMap received).filterMap forwarded).take ((passedOn ls).length + k) ∧
    requests ((ls.filterMap received).filterMap forwarded) = requests (ls.filterMap received) ∧
    sentOut (ls ++ List.replicate k .pollWrite) =
      (ls.filterMap handed).take ((sentOut ls).length + k) := by
  refine ⟨?_,requestsForwarded _,?_⟩
  · calc passedOn (ls ++ List.replicate k .pollRead)
      _ = passedOn ls ++ (ls.foldl step new).readQueue.take k := by
        rw [passedOn,Runs.observedAppend (everyRun ls),polledRead]
        rfl
      _ = _ := by rw [← passedOnQueue,List.take_length_add_append]
  · calc sentOut (ls ++ List.replicate k .pollWrite)
      _ = sentOut ls ++ (ls.foldl step new).writeQueue.take k := by
        rw [sentOut,Runs.observedAppend (everyRun ls),polledWrite]
        rfl
      _ = _ := by rw [← sentOutQueue,List.take_length_add_append]

end Runs

def compound : List (Label Nat Unit) := [.handleRead ⟨.rtcp [.other],false,()⟩,
  .handleRead ⟨.rtcp [.other,.pictureLossIndication],false,()⟩,.handleRead ⟨.rtp 7,false,()⟩]

theorem forwardsRequest : passedOn (compound ++ List.replicate 2 .pollRead) =
    [⟨.rtcp [.pictureLossIndication],true,()⟩,⟨.rtp 7,false,()⟩] :=
  (forwardsExactly compound 2).1.trans (by decide)

end KeyframeRequestForwarder
end Vmdesk
