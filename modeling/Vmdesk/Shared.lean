import Vmdesk.Config

/-! The words that the pipeline threads and the session layer share. The channel a session
creates for its frames is known by the id of that session. -/
namespace Vmdesk

structure Shared where
  clientConnected : Bool
  forceKeyframe : Bool
  bitrateKbps : UInt32
  activeSession : Nat
  sink : Option Nat
  deriving DecidableEq, Repr

namespace Shared

def new (bitrateKbps : UInt32) : Shared := ⟨false,false,bitrateKbps,0,none⟩

def storeConnected (s : Shared) (connected : Bool) : Shared := {s with clientConnected := connected}
def storeForce (s : Shared) (force : Bool) : Shared := {s with forceKeyframe := force}
def storeBitrate (s : Shared) (kbps : UInt32) : Shared := {s with bitrateKbps := kbps}
def storeActive (s : Shared) (session : Nat) : Shared := {s with activeSession := session}
def installSink (s : Shared) (channel : Nat) : Shared := {s with sink := some channel}
def clearSink (s : Shared) : Shared := {s with sink := none}

/- The writes of the session layer. It never takes a keyframe request back. -/
inductive Write where
  | connected (connected : Bool)
  | force
  | bitrate (kbps : UInt32)
  | active (session : Nat)
  | install (channel : Nat)
  | clear
  deriving DecidableEq, Repr

def write (s : Shared) : Write → Shared
  | .connected connected => s.storeConnected connected
  | .force => s.storeForce true
  | .bitrate kbps => s.storeBitrate kbps
  | .active session => s.storeActive session
  | .install channel => s.installSink channel
  | .clear => s.clearSink

end Shared
end Vmdesk
