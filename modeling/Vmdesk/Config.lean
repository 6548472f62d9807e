import Vmdesk.SocketAddr

/-! The configuration of the server: its fields, their defaults and the checks a loaded file has to
pass. -/
namespace Vmdesk

structure Video where
  fps : UInt32 := 30
  bitrateKbps : UInt32 := 12000
  keyframeInterval : UInt32 := 600
  encoderThreads : UInt16 := 0
  deriving DecidableEq, Repr

structure Network where
  publicIp : Text := []
  metadataUrl : Text := "http://169.254.169.254/opc/v2/vnics/".toList
  udpPortMin : UInt16 := 50000
  udpPortMax : UInt16 := 50100
  signallingAddr : SocketAddr := .v4 ⟨127,0,0,1⟩ 8080
  deriving DecidableEq, Repr

structure Capture where
  card : Text := []
  connector : Text := "Virtual-1".toList
  deriving DecidableEq, Repr

structure Config where
  video : Video := {}
  network : Network := {}
  capture : Capture := {}
  deriving DecidableEq, Repr

namespace Config

def ensure (ok : Bool) (message : String) : Except String Unit :=
  if ok then .ok () else .error message

def validate (c : Config) : Except String Unit := do
  ensure (1 ≤ c.video.fps && c.video.fps ≤ 120) "video.fps must be within 1..=120"
  ensure (100 ≤ c.video.bitrateKbps) "video.bitrate_kbps must be at least 100"
  ensure (c.network.udpPortMin ≤ c.network.udpPortMax)
    "network.udp_port_min must be <= udp_port_max"
  ensure (!c.capture.connector.isEmpty) "capture.connector must not be empty"

theorem ensureOk {ok : Bool} {message : String} : ensure ok message = .ok () ↔ ok = true := by
  cases ok <;> simp [ensure]

theorem ensureBind {ok : Bool} {message : String} {f : Unit → Except String Unit} :
    (ensure ok message >>= f) = .ok () ↔ ok = true ∧ f () = .ok () := by
  cases ok <;> simp [ensure,bind,Except.bind]

theorem validateExact (c : Config) : c.validate = .ok () ↔
    (1 ≤ c.video.fps ∧ c.video.fps ≤ 120) ∧ 100 ≤ c.video.bitrateKbps ∧
      c.network.udpPortMin ≤ c.network.udpPortMax ∧ c.capture.connector ≠ [] := by
  simp [validate,ensureBind,ensureOk]

theorem defaultsValid : ({} : Config).validate = .ok () := by
  rw [validateExact]
  decide

end Config
end Vmdesk
