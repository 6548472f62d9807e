import Vmdesk.SessionFrame

/-! The rotation of the UDP ports: whichever calls ask and in whatever order, the ports handed out
are those of an endless walk through the configured range. -/
namespace Vmdesk

namespace Network

def ports (n : Network) : Nat := n.udpPortMax.toNat - n.udpPortMin.toNat + 1

def portAt (n : Network) (k : Nat) : Nat := n.udpPortMin.toNat + k % n.ports

section Walk
variable {n : Network} {k : Nat}

theorem portsPos (n : Network) : 0 < n.ports := Nat.succ_pos _

theorem portAtRange (ordered : n.udpPortMin ≤ n.udpPortMax) (k : Nat) :
    n.udpPortMin.toNat ≤ n.portAt k ∧ n.portAt k ≤ n.udpPortMax.toNat := by
  have ends : n.udpPortMin.toNat ≤ n.udpPortMax.toNat := UInt16.le_iff_toNat_le.mp ordered
  have below : k % n.ports < n.ports := Nat.mod_lt k n.portsPos
  unfold portAt
  unfold ports at below ⊢
  omega

theorem portAtStart (n : Network) : n.portAt 0 = n.udpPortMin.toNat := by
  simp [portAt]

theorem portAtNext (ordered : n.udpPortMin ≤ n.udpPortMax) (k : Nat) :
    n.portAt (k + 1) =
      if n.udpPortMax.toNat ≤ n.portAt k then n.udpPortMin.toNat else n.portAt k + 1 := by
  have ends : n.udpPortMin.toNat ≤ n.udpPortMax.toNat := UInt16.le_iff_toNat_le.mp ordered
  have below : k % n.ports < n.ports := Nat.mod_lt k n.portsPos
  have carried : (k + 1) % n.ports = (k % n.ports + 1) % n.ports := (Nat.mod_add_mod k n.ports 1).symm
  unfold portAt
  rw [carried]
  split
  · next last =>
    have full : k % n.ports + 1 = n.ports := by
      unfold ports at below last ⊢
      omega
    rw [full,Nat.mod_self,Nat.add_zero]
  · next inside =>
    have more : k % n.ports + 1 < n.ports := by
      unfold ports at below inside ⊢
      omega
    rw [Nat.mod_eq_of_lt more,Nat.add_assoc]

theorem portAtBetween {i j port : Nat} (before : i < j) (again : n.portAt i = n.portAt j)
    (above : n.udpPortMin.toNat ≤ port) (below : port ≤ n.udpPortMax.toNat) :
    ∃ k, i ≤ k ∧ k < j ∧ n.portAt k = port := by
  have same : i % n.ports = j % n.ports := Nat.add_left_cancel again
  have whole : n.ports ∣ j - i := (Nat.modEq_iff_dvd' before.le).mp same
  have turn : n.ports ≤ j - i := Nat.le_of_dvd (Nat.sub_pos_of_lt before) whole
  have off : port - n.udpPortMin.toNat < n.ports := by
    unfold ports
    omega
  -- the first stop from `i` on whose number leaves the remainder of the port
  have here : i % n.ports < n.ports := Nat.mod_lt i n.portsPos
  refine ⟨i + (port - n.udpPortMin.toNat + (n.ports - i % n.ports)) % n.ports,Nat.le_add_right _ _,
    ?_,?_⟩
  · have short := Nat.mod_lt (port - n.udpPortMin.toNat + (n.ports - i % n.ports)) n.portsPos
    omega
  · have reached : (i + (port - n.udpPortMin.toNat + (n.ports - i % n.ports)) % n.ports) % n.ports =
        port - n.udpPortMin.toNat := by
      rw [Nat.add_mod_mod,← Nat.mod_add_mod]
      have sum : i % n.ports + (port - n.udpPortMin.toNat + (n.ports - i % n.ports)) =
          port - n.udpPortMin.toNat + n.ports := by omega
      rw [sum,Nat.add_mod_right,Nat.mod_eq_of_lt off]
    unfold portAt
    rw [reached,Nat.add_sub_cancel' above]

end Walk
end Network

namespace Server
open Session

def allocated (s : Server) : Label → Option UInt16
  | .call c .proceeds => match s.calls c with
      | .allocatingPort _ => some s.allocatePort.1
      | _ => none
  | _ => none

/- The counter is raised only where there is room for it in sixteen bits. -/
def Carries (s : Server) : Prop := ¬s.config.network.udpPortMax ≤ s.allocatePort.1 →
  (s.allocatePort.1 + 1).toNat = s.allocatePort.1.toNat + 1

section Steps
variable {s t : Server} {l : Label}

theorem carries (s : Server) : s.Carries := by
  intro lower
  have room : s.allocatePort.1.toNat < s.config.network.udpPortMax.toNat :=
    UInt16.lt_iff_toNat_lt.mp (UInt16.not_le.mp lower)
  have most := s.config.network.udpPortMax.toNat_lt
  rw [UInt16.toNat_add,UInt16.toNat_one,Nat.mod_eq_of_lt (by omega)]

theorem configKept (stepped : s.step l = some t) : t.config = s.config := by
  cases owner : caller l with
  | some c => exact (callerKeeps owner stepped).config
  | none =>
    cases working : worker l with
    | some n => exact (workerKeeps working stepped).config
    | none => exact (asideKeeps owner working stepped).config

theorem actPort (s : Server) (reader : Reader) (data : LittleEndian.Bytes) (emits : Emits) :
    (s.act reader data emits).nextPort = s.nextPort := by
  unfold act
  split
  · split <;> rfl
  · split <;> rfl

theorem openReaderPort (s : Server) (n : Nat) (label : Text) :
    (s.openReader n label).nextPort = s.nextPort := by
  unfold openReader
  simp only
  split <;> rfl

theorem portKept (other : allocated s l = none) (stepped : s.step l = some t) :
    t.nextPort = s.nextPort := by
  cases l with
  | offer c sdp =>
    cases offerStep stepped with
    | reject | begin => rfl
  | call c reply =>
    cases callStep stepped with
    | allocatePort n at' => simp [allocated,at'] at other
    | _ => rfl
  | event n ev =>
    obtain ⟨handler,same⟩ := eventStep stepped
    subst same
    rfl
  | stop n =>
    cases Option.some.inj stepped
    rfl
  | merge n =>
    obtain ⟨handler,merges,events,same⟩ := mergeStep stepped
    subst same
    rfl
  | task n emits =>
    cases taskStep stepped with
    | openChannel label => exact openReaderPort s n _
    | _ => rfl
  | rtcp n packets =>
    rcases rtcpStep stepped with same|same <;> subst same <;> rfl
  | channel r ev =>
    cases channelStep stepped with
    | deliver | stop | ignore => rfl
  | reader r emits =>
    cases readerStep stepped with
    | refuse | enter => rfl
    | act reader data => exact actPort s reader data emits

theorem portTaken {port : UInt16} (taken : allocated s l = some port) :
    port = s.allocatePort.1 ∧
      ∃ c n, s.step l = some (s.allocatePort.2.setCall c (.lookingUp n port)) := by
  unfold allocated at taken
  split at taken
  · next c =>
    split at taken
    · next n at' =>
      cases Option.some.inj taken
      exact ⟨rfl,c,n,by simp [step,stepCall,at']⟩
    · contradiction
  · contradiction

theorem allocateExact {k : Nat} (ordered : s.config.network.udpPortMin ≤ s.config.network.udpPortMax)
    (here : s.nextPort.toNat = s.config.network.portAt k) :
    s.allocatePort.1.toNat = s.config.network.portAt k ∧
      s.allocatePort.2.nextPort.toNat = s.config.network.portAt (k + 1) := by
  obtain ⟨low,high⟩ := Network.portAtRange ordered k
  rw [← here] at low high
  have port : s.allocatePort.1 = s.nextPort := by
    unfold allocatePort
    simp only
    rw [if_neg (UInt16.not_lt.mpr (UInt16.le_iff_toNat_le.mpr low)),
      if_neg (UInt16.not_lt.mpr (UInt16.le_iff_toNat_le.mpr high))]
  have next : s.allocatePort.2.nextPort =
      if s.config.network.udpPortMax ≤ s.allocatePort.1 then s.config.network.udpPortMin
      else s.allocatePort.1 + 1 := rfl
  refine ⟨port ▸ here,?_⟩
  rw [next,Network.portAtNext ordered k,← here]
  split
  · next last => rw [if_pos (port ▸ UInt16.le_iff_toNat_le.mp last)]
  · next inside =>
    rw [s.carries inside,port]
    rw [port,UInt16.le_iff_toNat_le] at inside
    rw [if_neg inside]

theorem portsFrom {k : Nat} {ls : List Label}
    (ordered : s.config.network.udpPortMin ≤ s.config.network.udpPortMax)
    (here : s.nextPort.toNat = s.config.network.portAt k) {i : Nat} {port : UInt16}
    (seen : (Runs.observed step allocated s ls)[i]? = some port) :
    port.toNat = s.config.network.portAt (k + i) := by
  induction ls generalizing s k i with
  | nil => simp [Runs.observed] at seen
  | cons l ls ih =>
    cases taken : allocated s l with
    | none =>
      cases stepped : s.step l with
      | none => simp [Runs.observed,taken,stepped] at seen
      | some t =>
        have config := configKept stepped
        simp only [Runs.observed,taken,stepped] at seen
        rw [← config]
        refine ih (config ▸ ordered) ?_ seen
        rw [portKept taken stepped,here,config]
    | some first =>
      obtain ⟨same,c,n,stepped⟩ := portTaken taken
      obtain ⟨now,later⟩ := allocateExact ordered here
      simp only [Runs.observed,taken,stepped] at seen
      cases i with
      | zero =>
        cases Option.some.inj seen
        rw [same,now,Nat.add_zero]
      | succ i =>
        rw [Nat.add_comm i 1,← Nat.add_assoc]
        exact ih (s := s.allocatePort.2.setCall c (.lookingUp n first)) ordered later seen

/- The k-th port handed out is the k-th stop of the walk. So it lies in the range, the counter never
overflows, and a port comes again only after every other one. -/
theorem portsRotate (config : Config) (valid : config.validate = .ok ()) (publicIp : Option Text)
    (ls : List Label) :
    (∀ (k : Nat) (port : UInt16),
      (Runs.observed step allocated (initial config publicIp) ls)[k]? = some port →
      port.toNat = config.network.udpPortMin.toNat +
        k % (config.network.udpPortMax.toNat - config.network.udpPortMin.toNat + 1) ∧
      config.network.udpPortMin ≤ port ∧ port ≤ config.network.udpPortMax) ∧
    (∀ (i j : Nat) (port other : UInt16), i < j →
      (Runs.observed step allocated (initial config publicIp) ls)[i]? = some port →
      (Runs.observed step allocated (initial config publicIp) ls)[j]? = some port →
      config.network.udpPortMin ≤ other → other ≤ config.network.udpPortMax →
      ∃ k, i ≤ k ∧ k < j ∧
        (Runs.observed step allocated (initial config publicIp) ls)[k]? = some other) ∧
    Runs.Always step Carries (initial config publicIp) ls := by
  have ordered := ((Config.validateExact config).mp valid).2.2.1
  have walk (k : Nat) (port : UInt16)
      (seen : (Runs.observed step allocated (initial config publicIp) ls)[k]? = some port) :
      port.toNat = config.network.portAt k := by
    have from' := portsFrom ordered (Network.portAtStart config.network).symm seen
    rwa [Nat.zero_add] at from'
  refine ⟨fun k port seen => ?_,fun i j port other before first second above below => ?_,?_⟩
  · obtain ⟨low,high⟩ := Network.portAtRange ordered k
    rw [← walk k port seen] at low high
    exact ⟨walk k port seen,UInt16.le_iff_toNat_le.mpr low,UInt16.le_iff_toNat_le.mpr high⟩
  · have again := (walk i port first).symm.trans (walk j port second)
    obtain ⟨k,after,earlier,stop⟩ := Network.portAtBetween before again
      (UInt16.le_iff_toNat_le.mp above) (UInt16.le_iff_toNat_le.mp below)
    obtain ⟨inside,_⟩ := List.getElem?_eq_some_iff.mp second
    have here := List.getElem?_eq_getElem (Nat.lt_trans earlier inside)
    refine ⟨k,after,earlier,here.trans (congrArg some ?_)⟩
    exact UInt16.toNat_inj.mp ((walk k _ here).trans stop)
  · have free : Runs.Allowed step (fun _ _ => True) (initial config publicIp) ls :=
      Runs.allowedOf (fun _ _ _ => trivial)
    exact Runs.allowedAlways (fun _ => True) trivial (fun _ _ _ _ _ _ => trivial)
      (fun s _ => s.carries) free

end Steps

def highest : Config where
  network := {udpPortMin := 65534,udpPortMax := 65535}

def ask (c : Nat) : List Label :=
  [.offer c "m=video 9\nm=application 9\n".toList,.call c .proceeds,.call c .proceeds]

def askInTurns : List Label :=
  ask 0 ++ ask 1 ++ ask 2 ++ [.call 1 .proceeds,.call 2 .proceeds,.call 0 .proceeds]

theorem highestRotates :
    Runs.observed step allocated (initial highest none) askInTurns = [65534,65535,65534] ∧
    Runs.Always step Carries (initial highest none) askInTurns := by
  have valid : highest.validate = .ok () := by
    rw [Config.validateExact]
    decide
  exact ⟨by decide,(portsRotate highest valid none askInTurns).2.2⟩

end Server
end Vmdesk
