import Vmdesk.SessionOwnership

/-! One client at a time, and the pipeline belongs to it: what an orderly takeover gives the
server in every state it reaches, and the interleavings that break it. -/
namespace Vmdesk
namespace Server
open Session

def TaskPhase.looping : TaskPhase → Bool
  | .waiting | .connecting | .storingBitrate | .installingSink | .requestingKeyframe
  | .storingConnected | .disconnected | .opening _ => true
  | _ => false

def ReachedConnected (s : Server) (n : Nat) : Prop :=
  TaskPhase.looping (s.tasks n).phase = true ∧ ((s.tasks n).connected = true ∨
    (s.tasks n).phase = .connecting ∨ (s.tasks n).phase = .storingBitrate ∨
    (s.tasks n).phase = .installingSink ∨ (s.tasks n).phase = .requestingKeyframe ∨
    (s.tasks n).phase = .storingConnected)

def Quiet (s : Server) : Prop := ∀ c, s.calls c = .idle ∨ ∃ result, s.calls c = .finished result

def TearingDown (s : Server) (n : Nat) : Prop := ∃ c, s.calls c = .disconnecting n ∨
  s.calls c = .clearing n ∨ s.calls c = .releasing n ∨ s.calls c = .closing n

/- With no call in progress, the connections that run are at most the current, active one; and
at any time a connection that is not in `current` has been or is being closed. -/
def OneClient (s : Server) : Prop :=
  (Quiet s → ∀ n, ReachedConnected s n → s.closed n = false →
    s.current = some n ∧ s.shared.activeSession = n) ∧
  ∀ n, (s.tasks n).phase ≠ .absent → s.current = some n ∨ s.closed n = true ∨
    TearingDown s n ∨ (s.tasks n).phase = .closing ∨ (s.tasks n).phase = .ended

theorem claimEvicts {p : Phase} {n : Nat} {part : Takeover.Part}
    (evicts : claimOf p = .evicting n part) :
    p = .disconnecting n ∨ p = .clearing n ∨ p = .releasing n ∨ p = .closing n := by
  cases p <;> simp_all [claimOf]

section Tenants
variable {task : Task}

theorem loopingInside (looping : TaskPhase.looping task.phase = true) :
    (tenantOf task).inside = true := by
  unfold tenantOf
  split <;> simp_all [TaskPhase.looping,Takeover.Tenant.inside]

theorem loopingWired (looping : TaskPhase.looping task.phase = true)
    (connected : task.connected = true) : (tenantOf task).wired = true := by
  unfold tenantOf
  split <;> simp_all [TaskPhase.looping,Takeover.Tenant.wired]

theorem tenantClosing (closing : tenantOf task = .closing) : task.phase = .closing := by
  unfold tenantOf at closing
  split at closing <;> simp_all

theorem tenantEnded (finished : tenantOf task = .ended) : task.phase = .ended := by
  unfold tenantOf at finished
  split at finished <;> simp_all

end Tenants

theorem begunTorn {s : Server} {n : Nat} (begun : (view s).Begun n) :
    s.closed n = true ∨ TearingDown s n := by
  rcases begun with closed|⟨c,part,evicts⟩
  · exact Or.inl closed
  · exact Or.inr ⟨c,claimEvicts evicts⟩

theorem exclusiveOneClient {s : Server} (inv : Takeover.Exclusive (view s)) : OneClient s := by
  apply And.intro
  · intro quiet n reached open'
    have outside : ∀ c, (view s).claims c = .outside := by
      intro c
      change claimOf (s.calls c) = .outside
      rcases quiet c with idle|⟨result,finished⟩
      · rw [idle]; rfl
      · rw [finished]; rfl
    have inside : ((view s).tenants n).inside = true := loopingInside reached.1
    exact Takeover.soleTenant inv outside inside open'
  · intro n present
    have here : (view s).tenants n ≠ .absent := fun absent => present (tenantAbsent.mp absent)
    rcases inv.settled n (Or.inl here) with slot|begun|gone|gone
    · exact Or.inl slot
    · rcases begunTorn begun with closed|torn
      · exact Or.inr (Or.inl closed)
      · exact Or.inr (Or.inr (Or.inl torn))
    · exact Or.inr (Or.inr (Or.inr (Or.inl (tenantClosing gone))))
    · exact Or.inr (Or.inr (Or.inr (Or.inr (tenantEnded gone))))

def negotiate (c : Nat) : List Label :=
  [.offer c "m=video 9\nm=application 9\n".toList] ++ List.replicate 13 (.call c .proceeds) ++
    [.call c .timedOut,.call c (.described (some
      "a=candidate:1 1 udp 1 10.0.0.7 5 typ host\n".toList))]

def replace (c : Nat) : List Label :=
  [.offer c "m=video 9\nm=application 9\n".toList] ++ List.replicate 3 (.call c .proceeds) ++
    [.call c (.released .succeed)] ++ List.replicate 13 (.call c .proceeds) ++
    [.call c .timedOut,.call c (.described (some
      "a=candidate:1 1 udp 1 10.0.0.7 5 typ host\n".toList))]

def conclude (c : Nat) : List Label := List.replicate 3 (.call c .proceeds)

def connect (n : Nat) : List Label :=
  [.event n (.connection .connected),.merge n,.merge n] ++ List.replicate 6 (.task n .succeed)

def isActivating : Phase → Bool
  | .activating _ _ _ => true
  | _ => false

def orderlyCheck (k : Nat) (s : Server) (l : Label) : Bool := callersBelow k l && match l with
  | .call c _ => match s.calls c with
    | .installing _ _ _ =>
      s.current.isNone && (List.range k).all (fun d => !isActivating (s.calls d))
    | _ => true
  | _ => true

theorem orderlyChecked {k : Nat} {s : Server} {l : Label} (bounded : Bounded k s)
    (checked : orderlyCheck k s l = true) : s.Orderly l := by
  cases l with
  | call c reply =>
    intro deal pending answer installing
    simp only [orderlyCheck,installing,Bool.and_eq_true,Option.isNone_iff_eq_none] at checked
    obtain ⟨_,empty,alone⟩ := checked
    refine ⟨empty,fun d deal' pending' answer' activating => ?_⟩
    by_cases below : d < k
    · have here := List.all_eq_true.mp alone d (List.mem_range.mpr below)
      simp [activating,isActivating] at here
    · rw [bounded.calls d (by omega)] at activating
      contradiction
  | offer | event | stop | merge | task | rtcp | channel | reader => exact trivial

theorem checkedBelow {k : Nat} {s : Server} {l : Label} (checked : orderlyCheck k s l = true) :
    callersBelow k l = true := by
  unfold orderlyCheck at checked
  exact (Bool.and_eq_true_iff.mp checked).1

theorem oneClient (config : Config) (publicIp : Option Text) (ls : List Label)
    (orderly : Runs.Allowed step Orderly (initial config publicIp) ls) :
    Runs.Always step OneClient (initial config publicIp) ls :=
  Runs.allowedAlways (fun s => Takeover.Exclusive (view s)) (exclusiveInitial config publicIp)
    (fun _ _ _ inv permitted stepped => exclusiveStep inv permitted stepped)
    (fun _ inv => exclusiveOneClient inv) orderly

def located : Server := initial {} (some "8.8.4.4".toList)

def oneAfterTheOther : List Label :=
  negotiate 0 ++ conclude 0 ++ connect 1 ++ replace 1 ++ conclude 1 ++ connect 2

theorem oneClientReplaced : Runs.Always step OneClient located oneAfterTheOther ∧
    (Runs.run step located oneAfterTheOther).map (fun s => (s.current,s.closed 1)) =
      some (some 2,true) := by
  refine ⟨oneClient _ _ _ ?_,by decide +kernel⟩
  exact Runs.checkAllowed (Bounded 2) (orderlyCheck 2) (boundedInitial 2 _ _)
    (fun _ _ _ inv checked stepped => boundedStep inv (checkedBelow checked) stepped)
    (fun _ _ inv checked => orderlyChecked inv checked) (by decide +kernel)

/- Two calls both find `current` empty. The second overwrites the connection of the first,
which is connected by then and which nobody will close. -/
theorem overwrittenClient : ∃ s, Runs.run step located
    (negotiate 0 ++ negotiate 1 ++ conclude 0 ++ connect 1 ++ conclude 1) = some s ∧
    ¬ OneClient s := by
  have facts : (Runs.run step located
      (negotiate 0 ++ negotiate 1 ++ conclude 0 ++ connect 1 ++ conclude 1)).map
      (fun s => (s.calls 0,s.calls 1,s.tasks 1,s.closed 1,s.current)) =
    some (.finished (.ok "a=candidate:1 1 udp 1 8.8.4.4 5 typ host\n".toList),
      .finished (.ok "a=candidate:1 1 udp 1 8.8.4.4 5 typ host\n".toList),
      ⟨.waiting,true⟩,false,some 2) := by decide +kernel
  obtain ⟨s,reached,same⟩ := Option.map_eq_some_iff.mp facts
  simp only [Prod.mk.injEq] at same
  obtain ⟨first,second,task,open',current⟩ := same
  refine ⟨s,reached,fun client => ?_⟩
  have bounded := boundedRun (k := 2) (by decide) reached
  have quiet : Quiet s := by
    intro c
    match c with
    | 0 => exact Or.inr ⟨_,first⟩
    | 1 => exact Or.inr ⟨_,second⟩
    | c+2 => exact Or.inl (bounded.calls (c+2) (by omega))
  have connected : ReachedConnected s 1 := by
    unfold ReachedConnected
    rw [task]
    exact ⟨rfl,Or.inl rfl⟩
  have kept := (client.1 quiet 1 connected open').1
  rw [current] at kept
  cases kept

/- The channel of the session and the flag belong to the active session from the end of its
Connected branch until it leaves its loop or a call begins to tear it down. -/
def PipelineOwned (s : Server) : Prop := ∀ n, s.shared.activeSession = n →
  (s.tasks n).connected = true → TaskPhase.looping (s.tasks n).phase = true →
  s.closed n = false → ¬ TearingDown s n →
  s.shared.sink = some n ∧ s.shared.clientConnected = true

theorem wiredOwned {s : Server} (wired : Takeover.Wired (view s)) : PipelineOwned s := by
  intro n active connected looping open' untorn
  have live : (view s).Live n := by
    apply And.intro
    · exact loopingInside looping
    · intro begun
      rcases begunTorn begun with closed|torn
      · rw [open'] at closed
        contradiction
      · exact untorn torn
  have once : ((view s).tenants n).wired = true := loopingWired looping connected
  subst active
  exact (wired.output live).2 once

theorem pipelineOwned (config : Config) (publicIp : Option Text) (ls : List Label)
    (permitted : Runs.Allowed step (fun s l => s.Orderly l ∧ s.Unguarded l)
      (initial config publicIp) ls) :
    Runs.Always step PipelineOwned (initial config publicIp) ls :=
  Runs.allowedAlways (fun s => Takeover.Exclusive (view s) ∧ Takeover.Wired (view s))
    ⟨exclusiveInitial config publicIp,wiredInitial config publicIp⟩
    (fun _ _ _ inv permitted stepped => ⟨exclusiveStep inv.1 permitted.1 stepped,
      wiredStep inv.1 inv.2 permitted.2 stepped⟩)
    (fun _ inv => wiredOwned inv.2) permitted

def undoes : Phase → Bool
  | .disconnecting _ | .clearing _ => true
  | _ => false

def unguardedCheck (k : Nat) (s : Server) : Label → Bool
  | .call c _ => match s.calls c with
    | .activating _ _ _ =>
      (List.range s.nextSession).all (fun n => !TaskPhase.guarded (s.tasks n).phase) &&
        (List.range k).all (fun d => !undoes (s.calls d))
    | _ => true
  | _ => true

theorem unguardedChecked {k : Nat} {s : Server} {l : Label} (bounded : Bounded k s)
    (checked : unguardedCheck k s l = true) : s.Unguarded l := by
  cases l with
  | call c reply =>
    intro deal pending answer activating
    simp only [unguardedCheck,activating,Bool.and_eq_true] at checked
    obtain ⟨tasks,calls⟩ := checked
    refine ⟨fun n => ?_,fun d old => ?_⟩
    · by_cases below : n < s.nextSession
      · have here := List.all_eq_true.mp tasks n (List.mem_range.mpr below)
        simpa using here
      · have absent : (s.tasks n).phase = .absent := by
          by_contra present
          have here : (view s).tenants n ≠ .absent := fun none' => present (tenantAbsent.mp none')
          exact below (bounded.ids.known n here)
        rw [absent]
        rfl
    · by_cases below : d < k
      · have here := List.all_eq_true.mp calls d (List.mem_range.mpr below)
        apply And.intro
        · intro at'
          simp [at',undoes] at here
        · intro at'
          simp [at',undoes] at here
      · rw [bounded.calls d (by omega)]
        simp
  | offer | event | stop | merge | task | rtcp | channel | reader => exact trivial

theorem pipelineOwnedReplaced : Runs.Always step PipelineOwned located oneAfterTheOther ∧
    (Runs.run step located oneAfterTheOther).map (fun s => (s.shared.activeSession,s.shared.sink)) =
      some (2,some 2) := by
  refine ⟨pipelineOwned _ _ _ ?_,by decide +kernel⟩
  exact Runs.checkAllowed (Bounded 2) (fun s l => orderlyCheck 2 s l && unguardedCheck 2 s l)
    (boundedInitial 2 _ _)
    (fun _ _ _ inv checked stepped =>
      boundedStep inv (checkedBelow (Bool.and_eq_true_iff.mp checked).1) stepped)
    (fun _ _ inv checked => ⟨orderlyChecked inv (Bool.and_eq_true_iff.mp checked).1,
      unguardedChecked inv (Bool.and_eq_true_iff.mp checked).2⟩) (by decide +kernel)

/- The first session has passed the test of its teardown and stored the flag when it is
suspended. A new client replaces it and connects; then the first session goes on. -/
def suspendedTeardown : List Label :=
  negotiate 0 ++ conclude 0 ++ connect 1 ++
    [.event 1 (.connection .failed),.merge 1,.task 1 .succeed,.task 1 .succeed,
      .task 1 .succeed] ++
    replace 1 ++ conclude 1 ++ connect 2 ++ [.task 1 .succeed]

theorem clearedSink : ∃ s, Runs.run step located suspendedTeardown = some s ∧
    ¬ PipelineOwned s := by
  have facts : (Runs.run step located suspendedTeardown).map
      (fun s => ((s.calls 0,s.calls 1),(s.tasks 2,s.closed 2),
        (s.shared.activeSession,s.shared.sink))) =
    some ((.finished (.ok "a=candidate:1 1 udp 1 8.8.4.4 5 typ host\n".toList),
      .finished (.ok "a=candidate:1 1 udp 1 8.8.4.4 5 typ host\n".toList)),
      (⟨.waiting,true⟩,false),(2,none)) := by decide +kernel
  obtain ⟨s,reached,same⟩ := Option.map_eq_some_iff.mp facts
  simp only [Prod.mk.injEq] at same
  obtain ⟨⟨first,second⟩,⟨task,open'⟩,active,sink⟩ := same
  refine ⟨s,reached,fun owned => ?_⟩
  have bounded := boundedRun (k := 2) (by decide) reached
  have untorn : ¬ TearingDown s 2 := by
    intro torn
    obtain ⟨c,torn⟩ := torn
    match c with
    | 0 => simp [first] at torn
    | 1 => simp [second] at torn
    | c+2 => simp [bounded.calls (c+2) (by omega)] at torn
  have kept := (owned 2 active (by rw [task]) (by rw [task]; rfl) open' untorn).1
  rw [sink] at kept
  cases kept

end Server
end Vmdesk
