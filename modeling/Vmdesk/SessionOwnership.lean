import Vmdesk.SessionFrame
import Vmdesk.Takeover

/-! Who owns the peer connection slot and the pipeline. Seen through what its calls and tasks
hold, the session layer makes the moves of a takeover; what holds of every orderly takeover
then holds of every run of the server. -/
namespace Vmdesk
open LittleEndian (Bytes)

namespace Server
open Function Session

def claimOf : Phase → Takeover.Claim
  | .idle | .finished _ => .outside
  | .taking | .allocating => .inside
  | .disconnecting old => .evicting old .flag
  | .clearing old => .evicting old .sink
  | .releasing old => .evicting old .held
  | .closing old => .evicting old .rest
  | .allocatingPort n | .lookingUp n _ | .detecting n _ | .caching n _ _ => .holding n
  | .negotiating _ deal _ | .discarding deal | .installing deal _ _ => .holding deal.session
  | .activating deal _ _ => .installed deal.session
  | .spawning deal _ _ => .activated deal.session

def tenantOf (t : Task) : Takeover.Tenant := match t.phase with
  | .absent => .absent
  | .waiting | .connecting | .disconnected | .opening _ => .living t.connected
  | .storingBitrate | .installingSink => .wiring t.connected
  | .requestingKeyframe | .storingConnected => .flagging t.connected
  | .leaving => .leaving
  | .clearingConnected => .lowering
  | .clearingSink => .clearing
  | .releasing => .draining
  | .clearingCurrent => .vacating
  | .closing => .closing
  | .ended => .ended

def view (s : Server) : Takeover.State where
  slot := s.current
  active := s.shared.activeSession
  flag := s.shared.clientConnected
  sink := s.shared.sink
  released := s.retired
  closed := s.closed
  claims := fun c => claimOf (s.calls c)
  tenants := fun n => tenantOf (s.tasks n)
  next := s.nextSession

/- A call writes `current` only while it is empty, and only while no other call stands between
its own writes of `current` and `active_session`. -/
def Orderly (s : Server) : Label → Prop
  | .call c _ => ∀ deal pending answer, s.calls c = .installing deal pending answer →
      s.current = none ∧ ∀ d deal pending answer, s.calls d ≠ .activating deal pending answer
  | _ => True

def TaskPhase.guarded : TaskPhase → Bool
  | .storingBitrate | .installingSink | .requestingKeyframe | .storingConnected
  | .clearingConnected | .clearingSink => true
  | _ => false

/- A call stores `active_session` only while no session task stands between its test of it and
the writes behind that test, and no call is still undoing what a previous session wired. -/
def Unguarded (s : Server) : Label → Prop
  | .call c _ => ∀ deal pending answer, s.calls c = .activating deal pending answer →
      (∀ n, TaskPhase.guarded (s.tasks n).phase = false) ∧
      ∀ d old, s.calls d ≠ .disconnecting old ∧ s.calls d ≠ .clearing old
  | _ => True

def Names (s : Server) (l : Label) : Takeover.Act → Prop
  | .install c => ∃ reply deal pending answer, l = .call c reply ∧
      s.calls c = .installing deal pending answer
  | .activate c => ∃ reply deal pending answer, l = .call c reply ∧
      s.calls c = .activating deal pending answer
  | .other => True

def Simulates (s : Server) (l : Label) (t : Server) : Prop :=
  ∃ a, Takeover.Move (view s) a (view t) ∧ s.Names l a

section Views
variable {s t : Server} {l : Label}

theorem simulates (move : Takeover.Move (view s) .other (view t)) : Simulates s l t :=
  ⟨.other,move,trivial⟩

theorem viewCall (s : Server) (c : Nat) (p : Phase) :
    view (s.setCall c p) = (view s).claim c (claimOf p) := by
  have claims : (fun d => claimOf ((s.setCall c p).calls d)) =
      update (fun d => claimOf (s.calls d)) c (claimOf p) := by
    funext d
    exact apply_update (fun _ => claimOf) s.calls c p d
  unfold view Takeover.State.claim
  rw [claims]
  rfl

theorem viewTask (s : Server) (n : Nat) (task : Task) :
    view {s with tasks := update s.tasks n task} = (view s).tenant n (tenantOf task) := by
  have tenants : (fun m => tenantOf (update s.tasks n task m)) =
      update (fun m => tenantOf (s.tasks m)) n (tenantOf task) := by
    funext m
    exact apply_update (fun _ => tenantOf) s.tasks n task m
  unfold view Takeover.State.tenant
  simp only
  rw [tenants]

theorem claimSame {v : Takeover.State} {c : Nat} {p : Takeover.Claim} (at' : v.claims c = p) :
    v.claim c p = v := by
  subst at'
  unfold Takeover.State.claim
  rw [update_eq_self]

theorem tenantSame {v : Takeover.State} {n : Nat} {q : Takeover.Tenant} (at' : v.tenants n = q) :
    v.tenant n q = v := by
  subst at'
  unfold Takeover.State.tenant
  rw [update_eq_self]

theorem callStays {c : Nat} {p : Phase} (same : claimOf (s.calls c) = claimOf p)
    (rest : view t = view s) : Simulates s l (t.setCall c p) := by
  apply simulates
  rw [viewCall,rest,claimSame same]
  exact .stay _

theorem callAbandons {c : Nat} {n : Nat} {p : Phase} (holds : claimOf (s.calls c) = .holding n)
    (out : claimOf p = .outside) (rest : view t = view s) : Simulates s l (t.setCall c p) := by
  apply simulates
  rw [viewCall,rest,out]
  exact .abandon _ c n holds

theorem offerMoves {c : Nat} {sdp : Text} (stepped : s.stepOffer c sdp = some t) :
    Simulates s l t := by
  cases offerStep stepped with
  | reject e idle => exact callStays (by simp [idle,claimOf]) rfl
  | begin idle =>
    apply simulates
    rw [viewCall]
    exact .enter _ c (by simp [view,idle,claimOf])

theorem negotiatedMoves {c : Nat} {deal : Deal} {p : Phase} (leads : Negotiated deal p)
    (holds : claimOf (s.calls c) = .holding deal.session) (rest : view t = view s) :
    Simulates s l (t.setCall c p) := by
  cases leads with
  | goes | discards | installs => exact callStays holds rest
  | fails e => exact callAbandons holds rfl rest

theorem callMoves {c : Nat} {reply : Reply} (stepped : s.stepCall c reply = some t) :
    Simulates s (.call c reply) t := by
  cases callStep stepped with
  | take old at' found =>
    apply simulates
    rw [viewCall]
    exact .evict _ c old (by simp [view,at',claimOf]) found
  | disconnect old at' =>
    apply simulates
    rw [viewCall]
    exact .evictFlag _ c old (by simp [view,at',claimOf])
  | clear old at' =>
    apply simulates
    rw [viewCall]
    exact .evictSink _ c old (by simp [view,at',claimOf])
  | release old emits at' =>
    apply simulates
    rw [viewCall]
    exact .evictHeld _ c old (by simp [view,at',claimOf])
  | close old at' =>
    apply simulates
    rw [viewCall]
    exact .evictClose _ c old (by simp [view,at',claimOf])
  | allocate at' =>
    apply simulates
    rw [viewCall]
    exact .hold _ c (by simp [view,at',claimOf])
  | negotiate stage deal pending _ handler p at' leads =>
    exact negotiatedMoves leads (by simp [at',claimOf]) rfl
  | discard deal at' =>
    apply simulates
    rw [viewCall]
    exact .discard _ c deal.session (by simp [view,at',claimOf])
  | install deal pending answer at' =>
    refine ⟨.install c,?_,_,_,_,_,rfl,at'⟩
    rw [viewCall]
    exact .install _ c deal.session (by simp [view,at',claimOf])
  | activate deal pending answer at' =>
    refine ⟨.activate c,?_,_,_,_,_,rfl,at'⟩
    rw [viewCall]
    exact .activate _ c deal.session (by simp [view,at',claimOf])
  | spawn deal pending answer at' =>
    apply simulates
    have arrived := viewTask s deal.session ⟨.waiting,false⟩
    rw [viewCall]
    exact arrived ▸ .arrive _ c deal.session (by simp [view,at',claimOf])
  | pass at' | allocatePort n at' | locate n port ip at' | detect n port at'
  | detected n port ip at' | undetected n port at' | cache n port ip at' =>
    exact callStays (by simp [at',claimOf]) rfl

theorem taskStays {n : Nat} {p : TaskPhase}
    (same : tenantOf (s.tasks n) = tenantOf ⟨p,(s.tasks n).connected⟩)
    (tasks : t.tasks = s.tasks) (rest : view t = view s) : Simulates s l (t.setTask n p) := by
  apply simulates
  have stays : tenantOf {t.tasks n with phase := p} = (view s).tenants n := by
    rw [tasks]
    exact same.symm
  unfold setTask
  rw [viewTask,rest,tenantSame stays.symm]
  exact .stay _

theorem taskLeaves {n : Nat} (living : tenantOf (s.tasks n) = .living (s.tasks n).connected)
    (rest : view t = view s) : Simulates s l (t.setTask n .leaving) := by
  apply simulates
  unfold setTask
  rw [viewTask,rest]
  exact .leave _ n _ living

theorem receiveMoves {n : Nat} {ev : PcEvent} (waiting : (s.tasks n).phase = .waiting)
    (tasks : t.tasks = s.tasks) (rest : view t = view s) :
    Simulates s l (t.setTask n (received ev)) := by
  have living : tenantOf (s.tasks n) = .living (s.tasks n).connected := by
    simp [tenantOf,waiting]
  unfold received
  split
  case h_3 | h_4 => exact taskLeaves living rest
  all_goals exact taskStays (by simp [tenantOf,waiting]) tasks rest

theorem openReaderView (s : Server) (n : Nat) (label : Text) :
    view (s.openReader n label) = view s := by
  unfold openReader
  simp only
  split <;> rfl

theorem openReaderTasks (s : Server) (n : Nat) (label : Text) :
    (s.openReader n label).tasks = s.tasks := by
  unfold openReader
  simp only
  split <;> rfl

theorem taskMoves {n : Nat} {emits : Emits} (stepped : s.stepTask n emits = some t) :
    Simulates s l t := by
  cases taskStep stepped with
  | receive ev rest at' => exact receiveMoves at' rfl rfl
  | finish at' | refuse at' => exact taskLeaves (by simp [tenantOf,at']) rfl
  | pass at' active =>
    apply simulates
    have moved := viewTask s n ⟨.storingBitrate,(s.tasks n).connected⟩
    exact moved ▸ .wire _ n (s.tasks n).connected (by simp [view,tenantOf,at']) active
  | installSink at' =>
    apply simulates
    have moved := viewTask (s.setShared (s.shared.installSink n)) n
      ⟨.requestingKeyframe,(s.tasks n).connected⟩
    exact moved ▸ .wireSink _ n (s.tasks n).connected (by simp [view,tenantOf,at'])
  | storeConnected at' =>
    apply simulates
    have moved := viewTask (s.setShared (s.shared.storeConnected true)) n ⟨.waiting,true⟩
    exact moved ▸ .wireFlag _ n (s.tasks n).connected (by simp [view,tenantOf,at'])
  | openChannel label at' =>
    exact taskStays (by simp [tenantOf,at']) (openReaderTasks s n _) (openReaderView s n _)
  | tearDown at' active =>
    apply simulates
    have moved := viewTask s n ⟨.clearingConnected,(s.tasks n).connected⟩
    exact moved ▸ .dismantle _ n (by simp [view,tenantOf,at']) active
  | skip at' =>
    apply simulates
    have moved := viewTask s n ⟨.closing,(s.tasks n).connected⟩
    exact moved ▸ .skip _ n (by simp [view,tenantOf,at'])
  | disconnect at' =>
    apply simulates
    have moved := viewTask (s.setShared (s.shared.storeConnected false)) n
      ⟨.clearingSink,(s.tasks n).connected⟩
    exact moved ▸ .lower _ n (by simp [view,tenantOf,at'])
  | clear at' =>
    apply simulates
    have moved := viewTask (s.setShared s.shared.clearSink) n ⟨.releasing,(s.tasks n).connected⟩
    exact moved ▸ .clear _ n (by simp [view,tenantOf,at'])
  | release at' =>
    apply simulates
    have moved := viewTask ((s.releaseInput emits).retire n) n
      ⟨.clearingCurrent,(s.tasks n).connected⟩
    exact moved ▸ .drain _ n (by simp [view,tenantOf,at'])
  | vacate at' =>
    apply simulates
    have moved := viewTask {s with current := if s.current = some n then none else s.current} n
      ⟨.closing,(s.tasks n).connected⟩
    exact moved ▸ .vacate _ n (by simp [view,tenantOf,at'])
  | close at' =>
    apply simulates
    have moved := viewTask (s.close n) n ⟨.ended,(s.tasks n).connected⟩
    exact moved ▸ .close _ n (by simp [view,tenantOf,at'])
  | storeBitrate at' | requestKeyframe at' | interrupt at' =>
    exact taskStays (by simp [tenantOf,at']) rfl rfl

theorem actView (s : Server) (reader : Reader) (data : Bytes) (emits : Emits) :
    view (s.act reader data emits) = view s := by
  unfold act
  split
  · split <;> rfl
  · split <;> rfl

theorem viewStays (same : view t = view s) : Simulates s l t :=
  simulates (same ▸ .stay (view s))

theorem stepMoves (stepped : s.step l = some t) : Simulates s l t := by
  cases l with
  | offer c sdp => exact offerMoves stepped
  | call c reply => exact callMoves stepped
  | task n emits => exact taskMoves stepped
  | event n ev =>
    obtain ⟨handler,same⟩ := eventStep stepped
    subst same
    exact viewStays rfl
  | stop n =>
    cases Option.some.inj stepped
    exact viewStays rfl
  | merge n =>
    obtain ⟨handler,merges,events,same⟩ := mergeStep stepped
    subst same
    exact viewStays rfl
  | rtcp n packets =>
    rcases rtcpStep stepped with same|same
    all_goals
      subst same
      exact viewStays rfl
  | channel r ev =>
    cases channelStep stepped with
    | deliver | stop | ignore => exact viewStays rfl
  | reader r emits =>
    cases readerStep stepped with
    | refuse | enter => exact viewStays rfl
    | act reader data => exact viewStays (actView s reader data emits)

theorem claimInstalled {p : Phase} {n : Nat} (installed : claimOf p = .installed n) :
    ∃ deal pending answer, p = .activating deal pending answer := by
  cases p <;> simp_all [claimOf]

theorem claimUndoes {p : Phase} {old : Nat}
    (undoes : claimOf p = .evicting old .flag ∨ claimOf p = .evicting old .sink) :
    p = .disconnecting old ∨ p = .clearing old := by
  cases p <;> simp_all [claimOf]

theorem tenantGuarded (task : Task) :
    (tenantOf task).guarded = TaskPhase.guarded task.phase := by
  unfold tenantOf
  split <;> simp_all [TaskPhase.guarded,Takeover.Tenant.guarded]

theorem orderlyNamed {a : Takeover.Act} (named : s.Names l a) (orderly : s.Orderly l) :
    Takeover.Orderly (view s) a := by
  cases a with
  | activate | other => exact trivial
  | install c =>
    obtain ⟨reply,deal,pending,answer,same,installing⟩ := named
    subst same
    obtain ⟨empty,alone⟩ := orderly deal pending answer installing
    refine ⟨empty,fun d n installed => ?_⟩
    obtain ⟨deal,pending,answer,activating⟩ := claimInstalled installed
    exact alone d deal pending answer activating

theorem unguardedNamed {a : Takeover.Act} (named : s.Names l a) (unguarded : s.Unguarded l) :
    Takeover.Unguarded (view s) a := by
  cases a with
  | install | other => exact trivial
  | activate c =>
    obtain ⟨reply,deal,pending,answer,same,activating⟩ := named
    subst same
    obtain ⟨tasks,calls⟩ := unguarded deal pending answer activating
    refine ⟨fun n => (tenantGuarded (s.tasks n)).trans (tasks n),fun d old => ?_⟩
    have undone (undoes : claimOf (s.calls d) = .evicting old .flag ∨
        claimOf (s.calls d) = .evicting old .sink) : False :=
      (claimUndoes undoes).elim (calls d old).1 (calls d old).2
    exact ⟨fun flag => undone (Or.inl flag),fun sink => undone (Or.inr sink)⟩

theorem exclusiveStep (inv : Takeover.Exclusive (view s)) (orderly : s.Orderly l)
    (stepped : s.step l = some t) : Takeover.Exclusive (view t) := by
  obtain ⟨a,move,named⟩ := stepMoves stepped
  exact Takeover.exclusiveMove inv (orderlyNamed named orderly) move

theorem wiredStep (inv : Takeover.Exclusive (view s)) (wired : Takeover.Wired (view s))
    (unguarded : s.Unguarded l) (stepped : s.step l = some t) : Takeover.Wired (view t) := by
  obtain ⟨a,move,named⟩ := stepMoves stepped
  exact Takeover.wiredMove inv wired (unguardedNamed named unguarded) move

theorem idsStep (ids : Takeover.Ids (view s)) (stepped : s.step l = some t) :
    Takeover.Ids (view t) := by
  obtain ⟨a,move,_⟩ := stepMoves stepped
  exact Takeover.idsMove ids move

theorem tenantAbsent {task : Task} : tenantOf task = .absent ↔ task.phase = .absent := by
  unfold tenantOf
  split <;> simp_all

theorem presentStep {n : Nat} (present : (s.tasks n).phase ≠ .absent)
    (stepped : s.step l = some t) : (t.tasks n).phase ≠ .absent := by
  obtain ⟨a,move,_⟩ := stepMoves stepped
  have here : (view s).tenants n ≠ .absent := fun absent => present (tenantAbsent.mp absent)
  exact fun absent => Takeover.presentMove here move (tenantAbsent.mpr absent)

theorem handedStep (handed : Takeover.Handed (view s)) (orderly : s.Orderly l)
    (stepped : s.step l = some t) : Takeover.Handed (view t) := by
  obtain ⟨a,move,named⟩ := stepMoves stepped
  exact Takeover.handedMove handed (orderlyNamed named orderly) move

theorem exclusiveInitial (config : Config) (publicIp : Option Text) :
    Takeover.Exclusive (view (initial config publicIp)) := by
  have none (c n : Nat) : ((view (initial config publicIp)).claims c).tenant ≠ some n := by
    simp [view,initial,claimOf,Takeover.Claim.tenant]
  refine ⟨⟨Nat.one_pos,fun c n own => absurd own (none c n),
    fun c d n own => absurd own (none c n),fun n here => absurd rfl here,Nat.one_pos,
    fun c own => absurd own (none c _)⟩,⟨?_,?_,?_⟩,?_⟩
  · intro c d m n installed
    simp [view,initial,claimOf] at installed
  · intro c n installed
    simp [view,initial,claimOf] at installed
  · intro n slot
    simp [view,initial] at slot
  · intro n present
    rcases present with here|⟨c,installed|activated⟩
    · exact absurd rfl here
    · simp [view,initial,claimOf] at installed
    · simp [view,initial,claimOf] at activated

theorem wiredInitial (config : Config) (publicIp : Option Text) :
    Takeover.Wired (view (initial config publicIp)) := by
  refine ⟨?_,?_,?_⟩
  · intro n guarded
    simp [view,initial,tenantOf,Takeover.Tenant.guarded] at guarded
  · intro c old undoes
    simp [view,initial,claimOf] at undoes
  · intro live
    simp [Takeover.State.Live,view,initial,tenantOf,Takeover.Tenant.inside] at live

theorem handedInitial (config : Config) (publicIp : Option Text) :
    Takeover.Handed (view (initial config publicIp)) := by
  refine ⟨?_,?_⟩
  · intro n next
    rcases next with active|⟨c,installed⟩
    · exact Or.inl (by simp [active,view,initial,Shared.new])
    · simp [view,initial,claimOf] at installed
  · intro n vacating
    simp [view,initial,tenantOf] at vacating

structure Bounded (k : Nat) (s : Server) : Prop where
  ids : Takeover.Ids (view s)
  calls : ∀ c, k ≤ c → s.calls c = .idle
  readers : ∀ r, s.nextReader ≤ r → s.readers r = none

def callersBelow (k : Nat) (l : Label) : Bool := (caller l).all (fun c => c < k)

theorem boundedInitial (k : Nat) (config : Config) (publicIp : Option Text) :
    Bounded k (initial config publicIp) :=
  ⟨(exclusiveInitial config publicIp).ids,fun _ _ => rfl,fun _ _ => rfl⟩

theorem readersMove {s t : Server} (bound : ∀ r, s.nextReader ≤ r → s.readers r = none)
    (moves : Moves s t) : ∀ r, t.nextReader ≤ r → t.readers r = none := by
  obtain ⟨same,kept|⟨r,old,new,here,set,_⟩⟩ := moves
  · rw [same,kept]
    exact bound
  · intro q above
    rw [same] at above
    have other : q ≠ r := by
      intro eq
      rw [← eq,bound q above] at here
      contradiction
    rw [set,update_of_ne other]
    exact bound q above

theorem readersStep (bound : ∀ r, s.nextReader ≤ r → s.readers r = none)
    (stepped : s.step l = some t) : ∀ r, t.nextReader ≤ r → t.readers r = none := by
  cases l with
  | offer c sdp =>
    have kept := offerKeeps stepped
    rw [kept.readers,kept.nextReader]
    exact bound
  | call c reply =>
    have kept := callKeeps stepped
    rw [kept.readers,kept.nextReader]
    exact bound
  | event | stop | merge | rtcp =>
    have kept := idleStill rfl stepped
    rw [kept.readers,kept.nextReader]
    exact bound
  | channel r ev => exact readersMove bound (channelMoves stepped)
  | reader r emits => exact readersMove bound (readerMoves stepped)
  | task n emits =>
    rcases taskOpens stepped with ⟨same,next⟩|⟨isControl,set,next⟩
    · rw [same,next]
      exact bound
    · intro r above
      rw [next] at above
      rw [set,update_of_ne (by omega)]
      exact bound r (by omega)

theorem boundedStep {k : Nat} (bounded : Bounded k s) (below : callersBelow k l = true)
    (stepped : s.step l = some t) : Bounded k t := by
  refine ⟨idsStep bounded.ids stepped,fun c above => ?_,readersStep bounded.readers stepped⟩
  rw [← bounded.calls c above]
  cases owner : caller l with
  | some d =>
    have less : d < k := by simpa [callersBelow,owner] using below
    exact (callerKeeps owner stepped).others c (by omega)
  | none =>
    cases working : worker l with
    | some n => rw [(workerKeeps working stepped).calls]
    | none => rw [(asideKeeps owner working stepped).calls]

theorem boundedRun {k : Nat} {config : Config} {publicIp : Option Text} {ls : List Label}
    (below : ls.all (callersBelow k) = true)
    (reached : Runs.run step (initial config publicIp) ls = some t) : Bounded k t := by
  have permits : Runs.Allowed step (fun _ l => callersBelow k l = true)
      (initial config publicIp) ls :=
    Runs.allowedOf (fun l member _ => List.all_eq_true.mp below l member)
  exact Runs.runInvariant (Bounded k) (boundedInitial k config publicIp)
    (fun _ _ _ inv permitted stepped => boundedStep inv permitted stepped) permits reached

end Views

end Server
end Vmdesk
