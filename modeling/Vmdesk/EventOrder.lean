import Vmdesk.OneClient

/-! The events of a peer connection on their way to its session: from the handler's channel by what
gathering puts aside or by the task that merges, into the channel that the session reads. -/
namespace Vmdesk

namespace Session

/- Where an event can be seen: the handler sends it, the gathering loop takes it, the session
receives it, or a send fails because the session is over. -/
inductive Point where | emitted | gathered | received | dropped
  deriving DecidableEq, Repr

def PcEvent.kept : PcEvent → Bool
  | .gathering _ => false
  | .connection _ | .dataChannel _ => true

def whole (emitted gathered : List PcEvent) : List PcEvent :=
  gathered.filter PcEvent.kept ++ emitted.drop gathered.length

def carried : Phase → Option (Nat × List PcEvent)
  | .allocatingPort n | .lookingUp n _ | .detecting n _ | .caching n _ _ => some (n,[])
  | .negotiating _ deal pending | .installing deal pending _ | .activating deal pending _
  | .spawning deal pending _ => some (deal.session,pending)
  | .idle | .taking | .disconnecting _ | .clearing _ | .releasing _ | .closing _ | .allocating
  | .discarding _ | .finished _ => none

end Session

namespace Server
open Function Session

def sees (n : Nat) : Point → Server → Label → Option PcEvent
  | .emitted,_,.event m ev => if m = n then some ev else none
  | .gathered,s,.call c .proceeds => match s.calls c with
      | .negotiating .gathering deal _ => if deal.session = n then (s.handler n).head? else none
      | _ => none
  | .received,s,.task m _ => match (s.tasks m).phase with
      | .waiting => if m = n then (s.events n).head? else none
      | _ => none
  | .dropped,s,.merge m => if m = n ∧ (s.tasks n).phase = .ended then match s.merges n with
      | .replaying pending => pending.head?
      | .forwarding => (s.handler n).head?
      | .absent | .ended => none else none
  | _,_,_ => none

/- Where the events of session `n` are, by the state of its merge task. Nothing is lost on the way
until a send fails, and none does before the session is over. -/
inductive Relayed (s : Server) (n : Nat) (log : Point → List PcEvent) : Prop where
  | before (at' : s.merges n = .absent) (received : log .received = [])
      (waiting : s.events n = []) (dropped : log .dropped = [])
      (emitted : log .emitted = log .gathered ++ s.handler n) : Relayed s n log
  | replaying (pending) (at' : s.merges n = .replaying pending) (dropped : log .dropped = [])
      (received : log .received ++ s.events n ++ pending = (log .gathered).filter PcEvent.kept)
      (emitted : log .emitted = log .gathered ++ s.handler n) : Relayed s n log
  | forwarding (passed) (at' : s.merges n = .forwarding) (dropped : log .dropped = [])
      (received : log .received ++ s.events n = (log .gathered).filter PcEvent.kept ++ passed)
      (emitted : log .emitted = log .gathered ++ passed ++ s.handler n) : Relayed s n log
  | closed (passed) (at' : s.merges n = .ended) (dropped : log .dropped = [])
      (received : log .received ++ s.events n = (log .gathered).filter PcEvent.kept ++ passed)
      (emitted : log .emitted = log .gathered ++ passed ++ s.handler n) : Relayed s n log
  | cut (passed) (at' : s.merges n = .ended) (finished : (s.tasks n).phase = .ended)
      (dropped : log .dropped ≠ [])
      (received : log .received ++ s.events n <+:
        (log .gathered).filter PcEvent.kept ++ passed)
      (emitted : log .gathered ++ passed <+: log .emitted) : Relayed s n log

structure Traced (n : Nat) (s : Server) (log : Point → List PcEvent) : Prop where
  ids : Takeover.Ids (view s)
  born : (s.tasks n).phase = .absent → s.merges n = .absent
  fresh : s.nextSession ≤ n → log .gathered = []
  aside : ∀ c pending, carried (s.calls c) = some (n,pending) →
    pending = (log .gathered).filter PcEvent.kept
  flow : Relayed s n log

structure Beside (n : Nat) (s t : Server) : Prop where
  handler : t.handler n = s.handler n
  merges : t.merges n = s.merges n
  events : t.events n = s.events n
  finished : (s.tasks n).phase = .ended → (t.tasks n).phase = .ended

inductive MergeStep (s : Server) (n : Nat) : Server → Prop where
  | replay (ev rest) (at' : s.merges n = .replaying (ev::rest)) (open' : (s.tasks n).phase ≠ .ended) :
      MergeStep s n {s with
        events := update s.events n (s.events n ++ [ev])
        merges := update s.merges n (.replaying rest)}
  | failReplay (ev rest) (at' : s.merges n = .replaying (ev::rest))
      (finished : (s.tasks n).phase = .ended) :
      MergeStep s n {s with merges := update s.merges n .ended}
  | switch (at' : s.merges n = .replaying []) :
      MergeStep s n {s with merges := update s.merges n .forwarding}
  | forward (ev rest) (at' : s.merges n = .forwarding) (next : s.handler n = ev::rest)
      (open' : (s.tasks n).phase ≠ .ended) :
      MergeStep s n {s with
        handler := update s.handler n rest
        events := update s.events n (s.events n ++ [ev])
        merges := update s.merges n .forwarding}
  | failForward (ev rest) (at' : s.merges n = .forwarding) (next : s.handler n = ev::rest)
      (finished : (s.tasks n).phase = .ended) :
      MergeStep s n {s with
        handler := update s.handler n rest
        merges := update s.merges n .ended}
  | close (at' : s.merges n = .forwarding) (empty : s.handler n = []) :
      MergeStep s n {s with merges := update s.merges n .ended}

section Facts
variable {s t : Server} {n : Nat} {log : Point → List PcEvent}

theorem carriedHolds {p : Phase} {pending : List PcEvent} (carries : carried p = some (n,pending)) :
    (claimOf p).tenant = some n := by
  cases p <;> simp_all [carried,claimOf,Takeover.Claim.tenant]

theorem carriedAbsent (traced : Traced n s log) {c : Nat} {pending : List PcEvent}
    (carries : carried (s.calls c) = some (n,pending)) : s.merges n = .absent := by
  have fresh := traced.ids.fresh c n (carriedHolds carries)
  exact traced.born (tenantAbsent.mp fresh.2.2)

theorem carriedAlone (traced : Traced n s log) {c d : Nat} {pending other : List PcEvent}
    (carries : carried (s.calls c) = some (n,pending))
    (also : carried (s.calls d) = some (n,other)) : c = d :=
  traced.ids.apart c d n (carriedHolds carries) (carriedHolds also)

theorem flowBeside (flow : Relayed s n log) (beside : Beside n s t) : Relayed t n log := by
  obtain ⟨handler,merges,events,finished⟩ := beside
  cases flow with
  | before at' received waiting dropped emitted =>
    exact .before (merges.trans at') received (events.trans waiting) dropped (handler ▸ emitted)
  | replaying pending at' dropped received emitted =>
    exact .replaying pending (merges.trans at') dropped (events ▸ received) (handler ▸ emitted)
  | forwarding passed at' dropped received emitted =>
    exact .forwarding passed (merges.trans at') dropped (events ▸ received) (handler ▸ emitted)
  | closed passed at' dropped received emitted =>
    exact .closed passed (merges.trans at') dropped (events ▸ received) (handler ▸ emitted)
  | cut passed at' ended dropped received emitted =>
    exact .cut passed (merges.trans at') (finished ended) dropped (events ▸ received) emitted

theorem wholeAppend (gathered rest : List PcEvent) :
    whole (gathered ++ rest) gathered = gathered.filter PcEvent.kept ++ rest := by
  rw [whole,List.drop_left]

theorem flowDelivers (flow : Relayed s n log) :
    log .gathered <+: log .emitted ∧
    log .received <+: whole (log .emitted) (log .gathered) ∧
    ((s.tasks n).phase ≠ .ended → log .dropped = []) ∧
    ((s.merges n = .forwarding ∨ s.merges n = .ended) → s.handler n = [] → log .dropped = [] →
      log .received ++ s.events n = whole (log .emitted) (log .gathered)) := by
  cases flow with
  | before at' received waiting dropped emitted =>
    rw [emitted,received,wholeAppend]
    refine ⟨List.prefix_append _ _,List.nil_prefix,fun _ => dropped,fun begun => ?_⟩
    simp [at'] at begun
  | replaying pending at' dropped received emitted =>
    rw [emitted,wholeAppend,← received]
    refine ⟨List.prefix_append _ _,?_,fun _ => dropped,fun begun => ?_⟩
    · simp only [List.append_assoc,List.prefix_append]
    · simp [at'] at begun
  | forwarding passed at' dropped received emitted | closed passed at' dropped received emitted =>
    have all : whole (log .emitted) (log .gathered) =
        log .received ++ s.events n ++ s.handler n := by
      rw [emitted,List.append_assoc,wholeAppend,received,List.append_assoc]
    refine ⟨⟨passed ++ s.handler n,?_⟩,?_,fun _ => dropped,fun _ none' _ => ?_⟩
    · rw [emitted,List.append_assoc]
    · rw [all,List.append_assoc]
      exact List.prefix_append _ _
    · rw [all,none',List.append_nil]
  | cut passed at' finished dropped received emitted =>
    obtain ⟨rest,emitted⟩ := emitted
    have all : whole (log .emitted) (log .gathered) =
        (log .gathered).filter PcEvent.kept ++ passed ++ rest := by
      rw [← emitted,List.append_assoc,wholeAppend,List.append_assoc]
    refine ⟨⟨passed ++ rest,?_⟩,?_,fun open' => absurd finished open',fun _ _ none' =>
      absurd none' dropped⟩
    · rw [← emitted,List.append_assoc]
    · rw [all]
      exact ((List.prefix_append _ _).trans received).trans (List.prefix_append _ _)

theorem tracedWith {l : Label} {later : Point → List PcEvent} (traced : Traced n s log)
    (stepped : s.step l = some t) (calls : t.calls = s.calls)
    (next : t.nextSession = s.nextSession) (merges : s.merges n = .absent → t.merges n = .absent)
    (gathered : later .gathered = log .gathered) (flow : Relayed t n later) : Traced n t later := by
  refine ⟨idsStep traced.ids stepped,fun absent => ?_,fun fresh => ?_,fun c pending carries => ?_,flow⟩
  · apply merges
    apply traced.born
    by_contra present
    exact presentStep present stepped absent
  · rw [gathered]
    exact traced.fresh (next ▸ fresh)
  · rw [gathered]
    rw [calls] at carries
    exact traced.aside c pending carries

theorem tracedCall {l : Label} {c : Nat} {p : Phase} (traced : Traced n s log)
    (stepped : s.step l = some (t.setCall c p)) (calls : t.calls = s.calls)
    (next : s.nextSession ≤ t.nextSession) (beside : Beside n s t)
    (carries : ∀ pending, carried p = some (n,pending) → carried (s.calls c) = some (n,pending) ∨
      pending = [] ∧ s.nextSession ≤ n) : Traced n (t.setCall c p) log := by
  refine ⟨idsStep traced.ids stepped,fun absent => ?_,fun fresh => ?_,fun d pending held => ?_,
    flowBeside traced.flow ⟨beside.handler,beside.merges,beside.events,beside.finished⟩⟩
  · have before : (s.tasks n).phase = .absent := by
      by_contra present
      exact presentStep present stepped absent
    exact beside.merges.trans (traced.born before)
  · exact traced.fresh (Nat.le_trans next fresh)
  · by_cases same : d = c
    · subst same
      rw [setCallSelf] at held
      rcases carries pending held with before|⟨empty,fresh⟩
      · exact traced.aside d pending before
      · rw [empty,traced.fresh fresh]
        rfl
    · have other : (t.setCall c p).calls d = s.calls d := by
        rw [← calls]
        exact update_of_ne same p t.calls
      rw [other] at held
      exact traced.aside d pending held

theorem mergeCases (stepped : s.stepMerge n = some t) : MergeStep s n t := by
  simp only [stepMerge] at stepped
  split at stepped
  · next ev rest at' =>
    cases Option.some.inj stepped
    split
    · next finished => exact .failReplay ev rest at' finished
    · next open' => exact .replay ev rest at' open'
  · next at' =>
    cases Option.some.inj stepped
    exact .switch at'
  · next at' =>
    split at stepped
    · next ev rest next =>
      cases Option.some.inj stepped
      split
      · next finished => exact .failForward ev rest at' next finished
      · next open' => exact .forward ev rest at' next open'
    · next empty =>
      split at stepped
      · cases Option.some.inj stepped
        exact .close at' empty
      · contradiction
  · contradiction
  · contradiction

section Logs
variable {later : Point → List PcEvent}

theorem flowEmits {ev : PcEvent} (flow : Relayed s n log) (emits : later .emitted = log .emitted ++ [ev])
    (others : ∀ point, point ≠ .emitted → later point = log point) :
    Relayed {s with handler := update s.handler n (s.handler n ++ [ev])} n later := by
  have gathered := others .gathered (by decide)
  have received := others .received (by decide)
  have dropped := others .dropped (by decide)
  have longer {front : List PcEvent} (emitted : log .emitted = front ++ s.handler n) :
      later .emitted = front ++ update s.handler n (s.handler n ++ [ev]) n := by
    rw [update_self,emits,emitted,List.append_assoc]
  cases flow with
  | before at' none' waiting clean emitted =>
    refine .before at' (received.trans none') waiting (dropped.trans clean) ?_
    rw [gathered]
    exact longer emitted
  | replaying pending at' clean taken emitted =>
    refine .replaying pending at' (dropped.trans clean) ?_ ?_
    · rw [received,gathered,taken]
    · rw [gathered]
      exact longer emitted
  | forwarding passed at' clean taken emitted =>
    refine .forwarding passed at' (dropped.trans clean) ?_ ?_
    · rw [received,gathered,taken]
    · rw [gathered]
      exact longer emitted
  | closed passed at' clean taken emitted =>
    refine .closed passed at' (dropped.trans clean) ?_ ?_
    · rw [received,gathered,taken]
    · rw [gathered]
      exact longer emitted
  | cut passed at' finished cut taken emitted =>
    refine .cut passed at' finished (dropped ▸ cut) ?_ ?_
    · rw [received,gathered]
      exact taken
    · rw [gathered,emits]
      exact emitted.trans (List.prefix_append _ _)

theorem flowReceives {ev : PcEvent} {rest : List PcEvent} (flow : Relayed s n log)
    (next : s.events n = ev::rest) (receives : later .received = log .received ++ [ev])
    (others : ∀ point, point ≠ .received → later point = log point)
    (handler : t.handler n = s.handler n) (merges : t.merges n = s.merges n)
    (events : t.events n = rest) (open' : (s.tasks n).phase = .waiting) : Relayed t n later := by
  have gathered := others .gathered (by decide)
  have emitted := others .emitted (by decide)
  have dropped := others .dropped (by decide)
  have same : later .received ++ t.events n = log .received ++ s.events n := by
    rw [receives,events,next,List.append_assoc]
    rfl
  cases flow with
  | before at' none' waiting => simp [waiting] at next
  | replaying pending at' clean taken sent =>
    refine .replaying pending (merges.trans at') (dropped.trans clean) ?_ ?_
    · rw [same,gathered,taken]
    · rw [handler,emitted,gathered,sent]
  | forwarding passed at' clean taken sent =>
    refine .forwarding passed (merges.trans at') (dropped.trans clean) ?_ ?_
    · rw [same,gathered,taken]
    · rw [handler,emitted,gathered,sent]
  | closed passed at' clean taken sent =>
    refine .closed passed (merges.trans at') (dropped.trans clean) ?_ ?_
    · rw [same,gathered,taken]
    · rw [handler,emitted,gathered,sent]
  | cut passed at' finished => simp [open'] at finished

theorem flowMerges (flow : Relayed s n log) (stepped : MergeStep s n t)
    (drops : later .dropped = log .dropped ++ (sees n .dropped s (.merge n)).toList)
    (others : ∀ point, point ≠ .dropped → later point = log point) : Relayed t n later := by
  have gathered := others .gathered (by decide)
  have emitted := others .emitted (by decide)
  have received := others .received (by decide)
  cases stepped with
  | replay ev rest at' open' =>
    cases flow with
    | replaying pending found clean taken sent =>
      cases at'.symm.trans found
      refine .replaying rest (update_self ..) ?_ ?_ ?_
      · simp [drops,clean,sees,open']
      · simp only [update_self,received,gathered,← taken,List.append_assoc,List.singleton_append]
      · rw [emitted,gathered]
        exact sent
    | before found | forwarding passed found | closed passed found | cut passed found =>
      cases at'.symm.trans found
  | failReplay ev rest at' finished =>
    cases flow with
    | replaying pending found clean taken sent =>
      cases at'.symm.trans found
      refine .cut [] (update_self ..) finished ?_ ?_ ?_
      · simp [drops,sees,finished,at']
      · rw [received,gathered,← taken,List.append_nil]
        exact List.prefix_append _ _
      · rw [emitted,gathered,sent,List.append_nil]
        exact List.prefix_append _ _
    | before found | forwarding passed found | closed passed found | cut passed found =>
      cases at'.symm.trans found
  | switch at' =>
    cases flow with
    | replaying pending found clean taken sent =>
      cases at'.symm.trans found
      refine .forwarding [] (update_self ..) ?_ ?_ ?_
      · simp [drops,clean,sees,at']
      · rw [received,gathered,← taken,List.append_nil,List.append_nil]
      · rw [emitted,gathered,sent,List.append_nil]
    | before found | forwarding passed found | closed passed found | cut passed found =>
      cases at'.symm.trans found
  | forward ev rest at' next open' =>
    cases flow with
    | forwarding passed found clean taken sent =>
      refine .forwarding (passed ++ [ev]) (update_self ..) ?_ ?_ ?_
      · simp [drops,clean,sees,open']
      · simp only [update_self,received,gathered,← List.append_assoc,taken]
      · simp only [update_self,emitted,gathered,sent,next,List.append_assoc,List.singleton_append]
    | before found | replaying pending found | closed passed found | cut passed found =>
      cases at'.symm.trans found
  | failForward ev rest at' next finished =>
    cases flow with
    | forwarding passed found clean taken sent =>
      refine .cut passed (update_self ..) finished ?_ ?_ ?_
      · simp [drops,sees,finished,at',next]
      · rw [received,gathered,taken]
      · rw [emitted,gathered,sent]
        exact List.prefix_append _ _
    | before found | replaying pending found | closed passed found | cut passed found =>
      cases at'.symm.trans found
  | close at' empty =>
    cases flow with
    | forwarding passed found clean taken sent =>
      refine .closed passed (update_self ..) ?_ ?_ ?_
      · simp [drops,clean,sees,at',empty]
      · rw [received,gathered,taken]
      · rw [emitted,gathered,sent]
    | before found | replaying pending found | closed passed found | cut passed found =>
      cases at'.symm.trans found

end Logs

section Steps
variable {l : Label}

def logged (n : Nat) (s : Server) (l : Label) (log : Point → List PcEvent) : Point → List PcEvent :=
  fun point => log point ++ (sees n point s l).toList

theorem loggedSame (nothing : ∀ point, sees n point s l = none) : logged n s l log = log := by
  funext point
  simp [logged,nothing]

structure Untouched (s t : Server) : Prop where
  handler : t.handler = s.handler
  merges : t.merges = s.merges
  events : t.events = s.events

theorem untouchedBeside (quiet : Untouched s t)
    (finished : (s.tasks n).phase = .ended → (t.tasks n).phase = .ended) : Beside n s t :=
  ⟨congrFun quiet.handler n,congrFun quiet.merges n,congrFun quiet.events n,finished⟩

theorem tracedBeside (traced : Traced n s log) (stepped : s.step l = some t)
    (nothing : ∀ point, sees n point s l = none) (calls : t.calls = s.calls)
    (next : t.nextSession = s.nextSession) (beside : Beside n s t) :
    Traced n t (logged n s l log) := by
  rw [loggedSame nothing]
  exact tracedWith traced stepped calls next (fun absent => beside.merges.trans absent) rfl
    (flowBeside traced.flow beside)

theorem tracedUntouched (traced : Traced n s log) (stepped : s.step l = some t)
    (nothing : ∀ point, sees n point s l = none) (aside : Aside s t) (quiet : Untouched s t) :
    Traced n t (logged n s l log) :=
  tracedBeside traced stepped nothing aside.calls aside.nextSession
    (untouchedBeside quiet (fun finished => by rw [aside.tasks,finished]))

theorem eventTraced {m : Nat} {ev : PcEvent} (traced : Traced n s log)
    (stepped : s.step (.event m ev) = some t) : Traced n t (logged n s (.event m ev) log) := by
  have aside := (idleStill rfl stepped).toAside
  have moved := stepped
  simp only [step] at moved
  split at moved
  · contradiction
  · cases Option.some.inj moved
    by_cases same : m = n
    · subst same
      refine tracedWith traced stepped aside.calls aside.nextSession id (by simp [logged,sees]) ?_
      refine flowEmits traced.flow (by simp [logged,sees]) (fun point other => ?_)
      cases point <;> simp_all [logged,sees]
    · refine tracedBeside traced stepped (fun point => ?_) aside.calls aside.nextSession
        ⟨update_of_ne (Ne.symm same) _ _,rfl,rfl,id⟩
      cases point <;> simp [sees,same]

theorem mergeTraced {m : Nat} (traced : Traced n s log) (stepped : s.step (.merge m) = some t) :
    Traced n t (logged n s (.merge m) log) := by
  have aside := (idleStill rfl stepped).toAside
  have moved := mergeCases stepped
  by_cases same : m = n
  · subst same
    have begun : s.merges m ≠ .absent := by
      cases moved <;> simp_all
    refine tracedWith traced stepped aside.calls aside.nextSession (fun absent => absurd absent begun)
      (by simp [logged,sees]) ?_
    refine flowMerges traced.flow moved rfl (fun point other => ?_)
    cases point <;> simp_all [logged,sees]
  · have nothing (point : Point) : sees n point s (.merge m) = none := by
      cases point <;> simp [sees,same]
    have elsewhere := Ne.symm same
    refine tracedBeside traced stepped nothing aside.calls aside.nextSession ?_
    cases moved with
    | replay | failReplay | switch | forward | failForward | close =>
      exact ⟨by simp [elsewhere],by simp [elsewhere],by simp [elsewhere],fun finished => finished⟩

theorem taskUntouched {m : Nat} {emits : Emits} (stepped : s.stepTask m emits = some t)
    (busy : (s.tasks m).phase ≠ .waiting) : Untouched s t := by
  cases taskStep stepped with
  | receive ev rest at' | finish at' => exact absurd at' busy
  | openChannel label =>
    unfold openReader
    simp only
    split <;> exact ⟨rfl,rfl,rfl⟩
  | _ => exact ⟨rfl,rfl,rfl⟩

theorem taskOver {m : Nat} {emits : Emits} (stepped : s.stepTask m emits = some t) :
    (s.tasks m).phase ≠ .ended := by
  intro finished
  simp [stepTask,finished] at stepped

theorem taskTraced {m : Nat} {emits : Emits} (traced : Traced n s log)
    (stepped : s.step (.task m emits) = some t) : Traced n t (logged n s (.task m emits) log) := by
  have kept := taskKeeps stepped
  have finished (ended : (s.tasks n).phase = .ended) : (t.tasks n).phase = .ended := by
    have other : n ≠ m := fun same => taskOver stepped (same ▸ ended)
    rw [kept.others n other,ended]
  by_cases waiting : (s.tasks m).phase = .waiting
  · have moved := stepped
    simp only [step,stepTask,waiting] at moved
    split at moved
    · next ev rest next =>
      cases Option.some.inj moved
      rw [receiveExact] at stepped kept finished ⊢
      by_cases same : m = n
      · subst same
        refine tracedWith traced stepped kept.calls kept.nextSession id
          (by simp [logged,sees]) ?_
        refine flowReceives traced.flow next ?_ (fun point other => ?_) rfl rfl (update_self ..) waiting
        · simp [logged,sees,waiting,next]
        · cases point <;> simp_all [logged,sees]
      · refine tracedBeside traced stepped (fun point => ?_) kept.calls kept.nextSession
          ⟨rfl,rfl,update_of_ne (Ne.symm same) _ _,finished⟩
        cases point <;> simp [sees,waiting,same]
    · next empty =>
      split at moved
      · cases Option.some.inj moved
        refine tracedBeside traced stepped (fun point => ?_) kept.calls kept.nextSession
          (untouchedBeside ⟨rfl,rfl,rfl⟩ finished)
        cases point <;> simp only [sees,waiting]
        split
        · next same =>
          rw [← same,empty]
          rfl
        · rfl
      · contradiction
  · refine tracedBeside traced stepped (fun point => ?_) kept.calls kept.nextSession
      (untouchedBeside (taskUntouched stepped waiting) finished)
    cases point <;> simp [sees]

theorem negotiationCases {c : Nat} {stage : Stage} {deal : Deal} {pending : List PcEvent}
    {reply : Reply} (stepped : s.stepNegotiation c stage deal pending reply = some t) :
    (∃ ev rest later, stage = .gathering ∧ reply = .proceeds ∧
      s.handler deal.session = ev::rest ∧
      t = {s with handler := update s.handler deal.session rest}.setCall c
        (.negotiating later deal (pending ++ [ev].filter PcEvent.kept))) ∨
    ∃ p, t = s.setCall c p ∧ (carried p = none ∨ carried p = some (deal.session,pending)) ∧
      (stage = .gathering → reply = .proceeds → s.handler deal.session = []) := by
  unfold stepNegotiation at stepped
  split at stepped
  · simp only [stepGather] at stepped
    split at stepped
    · next ev rest next =>
      left
      refine ⟨ev,rest,?_⟩
      split at stepped
      · cases Option.some.inj stepped
        exact ⟨.collecting,rfl,rfl,next,by simp [PcEvent.kept]⟩
      · cases Option.some.inj stepped
        exact ⟨.gathering,rfl,rfl,next,by simp [PcEvent.kept]⟩
      · next kept =>
        cases Option.some.inj stepped
        refine ⟨.gathering,rfl,rfl,next,?_⟩
        cases ev with
        | gathering state => exact absurd rfl (kept state)
        | connection | dataChannel => rfl
    · next empty =>
      split at stepped
      · cases Option.some.inj stepped
        exact Or.inr ⟨_,rfl,Or.inl rfl,fun _ _ => empty⟩
      · contradiction
  · cases Option.some.inj stepped
    exact Or.inr ⟨_,rfl,Or.inr rfl,fun _ => by simp⟩
  · contradiction
  · cases Option.some.inj stepped
    right
    unfold stepCollect
    split
    · exact ⟨_,rfl,Or.inl rfl,by simp⟩
    · split
      · exact ⟨_,rfl,Or.inl rfl,by simp⟩
      · exact ⟨_,rfl,Or.inr rfl,by simp⟩
  · contradiction
  · next later =>
    cases Option.some.inj stepped
    exact Or.inr ⟨_,rfl,Or.inr rfl,fun same => by simp_all⟩
  · cases Option.some.inj stepped
    exact Or.inr ⟨_,rfl,Or.inl rfl,fun _ => by simp⟩
  · contradiction

theorem gatherTraced {c : Nat} {deal : Deal} {stage : Stage} {pending rest : List PcEvent}
    {ev : PcEvent} (traced : Traced n s log) (same : deal.session = n)
    (at' : s.calls c = .negotiating .gathering deal pending) (next : s.handler n = ev::rest)
    (stepped : s.step (.call c .proceeds) =
      some ({s with handler := update s.handler n rest}.setCall c
        (.negotiating stage deal (pending ++ [ev].filter PcEvent.kept)))) :
    Traced n ({s with handler := update s.handler n rest}.setCall c
      (.negotiating stage deal (pending ++ [ev].filter PcEvent.kept)))
      (logged n s (.call c .proceeds) log) := by
  have carries : carried (s.calls c) = some (n,pending) := by simp [at',carried,same]
  have absent := carriedAbsent traced carries
  have known := (traced.ids.fresh c n (carriedHolds carries)).2.1
  have gathered : logged n s (.call c .proceeds) log .gathered = log .gathered ++ [ev] := by
    simp [logged,sees,at',same,next]
  have others (point : Point) (other : point ≠ .gathered) :
      logged n s (.call c .proceeds) log point = log point := by
    cases point <;> simp_all [logged,sees]
  refine ⟨idsStep traced.ids stepped,fun _ => absent,fun fresh => ?_,fun d put held => ?_,?_⟩
  · exact absurd known (Nat.not_lt.mpr fresh)
  · by_cases same' : d = c
    · subst same'
      simp only [setCallSelf,carried,Option.some.injEq,Prod.mk.injEq] at held
      rw [gathered,List.filter_append,← traced.aside d pending carries]
      exact held.2.symm
    · have before : carried (s.calls d) = some (n,put) := by
        rw [← held]
        exact congrArg carried (update_of_ne same' _ _).symm
      exact absurd (carriedAlone traced before carries) same'
  · cases traced.flow with
    | before _ received waiting dropped emitted =>
      refine .before absent ((others .received (by decide)).trans received) waiting
        ((others .dropped (by decide)).trans dropped) ?_
      have front : ({s with handler := update s.handler n rest}.setCall c
        (.negotiating stage deal (pending ++ [ev].filter PcEvent.kept))).handler n = rest :=
        update_self ..
      rw [others .emitted (by decide),gathered,front,emitted,next,List.append_assoc]
      rfl
    | replaying _ found | forwarding _ found | closed _ found | cut _ found =>
      cases absent.symm.trans found

theorem spawnTraced {c : Nat} {deal : Deal} {pending : List PcEvent} {answer : Text}
    (traced : Traced n s log) (same : deal.session = n)
    (at' : s.calls c = .spawning deal pending answer)
    (stepped : s.step (.call c .proceeds) = some t)
    (tasks : t.tasks = update s.tasks n ⟨.waiting,false⟩)
    (merges : t.merges = update s.merges n (.replaying pending))
    (handler : t.handler = s.handler) (events : t.events = s.events)
    (next : t.nextSession = s.nextSession)
    (calls : t.calls = update s.calls c (.finished (.ok answer))) : Traced n t log := by
  have carries : carried (s.calls c) = some (n,pending) := by simp [at',carried,same]
  have absent := carriedAbsent traced carries
  refine ⟨idsStep traced.ids stepped,fun gone => ?_,fun fresh => ?_,fun d put held => ?_,?_⟩
  · simp [tasks] at gone
  · exact traced.fresh (next ▸ fresh)
  · rw [calls] at held
    by_cases same' : d = c
    · simp [same',carried] at held
    · rw [update_of_ne same'] at held
      exact traced.aside d put held
  · cases traced.flow with
    | before _ received waiting dropped emitted =>
      refine .replaying pending (by simp [merges]) dropped ?_ (handler ▸ emitted)
      rw [received,events,waiting]
      exact traced.aside c pending carries
    | replaying _ found | forwarding _ found | closed _ found | cut _ found =>
      cases absent.symm.trans found

theorem callSees {c : Nat} {reply : Reply}
    (elsewhere : ∀ deal pending, s.calls c = .negotiating .gathering deal pending →
      reply = .proceeds → deal.session = n → s.handler n = []) (point : Point) :
    sees n point s (.call c reply) = none := by
  cases point with
  | emitted | received | dropped => simp [sees]
  | gathered =>
    cases reply with
    | fails | released | detected | timedOut | described => simp [sees]
    | proceeds =>
      simp only [sees]
      split
      · next deal pending at' =>
        split
        · next same => simp [elsewhere deal pending at' rfl same]
        · rfl
      · rfl

theorem negotiateTraced {c : Nat} {stage : Stage} {deal : Deal} {pending : List PcEvent}
    {reply : Reply} (traced : Traced n s log) (at' : s.calls c = .negotiating stage deal pending)
    (stepped : s.step (.call c reply) = some t) : Traced n t (logged n s (.call c reply) log) := by
  have turned : s.stepNegotiation c stage deal pending reply = some t := by
    simpa only [step,stepCall,at'] using stepped
  rcases negotiationCases turned with ⟨ev,rest,later,loop,turn,next,same⟩|⟨p,same,leads,none'⟩
  · subst loop turn same
    by_cases own : deal.session = n
    · subst own
      exact gatherTraced traced rfl at' next stepped
    · have others (other : Deal) (put : List PcEvent)
          (found : s.calls c = .negotiating .gathering other put) : other.session ≠ n := by
        cases at'.symm.trans found
        exact own
      rw [loggedSame (callSees (fun other put found _ taken => absurd taken (others other put found)))]
      refine tracedCall traced stepped rfl (Nat.le_refl _)
        ⟨update_of_ne (Ne.symm own) _ _,rfl,rfl,id⟩ (fun put held => ?_)
      simp [carried,own] at held
  · subst same
    have empty (other : Deal) (put : List PcEvent)
        (found : s.calls c = .negotiating .gathering other put) (turn : reply = .proceeds)
        (taken : other.session = n) : s.handler n = [] := by
      cases at'.symm.trans found
      exact taken ▸ none' rfl turn
    rw [loggedSame (callSees empty)]
    refine tracedCall traced stepped rfl (Nat.le_refl _) ⟨rfl,rfl,rfl,id⟩ (fun put held => ?_)
    rcases leads with gone|stays
    · cases gone.symm.trans held
    · rw [at']
      exact Or.inl (stays.symm.trans held)

theorem callTraced {c : Nat} {reply : Reply} (traced : Traced n s log)
    (stepped : s.step (.call c reply) = some t) : Traced n t (logged n s (.call c reply) log) := by
  have quiet (stays : ∀ deal pending, s.calls c ≠ .negotiating .gathering deal pending) :
      logged n s (.call c reply) log = log :=
    loggedSame (callSees (fun deal pending at' => absurd at' (stays deal pending)))
  have moved := callStep stepped
  cases moved with
  | negotiate stage deal pending _ handler p at' =>
    exact negotiateTraced traced at' stepped
  | spawn deal pending answer at' =>
    rw [quiet (by simp [at'])]
    by_cases same : deal.session = n
    · subst same
      exact spawnTraced traced rfl at' stepped rfl rfl rfl rfl rfl rfl
    · have elsewhere := Ne.symm same
      refine tracedCall traced stepped rfl (Nat.le_refl _)
        ⟨rfl,update_of_ne elsewhere _ _,rfl,fun finished => ?_⟩ (by simp [carried])
      simp only [update_of_ne elsewhere]
      exact finished
  | allocate at' =>
    rw [quiet (by simp [at'])]
    refine tracedCall traced stepped rfl (Nat.le_succ _) ⟨rfl,rfl,rfl,id⟩ (fun pending held => ?_)
    simp only [carried,Option.some.injEq,Prod.mk.injEq] at held
    exact Or.inr ⟨held.2.symm,held.1.le⟩
  | take old at' | pass at' | disconnect old at' | clear old at' | release old emits at'
  | close old at' | discard deal at' =>
    rw [quiet (by simp [at'])]
    exact tracedCall traced stepped rfl (Nat.le_refl _) ⟨rfl,rfl,rfl,id⟩ (by simp [carried])
  | allocatePort m at' | locate m port ip at' | detect m port at' | detected m port ip at'
  | undetected m port at' | cache m port ip at' | install deal pending answer at'
  | activate deal pending answer at' =>
    rw [quiet (by simp [at'])]
    refine tracedCall traced stepped rfl (Nat.le_refl _) ⟨rfl,rfl,rfl,id⟩ (fun pending held => ?_)
    rw [at']
    exact Or.inl held

theorem actUntouched (s : Server) (reader : Reader) (data : LittleEndian.Bytes) (emits : Emits) :
    Untouched s (s.act reader data emits) := by
  unfold act
  split
  · split <;> exact ⟨rfl,rfl,rfl⟩
  · split <;> exact ⟨rfl,rfl,rfl⟩

theorem tracedStep (traced : Traced n s log) (stepped : s.step l = some t) :
    Traced n t (logged n s l log) := by
  cases l with
  | offer c sdp =>
    rw [loggedSame (fun point => by cases point <;> simp [sees])]
    cases offerStep stepped with
    | reject | begin =>
      exact tracedCall traced stepped rfl (Nat.le_refl _) ⟨rfl,rfl,rfl,id⟩ (by simp [carried])
  | call c reply => exact callTraced traced stepped
  | event m ev => exact eventTraced traced stepped
  | merge m => exact mergeTraced traced stepped
  | task m emits => exact taskTraced traced stepped
  | stop m =>
    refine tracedUntouched traced stepped (fun point => by cases point <;> simp [sees])
      (idleStill rfl stepped).toAside ?_
    cases Option.some.inj stepped
    exact ⟨rfl,rfl,rfl⟩
  | rtcp m packets =>
    refine tracedUntouched traced stepped (fun point => by cases point <;> simp [sees])
      (idleStill rfl stepped).toAside ?_
    rcases rtcpStep stepped with same|same
    · subst same
      exact ⟨rfl,rfl,rfl⟩
    · subst same
      exact ⟨rfl,rfl,rfl⟩
  | channel r ev =>
    refine tracedUntouched traced stepped (fun point => by cases point <;> simp [sees])
      (channelAside stepped) ?_
    cases channelStep stepped with
    | deliver | stop | ignore => exact ⟨rfl,rfl,rfl⟩
  | reader r emits =>
    refine tracedUntouched traced stepped (fun point => by cases point <;> simp [sees])
      (readerAside stepped) ?_
    cases readerStep stepped with
    | refuse | enter => exact ⟨rfl,rfl,rfl⟩
    | act reader data here at' =>
      have acted := actUntouched s reader data emits
      exact ⟨acted.handler,acted.merges,acted.events⟩

theorem tracedInitial (config : Config) (publicIp : Option Text) :
    Traced n (initial config publicIp) (fun _ => []) :=
  ⟨(exclusiveInitial config publicIp).ids,fun _ => rfl,fun _ => rfl,
    fun c pending held => by simp [initial,carried] at held,.before rfl rfl rfl rfl rfl⟩

/- What a session has received is always a front part of what it should receive in the end. Once its
merge task has forwarded all there is and no send has failed, the rest waits in the session's channel;
and no send fails before the session is over. -/
theorem eventsDelivered (config : Config) (publicIp : Option Text) (ls : List Label)
    (reached : Runs.run step (initial config publicIp) ls = some t) (n : Nat) :
    Runs.observed step (sees n .gathered) (initial config publicIp) ls <+:
      Runs.observed step (sees n .emitted) (initial config publicIp) ls ∧
    Runs.observed step (sees n .received) (initial config publicIp) ls <+:
      whole (Runs.observed step (sees n .emitted) (initial config publicIp) ls)
        (Runs.observed step (sees n .gathered) (initial config publicIp) ls) ∧
    ((t.tasks n).phase ≠ .ended →
      Runs.observed step (sees n .dropped) (initial config publicIp) ls = []) ∧
    ((t.merges n = .forwarding ∨ t.merges n = .ended) → t.handler n = [] →
      Runs.observed step (sees n .dropped) (initial config publicIp) ls = [] →
      Runs.observed step (sees n .received) (initial config publicIp) ls ++ t.events n =
        whole (Runs.observed step (sees n .emitted) (initial config publicIp) ls)
          (Runs.observed step (sees n .gathered) (initial config publicIp) ls)) := by
  have traced := Runs.observedInvariant (Traced n) (tracedInitial config publicIp)
    (fun s log l t traced stepped => tracedStep traced stepped) reached
  exact flowDelivers traced.flow

end Steps
end Facts

def cutShort : List Label :=
  [.offer 0 "m=video 9\nm=application 9\n".toList] ++ List.replicate 13 (.call 0 .proceeds) ++
    [.event 1 (.gathering .gathering),.event 1 (.connection .connecting),.call 0 .proceeds,
      .call 0 .proceeds,.call 0 .timedOut,.event 1 (.gathering .complete),
      .call 0 (.described (some "a=candidate:1 1 udp 1 10.0.0.7 5 typ host\n".toList))] ++
    conclude 0 ++ List.replicate 3 (.merge 1) ++ [.task 1 .succeed,.task 1 .succeed]

theorem cutShortDelivered :
    ∃ t, Runs.run step located cutShort = some t ∧
      Runs.observed step (sees 1 .received) located cutShort =
        [.connection .connecting,.gathering .complete] ∧
      Runs.observed step (sees 1 .received) located cutShort ++ t.events 1 =
        whole (Runs.observed step (sees 1 .emitted) located cutShort)
          (Runs.observed step (sees 1 .gathered) located cutShort) := by
  have facts : (Runs.run step located cutShort).map (fun t => (t.merges 1,t.handler 1)) =
    some (.forwarding,[]) := by decide
  obtain ⟨t,reached,same⟩ := Option.map_eq_some_iff.mp facts
  simp only [Prod.mk.injEq] at same
  refine ⟨t,reached,by decide,?_⟩
  exact (eventsDelivered _ _ _ reached 1).2.2.2 (Or.inl same.1) same.2 (by decide)

def closedFirst : List Label := negotiate 0 ++ conclude 0 ++
  [.event 1 (.connection .closed),.event 1 (.dataChannel none)] ++ List.replicate 3 (.merge 1) ++
  List.replicate 7 (.task 1 .succeed)

/- All that has come in is forwarded, but the session never takes the last event. -/
theorem closedFirstUnreceived : ¬∀ config publicIp ls t, ∀ n : Nat,
    Runs.run step (initial config publicIp) ls = some t →
    (t.merges n = .forwarding ∨ t.merges n = .ended) → t.handler n = [] →
    Runs.observed step (sees n .dropped) (initial config publicIp) ls = [] →
    Runs.observed step (sees n .received) (initial config publicIp) ls =
      whole (Runs.observed step (sees n .emitted) (initial config publicIp) ls)
        (Runs.observed step (sees n .gathered) (initial config publicIp) ls) := by
  intro all
  have facts : (Runs.run step located closedFirst).map
      (fun t => (t.merges 1,t.handler 1,(t.tasks 1).phase)) = some (.forwarding,[],.ended) := by decide
  obtain ⟨t,reached,same⟩ := Option.map_eq_some_iff.mp facts
  simp only [Prod.mk.injEq] at same
  have received := all _ _ _ t 1 reached (Or.inl same.1) same.2.1 (by decide)
  exact absurd received (by decide)

end Server
end Vmdesk
