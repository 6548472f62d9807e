import Vmdesk.NetStep
import Vmdesk.Runs

/-! Who speaks first on the control channel. The task behind it waits for the event that says the
channel is open, the network loop does not. -/
namespace Vmdesk
open Session (ChannelEvent)

namespace Net

structure Talk where
  bitrateKbps : Option UInt32
  channel : ChannelState
  inbox : List ChannelEvent
  greet : GreetPhase
  sent : List (Sender × ControlMessage)

def talk (n : Net) : Talk := ⟨n.bitrateKbps,n.channel,n.inbox,n.greet,n.sent⟩

def outgoing (n : Net) : Option ControlMessage := match n.phase with
  | .controlling m => some m
  | .leaving => some .releaseAll
  | _ => none

namespace Talk

def send (v : Talk) (sender : Sender) (m : ControlMessage) : Talk :=
  if v.channel = .opened then {v with sent := v.sent ++ [(sender,m)]} else v

def fromTask (v : Talk) : List ControlMessage :=
  (v.sent.filter (fun s => s.1 == .task)).map Prod.snd

def greeting (v : Talk) : List ControlMessage :=
  .hello protocolVersion::v.bitrateKbps.toList.map (fun kbps => .setBitrate kbps)

/- The first message on the channel is the task's Hello. -/
def HelloFirst (v : Talk) : Prop :=
  ∀ s, v.sent.head? = some s → s = (.task,.hello protocolVersion)

def Ungreeted (v : Talk) : Prop := .onOpen ∈ v.inbox ∨ v.greet = .greeting

def Running (v : Talk) : Prop :=
  v.channel ≠ .closed → v.greet ≠ .ended ∧ ∀ ev ∈ v.inbox, greetAfter ev ≠ .ended

/- The task sends Hello and then the bitrate, both of them as long as the channel stays open. -/
structure Greeted (v : Talk) : Prop where
  order : v.fromTask <+: v.greeting
  whole : v.channel = .opened → v.greet = .polling → .onOpen ∉ v.inbox → v.fromTask = v.greeting

structure Progress (v : Talk) : Prop extends Greeted v where
  single : v.inbox.count .onOpen ≤ 1
  unopened : v.channel = .connecting → .onOpen ∉ v.inbox ∧ v.sent = [] ∧
    (v.greet = .polling ∨ v.greet = .ended)
  unread : .onOpen ∈ v.inbox → v.fromTask = [] ∧ (v.greet = .polling ∨ v.greet = .ended)
  greeting : v.greet = .greeting → .onOpen ∉ v.inbox ∧ v.fromTask = []
  asking : ∀ kbps, v.greet = .asking kbps → .onOpen ∉ v.inbox ∧ v.bitrateKbps = some kbps ∧
    v.fromTask <+: [.hello protocolVersion] ∧
    (v.channel = .opened → v.fromTask = [.hello protocolVersion])

theorem fromTaskSnoc (v : Talk) (sender : Sender) (m : ControlMessage) :
    fromTask {v with sent := v.sent ++ [(sender,m)]} =
      match sender with
      | .task => v.fromTask ++ [m]
      | .loop => v.fromTask := by
  cases sender <;> simp [fromTask]

theorem sendFirst (v : Talk) (sender : Sender) (m : ControlMessage) (first : v.HelloFirst) :
    (v.send sender m).HelloFirst ↔
      ¬ (v.channel = .opened ∧ v.sent = [] ∧ (sender,m) ≠ (.task,.hello protocolVersion)) := by
  unfold send
  split
  · next opened =>
    cases said : v.sent with
    | nil => simp [HelloFirst,opened]
    | cons s rest =>
      have same := first s (by rw [said]; rfl)
      simp [HelloFirst,same]
  · next closed => simp [first,closed]

theorem unsaid {v : Talk} (progress : v.Progress) (running : v.Running) (first : v.HelloFirst)
    (opened : v.channel = .opened) : v.sent = [] ↔ v.Ungreeted := by
  apply Iff.intro
  · intro silent
    have nothing : v.fromTask = [] := by simp [fromTask,silent]
    by_contra greeted
    obtain ⟨absent,later⟩ := not_or.mp greeted
    cases at' : v.greet with
    | polling => simp [progress.whole opened at' absent,Talk.greeting] at nothing
    | greeting => exact later at'
    | asking kbps => simp [(progress.asking kbps at').2.2.2 opened] at nothing
    | ended => exact (running (by simp [opened])).1 at'
  · intro ungreeted
    have nothing : v.fromTask = [] := ungreeted.elim (fun inside => (progress.unread inside).1)
      (fun at' => (progress.greeting at').2)
    cases said : v.sent with
    | nil => rfl
    | cons s rest =>
      have own := first s (by rw [said]; rfl)
      simp [fromTask,said,own] at nothing

theorem Progress.loopSends {v : Talk} (progress : v.Progress) (m : ControlMessage) :
    (v.send .loop m).Progress := by
  unfold send
  split
  · next opened =>
    have same := v.fromTaskSnoc .loop m
    simp only at same
    obtain ⟨⟨order,whole⟩,single,unopened,unread,greeting,asking⟩ := progress
    refine ⟨⟨?_,?_⟩,single,?_,?_,?_,?_⟩
    · rwa [same]
    · rwa [same]
    · intro connecting
      simp [opened] at connecting
    · rwa [same]
    · rwa [same]
    · rwa [same]
  · exact progress

theorem Progress.closes {v : Talk} (progress : v.Progress) : Progress {v with channel := .closed} := by
  obtain ⟨⟨order,_⟩,single,_,unread,greeting,asking⟩ := progress
  refine ⟨⟨order,?_⟩,single,?_,unread,greeting,?_⟩
  · intro opened
    contradiction
  · intro connecting
    contradiction
  · intro kbps at'
    obtain ⟨absent,asked,part,_⟩ := asking kbps at'
    exact ⟨absent,asked,part,fun opened => by contradiction⟩

theorem Progress.opens {v : Talk} (progress : v.Progress) (connecting : v.channel = .connecting) :
    Progress {v with channel := .opened, inbox := v.inbox ++ [.onOpen]} := by
  obtain ⟨absent,silent,idle⟩ := progress.unopened connecting
  have unsaid : v.fromTask = [] := by simp [fromTask,silent]
  refine ⟨⟨progress.order,?_⟩,?_,?_,?_,?_,?_⟩
  · intro _ _ handled
    simp at handled
  · simp [List.count_eq_zero.mpr absent]
  · intro connecting
    contradiction
  · exact fun _ => ⟨unsaid,idle⟩
  · intro at'
    rcases idle with same|same <;> rw [same] at at' <;> contradiction
  · intro kbps at'
    rcases idle with same|same <;> rw [same] at at' <;> contradiction

theorem Progress.receives {v : Talk} (progress : v.Progress) {ev : ChannelEvent}
    (other : ev ≠ .onOpen) : Progress {v with inbox := v.inbox ++ [ev]} := by
  have same : .onOpen ∈ v.inbox ++ [ev] ↔ .onOpen ∈ v.inbox := by simp [Ne.symm other]
  obtain ⟨⟨order,whole⟩,single,unopened,unread,greeting,asking⟩ := progress
  refine ⟨⟨order,?_⟩,?_,?_,?_,?_,?_⟩
  · simp only [same]
    exact whole
  · simpa [List.count_append,List.count_singleton,other] using single
  · simp only [same]
    exact unopened
  · simp only [same]
    exact unread
  · simp only [same]
    exact greeting
  · simp only [same]
    exact asking

theorem Progress.starts {v : Talk} (progress : v.Progress) {rest : List ChannelEvent}
    (inbox : v.inbox = .onOpen::rest) : Progress {v with inbox := rest, greet := .greeting} := by
  obtain ⟨⟨order,_⟩,single,unopened,unread,_,_⟩ := progress
  rw [inbox] at single unopened unread
  have absent : .onOpen ∉ rest := by
    rw [← List.count_eq_zero]
    simpa using single
  refine ⟨⟨order,?_⟩,?_,?_,?_,?_,?_⟩
  · intro _ at'
    contradiction
  · simp [List.count_eq_zero.mpr absent]
  · intro connecting
    exact absurd List.mem_cons_self (unopened connecting).1
  · exact fun inside => absurd inside absent
  · exact fun _ => ⟨absent,(unread List.mem_cons_self).1⟩
  · intro kbps at'
    contradiction

theorem Progress.passes {v : Talk} (progress : v.Progress) {ev : ChannelEvent}
    {rest : List ChannelEvent} (inbox : v.inbox = ev::rest) (polling : v.greet = .polling)
    (other : ev ≠ .onOpen) {greet : GreetPhase} (idle : greet = .polling ∨ greet = .ended) :
    Progress {v with inbox := rest, greet := greet} := by
  have same : .onOpen ∈ v.inbox ↔ .onOpen ∈ rest := by simp [inbox,Ne.symm other]
  have busy {g : GreetPhase} (at' : greet = g) (own : g ≠ .polling ∧ g ≠ .ended) : False := by
    rcases idle with here|here
    · exact own.1 (at'.symm.trans here)
    · exact own.2 (at'.symm.trans here)
  obtain ⟨⟨order,whole⟩,single,unopened,unread,_,_⟩ := progress
  rw [same] at whole unopened unread
  refine ⟨⟨order,fun opened _ => whole opened polling⟩,?_,?_,?_,?_,?_⟩
  · rw [inbox] at single
    exact (List.count_le_count_cons).trans single
  · exact fun connecting => ⟨(unopened connecting).1,(unopened connecting).2.1,idle⟩
  · exact fun inside => ⟨(unread inside).1,idle⟩
  · exact fun at' => absurd (busy at' (by simp)) id
  · exact fun kbps at' => absurd (busy at' (by simp)) id

theorem Progress.greets {v : Talk} (progress : v.Progress) (greeting : v.greet = .greeting) :
    Progress {v.send .task (.hello protocolVersion) with greet := match v.bitrateKbps with
      | some kbps => .asking kbps
      | none => .polling} := by
  obtain ⟨absent,unsaid⟩ := progress.greeting greeting
  have opened (connecting : v.channel = .connecting) : False := by
    rcases (progress.unopened connecting).2.2 with same|same <;> simp [greeting] at same
  have first : [ControlMessage.hello protocolVersion] <+: v.greeting := by simp [Talk.greeting]
  -- Hello has gone out, or it never will.
  have next (w : Talk) (sent : w.fromTask = [.hello protocolVersion] ∨
      v.channel ≠ .opened ∧ w.fromTask = []) (bitrate : w.bitrateKbps = v.bitrateKbps)
      (channel : w.channel = v.channel) (inbox : w.inbox = v.inbox)
      (greet : w.greet = match v.bitrateKbps with
        | some kbps => .asking kbps
        | none => .polling) : w.Progress := by
    have same : w.greeting = v.greeting := by simp only [Talk.greeting,bitrate]
    have part : w.fromTask <+: [ControlMessage.hello protocolVersion] := by
      rcases sent with one|⟨_,empty⟩
      · rw [one]
      · rw [empty]
        exact List.nil_prefix
    refine ⟨⟨?_,?_⟩,?_,?_,?_,?_,?_⟩
    · rw [same]
      exact part.trans first
    · intro opened polling _
      rw [channel] at opened
      cases asked : v.bitrateKbps with
      | none =>
        rcases sent with one|⟨closed,_⟩
        · simp [one,Talk.greeting,bitrate,asked]
        · exact absurd opened closed
      | some kbps => simp [greet,asked] at polling
    · rw [inbox]
      exact progress.single
    · intro connecting
      exact absurd (opened (channel ▸ connecting)) id
    · intro inside
      exact absurd (inbox ▸ inside) absent
    · intro at'
      cases asked : v.bitrateKbps <;> simp [greet,asked] at at'
    · intro kbps at'
      rw [inbox]
      refine ⟨absent,?_,part,fun opened => ?_⟩
      · cases asked : v.bitrateKbps with
        | none => simp [greet,asked] at at'
        | some own => simpa [greet,asked,bitrate] using at'
      · rw [channel] at opened
        rcases sent with one|⟨closed,_⟩
        · exact one
        · exact absurd opened closed
  unfold send
  split
  · refine next _ (Or.inl ?_) rfl rfl rfl rfl
    have one := v.fromTaskSnoc .task (.hello protocolVersion)
    simp only [unsaid,List.nil_append] at one
    exact one
  · next closed => exact next _ (Or.inr ⟨closed,unsaid⟩) rfl rfl rfl rfl

theorem Progress.asks {v : Talk} (progress : v.Progress) {kbps : UInt32}
    (asking : v.greet = .asking kbps) :
    Progress {v.send .task (.setBitrate kbps) with greet := .polling} := by
  obtain ⟨absent,asked,part,one⟩ := progress.asking kbps asking
  have opened (connecting : v.channel = .connecting) : False := by
    rcases (progress.unopened connecting).2.2 with same|same <;> simp [asking] at same
  have all : v.greeting = [.hello protocolVersion,.setBitrate kbps] := by
    simp [Talk.greeting,asked]
  unfold send
  split
  · next open' =>
    have two := v.fromTaskSnoc .task (.setBitrate kbps)
    simp only [one open',List.singleton_append] at two
    refine ⟨⟨?_,fun _ _ _ => ?_⟩,progress.single,?_,fun inside => absurd inside absent,?_,?_⟩
    · have same : fromTask {v with sent := v.sent ++ [(.task,.setBitrate kbps)]} = v.greeting :=
        two.trans all.symm
      exact ⟨[],by rw [List.append_nil]; exact same⟩
    · exact two.trans all.symm
    · exact fun connecting => absurd (opened connecting) id
    · intro at'
      contradiction
    · intro other at'
      contradiction
  · next closed =>
    refine ⟨⟨progress.order,fun open' => absurd open' closed⟩,progress.single,?_,
      fun inside => absurd inside absent,?_,?_⟩
    · exact fun connecting => absurd (opened connecting) id
    · intro at'
      contradiction
    · intro other at'
      contradiction

theorem Running.sends {v : Talk} (running : v.Running) (sender : Sender) (m : ControlMessage)
    {greet : GreetPhase} (goes : greet ≠ .ended) :
    Running {v.send sender m with greet := greet} := by
  unfold send
  split
  · exact fun opened => ⟨goes,(running opened).2⟩
  · exact fun opened => ⟨goes,(running opened).2⟩

end Talk

section Steps
variable {n m : Net}

theorem sendTalk (n : Net) (sender : Sender) (msg : ControlMessage) :
    (n.send sender msg).talk = n.talk.send sender msg := by
  unfold send Talk.send talk
  split <;> rfl

theorem eventTalk (stepped : EventStep n m) : m.talk = n.talk := by
  cases stepped with
  | ignore | connect | fail | unknown | ask => rfl

theorem loopTalk {branch : Branch} (stepped : LoopStep n branch m) :
    (branch = .proceed ∧ ∃ msg, n.outgoing = some msg ∧ m.talk = n.talk.send .loop msg) ∨
      (n.outgoing = none ∧ (m.talk = n.talk ∨ m.talk = {n.talk with channel := .closed})) := by
  cases stepped with
  | drain ev rest _ at' _ led | event ev rest _ at' _ led =>
    exact Or.inr ⟨by simp [outgoing,at'],Or.inl ((eventTalk led).trans rfl)⟩
  | controlled msg at' => exact Or.inl ⟨rfl,msg,by simp [outgoing,at'],sendTalk n .loop msg⟩
  | release at' => exact Or.inl ⟨rfl,_,by simp [outgoing,at'],sendTalk n .loop .releaseAll⟩
  | close at' => exact Or.inr ⟨by simp [outgoing,at'],Or.inr rfl⟩
  | drained at' | stop e at' | control msg rest at' | mouse p rest at' | quit rest at' | uiGone at'
  | flush p at' | tick at' | due _ now requests keyframes at' | early _ now requests keyframes at'
  | pliSent now phase at' | moved p at' => exact Or.inr ⟨by simp [outgoing,at'],Or.inl rfl⟩

theorem greetProgress (progress : n.talk.Progress) (stepped : GreetStep n m) : m.talk.Progress := by
  cases stepped with
  | take ev rest at' next =>
    by_cases open' : ev = .onOpen
    · subst open'
      exact progress.starts next
    · refine progress.passes next at' open' ?_
      cases ev <;> simp_all [greetAfter]
  | hello at' =>
    have talk := progress.greets at'
    rw [← sendTalk] at talk
    exact talk
  | setBitrate kbps at' =>
    have talk := progress.asks at'
    rw [← sendTalk] at talk
    exact talk

theorem progressStep {l : Label} (progress : n.talk.Progress) (stepped : n.step l = some m) :
    m.talk.Progress := by
  cases anyStep stepped with
  | greet _ greeted => exact greetProgress progress greeted
  | loop branch _ looped =>
    rcases loopTalk looped with ⟨_,msg,_,same⟩|⟨_,same|same⟩
    · rw [same]
      exact progress.loopSends msg
    · rw [same]
      exact progress
    · rw [same]
      exact progress.closes
  | opens connecting => exact progress.opens connecting
  | closes ev other => exact (progress.receives other).closes
  | hears ev other =>
    refine progress.receives (fun same => ?_)
    rw [same] at other
    contradiction
  | ui | uiGone | event | driverGone | unread | queue | drop | trackEnded | receive | decoded =>
    exact progress

theorem greetRunning (running : n.talk.Running) (stepped : GreetStep n m) : m.talk.Running := by
  cases stepped with
  | take ev rest at' next =>
    intro opened
    obtain ⟨_,waiting⟩ := running opened
    have inbox : n.talk.inbox = ev::rest := next
    rw [inbox] at waiting
    exact ⟨waiting ev List.mem_cons_self,fun e inside => waiting e (List.mem_cons_of_mem ev inside)⟩
  | hello at' =>
    have goes : (match n.bitrateKbps with
      | some kbps => .asking kbps
      | none => .polling) ≠ GreetPhase.ended := by cases n.bitrateKbps <;> simp
    have kept := running.sends .task (.hello protocolVersion) goes
    rw [← sendTalk] at kept
    exact kept
  | setBitrate kbps at' =>
    have goes : GreetPhase.polling ≠ .ended := by simp
    have kept := running.sends .task (.setBitrate kbps) goes
    rw [← sendTalk] at kept
    exact kept

theorem runningStep {l : Label} (running : n.talk.Running) (stepped : n.step l = some m) :
    m.talk.Running := by
  have fresh {ev : ChannelEvent} (own : greetAfter ev ≠ .ended)
      (old : ∀ ev ∈ n.inbox, greetAfter ev ≠ .ended) :
      ∀ e ∈ n.inbox ++ [ev], greetAfter e ≠ .ended := by
    intro e inside
    rcases List.mem_append.mp inside with inside|inside
    · exact old e inside
    · rwa [List.mem_singleton.mp inside]
  cases anyStep stepped with
  | greet _ greeted => exact greetRunning running greeted
  | loop branch _ looped =>
    rcases loopTalk looped with ⟨_,msg,_,same⟩|⟨_,same|same⟩
    · rw [same]
      unfold Talk.send
      split <;> exact running
    · rw [same]
      exact running
    · rw [same]
      exact fun opened => absurd rfl opened
  | opens connecting =>
    obtain ⟨goes,old⟩ := running (by simp [talk,connecting])
    exact fun _ => ⟨goes,fresh (by simp [greetAfter]) old⟩
  | closes ev other => exact fun opened => absurd rfl opened
  | hears ev other => exact fun opened =>
      ⟨(running opened).1,fresh (by simp [other]) (running opened).2⟩
  | ui | uiGone | event | driverGone | unread | queue | drop | trackEnded | receive | decoded =>
    exact running

/- The loop sends nothing on the open channel before the task has said Hello. -/
def Waits (n : Net) (l : Label) : Prop := ¬ (l = .loop .proceed ∧ n.channel = .opened ∧
  n.talk.Ungreeted ∧ n.outgoing ≠ none)

structure HelloOrder (n : Net) : Prop where
  first : n.talk.HelloFirst
  greeted : n.talk.Greeted

theorem waitsElsewhere {l : Label} (other : ∀ branch, l ≠ .loop branch) : n.Waits l :=
  fun early => other _ early.1

theorem greetFirst (progress : n.talk.Progress) (first : n.talk.HelloFirst)
    (stepped : GreetStep n m) : m.talk.HelloFirst := by
  cases stepped with
  | take ev rest => exact first
  | hello at' =>
    have sent := (n.talk.sendFirst .task (.hello protocolVersion) first).mpr (by simp)
    rw [← sendTalk] at sent
    exact sent
  | setBitrate kbps at' =>
    have sent := (n.talk.sendFirst .task (.setBitrate kbps) first).mpr (fun early => by
      have said := (progress.asking kbps at').2.2.2 early.1
      simp [Talk.fromTask,early.2.1] at said)
    rw [← sendTalk] at sent
    exact sent

theorem stepFirst {l : Label} (progress : n.talk.Progress) (running : n.talk.Running)
    (first : n.talk.HelloFirst) (stepped : n.step l = some m) :
    m.talk.HelloFirst ↔ n.Waits l := by
  have both (holds : m.talk.HelloFirst) (waits : n.Waits l) : m.talk.HelloFirst ↔ n.Waits l :=
    ⟨fun _ => waits,fun _ => holds⟩
  cases anyStep stepped with
  | loop branch _ looped =>
    rcases loopTalk looped with ⟨goes,msg,out,same⟩|⟨silent,same⟩
    · rw [same,Talk.sendFirst _ _ _ first]
      have unsaid (opened : n.channel = .opened) := Talk.unsaid progress running first opened
      refine not_congr ⟨?_,?_⟩
      · rintro ⟨opened,silent,_⟩
        exact ⟨by rw [goes],opened,(unsaid opened).mp silent,by simp [out]⟩
      · rintro ⟨_,opened,ungreeted,_⟩
        exact ⟨opened,(unsaid opened).mpr ungreeted,by simp⟩
    · refine both ?_ (fun early => early.2.2.2 silent)
      rcases same with same|same <;> rw [same] <;> exact first
  | greet _ greeted => exact both (greetFirst progress first greeted) (waitsElsewhere (by simp))
  | ui | uiGone | event | driverGone | opens | closes | hears | unread | queue | drop | trackEnded
  | receive | decoded => exact both first (waitsElsewhere (by simp))

theorem initialProgress (bitrate : Option UInt32) (now : Int) (pending : List PcEvent)
    (decode : DecodeThread) : (initial bitrate now pending decode).talk.Progress := by
  refine ⟨⟨?_,?_⟩,?_,?_,?_,?_,?_⟩ <;> simp [talk,initial,Talk.fromTask]

theorem helloExact (bitrate : Option UInt32) (now : Int) (pending : List PcEvent)
    (decode : DecodeThread) (ls : List Label)
    (reached : Runs.run step (initial bitrate now pending decode) ls = some n) :
    Runs.Always step HelloOrder (initial bitrate now pending decode) ls ↔
      Runs.Allowed step Waits (initial bitrate now pending decode) ls := by
  have start := initialProgress bitrate now pending decode
  refine Runs.alwaysExact (fun n => n.talk.Progress ∧ n.talk.Running) ⟨start,?_⟩
    ⟨?_,start.toGreeted⟩
    (fun _ _ _ kept stepped => ⟨progressStep kept.1 stepped,runningStep kept.2 stepped⟩) ?_ reached
  · simp [Talk.Running,talk,initial]
  · intro s said
    simp [talk,initial] at said
  · intro n l m ⟨progress,running⟩ order stepped
    have exact' := stepFirst progress running order.first stepped
    exact ⟨fun order => exact'.mp order.first,
      fun waits => ⟨exact'.mpr waits,(progressStep progress stepped).toGreeted⟩⟩

end Steps

def waitsCheck (n : Net) (l : Label) : Bool :=
  !(l == .loop .proceed && n.channel == .opened &&
    (n.inbox.contains .onOpen || n.greet == .greeting) && n.outgoing.isSome)

theorem waitsChecked {n : Net} {l : Label} (checked : waitsCheck n l = true) : n.Waits l := by
  intro early
  obtain ⟨goes,opened,ungreeted,out⟩ := early
  obtain ⟨msg,out⟩ := Option.ne_none_iff_exists'.mp out
  simp only [waitsCheck,goes,opened,out,beq_self_eq_true,Bool.true_and,Option.isSome_some,
    Bool.and_true,Bool.not_eq_true',Bool.or_eq_false_iff] at checked
  rcases ungreeted with inside|at'
  · have inside : .onOpen ∈ n.inbox := inside
    simp [inside] at checked
  · have at' : n.greet = .greeting := at'
    simp [at'] at checked

def client : Net := initial (some 5000) 0 [] (.initial none 0)

def clickEarly : List Label := [.loop .drain,.opens,.ui (.control (.button .left true)),
  .loop .command,.loop .proceed,.greet,.greet,.greet]

def clickLate : List Label := [.loop .drain,.opens,.greet,.greet,.greet,
  .ui (.control (.button .left true)),.loop .command,.loop .proceed]

theorem clickLateOrder : ∃ n, Runs.run step client clickLate = some n ∧
    Runs.Always step HelloOrder client clickLate := by
  have sent : (Runs.run step client clickLate).map (fun n => n.sent) = some
      [(.task,.hello protocolVersion),(.task,.setBitrate 5000),(.loop,.button .left true)] := by
    decide
  obtain ⟨n,reached,_⟩ := Option.map_eq_some_iff.mp sent
  refine ⟨n,reached,(helloExact _ _ _ _ _ reached).mpr ?_⟩
  exact Runs.checkAllowed (fun _ => True) waitsCheck trivial (fun _ _ _ _ _ _ => trivial)
    (fun _ _ _ checked => waitsChecked checked) (by decide)

theorem helloOvertaken : ∃ n, Runs.run step client clickEarly = some n ∧ ¬ n.HelloOrder ∧
    n.sent = [(.loop,.button .left true),(.task,.hello protocolVersion),(.task,.setBitrate 5000)] := by
  have sent : (Runs.run step client clickEarly).map (fun n => n.sent) = some
      [(.loop,.button .left true),(.task,.hello protocolVersion),(.task,.setBitrate 5000)] := by
    decide
  obtain ⟨n,reached,sent⟩ := Option.map_eq_some_iff.mp sent
  refine ⟨n,reached,fun order => ?_,sent⟩
  have first := order.first (.loop,.button .left true)
  simp [talk,sent] at first

end Net
end Vmdesk
