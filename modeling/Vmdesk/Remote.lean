import Vmdesk.ControlDelivery
import Vmdesk.NetClicks

/-! Client and server together, with the control channel between them: what the client has sent
arrives in the same order, up to the end of the connection. Everything else that reaches either of
them stands in the label. -/
namespace Vmdesk
open LittleEndian (Bytes)

namespace Net

def utters (n : Net) (l : Label) : Option ControlMessage :=
  (n.step l).bind (fun m => (m.sent.drop n.sent.length).head?.map Prod.snd)

def isInput : ControlMessage → Bool
  | .key _ _ | .button _ _ | .wheel _ _ | .releaseAll => true
  | .hello _ | .setBitrate _ => false

def controls (cmds : List UiCommand) : List ControlMessage :=
  cmds.filterMap (fun cmd => match cmd with
    | .control m => some m
    | .mouse _ | .quit => none)

def input (n : Net) : List ControlMessage := (n.sent.map Prod.snd).filter isInput

def ready : LoopPhase → List ControlMessage
  | .controlling m => [m].filter isInput
  | _ => []

def farewell : LoopPhase → List ControlMessage
  | .closing | .gone _ => [.releaseAll]
  | _ => []

def Spoken (n : Net) : Prop :=
  (n.input ++ ready n.phase).Sublist (controls n.taken ++ farewell n.phase)

section Steps
variable {n m : Net} {l : Label}

theorem sendSent (n : Net) (sender : Sender) (msg : ControlMessage) :
    (n.send sender msg).sent = n.sent ∨ (n.send sender msg).sent = n.sent ++ [(sender,msg)] := by
  unfold send
  split
  · exact Or.inr rfl
  · exact Or.inl rfl

theorem sentStep (stepped : n.step l = some m) :
    m.sent = n.sent ∨ ∃ sender msg, m.sent = n.sent ++ [(sender,msg)] := by
  have sends {k : Net} (sender : Sender) (msg : ControlMessage)
      (same : k.sent = (n.send sender msg).sent) :
      k.sent = n.sent ∨ ∃ sender msg, k.sent = n.sent ++ [(sender,msg)] := by
    rcases sendSent n sender msg with kept|more
    · exact Or.inl (same.trans kept)
    · exact Or.inr ⟨sender,msg,same.trans more⟩
  cases anyStep stepped with
  | loop branch _ looped =>
    cases looped with
    | drain ev rest _ at' next led | event ev rest _ at' next led =>
      cases led with
      | ignore | connect | fail | unknown | ask => exact Or.inl rfl
    | controlled msg at' => exact sends .loop msg rfl
    | release at' => exact sends .loop .releaseAll rfl
    | drained | stop | control | mouse | quit | uiGone | flush | tick | due | early | pliSent | moved
    | close => exact Or.inl rfl
  | greet _ greeted =>
    cases greeted with
    | take => exact Or.inl rfl
    | hello at' => exact sends .task _ rfl
    | setBitrate kbps at' => exact sends .task _ rfl
  | ui | uiGone | event | driverGone | opens | closes | hears | unread | queue | drop | trackEnded
  | receive | decoded => exact Or.inl rfl

theorem uttersExact (stepped : n.step l = some m) :
    m.sent.map Prod.snd = n.sent.map Prod.snd ++ (n.utters l).toList := by
  rw [utters,stepped]
  rcases sentStep stepped with same|⟨sender,msg,same⟩ <;> simp [same]

theorem controlsSnoc (cmds : List UiCommand) (cmd : UiCommand) :
    controls (cmds ++ [cmd]) = controls cmds ++ controls [cmd] := List.filterMap_append

theorem spokenMoves (spoken : Spoken n) (more : List ControlMessage)
    (said : (m.input ++ ready m.phase).Sublist (n.input ++ ready n.phase ++ more))
    (heard : (controls n.taken ++ farewell n.phase ++ more).Sublist
      (controls m.taken ++ farewell m.phase)) : Spoken m :=
  said.trans ((spoken.append_right more).trans heard)

theorem spokenQuiet (spoken : Spoken n) (sent : m.sent = n.sent)
    (taken : controls m.taken = controls n.taken) (quiet : ready m.phase = [])
    (open' : farewell n.phase = []) : Spoken m := by
  refine spokenMoves spoken [] ?_ ?_
  · simp [input,sent,quiet]
  · simp [taken,open']

theorem eventSpoken (spoken : Spoken n) (led : EventStep n m) (open' : farewell n.phase = []) :
    Spoken m := by
  cases led with
  | ignore | connect | unknown => exact spoken
  | fail | ask => exact spokenQuiet spoken rfl rfl rfl open'

theorem sendInput (n : Net) (sender : Sender) (msg : ControlMessage) :
    (n.send sender msg).input.Sublist (n.input ++ [msg].filter isInput) := by
  rcases sendSent n sender msg with kept|more
  · simp [input,kept]
  · simp [input,more]

theorem loopSpoken {branch : Branch} (spoken : Spoken n) (looped : LoopStep n branch m) :
    Spoken m := by
  have leaves {phase : LoopPhase} (at' : n.phase = phase) (sent : m.sent = n.sent)
      (taken : controls m.taken = controls n.taken) (quiet : ready m.phase = [])
      (open' : farewell phase = []) : Spoken m := spokenQuiet spoken sent taken quiet (at' ▸ open')
  have skips (cmd : UiCommand) (none : controls [cmd] = []) :
      controls (n.taken ++ [cmd]) = controls n.taken := by
    rw [controlsSnoc,none,List.append_nil]
  cases looped with
  | drained at' | stop e at' | uiGone at' | flush p at' => exact leaves at' rfl rfl rfl rfl
  | due branch now requests keyframes at' => exact leaves at' rfl rfl rfl rfl
  | drain ev rest _ at' next led =>
    have same : Spoken {n with pending := rest} := spoken
    exact eventSpoken same led (by simp [at',farewell])
  | event ev rest _ at' next led =>
    have same : Spoken {n with events := rest} := spoken
    exact eventSpoken same led (by simp [at',farewell])
  | control msg rest at' next =>
    refine spokenMoves spoken ([msg].filter isInput) ?_ ?_
    · simp only [at',ready,List.append_nil]
      exact List.Sublist.refl _
    · simp only [goto,at',farewell,controlsSnoc,List.append_nil]
      exact List.filter_sublist.append_left _
  | mouse p rest at' next => exact leaves at' rfl (skips _ rfl) (by simp [at',ready]) rfl
  | quit rest at' next => exact leaves at' rfl (skips _ rfl) rfl rfl
  | tick | early => exact spoken
  | pliSent now phase at' after back =>
    have quiet : ready phase = [] := by
      rcases back with same|same <;> rw [same,ready] <;> simp
    exact leaves at' rfl rfl quiet rfl
  | controlled msg at' =>
    refine spokenMoves spoken [] ?_ ?_
    · simp only [goto,at',ready,List.append_nil]
      exact sendInput n .loop msg
    · simp only [goto,at',farewell,List.append_nil,(sendKeeps n .loop msg).1]
      exact List.Sublist.refl _
  | moved p at' => exact leaves at' rfl rfl rfl rfl
  | release at' =>
    refine spokenMoves spoken [.releaseAll] ?_ ?_
    · simp only [goto,at',ready,List.append_nil]
      exact sendInput n .loop .releaseAll
    · simp only [goto,at',farewell,List.append_nil,(sendKeeps n .loop .releaseAll).1]
      exact List.Sublist.refl _
  | close at' =>
    refine spokenMoves spoken [] ?_ ?_
    · simp [goto,input,ready]
    · simp [goto,at',farewell]

theorem spokenStep (spoken : Spoken n) (stepped : n.step l = some m) : Spoken m := by
  have greets (msg : ControlMessage) (quiet : isInput msg = false) {k : Net}
      (sent : k.sent = (n.send .task msg).sent) (taken : k.taken = n.taken)
      (phase : k.phase = n.phase) : Spoken k := by
    refine spokenMoves spoken [] ?_ ?_
    · have added := sendInput n .task msg
      rw [List.filter_cons_of_neg (by simp [quiet]),List.filter_nil,List.append_nil] at added
      rw [List.append_nil,phase,input,sent]
      exact added.append_right _
    · rw [List.append_nil,phase,taken]
  cases anyStep stepped with
  | loop branch _ looped => exact loopSpoken spoken looped
  | greet _ greeted =>
    cases greeted with
    | take => exact spoken
    | hello at' =>
      obtain ⟨taken,_,_,_,phase⟩ := sendKeeps n .task (.hello protocolVersion)
      exact greets _ rfl rfl taken phase
    | setBitrate kbps at' =>
      obtain ⟨taken,_,_,_,phase⟩ := sendKeeps n .task (.setBitrate kbps)
      exact greets _ rfl rfl taken phase
  | ui | uiGone | event | driverGone | opens | closes | hears | unread | queue | drop | trackEnded
  | receive | decoded => exact spoken

theorem inputQueued {ls : List Label} (silent : n.sent = []) (open' : ready n.phase = [])
    (idle : n.taken = [] ∧ n.ui = []) (reached : Runs.run step n ls = some m) :
    m.input.Sublist (controls (queued ls) ++ [.releaseAll]) := by
  have start : Spoken n := by simp [Spoken,input,silent,open']
  have spoken := Runs.runKeeps Spoken start (fun _ _ _ kept stepped => spokenStep kept stepped) reached
  have queue := runQueue reached
  rw [idle.1,idle.2,List.nil_append,List.nil_append] at queue
  have last : (farewell m.phase).Sublist [.releaseAll] := by
    unfold farewell
    split <;> simp
  have all : controls (queued ls) = controls m.taken ++ controls m.ui := by
    rw [← queue]
    exact List.filterMap_append
  rw [all,List.append_assoc]
  refine (List.sublist_append_left _ _).trans (spoken.trans ?_)
  exact (last.trans (List.sublist_append_right _ _)).append_left _

end Steps

end Net

/- `flight` is what the control channel has not handed over yet, `cut` is set when the connection
has ended. -/
structure Remote where
  server : Server
  client : Net
  flight : List Bytes
  cut : Bool

namespace Remote
open Server Session

inductive Label where
  | server (l : Session.Label)
  | client (l : Net.Label)
  | deliver
  | cut
  deriving DecidableEq

def initial (config : Config) (publicIp : Option Text) (client : Net) : Remote where
  server := Server.initial config publicIp
  client := client
  flight := []
  cut := false

def sends (p : Remote) (l : Net.Label) : List Bytes :=
  if p.cut then [] else ((p.client.utters l).map ControlMessage.encode).toList

/- The control channel of the client is the one that reader `r` of the server reads. It keeps its
messages in order. The connection may end at any time, by a `close` of either side or without one;
what is on its way then is gone, and so is all that the client sends afterwards. -/
def step (r : Nat) (p : Remote) : Label → Option Remote
  | .server l => if arrives r l then none else (p.server.step l).map (fun s => {p with server := s})
  | .client l => (p.client.step l).map (fun n => {p with
      client := n
      flight := p.flight ++ p.sends l})
  | .deliver => match p.flight with
    | [] => none
    | data::rest => if (p.server.readers r).any (fun reader => reader.isControl)
      then (p.server.step (.channel r (.onMessage data))).map (fun s => {p with
        server := s
        flight := rest})
      else none
  | .cut => some {p with
      flight := []
      cut := true}

def acted (r : Nat) (p : Remote) : Label → Option ControlMessage
  | .server l => heeded r p.server l
  | .client _ | .deliver | .cut => none

def uttered (p : Remote) : Label → Option ControlMessage
  | .client l => p.client.utters l
  | .server _ | .deliver | .cut => none

def clientLabel : Label → Option Net.Label
  | .client l => some l
  | .server _ | .deliver | .cut => none

/- The connection lasts, and the server takes the session of the reader for the active one whenever
it looks. -/
def Attends (r : Nat) (p : Remote) : Label → Prop
  | .server l => Serves r p.server l
  | .client _ | .deliver => True
  | .cut => False

def underWay (r : Nat) (p : Remote) : List Bytes := carried r p.server ++ p.flight

/- Nothing more is to happen than that the server is handed what is under way and acts on it. -/
def serving (r : Nat) (emits : Emits) (p : Remote) : List Label :=
  (match (p.server.readers r).map Reader.phase with
    | some (.received _) => [.server (.reader r emits),.server (.reader r emits)]
    | some (.admitted _) => [.server (.reader r emits)]
    | some .polling | some .ended | none => []) ++
  p.flight.flatMap (fun _ => [.deliver,.server (.reader r emits),.server (.reader r emits)])

structure Linked (r : Nat) (p : Remote) : Prop where
  written : Written r p.server
  spelled : ∀ data ∈ p.flight, ∃ m : ControlMessage, data = m.encode

section Steps
variable {r : Nat} {p q : Remote} {l : Label}

inductive RemoteStep (r : Nat) (p : Remote) : Label → Remote → Prop where
  | server (l s) (quiet : arrives r l = false) (stepped : p.server.step l = some s) :
      RemoteStep r p (.server l) {p with server := s}
  | client (l n) (stepped : p.client.step l = some n) : RemoteStep r p (.client l) {p with
      client := n
      flight := p.flight ++ p.sends l}
  | deliver (data rest reader) (next : p.flight = data::rest)
      (here : p.server.readers r = some reader) (control : reader.isControl = true)
      (at' : reader.phase = .polling) : RemoteStep r p .deliver {p with
        server := p.server.setReader r reader (.received data)
        flight := rest}
  | cut : RemoteStep r p .cut {p with
      flight := []
      cut := true}

theorem remoteStep (stepped : step r p l = some q) : RemoteStep r p l q := by
  unfold step at stepped
  split at stepped
  · next l =>
    split at stepped
    · contradiction
    · next quiet =>
      obtain ⟨s,moved,same⟩ := Option.map_eq_some_iff.mp stepped
      exact same ▸ .server l s (by simpa using quiet) moved
  · next l =>
    obtain ⟨n,moved,same⟩ := Option.map_eq_some_iff.mp stepped
    exact same ▸ .client l n moved
  · split at stepped
    · contradiction
    · next data rest next =>
      split at stepped
      · next control =>
        obtain ⟨s,moved,same⟩ := Option.map_eq_some_iff.mp stepped
        obtain ⟨reader,here,at',set⟩ := deliverExact.mp moved
        rw [here] at control
        exact same ▸ set ▸ .deliver data rest reader next here control at'
      · contradiction
  · exact Option.some.inj stepped ▸ .cut

theorem linkedStep (linked : Linked r p) (stepped : step r p l = some q) : Linked r q := by
  cases remoteStep stepped with
  | server l s quiet moved =>
    exact ⟨turnWritten linked.written (stepTurn quiet moved) moved,linked.spelled⟩
  | client l n moved =>
    refine ⟨linked.written,fun data inside => ?_⟩
    rcases List.mem_append.mp inside with before|fresh
    · exact linked.spelled data before
    · unfold sends at fresh
      split at fresh
      · contradiction
      obtain ⟨m,_,same⟩ := Option.map_eq_some_iff.mp (Option.mem_toList.mp fresh)
      exact ⟨m,same.symm⟩
  | deliver data rest reader next here control at' =>
    have now : (p.server.setReader r reader (.received data)).readers r =
        some {reader with phase := .received data} := Function.update_self _ _ _
    refine ⟨⟨?_,fun other there _ => ?_,fun b inside => ?_⟩,fun b inside => ?_⟩
    · exact numberedStep linked.written.numbered (deliverExact.mpr ⟨reader,here,at',rfl⟩)
    · cases now.symm.trans there
      exact control
    · rw [carriedOf now] at inside
      cases List.mem_singleton.mp inside
      exact linked.spelled data (by simp [next])
    · exact linked.spelled b (by simp [next,inside])
  | cut => exact ⟨linked.written,fun b inside => absurd inside List.not_mem_nil⟩

theorem sendsSublist (p : Remote) (l : Net.Label) :
    (p.sends l).Sublist ((p.client.utters l).map ControlMessage.encode).toList := by
  unfold sends
  split
  · exact List.nil_sublist _
  · exact List.Sublist.refl _

theorem remoteFlow (linked : Linked r p) (stepped : step r p l = some q) :
    (((acted r p l).map ControlMessage.encode).toList ++ underWay r q).Sublist
      (underWay r p ++ ((uttered p l).map ControlMessage.encode).toList) ∧
    (p.cut = false → Attends r p l → ((acted r p l).map ControlMessage.encode).toList ++ underWay r q =
      underWay r p ++ ((uttered p l).map ControlMessage.encode).toList) := by
  cases remoteStep stepped with
  | server l s quiet moved =>
    obtain ⟨flow,all⟩ := turnFlow linked.written (stepTurn quiet moved)
    simp only [acted,uttered,underWay,Option.map_none,Option.toList_none,List.append_nil]
    rw [← List.append_assoc]
    exact ⟨flow.append_right _,fun _ attends => by rw [all attends]⟩
  | client l n moved =>
    have same : carried r p.server ++ (p.flight ++ p.sends l) =
        carried r p.server ++ p.flight ++ p.sends l := (List.append_assoc _ _ _).symm
    refine ⟨same ▸ (sendsSublist p l).append_left _,fun open' _ => ?_⟩
    simp [acted,uttered,underWay,sends,open']
  | deliver data rest reader next here control at' =>
    have before : carried r p.server = [] := by rw [carriedOf here,at',held]
    have now : (p.server.setReader r reader (.received data)).readers r =
        some {reader with phase := .received data} := Function.update_self _ _ _
    have after : carried r (p.server.setReader r reader (.received data)) = [data] := carriedOf now
    have same : underWay r {p with
        server := p.server.setReader r reader (.received data)
        flight := rest} = underWay r p := by
      rw [underWay,underWay,before,after,next]
      rfl
    simp [acted,uttered,same]
  | cut => exact ⟨by simp [acted,uttered,underWay],fun _ lasts => lasts.elim⟩

theorem lastsStep (open' : p.cut = false) (attends : Attends r p l) (stepped : step r p l = some q) :
    q.cut = false := by
  cases remoteStep stepped with
  | server | client | deliver => exact open'
  | cut => exact attends.elim

theorem flowRun {ls : List Label} (linked : Linked r p) (open' : p.cut = false)
    (attends : Runs.Allowed (step r) (Attends r) p ls) (reached : Runs.run (step r) p ls = some q) :
    (Runs.observed (step r) (acted r) p ls).map ControlMessage.encode ++ underWay r q =
      underWay r p ++ (Runs.observed (step r) uttered p ls).map ControlMessage.encode := by
  rw [← Runs.observedMap,← Runs.observedMap]
  exact Runs.observedAll (fun p => Linked r p ∧ p.cut = false) ⟨linked,open'⟩
    (fun _ _ _ kept attends stepped =>
      ⟨linkedStep kept.1 stepped,lastsStep kept.2 attends stepped⟩)
    (fun _ _ _ kept attends stepped => (remoteFlow kept.1 stepped).2 kept.2 attends) attends reached

theorem encodeInjective : Function.Injective ControlMessage.encode := by
  intro a b same
  have decoded := (a.decodeEncode).symm.trans ((congrArg (fun data =>
    (ControlMessage.decode data).run) same).trans b.decodeEncode)
  exact Except.ok.inj (Option.some.inj decoded)

theorem utteredSent {ls : List Label} (reached : Runs.run (step r) p ls = some q) :
    q.client.sent.map Prod.snd = p.client.sent.map Prod.snd ++
      Runs.observed (step r) uttered p ls := by
  have anything : Runs.Allowed (step r) (fun _ _ => True) p ls :=
    Runs.allowedOf (fun _ _ _ => trivial)
  have counted := @Runs.observedAll _ _ (step r) _ (fun p => p.client.sent.map Prod.snd) uttered
    (fun _ _ => none) p q ls _ (fun _ => True) trivial (fun _ _ _ _ _ _ => trivial)
    (fun s l t _ _ stepped => ?_) anything reached
  · rw [Runs.observedLabels (fun _ => none) reached] at counted
    simpa using counted
  · cases remoteStep stepped with
    | client l n moved => exact Net.uttersExact moved
    | server | deliver | cut => simp [uttered]

theorem clientRun {ls : List Label} (reached : Runs.run (step r) p ls = some q) :
    Runs.run Net.step p.client (ls.filterMap clientLabel) = some q.client := by
  refine Runs.runPart (fun p => p.client) clientLabel (fun s l t stepped => ?_) reached
  cases remoteStep stepped with
  | client l n moved => simp [clientLabel,Runs.run,moved]
  | server | deliver | cut => rfl

theorem linkedInitial (config : Config) (publicIp : Option Text) (client : Net) :
    Linked r (initial config publicIp client) where
  written := {
    numbered := fun _ _ => rfl
    control := fun _ here => nomatch here
    spelled := fun _ inside => nomatch inside}
  spelled := fun _ inside => nomatch inside

theorem actedSent {ls : List Label} (linked : Linked r p) (idle : underWay r p = [])
    (silent : p.client.sent = []) (reached : Runs.run (step r) p ls = some q) :
    ((Runs.observed (step r) (acted r) p ls).map ControlMessage.encode ++ underWay r q).Sublist
      ((q.client.sent.map Prod.snd).map ControlMessage.encode) ∧
    (p.cut = false → Runs.Allowed (step r) (Attends r) p ls →
      (Runs.observed (step r) (acted r) p ls).map ControlMessage.encode ++ underWay r q =
        (q.client.sent.map Prod.snd).map ControlMessage.encode) := by
  have sent := utteredSent reached
  rw [silent,List.map_nil,List.nil_append] at sent
  rw [sent]
  constructor
  · rw [← Runs.observedMap,← Runs.observedMap]
    have flow : (_ ++ underWay r q).Sublist (underWay r p ++ _) :=
      Runs.observedSublist (Linked r) linked (fun _ _ _ kept stepped => linkedStep kept stepped)
        (fun _ _ _ kept stepped => (remoteFlow kept stepped).1) reached
    rwa [idle,List.nil_append] at flow
  · intro open' attends
    have flow := flowRun linked open' attends reached
    rwa [idle,List.nil_append] at flow

theorem sublistEncoded {some' all : List ControlMessage}
    (part : (some'.map ControlMessage.encode).Sublist (all.map ControlMessage.encode)) :
    some'.Sublist all := by
  obtain ⟨kept,inside,same⟩ := List.sublist_map_iff.mp part
  rw [List.map_injective_iff.mpr encodeInjective same]
  exact inside

/- The two can go through these steps, all of them with the connection open and the session active,
and nothing is under way behind them. -/
def Clears (r : Nat) (p : Remote) (ls : List Label) : Prop := ∃ q,
  Runs.run (step r) p ls = some q ∧ Runs.Allowed (step r) (Attends r) p ls ∧ underWay r q = []

theorem clearsNext {k : Remote} {ls : List Label} (stepped : step r p l = some k)
    (attends : Attends r p l) (rest : Clears r k ls) : Clears r p (l::ls) := by
  obtain ⟨q,reached,allowed,clear⟩ := rest
  refine ⟨q,?_,⟨attends,fun n again => ?_⟩,clear⟩
  · rw [Runs.run,stepped]
    exact reached
  · cases stepped.symm.trans again
    exact allowed

structure Listens (r n : Nat) (p : Remote) : Prop where
  here : p.server.readers r = some ⟨n,true,.polling⟩
  active : p.server.shared.activeSession = n

variable {n : Nat} {data : Bytes} (emits : Emits) {ls : List Label}

theorem actsNext (here : p.server.readers r = some ⟨n,true,.admitted data⟩)
    (active : p.server.shared.activeSession = n)
    (rest : ∀ k, Listens r n k → k.flight = p.flight → Clears r k ls) :
    Clears r p (.server (.reader r emits)::ls) := by
  have stepped : step r p (.server (.reader r emits)) = some {p with
      server := (p.server.act ⟨n,true,.admitted data⟩ data emits).setReader r
        ⟨n,true,.admitted data⟩ .polling} := by
    simp [step,arrives,Server.step,stepReader,here]
  refine clearsNext stepped (fun _ reader _ _ there at' => ?_) (rest _ ⟨?_,?_⟩ rfl)
  · cases here.symm.trans there
    cases at'
  · exact Function.update_self _ _ _
  · exact (actAside p.server ⟨n,true,.admitted data⟩ data emits).active.trans active

theorem entersNext (here : p.server.readers r = some ⟨n,true,.received data⟩)
    (active : p.server.shared.activeSession = n)
    (rest : ∀ k, Listens r n k → k.flight = p.flight → Clears r k ls) :
    Clears r p (.server (.reader r emits)::.server (.reader r emits)::ls) := by
  have stepped : step r p (.server (.reader r emits)) = some {p with
      server := p.server.setReader r ⟨n,true,.received data⟩ (.admitted data)} := by
    simp [step,arrives,Server.step,stepReader,here,active]
  have now : (p.server.setReader r ⟨n,true,.received data⟩ (.admitted data)).readers r =
      some ⟨n,true,.admitted data⟩ := Function.update_self _ _ _
  refine clearsNext stepped (fun _ reader _ _ there _ => ?_) (actsNext emits now active rest)
  cases here.symm.trans there
  exact active

theorem listensClears (listens : Listens r n p) : Clears r p (p.flight.flatMap
    (fun _ => [.deliver,.server (.reader r emits),.server (.reader r emits)])) := by
  generalize next : p.flight = flight
  induction flight generalizing p with
  | nil =>
    refine ⟨p,rfl,trivial,?_⟩
    rw [underWay,carriedOf listens.here,next]
    rfl
  | cons data flight ih =>
    have stepped : step r p .deliver = some {p with
        server := p.server.setReader r ⟨n,true,.polling⟩ (.received data)
        flight := flight} := by
      simp [step,next,listens.here,Server.step,stepChannel]
    have now : (p.server.setReader r ⟨n,true,.polling⟩ (.received data)).readers r =
        some ⟨n,true,.received data⟩ := Function.update_self _ _ _
    exact clearsNext stepped trivial
      (entersNext emits now listens.active (fun k listens same => ih listens same))

theorem servingSilent (r : Nat) (p : Remote) :
    Runs.observed (step r) uttered p (serving r emits p) = [] := by
  refine Runs.observedNone (fun l inside s => ?_)
  rcases List.mem_append.mp inside with first|later
  · split at first
    all_goals
      simp only [List.mem_cons,List.not_mem_nil,or_false,or_self] at first
      try exact first ▸ rfl
  · obtain ⟨_,_,here⟩ := List.mem_flatMap.mp later
    simp only [List.mem_cons,List.not_mem_nil,or_false,or_self] at here
    rcases here with same|same <;> exact same ▸ rfl

theorem servingClears {reader : Reader} (here : p.server.readers r = some reader)
    (control : reader.isControl = true) (open' : reader.phase ≠ .ended)
    (active : p.server.shared.activeSession = reader.session) : Clears r p (serving r emits p) := by
  have rest (k : Remote) (listens : Listens r reader.session k) (same : k.flight = p.flight) :
      Clears r k (p.flight.flatMap
        (fun _ => [.deliver,.server (.reader r emits),.server (.reader r emits)])) :=
    same ▸ listensClears emits listens
  obtain ⟨n,isControl,phase⟩ := reader
  cases control
  unfold serving
  cases phase with
  | polling => simpa [here] using rest p ⟨here,active⟩ rfl
  | received data => simpa [here] using entersNext emits here active rest
  | admitted data => simpa [here] using actsNext emits here active rest
  | ended => exact absurd rfl open'

end Steps

def typed : List Label :=
  (negotiate 0 ++ conclude 0 ++ Server.connect 1 ++ openControl 1).map .server ++
    [.client .opens,.client (.ui (.control (.key .keyA true))),.client (.ui .quit),.client .greet,
      .client .greet,.client (.loop .drain),.client (.loop .command),.client (.loop .proceed),
      .deliver,.server (.reader 0 .succeed),.client (.loop .command),.client (.loop .proceed),
      .server (.reader 0 .succeed),.deliver,.server (.reader 0 .succeed),
      .server (.reader 0 .succeed)]

def attendsCheck (r : Nat) (p : Remote) : Label → Bool
  | .server (.reader _ _) =>
      (p.server.readers r).all (fun reader => p.server.shared.activeSession == reader.session)
  | .cut => false
  | _ => true

theorem attendsChecked {r : Nat} {p : Remote} {l : Label} (checked : attendsCheck r p l = true) :
    Attends r p l := by
  cases l with
  | client l | deliver => exact trivial
  | cut => contradiction
  | server l =>
    intro emits reader data same here _
    subst same
    simpa [attendsCheck,here] using checked

def apart : Remote := initial {} (some "8.8.4.4".toList) Net.idle

end Remote
end Vmdesk
