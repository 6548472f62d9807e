import Vmdesk.Net

/-! What one step of the client can do, said once: an event, an iteration of the network loop, the
task behind the control channel and the rest each come to one of the cases below. -/
namespace Vmdesk
open Session (ChannelEvent)

namespace Net

inductive EventStep (n : Net) : Net → Prop where
  | ignore : EventStep n n
  | connect : EventStep n {n with connected := true}
  | fail (e) : EventStep n (n.goto (.gone (.error e)))
  | unknown (none : n.video = none) : EventStep n {n with tracks := n.tracks + 1}
  | ask (video) (known : video.isSome = true) :
      EventStep n ({n with video := video, tracks := n.tracks + 1}.goto .requesting)

inductive LoopStep (n : Net) : Branch → Net → Prop where
  | drained (at' : n.phase = .draining) (empty : n.pending = []) :
      LoopStep n .drain (n.goto .selecting)
  | drain (ev rest m) (at' : n.phase = .draining) (next : n.pending = ev::rest)
      (led : EventStep {n with pending := rest} m) : LoopStep n .drain m
  | event (ev rest m) (at' : n.phase = .selecting) (next : n.events = ev::rest)
      (led : EventStep {n with events := rest} m) : LoopStep n .event m
  | stop (e) (at' : n.phase = .selecting) : LoopStep n .event (n.goto (.gone (.error e)))
  | control (msg rest) (at' : n.phase = .selecting) (next : n.ui = .control msg::rest) :
      LoopStep n .command
        ({n with ui := rest, taken := n.taken ++ [UiCommand.control msg]}.goto (.controlling msg))
  | mouse (p rest) (at' : n.phase = .selecting) (next : n.ui = .mouse p::rest) :
      LoopStep n .command
        {n with ui := rest, taken := n.taken ++ [UiCommand.mouse p], latestMouse := some p}
  | quit (rest) (at' : n.phase = .selecting) (next : n.ui = .quit::rest) :
      LoopStep n .command ({n with ui := rest, taken := n.taken ++ [UiCommand.quit]}.goto .leaving)
  | uiGone (at' : n.phase = .selecting) : LoopStep n .command (n.goto .leaving)
  | flush (p) (at' : n.phase = .selecting) (parked : n.latestMouse = some p) :
      LoopStep n .mouseTick ({n with latestMouse := none}.goto (.mousing p))
  | tick (at' : n.phase = .selecting) : LoopStep n .mouseTick n
  | due (branch now requests keyframes) (at' : n.phase = .selecting) (after : n.clock ≤ now)
      (known : n.video.isSome = true) : LoopStep n branch
        ({n with requests := requests, keyframes := keyframes, clock := now}.goto .requesting)
  | early (branch now requests keyframes) (at' : n.phase = .selecting) (after : n.clock ≤ now)
      (soon : n.video.isSome = true → elapsed n.lastPli now < pliInterval) : LoopStep n branch
        {n with requests := requests, keyframes := keyframes, clock := now}
  | pliSent (now phase) (at' : n.phase = .requesting) (after : n.clock ≤ now)
      (back : phase = .selecting ∨ phase = .draining) : LoopStep n (.pliSent now)
        {n with phase := phase, clock := now, lastPli := now, pliAt := some now}
  | controlled (msg) (at' : n.phase = .controlling msg) :
      LoopStep n .proceed ((n.send .loop msg).goto .selecting)
  | moved (p) (at' : n.phase = .mousing p) :
      LoopStep n .proceed ({n with moves := n.moves ++ [p]}.goto .selecting)
  | release (at' : n.phase = .leaving) :
      LoopStep n .proceed ((n.send .loop .releaseAll).goto .closing)
  | close (at' : n.phase = .closing) :
      LoopStep n .proceed ({n with channel := .closed}.goto (.gone (.ok ())))

def greetAfter : ChannelEvent → GreetPhase
  | .onOpen => .greeting
  | .onClose | .onError | .finished => .ended
  | .onMessage _ | .other => .polling

inductive GreetStep (n : Net) : Net → Prop where
  | take (ev rest) (at' : n.greet = .polling) (next : n.inbox = ev::rest) :
      GreetStep n {n with inbox := rest, greet := greetAfter ev}
  | hello (at' : n.greet = .greeting) : GreetStep n {n.send .task (.hello protocolVersion) with
      greet := match n.bitrateKbps with
        | some kbps => .asking kbps
        | none => .polling}
  | setBitrate (kbps) (at' : n.greet = .asking kbps) :
      GreetStep n {n.send .task (.setBitrate kbps) with greet := .polling}

inductive AnyStep (n : Net) : Label → Net → Prop where
  | ui (cmd) : AnyStep n (.ui cmd) {n with ui := n.ui ++ [cmd]}
  | uiGone : AnyStep n .uiGone {n with uiGone := true}
  | event (ev) : AnyStep n (.event ev) {n with events := n.events ++ [ev]}
  | driverGone : AnyStep n .driverGone {n with driverGone := true}
  | opens (connecting : n.channel = .connecting) :
      AnyStep n .opens {n with channel := .opened, inbox := n.inbox ++ [.onOpen]}
  | closes (ev) (other : ev ≠ .onOpen) :
      AnyStep n (.channel ev) {n with channel := .closed, inbox := n.inbox ++ [ev]}
  | hears (ev) (other : greetAfter ev = .polling) :
      AnyStep n (.channel ev) {n with inbox := n.inbox ++ [ev]}
  | greet (m) (greeted : GreetStep n m) : AnyStep n .greet m
  | loop (branch m) (looped : LoopStep n branch m) : AnyStep n (.loop branch) m
  | unread (now) (after : n.clock ≤ now) :
      AnyStep n (.sample now) {n with tracks := n.tracks - 1, clock := now}
  | queue (now) (after : n.clock ≤ now) :
      AnyStep n (.sample now) {n with units := n.units + 1, clock := now}
  | drop (now) (after : n.clock ≤ now) : AnyStep n (.sample now)
      {n with keyframes := n.keyframes + 1, clock := now, dropAt := some now}
  | trackEnded : AnyStep n .trackEnded {n with tracks := n.tracks - 1}
  | receive (units phase) :
      AnyStep n .receive {n with units := units, decode := {n.decode with phase := phase}}
  | decoded (d now again created decode asked) (after : n.clock ≤ now) (later : now ≤ again)
      (done : n.decode.decoded d now again created = some (decode,asked)) :
      AnyStep n (.decoded d now again created) {n with
        decode := decode
        clock := again
        requests := if asked then n.requests + 1 else n.requests
        errorAt := if d.result = .ok then n.errorAt else some now}

section Cases
variable {n m : Net}

theorem sendKeeps (n : Net) (sender : Sender) (msg : ControlMessage) :
    (n.send sender msg).taken = n.taken ∧ (n.send sender msg).latestMouse = n.latestMouse ∧
      (n.send sender msg).moves = n.moves ∧ (n.send sender msg).ui = n.ui ∧
      (n.send sender msg).phase = n.phase := by
  unfold send
  split <;> simp

theorem eventStep (n : Net) (ev : PcEvent) : EventStep n (n.handleEvent ev) := by
  cases ev with
  | connection state =>
    cases state
    case connected => exact .connect
    case failed => exact .fail _
    case closed => exact .fail _
    all_goals exact .ignore
  | ice | gathering state => exact .ignore
  | track ssrc =>
    simp only [handleEvent,onEvent,Bool.true_and]
    split
    · next known => exact .ask _ known
    · next missing =>
      have absent : ssrc = none ∧ n.video = none := by
        cases ssrc <;> simp_all
      have same : ssrc.or n.video = n.video := by simp [absent.1]
      rw [same]
      exact .unknown absent.2

theorem requestStep {branch : Branch} {now : Int} (requests keyframes : Nat)
    (at' : n.phase = .selecting) (after : n.clock ≤ now) : LoopStep n branch
      ({n with requests := requests, keyframes := keyframes, clock := now}.handleRequest now) := by
  unfold handleRequest
  split
  · next fits => exact .due branch now requests keyframes at' after fits.1
  · next refused =>
    refine .early branch now requests keyframes at' after (fun known => ?_)
    exact Nat.lt_of_not_le (fun late => refused ⟨known,late⟩)

theorem loopStep {branch : Branch} (stepped : n.stepLoop branch = some m) :
    LoopStep n branch m := by
  unfold stepLoop at stepped
  split at stepped
  case h_1 at' =>
    split at stepped
    · next empty =>
      cases Option.some.inj stepped
      exact .drained at' empty
    · next ev rest next =>
      cases Option.some.inj stepped
      exact .drain ev rest _ at' next (eventStep _ ev)
  case h_2 at' =>
    split at stepped
    · next ev rest next =>
      cases Option.some.inj stepped
      exact .event ev rest _ at' next (eventStep _ ev)
    · split at stepped
      · cases Option.some.inj stepped
        exact .stop _ at'
      · contradiction
  case h_3 at' =>
    split at stepped
    · next cmd rest next =>
      cases cmd with
      | control msg =>
        cases Option.some.inj stepped
        exact .control msg rest at' next
      | mouse p =>
        cases Option.some.inj stepped
        exact .mouse p rest at' next
      | quit =>
        cases Option.some.inj stepped
        exact .quit rest at' next
    · split at stepped
      · cases Option.some.inj stepped
        exact .uiGone at'
      · contradiction
  case h_4 at' =>
    split at stepped
    · next p parked =>
      cases Option.some.inj stepped
      exact .flush p at' parked
    · cases Option.some.inj stepped
      exact .tick at'
  case h_5 now at' =>
    split at stepped
    · contradiction
    · cases Option.some.inj stepped
      exact requestStep (n.requests - 1) n.keyframes at' (by omega)
  case h_6 now at' =>
    split at stepped
    · contradiction
    · cases Option.some.inj stepped
      exact requestStep n.requests (n.keyframes - 1) at' (by omega)
  case h_7 now at' =>
    split at stepped
    · contradiction
    · cases Option.some.inj stepped
      refine .pliSent now _ at' (by omega) ?_
      by_cases last : n.pending = [] <;> simp [last]
  case h_8 msg at' =>
    cases Option.some.inj stepped
    exact .controlled msg at'
  case h_9 p at' =>
    cases Option.some.inj stepped
    exact .moved p at'
  case h_10 at' =>
    cases Option.some.inj stepped
    exact .release at'
  case h_11 at' =>
    cases Option.some.inj stepped
    exact .close at'
  case h_12 => contradiction

theorem greetStep (stepped : n.stepGreet = some m) : GreetStep n m := by
  unfold stepGreet at stepped
  split at stepped
  · contradiction
  · split at stepped
    · next at' =>
      split at stepped
      · next ev rest next =>
        have same : m = {n with inbox := rest, greet := greetAfter ev} := by
          cases ev <;> cases Option.some.inj stepped <;> simp [greetAfter,at']
        rw [same]
        exact .take ev rest at' next
      · contradiction
    · next at' =>
      cases Option.some.inj stepped
      exact .hello at'
    · next kbps at' =>
      cases Option.some.inj stepped
      exact .setBitrate kbps at'
    · contradiction

theorem anyStep {l : Label} (stepped : n.step l = some m) : AnyStep n l m := by
  cases l with
  | ui cmd =>
    simp only [step] at stepped
    split at stepped
    · contradiction
    · cases Option.some.inj stepped
      exact .ui cmd
  | uiGone =>
    cases Option.some.inj stepped
    exact .uiGone
  | event ev =>
    simp only [step] at stepped
    split at stepped
    · contradiction
    · cases Option.some.inj stepped
      exact .event ev
  | driverGone =>
    cases Option.some.inj stepped
    exact .driverGone
  | opens =>
    simp only [step,stepOpens] at stepped
    split at stepped
    · next connecting =>
      cases Option.some.inj stepped
      exact .opens connecting
    · contradiction
  | channel ev =>
    simp only [step,stepChannel] at stepped
    split at stepped
    case h_1 => contradiction
    all_goals cases Option.some.inj stepped
    case h_5 | h_6 => exact .hears _ rfl
    all_goals exact .closes _ (by simp)
  | greet => exact .greet m (greetStep stepped)
  | loop branch => exact .loop branch m (loopStep stepped)
  | sample now =>
    simp only [step,stepSample] at stepped
    split at stepped
    · contradiction
    · split at stepped
      · cases Option.some.inj stepped
        exact .unread now (by omega)
      · split at stepped
        · cases Option.some.inj stepped
          exact .queue now (by omega)
        · cases Option.some.inj stepped
          exact .drop now (by omega)
  | trackEnded =>
    simp only [step] at stepped
    split at stepped
    · contradiction
    · cases Option.some.inj stepped
      exact .trackEnded
  | receive =>
    simp only [step,stepReceive] at stepped
    split at stepped
    · contradiction
    · split at stepped
      · cases Option.some.inj stepped
        exact .receive _ .decoding
      · split at stepped
        · cases Option.some.inj stepped
          exact .receive n.units .gone
        · contradiction
  | decoded d now again created =>
    simp only [step,stepDecoded] at stepped
    split at stepped
    · contradiction
    · simp only [Option.bind_eq_bind,Option.bind_eq_some_iff] at stepped
      obtain ⟨⟨decode,asked⟩,done,stepped⟩ := stepped
      cases Option.some.inj stepped
      exact .decoded d now again created decode asked (by omega) (by omega) done

end Cases
end Net
end Vmdesk
