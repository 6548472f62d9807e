import Vmdesk.NetStep
import Vmdesk.Runs

/-! Pointer positions and control messages on their way through the network loop. Both come out
of one queue, but a position waits for the next mouse tick while a message goes out at once. -/
namespace Vmdesk

def lastMouse (cmds : List UiCommand) : Option MouseMove :=
  (cmds.filterMap (fun cmd => match cmd with | .mouse m => some m | _ => none)).getLast?

namespace Net

def queued (ls : List Label) : List UiCommand :=
  ls.filterMap (fun l => match l with | .ui cmd => some cmd | _ => none)

def pointer (n : Net) : Option MouseMove := match n.phase with
  | .mousing m => some m
  | _ => n.latestMouse.or n.moves.getLast?

structure Accounted (n : Net) : Prop where
  pointer : n.pointer = lastMouse n.taken
  flushing : ∀ m, n.phase = .mousing m → n.latestMouse = none
  message : ∀ m, n.phase = .controlling m → n.taken.getLast? = some (.control m)

section Steps
variable {n m : Net}

theorem lastMouseSnoc (cmds : List UiCommand) (cmd : UiCommand) :
    lastMouse (cmds ++ [cmd]) = match cmd with
      | .mouse m => some m
      | _ => lastMouse cmds := by
  cases cmd <;> simp [lastMouse]

theorem accountedAside (accounted : Accounted n) (taken : m.taken = n.taken)
    (latest : m.latestMouse = n.latestMouse) (moves : m.moves = n.moves)
    (phase : m.phase = n.phase ∨ (∀ p, n.phase ≠ .mousing p) ∧ (∀ p, m.phase ≠ .mousing p) ∧
      ∀ msg, m.phase ≠ .controlling msg) : Accounted m := by
  obtain ⟨pointer,flushing,message⟩ := accounted
  rcases phase with same|⟨before,after,silent⟩
  · refine ⟨?_,?_,?_⟩
    · rw [taken,← pointer,Net.pointer,Net.pointer,same,latest,moves]
    · rw [same,latest]
      exact flushing
    · rw [same,taken]
      exact message
  · have here {k : Net} (idle : ∀ p, k.phase ≠ .mousing p) :
        k.pointer = k.latestMouse.or k.moves.getLast? := by
      unfold Net.pointer
      split
      · next p at' => exact absurd at' (idle p)
      · rfl
    refine ⟨?_,fun p at' => absurd at' (after p),fun msg at' => absurd at' (silent msg)⟩
    rw [taken,← pointer,here before,here after,latest,moves]

theorem eventAside (stepped : EventStep n m) : m.taken = n.taken ∧ m.ui = n.ui ∧
    m.latestMouse = n.latestMouse ∧ m.moves = n.moves ∧
    (m.phase = n.phase ∨ m.phase = .requesting ∨ ∃ r, m.phase = .gone r) := by
  cases stepped with
  | ignore | connect | unknown => exact ⟨rfl,rfl,rfl,rfl,Or.inl rfl⟩
  | fail e => exact ⟨rfl,rfl,rfl,rfl,Or.inr (Or.inr ⟨_,rfl⟩)⟩
  | ask video known => exact ⟨rfl,rfl,rfl,rfl,Or.inr (Or.inl rfl)⟩

theorem eventAccounted (accounted : Accounted n) (idle : ∀ p, n.phase ≠ .mousing p)
    (stepped : EventStep n m) : Accounted m := by
  obtain ⟨taken,_,latest,moves,phase⟩ := eventAside stepped
  refine accountedAside accounted taken latest moves ?_
  rcases phase with same|sending|⟨r,ended⟩
  · exact Or.inl same
  · exact Or.inr ⟨idle,by simp [sending],by simp [sending]⟩
  · exact Or.inr ⟨idle,by simp [ended],by simp [ended]⟩

theorem takenAccounted {cmd : UiCommand} (accounted : Accounted n) (at' : n.phase = .selecting)
    (taken : m.taken = n.taken ++ [cmd]) (moves : m.moves = n.moves)
    (latest : m.latestMouse = match cmd with
      | .mouse p => some p
      | _ => n.latestMouse)
    (phase : m.phase = match cmd with
      | .control msg => .controlling msg
      | .mouse _ => .selecting
      | .quit => .leaving) : Accounted m := by
  have pointer := accounted.pointer
  simp only [Net.pointer,at'] at pointer
  cases cmd with
  | control msg =>
    refine ⟨?_,by simp [phase],?_⟩
    · simpa [Net.pointer,phase,latest,moves,taken,lastMouseSnoc] using pointer
    · simp [phase,taken]
  | mouse p =>
    exact ⟨by simp [Net.pointer,phase,latest,taken,lastMouseSnoc],by simp [phase],by simp [phase]⟩
  | quit =>
    refine ⟨?_,by simp [phase],by simp [phase]⟩
    simpa [Net.pointer,phase,latest,moves,taken,lastMouseSnoc] using pointer

theorem flushAccounted {p : MouseMove} (accounted : Accounted n) (at' : n.phase = .selecting)
    (parked : n.latestMouse = some p) :
    Accounted ({n with latestMouse := none}.goto (.mousing p)) := by
  have pointer := accounted.pointer
  simp only [Net.pointer,at',parked] at pointer
  refine ⟨?_,by simp [goto],by simp [goto]⟩
  simpa [Net.pointer,goto] using pointer

theorem movedAccounted {p : MouseMove} (accounted : Accounted n) (at' : n.phase = .mousing p) :
    Accounted ({n with moves := n.moves ++ [p]}.goto .selecting) := by
  have pointer := accounted.pointer
  have parked := accounted.flushing p at'
  simp only [Net.pointer,at'] at pointer
  refine ⟨?_,by simp [goto],by simp [goto]⟩
  simpa [Net.pointer,goto,parked] using pointer

theorem loopAccounted {branch : Branch} (accounted : Accounted n) (stepped : LoopStep n branch m) :
    Accounted m := by
  have leaves {phase : LoopPhase} (at' : n.phase = phase) (before : ∀ p, phase ≠ .mousing p)
      (taken : m.taken = n.taken) (latest : m.latestMouse = n.latestMouse)
      (moves : m.moves = n.moves) (after : ∀ p, m.phase ≠ .mousing p)
      (silent : ∀ msg, m.phase ≠ .controlling msg) : Accounted m := by
    rw [← at'] at before
    exact accountedAside accounted taken latest moves (Or.inr ⟨before,after,silent⟩)
  have without {k : Net} (taken : k.taken = n.taken) (latest : k.latestMouse = n.latestMouse)
      (moves : k.moves = n.moves) (phase : k.phase = n.phase) : Accounted k :=
    accountedAside accounted taken latest moves (Or.inl phase)
  cases stepped with
  | drain ev rest _ at' _ led =>
    exact eventAccounted (n := {n with pending := rest}) (without rfl rfl rfl rfl) (by simp [at']) led
  | event ev rest _ at' _ led =>
    exact eventAccounted (n := {n with events := rest}) (without rfl rfl rfl rfl) (by simp [at']) led
  | drained at' | stop e at' | uiGone at' | close at' =>
    exact leaves at' (by simp) rfl rfl rfl (by simp [goto]) (by simp [goto])
  | due _ now requests keyframes at' after known =>
    exact leaves at' (by simp) rfl rfl rfl (by simp [goto]) (by simp [goto])
  | control msg rest at' | mouse p rest at' | quit rest at' =>
    exact takenAccounted accounted at' rfl rfl rfl (by first | rfl | exact at')
  | flush p at' parked => exact flushAccounted accounted at' parked
  | tick => exact accounted
  | early => exact without rfl rfl rfl rfl
  | pliSent now phase at' after back =>
    have other : (∀ p, phase ≠ .mousing p) ∧ ∀ msg, phase ≠ .controlling msg := by
      rcases back with same|same <;> simp [same]
    exact leaves at' (by simp) rfl rfl rfl other.1 other.2
  | controlled msg at' =>
    obtain ⟨taken,latest,moves,_⟩ := sendKeeps n .loop msg
    exact leaves at' (by simp) taken latest moves (by simp [goto]) (by simp [goto])
  | moved p at' => exact movedAccounted accounted at'
  | release at' =>
    obtain ⟨taken,latest,moves,_⟩ := sendKeeps n .loop .releaseAll
    exact leaves at' (by simp) taken latest moves (by simp [goto]) (by simp [goto])

theorem greetAside (stepped : GreetStep n m) : m.taken = n.taken ∧ m.ui = n.ui ∧
    m.latestMouse = n.latestMouse ∧ m.moves = n.moves ∧ m.phase = n.phase := by
  cases stepped with
  | take => exact ⟨rfl,rfl,rfl,rfl,rfl⟩
  | hello | setBitrate =>
    obtain ⟨taken,latest,moves,ui,phase⟩ := sendKeeps n .task _
    exact ⟨taken,ui,latest,moves,phase⟩

theorem accountedStep {l : Label} (accounted : Accounted n) (stepped : n.step l = some m) :
    Accounted m := by
  cases anyStep stepped with
  | loop branch _ looped => exact loopAccounted accounted looped
  | greet _ greeted =>
    obtain ⟨taken,_,latest,moves,phase⟩ := greetAside greeted
    exact accountedAside accounted taken latest moves (Or.inl phase)
  | ui | uiGone | event | driverGone | opens | closes | hears | unread | queue | drop | trackEnded
  | receive | decoded => exact accountedAside accounted rfl rfl rfl (Or.inl rfl)

theorem loopQueue {branch : Branch} (stepped : LoopStep n branch m) :
    m.taken ++ m.ui = n.taken ++ n.ui := by
  cases stepped with
  | drain ev rest _ at' _ led | event ev rest _ at' _ led =>
    obtain ⟨taken,ui,_⟩ := eventAside led
    rw [taken,ui]
  | control msg rest at' next | mouse p rest at' next | quit rest at' next => simp [goto,next]
  | controlled msg at' | release at' =>
    obtain ⟨taken,_,_,ui,_⟩ := sendKeeps n .loop _
    exact congrArg₂ (· ++ ·) taken ui
  | drained | stop | uiGone | flush | tick | due | early | pliSent | moved | close => rfl

theorem stepQueue {l : Label} (stepped : n.step l = some m) :
    m.taken ++ m.ui = n.taken ++ n.ui ++ queued [l] := by
  cases anyStep stepped with
  | ui cmd => simp [queued]
  | loop branch _ looped => simp [queued,loopQueue looped]
  | greet _ greeted =>
    obtain ⟨taken,ui,_⟩ := greetAside greeted
    simp [queued,taken,ui]
  | uiGone | event | driverGone | opens | closes | hears | unread | queue | drop | trackEnded
  | receive | decoded => simp [queued]

theorem runQueue {ls : List Label} (reached : Runs.run step n ls = some m) :
    m.taken ++ m.ui = n.taken ++ n.ui ++ queued ls := by
  induction ls generalizing n with
  | nil =>
    cases Option.some.inj reached
    simp [queued]
  | cons l ls ih =>
    obtain ⟨k,first,rest⟩ := Option.bind_eq_some_iff.mp reached
    have split : queued (l::ls) = queued [l] ++ queued ls := by
      rw [queued,queued,queued,← List.filterMap_append,List.singleton_append]
    rw [ih rest,split,← List.append_assoc,stepQueue first]

/- What the loop is about to send comes after the position before it in the queue: that position
has been handed over, unless no mouse tick has come since the loop took it. Then the next tick
hands it over. -/
theorem clicksFollowTick (bitrate : Option UInt32) (now : Int) (pending : List PcEvent)
    (decode : DecodeThread) (ls : List Label) (msg : ControlMessage)
    (reached : Runs.run step (initial bitrate now pending decode) ls = some n)
    (sending : n.phase = .controlling msg) :
    ∃ before, n.taken = before ++ [.control msg] ∧ queued ls = before ++ .control msg::n.ui ∧
      (n.latestMouse = none → n.moves.getLast? = lastMouse before) ∧
      ∀ p, n.latestMouse = some p → lastMouse before = some p ∧
        (Runs.run step n [.loop .proceed,.loop .mouseTick,.loop .proceed]).map
          (fun k => k.moves) = some (n.moves ++ [p]) := by
  have accounted : Accounted n := Runs.runKeeps Accounted
    ⟨rfl,by simp [initial],by simp [initial]⟩ (fun _ _ _ kept stepped => accountedStep kept stepped)
    reached
  obtain ⟨before,taken⟩ := List.getLast?_eq_some_iff.mp (accounted.message msg sending)
  have pointer := accounted.pointer
  simp only [Net.pointer,sending,taken,lastMouseSnoc] at pointer
  refine ⟨before,taken,?_,fun empty => ?_,fun p parked => ⟨?_,?_⟩⟩
  · have queue := runQueue reached
    simpa [taken,initial] using queue.symm
  · simpa [empty] using pointer
  · simpa [parked] using pointer.symm
  · obtain ⟨_,latest,moves,_⟩ := sendKeeps n .loop msg
    simp [Runs.run,step,stepLoop,sending,goto,latest,moves,parked]

end Steps

def clickAtOnce : List Label := [.opens,.greet,.greet,.ui (.mouse ⟨1,2⟩),
  .ui (.control (.button .left true)),.loop .drain,.loop .command,.loop .command]

def idle : Net := initial none 0 [] (.initial none 0)

theorem clickAtOnceFollows : ∃ n, Runs.run step idle clickAtOnce = some n ∧
    n.phase = .controlling (.button .left true) ∧
    ∃ before, n.taken = before ++ [.control (.button .left true)] ∧
      queued clickAtOnce = before ++ .control (.button .left true)::n.ui ∧
      (n.latestMouse = none → n.moves.getLast? = lastMouse before) ∧
      ∀ p, n.latestMouse = some p → lastMouse before = some p ∧
        (Runs.run step n [.loop .proceed,.loop .mouseTick,.loop .proceed]).map
          (fun k => k.moves) = some (n.moves ++ [p]) := by
  have phase : (Runs.run step idle clickAtOnce).map (fun n => n.phase) =
      some (.controlling (.button .left true)) := by decide
  obtain ⟨n,reached,sending⟩ := Option.map_eq_some_iff.mp phase
  exact ⟨n,reached,sending,clicksFollowTick _ _ _ _ _ _ reached sending⟩

theorem clickOvertakes : queued clickAtOnce = [.mouse ⟨1,2⟩,.control (.button .left true)] ∧
    (Runs.run step idle (clickAtOnce ++ [.loop .proceed])).map (fun n => (n.sent,n.moves)) =
      some ([(.task,.hello protocolVersion),(.loop,.button .left true)],[]) := by decide

end Net
end Vmdesk
