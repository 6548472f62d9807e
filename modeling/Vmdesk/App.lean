import Vmdesk.Uinput

/-! Input capture of the client window. Pointer positions and wheel notches arrive
here already computed from the video rectangle and the scroll accumulators. -/
namespace Vmdesk
namespace Winit

/- The key codes of the windowing library carry the protocol's names. `unlisted`
stands for codes that were added there later. -/
inductive KeyCode where
  | named (key : Vmdesk.KeyCode)
  | unlisted (id : Nat)
  deriving DecidableEq, Repr

inductive PhysicalKey where
  | code (code : KeyCode)
  | unidentified (native : Nat)
  deriving DecidableEq, Repr

inductive ElementState where | pressed | released
  deriving DecidableEq, Repr

inductive MouseButton where | left | right | middle | back | forward | other (id : UInt16)
  deriving DecidableEq, Repr

structure KeyEvent where
  physicalKey : PhysicalKey
  state : ElementState
  isRepeat : Bool
  deriving DecidableEq, Repr

inductive WindowEvent where
  | closeRequested
  | focused (focused : Bool)
  | keyboardInput (event : KeyEvent) (isSynthetic : Bool)
  | mouseInput (state : ElementState) (button : MouseButton)
  | cursorMoved (m : MouseMove)
  | mouseWheel (notches : Option (Int16 × Int16))
  | other
  deriving DecidableEq, Repr

end Winit
open Winit (ElementState WindowEvent)

def toProto : Winit.KeyCode → Option KeyCode
  | .named key => some key
  | .unlisted _ => none

def buttonToProto : Winit.MouseButton → Option MouseButton
  | .left => some .left
  | .right => some .right
  | .middle => some .middle
  | .back => some .back
  | .forward => some .forward
  | .other _ => none

inductive UiCommand where
  | control (m : ControlMessage)
  | mouse (m : MouseMove)
  | quit
  deriving DecidableEq, Repr

structure App where
  hasWindow : Bool
  fullscreen : Bool
  pressedKeys : Held KeyCode
  pressedButtons : Held MouseButton
  deriving DecidableEq, Repr

namespace App

def initial : App := ⟨false,false,.empty,.empty⟩

def resumed (a : App) : App := {a with hasWindow := true}

def started : App := initial.resumed

def releaseAll (a : App) : App × List UiCommand :=
  ({a with pressedKeys := .empty,pressedButtons := .empty},[.control .releaseAll])

def toggleFullscreen (a : App) : App :=
  if a.hasWindow then {a with fullscreen := !a.fullscreen} else a

def handleKey (a : App) (event : Winit.KeyEvent) : App × List UiCommand :=
  match event.physicalKey with
  | .unidentified _ => (a,[])
  | .code code =>
    let pressed := event.state == .pressed
    if code = .named .f11 then
      (if pressed && !event.isRepeat then a.toggleFullscreen else a,[])
    else if event.isRepeat then (a,[])
    else match toProto code with
      | none => (a,[])
      | some key =>
        ({a with pressedKeys := if pressed then a.pressedKeys.insert key else a.pressedKeys.remove key},
          [.control (.key key pressed)])

def windowEvent (a : App) : WindowEvent → App × List UiCommand
  | .closeRequested =>
      let (a,cmds) := a.releaseAll
      (a,cmds ++ [.quit])
  | .focused focused => if !focused then a.releaseAll else (a,[])
  | .keyboardInput event isSynthetic => if !isSynthetic then a.handleKey event else (a,[])
  | .cursorMoved m => (a,[.mouse m])
  | .mouseInput state button => match buttonToProto button with
    | none => (a,[])
    | some b =>
      let pressed := state == .pressed
      ({a with pressedButtons :=
          if pressed then a.pressedButtons.insert b else a.pressedButtons.remove b},
        [.control (.button b pressed)])
  | .mouseWheel notches => match notches with
    | none => (a,[])
    | some (horizontal,vertical) => (a,[.control (.wheel horizontal vertical)])
  | .other => (a,[])

def after (a : App) (events : List WindowEvent) : App :=
  events.foldl (fun a e => (a.windowEvent e).1) a

def controls (cmds : List UiCommand) : List ControlMessage :=
  cmds.filterMap (fun cmd => match cmd with | .control m => some m | _ => none)

def sent : App → List WindowEvent → List (ControlMessage × App)
  | _,[] => []
  | a,e::es =>
    let (n,cmds) := a.windowEvent e
    (controls cmds).map (fun m => (m,n)) ++ sent n es

end App

def ControlMessage.keyChange : ControlMessage → Option (Held.Change KeyCode)
  | .key code true => some (.press code)
  | .key code false => some (.release code)
  | .releaseAll => some .releaseAll
  | _ => none

def ControlMessage.buttonChange : ControlMessage → Option (Held.Change MouseButton)
  | .button b true => some (.press b)
  | .button b false => some (.release b)
  | .releaseAll => some .releaseAll
  | _ => none

def keyChanges (ms : List ControlMessage) : List (Held.Change KeyCode) :=
  ms.filterMap ControlMessage.keyChange

def buttonChanges (ms : List ControlMessage) : List (Held.Change MouseButton) :=
  ms.filterMap ControlMessage.buttonChange

theorem keyChangesAppend (left right : List ControlMessage) :
    keyChanges (left ++ right) = keyChanges left ++ keyChanges right := List.filterMap_append

theorem buttonChangesAppend (left right : List ControlMessage) :
    buttonChanges (left ++ right) = buttonChanges left ++ buttonChanges right :=
  List.filterMap_append

namespace App

structure Follows (a : App) (r : App × List UiCommand) : Prop where
  single : (controls r.2).length ≤ 1
  keys : r.1.pressedKeys = Held.run a.pressedKeys (keyChanges (controls r.2))
  buttons : r.1.pressedButtons = Held.run a.pressedButtons (buttonChanges (controls r.2))

theorem releaseAllFollows (a : App) : Follows a a.releaseAll := ⟨Nat.le_refl 1,rfl,rfl⟩

theorem handleKeyFollows (a : App) (event : Winit.KeyEvent) : Follows a (a.handleKey event) := by
  have silent : Follows a (a,[]) := ⟨Nat.zero_le 1,rfl,rfl⟩
  unfold handleKey
  split
  · exact silent
  · simp only []
    split
    · split
      · unfold toggleFullscreen
        split
        · exact ⟨Nat.zero_le 1,rfl,rfl⟩
        · exact silent
      · exact silent
    · split
      · exact silent
      · split
        · exact silent
        · rename_i key _
          cases event.state == ElementState.pressed <;> exact ⟨Nat.le_refl 1,rfl,rfl⟩

theorem windowEventFollows (a : App) (e : WindowEvent) : Follows a (a.windowEvent e) := by
  have silent : Follows a (a,[]) := ⟨Nat.zero_le 1,rfl,rfl⟩
  cases e with
  | closeRequested => exact ⟨Nat.le_refl 1,rfl,rfl⟩
  | focused focused =>
    cases focused with
    | true => exact silent
    | false => exact releaseAllFollows a
  | keyboardInput event isSynthetic =>
    cases isSynthetic with
    | true => exact silent
    | false => exact handleKeyFollows a event
  | mouseInput state button =>
    simp only [windowEvent]
    split
    · exact silent
    · cases state == ElementState.pressed <;> exact ⟨Nat.le_refl 1,rfl,rfl⟩
  | cursorMoved m => exact ⟨Nat.zero_le 1,rfl,rfl⟩
  | mouseWheel notches =>
    cases notches with
    | none => exact silent
    | some n => exact ⟨Nat.le_refl 1,rfl,rfl⟩
  | other => exact silent

def messages (a : App) (events : List WindowEvent) : List ControlMessage :=
  (a.sent events).map Prod.fst

theorem messagesCons (a : App) (e : WindowEvent) (es : List WindowEvent) :
    a.messages (e::es) = controls (a.windowEvent e).2 ++ (a.windowEvent e).1.messages es := by
  simp [messages,sent,Function.comp_def]

theorem sentChanges (a : App) (events : List WindowEvent) (j : Nat) (m : ControlMessage)
    (client : App) (found : (a.sent events)[j]? = some (m,client)) :
    client.pressedKeys = Held.run a.pressedKeys (keyChanges ((a.messages events).take (j+1))) ∧
    client.pressedButtons =
      Held.run a.pressedButtons (buttonChanges ((a.messages events).take (j+1))) := by
  induction events generalizing a j with
  | nil => simp [sent] at found
  | cons e es ih =>
    have first := windowEventFollows a e
    rw [messagesCons]
    cases cmds : controls (a.windowEvent e).2 with
    | nil =>
      have later := ih (a.windowEvent e).1 j (by simpa [sent,cmds] using found)
      have keys := first.keys
      have buttons := first.buttons
      rw [cmds] at keys buttons
      rw [keys,buttons] at later
      exact later
    | cons own more =>
      have single := first.single
      rw [cmds] at single
      obtain rfl : more = [] := by simpa using single
      have keys := first.keys
      have buttons := first.buttons
      rw [cmds] at keys buttons
      cases j with
      | zero =>
        have same : own = m ∧ (a.windowEvent e).1 = client := by simpa [sent,cmds] using found
        rw [← same.2]
        exact ⟨keys,buttons⟩
      | succ j =>
        have later := ih (a.windowEvent e).1 j (by simpa [sent,cmds] using found)
        rw [keys,buttons] at later
        rw [List.singleton_append,List.take_succ_cons,← List.singleton_append,keyChangesAppend,
          buttonChangesAppend,Held.runAppend,Held.runAppend]
        exact later

end App
end Vmdesk
