import Vmdesk.App

/-! The client's sets against the sets of the server's sink, through the wire: every
control message is encoded, arrives once and in order, is decoded and handled. -/
namespace Vmdesk
open Winit (WindowEvent)

/- The control arm of the channel reader, as far as it concerns the sink. -/
def UinputSink.receive (s : UinputSink) (raw : LittleEndian.Bytes) : UinputSink :=
  match (ControlMessage.decode raw).run with
  | some (.ok (.hello _)) => s
  | some (.ok (.setBitrate _)) => s
  | some (.ok m) => (s.handle (.control m) .succeed).1
  | _ => s

def UinputSink.served (s : UinputSink) (ms : List ControlMessage) : UinputSink :=
  (ms.map ControlMessage.encode).foldl UinputSink.receive s

def buttonCode (b : MouseButton) : Option Evdev.KeyCode := some (buttonToEvdev b)

namespace UinputSink

theorem receiveChanges (s : UinputSink) (m : ControlMessage) :
    (s.receive m.encode).pressedKeys =
      Held.runNamed toEvdev s.pressedKeys (keyChanges [m]) ∧
    (s.receive m.encode).pressedButtons =
      Held.runNamed buttonCode s.pressedButtons (buttonChanges [m]) := by
  have decoded : (ControlMessage.decode m.encode).run = some (.ok m) := m.decodeEncode
  rw [receive,decoded]
  cases m with
  | hello => exact ⟨rfl,rfl⟩
  | setBitrate => exact ⟨rfl,rfl⟩
  | releaseAll => exact releaseAllSets s .succeed
  | wheel horizontal vertical =>
    simp only [handle,wheel]
    split <;> exact ⟨rfl,rfl⟩
  | key code pressed =>
    simp only [handle]
    cases named : toEvdev code with
    | none =>
      cases pressed <;> refine ⟨?_,rfl⟩ <;>
        simp [keyChanges,ControlMessage.keyChange,Held.runNamed,Held.applyNamed,named]
    | some ev =>
      cases pressed <;> refine ⟨?_,rfl⟩ <;>
        simp [keyChanges,ControlMessage.keyChange,Held.runNamed,Held.applyNamed,named,key,emitKeyboard]
  | button b pressed => cases pressed <;> exact ⟨rfl,rfl⟩

theorem servedCons (s : UinputSink) (m : ControlMessage) (ms : List ControlMessage) :
    s.served (m::ms) = (s.receive m.encode).served ms := rfl

theorem servedChanges (s : UinputSink) (ms : List ControlMessage) :
    (s.served ms).pressedKeys = Held.runNamed toEvdev s.pressedKeys (keyChanges ms) ∧
    (s.served ms).pressedButtons = Held.runNamed buttonCode s.pressedButtons (buttonChanges ms) := by
  induction ms generalizing s with
  | nil => exact ⟨rfl,rfl⟩
  | cons m ms ih =>
    have first := receiveChanges s m
    have rest := ih (s.receive m.encode)
    rw [first.1,first.2] at rest
    rw [servedCons,← List.singleton_append,keyChangesAppend,buttonChangesAppend,
      Held.runNamedAppend,Held.runNamedAppend]
    exact rest

end UinputSink

def Apart (ms : List ControlMessage) : Prop :=
  ∀ pressed released, .key pressed true ∈ ms → .key released false ∈ ms →
    ∀ ev, toEvdev pressed = some ev → toEvdev released = some ev → pressed = released

theorem keySent (pressed : Bool) {ms : List ControlMessage} {k : KeyCode}
    (mem : (if pressed then .press k else .release k) ∈ keyChanges ms) : .key k pressed ∈ ms := by
  obtain ⟨m,sent,change⟩ := List.mem_filterMap.mp mem
  cases m with
  | key code down => cases pressed <;> cases down <;> simp_all [ControlMessage.keyChange]
  | _ => cases pressed <;> simp [ControlMessage.keyChange] at change

section Agreement
variable {ms : List ControlMessage} {keys : Held KeyCode} {buttons : Held MouseButton}

theorem buttonsAgree (same : buttons = Held.run .empty (buttonChanges ms)) :
    Held.Exact buttonCode (UinputSink.fresh.served ms).pressedButtons buttons := by
  rw [same,(UinputSink.servedChanges _ ms).2]
  refine Held.exactRun Held.exactEmpty _ MouseButton.all (fun a mem => absurd mem Held.memEmpty)
    (fun a _ => by cases a <;> decide) ?_
  intro a _ r _ b left right
  exact buttonToEvdevInjective (Option.some.inj (left.trans right.symm))

theorem keysWithin (same : keys = Held.run .empty (keyChanges ms)) :
    Held.Within toEvdev (UinputSink.fresh.served ms).pressedKeys keys := by
  rw [same,(UinputSink.servedChanges _ ms).1]
  exact Held.withinRun Held.exactEmpty.within _

theorem keysAgree (same : keys = Held.run .empty (keyChanges ms)) (apart : Apart ms) :
    Held.Exact toEvdev (UinputSink.fresh.served ms).pressedKeys keys := by
  rw [same,(UinputSink.servedChanges _ ms).1]
  refine Held.exactRun Held.exactEmpty _
    (KeyCode.all.filter (fun k => .key k true ∈ ms)) (fun a mem => absurd mem Held.memEmpty) ?_ ?_
  · intro a press
    simpa using And.intro a.memAll (keySent true press)
  · intro a mem r release ev left right
    have pressed : .key a true ∈ ms := by simpa using (List.mem_filter.mp mem).2
    exact apart a r pressed (keySent false release) ev left right

theorem Apart.take (apart : Apart ms) (n : Nat) : Apart (ms.take n) :=
  fun a r press release => apart a r (List.mem_of_mem_take press) (List.mem_of_mem_take release)

end Agreement

namespace App

def Leaves (e : WindowEvent) : Prop := e = .focused false ∨ e = .closeRequested

theorem leavesEmpty {e : WindowEvent} (leaves : Leaves e) (a : App) (events : List WindowEvent) :
    (a.after (events ++ [e])).pressedKeys = .empty ∧
    (a.after (events ++ [e])).pressedButtons = .empty := by
  rw [after,List.foldl_append]
  rcases leaves with rfl | rfl <;> exact ⟨rfl,rfl⟩

theorem messagesAppend (a : App) (left right : List WindowEvent) :
    a.messages (left ++ right) = a.messages left ++ (a.after left).messages right := by
  induction left generalizing a with
  | nil => rfl
  | cons e left ih =>
    rw [List.cons_append,messagesCons,messagesCons,ih,List.append_assoc]
    rfl

theorem leavesMessages {e : WindowEvent} (leaves : Leaves e) (a : App) (events : List WindowEvent) :
    a.messages (events ++ [e]) = a.messages events ++ [.releaseAll] := by
  rw [messagesAppend]
  rcases leaves with rfl | rfl <;> rfl

end App

namespace UinputSink

theorem servedReleaseAll (s : UinputSink) (ms : List ControlMessage) :
    (s.served (ms ++ [.releaseAll])).pressedKeys = .empty ∧
    (s.served (ms ++ [.releaseAll])).pressedButtons = .empty := by
  have sets := servedChanges s (ms ++ [.releaseAll])
  rw [keyChangesAppend,buttonChangesAppend,Held.runNamedAppend,Held.runNamedAppend] at sets
  exact sets

end UinputSink

theorem clientServerAgree (events : List WindowEvent) :
    (∀ (j : Nat) (m : ControlMessage) (client : App),
      (App.started.sent events)[j]? = some (m,client) →
      Held.Exact buttonCode
        (UinputSink.fresh.served ((App.started.messages events).take (j+1))).pressedButtons
        client.pressedButtons ∧
      Held.Within toEvdev
        (UinputSink.fresh.served ((App.started.messages events).take (j+1))).pressedKeys
        client.pressedKeys ∧
      (Apart (App.started.messages events) → Held.Exact toEvdev
        (UinputSink.fresh.served ((App.started.messages events).take (j+1))).pressedKeys
        client.pressedKeys)) ∧
    (∀ e, App.Leaves e →
      (App.started.after (events ++ [e])).pressedKeys = .empty ∧
      (App.started.after (events ++ [e])).pressedButtons = .empty ∧
      (UinputSink.fresh.served (App.started.messages (events ++ [e]))).pressedKeys = .empty ∧
      (UinputSink.fresh.served (App.started.messages (events ++ [e]))).pressedButtons = .empty) := by
  apply And.intro
  · intro j m client found
    have sets := App.started.sentChanges events j m client found
    exact ⟨buttonsAgree sets.2,keysWithin sets.1,fun apart => keysAgree sets.1 (apart.take (j+1))⟩
  · intro e leaves
    have client := App.leavesEmpty leaves App.started events
    have server := UinputSink.servedReleaseAll UinputSink.fresh (App.started.messages events)
    rw [App.leavesMessages leaves]
    exact ⟨client.1,client.2,server.1,server.2⟩

/- No two keys of one code are pressed here. Only a key that went down elsewhere is
released in the window, and it takes the code away from the key that is held. -/
theorem unpressedReleaseDiffers :
    let press : WindowEvent := .keyboardInput ⟨.code (.named .katakana),.pressed,false⟩ false
    let release : WindowEvent := .keyboardInput ⟨.code (.named .lang3),.released,false⟩ false
    let ms := App.started.messages [press,release]
    (∀ a b, .key a true ∈ ms → .key b true ∈ ms →
      ∀ ev, toEvdev a = some ev → toEvdev b = some ev → a = b) ∧
    ∃ m client, (App.started.sent [press,release])[1]? = some (m,client) ∧
      ¬ Held.Exact toEvdev (UinputSink.fresh.served (ms.take 2)).pressedKeys client.pressedKeys := by
  refine ⟨?_,_,_,rfl,?_⟩
  · intro a b left right ev _ _
    have onlyKatakana : ∀ k, ControlMessage.key k true ∈ [ControlMessage.key .katakana true,
        .key .lang3 false] → k = .katakana := by
      intro k mem
      simpa using mem
    rw [onlyKatakana a left,onlyKatakana b right]
  · intro exact
    have mem := (exact .keyKatakana).mpr ⟨.katakana,by decide,rfl⟩
    exact absurd mem (by decide)

end Vmdesk
