import Vmdesk.SessionInput

/-! What the sink registers its two devices for. The kernel lets no other event through, so whatever
the sink emits has to be among it. -/
namespace Vmdesk

namespace Evdev

structure UinputAbsSetup where
  axis : AbsoluteAxisCode
  minimum : Int
  maximum : Int
  deriving DecidableEq, Repr

structure Capabilities where
  keys : Held KeyCode
  relative : Held RelativeAxisCode
  absolute : List UinputAbsSetup

def Capabilities.supports (c : Capabilities) : Event → Bool
  | .key code _ => decide (code ∈ c.keys)
  | .relative axis _ => decide (axis ∈ c.relative)
  | .absolute axis _ => c.absolute.any (fun a => a.axis == axis)

def Capabilities.covers (c : Capabilities) : Event → Prop
  | .absolute axis value => ∃ a ∈ c.absolute, a.axis = axis ∧ a.minimum ≤ value ∧ value ≤ a.maximum
  | e => c.supports e = true

theorem Capabilities.coversKey {c : Capabilities} {code : KeyCode} (registered : code ∈ c.keys)
    (pressed : Bool) : c.covers (.key code pressed) := decide_eq_true registered

theorem Capabilities.coversRelative {c : Capabilities} {axis : RelativeAxisCode}
    (registered : axis ∈ c.relative) (value : Int) : c.covers (.relative axis value) :=
  decide_eq_true registered

/- A device in the kernel: `ignored` are the events that it was not registered for. -/
structure RegisteredDevice where
  capabilities : Capabilities
  device : VirtualDevice
  ignored : List Event

namespace RegisteredDevice

def register (capabilities : Capabilities) : RegisteredDevice := ⟨capabilities,.fresh,[]⟩

def accept (d : RegisteredDevice) (e : Event) : RegisteredDevice :=
  if d.capabilities.supports e then {d with device := d.device.apply e}
  else {d with ignored := d.ignored ++ [e]}

def write (d : RegisteredDevice) (events : List Event) : RegisteredDevice := events.foldl accept d

theorem coversSupports {c : Capabilities} {e : Event} (covered : c.covers e) : c.supports e = true := by
  cases e with
  | key | relative => exact covered
  | absolute axis value =>
    obtain ⟨a,inside,same,_⟩ := covered
    exact List.any_eq_true.mpr ⟨a,inside,by simp [same]⟩

theorem writeCovered {c : Capabilities} {d : VirtualDevice} {events : List Event}
    (covered : ∀ e ∈ events, c.covers e) :
    write ⟨c,d,[]⟩ events = ⟨c,events.foldl VirtualDevice.apply d,[]⟩ := by
  induction events generalizing d with
  | nil => rfl
  | cons e events ih =>
    have here : accept ⟨c,d,[]⟩ e = ⟨c,d.apply e,[]⟩ := if_pos (coversSupports (covered e (by simp)))
    rw [write,List.foldl_cons,here]
    exact ih (fun f inside => covered f (by simp [inside]))

end RegisteredDevice
end Evdev

open Evdev (RegisteredDevice VirtualDevice)

namespace UinputSink

def keyboardCapabilities : Evdev.Capabilities where
  keys := Held.named toEvdev KeyCode.all
  relative := .empty
  absolute := []

def pointerCapabilities : Evdev.Capabilities where
  keys := Held.named (fun b => some (buttonToEvdev b)) MouseButton.all
  relative := (Held.empty.insert .relWheel).insert .relHwheel
  absolute := [⟨.absX,0,65535⟩,⟨.absY,0,65535⟩]

def written (s : UinputSink) : Call → List Evdev.Event × List Evdev.Event
  | .handle (.mouse m) emits =>
      ([],if emits.pointer then [.absolute .absX m.x.toNat,.absolute .absY m.y.toNat] else [])
  | .handle (.control (.key code pressed)) emits => (match toEvdev code with
      | some ev => if emits.keyboard then [.key ev pressed] else []
      | none => [],[])
  | .handle (.control (.button b pressed)) emits =>
      ([],if emits.pointer then [.key (buttonToEvdev b) pressed] else [])
  | .handle (.control (.wheel horizontal vertical)) emits =>
      ([],if emits.pointer then wheelEvents horizontal vertical else [])
  | .handle (.control (.hello _)) _ | .handle (.control (.setBitrate _)) _ => ([],[])
  | .handle (.control .releaseAll) emits | .releaseAll emits =>
      (if emits.keyboard then VirtualDevice.releases s.pressedKeys else [],
        if emits.pointer && (emits.keyboard || s.pressedKeys.isEmpty)
        then VirtualDevice.releases s.pressedButtons else [])

structure Registered where
  keyboard : RegisteredDevice
  pointer : RegisteredDevice

def Registered.new : Registered where
  keyboard := .register keyboardCapabilities
  pointer := .register pointerCapabilities

def Registered.serve (d : Registered) (s : UinputSink) (c : Call) : Registered where
  keyboard := d.keyboard.write (written s c).1
  pointer := d.pointer.write (written s c).2

def Registered.after (d : Registered) : UinputSink → List Call → Registered
  | _,[] => d
  | s,c::calls => (d.serve s c).after (s.call c).1 calls

structure Own (s : UinputSink) : Prop where
  keys : ∀ code ∈ s.pressedKeys, code ∈ keyboardCapabilities.keys
  buttons : ∀ code ∈ s.pressedButtons, code ∈ pointerCapabilities.keys

section Calls
variable {s : UinputSink}

theorem keyRegistered {k : KeyCode} {code : Evdev.KeyCode} (called : toEvdev k = some code) :
    code ∈ keyboardCapabilities.keys := Held.memNamed.mpr ⟨k,KeyCode.memAll k,called⟩

theorem buttonRegistered (b : MouseButton) : buttonToEvdev b ∈ pointerCapabilities.keys :=
  Held.memNamed.mpr ⟨b,by cases b <;> decide,rfl⟩

theorem relativeRegistered (axis : Evdev.RelativeAxisCode) : axis ∈ pointerCapabilities.relative := by
  cases axis <;> decide

theorem releasesCovered {c : Evdev.Capabilities} {set : Held Evdev.KeyCode}
    (own : ∀ code ∈ set, code ∈ c.keys) : ∀ e ∈ VirtualDevice.releases set, c.covers e := by
  intro e inside
  obtain ⟨code,held,same⟩ := List.mem_map.mp inside
  rw [← same]
  exact Evdev.Capabilities.coversKey (own code held) false

theorem wheelCovered (horizontal vertical : Int16) :
    ∀ e ∈ wheelEvents horizontal vertical, pointerCapabilities.covers e := by
  intro e inside
  rcases List.mem_append.mp inside with inside|inside
  · split at inside
    · cases List.mem_singleton.mp inside
      exact Evdev.Capabilities.coversRelative (relativeRegistered _) _
    · exact absurd inside List.not_mem_nil
  · split at inside
    · cases List.mem_singleton.mp inside
      exact Evdev.Capabilities.coversRelative (relativeRegistered _) _
    · exact absurd inside List.not_mem_nil

theorem moveCovered (m : MouseMove) : ∀ e ∈ [Evdev.Event.absolute .absX m.x.toNat,
    .absolute .absY m.y.toNat], pointerCapabilities.covers e := by
  have bounded (v : UInt16) : (0 : Int) ≤ v.toNat ∧ (v.toNat : Int) ≤ 65535 := by
    have below := v.toNat_lt
    omega
  intro e inside
  simp only [List.mem_cons,List.not_mem_nil,or_false] at inside
  rcases inside with same|same
  · rw [same]
    exact ⟨_,List.mem_cons_self,rfl,bounded m.x⟩
  · rw [same]
    exact ⟨_,List.mem_cons_of_mem _ List.mem_cons_self,rfl,bounded m.y⟩

theorem writtenCovered (own : Own s) (c : Call) :
    (∀ e ∈ (written s c).1, keyboardCapabilities.covers e) ∧
    ∀ e ∈ (written s c).2, pointerCapabilities.covers e := by
  have sent {c : Evdev.Capabilities} {events : List Evdev.Event} (ok : Bool)
      (covered : ∀ e ∈ events, c.covers e) : ∀ e ∈ (if ok then events else []), c.covers e := by
    cases ok with
    | true => exact covered
    | false => exact List.forall_mem_nil _
  have single {c : Evdev.Capabilities} {e : Evdev.Event} (covered : c.covers e) :
      ∀ f ∈ [e], c.covers f := by
    intro f inside
    cases List.mem_singleton.mp inside
    exact covered
  have nothing (c : Evdev.Capabilities) : ∀ e ∈ ([] : List Evdev.Event), c.covers e :=
    List.forall_mem_nil _
  have releases (emits : Emits) := And.intro
    (sent emits.keyboard (releasesCovered own.keys))
    (sent (emits.pointer && (emits.keyboard || s.pressedKeys.isEmpty)) (releasesCovered own.buttons))
  cases c with
  | releaseAll emits => exact releases emits
  | handle event emits =>
    cases event with
    | mouse m => exact ⟨nothing _,sent _ (moveCovered m)⟩
    | control m =>
      cases m with
      | hello | setBitrate => exact ⟨nothing _,nothing _⟩
      | releaseAll => exact releases emits
      | wheel horizontal vertical => exact ⟨nothing _,sent _ (wheelCovered horizontal vertical)⟩
      | button b pressed =>
        exact ⟨nothing _,sent _ (single (Evdev.Capabilities.coversKey (buttonRegistered b) pressed))⟩
      | key code pressed =>
        refine ⟨?_,nothing _⟩
        simp only [written]
        cases called : toEvdev code with
        | none => exact nothing _
        | some ev => exact sent _ (single (Evdev.Capabilities.coversKey (keyRegistered called) pressed))

def Writes (s : UinputSink) (c : Call) : Prop :=
  (s.call c).1.keyboard = (written s c).1.foldl VirtualDevice.apply s.keyboard ∧
  (s.call c).1.pointer = (written s c).2.foldl VirtualDevice.apply s.pointer

theorem emitted (d : VirtualDevice) (events : List Evdev.Event) (ok : Bool) (context : String) :
    (d.emit events ok context).1 = (if ok then events else []).foldl VirtualDevice.apply d := by
  cases ok <;> rfl

theorem releaseWrites (s : UinputSink) (emits : Emits) : Writes s (.releaseAll emits) := by
  have none' {set : Held Evdev.KeyCode} (empty : set.isEmpty = true) :
      VirtualDevice.releases set = [] := by
    rw [VirtualDevice.releases,List.isEmpty_iff.mp empty,List.map_nil]
  rcases releaseAllCases s emits with ⟨keys,buttons,same⟩|⟨keys,failed,same⟩|⟨keyboard,how,rest⟩
  · simp [Writes,call,same,written,none' keys,none' buttons]
  · simp [Writes,call,same,written,failed,keys]
  · have typed : keyboard = (if emits.keyboard then VirtualDevice.releases s.pressedKeys
        else []).foldl VirtualDevice.apply s.keyboard := by
      rcases how with ⟨keys,same⟩|⟨ok,same⟩
      · simp [same,none' keys]
      · rw [same,ok]
        rfl
    have reached : (emits.keyboard || s.pressedKeys.isEmpty) = true := by
      rcases how with ⟨keys,_⟩|⟨ok,_⟩ <;> simp [*]
    rcases rest with ⟨buttons,same⟩|⟨buttons,same⟩
    · simp [Writes,call,same,written,← typed,none' buttons]
    · simp only [Writes,call,same,written,reached,Bool.and_true,emitted]
      exact ⟨typed,trivial⟩

theorem callWrites (s : UinputSink) (c : Call) : Writes s c := by
  cases c with
  | releaseAll emits => exact releaseWrites s emits
  | handle event emits =>
    cases event with
    | mouse m => exact ⟨rfl,emitted _ _ _ _⟩
    | control m =>
      cases m with
      | hello | setBitrate => exact ⟨rfl,rfl⟩
      | releaseAll => exact releaseWrites s emits
      | button b pressed => exact ⟨rfl,emitted _ _ _ _⟩
      | wheel horizontal vertical =>
        simp only [Writes,call,handle,wheel,written]
        split
        · next none' => simp [List.isEmpty_iff.mp none']
        · exact ⟨rfl,emitted _ _ _ _⟩
      | key code pressed =>
        simp only [Writes,call,handle,written]
        cases toEvdev code with
        | none => exact ⟨rfl,rfl⟩
        | some ev => exact ⟨emitted _ _ _ _,rfl⟩

theorem ownCall (own : Own s) (c : Call) : Own (s.call c).1 := by
  have changed {set : Held Evdev.KeyCode} {c : Evdev.Capabilities} {code : Evdev.KeyCode}
      (before : ∀ held ∈ set, held ∈ c.keys) (registered : code ∈ c.keys) (pressed : Bool) :
      ∀ held ∈ (if pressed then set.insert code else set.remove code), held ∈ c.keys := by
    intro held inside
    cases pressed with
    | true => exact (Held.memInsert.mp inside).elim (fun same => same ▸ registered) (before held)
    | false => exact before held (Held.memRemove.mp inside).2
  have released (emits : Emits) : Own (s.releaseAll emits).1 := by
    obtain ⟨keys,buttons⟩ := releaseAllSets s emits
    refine ⟨?_,?_⟩
    · rw [keys]
      exact fun _ held => absurd held Held.memEmpty
    · rw [buttons]
      exact fun _ held => absurd held Held.memEmpty
  cases c with
  | releaseAll emits => exact released emits
  | handle event emits =>
    cases event with
    | mouse m => exact ⟨own.keys,own.buttons⟩
    | control m =>
      cases m with
      | hello | setBitrate => exact own
      | releaseAll => exact released emits
      | button b pressed => exact ⟨own.keys,changed own.buttons (buttonRegistered b) pressed⟩
      | wheel horizontal vertical =>
        simp only [call,handle,wheel]
        split
        · exact own
        · exact ⟨own.keys,own.buttons⟩
      | key code pressed =>
        simp only [call,handle]
        cases called : toEvdev code with
        | none => exact own
        | some ev => exact ⟨changed own.keys (keyRegistered called) pressed,own.buttons⟩

def Registered.Follows (d : Registered) (s : UinputSink) : Prop :=
  d.keyboard = ⟨keyboardCapabilities,s.keyboard,[]⟩ ∧ d.pointer = ⟨pointerCapabilities,s.pointer,[]⟩

theorem followsCall {d : Registered} (follows : d.Follows s) (own : Own s) (c : Call) :
    (d.serve s c).Follows (s.call c).1 := by
  obtain ⟨keyboard,pointer⟩ := follows
  obtain ⟨typed,clicked⟩ := writtenCovered own c
  obtain ⟨keys,buttons⟩ := callWrites s c
  refine ⟨?_,?_⟩
  · rw [keys]
    exact (congrArg (RegisteredDevice.write · _) keyboard).trans (RegisteredDevice.writeCovered typed)
  · rw [buttons]
    exact (congrArg (RegisteredDevice.write · _) pointer).trans (RegisteredDevice.writeCovered clicked)

theorem followsAfter {d : Registered} (follows : d.Follows s) (own : Own s) (calls : List Call) :
    (d.after s calls).Follows (s.after calls) := by
  induction calls generalizing d s with
  | nil => exact follows
  | cons c calls ih => exact ih (followsCall follows own c) (ownCall own c)

theorem ownAfter (own : Own s) (calls : List Call) : Own (s.after calls) := by
  induction calls generalizing s with
  | nil => exact own
  | cons c calls ih => exact ih (ownCall own c)

end Calls

theorem ownFresh : Own fresh :=
  ⟨fun _ held => absurd held Held.memEmpty,fun _ held => absurd held Held.memEmpty⟩

theorem followsFresh : Registered.new.Follows fresh := ⟨rfl,rfl⟩

end UinputSink

namespace Server
open UinputSink Session

theorem inputAfter {s t : Server} {ls : List Label} (reached : Runs.run step s ls = some t) :
    t.input = s.input.after (Runs.observed step sinkCall s ls) := by
  induction ls generalizing s with
  | nil =>
    cases Option.some.inj reached
    rfl
  | cons l ls ih =>
    obtain ⟨n,first,rest⟩ := Option.bind_eq_some_iff.mp reached
    have here : n.input = s.served (sinkCall s l) := (stepSink first).1
    simp only [Runs.observed,first]
    rw [ih rest,here]
    cases sinkCall s l with
    | none => rfl
    | some c => rfl

def keyDown : List Label :=
  negotiate 0 ++ conclude 0 ++ connect 1 ++ openControl 1 ++ deliver 0 (.key .keyA true)

end Server
end Vmdesk
