import Vmdesk.Held
import Vmdesk.Keymap
import Vmdesk.Runs

/-! The uinput sink: a virtual keyboard, a virtual pointer and the sets of what the
sink believes to be held. One call emits at most one batch on each device; whether a
batch goes through is the outside world's choice, and a failed one changes nothing. -/
namespace Vmdesk

inductive InputEvent where
  | control (m : ControlMessage)
  | mouse (m : MouseMove)
  deriving DecidableEq, Repr

namespace Evdev

inductive RelativeAxisCode where | relWheel | relHwheel
  deriving DecidableEq, Repr

inductive AbsoluteAxisCode where | absX | absY
  deriving DecidableEq, Repr

inductive Event where
  | key (code : KeyCode) (pressed : Bool)
  | relative (axis : RelativeAxisCode) (value : Int)
  | absolute (axis : AbsoluteAxisCode) (value : Int)
  deriving DecidableEq, Repr

/- What the kernel keeps of a virtual device: keys and buttons that are down and
the last absolute position. Relative events leave no trace. -/
structure VirtualDevice where
  down : Held KeyCode
  x : Int
  y : Int
  deriving DecidableEq, Repr

namespace VirtualDevice

def fresh : VirtualDevice := ⟨.empty,0,0⟩

def apply (d : VirtualDevice) : Event → VirtualDevice
  | .key code true => {d with down := d.down.insert code}
  | .key code false => {d with down := d.down.remove code}
  | .relative _ _ => d
  | .absolute .absX value => {d with x := value}
  | .absolute .absY value => {d with y := value}

def emit (d : VirtualDevice) (events : List Event) (succeeds : Bool) (context : String) :
    VirtualDevice × Except String Unit :=
  if succeeds then (events.foldl apply d,.ok ()) else (d,.error context)

def releases (codes : Held KeyCode) : List Event := codes.items.map (fun code => .key code false)

theorem memReleased (codes : List KeyCode) (d : VirtualDevice) (code : KeyCode) :
    code ∈ ((codes.map (fun c => Event.key c false)).foldl apply d).down ↔
      code ∈ d.down ∧ code ∉ codes := by
  induction codes generalizing d with
  | nil => simp
  | cons c codes ih =>
    rw [List.map_cons,List.foldl_cons,ih]
    simp only [apply,Held.memRemove,List.mem_cons,not_or]
    tauto

end VirtualDevice
end Evdev

open Evdev (VirtualDevice)

structure UinputSink where
  keyboard : VirtualDevice
  pointer : VirtualDevice
  pressedKeys : Held Evdev.KeyCode
  pressedButtons : Held Evdev.KeyCode
  deriving DecidableEq, Repr

/- The outcome of the batch that one call emits on either device, if it emits one. -/
structure Emits where
  keyboard : Bool
  pointer : Bool
  deriving DecidableEq, Repr

def Emits.succeed : Emits := ⟨true,true⟩

namespace UinputSink

def fresh : UinputSink := ⟨.fresh,.fresh,.empty,.empty⟩

abbrev Outcome := UinputSink × Except String Unit

def emitKeyboard (s : UinputSink) (events : List Evdev.Event) (emits : Emits) (context : String) :
    Outcome :=
  let (keyboard,result) := s.keyboard.emit events emits.keyboard context
  ({s with keyboard := keyboard},result)

def emitPointer (s : UinputSink) (events : List Evdev.Event) (emits : Emits) (context : String) :
    Outcome :=
  let (pointer,result) := s.pointer.emit events emits.pointer context
  ({s with pointer := pointer},result)

-- The tracking set changes first, whatever becomes of the emit.
def key (s : UinputSink) (code : Evdev.KeyCode) (pressed : Bool) (emits : Emits) : Outcome :=
  let s := {s with pressedKeys :=
    if pressed then s.pressedKeys.insert code else s.pressedKeys.remove code}
  s.emitKeyboard [.key code pressed] emits "emitting key event"

def button (s : UinputSink) (code : Evdev.KeyCode) (pressed : Bool) (emits : Emits) : Outcome :=
  let s := {s with pressedButtons :=
    if pressed then s.pressedButtons.insert code else s.pressedButtons.remove code}
  s.emitPointer [.key code pressed] emits "emitting button event"

def wheelEvents (horizontal vertical : Int16) : List Evdev.Event :=
  (if vertical ≠ 0 then [.relative .relWheel vertical.toInt] else []) ++
    (if horizontal ≠ 0 then [.relative .relHwheel horizontal.toInt] else [])

def wheel (s : UinputSink) (horizontal vertical : Int16) (emits : Emits) : Outcome :=
  let events := wheelEvents horizontal vertical
  if events.isEmpty then (s,.ok ()) else s.emitPointer events emits "emitting wheel event"

def moveAbs (s : UinputSink) (m : MouseMove) (emits : Emits) : Outcome :=
  s.emitPointer [.absolute .absX m.x.toNat,.absolute .absY m.y.toNat] emits "emitting pointer move"

/- Both sets are drained before anything is emitted, and an error on the keyboard
ends the call before the pointer is reached. -/
def releaseAll (s : UinputSink) (emits : Emits) : Outcome :=
  let keys := s.pressedKeys
  let buttons := s.pressedButtons
  let s := {s with pressedKeys := .empty,pressedButtons := .empty}
  if keys.isEmpty && buttons.isEmpty then (s,.ok ()) else
    let (s,first) := if keys.isEmpty then (s,.ok ()) else
      s.emitKeyboard (VirtualDevice.releases keys) emits "releasing keys"
    match first with
    | .error e => (s,.error e)
    | .ok () => if buttons.isEmpty then (s,.ok ()) else
        s.emitPointer (VirtualDevice.releases buttons) emits "releasing buttons"

def handle (s : UinputSink) (event : InputEvent) (emits : Emits) : Outcome := match event with
  | .mouse m => s.moveAbs m emits
  | .control (.key code pressed) => match toEvdev code with
    | some ev => s.key ev pressed emits
    | none => (s,.ok ())
  | .control (.button b pressed) => s.button (buttonToEvdev b) pressed emits
  | .control (.wheel horizontal vertical) => s.wheel horizontal vertical emits
  | .control .releaseAll => s.releaseAll emits
  | .control (.hello _) | .control (.setBitrate _) => (s,.ok ())

inductive Call where
  | handle (event : InputEvent) (emits : Emits)
  | releaseAll (emits : Emits)
  deriving DecidableEq, Repr

def call (s : UinputSink) : Call → Outcome
  | .handle event emits => s.handle event emits
  | .releaseAll emits => s.releaseAll emits

def after (s : UinputSink) (calls : List Call) : UinputSink :=
  calls.foldl (fun s c => (s.call c).1) s

def step (s : UinputSink) (c : Call) : Option UinputSink := some (s.call c).1

theorem runAfter (s : UinputSink) (calls : List Call) :
    Runs.run step s calls = some (s.after calls) :=
  Runs.runTotal (fun s c => (call s c).1) s calls

def Tracks (set : Held Evdev.KeyCode) (d : VirtualDevice) : Prop := ∀ code ∈ d.down, code ∈ set

def NothingForgotten (s : UinputSink) : Prop :=
  Tracks s.pressedKeys s.keyboard ∧ Tracks s.pressedButtons s.pointer

def Up (d : VirtualDevice) : Prop := ∀ code, code ∉ d.down

def AllUp (s : UinputSink) : Prop := Up s.keyboard ∧ Up s.pointer

theorem tracksEmpty {d : VirtualDevice} : Tracks .empty d ↔ Up d := by
  simp [Tracks,Up]

theorem upOfTracks {set : Held Evdev.KeyCode} {d : VirtualDevice} (tracks : Tracks set d)
    (none : set.isEmpty = true) : Up d :=
  fun code down => Held.isEmptyExact.mp none code (tracks code down)

theorem changeExact {set : Held Evdev.KeyCode} {d : VirtualDevice} (tracks : Tracks set d)
    (code : Evdev.KeyCode) (pressed ok : Bool) (context : String) :
    Tracks (if pressed then set.insert code else set.remove code)
      (d.emit [.key code pressed] ok context).1 ↔ (pressed || ok) = true ∨ code ∉ d.down := by
  cases pressed with
  | true =>
    refine iff_of_true ?_ (Or.inl rfl)
    intro c down
    cases ok with
    | true =>
      rcases Held.memInsert.mp down with rfl | old
      · exact Held.memInsert.mpr (Or.inl rfl)
      · exact Held.memInsert.mpr (Or.inr (tracks c old))
    | false => exact Held.memInsert.mpr (Or.inr (tracks c down))
  | false =>
    cases ok with
    | true =>
      refine iff_of_true ?_ (Or.inl rfl)
      intro c down
      obtain ⟨other,old⟩ := Held.memRemove.mp down
      exact Held.memRemove.mpr ⟨other,tracks c old⟩
    | false =>
      apply Iff.intro
      · intro kept
        exact Or.inr (fun down => (Held.memRemove.mp (kept code down)).1 rfl)
      · intro harmless
        rcases harmless with bad | absent
        · contradiction
        · intro c down
          have other : c ≠ code := by
            intro same
            subst c
            exact absent down
          exact Held.memRemove.mpr ⟨other,tracks c down⟩

theorem drained {set : Held Evdev.KeyCode} {d : VirtualDevice} (tracks : Tracks set d)
    (context : String) : Up (d.emit (VirtualDevice.releases set) true context).1 := by
  intro code down
  have old := (VirtualDevice.memReleased set.items d code).mp down
  exact old.2 (tracks code old.1)

/- When a failing batch of this release would have released nothing that is down.
A failing keyboard batch also keeps the pointer's batch from being emitted. -/
def ReleaseHarmless (s : UinputSink) (emits : Emits) : Prop :=
  (emits.keyboard = false → s.pressedKeys.isEmpty = true ∨ AllUp s) ∧
  (emits.pointer = false → Up s.pointer)

/- No batch fails that had to release a key or button its device has down. -/
def Harmless (s : UinputSink) : Call → Prop
  | .handle (.control (.key code false)) emits =>
      ∀ ev, toEvdev code = some ev → emits.keyboard = true ∨ ev ∉ s.keyboard.down
  | .handle (.control (.button b false)) emits =>
      emits.pointer = true ∨ buttonToEvdev b ∉ s.pointer.down
  | .handle (.control .releaseAll) emits => ReleaseHarmless s emits
  | .releaseAll emits => ReleaseHarmless s emits
  | _ => True

theorem harmlessReleased {s : UinputSink} {emits : Emits} (keyboard : emits.keyboard = true)
    (pointer : emits.pointer = true) : s.Harmless (.releaseAll emits) := by
  refine ⟨fun failed => ?_,fun failed => ?_⟩
  · rw [keyboard] at failed; contradiction
  · rw [pointer] at failed; contradiction

theorem harmlessSent {s : UinputSink} {event : InputEvent} {emits : Emits}
    (keyboard : emits.keyboard = true) (pointer : emits.pointer = true) :
    s.Harmless (.handle event emits) := by
  unfold Harmless
  split
  · next => simp_all
  · next => simp_all
  · next => exact harmlessReleased (by simp_all) (by simp_all)
  · next => simp_all
  · trivial

theorem keyExact {s : UinputSink} (inv : NothingForgotten s) (code : Evdev.KeyCode)
    (pressed : Bool) (emits : Emits) : NothingForgotten (s.key code pressed emits).1 ↔
      (pressed || emits.keyboard) = true ∨ code ∉ s.keyboard.down :=
  (and_iff_left inv.2).trans (changeExact inv.1 code pressed emits.keyboard _)

theorem buttonExact {s : UinputSink} (inv : NothingForgotten s) (code : Evdev.KeyCode)
    (pressed : Bool) (emits : Emits) : NothingForgotten (s.button code pressed emits).1 ↔
      (pressed || emits.pointer) = true ∨ code ∉ s.pointer.down :=
  (and_iff_right inv.1).trans (changeExact inv.2 code pressed emits.pointer _)

theorem emitPointerKeeps {s : UinputSink} (inv : NothingForgotten s) {events : List Evdev.Event}
    (quiet : ∀ e ∈ events, ∀ d : VirtualDevice, (d.apply e).down = d.down)
    (emits : Emits) (context : String) : NothingForgotten (s.emitPointer events emits context).1 := by
  have same : ∀ d : VirtualDevice, (events.foldl VirtualDevice.apply d).down = d.down := by
    induction events with
    | nil => exact fun _ => rfl
    | cons e events ih =>
      intro d
      rw [List.foldl_cons,ih (fun e mem => quiet e (by simp [mem])),quiet e (by simp)]
  refine ⟨inv.1,fun code down => inv.2 code ?_⟩
  cases ok : emits.pointer with
  | true => simpa [emitPointer,VirtualDevice.emit,ok,same] using down
  | false => simpa [emitPointer,VirtualDevice.emit,ok] using down

theorem wheelKeeps {s : UinputSink} (inv : NothingForgotten s) (horizontal vertical : Int16)
    (emits : Emits) : NothingForgotten (s.wheel horizontal vertical emits).1 := by
  have quiet : ∀ e ∈ wheelEvents horizontal vertical, ∀ d : VirtualDevice, (d.apply e).down = d.down := by
    intro e mem d
    rcases List.mem_append.mp mem with mem | mem
    · split at mem
      · rw [List.mem_singleton.mp mem]; rfl
      · exact absurd mem List.not_mem_nil
    · split at mem
      · rw [List.mem_singleton.mp mem]; rfl
      · exact absurd mem List.not_mem_nil
  unfold wheel
  simp only []
  split
  · exact inv
  · exact emitPointerKeeps inv quiet emits _

theorem moveAbsKeeps {s : UinputSink} (inv : NothingForgotten s) (m : MouseMove) (emits : Emits) :
    NothingForgotten (s.moveAbs m emits).1 := by
  refine emitPointerKeeps inv ?_ emits _
  intro e mem d
  simp only [List.mem_cons,List.not_mem_nil,or_false] at mem
  rcases mem with rfl | rfl <;> rfl

theorem releaseAllCases (s : UinputSink) (emits : Emits) :
    (s.pressedKeys.isEmpty = true ∧ s.pressedButtons.isEmpty = true ∧
      s.releaseAll emits = (⟨s.keyboard,s.pointer,.empty,.empty⟩,.ok ())) ∨
    (s.pressedKeys.isEmpty = false ∧ emits.keyboard = false ∧
      s.releaseAll emits = (⟨s.keyboard,s.pointer,.empty,.empty⟩,.error "releasing keys")) ∨
    ∃ keyboard, (s.pressedKeys.isEmpty = true ∧ keyboard = s.keyboard ∨ emits.keyboard = true ∧
        keyboard = (s.keyboard.emit (VirtualDevice.releases s.pressedKeys) true "releasing keys").1) ∧
      (s.pressedButtons.isEmpty = true ∧
        s.releaseAll emits = (⟨keyboard,s.pointer,.empty,.empty⟩,.ok ()) ∨
      s.pressedButtons.isEmpty = false ∧ s.releaseAll emits =
        (⟨keyboard,(s.pointer.emit (VirtualDevice.releases s.pressedButtons) emits.pointer
          "releasing buttons").1,.empty,.empty⟩,(s.pointer.emit
          (VirtualDevice.releases s.pressedButtons) emits.pointer "releasing buttons").2)) := by
  cases keys : s.pressedKeys.isEmpty with
  | true =>
    cases buttons : s.pressedButtons.isEmpty with
    | true => exact Or.inl ⟨rfl,rfl,by simp [releaseAll,keys,buttons]⟩
    | false =>
      refine Or.inr (Or.inr ⟨s.keyboard,Or.inl ⟨rfl,rfl⟩,Or.inr ⟨rfl,?_⟩⟩)
      simp [releaseAll,keys,buttons,emitPointer]
  | false =>
    cases ok : emits.keyboard with
    | false =>
      exact Or.inr (Or.inl ⟨rfl,rfl,by simp [releaseAll,keys,emitKeyboard,VirtualDevice.emit,ok]⟩)
    | true =>
      refine Or.inr (Or.inr ⟨_,Or.inr ⟨rfl,rfl⟩,?_⟩)
      cases buttons : s.pressedButtons.isEmpty with
      | true =>
        refine Or.inl ⟨rfl,?_⟩
        simp [releaseAll,keys,buttons,emitKeyboard,VirtualDevice.emit,ok]
      | false =>
        refine Or.inr ⟨rfl,?_⟩
        simp [releaseAll,keys,buttons,emitKeyboard,emitPointer,VirtualDevice.emit,ok]

theorem emptyTracks {keyboard pointer : VirtualDevice} :
    NothingForgotten ⟨keyboard,pointer,.empty,.empty⟩ ↔ Up keyboard ∧ Up pointer :=
  and_congr tracksEmpty tracksEmpty

theorem keyboardUp {s : UinputSink} (inv : NothingForgotten s) {emits : Emits}
    {keyboard : VirtualDevice} (how : s.pressedKeys.isEmpty = true ∧ keyboard = s.keyboard ∨
      emits.keyboard = true ∧
        keyboard = (s.keyboard.emit (VirtualDevice.releases s.pressedKeys) true "releasing keys").1) :
    Up keyboard := by
  rcases how with ⟨none,rfl⟩ | ⟨_,rfl⟩
  · exact upOfTracks inv.1 none
  · exact drained inv.1 _

theorem releaseAllExact {s : UinputSink} (inv : NothingForgotten s) (emits : Emits) :
    NothingForgotten (s.releaseAll emits).1 ↔ ReleaseHarmless s emits := by
  rcases releaseAllCases s emits with ⟨keys,buttons,same⟩ | ⟨keys,failed,same⟩ |
      ⟨keyboard,how,rest⟩
  · rw [same,emptyTracks]
    exact iff_of_true ⟨upOfTracks inv.1 keys,upOfTracks inv.2 buttons⟩
      ⟨fun _ => Or.inl keys,fun _ => upOfTracks inv.2 buttons⟩
  · rw [same,emptyTracks]
    apply Iff.intro
    · exact fun up => ⟨fun _ => Or.inr up,fun _ => up.2⟩
    · intro harmless
      rcases harmless.1 failed with none | up
      · rw [keys] at none; contradiction
      · exact up
  · have reached : emits.keyboard = false → s.pressedKeys.isEmpty = true ∨ AllUp s := by
      intro failed
      rcases how with ⟨none,_⟩ | ⟨ok,_⟩
      · exact Or.inl none
      · rw [ok] at failed; contradiction
    have up := keyboardUp inv how
    rcases rest with ⟨buttons,same⟩ | ⟨buttons,same⟩
    · rw [same,emptyTracks]
      exact iff_of_true ⟨up,upOfTracks inv.2 buttons⟩ ⟨reached,fun _ => upOfTracks inv.2 buttons⟩
    · rw [same,emptyTracks]
      cases ok : emits.pointer with
      | true =>
        refine iff_of_true ⟨up,drained inv.2 _⟩ ⟨reached,fun failed => ?_⟩
        rw [ok] at failed; contradiction
      | false =>
        exact ⟨fun all => ⟨reached,fun _ => all.2⟩,fun harmless => ⟨up,harmless.2 ok⟩⟩

theorem releaseAllSets (s : UinputSink) (emits : Emits) :
    (s.releaseAll emits).1.pressedKeys = .empty ∧
      (s.releaseAll emits).1.pressedButtons = .empty := by
  rcases releaseAllCases s emits with ⟨_,_,same⟩ | ⟨_,_,same⟩ | ⟨_,_,⟨_,same⟩ | ⟨_,same⟩⟩
  all_goals
    rw [same]
    exact ⟨rfl,rfl⟩

theorem releaseAllUp {s : UinputSink} (inv : NothingForgotten s) {emits : Emits}
    (harmless : ReleaseHarmless s emits) : AllUp (s.releaseAll emits).1 := by
  have kept := (releaseAllExact inv emits).mpr harmless
  have sets := releaseAllSets s emits
  unfold NothingForgotten at kept
  rw [sets.1,sets.2] at kept
  exact ⟨tracksEmpty.mp kept.1,tracksEmpty.mp kept.2⟩

theorem releaseAllOk {s : UinputSink} (inv : NothingForgotten s) {emits : Emits}
    (ok : (s.releaseAll emits).2 = .ok ()) : AllUp (s.releaseAll emits).1 := by
  rcases releaseAllCases s emits with ⟨keys,buttons,same⟩ | ⟨_,_,same⟩ | ⟨keyboard,how,rest⟩
  · rw [same]
    exact ⟨upOfTracks inv.1 keys,upOfTracks inv.2 buttons⟩
  · rw [same] at ok; contradiction
  · have up := keyboardUp inv how
    rcases rest with ⟨buttons,same⟩ | ⟨_,same⟩
    · rw [same]
      exact ⟨up,upOfTracks inv.2 buttons⟩
    · cases sent : emits.pointer with
      | true => rw [same,sent]; exact ⟨up,drained inv.2 "releasing buttons"⟩
      | false => rw [same,sent] at ok; contradiction

theorem callExact {s : UinputSink} (inv : NothingForgotten s) (c : Call) :
    NothingForgotten (s.call c).1 ↔ Harmless s c := by
  cases c with
  | releaseAll emits => exact releaseAllExact inv emits
  | handle event emits =>
    cases event with
    | mouse m => exact iff_of_true (moveAbsKeeps inv m emits) trivial
    | control m =>
      cases m with
      | hello => exact iff_of_true inv trivial
      | setBitrate => exact iff_of_true inv trivial
      | wheel horizontal vertical => exact iff_of_true (wheelKeeps inv horizontal vertical emits) trivial
      | releaseAll => exact releaseAllExact inv emits
      | key code pressed =>
        simp only [call,handle]
        cases named : toEvdev code with
        | none => cases pressed <;> simp [Harmless,named,inv]
        | some ev =>
          have exact := keyExact inv ev pressed emits
          cases pressed <;> simpa [Harmless,named] using exact
      | button b pressed =>
        have exact := buttonExact inv (buttonToEvdev b) pressed emits
        cases pressed <;> simpa [Harmless,call,handle] using exact

theorem freshTracks : NothingForgotten fresh :=
  ⟨fun _ down => absurd down Held.memEmpty,fun _ down => absurd down Held.memEmpty⟩

theorem nothingForgottenRun {calls : List Call} (harmless : Runs.Allowed step Harmless fresh calls) :
    NothingForgotten (fresh.after calls) :=
  Runs.runInvariant NothingForgotten freshTracks
    (fun _ c _ inv permitted stepped => Option.some.inj stepped ▸ (callExact inv c).mpr permitted)
    harmless (runAfter fresh calls)

theorem nothingForgottenExact (calls : List Call) :
    (Runs.Always step NothingForgotten fresh calls ↔ Runs.Allowed step Harmless fresh calls) ∧
    (Runs.Allowed step Harmless fresh calls → ∀ emits,
      ((fresh.after calls).releaseAll emits).2 = .ok () →
        AllUp ((fresh.after calls).releaseAll emits).1) := by
  refine ⟨?_,fun harmless emits ok => releaseAllOk (nothingForgottenRun harmless) ok⟩
  refine Runs.alwaysExact (fun _ => True) trivial freshTracks (fun _ _ _ _ _ => trivial) ?_
    (runAfter fresh calls)
  intro s c t _ inv stepped
  rw [← Option.some.inj stepped]
  exact callExact inv c

/- A key goes down and its release cannot be written: from then on the sink knows
nothing to release, and `release_all` succeeds with the key still down. -/
theorem lostRelease :
    let calls := [Call.handle (.control (.key .keyA true)) .succeed,
      .handle (.control (.key .keyA false)) ⟨false,true⟩]
    ¬ NothingForgotten (fresh.after calls) ∧
    ((fresh.after calls).releaseAll .succeed).2 = .ok () ∧
    ¬ AllUp ((fresh.after calls).releaseAll .succeed).1 := by
  refine ⟨fun inv => ?_,rfl,fun up => ?_⟩
  · exact absurd (inv.1 .keyA (by decide)) (by decide)
  · exact up.1 .keyA (by decide)

end UinputSink
end Vmdesk
