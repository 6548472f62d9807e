import Vmdesk.FrameSource

/-! Which card and which plane the frames are taken from. What the kernel answers to the calls is
part of the world; it may be something else at the next attempt. -/
namespace Vmdesk

namespace Drm

structure ConnectorInfo where
  interface : Text
  interfaceId : UInt32
  currentEncoder : Option UInt32
  deriving DecidableEq, Repr

structure Mode where
  width : UInt16
  height : UInt16
  vrefresh : UInt32
  deriving DecidableEq, Repr

structure CrtcInfo where
  mode : Option Mode
  framebuffer : Option UInt32
  deriving DecidableEq, Repr

structure PlaneInfo where
  crtc : Option UInt32
  framebuffer : Option UInt32
  deriving DecidableEq, Repr

/- Only of an enumeration it is told what a value stands for. -/
structure PropertyInfo where
  name : Text
  values : Option (UInt64 → Option Text)

/- An opened card. Each call answers or says why it cannot. -/
structure Device where
  driver : Except Text Text
  universalPlanes : Except Text Unit
  connectors : Except Text (List UInt32)
  connector : UInt32 → Except Text ConnectorInfo
  encoder : UInt32 → Except Text (Option UInt32)
  crtc : UInt32 → Except Text CrtcInfo
  planes : Except Text (List UInt32)
  plane : UInt32 → Except Text PlaneInfo
  properties : UInt32 → Except Text (List (UInt32 × UInt64))
  property : UInt32 → Except Text PropertyInfo

/- The names in `/dev/dri`, as far as they can be read, and what opening a path comes to. -/
structure Devices where
  names : Option (List (Option Text))
  opens : Text → Except Text Device

end Drm
open Drm

structure Card where
  path : Text
  device : Device

def Card.open (devices : Devices) (path : Text) : Except Text Card :=
  (devices.opens path).map (fun device => ⟨path,device⟩)

def Card.driverName (card : Card) : Except Text Text := card.device.driver

/- `"<interface>-<index>"` -/
def connectorName (info : ConnectorInfo) : Text :=
  info.interface ++ '-'::Nat.toDigits 10 info.interfaceId.toNat

/- Connectors that do not answer are left out. -/
def Card.connectorNames (card : Card) : Except Text (List Text) :=
  card.device.connectors.map (fun handles =>
    handles.filterMap (fun handle => (card.device.connector handle).toOption.map connectorName))

/- Paths in one directory are sorted by their characters. -/
def sortsBefore (a b : Text) : Bool := !List.lex b a (fun x y => x.toNat < y.toNat)

/- All `/dev/dri/card*` nodes, sorted. -/
def cardPaths (devices : Devices) : List Text :=
  devices.names.elim [] (fun names =>
    (((names.filterMap id).filter (fun n => "card".toList.isPrefixOf n)).map
      (fun n => "/dev/dri/".toList ++ n)).mergeSort sortsBefore)

inductive Seen where
  | notOpened (path cause : Text)
  | card (path driver : Text) (connectors : List Text)
  deriving DecidableEq, Repr

inductive CardError where
  | notOpened (path cause : Text)
  | noNodes
  | notFound (connector : Text) (seen : List Seen)
  deriving DecidableEq, Repr

namespace FindCard

def driver (card : Card) : Text := card.driverName.toOption.getD "?".toList

def connectors (card : Card) : List Text := card.connectorNames.toOption.getD []

def scan (devices : Devices) (connector : Text) (seen : List Seen) (byConnector : Option Card) :
    List Text → Except CardError Card
  | [] => match byConnector with
      | some card => .ok card
      | none => .error (.notFound connector seen)
  | path::paths => match Card.open devices path with
      | .error e => scan devices connector (seen ++ [.notOpened path e]) byConnector paths
      | .ok card =>
          let seen := seen ++ [.card path (driver card) (connectors card)]
          if driver card = "vkms".toList then .ok card
          else if byConnector.isNone && (connectors card).any (fun c => c == connector)
          then scan devices connector seen (some card) paths
          else scan devices connector seen byConnector paths

end FindCard

/- The vkms card: `configured` if set, else the card whose driver is `vkms`, else any card with the
connector. -/
def findCard (devices : Devices) (configured connector : Text) : Except CardError Card :=
  if !configured.isEmpty then match Card.open devices configured with
    | .ok card => .ok card
    | .error e => .error (.notOpened configured e)
  else
    let paths := cardPaths devices
    if paths.isEmpty then .error .noNodes
    else FindCard.scan devices connector [] none paths

structure ActiveDisplay extends DisplayInfo where
  crtc : UInt32
  width : UInt32
  height : UInt32
  refresh : UInt32
  deriving DecidableEq, Repr

/- Why the display cannot be captured right now. The last two are calls that have failed. -/
inductive DisplayState where
  | noConnector (wanted path : Text) (names : List Text)
  | inactive (name : Text)
  | noFramebuffer (name : Text)
  | noPlane (name : Text)
  | call (context : String) (cause : Text)
  | callOn (context : String) (handle : UInt32) (cause : Text)
  deriving DecidableEq, Repr

namespace LocateDisplay

def asked {α : Type} (context : String) : Except Text α → Except DisplayState α
  | .ok a => .ok a
  | .error e => .error (.call context e)

def askedOf {α : Type} (context : String) (handle : UInt32) : Except Text α → Except DisplayState α
  | .ok a => .ok a
  | .error e => .error (.callOn context handle e)

def orElse {α : Type} (e : DisplayState) : Option α → Except DisplayState α
  | some a => .ok a
  | none => .error e

/- All connectors are looked at; of several with the name the last one counts. -/
def connectors (device : Device) (wanted : Text) (names : List Text)
    (found : Option (UInt32 × ConnectorInfo)) :
    List UInt32 → Except DisplayState (List Text × Option (UInt32 × ConnectorInfo))
  | [] => .ok (names,found)
  | handle::handles => do
      let info ← askedOf "GETCONNECTOR" handle (device.connector handle)
      connectors device wanted (names ++ [connectorName info])
        (if connectorName info = wanted then some (handle,info) else found) handles

def typeAmong (device : Device) : List (UInt32 × UInt64) → Except Text (Option Text)
  | [] => .ok none
  | (prop,raw)::props => do
      let info ← device.property prop
      if info.name ≠ "type".toList then typeAmong device props
      else match info.values with
        | some value => .ok (value raw)
        | none => .ok none

def planeType (device : Device) (plane : UInt32) : Except Text (Option Text) := do
  typeAmong device (← device.properties plane)

def planes (device : Device) (crtc : UInt32) (fallback : Option UInt32) : List UInt32 → Option UInt32
  | [] => fallback
  | handle::handles => match device.plane handle with
      | .error _ => planes device crtc fallback handles
      | .ok info =>
          if info.crtc ≠ some crtc then planes device crtc fallback handles
          else match planeType device handle with
            | .ok (some t) =>
                if t = "Primary".toList then some handle
                else planes device crtc (if info.framebuffer.isSome && fallback.isNone
                  then some handle else fallback) handles
            | .ok none | .error _ => planes device crtc (if info.framebuffer.isSome && fallback.isNone
                then some handle else fallback) handles

end LocateDisplay

open LocateDisplay in
def locateDisplay (card : Card) (wanted : Text) : Except DisplayState ActiveDisplay := do
  let device := card.device
  asked "enabling universal planes" device.universalPlanes
  let handles ← asked "DRM_IOCTL_MODE_GETRESOURCES" device.connectors
  let (names,found) ← connectors device wanted [] none handles
  let conn ← orElse (.noConnector wanted card.path names) found
  let encoder ← orElse (.inactive wanted) conn.2.currentEncoder
  let attached ← askedOf "GETENCODER" encoder (device.encoder encoder)
  let crtc ← orElse (.inactive wanted) attached
  let crtcInfo ← askedOf "GETCRTC" crtc (device.crtc crtc)
  let mode ← orElse (.inactive wanted) crtcInfo.mode
  let _ ← orElse (.noFramebuffer wanted) crtcInfo.framebuffer
  let handles ← asked "GETPLANERESOURCES" device.planes
  let plane ← orElse (.noPlane wanted) (planes device crtc none handles)
  .ok ⟨⟨conn.1,plane⟩,crtc,mode.width.toUInt32,mode.height.toUInt32,mode.vrefresh⟩

namespace FindCard

def isVkms (card : Card) : Bool := driver card == "vkms".toList

def hasConnector (connector : Text) (card : Card) : Bool :=
  (connectors card).any (fun c => c == connector)

def opened (devices : Devices) (paths : List Text) : List Card :=
  paths.filterMap (fun path => (Card.open devices path).toOption)

/- A card with the driver, else one with the connector; the first in either case. -/
def chosen (connector : Text) (cards : List Card) : Option Card :=
  (cards.find? isVkms).or (cards.find? (hasConnector connector))

section
variable {devices : Devices} {connector : Text} {card : Card}

theorem scanExact (seen : List Seen) (byConnector : Option Card) (paths : List Text) :
    scan devices connector seen byConnector paths = .ok card ↔
      ((opened devices paths).find? isVkms).or
        (byConnector.or ((opened devices paths).find? (hasConnector connector))) = some card := by
  induction paths generalizing seen byConnector with
  | nil => cases byConnector <;> simp [scan,opened]
  | cons path paths ih =>
    unfold scan
    cases opens : Card.open devices path with
    | error e =>
      have skipped : opened devices (path::paths) = opened devices paths := by
        simp [opened,opens,Except.toOption]
      rw [skipped]
      exact ih _ _
    | ok first =>
      have taken : opened devices (path::paths) = first::opened devices paths := by
        simp [opened,opens,Except.toOption]
      rw [taken]
      simp only
      split
      · next vkms => simp [isVkms,vkms]
      · next other =>
        have passed : isVkms first = false := by simpa [isVkms] using other
        rw [List.find?_cons_of_neg (by simp [passed])]
        cases byConnector with
        | some kept => simpa using ih _ (some kept)
        | none =>
          cases has : hasConnector connector first with
          | true =>
            have found : ((connectors first).any (fun c => c == connector)) = true := has
            rw [List.find?_cons_of_pos has,Option.isNone_none,Bool.true_and,if_pos found]
            exact ih _ (some first)
          | false =>
            have missed : ¬ ((connectors first).any (fun c => c == connector)) = true := by
              rw [Bool.not_eq_true]
              exact has
            rw [List.find?_cons_of_neg (by simp [has]),Option.isNone_none,Bool.true_and,if_neg missed]
            exact ih _ none

end
end FindCard

open FindCard in
theorem findCardExact {devices : Devices} {configured connector : Text} {card : Card} :
    findCard devices configured connector = .ok card ↔
      configured ≠ [] ∧ Card.open devices configured = .ok card ∨
      configured = [] ∧ chosen connector (opened devices (cardPaths devices)) = some card := by
  unfold findCard
  cases configured with
  | cons c rest =>
    cases Card.open devices (c::rest) <;> simp
  | nil =>
    simp only [List.isEmpty_nil,Bool.not_true,Bool.false_eq_true,if_false,ne_eq,not_true_eq_false,
      false_and,true_and,false_or]
    split
    · next none' =>
      rw [List.isEmpty_iff.mp none']
      simp [opened,chosen]
    · rw [scanExact]
      simp [chosen]

namespace LocateDisplay

section
variable {device : Device} {crtc : UInt32} {wanted : Text}

def attached (device : Device) (crtc handle : UInt32) : Option PlaneInfo :=
  (device.plane handle).toOption.filter (fun info => info.crtc == some crtc)

def primary (device : Device) (crtc handle : UInt32) : Bool :=
  (attached device crtc handle).isSome &&
    (planeType device handle).toOption == some (some "Primary".toList)

def showing (device : Device) (crtc handle : UInt32) : Bool :=
  (attached device crtc handle).any (fun info => info.framebuffer.isSome)

theorem planesExact (fallback : Option UInt32) (handles : List UInt32) :
    planes device crtc fallback handles = (handles.find? (primary device crtc)).or
      (fallback.or (handles.find? (showing device crtc))) := by
  induction handles generalizing fallback with
  | nil => cases fallback <;> rfl
  | cons handle handles ih =>
    have passed (other : primary device crtc handle = false) :
        (handle::handles).find? (primary device crtc) = handles.find? (primary device crtc) :=
      List.find?_cons_of_neg (by simp [other])
    have dark (none' : showing device crtc handle = false) :
        (handle::handles).find? (showing device crtc) = handles.find? (showing device crtc) :=
      List.find?_cons_of_neg (by simp [none'])
    have aside (other : primary device crtc handle = false) (shows : Bool)
        (same : showing device crtc handle = shows) :
        planes device crtc (if shows && fallback.isNone then some handle else fallback) handles =
          ((handle::handles).find? (primary device crtc)).or
            (fallback.or ((handle::handles).find? (showing device crtc))) := by
      rw [ih,passed other]
      cases shows with
      | false => rw [dark same,Bool.false_and,if_neg (by simp)]
      | true =>
        rw [List.find?_cons_of_pos same]
        cases fallback <;> simp
    unfold planes
    cases asked : device.plane handle with
    | error e =>
      have absent : attached device crtc handle = none := by
        simp [attached,asked,Except.toOption]
      exact aside (by simp [primary,absent]) false (by simp [showing,absent])
    | ok info =>
      simp only
      split
      · next other =>
        have absent : attached device crtc handle = none := by
          simp [attached,asked,Except.toOption,other]
        exact aside (by simp [primary,absent]) false (by simp [showing,absent])
      · next own =>
        have present : attached device crtc handle = some info := by
          simp only [ne_eq,not_not] at own
          simp [attached,asked,Except.toOption,own]
        have shows : showing device crtc handle = info.framebuffer.isSome := by
          simp [showing,present]
        split
        · next t type =>
          split
          · next same =>
            have first : primary device crtc handle = true := by
              simp [primary,present,type,Except.toOption,same]
            rw [List.find?_cons_of_pos first]
            rfl
          · next different =>
            exact aside (by simpa [primary,present,type,Except.toOption] using different) _ shows
        · next type => exact aside (by simp [primary,present,type,Except.toOption]) _ shows
        · next e type => exact aside (by simp [primary,present,type,Except.toOption]) _ shows

def answer (device : Device) (handle : UInt32) : Option (UInt32 × ConnectorInfo) :=
  (device.connector handle).toOption.map (fun info => (handle,info))

def named (wanted : Text) (conn : UInt32 × ConnectorInfo) : Bool := connectorName conn.2 == wanted

theorem connectorsExact {names : List Text} {found conn : Option (UInt32 × ConnectorInfo)}
    {handles : List UInt32} {all : List Text}
    (looked : connectors device wanted names found handles = .ok (all,conn)) :
    (∀ handle ∈ handles, (answer device handle).isSome = true) ∧
    conn = (((handles.filterMap (answer device)).filter (named wanted)).getLast?).or found := by
  induction handles generalizing names found with
  | nil =>
    simp only [connectors,Except.ok.injEq,Prod.mk.injEq] at looked
    exact ⟨by simp,looked.2.symm⟩
  | cons handle handles ih =>
    cases asked : device.connector handle with
    | error e =>
      rw [connectors,asked] at looked
      cases looked
    | ok info =>
      rw [connectors,asked] at looked
      have answered : answer device handle = some (handle,info) := by
        simp [answer,asked,Except.toOption]
      obtain ⟨rest,last⟩ := ih looked
      refine ⟨fun other inside => ?_,?_⟩
      · rcases List.mem_cons.mp inside with same|later
        · rw [same,answered]
          rfl
        · exact rest other later
      · rw [last,List.filterMap_cons_some answered]
        by_cases same : connectorName info = wanted
        · rw [if_pos same,List.filter_cons_of_pos (by simp [named,same]),List.getLast?_cons]
          cases ((handles.filterMap (answer device)).filter (named wanted)).getLast? <;> rfl
        · rw [if_neg same,List.filter_cons_of_neg (by simp [named,same])]

theorem connectorsAnswer (names : List Text) (found : Option (UInt32 × ConnectorInfo))
    {handles : List UInt32} (answered : ∀ handle ∈ handles, (answer device handle).isSome = true) :
    ∃ all conn, connectors device wanted names found handles = .ok (all,conn) := by
  induction handles generalizing names found with
  | nil => exact ⟨names,found,rfl⟩
  | cons handle handles ih =>
    cases asked : device.connector handle with
    | error e =>
      have here := answered handle (by simp)
      simp [answer,asked,Except.toOption] at here
    | ok info =>
      rw [connectors,asked]
      exact ih _ _ (fun other inside => answered other (by simp [inside]))

end
end LocateDisplay

open LocateDisplay in
/- The connector is the last one of that name, it drives a CRTC with a mode and a framebuffer, and
the plane is the first primary plane of that CRTC, or else the first one of it that shows
something. -/
structure Located (device : Device) (wanted : Text) (display : ActiveDisplay) : Prop where
  connector : ∃ handles info encoder, device.connectors = .ok handles ∧
    (∀ handle ∈ handles, (answer device handle).isSome = true) ∧
    ((handles.filterMap (answer device)).filter (named wanted)).getLast? =
      some (display.connector,info) ∧
    info.currentEncoder = some encoder ∧ device.encoder encoder = .ok (some display.crtc)
  crtc : ∃ mode fb, device.crtc display.crtc = .ok ⟨some mode,some fb⟩ ∧
    display.width = mode.width.toUInt32 ∧ display.height = mode.height.toUInt32 ∧
    display.refresh = mode.vrefresh
  plane : ∃ handles, device.planes = .ok handles ∧
    (handles.find? (primary device display.crtc)).or (handles.find? (showing device display.crtc)) =
      some display.plane

section
open LocateDisplay
variable {card : Card} {wanted : Text} {display : ActiveDisplay}

theorem bindOk {ε α β : Type} {x : Except ε α} {f : α → Except ε β} {b : β} :
    x >>= f = .ok b ↔ ∃ a, x = .ok a ∧ f a = .ok b := by
  cases x with
  | error e => exact ⟨fun made => (by cases made),fun ⟨_,made,_⟩ => (by cases made)⟩
  | ok a => exact ⟨fun made => ⟨a,rfl,made⟩,fun ⟨_,same,made⟩ => Except.ok.inj same ▸ made⟩

theorem askedOk {α : Type} {context : String} {x : Except Text α} {a : α} :
    asked context x = .ok a ↔ x = .ok a := by
  cases x <;> simp [asked]

theorem askedOfOk {α : Type} {context : String} {handle : UInt32} {x : Except Text α} {a : α} :
    askedOf context handle x = .ok a ↔ x = .ok a := by
  cases x <;> simp [askedOf]

theorem orElseOk {α : Type} {e : DisplayState} {x : Option α} {a : α} :
    orElse e x = .ok a ↔ x = some a := by
  cases x <;> simp [orElse]

theorem locateDisplayExact : locateDisplay card wanted = .ok display ↔
    card.device.universalPlanes = .ok () ∧ Located card.device wanted display := by
  unfold locateDisplay
  simp only [bindOk,askedOk,askedOfOk,orElseOk,planesExact,Option.none_or]
  apply Iff.intro
  · intro ⟨_,enabled,handles,listed,⟨names,found⟩,looked,conn,there,encoder,driven,attached,attaches,
      crtc,active,crtcInfo,crtcs,mode,set,fb,scanned,planeHandles,planes,plane,chosen,same⟩
    cases Except.ok.inj same
    obtain ⟨answered,last⟩ := connectorsExact looked
    have last := last.symm.trans there
    rw [Option.or_none] at last
    refine ⟨enabled,⟨handles,conn.2,encoder,listed,answered,last,driven,?_⟩,?_,
      ⟨planeHandles,planes,chosen⟩⟩
    · rw [attaches,active]
    · exact ⟨mode,fb,by rw [crtcs,← set,← scanned],rfl,rfl,rfl⟩
  · intro ⟨enabled,⟨handles,info,encoder,listed,answered,last,driven,attaches⟩,
      ⟨mode,fb,crtcs,width,height,refresh⟩,⟨planeHandles,planes,chosen⟩⟩
    obtain ⟨names,found,looked⟩ := connectorsAnswer [] none answered
    have there := (connectorsExact looked).2
    rw [Option.or_none,last] at there
    refine ⟨(),enabled,handles,listed,(names,found),looked,_,there,encoder,driven,_,attaches,_,rfl,
      _,crtcs,mode,rfl,fb,rfl,planeHandles,planes,_,chosen,?_⟩
    rw [← width,← height,← refresh]

end
end Vmdesk
