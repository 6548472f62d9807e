import Vmdesk.EncoderInput
import Vmdesk.Runs

/-! Framebuffers of the kernel, the plane that shows one of them, and the frame source, which keeps
a framebuffer mapped from one capture to the next. The display server is free in what it does, and
the kernel in the ids it gives. -/
namespace Vmdesk
open LittleEndian (Bytes)
open Pipeline (Image)

namespace Drm

inductive DrmFourcc where
  | xrgb8888
  | argb8888
  | other (code bpp depth : UInt32)
  deriving DecidableEq, Repr

def DrmFourcc.bpp : DrmFourcc → UInt32
  | .other _ bpp _ => bpp
  | _ => 32

def DrmFourcc.depth : DrmFourcc → UInt32
  | .xrgb8888 => 24
  | .argb8888 => 32
  | .other _ _ depth => depth

/- How a buffer is read as a picture. It does not change as long as the framebuffer exists, and
the kernel takes no framebuffer without pixels and none whose rows overlap. -/
structure Framebuffer where
  buffer : Nat
  width : UInt32
  height : UInt32
  pitch : UInt32
  offset : UInt32
  format : DrmFourcc
  pixels : 0 < width.toNat ∧ 0 < height.toNat
  rows : width.toNat*(format.bpp.toNat/8) ≤ pitch.toNat
  deriving DecidableEq

/- The bytes of all buffers. A buffer is there as long as something refers to it. -/
def Memory := Nat → Nat → UInt8

def Memory.read (memory : Memory) (buffer start size : Nat) : Bytes :=
  (List.range size).map (fun i => memory buffer (start + i))

def Framebuffer.image (fb : Framebuffer) (memory : Memory) : Image where
  data := memory.read fb.buffer fb.offset.toNat (fb.pitch.toNat*fb.height.toNat)
  width := fb.width.toNat
  height := fb.height.toNat
  pitch := fb.pitch.toNat

structure Kernel where
  framebuffers : UInt32 → Option Framebuffer
  planes : UInt32 → Option UInt32
  memory : Memory
  shown : ∀ plane id, planes plane = some id → (framebuffers id).isSome = true

namespace Kernel

def scannedOut (k : Kernel) (plane : UInt32) : Option Framebuffer :=
  (k.planes plane).bind k.framebuffers

def addFramebuffer (k : Kernel) (id : UInt32) (fb : Framebuffer) : Kernel where
  framebuffers := Function.update k.framebuffers id (some fb)
  planes := k.planes
  memory := k.memory
  shown := by
    intro plane other on
    have before := k.shown plane other on
    rw [Function.update_apply]
    split
    · rfl
    · exact before

/- The planes that show the framebuffer are turned off. -/
def removeFramebuffer (k : Kernel) (id : UInt32) : Kernel where
  framebuffers := Function.update k.framebuffers id none
  planes := fun plane => if k.planes plane = some id then none else k.planes plane
  memory := k.memory
  shown := by
    intro plane other on
    split at on
    · contradiction
    · next still =>
      have different : other ≠ id := fun same => still (same ▸ on)
      rw [Function.update_of_ne different]
      exact k.shown plane other on

def turnOff (k : Kernel) (plane : UInt32) : Kernel where
  framebuffers := k.framebuffers
  planes := Function.update k.planes plane none
  memory := k.memory
  shown := by
    intro other id on
    rw [Function.update_apply] at on
    split at on
    · contradiction
    · exact k.shown other id on

def setPlane (k : Kernel) (plane id : UInt32) (there : (k.framebuffers id).isSome = true) : Kernel where
  framebuffers := k.framebuffers
  planes := Function.update k.planes plane (some id)
  memory := k.memory
  shown := by
    intro other id' on
    rw [Function.update_apply] at on
    split at on
    · cases Option.some.inj on
      exact there
    · exact k.shown other id' on

def draw (k : Kernel) (buffer place : Nat) (byte : UInt8) : Kernel :=
  {k with memory := fun b i => if b = buffer ∧ i = place then byte else k.memory b i}

end Kernel

structure Calls where
  getPlane : Bool
  getfb2 : Bool
  getfb : Bool
  handle : Bool
  prime : Bool
  mapDumb : Bool
  deriving DecidableEq, Repr

end Drm
open Drm

inductive CaptureError where
  | planeGone
  | noFramebuffer (connector : UInt32)
  | noInfo (fb : UInt32)
  | legacyFormat (bpp depth : UInt32)
  | pixelFormat (format : DrmFourcc)
  | noHandle (fb : UInt32)
  | notMapped
  deriving DecidableEq, Repr

/- `mmap` is the buffer whose memory the mapping shows, also when the framebuffer is gone. -/
structure Mapping where
  fb : UInt32
  width : UInt32
  height : UInt32
  pitch : UInt32
  offset : Nat
  format : DrmFourcc
  mmap : Nat
  rows : 4*width.toNat ≤ pitch.toNat
  deriving DecidableEq

structure CapturedFrame where
  data : Bytes
  width : Nat
  height : Nat
  pitch : Nat
  format : DrmFourcc
  remapped : Bool
  deriving DecidableEq, Repr

def CapturedFrame.image (frame : CapturedFrame) : Image :=
  ⟨frame.data,frame.width,frame.height,frame.pitch⟩

/- Format and offset. The legacy call tells no offset. -/
def framebufferInfo (calls : Calls) (id : UInt32) (fb : Framebuffer) :
    Except CaptureError (DrmFourcc × Nat) :=
  if calls.getfb2 then .ok (fb.format,fb.offset.toNat)
  else if !calls.getfb then .error (.noInfo id)
  else if fb.format.bpp = 32 ∧ fb.format.depth = 24 then .ok (.xrgb8888,0)
  else if fb.format.bpp = 32 ∧ fb.format.depth = 32 then .ok (.argb8888,0)
  else .error (.legacyFormat fb.format.bpp fb.format.depth)

theorem infoRows {calls : Calls} {id : UInt32} {fb : Framebuffer} {format : DrmFourcc} {offset : Nat}
    (info : framebufferInfo calls id fb = .ok (format,offset))
    (supported : format = .xrgb8888 ∨ format = .argb8888) : 4*fb.width.toNat ≤ fb.pitch.toNat := by
  have four : fb.format.bpp = 32 := by
    unfold framebufferInfo at info
    split at info
    · cases info
      rcases supported with same | same
      · rw [same]
        rfl
      · rw [same]
        rfl
    · split at info
      · contradiction
      · split at info
        · next legacy => exact legacy.1
        · split at info
          · next legacy => exact legacy.1
          · contradiction
  have rows := fb.rows
  rw [four] at rows
  change fb.width.toNat*4 ≤ fb.pitch.toNat at rows
  omega

def mapFramebuffer (k : Kernel) (calls : Calls) (id : UInt32) : Except CaptureError Mapping :=
  match k.framebuffers id with
  | none => .error (.noInfo id)
  | some fb =>
    match info : framebufferInfo calls id fb with
    | .error e => .error e
    | .ok (format,offset) =>
      if supported : format = .xrgb8888 ∨ format = .argb8888 then
        if !calls.handle then .error (.noHandle id)
        else if calls.prime || calls.mapDumb then .ok {
          fb := id
          width := fb.width
          height := fb.height
          pitch := fb.pitch
          offset := offset
          format := format
          mmap := fb.buffer
          rows := infoRows info supported}
        else .error .notMapped
      else .error (.pixelFormat format)

/- `&m.mmap[m.offset..m.offset + len]` with the sizes of the mapping -/
def Mapping.frame (m : Mapping) (memory : Memory) (remapped : Bool) : CapturedFrame where
  data := memory.read m.mmap m.offset (m.pitch.toNat*m.height.toNat)
  width := m.width.toNat
  height := m.height.toNat
  pitch := m.pitch.toNat
  format := m.format
  remapped := remapped

structure DisplayInfo where
  connector : UInt32
  plane : UInt32
  deriving DecidableEq, Repr

structure FrameSource where
  display : DisplayInfo
  mapping : Option Mapping
  deriving DecidableEq

namespace FrameSource

def new (display : DisplayInfo) : FrameSource := ⟨display,none⟩

/- The framebuffer is mapped again only when its id is another than that of the mapping. A
mapping that cannot be replaced stays. -/
def capture (s : FrameSource) (k : Kernel) (calls : Calls) :
    Except CaptureError CapturedFrame × FrameSource :=
  if !calls.getPlane then (.error .planeGone,s)
  else match k.planes s.display.plane with
    | none => (.error (.noFramebuffer s.display.connector),{s with mapping := none})
    | some fb =>
      let mapped : Except CaptureError (Mapping × Bool) := match s.mapping.filter (fun m => m.fb == fb) with
        | some m => .ok (m,false)
        | none => (mapFramebuffer k calls fb).map (fun m => (m,true))
      match mapped with
      | .error e => (.error e,s)
      | .ok (m,remapped) => (.ok (m.frame k.memory remapped),{s with mapping := some m})

end FrameSource

structure Desktop where
  kernel : Kernel
  source : FrameSource

namespace Desktop

/- An id is free as soon as its framebuffer is removed. The source is replaced when the capture
thread has lost its display. -/
inductive Event where
  | add (id : UInt32) (fb : Framebuffer)
  | remove (id : UInt32)
  | turnOff (plane : UInt32)
  | setPlane (plane id : UInt32)
  | draw (buffer place : Nat) (byte : UInt8)
  | capture (calls : Calls)
  | reopen (display : DisplayInfo)

def step (d : Desktop) : Event → Option Desktop
  | .add id fb => if d.kernel.framebuffers id = none then
      some {d with kernel := d.kernel.addFramebuffer id fb} else none
  | .remove id => some {d with kernel := d.kernel.removeFramebuffer id}
  | .turnOff plane => some {d with kernel := d.kernel.turnOff plane}
  | .setPlane plane id => if there : (d.kernel.framebuffers id).isSome = true then
      some {d with kernel := d.kernel.setPlane plane id there} else none
  | .draw buffer place byte => some {d with kernel := d.kernel.draw buffer place byte}
  | .capture calls => some {d with source := (d.source.capture d.kernel calls).2}
  | .reopen display => some {d with source := .new display}

end Desktop
end Vmdesk
