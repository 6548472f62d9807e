import Vmdesk.FrameSource

/-! The frame source beside reading the framebuffer on the plane directly. A mapping stands for
the framebuffer it was made from, and the source knows a framebuffer by its id only. -/
namespace Vmdesk
open Drm
open Pipeline (Image)

structure Mapping.Describes (m : Mapping) (fb : Framebuffer) : Prop where
  buffer : m.mmap = fb.buffer
  width : m.width = fb.width
  height : m.height = fb.height
  pitch : m.pitch = fb.pitch
  offset : m.offset = fb.offset.toNat

section Mapped
variable {k : Kernel} {calls : Calls} {id : UInt32} {m : Mapping} {fb : Framebuffer}

theorem describedImage (same : m.Describes fb) (memory : Memory) (remapped : Bool) :
    (m.frame memory remapped).image = fb.image memory := by
  obtain ⟨buffer,width,height,pitch,offset⟩ := same
  simp only [Mapping.frame,CapturedFrame.image,Framebuffer.image,buffer,width,height,pitch,offset]

theorem infoOffset {format : DrmFourcc} {offset : Nat}
    (info : framebufferInfo calls id fb = .ok (format,offset))
    (known : calls.getfb2 = true ∨ fb.offset = 0) : offset = fb.offset.toNat := by
  unfold framebufferInfo at info
  split at info
  · cases info
    rfl
  · next legacy =>
    have zero := known.resolve_left legacy
    have start : ∀ {format' : DrmFourcc},
        (Except.ok (format',0) : Except CaptureError _) = .ok (format,offset) →
          offset = fb.offset.toNat := by
      intro _ same
      cases same
      rw [zero]
      rfl
    split at info
    · contradiction
    · split at info
      · exact start info
      · split at info
        · exact start info
        · contradiction

theorem mappedDescribes (there : k.framebuffers id = some fb)
    (mapped : mapFramebuffer k calls id = .ok m) (known : calls.getfb2 = true ∨ fb.offset = 0) :
    m.fb = id ∧ m.Describes fb := by
  unfold mapFramebuffer at mapped
  simp only [there] at mapped
  split at mapped
  · contradiction
  · next info =>
    have offset := infoOffset info known
    split at mapped
    · split at mapped
      · contradiction
      · split at mapped
        · cases mapped
          exact ⟨rfl,⟨rfl,rfl,rfl,rfl,offset⟩⟩
        · contradiction
    · contradiction

end Mapped

namespace FrameSource

def cached (s : FrameSource) (id : UInt32) : Option Mapping := s.mapping.filter (fun m => m.fb == id)

inductive Captures (s : FrameSource) (k : Kernel) (calls : Calls) :
    Except CaptureError CapturedFrame × FrameSource → Prop where
  | gone (answers : calls.getPlane = false) : Captures s k calls (.error .planeGone,s)
  | dark (answers : calls.getPlane = true) (off : k.planes s.display.plane = none) :
      Captures s k calls (.error (.noFramebuffer s.display.connector),{s with mapping := none})
  | kept (id m) (answers : calls.getPlane = true) (on : k.planes s.display.plane = some id)
      (found : s.cached id = some m) :
      Captures s k calls (.ok (m.frame k.memory false),{s with mapping := some m})
  | mapped (id m) (answers : calls.getPlane = true) (on : k.planes s.display.plane = some id)
      (missing : s.cached id = none) (mapped : mapFramebuffer k calls id = .ok m) :
      Captures s k calls (.ok (m.frame k.memory true),{s with mapping := some m})
  | unmapped (id e) (answers : calls.getPlane = true) (on : k.planes s.display.plane = some id)
      (missing : s.cached id = none) (failed : mapFramebuffer k calls id = .error e) :
      Captures s k calls (.error e,s)

theorem captures (s : FrameSource) (k : Kernel) (calls : Calls) :
    Captures s k calls (s.capture k calls) := by
  unfold capture
  cases answers : calls.getPlane with
  | false => exact .gone answers
  | true =>
    cases on : k.planes s.display.plane with
    | none => exact .dark answers on
    | some id =>
      cases found : s.cached id with
      | some m =>
        unfold cached at found
        simp only [found]
        exact .kept id m answers on found
      | none =>
        cases mapped : mapFramebuffer k calls id with
        | error e =>
          have outcome := Captures.unmapped id e answers on found mapped
          unfold cached at found
          simpa [found,mapped,Except.map] using outcome
        | ok m =>
          have outcome := Captures.mapped id m answers on found mapped
          unfold cached at found
          simpa [found,mapped,Except.map] using outcome

theorem captureCached {s : FrameSource} {k : Kernel} {calls : Calls} {id : UInt32} {m : Mapping}
    (answers : calls.getPlane = true) (on : k.planes s.display.plane = some id)
    (found : s.cached id = some m) :
    s.capture k calls = (.ok (m.frame k.memory false),{s with mapping := some m}) := by
  unfold cached at found
  simp [capture,answers,on,found]

end FrameSource

/- A mapping that shows what a framebuffer shows, whatever the buffers hold, is one of it. -/
theorem describesExact {m : Mapping} {fb : Framebuffer} {remapped : Bool} :
    (∀ memory, (m.frame memory remapped).image = fb.image memory) ↔ m.Describes fb := by
  constructor
  · intro same
    have size (memory : Memory) := Image.mk.inj (same memory)
    have width := UInt32.toNat_inj.mp (size (fun _ _ => 0)).2.1
    have height := UInt32.toNat_inj.mp (size (fun _ _ => 0)).2.2.1
    have pitch := UInt32.toNat_inj.mp (size (fun _ _ => 0)).2.2.2
    have positive : 0 < m.pitch.toNat*m.height.toNat := by
      have rows := m.rows
      have pixels := fb.pixels
      rw [← width,← height] at pixels
      exact Nat.mul_pos (by omega) pixels.2
    -- One byte of all the memory tells the two starts from each other.
    have data := (size (fun b i => if b = m.mmap ∧ i = m.offset then 1 else 0)).1
    have first := congrArg List.head? data
    rw [← pitch,← height] at first
    simp only [Mapping.frame,Memory.read,List.head?_map,List.head?_range,Nat.ne_of_gt positive,
      if_false,Option.map_some,Nat.add_zero,and_self,if_true] at first
    have start : fb.buffer = m.mmap ∧ fb.offset.toNat = m.offset := by
      by_contra apart
      rw [if_neg apart] at first
      contradiction
    exact ⟨start.1.symm,width,height,pitch,start.2.symm⟩
  · intro same memory
    exact describedImage same memory remapped

namespace Desktop

/- A captured frame is what the plane shows at that moment. -/
def Direct (d : Desktop) : Event → Prop
  | .capture calls => ∀ frame, (d.source.capture d.kernel calls).1 = .ok frame →
      ∃ fb, d.kernel.scannedOut d.source.display.plane = some fb ∧
        frame.image = fb.image d.kernel.memory
  | _ => True

/- The framebuffer on the plane is the one that was mapped, if it has the id of that one. A
framebuffer that is mapped now starts where its buffer starts, if the kernel does not tell. -/
def Kept (d : Desktop) : Event → Prop
  | .capture calls => ∀ id fb, d.kernel.planes d.source.display.plane = some id →
      d.kernel.framebuffers id = some fb →
      match d.source.cached id with
      | some m => m.Describes fb
      | none => calls.getfb2 = true ∨ fb.offset = 0
  | _ => True

theorem shownThere {k : Kernel} {plane id : UInt32} (on : k.planes plane = some id) :
    ∃ fb, k.framebuffers id = some fb ∧ k.scannedOut plane = some fb := by
  obtain ⟨fb,there⟩ := Option.isSome_iff_exists.mp (k.shown plane id on)
  refine ⟨fb,there,?_⟩
  rw [Kernel.scannedOut,on]
  exact there

theorem keptDirect {d : Desktop} {e : Event} (kept : Kept d e) : Direct d e := by
  cases e with
  | capture calls =>
    intro frame result
    have outcome := d.source.captures d.kernel calls
    generalize d.source.capture d.kernel calls = after at outcome result
    cases outcome with
    | gone | dark | unmapped => contradiction
    | kept id m answers on found =>
      obtain ⟨fb,there,out⟩ := shownThere on
      have same := kept id fb on there
      rw [found] at same
      cases result
      exact ⟨fb,out,describedImage same _ _⟩
    | mapped id m answers on missing mapped =>
      obtain ⟨fb,there,out⟩ := shownThere on
      have known := kept id fb on there
      rw [missing] at known
      cases result
      exact ⟨fb,out,describedImage (mappedDescribes there mapped known).2 _ _⟩
  | _ => exact trivial

def holding (d : Desktop) (memory : Memory) : Desktop :=
  {d with kernel := {d.kernel with memory := memory}}

def Answers : Event → Prop
  | .capture calls => calls.getPlane = true ∧ calls.getfb2 = true
  | _ => True

theorem keptExact {d : Desktop} {e : Event} (answers : Answers e) :
    (∀ memory, Direct (d.holding memory) e) ↔ Kept d e := by
  constructor
  · intro direct
    cases e with
    | capture calls =>
      intro id fb on there
      cases found : d.source.cached id with
      | none => exact .inl answers.2
      | some m =>
        have shows (memory : Memory) : (m.frame memory false).image = fb.image memory := by
          have result := FrameSource.captureCached (k := (d.holding memory).kernel) answers.1 on found
          obtain ⟨other,out,same⟩ := direct memory _ (congrArg Prod.fst result)
          have here : d.kernel.scannedOut d.source.display.plane = some other := out
          rw [Kernel.scannedOut,on] at here
          cases Option.some.inj (there.symm.trans here)
          exact same
        exact describesExact.mp shows
    | _ => exact trivial
  · intro kept memory
    exact keptDirect (d := d.holding memory) (e := e) (by cases e <;> exact kept)

section Fresh
variable {d n : Desktop} {e : Event} {events : List Event}

def Fresh (d : Desktop) : Event → Prop
  | .add id _ => ∀ m, d.source.mapping = some m → m.fb ≠ id
  | .capture calls => calls.getfb2 = true
  | _ => True

def Coherent (d : Desktop) : Prop := ∀ m, d.source.mapping = some m →
  ∀ fb, d.kernel.framebuffers m.fb = some fb → m.Describes fb

theorem coherentKept (coherent : Coherent d) (fresh : Fresh d e) : Kept d e := by
  cases e with
  | capture calls =>
    intro id fb on there
    cases found : d.source.cached id with
    | none => exact .inl fresh
    | some m =>
      obtain ⟨mapping,same⟩ := Option.filter_eq_some_iff.mp found
      exact coherent m mapping fb (by rwa [beq_iff_eq.mp same])
  | _ => exact trivial

theorem coherentStep (coherent : Coherent d) (fresh : Fresh d e) (stepped : step d e = some n) :
    Coherent n := by
  cases e with
  | add id fb =>
    simp only [step] at stepped
    split at stepped
    · cases stepped
      intro m mapping other there
      change Function.update d.kernel.framebuffers id (some fb) m.fb = some other at there
      rw [Function.update_of_ne (fresh m mapping)] at there
      exact coherent m mapping other there
    · contradiction
  | remove id =>
    cases stepped
    intro m mapping other there
    change Function.update d.kernel.framebuffers id none m.fb = some other at there
    by_cases same : m.fb = id
    · subst same
      rw [Function.update_self] at there
      contradiction
    · rw [Function.update_of_ne same] at there
      exact coherent m mapping other there
  | turnOff plane =>
    cases stepped
    exact coherent
  | setPlane plane id =>
    simp only [step] at stepped
    split at stepped
    · cases stepped
      exact coherent
    · contradiction
  | draw buffer place byte =>
    cases stepped
    exact coherent
  | capture calls =>
    cases stepped
    have outcome := d.source.captures d.kernel calls
    generalize d.source.capture d.kernel calls = after at outcome
    intro m mapping fb there
    cases outcome with
    | gone | unmapped => exact coherent m mapping fb there
    | dark => contradiction
    | kept id m' answers on found =>
      cases mapping
      exact coherent m (Option.filter_eq_some_iff.mp found).1 fb there
    | mapped id m' answers on missing mapped =>
      cases mapping
      obtain ⟨other,known,_⟩ := shownThere on
      have made := mappedDescribes known mapped (.inl fresh)
      have same : other = fb := Option.some.inj (known.symm.trans (made.1 ▸ there))
      exact same ▸ made.2
  | reopen display =>
    cases stepped
    intro m mapping
    contradiction

theorem freshDirect (coherent : Coherent d) (fresh : Runs.Allowed step Fresh d events) :
    Runs.Allowed step Direct d events :=
  Runs.allowedImplies Coherent coherent (fun _ _ _ => coherentStep)
    (fun _ _ coherent fresh => keptDirect (coherentKept coherent fresh)) fresh

end Fresh

/- Runs from any state. The second part leaves no other condition: where the kernel answers, a
capture that is not `Kept` is wrong for some contents of the buffers. The third is about the
steps of the display server. -/
theorem capturesExact (d : Desktop) (events : List Event) :
    (Runs.Allowed step Kept d events → Runs.Allowed step Direct d events) ∧
      ((∀ e ∈ events, Answers e) →
        (Runs.Allowed step (fun d e => ∀ memory, Direct (d.holding memory) e) d events ↔
          Runs.Allowed step Kept d events)) ∧
      (Coherent d → Runs.Allowed step Fresh d events → Runs.Allowed step Direct d events) := by
  refine ⟨?_,?_,freshDirect⟩
  · intro kept
    exact Runs.allowedImplies (fun _ => True) trivial (fun _ _ _ _ _ _ => trivial)
      (fun _ _ _ => keptDirect) kept
  · intro answers
    have answered : Runs.Allowed step (fun _ e => Answers e) d events :=
      Runs.allowedOf (fun e member _ => answers e member)
    constructor
    · intro direct
      exact Runs.allowedImplies (fun _ => True) trivial (fun _ _ _ _ _ _ => trivial)
        (fun _ _ _ both => (keptExact both.1).mp both.2) (Runs.allowedBoth answered direct)
    · intro kept
      exact Runs.allowedImplies (fun _ => True) trivial (fun _ _ _ _ _ _ => trivial)
        (fun _ _ _ both => (keptExact both.1).mpr both.2) (Runs.allowedBoth answered kept)

def answering : Calls := ⟨true,true,true,true,true,true⟩

def dark : Desktop where
  kernel := ⟨fun _ => none,fun _ => none,fun _ _ => 0,fun _ _ on => nomatch on⟩
  source := .new ⟨31,33⟩

def xrgb (buffer : Nat) (width height : UInt32) (fits : 0 < width.toNat ∧ 0 < height.toNat)
    (rows : width.toNat*4 ≤ (4*width).toNat) : Framebuffer :=
  ⟨buffer,width,height,4*width,0,.xrgb8888,fits,rows⟩

def switched : List Event :=
  [.add 50 (xrgb 0 2 1 (by decide) (by decide)),.setPlane 33 50,.capture answering,
    .add 51 (xrgb 1 4 1 (by decide) (by decide)),.setPlane 33 51,.remove 50,.capture answering]

theorem switchedDirect : Runs.Allowed step Direct dark switched ∧
    (Runs.run step dark switched).map (fun d => d.source.mapping.map Mapping.width) =
      some (some 4) := by
  refine ⟨(capturesExact dark switched).1 ?_,rfl⟩
  refine ⟨trivial,fun n stepped => ?_⟩
  cases stepped
  refine ⟨trivial,fun n stepped => ?_⟩
  cases stepped
  refine ⟨fun id fb on there => .inl rfl,fun n stepped => ?_⟩
  cases stepped
  refine ⟨trivial,fun n stepped => ?_⟩
  cases stepped
  refine ⟨trivial,fun n stepped => ?_⟩
  cases stepped
  refine ⟨trivial,fun n stepped => ?_⟩
  cases stepped
  refine ⟨fun id fb on there => ?_,fun n stepped => ?_⟩
  · cases on
    exact .inl rfl
  · cases stepped
    exact trivial

def reused : List Event :=
  [.add 50 (xrgb 0 2 1 (by decide) (by decide)),.setPlane 33 50,.capture answering,.remove 50,
    .add 50 (xrgb 1 4 1 (by decide) (by decide)),.setPlane 33 50,.capture answering]

theorem reusedStale : ¬∀ d events, d.source.mapping = none →
    (∀ calls, .capture calls ∈ events → calls = answering) → Runs.Allowed step Direct d events := by
  intro all
  have runs := all dark reused rfl (by simp [reused])
  have last := (((((runs.2 _ rfl).2 _ rfl).2 _ rfl).2 _ rfl).2 _ rfl).2 _ rfl
  obtain ⟨fb,out,same⟩ := last.1 _ rfl
  cases out
  exact absurd (congrArg Image.width same) (by decide)

end Desktop

end Vmdesk
