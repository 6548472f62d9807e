import Vmdesk.DecodeLoop

/-! Which decoded pictures get onto the screen. The loop draws the pictures of a call that went
well; the pictures of a call that failed stay in the vector until it is cleared. -/
namespace Vmdesk.DecodeLoop
open VideoDecoder (Result)
open Ffmpeg (Call Platform)
open FitAspect (fitAspect)

def pending (s : DecodeLoop) : List DecodedImage := if s.phase = .drawing then s.images else []

/- The published frames are the scaled pictures, each of them once and in order: every picture that
`decode` has appended was given to the scaler or is about to be. -/
structure Shown (s : DecodeLoop) : Prop where
  ordered : s.scalings.map Scaling.image ++ s.pending = s.appended
  published : s.view.published = s.scalings.filterMap Scaling.frame
  sized : ∀ x ∈ s.scalings, ∀ f, x.frame = some f → f.Full ∧
    (f.width,f.height) = fitAspect x.target (x.image.width,x.image.height)

/- No call delivers pictures and then fails. The broken decoder makes no call. -/
def Uninterrupted (s : DecodeLoop) (l : Label) : Prop :=
  ∀ c now again opens, l = .accessUnit c now again opens → s.decoder ≠ .broken →
    c.result ≠ .ok → c.images = []

section
variable {s t : DecodeLoop} {l : Label}

theorem decodedAppends (s : DecodeLoop) (c : Call) :
    (s.decoder = .broken ∧ (s.decoder.decode [] c).2 = ([],.fatal)) ∨
    (s.decoder ≠ .broken ∧ (s.decoder.decode [] c).2 = (c.images,c.result)) := by
  cases s.decoder with
  | broken => exact .inl ⟨rfl,rfl⟩
  | ffmpeg d => exact .inr ⟨by simp,by simp [AnyDecoder.decode,FfmpegDecoder.decodeExactly]⟩

theorem uninterruptedCall (s : DecodeLoop) (c : Call) (now again : Int) (opens : Except Text Unit) :
    Uninterrupted s (.accessUnit c now again opens) ↔
      ((s.decoder.decode [] c).2.2 ≠ .ok → (s.decoder.decode [] c).2.1 = []) := by
  obtain ⟨broken,made⟩ | ⟨sound,made⟩ := decodedAppends s c
  · rw [made]
    refine iff_of_true (fun c' now' again' opens' _ sound => ?_) (fun _ => rfl)
    exact absurd broken sound
  · rw [made]
    constructor
    · exact fun holds => holds c now again opens rfl sound
    · intro holds c' now' again' opens' same _
      cases same
      exact holds

theorem calledShown {c : Call} {opens : Except Text Unit} (shown : Shown s) (waiting : s.phase = .waiting)
    (handles : Handles (s.decoded c) opens (s.decoder.decode [] c).2.2 t) :
    Shown t ↔ ((s.decoder.decode [] c).2.2 ≠ .ok → (s.decoder.decode [] c).2.1 = []) := by
  have keeps := handleKeeps handles
  have images : t.images = (s.decoder.decode [] c).2.1 := keeps.images
  have appended : t.appended = s.appended ++ (s.decoder.decode [] c).2.1 := keeps.appended
  have scalings : t.scalings = s.scalings := keeps.scalings
  have published : t.view.published = s.view.published := keeps.published
  have drawing := keeps.drawing waiting
  have drained : s.scalings.map Scaling.image = s.appended := by
    have ordered := shown.ordered
    rwa [pending,waiting,if_neg (by simp),List.append_nil] at ordered
  have kept : t.view.published = t.scalings.filterMap Scaling.frame := by
    rw [published,scalings]
    exact shown.published
  have sized := shown.sized
  rw [← scalings] at sized
  by_cases ok : (s.decoder.decode [] c).2.2 = .ok
  · refine iff_of_true ⟨?_,kept,sized⟩ (fun failed => absurd ok failed)
    rw [pending,if_pos (drawing.mpr ok),scalings,drained,images,appended]
  · have none : t.pending = [] := if_neg (fun draws => ok (drawing.mp draws))
    constructor
    · intro shown' _
      have ordered := shown'.ordered
      rw [none,List.append_nil,scalings,drained,appended] at ordered
      simpa using ordered
    · intro empty
      refine ⟨?_,kept,sized⟩
      rw [none,List.append_nil,scalings,drained,appended,empty ok,List.append_nil]

theorem shownExact (shown : Shown s) (stepped : s.step l = some t) :
    Shown t ↔ Uninterrupted s l := by
  have other (apart : ∀ c now again opens, l ≠ .accessUnit c now again opens) (kept : Shown t) :
      Shown t ↔ Uninterrupted s l :=
    iff_of_true kept (fun c now again opens same => absurd same (apart c now again opens))
  obtain ⟨ordered,published,sized⟩ := shown
  cases stepCases stepped with
  | accessUnit c now again opens u waiting handles =>
    rw [uninterruptedCall]
    exact calledShown ⟨ordered,published,sized⟩ waiting handles
  | scale pixels image rest frame drawing next fits =>
    refine other (fun _ _ _ _ => by simp) ⟨?_,?_,?_⟩
    · simpa [pending,drawing,next] using ordered
    · cases frame <;> simp [published]
    · intro x inside f shape
      simp only [drawScalings,List.mem_append,List.mem_singleton] at inside
      obtain old | rfl := inside
      · exact sized x old f shape
      · exact fits f shape
  | drawn name drawing drained =>
    refine other (fun _ _ _ _ => by simp) ⟨?_,published,sized⟩
    simpa [pending,drawing,drained] using ordered
  | inputClosed waiting =>
    refine other (fun _ _ _ _ => by simp) ⟨?_,published,sized⟩
    simpa [pending,waiting] using ordered
  | getFormat => exact other (fun _ _ _ _ => by simp) ⟨ordered,published,sized⟩
  | resized w h => exact other (fun _ _ _ _ => by simp) ⟨ordered,published,sized⟩

theorem shownInitial (platform : Platform) (opens : Option Text → Except Text Unit)
    (preference : HwPreference) (now : Int) : Shown (initial platform opens preference now) := by
  unfold initial
  cases FfmpegDecoder.new platform opens preference with
  | ok d => exact ⟨rfl,rfl,by simp⟩
  | error e => exact ⟨rfl,rfl,by simp⟩

/- Every decoded picture is shown exactly in the runs in which no call delivers pictures and then
fails. -/
theorem shownExactly (platform : Platform) (opens : Option Text → Except Text Unit)
    (preference : HwPreference) (now : Int) (ls : List Label) (t : DecodeLoop)
    (reached : Runs.run step (initial platform opens preference now) ls = some t) :
    Runs.Always step Shown (initial platform opens preference now) ls ↔
      Runs.Allowed step Uninterrupted (initial platform opens preference now) ls :=
  Runs.alwaysExact (fun _ => True) trivial (shownInitial platform opens preference now)
    (fun _ _ _ _ _ => trivial) (fun _ _ _ _ shown stepped => shownExact shown stepped) reached
end

def image : DecodedImage := ⟨2,2,0,[]⟩

def anything (_ : Option Text) : Except Text Unit := .ok ()

def start : DecodeLoop := initial .other anything .software 0

def whole : Call := ⟨100,true,.sent,.copied image .drained⟩

def cut : Call := ⟨100,true,.sent,.copied image (.failed .invalidData)⟩

def wholeRun : List Label := [.resized 4 4,.accessUnit whole 0 0 (.ok ()),
  .scale (some (List.replicate 16 0)),.drawn]

theorem shownExactlyWhole : ∃ t, Runs.run step start wholeRun = some t ∧
    (Runs.Always step Shown start wholeRun ↔ Runs.Allowed step Uninterrupted start wholeRun) := by
  have runs : (Runs.run step start wholeRun).isSome = true := by decide +kernel
  obtain ⟨t,reached⟩ := Option.isSome_iff_exists.mp runs
  exact ⟨t,reached,shownExactly .other anything .software 0 wholeRun t reached⟩

/- The picture of the first call is counted and cleared, that of the second is shown. -/
theorem cutCleared : ¬ Runs.Always step Shown start [.accessUnit cut 0 0 (.ok ())] ∧
    (Runs.run step start (.accessUnit cut 0 0 (.ok ())::wholeRun)).map
      (fun t => (t.phase,t.decoder.picturesDecoded,t.appended.length,t.scalings.length,
        t.view.published.length)) = some (.waiting,2,2,1,1) := by
  refine ⟨fun always => ?_,by decide +kernel⟩
  have runs : (step start (.accessUnit cut 0 0 (.ok ()))).isSome = true := by decide +kernel
  obtain ⟨t,stepped⟩ := Option.isSome_iff_exists.mp runs
  have lost : (step start (.accessUnit cut 0 0 (.ok ()))).map
      (fun t => decide (t.scalings.map Scaling.image ++ t.pending = t.appended)) = some false := by
    decide +kernel
  rw [stepped,Option.map_some,Option.some.injEq,decide_eq_false_iff_not] at lost
  exact lost (always.2 t stepped).ordered

end Vmdesk.DecodeLoop
