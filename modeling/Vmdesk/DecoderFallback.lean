import Vmdesk.DecodeLoop

/-! When the decode thread gives up its hardware decoder and when it stops. The counter of failures
is the number of corrupt results since the last good one, for as long as it is looked at. -/
namespace Vmdesk.DecodeLoop
open VideoDecoder (Result)
open Ffmpeg (Call Platform)

def corruptSinceOk (results : List Result) : Nat :=
  (results.reverse.takeWhile (· != .ok)).count .corrupt

theorem corruptAfter (results : List Result) (r : Result) : corruptSinceOk (results ++ [r]) =
    if r = .ok then 0 else corruptSinceOk results + if r = .corrupt then 1 else 0 := by
  unfold corruptSinceOk
  rw [List.reverse_append,List.reverse_singleton,List.singleton_append]
  cases r <;> simp

def behind (s : DecodeLoop) (c : Call) : AnyDecoder := (s.decoder.decode [] c).1
def resultOf (s : DecodeLoop) (c : Call) : Result := (s.decoder.decode [] c).2.2

section
variable {s t : DecodeLoop} {c : Call}

@[simp] theorem behindHardware : (s.behind c).isHardware = s.decoder.isHardware := by
  unfold behind
  cases s.decoder with
  | broken => rfl
  | ffmpeg d => simp [AnyDecoder.decode,FfmpegDecoder.decodeExactly,AnyDecoder.isHardware,
      FfmpegDecoder.isHardware]

theorem behindPictures : s.decoder.picturesDecoded ≤ (s.behind c).picturesDecoded := by
  unfold behind
  cases s.decoder with
  | broken => exact Nat.le_refl _
  | ffmpeg d => simp [AnyDecoder.decode,FfmpegDecoder.decodeExactly,AnyDecoder.picturesDecoded]

theorem fallenBack (d : AnyDecoder) : d.getFormat.isHardware = false := by
  cases d with
  | broken => rfl
  | ffmpeg d =>
    simp only [AnyDecoder.getFormat,AnyDecoder.isHardware,FfmpegDecoder.getFormat,
      FfmpegDecoder.isHardware]
    cases d.hwName <;> simp
end

structure CallReplaces (s : DecodeLoop) (c : Call) (opens : Except Text Unit) (t : DecodeLoop) :
    Prop where
  soft : t.replaced ≠ s.replaced → t.decoder.isHardware = false
  kept : t.replaced = s.replaced → t.decoder = s.behind c
  pictured : (s.behind c).isHardware = true → 0 < (s.behind c).picturesDecoded →
    s.resultOf c = .corrupt → t.replaced = s.replaced
  blank : (s.behind c).isHardware = true → (s.behind c).picturesDecoded = 0 →
    (t.replaced ≠ s.replaced ↔ s.resultOf c = .fatal ∨
      s.resultOf c = .corrupt ∧ corruptSinceOk (s.results ++ [s.resultOf c]) = 8)
  stops : t.phase = .exited → ∃ e, opens = .error e ∧ s.resultOf c = .fatal ∧
    (s.behind c).isHardware = false

structure Replacement (s : DecodeLoop) (l : Label) (t : DecodeLoop) : Prop where
  call : ∀ c now again opens, l = .accessUnit c now again opens → CallReplaces s c opens t
  others : t.replaced ≠ s.replaced → ∃ c now again opens, l = .accessUnit c now again opens
  stops : t.phase = .exited → s.phase = .exited ∨ l = .inputClosed ∨
    ∃ c now again opens, l = .accessUnit c now again opens

def Counted (s : DecodeLoop) : Prop :=
  s.decoder.isHardware = true → s.decoder.picturesDecoded = 0 →
    s.hwFailures = corruptSinceOk s.results ∧ s.hwFailures < hwFailureLimit

section
variable {s t : DecodeLoop} {l : Label} {c : Call} {opens : Except Text Unit}

theorem countedBehind (counted : Counted s) (hardware : (s.behind c).isHardware = true)
    (blank : (s.behind c).picturesDecoded = 0) :
    s.hwFailures = corruptSinceOk s.results ∧ s.hwFailures < hwFailureLimit := by
  rw [behindHardware] at hardware
  have pictures := behindPictures (s := s) (c := c)
  exact counted hardware (by omega)

theorem limitPositive : 0 < hwFailureLimit := by decide

theorem countedCall (counted : Counted s)
    (handles : Handles (s.decoded c) opens (s.resultOf c) t) : Counted t := by
  intro hardware blank
  have before (hardware : (s.behind c).isHardware = true) := countedBehind counted hardware
  have results : (s.decoded c).results = s.results ++ [s.resultOf c] := rfl
  have failures : (s.decoded c).hwFailures = s.hwFailures := rfl
  generalize s.resultOf c = r at *
  cases handles with
  | ok =>
    change 0 = corruptSinceOk (s.decoded c).results ∧ _
    rw [results,corruptAfter]
    exact ⟨by simp,limitPositive⟩
  | noted last n _ _ few =>
    change (s.decoded c).hwFailures + 1 = corruptSinceOk (s.decoded c).results ∧ _
    rw [results,corruptAfter,failures,(before hardware blank).1]
    exact ⟨by simp,by rw [failures,(before hardware blank).1] at few; exact few⟩
  | lost last n harmless => exact absurd blank (harmless hardware)
  | givenUp last n d name _ _ _ soft | failed last n d name _ soft =>
    rw [show d.isHardware = true from hardware] at soft
    cases soft
  | renewed => cases hardware
  | ended last n e why soft =>
    rw [show (s.decoded c).decoder.isHardware = true from hardware] at soft
    cases soft

theorem countedStep (counted : Counted s) (stepped : s.step l = some t) : Counted t := by
  cases stepCases stepped with
  | accessUnit c now again opens u waiting handles => exact countedCall counted handles
  | scale pixels image rest frame drawing next sized =>
    intro hardware blank
    rw [drawDecoder] at hardware blank
    rw [drawFailures,drawResults]
    exact counted hardware blank
  | drawn | inputClosed | resized => exact counted
  | getFormat running =>
    intro hardware
    rw [fallenBack] at hardware
    cases hardware

theorem countedInitial (platform : Platform) (opens : Option Text → Except Text Unit)
    (preference : HwPreference) (now : Int) : Counted (initial platform opens preference now) := by
  intro _ _
  unfold initial
  cases FfmpegDecoder.new platform opens preference <;> exact ⟨rfl,limitPositive⟩

theorem callReplaces (counted : Counted s) (waiting : s.phase = .waiting)
    (handles : Handles (s.decoded c) opens (s.resultOf c) t) : CallReplaces s c opens t := by
  have before (hardware : (s.behind c).isHardware = true) := countedBehind counted hardware
  have limit : hwFailureLimit = 8 := rfl
  have failures : (s.decoded c).hwFailures = s.hwFailures := rfl
  have decoder : (s.decoded c).decoder = s.behind c := rfl
  have replaced : (s.decoded c).replaced = s.replaced := rfl
  have counts := corruptAfter s.results
  constructor
  all_goals generalize s.resultOf c = r at *
  · cases handles with
    | ok | noted | lost | ended => exact fun changed => absurd rfl changed
    | givenUp last n d name _ _ _ soft | failed last n d name _ soft => exact fun _ => soft
    | renewed => exact fun _ => rfl
  · cases handles with
    | ok | noted | lost | ended => exact fun _ => rfl
    | givenUp | failed | renewed => exact fun same => absurd same (Nat.succ_ne_self _)
  · intro hardware pictures corrupt
    cases handles with
    | noted | lost => rfl
    | givenUp last n d name _ blank =>
      rw [decoder] at blank
      omega
    | ok | failed | renewed | ended => cases corrupt
  · intro hardware blank
    obtain ⟨counter,few⟩ := before hardware blank
    cases handles with
    | ok => simp [replaced]
    | noted last n _ _ less =>
      rw [failures,limit] at less
      refine iff_of_false (fun changed => changed rfl) (fun reason => ?_)
      obtain wrong | ⟨_,eighth⟩ := reason
      · cases wrong
      · simp only [counts,reduceCtorEq,if_false,if_true] at eighth
        omega
    | givenUp last n d name _ _ many soft =>
      rw [failures,limit] at many
      rw [limit] at few
      refine iff_of_true (Nat.succ_ne_self _) (.inr ⟨rfl,?_⟩)
      simp only [counts,reduceCtorEq,if_false,if_true]
      omega
    | lost last n harmless => exact absurd blank (harmless hardware)
    | failed => exact iff_of_true (Nat.succ_ne_self _) (.inl rfl)
    | renewed last n soft | ended last n e why soft =>
      rw [decoder,hardware] at soft
      cases soft
  · intro exited
    cases handles with
    | noted | givenUp | lost | failed | renewed =>
      have still : s.phase = .exited := exited
      rw [waiting] at still
      cases still
    | ok => cases exited
    | ended last n e why soft closed => exact ⟨e,closed,rfl,soft⟩

theorem otherReplaces (apart : ∀ c now again opens, l ≠ .accessUnit c now again opens)
    (same : t.replaced = s.replaced)
    (stops : t.phase = .exited → s.phase = .exited ∨ l = .inputClosed) : Replacement s l t where
  call := fun c now again opens called => absurd called (apart c now again opens)
  others := fun changed => absurd same changed
  stops := fun exited => (stops exited).imp_right .inl

theorem replaces (counted : Counted s) (stepped : s.step l = some t) : Replacement s l t := by
  cases stepCases stepped with
  | accessUnit c now again opens u waiting handles =>
    have call := callReplaces counted waiting handles
    refine ⟨fun c' now' again' opens' same => ?_,fun _ => ⟨c,now,again,opens,rfl⟩,
      fun _ => .inr (.inr ⟨c,now,again,opens,rfl⟩)⟩
    cases same
    exact call
  | scale pixels image rest frame drawing =>
    refine otherReplaces (fun _ _ _ _ => by simp) (by simp) (fun exited => .inl ?_)
    rwa [drawPhase] at exited
  | drawn => exact otherReplaces (fun _ _ _ _ => by simp) rfl (fun exited => by cases exited)
  | inputClosed => exact otherReplaces (fun _ _ _ _ => by simp) rfl (fun _ => .inr rfl)
  | getFormat | resized => exact otherReplaces (fun _ _ _ _ => by simp) rfl .inl

theorem softStep (soft : s.decoder.isHardware = false) (stepped : s.step l = some t) :
    t.decoder.isHardware = false := by
  cases stepCases stepped with
  | accessUnit c now again opens u waiting handles =>
    have decoder : (s.decoded c).decoder.isHardware = false :=
      (behindHardware (s := s) (c := c)).trans soft
    have result : (s.decoder.decode [] c).2.2 = s.resultOf c := rfl
    rw [result] at handles
    generalize s.resultOf c = r at handles
    cases handles with
    | ok | noted | lost | ended => exact decoder
    | givenUp last n d name _ _ _ soft | failed last n d name _ soft => exact soft
    | renewed => rfl
  | scale => simpa using soft
  | drawn | inputClosed | resized => exact soft
  | getFormat => exact fallenBack _

def GoesOn (s : DecodeLoop) : Prop :=
  (s.phase = .waiting → ∀ c now again opens, (s.step (.accessUnit c now again opens)).isSome = true) ∧
  (s.phase = .drawing → (s.step (.scale none)).isSome = true ∨ (s.step .drawn).isSome = true)

theorem goesOn (s : DecodeLoop) : GoesOn s := by
  constructor
  · intro waiting c now again opens
    simp [step,waiting]
  · intro drawing
    cases images : s.images with
    | nil => exact .inr (by simp [step,drawing,images])
    | cons image rest => exact .inl (by simp [step,drawing,images])

theorem startsOr {platform : Platform} {opens : Option Text → Except Text Unit}
    {preference : HwPreference} {now : Int}
    (exited : (initial platform opens preference now).phase = .exited) :
    ∃ e, opens none = .error e := by
  cases shape : opens none with
  | error e => exact ⟨e,rfl⟩
  | ok =>
    obtain ⟨d,made⟩ := FfmpegDecoder.newOpens platform preference shape
    rw [initial,made] at exited
    cases exited

/- The decoder over all runs: it stays in software once it is there, each call replaces it or not
as described, and the thread can always go on until it stops. -/
theorem fallbackMachine (platform : Platform) (opens : Option Text → Except Text Unit)
    (preference : HwPreference) (now : Int) (ls : List Label) (s : DecodeLoop)
    (reached : Runs.run step (initial platform opens preference now) ls = some s) :
    (∀ more t, Runs.run step s more = some t → s.decoder.isHardware = false →
      t.decoder.isHardware = false) ∧
    (∀ l t, s.step l = some t → Replacement s l t) ∧ GoesOn s ∧
    ((initial platform opens preference now).phase = .exited → ∃ e, opens none = .error e) := by
  have counted : Counted s := Runs.runKeeps Counted
    (countedInitial platform opens preference now) (fun _ _ _ holds stepped => countedStep holds stepped)
    reached
  refine ⟨fun more t runs soft => ?_,fun l t stepped => replaces counted stepped,goesOn s,startsOr⟩
  exact Runs.runKeeps (fun s => s.decoder.isHardware = false) soft
    (fun _ _ _ soft stepped => softStep soft stepped) runs
end

def damaged : Label := .accessUnit ⟨100,true,.failed .invalidData,.drained⟩ 0 0 (.ok ())

def hardwareStart : DecodeLoop := initial .linux (fun _ => .ok ()) .auto 0

theorem fallbackMachineDamaged : ∃ s,
    Runs.run step hardwareStart (List.replicate 7 damaged) = some s ∧
    (∀ more t, Runs.run step s more = some t → s.decoder.isHardware = false →
      t.decoder.isHardware = false) ∧
    (∀ l t, s.step l = some t → Replacement s l t) ∧ GoesOn s ∧
    (hardwareStart.phase = .exited → ∃ e : Text, (Except.ok () : Except Text Unit) = .error e) := by
  have runs : (Runs.run step hardwareStart (List.replicate 7 damaged)).isSome = true := by
    decide +kernel
  obtain ⟨s,reached⟩ := Option.isSome_iff_exists.mp runs
  exact ⟨s,reached,fallbackMachine .linux (fun _ => .ok ()) .auto 0 _ s reached⟩

example : (Runs.run step hardwareStart (List.replicate 7 damaged)).map
    (fun s => (s.decoder.isHardware,s.replaced)) = some (true,0) := by decide +kernel

example : (Runs.run step hardwareStart (List.replicate 8 damaged)).map
    (fun s => (s.decoder.isHardware,s.replaced)) = some (false,1) := by decide +kernel
end Vmdesk.DecodeLoop
