import Mathlib.Tactic.Linarith
import Mathlib.Tactic.Ring
import Mathlib.Tactic.Zify
import Vmdesk.PipelineStep
import Vmdesk.Runs

/-! The pace of the capture thread while a client is connected: however long a turn of the loop is
held up, only a bounded number of captures makes up for it. -/
namespace Vmdesk
open LittleEndian (Bytes)

namespace Pipeline

def tested (p : Pipeline) : Label → Option Nat
  | .capture (.paced late _) => match p.capture.phase with
      | .pacing => some late
      | _ => none
  | _ => none

/- The clock does not go back, and a sleep lasts at least as long as asked for. `now` is the reading
in front of the sleep. -/
def Slept (tick late again : Nat) : Prop :=
  ∃ now, now ≤ late ∧ (now < tick → tick - now ≤ late - now) ∧ late ≤ again

def Paced (p : Pipeline) : Label → Prop
  | .capture (.clock _) => p.capture.phase = .checking → p.shared.clientConnected = true
  | .capture (.paced late again) => p.capture.phase = .pacing → Slept p.capture.nextTick late again
  | _ => True

structure Advances (d : Nat) (p : Pipeline) (late : Nat) (q : Pipeline) : Prop where
  due : p.capture.nextTick ≤ late
  further : p.capture.nextTick + d ≤ q.capture.nextTick
  close : late ≤ q.capture.nextTick + d

section Steps
variable {xxh3 : Bytes → UInt64} {p q : Pipeline} {l : Label}

theorem sleptDue {tick late again : Nat} (slept : Slept tick late again) :
    tick ≤ late ∧ late ≤ again := by
  obtain ⟨now,before,sleep,after⟩ := slept
  refine ⟨?_,after⟩
  by_cases early : now < tick
  · have asked := sleep early
    omega
  · omega

theorem writeKeeps (p : Pipeline) (w : Shared.Write) :
    (p.stepWrite w).config = p.config ∧ (p.stepWrite w).capture = p.capture := by
  cases w <;> exact ⟨rfl,rfl⟩

theorem captureConfig {input : CaptureInput} (stepped : CaptureStep xxh3 p input q) :
    q.config = p.config := by
  cases stepped <;> rfl

theorem turnConfig {input : EncodeInput} (stepped : TurnStep p input q) : q.config = p.config := by
  cases stepped with
  | send frame channel out force =>
    unfold send
    split <;> rfl
  | _ => rfl

theorem configStays (stepped : p.step xxh3 l = some q) : q.config = p.config := by
  cases l with
  | write w =>
    cases Option.some.inj stepped
    exact (writeKeeps p w).1
  | drop channel =>
    cases Option.some.inj stepped
    rfl
  | capture input => exact captureConfig (captureStep stepped)
  | encode input => exact turnConfig (turnStep stepped)

theorem tickStays (paced : p.Paced l) (other : p.tested l = none)
    (stepped : p.step xxh3 l = some q) : q.capture.nextTick = p.capture.nextTick := by
  cases l with
  | write w =>
    cases Option.some.inj stepped
    rw [(writeKeeps p w).2]
  | drop channel =>
    cases Option.some.inj stepped
    rfl
  | encode input => rw [turnCapture (turnStep stepped)]
  | capture input =>
    cases captureStep stepped with
    | idle now at' gone => simp [paced at'] at gone
    | pace late again phase nextTick at' => simp [tested,at'] at other
    | begin | locate | fail | take | fault | skip | offer | recycle | stop | busy | accept => rfl

theorem testAdvances (xxh3 : Bytes → UInt64) {late : Nat} (paced : p.Paced l) (test : p.tested l = some late) :
    ∃ q, p.step xxh3 l = some q ∧ Advances (frameDuration p.config.video.fps) p late q := by
  unfold tested at test
  split at test
  · next again =>
    split at test
    · next at' =>
      cases Option.some.inj test
      obtain ⟨due,after⟩ := sleptDue (paced at')
      refine ⟨_,by simp only [step,stepCapture,at']; rfl,due,?_,?_⟩
      · simp only
        split <;> omega
      · simp only
        split <;> omega
    · contradiction
  · contradiction

section Runs
variable {ls : List Label}

theorem testsDue (paced : Runs.Allowed (step xxh3) Paced p ls) {j late : Nat}
    (test : (Runs.observed (step xxh3) tested p ls)[j]? = some late) :
    p.capture.nextTick + j*frameDuration p.config.video.fps ≤ late := by
  induction ls generalizing p j with
  | nil => simp [Runs.observed] at test
  | cons l ls ih =>
    cases here : p.tested l with
    | none =>
      cases stepped : p.step xxh3 l with
      | none => simp [Runs.observed,here,stepped] at test
      | some q =>
        simp only [Runs.observed,here,stepped] at test
        rw [← tickStays paced.1 here stepped,← configStays stepped]
        exact ih (paced.2 q stepped) test
    | some first =>
      obtain ⟨q,stepped,advances⟩ := testAdvances xxh3 paced.1 here
      simp only [Runs.observed,here,stepped] at test
      cases j with
      | zero =>
        cases Option.some.inj test
        rw [Nat.zero_mul]
        exact advances.due
      | succ j =>
        have later := ih (paced.2 q stepped) (j := j) test
        rw [configStays stepped] at later
        have further := advances.further
        rw [Nat.succ_mul]
        omega

/- Between two tests the schedule moves by a frame for each test in between, and it is never more
than a frame behind the first nor ahead of the second. -/
theorem testsApart (paced : Runs.Allowed (step xxh3) Paced p ls) {k m early late : Nat}
    (first : (Runs.observed (step xxh3) tested p ls)[k]? = some early)
    (second : (Runs.observed (step xxh3) tested p ls)[k + (m + 1)]? = some late) :
    early + m*frameDuration p.config.video.fps ≤ late + frameDuration p.config.video.fps := by
  induction ls generalizing p k with
  | nil => simp [Runs.observed] at first
  | cons l ls ih =>
    cases here : p.tested l with
    | none =>
      cases stepped : p.step xxh3 l with
      | none => simp [Runs.observed,here,stepped] at first
      | some q =>
        simp only [Runs.observed,here,stepped] at first second
        rw [← configStays stepped]
        exact ih (paced.2 q stepped) first second
    | some now =>
      obtain ⟨q,stepped,advances⟩ := testAdvances xxh3 paced.1 here
      simp only [Runs.observed,here,stepped] at first second
      rw [← configStays stepped]
      cases k with
      | zero =>
        cases Option.some.inj first
        rw [Nat.zero_add] at second
        have due := testsDue (paced.2 q stepped) (j := m) second
        have close := advances.close
        rw [← configStays stepped] at close
        omega
      | succ k =>
        rw [Nat.add_right_comm] at second
        exact ih (paced.2 q stepped) first second

/- No two of any run of tests are closer together than two frames less than the frames between
them, so fewer than `w + 2` further tests fit into `w` frames. -/
theorem neverBursts (xxh3 : Bytes → UInt64) (p : Pipeline) (ls : List Label)
    (paced : Runs.Allowed (step xxh3) Paced p ls) (k m early late : Nat) (some' : 1 ≤ m)
    (first : (Runs.observed (step xxh3) tested p ls)[k]? = some early)
    (second : (Runs.observed (step xxh3) tested p ls)[k + m]? = some late) :
    ((m : Int) - 2)*(frameDuration p.config.video.fps : Int) ≤ (late : Int) - (early : Int) ∧
      ∀ w, late < early + w*frameDuration p.config.video.fps → m ≤ w + 1 := by
  obtain ⟨n,same⟩ := Nat.exists_eq_add_of_le' some'
  subst same
  have apart := testsApart paced first second
  refine ⟨?_,fun w inside => ?_⟩
  · zify at apart
    push_cast
    linarith
  · have fewer : n*frameDuration p.config.video.fps <
        (w + 1)*frameDuration p.config.video.fps := by
      rw [Nat.succ_mul]
      omega
    have least := Nat.lt_of_mul_lt_mul_right fewer
    omega

end Runs
end Steps

def pacedCheck (p : Pipeline) : Label → Bool
  | .capture (.clock _) => p.capture.phase != .checking || p.shared.clientConnected
  | .capture (.paced late again) => p.capture.nextTick ≤ late && late ≤ again
  | _ => true

theorem pacedChecked {p : Pipeline} {l : Label} (checked : pacedCheck p l = true) : p.Paced l := by
  cases l with
  | write | drop | encode => exact trivial
  | capture input =>
    cases input with
    | clock now =>
      intro at'
      simpa [pacedCheck,at'] using checked
    | paced late again =>
      intro _
      simp only [pacedCheck,Bool.and_eq_true,decide_eq_true_eq] at checked
      exact ⟨late,Nat.le_refl late,by omega,checked.2⟩
    | located | failed | taken => exact trivial

def heldUp : List Label := [.write (.connected true),.capture (.clock 0),.capture (.paced 0 0),
  .capture (.located false),.capture (.clock 1000),.capture (.paced 1000000000 1000000500),
  .capture (.located false),.capture (.clock 1000001000),
  .capture (.paced 1000001000 1000001000)]

theorem heldUpPaced :
    Runs.observed (step (fun _ => 0)) tested (initial {} 0) heldUp = [0,1000000000,1000001000] ∧
    1000001000 < 1000000000 + 1*frameDuration 30 ∧ 1 ≤ 1 + 1 := by
  have tests : Runs.observed (step (fun _ => 0)) tested (initial {} 0) heldUp =
    [0,1000000000,1000001000] := by decide
  have paced : Runs.Allowed (step (fun _ => 0)) Paced (initial {} 0) heldUp :=
    Runs.checkAllowed (fun _ => True) pacedCheck trivial (fun _ _ _ _ _ _ => trivial)
      (fun _ _ _ checked => pacedChecked checked) (by decide)
  refine ⟨tests,by decide,?_⟩
  exact (neverBursts _ _ _ paced 1 1 1000000000 1000001000 (by decide) (by rw [tests]; rfl)
    (by rw [tests]; rfl)).2 1 (by decide)

end Pipeline
end Vmdesk
