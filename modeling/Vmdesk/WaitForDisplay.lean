import Vmdesk.Display

/-! Waiting until the display can be captured: one attempt a second, for ever or until a deadline.
The world may have changed completely from one attempt to the next. Times are nanoseconds. -/
namespace Vmdesk
open Drm

namespace WaitForDisplay

inductive DisplayError where
  | card (e : CardError)
  | display (e : DisplayState)
  deriving DecidableEq, Repr

def attempt (devices : Devices) (configured connector : Text) :
    Except DisplayError (Card × ActiveDisplay) :=
  match findCard devices configured connector with
  | .error e => .error (.card e)
  | .ok card => match locateDisplay card connector with
      | .error e => .error (.display e)
      | .ok display => .ok (card,display)

/- An attempt: the world it is made in and the readings of the clock after it, for the deadline, for
the log, behind the line that is logged, and when the thread has slept. -/
structure Attempt where
  devices : Devices
  checked : Nat
  looked : Nat
  logged : Nat
  woken : Nat

end WaitForDisplay
open WaitForDisplay

/- `clock` is the last reading, `tried` and `logs` are an observer's notes: the attempts and the times
at which a line was logged. -/
structure WaitForDisplay where
  configured : Text
  connector : Text
  deadline : Option Nat
  start : Nat
  lastLog : Option Nat
  outcome : Option (Except DisplayError FrameSource)
  clock : Nat
  tried : List Attempt
  logs : List Nat

namespace WaitForDisplay

def second : Nat := 1000000000

def initial (configured connector : Text) (deadline : Option Nat) (start : Nat) : WaitForDisplay :=
  ⟨configured,connector,deadline,start,none,none,start,[],[]⟩

/- `t.elapsed() > Duration::from_secs(10)` -/
def due (lastLog : Option Nat) (now : Nat) : Bool := match lastLog with
  | some t => decide (10*second < now - t)
  | none => true

def log (s : WaitForDisplay) (now : Nat) : WaitForDisplay :=
  {s with lastLog := some now, logs := s.logs ++ [now]}

def step (s : WaitForDisplay) (a : Attempt) : Option WaitForDisplay :=
  if s.outcome.isSome then none
  else
    let s := {s with tried := s.tried ++ [a]}
    match attempt a.devices s.configured s.connector with
    | .ok (_,display) => some {s with outcome := some (.ok (.new display.toDisplayInfo))}
    | .error e =>
        if s.deadline.any (fun d => decide (d ≤ a.checked - s.start))
        then some {s with outcome := some (.error e)}
        else
          let s := if due s.lastLog a.looked then s.log a.logged else s
          some {s with clock := a.woken}

/- The clock does not go back, and a sleep is not shorter than asked. -/
def Timed (s : WaitForDisplay) (a : Attempt) : Prop :=
  s.clock ≤ a.checked ∧ a.checked ≤ a.looked ∧ a.looked ≤ a.logged ∧ a.logged + second ≤ a.woken

instance (s : WaitForDisplay) (a : Attempt) : Decidable (Timed s a) := by
  unfold Timed
  infer_instance

structure Finds (configured connector : Text) (devices : Devices) (card : Card)
    (display : ActiveDisplay) : Prop where
  opened : configured ≠ [] ∧ Card.open devices configured = .ok card ∨ configured = [] ∧
    FindCard.chosen connector (FindCard.opened devices (cardPaths devices)) = some card
  enabled : card.device.universalPlanes = .ok ()
  located : Located card.device connector display

def Dark (configured connector : Text) (devices : Devices) : Prop :=
  ∀ card display, ¬ Finds configured connector devices card display

structure Waits (s : WaitForDisplay) : Prop where
  spaced : s.logs.Pairwise (fun a b => a + 10*second < b)
  last : s.lastLog = s.logs.getLast?
  failed : s.outcome = none → ∀ a ∈ s.tried, Dark s.configured s.connector a.devices
  slow : s.outcome = none → s.start + s.tried.length*second ≤ s.clock
  within : s.outcome = none → ∀ d, s.deadline = some d → s.tried = [] ∨ (s.tried.length - 1)*second < d
  bounded : ∀ d, s.deadline = some d → s.tried.length ≤ (d + (second - 1))/second + 1
  found : ∀ source, s.outcome = some (.ok source) → ∃ front a card display,
    s.tried = front ++ [a] ∧ (∀ b ∈ front, Dark s.configured s.connector b.devices) ∧
    Finds s.configured s.connector a.devices card display ∧ source = .new display.toDisplayInfo
  early : s.outcome = none → ∀ d, s.deadline = some d → ∀ b ∈ s.tried, b.checked - s.start < d
  gaveUp : ∀ e, s.outcome = some (.error e) → ∃ d front a, s.deadline = some d ∧
    s.tried = front ++ [a] ∧ attempt a.devices s.configured s.connector = .error e ∧
    d ≤ a.checked - s.start ∧ (∀ b ∈ front, b.checked - s.start < d) ∧
    ∀ b ∈ s.tried, Dark s.configured s.connector b.devices

section
variable {s t : WaitForDisplay} {a : Attempt}

theorem attemptFinds {card : Card} {display : ActiveDisplay} :
    attempt a.devices s.configured s.connector = .ok (card,display) ↔
      Finds s.configured s.connector a.devices card display := by
  have both : attempt a.devices s.configured s.connector = .ok (card,display) ↔
      findCard a.devices s.configured s.connector = .ok card ∧
        locateDisplay card s.connector = .ok display := by
    unfold attempt
    cases findCard a.devices s.configured s.connector with
    | error e => simp
    | ok found =>
      simp only [Except.ok.injEq]
      cases located : locateDisplay found s.connector with
      | error e =>
        refine ⟨fun made => (by cases made),fun ⟨same,made⟩ => ?_⟩
        rw [← same,located] at made
        cases made
      | ok there =>
        simp only [Except.ok.injEq,Prod.mk.injEq]
        refine and_congr_right (fun same => ?_)
        rw [← same,located,Except.ok.injEq]
  rw [both,findCardExact,locateDisplayExact]
  exact ⟨fun ⟨opened,enabled,located⟩ => ⟨opened,enabled,located⟩,
    fun ⟨opened,enabled,located⟩ => ⟨opened,enabled,located⟩⟩

theorem attemptFails {e : DisplayError}
    (made : attempt a.devices s.configured s.connector = .error e) :
    Dark s.configured s.connector a.devices := by
  intro card display finds
  rw [attemptFinds.mpr finds] at made
  cases made

theorem waitsInitial (configured connector : Text) (deadline : Option Nat) (start : Nat) :
    Waits (initial configured connector deadline start) where
  spaced := .nil
  last := rfl
  failed := fun _ a inside => by cases inside
  slow := fun _ => by simp [initial]
  within := fun _ _ _ => Or.inl rfl
  bounded := fun _ _ => Nat.zero_le _
  found := fun _ ended => by cases ended
  early := fun _ _ _ b inside => by cases inside
  gaveUp := fun _ ended => by cases ended

/- A second for each attempt that did not end the waiting, so there is only time for so many. -/
theorem roomLeft (waits : Waits s) (waiting : s.outcome = none) {d : Nat} (limit : s.deadline = some d) :
    (s.tried ++ [a]).length ≤ (d + (second - 1))/second + 1 := by
  have room : s.tried.length ≤ (d + (second - 1))/second := by
    rcases waits.within waiting d limit with none'|less
    · simp [none']
    · rw [Nat.le_div_iff_mul_le (by decide)]
      have whole : s.tried.length*second ≤ (s.tried.length - 1)*second + second := by
        rw [← Nat.succ_mul]
        exact Nat.mul_le_mul_right _ (by omega)
      have positive : 0 < second := by decide
      omega
  rw [List.length_append,List.length_singleton]
  omega

theorem failedMore {front : List Attempt}
    (all : ∀ b ∈ front, Dark s.configured s.connector b.devices)
    (fails : Dark s.configured s.connector a.devices) :
    ∀ b ∈ front ++ [a], Dark s.configured s.connector b.devices := by
  intro b inside
  rcases List.mem_append.mp inside with old|new
  · exact all b old
  · exact List.mem_singleton.mp new ▸ fails

theorem logSpaced (spaced : s.logs.Pairwise (fun a b => a + 10*second < b))
    (last : s.lastLog = s.logs.getLast?) (isDue : due s.lastLog a.looked = true)
    (later : a.looked ≤ a.logged) : (s.logs ++ [a.logged]).Pairwise (fun a b => a + 10*second < b) := by
  refine List.pairwise_append.mpr ⟨spaced,List.pairwise_singleton _ _,fun x inside y new => ?_⟩
  rw [List.mem_singleton.mp new]
  rcases List.eq_nil_or_concat s.logs with none'|⟨front,l,cut⟩
  · simp [none'] at inside
  · rw [cut,List.concat_eq_append] at last inside
    rw [List.getLast?_concat] at last
    simp only [due,last,decide_eq_true_eq] at isDue
    rw [cut,List.concat_eq_append,List.pairwise_append] at spaced
    rcases List.mem_append.mp inside with old|newest
    · have before := spaced.2.2 x old l (by simp)
      omega
    · rw [List.mem_singleton.mp newest]
      omega

theorem waitsStep (waits : Waits s) (timed : Timed s a) (stepped : s.step a = some t) : Waits t := by
  unfold step at stepped
  split at stepped
  · contradiction
  · next open' =>
    have waiting : s.outcome = none := by simpa using open'
    have failed := waits.failed waiting
    have room {d : Nat} := roomLeft (a := a) (d := d) waits waiting
    simp only at stepped
    split at stepped
    · next card display made =>
      cases Option.some.inj stepped
      exact ⟨waits.spaced,waits.last,fun ended => (by cases ended),fun ended => (by cases ended),
        fun ended => (by cases ended),fun d limit => room limit,
        fun source ended => ⟨s.tried,a,card,display,rfl,failed,attemptFinds.mp made,
          (Except.ok.inj (Option.some.inj ended)).symm⟩,fun ended => (by cases ended),
        fun e ended => (by cases ended)⟩
    · next e made =>
      have fails := attemptFails made
      split at stepped
      · next late =>
        cases Option.some.inj stepped
        obtain ⟨d,limit,passed⟩ := (Option.any_eq_true _ _).mp late
        exact ⟨waits.spaced,waits.last,fun ended => (by cases ended),fun ended => (by cases ended),
          fun ended => (by cases ended),fun d limit => room limit,fun source ended => (by cases ended),
          fun ended => (by cases ended),
          fun e' ended => ⟨d,s.tried,a,limit,rfl,Except.error.inj (Option.some.inj ended) ▸ made,
            of_decide_eq_true passed,waits.early waiting d limit,failedMore failed fails⟩⟩
      · next early =>
        cases Option.some.inj stepped
        have before : ∀ d, s.deadline = some d → ∀ b ∈ s.tried ++ [a], b.checked - s.start < d := by
          intro d limit b inside
          rcases List.mem_append.mp inside with old|new
          · exact waits.early waiting d limit b old
          · rw [limit,Option.any_some,decide_eq_true_eq,not_le] at early
            exact List.mem_singleton.mp new ▸ early
        have slow := waits.slow waiting
        have more : (s.tried ++ [a]).length = s.tried.length + 1 := by simp
        have slower : s.start + (s.tried ++ [a]).length*second ≤ a.woken := by
          rw [more,Nat.succ_mul]
          have order := timed
          unfold Timed at order
          omega
        have within : ∀ d, s.deadline = some d → s.tried ++ [a] = [] ∨
            ((s.tried ++ [a]).length - 1)*second < d := by
          intro d limit
          refine Or.inr ?_
          rw [limit,Option.any_some,decide_eq_true_eq,not_le] at early
          rw [more,Nat.add_sub_cancel]
          have order := timed.1
          omega
        by_cases isDue : due s.lastLog a.looked = true
        · rw [if_pos isDue]
          exact ⟨logSpaced waits.spaced waits.last isDue timed.2.2.1,by simp [log],
            fun _ => failedMore failed fails,fun _ => slower,fun _ => within,fun d limit => room limit,
            fun source ended => absurd (waiting.symm.trans ended) (by simp),fun _ => before,
            fun e ended => absurd (waiting.symm.trans ended) (by simp)⟩
        · rw [if_neg isDue]
          exact ⟨waits.spaced,waits.last,fun _ => failedMore failed fails,
            fun _ => slower,fun _ => within,fun d limit => room limit,
            fun source ended => absurd (waiting.symm.trans ended) (by simp),fun _ => before,
            fun e ended => absurd (waiting.symm.trans ended) (by simp)⟩

theorem stepSame (stepped : s.step a = some t) : t.configured = s.configured ∧
    t.connector = s.connector ∧ t.deadline = s.deadline ∧ t.start = s.start ∧
    t.tried = s.tried ++ [a] := by
  unfold step at stepped
  split at stepped
  · contradiction
  · simp only at stepped
    split at stepped
    · cases Option.some.inj stepped
      exact ⟨rfl,rfl,rfl,rfl,rfl⟩
    · split at stepped
      · cases Option.some.inj stepped
        exact ⟨rfl,rfl,rfl,rfl,rfl⟩
      · cases Option.some.inj stepped
        split <;> exact ⟨rfl,rfl,rfl,rfl,rfl⟩

theorem runSame {as : List Attempt} (reached : Runs.run step s as = some t) :
    t.configured = s.configured ∧ t.connector = s.connector ∧ t.deadline = s.deadline ∧
    t.start = s.start ∧ t.tried = s.tried ++ as := by
  induction as generalizing s with
  | nil =>
    cases Option.some.inj reached
    exact ⟨rfl,rfl,rfl,rfl,(List.append_nil _).symm⟩
  | cons a as ih =>
    obtain ⟨n,first,rest⟩ := Option.bind_eq_some_iff.mp reached
    obtain ⟨h1,h2,h3,h4,h5⟩ := ih rest
    obtain ⟨g1,g2,g3,g4,g5⟩ := stepSame first
    exact ⟨h1.trans g1,h2.trans g2,h3.trans g3,h4.trans g4,by rw [h5,g5]; simp⟩

/- What has come of some attempts: the first one that finds an active display gets it; only a deadline
ends the waiting otherwise, with the error of the first attempt that is past it and after no more than
an attempt a second and one; and there are more than ten seconds between two lines of the log. -/
structure Result (configured connector : Text) (deadline : Option Nat) (start : Nat)
    (attempts : List Attempt) (t : WaitForDisplay) : Prop where
  found : ∀ source, t.outcome = some (.ok source) → ∃ front a card display,
    attempts = front ++ [a] ∧ (∀ b ∈ front, Dark configured connector b.devices) ∧
    Finds configured connector a.devices card display ∧ source = .new display.toDisplayInfo
  gaveUp : ∀ e, t.outcome = some (.error e) → ∃ d front a, deadline = some d ∧
    attempts = front ++ [a] ∧ attempt a.devices configured connector = .error e ∧
    d ≤ a.checked - start ∧ (∀ b ∈ front, b.checked - start < d) ∧
    ∀ b ∈ attempts, Dark configured connector b.devices
  waiting : t.outcome = none → (∀ a ∈ attempts, Dark configured connector a.devices) ∧
    ∀ d, deadline = some d → ∀ a ∈ attempts, a.checked - start < d
  bounded : ∀ d, deadline = some d → attempts.length ≤ (d + (second - 1))/second + 1
  spaced : t.logs.Pairwise (fun a b => a + 10*second < b)

end

def vkms : Device where
  driver := .ok "vkms".toList
  universalPlanes := .ok ()
  connectors := .ok [31]
  connector := fun _ => .ok ⟨"Virtual".toList,1,some 32⟩
  encoder := fun _ => .ok (some 33)
  crtc := fun _ => .ok ⟨some ⟨1920,1080,60⟩,some 40⟩
  planes := .ok [34]
  plane := fun _ => .ok ⟨some 33,some 40⟩
  properties := fun _ => .ok [(1,1)]
  property := fun _ => .ok ⟨"type".toList,some (fun raw => if raw = 1 then some "Primary".toList else none)⟩

def loading : List Attempt :=
  [⟨⟨none,fun _ => .error "No such file or directory".toList⟩,1,2,3,1000000010⟩,
   ⟨⟨some [some "card0".toList],fun _ => .ok vkms⟩,1000000020,1000000020,1000000020,2000000020⟩]

def loads : WaitForDisplay :=
  initial "/dev/dri/card0".toList "Virtual-1".toList (some 5000000000) 0

end WaitForDisplay
end Vmdesk
