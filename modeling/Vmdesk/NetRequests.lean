import Vmdesk.NetStep
import Vmdesk.Runs

/-! Keyframe requests on the client. Both limits drop what comes too soon, so what is left of a
request that was not answered is a bound on how old the last answer can be. -/
namespace Vmdesk

namespace Net

def LoopPhase.isRequesting : LoopPhase → Bool
  | .requesting => true
  | _ => false

structure Timing where
  clock : Int
  requesting : Bool
  known : Bool
  lastPli : Int
  pliAt : Option Int
  lastRequest : Int
  requests : Nat
  keyframes : Nat
  dropAt : Option Int
  errorAt : Option Int

def timing (n : Net) : Timing where
  clock := n.clock
  requesting := n.phase.isRequesting
  known := n.video.isSome
  lastPli := n.lastPli
  pliAt := n.pliAt
  lastRequest := n.decode.lastRequest
  requests := n.requests
  keyframes := n.keyframes
  dropAt := n.dropAt
  errorAt := n.errorAt

namespace Timing

/- Something that happened at `t` has been answered less than `spacing` before, or is still on
its way through a queue of that length, or there is no track to ask for. -/
def Heard (v : Timing) (t : Int) (queue : Nat) : Prop :=
  v.known = true → v.requesting = false → queue = 0 → t < v.lastPli + pliInterval

structure Timely (v : Timing) : Prop where
  past : v.lastPli ≤ v.clock ∧ v.lastRequest ≤ v.clock
  sent : v.known = true → v.requesting = false → v.pliAt = some v.lastPli
  asked : v.Heard v.lastRequest v.requests
  drop : ∀ d, v.dropAt = some d → d ≤ v.clock ∧ v.Heard d v.keyframes
  error : ∀ e, v.errorAt = some e → e < v.lastRequest + DecodeThread.requestSpacing

theorem timelyInitial {bitrate : Option UInt32} {now started : Int} {pending : List PcEvent}
    {decoder : Option VideoDecoder} (before : started ≤ now) :
    Timely (initial bitrate now pending (.initial decoder started)).timing where
  past := by
    simp only [timing,initial,DecodeThread.initial]
    omega
  sent := fun known => by simp [timing,initial] at known
  asked := fun known => by simp [timing,initial] at known
  drop := fun d dropped => by simp [timing,initial] at dropped
  error := fun e failed => by simp [timing,initial] at failed

theorem Timely.later {v : Timing} (timely : v.Timely) {now : Int} (after : v.clock ≤ now) :
    Timely {v with clock := now} where
  past := ⟨timely.past.1.trans after,timely.past.2.trans after⟩
  sent := timely.sent
  asked := timely.asked
  drop := fun d dropped => ⟨(timely.drop d dropped).1.trans after,(timely.drop d dropped).2⟩
  error := timely.error

theorem Timely.request {v : Timing} (timely : v.Timely) (known : Bool) (requests keyframes : Nat) :
    Timely {v with
      requesting := true, known := known, requests := requests, keyframes := keyframes} where
  past := timely.past
  sent := fun _ idle => by contradiction
  asked := fun _ idle => by contradiction
  drop := fun d dropped => ⟨(timely.drop d dropped).1,fun _ idle => by contradiction⟩
  error := timely.error

theorem Timely.answer {v : Timing} (timely : v.Timely) {now : Int} (after : v.clock ≤ now) :
    Timely {v with
      requesting := false, clock := now, lastPli := now, pliAt := some now} where
  past := ⟨Int.le_refl now,timely.past.2.trans after⟩
  sent := fun _ _ => rfl
  asked := fun _ _ _ => by
    have old := timely.past.2
    have positive : 0 < pliInterval := by decide
    simp only
    omega
  drop := fun d dropped => by
    have old := (timely.drop d dropped).1
    have positive : 0 < pliInterval := by decide
    refine ⟨old.trans after,fun _ _ _ => ?_⟩
    simp only
    omega
  error := timely.error

theorem Timely.refuse {v : Timing} (timely : v.Timely)
    (refused : v.known = true → elapsed v.lastPli v.clock < pliInterval) (requests keyframes : Nat) :
    Timely {v with requests := requests, keyframes := keyframes} := by
  have near {t : Int} (past : t ≤ v.clock) (known : v.known = true) : t < v.lastPli + pliInterval := by
    have soon := refused known
    simp only [elapsed] at soon
    omega
  exact ⟨timely.past,timely.sent,fun known _ _ => near timely.past.2 known,
    fun d dropped => ⟨(timely.drop d dropped).1,fun known _ _ => near (timely.drop d dropped).1 known⟩,
    timely.error⟩

end Timing

section Steps
variable {n m : Net}

theorem gotoTimely {phase : LoopPhase} (timely : n.timing.Timely)
    (idle : n.phase.isRequesting = false) (after : phase.isRequesting = false) :
    (n.goto phase).timing.Timely := by
  have same : (n.goto phase).timing = n.timing := by simp [timing,goto,idle,after]
  rw [same]
  exact timely

theorem sendTiming (n : Net) (sender : Sender) (msg : ControlMessage) :
    (n.send sender msg).timing = n.timing := by
  unfold send
  split <;> rfl

theorem sentTimely {phase : LoopPhase} (msg : ControlMessage) (timely : n.timing.Timely)
    (idle : n.phase.isRequesting = false) (after : phase.isRequesting = false) :
    ((n.send .loop msg).goto phase).timing.Timely := by
  refine gotoTimely ?_ ?_ after
  · rw [sendTiming]
    exact timely
  · rw [(sendKeeps n .loop msg).2.2.2.2]
    exact idle

theorem eventTimely (idle : n.phase.isRequesting = false) (timely : n.timing.Timely)
    (stepped : EventStep n m) : m.timing.Timely := by
  cases stepped with
  | ignore | connect | unknown => exact timely
  | fail e => exact gotoTimely timely idle rfl
  | ask video known => exact timely.request video.isSome n.requests n.keyframes

theorem loopTimely {branch : Branch} (timely : n.timing.Timely) (stepped : LoopStep n branch m) :
    m.timing.Timely := by
  have idle {phase : LoopPhase} (at' : n.phase = phase) (other : phase.isRequesting = false) :
      n.phase.isRequesting = false := by
    rw [at']
    exact other
  cases stepped with
  | drain ev rest _ at' _ led =>
    exact eventTimely (n := {n with pending := rest}) (idle at' rfl) timely led
  | event ev rest _ at' _ led =>
    exact eventTimely (n := {n with events := rest}) (idle at' rfl) timely led
  | due _ now requests keyframes at' after =>
    exact (timely.later after).request n.video.isSome requests keyframes
  | early _ now requests keyframes at' after soon =>
    exact (timely.later after).refuse soon requests keyframes
  | pliSent now phase at' after back =>
    have answered := timely.answer after
    rcases back with same|same <;> simpa [timing,same,LoopPhase.isRequesting] using answered
  | controlled msg at' => exact sentTimely msg timely (idle at' rfl) rfl
  | release at' => exact sentTimely .releaseAll timely (idle at' rfl) rfl
  | tick | mouse => exact timely
  | drained at' | stop e at' | uiGone at' | control msg rest at' | quit rest at' | flush p at'
  | moved p at' | close at' => exact gotoTimely timely (idle at' rfl) rfl

theorem greetTiming (stepped : GreetStep n m) : m.timing = n.timing := by
  cases stepped with
  | take => rfl
  | hello => exact sendTiming n .task _
  | setBitrate => exact sendTiming n .task _

theorem dropTimely {now : Int} (timely : n.timing.Timely) (after : n.clock ≤ now) :
    ({n with keyframes := n.keyframes + 1, clock := now, dropAt := some now} : Net).timing.Timely := by
  have passed := timely.later after
  refine ⟨passed.past,passed.sent,passed.asked,?_,passed.error⟩
  intro d dropped
  cases Option.some.inj dropped
  exact ⟨Int.le_refl now,fun _ _ none => by simp [timing] at none⟩

theorem decodedTimely {d : VideoDecoder.Decoded} {now again : Int} {created asked : Bool}
    {decode : DecodeThread} (timely : n.timing.Timely) (after : n.clock ≤ now) (later : now ≤ again)
    (done : n.decode.decoded d now again created = some (decode,asked)) :
    ({n with
      decode := decode
      clock := again
      requests := if asked then n.requests + 1 else n.requests
      errorAt := if d.result = .ok then n.errorAt else some now} : Net).timing.Timely := by
  have passed := timely.later (after.trans later)
  obtain ⟨_,asks⟩ := DecodeThread.decodedAsks done
  have positive : 0 < DecodeThread.requestSpacing := by decide
  cases asked with
  | true =>
    obtain ⟨fresh,failed⟩ := asks.sent rfl
    refine ⟨⟨passed.past.1,?_⟩,passed.sent,fun _ _ none => by simp [timing] at none,
      passed.drop,?_⟩
    · simp [timing,fresh]
    · intro e error
      simp only [timing,failed,if_false,Option.some.injEq,fresh] at error ⊢
      omega
  | false =>
    obtain ⟨same,soon⟩ := asks.spared rfl
    refine ⟨?_,passed.sent,?_,passed.drop,?_⟩
    · simpa [timing,same] using passed.past
    · simp only [timing,same]
      exact passed.asked
    · intro e error
      by_cases fine : d.result = .ok
      · simp only [timing,fine,if_true,same] at error ⊢
        exact passed.error e error
      · simp only [timing,fine,if_false,Option.some.injEq,same] at error ⊢
        rw [← error]
        exact soon fine

theorem timelyStep {l : Label} (timely : n.timing.Timely) (stepped : n.step l = some m) :
    m.timing.Timely := by
  cases anyStep stepped with
  | loop branch _ looped => exact loopTimely timely looped
  | greet _ greeted =>
    rw [greetTiming greeted]
    exact timely
  | unread now after | queue now after => exact timely.later after
  | drop now after => exact dropTimely timely after
  | decoded d now again created decode asked after later done =>
    exact decodedTimely timely after later done
  | ui | uiGone | event | driverGone | opens | closes | hears | trackEnded | receive => exact timely

/- Nothing that asks for a keyframe is under way. -/
structure Quiet (n : Net) : Prop where
  requests : n.requests = 0
  keyframes : n.keyframes = 0
  idle : n.phase.isRequesting = false
  waiting : n.decode.phase = .waiting

def PliNotLost (n : Net) : Prop := n.video.isSome = true → n.Quiet →
  ∀ t, n.dropAt = some t ∨ n.errorAt = some t → ∃ p, n.pliAt = some p ∧ t ≤ p

/- A request has been sent, and the last one less than one limit before the last drop and less than
both limits before the last decode error. -/
def PliSpaced (n : Net) : Prop := n.video.isSome = true → n.Quiet → ∃ p, n.pliAt = some p ∧
  (∀ t, n.dropAt = some t → t < p + pliInterval) ∧
  ∀ t, n.errorAt = some t → t < p + pliInterval + DecodeThread.requestSpacing

theorem timelySpaced (timely : n.timing.Timely) : n.PliSpaced := by
  intro known quiet
  refine ⟨n.lastPli,timely.sent known quiet.idle,fun t dropped => ?_,fun t failed => ?_⟩
  · exact (timely.drop t dropped).2 known quiet.idle quiet.keyframes
  · have request := timely.asked known quiet.idle quiet.requests
    have error := timely.error t failed
    simp only [timing] at request error
    omega

theorem requestsSpaced (bitrate : Option UInt32) (now started : Int) (before : started ≤ now)
    (pending : List PcEvent) (decoder : Option VideoDecoder) (ls : List Label)
    (reached : Runs.run step (initial bitrate now pending (.initial decoder started)) ls = some n) :
    n.PliSpaced :=
  timelySpaced (Runs.runKeeps (fun n => n.timing.Timely) (Timing.timelyInitial before)
    (fun _ _ _ timely stepped => timelyStep timely stepped) reached)

end Steps

def damagedUnit : List Label := [.loop .drain,.loop (.pliSent 0),.sample 100000000,.receive,
  .decoded ⟨.corrupt,0,false⟩ 100000000 100000000 true,.loop (.decoderRequest 100000000)]

def watching : Net :=
  initial none 0 [.track (some 1)] (.initial (some (.ffmpeg false 0)) 0)

theorem damagedUnitState : (Runs.run step watching damagedUnit).map
    (fun n => ((n.video.isSome,n.requests,n.keyframes),(n.phase.isRequesting,n.decode.phase),
      (n.pliAt,n.errorAt))) =
      some ((true,0,0),(false,.waiting),(some 0,some 100000000)) := by decide

theorem requestsSpacedDamaged : (0 : Int) ≤ 0 ∧ ∃ n,
    Runs.run step watching damagedUnit = some n ∧ n.PliSpaced := by
  obtain ⟨n,reached,_⟩ := Option.map_eq_some_iff.mp damagedUnitState
  exact ⟨Int.le_refl 0,n,reached,requestsSpaced _ _ _ (Int.le_refl 0) _ _ _ reached⟩

theorem requestSwallowed : ∃ n, Runs.run step watching damagedUnit = some n ∧ ¬ n.PliNotLost := by
  obtain ⟨n,reached,facts⟩ := Option.map_eq_some_iff.mp damagedUnitState
  simp only [Prod.mk.injEq] at facts
  obtain ⟨⟨known,requests,keyframes⟩,⟨idle,waiting⟩,sent,failed⟩ := facts
  refine ⟨n,reached,fun kept => ?_⟩
  obtain ⟨p,last,later⟩ := kept known ⟨requests,keyframes,idle,waiting⟩ _ (Or.inr failed)
  rw [sent] at last
  cases Option.some.inj last
  omega

end Net
end Vmdesk
