import Vmdesk.OneClient

/-! Input of one session never reaches the next. The id check of a channel reader and its call
of the sink are separate steps, the id of a session stays active while its successor negotiates
and after its own end, and no reader is ever stopped: what keeps sessions apart is when messages
arrive. -/
namespace Vmdesk
open LittleEndian (Bytes)

namespace Server
open Function Session

def inputOf (isControl : Bool) (data : Bytes) : Option InputEvent :=
  if isControl then match (ControlMessage.decode data).run with
    | some (.ok (.hello _)) | some (.ok (.setBitrate _)) => none
    | some (.ok m) => some (.control m)
    | some (.error _) | none => none
  else match (MouseMove.decode data).run with
    | some (.ok m) => some (.mouse m)
    | some (.error _) | none => none

def injects (reader : Reader) : Option InputEvent := match reader.phase with
  | .admitted data => inputOf reader.isControl data
  | _ => none

def sinkCall (s : Server) : Label → Option UinputSink.Call
  | .call c (.released emits) => match s.calls c with
    | .releasing _ => some (.releaseAll emits)
    | _ => none
  | .task n emits => match (s.tasks n).phase with
    | .disconnected | .releasing => some (.releaseAll emits)
    | _ => none
  | .reader r emits => ((s.readers r).bind injects).map (fun event => .handle event emits)
  | _ => none

def retires (s : Server) : Label → Option Nat
  | .call c (.released _) => match s.calls c with
    | .releasing old => some old
    | _ => none
  | .task n _ => if (s.tasks n).phase = .releasing then some n else none
  | _ => none

/- A session becomes active only with everything up and before it has a task, and a reader
hands input to the sink only for the active session, and only before that session has released
the input at its end. -/
def Isolated (s : Server) (l : Label) : Prop :=
  (∀ c reply deal pending answer, l = .call c reply →
    s.calls c = .activating deal pending answer →
    s.input.AllUp ∧ (s.tasks deal.session).phase = .absent) ∧
  (∀ r emits reader event, l = .reader r emits → s.readers r = some reader →
    injects reader = some event →
    s.shared.activeSession = reader.session ∧ s.retired reader.session = false)

def StaysUp (s : Server) : Prop :=
  s.retired s.shared.activeSession = true → s.input.AllUp

/- No emit of the sink fails that had to release something. -/
def Sound (s : Server) (l : Label) : Prop :=
  ∀ call, sinkCall s l = some call → UinputSink.Harmless s.input call

/- A call stores `active_session` only after the input has been released at the end of the
session that was active until then. -/
def Relieved (s : Server) : Label → Prop
  | .call c _ => ∀ deal pending answer, s.calls c = .activating deal pending answer →
      s.retired s.shared.activeSession = true
  | _ => True

/- The release at the end of a session does not come between the test of `active_session` by
one of its readers and the call of the sink behind that test. -/
def Undivided (s : Server) (l : Label) : Prop :=
  ∀ m, retires s l = some m → ∀ r reader, s.readers r = some reader → reader.session = m →
    injects reader = none

/- A message with input that passes the test does so before the release at the end of its
session: nothing but the next session makes the test fail. -/
def Timely (s : Server) : Label → Prop
  | .reader r _ => ∀ reader data, s.readers r = some reader → reader.phase = .received data →
      (inputOf reader.isControl data).isSome = true →
      s.shared.activeSession = reader.session → s.retired reader.session = false
  | _ => True

structure Separated (s : Server) (l : Label) : Prop where
  sound : s.Sound l
  relieved : s.Relieved l
  undivided : s.Undivided l
  timely : s.Timely l

section Steps
variable {s t : Server} {l : Label}

theorem actInput (s : Server) (reader : Reader) (data : Bytes) (emits : Emits) :
    (s.act reader data emits).input = match inputOf reader.isControl data with
      | some event => (s.input.handle event emits).1
      | none => s.input := by
  unfold act inputOf
  cases reader.isControl with
  | true =>
    cases (ControlMessage.decode data).run with
    | none => rfl
    | some result =>
      cases result with
      | error e => rfl
      | ok m => cases m <;> rfl
  | false =>
    cases (MouseMove.decode data).run with
    | none => rfl
    | some result => cases result <;> rfl

def served (s : Server) : Option UinputSink.Call → UinputSink
  | some call => (s.input.call call).1
  | none => s.input

def marked (s : Server) : Option Nat → Nat → Bool
  | some m => update s.retired m true
  | none => s.retired

def SinkStep (s : Server) (l : Label) (t : Server) : Prop :=
  t.input = s.served (sinkCall s l) ∧ t.retired = s.marked (retires s l)

theorem sinkKept (calls : sinkCall s l = none) (ends : retires s l = none)
    (input : t.input = s.input) (retired : t.retired = s.retired) : SinkStep s l t := by
  unfold SinkStep
  rw [calls,ends]
  exact ⟨input,retired⟩

theorem notReleasing {c : Nat} {reply : Reply} (other : ∀ old, s.calls c ≠ .releasing old) :
    sinkCall s (.call c reply) = none ∧ retires s (.call c reply) = none := by
  cases reply with
  | released emits =>
    cases at' : s.calls c with
    | releasing old => exact absurd at' (other old)
    | _ => simp [sinkCall,retires,at']
  | proceeds | fails | detected | timedOut | described => exact ⟨rfl,rfl⟩

theorem callAside {c : Nat} {reply : Reply} (other : ∀ old, s.calls c ≠ .releasing old)
    (input : t.input = s.input) (retired : t.retired = s.retired) :
    SinkStep s (.call c reply) t :=
  sinkKept (notReleasing other).1 (notReleasing other).2 input retired

theorem sinkReleased {emits : Emits} {ended : Option Nat}
    (calls : sinkCall s l = some (.releaseAll emits)) (ends : retires s l = ended)
    (input : t.input = (s.input.releaseAll emits).1) (retired : t.retired = s.marked ended) :
    SinkStep s l t := by
  unfold SinkStep
  rw [calls,ends]
  exact ⟨input,retired⟩

theorem callSink {c : Nat} {reply : Reply} (stepped : s.stepCall c reply = some t) :
    SinkStep s (.call c reply) t := by
  cases callStep stepped with
  | release old emits at' =>
    have calls : sinkCall s (.call c (.released emits)) = some (.releaseAll emits) := by
      simp [sinkCall,at']
    have ends : retires s (.call c (.released emits)) = some old := by simp [retires,at']
    exact sinkReleased calls ends rfl rfl
  | take old at' | pass at' | disconnect old at' | clear old at' | close old at' | allocate at'
  | allocatePort n at' | locate n port ip at' | detect n port at' | detected n port ip at'
  | undetected n port at' | cache n port ip at' | negotiate stage deal pending _ handler p at'
  | discard deal at' | install deal pending answer at' | activate deal pending answer at'
  | spawn deal pending answer at' => exact callAside (by simp [at']) rfl rfl

theorem taskAside {n : Nat} {emits : Emits} (other : (s.tasks n).phase ≠ .disconnected)
    (unreleased : (s.tasks n).phase ≠ .releasing) (input : t.input = s.input)
    (retired : t.retired = s.retired) : SinkStep s (.task n emits) t := by
  refine sinkKept ?_ ?_ input retired
  · unfold sinkCall
    split <;> simp_all
  · simp [retires,unreleased]

theorem openReaderSink (s : Server) (n : Nat) (label : Text) :
    (s.openReader n label).input = s.input ∧ (s.openReader n label).retired = s.retired := by
  unfold openReader
  simp only
  split <;> exact ⟨rfl,rfl⟩

theorem taskSink {n : Nat} {emits : Emits} (stepped : s.stepTask n emits = some t) :
    SinkStep s (.task n emits) t := by
  cases taskStep stepped with
  | interrupt at' =>
    have calls : sinkCall s (.task n emits) = some (.releaseAll emits) := by
      simp [sinkCall,at']
    have ends : retires s (.task n emits) = none := by simp [retires,at']
    exact sinkReleased calls ends rfl rfl
  | release at' =>
    have calls : sinkCall s (.task n emits) = some (.releaseAll emits) := by
      simp [sinkCall,at']
    have ends : retires s (.task n emits) = some n := by simp [retires,at']
    exact sinkReleased calls ends rfl rfl
  | openChannel label at' =>
    have opened := openReaderSink s n (label.getD [])
    exact taskAside (by simp [at']) (by simp [at']) opened.1 opened.2
  | receive ev rest at' | finish at' | refuse at' | pass at' | storeBitrate at' | installSink at'
  | requestKeyframe at' | storeConnected at' | tearDown at' | skip at' | disconnect at'
  | clear at' | vacate at' | close at' => exact taskAside (by simp [at']) (by simp [at']) rfl rfl

theorem readerSink {r : Nat} {emits : Emits} (stepped : s.stepReader r emits = some t) :
    SinkStep s (.reader r emits) t := by
  refine ⟨?_,(readerAside stepped).retired⟩
  cases readerStep stepped with
  | refuse reader data here at' | enter reader data here at' =>
    have quiet : sinkCall s (.reader r emits) = none := by simp [sinkCall,here,injects,at']
    rw [quiet]
    rfl
  | act reader data here at' =>
    have calls : sinkCall s (.reader r emits) =
        (inputOf reader.isControl data).map (fun event => .handle event emits) := by
      simp [sinkCall,here,injects,at']
    rw [calls]
    refine Eq.trans (actInput s reader data emits) ?_
    cases inputOf reader.isControl data <;> rfl

theorem stepSink (stepped : s.step l = some t) : SinkStep s l t := by
  cases l with
  | offer c sdp =>
    cases offerStep stepped with
    | reject | begin => exact ⟨rfl,rfl⟩
  | call c reply => exact callSink stepped
  | event | stop | merge | rtcp =>
    have kept := idleStill rfl stepped
    exact sinkKept rfl rfl kept.input kept.retired
  | channel r ev =>
    exact sinkKept rfl rfl (channelSame stepped).2.1 (channelAside stepped).retired
  | task n emits => exact taskSink stepped
  | reader r emits => exact readerSink stepped

theorem silent (quiet : sinkCall s l = none) : retires s l = none := by
  cases l with
  | offer | event | stop | merge | rtcp | channel | reader => rfl
  | call c reply =>
    cases reply with
    | released emits =>
      cases at' : s.calls c with
      | releasing old => simp [sinkCall,at'] at quiet
      | _ => simp [retires,at']
    | proceeds | fails | detected | timedOut | described => rfl
  | task n emits =>
    have other : (s.tasks n).phase ≠ .releasing := by
      intro at'
      simp [sinkCall,at'] at quiet
    simp [retires,other]

theorem handling {event : InputEvent} {emits : Emits}
    (calls : sinkCall s l = some (.handle event emits)) :
    ∃ r reader, l = .reader r emits ∧ s.readers r = some reader ∧ injects reader = some event := by
  cases l with
  | offer | event | stop | merge | rtcp | channel => contradiction
  | call c reply =>
    cases reply with
    | released emits => cases at' : s.calls c <;> simp [sinkCall,at'] at calls
    | proceeds | fails | detected | timedOut | described => contradiction
  | task n emits => cases at' : (s.tasks n).phase <;> simp [sinkCall,at'] at calls
  | reader r emits' =>
    obtain ⟨event',some',same⟩ := Option.map_eq_some_iff.mp calls
    obtain ⟨reader,here,injected⟩ := Option.bind_eq_some_iff.mp some'
    cases same
    exact ⟨r,reader,rfl,here,injected⟩

theorem activeStep (stepped : s.step l = some t) :
    t.shared.activeSession = s.shared.activeSession ∨ ∃ c reply deal pending answer,
      l = .call c reply ∧ s.calls c = .activating deal pending answer ∧
      t.shared.activeSession = deal.session := by
  cases l with
  | offer c sdp =>
    cases offerStep stepped with
    | reject | begin => exact Or.inl rfl
  | call c reply =>
    rcases (callKeeps stepped).active with same|⟨deal,pending,answer,activating,stored⟩
    · exact Or.inl same
    · exact Or.inr ⟨c,reply,deal,pending,answer,rfl,activating,stored⟩
  | task n emits => exact Or.inl (taskKeeps stepped).active
  | event | stop | merge | rtcp | channel | reader =>
    exact Or.inl (asideKeeps rfl rfl stepped).active

theorem readerBefore (stepped : s.step l = some t) {r : Nat} {reader : Reader}
    (here : t.readers r = some reader) :
    (∃ old, s.readers r = some old ∧ old.session = reader.session) ∨
      ∃ emits, l = .task reader.session emits := by
  have kept (same : t.readers = s.readers) :
      ∃ old, s.readers r = some old ∧ old.session = reader.session :=
    ⟨reader,same ▸ here,rfl⟩
  have moved (moves : Moves s t) : ∃ old, s.readers r = some old ∧ old.session = reader.session := by
    obtain ⟨_,same|⟨q,old,new,before,set,session⟩⟩ := moves
    · exact kept same
    · rw [set,update_apply] at here
      split at here
      · next same =>
        cases Option.some.inj here
        exact ⟨old,same ▸ before,session.symm⟩
      · exact ⟨reader,here,rfl⟩
  cases l with
  | offer c sdp => exact Or.inl (kept (offerKeeps stepped).readers)
  | call c reply => exact Or.inl (kept (callKeeps stepped).readers)
  | event | stop | merge | rtcp => exact Or.inl (kept (idleStill rfl stepped).readers)
  | channel q ev => exact Or.inl (moved (channelMoves stepped))
  | reader q emits => exact Or.inl (moved (readerMoves stepped))
  | task n emits =>
    rcases taskOpens stepped with ⟨same,_⟩|⟨isControl,set,_⟩
    · exact Or.inl (kept same)
    · rw [set,update_apply] at here
      split at here
      · cases Option.some.inj here
        exact Or.inr ⟨emits,rfl⟩
      · exact Or.inl ⟨reader,here,rfl⟩

def Admits (s : Server) (l : Label) (r : Nat) (reader : Reader) : Prop :=
  ∃ emits old data, l = .reader r emits ∧ s.readers r = some old ∧ old.phase = .received data ∧
    (inputOf old.isControl data).isSome = true ∧ reader.session = old.session ∧
    s.shared.activeSession = old.session

theorem injectsBefore (stepped : s.step l = some t) {r : Nat} {reader : Reader}
    (here : t.readers r = some reader) {event : InputEvent} (injected : injects reader = some event) :
    s.readers r = some reader ∨ Admits s l r reader := by
  cases l with
  | offer c sdp => exact Or.inl ((offerKeeps stepped).readers ▸ here)
  | call c reply => exact Or.inl ((callKeeps stepped).readers ▸ here)
  | event | stop | merge | rtcp => exact Or.inl ((idleStill rfl stepped).readers ▸ here)
  | task n emits =>
    rcases taskOpens stepped with ⟨same,_⟩|⟨isControl,set,_⟩
    · exact Or.inl (same ▸ here)
    · rw [set,update_apply] at here
      split at here
      · cases Option.some.inj here
        contradiction
      · exact Or.inl here
  | channel q ev =>
    cases channelStep stepped with
    | ignore => exact Or.inl here
    | deliver | stop =>
      simp only [setReader,update_apply] at here
      split at here
      · cases Option.some.inj here
        contradiction
      · exact Or.inl here
  | reader q emits =>
    cases readerStep stepped with
    | refuse =>
      simp only [setReader,update_apply] at here
      split at here
      · cases Option.some.inj here
        contradiction
      · exact Or.inl here
    | enter old data before received active =>
      simp only [setReader,update_apply] at here
      split at here
      · next same =>
        subst same
        cases Option.some.inj here
        have carried : inputOf old.isControl data = some event := injected
        exact Or.inr ⟨emits,old,data,rfl,before,received,by rw [carried]; rfl,rfl,active⟩
      · exact Or.inl here
    | act =>
      simp only [setReader,update_apply,actReaders] at here
      split at here
      · cases Option.some.inj here
        contradiction
      · exact Or.inl here

structure Apart (s : Server) : Prop where
  ids : Takeover.Ids (view s)
  tracked : s.input.NothingForgotten
  owned : ∀ r reader, s.readers r = some reader → (s.tasks reader.session).phase ≠ .absent
  admitted : ∀ r reader event, s.readers r = some reader → injects reader = some event →
    s.shared.activeSession = reader.session ∧ s.retired reader.session = false
  up : StaysUp s

theorem apartInitial (config : Config) (publicIp : Option Text) :
    Apart (initial config publicIp) where
  ids := (exclusiveInitial config publicIp).ids
  tracked := UinputSink.freshTracks
  owned := fun _ _ here => absurd here (by simp [initial])
  admitted := fun _ _ _ here => absurd here (by simp [initial])
  up := fun _ => ⟨fun _ down => absurd down Held.memEmpty,fun _ down => absurd down Held.memEmpty⟩

theorem trackedStep (apart : Apart s) (sound : s.Sound l) (sunk : SinkStep s l t) :
    t.input.NothingForgotten := by
  rw [sunk.1]
  cases called : sinkCall s l with
  | none => exact apart.tracked
  | some call => exact (UinputSink.callExact apart.tracked call).mpr (sound call called)

theorem ownedStep (apart : Apart s) (stepped : s.step l = some t) (r : Nat) (reader : Reader)
    (here : t.readers r = some reader) : (t.tasks reader.session).phase ≠ .absent := by
  rcases readerBefore stepped here with ⟨old,before,same⟩|⟨emits,working⟩
  · exact presentStep (same ▸ apart.owned r old before) stepped
  · subst working
    exact presentStep (taskHere stepped) stepped

theorem notRetired (undivided : s.Undivided l) (sunk : SinkStep s l t) {r : Nat} {reader : Reader}
    (here : s.readers r = some reader) {event : InputEvent} (injected : injects reader = some event)
    (before : s.retired reader.session = false) : t.retired reader.session = false := by
  rw [sunk.2]
  cases ended : retires s l with
  | none => exact before
  | some m =>
    have other : reader.session ≠ m := by
      intro same
      have none := undivided m ended r reader here same
      rw [injected] at none
      contradiction
    exact (update_of_ne other true s.retired).trans before

theorem admittedStep (apart : Apart s) (separated : s.Separated l) (sunk : SinkStep s l t)
    (stepped : s.step l = some t) (r : Nat) (reader : Reader) (event : InputEvent)
    (here : t.readers r = some reader) (injected : injects reader = some event) :
    t.shared.activeSession = reader.session ∧ t.retired reader.session = false := by
  rcases injectsBefore stepped here injected with before|admits
  · obtain ⟨active,running⟩ := apart.admitted r reader event before injected
    refine ⟨?_,notRetired separated.undivided sunk before injected running⟩
    rcases activeStep stepped with same|⟨c,reply,deal,pending,answer,label,activating,_⟩
    · rw [same]
      exact active
    · subst label
      have relieved := separated.relieved deal pending answer activating
      rw [active,running] at relieved
      contradiction
  · obtain ⟨emits,old,data,label,before,received,carried,same,active⟩ := admits
    subst label
    have running := separated.timely old data before received carried active
    have aside := readerAside stepped
    rw [same,aside.active,aside.retired]
    exact ⟨active,running⟩

theorem upStep (apart : Apart s) (separated : s.Separated l) (sunk : SinkStep s l t)
    (stepped : s.step l = some t) : StaysUp t := by
  intro retired
  cases called : sinkCall s l with
  | none =>
    have ended := silent called
    have input : t.input = s.input := by rw [sunk.1,called]; rfl
    have same : t.retired = s.retired := by rw [sunk.2,ended]; rfl
    rw [input]
    rcases activeStep stepped with active|⟨c,reply,deal,pending,answer,label,activating,_⟩
    · rw [active,same] at retired
      exact apart.up retired
    · subst label
      exact apart.up (separated.relieved deal pending answer activating)
  | some call =>
    cases call with
    | releaseAll emits =>
      have harmless : UinputSink.ReleaseHarmless s.input emits := separated.sound _ called
      rw [sunk.1,called]
      exact UinputSink.releaseAllUp apart.tracked harmless
    | handle event emits =>
      obtain ⟨r,reader,label,here,injected⟩ := handling called
      subst label
      obtain ⟨active,running⟩ := apart.admitted r reader event here injected
      have aside := readerAside stepped
      rw [aside.active,aside.retired,active,running] at retired
      contradiction

theorem apartStep (apart : Apart s) (separated : s.Separated l) (stepped : s.step l = some t) :
    Apart t :=
  have sunk := stepSink stepped
  ⟨idsStep apart.ids stepped,trackedStep apart separated.sound sunk,ownedStep apart stepped,
    admittedStep apart separated sunk stepped,upStep apart separated sunk stepped⟩

theorem apartIsolated (apart : Apart s) (relieved : s.Relieved l) : Isolated s l := by
  apply And.intro
  · intro c reply deal pending answer label activating
    subst label
    have fresh := apart.ids.fresh c deal.session (by simp [view,activating,claimOf,Takeover.Claim.tenant])
    exact ⟨apart.up (relieved deal pending answer activating),tenantAbsent.mp fresh.2.2⟩
  · intro r emits reader event _ here injected
    exact apart.admitted r reader event here injected

theorem isolated (config : Config) (publicIp : Option Text) (ls : List Label)
    (separated : Runs.Allowed step Separated (initial config publicIp) ls) :
    Runs.Allowed step Isolated (initial config publicIp) ls ∧
      Runs.Always step StaysUp (initial config publicIp) ls :=
  have keep := fun (_ : Server) (_ : Label) (_ : Server) apart separated stepped =>
    apartStep apart separated stepped
  ⟨Runs.allowedImplies Apart (apartInitial config publicIp) keep
      (fun _ _ apart separated => apartIsolated apart separated.relieved) separated,
    Runs.allowedAlways Apart (apartInitial config publicIp) keep (fun _ apart => apart.up)
      separated⟩

/- A call stores `active_session` only while no other call has still to release the input for
the session that is active until then. -/
def Handover (s : Server) : Label → Prop
  | .call c _ => ∀ deal pending answer, s.calls c = .activating deal pending answer → ∀ d,
      s.calls d ≠ .disconnecting s.shared.activeSession ∧
      s.calls d ≠ .clearing s.shared.activeSession ∧ s.calls d ≠ .releasing s.shared.activeSession
  | _ => True

theorem claimHolds {p : Phase} {old : Nat} (holds : (claimOf p).holds old) :
    p = .disconnecting old ∨ p = .clearing old ∨ p = .releasing old := by
  cases p <;> simp_all [claimOf,Takeover.Claim.holds]

theorem handedRelieved (inv : Takeover.Exclusive (view s)) (handed : Takeover.Handed (view s))
    (handover : s.Handover l) : s.Relieved l := by
  cases l with
  | call c reply =>
    intro deal pending answer activating
    refine Takeover.activeReleased (n := deal.session) inv handed (c := c)
      (by simp [view,activating,claimOf]) (fun d holds => ?_)
    have none := handover deal pending answer activating d
    rcases claimHolds holds with flag|sink|held
    · exact none.1 flag
    · exact none.2.1 sink
    · exact none.2.2 held
  | offer | event | stop | merge | task | rtcp | channel | reader => exact trivial

/- Where calls keep out of each other's way, every session has released the input at its end
before the next one becomes active. -/
theorem orderlyRelieved (config : Config) (publicIp : Option Text) (ls : List Label)
    (orderly : Runs.Allowed step (fun s l => s.Orderly l ∧ s.Handover l)
      (initial config publicIp) ls) :
    Runs.Allowed step Relieved (initial config publicIp) ls :=
  Runs.allowedImplies (fun s => Takeover.Exclusive (view s) ∧ Takeover.Handed (view s))
    ⟨exclusiveInitial config publicIp,handedInitial config publicIp⟩
    (fun _ _ _ inv permitted stepped => ⟨exclusiveStep inv.1 permitted.1 stepped,
      handedStep inv.2 permitted.1 stepped⟩)
    (fun _ _ inv permitted => handedRelieved inv.1 inv.2 permitted.2) orderly

end Steps

def separatedCheck (s : Server) (l : Label) : Bool :=
  (match sinkCall s l with
    | some (.handle _ emits) | some (.releaseAll emits) => emits.keyboard && emits.pointer
    | none => true) &&
  (match l with
    | .call c _ => match s.calls c with
      | .activating _ _ _ => s.retired s.shared.activeSession
      | _ => true
    | .reader r _ => match s.readers r with
      | some ⟨n,isControl,.received data⟩ => (inputOf isControl data).isNone ||
          s.shared.activeSession != n || !s.retired n
      | _ => true
    | _ => true) &&
  match retires s l with
    | some m => (List.range s.nextReader).all (fun r => (s.readers r).all (fun reader =>
        reader.session != m || (injects reader).isNone))
    | none => true

theorem separatedChecked {k : Nat} {s : Server} {l : Label} (bounded : Bounded k s)
    (checked : separatedCheck s l = true) : s.Separated l := by
  simp only [separatedCheck,Bool.and_eq_true] at checked
  obtain ⟨⟨sound,tested⟩,drained⟩ := checked
  refine ⟨fun call called => ?_,?_,fun m ended r reader here same => ?_,?_⟩
  · rw [called] at sound
    cases call with
    | handle event emits =>
      simp only [Bool.and_eq_true] at sound
      exact UinputSink.harmlessSent sound.1 sound.2
    | releaseAll emits =>
      simp only [Bool.and_eq_true] at sound
      exact UinputSink.harmlessReleased sound.1 sound.2
  · cases l with
    | call c reply =>
      intro deal pending answer activating
      simpa [activating] using tested
    | offer | event | stop | merge | task | rtcp | channel | reader => exact trivial
  · rw [ended] at drained
    have known : r < s.nextReader := by
      by_contra above
      rw [bounded.readers r (by omega)] at here
      contradiction
    have none := List.all_eq_true.mp drained r (List.mem_range.mpr known)
    simpa [here,same] using none
  · cases l with
    | reader r emits =>
      intro reader data here received carried active
      obtain ⟨n,isControl,phase⟩ := reader
      subst received
      simp only [here,Bool.or_eq_true] at tested
      rcases tested with (none|other)|running
      · simp_all
      · simp_all
      · simpa using running
    | offer | call | event | stop | merge | task | rtcp | channel => exact trivial

def openControl (n : Nat) : List Label :=
  [.event n (.dataChannel (some controlChannel)),.merge n,.task n .succeed,.task n .succeed]

def deliver (r : Nat) (m : ControlMessage) : List Label :=
  [.channel r (.onMessage m.encode),.reader r .succeed,.reader r .succeed]

def heldThrough : List Label :=
  negotiate 0 ++ conclude 0 ++ connect 1 ++ openControl 1 ++ deliver 0 (.key .keyA true) ++
    replace 1 ++ conclude 1 ++ connect 2

theorem isolatedReplaced : (Runs.Allowed step Isolated located heldThrough ∧
      Runs.Always step StaysUp located heldThrough) ∧
    (Runs.run step located heldThrough).map (fun s => s.shared.activeSession) = some 2 := by
  refine ⟨isolated _ _ _ ?_,by decide⟩
  exact Runs.checkAllowed (Bounded 2) (fun s l => callersBelow 2 l && separatedCheck s l)
    (boundedInitial 2 _ _)
    (fun _ _ _ inv checked stepped =>
      boundedStep inv (Bool.and_eq_true_iff.mp checked).1 stepped)
    (fun _ _ inv checked => separatedChecked inv (Bool.and_eq_true_iff.mp checked).2) (by decide)

/- The new call has released the input of the old session and negotiates. The old session is
still the active one, and a message of its client presses a key. -/
def latePress : List Label :=
  negotiate 0 ++ conclude 0 ++ connect 1 ++ openControl 1 ++ replace 1 ++
    deliver 0 (.key .keyA true) ++ [.call 1 .proceeds]

theorem heldAtHandover : ∃ s, Runs.run step located latePress = some s ∧
    ¬ Isolated s (.call 1 .proceeds) := by
  have facts : (Runs.run step located latePress).map (fun s =>
      (s.calls 1,s.input.keyboard.down.items)) =
    some (.activating ⟨2,50001,some "8.8.4.4".toList⟩ []
      "a=candidate:1 1 udp 1 8.8.4.4 5 typ host
".toList,[.keyA]) := by decide
  obtain ⟨s,reached,same⟩ := Option.map_eq_some_iff.mp facts
  simp only [Prod.mk.injEq] at same
  refine ⟨s,reached,fun isolated => ?_⟩
  have up := (isolated.1 1 .proceeds _ _ _ rfl same.1).1
  refine up.1 .keyA ?_
  have member : Evdev.KeyCode.keyA ∈ s.input.keyboard.down.items := by rw [same.2]; simp
  exact member

end Server
end Vmdesk
