import Vmdesk.ServiceBitrate

/-! The frames that reach a session: in the order in which they were captured, and none before the
session has seen its connection come up while it was the active one. -/
namespace Vmdesk
open LittleEndian (Bytes)

namespace Pipeline

def EncodePhase.time : EncodePhase → Option UInt64
  | .swapping captured => some captured.ptsMs
  | .creating _ ptsMs _ | .tuning _ ptsMs _ | .encoding _ ptsMs _ => some ptsMs
  | .delivering _ out _ | .sending _ _ out _ => some out.ptsMs
  | .receiving | .rearming _ | .returning _ | .gone => none

def CapturePhase.time : CapturePhase → Option UInt64
  | .offering _ captured => some captured.ptsMs
  | .checking | .pacing | .locating | .shooting | .deciding _ | .recycling _ _ | .gone => none

def times (p : Pipeline) (channel : Nat) : List UInt64 :=
  (p.frames channel).map (fun out => out.ptsMs) ++ (p.encode.phase.time.toList ++
    ((p.slot.map (fun captured => captured.ptsMs)).toList ++ p.capture.phase.time.toList))

def stamp (p : Pipeline) (now : Nat) : Nat := (now - p.epoch)/1000000

def Stamps (p : Pipeline) (input : EncodeInput) : Prop := ∀ out frame ptsMs force,
  input = .encoded (.output out) → p.encode.phase = .encoding frame ptsMs force → out.ptsMs = ptsMs

section Times
variable {xxh3 : Bytes → UInt64} {p q : Pipeline}

theorem timesKept (frames : q.frames = p.frames) (encode : q.encode.phase.time = p.encode.phase.time)
    (slot : q.slot = p.slot) (capture : q.capture.phase.time = p.capture.phase.time) (channel : Nat) :
    (q.times channel).Sublist (p.times channel) := by
  unfold times
  rw [frames,encode,slot,capture]

theorem timesFewer (frames : q.frames = p.frames)
    (encode : q.encode.phase.time.toList.Sublist p.encode.phase.time.toList)
    (slot : (q.slot.map (fun captured => captured.ptsMs)).toList.Sublist
      (p.slot.map (fun captured => captured.ptsMs)).toList)
    (capture : q.capture.phase.time.toList.Sublist p.capture.phase.time.toList) (channel : Nat) :
    (q.times channel).Sublist (p.times channel) := by
  unfold times
  rw [frames]
  exact (List.Sublist.refl _).append (encode.append (slot.append capture))

theorem captureTimes {input : CaptureInput} (stepped : CaptureStep xxh3 p input q) :
    (∀ channel, (q.times channel).Sublist (p.times channel)) ∨
    ∃ now, input = .clock now ∧
      ∀ channel, q.times channel = p.times channel ++ [UInt64.ofNat (p.stamp now)] := by
  cases stepped with
  | idle now at' => exact Or.inl (timesKept rfl rfl rfl (by simp [at']))
  | begin now at' => exact Or.inl (timesKept rfl rfl rfl (by simp [at',CapturePhase.time]))
  | pace late again phase nextTick at' next =>
    refine Or.inl (timesKept rfl rfl rfl ?_)
    rcases next with same|same <;> simp [same,at',CapturePhase.time]
  | locate found phase at' next =>
    refine Or.inl (timesKept rfl rfl rfl ?_)
    rcases next with same|same <;> simp [same,at',CapturePhase.time]
  | fail at' | take image frame at' | fault image at' | skip hash now at' | offer hash now at' =>
    exact Or.inl (timesKept rfl rfl rfl (by simp [at',captureAt,CapturePhase.time]))
  | stop hash captured now at' =>
    exact Or.inl (timesFewer rfl (List.Sublist.refl _) (List.Sublist.refl _) (List.nil_sublist _))
  | busy hash captured now at' =>
    exact Or.inl (timesFewer rfl (List.Sublist.refl _) (List.Sublist.refl _) (List.nil_sublist _))
  | accept hash captured now at' running room =>
    refine Or.inl (fun channel => ?_)
    simp [times,room,at',CapturePhase.time]
  | recycle hash keyframe now at' =>
    refine Or.inr ⟨now,rfl,fun channel => ?_⟩
    simp [times,at',CapturePhase.time,stamp]

theorem turnTimes {input : EncodeInput} (stamps : p.Stamps input) (stepped : TurnStep p input q) :
    ∀ channel, (q.times channel).Sublist (p.times channel) := by
  cases stepped with
  | discard captured at' slot =>
    exact timesFewer rfl (List.Sublist.refl _) (List.nil_sublist _) (List.Sublist.refl _)
  | take captured at' slot =>
    intro channel
    simp [times,encodeAt,at',slot,EncodePhase.time]
  | stop at' | uncreated frame ptsMs force at' | skip frame ptsMs force at'
  | fail frame ptsMs force at' =>
    exact timesFewer rfl (List.nil_sublist _) (List.Sublist.refl _) (List.Sublist.refl _)
  | recreate captured at' | keep captured at' | create frame ptsMs force at'
  | tune frame ptsMs force ok bitrate at' | deliver frame out force target at' | rearm frame at'
  | give frame spare at' =>
    exact timesKept rfl (by simp [at',encodeAt,EncodePhase.time]) rfl rfl
  | output frame ptsMs force out at' =>
    have same := stamps out frame ptsMs force rfl at'
    exact timesKept rfl (by simp [at',encodeAt,EncodePhase.time,same]) rfl rfl
  | unheard frame out force at' sink phase next =>
    refine timesFewer rfl ?_ (List.Sublist.refl _) (List.Sublist.refl _)
    rcases next with same|same <;> exact same ▸ List.nil_sublist _
  | send frame target out force at' =>
    intro channel
    obtain ⟨capture,encode,slot,_⟩ := sendKeeps p target out force
    have left : (p.send target out force).frames channel = p.frames channel ∨
        (p.send target out force).frames channel = p.frames channel ++ [out] := by
      unfold send
      split
      · exact Or.inl rfl
      · by_cases here : channel = target
        · exact Or.inr (by simp [here])
        · exact Or.inl (by simp [Function.update_of_ne here])
    have times' : ((p.send target out force).encodeAt (.returning frame)).times channel =
        ((p.send target out force).frames channel).map (fun out => out.ptsMs) ++
          ((p.slot.map (fun captured => captured.ptsMs)).toList ++ p.capture.phase.time.toList) := by
      simp [times,encodeAt,EncodePhase.time,slot,capture]
    rw [times']
    rcases left with same|same
    · rw [same]
      simp [times,at',EncodePhase.time]
    · rw [same]
      simp [times,at',EncodePhase.time]

theorem captureEpoch {input : CaptureInput} (stepped : CaptureStep xxh3 p input q) :
    q.epoch = p.epoch := by
  cases stepped <;> rfl

theorem turnEpoch {input : EncodeInput} (stepped : TurnStep p input q) : q.epoch = p.epoch := by
  cases stepped with
  | send frame channel out force =>
    unfold send
    split <;> rfl
  | discard | take | stop | recreate | keep | create | uncreated | tune | output | skip | fail
  | deliver | unheard | rearm | give => rfl

theorem writeTimes (p : Pipeline) (w : Shared.Write) :
    (p.stepWrite w).epoch = p.epoch ∧ ∀ channel, (p.stepWrite w).times channel = p.times channel := by
  cases w <;> exact ⟨rfl,fun _ => rfl⟩

end Times
end Pipeline

namespace Service
open Pipeline (stamp)

/- The clock of the capture thread does not go back, and its milliseconds fit into a word. -/
def Timed (s : Service) (l : Label) : Prop := ∀ now, l = .capture (.clock now) →
  s.clock ≤ now ∧ s.pipeline.stamp now < 2^64

structure Ordered (s : Service) : Prop where
  sorted : ∀ channel, (s.pipeline.times channel).Pairwise (fun a b => a ≤ b)
  past : ∀ channel, ∀ x ∈ s.pipeline.times channel, x.toNat ≤ s.pipeline.stamp s.clock

section Order
variable {xxh3 : Bytes → UInt64} {s t : Service} {l : Label}

theorem orderedInitial (config : Config) (publicIp : Option Text) (epoch : Nat) :
    Ordered (initial config publicIp epoch) := by
  have none' (channel : Nat) : (initial config publicIp epoch).pipeline.times channel = [] := rfl
  refine ⟨fun channel => ?_,fun channel x inside => ?_⟩
  · rw [none' channel]
    exact List.Pairwise.nil
  · rw [none' channel] at inside
    cases inside

theorem stampLater {p q : Pipeline} (epoch : q.epoch = p.epoch) {a b : Nat} (later : a ≤ b) :
    p.stamp a ≤ q.stamp b := by
  unfold stamp
  rw [epoch]
  exact Nat.div_le_div_right (by omega)

theorem orderedFewer (ordered : Ordered s) (epoch : t.pipeline.epoch = s.pipeline.epoch)
    (later : s.clock ≤ t.clock)
    (fewer : ∀ channel, (t.pipeline.times channel).Sublist (s.pipeline.times channel)) :
    Ordered t :=
  ⟨fun channel => (ordered.sorted channel).sublist (fewer channel),
    fun channel x inside => (ordered.past channel x ((fewer channel).subset inside)).trans
      (stampLater epoch later)⟩

theorem orderedCapture (ordered : Ordered s) {now : Nat} (epoch : t.pipeline.epoch = s.pipeline.epoch)
    (clock : t.clock = now) (later : s.clock ≤ now) (fits : s.pipeline.stamp now < 2^64)
    (more : ∀ channel, t.pipeline.times channel =
      s.pipeline.times channel ++ [UInt64.ofNat (s.pipeline.stamp now)]) : Ordered t := by
  have value : (UInt64.ofNat (s.pipeline.stamp now)).toNat = s.pipeline.stamp now :=
    UInt64.toNat_ofNat_of_lt' fits
  have before (channel : Nat) (x : UInt64) (inside : x ∈ s.pipeline.times channel) :
      x.toNat ≤ s.pipeline.stamp now :=
    (ordered.past channel x inside).trans (stampLater rfl later)
  refine ⟨fun channel => ?_,fun channel x inside => ?_⟩
  · rw [more,List.pairwise_append]
    refine ⟨ordered.sorted channel,List.pairwise_singleton _ _,fun x inside y last => ?_⟩
    rw [List.mem_singleton.mp last,UInt64.le_iff_toNat_le,value]
    exact before channel x inside
  · have same : t.pipeline.stamp t.clock = s.pipeline.stamp now := by
      unfold stamp
      rw [clock,epoch]
    rw [more] at inside
    rw [same]
    rcases List.mem_append.mp inside with old|new
    · exact before channel x old
    · rw [List.mem_singleton.mp new,value]

theorem orderedStep (ordered : Ordered s) (timed : s.Timed l) (stepped : s.step xxh3 l = some t) :
    Ordered t := by
  have turned {input : Pipeline.EncodeInput} {p : Pipeline} (stamps : s.pipeline.Stamps input)
      (moved : Pipeline.TurnStep s.pipeline input p) (same : t.pipeline = p)
      (clock : t.clock = s.clock) : Ordered t := by
    subst same
    exact orderedFewer ordered (Pipeline.turnEpoch moved) clock.ge (Pipeline.turnTimes stamps moved)
  cases stepCases stepped with
  | session l server moved =>
    cases s.server.wrote l with
    | none => exact ⟨ordered.sorted,ordered.past⟩
    | some w =>
      obtain ⟨epoch,times⟩ := Pipeline.writeTimes s.pipeline w
      refine orderedFewer ordered epoch (Nat.le_refl _) (fun channel => ?_)
      rw [Option.elim_some,times]
  | drop channel => exact ⟨ordered.sorted,ordered.past⟩
  | capture input p moved =>
    have epoch := Pipeline.captureEpoch moved
    rcases Pipeline.captureTimes moved with fewer|⟨now,same,more⟩
    · refine orderedFewer ordered epoch ?_ fewer
      cases input with
      | clock now => exact (timed now rfl).1
      | paced | located | failed | taken => exact Nat.le_refl _
    · subst same
      obtain ⟨later,fits⟩ := timed now rfl
      exact orderedCapture ordered epoch rfl later fits more
  | turn p moved =>
    exact turned (fun out frame ptsMs force same => by cases same) moved rfl rfl
  | create rc null initialized frame ptsMs force at' =>
    exact orderedFewer ordered rfl (Nat.le_refl _)
      (Pipeline.timesKept rfl (by simp [follow,at',Pipeline.EncodePhase.time]) rfl rfl)
  | uncreated rc null initialized frame ptsMs force at' =>
    exact orderedFewer ordered rfl (Nat.le_refl _) (Pipeline.timesFewer rfl (List.nil_sublist _)
      (List.Sublist.refl _) (List.Sublist.refl _))
  | tune outcomes e e' p present moved =>
    exact turned (fun out frame ptsMs force same => by cases same) moved rfl rfl
  | encode rc info e frame ptsMs force p present at' moved =>
    refine turned (fun out frame' ptsMs' force' made at'' => ?_) moved rfl rfl
    cases at'.symm.trans at''
    exact OpenH264Encoder.encodedTime (Pipeline.EncodeInput.encoded.inj made)

end Order

theorem framesOrdered (xxh3 : Bytes → UInt64) (config : Config) (publicIp : Option Text) (epoch : Nat)
    (ls : List Label) {s : Service}
    (timed : Runs.Allowed (step xxh3) Timed (initial config publicIp epoch) ls)
    (reached : Runs.run (step xxh3) (initial config publicIp epoch) ls = some s) (channel : Nat) :
    (s.pipeline.frames channel).Pairwise (fun f g => f.ptsMs ≤ g.ptsMs) := by
  have ordered : Ordered s := Runs.runInvariant Ordered (orderedInitial config publicIp epoch)
    (fun _ _ _ ordered timed stepped => orderedStep ordered timed stepped) timed reached
  have sorted := ordered.sorted channel
  rw [Pipeline.times,List.pairwise_append,List.pairwise_map] at sorted
  exact sorted.1

def twoFrames : List Label := arrives ++ shoots true 5000000 ++ codes true [] ++
  [.session (.rtcp 1 [.pictureLossIndication])] ++ shoots false 45000000 ++ codes false []

def timedCheck (s : Service) : Label → Bool
  | .capture (.clock now) => s.clock ≤ now && s.pipeline.stamp now < 2^64
  | _ => true

theorem timedChecked {s : Service} {l : Label} (checked : timedCheck s l = true) : s.Timed l := by
  intro now same
  subst same
  simpa [timedCheck] using checked

theorem framesOrderedTwo : ∃ s,
    Runs.run (step (fun _ => 0)) (initial {} (some "8.8.4.4".toList) 0) twoFrames = some s ∧
    (s.pipeline.frames 1).map (fun f => f.ptsMs) = [5,45] ∧
    (s.pipeline.frames 1).Pairwise (fun f g => f.ptsMs ≤ g.ptsMs) := by
  have facts : (Runs.run (step (fun _ => 0)) (initial {} (some "8.8.4.4".toList) 0) twoFrames).map
      (fun s => (s.pipeline.frames 1).map (fun f => f.ptsMs)) = some [5,45] := by decide +kernel
  obtain ⟨s,reached,times⟩ := Option.map_eq_some_iff.mp facts
  refine ⟨s,reached,times,framesOrdered _ _ _ _ _ ?_ reached 1⟩
  exact Runs.checkAllowed (fun _ => True) timedCheck trivial (fun _ _ _ _ _ _ => trivial)
    (fun _ _ _ checked => timedChecked checked) (by decide +kernel)

end Service

namespace Server
open Function Session

def Admitted (s : Server) (n : Nat) : Prop := (s.tasks n).connected = true ∨
  (s.tasks n).phase = .storingBitrate ∨ (s.tasks n).phase = .installingSink ∨
  (s.tasks n).phase = .requestingKeyframe ∨ (s.tasks n).phase = .storingConnected

def NotYet (s : Server) : Prop := ∀ n, (s.tasks n).phase = .absent → (s.tasks n).connected = false

section Admission
variable {s t : Server} {l : Label} {n : Nat}

theorem admittedHere (notYet : s.NotYet) (admitted : s.Admitted n) : (s.tasks n).phase ≠ .absent := by
  intro absent
  rcases admitted with connected|at'|at'|at'|at'
  · rw [notYet n absent] at connected
    contradiction
  all_goals simp [absent] at at'

theorem taskAdmitted {emits : Emits} (stepped : s.stepTask n emits = some t) :
    (s.Admitted n → t.Admitted n) ∧
    (t.Admitted n → s.Admitted n ∨ (s.tasks n).phase = .connecting ∧ s.shared.activeSession = n) := by
  have stays {u : Server} {p : TaskPhase} (tasks : u.tasks n = s.tasks n)
      (neither : p ≠ .storingBitrate ∧ p ≠ .installingSink ∧ p ≠ .requestingKeyframe ∧
        p ≠ .storingConnected) (inside : s.Admitted n → (s.tasks n).connected = true) :
      (s.Admitted n → (u.setTask n p).Admitted n) ∧
      ((u.setTask n p).Admitted n → s.Admitted n ∨
        (s.tasks n).phase = .connecting ∧ s.shared.activeSession = n) := by
    unfold Admitted at inside ⊢
    rw [setTaskSelf,tasks]
    refine ⟨fun admitted => Or.inl (inside admitted),fun admitted => ?_⟩
    rcases admitted with connected|at'|at'|at'|at'
    · exact Or.inl (Or.inl connected)
    · exact absurd at' neither.1
    · exact absurd at' neither.2.1
    · exact absurd at' neither.2.2.1
    · exact absurd at' neither.2.2.2
  cases taskStep stepped with
  | receive ev rest at' =>
    refine stays rfl ?_ (by simp [Admitted,at'])
    cases ev with
    | connection state => cases state <;> simp [received]
    | gathering | dataChannel => simp [received]
  | pass at' active =>
    exact ⟨fun _ => by simp [Admitted],fun _ => Or.inr ⟨at',active⟩⟩
  | storeBitrate at' | installSink at' | requestKeyframe at' | storeConnected at' =>
    exact ⟨fun _ => by simp [Admitted],fun _ => Or.inl (by simp [Admitted,at'])⟩
  | openChannel label at' =>
    refine stays ?_ (by simp) (by simp [Admitted,at'])
    unfold openReader
    simp only
    split <;> rfl
  | finish at' | refuse at' | interrupt at' | tearDown at' | skip at' | disconnect at' | clear at'
  | release at' | vacate at' | close at' => exact stays rfl (by simp) (by simp [Admitted,at'])

theorem admittedSame (same : t.tasks n = s.tasks n) : t.Admitted n ↔ s.Admitted n := by
  unfold Admitted
  rw [same]

theorem callTask {c : Nat} (ids : Takeover.Ids (view s)) (kept : CallKeeps s c t) :
    t.tasks n = s.tasks n ∨ (s.tasks n).phase = .absent ∧ t.tasks n = ⟨.waiting,false⟩ := by
  rcases kept.tasks with same|⟨deal,pending,answer,spawning,same⟩
  · exact Or.inl (congrFun same n)
  · by_cases here : n = deal.session
    · have fresh := (ids.fresh c deal.session (by simp [view,spawning,claimOf,Takeover.Claim.tenant])).2.2
      refine Or.inr ⟨?_,by rw [same,here,update_self]⟩
      rw [here]
      exact tenantAbsent.mp fresh
    · exact Or.inl (by rw [same,update_of_ne here])

theorem admittedStep' (ids : Takeover.Ids (view s)) (notYet : s.NotYet) (stepped : s.step l = some t) :
    (s.Admitted n → t.Admitted n) ∧
    (t.Admitted n → s.Admitted n ∨ (∃ emits, l = .task n emits) ∧
      (s.tasks n).phase = .connecting ∧ s.shared.activeSession = n) := by
  cases called : caller l with
  | some c =>
    rcases callTask ids (callerKeeps called stepped) with same|⟨absent,fresh⟩
    · exact ⟨(admittedSame same).mpr,fun admitted => Or.inl ((admittedSame same).mp admitted)⟩
    · refine ⟨fun admitted => absurd absent (admittedHere notYet admitted),fun admitted => ?_⟩
      unfold Admitted at admitted
      rw [fresh] at admitted
      simp at admitted
  | none =>
    cases works : worker l with
    | none =>
      have same := congrFun (asideKeeps called works stepped).tasks n
      exact ⟨(admittedSame same).mpr,fun admitted => Or.inl ((admittedSame same).mp admitted)⟩
    | some m =>
      by_cases own : n = m
      · subst own
        cases l with
        | task k emits =>
          cases Option.some.inj works
          obtain ⟨stays,comes⟩ := taskAdmitted stepped
          refine ⟨stays,fun admitted => ?_⟩
          rcases comes admitted with before|now
          · exact Or.inl before
          · exact Or.inr ⟨⟨emits,rfl⟩,now⟩
        | offer | call | event | stop | merge | rtcp | channel | reader => contradiction
      · have same := (workerKeeps works stepped).others n own
        exact ⟨(admittedSame same).mpr,fun admitted => Or.inl ((admittedSame same).mp admitted)⟩

theorem notYetStep (ids : Takeover.Ids (view s)) (notYet : s.NotYet) (stepped : s.step l = some t) :
    t.NotYet := by
  intro n absent
  have before : (s.tasks n).phase = .absent := by
    by_contra present
    exact presentStep present stepped absent
  by_contra connected
  have admitted : t.Admitted n := Or.inl (by simpa using connected)
  rcases (admittedStep' ids notYet stepped).2 admitted with earlier|⟨_,at',_⟩
  · exact absurd before (admittedHere notYet earlier)
  · rw [before] at at'
    contradiction

end Admission
end Server

namespace Pipeline

def Served (p : Pipeline) (channel : Nat) : Prop := p.shared.sink = some channel ∨
  (∃ frame out force, p.encode.phase = .sending frame channel out force) ∨ p.frames channel ≠ []

section Serving
variable {xxh3 : Bytes → UInt64} {p q : Pipeline} {channel : Nat}

theorem captureServed {input : CaptureInput} (stepped : CaptureStep xxh3 p input q)
    (served : q.Served channel) : p.Served channel := by
  cases stepped <;> exact served

theorem turnServed {input : EncodeInput} (stepped : TurnStep p input q) (served : q.Served channel) :
    p.Served channel := by
  have aside {r : Pipeline} (served : r.Served channel) (sink : r.shared.sink = p.shared.sink)
      (frames : r.frames = p.frames) (at' : ∀ frame out force,
        r.encode.phase = .sending frame channel out force → p.shared.sink = some channel) :
      p.Served channel := by
    rcases served with here|⟨frame,out,force,sending⟩|filled
    · exact Or.inl (sink.symm.trans here)
    · exact Or.inl (at' frame out force sending)
    · exact Or.inr (Or.inr (frames ▸ filled))
  cases stepped with
  | discard captured at' slot =>
    refine aside served rfl rfl (fun frame out force sending => ?_)
    exact absurd (at'.symm.trans sending) (by simp)
  | take captured at' slot | stop at' slot | recreate captured at'
  | keep captured at' | create frame ptsMs force at' | uncreated frame ptsMs force at'
  | tune frame ptsMs force ok bitrate at' | output frame ptsMs force out at'
  | skip frame ptsMs force at' | fail frame ptsMs force at' | rearm frame at'
  | give frame spare at' =>
    exact aside served rfl rfl (by simp [encodeAt])
  | deliver frame out force target at' sink =>
    refine aside served rfl rfl (fun frame' out' force' sending => ?_)
    obtain ⟨_,same,_,_⟩ := EncodePhase.sending.inj sending
    exact sink.trans (congrArg some same)
  | unheard frame out force at' sink phase next =>
    refine aside served rfl rfl (fun frame' out' force' sending => ?_)
    rcases next with same|same <;> exact absurd (same.symm.trans sending) (by simp)
  | send frame target out force at' =>
    have sink := congrArg Shared.sink (sendKeeps p target out force).2.2.2.2
    rcases served with here|⟨frame',out',force',sending⟩|filled
    · exact Or.inl (sink.symm.trans here)
    · cases sending
    · by_cases own : channel = target
      · subst own
        exact Or.inr (Or.inl ⟨frame,out,force,at'⟩)
      · refine Or.inr (Or.inr ?_)
        simp only [encodeAt,send] at filled
        split at filled
        · exact filled
        · simpa [Function.update_of_ne own] using filled

theorem captureActive {input : CaptureInput} (stepped : CaptureStep xxh3 p input q) :
    q.shared.activeSession = p.shared.activeSession := by
  cases stepped <;> rfl

theorem turnActive {input : EncodeInput} (stepped : TurnStep p input q) :
    q.shared.activeSession = p.shared.activeSession := by
  cases stepped with
  | send frame target out force at' =>
    exact congrArg Shared.activeSession (sendKeeps p target out force).2.2.2.2
  | discard | take | stop | recreate | keep | create | uncreated | tune | output | skip | fail
  | deliver | unheard | rearm | give => rfl

theorem writeServed {w : Shared.Write} (served : (p.stepWrite w).Served channel) :
    p.Served channel ∨ w = .install channel := by
  cases w with
  | install n =>
    rcases served with here|later
    · exact Or.inr (congrArg Shared.Write.install (Option.some.inj here))
    · exact Or.inl (Or.inr later)
  | clear =>
    rcases served with here|later
    · cases here
    · exact Or.inl (Or.inr later)
  | connected | force | bitrate | active => exact Or.inl served

end Serving
end Pipeline

namespace Service
open Server (Admitted view)

structure Fed (s : Service) : Prop where
  joined : Joined s
  ids : Takeover.Ids (view s.server)
  notYet : s.server.NotYet
  served : ∀ n, s.pipeline.Served n → s.server.Admitted n

section Feeding
variable {xxh3 : Bytes → UInt64} {s t : Service} {l : Label} {n : Nat}

theorem fedInitial (config : Config) (publicIp : Option Text) (epoch : Nat) :
    Fed (initial config publicIp epoch) where
  joined := joinedInitial config publicIp epoch
  ids := (Server.exclusiveInitial config publicIp).ids
  notYet := fun _ _ => rfl
  served := fun n served => by
    rcases served with here|⟨frame,out,force,sending⟩|filled
    · cases here
    · cases sending
    · exact absurd rfl filled

theorem installWrote {server : Server} {l : Session.Label} (wrote : server.wrote l = some (.install n)) :
    server.Admitted n := by
  cases l with
  | task m emits =>
    simp only [Server.wrote] at wrote
    split at wrote
    case h_2 at' =>
      obtain same := Shared.Write.install.inj (Option.some.inj wrote)
      exact same ▸ Or.inr (Or.inr (Or.inl at'))
    all_goals simp at wrote
  | call c reply =>
    simp only [Server.wrote] at wrote
    split at wrote <;> simp at wrote
  | rtcp m packets =>
    simp only [Server.wrote] at wrote
    split at wrote <;> simp at wrote
  | reader r emits =>
    simp only [Server.wrote,Option.bind_eq_some_iff] at wrote
    obtain ⟨reader,_,made⟩ := wrote
    split at made <;> simp at made
  | offer | event | stop | merge | channel => cases wrote

theorem fedSession {l : Session.Label} {server : Server} (fed : Fed s)
    (moved : s.server.step l = some server) (served : Pipeline.Served
      ((s.server.wrote l).elim s.pipeline s.pipeline.stepWrite) n) : server.Admitted n := by
  have stays : s.server.Admitted n → server.Admitted n :=
    (Server.admittedStep' fed.ids fed.notYet moved).1
  cases write : s.server.wrote l with
  | none =>
    rw [write] at served
    exact stays (fed.served n served)
  | some w =>
    rw [write] at served
    rcases Pipeline.writeServed served with before|same
    · exact stays (fed.served n before)
    · exact stays (installWrote (same ▸ write))

theorem fedFollow (fed : Fed s) {p : Pipeline} (joined : Joined t)
    (server : t.server = s.server.setShared p.shared) (pipeline : t.pipeline = p)
    (active : p.shared.activeSession = s.pipeline.shared.activeSession)
    (served : ∀ n, p.Served n → s.pipeline.Served n) : Fed t := by
  have same : p.shared.activeSession = s.server.shared.activeSession :=
    active.trans (congrArg Shared.activeSession fed.joined.shared)
  have active' : (view t.server).active = (view s.server).active := by
    rw [server]
    exact same
  refine ⟨joined,?_,?_,?_⟩
  · have known : (view t.server).active < s.server.nextSession := active' ▸ fed.ids.activeKnown
    have idle : ∀ c, ((view s.server).claims c).tenant = some (view t.server).active →
        (view s.server).claims c = .activated (view t.server).active := active' ▸ fed.ids.idle
    rw [server] at known idle ⊢
    exact ⟨fed.ids.positive,fed.ids.fresh,fed.ids.apart,fed.ids.known,known,idle⟩
  · rw [server]
    exact fed.notYet
  · intro n has
    rw [pipeline] at has
    rw [server]
    exact fed.served n (served n has)

theorem fedStep (fed : Fed s) (stepped : s.step xxh3 l = some t) : Fed t := by
  have joined := joinedStep fed.joined stepped
  have turned {input : Pipeline.EncodeInput} {p : Pipeline} (moved : Pipeline.TurnStep s.pipeline input p)
      (server : t.server = s.server.setShared p.shared) (pipeline : t.pipeline = p) : Fed t :=
    fedFollow fed joined server pipeline (Pipeline.turnActive moved)
      (fun n => Pipeline.turnServed moved)
  cases stepCases stepped with
  | session l server moved =>
    exact ⟨joined,Server.idsStep fed.ids moved,Server.notYetStep fed.ids fed.notYet moved,
      fun n served => fedSession fed moved served⟩
  | drop channel => exact ⟨joined,fed.ids,fed.notYet,fed.served⟩
  | capture input p moved =>
    exact fedFollow fed joined rfl rfl (Pipeline.captureActive moved)
      (fun n => Pipeline.captureServed moved)
  | turn p moved | tune outcomes e e' p present moved
  | encode rc info e frame ptsMs force p present at' moved => exact turned moved rfl rfl
  | create rc null initialized frame ptsMs force at' =>
    exact turned (.create frame ptsMs force at') rfl rfl
  | uncreated rc null initialized frame ptsMs force at' =>
    exact turned (.uncreated frame ptsMs force at') rfl rfl

end Feeding

/- A session that has got a frame has, at some step before, seen its connection come up and found
itself to be the active one then. -/
theorem framesAdmitted (xxh3 : Bytes → UInt64) (config : Config) (publicIp : Option Text) (epoch : Nat)
    (ls : List Label) {s : Service}
    (reached : Runs.run (step xxh3) (initial config publicIp epoch) ls = some s) (n : Nat)
    (filled : s.pipeline.frames n ≠ []) : ∃ front emits back u,
      ls = front ++ .session (.task n emits)::back ∧
      Runs.run (step xxh3) (initial config publicIp epoch) front = some u ∧
      (u.server.tasks n).phase = .connecting ∧ u.server.shared.activeSession = n := by
  have start := fedInitial config publicIp epoch
  have keep : ∀ s l t, Fed s → step xxh3 s l = some t → Fed t :=
    fun _ _ _ fed stepped => fedStep fed stepped
  have admitted := (Runs.runKeeps Fed start keep reached).served n (Or.inr (Or.inr filled))
  have outside : ¬ (initial config publicIp epoch).server.Admitted n := by
    simp [Server.Admitted,initial,Server.initial]
  obtain ⟨front,l,back,u,v,cut,before,stepped,not,comes⟩ :=
    Runs.runTurns (P := fun s => s.server.Admitted n) outside admitted reached
  have fed := Runs.runKeeps Fed start keep before
  cases stepCases stepped with
  | session l server moved =>
    rcases (Server.admittedStep' fed.ids fed.notYet moved).2 comes with earlier|⟨⟨emits,same⟩,found⟩
    · exact absurd earlier not
    · subst same
      exact ⟨front,emits,back,u,cut,before,found⟩
  | drop | capture | turn | create | uncreated | tune | encode => exact absurd comes not

theorem framesAdmittedTwo : ∃ s front emits back u,
    Runs.run (step (fun _ => 0)) (initial {} (some "8.8.4.4".toList) 0) twoFrames = some s ∧
    s.pipeline.frames 1 ≠ [] ∧ twoFrames = front ++ .session (.task 1 emits)::back ∧
    Runs.run (step (fun _ => 0)) (initial {} (some "8.8.4.4".toList) 0) front = some u ∧
    (u.server.tasks 1).phase = .connecting ∧ u.server.shared.activeSession = 1 := by
  have facts : (Runs.run (step (fun _ => 0)) (initial {} (some "8.8.4.4".toList) 0) twoFrames).map
      (fun s => decide (s.pipeline.frames 1 ≠ [])) = some true := by decide +kernel
  obtain ⟨s,reached,filled⟩ := Option.map_eq_some_iff.mp facts
  have filled := of_decide_eq_true filled
  obtain ⟨front,emits,back,u,found⟩ := framesAdmitted _ _ _ _ _ reached 1 filled
  exact ⟨s,front,emits,back,u,reached,filled,found⟩

end Service
end Vmdesk
