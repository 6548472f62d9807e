import Vmdesk.OneClient

/-! What an offer that is answered with `BadOffer` has done to the session that was running. -/
namespace Vmdesk
namespace Server
open Function Session

structure Undisturbed (s : Server) (m : Nat) (t : Server) : Prop where
  current : t.current = s.current
  active : t.shared.activeSession = s.shared.activeSession
  sink : t.shared.sink = s.shared.sink
  connected : t.shared.clientConnected = s.shared.clientConnected
  input : t.input = s.input
  unclosed : t.closed m = s.closed m

def Described (sdp : Text) : Prop :=
  Sdp.hasMedia sdp "video".toList = true ∧ Sdp.hasMedia sdp "application".toList = true

instance (sdp : Text) : Decidable (Described sdp) := inferInstanceAs (Decidable (_ ∧ _))

def Placed (p : Phase) : Prop := (∃ deal pending answer, p = .activating deal pending answer ∨
  p = .spawning deal pending answer) ∨ ∃ answer, p = .finished (.ok answer)

def EmptyOrPlaced (c : Nat) (s : Server) : Prop := s.current = none ∨ Placed (s.calls c)

section Steps
variable {s t u : Server} {c : Nat}

theorem checkOfferNone {sdp : Text} : checkOffer sdp = none ↔ Described sdp := by
  unfold checkOffer Described
  cases Sdp.hasMedia sdp "video".toList <;> cases Sdp.hasMedia sdp "application".toList <;> simp

theorem setCallPlaced {p : Phase} (placed : Placed p) : EmptyOrPlaced c (s.setCall c p) := by
  refine Or.inr ?_
  rw [setCallSelf]
  exact placed

theorem callEmptyOrPlaced {reply : Reply} (inv : EmptyOrPlaced c s)
    (stepped : s.stepCall c reply = some t) : EmptyOrPlaced c t := by
  have empty (unplaced : ¬ Placed (s.calls c)) : s.current = none :=
    inv.resolve_right unplaced
  cases callStep stepped with
  | take => exact Or.inl rfl
  | install => exact setCallPlaced (Or.inl ⟨_,_,_,Or.inl rfl⟩)
  | activate => exact setCallPlaced (Or.inl ⟨_,_,_,Or.inr rfl⟩)
  | spawn => exact setCallPlaced (Or.inr ⟨_,rfl⟩)
  | pass at' | disconnect old at' | clear old at' | release old emits at' | close old at'
  | allocate at' | allocatePort n at' | locate n port ip at' | detect n port at'
  | detected n port ip at' | undetected n port at' | cache n port ip at'
  | negotiate stage deal pending _ handler p at' | discard deal at' =>
    exact Or.inl (empty (by simp [at',Placed]))

theorem callsEmptyOrPlaced {ls : List Label} (own : ∀ l ∈ ls, ∃ reply, l = .call c reply)
    (inv : EmptyOrPlaced c s) (reached : Runs.run step s ls = some t) : EmptyOrPlaced c t := by
  have permits : Runs.Allowed step (fun _ l => ∃ reply, l = .call c reply) s ls :=
    Runs.allowedOf (fun l member _ => own l member)
  refine Runs.runInvariant (EmptyOrPlaced c) inv ?_ permits reached
  intro u l w inv permitted stepped
  obtain ⟨reply,same⟩ := permitted
  subst same
  exact callEmptyOrPlaced inv stepped

theorem finishedStays {result : Except SessionError Text} {ls : List Label}
    (own : ∀ l ∈ ls, ∃ reply, l = .call c reply) (finished : s.calls c = .finished result)
    (reached : Runs.run step s ls = some t) : t = s := by
  cases ls with
  | nil => exact (Option.some.inj reached).symm
  | cons l ls =>
    obtain ⟨reply,same⟩ := own l (by simp)
    subst same
    have stuck : s.step (.call c reply) = none := by
      simp only [step,stepCall,finished]
    simp [Runs.run,stuck] at reached

theorem takenEmpty {reply : Reply} (taking : s.calls c = .taking)
    (stepped : s.stepCall c reply = some t) : t.current = none := by
  cases callStep stepped with
  | take => rfl
  | pass at' empty => exact empty
  | disconnect old at' | clear old at' | release old emits at' | close old at' | allocate at'
  | allocatePort n at' | locate n port ip at' | detect n port at' | detected n port ip at'
  | undetected n port at' | cache n port ip at' | negotiate stage deal pending _ handler p at'
  | discard deal at' | install deal pending answer at' | activate deal pending answer at'
  | spawn deal pending answer at' =>
    rw [taking] at at'
    contradiction

/- A call that gets past the two checks takes the connection that is there, and nothing it does
on its own before it is rejected brings it back. -/
theorem describedTakes {sdp : Text} {ls : List Label} {message : String}
    (described : Described sdp) (idle : s.calls c = .idle)
    (own : ∀ l ∈ ls, ∃ reply, l = .call c reply)
    (reached : Runs.run step s (.offer c sdp::ls) = some t)
    (rejected : t.calls c = .finished (.error (.badOffer message))) : t.current = none := by
  have begins : s.step (.offer c sdp) = some (s.setCall c .taking) := by
    simp only [step,stepOffer,idle,checkOfferNone.mpr described]
  rw [Runs.run,begins] at reached
  change Runs.run step (s.setCall c .taking) ls = some t at reached
  have taking : (s.setCall c .taking).calls c = .taking := setCallSelf s c _
  cases ls with
  | nil =>
    rw [← Option.some.inj reached,taking] at rejected
    contradiction
  | cons l ls =>
    obtain ⟨reply,same⟩ := own l (by simp)
    subst same
    obtain ⟨u,first,rest⟩ := Option.bind_eq_some_iff.mp reached
    have empty : u.current = none := takenEmpty taking first
    rcases callsEmptyOrPlaced (fun l member => own l (by simp [member])) (Or.inl empty) rest with
      none|placed
    · exact none
    · rw [rejected] at placed
      simp [Placed] at placed

theorem undescribedLeaves {sdp : Text} {ls : List Label} {m : Nat}
    (undescribed : ¬ Described sdp) (idle : s.calls c = .idle)
    (own : ∀ l ∈ ls, ∃ reply, l = .call c reply)
    (reached : Runs.run step s (.offer c sdp::ls) = some t) : Undisturbed s m t := by
  cases checked : checkOffer sdp with
  | none => exact absurd (checkOfferNone.mp checked) undescribed
  | some e =>
    have begins : s.step (.offer c sdp) = some (s.setCall c (.finished (.error e))) := by
      simp only [step,stepOffer,idle,checked]
    rw [Runs.run,begins] at reached
    have stays := finishedStays own (setCallSelf s c _) reached
    subst stays
    exact ⟨rfl,rfl,rfl,rfl,rfl,rfl⟩

/- A call that runs on its own, from any state, and ends with `BadOffer` leaves the session in
`current` undisturbed exactly when one of the two checks has rejected it. -/
theorem rejectedExact (s t : Server) (c m : Nat) (sdp : Text) (ls : List Label)
    (message : String) (idle : s.calls c = .idle) (current : s.current = some m)
    (own : ∀ l ∈ ls, ∃ reply, l = .call c reply)
    (reached : Runs.run step s (.offer c sdp::ls) = some t)
    (rejected : t.calls c = .finished (.error (.badOffer message))) :
    Undisturbed s m t ↔ ¬ Described sdp := by
  apply Iff.intro
  · intro kept described
    have empty := describedTakes described idle own reached rejected
    rw [kept.current,current] at empty
    contradiction
  · intro undescribed
    exact undescribedLeaves undescribed idle own reached

end Steps

theorem rejectedWithoutChannel : ∃ s t,
    Runs.run step located (negotiate 0 ++ conclude 0 ++ connect 1) = some s ∧
    s.current = some 1 ∧ Runs.run step s [.offer 1 "m=video 9\n".toList] = some t ∧
    Undisturbed s 1 t := by
  have facts : (Runs.run step located (negotiate 0 ++ conclude 0 ++ connect 1)).map
      (fun s => (s.calls 1,s.current)) = some (.idle,some 1) := by decide
  obtain ⟨s,reached,same⟩ := Option.map_eq_some_iff.mp facts
  simp only [Prod.mk.injEq] at same
  obtain ⟨idle,current⟩ := same
  have checked : checkOffer "m=video 9\n".toList = some (.badOffer
      "offer has no data channel (application) media section") := by decide
  have begins : s.step (.offer 1 "m=video 9\n".toList) = some (s.setCall 1
      (.finished (.error (.badOffer
        "offer has no data channel (application) media section")))) := by
    simp only [step,stepOffer,idle,checked]
  have ran := congrArg (fun next => next.bind (fun t => Runs.run step t [])) begins
  refine ⟨s,_,reached,current,ran,?_⟩
  exact (rejectedExact s _ 1 1 _ [] _ idle current (by simp) ran (setCallSelf s 1 _)).mpr
    (by decide)

/- The stack rejects a text that has both media sections: the first session is gone. -/
theorem rejectedAfterTeardown : ∃ s t,
    Runs.run step located (negotiate 0 ++ conclude 0 ++ connect 1) = some s ∧
    s.current = some 1 ∧
    Runs.run step s (.offer 1 "m=video 9\nm=application 9\n".toList::
      (List.replicate 3 (.call 1 .proceeds) ++ [.call 1 (.released .succeed)] ++
        List.replicate 9 (.call 1 .proceeds) ++ [.call 1 (.fails "no origin")])) = some t ∧
    t.calls 1 = .finished (.error (.badOffer "unparseable SDP: no origin")) ∧
    ¬ Undisturbed s 1 t := by
  have facts : (Runs.run step located (negotiate 0 ++ conclude 0 ++ connect 1)).map
      (fun s => (s.current,(Runs.run step s (.offer 1 "m=video 9\nm=application 9\n".toList::
        (List.replicate 3 (.call 1 .proceeds) ++ [.call 1 (.released .succeed)] ++
          List.replicate 9 (.call 1 .proceeds) ++ [.call 1 (.fails "no origin")]))).map
        (fun t => (t.calls 1,t.current)))) =
    some (some 1,some (.finished (.error (.badOffer "unparseable SDP: no origin")),none)) := by
    decide
  obtain ⟨s,reached,same⟩ := Option.map_eq_some_iff.mp facts
  simp only [Prod.mk.injEq] at same
  obtain ⟨current,later⟩ := same
  obtain ⟨t,ran,same⟩ := Option.map_eq_some_iff.mp later
  simp only [Prod.mk.injEq] at same
  obtain ⟨rejected,empty⟩ := same
  refine ⟨s,t,reached,current,ran,rejected,fun kept => ?_⟩
  have still := kept.current
  rw [empty,current] at still
  contradiction

end Server
end Vmdesk
