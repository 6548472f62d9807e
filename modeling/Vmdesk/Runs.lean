/-! Runs of a partial, labelled step function. A label holds every choice the system
does not make itself, so a step is a function of state and label and `none` means
that the label is not enabled. Nothing here names a particular system. -/
namespace Vmdesk.Runs
variable {State Label : Type}

def run (step : State → Label → Option State) : State → List Label → Option State
  | s,[] => some s
  | s,l::ls => do
    let n ← step s l
    run step n ls

/- Each step of the run starts in a state that permits its label. -/
def Allowed (step : State → Label → Option State) (permits : State → Label → Prop) :
    State → List Label → Prop
  | _,[] => True
  | s,l::ls => permits s l ∧ ∀ n, step s l = some n → Allowed step permits n ls

/- `P` holds in every state of the run, the first and the last included. -/
def Always (step : State → Label → Option State) (P : State → Prop) : State → List Label → Prop
  | s,[] => P s
  | s,l::ls => P s ∧ ∀ n, step s l = some n → Always step P n ls

def check (step : State → Label → Option State) (ok : State → Label → Bool) :
    State → List Label → Bool
  | _,[] => true
  | s,l::ls => ok s l && match step s l with
    | some n => check step ok n ls
    | none => true

/- What can be seen of the steps of a run, in their order. -/
def observed {Seen : Type} (step : State → Label → Option State) (see : State → Label → Option Seen) :
    State → List Label → List Seen
  | _,[] => []
  | s,l::ls => (see s l).toList ++ match step s l with
    | some n => observed step see n ls
    | none => []

section Facts
variable {step : State → Label → Option State} {permits : State → Label → Prop}
  {P : State → Prop} {s t : State} {ls : List Label}

theorem runAppend (left right : List Label) :
    run step s (left ++ right) = (run step s left).bind (fun n => run step n right) := by
  induction left generalizing s with
  | nil => rfl
  | cons l left ih =>
    cases h : step s l with
    | none => simp [run,h]
    | some n => simp [run,h,ih]

theorem runTotal (f : State → Label → State) (s : State) (ls : List Label) :
    run (fun s l => some (f s l)) s ls = some (ls.foldl f s) := by
  induction ls generalizing s with
  | nil => rfl
  | cons l ls ih => exact ih (f s l)

theorem allowedOf (everywhere : ∀ l ∈ ls, ∀ s, permits s l) : Allowed step permits s ls := by
  induction ls generalizing s with
  | nil => exact trivial
  | cons l ls ih =>
    refine ⟨everywhere l (by simp) s,fun n _ => ih (fun m mem => everywhere m (by simp [mem]))⟩

theorem allowedProject {Wide : Type} {wide : Wide → Label → Option Wide} (f : Wide → State)
    (follows : ∀ s l, (wide s l).map f = step (f s) l) {s : Wide} :
    Allowed wide (fun s l => permits (f s) l) s ls ↔ Allowed step permits (f s) ls := by
  induction ls generalizing s with
  | nil => exact Iff.rfl
  | cons l ls ih =>
    refine and_congr_right (fun _ => ⟨fun all n stepped => ?_,fun all n stepped => ?_⟩)
    · rw [← follows] at stepped
      obtain ⟨m,first,same⟩ := Option.map_eq_some_iff.mp stepped
      exact same ▸ ih.mp (all m first)
    · refine ih.mpr (all (f n) ?_)
      rw [← follows,stepped]
      rfl

theorem runInvariant (inv : State → Prop) (start : inv s)
    (keep : ∀ s l t, inv s → permits s l → step s l = some t → inv t)
    (allowed : Allowed step permits s ls) (reached : run step s ls = some t) : inv t := by
  induction ls generalizing s with
  | nil =>
    cases Option.some.inj reached
    exact start
  | cons l ls ih =>
    obtain ⟨n,first,rest⟩ := Option.bind_eq_some_iff.mp reached
    exact ih (keep s l n start allowed.1 first) (allowed.2 n first) rest

theorem runKeeps (inv : State → Prop) (start : inv s)
    (keep : ∀ s l t, inv s → step s l = some t → inv t) (reached : run step s ls = some t) :
    inv t := by
  have allowed : Allowed step (fun _ _ => True) s ls := allowedOf (fun _ _ _ => trivial)
  exact runInvariant inv start (fun s l t holds _ stepped => keep s l t holds stepped) allowed reached

theorem runTurns (before : ¬ P s) (after : P t) (reached : run step s ls = some t) :
    ∃ front l back u v, ls = front ++ l::back ∧ run step s front = some u ∧ step u l = some v ∧
      ¬ P u ∧ P v := by
  induction ls generalizing s with
  | nil =>
    cases Option.some.inj reached
    exact absurd after before
  | cons l ls ih =>
    obtain ⟨n,first,rest⟩ := Option.bind_eq_some_iff.mp reached
    by_cases here : P n
    · exact ⟨[],l,ls,s,n,rfl,rfl,first,before,here⟩
    · obtain ⟨front,m,back,u,v,cut,part,moved,turns⟩ := ih here rest
      refine ⟨l::front,m,back,u,v,by rw [cut]; rfl,?_,moved,turns⟩
      simp only [run,first,Option.bind_eq_bind,Option.bind_some,part]

theorem allowedAlways (inv : State → Prop) (start : inv s)
    (keep : ∀ s l t, inv s → permits s l → step s l = some t → inv t)
    (holds : ∀ s, inv s → P s) (allowed : Allowed step permits s ls) : Always step P s ls := by
  induction ls generalizing s with
  | nil => exact holds s start
  | cons l ls ih =>
    refine ⟨holds s start,fun n stepped => ?_⟩
    exact ih (keep s l n start allowed.1 stepped) (allowed.2 n stepped)

theorem allowedImplies {later : State → Label → Prop} (inv : State → Prop) (start : inv s)
    (keep : ∀ s l t, inv s → permits s l → step s l = some t → inv t)
    (holds : ∀ s l, inv s → permits s l → later s l) (allowed : Allowed step permits s ls) :
    Allowed step later s ls := by
  induction ls generalizing s with
  | nil => exact trivial
  | cons l ls ih =>
    refine ⟨holds s l start allowed.1,fun n stepped => ?_⟩
    exact ih (keep s l n start allowed.1 stepped) (allowed.2 n stepped)

theorem checkAllowed (inv : State → Prop) (ok : State → Label → Bool) (start : inv s)
    (keep : ∀ s l t, inv s → ok s l = true → step s l = some t → inv t)
    (sound : ∀ s l, inv s → ok s l = true → permits s l) (checked : check step ok s ls = true) :
    Allowed step permits s ls := by
  induction ls generalizing s with
  | nil => exact trivial
  | cons l ls ih =>
    unfold check at checked
    obtain ⟨here,later⟩ := Bool.and_eq_true_iff.mp checked
    refine ⟨sound s l start here,fun n stepped => ?_⟩
    rw [stepped] at later
    exact ih (keep s l n start here stepped) later

theorem runPart {Wide WideLabel : Type} {wide : Wide → WideLabel → Option Wide} (f : Wide → State)
    (part : WideLabel → Option Label)
    (follows : ∀ s l t, wide s l = some t → run step (f s) (part l).toList = some (f t)) {s t : Wide}
    {ls : List WideLabel} (reached : run wide s ls = some t) :
    run step (f s) (ls.filterMap part) = some (f t) := by
  induction ls generalizing s with
  | nil =>
    cases Option.some.inj reached
    rfl
  | cons l ls ih =>
    obtain ⟨n,first,rest⟩ := Option.bind_eq_some_iff.mp reached
    have split : (l::ls).filterMap part = (part l).toList ++ ls.filterMap part := by
      cases own : part l <;> simp [own]
    rw [split,runAppend,follows s l n first,Option.bind_some,ih rest]

/- Where a legal step keeps `P` exactly when its label is permitted, a run of legal steps has `P`
throughout exactly when all its labels are. `inv` is what every legal step keeps anyway. -/
theorem alwaysExactWhere {legal : State → Label → Prop} (inv : State → Prop) (start : inv s)
    (holds : P s) (keep : ∀ s l t, inv s → legal s l → step s l = some t → inv t)
    (exact : ∀ s l t, inv s → P s → legal s l → step s l = some t → (P t ↔ permits s l))
    (within : Allowed step legal s ls) (reached : run step s ls = some t) :
    Always step P s ls ↔ Allowed step permits s ls := by
  induction ls generalizing s with
  | nil => simp [Always,Allowed,holds]
  | cons l ls ih =>
    obtain ⟨n,first,rest⟩ := Option.bind_eq_some_iff.mp reached
    have here := exact s l n start holds within.1 first
    have tail := fun holds => ih (keep s l n start within.1 first) holds (within.2 n first) rest
    have only : ∀ m, step s l = some m → m = n :=
      fun m again => Option.some.inj (again.symm.trans first)
    apply Iff.intro
    · intro always
      have later := always.2
      have next : P n := by
        have later := later n first
        cases ls with
        | nil => exact later
        | cons => exact later.1
      refine ⟨here.mp next,fun m again => ?_⟩
      rw [only m again]
      exact (tail next).mp (later n first)
    · intro allowed
      refine ⟨holds,fun m again => ?_⟩
      rw [only m again]
      exact (tail (here.mpr allowed.1)).mpr (allowed.2 n first)

theorem alwaysExact (inv : State → Prop) (start : inv s) (holds : P s)
    (keep : ∀ s l t, inv s → step s l = some t → inv t)
    (exact : ∀ s l t, inv s → P s → step s l = some t → (P t ↔ permits s l))
    (reached : run step s ls = some t) : Always step P s ls ↔ Allowed step permits s ls := by
  have anything : Allowed step (fun _ _ => True) s ls := allowedOf (fun _ _ _ => trivial)
  exact alwaysExactWhere inv start holds (fun s l t holds _ stepped => keep s l t holds stepped)
    (fun s l t holds here _ stepped => exact s l t holds here stepped) anything reached

end Facts

section Flow
variable {step : State → Label → Option State} {Seen : Type} {hand : State → List Seen}
  {into out : State → Label → Option Seen} {s t : State} {ls : List Label}

/- What comes out has gone in before, in the same order, if it does so in each step. `hand` is
what is in between. -/
theorem observedSublist (inv : State → Prop) (start : inv s)
    (keep : ∀ s l t, inv s → step s l = some t → inv t)
    (flow : ∀ s l t, inv s → step s l = some t →
      ((out s l).toList ++ hand t).Sublist (hand s ++ (into s l).toList))
    (reached : run step s ls = some t) :
    (observed step out s ls ++ hand t).Sublist (hand s ++ observed step into s ls) := by
  induction ls generalizing s with
  | nil =>
    cases Option.some.inj reached
    simp [observed]
  | cons l ls ih =>
    obtain ⟨n,first,rest⟩ := Option.bind_eq_some_iff.mp reached
    have later := ih (keep s l n start first) rest
    have now := flow s l n start first
    simp only [observed,first,List.append_assoc]
    refine (later.append_left _).trans ?_
    rw [← List.append_assoc,← List.append_assoc]
    exact now.append_right _

theorem observedAll {permits : State → Label → Prop} (inv : State → Prop) (start : inv s)
    (keep : ∀ s l t, inv s → permits s l → step s l = some t → inv t)
    (flow : ∀ s l t, inv s → permits s l → step s l = some t →
      (out s l).toList ++ hand t = hand s ++ (into s l).toList)
    (allowed : Allowed step permits s ls) (reached : run step s ls = some t) :
    observed step out s ls ++ hand t = hand s ++ observed step into s ls := by
  induction ls generalizing s with
  | nil =>
    cases Option.some.inj reached
    simp [observed]
  | cons l ls ih =>
    obtain ⟨n,first,rest⟩ := Option.bind_eq_some_iff.mp reached
    have later := ih (keep s l n start allowed.1 first) (allowed.2 n first) rest
    have now := flow s l n start allowed.1 first
    simp only [observed,first,List.append_assoc]
    rw [later,← List.append_assoc,now,List.append_assoc]

theorem observedInvariant {Point : Type} {sees : Point → State → Label → Option Seen}
    (inv : State → (Point → List Seen) → Prop) {log : Point → List Seen} (start : inv s log)
    (keep : ∀ s log l t, inv s log → step s l = some t →
      inv t (fun point => log point ++ (sees point s l).toList))
    (reached : run step s ls = some t) :
    inv t (fun point => log point ++ observed step (sees point) s ls) := by
  induction ls generalizing s log with
  | nil =>
    cases Option.some.inj reached
    simpa [observed] using start
  | cons l ls ih =>
    obtain ⟨n,first,rest⟩ := Option.bind_eq_some_iff.mp reached
    have later := ih (keep s log l n start first) rest
    simpa [observed,first,List.append_assoc] using later

theorem observedLast {permits : State → Label → Prop} (value : State → Seen)
    (writes : ∀ s l t, permits s l → step s l = some t → value t = (out s l).getD (value s))
    (allowed : Allowed step permits s ls) (reached : run step s ls = some t) :
    value t = (observed step out s ls).getLast?.getD (value s) := by
  induction ls generalizing s with
  | nil =>
    cases Option.some.inj reached
    simp [observed]
  | cons l ls ih =>
    obtain ⟨n,first,rest⟩ := Option.bind_eq_some_iff.mp reached
    rw [ih (allowed.2 n first) rest,writes s l n allowed.1 first]
    simp only [observed,first]
    cases out s l with
    | none => simp
    | some x => cases observed step out n ls <;> simp [List.getLast?_cons]

theorem observedMap {Other : Type} (f : Seen → Other) :
    observed step (fun s l => (out s l).map f) s ls = (observed step out s ls).map f := by
  induction ls generalizing s with
  | nil => rfl
  | cons l ls ih =>
    simp only [observed,List.map_append,Option.toList_map]
    cases step s l with
    | none => simp
    | some n => simp [ih]

theorem observedAppend {more : List Label} (reached : run step s ls = some t) :
    observed step out s (ls ++ more) = observed step out s ls ++ observed step out t more := by
  induction ls generalizing s with
  | nil =>
    cases Option.some.inj reached
    rfl
  | cons l ls ih =>
    obtain ⟨n,first,rest⟩ := Option.bind_eq_some_iff.mp reached
    simp only [List.cons_append,observed,first,List.append_assoc]
    rw [ih rest]

theorem observedNone (silent : ∀ l ∈ ls, ∀ s, out s l = none) : observed step out s ls = [] := by
  induction ls generalizing s with
  | nil => rfl
  | cons l ls ih =>
    have rest (n : State) : observed step out n ls = [] :=
      ih (fun m inside => silent m (List.mem_cons_of_mem l inside))
    simp only [observed,silent l List.mem_cons_self s]
    cases step s l with
    | none => rfl
    | some n => exact rest n

theorem observedLabels (see : Label → Option Seen) (reached : run step s ls = some t) :
    observed step (fun _ l => see l) s ls = ls.filterMap see := by
  induction ls generalizing s with
  | nil => rfl
  | cons l ls ih =>
    obtain ⟨n,first,rest⟩ := Option.bind_eq_some_iff.mp reached
    simp only [observed,first,ih rest]
    cases seen : see l <;> simp [seen]

theorem observedAllowed {P : Seen → Prop} (all : ∀ x ∈ observed step out s ls, P x) :
    Allowed step (fun s l => ∀ x, out s l = some x → P x) s ls := by
  induction ls generalizing s with
  | nil => exact trivial
  | cons l ls ih =>
    refine ⟨fun x seen => all x ?_,fun n first => ih (fun x later => all x ?_)⟩
    · simp [observed,seen]
    · simp [observed,first,later]

theorem allowedBoth {left right : State → Label → Prop} (first : Allowed step left s ls)
    (second : Allowed step right s ls) : Allowed step (fun s l => left s l ∧ right s l) s ls := by
  induction ls generalizing s with
  | nil => exact trivial
  | cons l ls ih =>
    exact ⟨⟨first.1,second.1⟩,fun n stepped => ih (first.2 n stepped) (second.2 n stepped)⟩

end Flow
end Vmdesk.Runs
