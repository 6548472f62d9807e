import Mathlib.Data.List.Pairwise
import Mathlib.Data.List.Nodup
import Mathlib.Data.List.Flatten

/-! Stages that run one after the other until one fails. A stage owns some keys of the state. Of the
others it may change those that are nobody's, but not those that are `kept`, so where no two own the
same key, what a stage has left under a kept one of its own is there at the end. Nothing here names a
particular system. -/
namespace Vmdesk.Stages
variable {State Error Key Value : Type}

abbrev Action (State Error : Type) := State → Except Error Unit × State

def perform : List (Action State Error) → Action State Error
  | [],s => (.ok (),s)
  | act::acts,s => match act s with
    | (.error e,t) => (.error e,t)
    | (.ok (),t) => perform acts t

/- A failure does not matter. -/
def attempt (act : Action State Error) : Action State Error := fun s => (.ok (),(act s).2)

structure Stage (State Error Key : Type) where
  owns : List Key
  act : Action State Error

def run (stages : List (Stage State Error Key)) : Action State Error :=
  perform (stages.map Stage.act)

section Facts
variable {kept : Key → Prop} {view : State → Key → Value} {k : Key} {s : State}
  {act : Action State Error}

def Spares (view : State → Key → Value) (k : Key) (act : Action State Error) : Prop :=
  ∀ s, view (act s).2 k = view s k

def Lawful (kept : Key → Prop) (view : State → Key → Value) (stage : Stage State Error Key) : Prop :=
  ∀ k, kept k → k ∉ stage.owns → Spares view k stage.act

theorem performKeeps {P : State → Prop} {acts : List (Action State Error)}
    (each : ∀ act ∈ acts, ∀ s, P s → P (act s).2) (start : P s) : P (perform acts s).2 := by
  induction acts generalizing s with
  | nil => exact start
  | cons act acts ih =>
    have next := each act (by simp) s start
    simp only [perform]
    split
    · next e t same =>
      rw [same] at next
      exact next
    · next t same =>
      rw [same] at next
      exact ih (fun later inside => each later (by simp [inside])) next

theorem performSpares {acts : List (Action State Error)} (each : ∀ act ∈ acts, Spares view k act) :
    Spares view k (perform acts) := by
  intro s
  refine performKeeps (P := fun t => view t k = view s k) (fun act inside t same => ?_) rfl
  rw [each act inside t,same]

theorem performOk {front back : List (Action State Error)}
    (done : (perform (front ++ act::back) s).1 = .ok ()) : ∃ t, t = (perform front s).2 ∧
      (act t).1 = .ok () ∧ (perform (front ++ act::back) s).2 = (perform back (act t).2).2 := by
  induction front generalizing s with
  | nil =>
    refine ⟨s,rfl,?_⟩
    simp only [List.nil_append,perform] at done ⊢
    cases first : act s with
    | mk result t =>
      cases result with
      | error e =>
        rw [first] at done
        contradiction
      | ok => exact ⟨rfl,rfl⟩
  | cons other front ih =>
    simp only [List.cons_append,perform] at done ⊢
    cases first : other s with
    | mk result t =>
      cases result with
      | error e =>
        rw [first] at done
        contradiction
      | ok =>
        rw [first] at done
        exact ih done

theorem performFirst {back : List (Action State Error)} (spared : ∀ later ∈ back, Spares view k later)
    (done : (perform (act::back) s).1 = .ok ()) :
    (act s).1 = .ok () ∧ view (perform (act::back) s).2 k = view (act s).2 k := by
  obtain ⟨t,start,succeeded,rest⟩ := performOk (show (perform ([] ++ act::back) s).1 = .ok () from done)
  subst start
  exact ⟨succeeded,(congrArg (view · k) rest).trans (performSpares spared _)⟩

theorem disjointOwners {front back : List (Stage State Error Key)} {stage : Stage State Error Key}
    (apart : ((front ++ stage::back).flatMap Stage.owns).Nodup) (own : k ∈ stage.owns) :
    (∀ other ∈ front, k ∉ other.owns) ∧ ∀ other ∈ back, k ∉ other.owns := by
  simp only [List.flatMap_append,List.flatMap_cons,List.nodup_append] at apart
  refine ⟨fun other inside there => ?_,fun other inside there => ?_⟩
  · exact apart.2.2 k (List.mem_flatMap.mpr ⟨other,inside,there⟩) k (List.mem_append_left _ own) rfl
  · exact apart.2.1.2.2 k own k (List.mem_flatMap.mpr ⟨other,inside,there⟩) rfl

theorem sparedBy {stages : List (Stage State Error Key)} (lawful : ∀ st ∈ stages, Lawful kept view st)
    (stays : kept k) (other : ∀ st ∈ stages, k ∉ st.owns) : Spares view k (run stages) := by
  refine performSpares (fun act inside => ?_)
  obtain ⟨stage,here,same⟩ := List.mem_map.mp inside
  exact same ▸ lawful stage here k stays (other stage here)

/- Where all stages have succeeded, each kept key stands as its owner has left it, and its owner has
found it as it was in the beginning. -/
theorem leavesOwned {stages : List (Stage State Error Key)} {stage : Stage State Error Key}
    (apart : (stages.flatMap Stage.owns).Nodup) (lawful : ∀ st ∈ stages, Lawful kept view st)
    (stays : kept k) (inside : stage ∈ stages) (own : k ∈ stage.owns)
    (done : (run stages s).1 = .ok ()) :
    ∃ t, view t k = view s k ∧ (stage.act t).1 = .ok () ∧
      view (run stages s).2 k = view (stage.act t).2 k := by
  obtain ⟨front,back,same⟩ := List.append_of_mem inside
  subst same
  obtain ⟨before,after⟩ := disjointOwners apart own
  have early := sparedBy (k := k) (fun st here => lawful st (by simp [here])) stays before
  have late := sparedBy (k := k) (fun st here => lawful st (by simp [here])) stays after
  simp only [run,List.map_append,List.map_cons] at done ⊢
  obtain ⟨t,reached,succeeded,rest⟩ := performOk done
  refine ⟨t,?_,succeeded,?_⟩
  · rw [reached]
    exact early s
  · rw [rest]
    exact late _

theorem keepsOwned {stages : List (Stage State Error Key)} {stage : Stage State Error Key}
    (P : Value → Prop) (apart : (stages.flatMap Stage.owns).Nodup)
    (lawful : ∀ st ∈ stages, Lawful kept view st) (stays : kept k) (inside : stage ∈ stages)
    (own : k ∈ stage.owns) (keep : ∀ t, P (view t k) → P (view (stage.act t).2 k))
    (start : P (view s k)) : P (view (run stages s).2 k) := by
  obtain ⟨front,back,same⟩ := List.append_of_mem inside
  subst same
  obtain ⟨before,after⟩ := disjointOwners apart own
  refine performKeeps (P := fun t => P (view t k)) (fun act here t holds => ?_) start
  have spared (other : Stage State Error Key) (there : other ∈ front ++ stage::back)
      (foreign : k ∉ other.owns) : P (view (other.act t).2 k) := by
    rw [lawful other there k stays foreign t]
    exact holds
  obtain ⟨other,there,same⟩ := List.mem_map.mp here
  subst same
  rcases List.mem_append.mp there with early|late
  · exact spared other there (before other early)
  · rcases List.mem_cons.mp late with same|late
    · exact same ▸ keep t holds
    · exact spared other there (after other late)

end Facts
end Vmdesk.Stages
