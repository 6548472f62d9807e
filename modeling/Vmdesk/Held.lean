import Mathlib.Data.List.Nodup

/-! A set of held things, kept as a list without repetition, and what happens to it
under presses, releases and a release of everything. `Within` and `Exact` compare two
such sets through a partial naming of the elements of one by elements of the other. -/
namespace Vmdesk

structure Held (α : Type) where
  items : List α
  distinct : items.Nodup
  deriving DecidableEq, Repr

namespace Held
variable {α β : Type}

instance : Membership α (Held α) := ⟨fun h a => a ∈ h.items⟩

def empty : Held α := ⟨[],List.nodup_nil⟩
def isEmpty (h : Held α) : Bool := h.items.isEmpty

@[simp] theorem memItems {a : α} {h : Held α} : a ∈ h.items ↔ a ∈ h := Iff.rfl

@[simp] theorem memEmpty {a : α} : a ∉ (empty : Held α) := List.not_mem_nil

theorem isEmptyExact {h : Held α} : h.isEmpty = true ↔ ∀ a, a ∉ h := by
  rw [isEmpty,List.isEmpty_iff,List.eq_nil_iff_forall_not_mem]
  rfl

def Within (name : α → Option β) (image : Held β) (source : Held α) : Prop :=
  ∀ b ∈ image, ∃ a ∈ source, name a = some b

def Exact (name : α → Option β) (image : Held β) (source : Held α) : Prop :=
  ∀ b, b ∈ image ↔ ∃ a ∈ source, name a = some b

theorem Exact.within {name : α → Option β} {image : Held β} {source : Held α}
    (exact : Exact name image source) : Within name image source :=
  fun b mem => (exact b).mp mem

theorem exactEmpty {name : α → Option β} : Exact name (empty : Held β) (empty : Held α) := by
  intro b
  simp

section Sets
variable [DecidableEq α]

instance (a : α) (h : Held α) : Decidable (a ∈ h) := inferInstanceAs (Decidable (a ∈ h.items))

def insert (h : Held α) (a : α) : Held α := ⟨h.items.insert a,h.distinct.insert⟩
def remove (h : Held α) (a : α) : Held α := ⟨h.items.erase a,h.distinct.erase a⟩

@[simp] theorem memInsert {a b : α} {h : Held α} : b ∈ h.insert a ↔ b = a ∨ b ∈ h :=
  List.mem_insert_iff

@[simp] theorem memRemove {a b : α} {h : Held α} : b ∈ h.remove a ↔ b ≠ a ∧ b ∈ h :=
  h.distinct.mem_erase_iff

end Sets

def named [DecidableEq β] (name : α → Option β) (items : List α) : Held β :=
  items.foldl (fun h a => match name a with
    | some b => h.insert b
    | none => h) empty

theorem memNamed [DecidableEq β] {name : α → Option β} {items : List α} {b : β} :
    b ∈ named name items ↔ ∃ a ∈ items, name a = some b := by
  have more (h : Held β) : b ∈ items.foldl (fun h a => match name a with
      | some b => h.insert b
      | none => h) h ↔ b ∈ h ∨ ∃ a ∈ items, name a = some b := by
    induction items generalizing h with
    | nil => simp
    | cons a items ih =>
      rw [List.foldl_cons,ih]
      cases called : name a with
      | none => simp [called]
      | some c =>
        simp only [memInsert,List.exists_mem_cons_iff,called,Option.some.injEq,eq_comm (b := b)]
        tauto
  exact (more empty).trans (or_iff_right memEmpty)

inductive Change (α : Type) where
  | press (a : α)
  | release (a : α)
  | releaseAll
  deriving DecidableEq, Repr

def apply [DecidableEq α] (h : Held α) : Change α → Held α
  | .press a => h.insert a
  | .release a => h.remove a
  | .releaseAll => empty

def run [DecidableEq α] (h : Held α) (changes : List (Change α)) : Held α := changes.foldl apply h

theorem runAppend [DecidableEq α] (h : Held α) (left right : List (Change α)) :
    run h (left ++ right) = run (run h left) right := List.foldl_append

def applyNamed [DecidableEq β] (name : α → Option β) (h : Held β) : Change α → Held β
  | .press a => match name a with
    | some b => h.insert b
    | none => h
  | .release a => match name a with
    | some b => h.remove b
    | none => h
  | .releaseAll => empty

def runNamed [DecidableEq β] (name : α → Option β) (h : Held β) (changes : List (Change α)) :
    Held β := changes.foldl (applyNamed name) h

theorem runNamedAppend [DecidableEq β] (name : α → Option β) (h : Held β)
    (left right : List (Change α)) :
    runNamed name h (left ++ right) = runNamed name (runNamed name h left) right :=
  List.foldl_append

section Steps
variable [DecidableEq α] [DecidableEq β]
variable {name : α → Option β} {image : Held β} {source : Held α}

theorem withinApply (within : Within name image source) (c : Change α) :
    Within name (applyNamed name image c) (apply source c) := by
  cases c with
  | press a =>
    intro b mem
    cases named : name a with
    | none =>
      obtain ⟨x,held,same⟩ := within b (by simpa [applyNamed,named] using mem)
      exact ⟨x,memInsert.mpr (Or.inr held),same⟩
    | some c =>
      rcases memInsert.mp (by simpa [applyNamed,named] using mem) with rfl | old
      · exact ⟨a,memInsert.mpr (Or.inl rfl),named⟩
      · obtain ⟨x,held,same⟩ := within b old
        exact ⟨x,memInsert.mpr (Or.inr held),same⟩
  | release a =>
    intro b mem
    cases named : name a with
    | none =>
      obtain ⟨x,held,same⟩ := within b (by simpa [applyNamed,named] using mem)
      refine ⟨x,memRemove.mpr ⟨?_,held⟩,same⟩
      intro eq
      subst x
      simp [named] at same
    | some c =>
      obtain ⟨other,old⟩ := memRemove.mp (by simpa [applyNamed,named] using mem)
      obtain ⟨x,held,same⟩ := within b old
      refine ⟨x,memRemove.mpr ⟨?_,held⟩,same⟩
      intro eq
      subst x
      exact other (Option.some.inj (same.symm.trans named))
  | releaseAll => exact exactEmpty.within

/- Releasing `a` must not take the name away from another held element. -/
def Separate (name : α → Option β) (source : Held α) : Change α → Prop
  | .release a => ∀ x ∈ source, ∀ b, name x = some b → name a = some b → x = a
  | _ => True

theorem exactApply (exact : Exact name image source) {c : Change α}
    (separate : Separate name source c) :
    Exact name (applyNamed name image c) (apply source c) := by
  intro b
  refine ⟨fun mem => withinApply exact.within c b mem,?_⟩
  intro found
  obtain ⟨x,mem,same⟩ := found
  cases c with
  | press a =>
    rcases memInsert.mp mem with rfl | held
    · simp [applyNamed,same]
    · have old := (exact b).mpr ⟨x,held,same⟩
      cases named : name a <;> simp [applyNamed,named,old]
  | release a =>
    obtain ⟨other,held⟩ := memRemove.mp mem
    have old := (exact b).mpr ⟨x,held,same⟩
    cases named : name a with
    | none => simpa [applyNamed,named] using old
    | some c =>
      have distinct : b ≠ c := by
        intro eq
        subst c
        exact other (separate x held b same named)
      simpa [applyNamed,named] using And.intro distinct old
  | releaseAll => exact absurd mem memEmpty

theorem withinRun (within : Within name image source) (changes : List (Change α)) :
    Within name (runNamed name image changes) (run source changes) := by
  induction changes generalizing image source with
  | nil => exact within
  | cons c changes ih => exact ih (withinApply within c)

/- Only pressed elements are ever held, so it is enough to compare names between
the elements pressed and the elements released. -/
theorem exactRun (exact : Exact name image source) (changes : List (Change α))
    (pressed : List α) (known : ∀ a ∈ source, a ∈ pressed)
    (presses : ∀ a, .press a ∈ changes → a ∈ pressed)
    (apart : ∀ a ∈ pressed, ∀ r, .release r ∈ changes → ∀ b, name a = some b → name r = some b → a = r) :
    Exact name (runNamed name image changes) (run source changes) := by
  induction changes generalizing image source with
  | nil => exact exact
  | cons c changes ih =>
    have separate : Separate name source c := by
      cases c with
      | release r => exact fun x held b left right => apart x (known x held) r (by simp) b left right
      | press => trivial
      | releaseAll => trivial
    refine ih (exactApply exact separate) ?_ (fun a mem => presses a (by simp [mem]))
      (fun a mem r rel => apart a mem r (by simp [rel]))
    intro a held
    cases c with
    | press p =>
      rcases memInsert.mp held with rfl | old
      · exact presses a (by simp)
      · exact known a old
    | release r => exact known a (memRemove.mp held).2
    | releaseAll => exact absurd held memEmpty

end Steps
end Held
end Vmdesk
