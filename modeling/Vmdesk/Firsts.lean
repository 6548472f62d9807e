import Mathlib.Data.List.Basic

/-! The first member of each group of a list, in the order of the list. An element without a key
is in no group and stays. Nothing here names a particular kind of element. -/
namespace Vmdesk

section Firsts
variable {α β κ μ : Type} [DecidableEq κ] [DecidableEq μ]

def SameKey (key : α → Option κ) (x y : α) : Prop := ∃ k, key x = some k ∧ key y = some k

instance (key : α → Option κ) (x y : α) : Decidable (SameKey key x y) :=
  match shape : key x with
  | none => isFalse (fun same => by
      obtain ⟨k,left,_⟩ := same
      rw [shape] at left
      contradiction)
  | some k => decidable_of_iff (key y = some k) (by simp [SameKey,shape])

def firsts (key : α → Option κ) : List α → List α
  | [] => []
  | x::xs => x::(firsts key xs).filter (fun y => ¬ SameKey key x y)

theorem firstsSublist (key : α → Option κ) (xs : List α) : List.Sublist (firsts key xs) xs := by
  induction xs with
  | nil => exact List.Sublist.slnil
  | cons x xs ih => exact (List.filter_sublist.trans ih).cons_cons x

theorem firstsUnkeyed (key : α → Option κ) (p : α → Bool)
    (unkeyed : ∀ x, p x = true → key x = none) (xs : List α) :
    (firsts key xs).filter p = xs.filter p := by
  induction xs with
  | nil => rfl
  | cons x xs ih =>
    have kept : ((firsts key xs).filter (fun y => ¬ SameKey key x y)).filter p =
        (firsts key xs).filter p := by
      rw [List.filter_filter]
      apply List.filter_congr
      intro y _
      cases taken : p y with
      | false => simp
      | true => simp [SameKey,unkeyed y taken]
    simp only [firsts,List.filter_cons,kept,ih]

theorem firstsFind (key : α → Option κ) (xs : List α) (k : κ) :
    (firsts key xs).find? (fun x => key x = some k) = xs.find? (fun x => key x = some k) := by
  induction xs with
  | nil => rfl
  | cons x xs ih =>
    simp only [firsts,List.find?_cons]
    by_cases here : key x = some k
    · simp [here]
    · simp only [here,decide_false]
      rw [← ih,List.find?_filter]
      apply congrArg (fun p => (firsts key xs).find? p)
      funext y
      by_cases there : key y = some k
      · simp [SameKey,there,here]
      · simp [there]

theorem firstsMember (key : α → Option κ) {xs : List α} {x : α} {k : κ} (own : x ∈ xs)
    (keyed : key x = some k) : ∃ y ∈ firsts key xs, key y = some k := by
  have found : (xs.find? (fun x => key x = some k)).isSome := by
    rw [List.find?_isSome]
    exact ⟨x,own,by simp [keyed]⟩
  rw [← firstsFind,List.find?_isSome] at found
  obtain ⟨y,first,same⟩ := found
  exact ⟨y,first,of_decide_eq_true same⟩

theorem firstsSingle (key : α → Option κ) (xs : List α) :
    ((firsts key xs).filterMap key).Nodup := by
  induction xs with
  | nil => exact List.nodup_nil
  | cons x xs ih =>
    have rest : (((firsts key xs).filter (fun y => ¬ SameKey key x y)).filterMap key).Nodup :=
      ih.sublist (List.filter_sublist.filterMap key)
    cases named : key x with
    | none => simpa [firsts,named] using rest
    | some k =>
      simp only [firsts,List.filterMap_cons,named]
      refine List.nodup_cons.mpr ⟨?_,rest⟩
      intro again
      obtain ⟨y,member,same⟩ := List.mem_filterMap.mp again
      have apart := (List.mem_filter.mp member).2
      simp [SameKey,named,same] at apart

theorem firstsCongr {left : α → Option κ} {right : α → Option μ} {xs : List α}
    (same : ∀ x ∈ xs, ∀ y ∈ xs, SameKey left x y ↔ SameKey right x y) :
    firsts left xs = firsts right xs := by
  induction xs with
  | nil => rfl
  | cons x xs ih =>
    have tail := ih (fun y hy z hz => same y (by simp [hy]) z (by simp [hz]))
    simp only [firsts,tail]
    refine congrArg (x::·) (List.filter_congr (fun y member => ?_))
    have inside : y ∈ xs := (firstsSublist right xs).subset member
    simp [same x (by simp) y (by simp [inside])]

theorem firstsFilterMap (f : α → Option β) (key : β → κ) (xs : List α) :
    (firsts (fun x => (f x).map key) xs).filterMap f =
      firsts (fun y => some (key y)) (xs.filterMap f) := by
  induction xs with
  | nil => rfl
  | cons x xs ih =>
    cases shape : f x with
    | none =>
      have all : (firsts (fun x => (f x).map key) xs).filter
          (fun y => ¬ SameKey (fun x => (f x).map key) x y) =
          firsts (fun x => (f x).map key) xs :=
        List.filter_eq_self.mpr (fun y _ => by simp [SameKey,shape])
      simp only [firsts,List.filterMap_cons,shape,all,ih]
    | some a =>
      simp only [firsts,List.filterMap_cons,shape,← ih,List.filterMap_filter,List.filter_filterMap]
      refine congrArg (a::·) (List.filterMap_congr (fun y _ => ?_))
      cases other : f y with
      | none => simp [SameKey,shape,other]
      | some b => by_cases k : key b = key a <;> simp [SameKey,shape,other,k,Option.filter]

end Firsts

section Places
variable {α : Type} {p q : α → Bool}

theorem firstCut {xs : List α} {i : Nat} (first : xs.findIdx? q = some i) :
    ∃ before y after, xs = before ++ y::after ∧ before.length = i ∧ q y = true := by
  obtain ⟨below,holds,_⟩ := List.findIdx?_eq_some_iff_getElem.mp first
  refine ⟨xs.take i,xs[i],xs.drop (i + 1),?_,by simp; omega,holds⟩
  rw [List.getElem_cons_drop,List.take_append_drop]

theorem firstBefore (apart : ∀ x, p x = true → q x = false) (xs : List α) :
    (∃ i j, xs.findIdx? p = some i ∧ xs.findIdx? q = some j ∧ j < i) ↔
      (∃ x ∈ xs, p x = true) ∧ ∃ before y after, xs = before ++ y::after ∧ q y = true ∧
        ∀ x ∈ before, p x = false := by
  constructor
  · intro places
    obtain ⟨i,j,first,second,less⟩ := places
    obtain ⟨below,holds,clear⟩ := List.findIdx?_eq_some_iff_getElem.mp first
    obtain ⟨before,y,after,cut,start,found⟩ := firstCut second
    refine ⟨⟨xs[i],List.getElem_mem below,holds⟩,before,y,after,cut,found,fun x inside => ?_⟩
    obtain ⟨k,small,same⟩ := List.mem_iff_getElem.mp inside
    have early := clear k (by omega)
    simpa [cut,List.getElem_append_left small,same] using early
  · intro shape
    obtain ⟨⟨x,inside,holds⟩,before,y,after,cut,found,clear⟩ := shape
    have other : p y = false := by
      cases here : p y with
      | false => rfl
      | true => exact absurd (apart y here) (by simp [found])
    have skipped : before.findIdx? p = none := List.findIdx?_eq_none_iff.mpr clear
    have later : ∃ k, after.findIdx? p = some k := by
      rw [← Option.isSome_iff_exists,List.findIdx?_isSome,List.any_eq_true]
      refine ⟨x,?_,holds⟩
      rw [cut,List.mem_append,List.mem_cons] at inside
      obtain early | same | late := inside
      · simp [clear x early] at holds
      · simp [same,other] at holds
      · exact late
    obtain ⟨k,place⟩ := later
    have first : xs.findIdx? p = some (k + 1 + before.length) := by
      simp [cut,List.findIdx?_append,List.findIdx?_cons,skipped,other,place]
    cases early : before.findIdx? q with
    | none =>
      refine ⟨_,before.length,first,?_,by omega⟩
      simp [cut,List.findIdx?_append,List.findIdx?_cons,early,found]
    | some j =>
      obtain ⟨below,_⟩ := List.findIdx?_eq_some_iff_getElem.mp early
      refine ⟨_,j,first,?_,by omega⟩
      simp [cut,List.findIdx?_append,early]

end Places
end Vmdesk
