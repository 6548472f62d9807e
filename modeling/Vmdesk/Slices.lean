import Mathlib.Data.List.Basic

/-! Slices of lists with their checks: a slice that does not lie in its list is `none`. Nothing here
names a particular format. -/
namespace Vmdesk.Slices
variable {α : Type} {xs ys src : List α} {start size i : Nat}

/- `&xs[start..][..size]` -/
def slice (xs : List α) (start size : Nat) : Option (List α) :=
  if start ≤ xs.length ∧ size ≤ xs.length - start then some ((xs.drop start).take size) else none

/- `xs[start..][..src.len()].copy_from_slice(src)` -/
def copyInto (xs : List α) (start : Nat) (src : List α) : Option (List α) :=
  if start ≤ xs.length ∧ src.length ≤ xs.length - start then
    some (xs.take start ++ src ++ xs.drop (start + src.length)) else none

theorem sliceFits (fits : start + size ≤ xs.length) :
    ∃ ys, slice xs start size = some ys ∧ ys.length = size ∧ ∀ i < size, ys[i]? = xs[start + i]? := by
  refine ⟨(xs.drop start).take size,if_pos (by omega),?_,fun i inside => ?_⟩
  · rw [List.length_take,List.length_drop]
    omega
  · rw [List.getElem?_take_of_lt inside,List.getElem?_drop]

theorem copyFits (fits : start + src.length ≤ xs.length) :
    ∃ ys, copyInto xs start src = some ys ∧ ys.length = xs.length ∧
      (∀ i < src.length, ys[start + i]? = src[i]?) ∧
      ∀ i, i < start ∨ start + src.length ≤ i → ys[i]? = xs[i]? := by
  have front : (xs.take start).length = start := by
    rw [List.length_take]
    omega
  refine ⟨xs.take start ++ src ++ xs.drop (start + src.length),if_pos (by omega),?_,
    fun i inside => ?_,fun i outside => ?_⟩
  · simp only [List.length_append,front,List.length_drop]
    omega
  · rw [List.append_assoc,List.getElem?_append_right (by omega),front,
      List.getElem?_append_left (by omega)]
    congr 1
    omega
  · obtain before | after := outside
    · rw [List.append_assoc,List.getElem?_append_left (by omega),List.getElem?_take_of_lt before]
    · rw [List.getElem?_append_right (by simp only [List.length_append]; omega),List.length_append,
        front,List.getElem?_drop]
      congr 1
      omega

end Vmdesk.Slices
