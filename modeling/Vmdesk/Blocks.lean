/-! Lists that are joined from blocks of one size. Nothing here names a particular format. -/
namespace Vmdesk.Blocks
variable {α : Type} {blocks : Nat → List α} {size n : Nat}

theorem joinedLength (size : Nat) (sized : ∀ i < n, (blocks i).length = size) :
    ((List.range n).flatMap blocks).length = size*n := by
  induction n with
  | zero => rfl
  | succ n ih =>
    have last := sized n (by omega)
    rw [List.range_succ,List.flatMap_append,List.length_append,ih (fun i below => sized i (by omega))]
    simp [last,Nat.mul_succ]

theorem joinedGet (sized : ∀ i < n, (blocks i).length = size) {i j : Nat} (below : i < n)
    (inside : j < size) : ((List.range n).flatMap blocks)[i*size + j]? = (blocks i)[j]? := by
  induction n with
  | zero => omega
  | succ n ih =>
    have length := joinedLength size (fun i below => sized i (Nat.lt_succ_of_lt below))
    rw [List.range_succ,List.flatMap_append,List.flatMap_singleton]
    by_cases last : i = n
    · subst last
      have past : size*i ≤ i*size + j := by
        rw [Nat.mul_comm]
        omega
      rw [List.getElem?_append_right (length ▸ past),length]
      congr 1
      rw [Nat.mul_comm]
      omega
    · have before : i*size + j < size*n := by
        have fits : (i + 1)*size ≤ n*size := Nat.mul_le_mul_right size (by omega)
        rw [Nat.succ_mul] at fits
        rw [Nat.mul_comm size]
        omega
      rw [List.getElem?_append_left (length ▸ before)]
      exact ih (fun i below => sized i (Nat.lt_succ_of_lt below)) (by omega)

theorem joinedExt {xs ys : List α} (left : xs.length = size*n) (right : ys.length = size*n)
    (same : ∀ i < n, ∀ j < size, xs[i*size + j]? = ys[i*size + j]?) : xs = ys := by
  refine List.ext_getElem? (fun k => ?_)
  by_cases inside : k < size*n
  · have positive : 0 < size := Nat.pos_of_mul_pos_right (Nat.zero_lt_of_lt inside)
    have split := Nat.div_add_mod k size
    have here := same (k/size) (Nat.div_lt_of_lt_mul inside) (k%size) (Nat.mod_lt k positive)
    rwa [Nat.mul_comm (k/size),split] at here
  · rw [List.getElem?_eq_none (by omega),List.getElem?_eq_none (by omega)]

theorem placeBelow {x y w h : Nat} (inX : x < w) (inY : y < h) : y*w + x < w*h := by
  have row : (y + 1)*w ≤ h*w := Nat.mul_le_mul_right w inY
  rw [Nat.succ_mul] at row
  rw [Nat.mul_comm w]
  omega

theorem sameRow {n px py qx qy : Nat} (inP : px < n) (inQ : qx < n)
    (same : py*n + px = qy*n + qx) : px = qx ∧ py = qy := by
  have rem : (py*n + px) % n = (qy*n + qx) % n := congrArg (· % n) same
  rw [Nat.mul_comm,Nat.mul_comm qy,Nat.mul_add_mod,Nat.mul_add_mod,Nat.mod_eq_of_lt inP,
    Nat.mod_eq_of_lt inQ] at rem
  subst rem
  exact ⟨rfl,Nat.eq_of_mul_eq_mul_right (by omega) (Nat.add_right_cancel same)⟩

theorem rowApart {x y w row start n : Nat} (inX : x < w) (fits : start + n ≤ w)
    (other : ¬ (y = row ∧ start ≤ x ∧ x < start + n)) :
    y*w + x < row*w + start ∨ row*w + start + n ≤ y*w + x := by
  obtain before | same | after := Nat.lt_trichotomy y row
  · have step : (y + 1)*w ≤ row*w := Nat.mul_le_mul_right w before
    rw [Nat.succ_mul] at step
    omega
  · subst same
    omega
  · have step : (row + 1)*w ≤ y*w := Nat.mul_le_mul_right w after
    rw [Nat.succ_mul] at step
    omega

end Vmdesk.Blocks
