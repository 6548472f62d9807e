import Mathlib.Algebra.Group.Nat.Defs
import Vmdesk.Text

/-! Numbers written in the digits of a radix of at most sixteen, and read back from the front of a
text. Nothing here names a particular format. -/
namespace Vmdesk.Digits

/- `char::to_digit` -/
def toDigit (radix : Nat) (c : Char) : Option Nat :=
  let digit :=
    if '0' ≤ c ∧ c ≤ '9' then some (c.toNat - 48)
    else if 'a' ≤ c ∧ c ≤ 'z' then some (c.toNat - 87)
    else if 'A' ≤ c ∧ c ≤ 'Z' then some (c.toNat - 55)
    else none
  digit.filter (fun d => d < radix)

def span (radix : Nat) : Text → List Nat × Text
  | [] => ([],[])
  | c::s => match toDigit radix c with
    | some d => (d::(span radix s).1,(span radix s).2)
    | none => ([],c::s)

def value (radix : Nat) (ds : List Nat) : Nat := ds.foldl (fun n d => n*radix + d) 0

/- All digits in front are read. There may be too many, a zero in front of others may be refused, and
the number has to stay below a bound. -/
def readNumber (radix : Nat) (maxDigits : Option Nat) (zeroPrefix : Bool) (bound : Nat) (s : Text) :
    Option (Nat × Text) :=
  let (ds,rest) := span radix s
  if ds = [] then none
  else if maxDigits.any (fun most => most < ds.length) then none
  else if !zeroPrefix && ds.head? == some 0 && 1 < ds.length then none
  else if value radix ds < bound then some (value radix ds,rest)
  else none

def decimal (n : Nat) : Text := Nat.toDigits 10 n

def Stops (radix : Nat) (s : Text) : Prop := ∀ c ∈ s.head?, toDigit radix c = none

section Reading
variable {b n : Nat} {s rest : Text}

theorem toDigitDigit (small : b ≤ 16) (below : n < b) : toDigit b n.digitChar = some n := by
  have known : ∀ n < 16, toDigit 16 n.digitChar = some n := by decide
  have wide := known n (Nat.lt_of_lt_of_le below small)
  simp only [toDigit,Option.filter_eq_some_iff] at wide ⊢
  exact ⟨wide.1,by simpa using below⟩

theorem digitRange {x : Char} (digit : toDigit 16 x ≠ none) : 48 ≤ x.toNat ∧ x.toNat ≤ 57 ∨
    97 ≤ x.toNat ∧ x.toNat ≤ 122 ∨ 65 ≤ x.toNat ∧ x.toNat ≤ 90 := by
  have le (a b : Char) : a ≤ b ↔ a.toNat ≤ b.toNat := Iff.rfl
  unfold toDigit at digit
  simp only [le] at digit
  split at digit
  · next range => exact Or.inl range
  · split at digit
    · next range => exact Or.inr (Or.inl range)
    · split at digit
      · next range => exact Or.inr (Or.inr range)
      · exact absurd rfl digit

theorem spanDigits (all : ∀ c ∈ s, toDigit b c ≠ none) (stops : Stops b rest) :
    span b (s ++ rest) = (s.filterMap (toDigit b),rest) := by
  induction s with
  | nil =>
    cases rest with
    | nil => rfl
    | cons c rest =>
      have none' : toDigit b c = none := stops c rfl
      simp [span,none']
  | cons c s ih =>
    obtain ⟨d,digit⟩ := Option.ne_none_iff_exists'.mp (all c (by simp))
    rw [List.cons_append,span,ih (fun x member => all x (by simp [member]))]
    simp [digit]

theorem valueAppend (ds : List Nat) (d : Nat) : value b (ds ++ [d]) = value b ds*b + d := by
  simp [value]

theorem digitsLength (all : ∀ c ∈ s, toDigit b c ≠ none) :
    (s.filterMap (toDigit b)).length = s.length := by
  induction s with
  | nil => rfl
  | cons c s ih =>
    obtain ⟨d,digit⟩ := Option.ne_none_iff_exists'.mp (all c (by simp))
    rw [List.filterMap_cons_some digit,List.length_cons,List.length_cons,
      ih (fun x member => all x (by simp [member]))]

structure Written (b n : Nat) (s : Text) : Prop where
  digits : ∀ c ∈ s, toDigit b c ≠ none
  value : value b (s.filterMap (toDigit b)) = n
  front : (s.filterMap (toDigit b)).head? = some 0 → n = 0 ∧ s.length = 1
  present : s ≠ []

theorem writtenDigits (large : 1 < b) (small : b ≤ 16) (n : Nat) :
    Written b n (Nat.toDigits b n) := by
  induction n using Nat.base_induction b large with
  | single n below =>
    rw [Nat.toDigits_of_lt_base below]
    have digit := toDigitDigit small below
    exact ⟨by simp [digit],by simp [digit,value],by simp [digit],by simp⟩
  | digit n d below positive ih =>
    rw [← Nat.toDigits_append_toDigits large positive below,Nat.toDigits_of_lt_base below]
    have digit := toDigitDigit small below
    refine ⟨?_,?_,?_,by simp⟩
    · intro c member
      rcases List.mem_append.mp member with front|last
      · exact ih.digits c front
      · cases List.mem_singleton.mp last
        simp [digit]
    · rw [List.filterMap_append,List.filterMap_cons_some digit,List.filterMap_nil,valueAppend,ih.value,
        Nat.mul_comm]
    · intro zero
      have first : (Nat.toDigits b n).filterMap (toDigit b) ≠ [] := by
        apply List.ne_nil_of_length_pos
        rw [digitsLength ih.digits]
        exact List.length_pos_of_ne_nil ih.present
      rw [List.filterMap_append,List.head?_append_of_ne_nil _ first] at zero
      exact absurd (ih.front zero).1 (Nat.pos_iff_ne_zero.mp positive)

theorem readRest {most : Option Nat} {zeroPrefix : Bool} {bound m : Nat}
    (read : readNumber b most zeroPrefix bound s = some (m,rest)) : rest = (span b s).2 := by
  simp only [readNumber] at read
  split at read <;> try contradiction
  split at read <;> try contradiction
  split at read <;> try contradiction
  split at read <;> try contradiction
  exact (congrArg Prod.snd (Option.some.inj read)).symm

theorem readWritten {most : Option Nat} {zeroPrefix : Bool} {bound : Nat} (large : 1 < b)
    (small : b ≤ 16) (below : n < bound) (fits : ∀ m ∈ most, 0 < m ∧ n < b^m) (stops : Stops b rest) :
    readNumber b most zeroPrefix bound (Nat.toDigits b n ++ rest) = some (n,rest) := by
  have written := writtenDigits large small n
  have length := digitsLength written.digits
  unfold readNumber
  simp only [spanDigits written.digits stops,written.value]
  rw [if_neg,if_neg,if_neg,if_pos below]
  · intro zero
    simp only [Bool.and_eq_true,beq_iff_eq,decide_eq_true_eq] at zero
    have one := (written.front zero.1.2).2
    omega
  · intro many
    obtain ⟨m,same,beyond⟩ := (Option.any_eq_true _ _).mp many
    obtain ⟨positive,fits⟩ := fits m same
    have short := (Nat.length_toDigits_le_iff large positive).mpr fits
    rw [length] at beyond
    simp only [decide_eq_true_eq] at beyond
    omega
  · intro empty
    have none' := congrArg List.length empty
    rw [length] at none'
    exact written.present (List.length_eq_zero_iff.mp none')

theorem readDecimal {bound : Nat} (most : Option Nat) (zeroPrefix : Bool) (below : n < bound)
    (fits : ∀ m ∈ most, 0 < m ∧ n < 10^m) (stops : Stops 10 rest) :
    readNumber 10 most zeroPrefix bound (decimal n ++ rest) = some (n,rest) :=
  readWritten (by decide) (by decide) below fits stops

theorem valueZeros (k : Nat) (ds : List Nat) : value b (List.replicate k 0 ++ ds) = value b ds := by
  induction k with
  | zero => rfl
  | succ k ih => simpa [List.replicate_succ,value] using ih

theorem readPadded {bound : Nat} (k : Nat) (large : 1 < b) (small : b ≤ 16) (below : n < bound)
    (stops : Stops b rest) :
    readNumber b none true bound ((List.replicate k '0' ++ Nat.toDigits b n) ++ rest) =
      some (n,rest) := by
  have written := writtenDigits large small n
  have zero : toDigit b '0' = some 0 := toDigitDigit small (Nat.lt_of_succ_lt large)
  have digits : ∀ c ∈ List.replicate k '0' ++ Nat.toDigits b n, toDigit b c ≠ none := by
    intro c member
    rcases List.mem_append.mp member with front|back
    · cases (List.mem_replicate.mp front).2
      simp [zero]
    · exact written.digits c back
  have padded : value b ((List.replicate k '0' ++ Nat.toDigits b n).filterMap (toDigit b)) = n := by
    rw [List.filterMap_append,List.filterMap_replicate_of_some zero,valueZeros,written.value]
  have filled : (List.replicate k '0' ++ Nat.toDigits b n).filterMap (toDigit b) ≠ [] := by
    apply List.ne_nil_of_length_pos
    rw [digitsLength digits]
    exact List.length_pos_of_ne_nil (List.append_ne_nil_of_right_ne_nil _ written.present)
  unfold readNumber
  simp only [spanDigits digits stops,padded,if_neg filled,Option.any_none,Bool.not_true,
    Bool.false_and,Bool.false_eq_true,if_false,if_pos below]

end Reading
end Vmdesk.Digits
