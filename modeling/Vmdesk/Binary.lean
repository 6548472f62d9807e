import Mathlib.Algebra.Order.Floor.Ring
import Mathlib.Data.Int.Log
import Mathlib.Data.Rat.Floor
import Mathlib.Tactic.FieldSimp
import Mathlib.Tactic.Linarith
import Mathlib.Tactic.NormNum
import Vmdesk.Rounding

/-! Binary floating point as rounding to the nearest value of so many significant digits, ties to
the even one, with a least place below which there are no digits. Infinities are left out: no
greatest exponent is set. -/
namespace Vmdesk.Binary
open Rounding (truncate)

structure Format where
  digits : Nat
  least : ℤ
  deriving DecidableEq, Repr

def single : Format := ⟨24,-149⟩

def halfEven (x : ℚ) : ℤ :=
  if x - ⌊x⌋ < 1/2 ∨ (x - ⌊x⌋ = 1/2 ∧ ⌊x⌋ % 2 = 0) then ⌊x⌋ else ⌊x⌋ + 1

namespace Format

def place (f : Format) (x : ℚ) : ℤ := max f.least (Int.log 2 |x| + 1 - f.digits)

def nearest (f : Format) (x : ℚ) : ℚ := halfEven (x/2^f.place x)*2^f.place x

def Representable (f : Format) (x : ℚ) : Prop :=
  ∃ m q : ℤ, f.least ≤ q ∧ |m| ≤ 2^f.digits ∧ x = m*2^q

end Format

variable {f : Format} {x : ℚ}

theorem halfEvenError (x : ℚ) : |(halfEven x : ℚ) - x| ≤ 1/2 := by
  have below := Int.floor_le x
  have above := Int.lt_floor_add_one x
  rw [abs_le]
  unfold halfEven
  split
  · next near =>
    have rest : x - ⌊x⌋ ≤ 1/2 := by
      cases near with
      | inl less => exact less.le
      | inr tie => exact tie.1.le
    constructor <;> linarith
  · next far =>
    have rest : 1/2 ≤ x - ⌊x⌋ := not_lt.mp (fun less => far (Or.inl less))
    push_cast
    constructor <;> linarith

theorem halfEvenInt (n : ℤ) : halfEven n = n := by simp [halfEven]

theorem halfEvenBound {limit : ℤ} (below : |x| ≤ limit) : |halfEven x| ≤ limit := by
  have error := abs_le.mp (halfEvenError x)
  have range := abs_le.mp below
  have upper : (halfEven x : ℚ) < ((limit + 1 : ℤ) : ℚ) := by push_cast; linarith
  have lower : ((-limit - 1 : ℤ) : ℚ) < (halfEven x : ℚ) := by push_cast; linarith
  rw [Int.cast_lt] at upper lower
  rw [abs_le]
  constructor <;> omega

theorem powPositive (q : ℤ) : (0 : ℚ) < 2^q := zpow_pos (by norm_num) q

theorem nearestPlace (x : ℚ) : |f.nearest x - x| ≤ 2^f.place x/2 := by
  have unit := powPositive (f.place x)
  have error := halfEvenError (x/2^f.place x)
  have scaled : f.nearest x - x = (halfEven (x/2^f.place x) - x/2^f.place x)*2^f.place x := by
    unfold Format.nearest
    field_simp
  rw [scaled,abs_mul,abs_of_pos unit]
  have product := mul_le_mul_of_nonneg_right error unit.le
  linarith

theorem placeBound {k : ℤ} (below : |x| < 2^k) (some : x ≠ 0) (deep : f.least ≤ k - f.digits) :
    f.place x ≤ k - f.digits := by
  have filled : 0 < |x| := abs_pos.mpr some
  have exponent : Int.log 2 |x| < k := (Int.lt_zpow_iff_log_lt (by norm_num) filled).mp
    (by exact_mod_cast below)
  unfold Format.place
  omega

theorem nearestZero : f.nearest 0 = 0 := by simp [Format.nearest,halfEven]

theorem nearestError {k : ℤ} (below : |x| < 2^k) (deep : f.least ≤ k - f.digits) :
    |f.nearest x - x| ≤ 2^(k - f.digits)/2 := by
  by_cases zero : x = 0
  · rw [zero,nearestZero,sub_zero,abs_zero]
    exact div_nonneg (powPositive _).le (by norm_num)
  · have place := placeBound below zero deep
    have unit : (2 : ℚ)^f.place x ≤ 2^(k - f.digits) := zpow_le_zpow_right₀ (by norm_num) place
    have error := nearestPlace (f := f) x
    linarith

theorem scaledBound (x : ℚ) : |x/2^f.place x| ≤ (2^f.digits : ℤ) := by
  have unit := powPositive (f.place x)
  have size : |x| ≤ 2^(Int.log 2 |x| + 1) := by
    have less := Int.lt_zpow_succ_log_self (b := 2) (by norm_num) |x|
    exact_mod_cast less.le
  have reach : (2 : ℚ)^(Int.log 2 |x| + 1) ≤ 2^(f.digits + f.place x) := by
    refine zpow_le_zpow_right₀ (by norm_num) ?_
    unfold Format.place
    omega
  rw [abs_div,abs_of_pos unit,div_le_iff₀ unit]
  push_cast
  rw [← zpow_natCast,← zpow_add₀ (by norm_num)]
  exact size.trans reach

theorem nearestRepresentable (x : ℚ) : f.Representable (f.nearest x) :=
  ⟨halfEven (x/2^f.place x),f.place x,le_max_left _ _,halfEvenBound (scaledBound x),rfl⟩

theorem wholePlaces {n : ℤ} (whole : x/2^f.place x = n) : f.nearest x = x := by
  have unit := powPositive (f.place x)
  unfold Format.nearest
  rw [whole,halfEvenInt,← whole]
  field_simp

theorem multipleSelf {m q : ℤ} (same : x = m*2^q) (fine : f.place x ≤ q) : f.nearest x = x := by
  have unit := powPositive (f.place x)
  obtain ⟨d,apart⟩ := Int.eq_ofNat_of_zero_le (sub_nonneg.mpr fine)
  have split : (2 : ℚ)^q = 2^d*2^f.place x := by
    rw [← zpow_natCast,← zpow_add₀ (by norm_num)]
    congr 1
    omega
  refine wholePlaces (n := m*2^d) ?_
  rw [div_eq_iff unit.ne']
  push_cast
  rw [mul_assoc,← split]
  exact same

/- Where the last place that is kept is not among those of the value, it has all digits and the one
cut off is the zero behind them. -/
theorem fullPlaces {m q : ℤ} (same : x = m*2^q) (bound : |m| ≤ 2^f.digits) (least : f.least ≤ q)
    (zero : x ≠ 0) (coarse : q < f.place x) : |x| = 2^(f.digits + q) ∧ f.place x = q + 1 := by
  have filled : 0 < |x| := abs_pos.mpr zero
  have exponent : f.place x = Int.log 2 |x| + 1 - f.digits := by
    unfold Format.place at coarse ⊢
    omega
  have size : (2 : ℚ)^Int.log 2 |x| ≤ |x| := by
    exact_mod_cast Int.zpow_log_le_self (b := 2) (by norm_num) filled
  have mantissa : |x| ≤ 2^(f.digits + q) := by
    rw [same,abs_mul,abs_of_pos (powPositive q),zpow_add₀ (by norm_num),zpow_natCast]
    refine mul_le_mul_of_nonneg_right ?_ (powPositive q).le
    exact_mod_cast bound
  have place : Int.log 2 |x| ≤ f.digits + q :=
    (zpow_le_zpow_iff_right₀ (by norm_num : (1 : ℚ) < 2)).mp (size.trans mantissa)
  have top : Int.log 2 |x| = f.digits + q := by omega
  rw [top] at size
  exact ⟨le_antisymm mantissa size,by omega⟩

theorem nearestSelf (digits : 0 < f.digits) (fits : f.Representable x) : f.nearest x = x := by
  obtain ⟨m,q,least,bound,same⟩ := fits
  by_cases zero : x = 0
  · rw [zero,nearestZero]
  by_cases fine : f.place x ≤ q
  · exact multipleSelf same fine
  obtain ⟨full,behind⟩ := fullPlaces same bound least zero (by omega)
  have unit := powPositive (f.place x)
  obtain ⟨d,count⟩ := Nat.exists_eq_succ_of_ne_zero digits.ne'
  have size : |x| = 2^d*2^f.place x := by
    rw [full,behind,count,← zpow_natCast,← zpow_add₀ (by norm_num)]
    congr 1
    push_cast
    ring
  cases abs_choice x with
  | inl positive =>
    refine wholePlaces (n := 2^d) ?_
    rw [div_eq_iff unit.ne']
    push_cast
    linarith
  | inr negative =>
    refine wholePlaces (n := -2^d) ?_
    rw [div_eq_iff unit.ne']
    push_cast
    linarith

theorem fractionRepresentable (fits : f.Representable x) (deep : f.least ≤ 0) :
    f.Representable (x - truncate x) := by
  obtain ⟨m,q,least,bound,same⟩ := fits
  by_cases whole : 0 ≤ q
  · obtain ⟨d,nat⟩ := Int.eq_ofNat_of_zero_le whole
    have integer : x = ((m*2^d : ℤ) : ℚ) := by
      rw [same,nat]
      push_cast
      rfl
    refine ⟨0,0,deep,by simp,?_⟩
    rw [integer,Rounding.truncateInt,sub_self]
    simp
  · obtain ⟨d,nat⟩ := Int.eq_ofNat_of_zero_le (by omega : 0 ≤ -q)
    have unit : (2 : ℚ)^q*2^d = 1 := by
      rw [← zpow_natCast,← nat,← zpow_add₀ (by norm_num),add_neg_cancel,zpow_zero]
    have scaled : ((m - truncate x*2^d : ℤ) : ℚ)*2^q = x - truncate x := by
      push_cast
      rw [sub_mul,← same,mul_assoc,mul_comm (2^d : ℚ),unit,mul_one]
    refine ⟨m - truncate x*2^d,q,least,?_,scaled.symm⟩
    have less := Rounding.truncateLess x
    rw [← scaled] at less
    nth_rewrite 2 [same] at less
    rw [abs_mul,abs_mul (m : ℚ)] at less
    have shorter := le_of_mul_le_mul_right less (abs_pos.mpr (powPositive q).ne')
    exact (by exact_mod_cast shorter : |m - truncate x*2^d| ≤ |m|).trans bound

end Vmdesk.Binary
