import Mathlib.Data.Nat.Digits.Lemmas

/-! Fixed-width little-endian words over any width. Reading is positional base 256;
nothing here depends on a particular message format. -/
namespace Vmdesk.LittleEndian

abbrev Bytes := List UInt8

def write : Nat → Nat → Bytes
  | 0,_ => []
  | width+1,value => UInt8.ofNat value :: write width (value/256)

def read (raw : Bytes) : Nat := Nat.ofDigits 256 (raw.map UInt8.toNat)

theorem writeLength (width value : Nat) : (write width value).length = width := by
  induction width generalizing value with
  | zero => rfl
  | succ width ih => simp [write,ih]

theorem readCons (b : UInt8) (raw : Bytes) : read (b::raw) = b.toNat + 256 * read raw := by
  simp [read,Nat.ofDigits_cons]

theorem readBound (raw : Bytes) : read raw < 256 ^ raw.length := by
  have digits : ∀ d ∈ raw.map UInt8.toNat, d < 256 := by
    intro d mem
    obtain ⟨b,_,rfl⟩ := List.mem_map.mp mem
    exact b.toNat_lt
  simpa [read] using Nat.ofDigits_lt_base_pow_length (b := 256) (by omega) digits

theorem readWrite (width value : Nat) (bound : value < 256 ^ width) :
    read (write width value) = value := by
  induction width generalizing value with
  | zero =>
    have zero : value = 0 := by simpa using bound
    simp [write,read,zero]
  | succ width ih =>
    have high : value/256 < 256 ^ width := by
      rw [Nat.div_lt_iff_lt_mul (by omega),← Nat.pow_succ]
      exact bound
    rw [write,readCons,ih _ high,UInt8.toNat_ofNat']
    omega

theorem writeRead (raw : Bytes) : write raw.length (read raw) = raw := by
  induction raw with
  | nil => rfl
  | cons b raw ih =>
    have low := b.toNat_lt
    have head : UInt8.ofNat (read (b::raw)) = b := by
      apply UInt8.toNat_inj.mp
      rw [UInt8.toNat_ofNat',readCons]
      omega
    have tail : read (b::raw) / 256 = read raw := by
      rw [readCons]
      omega
    rw [List.length_cons,write,head,tail,ih]

end Vmdesk.LittleEndian
