import Vmdesk.SocketAddr

/-! Addresses of either version on their own, as the standard library reads them, and what a text
that is read as one is made of. -/
namespace Vmdesk

inductive IpAddr where
  | v4 (ip : Ipv4Addr)
  | v6 (ip : Ipv6Addr)
  deriving DecidableEq, Repr

namespace IpAddr
open Digits SocketAddr

def readIpAddr (s : Text) : Option (IpAddr × Text) :=
  ((readIpv4Addr s).map (fun read => (v4 read.1,read.2))).or
    ((readIpv6Addr s).map (fun read => (v6 read.1,read.2)))

def fromStr (s : Text) : Option IpAddr := do
  let (ip,rest) ← readIpAddr s
  if rest.isEmpty then some ip else none

def Takes (s rest : Text) : Prop := ∃ used, s = used ++ rest ∧ Signed used

section Takes
variable {s t u rest : Text}

theorem takesSelf (s : Text) : Takes s s := ⟨[],rfl,fun _ none => nomatch none⟩

theorem takesTrans (first : Takes s t) (second : Takes t u) : Takes s u := by
  obtain ⟨front,cut,signed⟩ := first
  obtain ⟨middle,again,later⟩ := second
  exact ⟨front ++ middle,by rw [cut,again,List.append_assoc],signedAppend signed later⟩

theorem takesGiven {given : Char} (sign : given ∈ ".:[]%".toList)
    (read : readGivenChar given s = some rest) : Takes s rest := by
  cases s with
  | nil => contradiction
  | cons c s =>
    simp only [readGivenChar] at read
    split at read
    · next same =>
      cases Option.some.inj read
      exact ⟨[c],rfl,signedCons (same ▸ sign) (List.forall_mem_nil _)⟩
    · contradiction

theorem takesSpan {radix : Nat} (digits : ∀ c, toDigit radix c ≠ none → toDigit 16 c ≠ none)
    (s : Text) : Takes s (span radix s).2 := by
  induction s with
  | nil => exact takesSelf []
  | cons c s ih =>
    simp only [span]
    split
    · next d digit =>
      obtain ⟨used,cut,signed⟩ := ih
      exact ⟨c::used,congrArg (c :: ·) cut,List.forall_mem_cons.mpr
        ⟨Or.inl (digits c (by simp [digit])),signed⟩⟩
    · exact takesSelf _

theorem takesOctet {n : UInt8} (read : readOctet s = some (n,rest)) : Takes s rest := by
  obtain ⟨⟨m,tail⟩,number,same⟩ := Option.bind_eq_some_iff.mp read
  cases same
  rw [readRest number]
  exact takesSpan (fun _ => toDigitWider) s

theorem takesIpv4 {ip : Ipv4Addr} (read : readIpv4Addr s = some (ip,rest)) : Takes s rest := by
  simp only [readIpv4Addr,Option.bind_eq_bind,Option.bind_eq_some_iff] at read
  obtain ⟨⟨a,s₁⟩,first,s₂,dot,⟨b,s₃⟩,second,s₄,dot',⟨c,s₅⟩,third,s₆,dot'',⟨d,s₇⟩,fourth,same⟩ := read
  cases same
  have separated {s t : Text} (dot : readGivenChar '.' s = some t) : Takes s t :=
    takesGiven (by decide) dot
  exact takesTrans (takesOctet first) (takesTrans (separated dot) (takesTrans (takesOctet second)
    (takesTrans (separated dot') (takesTrans (takesOctet third)
      (takesTrans (separated dot'') (takesOctet fourth))))))

theorem takesSeparated {first : Bool} (read : separated first s = some rest) : Takes s rest := by
  cases first with
  | true =>
    cases Option.some.inj read
    exact takesSelf s
  | false => exact takesGiven (by decide) read

theorem takesGroups (limit : Nat) (first : Bool) (s : Text) :
    Takes s (readGroups limit first s).2.2 := by
  induction limit generalizing first s with
  | zero => exact takesSelf s
  | succ limit ih =>
    rw [readGroups]
    simp only
    split
    · next ip tail embedded =>
      split at embedded
      · obtain ⟨t,colon,read⟩ := Option.bind_eq_some_iff.mp embedded
        exact takesTrans (takesSeparated colon) (takesIpv4 read)
      · contradiction
    · split
      · next n tail group =>
        obtain ⟨t,colon,read⟩ := Option.bind_eq_some_iff.mp group
        have number : Takes t tail := by
          rw [readRest read]
          exact takesSpan (fun _ digit => digit) t
        exact takesTrans (takesSeparated colon) (takesTrans number (ih false tail))
      · exact takesSelf s

theorem takesIpv6 {ip : Ipv6Addr} (read : readIpv6Addr s = some (ip,rest)) : Takes s rest := by
  have head := takesGroups 8 true s
  simp only [readIpv6Addr] at read
  split at read
  · cases read
    exact head
  · split at read
    · contradiction
    · simp only [Option.bind_eq_bind,Option.bind_eq_some_iff] at read
      obtain ⟨t,colon,u,again,read⟩ := read
      have colons := takesTrans (takesGiven (by decide) colon) (takesGiven (by decide) again)
      split at read
      · cases read
        exact takesTrans head (takesTrans colons (takesGroups _ true u))
      · contradiction

theorem fromStrSigned {ip : IpAddr} (read : fromStr s = some ip) : s ≠ [] ∧ Signed s := by
  refine ⟨?_,?_⟩
  · intro empty
    rw [empty] at read
    have none' : fromStr [] = none := by decide
    rw [none'] at read
    contradiction
  · obtain ⟨⟨found,rest⟩,front,whole⟩ := Option.bind_eq_some_iff.mp read
    simp only at whole
    split at whole
    · next ended =>
      have taken : Takes s rest := by
        rcases Option.or_eq_some_iff.mp front with old|⟨_,new⟩
        · obtain ⟨⟨x,tail⟩,read,same⟩ := Option.map_eq_some_iff.mp old
          cases same
          exact takesIpv4 read
        · obtain ⟨⟨x,tail⟩,read,same⟩ := Option.map_eq_some_iff.mp new
          cases same
          exact takesIpv6 read
      obtain ⟨used,cut,signed⟩ := taken
      rw [cut,List.isEmpty_iff.mp ended,List.append_nil]
      exact signed
    · contradiction

end Takes

theorem signVisible {c : Char} (sign : Sign c) : Text.isAsciiWhitespace c = false := by
  cases sign with
  | inl digit =>
    have range := digitRange digit
    have apart (blank : Char) (low : blank.toNat < 48) : (c == blank) = false := by
      rw [beq_eq_false_iff_ne]
      intro same
      rw [same] at range
      omega
    simp [Text.isAsciiWhitespace,apart ' ' (by decide),apart '\t' (by decide),
      apart '\n' (by decide),apart '\x0c' (by decide),apart '\r' (by decide)]
  | inr given =>
    have all : ".:[]%".toList.all (fun c => Text.isAsciiWhitespace c == false) = true := by decide
    simpa using List.all_eq_true.mp all c given

theorem fromStrWord {s : Text} {ip : IpAddr} (read : fromStr s = some ip) : Text.Word s :=
  ⟨(fromStrSigned read).1,fun c inside => signVisible ((fromStrSigned read).2 c inside)⟩

end IpAddr
end Vmdesk
