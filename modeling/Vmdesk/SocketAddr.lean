import Vmdesk.Digits

/-! Socket addresses as the standard library writes and reads them: version 6 in its compressed
form, with a scope but without the flow label. -/
namespace Vmdesk

structure Ipv4Addr where
  a : UInt8
  b : UInt8
  c : UInt8
  d : UInt8
  deriving DecidableEq, Repr

structure Ipv6Addr where
  segments : List UInt16
  eight : segments.length = 8
  deriving DecidableEq, Repr

inductive SocketAddr where
  | v4 (ip : Ipv4Addr) (port : UInt16)
  | v6 (ip : Ipv6Addr) (port : UInt16) (flowinfo scopeId : UInt32)
  deriving DecidableEq, Repr

namespace SocketAddr
open Digits

def hex (segment : UInt16) : Text := Nat.toDigits 16 segment.toNat

def displayV4 (ip : Ipv4Addr) : Text :=
  decimal ip.a.toNat ++ '.'::(decimal ip.b.toNat ++ '.'::(decimal ip.c.toNat ++
    '.'::decimal ip.d.toNat))

structure Span where
  start : Nat
  len : Nat
  deriving DecidableEq, Repr

/- The loop over the segments: the first of the longest runs of zeros. -/
def zeroes (i : Nat) (longest current : Span) : List UInt16 → Span
  | [] => longest
  | segment::rest =>
      if segment = 0 then
        let current : Span := ⟨if current.len = 0 then i else current.start,current.len + 1⟩
        zeroes (i + 1) (if longest.len < current.len then current else longest) current rest
      else zeroes (i + 1) longest ⟨0,0⟩ rest

/- `fmt_subslice` -/
def groups (chunk : List UInt16) : Text := Text.join ":".toList (chunk.map hex)

def toIpv4Mapped (ip : Ipv6Addr) : Option Ipv4Addr := match ip.segments with
  | [a,b,c,d,e,f,high,low] => if [a,b,c,d,e,f] = [0,0,0,0,0,0xffff] then
      some ⟨UInt8.ofNat (high.toNat/256),UInt8.ofNat high.toNat,
        UInt8.ofNat (low.toNat/256),UInt8.ofNat low.toNat⟩ else none
  | _ => none

def displayV6 (ip : Ipv6Addr) : Text := match toIpv4Mapped ip with
  | some ipv4 => "::ffff:".toList ++ displayV4 ipv4
  | none =>
      let longest := zeroes 0 ⟨0,0⟩ ⟨0,0⟩ ip.segments
      if 1 < longest.len then groups (ip.segments.take longest.start) ++ "::".toList ++
        groups (ip.segments.drop (longest.start + longest.len))
      else groups ip.segments

def display : SocketAddr → Text
  | v4 ip port => displayV4 ip ++ ':'::decimal port.toNat
  | v6 ip port _ scopeId =>
      if scopeId = 0 then '['::(displayV6 ip ++ ']' :: ':' :: decimal port.toNat)
      else '['::(displayV6 ip ++ '%'::(decimal scopeId.toNat ++ ']' :: ':' :: decimal port.toNat))

def readGivenChar (given : Char) : Text → Option Text
  | c::s => if c = given then some s else none
  | [] => none

def readOctet (s : Text) : Option (UInt8 × Text) := do
  let (n,s) ← readNumber 10 (some 3) false 256 s
  some (UInt8.ofNat n,s)

def readIpv4Addr (s : Text) : Option (Ipv4Addr × Text) := do
  let (a,s) ← readOctet s
  let (b,s) ← readOctet (← readGivenChar '.' s)
  let (c,s) ← readOctet (← readGivenChar '.' s)
  let (d,s) ← readOctet (← readGivenChar '.' s)
  some (⟨a,b,c,d⟩,s)

/- `read_separator` with a colon -/
def separated (first : Bool) (s : Text) : Option Text :=
  if first then some s else readGivenChar ':' s

def segment (high low : UInt8) : UInt16 := UInt16.ofNat (high.toNat*256 + low.toNat)

/- At most `limit` groups, the last two of which may be spelled like a version 4 address. -/
def readGroups : Nat → Bool → Text → List UInt16 × Bool × Text
  | 0,_,s => ([],false,s)
  | limit + 1,first,s =>
      let embedded := if 1 ≤ limit then (separated first s).bind readIpv4Addr else none
      match embedded with
      | some (ip,rest) => ([segment ip.a ip.b,segment ip.c ip.d],true,rest)
      | none => match (separated first s).bind (readNumber 16 (some 4) true 65536) with
          | some (n,rest) =>
              let (more,embedded,rest) := readGroups limit false rest
              (UInt16.ofNat n::more,embedded,rest)
          | none => ([],false,s)

/- There are never more than eight groups, so the last test does not fail. -/
def readIpv6Addr (s : Text) : Option (Ipv6Addr × Text) :=
  let (head,embedded,s) := readGroups 8 true s
  if eight : head.length = 8 then some (⟨head,eight⟩,s)
  else if embedded then none
  else do
    let s ← readGivenChar ':' s
    let s ← readGivenChar ':' s
    let (tail,_,s) := readGroups (8 - (head.length + 1)) true s
    let all := head ++ List.replicate (8 - head.length - tail.length) 0 ++ tail
    if eight : all.length = 8 then some (⟨all,eight⟩,s) else none

def readPort (s : Text) : Option (UInt16 × Text) := do
  let (n,s) ← readNumber 10 none true 65536 (← readGivenChar ':' s)
  some (UInt16.ofNat n,s)

def readScopeId (s : Text) : Option (UInt32 × Text) := do
  let (n,s) ← readNumber 10 none true 4294967296 (← readGivenChar '%' s)
  some (UInt32.ofNat n,s)

def readV4 (s : Text) : Option (SocketAddr × Text) := do
  let (ip,s) ← readIpv4Addr s
  let (port,s) ← readPort s
  some (v4 ip port,s)

def readV6 (s : Text) : Option (SocketAddr × Text) := do
  let s ← readGivenChar '[' s
  let (ip,s) ← readIpv6Addr s
  let (scopeId,s) := (readScopeId s).getD (0,s)
  let s ← readGivenChar ']' s
  let (port,s) ← readPort s
  some (v6 ip port 0 scopeId,s)

def fromStr (s : Text) : Option SocketAddr := do
  let (address,rest) ← (readV4 s).or (readV6 s)
  if rest.isEmpty then some address else none

def withoutFlow : SocketAddr → SocketAddr
  | v4 ip port => v4 ip port
  | v6 ip port _ scopeId => v6 ip port 0 scopeId

def flowinfo : SocketAddr → UInt32
  | v4 _ _ => 0
  | v6 _ _ flowinfo _ => flowinfo

theorem withoutFlowSelf {address : SocketAddr} :
    address.withoutFlow = address ↔ address.flowinfo = 0 := by
  cases address with
  | v4 ip port => simp [withoutFlow,flowinfo]
  | v6 ip port flow scopeId => simp [withoutFlow,flowinfo,eq_comm]

section Numbers
variable {rest : Text} {c : Char}

theorem stopsAt (other : toDigit 16 c = none) (radix : Nat) (small : radix ≤ 16) :
    Stops radix (c::rest) := by
  intro x first
  cases Option.some.inj first
  simp only [toDigit,Option.filter_eq_none_iff] at other ⊢
  intro d digit
  have above := other d digit
  simp only [decide_eq_true_eq] at above ⊢
  omega

theorem readOctetDecimal (n : UInt8) (stops : Stops 10 rest) :
    readOctet (decimal n.toNat ++ rest) = some (n,rest) := by
  have below := n.toNat_lt
  unfold readOctet
  rw [readDecimal (some 3) false below (fun m same => by cases same; omega) stops]
  simp

theorem readSegmentHex (g : UInt16) (stops : Stops 16 rest) :
    readNumber 16 (some 4) true 65536 (hex g ++ rest) = some (g.toNat,rest) := by
  have below := g.toNat_lt
  exact readWritten (by decide) (by decide) below (fun m same => by cases same; omega) stops

theorem readGivenSelf (c : Char) (s : Text) : readGivenChar c (c::s) = some s := if_pos rfl

theorem readGivenOther {given : Char} {s : Text} (other : s.head? ≠ some given) :
    readGivenChar given s = none := by
  cases s with
  | nil => rfl
  | cons c s => exact if_neg (fun same => other (congrArg some same))

theorem readV4Display (ip : Ipv4Addr) (stops : Stops 10 rest) :
    readIpv4Addr (displayV4 ip ++ rest) = some (ip,rest) := by
  have dot (s : Text) : Stops 10 ('.'::s) := stopsAt (by decide) 10 (by decide)
  unfold readIpv4Addr displayV4
  simp only [List.append_assoc,List.cons_append,readOctetDecimal _ (dot _),readGivenSelf,
    readOctetDecimal _ stops,Option.bind_eq_bind,Option.bind_some]

theorem toDigitWider (digit : toDigit 10 c ≠ none) : toDigit 16 c ≠ none := by
  intro none'
  have stops : Stops 10 [c] := stopsAt none' 10 (by decide)
  exact digit (stops c rfl)

theorem toDigitNarrower (other : toDigit 16 c = none) : toDigit 10 c = none := by
  by_contra digit
  exact toDigitWider digit other

theorem spanDotless {xs : Text} (dotless : ∀ x ∈ xs, x ≠ '.') (other : toDigit 10 c = none)
    (undotted : c ≠ '.') : (Digits.span 10 (xs ++ c::rest)).2.head? ≠ some '.' := by
  induction xs with
  | nil => simpa [Digits.span,other] using undotted
  | cons x xs ih =>
    rw [List.cons_append,Digits.span]
    split
    · exact ih (fun y member => dotless y (by simp [member]))
    · simpa using dotless x (by simp)

theorem readIpv4Dotless {xs : Text} (dotless : ∀ x ∈ xs, x ≠ '.') (other : toDigit 10 c = none)
    (undotted : c ≠ '.') : readIpv4Addr (xs ++ c::rest) = none := by
  have behind : (Digits.span 10 (xs ++ c::rest)).2.head? ≠ some '.' :=
    spanDotless dotless other undotted
  unfold readIpv4Addr readOctet
  cases read : readNumber 10 (some 3) false 256 (xs ++ c::rest) with
  | none => rfl
  | some found =>
    obtain ⟨n,s⟩ := found
    rw [← readRest read] at behind
    simp only [Option.bind_eq_bind,Option.bind_some,readGivenOther behind,Option.bind_none]

theorem hexDotless (g : UInt16) : ∀ x ∈ hex g, x ≠ '.' := by
  intro x member dot
  have digit := (writtenDigits (by decide) (by decide) g.toNat).digits x member
  subst dot
  exact absurd rfl digit

end Numbers

section Groups
variable {rest : Text} {limit : Nat}

def following (gs : List UInt16) : Text := gs.flatMap (fun g => ':'::hex g)

theorem groupsCons (g : UInt16) (gs : List UInt16) : groups (g::gs) = hex g ++ following gs := by
  induction gs generalizing g with
  | nil => simp [groups,Text.join,following]
  | cons h gs ih =>
    have more := ih h
    simp only [groups,Text.join] at more ⊢
    rw [List.map_cons,List.map_cons,List.intercalate_cons_cons,← List.map_cons,more]
    simp [following]

def Ends (rest : Text) : Prop :=
  ∃ c tail, rest = c::tail ∧ (c = ']' ∨ c = '%' ∨ c = ':' ∧ ∃ more, tail = ':'::more)

theorem noGroup {c : Char} (other : toDigit 16 c = none) (undotted : c ≠ '.') :
    readIpv4Addr (c::rest) = none ∧ readNumber 16 (some 4) true 65536 (c::rest) = none := by
  have dotless : readIpv4Addr ([] ++ c::rest) = none :=
    readIpv4Dotless (by simp) (toDigitNarrower other) undotted
  refine ⟨dotless,?_⟩
  simp [readNumber,Digits.span,other]

theorem readGroupsEnd (first : Bool) (ends : Ends rest) :
    readGroups limit first rest = ([],false,rest) := by
  obtain ⟨c,tail,same,which⟩ := ends
  subst same
  cases limit with
  | zero => rfl
  | succ limit =>
    have head : toDigit 16 c = none ∧ c ≠ '.' := by
      rcases which with same|same|⟨same,_⟩ <;> subst same <;> decide
    have ahead : (separated first (c::tail)).bind readIpv4Addr = none ∧
        (separated first (c::tail)).bind (readNumber 16 (some 4) true 65536) = none := by
      cases first with
      | true => exact noGroup head.1 head.2
      | false =>
        rcases which with same|same|⟨same,more,next⟩
        · subst same
          exact ⟨rfl,rfl⟩
        · subst same
          exact ⟨rfl,rfl⟩
        · subst same next
          exact noGroup (by decide) (by decide)
    unfold readGroups
    simp [ahead.1,ahead.2]

theorem readGroup (g : UInt16) (first : Bool) {s : Text} {c : Char} {tail : Text}
    (next : separated first s = some (hex g ++ c::tail)) (other : toDigit 16 c = none)
    (undotted : c ≠ '.') : readGroups (limit + 1) first s =
      (g::(readGroups limit false (c::tail)).1,(readGroups limit false (c::tail)).2) := by
  have decimal := toDigitNarrower other
  have stops : Stops 16 (c::tail) := stopsAt other 16 (by decide)
  rw [readGroups,next]
  simp only [Option.bind_some,readIpv4Dotless (hexDotless g) decimal undotted,ite_self,
    readSegmentHex g stops]
  simp

theorem groupEnds (gs : List UInt16) (ends : Ends rest) : ∃ c tail, following gs ++ rest = c::tail ∧
    toDigit 16 c = none ∧ c ≠ '.' := by
  cases gs with
  | nil =>
    obtain ⟨c,tail,same,which⟩ := ends
    refine ⟨c,tail,same,?_⟩
    rcases which with at'|at'|⟨at',_⟩ <;> subst at' <;> decide
  | cons h gs => exact ⟨':',_,rfl,by decide,by decide⟩

theorem readFollowing (gs : List UInt16) (fits : gs.length ≤ limit) (ends : Ends rest) :
    readGroups limit false (following gs ++ rest) = (gs,false,rest) := by
  induction gs generalizing limit with
  | nil => exact readGroupsEnd false ends
  | cons g gs ih =>
    cases limit with
    | zero => simp at fits
    | succ limit =>
      have later := ih (show gs.length ≤ limit by simpa using fits)
      obtain ⟨c,tail,same,other,undotted⟩ := groupEnds gs ends
      have next : separated false (following (g::gs) ++ rest) = some (hex g ++ c::tail) := by
        rw [← same]
        simp [following,separated,readGivenChar]
      rw [readGroup g false next other undotted,← same,later]

theorem readGroupsAll (gs : List UInt16) (fits : gs.length ≤ limit) (ends : Ends rest) :
    readGroups limit true (groups gs ++ rest) = (gs,false,rest) := by
  cases gs with
  | nil => exact readGroupsEnd true ends
  | cons g gs =>
    cases limit with
    | zero => simp at fits
    | succ limit =>
      obtain ⟨c,tail,same,other,undotted⟩ := groupEnds gs ends
      have next : separated true (groups (g::gs) ++ rest) = some (hex g ++ c::tail) := by
        rw [← same,groupsCons,List.append_assoc]
        rfl
      rw [readGroup g true next other undotted,← same,
        readFollowing gs (by simpa using fits) ends]

end Groups

section Zeroes

def Run (segments : List UInt16) (run : Span) : Prop :=
  ∃ a b, segments = a ++ List.replicate run.len 0 ++ b ∧ a.length = run.start

theorem zeroesRun {seen rest : List UInt16} {longest current : Span} (found : Run seen longest)
    (last : current.len = 0 ∨ ∃ a, seen = a ++ List.replicate current.len 0 ∧
      a.length = current.start) : Run (seen ++ rest) (zeroes seen.length longest current rest) := by
  induction rest generalizing seen longest current with
  | nil => simpa [zeroes] using found
  | cons g rest ih =>
    have longer : Run (seen ++ [g]) longest := by
      obtain ⟨a,b,same,start⟩ := found
      exact ⟨a,b ++ [g],by rw [same,List.append_assoc],start⟩
    have step : seen ++ g::rest = (seen ++ [g]) ++ rest := by simp
    have count : (seen ++ [g]).length = seen.length + 1 := by simp
    rw [step,zeroes]
    split
    · next zero =>
      subst zero
      have runs : ∃ a, seen ++ [0] = a ++ List.replicate (current.len + 1) 0 ∧
          a.length = if current.len = 0 then seen.length else current.start := by
        rcases last with none'|⟨a,same,start⟩
        · exact ⟨seen,by simp [none'],by simp [none']⟩
        · refine ⟨a,by rw [same,List.append_assoc,List.replicate_succ'],?_⟩
          split
          · next none' => simp [same,none']
          · exact start
      obtain ⟨a,same,start⟩ := runs
      have either (run : Span) (here : Run (seen ++ [0]) run) :
          Run (seen ++ [0]) (if longest.len < run.len then run else longest) := by
        split
        · exact here
        · exact longer
      rw [← count]
      exact ih (either _ ⟨a,[],by rw [same,List.append_nil],start⟩) (Or.inr ⟨a,same,start⟩)
    · rw [← count]
      exact ih longer (Or.inl rfl)

theorem zeroesFound (segments : List UInt16) : Run segments (zeroes 0 ⟨0,0⟩ ⟨0,0⟩ segments) := by
  have start : Run [] ⟨0,0⟩ := ⟨[],[],rfl,rfl⟩
  exact zeroesRun start (Or.inl rfl)

theorem runSplit {segments : List UInt16} {run : Span} (found : Run segments run) : ∃ a b,
    segments = a ++ List.replicate run.len 0 ++ b ∧ segments.take run.start = a ∧
      segments.drop (run.start + run.len) = b := by
  obtain ⟨a,b,same,start⟩ := found
  refine ⟨a,b,same,?_,?_⟩
  · rw [same,List.append_assoc,List.take_left' start]
  · rw [same,List.drop_left' (by simp [start])]

theorem segmentBytes (g : UInt16) :
    segment (UInt8.ofNat (g.toNat/256)) (UInt8.ofNat g.toNat) = g := by
  have below := g.toNat_lt
  apply UInt16.toNat_inj.mp
  simp only [segment,UInt16.toNat_ofNat',UInt8.toNat_ofNat']
  omega

theorem mappedSegments {ip : Ipv6Addr} {ipv4 : Ipv4Addr} (mapped : toIpv4Mapped ip = some ipv4) :
    ip.segments = [0,0,0,0,0,0xffff,segment ipv4.a ipv4.b,segment ipv4.c ipv4.d] := by
  unfold toIpv4Mapped at mapped
  split at mapped
  · next a b c d e f high low same =>
    split at mapped
    · next front =>
      cases Option.some.inj mapped
      simp only [List.cons.injEq,and_true] at front
      rw [same,segmentBytes,segmentBytes]
      simp [front]
    · contradiction
  · contradiction

end Zeroes

section Addresses
variable {rest : Text}

def Closes (rest : Text) : Prop := ∃ c tail, rest = c::tail ∧ (c = ']' ∨ c = '%')

theorem closesEnds (closes : Closes rest) : Ends rest := by
  obtain ⟨c,tail,same,which⟩ := closes
  exact ⟨c,tail,same,which.imp_right Or.inl⟩

theorem readWhole {s : Text} {ip : Ipv6Addr} {embedded : Bool}
    (read : readGroups 8 true s = (ip.segments,embedded,rest)) :
    readIpv6Addr s = some (ip,rest) := by
  unfold readIpv6Addr
  simp only [read]
  rw [dif_pos ip.eight]

theorem readAround {s around : Text} {ip : Ipv6Addr} {a b : List UInt16} {embedded : Bool}
    (head : readGroups 8 true s = (a,false,':' :: ':' :: around)) (short : a.length ≠ 8)
    (tail : readGroups (8 - (a.length + 1)) true around = (b,embedded,rest))
    (same : ip.segments = a ++ List.replicate (8 - a.length - b.length) 0 ++ b) :
    readIpv6Addr s = some (ip,rest) := by
  obtain ⟨segments,eight⟩ := ip
  subst same
  unfold readIpv6Addr
  simp only [head]
  rw [dif_neg short]
  simp only [Bool.false_eq_true,if_false,readGivenSelf,tail,Option.bind_eq_bind,Option.bind_some]
  rw [dif_pos eight]

theorem readMapped {ip : Ipv6Addr} {ipv4 : Ipv4Addr} (mapped : toIpv4Mapped ip = some ipv4)
    (stops : Stops 10 rest) :
    readIpv6Addr ("::ffff:".toList ++ displayV4 ipv4 ++ rest) = some (ip,rest) := by
  have text : "::ffff:".toList ++ displayV4 ipv4 ++ rest =
      ':' :: ':' :: (hex 0xffff ++ ':'::(displayV4 ipv4 ++ rest)) := rfl
  have head : readGroups 8 true (':' :: ':' :: (hex 0xffff ++ ':'::(displayV4 ipv4 ++ rest))) =
      ([],false,_) := readGroupsEnd true ⟨':',_,rfl,Or.inr (Or.inr ⟨rfl,_,rfl⟩)⟩
  have last : readGroups 6 false (':'::(displayV4 ipv4 ++ rest)) =
      ([segment ipv4.a ipv4.b,segment ipv4.c ipv4.d],true,rest) := by
    simp [readGroups,separated,readGivenSelf,readV4Display ipv4 stops]
  have tail : readGroups 7 true (hex 0xffff ++ ':'::(displayV4 ipv4 ++ rest)) =
      ([0xffff,segment ipv4.a ipv4.b,segment ipv4.c ipv4.d],true,rest) := by
    rw [readGroup 0xffff true rfl (by decide) (by decide),last]
  rw [text]
  exact readAround head (by decide) tail (mappedSegments mapped)

theorem readIpv6Display (ip : Ipv6Addr) (closes : Closes rest) :
    readIpv6Addr (displayV6 ip ++ rest) = some (ip,rest) := by
  have stops : Stops 10 rest := by
    obtain ⟨c,tail,same,which⟩ := closes
    subst same
    rcases which with same|same <;> subst same <;> exact stopsAt (by decide) 10 (by decide)
  have ends := closesEnds closes
  unfold displayV6
  split
  · next ipv4 mapped => exact readMapped mapped stops
  · simp only
    split
    · next long =>
      obtain ⟨a,b,same,front,back⟩ := runSplit (zeroesFound ip.segments)
      rw [front,back]
      have count := congrArg List.length same
      rw [ip.eight,List.length_append,List.length_append,List.length_replicate] at count
      have len : (zeroes 0 ⟨0,0⟩ ⟨0,0⟩ ip.segments).len = 8 - a.length - b.length := by omega
      have text : groups a ++ "::".toList ++ groups b ++ rest =
          groups a ++ ':' :: ':' :: (groups b ++ rest) := by
        simp only [List.append_assoc]
        rfl
      have head : readGroups 8 true (groups a ++ ':' :: ':' :: (groups b ++ rest)) = (a,false,_) :=
        readGroupsAll a (by omega) ⟨':',_,rfl,Or.inr (Or.inr ⟨rfl,_,rfl⟩)⟩
      rw [text]
      exact readAround head (by omega) (readGroupsAll b (by omega) ends) (len ▸ same)
    · exact readWhole (readGroupsAll ip.segments ip.eight.le ends)

theorem readPortDecimal (port : UInt16) : readPort (':'::decimal port.toNat) = some (port,[]) := by
  have stops : Stops 10 [] := by simp [Stops]
  have read := readDecimal none true port.toNat_lt (by simp) stops
  rw [List.append_nil] at read
  simp [readPort,readGivenSelf,read]

theorem readScope (scopeId : UInt32) (s : Text) :
    readScopeId ('%'::(decimal scopeId.toNat ++ ']'::s)) = some (scopeId,']'::s) := by
  have stops : Stops 10 (']'::s) := stopsAt (by decide) 10 (by decide)
  have read := readDecimal none true scopeId.toNat_lt (by simp) stops
  simp [readScopeId,readGivenSelf,read]

theorem fromStrDisplay (address : SocketAddr) :
    fromStr (display address) = some address.withoutFlow := by
  cases address with
  | v4 ip port =>
    have stops : Stops 10 (':'::decimal port.toNat) := stopsAt (by decide) 10 (by decide)
    simp [fromStr,display,readV4,readV4Display ip stops,readPortDecimal,withoutFlow]
  | v6 ip port flowinfo scopeId =>
    have bracket (s : Text) : readV4 ('['::s) = none := by
      have none' : readIpv4Addr ([] ++ '['::s) = none :=
        readIpv4Dotless (by simp) (by decide) (by decide)
      simp [readV4,show readIpv4Addr ('['::s) = none from none']
    have plain (s : Text) : readScopeId (']'::s) = none := rfl
    by_cases unscoped : scopeId = 0
    · have text : display (v6 ip port flowinfo scopeId) =
          '['::(displayV6 ip ++ ']' :: ':' :: decimal port.toNat) := if_pos unscoped
      rw [text,fromStr,bracket]
      simp [readV6,readGivenSelf,plain,readPortDecimal,withoutFlow,unscoped,
        readIpv6Display ip ⟨']',_,rfl,Or.inl rfl⟩]
    · have text : display (v6 ip port flowinfo scopeId) =
          '['::(displayV6 ip ++ '%'::(decimal scopeId.toNat ++ ']' :: ':' :: decimal port.toNat)) :=
        if_neg unscoped
      rw [text,fromStr,bracket]
      simp [readV6,readGivenSelf,readScope,readPortDecimal,withoutFlow,
        readIpv6Display ip ⟨'%',_,rfl,Or.inr rfl⟩]

end Addresses

section Signs
variable {s t : Text} {c : Char}

def Sign (c : Char) : Prop := toDigit 16 c ≠ none ∨ c ∈ ".:[]%".toList

def Signed (s : Text) : Prop := ∀ c ∈ s, Sign c

theorem signedAppend (left : Signed s) (right : Signed t) : Signed (s ++ t) :=
  fun c member => (List.mem_append.mp member).elim (left c) (right c)

theorem signedCons (first : c ∈ ".:[]%".toList) (rest : Signed s) : Signed (c::s) :=
  List.forall_mem_cons.mpr ⟨Or.inr first,rest⟩

theorem decimalSigned (n : Nat) : Signed (decimal n) := fun c member =>
  Or.inl (toDigitWider ((writtenDigits (by decide) (by decide) n).digits c member))

theorem hexSigned (g : UInt16) : Signed (hex g) := fun c member =>
  Or.inl ((writtenDigits (by decide) (by decide) g.toNat).digits c member)

theorem groupsSigned (gs : List UInt16) : Signed (groups gs) := by
  cases gs with
  | nil => simp [Signed,groups,Text.join]
  | cons g gs =>
    rw [groupsCons]
    refine signedAppend (hexSigned g) (fun c later => ?_)
    obtain ⟨h,_,inside⟩ := List.mem_flatMap.mp later
    exact signedCons (by decide) (hexSigned h) c inside

theorem displayV4Signed (ip : Ipv4Addr) : Signed (displayV4 ip) :=
  signedAppend (decimalSigned _) (signedCons (by decide) (signedAppend (decimalSigned _)
    (signedCons (by decide) (signedAppend (decimalSigned _) (signedCons (by decide)
      (decimalSigned _))))))

theorem displayV6Signed (ip : Ipv6Addr) : Signed (displayV6 ip) := by
  have colons : Signed "::".toList := fun c member => Or.inr (by
    rw [show "::".toList = [':',':'] from rfl] at member
    simp only [List.mem_cons,List.not_mem_nil,or_false,or_self] at member
    rw [member]
    decide)
  unfold displayV6
  split
  · have lead : Signed "::ffff:".toList :=
      signedAppend colons (signedAppend (hexSigned 0xffff) (signedCons (by decide) (by simp [Signed])))
    exact signedAppend lead (displayV4Signed _)
  · simp only
    split
    · exact signedAppend (signedAppend (groupsSigned _) colons) (groupsSigned _)
    · exact groupsSigned _

theorem displaySigned (address : SocketAddr) : Signed (display address) := by
  cases address with
  | v4 ip port =>
    exact signedAppend (displayV4Signed ip) (signedCons (by decide) (decimalSigned _))
  | v6 ip port flowinfo scopeId =>
    have last : Signed (']' :: ':' :: decimal port.toNat) :=
      signedCons (by decide) (signedCons (by decide) (decimalSigned _))
    unfold display
    simp only
    split
    · exact signedCons (by decide) (signedAppend (displayV6Signed ip) last)
    · exact signedCons (by decide) (signedAppend (displayV6Signed ip)
        (signedCons (by decide) (signedAppend (decimalSigned _) last)))

end Signs
end SocketAddr
end Vmdesk
