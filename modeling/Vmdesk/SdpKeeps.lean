import Vmdesk.Firsts
import Vmdesk.SdpRewrite

/-! What the rewrite of a description keeps: of the host candidates the first of each transport
and port, of every other line all, and nothing but addresses changes. -/
namespace Vmdesk.Sdp
open Text

def hostOf (line : Text) : Option HostCandidate := match candidateTokens line with
  | some (foundation::component::transport::priority::address::port::mark::typ::extension) =>
    if mark = "typ".toList ∧ typ = "host".toList
    then some ⟨foundation,component,transport,priority,address,port,extension⟩ else none
  | _ => none

namespace HostCandidate

def line (h : HostCandidate) : Text := candidateLead ++ join " ".toList h.tokens

def pair (h : HostCandidate) : Text × Text := (toAsciiLowercase h.transport,h.port)

def addressed (h : HostCandidate) (publicIp : Text) : HostCandidate := {h with address := publicIp}

end HostCandidate

def pairOf (line : Text) : Option (Text × Text) := (hostOf line).map HostCandidate.pair

def pointed (publicIp line : Text) : Text := match hostOf line with
  | some h => (h.addressed publicIp).line
  | none => match stripPrefix connectionLead line with
    | some address => if trimEnd address = "0.0.0.0".toList then line else connectionLead ++ publicIp
    | none => line

inductive Terminator where | lf | crlf
  deriving DecidableEq, Repr

def Terminator.text : Terminator → Text
  | .lf => "\n".toList
  | .crlf => "\r\n".toList

def document (t : Terminator) (ls : List Text) : Text := ls.flatMap (fun line => line ++ t.text)

structure Clean (line : Text) : Prop where
  filled : line ≠ []
  unbroken : '\n' ∉ line
  carriage : '\r' ∉ line

/- A host candidate is spelled with single spaces and has a decimal port. -/
structure Regular (line : Text) : Prop extends Clean line where
  spaced : ∀ h, IsHost line h → line = h.line
  decimal : ∀ h, IsHost line h → ∀ c ∈ h.port, c.isDigit = true

def isConnection (line : Text) : Bool := connectionLead.isPrefixOf line

def isOther (line : Text) : Bool := (hostOf line).isNone && !isConnection line

theorem hostOfExact {line : Text} {h : HostCandidate} : hostOf line = some h ↔ IsHost line h := by
  unfold hostOf IsHost
  split
  · next f c t p a o m y more tokens =>
    rw [tokens,Option.some.injEq]
    constructor
    · intro found
      split at found
      · next marks =>
        cases Option.some.inj found
        rw [marks.1,marks.2]
        rfl
      · contradiction
    · intro same
      simp only [HostCandidate.tokens,List.cons_append,List.nil_append,List.cons.injEq] at same
      obtain ⟨rfl,rfl,rfl,rfl,rfl,rfl,rfl,rfl,rfl⟩ := same
      simp
  · next short =>
    constructor
    · intro found
      contradiction
    · intro host
      exact absurd host (by intro same; exact short _ _ _ _ _ _ _ _ _ same)

theorem hostOfNone {line : Text} : hostOf line = none ↔ ∀ h, ¬ IsHost line h := by
  constructor
  · intro none h host
    rw [hostOfExact.mpr host] at none
    contradiction
  · intro other
    cases found : hostOf line with
    | none => rfl
    | some h => exact absurd (hostOfExact.mp found) (other h)

theorem regularExact {line : Text} : Regular line ↔ (line ≠ [] ∧ '\n' ∉ line ∧ '\r' ∉ line) ∧
    (hostOf line).all (fun h => line = h.line && h.port.all Char.isDigit) = true := by
  constructor
  · intro regular
    refine ⟨⟨regular.filled,regular.unbroken,regular.carriage⟩,?_⟩
    cases named : hostOf line with
    | none => rfl
    | some h =>
      have host := hostOfExact.mp named
      simpa using And.intro (regular.spaced h host) (regular.decimal h host)
  · intro checked
    obtain ⟨⟨filled,unbroken,carriage⟩,named⟩ := checked
    have own (h : HostCandidate) (host : IsHost line h) :
        line = h.line ∧ ∀ c ∈ h.port, c.isDigit = true := by
      rw [hostOfExact.mpr host] at named
      simpa using named
    exact ⟨⟨filled,unbroken,carriage⟩,fun h host => (own h host).1,fun h host => (own h host).2⟩

instance (line : Text) : Decidable (Regular line) := decidable_of_iff _ regularExact.symm

theorem linesDocument (t : Terminator) {ls : List Text} (clean : ∀ line ∈ ls, Clean line) :
    lines (document t ls) = ls := by
  have cut (cr : Text) (ending : cr = [] ∨ cr = ['\r']) :
      lines (ls.flatMap (fun line => line ++ (cr ++ ['\n']))) = ls := by
    have flat : '\n' ∉ cr := by rcases ending with same|same <;> simp [same]
    have bare (line : Text) (own : line ∈ ls) :
        (stripSuffixChar '\r' (line ++ cr)).getD (line ++ cr) = line := by
      rcases ending with same|same
      · have last : line.getLast? ≠ some '\r' :=
          fun ret => (clean line own).carriage (List.mem_of_getLast? ret)
        simp [same,stripSuffixChar,last]
      · simp [same,stripSuffixChar]
    have stripped : ((ls.map (fun line => line ++ cr)) ++ [[]]).map
        (fun l => (stripSuffixChar '\r' l).getD l) = ls ++ [[]] := by
      rw [List.map_append,List.map_map]
      refine congrArg₂ (· ++ ·) ?_ (by simp [stripSuffixChar])
      exact (List.map_congr_left (g := id) bare).trans (List.map_id ls)
    rw [lines,splitLines cr (fun line own => (clean line own).unbroken) flat,stripped,
      List.filter_append]
    simp only [List.filter_cons,List.isEmpty_nil,Bool.not_true,Bool.false_eq_true,if_false,
      List.filter_nil,List.append_nil]
    exact List.filter_eq_self.mpr (fun line own => by simpa using (clean line own).filled)
  cases t with
  | lf => exact cut [] (Or.inl rfl)
  | crlf => exact cut ['\r'] (Or.inr rfl)

theorem documentEnding {t : Terminator} {ls : List Text} (clean : ∀ line ∈ ls, Clean line)
    (some : ls ≠ []) :
    (if (rfind "\r\n".toList (document t ls)).isSome then "\r\n".toList else "\n".toList) =
      t.text := by
  cases t with
  | lf =>
    have carriage : '\r' ∉ document .lf ls := by
      intro inside
      obtain ⟨line,own,ret⟩ := List.mem_flatMap.mp inside
      rcases List.mem_append.mp ret with within|ending
      · exact (clean line own).carriage within
      · exact absurd ending (by decide)
    have absent : rfind "\r\n".toList (document .lf ls) = none := by
      rw [rfindAbsent]
      intro occurs
      exact carriage (occurs.subset (by decide))
    rw [absent]
    rfl
  | crlf =>
    have present : rfind "\r\n".toList (document .crlf ls) ≠ none := by
      rw [ne_eq,rfindAbsent,not_not]
      obtain ⟨first,rest,same⟩ := List.exists_cons_of_ne_nil some
      rw [same]
      exact ⟨first,document .crlf rest,by simp [document,Terminator.text]⟩
    rw [Option.isSome_iff_ne_none.mpr present]
    rfl

section Lines
variable {publicIp line : Text} {h : HostCandidate}

theorem joinedTokens (h : HostCandidate) (some : h.extension ≠ []) :
    join " ".toList h.tokens = join " ".toList [h.foundation,h.component,h.transport,h.priority,
      h.address,h.port,"typ".toList,"host".toList] ++ " ".toList ++ h.joined := by
  obtain ⟨e,more,shape⟩ := List.exists_cons_of_ne_nil some
  simp [HostCandidate.tokens,HostCandidate.joined,join,shape]

theorem regularFound (regular : Regular line) (host : IsHost line h) :
    extensionOf line h.extension = some h.joined := by
  rw [extensionFound host]
  have spelled := regular.spaced h host
  have words := extensionWords host
  by_cases bare : h.extension = []
  · have empty : h.joined = [] := (joinEmpty words).mpr bare
    rw [empty]
    exact ⟨by simp,by simp,by simp⟩
  · have blank : Blank [] := by decide
    have last (front : Text) := lastFromEnding " ".toList words front blank bare
    simp only [List.append_nil] at last
    rw [spelled,HostCandidate.line,joinedTokens h bare,← List.append_assoc]
    exact last _

theorem addressedLine (words : ∀ t ∈ h.extension, Word t) :
    (h.parsed h.joined).withAddress publicIp = (h.addressed publicIp).line := by
  unfold Candidate.withAddress HostCandidate.parsed HostCandidate.line HostCandidate.addressed
    HostCandidate.tokens
  simp only
  by_cases bare : h.extension = []
  · have empty : h.joined = [] := (joinEmpty words).mpr bare
    simp [empty,bare]
  · have filled : ¬ h.joined.isEmpty = true := by
      rw [List.isEmpty_iff]
      exact fun none => bare ((joinEmpty words).mp none)
    obtain ⟨e,more,shape⟩ := List.exists_cons_of_ne_nil bare
    rw [if_neg filled]
    simp [HostCandidate.joined,shape,join]

theorem decimalPort (regular : Regular line) (host : IsHost line h) : '|' ∉ h.port := by
  intro bar
  exact absurd (regular.decimal h host '|' bar) (by decide)

theorem candidateNotConnection {address : Text} (lead : stripPrefix connectionLead line = some address) :
    parseCandidate line = none := by
  cases parsed : stripPrefix candidateLead line with
  | none => simp [parseCandidate,parsed]
  | some body =>
    have heads := congrArg List.head? ((stripPrefixSome.mp lead).symm.trans (stripPrefixSome.mp parsed))
    have c : (connectionLead ++ address).head? = some 'c' := rfl
    have a : (candidateLead ++ body).head? = some 'a' := rfl
    rw [a,c] at heads
    contradiction

theorem rewriteRegular (regular : Regular line) (seen : List Text) :
    rewriteLine publicIp seen line = match hostOf line with
      | some h => if h.key publicIp ∈ seen then (none,seen)
          else (some (pointed publicIp line),seen ++ [h.key publicIp])
      | none => (some (pointed publicIp line),seen) := by
  cases named : hostOf line with
  | some h =>
    have host := hostOfExact.mp named
    rw [rewriteLineHost host,regularFound regular host]
    simp only [pointed,named,addressedLine (extensionWords host)]
  | none =>
    have other := hostOfNone.mp named
    simp only [pointed,named]
    cases lead : stripPrefix connectionLead line with
    | some address =>
      simp only [rewriteLine,candidateNotConnection lead,lead]
      by_cases own : trimEnd address = "0.0.0.0".toList
      · rw [if_neg (not_not.mpr own),if_pos own]
      · rw [if_pos own,if_neg own]
    | none =>
      simp only [rewriteLine,lead]
      split
      · next c parsed =>
        have typ : c.typ ≠ "host".toList := by
          intro host
          obtain ⟨h,own⟩ := parseIsHost parsed host
          exact other h own
        rw [if_neg typ]
      · rfl

end Lines

theorem lastBar {a b p q : Text} (left : '|' ∉ p) (right : '|' ∉ q)
    (same : a ++ '|'::p = b ++ '|'::q) : a = b ∧ p = q := by
  rcases List.append_eq_append_iff.mp same with ⟨between,longer,rest⟩|⟨between,longer,rest⟩
  all_goals
    cases between with
    | nil =>
      have tails := (List.cons.inj rest).2
      simp [longer,tails]
    | cons c between =>
      have tails := (List.cons.inj rest).2
      have inside := congrArg ('|' ∈ ·) tails
      simp [left,right] at inside

theorem keyPair {g h : HostCandidate} (publicIp : Text) (left : '|' ∉ g.port)
    (right : '|' ∉ h.port) : g.key publicIp = h.key publicIp ↔ g.pair = h.pair := by
  have spelled (h : HostCandidate) : h.key publicIp =
      (toAsciiLowercase h.transport ++ '|'::publicIp) ++ '|'::h.port := by
    simp [HostCandidate.key,HostCandidate.parsed,Candidate.key]
  rw [spelled,spelled,HostCandidate.pair,HostCandidate.pair,Prod.mk.injEq]
  constructor
  · intro same
    obtain ⟨fronts,ports⟩ := lastBar left right same
    exact ⟨(List.append_inj' fronts rfl).1,ports⟩
  · intro same
    rw [same.1,same.2]

def keyOf (publicIp line : Text) : Option Text := (hostOf line).map (fun h => h.key publicIp)

def unseen (publicIp : Text) (seen : List Text) (line : Text) : Bool :=
  (keyOf publicIp line).all (fun k => !seen.contains k)

theorem rewriteLinesFirsts {publicIp : Text} {seen ls : List Text}
    (regular : ∀ line ∈ ls, Regular line) : rewriteLines publicIp seen ls =
      ((firsts (keyOf publicIp) ls).filter (unseen publicIp seen)).map (pointed publicIp) := by
  induction ls generalizing seen with
  | nil => rfl
  | cons line ls ih =>
    have tail (seen : List Text) : rewriteLines publicIp seen ls =
        ((firsts (keyOf publicIp) ls).filter (unseen publicIp seen)).map (pointed publicIp) :=
      ih (fun other own => regular other (by simp [own]))
    rw [rewriteLines,rewriteRegular (regular line (by simp)),firsts,List.filter_cons,
      List.filter_filter]
    cases named : hostOf line with
    | none =>
      have unkeyed : keyOf publicIp line = none := by simp [keyOf,named]
      have first : unseen publicIp seen line = true := by simp [unseen,unkeyed]
      simp only [first,if_true,List.map_cons,Option.toList_some,List.singleton_append,tail]
      refine congrArg (fun kept => pointed publicIp line::kept.map (pointed publicIp))
          (List.filter_congr (fun y _ => ?_))
      simp [SameKey,unkeyed]
    | some h =>
      have keyed : keyOf publicIp line = some (h.key publicIp) := by simp [keyOf,named]
      have same (y : Text) : SameKey (keyOf publicIp) line y ↔
          keyOf publicIp y = some (h.key publicIp) := by simp [SameKey,keyed]
      by_cases known : h.key publicIp ∈ seen
      · have first : unseen publicIp seen line = false := by simp [unseen,keyed,known]
        simp only [known,if_true,first,Bool.false_eq_true,if_false,Option.toList_none,
          List.nil_append,tail]
        refine congrArg (List.map _) (List.filter_congr (fun y _ => ?_))
        cases key : keyOf publicIp y with
        | none => simp [same,key]
        | some k =>
          by_cases k = h.key publicIp
          · simp_all [unseen]
          · simp_all
      · have first : unseen publicIp seen line = true := by simp [unseen,keyed,known]
        simp only [known,if_false,first,if_true,List.map_cons,Option.toList_some,
          List.singleton_append,tail]
        refine congrArg (fun kept => pointed publicIp line::kept.map (pointed publicIp))
          (List.filter_congr (fun y _ => ?_))
        cases key : keyOf publicIp y with
        | none => simp [unseen,same,key]
        | some k => simp [unseen,same,key]

theorem firstsPairs {publicIp : Text} {ls : List Text} (regular : ∀ line ∈ ls, Regular line) :
    firsts (keyOf publicIp) ls = firsts pairOf ls := by
  apply firstsCongr
  intro x own y other
  unfold SameKey keyOf pairOf
  cases left : hostOf x with
  | none => simp
  | some g =>
    cases right : hostOf y with
    | none => simp
    | some h =>
      have keys := keyPair publicIp
        (decimalPort (regular x own) (hostOfExact.mp left))
        (decimalPort (regular y other) (hostOfExact.mp right))
      simp only [Option.map_some,Option.some.injEq,exists_eq_left']
      rw [eq_comm,keys,eq_comm]

theorem leadFound (lead text : Text) : lead.isPrefixOf (lead ++ text) = true :=
  List.isPrefixOf_iff_prefix.mpr (List.prefix_append lead text)

theorem connectionApart (text : Text) : connectionLead.isPrefixOf (candidateLead ++ text) = false :=
  rfl

theorem candidateApart (text : Text) : candidateLead.isPrefixOf (connectionLead ++ text) = false :=
  rfl

section Pointed
variable {publicIp line : Text} {h : HostCandidate}

theorem addressedHost (host : IsHost line h) (word : Word publicIp) :
    IsHost (h.addressed publicIp).line (h.addressed publicIp) := by
  have words := extensionWords host
  have tokens := withAddressTokens host word h.joined
  rw [addressedLine words] at tokens
  have again : splitAsciiWhitespace h.joined = h.extension := splitJoin words
  rw [again] at tokens
  exact tokens

theorem pointedHost (word : Word publicIp) :
    hostOf (pointed publicIp line) = (hostOf line).map (fun h => h.addressed publicIp) := by
  cases named : hostOf line with
  | some h =>
    simp only [pointed,named,Option.map_some]
    exact hostOfExact.mpr (addressedHost (hostOfExact.mp named) word)
  | none =>
    simp only [pointed,named,Option.map_none]
    split
    · split
      · exact named
      · exact hostOfNone.mpr (fun h => connectionNotHost publicIp h)
    · exact named

theorem pointedConnection : isConnection (pointed publicIp line) = isConnection line := by
  unfold pointed
  cases named : hostOf line with
  | some h =>
    obtain ⟨body,same,_⟩ := candidateTokensSome.mp (hostOfExact.mp named)
    rw [same]
    exact (connectionApart _).trans (connectionApart body).symm
  | none =>
    simp only
    split
    · next address lead =>
      split
      · rfl
      · rw [stripPrefixSome.mp lead]
        exact (leadFound connectionLead publicIp).trans (leadFound connectionLead address).symm
    · rfl

theorem pointedOther (other : isOther line = true) : pointed publicIp line = line := by
  simp only [isOther,Bool.and_eq_true,Option.isNone_iff_eq_none,Bool.not_eq_true'] at other
  have lead : stripPrefix connectionLead line = none := by
    have apart : connectionLead.isPrefixOf line = false := other.2
    simp [stripPrefix,apart]
  simp [pointed,other.1,lead]

theorem pointedClean (word : Word publicIp) (clean : Clean line) : Clean (pointed publicIp line) := by
  unfold pointed
  cases named : hostOf line with
  | some h =>
    have words := hostWords (addressedHost (hostOfExact.mp named) word)
    have flat {c : Char} (blank : isAsciiWhitespace c = true) (lead : c ∉ candidateLead)
        (space : c ∉ " ".toList) : c ∉ (h.addressed publicIp).line := by
      unfold HostCandidate.line
      rw [List.mem_append,not_or]
      exact ⟨lead,joinWithout space (fun t own => wordWithout (words t own) blank)⟩
    refine ⟨?_,flat (by decide) (by decide) (by decide),flat (by decide) (by decide) (by decide)⟩
    exact List.append_ne_nil_of_left_ne_nil (by decide) _
  | none =>
    simp only
    split
    · split
      · exact clean
      · have flat {c : Char} (blank : isAsciiWhitespace c = true) (lead : c ∉ connectionLead) :
            c ∉ connectionLead ++ publicIp := by
          rw [List.mem_append,not_or]
          exact ⟨lead,wordWithout word blank⟩
        refine ⟨?_,flat (by decide) (by decide),flat (by decide) (by decide)⟩
        exact List.append_ne_nil_of_left_ne_nil (by decide) _
    · exact clean

theorem pointedCandidate :
    candidateLead.isPrefixOf (pointed publicIp line) = candidateLead.isPrefixOf line := by
  unfold pointed
  cases named : hostOf line with
  | some h =>
    obtain ⟨body,same,_⟩ := candidateTokensSome.mp (hostOfExact.mp named)
    rw [same]
    exact (leadFound candidateLead _).trans (leadFound candidateLead body).symm
  | none =>
    simp only
    split
    · next address lead =>
      split
      · rfl
      · rw [stripPrefixSome.mp lead]
        exact (candidateApart publicIp).trans (candidateApart address).symm
    · rfl

end Pointed

structure Rewritten (publicIp : Text) (ls out : List Text) : Prop where
  clean : ∀ line ∈ out, Clean line
  placed : out = (firsts pairOf ls).map (pointed publicIp)
  others : out.filter isOther = ls.filter isOther
  connections : out.filter isConnection = (ls.filter isConnection).map (pointed publicIp)
  hosts : out.filterMap hostOf = (firsts (fun h => some h.pair) (ls.filterMap hostOf)).map
    (fun h => h.addressed publicIp)
  single : ((out.filterMap hostOf).map HostCandidate.pair).Nodup
  complete : ∀ h ∈ ls.filterMap hostOf, ∃ g ∈ out.filterMap hostOf, g.pair = h.pair

theorem otherUnpaired {line : Text} (other : isOther line = true) : pairOf line = none := by
  simp only [isOther,Bool.and_eq_true,Option.isNone_iff_eq_none] at other
  simp [pairOf,other.1]

theorem connectionUnpaired {line : Text} (connection : isConnection line = true) :
    pairOf line = none := by
  obtain ⟨address,same⟩ := List.isPrefixOf_iff_prefix.mp connection
  have other : hostOf line = none := by
    rw [← same]
    exact hostOfNone.mpr (fun h => connectionNotHost address h)
  simp [pairOf,other]

theorem pointedFilter {publicIp : Text} {p : Text → Bool} {ls : List Text}
    (unpaired : ∀ line, p line = true → pairOf line = none)
    (stays : ∀ line, p (pointed publicIp line) = p line) :
    ((firsts pairOf ls).map (pointed publicIp)).filter p = (ls.filter p).map (pointed publicIp) := by
  have same : p ∘ pointed publicIp = p := funext stays
  rw [List.filter_map,same,firstsUnkeyed pairOf p unpaired]

theorem rewritten {publicIp : Text} (word : Word publicIp) {ls : List Text}
    (regular : ∀ line ∈ ls, Regular line) :
    Rewritten publicIp ls ((firsts pairOf ls).map (pointed publicIp)) := by
  have kept (line : Text) : isOther (pointed publicIp line) = isOther line := by
    simp only [isOther,pointedConnection,pointedHost word,Option.isNone_map]
  have hosts : ((firsts pairOf ls).map (pointed publicIp)).filterMap hostOf =
      (firsts (fun h => some h.pair) (ls.filterMap hostOf)).map (fun h => h.addressed publicIp) := by
    rw [List.filterMap_map,← firstsFilterMap hostOf HostCandidate.pair,List.map_filterMap]
    exact List.filterMap_congr (fun line _ => pointedHost word)
  have pairs : (((firsts pairOf ls).map (pointed publicIp)).filterMap hostOf).map
      HostCandidate.pair = (firsts (fun h => some h.pair) (ls.filterMap hostOf)).map
        HostCandidate.pair := by
    rw [hosts,List.map_map]
    rfl
  refine ⟨?_,rfl,?_,?_,hosts,?_,?_⟩
  · intro line inside
    obtain ⟨source,own,same⟩ := List.mem_map.mp inside
    rw [← same]
    exact pointedClean word (regular source ((firstsSublist pairOf ls).subset own)).toClean
  · rw [pointedFilter (fun _ other => otherUnpaired other) kept]
    refine (List.map_congr_left (g := id) (fun line inside => ?_)).trans (List.map_id _)
    exact pointedOther (List.mem_filter.mp inside).2
  · exact pointedFilter (fun _ connection => connectionUnpaired connection)
      (fun _ => pointedConnection)
  · rw [pairs]
    have single := firstsSingle (fun h => some h.pair) (ls.filterMap hostOf)
    rwa [List.filterMap_eq_map'] at single
  · intro h own
    obtain ⟨g,first,same⟩ := firstsMember (fun h => some h.pair) own rfl
    refine ⟨g.addressed publicIp,?_,Option.some.inj same⟩
    rw [hosts]
    exact List.mem_map.mpr ⟨g,first,rfl⟩

theorem rewriteDocument (t : Terminator) {publicIp : Text} {ls : List Text}
    (regular : ∀ line ∈ ls, Regular line) : rewriteHostCandidates (document t ls) publicIp =
      document t ((firsts pairOf ls).map (pointed publicIp)) := by
  have clean : ∀ line ∈ ls, Clean line := fun line own => (regular line own).toClean
  cases ls with
  | nil => rfl
  | cons first ls =>
    unfold rewriteHostCandidates
    simp only
    rw [documentEnding clean (List.cons_ne_nil first ls),linesDocument t clean,
      rewriteLinesFirsts regular,firstsPairs regular]
    have all : (firsts pairOf (first::ls)).filter (unseen publicIp []) = firsts pairOf (first::ls) :=
      List.filter_eq_self.mpr (fun line _ => by
        unfold unseen
        cases keyOf publicIp line <;> simp)
    rw [all]
    rfl

theorem candidatesKept {publicIp : Text} (ls : List Text) :
    (∃ line ∈ (firsts pairOf ls).map (pointed publicIp), candidateLead.isPrefixOf line = true) ↔
      ∃ line ∈ ls, candidateLead.isPrefixOf line = true := by
  constructor
  · intro given
    obtain ⟨line,inside,lead⟩ := given
    obtain ⟨source,own,same⟩ := List.mem_map.mp inside
    rw [← same,pointedCandidate] at lead
    exact ⟨source,(firstsSublist pairOf ls).subset own,lead⟩
  · intro given
    obtain ⟨line,own,lead⟩ := given
    have here (source : Text) (first : source ∈ firsts pairOf ls)
        (lead : candidateLead.isPrefixOf source = true) :
        ∃ line ∈ (firsts pairOf ls).map (pointed publicIp), candidateLead.isPrefixOf line = true :=
      ⟨pointed publicIp source,List.mem_map.mpr ⟨source,first,rfl⟩,pointedCandidate.trans lead⟩
    cases pair : pairOf line with
    | none =>
      refine here line ?_ lead
      have same := firstsUnkeyed pairOf (fun line => (pairOf line).isNone) (by simp) ls
      have member : line ∈ ls.filter (fun line => (pairOf line).isNone) := by simp [own,pair]
      rw [← same] at member
      exact (List.mem_filter.mp member).1
    | some k =>
      obtain ⟨source,first,same⟩ := firstsMember pairOf own pair
      refine here source first ?_
      obtain ⟨h,named,_⟩ := Option.map_eq_some_iff.mp same
      obtain ⟨body,spelled,_⟩ := candidateTokensSome.mp (hostOfExact.mp named)
      rw [spelled]
      exact leadFound candidateLead body

theorem candidateCountZero (t : Terminator) {ls : List Text} (clean : ∀ line ∈ ls, Clean line) :
    candidateCount (document t ls) = 0 ↔ ¬ ∃ line ∈ ls, candidateLead.isPrefixOf line = true := by
  rw [candidateCount,linesDocument t clean,List.length_eq_zero_iff,List.filter_eq_nil_iff]
  simp

/- The rewrite loses nothing and invents nothing. -/
theorem rewriteKeeps (t : Terminator) (ls : List Text) (publicIp : Text) (word : Word publicIp)
    (regular : ∀ line ∈ ls, Regular line) :
    ∃ out, rewriteHostCandidates (document t ls) publicIp = document t out ∧
      Rewritten publicIp ls out ∧
      (candidateCount (document t out) = 0 ↔ candidateCount (document t ls) = 0) := by
  have lines := rewritten word regular
  refine ⟨_,rewriteDocument t regular,lines,?_⟩
  rw [candidateCountZero t lines.clean,
    candidateCountZero t (fun line own => (regular line own).toClean),candidatesKept]

def answer : List Text := ["v=0".toList,"c=IN IP4 10.0.0.7".toList,
  "a=candidate:1 1 udp 7 10.0.0.7 50000 typ host generation 0".toList,
  "a=candidate:2 1 UDP 6 172.17.0.1 50000 typ host generation 0".toList,
  "a=candidate:3 1 udp 5 203.0.113.9 50000 typ srflx".toList,"c=IN IP4 0.0.0.0".toList]

theorem rewriteKeepsAnswer : Word "129.146.1.2".toList ∧ (∀ line ∈ answer, Regular line) ∧
    ∃ out, rewriteHostCandidates (document .crlf answer) "129.146.1.2".toList =
        document .crlf out ∧ Rewritten "129.146.1.2".toList answer out ∧
      (candidateCount (document .crlf out) = 0 ↔ candidateCount (document .crlf answer) = 0) := by
  have word : Word "129.146.1.2".toList := by decide
  have regular : ∀ line ∈ answer, Regular line := by decide +kernel
  exact ⟨word,regular,rewriteKeeps .crlf answer _ word regular⟩

end Vmdesk.Sdp
