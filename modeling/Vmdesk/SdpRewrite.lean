import Vmdesk.Sdp

/-! Which session descriptions leave no host candidate with its own address behind: the
rewrite tells a candidate by its tokens but finds the extension text again by its spelling. -/
namespace Vmdesk.Sdp
open Text

structure HostCandidate where
  foundation : Text
  component : Text
  transport : Text
  priority : Text
  address : Text
  port : Text
  extension : List Text
  deriving DecidableEq

namespace HostCandidate

def tokens (h : HostCandidate) : List Text :=
  [h.foundation,h.component,h.transport,h.priority,h.address,h.port,
    "typ".toList,"host".toList] ++ h.extension

def joined (h : HostCandidate) : Text := join " ".toList h.extension

def parsed (h : HostCandidate) (rest : Text) : Candidate :=
  ⟨h.foundation,h.component,h.transport,h.priority,h.address,h.port,"host".toList,rest⟩

def key (h : HostCandidate) (publicIp : Text) : Text := (h.parsed []).key publicIp

end HostCandidate

def candidateTokens (line : Text) : Option (List Text) :=
  (stripPrefix candidateLead line).map splitAsciiWhitespace

def NamesHost (tokens : List Text) : Prop :=
  tokens[6]? = some "typ".toList ∧ tokens[7]? = some "host".toList

def IsHost (line : Text) (h : HostCandidate) : Prop := candidateTokens line = some h.tokens

instance (line : Text) (h : HostCandidate) : Decidable (IsHost line h) :=
  inferInstanceAs (Decidable (_ = _))

/- Each host candidate of the rewritten description carries the public address and is an
input line otherwise. -/
def Hidden (sdp publicIp : Text) : Prop :=
  ∀ line ∈ lines (rewriteHostCandidates sdp publicIp), ∀ tokens,
    candidateTokens line = some tokens → NamesHost tokens →
    tokens[4]? = some publicIp ∧
    ∃ source ∈ lines sdp, ∃ original, candidateTokens source = some original ∧
      tokens = original.set 4 publicIp

theorem namesHost {tokens : List Text} :
    NamesHost tokens ↔ ∃ h : HostCandidate, tokens = h.tokens := by
  apply Iff.intro
  · intro named
    unfold NamesHost at named
    match tokens,named with
    | f::c::t::p::a::o::m::y::more,named =>
      simp only [List.getElem?_cons_succ,List.getElem?_cons_zero,Option.some.injEq] at named
      obtain ⟨mark,host⟩ := named
      subst mark
      subst host
      exact ⟨⟨f,c,t,p,a,o,more⟩,rfl⟩
  · intro given
    obtain ⟨h,same⟩ := given
    subst same
    exact ⟨rfl,rfl⟩

theorem tokensInjective {g h : HostCandidate} (same : g.tokens = h.tokens) : g = h := by
  cases g
  cases h
  simpa [HostCandidate.tokens] using same

theorem candidateTokensSome {line : Text} {tokens : List Text} :
    candidateTokens line = some tokens ↔
      ∃ body, line = candidateLead ++ body ∧ splitAsciiWhitespace body = tokens := by
  unfold candidateTokens
  rw [Option.map_eq_some_iff]
  simp only [stripPrefixSome]

theorem hostWords {line : Text} {h : HostCandidate} (host : IsHost line h) :
    ∀ t ∈ h.tokens, Word t := by
  obtain ⟨body,_,split⟩ := candidateTokensSome.mp host
  intro t inside
  rw [← split] at inside
  exact splitWords inside

theorem extensionWords {line : Text} {h : HostCandidate} (host : IsHost line h) :
    ∀ t ∈ h.extension, Word t := by
  intro t inside
  exact hostWords host t (List.mem_append_right _ inside)

theorem parseHost {line : Text} {h : HostCandidate} (host : IsHost line h) :
    parseCandidate line = (extensionOf line h.extension).map h.parsed := by
  obtain ⟨body,same,split⟩ := candidateTokensSome.mp host
  unfold parseCandidate
  rw [stripPrefixSome.mpr same]
  simp only [Option.bind_eq_bind,Option.bind_some,split,HostCandidate.tokens,List.cons_append,
    List.nil_append,ne_eq,not_true_eq_false,if_false]
  cases extensionOf line h.extension <;> rfl

theorem parseIsHost {line : Text} {c : Candidate} (parsed : parseCandidate line = some c)
    (typ : c.typ = "host".toList) : ∃ h, IsHost line h := by
  unfold parseCandidate at parsed
  simp only [Option.bind_eq_bind,Option.bind_eq_some_iff] at parsed
  obtain ⟨body,lead,parsed⟩ := parsed
  split at parsed
  · next f cp t p a o mark y more split =>
    split at parsed
    · contradiction
    · next typMark =>
      simp only [Option.bind_eq_some_iff,Option.some.injEq] at parsed
      obtain ⟨rest,_,same⟩ := parsed
      subst same
      have host : y = "host".toList := typ
      have marked : mark = "typ".toList := by simpa using typMark
      refine ⟨⟨f,cp,t,p,a,o,more⟩,candidateTokensSome.mpr ⟨body,stripPrefixSome.mp lead,?_⟩⟩
      rw [split,host,marked]
      rfl
  · contradiction

/- The parser finds the text from the last place where the joined extension occurs. -/
theorem extensionFound {line : Text} {h : HostCandidate} (host : IsHost line h) {rest : Text} :
    extensionOf line h.extension = some rest ↔ LastFrom h.joined line rest := by
  have words := extensionWords host
  unfold extensionOf
  by_cases bare : h.extension = []
  · have empty : h.joined = [] := (joinEmpty words).mpr bare
    have unspelled : join " ".toList h.extension = [] := empty
    simp only [unspelled,empty,List.isEmpty_nil,if_true,Option.some.injEq]
    have least : LastFrom [] line [] := ⟨by simp,by simp,by simp⟩
    apply Iff.intro
    · intro same
      rw [← same]
      exact least
    · exact lastFromUnique least
  · have filled : join " ".toList h.extension ≠ [] := by simpa [joinEmpty words] using bare
    have spelled : (join " ".toList h.extension).isEmpty = false :=
      List.isEmpty_eq_false_iff.mpr filled
    simp only [spelled,Bool.false_eq_true,if_false,Option.bind_eq_bind,Option.bind_eq_some_iff,
      Option.some.injEq]
    apply Iff.intro
    · intro found
      obtain ⟨i,at',same⟩ := found
      rw [← same]
      exact rfindLast at'
    · intro last
      cases found : rfind (join " ".toList h.extension) line with
      | none =>
        have occurs : h.joined <:+: line :=
          List.infix_iff_prefix_suffix.mpr ⟨rest,last.2.1,last.1⟩
        exact absurd occurs (rfindAbsent.mp found)
      | some i => exact ⟨i,rfl,lastFromUnique (rfindLast found) last⟩

theorem extensionLost {line : Text} {h : HostCandidate} (host : IsHost line h) :
    extensionOf line h.extension = none ↔ ¬ h.joined <:+: line := by
  apply Iff.intro
  · intro lost occurs
    simp only [extensionOf] at lost
    split at lost
    · contradiction
    · simp only [Option.bind_eq_bind,Option.bind_eq_none_iff] at lost
      cases found : rfind (join " ".toList h.extension) line with
      | none => exact rfindAbsent.mp found occurs
      | some i => exact absurd (lost i found) (by simp)
  · intro absent
    cases found : extensionOf line h.extension with
    | none => rfl
    | some rest =>
      have last := (extensionFound host).mp found
      exact absurd (List.infix_iff_prefix_suffix.mpr ⟨rest,last.2.1,last.1⟩) absent

theorem addressedWords {line : Text} {h : HostCandidate} (host : IsHost line h)
    {publicIp : Text} (word : Word publicIp) :
    ∀ t ∈ [h.foundation,h.component,h.transport,h.priority,publicIp,h.port,
      "typ".toList,"host".toList], Word t := by
  have own := hostWords host
  simp only [HostCandidate.tokens,List.mem_append,List.mem_cons] at own
  intro t inside
  simp only [List.mem_cons,List.not_mem_nil,or_false] at inside
  rcases inside with same|same|same|same|same|same|same|same <;> subst same
  all_goals first | exact word | exact own _ (by simp)

theorem withAddressTokens {line : Text} {h : HostCandidate} (host : IsHost line h)
    {publicIp : Text} (word : Word publicIp) (rest : Text) :
    IsHost ((h.parsed rest).withAddress publicIp)
      {h with address := publicIp, extension := splitAsciiWhitespace rest} := by
  have split := splitJoin (addressedWords host word)
  apply candidateTokensSome.mpr
  unfold Candidate.withAddress HostCandidate.parsed
  simp only
  split
  · next bare =>
    have empty : rest = [] := List.isEmpty_iff.mp bare
    subst empty
    exact ⟨_,rfl,split⟩
  · refine ⟨_,by rw [List.append_assoc,List.append_assoc],?_⟩
    have space : " ".toList ++ rest = ' '::rest := rfl
    rw [space,splitSeparated _ _ (by decide),split]
    rfl

theorem carriageTokens (line : Text) :
    candidateTokens ((stripSuffixChar '\r' line).getD line) = candidateTokens line := by
  unfold stripSuffixChar
  split
  · next last =>
    obtain ⟨front,same⟩ := List.getLast?_eq_some_iff.mp last
    subst same
    simp only [List.dropLast_concat,Option.getD_some]
    apply Option.ext
    intro tokens
    rw [candidateTokensSome,candidateTokensSome]
    have ending : Blank ['\r'] := by decide
    apply Iff.intro
    · intro given
      obtain ⟨body,same,split⟩ := given
      refine ⟨body ++ ['\r'],by simp [same],?_⟩
      rw [splitTrailing body ending,split]
    · intro given
      obtain ⟨body,same,split⟩ := given
      have nonempty : body ≠ [] := by
        intro empty
        subst empty
        have colon : candidateLead.getLast? = some ':' := rfl
        have ret : candidateLead.getLast? = some '\r' := by
          rw [← List.append_nil candidateLead,← same,List.getLast?_concat]
        rw [colon] at ret
        contradiction
      obtain ⟨inner,last,cut⟩ := (List.eq_nil_or_concat' body).resolve_left nonempty
      subst cut
      rw [← List.append_assoc] at same
      obtain ⟨whole,ret⟩ := List.append_inj' same rfl
      refine ⟨inner,whole,?_⟩
      rw [← ret] at split
      rw [← split,splitTrailing inner ending]
  · rfl

theorem candidateNonempty {line : Text} {tokens : List Text}
    (given : candidateTokens line = some tokens) : line ≠ [] := by
  obtain ⟨body,same,_⟩ := candidateTokensSome.mp given
  have lead : candidateLead ≠ [] := by decide
  rw [same]
  exact List.append_ne_nil_of_left_ne_nil lead body

theorem linesTokens {sdp : Text} {tokens : List Text} :
    (∃ line ∈ lines sdp, candidateTokens line = some tokens) ↔
      ∃ piece ∈ sdp.splitOn '\n', candidateTokens piece = some tokens := by
  simp only [lines,List.mem_filter,List.mem_map]
  apply Iff.intro
  · intro given
    obtain ⟨line,⟨⟨piece,inside,same⟩,_⟩,found⟩ := given
    rw [← same,carriageTokens] at found
    exact ⟨piece,inside,found⟩
  · intro given
    obtain ⟨piece,inside,found⟩ := given
    rw [← carriageTokens] at found
    exact ⟨_,⟨⟨piece,inside,rfl⟩,by simpa using candidateNonempty found⟩,found⟩

theorem linesUnbroken {sdp line : Text} (inside : line ∈ lines sdp) : '\n' ∉ line := by
  simp only [lines,List.mem_filter,List.mem_map] at inside
  obtain ⟨⟨piece,cut,same⟩,_⟩ := inside
  have unbroken : '\n' ∉ piece := by
    rw [List.splitOn_eq_splitOnP] at cut
    intro broken
    simpa using piecesUnspaced cut '\n' broken
  subst same
  unfold stripSuffixChar
  split
  · intro broken
    exact unbroken (List.dropLast_subset _ broken)
  · exact unbroken

theorem splitLines (cr : Text) {outs : List Text} (unbroken : ∀ out ∈ outs, '\n' ∉ out)
    (flat : '\n' ∉ cr) :
    (outs.flatMap (fun out => out ++ (cr ++ ['\n']))).splitOn '\n' =
      outs.map (fun out => out ++ cr) ++ [[]] := by
  induction outs with
  | nil => simp
  | cons out outs ih =>
    have rest := ih (fun other inside => unbroken other (by simp [inside]))
    have head : '\n' ∉ out ++ cr := by simp [flat,unbroken out (by simp)]
    have spelled : (out::outs).flatMap (fun out => out ++ (cr ++ ['\n'])) =
        (out ++ cr) ++ '\n'::outs.flatMap (fun out => out ++ (cr ++ ['\n'])) := by simp
    rw [spelled,List.splitOn_append_cons_self_of_not_mem head,rest]
    rfl

theorem linesJoined {cr : Text} (ending : cr = [] ∨ cr = ['\r']) {outs : List Text}
    (unbroken : ∀ out ∈ outs, '\n' ∉ out) {tokens : List Text} :
    (∃ line ∈ lines (outs.flatMap (fun out => out ++ (cr ++ ['\n']))),
        candidateTokens line = some tokens) ↔
      ∃ out ∈ outs, candidateTokens out = some tokens := by
  have ended (out : Text) : candidateTokens (out ++ cr) = candidateTokens out := by
    rcases ending with none|ret
    · rw [none,List.append_nil]
    · subst ret
      rw [← carriageTokens (out ++ ['\r'])]
      simp [stripSuffixChar]
  have flat : '\n' ∉ cr := by rcases ending with same|same <;> simp [same]
  rw [linesTokens,splitLines cr unbroken flat]
  apply Iff.intro
  · intro given
    obtain ⟨piece,inside,found⟩ := given
    simp only [List.mem_append,List.mem_map,List.mem_singleton] at inside
    rcases inside with ⟨out,member,same⟩|empty
    · rw [← same,ended] at found
      exact ⟨out,member,found⟩
    · exact absurd empty (candidateNonempty found)
  · intro given
    obtain ⟨out,member,found⟩ := given
    refine ⟨out ++ cr,?_,(ended out).trans found⟩
    simp only [List.mem_append,List.mem_map]
    exact Or.inl ⟨out,member,rfl⟩

def seenAfter (publicIp : Text) (seen ls : List Text) : List Text :=
  ls.foldl (fun seen line => (rewriteLine publicIp seen line).2) seen

theorem rewriteLinesMember {publicIp : Text} {seen ls : List Text} {out : Text} :
    out ∈ rewriteLines publicIp seen ls ↔ ∃ before line after, ls = before ++ line::after ∧
      (rewriteLine publicIp (seenAfter publicIp seen before) line).1 = some out := by
  induction ls generalizing seen with
  | nil => simp [rewriteLines]
  | cons first ls ih =>
    simp only [rewriteLines,List.mem_append,Option.mem_toList,ih]
    apply Iff.intro
    · intro given
      rcases given with here|⟨before,line,after,same,there⟩
      · exact ⟨[],first,ls,rfl,here⟩
      · exact ⟨first::before,line,after,by simp [same],there⟩
    · intro given
      obtain ⟨before,line,after,same,there⟩ := given
      cases before with
      | nil =>
        obtain ⟨head,_⟩ := List.cons.inj same
        rw [← head] at there
        exact Or.inl there
      | cons b before =>
        obtain ⟨head,tail⟩ := List.cons.inj same
        rw [← head] at there
        exact Or.inr ⟨before,line,after,tail,there⟩

theorem rewriteLinesFrom {publicIp : Text} {seen ls : List Text} {out : Text}
    (sent : out ∈ rewriteLines publicIp seen ls) :
    ∃ line ∈ ls, ∃ known, (rewriteLine publicIp known line).1 = some out := by
  obtain ⟨before,line,after,same,sent⟩ := rewriteLinesMember.mp sent
  exact ⟨line,by simp [same],_,sent⟩

theorem connectionNotHost (text : Text) (h : HostCandidate) :
    ¬ IsHost (connectionLead ++ text) h := by
  intro host
  obtain ⟨body,same,_⟩ := candidateTokensSome.mp host
  have heads := congrArg List.head? same
  have c : (connectionLead ++ text).head? = some 'c' := rfl
  have a : (candidateLead ++ body).head? = some 'a' := rfl
  rw [a,c] at heads
  contradiction

theorem rewriteLineHost {line : Text} {h : HostCandidate} (host : IsHost line h)
    (publicIp : Text) (seen : List Text) :
    rewriteLine publicIp seen line = match extensionOf line h.extension with
      | none => (some line,seen)
      | some rest =>
        if h.key publicIp ∈ seen then (none,seen)
        else (some ((h.parsed rest).withAddress publicIp),seen ++ [h.key publicIp]) := by
  unfold rewriteLine
  rw [parseHost host]
  cases extensionOf line h.extension with
  | none =>
    have other : stripPrefix connectionLead line = none := by
      cases strip : stripPrefix connectionLead line with
      | none => rfl
      | some rest =>
        rw [stripPrefixSome.mp strip] at host
        exact absurd host (connectionNotHost rest h)
    simp [other]
  | some rest => rfl

theorem rewriteLineOther {line : Text} (other : ∀ h, ¬ IsHost line h) (publicIp : Text)
    (seen : List Text) : rewriteLine publicIp seen line = (some line,seen) ∨
      rewriteLine publicIp seen line = (some (connectionLead ++ publicIp),seen) := by
  unfold rewriteLine
  split
  · next c parsed =>
    split
    · next typ =>
      obtain ⟨h,host⟩ := parseIsHost parsed typ
      exact absurd host (other h)
    · exact Or.inl rfl
  · split
    · split
      · exact Or.inr rfl
      · exact Or.inl rfl
    · exact Or.inl rfl

inductive RewritesTo (publicIp : Text) (seen : List Text) (line : Text) :
    Option Text × List Text → Prop where
  | unread (h) (host : IsHost line h) (lost : extensionOf line h.extension = none) :
      RewritesTo publicIp seen line (some line,seen)
  | dropped (h rest) (host : IsHost line h) (found : extensionOf line h.extension = some rest)
      (known : h.key publicIp ∈ seen) : RewritesTo publicIp seen line (none,seen)
  | hidden (h rest) (host : IsHost line h) (found : extensionOf line h.extension = some rest)
      (fresh : h.key publicIp ∉ seen) : RewritesTo publicIp seen line
        (some ((h.parsed rest).withAddress publicIp),seen ++ [h.key publicIp])
  | kept (other : ∀ h, ¬ IsHost line h) : RewritesTo publicIp seen line (some line,seen)
  | connection (other : ∀ h, ¬ IsHost line h) :
      RewritesTo publicIp seen line (some (connectionLead ++ publicIp),seen)

theorem rewriteLineCases (publicIp : Text) (seen : List Text) (line : Text) :
    RewritesTo publicIp seen line (rewriteLine publicIp seen line) := by
  by_cases isHost : ∃ h, IsHost line h
  · obtain ⟨h,host⟩ := isHost
    rw [rewriteLineHost host]
    split
    · next lost => exact .unread h host lost
    · next rest found =>
      split
      · next known => exact .dropped h rest host found known
      · next fresh => exact .hidden h rest host found fresh
  · have other : ∀ h, ¬ IsHost line h := fun h host => isHost ⟨h,host⟩
    rcases rewriteLineOther other publicIp seen with same|same
    · rw [same]
      exact .kept other
    · rw [same]
      exact .connection other

/- A line whose output names a host candidate names one itself: it went out unread, or it was
put together anew from the place where its extension was found. -/
theorem rewriteLineSends {publicIp : Text} (word : Word publicIp) {seen : List Text}
    {line out : Text} (sent : (rewriteLine publicIp seen line).1 = some out)
    {g : HostCandidate} (named : IsHost out g) : ∃ h, IsHost line h ∧
      ((extensionOf line h.extension = none ∧ g = h) ∨
        ∃ rest, extensionOf line h.extension = some rest ∧ h.key publicIp ∉ seen ∧
          g = {h with address := publicIp, extension := splitAsciiWhitespace rest}) := by
  have rewrites := rewriteLineCases publicIp seen line
  generalize rewriteLine publicIp seen line = result at sent rewrites
  cases rewrites with
  | unread h host lost =>
    cases Option.some.inj sent
    exact ⟨h,host,Or.inl ⟨lost,tokensInjective (Option.some.inj (named.symm.trans host))⟩⟩
  | dropped => contradiction
  | hidden h rest host found fresh =>
    cases Option.some.inj sent
    have tokens := withAddressTokens host word rest
    exact ⟨h,host,Or.inr ⟨rest,found,fresh,tokensInjective (Option.some.inj (named.symm.trans tokens))⟩⟩
  | kept other =>
    cases Option.some.inj sent
    exact absurd named (other g)
  | connection =>
    cases Option.some.inj sent
    exact absurd named (connectionNotHost publicIp g)

theorem rewriteLineWithout {publicIp : Text} (word : Word publicIp) {seen : List Text}
    {c : Char} (ending : c = '\n' ∨ c = '\r') {line out : Text} (unbroken : c ∉ line)
    (sent : (rewriteLine publicIp seen line).1 = some out) : c ∉ out := by
  have blank : isAsciiWhitespace c = true := by
    rcases ending with same|same <;> rw [same] <;> rfl
  have rewrites := rewriteLineCases publicIp seen line
  generalize rewriteLine publicIp seen line = result at sent rewrites
  cases rewrites with
  | unread | kept =>
    cases Option.some.inj sent
    exact unbroken
  | dropped => contradiction
  | hidden h rest host found =>
    cases Option.some.inj sent
    have tail : c ∉ rest := fun broken =>
      unbroken (((extensionFound host).mp found).1.subset broken)
    have lead : c ∉ candidateLead := by
      rcases ending with same|same <;> rw [same] <;> decide
    have space : c ∉ " ".toList := by
      rcases ending with same|same <;> rw [same] <;> decide
    have front := joinWithout space
      (fun t inside => wordWithout (addressedWords host word t inside) blank)
    unfold Candidate.withAddress HostCandidate.parsed
    simp only
    split
    · simp only [List.mem_append,not_or]
      exact ⟨lead,front⟩
    · simp only [List.mem_append,not_or]
      exact ⟨⟨⟨lead,front⟩,space⟩,tail⟩
  | connection =>
    cases Option.some.inj sent
    have lead : c ∉ connectionLead := by
      rcases ending with same|same <;> rw [same] <;> decide
    simp only [List.mem_append,not_or]
    exact ⟨lead,wordWithout word blank⟩

theorem lineKeys {publicIp : Text} {seen : List Text} {line key : Text} :
    key ∈ (rewriteLine publicIp seen line).2 ↔ key ∈ seen ∨
      ∃ e, IsHost line e ∧ e.joined <:+: line ∧ e.key publicIp = key := by
  have only {h e : HostCandidate} (host : IsHost line h) (again : IsHost line e) : e = h :=
    tokensInjective (Option.some.inj (again.symm.trans host))
  have occurs {h : HostCandidate} {rest : Text} (host : IsHost line h)
      (found : extensionOf line h.extension = some rest) : h.joined <:+: line := by
    have last := (extensionFound host).mp found
    exact List.infix_iff_prefix_suffix.mpr ⟨rest,last.2.1,last.1⟩
  have rewrites := rewriteLineCases publicIp seen line
  generalize rewriteLine publicIp seen line = result at rewrites
  cases rewrites with
  | unread h host lost =>
    refine (or_iff_left ?_).symm
    intro given
    obtain ⟨e,again,within,_⟩ := given
    rw [only host again] at within
    exact (extensionLost host).mp lost within
  | dropped h rest host found known =>
    refine (or_iff_left_of_imp ?_).symm
    intro given
    obtain ⟨e,again,_,same⟩ := given
    rw [← same,only host again]
    exact known
  | hidden h rest host found fresh =>
    rw [List.mem_append,List.mem_singleton]
    refine or_congr_right ⟨fun same => ⟨h,host,occurs host found,same.symm⟩,fun given => ?_⟩
    obtain ⟨e,again,_,same⟩ := given
    rw [← same,only host again]
  | kept other | connection other =>
    refine (or_iff_left ?_).symm
    intro given
    obtain ⟨e,host,_⟩ := given
    exact other e host

theorem seenAfterKeys {publicIp : Text} {seen ls : List Text} {key : Text} :
    key ∈ seenAfter publicIp seen ls ↔ key ∈ seen ∨
      ∃ earlier ∈ ls, ∃ e, IsHost earlier e ∧ e.joined <:+: earlier ∧ e.key publicIp = key := by
  induction ls generalizing seen with
  | nil => simp [seenAfter]
  | cons line ls ih =>
    have next : key ∈ seenAfter publicIp seen (line::ls) ↔
        key ∈ seenAfter publicIp (rewriteLine publicIp seen line).2 ls := Iff.rfl
    rw [next,ih,lineKeys]
    simp only [List.mem_cons,exists_eq_or_imp,or_assoc]

theorem outputTokens {publicIp : Text} (word : Word publicIp) (sdp : Text)
    {tokens : List Text} :
    (∃ line ∈ lines (rewriteHostCandidates sdp publicIp), candidateTokens line = some tokens) ↔
      ∃ out ∈ rewriteLines publicIp [] (lines sdp), candidateTokens out = some tokens := by
  have unbroken : ∀ out ∈ rewriteLines publicIp [] (lines sdp), '\n' ∉ out := by
    intro out inside
    obtain ⟨line,own,_,sent⟩ := rewriteLinesFrom inside
    exact rewriteLineWithout word (.inl rfl) (linesUnbroken own) sent
  unfold rewriteHostCandidates
  simp only
  split
  · have ending : (['\r'] : Text) = [] ∨ (['\r'] : Text) = ['\r'] := Or.inr rfl
    exact linesJoined ending unbroken
  · have ending : ([] : Text) = [] ∨ ([] : Text) = ['\r'] := Or.inl rfl
    exact linesJoined ending unbroken

/- The extension tokens end the line with one space between each two. -/
def SinglySpaced (line : Text) (h : HostCandidate) : Prop :=
  ∃ front tail, line = front ++ h.joined ++ tail ∧ Blank tail

/- An earlier host candidate, found again by its spelling, has the same key. -/
def Collapsed (publicIp : Text) (before : List Text) (h : HostCandidate) : Prop :=
  ∃ earlier ∈ before, ∃ e, IsHost earlier e ∧ e.joined <:+: earlier ∧
    e.key publicIp = h.key publicIp

/- Why one host candidate does no harm: its extension is spelled with single spaces; or that
spelling occurs nowhere and the address is public already; or it occurs at another place, and
the line is dropped or what is put together there is some other input line. -/
def Recovered (publicIp : Text) (all before : List Text) (line : Text) (h : HostCandidate) :
    Prop :=
  SinglySpaced line h ∨
  (¬ h.joined <:+: line ∧ h.address = publicIp) ∨
  ∃ rest, LastFrom h.joined line rest ∧
    (Collapsed publicIp before h ∨ ∃ source ∈ all, ∃ g, IsHost source g ∧
      {g with address := publicIp} =
        {h with address := publicIp, extension := splitAsciiWhitespace rest})

theorem singlySpacedRest {line : Text} {h : HostCandidate} (host : IsHost line h)
    (spaced : SinglySpaced line h) {rest : Text} (last : LastFrom h.joined line rest) :
    splitAsciiWhitespace rest = h.extension := by
  have words := extensionWords host
  obtain ⟨front,tail,same,blank⟩ := spaced
  by_cases bare : h.extension = []
  · have empty : h.joined = [] := (joinEmpty words).mpr bare
    have least : LastFrom h.joined line [] := by
      rw [empty]
      exact ⟨by simp,by simp,by simp⟩
    rw [lastFromUnique last least,bare]
    rfl
  · have ending := lastFromEnding " ".toList words front blank bare
    have here : LastFrom h.joined line (h.joined ++ tail) := by
      rw [same]
      exact ending
    rw [lastFromUnique last here,splitTrailing h.joined blank]
    exact splitJoin words

theorem setAddress (g : HostCandidate) (publicIp : Text) :
    g.tokens.set 4 publicIp = {g with address := publicIp}.tokens := rfl

theorem setNamesHost {tokens : List Text} {publicIp : Text}
    (named : NamesHost (tokens.set 4 publicIp)) : NamesHost tokens := by
  unfold NamesHost at named ⊢
  rwa [List.getElem?_set_ne (by decide),List.getElem?_set_ne (by decide)] at named

theorem hiddenRecovered {sdp publicIp : Text} (word : Word publicIp)
    (hidden : Hidden sdp publicIp) {before after : List Text} {line : Text}
    (same : lines sdp = before ++ line::after) {h : HostCandidate} (host : IsHost line h) :
    Recovered publicIp (lines sdp) before line h := by
  cases found : extensionOf line h.extension with
  | none =>
    have sent : line ∈ rewriteLines publicIp [] (lines sdp) := by
      refine rewriteLinesMember.mpr ⟨before,line,after,same,?_⟩
      rw [rewriteLineHost host,found]
    obtain ⟨shown,inside,tokens⟩ := (outputTokens word sdp).mpr ⟨line,sent,host⟩
    obtain ⟨address,_⟩ := hidden shown inside h.tokens tokens (namesHost.mpr ⟨h,rfl⟩)
    have own : h.address = publicIp := Option.some.inj address
    exact Or.inr (Or.inl ⟨(extensionLost host).mp found,own⟩)
  | some rest =>
    refine Or.inr (Or.inr ⟨rest,(extensionFound host).mp found,?_⟩)
    by_cases known : h.key publicIp ∈ seenAfter publicIp [] before
    · rcases seenAfterKeys.mp known with none|earlier
      · contradiction
      · exact Or.inl earlier
    · have sent : (h.parsed rest).withAddress publicIp ∈
          rewriteLines publicIp [] (lines sdp) := by
        refine rewriteLinesMember.mpr ⟨before,line,after,same,?_⟩
        rw [rewriteLineHost host,found]
        simp only [known,if_false]
      have named := withAddressTokens host word rest
      obtain ⟨shown,inside,tokens⟩ := (outputTokens word sdp).mpr ⟨_,sent,named⟩
      obtain ⟨_,source,member,original,own,replaced⟩ :=
        hidden shown inside _ tokens (namesHost.mpr ⟨_,rfl⟩)
      have namesOriginal : NamesHost original :=
        setNamesHost (replaced ▸ namesHost.mpr ⟨_,rfl⟩)
      obtain ⟨g,spelled⟩ := namesHost.mp namesOriginal
      subst spelled
      rw [setAddress] at replaced
      exact Or.inr ⟨source,member,g,own,(tokensInjective replaced).symm⟩

theorem recoveredHidden {sdp publicIp : Text} (word : Word publicIp)
    (recovered : ∀ before line after, lines sdp = before ++ line::after → ∀ h, IsHost line h →
      Recovered publicIp (lines sdp) before line h) : Hidden sdp publicIp := by
  intro shown inside tokens given named
  obtain ⟨g,spelled⟩ := namesHost.mp named
  subst spelled
  obtain ⟨out,sent,host⟩ := (outputTokens word sdp).mp ⟨shown,inside,given⟩
  obtain ⟨before,line,after,same,fromLine⟩ := rewriteLinesMember.mp sent
  obtain ⟨h,own,made⟩ := rewriteLineSends word fromLine host
  have member : line ∈ lines sdp := by simp [same]
  have safe := recovered before line after same h own
  rcases made with ⟨lost,unread⟩|⟨rest,found,fresh,made⟩
  · subst unread
    -- The line went out as it was, so its spelling occurs nowhere in it.
    have absent := (extensionLost own).mp lost
    rcases safe with ⟨front,tail,spaced,_⟩|⟨_,address⟩|⟨rest,last,_⟩
    · exact absurd ⟨front,tail,spaced.symm⟩ absent
    · refine ⟨congrArg some address,line,member,g.tokens,own,?_⟩
      rw [setAddress,← address]
    · exact absurd (List.infix_iff_prefix_suffix.mpr ⟨rest,last.2.1,last.1⟩) absent
  · subst made
    have last := (extensionFound own).mp found
    refine ⟨rfl,?_⟩
    rcases safe with spaced|⟨absent,_⟩|⟨other,lastOther,earlier|⟨source,within,g,names,made⟩⟩
    · refine ⟨line,member,h.tokens,own,?_⟩
      rw [setAddress,singlySpacedRest own spaced last]
    · exact absurd (List.infix_iff_prefix_suffix.mpr ⟨rest,last.2.1,last.1⟩) absent
    · exact absurd (seenAfterKeys.mpr (Or.inr earlier)) fresh
    · refine ⟨source,within,g.tokens,names,?_⟩
      rw [setAddress,made,lastFromUnique last lastOther]

/- No private address survives exactly when every host candidate of the input is recovered. -/
theorem rewriteHidesHosts (sdp publicIp : Text) (word : Word publicIp) :
    Hidden sdp publicIp ↔ ∀ before line after, lines sdp = before ++ line::after →
      ∀ h, IsHost line h → Recovered publicIp (lines sdp) before line h :=
  ⟨fun hidden _ _ _ same _ host => hiddenRecovered word hidden same host,recoveredHidden word⟩

theorem rewriteHidesGeneration : Word "8.8.4.4".toList ∧
    Hidden "a=candidate:1 1 udp 1 10.0.0.7 5 typ host generation 0\n".toList
      "8.8.4.4".toList := by
  have word : Word "8.8.4.4".toList := by decide
  refine ⟨word,(rewriteHidesHosts _ _ word).mpr ?_⟩
  intro before line after same h host
  have only : lines "a=candidate:1 1 udp 1 10.0.0.7 5 typ host generation 0\n".toList =
      ["a=candidate:1 1 udp 1 10.0.0.7 5 typ host generation 0".toList] := by decide
  rw [only] at same
  have alone : before = [] ∧ after = [] ∧
      "a=candidate:1 1 udp 1 10.0.0.7 5 typ host generation 0".toList = line := by
    cases before with
    | nil =>
      obtain ⟨head,tail⟩ := List.cons.inj same
      exact ⟨rfl,tail.symm,head⟩
    | cons b before =>
      have tail := (List.cons.inj same).2
      simp at tail
  obtain ⟨_,_,spelled⟩ := alone
  subst spelled
  have tokens : candidateTokens "a=candidate:1 1 udp 1 10.0.0.7 5 typ host generation 0".toList =
      some (HostCandidate.mk ['1'] ['1'] "udp".toList ['1'] "10.0.0.7".toList ['5']
        ["generation".toList,['0']]).tokens := by decide
  have parts := tokensInjective (Option.some.inj (tokens.symm.trans host))
  subst parts
  refine Or.inl ⟨"a=candidate:1 1 udp 1 10.0.0.7 5 typ host ".toList,[],?_,by decide⟩
  decide

theorem doubleSpaceLeaks : Word "8.8.4.4".toList ∧
    ¬ Hidden "a=candidate:1 1 udp 1 10.0.0.7 5 typ host generation  0\n".toList
      "8.8.4.4".toList := by
  refine ⟨by decide,?_⟩
  intro hidden
  have shown : "a=candidate:1 1 udp 1 10.0.0.7 5 typ host generation  0".toList ∈
      lines (rewriteHostCandidates
        "a=candidate:1 1 udp 1 10.0.0.7 5 typ host generation  0\n".toList
        "8.8.4.4".toList) := by decide
  have tokens : candidateTokens
      "a=candidate:1 1 udp 1 10.0.0.7 5 typ host generation  0".toList =
      some (HostCandidate.mk ['1'] ['1'] "udp".toList ['1'] "10.0.0.7".toList ['5']
        ["generation".toList,['0']]).tokens := by decide
  obtain ⟨address,_⟩ := hidden _ shown _ tokens ⟨rfl,rfl⟩
  exact absurd address (by decide)

end Vmdesk.Sdp
