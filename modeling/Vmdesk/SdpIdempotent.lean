import Vmdesk.SdpKeeps

/-! Rewriting a description a second time changes nothing: what one line puts into the output goes
through the rewrite as it is, and remembers the same key. -/
namespace Vmdesk.Sdp
open Text

def returnsBeforeFeeds : Text → Bool
  | [] => true
  | c::rest => (c != '\r' || rest.head? == some '\n') && returnsBeforeFeeds rest

/- The tokens of a candidate line are separated by single spaces. What stands before the first and
after the last of them is left open. -/
def SingleSpaces (line : Text) : Prop := ∀ tokens, candidateTokens line = some tokens →
  ∃ front tail, line = front ++ join " ".toList tokens ++ tail ∧ Blank tail

def plain (line : Text) : Bool :=
  (candidateTokens line).all (fun tokens => line = candidateLead ++ join " ".toList tokens)

theorem plainSpaces {line : Text} (spelled : plain line = true) : SingleSpaces line := by
  intro tokens given
  rw [plain,given] at spelled
  refine ⟨candidateLead,[],?_,by decide⟩
  simpa using spelled

theorem pieceReturns {sdp piece : Text} (returns : returnsBeforeFeeds sdp = true)
    (inside : piece ∈ sdp.splitOnP (· == '\n')) : '\r' ∉ piece.dropLast := by
  induction sdp generalizing piece with
  | nil => simp_all
  | cons c rest ih =>
    simp only [returnsBeforeFeeds,Bool.and_eq_true,Bool.or_eq_true,bne_iff_ne,beq_iff_eq] at returns
    obtain ⟨here,returns⟩ := returns
    rw [List.splitOnP_cons_eq_if_modifyHead] at inside
    split at inside
    · cases inside with
      | head => simp
      | tail _ later => exact ih returns later
    · next other =>
      cases pieces : rest.splitOnP (· == '\n') with
      | nil => simp [pieces] at inside
      | cons first more =>
        rw [pieces,List.modifyHead_cons] at inside
        cases inside with
        | tail _ later => exact ih returns (by rw [pieces]; exact List.mem_cons_of_mem _ later)
        | head =>
          have own : '\r' ∉ first.dropLast := ih returns (by simp [pieces])
          cases first with
          | nil => simp
          | cons d more =>
            -- Behind a carriage return the piece would be over.
            have letter : c ≠ '\r' := by
              intro ret
              obtain ⟨tail,same⟩ := List.head?_eq_some_iff.mp (here.resolve_left (fun other => other ret))
              rw [same,List.splitOnP_cons_eq_if_modifyHead] at pieces
              simp at pieces
            rw [List.dropLast_cons_of_ne_nil (List.cons_ne_nil d more),List.mem_cons,not_or]
            exact ⟨letter.symm,own⟩

theorem linesReturns {sdp line : Text} (returns : returnsBeforeFeeds sdp = true)
    (inside : line ∈ lines sdp) : '\r' ∉ line := by
  simp only [lines,List.mem_filter,List.mem_map,List.splitOn_eq_splitOnP] at inside
  obtain ⟨⟨piece,cut,same⟩,_⟩ := inside
  have front := pieceReturns returns cut
  subst same
  unfold stripSuffixChar
  split
  · exact front
  · next other =>
    intro ret
    obtain empty | ⟨start,last,whole⟩ := List.eq_nil_or_concat' piece
    · simp [empty] at ret
    · rw [whole,List.dropLast_concat] at front
      rw [whole,List.getLast?_concat] at other
      simp [whole,front] at ret
      exact other (by rw [ret])

section
variable {publicIp line : Text} {h : HostCandidate}

theorem spacesHost (spaces : SingleSpaces line) (host : IsHost line h) : SinglySpaced line h := by
  obtain ⟨front,tail,same,blank⟩ := spaces _ host
  by_cases bare : h.extension = []
  · have empty : h.joined = [] := (joinEmpty (extensionWords host)).mpr bare
    exact ⟨line,[],by simp [empty],by decide⟩
  · rw [joinedTokens h bare,← List.append_assoc] at same
    exact ⟨_,tail,same,blank⟩

theorem extensionAgain (host : IsHost line h) (spaced : SinglySpaced line h) (word : Word publicIp) :
    ∃ rest, extensionOf line h.extension = some rest ∧
      IsHost ((h.parsed rest).withAddress publicIp) (h.addressed publicIp) ∧
      extensionOf ((h.parsed rest).withAddress publicIp) h.extension = some rest := by
  have words := extensionWords host
  by_cases bare : h.extension = []
  · have unspelled (l : Text) : extensionOf l h.extension = some [] := by
      rw [bare]
      rfl
    have tokens := withAddressTokens host word []
    refine ⟨[],unspelled _,?_,unspelled _⟩
    rw [HostCandidate.addressed,bare]
    exact tokens
  · obtain ⟨front,tail,same,blank⟩ := spaced
    have last := lastFromEnding " ".toList words front blank bare
    rw [← HostCandidate.joined,← same] at last
    have split : splitAsciiWhitespace (h.joined ++ tail) = h.extension :=
      (splitTrailing h.joined blank).trans (splitJoin words)
    have tokens := withAddressTokens host word (h.joined ++ tail)
    rw [split] at tokens
    refine ⟨h.joined ++ tail,(extensionFound host).mpr last,tokens,?_⟩
    have filled : ¬ (h.joined ++ tail).isEmpty = true := by
      rw [List.isEmpty_iff,List.append_eq_nil_iff]
      exact fun none => bare ((joinEmpty words).mp none.1)
    have cut : ∃ front, (h.parsed (h.joined ++ tail)).withAddress publicIp =
        front ++ h.joined ++ tail := by
      unfold Candidate.withAddress
      rw [if_neg (by exact filled)]
      exact ⟨_,(List.append_assoc _ _ _).symm⟩
    obtain ⟨front',cut⟩ := cut
    refine (extensionFound (h := h.addressed publicIp) tokens).mpr ?_
    rw [cut]
    exact lastFromEnding " ".toList words front' blank bare

theorem settles (spaces : SingleSpaces line) (word : Word publicIp) {seen after : List Text}
    {out : Text} (sent : rewriteLine publicIp seen line = (some out,after)) :
    rewriteLine publicIp seen out = (some out,after) := by
  have rewrites := rewriteLineCases publicIp seen line
  rw [sent] at rewrites
  cases rewrites with
  | unread | kept => exact sent
  | hidden h rest host found fresh =>
    obtain ⟨rest',found',host',again⟩ := extensionAgain host (spacesHost spaces host) word
    cases found.symm.trans found'
    rw [rewriteLineHost host']
    simp only [HostCandidate.addressed,again]
    exact if_neg fresh
  | connection =>
    rcases rewriteLineOther (connectionNotHost publicIp) publicIp seen with same|same
    · exact same
    · exact same

theorem droppedKnown {seen after : List Text}
    (sent : rewriteLine publicIp seen line = (none,after)) : after = seen := by
  have rewrites := rewriteLineCases publicIp seen line
  rw [sent] at rewrites
  cases rewrites with
  | dropped => rfl

theorem rewriteLinesAgain (word : Word publicIp) {seen ls : List Text}
    (spaces : ∀ line ∈ ls, SingleSpaces line) :
    rewriteLines publicIp seen (rewriteLines publicIp seen ls) = rewriteLines publicIp seen ls := by
  induction ls generalizing seen with
  | nil => rfl
  | cons line ls ih =>
    have rest : ∀ seen, rewriteLines publicIp seen (rewriteLines publicIp seen ls) =
        rewriteLines publicIp seen ls := fun _ => ih (fun other own => spaces other (by simp [own]))
    rw [rewriteLines]
    cases sent : rewriteLine publicIp seen line with
    | mk out after =>
      cases out with
      | none =>
        rw [droppedKnown sent]
        exact rest seen
      | some out =>
        simp only [Option.toList_some,List.singleton_append,rewriteLines,
          settles (spaces line (by simp)) word sent,rest after]
end

def terminatorOf (sdp : Text) : Terminator :=
  if (rfind "\r\n".toList sdp).isSome then .crlf else .lf

theorem rewriteLineFilled {publicIp : Text} {seen : List Text} {line out : Text} (filled : line ≠ [])
    (sent : (rewriteLine publicIp seen line).1 = some out) : out ≠ [] := by
  have rewrites := rewriteLineCases publicIp seen line
  generalize rewriteLine publicIp seen line = result at sent rewrites
  cases rewrites with
  | unread | kept =>
    cases Option.some.inj sent
    exact filled
  | dropped => cases sent
  | hidden =>
    cases Option.some.inj sent
    have lead : candidateLead ≠ [] := by decide
    unfold Candidate.withAddress
    split <;> simp only [List.append_assoc]
    · exact List.append_ne_nil_of_left_ne_nil lead _
    · exact List.append_ne_nil_of_left_ne_nil lead _
  | connection =>
    cases Option.some.inj sent
    exact List.append_ne_nil_of_left_ne_nil (by decide) _

theorem rewriteLinesClean {sdp publicIp : Text} (returns : returnsBeforeFeeds sdp = true)
    (word : Word publicIp) : ∀ out ∈ rewriteLines publicIp [] (lines sdp), Clean out := by
  intro out inside
  obtain ⟨line,own,_,sent⟩ := rewriteLinesFrom inside
  have filled : line ≠ [] := by
    simp only [lines,List.mem_filter] at own
    simpa using own.2
  exact ⟨rewriteLineFilled filled sent,rewriteLineWithout word (.inl rfl) (linesUnbroken own) sent,
    rewriteLineWithout word (.inr rfl) (linesReturns returns own) sent⟩

theorem rewriteIdempotent {sdp publicIp : Text} (returns : returnsBeforeFeeds sdp = true)
    (spaces : ∀ line ∈ lines sdp, SingleSpaces line) (word : Word publicIp) :
    rewriteHostCandidates (rewriteHostCandidates sdp publicIp) publicIp =
      rewriteHostCandidates sdp publicIp := by
  have clean := rewriteLinesClean returns word
  have once : rewriteHostCandidates sdp publicIp =
      document (terminatorOf sdp) (rewriteLines publicIp [] (lines sdp)) := by
    unfold rewriteHostCandidates document terminatorOf
    simp only
    split <;> rfl
  rw [once]
  by_cases empty : rewriteLines publicIp [] (lines sdp) = []
  · rw [empty]
    rfl
  · unfold rewriteHostCandidates
    simp only [documentEnding clean empty,linesDocument _ clean,rewriteLinesAgain word spaces]
    rfl

def mixed : Text :=
  "v=0\r\n\nc=IN IP4 10.0.0.7 \na=candidate:1 1 udp 7 10.0.0.7 5 typ host generation 0\r\n".toList ++
    "a=candidate:2 1 UDP 6 10.0.0.8 5 typ host\na=candidate:3 1 udp 5".toList

theorem rewriteIdempotentMixed : returnsBeforeFeeds mixed = true ∧ (∀ line ∈ lines mixed, plain line = true) ∧
    Word "8.8.4.4".toList ∧
    rewriteHostCandidates (rewriteHostCandidates mixed "8.8.4.4".toList) "8.8.4.4".toList =
      rewriteHostCandidates mixed "8.8.4.4".toList := by
  have returns : returnsBeforeFeeds mixed = true := by decide +kernel
  have spelled : ∀ line ∈ lines mixed, plain line = true := by decide +kernel
  have word : Word "8.8.4.4".toList := by decide
  exact ⟨returns,spelled,word,rewriteIdempotent returns
    (fun line own => plainSpaces (spelled line own)) word⟩

end Vmdesk.Sdp
