import Mathlib.Data.List.DropRight

/-! Text as a list of characters, with the string operations that line-oriented formats
are read by. Offsets count characters. Nothing here knows a particular format. -/
namespace Vmdesk

abbrev Text := List Char

namespace Text

def isAsciiWhitespace (c : Char) : Bool :=
  c == ' ' || c == '\t' || c == '\n' || c == '\x0c' || c == '\r'

/- The characters with the Unicode property White_Space. -/
def isWhitespace (c : Char) : Bool :=
  (9 ≤ c.toNat && c.toNat ≤ 13) || (0x2000 ≤ c.toNat && c.toNat ≤ 0x200a) ||
    [0x20,0x85,0xa0,0x1680,0x2028,0x2029,0x202f,0x205f,0x3000].contains c.toNat

def splitAsciiWhitespace (s : Text) : List Text :=
  (s.splitOnP isAsciiWhitespace).filter (fun t => !t.isEmpty)

def trimEnd (s : Text) : Text := s.rdropWhile isWhitespace

def stripPrefix (lead s : Text) : Option Text :=
  if lead.isPrefixOf s then some (s.drop lead.length) else none

def stripSuffixChar (c : Char) (s : Text) : Option Text :=
  if s.getLast? = some c then some s.dropLast else none

def toAsciiLowercase (s : Text) : Text := s.map Char.toLower

def join (sep : Text) (parts : List Text) : Text := sep.intercalate parts

/- `str::lines`: a last line that does not end in a line feed keeps its carriage return. -/
def lines (s : Text) : List Text :=
  let pieces := s.splitOn '\n'
  pieces.dropLast.map (fun l => (stripSuffixChar '\r' l).getD l) ++
    (pieces.getLast?.toList).filter (fun l => !l.isEmpty)

def rfind (needle : Text) : Text → Option Nat
  | [] => if needle.isEmpty then some 0 else none
  | c::s => match rfind needle s with
    | some i => some (i+1)
    | none => if needle.isPrefixOf (c::s) then some 0 else none

theorem stripPrefixSome {lead s body : Text} :
    stripPrefix lead s = some body ↔ s = lead ++ body := by
  unfold stripPrefix
  apply Iff.intro
  · intro h
    split at h
    · next found =>
      obtain ⟨rest,same⟩ := List.isPrefixOf_iff_prefix.mp found
      subst same
      simpa using h
    · contradiction
  · intro h
    subst h
    simp

def Word (t : Text) : Prop := t ≠ [] ∧ ∀ c ∈ t, isAsciiWhitespace c = false

def Blank (t : Text) : Prop := ∀ c ∈ t, isAsciiWhitespace c = true

instance (t : Text) : Decidable (Word t) :=
  @instDecidableAnd _ _ inferInstance (List.decidableBAll (fun c => isAsciiWhitespace c = false) t)

instance (t : Text) : Decidable (Blank t) :=
  List.decidableBAll (fun c => isAsciiWhitespace c = true) t

theorem wordWithout {t : Text} {c : Char} (word : Word t) (blank : isAsciiWhitespace c = true) :
    c ∉ t := by
  intro inside
  rw [word.2 c inside] at blank
  contradiction

theorem splitWord {t : Text} (word : Word t) : splitAsciiWhitespace t = [t] := by
  have unsplit : t.splitOnP isAsciiWhitespace = [t] := List.splitOnP_eq_singleton word.2
  simp [splitAsciiWhitespace,unsplit,word.1]

theorem splitSeparated (s t : Text) {c : Char} (blank : isAsciiWhitespace c = true) :
    splitAsciiWhitespace (s ++ c::t) = splitAsciiWhitespace s ++ splitAsciiWhitespace t := by
  simp [splitAsciiWhitespace,List.splitOnP_append_cons s t blank]

theorem splitTrailing (s : Text) {tail : Text} (blank : Blank tail) :
    splitAsciiWhitespace (s ++ tail) = splitAsciiWhitespace s := by
  induction tail generalizing s with
  | nil => simp
  | cons c tail ih =>
    have head : isAsciiWhitespace c = true := blank c (by simp)
    have rest : Blank tail := fun d hd => blank d (by simp [hd])
    have empty : splitAsciiWhitespace tail = [] := by
      have alone := ih [] rest
      simpa [splitAsciiWhitespace] using alone
    rw [splitSeparated s tail head,empty,List.append_nil]

theorem splitJoin {parts : List Text} (words : ∀ t ∈ parts, Word t) :
    splitAsciiWhitespace (join " ".toList parts) = parts := by
  induction parts with
  | nil => simp [join,splitAsciiWhitespace]
  | cons t parts ih =>
    have head : Word t := words t (by simp)
    have rest := ih (fun u hu => words u (by simp [hu]))
    cases parts with
    | nil => simpa [join] using splitWord head
    | cons u more =>
      have spaced : join " ".toList (t::u::more) = t ++ ' '::join " ".toList (u::more) := by
        simp [join]
      rw [spaced,splitSeparated _ _ (by decide),splitWord head,rest]
      rfl

theorem piecesUnspaced {p : Char → Bool} {s t : Text} (piece : t ∈ s.splitOnP p) :
    ∀ c ∈ t, p c = false := by
  induction s generalizing t with
  | nil => simp_all
  | cons d s ih =>
    rw [List.splitOnP_cons_eq_if_modifyHead] at piece
    split at piece
    · cases piece with
      | head => simp
      | tail _ later => exact ih later
    · next unspaced =>
      cases pieces : s.splitOnP p with
      | nil => simp [pieces] at piece
      | cons first rest =>
        rw [pieces,List.modifyHead_cons] at piece
        cases piece with
        | head =>
          have clean := ih (t := first) (by simp [pieces])
          simpa [unspaced] using clean
        | tail _ later => exact ih (by rw [pieces]; exact List.mem_cons_of_mem _ later)

theorem splitWords {s t : Text} (piece : t ∈ splitAsciiWhitespace s) : Word t := by
  simp only [splitAsciiWhitespace,List.mem_filter,Bool.not_eq_true',List.isEmpty_eq_false_iff]
    at piece
  exact ⟨piece.2,piecesUnspaced piece.1⟩

theorem joinEmpty {sep : Text} {parts : List Text} (words : ∀ t ∈ parts, Word t) :
    join sep parts = [] ↔ parts = [] := by
  cases parts with
  | nil => simp [join]
  | cons t parts =>
    have nonempty : t ≠ [] := (words t (by simp)).1
    cases parts <;> simp [join,nonempty]

theorem joinWithout {sep : Text} {parts : List Text} {c : Char} (between : c ∉ sep)
    (inside : ∀ t ∈ parts, c ∉ t) : c ∉ join sep parts := by
  induction parts with
  | nil => simp [join]
  | cons t parts ih =>
    have head : c ∉ t := inside t (by simp)
    have rest := ih (fun u hu => inside u (by simp [hu]))
    cases parts with
    | nil => simpa [join] using head
    | cons u more =>
      have spaced : join sep (t::u::more) = t ++ sep ++ join sep (u::more) := by simp [join]
      rw [spaced]
      simp [head,between,rest]

theorem joinLast {sep : Text} {parts : List Text} (words : ∀ t ∈ parts, Word t)
    {c : Char} (last : (join sep parts).getLast? = some c) : isAsciiWhitespace c = false := by
  induction parts with
  | nil => simp [join] at last
  | cons t parts ih =>
    have head : Word t := words t (by simp)
    have rest : ∀ u ∈ parts, Word u := fun u hu => words u (by simp [hu])
    cases parts with
    | nil =>
      have inside : c ∈ t := List.mem_of_getLast? (by simpa [join] using last)
      exact head.2 c inside
    | cons u more =>
      have filled : join sep (u::more) ≠ [] := by simp [joinEmpty rest]
      have spaced : join sep (t::u::more) = (t ++ sep) ++ join sep (u::more) := by
        simp [join]
      rw [spaced,List.getLast?_append_of_ne_nil _ filled] at last
      exact ih rest last

/- `tail` is what is left of `s` from the last place where `needle` occurs. -/
def LastFrom (needle s tail : Text) : Prop :=
  tail <:+ s ∧ needle <+: tail ∧
    ∀ later, later <:+ s → needle <+: later → tail.length ≤ later.length

theorem rfindAbsent {needle s : Text} : rfind needle s = none ↔ ¬ needle <:+: s := by
  induction s with
  | nil => simp [rfind]
  | cons c s ih =>
    unfold rfind
    rw [List.infix_cons_iff,not_or,← ih]
    cases found : rfind needle s with
    | none => simp
    | some i => simp

theorem rfindLast {needle s : Text} {i : Nat} (found : rfind needle s = some i) :
    LastFrom needle s (s.drop i) := by
  induction s generalizing i with
  | nil =>
    simp only [rfind,List.isEmpty_iff] at found
    split at found
    · next empty => simp [LastFrom,empty]
    · contradiction
  | cons c s ih =>
    unfold rfind at found
    cases later : rfind needle s with
    | some j =>
      rw [later] at found
      cases Option.some.inj found
      obtain ⟨inside,here,least⟩ := ih later
      have cut : (c::s).drop (j+1) = s.drop j := by simp
      rw [cut]
      refine ⟨inside.trans (List.suffix_cons c s),here,?_⟩
      intro other within occurs
      cases List.suffix_cons_iff.mp within with
      | inl whole =>
        subst whole
        simp only [List.length_drop,List.length_cons]
        omega
      | inr inner => exact least other inner occurs
    | none =>
      rw [later] at found
      simp only at found
      split at found
      · next here =>
        cases Option.some.inj found
        refine ⟨List.suffix_rfl,List.isPrefixOf_iff_prefix.mp here,?_⟩
        intro other within occurs
        cases List.suffix_cons_iff.mp within with
        | inl whole => simp [whole]
        | inr inner =>
          have infixed : needle <:+: s := List.infix_iff_prefix_suffix.mpr ⟨other,occurs,inner⟩
          exact absurd infixed (rfindAbsent.mp later)
      · contradiction

theorem lastFromUnique {needle s t u : Text} (left : LastFrom needle s t)
    (right : LastFrom needle s u) : t = u := by
  have shorter := left.2.2 u right.1 right.2.1
  have longer := right.2.2 t left.1 left.2.1
  exact (List.suffix_of_suffix_length_le left.1 right.1 shorter).eq_of_length_le longer

/- Joined words followed by blanks only occur last where they end the text: a later
occurrence would have to end in one of the blanks. -/
theorem lastFromEnding (sep : Text) {parts : List Text} (words : ∀ t ∈ parts, Word t)
    (front : Text) {tail : Text} (blank : Blank tail) (some : parts ≠ []) :
    LastFrom (join sep parts) (front ++ join sep parts ++ tail) (join sep parts ++ tail) := by
  refine ⟨by simp,List.prefix_append _ _,?_⟩
  intro other within occurs
  obtain ⟨c,last⟩ : ∃ c, (join sep parts).getLast? = Option.some c := by
    have filled : join sep parts ≠ [] := by simpa [joinEmpty words] using some
    exact ⟨_,List.getLast?_eq_some_getLast filled⟩
  obtain ⟨start,joined⟩ := List.getLast?_eq_some_iff.mp last
  obtain ⟨rest,same⟩ := occurs
  rw [← same] at within ⊢
  simp only [List.length_append]
  by_contra short
  have ending : c::rest <:+ front ++ join sep parts ++ tail := by
    apply List.IsSuffix.trans _ within
    rw [joined]
    simp
  have inTail : c::rest <:+ tail := by
    apply List.suffix_of_suffix_length_le ending (List.suffix_append _ _)
    simp only [List.length_cons]
    omega
  have clash := blank c (inTail.subset (by simp))
  simp [joinLast words last] at clash

end Text
end Vmdesk
