import Vmdesk.TomlString

/-! Documents of TOML 1.0, read line by line: tables with bare names, and keys of theirs with strings
and whole numbers. The rest of the language is a parameter, of which only one rule is used: what is
assigned is not assigned again. -/
namespace Vmdesk.Toml
open Digits

abbrev Path := List Text

inductive Value where
  | string (s : Text)
  | integer (n : Int)
  | other
  deriving DecidableEq, Repr

structure Doc where
  table : Path := []
  tables : List Path := []
  values : List (Path × Value) := []
  deriving DecidableEq, Repr

namespace Doc

def get (doc : Doc) (path : Path) : Option Value := doc.values.lookup path

def taken (doc : Doc) (path : Path) : Bool := (doc.get path).isSome || doc.tables.contains path

def enter (doc : Doc) (name : Text) : Doc :=
  {doc with table := [name], tables := [name]::doc.tables}

def put (doc : Doc) (name : Text) (v : Value) : Doc :=
  {doc with values := (doc.table ++ [name],v)::doc.values}

def openTable (doc : Doc) (name : Text) : Option Doc :=
  if doc.taken [name] then none else some (doc.enter name)

def assign (doc : Doc) (name : Text) (v : Value) : Option Doc :=
  if doc.taken (doc.table ++ [name]) then none else some (doc.put name v)

end Doc

/- What is not read here: every other expression, given what stands in front of it, up to the end of
its line. A newline within a string may be kept as it is or made one character. -/
structure Reader where
  newline : Text
  other : Doc → Text → Option (Doc × Text)
  normal : newline = ['\n'] ∨ newline = ['\r','\n']
  keeps : ∀ {doc doc' s rest path v}, other doc s = some (doc',rest) → doc.get path = some v →
    doc'.get path = some v

def isComment (c : Char) : Bool := c == '\t' || (0x20 ≤ c.toNat && c.toNat != 0x7f)

def isBare (c : Char) : Bool := c.isAlphanum || c == '_' || c == '-'

/- What may follow the first digits of a date, a fraction or a number of another radix. -/
def isWord (c : Char) : Bool := isBare c || c == '+' || c == '.' || c == ':'

def skipBlanks (s : Text) : Text := s.dropWhile isBlank

def skipComment : Text → Text
  | '#'::s => s.dropWhile isComment
  | s => s

def lineEnd (s : Text) : Option Text := match skipComment (skipBlanks s) with
  | [] => some []
  | '\n'::rest => some rest
  | '\r' :: '\n' :: rest => some rest
  | _ => none

def number (s : Text) : Option (Nat × Text) := do
  let (n,rest) ← readNumber 10 none false (2^63) s
  if rest.head?.any isWord then none else some (n,rest)

variable (reader : Reader)

def header (doc : Doc) (s inner : Text) : Option (Doc × Text) :=
  let inner := skipBlanks inner
  let name := inner.takeWhile isBare
  match skipBlanks (inner.dropWhile isBare) with
  | ']'::rest => if name = [] then none else do some (← doc.openTable name,rest)
  | _ => reader.other doc s

def keyValue (doc : Doc) (s : Text) : Option (Doc × Text) :=
  let name := s.takeWhile isBare
  match skipBlanks (s.dropWhile isBare) with
  | '='::behind =>
      let behind := skipBlanks behind
      if name = [] then none
      else if behind.head? = some '"' then do
        let (v,rest) ← readString reader.newline behind
        some (← doc.assign name (.string v),rest)
      else match number behind with
        | some (n,rest) => do some (← doc.assign name (.integer n),rest)
        | none => reader.other doc s
  | _ => reader.other doc s

def expression (doc : Doc) (s : Text) : Option (Doc × Text) :=
  let s := skipBlanks s
  match s with
  | [] => some (doc,[])
  | c::inner =>
      if c = '#' ∨ c = '\n' ∨ c = '\r' then some (doc,s)
      else if c = '[' then header reader doc s inner
      else keyValue reader doc s

def line (doc : Doc) (s : Text) : Option (Doc × Text) := do
  let (doc,rest) ← expression reader doc s
  some (doc,← lineEnd rest)

def document (doc : Doc) (s : Text) : Option Doc :=
  if s = [] then some doc else match line reader doc s with
    | some (doc,rest) => if rest.length < s.length then document doc rest else none
    | none => none
termination_by s.length

section Keeps
variable {reader} {doc doc' final : Doc} {s rest name : Text} {path : Path} {v w : Value}

theorem openTableGet (opened : doc.openTable name = some doc') : doc'.get path = doc.get path := by
  unfold Doc.openTable at opened
  split at opened
  · contradiction
  · cases opened
    rfl

theorem assignKeeps (assigned : doc.assign name w = some doc') (there : doc.get path = some v) :
    doc'.get path = some v := by
  unfold Doc.assign at assigned
  split at assigned
  · contradiction
  · next free =>
    cases assigned
    have other : path ≠ doc.table ++ [name] := by
      intro same
      subst same
      simp [Doc.taken,there] at free
    simp only [Doc.get,Doc.put,List.lookup_cons]
    rw [beq_eq_false_iff_ne.mpr other]
    exact there

theorem assignGet (assigned : doc.assign name w = some doc') :
    doc'.get (doc.table ++ [name]) = some w := by
  unfold Doc.assign at assigned
  split at assigned
  · contradiction
  · cases assigned
    simp [Doc.get,Doc.put]

theorem headerKeeps {inner : Text} (read : header reader doc s inner = some (doc',rest))
    (there : doc.get path = some v) : doc'.get path = some v := by
  simp only [header] at read
  split at read
  · split at read
    · contradiction
    · simp only [Option.bind_eq_bind,Option.bind_eq_some_iff] at read
      obtain ⟨opened,here,same⟩ := read
      cases same
      exact (openTableGet here).trans there
  · exact reader.keeps read there

theorem keyValueKeeps (read : keyValue reader doc s = some (doc',rest))
    (there : doc.get path = some v) : doc'.get path = some v := by
  simp only [keyValue] at read
  split at read
  · split at read
    · contradiction
    split at read
    · simp only [Option.bind_eq_bind,Option.bind_eq_some_iff,Prod.exists] at read
      obtain ⟨w,left,_,assigned,here,same⟩ := read
      cases same
      exact assignKeeps here there
    split at read
    · simp only [Option.bind_eq_bind,Option.bind_eq_some_iff] at read
      obtain ⟨assigned,here,same⟩ := read
      cases same
      exact assignKeeps here there
    · exact reader.keeps read there
  · exact reader.keeps read there

theorem lineKeeps (read : line reader doc s = some (doc',rest)) (there : doc.get path = some v) :
    doc'.get path = some v := by
  simp only [line,Option.bind_eq_bind,Option.bind_eq_some_iff,Prod.exists] at read
  obtain ⟨_,left,read,_,_,same⟩ := read
  cases same
  simp only [expression] at read
  split at read
  · cases read
    exact there
  · split at read
    · cases read
      exact there
    split at read
    · exact headerKeeps read there
    · exact keyValueKeeps read there

theorem documentKeeps (read : document reader doc s = some final) (there : doc.get path = some v) :
    final.get path = some v := by
  induction doc,s using document.induct reader with
  | case1 doc =>
    rw [document,if_pos rfl] at read
    cases read
    exact there
  | case2 doc s more doc' rest found shorter ih =>
    rw [document,if_neg more,found] at read
    simp only [shorter,if_true] at read
    exact ih read (lineKeeps found there)
  | case3 doc s more doc' rest found same =>
    rw [document,if_neg more,found] at read
    simp only [same,if_false] at read
    contradiction
  | case4 doc s more stuck =>
    rw [document,if_neg more,stuck] at read
    contradiction

end Keeps

section Lines
variable {reader} {doc doc' final : Doc} {s rest name body : Text} {c : Char} {n : Nat}

theorem documentLine (shorter : rest.length < s.length)
    (read : line reader doc s = some (doc',rest)) :
    document reader doc s = document reader doc' rest := by
  have more : s ≠ [] := by
    intro same
    simp [same] at shorter
  rw [document,if_neg more,read]
  simp only [shorter,if_true]

theorem documentSome (read : document reader doc s = some final) (more : s ≠ []) :
    ∃ doc' rest, line reader doc s = some (doc',rest) ∧ document reader doc' rest = some final := by
  rw [document,if_neg more] at read
  split at read
  · next doc' rest found =>
    split at read
    · exact ⟨doc',rest,found,read⟩
    · contradiction
  · contradiction

def Comment (s : Text) : Prop := ∀ c ∈ s, isComment c = true

theorem commentLine (comment : Comment body) :
    line reader doc ('#'::(body ++ '\n'::rest)) = some (doc,rest) := by
  have ended : lineEnd ('#'::(body ++ '\n'::rest)) = some rest := by
    have skipped : (body ++ '\n'::rest).dropWhile isComment = '\n'::rest :=
      List.dropWhile_append_of_pos comment
    simp only [lineEnd,show skipBlanks ('#'::(body ++ '\n'::rest)) = '#'::(body ++ '\n'::rest)
      from rfl,skipComment,skipped]
  have read : expression reader doc ('#'::(body ++ '\n'::rest)) =
      some (doc,'#'::(body ++ '\n'::rest)) := rfl
  simp only [line,read,Option.bind_eq_bind,Option.bind_some,ended]

theorem emptyLine : line reader doc ('\n'::rest) = some (doc,rest) := rfl

def Bare (name : Text) : Prop := name ≠ [] ∧ ∀ c ∈ name, isBare c = true
instance (name : Text) : Decidable (Bare name) :=
  decidable_of_iff (name ≠ [] ∧ name.all isBare = true) (by rw [Bare,List.all_eq_true])

theorem bareSplit (bare : Bare name) (other : isBare c = false) :
    (name ++ c::s).takeWhile isBare = name ∧ (name ++ c::s).dropWhile isBare = c::s := by
  rw [List.takeWhile_append_of_pos bare.2,List.dropWhile_append_of_pos bare.2]
  simp [other]

theorem bareHead (bare : Bare name) : ∃ c name', name = c::name' ∧ isBare c = true := by
  obtain ⟨c,name',same⟩ := List.exists_cons_of_ne_nil bare.1
  exact ⟨c,name',same,bare.2 c (by simp [same])⟩

theorem skipBare (here : isBare c = true) : skipBlanks (c::s) = c::s := by
  have solid : isBlank c = false := by
    by_contra blank
    simp only [isBlank,Bool.not_eq_false,Bool.or_eq_true,beq_iff_eq] at blank
    rcases blank with same|same <;> subst same <;> exact absurd here (by decide)
  simp [skipBlanks,solid]

theorem headerLine (bare : Bare name) : line reader doc ('['::(name ++ ']' :: '\n' :: rest)) =
    (doc.openTable name).map (fun doc => (doc,rest)) := by
  obtain ⟨c,name',same,here⟩ := bareHead bare
  have skipped : skipBlanks (name ++ ']' :: '\n' :: rest) = name ++ ']' :: '\n' :: rest := by
    rw [same]
    exact skipBare here
  have split := bareSplit (s := '\n'::rest) bare (show isBare ']' = false by decide)
  have read : expression reader doc ('['::(name ++ ']' :: '\n' :: rest)) =
      (doc.openTable name).map (fun doc => (doc,'\n'::rest)) := by
    have first : expression reader doc ('['::(name ++ ']' :: '\n' :: rest)) =
        header reader doc ('['::(name ++ ']' :: '\n' :: rest)) (name ++ ']' :: '\n' :: rest) := rfl
    rw [first]
    simp only [header,skipped,split,
      show skipBlanks (']' :: '\n' :: rest) = ']' :: '\n' :: rest from rfl,if_neg bare.1]
    cases doc.openTable name <;> rfl
  rw [line,read]
  cases doc.openTable name <;> rfl

theorem keyExpression (bare : Bare name) (s : Text) :
    expression reader doc (name ++ s) = keyValue reader doc (name ++ s) := by
  obtain ⟨c,name',same,here⟩ := bareHead bare
  have other {d : Char} (no : isBare d = false) : c ≠ d := by
    intro same
    rw [same,no] at here
    contradiction
  subst same
  rw [List.cons_append]
  simp only [expression,skipBare here]
  rw [if_neg (by simp [other (show isBare '#' = false by decide),
    other (show isBare '\n' = false by decide),other (show isBare '\r' = false by decide)]),
    if_neg (other (by decide))]

theorem stringExpression (bare : Bare name) (s : Text) :
    expression reader doc (name ++ ' ' :: '=' :: ' ' :: '"' :: s) =
      (readString reader.newline ('"'::s)).bind (fun (v,rest) =>
        (doc.assign name (.string v)).map (fun doc => (doc,rest))) := by
  have split := bareSplit (s := '=' :: ' ' :: '"' :: s) bare (show isBare ' ' = false by decide)
  rw [keyExpression bare]
  simp only [keyValue,split,
    show skipBlanks (' ' :: '=' :: ' ' :: '"' :: s) = '=' :: ' ' :: '"' :: s from rfl,
    show skipBlanks (' ' :: '"' :: s) = '"'::s from rfl,if_neg bare.1,List.head?_cons,if_true]
  cases readString reader.newline ('"'::s) with
  | none => rfl
  | some found => cases h : doc.assign name (.string found.1) <;> simp [h]

theorem digitHead (n : Nat) : ∃ c s, decimal n = c::s ∧ toDigit 10 c ≠ none := by
  have written := writtenDigits (b := 10) (by decide) (by decide) n
  obtain ⟨c,s,same⟩ := List.exists_cons_of_ne_nil written.present
  exact ⟨c,s,same,written.digits c (by simp [same])⟩

theorem numberExpression (bare : Bare name) (fits : n < 2^63) :
    expression reader doc (name ++ ' ' :: '=' :: ' ' :: (decimal n ++ '\n'::rest)) =
      (doc.assign name (.integer n)).map (fun doc => (doc,'\n'::rest)) := by
  have split := bareSplit (s := '=' :: ' ' :: (decimal n ++ '\n'::rest)) bare
    (show isBare ' ' = false by decide)
  obtain ⟨c,digits,same,digit⟩ := digitHead n
  have other {d : Char} (no : toDigit 10 d = none) : c ≠ d := by
    intro same
    rw [same] at digit
    exact digit no
  have solid : skipBlanks (decimal n ++ '\n'::rest) = decimal n ++ '\n'::rest := by
    rw [same,List.cons_append,skipBlanks,List.dropWhile_cons_of_neg]
    simp [isBlank,other (show toDigit 10 ' ' = none by decide),
      other (show toDigit 10 '\t' = none by decide)]
  have skipped : skipBlanks (' '::(decimal n ++ '\n'::rest)) = decimal n ++ '\n'::rest := solid
  have unquoted : (decimal n ++ '\n'::rest).head? ≠ some '"' := by
    simpa [same] using other (show toDigit 10 '"' = none by decide)
  have stops : Stops 10 ('\n'::rest) := by
    intro x first
    cases Option.some.inj first
    decide
  have read : number (decimal n ++ '\n'::rest) = some (n,'\n'::rest) := by
    rw [number,readDecimal none false fits (by simp) stops]
    rfl
  rw [keyExpression bare]
  simp only [keyValue,split,show skipBlanks (' ' :: '=' :: ' ' :: (decimal n ++ '\n'::rest)) =
    '=' :: ' ' :: (decimal n ++ '\n'::rest) from rfl,skipped,if_neg bare.1,if_neg unquoted,read]
  cases doc.assign name (.integer n) <;> rfl

end Lines

def Reads (doc : Doc) (text : Text) (doc' : Doc) : Prop :=
  text ≠ [] ∧ ∀ rest, line reader doc (text ++ rest) = some (doc',rest)

section Reads
variable {reader} {doc doc' final : Doc} {text rest s : Text} {texts : List Text}

theorem documentReads (reads : Reads reader doc text doc') :
    document reader doc (text::texts).flatten = document reader doc' texts.flatten := by
  rw [List.flatten_cons]
  exact documentLine (by simp [List.length_pos_of_ne_nil reads.1]) (reads.2 _)

def closes : Text → Bool
  | [] => false
  | c::s => if c = '\n' then s.isEmpty else isComment c && closes s

def skips : Text → Bool
  | '#'::s => closes s
  | s => s == ['\n']

theorem closesComment (closed : closes s = true) : ∃ body, s = body ++ ['\n'] ∧ Comment body := by
  induction s with
  | nil => contradiction
  | cons c s ih =>
    rw [closes] at closed
    split at closed
    · next same =>
      rw [same,List.isEmpty_iff.mp closed]
      exact ⟨[],rfl,by simp [Comment]⟩
    · simp only [Bool.and_eq_true] at closed
      obtain ⟨body,same,comment⟩ := ih closed.2
      exact ⟨c::body,by rw [same]; rfl,List.forall_mem_cons.mpr ⟨closed.1,comment⟩⟩

theorem skipReads (skipped : skips text = true) :
    Reads reader doc (String.ofList text).toList doc := by
  rw [String.toList_ofList]
  unfold skips at skipped
  split at skipped
  · obtain ⟨body,same,comment⟩ := closesComment skipped
    subst same
    refine ⟨by simp,fun rest => ?_⟩
    rw [List.cons_append,List.append_assoc]
    exact commentLine comment
  · have empty : text = ['\n'] := by simpa using skipped
    subst empty
    exact ⟨by simp,fun rest => emptyLine⟩

theorem headerReads (name : Text) (bare : Bare name) (free : doc.taken [name] = false) :
    Reads reader doc ('['::(name ++ "]\n".toList)) (doc.enter name) := by
  have opened : doc.openTable name = some (doc.enter name) := if_neg (by simp [free])
  refine ⟨by simp,fun rest => ?_⟩
  have read : line reader doc ('['::(name ++ ']' :: '\n' :: rest)) =
      (doc.openTable name).map (fun doc => (doc,rest)) := headerLine bare
  rw [opened] at read
  rw [List.cons_append,List.append_assoc]
  exact read

theorem numberReads (name : Text) (bare : Bare name) {n : Nat} (fits : n < 2^63)
    (free : doc.taken (doc.table ++ [name]) = false) :
    Reads reader doc (name ++ " = ".toList ++ decimal n ++ "\n".toList)
      (doc.put name (.integer n)) := by
  have assigned : doc.assign name (.integer n) = some (doc.put name (.integer n)) :=
    if_neg (by simp [free])
  refine ⟨by simp [bare.1],fun rest => ?_⟩
  have read : expression reader doc (name ++ ' ' :: '=' :: ' ' :: (decimal n ++ '\n'::rest)) =
      (doc.assign name (.integer n)).map (fun doc => (doc,'\n'::rest)) := numberExpression bare fits
  rw [assigned] at read
  have text : name ++ " = ".toList ++ decimal n ++ "\n".toList ++ rest =
      name ++ ' ' :: '=' :: ' ' :: (decimal n ++ '\n'::rest) := by
    simp only [List.append_assoc]
    rfl
  rw [text,line,read]
  rfl

def stringLine (name s : Text) : Text := name ++ " = \"".toList ++ s ++ "\"\n".toList

theorem stringText (name s rest : Text) : stringLine name s ++ rest =
    name ++ ' ' :: '=' :: ' ' :: '"' :: (s ++ '"' :: '\n' :: rest) := by
  simp only [stringLine,List.append_assoc]
  rfl

theorem stringReads (name : Text) (bare : Bare name) (plain : Plain s)
    (free : doc.taken (doc.table ++ [name]) = false) :
    Reads reader doc (stringLine name s) (doc.put name (.string s)) := by
  have assigned : doc.assign name (.string s) = some (doc.put name (.string s)) :=
    if_neg (by simp [free])
  refine ⟨by simp [stringLine,bare.1],fun rest => ?_⟩
  have read : readString reader.newline ('"'::(s ++ '"' :: '\n' :: rest)) = some (s,'\n'::rest) :=
    readPlain reader.newline plain (by simp)
  rw [stringText,line,stringExpression bare,read]
  simp only [Option.bind_some,assigned]
  rfl

theorem stringKept {name : Text} (bare : Bare name)
    (read : document reader doc (stringLine name s::texts).flatten = some final) :
    ∃ v rest, readString reader.newline ('"'::(s ++ '"' :: '\n' :: texts.flatten)) = some (v,rest) ∧
      final.get (doc.table ++ [name]) = some (.string v) := by
  rw [List.flatten_cons,stringText] at read
  obtain ⟨doc',left,found,after⟩ := documentSome read (by simp)
  rw [line,stringExpression bare] at found
  simp only [Option.bind_eq_bind,Option.bind_eq_some_iff,Option.map_eq_some_iff,Prod.exists] at found
  obtain ⟨_,_,⟨v,rest,string,assigned,put,same⟩,_,_,last⟩ := found
  cases same
  cases last
  exact ⟨v,_,string,documentKeeps after (assignGet put)⟩

end Reads
end Vmdesk.Toml
