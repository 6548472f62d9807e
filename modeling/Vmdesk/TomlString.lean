import Vmdesk.Digits

/-! The strings that TOML 1.0 writes between double quotes, on one line or on several. A reader goes
from one character to the next, so what it makes of a text is what it makes of its parts. -/
namespace Vmdesk.Toml
open Digits (toDigit)

def isPlain (c : Char) : Bool :=
  c != '"' && c != '\\' && (c == '\t' || (0x20 ≤ c.toNat && c.toNat != 0x7f))

def isBlank (c : Char) : Bool := c == ' ' || c == '\t'

def Plain (s : Text) : Prop := ∀ c ∈ s, isPlain c = true
instance (s : Text) : Decidable (Plain s) :=
  decidable_of_iff (s.all isPlain = true) List.all_eq_true

/- Where the reader stands: behind a backslash, among the digits of a character, in front of the
newline that a backslash takes back or behind it, between the two characters of a newline. -/
inductive Reading where
  | body
  | escape
  | unicode (left value : Nat)
  | blank
  | trim
  | bodyReturn
  | trimReturn
  deriving DecidableEq, Repr

def escaped (c : Char) : Option Char :=
  if c = 'b' then some '\x08'
  else if c = 't' then some '\t'
  else if c = 'n' then some '\n'
  else if c = 'f' then some '\x0c'
  else if c = 'r' then some '\r'
  else if c = '"' then some '"'
  else if c = '\\' then some '\\'
  else none

/- Only scalar values are characters. -/
def scalar (value : Nat) : Option Char :=
  if value.isValidChar then some (Char.ofNat value) else none

def stepBody (multiline : Bool) (c : Char) : Option (Reading × Text) :=
  if c = '\\' then some (.escape,[])
  else if isPlain c ∨ c = '"' then some (.body,[c])
  else if multiline && c == '\n' then some (.body,[c])
  else if multiline && c == '\r' then some (.bodyReturn,[])
  else none

def stepBreak (c : Char) : Option (Reading × Text) :=
  if c = '\n' then some (.trim,[]) else if c = '\r' then some (.trimReturn,[]) else none

/- One character, and what it adds to the string. `newline` is what a newline of two characters is
read as. -/
def step (multiline : Bool) (newline : Text) : Reading → Char → Option (Reading × Text)
  | .body,c => stepBody multiline c
  | .escape,c => match escaped c with
      | some d => some (.body,[d])
      | none =>
          if c = 'u' then some (.unicode 4 0,[])
          else if c = 'U' then some (.unicode 8 0,[])
          else if !multiline then none
          else if isBlank c then some (.blank,[])
          else stepBreak c
  | .unicode left value,c => do
      let d ← toDigit 16 c
      if left ≤ 1 then do
        let u ← scalar (value*16 + d)
        some (.body,[u])
      else some (.unicode (left - 1) (value*16 + d),[])
  | .blank,c => if isBlank c then some (.blank,[]) else stepBreak c
  | .trim,c => if isBlank c then some (.trim,[]) else match stepBreak c with
      | some next => some next
      | none => stepBody multiline c
  | .bodyReturn,c => if c = '\n' then some (.body,newline) else none
  | .trimReturn,c => if c = '\n' then some (.trim,[]) else none

def basic (q : Reading) : Text → Option (Text × Text)
  | [] => none
  | c::s => if q = .body ∧ c = '"' then some ([],s) else do
      let (q,out) ← step false [] q c
      let (v,rest) ← basic q s
      some (out ++ v,rest)

/- The three quotes that end a string on several lines, with up to two more in front that belong to
it. -/
def closing : Text → Option (Text × Text)
  | '"' :: '"' :: '"' :: s => match s with
      | '"' :: '"' :: s => some (['"','"'],s)
      | '"'::s => some (['"'],s)
      | s => some ([],s)
  | _ => none

def Reading.outside : Reading → Bool
  | .body | .trim => true
  | .escape | .unicode _ _ | .blank | .bodyReturn | .trimReturn => false

def multi (newline : Text) (q : Reading) : Text → Option (Text × Text)
  | [] => none
  | c::s => match if q.outside then closing (c::s) else none with
    | some found => some found
    | none => do
        let (q,out) ← step true newline q c
        let (v,rest) ← multi newline q s
        some (out ++ v,rest)

/- A newline directly behind the opening quotes is left out. -/
def afterOpening : Text → Text
  | '\n'::s => s
  | '\r' :: '\n' :: s => s
  | s => s

def readString (newline : Text) : Text → Option (Text × Text)
  | '"'::s => match s with
      | '"' :: '"' :: s => multi newline .body (afterOpening s)
      | s => basic .body s
  | _ => none

def run (newline : Text) (q : Reading) : Text → Option (Reading × Text)
  | [] => some (q,[])
  | c::s => do
      let (q,out) ← step true newline q c
      let (q,v) ← run newline q s
      some (q,out ++ v)

section Plainly
variable {s rest : Text} {c : Char}

theorem plainBody (plain : isPlain c = true) (multiline : Bool) :
    stepBody multiline c = some (.body,[c]) := by
  have other : c ≠ '\\' := by
    intro same
    subst same
    exact absurd plain (by decide)
  simp [stepBody,other,plain]

theorem plainQuote (plain : isPlain c = true) : c ≠ '"' := by
  intro same
  subst same
  exact absurd plain (by decide)

theorem basicPlain (plain : Plain s) : basic .body (s ++ '"'::rest) = some (s,rest) := by
  induction s with
  | nil => simp [basic]
  | cons c s ih =>
    have here := plain c (by simp)
    rw [List.cons_append,basic,if_neg (fun both => plainQuote here both.2)]
    simp [step,plainBody here,ih (fun d member => plain d (by simp [member]))]

theorem readPlain (newline : Text) (plain : Plain s) (ends : rest.head? ≠ some '"') :
    readString newline ('"'::(s ++ '"'::rest)) = some (s,rest) := by
  simp only [readString]
  split
  · next more same =>
    cases s with
    | nil =>
      cases (List.cons.inj same).2
      exact absurd rfl ends
    | cons c s => exact absurd (List.cons.inj same).1 (plainQuote (plain c (by simp)))
  · exact basicPlain plain

end Plainly

section Steps
variable {multiline : Bool} {newline : Text} {p q : Reading} {c : Char} {out s t v rest : Text}

theorem stepQuote (stepped : step multiline newline p '"' = some (q,out)) :
    q = .body ∧ out = ['"'] := by
  have digit : toDigit 16 '"' = none := by decide
  have body : stepBody multiline '"' = some (.body,['"']) := by simp [stepBody]
  have back : stepBreak '"' = none := by decide
  have blank : isBlank '"' = false := by decide
  have here : escaped '"' = some '"' := by decide
  cases p <;> simp_all [step]

def credit : Reading → Nat
  | .bodyReturn => 1
  | .body | .escape | .unicode _ _ | .blank | .trim | .trimReturn => 0

theorem stepBodyLength (stepped : stepBody multiline c = some (q,out)) :
    out.length + credit q ≤ 1 := by
  unfold stepBody at stepped
  repeat' split at stepped
  all_goals cases stepped <;> simp [credit]

theorem stepBreakLength (stepped : stepBreak c = some (q,out)) : out = [] ∧ credit q = 0 := by
  unfold stepBreak at stepped
  repeat' split at stepped
  all_goals cases stepped <;> simp [credit]

theorem stepLength (short : newline.length ≤ 2)
    (stepped : step multiline newline p c = some (q,out)) :
    out.length + credit q ≤ 1 + credit p := by
  have blankStep {next : Option (Reading × Text)} {here : Reading} (still : credit here = 0)
      (after : next = some (q,out) → out.length + credit q ≤ 1)
      (stepped : (if isBlank c then some (here,[]) else next) = some (q,out)) :
      out.length + credit q ≤ 1 := by
    split at stepped
    · cases stepped
      simp [still]
    · exact after stepped
  have break' (stepped : stepBreak c = some (q,out)) : out.length + credit q ≤ 1 := by
    simp [stepBreakLength stepped]
  cases p with
  | body => exact stepBodyLength stepped
  | escape =>
    simp only [step] at stepped
    split at stepped
    · cases stepped
      simp [credit]
    · split at stepped
      · cases stepped
        simp [credit]
      split at stepped
      · cases stepped
        simp [credit]
      split at stepped
      · contradiction
      exact blankStep rfl break' stepped
  | unicode left value =>
    simp only [step,Option.bind_eq_bind,Option.bind_eq_some_iff] at stepped
    obtain ⟨d,_,stepped⟩ := stepped
    split at stepped
    · obtain ⟨u,_,same⟩ := Option.bind_eq_some_iff.mp stepped
      cases same
      simp [credit]
    · cases stepped
      simp [credit]
  | blank => exact blankStep rfl break' stepped
  | trim =>
    refine blankStep rfl (fun stepped => ?_) stepped
    split at stepped
    · next same =>
      cases stepped
      exact break' same
    · exact stepBodyLength stepped
  | bodyReturn =>
    simp only [step] at stepped
    split at stepped
    · cases stepped
      simpa [credit] using short
    · contradiction
  | trimReturn =>
    simp only [step] at stepped
    split at stepped
    · cases stepped
      simp [credit]
    · contradiction

end Steps

section Lines
variable {s t v rest : Text} {q : Reading}

theorem basicCases {c : Char} (read : basic q (c::s) = some (v,rest)) :
    (q = .body ∧ c = '"') ∧ v = [] ∨ ¬ (q = .body ∧ c = '"') ∧ ∃ p out w,
      step false [] q c = some (p,out) ∧ basic p s = some (w,rest) ∧ v = out ++ w := by
  rw [basic] at read
  split at read
  · next ends =>
    cases read
    exact Or.inl ⟨ends,rfl⟩
  · next inside =>
    simp only [Option.bind_eq_bind,Option.bind_eq_some_iff,Prod.exists] at read
    obtain ⟨p,out,stepped,w,left,more,same⟩ := read
    cases same
    exact Or.inr ⟨inside,p,out,w,stepped,more,rfl⟩

theorem basicShort (read : basic q (s ++ '"' :: '\n' :: t) = some (v,rest)) :
    v.length ≤ s.length + credit q := by
  induction s generalizing q v with
  | nil =>
    rcases basicCases read with ⟨_,empty⟩|⟨_,p,out,w,stepped,more,_⟩
    · simp [empty]
    · cases (stepQuote stepped).1
      simp [basic,step,show stepBody false '\n' = none from by decide] at more
  | cons c s ih =>
    rcases basicCases read with ⟨_,empty⟩|⟨_,p,out,w,stepped,more,same⟩
    · simp [empty]
    · subst same
      have first := stepLength (by simp) stepped
      have later := ih more
      simp only [List.length_append,List.length_cons]
      omega

theorem basicOnly (read : basic .body (s ++ '"' :: '\n' :: t) = some (s,rest)) : Plain s := by
  induction s with
  | nil => simp [Plain]
  | cons c s ih =>
    rcases basicCases read with ⟨_,empty⟩|⟨inside,p,out,v,stepped,more,same⟩
    · contradiction
    · have other : c ≠ '"' := fun same => inside ⟨rfl,same⟩
      simp only [step,stepBody,Bool.false_and] at stepped
      split at stepped
      · cases stepped
        have short := basicShort more
        have long := congrArg List.length same
        simp [credit] at short long
        omega
      · split at stepped
        · next plain =>
          cases stepped
          cases same
          exact List.forall_mem_cons.mpr ⟨plain.resolve_right other,ih more⟩
        · contradiction

end Lines

section Parts
variable {newline s t v x y : Text} {p q : Reading} {c : Char}

theorem runAppend (newline : Text) (q : Reading) (x y : Text) : run newline q (x ++ y) =
    (run newline q x).bind (fun (p,v) => (run newline p y).map (fun (p,w) => (p,v ++ w))) := by
  induction x generalizing q with
  | nil => cases h : run newline q y <;> simp [run,h]
  | cons c x ih =>
    simp only [List.cons_append,run,Option.bind_eq_bind]
    cases step true newline q c with
    | none => rfl
    | some next =>
      simp only [Option.bind_some,ih]
      cases run newline next.1 x with
      | none => rfl
      | some through => cases h : run newline through.1 y <;> simp [h]

def Quotable (newline : Text) (q : Reading) : Prop :=
  ∃ p out, step true newline q '"' = some (p,out)

theorem runQuote (here : Quotable newline q) (s : Text) :
    run newline q ('"'::s) = (run newline .body s).map (fun (p,v) => (p,'"'::v)) := by
  obtain ⟨p,out,stepped⟩ := here
  obtain ⟨first,second⟩ := stepQuote stepped
  subst first second
  cases h : run newline .body s <;> simp [run,stepped,h]

theorem runSelf (itself : stepBody true c = some (.body,[c])) (s : Text) :
    run newline .body (c::s) = (run newline .body s).map (fun (p,v) => (p,c::v)) := by
  cases h : run newline .body s <;> simp [run,step,itself,h]

theorem newlineBody : stepBody true '\n' = some (.body,['\n']) := by decide

theorem runBoundary (here : Quotable newline q) (plain : isPlain c = true) (s : Text) :
    run newline q ('"' :: '\n' :: c::s) =
      (run newline .body s).map (fun (p,v) => (p,'"' :: '\n' :: c::v)) := by
  rw [runQuote here,runSelf newlineBody,runSelf (plainBody plain true)]
  cases run newline .body s <;> rfl

theorem runThrough (ran : run newline p (x ++ '"'::s) = some (q,v)) : ∃ r w u,
    run newline p x = some (r,w) ∧ Quotable newline r ∧ run newline .body s = some (q,u) ∧
      v = w ++ '"'::u := by
  rw [runAppend] at ran
  obtain ⟨⟨r,w⟩,through,ran⟩ := Option.bind_eq_some_iff.mp ran
  obtain ⟨⟨_,u⟩,last,same⟩ := Option.map_eq_some_iff.mp ran
  have here : Quotable newline r := by
    cases stepped : step true newline r '"' with
    | none => simp [run,stepped] at last
    | some next => exact ⟨next.1,next.2,stepped⟩
  rw [runQuote here] at last
  obtain ⟨⟨_,u⟩,inner,fits⟩ := Option.map_eq_some_iff.mp last
  cases fits
  cases same
  exact ⟨r,w,u,through,here,inner,rfl⟩

inductive Opens : Text → Prop where
  | bare : Opens ['"','"']
  | newline : Opens ['"','"','\n']
  | twice : Opens ['"','"','\r','\n']

theorem opensSplit {b : Text} (opens : Opens (v ++ b)) (rest : '"' :: '\n' :: c::s = b ++ y) :
    b = [] ∨ v = ['"'] ∧ (y = '\n'::c::s ∨ y = c::s) := by
  generalize whole : v ++ b = x at opens
  cases b with
  | nil => exact Or.inl rfl
  | cons d b =>
    simp only [List.cons_append,List.cons.injEq] at rest
    obtain ⟨quote,rest⟩ := rest
    subst quote
    right
    rcases v with _|⟨v0,_|⟨v1,v⟩⟩
    · cases opens <;> simp_all
    · cases opens <;> simp_all
    · have last : '"' ∈ x.drop 2 := by simp [← whole]
      cases opens <;> simp at last

/- What three quotes and a part of a string begin with is not what the part reads as, up to the end of
a line. -/
theorem noFixpoint (opens : Opens x) (plain : isPlain c = true)
    (ran : run newline .body y = some (q,v)) (here : Quotable newline q) :
    x ++ y ≠ v ++ '"' :: '\n' :: c::s := by
  have first : Quotable newline .body := ⟨.body,['"'],by simp [step,stepBody]⟩
  intro same
  induction size : y.length using Nat.strong_induction_on generalizing y v q s with
  | _ n ih =>
  rcases List.append_eq_append_iff.mp same with ⟨a,read,rest⟩|⟨b,front,rest⟩
  · subst read rest
    obtain ⟨r,w,u,through,here,last,same⟩ := runThrough ran
    rw [runSelf newlineBody,runSelf (plainBody plain true),Option.map_map] at last
    obtain ⟨⟨_,t⟩,_,fits⟩ := Option.map_eq_some_iff.mp last
    cases fits
    exact ih a.length (by simp [← size]) through here same rfl
  · subst front
    rcases opensSplit opens rest with none'|⟨quote,next⟩
    · subst none'
      rw [← List.nil_append y,← rest,runBoundary first plain] at ran
      obtain ⟨_,_,fits⟩ := Option.map_eq_some_iff.mp ran
      cases fits
      cases opens
    · have itself : ∃ d t, y = d::t ∧ d ≠ '"' ∧ stepBody true d = some (.body,[d]) := by
        rcases next with next|next
        · exact ⟨_,_,next,by decide,newlineBody⟩
        · exact ⟨_,_,next,plainQuote plain,plainBody plain true⟩
      obtain ⟨d,t,next,other,itself⟩ := itself
      rw [next,runSelf itself] at ran
      obtain ⟨_,_,fits⟩ := Option.map_eq_some_iff.mp ran
      cases fits
      exact other (List.cons.inj quote).1

end Parts

section Several
variable {newline s t v y rest : Text} {p q : Reading} {c : Char} {out : Text}

theorem closingQuotes (found : closing s = some (v,rest)) :
    s = List.replicate (v.length + 3) '"' ++ rest := by
  unfold closing at found
  split at found
  · split at found <;> cases found <;> rfl
  · contradiction

theorem closingShort (found : closing (y ++ '"' :: '\n' :: t) = some (v,rest)) :
    v.length + 2 ≤ y.length := by
  by_contra long
  have here : (y ++ '"' :: '\n' :: t)[y.length + 1]? = some '\n' := by simp
  rw [closingQuotes found,List.getElem?_append_left (by simp; omega),
    List.getElem?_replicate_of_lt (by omega)] at here
  exact absurd here (by decide)

theorem multiCases (read : multi newline q (c::s) = some (v,rest)) :
    closing (c::s) = some (v,rest) ∨ ∃ p out w, step true newline q c = some (p,out) ∧
      multi newline p s = some (w,rest) ∧ v = out ++ w := by
  rw [multi] at read
  split at read
  · next found shut =>
    cases read
    split at shut
    · exact Or.inl shut
    · contradiction
  · simp only [Option.bind_eq_bind,Option.bind_eq_some_iff,Prod.exists] at read
    obtain ⟨p,out,stepped,w,left,more,same⟩ := read
    cases same
    exact Or.inr ⟨p,out,w,stepped,more,rfl⟩

theorem multiSelf (itself : stepBody true c = some (.body,[c])) (other : c ≠ '"')
    (read : multi newline .body (c::s) = some (v,rest)) :
    ∃ w, multi newline .body s = some (w,rest) ∧ v = c::w := by
  rcases multiCases read with shut|⟨p,out,w,stepped,more,same⟩
  · have quote := closingQuotes shut
    rw [List.replicate_succ,List.cons_append] at quote
    exact absurd (List.cons.inj quote).1 other
  · cases itself.symm.trans stepped
    exact ⟨w,more,same⟩

theorem multiSplit (short : newline.length ≤ 2)
    (read : multi newline q (y ++ '"' :: '\n' :: t) = some (v,rest)) :
    v.length ≤ y.length + credit q ∨ ∃ p w u, run newline q y = some (p,w) ∧ Quotable newline p ∧
      multi newline .body t = some (u,rest) ∧ v = w ++ '"' :: '\n' :: u := by
  induction y generalizing q v with
  | nil =>
    rcases multiCases read with shut|⟨p,out,w,stepped,more,same⟩
    · cases closingShort (y := []) shut
    · obtain ⟨first,second⟩ := stepQuote stepped
      subst first second same
      obtain ⟨u,later,same⟩ := multiSelf newlineBody (by decide) more
      subst same
      exact Or.inr ⟨q,[],u,rfl,⟨_,_,stepped⟩,later,rfl⟩
  | cons c y ih =>
    rcases multiCases read with shut|⟨p,out,w,stepped,more,same⟩
    · have early := closingShort (y := c::y) shut
      exact Or.inl (by omega)
    · subst same
      have first := stepLength short stepped
      rcases ih more with early|⟨r,x,u,ran,here,last,same⟩
      · left
        simp only [List.length_append,List.length_cons]
        omega
      · subst same
        exact Or.inr ⟨r,out ++ x,u,by simp [run,stepped,ran],here,last,by simp⟩

theorem afterOpeningQuote (s t : Text) : ∃ x y, Opens ('"' :: '"' :: x) ∧ s = x ++ y ∧
    afterOpening (s ++ '"'::t) = y ++ '"'::t := by
  rcases s with _|⟨c,s⟩
  · exact ⟨[],[],.bare,rfl,rfl⟩
  · by_cases line : c = '\n'
    · subst line
      exact ⟨['\n'],s,.newline,rfl,rfl⟩
    · by_cases back : c = '\r' ∧ ∃ s', s = '\n'::s'
      · obtain ⟨same,s',next⟩ := back
        subst same next
        exact ⟨['\r','\n'],s',.twice,rfl,rfl⟩
      · refine ⟨[],c::s,.bare,rfl,?_⟩
        rw [List.cons_append]
        unfold afterOpening
        split
        · simp_all
        · next same =>
          cases s <;> simp_all
        · rfl

theorem readOnly (short : newline.length ≤ 2) (next : ∀ c ∈ t.head?, isPlain c = true)
    (read : readString newline ('"'::(s ++ '"' :: '\n' :: t)) = some (s,rest)) : Plain s := by
  simp only [readString] at read
  split at read
  · next z same =>
    exfalso
    have onward {v : Text} (more : multi newline .body t = some (v,rest)) :
        ∃ c u w, isPlain c = true ∧ t = c::u ∧ v = c::w := by
      cases t with
      | nil => cases more
      | cons c u =>
        have plain := next c rfl
        obtain ⟨w,_,same⟩ := multiSelf (plainBody plain true) (plainQuote plain) more
        exact ⟨c,u,w,plain,rfl,same⟩
    rcases s with _|⟨c,_|⟨d,s⟩⟩
    · simp at same
    · simp only [List.cons_append,List.nil_append,List.cons.injEq,true_and] at same
      obtain ⟨first,second⟩ := same
      subst first second
      obtain ⟨c,_,_,plain,_,fits⟩ := onward read
      exact plainQuote plain (List.cons.inj fits).1.symm
    · simp only [List.cons_append,List.cons.injEq] at same
      obtain ⟨first,second,same⟩ := same
      subst first second same
      obtain ⟨x,y,opens,split,behind⟩ := afterOpeningQuote s ('\n'::t)
      subst split
      rw [behind] at read
      rcases multiSplit short read with early|⟨p,w,u,ran,here,more,fits⟩
      · simp [credit] at early
        omega
      · obtain ⟨c,_,v,plain,_,same⟩ := onward more
        subst same
        exact noFixpoint opens plain ran here fits
  · exact basicOnly read

end Several
end Vmdesk.Toml
