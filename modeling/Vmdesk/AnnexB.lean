import Mathlib.Data.List.Infix
import Vmdesk.LittleEndian
import Vmdesk.Slices

/-! The NAL units of an Annex B byte stream: a scan for start codes of three or four bytes, and the
slices between them. -/
namespace Vmdesk.AnnexB
open LittleEndian (Bytes)

/- The scan from `i` on: the places behind the start codes. -/
def startsFrom (annexb : Bytes) (i : Nat) : List Nat :=
  if _ : i + 3 ≤ annexb.length then
    if annexb[i] = 0 ∧ annexb[i + 1] = 0 ∧ annexb[i + 2] = 1 then
      (i + 3)::startsFrom annexb (i + 3)
    else startsFrom annexb (i + 1)
  else []
termination_by annexb.length - i

/- The loop that takes back `end` over zero bytes. A place outside is never read. -/
def strip (annexb : Bytes) (begin' : Nat) : Nat → Option Nat
  | 0 => some 0
  | before + 1 => if begin' < before + 1 then do
      let byte ← annexb[before]?
      if byte = 0 then strip annexb begin' before else some (before + 1)
    else some (before + 1)

/- Only a unit that another one follows is stripped. -/
def span (annexb : Bytes) (starts : List Nat) (k : Nat) : Option (Nat × Nat) := do
  let begin' ← starts[k]?
  match starts[k + 1]? with
  | some next => do
      let end' ← strip annexb begin' (next - 3)
      some (begin',end')
  | none => some (begin',annexb.length)

/- `&annexb[begin..end]` -/
def between (annexb : Bytes) (s : Nat × Nat) : Option Bytes :=
  if s.1 ≤ s.2 then Slices.slice annexb s.1 (s.2 - s.1) else none

def nalSpans (annexb : Bytes) : Option (List (Nat × Nat)) :=
  let starts := startsFrom annexb 0
  (List.range starts.length).mapM (span annexb starts)

def nalUnits (annexb : Bytes) : Option (List Bytes) := do
  let spans ← nalSpans annexb
  spans.mapM (between annexb)

inductive StartCode where | short | long
  deriving DecidableEq, Repr

def StartCode.bytes : StartCode → Bytes
  | short => [0,0,1]
  | long => [0,0,0,1]

def frame (units : List (StartCode × Bytes)) : Bytes := units.flatMap (fun u => u.1.bytes ++ u.2)

/- A unit cannot be told from its neighbours if it holds a start code, or if it ends in a zero that
might belong to the next one. -/
structure Separable (units : List (StartCode × Bytes)) : Prop where
  inside : ∀ u ∈ units, ¬[0,0,1] <:+: u.2
  ends : ∀ u ∈ units.dropLast, u.2.getLast? ≠ some 0

section Scan
variable {annexb : Bytes} {i : Nat}

theorem startHere (inside : i + 3 ≤ annexb.length) :
    (annexb[i] = 0 ∧ annexb[i + 1] = 0 ∧ annexb[i + 2] = 1) ↔ [0,0,1] <+: annexb.drop i := by
  rw [List.drop_eq_getElem_cons (show i < annexb.length by omega),
    List.drop_eq_getElem_cons (show i + 1 < annexb.length by omega),
    List.drop_eq_getElem_cons (show i + 1 + 1 < annexb.length by omega)]
  simp only [List.cons_prefix_cons,List.nil_prefix,and_true]
  exact ⟨fun ⟨first,second,third⟩ => ⟨first.symm,second.symm,third.symm⟩,
    fun ⟨first,second,third⟩ => ⟨first.symm,second.symm,third.symm⟩⟩

theorem startsHit (code : [0,0,1] <+: annexb.drop i) :
    startsFrom annexb i = (i + 3)::startsFrom annexb (i + 3) := by
  have room := code.length_le
  rw [List.length_drop] at room
  have inside : i + 3 ≤ annexb.length := by
    simp only [List.length_cons,List.length_nil] at room
    omega
  rw [startsFrom,dif_pos inside,if_pos ((startHere inside).mpr code)]

theorem startsEnd (short : annexb.length < i + 3) : startsFrom annexb i = [] := by
  rw [startsFrom,dif_neg (by omega)]

theorem startsMiss (other : ¬[0,0,1] <+: annexb.drop i) :
    startsFrom annexb i = startsFrom annexb (i + 1) := by
  by_cases inside : i + 3 ≤ annexb.length
  · rw [startsFrom,dif_pos inside,if_neg (fun here => other ((startHere inside).mp here))]
  · rw [startsEnd (by omega),startsEnd (by omega)]

structure Spaced (annexb : Bytes) (i : Nat) (starts : List Nat) : Prop where
  inside : ∀ s ∈ starts, i + 3 ≤ s ∧ s ≤ annexb.length
  apart : starts.Pairwise (fun a b => a + 3 ≤ b)

theorem startsSpaced (annexb : Bytes) (i : Nat) : Spaced annexb i (startsFrom annexb i) := by
  induction i using startsFrom.induct annexb with
  | case1 i inside here ih =>
    rw [startsHit ((startHere inside).mp here)]
    refine ⟨fun s member => ?_,List.pairwise_cons.mpr ⟨fun s member => (ih.inside s member).1,ih.apart⟩⟩
    rcases List.mem_cons.mp member with same|later
    · omega
    · have behind := ih.inside s later
      omega
  | case2 i inside other ih =>
    rw [startsMiss (fun here => other ((startHere inside).mpr here))]
    refine ⟨fun s member => ?_,ih.apart⟩
    have behind := ih.inside s member
    omega
  | case3 i short =>
    rw [startsEnd (by omega)]
    exact ⟨by simp,List.Pairwise.nil⟩

def Follows (rest : Bytes) : Prop := rest = [] ∨ ∃ more, rest = 0::0::more

theorem codeApart {b : UInt8} {payload rest : Bytes} (inside : ¬[0,0,1] <:+: b::payload)
    (follows : Follows rest) : ¬[0,0,1] <+: b::payload ++ rest := by
  intro code
  cases payload with
  | nil =>
    rcases follows with none'|⟨more,next⟩
    · simp [none',List.cons_prefix_cons] at code
    · simp [next,List.cons_prefix_cons] at code
  | cons c payload =>
    cases payload with
    | nil =>
      rcases follows with none'|⟨more,next⟩
      · simp [none',List.cons_prefix_cons] at code
      · simp [next,List.cons_prefix_cons] at code
    | cons d payload =>
      simp only [List.cons_append,List.cons_prefix_cons,List.nil_prefix,and_true] at code
      obtain ⟨first,second,third⟩ := code
      subst first second third
      exact inside (List.prefix_append [0,0,1] payload).isInfix

theorem startsSkip {payload rest : Bytes} (here : annexb.drop i = payload ++ rest)
    (inside : ¬[0,0,1] <:+: payload) (follows : Follows rest) :
    startsFrom annexb i = startsFrom annexb (i + payload.length) := by
  induction payload generalizing i with
  | nil => rfl
  | cons b payload ih =>
    have behind : annexb.drop (i + 1) = payload ++ rest := by
      rw [← List.drop_drop,here]
      rfl
    have inner : ¬[0,0,1] <:+: payload := fun within =>
      inside (within.trans (List.suffix_cons b payload).isInfix)
    rw [startsMiss (here ▸ codeApart inside follows),ih behind inner,List.length_cons]
    congr 1
    omega

theorem startsCode {code : StartCode} {rest : Bytes} (here : annexb.drop i = code.bytes ++ rest) :
    startsFrom annexb i =
      (i + code.bytes.length)::startsFrom annexb (i + code.bytes.length) := by
  cases code with
  | short => exact startsHit (here ▸ List.prefix_append [0,0,1] rest)
  | long =>
    have miss : ¬[0,0,1] <+: annexb.drop i := by
      rw [here]
      simp [StartCode.bytes,List.cons_prefix_cons]
    have hit : [0,0,1] <+: annexb.drop (i + 1) := by
      rw [← List.drop_drop,here]
      exact List.prefix_append [0,0,1] rest
    rw [startsMiss miss,startsHit hit]
    rfl

theorem frameFollows (units : List (StartCode × Bytes)) : Follows (frame units) := by
  cases units with
  | nil => exact Or.inl rfl
  | cons u units =>
    right
    obtain ⟨code,payload⟩ := u
    cases code with
    | short | long => exact ⟨_,rfl⟩

end Scan

section Spans
variable {annexb : Bytes} {starts : List Nat} {begin' end' : Nat}

def spans (annexb : Bytes) : List Nat → Option (List (Nat × Nat))
  | [] => some []
  | [begin'] => some [(begin',annexb.length)]
  | begin'::next::starts => do
    let end' ← strip annexb begin' (next - 3)
    let more ← spans annexb (next::starts)
    some ((begin',end')::more)

theorem mapMRangeNext {α : Type} (f : Nat → Option α) (n : Nat) :
    (List.range (n + 1)).mapM f = (do
      let first ← f 0
      let more ← (List.range n).mapM (fun k => f (k + 1))
      some (first::more)) := by
  rw [List.range_succ_eq_map,List.mapM_cons,List.mapM_map]
  rfl

theorem spansExact (annexb : Bytes) (starts : List Nat) :
    (List.range starts.length).mapM (span annexb starts) = spans annexb starts := by
  induction starts with
  | nil => rfl
  | cons begin' starts ih =>
    rw [List.length_cons,mapMRangeNext]
    have shifted : (fun k => span annexb (begin'::starts) (k + 1)) = span annexb starts := rfl
    rw [shifted,ih]
    cases starts with
    | nil => rfl
    | cons next starts =>
      simp only [spans,span,List.getElem?_cons_zero,List.getElem?_cons_succ,bind_assoc]
      rfl

theorem stripZeros {zeros : Nat} (start : begin' ≤ end')
    (zero : ∀ i < zeros, annexb[end' + i]? = some 0)
    (stop : begin' < end' → ∃ b, annexb[end' - 1]? = some b ∧ b ≠ 0) :
    strip annexb begin' (end' + zeros) = some end' := by
  induction zeros with
  | zero =>
    cases end' with
    | zero => rfl
    | succ before =>
      unfold strip
      split
      · next more =>
        obtain ⟨b,last,other⟩ := stop more
        rw [Nat.add_sub_cancel] at last
        simp [last,other]
      · rfl
  | succ zeros ih =>
    rw [← Nat.add_assoc,strip,if_pos (by omega),zero zeros (by omega)]
    exact ih (fun i below => zero i (by omega))

theorem stripBound (start : begin' ≤ end') (within : end' ≤ annexb.length) :
    ∃ stop, strip annexb begin' end' = some stop ∧ begin' ≤ stop ∧ stop ≤ end' := by
  induction end' with
  | zero => exact ⟨0,rfl,start,Nat.le_refl 0⟩
  | succ before ih =>
    unfold strip
    split
    · next more =>
      rw [List.getElem?_eq_getElem (show before < annexb.length by omega)]
      by_cases zero : annexb[before] = 0
      · obtain ⟨stop,stripped,low,high⟩ := ih (by omega) (by omega)
        exact ⟨stop,by simpa [zero] using stripped,low,by omega⟩
      · exact ⟨before + 1,by simp [zero],start,Nat.le_refl _⟩
    · exact ⟨before + 1,rfl,start,Nat.le_refl _⟩

theorem betweenFits {s : Nat × Nat} (order : s.1 ≤ s.2) (within : s.2 ≤ annexb.length) :
    between annexb s = some ((annexb.drop s.1).take (s.2 - s.1)) := by
  unfold between Slices.slice
  rw [if_pos order,if_pos (by omega)]

structure Placed (annexb : Bytes) (spans : List (Nat × Nat)) : Prop where
  inside : ∀ s ∈ spans, s.1 ≤ s.2 ∧ s.2 ≤ annexb.length
  apart : spans.Pairwise (fun a b => a.2 + 3 ≤ b.1)

theorem spansPlaced (within : ∀ s ∈ starts, s ≤ annexb.length)
    (apart : starts.Pairwise (fun a b => a + 3 ≤ b)) :
    ∃ found, spans annexb starts = some found ∧ found.map Prod.fst = starts ∧
      Placed annexb found := by
  induction starts with
  | nil => exact ⟨[],rfl,rfl,by simp,List.Pairwise.nil⟩
  | cons begin' starts ih =>
    obtain ⟨ahead,later⟩ := List.pairwise_cons.mp apart
    obtain ⟨found,more,first,placed⟩ := ih (fun s member => within s (by simp [member])) later
    cases starts with
    | nil =>
      refine ⟨[(begin',annexb.length)],rfl,rfl,?_,List.pairwise_singleton _ _⟩
      intro s member
      cases List.mem_singleton.mp member
      exact ⟨within begin' (by simp),Nat.le_refl _⟩
    | cons next starts =>
      have gap := ahead next (by simp)
      have bound := within next (by simp)
      have end' : next - 3 ≤ annexb.length := by omega
      obtain ⟨stop,stripped,low,high⟩ := stripBound (show begin' ≤ next - 3 by omega) end'
      refine ⟨(begin',stop)::found,by simp [spans,stripped,more],by simp [first],?_,?_⟩
      · intro s member
        rcases List.mem_cons.mp member with same|inside
        · subst same
          exact ⟨low,by simp only; omega⟩
        · exact placed.inside s inside
      · refine List.pairwise_cons.mpr ⟨fun s member => ?_,placed.apart⟩
        -- every later span begins at a later start
        have start : s.1 ∈ next::starts := first ▸ List.mem_map_of_mem member
        rcases List.mem_cons.mp start with same|behind
        · simp only
          omega
        · have order := (List.pairwise_cons.mp later).1 s.1 behind
          simp only
          omega

theorem betweenAll {found : List (Nat × Nat)} (placed : ∀ s ∈ found, s.1 ≤ s.2 ∧ s.2 ≤ annexb.length) :
    found.mapM (between annexb) = some (found.map (fun s => (annexb.drop s.1).take (s.2 - s.1))) := by
  induction found with
  | nil => rfl
  | cons s found ih =>
    obtain ⟨order,within⟩ := placed s (by simp)
    rw [List.mapM_cons,betweenFits order within,ih (fun s member => placed s (by simp [member]))]
    rfl

end Spans

section Units
variable {annexb : Bytes} {units : List (StartCode × Bytes)} {i : Nat}

theorem separableTail {u : StartCode × Bytes} (separable : Separable (u::units)) :
    Separable units := by
  refine ⟨fun v member => separable.inside v (by simp [member]),fun v member => ?_⟩
  cases units with
  | nil => simp at member
  | cons w units => exact separable.ends v (by simp [List.dropLast_cons_cons,member])

theorem unitEnds {payload more : Bytes} {code : StartCode}
    (behind : annexb.drop i = payload ++ (code.bytes ++ more)) (ends : payload.getLast? ≠ some 0) :
    strip annexb i (i + payload.length + code.bytes.length - 3) = some (i + payload.length) := by
  have at' (k : Nat) : annexb[i + k]? = (payload ++ (code.bytes ++ more))[k]? := by
    rw [← behind,List.getElem?_drop]
  have stop (longer : i < i + payload.length) :
      ∃ b, annexb[i + payload.length - 1]? = some b ∧ b ≠ 0 := by
    have present : payload ≠ [] := List.ne_nil_of_length_pos (by omega)
    have last : annexb[i + payload.length - 1]? = some (payload.getLast present) := by
      have place : i + payload.length - 1 = i + (payload.length - 1) := by omega
      rw [place,at',List.getElem?_append_left (by omega),← List.getLast?_eq_getElem?,
        List.getLast?_eq_some_getLast present]
    refine ⟨_,last,fun zero => ends ?_⟩
    rw [List.getLast?_eq_some_getLast present,zero]
  have front (k : Nat) : annexb[i + payload.length + k]? = (code.bytes ++ more)[k]? := by
    rw [Nat.add_assoc,at',List.getElem?_append_right (by omega),Nat.add_sub_cancel_left]
  have start : i ≤ i + payload.length := Nat.le_add_right _ _
  cases code with
  | short =>
    have stripped : strip annexb i (i + payload.length + 0) = _ :=
      stripZeros start (fun k below => absurd below (Nat.not_lt_zero k)) stop
    exact stripped
  | long =>
    have zero (k : Nat) (below : k < 1) : annexb[i + payload.length + k]? = some 0 := by
      rw [front,Nat.lt_one_iff.mp below]
      rfl
    exact stripZeros start zero stop

theorem payloadBetween {payload rest : Bytes} (behind : annexb.drop i = payload ++ rest)
    (present : i ≤ annexb.length) : between annexb (i,i + payload.length) = some payload := by
  have length := congrArg List.length behind
  rw [List.length_drop,List.length_append] at length
  rw [betweenFits (Nat.le_add_right _ _) (by simp only; omega)]
  simp [behind]

theorem unitsFound (separable : Separable units) (here : annexb.drop i = frame units) :
    (do let found ← spans annexb (startsFrom annexb i)
        found.mapM (between annexb)) = some (units.map Prod.snd) := by
  induction units generalizing i with
  | nil =>
    have short : annexb.length < i + 3 := by
      have none' := List.drop_eq_nil_iff.mp here
      omega
    rw [startsEnd short]
    rfl
  | cons u units ih =>
    obtain ⟨code,payload⟩ := u
    have first : annexb.drop i = code.bytes ++ (payload ++ frame units) := by
      rw [here]
      simp [frame]
    have behind : annexb.drop (i + code.bytes.length) = payload ++ frame units := by
      rw [← List.drop_drop,first,List.drop_left]
    have rest : annexb.drop (i + code.bytes.length + payload.length) = frame units := by
      rw [← List.drop_drop,behind,List.drop_left]
    have found := ih (separableTail separable) rest
    have present : i + code.bytes.length ≤ annexb.length := by
      have length := congrArg List.length first
      rw [List.length_drop,List.length_append] at length
      cases code <;> simp only [StartCode.bytes,List.length_cons,List.length_nil] at length ⊢ <;> omega
    rw [startsCode first,startsSkip behind (separable.inside (code,payload) (by simp))
      (frameFollows units)]
    cases units with
    | nil =>
      have past : annexb.length ≤ i + code.bytes.length + payload.length :=
        List.drop_eq_nil_iff.mp rest
      have exact' : annexb.length = i + code.bytes.length + payload.length := by
        have length := congrArg List.length behind
        simp only [List.length_drop,List.length_append,frame,List.flatMap_nil,List.length_nil] at length
        omega
      rw [startsEnd (by omega)]
      simp only [spans,Option.bind_eq_bind,Option.bind_some,List.mapM_cons,List.mapM_nil]
      rw [exact',payloadBetween behind present]
      rfl
    | cons v units =>
      obtain ⟨next,payload'⟩ := v
      have code' : annexb.drop (i + code.bytes.length + payload.length) =
          next.bytes ++ (payload' ++ frame units) := by
        rw [rest]
        simp [frame]
      have ends := unitEnds (behind.trans (congrArg (payload ++ ·) (rest ▸ code')))
        (separable.ends (code,payload) (by simp))
      rw [startsCode code'] at found ⊢
      obtain ⟨spans',known,found⟩ := Option.bind_eq_some_iff.mp found
      simp only [spans,ends,known,Option.bind_eq_bind,Option.bind_some,List.mapM_cons,
        payloadBetween behind present,found]
      rfl

/- Units that were framed are found again, and whatever the bytes, the slices lie in them, in their
order and apart. -/
theorem nalUnitsExact :
    (∀ units, Separable units → nalUnits (frame units) = some (units.map Prod.snd)) ∧
    ∀ annexb, ∃ found, nalSpans annexb = some found ∧
      (∀ s ∈ found, s.1 ≤ s.2 ∧ s.2 ≤ annexb.length) ∧
      found.Pairwise (fun a b => a.2 + 3 ≤ b.1) ∧
      nalUnits annexb = some (found.map (fun s => (annexb.drop s.1).take (s.2 - s.1))) := by
  refine ⟨fun units separable => ?_,fun annexb => ?_⟩
  · unfold nalUnits nalSpans
    simp only
    rw [spansExact]
    exact unitsFound (i := 0) separable rfl
  · have spaced := startsSpaced annexb 0
    obtain ⟨found,known,_,placed⟩ :=
      spansPlaced (fun s member => (spaced.inside s member).2) spaced.apart
    have all : nalSpans annexb = some found := by
      unfold nalSpans
      simp only
      rw [spansExact,known]
    refine ⟨found,all,placed.inside,placed.apart,?_⟩
    unfold nalUnits
    rw [all]
    exact betweenAll placed.inside

end Units

def parameterSets : List (StartCode × Bytes) :=
  [(.long,[0x67,1,2]),(.short,[0x68,3]),(.long,[0x65,4,5,6,0])]

theorem parameterSetsFound :
    nalUnits [0,0,0,1,0x67,1,2,0,0,1,0x68,3,0,0,0,1,0x65,4,5,6,0] =
      some [[0x67,1,2],[0x68,3],[0x65,4,5,6,0]] := by
  have separable : Separable parameterSets := ⟨by decide,by decide⟩
  exact nalUnitsExact.1 parameterSets separable

end Vmdesk.AnnexB
