import Vmdesk.SessionInput

/-! Pointer positions from the mouse channel to the virtual pointer. A message carries a position
and nothing else, and the sink goes wherever it is told: the last arrival wins. -/
namespace Vmdesk
open LittleEndian (Bytes)

def MouseMove.position (m : MouseMove) : Int × Int := (m.x.toNat,m.y.toNat)

theorem positionInjective : Function.Injective MouseMove.position := by
  intro m p same
  simp only [MouseMove.position,Prod.mk.injEq,Int.natCast_inj] at same
  cases m
  cases p
  rw [MouseMove.mk.injEq]
  exact ⟨UInt16.toNat_inj.mp same.1,UInt16.toNat_inj.mp same.2⟩

theorem encodeInjective : Function.Injective MouseMove.encode := by
  intro m p same
  have left := (MouseMove.decodeExact m.encode m).mpr rfl
  have right := (MouseMove.decodeExact m.encode p).mpr same
  have both : some (Except.ok (α := MouseMove) m) = some (.ok p) := left.symm.trans right
  cases both
  rfl

namespace UinputSink
open Evdev (VirtualDevice)

def position (s : UinputSink) : Int × Int := (s.pointer.x,s.pointer.y)

def isAbsolute : Evdev.Event → Bool
  | .absolute _ _ => true
  | .key _ _ | .relative _ _ => false

theorem applyStill {events : List Evdev.Event} (quiet : ∀ e ∈ events, isAbsolute e = false)
    (d : VirtualDevice) : (events.foldl VirtualDevice.apply d).x = d.x ∧
      (events.foldl VirtualDevice.apply d).y = d.y := by
  induction events generalizing d with
  | nil => exact ⟨rfl,rfl⟩
  | cons e events ih =>
    have rest := ih (fun e mem => quiet e (by simp [mem])) (d.apply e)
    have first : (d.apply e).x = d.x ∧ (d.apply e).y = d.y := by
      have relative := quiet e (by simp)
      cases e with
      | key code pressed => cases pressed <;> exact ⟨rfl,rfl⟩
      | relative axis value => exact ⟨rfl,rfl⟩
      | absolute axis value => contradiction
    exact ⟨rest.1.trans first.1,rest.2.trans first.2⟩

theorem emitStill (d : VirtualDevice) {events : List Evdev.Event}
    (quiet : ∀ e ∈ events, isAbsolute e = false) (succeeds : Bool) (context : String) :
    (d.emit events succeeds context).1.x = d.x ∧ (d.emit events succeeds context).1.y = d.y := by
  unfold VirtualDevice.emit
  split
  · exact applyStill quiet d
  · exact ⟨rfl,rfl⟩

theorem releasesQuiet (codes : Held Evdev.KeyCode) :
    ∀ e ∈ VirtualDevice.releases codes, isAbsolute e = false := by
  intro e mem
  obtain ⟨code,_,same⟩ := List.mem_map.mp mem
  rw [← same]
  rfl

theorem wheelQuiet (horizontal vertical : Int16) :
    ∀ e ∈ wheelEvents horizontal vertical, isAbsolute e = false := by
  intro e mem
  unfold wheelEvents at mem
  split at mem <;> split at mem <;> simp_all [isAbsolute]
  rcases mem with same|same <;> rw [same]

theorem emitPointerStill (s : UinputSink) {events : List Evdev.Event}
    (quiet : ∀ e ∈ events, isAbsolute e = false) (emits : Emits) (context : String) :
    (s.emitPointer events emits context).1.position = s.position := by
  have still := emitStill s.pointer quiet emits.pointer context
  exact Prod.ext still.1 still.2

theorem releaseAllStill (s : UinputSink) (emits : Emits) :
    (s.releaseAll emits).1.position = s.position := by
  rcases releaseAllCases s emits with ⟨_,_,same⟩|⟨_,_,same⟩|⟨keyboard,_,⟨_,same⟩|⟨_,same⟩⟩
  all_goals rw [same]
  · rfl
  · rfl
  · rfl
  · have still := emitStill s.pointer (releasesQuiet s.pressedButtons) emits.pointer
      "releasing buttons"
    exact Prod.ext still.1 still.2

theorem callPosition (s : UinputSink) (c : Call) : (s.call c).1.position = match c with
    | .handle (.mouse m) emits => if emits.pointer then m.position else s.position
    | .handle (.control _) _ | .releaseAll _ => s.position := by
  cases c with
  | releaseAll emits => exact releaseAllStill s emits
  | handle event emits =>
    cases event with
    | mouse m =>
      simp only [call,handle,moveAbs,emitPointer,VirtualDevice.emit]
      split <;> rfl
    | control m =>
      cases m with
      | key code pressed =>
        simp only [call,handle]
        split <;> rfl
      | button b pressed =>
        exact emitPointerStill _ (by simp [isAbsolute]) emits _
      | wheel horizontal vertical =>
        simp only [call,handle,wheel]
        split
        · rfl
        · exact emitPointerStill s (wheelQuiet horizontal vertical) emits _
      | releaseAll => exact releaseAllStill s emits
      | hello version => rfl
      | setBitrate kbps => rfl

end UinputSink

namespace Server
open Function Session

def mouseData (reader : Reader) : Option Bytes :=
  if reader.isControl then none else match reader.phase with
    | .received data | .admitted data => some data
    | .polling | .ended => none

def hand (r : Nat) (s : Server) : List Bytes := ((s.readers r).bind mouseData).toList

def delivered (r : Nat) (s : Server) : Label → Option Bytes
  | .channel q (.onMessage data) =>
      if q = r ∧ (s.readers r).any (fun reader => !reader.isControl) then some data else none
  | _ => none

def moved (r : Nat) (s : Server) : Label → Option MouseMove
  | .reader q emits => if q = r ∧ emits.pointer then match (s.readers r).bind injects with
      | some (.mouse m) => some m
      | _ => none
    else none
  | _ => none

def Passes (r : Nat) (s : Server) (l : Label) : Prop := ∀ emits reader, l = .reader r emits →
  s.readers r = some reader → s.shared.activeSession = reader.session ∧ emits.pointer = true

section Steps
variable {s t : Server} {l : Label} {r : Nat}

theorem handOf {reader : Reader} (here : s.readers r = some reader) :
    hand r s = (mouseData reader).toList := by
  unfold hand
  rw [here]
  rfl

theorem handSame {q : Nat} (same : t.readers = s.readers) : hand q t = hand q s := by
  unfold hand
  rw [same]

theorem handSet {q : Nat} {reader : Reader} (set : t.readers = update s.readers r (some reader)) :
    hand q t = if q = r then (mouseData reader).toList else hand q s := by
  unfold hand
  rw [set,update_apply]
  split <;> rfl

def Numbered (s : Server) : Prop := ∀ q, s.nextReader ≤ q → s.readers q = none

theorem numberedStep (numbered : Numbered s) (stepped : s.step l = some t) : Numbered t := by
  have same (readers : t.readers = s.readers) (next : t.nextReader = s.nextReader) : Numbered t := by
    unfold Numbered
    rw [readers,next]
    exact numbered
  have moves (moves : Moves s t) : Numbered t := by
    obtain ⟨next,readers|⟨q,old,new,before,set,_⟩⟩ := moves
    · exact same readers next
    · intro p beyond
      rw [next] at beyond
      have other : p ≠ q := fun here => by simp [← here,numbered p beyond] at before
      rw [set,update_of_ne other]
      exact numbered p beyond
  cases l with
  | offer c sdp => exact same (offerKeeps stepped).readers (offerKeeps stepped).nextReader
  | call c reply => exact same (callKeeps stepped).readers (callKeeps stepped).nextReader
  | event | stop | merge | rtcp =>
    have still := idleStill rfl stepped
    exact same still.readers still.nextReader
  | channel q ev => exact moves (channelMoves stepped)
  | reader q emits => exact moves (readerMoves stepped)
  | task n emits =>
    rcases taskOpens stepped with ⟨readers,next⟩|⟨isControl,set,next⟩
    · exact same readers next
    · intro p beyond
      rw [next] at beyond
      rw [set,update_of_ne (by omega)]
      exact numbered p (by omega)

theorem handElsewhere (numbered : Numbered s) (stepped : s.step l = some t)
    (channel : ∀ q ev, l ≠ .channel q ev) (reader : ∀ q emits, l ≠ .reader q emits) :
    hand r t = hand r s := by
  cases l with
  | offer c sdp => exact handSame (offerKeeps stepped).readers
  | call c reply => exact handSame (callKeeps stepped).readers
  | event | stop | merge | rtcp => exact handSame (idleStill rfl stepped).readers
  | channel q ev => exact absurd rfl (channel q ev)
  | reader q emits => exact absurd rfl (reader q emits)
  | task n emits =>
    rcases taskOpens stepped with ⟨same,_⟩|⟨isControl,set,_⟩
    · exact handSame same
    · rw [handSet set]
      split
      · next fresh =>
        rw [hand,fresh,numbered s.nextReader (Nat.le_refl _)]
        cases isControl <;> rfl
      · rfl

theorem channelHand {q : Nat} {ev : ChannelEvent} (stepped : s.stepChannel q ev = some t) :
    hand r t = hand r s ++ (delivered r s (.channel q ev)).toList := by
  have leaves {k : Server} {reader : Reader} {phase : ReaderPhase}
      (here : s.readers q = some reader) (at' : reader.phase = .polling)
      (idle : phase = .polling ∨ phase = .ended) (set : k = s.setReader q reader phase) :
      hand r k = hand r s := by
    subst set
    rw [handSet (r := q) rfl]
    split
    · next same =>
      rw [same,handOf here,mouseData,mouseData,at']
      rcases idle with next|next <;> rw [next]
    · rfl
  unfold stepChannel at stepped
  simp only [Option.bind_eq_bind,Option.bind_eq_some_iff] at stepped
  obtain ⟨reader,here,stepped⟩ := stepped
  split at stepped
  case h_1 data at' =>
    cases Option.some.inj stepped
    rw [handSet (r := q) rfl]
    by_cases same : r = q
    · subst same
      rw [if_pos rfl,handOf here,mouseData,mouseData,at',delivered,here]
      cases kind : reader.isControl <;> simp [kind]
    · simp [same,Ne.symm same,delivered]
  case h_7 => contradiction
  case h_2 at' | h_3 at' | h_4 at' =>
    cases Option.some.inj stepped
    rw [leaves here at' (Or.inr rfl) rfl]
    simp [delivered]
  all_goals
    cases Option.some.inj stepped
    simp [delivered]

theorem inputMouse {isControl : Bool} {data : Bytes} {m : MouseMove} :
    inputOf isControl data = some (.mouse m) ↔ isControl = false ∧ data = m.encode := by
  rw [← MouseMove.decodeExact,Accepts,inputOf]
  cases isControl with
  | true =>
    refine iff_of_false (fun read => ?_) (by simp)
    rw [if_pos rfl] at read
    split at read <;> simp at read
  | false =>
    rw [if_neg Bool.false_ne_true]
    cases (MouseMove.decode data).run with
    | none => simp
    | some result => cases result <;> simp

theorem admittedInjects {reader : Reader} {m : MouseMove} (at' : reader.phase = .admitted m.encode)
    (mouse : reader.isControl = false) : injects reader = some (.mouse m) := by
  unfold injects
  rw [at']
  exact inputMouse.mpr ⟨mouse,rfl⟩

theorem movedExact {m : MouseMove} : moved r s l = some m ↔ ∃ emits reader, l = .reader r emits ∧
    emits.pointer = true ∧ s.readers r = some reader ∧ reader.phase = .admitted m.encode ∧
    reader.isControl = false := by
  constructor
  · intro emitted
    cases l with
    | reader q emits =>
      simp only [moved] at emitted
      split at emitted
      · next own =>
        obtain ⟨same,goes⟩ := own
        subst same
        split at emitted
        · next injected =>
          cases emitted
          obtain ⟨reader,here,injected⟩ := Option.bind_eq_some_iff.mp injected
          unfold injects at injected
          split at injected
          · next data at' =>
            obtain ⟨mouse,same⟩ := inputMouse.mp injected
            exact ⟨emits,reader,rfl,goes,here,same ▸ at',mouse⟩
          · contradiction
        · contradiction
      · contradiction
    | offer | call | event | stop | merge | task | rtcp | channel => contradiction
  · intro source
    obtain ⟨emits,reader,same,goes,here,at',mouse⟩ := source
    subst same
    have injected : (s.readers r).bind injects = some (.mouse m) := by
      rw [here,Option.bind_some,admittedInjects at' mouse]
    simp only [moved,goes,injected,and_self,if_true]

theorem movedNone (silent : ∀ emits reader data, l = .reader r emits → s.readers r = some reader →
      reader.phase = .admitted data → reader.isControl = true) : moved r s l = none := by
  refine Option.eq_none_iff_forall_ne_some.mpr (fun m emitted => ?_)
  obtain ⟨emits,reader,same,_,here,at',mouse⟩ := movedExact.mp emitted
  rw [silent emits reader _ same here at'] at mouse
  contradiction

structure Flow (r : Nat) (s : Server) (l : Label) (t : Server) : Prop where
  some : (((moved r s l).map MouseMove.encode).toList ++ hand r t).Sublist
    (hand r s ++ (delivered r s l).toList)
  all : Passes r s l → (∀ data ∈ hand r s, ∃ m : MouseMove, data = m.encode) →
    ((moved r s l).map MouseMove.encode).toList ++ hand r t = hand r s ++ (delivered r s l).toList

theorem flowAll (same : ((moved r s l).map MouseMove.encode).toList ++ hand r t =
    hand r s ++ (delivered r s l).toList) : Flow r s l t :=
  ⟨same ▸ List.Sublist.refl _,fun _ _ => same⟩

theorem flowStill (silent : moved r s l = none) (nothing : delivered r s l = none)
    (same : hand r t = hand r s) : Flow r s l t :=
  flowAll (by simp [silent,nothing,same])

theorem actHand {q : Nat} (reader : Reader) (data : Bytes) (emits : Emits) :
    hand r ((s.act reader data emits).setReader q reader .polling) =
      if r = q then [] else hand r s := by
  have readers : ((s.act reader data emits).setReader q reader .polling).readers =
      update s.readers q (some {reader with phase := .polling}) := by
    simp only [setReader,actReaders]
  rw [handSet readers]
  split
  · cases reader.isControl <;> simp [mouseData]
  · rfl

theorem readerFlow {q : Nat} {emits : Emits} (stepped : s.stepReader q emits = some t) :
    Flow r s (.reader q emits) t := by
  have silent {reader : Reader} (here : s.readers q = some reader)
      (quiet : ∀ data, reader.phase = .admitted data → reader.isControl = true) :
      moved r s (.reader q emits) = none := by
    refine movedNone (fun _ other data same there at' => ?_)
    cases same
    cases Option.some.inj (here.symm.trans there)
    exact quiet data at'
  cases readerStep stepped with
  | refuse reader data here at' other =>
    have quiet := silent here (by simp [at'])
    by_cases own : r = q
    · subst own
      have empty : hand r (s.setReader r reader .polling) = [] := by
        rw [handSet (r := r) rfl]
        cases reader.isControl <;> simp [mouseData]
      refine ⟨by simp [quiet,empty],fun passes => ?_⟩
      exact absurd (passes emits reader rfl here).1 other
    · refine flowStill quiet rfl ?_
      rw [handSet (r := q) rfl,if_neg own]
  | enter reader data here at' active =>
    refine flowStill (silent here (by simp [at'])) rfl ?_
    rw [handSet (r := q) rfl]
    split
    · next same =>
      rw [same,handOf here]
      simp [mouseData,at']
    · rfl
  | act reader data here at' =>
    by_cases own : r = q
    · subst own
      cases mouse : reader.isControl with
      | true =>
        refine flowStill (silent here (fun _ _ => mouse)) rfl ?_
        rw [actHand,if_pos rfl,handOf here]
        simp [mouseData,mouse]
      | false =>
        have held : hand r s = [data] := by
          rw [handOf here]
          simp [mouseData,mouse,at']
        refine ⟨?_,fun passes valid => ?_⟩
        · rw [actHand,if_pos rfl,held,List.append_nil]
          cases emitted : moved r s (.reader r emits) with
          | none => exact List.nil_sublist _
          | some m =>
            obtain ⟨_,other,_,_,there,said,_⟩ := movedExact.mp emitted
            cases Option.some.inj (here.symm.trans there)
            cases at'.symm.trans said
            exact List.Sublist.refl _
        · obtain ⟨m,same⟩ := valid data (by simp [held])
          have emitted : moved r s (.reader r emits) = some m := movedExact.mpr
            ⟨emits,reader,rfl,(passes emits reader rfl here).2,here,same ▸ at',mouse⟩
          rw [emitted,actHand,if_pos rfl,held,same]
          rfl
    · refine flowStill (movedNone (fun _ _ _ same => ?_)) rfl ?_
      · cases same
        contradiction
      · rw [actHand,if_neg own]

theorem stepFlow (numbered : Numbered s) (stepped : s.step l = some t) : Flow r s l t := by
  cases l with
  | channel q ev =>
    apply flowAll
    rw [channelHand stepped]
    rfl
  | reader q emits => exact readerFlow stepped
  | offer | call | event | stop | merge | task | rtcp =>
    exact flowStill rfl rfl (handElsewhere numbered stepped (by simp) (by simp))

theorem positionStep (only : ∀ q, q ≠ r → moved q s l = none) (stepped : s.step l = some t) :
    t.input.position = ((moved r s l).map MouseMove.position).getD s.input.position := by
  have sink := (stepSink stepped).1
  have silent (other : ∀ m emits, sinkCall s l ≠ some (.handle (.mouse m) emits)) :
      moved r s l = none := by
    refine Option.eq_none_iff_forall_ne_some.mpr (fun m emitted => ?_)
    obtain ⟨emits,reader,same,_,here,at',mouse⟩ := movedExact.mp emitted
    refine other m emits ?_
    rw [same,sinkCall,here,Option.bind_some,admittedInjects at' mouse]
    rfl
  cases calls : sinkCall s l with
  | none =>
    rw [silent (by simp [calls]),sink,calls]
    rfl
  | some c =>
    rw [sink,calls,served,UinputSink.callPosition]
    cases c with
    | releaseAll emits =>
      rw [silent (by simp [calls])]
      rfl
    | handle event emits =>
      cases event with
      | control m =>
        rw [silent (by simp [calls])]
        rfl
      | mouse m =>
        obtain ⟨q,reader,same,here,injected⟩ := handling calls
        subst same
        have own : emits.pointer = true → q = r := by
          intro goes
          by_contra other
          have quiet := only q other
          simp [moved,here,injected,goes] at quiet
        cases goes : emits.pointer with
        | false => simp [moved,goes]
        | true =>
          have here' := own goes
          subst here'
          simp [moved,here,injected,goes]

def Only (r : Nat) (s : Server) (l : Label) : Prop := ∀ q, q ≠ r → delivered q s l = none

structure Alone (r : Nat) (s : Server) : Prop where
  numbered : Numbered s
  empty : ∀ q, q ≠ r → hand q s = []

theorem movedInHand {m : MouseMove} (emitted : moved r s l = some m) : hand r s ≠ [] := by
  obtain ⟨_,reader,_,_,here,at',mouse⟩ := movedExact.mp emitted
  simp [handOf here,mouseData,at',mouse]

theorem aloneMoved (alone : Alone r s) {q : Nat} (other : q ≠ r) : moved q s l = none := by
  cases emitted : moved q s l with
  | none => rfl
  | some m => exact absurd (alone.empty q other) (movedInHand emitted)

theorem aloneStep (alone : Alone r s) (only : Only r s l) (stepped : s.step l = some t) :
    Alone r t := by
  refine ⟨numberedStep alone.numbered stepped,fun q other => ?_⟩
  have flow := (stepFlow (r := q) alone.numbered stepped).some
  rw [alone.empty q other,only q other] at flow
  exact (List.append_eq_nil_iff.mp (List.sublist_nil.mp flow)).2

theorem aloneInitial (config : Config) (publicIp : Option Text) :
    Alone r (initial config publicIp) := ⟨fun _ _ => rfl,fun _ _ => rfl⟩

def Encoded (data : Bytes) : Prop := ∃ m : MouseMove, data = m.encode

theorem encodedStep (numbered : Numbered s) (valid : ∀ data ∈ hand r s, Encoded data)
    (arriving : ∀ data, delivered r s l = some data → Encoded data) (stepped : s.step l = some t) :
    ∀ data ∈ hand r t, Encoded data := by
  intro data mem
  have inside := (stepFlow (r := r) numbered stepped).some.subset (List.mem_append_right _ mem)
  rcases List.mem_append.mp inside with before|fresh
  · exact valid data before
  · exact arriving data (Option.mem_toList.mp fresh)

theorem passesAll (numbered : Numbered s) (valid : ∀ data ∈ hand r s, Encoded data) {ls : List Label}
    (passes : Runs.Allowed step (Passes r) s ls)
    (arriving : ∀ data ∈ Runs.observed step (delivered r) s ls, Encoded data)
    (reached : Runs.run step s ls = some t) :
    (Runs.observed step (moved r) s ls).map MouseMove.encode ++ hand r t =
      hand r s ++ Runs.observed step (delivered r) s ls := by
  have allowed := Runs.allowedBoth passes (Runs.observedAllowed arriving)
  rw [← Runs.observedMap]
  refine Runs.observedAll (fun s => Numbered s ∧ ∀ data ∈ hand r s, Encoded data) ⟨numbered,valid⟩
    ?_ ?_ allowed reached
  · intro s l t inv permitted stepped
    exact ⟨numberedStep inv.1 stepped,encodedStep inv.1 inv.2 permitted.2 stepped⟩
  · intro s l t inv permitted stepped
    exact (stepFlow inv.1 stepped).all permitted.1 inv.2

/- The positions the client has sent arrive in any order, some of them never. What has been
emitted is what was delivered, in this order, less what the server refused or could not emit. The
pointer is at the last of it, which may be another one than the newest. -/
theorem lastArrivalWins (config : Config) (publicIp : Option Text) (r : Nat) (ls : List Label)
    (moves : List MouseMove) (order : List (Fin moves.length))
    (only : Runs.Allowed step (Only r) (initial config publicIp) ls)
    (arrived : Runs.observed step (delivered r) (initial config publicIp) ls =
      order.map (fun i => (moves.get i).encode))
    (reached : Runs.run step (initial config publicIp) ls = some t) :
    ∃ kept, kept.Sublist order ∧
      Runs.observed step (moved r) (initial config publicIp) ls = kept.map moves.get ∧
      (Runs.Allowed step (Passes r) (initial config publicIp) ls → hand r t = [] → kept = order) ∧
      t.input.position = (kept.getLast?.map (fun i => (moves.get i).position)).getD (0,0) ∧
      ∀ last newest, kept.getLast? = some last → newest ∈ kept → (∀ i ∈ kept, i ≤ newest) →
        (t.input.position = (moves.get newest).position ↔ moves.get last = moves.get newest) ∧
        (order.Pairwise (· < ·) → last = newest) := by
  have alone := aloneInitial (r := r) config publicIp
  have flow : (Runs.observed step (fun s l => (moved r s l).map MouseMove.encode)
      (initial config publicIp) ls ++ hand r t).Sublist
      (hand r (initial config publicIp) ++
        Runs.observed step (delivered r) (initial config publicIp) ls) :=
    Runs.observedSublist Numbered alone.numbered
      (fun _ _ _ numbered stepped => numberedStep numbered stepped)
      (fun _ _ _ numbered stepped => (stepFlow numbered stepped).some) reached
  have empty : hand r (initial config publicIp) = [] := rfl
  rw [Runs.observedMap,empty,List.nil_append,arrived] at flow
  obtain ⟨kept,part,same⟩ := List.sublist_map_iff.mp ((List.sublist_append_left _ _).trans flow)
  have emitted : Runs.observed step (moved r) (initial config publicIp) ls = kept.map moves.get := by
    refine List.map_injective_iff.mpr encodeInjective ?_
    rw [List.map_map]
    exact same
  have ours : Runs.Allowed step (fun s l => ∀ q, q ≠ r → moved q s l = none)
      (initial config publicIp) ls := Runs.allowedImplies (Alone r) alone
    (fun _ _ _ inv permitted stepped => aloneStep inv permitted stepped)
    (fun s l inv _ q other => aloneMoved inv other) only
  have position : t.input.position =
      (Runs.observed step (fun s l => (moved r s l).map MouseMove.position)
        (initial config publicIp) ls).getLast?.getD (initial config publicIp).input.position :=
    Runs.observedLast (fun s => s.input.position)
      (fun s l t still stepped => positionStep still stepped) ours reached
  rw [Runs.observedMap,emitted,List.map_map,List.getLast?_map] at position
  refine ⟨kept,part,emitted,fun passes handled => ?_,position,fun last newest final member top => ?_⟩
  · have all := passesAll alone.numbered (fun data mem => absurd mem List.not_mem_nil) passes
      (fun data mem => ?_) reached
    · rw [handled,empty,List.append_nil,List.nil_append,arrived,emitted,List.map_map] at all
      exact part.eq_of_length (by simpa using congrArg List.length all)
    · obtain ⟨i,_,here⟩ := List.mem_map.mp (arrived ▸ mem)
      exact ⟨moves.get i,here.symm⟩
  · rw [position,final]
    refine ⟨positionInjective.eq_iff,fun ordered => ?_⟩
    obtain ⟨before,split⟩ := List.getLast?_eq_some_iff.mp final
    have ordered := ordered.sublist part
    rw [split,List.pairwise_append] at ordered
    rw [split] at member top
    rcases List.mem_append.mp member with earlier|same
    · have newer := ordered.2.2 newest earlier last (by simp)
      exact absurd (top last (by simp)) (Fin.not_le.mpr newer)
    · exact (List.mem_singleton.mp same).symm

end Steps

def openMouse (n : Nat) : List Label :=
  [.event n (.dataChannel (some mouseChannel)),.merge n,.task n .succeed,.task n .succeed]

def deliverMove (r : Nat) (m : MouseMove) : List Label :=
  [.channel r (.onMessage m.encode),.reader r .succeed,.reader r .succeed]

def crossed : List Label :=
  negotiate 0 ++ conclude 0 ++ connect 1 ++ openMouse 1 ++
    deliverMove 0 ⟨30,40⟩ ++ deliverMove 0 ⟨10,20⟩

def crossedMoves : List MouseMove := [⟨10,20⟩,⟨30,40⟩]

def sentLast : Fin crossedMoves.length := ⟨1,by decide⟩

def crossedOrder : List (Fin crossedMoves.length) := [sentLast,⟨0,by decide⟩]

def arrivesAt (r : Nat) : Label → Bool
  | .channel q (.onMessage _) => q == r
  | _ => true

theorem onlyArrives {r : Nat} {ls : List Label} (checked : ls.all (arrivesAt r) = true) {s : Server} :
    Runs.Allowed step (Only r) s ls := by
  refine Runs.allowedOf (fun l mem s q other => ?_)
  have here := List.all_eq_true.mp checked l mem
  unfold delivered
  split
  · next p data =>
    have same : p = r := by simpa [arrivesAt] using here
    simp [same,Ne.symm other]
  · rfl

theorem crossedState : (Runs.run step located crossed).map (fun t => t.input.position) =
      some (10,20) ∧ Runs.observed step (delivered 0) located crossed =
      crossedOrder.map (fun i => (crossedMoves.get i).encode) := by decide

theorem crossedLastWins : ∃ (t : Server) (kept : List (Fin crossedMoves.length)),
    Runs.run step located crossed = some t ∧ kept.Sublist crossedOrder ∧
    Runs.observed step (moved 0) located crossed = kept.map crossedMoves.get ∧
    t.input.position = (kept.getLast?.map (fun i => (crossedMoves.get i).position)).getD (0,0) := by
  obtain ⟨state,arrived⟩ := crossedState
  obtain ⟨t,reached,_⟩ := Option.map_eq_some_iff.mp state
  obtain ⟨kept,part,emitted,_,position,_⟩ := lastArrivalWins _ _ 0 crossed crossedMoves crossedOrder
    (onlyArrives (by decide)) arrived reached
  exact ⟨t,kept,reached,part,emitted,position⟩

theorem staleArrivalWins : ∃ t, Runs.run step located crossed = some t ∧
    Runs.observed step (delivered 0) located crossed =
      crossedOrder.map (fun i => (crossedMoves.get i).encode) ∧ sentLast ∈ crossedOrder ∧
    (∀ i ∈ crossedOrder, i ≤ sentLast) ∧ t.input.position ≠ (crossedMoves.get sentLast).position := by
  obtain ⟨state,arrived⟩ := crossedState
  obtain ⟨t,reached,position⟩ := Option.map_eq_some_iff.mp state
  refine ⟨t,reached,arrived,by decide,by decide,?_⟩
  rw [position]
  decide

end Server
end Vmdesk
