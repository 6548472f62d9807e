import Vmdesk.PointerDelivery

/-! The control messages that one reader has in hand: what a step of the server does to them. -/
namespace Vmdesk
open LittleEndian (Bytes)

namespace Server
open Function Session

def held : ReaderPhase → List Bytes
  | .received data | .admitted data => [data]
  | .polling | .ended => []

def carried (r : Nat) (s : Server) : List Bytes :=
  (s.readers r).elim [] (fun reader => held reader.phase)

def heeds (reader : Reader) : Option ControlMessage := match reader.phase with
  | .admitted data => if reader.isControl then (ControlMessage.decode data).run.bind Except.toOption
      else none
  | _ => none

def heeded (r : Nat) (s : Server) : Label → Option ControlMessage
  | .reader q _ => if q = r then (s.readers r).bind heeds else none
  | _ => none

def arrives (r : Nat) : Label → Bool
  | .channel q (.onMessage _) => q == r
  | _ => false

inductive Turn (r : Nat) (s : Server) (l : Label) (t : Server) : Prop where
  | stays (same : t.readers r = s.readers r) (silent : heeded r s l = none)
  | opens (n isControl) (fresh : s.nextReader = r) (now : t.readers r = some ⟨n,isControl,.polling⟩)
      (silent : heeded r s l = none)
  | stops (reader) (here : s.readers r = some reader) (at' : reader.phase = .polling)
      (now : t.readers r = some {reader with phase := .ended}) (silent : heeded r s l = none)
  | refuses (emits reader data) (same : l = .reader r emits) (here : s.readers r = some reader)
      (at' : reader.phase = .received data) (other : s.shared.activeSession ≠ reader.session)
      (now : t.readers r = some {reader with phase := .polling}) (silent : heeded r s l = none)
  | enters (reader data) (here : s.readers r = some reader) (at' : reader.phase = .received data)
      (now : t.readers r = some {reader with phase := .admitted data})
      (silent : heeded r s l = none)
  | acts (reader data) (here : s.readers r = some reader) (at' : reader.phase = .admitted data)
      (now : t.readers r = some {reader with phase := .polling})
      (heeds : heeded r s l = heeds reader)

/- Whenever the reader looks, its session is the active one. -/
def Serves (r : Nat) (s : Server) (l : Label) : Prop := ∀ emits reader data, l = .reader r emits →
  s.readers r = some reader → reader.phase = .received data →
  s.shared.activeSession = reader.session

structure Written (r : Nat) (s : Server) : Prop where
  numbered : Numbered s
  control : ∀ reader, s.readers r = some reader → held reader.phase ≠ [] → reader.isControl = true
  spelled : ∀ data ∈ carried r s, ∃ m : ControlMessage, data = m.encode

section Steps
variable {s t : Server} {l : Label} {r : Nat}

theorem carriedOf {reader : Reader} (here : s.readers r = some reader) :
    carried r s = held reader.phase := by
  rw [carried,here]
  rfl

theorem deliverExact {data : Bytes} : s.step (.channel r (.onMessage data)) = some t ↔
    ∃ reader, s.readers r = some reader ∧ reader.phase = .polling ∧
      t = s.setReader r reader (.received data) := by
  simp only [step,stepChannel,Option.bind_eq_bind,Option.bind_eq_some_iff]
  constructor
  · intro stepped
    obtain ⟨reader,here,stepped⟩ := stepped
    split at stepped
    case h_1 message at' same =>
      cases same
      exact ⟨reader,here,at',(Option.some.inj stepped).symm⟩
    all_goals simp_all
  · intro given
    obtain ⟨reader,here,at',same⟩ := given
    refine ⟨reader,here,?_⟩
    simp only [at']
    exact congrArg some same.symm

theorem channelTurn {q : Nat} {ev : ChannelEvent} (quiet : arrives r (.channel q ev) = false)
    (stepped : s.stepChannel q ev = some t) : Turn r s (.channel q ev) t := by
  have elsewhere {reader : Reader} {p : ReaderPhase} (other : ¬ q = r) :
      Turn r s (.channel q ev) (s.setReader q reader p) :=
    .stays (update_of_ne (Ne.symm other) _ _) rfl
  cases channelStep stepped with
  | deliver reader data here at' =>
    have other : ¬ q = r := by simpa [arrives] using quiet
    exact elsewhere other
  | stop reader ev here at' =>
    by_cases own : q = r
    · subst own
      exact .stops reader here at' (update_self _ _ _) rfl
    · exact elsewhere own
  | ignore ev => exact .stays rfl rfl

theorem readerTurn {q : Nat} {emits : Emits} (stepped : s.stepReader q emits = some t) :
    Turn r s (.reader q emits) t := by
  by_cases own : q = r
  · subst own
    have silent {reader : Reader} {data : Bytes} (here : s.readers q = some reader)
        (at' : reader.phase = .received data) : heeded q s (.reader q emits) = none := by
      simp [heeded,here,heeds,at']
    cases readerStep stepped with
    | refuse reader data here at' other =>
      exact .refuses emits reader data rfl here at' other (update_self _ _ _) (silent here at')
    | enter reader data here at' active =>
      exact .enters reader data here at' (update_self _ _ _) (silent here at')
    | act reader data here at' =>
      exact .acts reader data here at' (update_self _ _ _) (by simp [heeded,here])
  · refine .stays ?_ (by simp [heeded,own])
    cases readerStep stepped with
    | refuse | enter => exact update_of_ne (Ne.symm own) _ _
    | act reader data here at' =>
      simp only [setReader,actReaders]
      exact update_of_ne (Ne.symm own) _ _

theorem stepTurn (quiet : arrives r l = false) (stepped : s.step l = some t) : Turn r s l t := by
  cases l with
  | offer c sdp => exact .stays (congrFun (offerKeeps stepped).readers r) rfl
  | call c reply => exact .stays (congrFun (callKeeps stepped).readers r) rfl
  | event | stop | merge | rtcp => exact .stays (congrFun (idleStill rfl stepped).readers r) rfl
  | task n emits =>
    rcases taskOpens stepped with ⟨same,_⟩|⟨isControl,set,_⟩
    · exact .stays (congrFun same r) rfl
    · by_cases own : s.nextReader = r
      · exact .opens n isControl own (by rw [set,own,update_self]) rfl
      · exact .stays (by rw [set,update_of_ne (Ne.symm own)]) rfl
  | channel q ev => exact channelTurn quiet stepped
  | reader q emits => exact readerTurn stepped

theorem heedsWritten (written : Written r s) {reader : Reader} {data : Bytes}
    (here : s.readers r = some reader) (at' : reader.phase = .admitted data) :
    (heeds reader).map ControlMessage.encode = some data := by
  have control := written.control reader here (by simp [at',held])
  obtain ⟨m,same⟩ := written.spelled data (by simp [carriedOf here,at',held])
  have decoded : (ControlMessage.decode data).run = some (.ok m) := same ▸ m.decodeEncode
  rw [heeds,at']
  simp only [control,if_true,decoded,Option.bind_some,Except.toOption,Option.map_some]
  rw [same]

theorem turnFlow (written : Written r s) (turn : Turn r s l t) :
    (((heeded r s l).map ControlMessage.encode).toList ++ carried r t).Sublist (carried r s) ∧
    (Serves r s l → ((heeded r s l).map ControlMessage.encode).toList ++ carried r t =
      carried r s) := by
  have exact' {a b : List Bytes} (same : a = b) (p : Prop) : a.Sublist b ∧ (p → a = b) :=
    ⟨same ▸ List.Sublist.refl _,fun _ => same⟩
  cases turn with
  | stays same silent =>
    refine exact' ?_ _
    rw [silent,carried,carried,same]
    rfl
  | opens n isControl fresh now silent =>
    refine exact' ?_ _
    have empty : carried r s = [] := by
      rw [carried,written.numbered r (Nat.le_of_eq fresh)]
      rfl
    simp [silent,carriedOf now,held,empty]
  | stops reader here at' now silent =>
    refine exact' ?_ _
    simp [silent,carriedOf now,carriedOf here,held,at']
  | refuses emits reader data same here at' other now silent =>
    refine ⟨by simp [silent,carriedOf now,held],fun serves => ?_⟩
    exact absurd (serves emits reader data same here at') other
  | enters reader data here at' now silent =>
    refine exact' ?_ _
    simp [silent,carriedOf now,carriedOf here,held,at']
  | acts reader data here at' now heeds =>
    refine exact' ?_ _
    rw [heeds,heedsWritten written here at',carriedOf now,carriedOf here,at']
    rfl

theorem turnWritten (written : Written r s) (turn : Turn r s l t) (stepped : s.step l = some t) :
    Written r t := by
  refine ⟨numberedStep written.numbered stepped,fun reader there filled => ?_,fun data inside => ?_⟩
  · have moved {old : Reader} {p : ReaderPhase} (here : s.readers r = some old)
        (now : t.readers r = some {old with phase := p}) (before : held p ≠ [] → held old.phase ≠ []) :
        reader.isControl = true := by
      cases now.symm.trans there
      exact written.control old here (before filled)
    cases turn with
    | stays same => exact written.control reader (same ▸ there) filled
    | opens n isControl fresh now =>
      cases now.symm.trans there
      exact absurd rfl filled
    | stops old here at' now => exact moved here now (fun some' => absurd rfl some')
    | refuses emits old data same here at' other now =>
      exact moved here now (fun some' => absurd rfl some')
    | enters old data here at' now => exact moved here now (by simp [at',held])
    | acts old data here at' now => exact moved here now (fun some' => absurd rfl some')
  · have flow := (turnFlow written turn).1
    exact written.spelled data (flow.subset (List.mem_append_right _ inside))

end Steps

end Server
end Vmdesk
