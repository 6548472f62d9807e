import Vmdesk.OpenH264

/-! What an `Ok` of `set_bitrate` says about the encoder. The record of the bitrate is only written
when both options are, and a call that finds its bitrate on record does not look at the options. -/
namespace Vmdesk.OpenH264Encoder
open OpenH264
open Pipeline (EncoderSettings)

def returnsOk (e : OpenH264Encoder) : Label → Option UInt32
  | .setBitrate kbps =>
      if e.phase = .idle ∧ atLeast kbps = e.bitrateKbps then some (atLeast kbps) else none
  | .setOption succeeds => match e.phase with
      | .setting kbps [_] => if succeeds then some kbps else none
      | .setting _ _ | .idle => none

def Holds (e : OpenH264Encoder) (kbps : UInt32) : Prop :=
  e.target = clip (bitrate kbps) ∧ e.max = clip (ceiling kbps)

def Effective (e : OpenH264Encoder) (l : Label) : Prop :=
  ∀ kbps f, e.returnsOk l = some kbps → e.step l = some f → f.Holds kbps

/- Beyond this every ceiling is the largest `i32` for the library. -/
def differs (old kbps : UInt32) : Bool := old.toNat ≤ 715827 || kbps.toNat ≤ 715827

/- An encoder beside its history: whether the last call whose first write was accepted has failed
at the second one, with a first write that made a difference. -/
structure Watched where
  encoder : OpenH264Encoder
  half : Bool
  deriving DecidableEq, Repr

def halfAfter (s : Watched) : Label → Bool
  | .setBitrate _ => s.half
  | .setOption succeeds => match s.encoder.phase with
      | .setting kbps [_] => !succeeds && differs s.encoder.bitrateKbps kbps
      | .setting _ _ | .idle => s.half

def watch (s : Watched) (l : Label) : Option Watched :=
  (s.encoder.step l).map (fun e => ⟨e,halfAfter s l⟩)

def watched (settings : EncoderSettings) : Watched := ⟨initialise settings,false⟩

/- No call asks for the bitrate on record while a call is left half done. -/
def Unspoilt (s : Watched) (l : Label) : Prop :=
  ∀ kbps, l = .setBitrate kbps → s.encoder.phase = .idle →
    atLeast kbps = s.encoder.bitrateKbps → s.half = false

def Left (e : OpenH264Encoder) (half : Bool) : Prop :=
  if half then
    if e.bitrateKbps.toNat ≤ 715827
    then e.target < clip (bitrate e.bitrateKbps) ∨ clip (ceiling e.bitrateKbps) < e.max
    else e.target = clip (bitrate e.bitrateKbps) ∧ e.max ≠ clip (ceiling e.bitrateKbps)
  else e.Holds e.bitrateKbps

inductive Tracked (s : Watched) : Prop where
  | idle (at' : s.encoder.phase = .idle) (left : Left s.encoder s.half)
  | called (kbps) (at' : s.encoder.phase = .setting kbps (s.encoder.writes kbps))
      (other : kbps ≠ s.encoder.bitrateKbps) (left : Left s.encoder s.half)
  | halfway (kbps w) (at' : s.encoder.phase = .setting kbps [w])
      (left : Left s.encoder (differs s.encoder.bitrateKbps kbps))
      (completes : (s.encoder.write w.1 w.2).Holds kbps)

section Steps
variable {e f : OpenH264Encoder} {s t : Watched} {l : Label} {half : Bool} {kbps : UInt32}

theorem leftHolds (left : Left e half) : e.Holds e.bitrateKbps ↔ half = false := by
  cases half with
  | false => exact iff_of_true left rfl
  | true =>
    refine iff_of_false (fun holds => ?_) (by simp)
    simp only [Left,if_true] at left
    split at left
    · have target := holds.1
      have max := holds.2
      omega
    · exact left.2 holds.2

theorem raisedLeft (left : Left e half)
    (raises : asI32 (ceiling e.bitrateKbps) < clip (ceiling kbps)) :
    Left (e.write .maxBitrate (clip (ceiling kbps))) (differs e.bitrateKbps kbps) := by
  have old := ceilingToNat e.bitrateKbps
  have new := ceilingToNat kbps
  have exact' := asI32Ceiling e.bitrateKbps
  split at exact'
  · next within =>
    simp only [Left,differs,write,within,decide_true,Bool.true_or,if_true]
    omega
  · next above =>
    have target : e.target = clip (bitrate e.bitrateKbps) := by
      cases half with
      | false => exact left.1
      | true =>
        simp only [Left,if_true,if_neg above] at left
        exact left.1
    by_cases small : kbps.toNat ≤ 715827
    · have apart : clip (ceiling kbps) ≠ clip (ceiling e.bitrateKbps) := by
        unfold clip
        omega
      simpa [Left,differs,write,small,above] using ⟨target,apart⟩
    · have same : clip (ceiling kbps) = clip (ceiling e.bitrateKbps) := by
        unfold clip
        omega
      simpa [Left,differs,write,small,above] using ⟨target,same⟩

theorem loweredLeft (other : kbps ≠ e.bitrateKbps)
    (wide : clip (ceiling kbps) ≤ asI32 (ceiling e.bitrateKbps)) :
    Left (e.write .bitrate (clip (bitrate kbps))) (differs e.bitrateKbps kbps) := by
  obtain ⟨within,least⟩ := loweredWithin wide
  have apart : kbps.toNat ≠ e.bitrateKbps.toNat := fun same => other (UInt32.toNat_inj.mp same)
  have old := ceilingToNat e.bitrateKbps
  have new := ceilingToNat kbps
  have before := bitrateToNat e.bitrateKbps
  have after := bitrateToNat kbps
  simp only [Left,differs,write,within,decide_true,Bool.true_or,if_true]
  unfold clip at least ⊢
  omega

theorem firstTracked {w next : EncoderOption × Int} {rest : List (EncoderOption × Int)}
    (tracked : Tracked s) (at' : s.encoder.phase = .setting kbps (w::next::rest)) (h : Bool) :
    Tracked ⟨{s.encoder.write w.1 w.2 with phase := .setting kbps (next::rest)},h⟩ := by
  cases tracked with
  | called kbps' here other left =>
    rcases writesCases s.encoder kbps' with ⟨raises,same⟩|⟨wide,same⟩
    · rw [same] at here
      cases at'.symm.trans here
      have left := raisedLeft left raises
      exact .halfway kbps _ rfl left ⟨rfl,rfl⟩
    · rw [same] at here
      cases at'.symm.trans here
      have left := loweredLeft other wide
      exact .halfway kbps _ rfl left ⟨rfl,rfl⟩
  | idle here | halfway kbps' w' here => cases at'.symm.trans here

theorem trackedStep (tracked : Tracked s) (stepped : watch s l = some t) : Tracked t := by
  obtain ⟨f,moved,same⟩ := Option.map_eq_some_iff.mp stepped
  subst same
  cases stepCases moved with
  | known kbps idle => exact tracked
  | call kbps idle other =>
    cases tracked with
    | idle _ left => exact .called _ rfl other left
    | called kbps' here | halfway kbps' w here => cases idle.symm.trans here
  | first kbps w next rest at' => exact firstTracked tracked at' _
  | last kbps w at' =>
    cases tracked with
    | halfway kbps' w' here left completes =>
      cases at'.symm.trans here
      refine .idle rfl ?_
      simp only [halfAfter,at',Bool.not_true,Bool.false_and]
      exact completes
    | idle here => cases at'.symm.trans here
    | called kbps' here => exact absurd at' (calledAhead here)
  | fail kbps w rest at' =>
    cases tracked with
    | halfway kbps' w' here left completes =>
      cases at'.symm.trans here
      refine .idle rfl ?_
      simp only [halfAfter,at',Bool.not_false,Bool.true_and]
      exact left
    | idle here => cases at'.symm.trans here
    | called kbps' here other left =>
      have still : halfAfter s (.setOption false) = s.half := by
        cases rest with
        | nil => exact absurd at' (calledAhead here)
        | cons => simp [halfAfter,at']
      refine .idle rfl ?_
      rw [still]
      exact left

theorem trackedHolds (tracked : Tracked s) (idle : s.encoder.phase = .idle) :
    s.encoder.Holds s.encoder.bitrateKbps ↔ s.half = false := by
  cases tracked with
  | idle _ left => exact leftHolds left
  | called kbps here | halfway kbps w here => cases idle.symm.trans here

theorem effectiveExact (tracked : Tracked s) : Effective s.encoder l ↔ Unspoilt s l := by
  constructor
  · intro effective kbps same idle recorded
    subst same
    refine (trackedHolds tracked idle).mp (effective _ s.encoder ?_ ?_)
    · simp [returnsOk,idle,recorded]
    · simp [step,stepBitrate,idle,recorded]
  · intro unspoilt kbps f ok stepped
    cases stepCases stepped with
    | known kbps' idle recorded =>
      simp only [returnsOk,idle,recorded,and_self,if_true,Option.some.injEq] at ok
      rw [← ok]
      exact (trackedHolds tracked idle).mpr (unspoilt kbps' rfl idle recorded)
    | call kbps' idle other => simp [returnsOk,other] at ok
    | first kbps' w next rest at' => simp [returnsOk,at'] at ok
    | last kbps' w at' =>
      simp only [returnsOk,at',if_true,Option.some.injEq] at ok
      subst ok
      cases tracked with
      | halfway kbps w here left completes =>
        cases at'.symm.trans here
        exact completes
      | idle here => cases at'.symm.trans here
      | called kbps here => exact absurd at' (calledAhead here)
    | fail kbps' w rest at' =>
      cases rest <;> simp [returnsOk,at'] at ok

/- An `Ok` is true in every run exactly when nobody asks for the bitrate on record while the last
call that has changed an option is half done. -/
theorem effectiveExactly (settings : EncoderSettings) (ls : List Label) :
    Runs.Allowed step Effective (initialise settings) ls ↔
      Runs.Allowed watch Unspoilt (watched settings) ls := by
  have projected : Runs.Allowed watch (fun s l => Effective s.encoder l) (watched settings) ls ↔
      Runs.Allowed step Effective (initialise settings) ls := by
    refine Runs.allowedProject Watched.encoder (fun s l => ?_)
    simp [watch,Option.map_map,Function.comp_def]
  have start : Tracked (watched settings) := .idle rfl ⟨rfl,rfl⟩
  rw [← projected]
  constructor
  · exact Runs.allowedImplies Tracked start (fun _ _ _ tracked _ stepped => trackedStep tracked stepped)
      (fun _ _ tracked effective => (effectiveExact tracked).mp effective)
  · exact Runs.allowedImplies Tracked start (fun _ _ _ tracked _ stepped => trackedStep tracked stepped)
      (fun _ _ tracked unspoilt => (effectiveExact tracked).mpr unspoilt)

end Steps

def retried : List Label := [.setBitrate 40000,.setOption true,.setOption false,.setBitrate 30000,
  .setOption true,.setOption true,.setBitrate 30000]

def unspoiltCheck (s : Watched) : Label → Bool
  | .setBitrate kbps => s.encoder.phase = .idle → atLeast kbps = s.encoder.bitrateKbps → s.half = false
  | .setOption _ => true

theorem retriedEffective : Runs.Allowed step Effective (initialise (desktop 12000)) retried ∧
    (Runs.run step (initialise (desktop 12000)) retried).map (fun e => (e.target,e.max)) =
      some (30000000,90000000) := by
  refine ⟨(effectiveExactly _ _).mpr ?_,by decide⟩
  refine Runs.checkAllowed (fun _ => True) unspoiltCheck trivial (fun _ _ _ _ _ _ => trivial)
    (fun s l _ checked kbps same => ?_) (by decide)
  subst same
  exact of_decide_eq_true checked

/- The first bitrate is asked for again after a call that has only raised the ceiling. -/
theorem staleOk : ¬∀ settings ls, Runs.Allowed step Effective (initialise settings) ls := by
  intro all
  have runs := all (desktop 12000)
    [.setBitrate 40000,.setOption true,.setOption false,.setBitrate 12000]
  have held := (((runs.2 _ rfl).2 _ rfl).2 _ rfl).1 12000 _ rfl rfl
  exact absurd held.2 (by decide)

end Vmdesk.OpenH264Encoder
