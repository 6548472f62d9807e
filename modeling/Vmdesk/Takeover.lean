import Mathlib.Logic.Function.Basic

/-! Taking over a place that holds one tenant at a time. A claim evicts whom it finds in the
slot, prepares a tenant of its own and installs it in two writes: the slot, then the word that
says who is active. A tenant checks that word before it wires itself to the output and again
before it dismantles what it wired, but check and writes are separate moves. -/
namespace Vmdesk.Takeover
open Function

inductive Part where | flag | sink | held | rest
  deriving DecidableEq, Repr

inductive Claim where
  | outside
  | inside
  | evicting (old : Nat) (part : Part)
  | holding (n : Nat)
  | installed (n : Nat)
  | activated (n : Nat)
  deriving DecidableEq, Repr

/- `wired` says that the tenant has been wired once before. -/
inductive Tenant where
  | absent
  | living (wired : Bool)
  | wiring (wired : Bool)
  | flagging (wired : Bool)
  | leaving
  | lowering
  | clearing
  | draining
  | vacating
  | closing
  | ended
  deriving DecidableEq, Repr

structure State where
  slot : Option Nat
  active : Nat
  flag : Bool
  sink : Option Nat
  released : Nat → Bool
  closed : Nat → Bool
  claims : Nat → Claim
  tenants : Nat → Tenant
  next : Nat

def Claim.tenant : Claim → Option Nat
  | .holding n | .installed n | .activated n => some n
  | .outside | .inside | .evicting _ _ => none

def Claim.evicts (p : Claim) (n : Nat) : Prop := ∃ part, p = .evicting n part

def Claim.holds (p : Claim) (n : Nat) : Prop :=
  p = .evicting n .flag ∨ p = .evicting n .sink ∨ p = .evicting n .held

def Claim.places (p : Claim) (n : Nat) : Prop := p = .installed n ∨ p = .activated n

def Tenant.inside : Tenant → Bool
  | .living _ | .wiring _ | .flagging _ => true
  | _ => false

def Tenant.guarded : Tenant → Bool
  | .wiring _ | .flagging _ | .lowering | .clearing => true
  | _ => false

def Tenant.wired : Tenant → Bool
  | .living w | .wiring w | .flagging w => w
  | _ => false

namespace State

def claim (v : State) (c : Nat) (p : Claim) : State := {v with claims := update v.claims c p}
def tenant (v : State) (n : Nat) (p : Tenant) : State := {v with tenants := update v.tenants n p}
def close (v : State) (n : Nat) : State := {v with closed := update v.closed n true}
def release (v : State) (n : Nat) : State := {v with released := update v.released n true}

section Fields
variable (v : State) (c d n m : Nat) (p : Claim) (q : Tenant)

@[simp] theorem claimSlot : (v.claim c p).slot = v.slot := rfl
@[simp] theorem claimReleased : (v.claim c p).released m = v.released m := rfl
@[simp] theorem claimActive : (v.claim c p).active = v.active := rfl
@[simp] theorem claimFlag : (v.claim c p).flag = v.flag := rfl
@[simp] theorem claimSink : (v.claim c p).sink = v.sink := rfl
@[simp] theorem claimClosed : (v.claim c p).closed m = v.closed m := rfl
@[simp] theorem claimTenants : (v.claim c p).tenants m = v.tenants m := rfl
@[simp] theorem claimNext : (v.claim c p).next = v.next := rfl
@[simp] theorem claimClaims : (v.claim c p).claims d = if d = c then p else v.claims d :=
  update_apply _ _ _ _

@[simp] theorem tenantSlot : (v.tenant n q).slot = v.slot := rfl
@[simp] theorem tenantReleased : (v.tenant n q).released m = v.released m := rfl
@[simp] theorem tenantActive : (v.tenant n q).active = v.active := rfl
@[simp] theorem tenantFlag : (v.tenant n q).flag = v.flag := rfl
@[simp] theorem tenantSink : (v.tenant n q).sink = v.sink := rfl
@[simp] theorem tenantClosed : (v.tenant n q).closed m = v.closed m := rfl
@[simp] theorem tenantClaims : (v.tenant n q).claims d = v.claims d := rfl
@[simp] theorem tenantNext : (v.tenant n q).next = v.next := rfl
@[simp] theorem tenantTenants :
    (v.tenant n q).tenants m = if m = n then q else v.tenants m := update_apply _ _ _ _

@[simp] theorem closeSlot : (v.close n).slot = v.slot := rfl
@[simp] theorem closeReleased : (v.close n).released m = v.released m := rfl
@[simp] theorem closeActive : (v.close n).active = v.active := rfl
@[simp] theorem closeFlag : (v.close n).flag = v.flag := rfl
@[simp] theorem closeSink : (v.close n).sink = v.sink := rfl
@[simp] theorem closeClaims : (v.close n).claims d = v.claims d := rfl
@[simp] theorem closeTenants : (v.close n).tenants m = v.tenants m := rfl
@[simp] theorem closeNext : (v.close n).next = v.next := rfl
@[simp] theorem closeClosed :
    (v.close n).closed m = if m = n then true else v.closed m := update_apply _ _ _ _

@[simp] theorem releaseSlot : (v.release n).slot = v.slot := rfl
@[simp] theorem releaseActive : (v.release n).active = v.active := rfl
@[simp] theorem releaseFlag : (v.release n).flag = v.flag := rfl
@[simp] theorem releaseSink : (v.release n).sink = v.sink := rfl
@[simp] theorem releaseClosed : (v.release n).closed m = v.closed m := rfl
@[simp] theorem releaseClaims : (v.release n).claims d = v.claims d := rfl
@[simp] theorem releaseTenants : (v.release n).tenants m = v.tenants m := rfl
@[simp] theorem releaseNext : (v.release n).next = v.next := rfl
@[simp] theorem releaseReleased :
    (v.release n).released m = if m = n then true else v.released m := update_apply _ _ _ _

end Fields

def Begun (v : State) (n : Nat) : Prop := v.closed n = true ∨ ∃ c, (v.claims c).evicts n

def Present (v : State) (n : Nat) : Prop :=
  v.tenants n ≠ .absent ∨ ∃ c, (v.claims c).places n

end State

/- The two moves that may go wrong, and all others. -/
inductive Act where
  | install (c : Nat)
  | activate (c : Nat)
  | other
  deriving DecidableEq

inductive Move : State → Act → State → Prop where
  | stay (v) : Move v .other v
  | enter (v c) (at' : v.claims c = .outside) : Move v .other (v.claim c .inside)
  | evict (v c old) (at' : v.claims c = .inside) (found : v.slot = some old) :
      Move v .other ({v with slot := none}.claim c (.evicting old .flag))
  | evictFlag (v c old) (at' : v.claims c = .evicting old .flag) :
      Move v .other ({v with flag := false}.claim c (.evicting old .sink))
  | evictSink (v c old) (at' : v.claims c = .evicting old .sink) :
      Move v .other ({v with sink := none}.claim c (.evicting old .held))
  | evictHeld (v c old) (at' : v.claims c = .evicting old .held) :
      Move v .other ((v.release old).claim c (.evicting old .rest))
  | evictClose (v c old) (at' : v.claims c = .evicting old .rest) :
      Move v .other ((v.close old).claim c .inside)
  | hold (v c) (at' : v.claims c = .inside) :
      Move v .other ({v with next := v.next + 1}.claim c (.holding v.next))
  | abandon (v c n) (at' : v.claims c = .holding n) : Move v .other (v.claim c .outside)
  | discard (v c n) (at' : v.claims c = .holding n) :
      Move v .other ((v.close n).claim c .outside)
  | install (v c n) (at' : v.claims c = .holding n) :
      Move v (.install c) ({v with slot := some n}.claim c (.installed n))
  | activate (v c n) (at' : v.claims c = .installed n) :
      Move v (.activate c) ({v with active := n}.claim c (.activated n))
  | arrive (v c n) (at' : v.claims c = .activated n) :
      Move v .other ((v.tenant n (.living false)).claim c .outside)
  | wire (v n w) (at' : v.tenants n = .living w) (active : v.active = n) :
      Move v .other (v.tenant n (.wiring w))
  | wireSink (v n w) (at' : v.tenants n = .wiring w) :
      Move v .other ({v with sink := some n}.tenant n (.flagging w))
  | wireFlag (v n w) (at' : v.tenants n = .flagging w) :
      Move v .other ({v with flag := true}.tenant n (.living true))
  | leave (v n w) (at' : v.tenants n = .living w) : Move v .other (v.tenant n .leaving)
  | dismantle (v n) (at' : v.tenants n = .leaving) (active : v.active = n) :
      Move v .other (v.tenant n .lowering)
  | lower (v n) (at' : v.tenants n = .lowering) :
      Move v .other ({v with flag := false}.tenant n .clearing)
  | clear (v n) (at' : v.tenants n = .clearing) :
      Move v .other ({v with sink := none}.tenant n .draining)
  | drain (v n) (at' : v.tenants n = .draining) :
      Move v .other ((v.release n).tenant n .vacating)
  | vacate (v n) (at' : v.tenants n = .vacating) :
      Move v .other ({v with slot := if v.slot = some n then none else v.slot}.tenant n .closing)
  | skip (v n) (at' : v.tenants n = .leaving) : Move v .other (v.tenant n .closing)
  | close (v n) (at' : v.tenants n = .closing) : Move v .other ((v.close n).tenant n .ended)

/- Claims do not get in each other's way: the slot is written only while it is empty, and
only while no other claim stands between its own two writes. -/
def Orderly (v : State) : Act → Prop
  | .install _ => v.slot = none ∧ ∀ c n, v.claims c ≠ .installed n
  | _ => True

/- The active word is written only while nobody else is between a check and its writes. -/
def Unguarded (v : State) : Act → Prop
  | .activate _ => (∀ n, (v.tenants n).guarded = false) ∧
      ∀ c old, v.claims c ≠ .evicting old .flag ∧ v.claims c ≠ .evicting old .sink
  | _ => True

structure Ids (v : State) : Prop where
  positive : 0 < v.next
  fresh : ∀ c n, (v.claims c).tenant = some n → 0 < n ∧ n < v.next ∧ v.tenants n = .absent
  apart : ∀ c d n, (v.claims c).tenant = some n → (v.claims d).tenant = some n → c = d
  known : ∀ n, v.tenants n ≠ .absent → n < v.next
  activeKnown : v.active < v.next
  idle : ∀ c, (v.claims c).tenant = some v.active → v.claims c = .activated v.active

/- At most one claim stands between its two writes, and the slot then holds its tenant or
nobody. Otherwise the tenant in the slot is the active one. -/
structure Turns (v : State) : Prop where
  single : ∀ c d m n, v.claims c = .installed m → v.claims d = .installed n → c = d
  pending : ∀ c n, v.claims c = .installed n → v.slot = none ∨ v.slot = some n
  slotActive : ∀ n, v.slot = some n → v.active = n ∨ ∃ c, v.claims c = .installed n

/- Whoever has been installed is in the slot, or a claim has begun to evict it, or it is past
giving up the slot itself. -/
def Settled (v : State) : Prop := ∀ n, v.Present n →
  v.slot = some n ∨ v.Begun n ∨ v.tenants n = .closing ∨ v.tenants n = .ended

structure Exclusive (v : State) : Prop where
  ids : Ids v
  turns : Turns v
  settled : Settled v

section Steps
variable {v w : State} {a : Act}

theorem claimKeeps (P : Claim → Prop) {c : Nat} {p : Claim} (held : ∃ d, P (v.claims d))
    (keep : P (v.claims c) → P p) : ∃ d, P ((v.claim c p).claims d) := by
  obtain ⟨d,given⟩ := held
  refine ⟨d,?_⟩
  rw [State.claimClaims]
  split
  · next same => exact keep (same ▸ given)
  · exact given

theorem claimFrom (P : Claim → Prop) {c : Nat} {p : Claim}
    (held : ∃ d, P ((v.claim c p).claims d)) : P p ∨ ∃ d, P (v.claims d) := by
  obtain ⟨d,given⟩ := held
  rw [State.claimClaims] at given
  split at given
  · exact Or.inl given
  · exact Or.inr ⟨d,given⟩

theorem begunClaim {c n : Nat} {p : Claim} (begun : v.Begun n)
    (keep : (v.claims c).evicts n → p.evicts n) : (v.claim c p).Begun n := by
  rcases begun with closed|evicted
  · exact Or.inl closed
  · exact Or.inr (claimKeeps (fun p => p.evicts n) evicted keep)

theorem begunClose {m n : Nat} (begun : v.Begun n) : (v.close m).Begun n := by
  rcases begun with closed|evicted
  · refine Or.inl ?_
    rw [State.closeClosed]
    split
    · rfl
    · exact closed
  · exact Or.inr evicted

theorem settledClose (settled : Settled v) (n : Nat) : Settled (v.close n) := by
  intro m present
  rcases settled m present with slot|begun|gone
  · exact Or.inl slot
  · exact Or.inr (Or.inl (begunClose begun))
  · exact Or.inr (Or.inr gone)

theorem presentClaim {c n : Nat} {p : Claim} (places : p.places n → (v.claims c).places n)
    (present : (v.claim c p).Present n) : v.Present n := by
  rcases present with here|placed
  · exact Or.inl here
  · rcases claimFrom (fun p => p.places n) placed with own|other
    · exact Or.inr ⟨c,places own⟩
    · exact Or.inr other

theorem settledClaim (settled : Settled v) {c : Nat} {p : Claim}
    (places : ∀ n, p.places n → (v.claims c).places n)
    (evicts : ∀ n, (v.claims c).evicts n → p.evicts n) : Settled (v.claim c p) := by
  intro n present
  rcases settled n (presentClaim (places n) present) with slot|begun|gone
  · exact Or.inl slot
  · exact Or.inr (Or.inl (begunClaim begun (evicts n)))
  · exact Or.inr (Or.inr gone)

theorem settledTenant (settled : Settled v) {n : Nat} {q : Tenant} (here : v.tenants n ≠ .absent)
    (ends : v.tenants n = .closing ∨ v.tenants n = .ended → q = .closing ∨ q = .ended) :
    Settled (v.tenant n q) := by
  intro m present
  by_cases same : m = n
  · subst same
    rcases settled m (Or.inl here) with slot|begun|gone
    · exact Or.inl slot
    · exact Or.inr (Or.inl begun)
    · refine Or.inr (Or.inr ?_)
      simpa using ends gone
  · have before : v.Present m := by
      unfold State.Present at present ⊢
      simpa [same] using present
    rcases settled m before with slot|begun|gone
    · exact Or.inl slot
    · exact Or.inr (Or.inl begun)
    · exact Or.inr (Or.inr (by simpa [same] using gone))

theorem idsFrame (ids : Ids v) {slot sink : Option Nat} {flag : Bool} {released closed : Nat → Bool} :
    Ids {v with slot := slot, flag := flag, sink := sink, released := released, closed := closed} :=
  ⟨ids.positive,ids.fresh,ids.apart,ids.known,ids.activeKnown,ids.idle⟩

theorem idsClaim (ids : Ids v) {c : Nat} {p : Claim}
    (own : ∀ n, p.tenant = some n → (v.claims c).tenant = some n)
    (idle : p.tenant = some v.active → p = .activated v.active) : Ids (v.claim c p) := by
  have before {d n : Nat} (given : ((v.claim c p).claims d).tenant = some n) :
      (v.claims d).tenant = some n := by
    rw [State.claimClaims] at given
    split at given
    · next same => exact same ▸ own n given
    · exact given
  refine ⟨ids.positive,fun d n given => ids.fresh d n (before given),
    fun d e n left right => ids.apart d e n (before left) (before right),ids.known,ids.activeKnown,?_⟩
  intro d given
  by_cases same : d = c
  · simp only [State.claimClaims,if_pos same] at given ⊢
    exact idle given
  · simp only [State.claimClaims,if_neg same] at given ⊢
    exact ids.idle d given

theorem idsWithout (ids : Ids v) {c : Nat} {p : Claim} (without : p.tenant = none) :
    Ids (v.claim c p) := by
  have absurdity {n : Nat} (given : p.tenant = some n) : False := by simp [without] at given
  exact idsClaim ids (fun _ given => (absurdity given).elim) (fun given => (absurdity given).elim)

theorem idsTenant (ids : Ids v) {n : Nat} {q : Tenant} (here : v.tenants n ≠ .absent) :
    Ids (v.tenant n q) := by
  refine ⟨ids.positive,fun c m given => ?_,ids.apart,fun m present => ?_,ids.activeKnown,ids.idle⟩
  · obtain ⟨positive,below,absent⟩ := ids.fresh c m given
    have other : m ≠ n := fun same => here (same ▸ absent)
    exact ⟨positive,below,by simp [other,absent]⟩
  · by_cases same : m = n
    · exact same ▸ ids.known n here
    · exact ids.known m (by simpa [same] using present)

theorem idsHold (ids : Ids v) (c : Nat) :
    Ids ({v with next := v.next + 1}.claim c (.holding v.next)) := by
  have given {d n : Nat} (tenant : (({v with next := v.next + 1}.claim c (.holding v.next)).claims
      d).tenant = some n) : d = c ∧ n = v.next ∨ d ≠ c ∧ (v.claims d).tenant = some n := by
    by_cases same : d = c
    · exact .inl ⟨same,by simpa [same,Claim.tenant,eq_comm] using tenant⟩
    · exact .inr ⟨same,by simpa [same] using tenant⟩
  have unborn : v.tenants v.next = .absent := by
    by_contra present
    exact Nat.lt_irrefl _ (ids.known _ present)
  refine ⟨Nat.succ_pos _,fun d n tenant => ?_,fun d e n left right => ?_,
    fun n present => Nat.lt_succ_of_lt (ids.known n present),Nat.lt_succ_of_lt ids.activeKnown,
    fun d tenant => ?_⟩
  · obtain ⟨_,same⟩ | ⟨_,old⟩ := given tenant
    · exact ⟨same ▸ ids.positive,same ▸ Nat.lt_succ_self _,same ▸ unborn⟩
    · obtain ⟨positive,below,absent⟩ := ids.fresh d n old
      exact ⟨positive,Nat.lt_succ_of_lt below,absent⟩
  · have old {d : Nat} (before : (v.claims d).tenant = some v.next) : False :=
      Nat.lt_irrefl _ (ids.fresh d v.next before).2.1
    obtain ⟨here,same⟩ | ⟨_,before⟩ := given left
    · obtain ⟨there,_⟩ | ⟨_,before⟩ := given right
      · exact here.trans there.symm
      · exact (old (same ▸ before)).elim
    · obtain ⟨_,same⟩ | ⟨_,again⟩ := given right
      · exact (old (same ▸ before)).elim
      · exact ids.apart d e n before again
  · obtain ⟨_,same⟩ | ⟨other,old⟩ := given tenant
    · exact absurd (same ▸ ids.activeKnown) (Nat.lt_irrefl v.next)
    · simpa [other] using ids.idle d old

theorem idsActivate (ids : Ids v) {c n : Nat} (at' : v.claims c = .installed n) :
    Ids ({v with active := n}.claim c (.activated n)) := by
  have own : (v.claims c).tenant = some n := by simp [at',Claim.tenant]
  have before {d m : Nat} (given : (({v with active := n}.claim c (.activated n)).claims
      d).tenant = some m) : (v.claims d).tenant = some m := by
    by_cases same : d = c
    · have number : some n = some m := by simpa [same,Claim.tenant] using given
      exact same ▸ own.trans number
    · simpa [same] using given
  refine ⟨ids.positive,fun d m given => ids.fresh d m (before given),
    fun d e m left right => ids.apart d e m (before left) (before right),ids.known,
    (ids.fresh c n own).2.1,fun d given => ?_⟩
  have same : d = c := ids.apart d c n (before given) own
  simp [same]

theorem idsArrive (ids : Ids v) {c n : Nat} (at' : v.claims c = .activated n) :
    Ids ((v.tenant n (.living false)).claim c .outside) := by
  have own : (v.claims c).tenant = some n := by simp [at',Claim.tenant]
  have before {d m : Nat} (given : (((v.tenant n (.living false)).claim c .outside).claims
      d).tenant = some m) : d ≠ c ∧ (v.claims d).tenant = some m := by
    by_cases same : d = c
    · simp [same,Claim.tenant] at given
    · exact ⟨same,by simpa [same] using given⟩
  refine ⟨ids.positive,fun d m given => ?_,
    fun d e m left right => ids.apart d e m (before left).2 (before right).2,fun m present => ?_,
    ids.activeKnown,fun d given => ?_⟩
  · obtain ⟨other,old⟩ := before given
    obtain ⟨positive,below,absent⟩ := ids.fresh d m old
    have apart : m ≠ n := fun same => other (ids.apart d c n (same ▸ old) own)
    exact ⟨positive,below,by simp [apart,absent]⟩
  · by_cases same : m = n
    · exact same ▸ (ids.fresh c n own).2.1
    · exact ids.known m (by simpa [same] using present)
  · obtain ⟨other,old⟩ := before given
    simpa [other] using ids.idle d old

theorem idsMove (ids : Ids v) (move : Move v a w) : Ids w := by
  cases move with
  | stay => exact ids
  | enter | evict | evictFlag | evictSink | evictHeld | evictClose | abandon | discard =>
    exact idsWithout (idsFrame ids) rfl
  | hold c => exact idsHold ids c
  | install c n at' =>
    have own : (v.claims c).tenant = some n := by simp [at',Claim.tenant]
    refine idsClaim (idsFrame ids) (fun m given => own.trans given) (fun given => ?_)
    have active := ids.idle c (own.trans given)
    rw [at'] at active
    contradiction
  | activate c n at' => exact idsActivate ids at'
  | arrive c n at' => exact idsArrive ids at'
  | wire n w at' | wireSink n w at' | wireFlag n w at' | leave n w at' | dismantle n at' | lower n at'
  | clear n at' | drain n at' | vacate n at' | skip n at' | close n at' =>
    exact idsTenant (idsFrame ids) (by simp [at'])

theorem installedFrom (move : Move v a w) {c n : Nat} (given : w.claims c = .installed n) :
    v.claims c = .installed n ∨ a = .install c ∧ w.slot = some n := by
  have before {u : State} {d : Nat} {p : Claim} (other : p ≠ .installed n)
      (given : (u.claim d p).claims c = .installed n) : u.claims c = .installed n := by
    rw [State.claimClaims] at given
    split at given
    · exact absurd given other
    · exact given
  cases move with
  | stay => exact Or.inl given
  | enter | evict | evictFlag | evictSink | evictHeld | evictClose | hold | abandon | discard
  | activate | arrive =>
    exact Or.inl (before (by simp) given)
  | install d m at' =>
    rw [State.claimClaims] at given
    split at given
    · next same =>
      cases given
      exact Or.inr ⟨by rw [same],rfl⟩
    · exact Or.inl given
  | wire | wireSink | wireFlag | leave | dismantle | lower | clear | drain | vacate | skip | close =>
    exact Or.inl given

theorem slotFrom (move : Move v a w) : w.slot = none ∨ w.slot = v.slot ∨ ∃ c, a = .install c := by
  cases move with
  | evict => exact Or.inl rfl
  | install c => exact Or.inr (Or.inr ⟨c,rfl⟩)
  | vacate n at' =>
    simp only [State.tenantSlot]
    split
    · exact Or.inl rfl
    · exact Or.inr (Or.inl rfl)
  | stay | enter | evictFlag | evictSink | evictHeld | evictClose | hold | abandon | discard
  | activate | arrive | wire | wireSink | wireFlag | leave | dismantle | lower | clear | drain
  | skip | close =>
    exact Or.inr (Or.inl rfl)

theorem turnsMove (turns : Turns v) (orderly : Orderly v a) (move : Move v a w) :
    Turns w := by
  -- A claim that has just written the slot is the only one between its writes.
  have alone {c : Nat} (installs : a = .install c) : ∀ d n, v.claims d ≠ .installed n := by
    rw [installs] at orderly
    exact orderly.2
  have single : ∀ c d m n, w.claims c = .installed m → w.claims d = .installed n → c = d := by
    intro c d m n left right
    rcases installedFrom move left with before|⟨installs,_⟩
    · rcases installedFrom move right with again|⟨installs,_⟩
      · exact turns.single c d m n before again
      · exact absurd before (alone installs c m)
    · rcases installedFrom move right with again|⟨same,_⟩
      · exact absurd again (alone installs d n)
      · exact Act.install.inj (installs.symm.trans same)
  have pending : ∀ c n, w.claims c = .installed n → w.slot = none ∨ w.slot = some n := by
    intro c n given
    rcases installedFrom move given with before|⟨_,written⟩
    · rcases slotFrom move with empty|same|⟨d,installs⟩
      · exact Or.inl empty
      · rw [same]
        exact turns.pending c n before
      · exact absurd before (alone installs c n)
    · exact Or.inr written
  refine ⟨single,pending,?_⟩
  -- A claim keeps its tenant placed until it is the active one.
  have claim {c : Nat} {p : Claim} (keep : ∀ n, v.claims c = .installed n → p = .installed n) :
      ∀ n, v.slot = some n → v.active = n ∨ ∃ d, (v.claim c p).claims d = .installed n :=
    fun n found => (turns.slotActive n found).imp_right
      (fun held => claimKeeps (fun q => q = .installed n) held (keep n))
  cases move with
  | stay => exact turns.slotActive
  | enter c at' => exact claim (by simp [at'])
  | evictFlag c old at' => exact claim (by simp [at'])
  | evictSink c old at' => exact claim (by simp [at'])
  | evictHeld c old at' => exact claim (by simp [at'])
  | evictClose c old at' => exact claim (by simp [at'])
  | hold c at' => exact claim (by simp [at'])
  | abandon c n at' => exact claim (by simp [at'])
  | discard c n at' => exact claim (by simp [at'])
  | arrive c n at' => exact claim (by simp [at'])
  | evict c old at' found => simp
  | install c n at' =>
    intro m found
    refine Or.inr ⟨c,?_⟩
    simpa using found
  | activate c n at' =>
    intro m found
    rcases turns.pending c n at' with empty|own
    · simp [empty] at found
    · left
      simpa [own] using found
  | vacate n at' =>
    intro m found
    have old : v.slot = some m := by
      simp only [State.tenantSlot] at found
      split at found
      · contradiction
      · exact found
    exact turns.slotActive m old
  | wire | wireSink | wireFlag | leave | dismantle | lower | clear | drain | skip | close =>
    exact turns.slotActive

theorem settledMove (ids : Ids v) (settled : Settled v) (orderly : Orderly v a)
    (move : Move v a w) : Settled w := by
  have claim {c : Nat} {p : Claim} (places : ∀ n, p.places n → (v.claims c).places n)
      (evicts : ∀ n, (v.claims c).evicts n → p.evicts n) := settledClaim settled places evicts
  have tenant {n : Nat} {q : Tenant} (here : v.tenants n ≠ .absent)
      (ends : v.tenants n = .closing ∨ v.tenants n = .ended → q = .closing ∨ q = .ended) :=
    settledTenant settled here ends
  cases move with
  | stay => exact settled
  | enter c at' => exact claim (by simp [Claim.places]) (by simp [at',Claim.evicts])
  | evictFlag c old at' => exact claim (by simp [Claim.places]) (by simp [at',Claim.evicts])
  | evictSink c old at' => exact claim (by simp [Claim.places]) (by simp [at',Claim.evicts])
  | evictHeld c old at' => exact claim (by simp [Claim.places]) (by simp [at',Claim.evicts])
  | hold c at' => exact claim (by simp [Claim.places]) (by simp [at',Claim.evicts])
  | abandon c n at' => exact claim (by simp [Claim.places]) (by simp [at',Claim.evicts])
  | activate c n at' => exact claim (by simp [at',Claim.places]) (by simp [at',Claim.evicts])
  | wire n x at' active => exact tenant (by simp [at']) (by simp [at'])
  | wireSink n x at' => exact tenant (by simp [at']) (by simp [at'])
  | wireFlag n x at' => exact tenant (by simp [at']) (by simp [at'])
  | leave n x at' => exact tenant (by simp [at']) (by simp [at'])
  | dismantle n at' active => exact tenant (by simp [at']) (by simp [at'])
  | lower n at' => exact tenant (by simp [at']) (by simp [at'])
  | clear n at' => exact tenant (by simp [at']) (by simp [at'])
  | drain n at' => exact tenant (by simp [at']) (by simp [at'])
  | skip n at' => exact tenant (by simp [at']) (by simp)
  | evict c old at' found =>
    intro n present
    have keep : (v.claims c).evicts n → (Claim.evicting old .flag).evicts n := by
      simp [at',Claim.evicts]
    rcases settled n (presentClaim (by simp [Claim.places]) present) with slot|begun|gone
    · have same : old = n := Option.some.inj (found.symm.trans slot)
      exact Or.inr (Or.inl (Or.inr ⟨c,.flag,by simp [same]⟩))
    · exact Or.inr (Or.inl (begunClaim begun keep))
    · exact Or.inr (Or.inr gone)
  | evictClose c old at' =>
    intro n present
    have before : v.Present n := presentClaim (v := v.close old) (by simp [Claim.places]) present
    by_cases same : n = old
    · exact Or.inr (Or.inl (Or.inl (by simp [same])))
    · have keep : (v.claims c).evicts n → Claim.inside.evicts n := by
        simp [at',Claim.evicts,Ne.symm same]
      rcases settled n before with slot|begun|gone
      · exact Or.inl slot
      · exact Or.inr (Or.inl (begunClaim (begunClose begun) keep))
      · exact Or.inr (Or.inr gone)
  | discard c n at' =>
    exact settledClaim (settledClose settled n) (by simp [Claim.places])
      (by simp [at',Claim.evicts])
  | install c n at' =>
    intro m present
    by_cases same : m = n
    · exact Or.inl (by simp [same])
    · have before : v.Present m :=
        presentClaim (by simp [Claim.places,Ne.symm same]) present
      rcases settled m before with slot|begun|gone
      · rw [orderly.1] at slot
        contradiction
      · exact Or.inr (Or.inl (begunClaim begun (by simp [at',Claim.evicts])))
      · exact Or.inr (Or.inr gone)
  | arrive c n at' =>
    intro m present
    have absent := (ids.fresh c n (by simp [at',Claim.tenant])).2.2
    have before : v.Present m := by
      have placed : v.Present n := Or.inr ⟨c,Or.inr at'⟩
      by_cases same : m = n
      · exact same ▸ placed
      · have still := presentClaim (v := v.tenant n (.living false))
          (by simp [Claim.places]) present
        unfold State.Present at still ⊢
        simpa [same] using still
    rcases settled m before with slot|begun|gone
    · exact Or.inl slot
    · exact Or.inr (Or.inl (begunClaim begun (by simp [at',Claim.evicts])))
    · have other : m ≠ n := by
        intro same
        rw [same,absent] at gone
        simp at gone
      exact Or.inr (Or.inr (by simpa [other] using gone))
  | vacate n at' =>
    intro m present
    by_cases same : m = n
    · exact Or.inr (Or.inr (by simp [same]))
    · have before : v.Present m := by
        unfold State.Present at present ⊢
        simpa [same] using present
      rcases settled m before with slot|begun|gone
      · exact Or.inl (by simp [slot,same])
      · exact Or.inr (Or.inl begun)
      · exact Or.inr (Or.inr (by simpa [same] using gone))
  | close n at' =>
    exact settledTenant (settledClose settled n) (by simp [at']) (by simp)

theorem exclusiveMove (inv : Exclusive v) (orderly : Orderly v a) (move : Move v a w) :
    Exclusive w :=
  ⟨idsMove inv.ids move,turnsMove inv.turns orderly move,
    settledMove inv.ids inv.settled orderly move⟩

theorem insidePresent {n : Nat} (inside : (v.tenants n).inside = true) :
    v.tenants n ≠ .absent := by
  intro absent
  simp [absent,Tenant.inside] at inside

theorem soleTenant (inv : Exclusive v) (quiet : ∀ c, v.claims c = .outside) {n : Nat}
    (inside : (v.tenants n).inside = true) (open' : v.closed n = false) :
    v.slot = some n ∧ v.active = n := by
  have slot : v.slot = some n := by
    rcases inv.settled n (Or.inl (insidePresent inside)) with slot|⟨closed|⟨c,part,evicts⟩⟩|gone|gone
    · exact slot
    · simp [open'] at closed
    · simp [quiet c] at evicts
    · simp [gone,Tenant.inside] at inside
    · simp [gone,Tenant.inside] at inside
  refine ⟨slot,?_⟩
  rcases inv.turns.slotActive n slot with active|⟨c,installed⟩
  · exact active
  · simp [quiet c] at installed

def State.Live (v : State) (n : Nat) : Prop := (v.tenants n).inside = true ∧ ¬ v.Begun n

def Output (v : State) : Prop := v.Live v.active →
  ((∃ x, v.tenants v.active = .flagging x) → v.sink = some v.active) ∧
  ((v.tenants v.active).wired = true → v.sink = some v.active ∧ v.flag = true)

/- Whoever stands between a check and its writes has checked the present active word, and a
claim that still has to undo the wiring of another undoes that of the active tenant, unless
that other one has not even become active. -/
structure Wired (v : State) : Prop where
  checked : ∀ n, (v.tenants n).guarded = true → v.active = n
  evicting : ∀ c old, v.claims c = .evicting old .flag ∨ v.claims c = .evicting old .sink →
    v.active = old ∨ ∃ d, v.claims d = .installed old
  output : Output v

theorem evictedDead (inv : Exclusive v) (wired : Wired v) {c old : Nat}
    (undoes : v.claims c = .evicting old .flag ∨ v.claims c = .evicting old .sink) :
    ¬ v.Live v.active := by
  intro live
  have begun : v.Begun old := Or.inr ⟨c,undoes.elim (fun h => ⟨_,h⟩) (fun h => ⟨_,h⟩)⟩
  rcases wired.evicting c old undoes with same|⟨d,installed⟩
  · exact live.2 (same ▸ begun)
  · have absent := (inv.ids.fresh d old (by simp [installed,Claim.tenant])).2.2
    rcases inv.settled v.active (Or.inl (insidePresent live.1)) with slot|begun|gone|gone
    · rcases inv.turns.pending d old installed with empty|own
      · simp [empty] at slot
      · have same : old = v.active := Option.some.inj (own.symm.trans slot)
        exact insidePresent live.1 (same ▸ absent)
    · exact live.2 begun
    · simp [State.Live,gone,Tenant.inside] at live
    · simp [State.Live,gone,Tenant.inside] at live

theorem liveClaim {c n : Nat} {p : Claim} (live : (v.claim c p).Live n)
    (keep : (v.claims c).evicts n → p.evicts n) : v.Live n :=
  ⟨live.1,fun begun => live.2 (begunClaim begun keep)⟩

theorem outputClaim (output : Output v) {c : Nat} {p : Claim}
    (keep : (v.claims c).evicts v.active → p.evicts v.active) : Output (v.claim c p) :=
  fun live => output (liveClaim live keep)

theorem outputClose (output : Output v) (n : Nat) : Output (v.close n) :=
  fun live => output ⟨live.1,fun begun => live.2 (begunClose begun)⟩

theorem outputTenant (output : Output v) {n : Nat} {q : Tenant}
    (out : n = v.active → q.inside = false) : Output (v.tenant n q) := by
  intro live
  by_cases same : n = v.active
  · have inside : ((v.tenant n q).tenants v.active).inside = true := live.1
    simp [same,out same] at inside
  · have other : (v.tenant n q).tenants v.active = v.tenants v.active := by
      simp [Ne.symm same]
    have before : v.Live v.active := ⟨other ▸ live.1,live.2⟩
    rw [State.tenantActive,other]
    exact output before

theorem checkedMove (checked : ∀ n, (v.tenants n).guarded = true → v.active = n)
    (unguarded : Unguarded v a) (move : Move v a w) :
    ∀ n, (w.tenants n).guarded = true → w.active = n := by
  have tenant {u : State} {m : Nat} {q : Tenant} (same : u.active = v.active)
      (tenants : u.tenants = v.tenants) (own : q.guarded = true → v.active = m) :
      ∀ n, ((u.tenant m q).tenants n).guarded = true → (u.tenant m q).active = n := by
    intro n guarded
    rw [State.tenantTenants] at guarded
    rw [State.tenantActive,same]
    split at guarded
    · next here =>
      rw [here]
      exact own guarded
    · exact checked n (tenants ▸ guarded)
  cases move with
  | stay | enter | evict | evictFlag | evictSink | evictHeld | evictClose | hold | abandon | discard
  | install =>
    exact checked
  | activate c n at' =>
    intro m guarded
    exact absurd guarded (by simp [unguarded.1 m])
  | arrive | wireFlag | leave | clear | drain | vacate | skip | close =>
    exact tenant rfl rfl (fun absurd => by cases absurd)
  | wire n x at' active | dismantle n at' active => exact tenant rfl rfl (fun _ => active)
  | wireSink n x at' | lower n at' =>
    exact tenant rfl rfl (fun _ => checked n (by simp [at',Tenant.guarded]))

theorem evictingMove (inv : Exclusive v) (wired : Wired v) (unguarded : Unguarded v a)
    (move : Move v a w) : ∀ c old, w.claims c = .evicting old .flag ∨
      w.claims c = .evicting old .sink → w.active = old ∨ ∃ d, w.claims d = .installed old := by
  have claim {c : Nat} {p : Claim} (places : ∀ n, v.claims c = .installed n → p = .installed n)
      (evicts : ∀ old, p = .evicting old .flag ∨ p = .evicting old .sink →
        v.claims c = .evicting old .flag) (d old : Nat)
      (undoes : (v.claim c p).claims d = .evicting old .flag ∨
        (v.claim c p).claims d = .evicting old .sink) :
      v.active = old ∨ ∃ e, (v.claim c p).claims e = .installed old := by
    have before : v.claims d = .evicting old .flag ∨ v.claims d = .evicting old .sink := by
      rw [State.claimClaims] at undoes
      split at undoes
      · next same => exact Or.inl (same ▸ evicts old undoes)
      · exact undoes
    exact (wired.evicting d old before).imp_right
      (fun held => claimKeeps (fun q => q = .installed old) held (places old))
  cases move with
  | stay => exact wired.evicting
  | enter c at' => exact claim (by simp [at']) (by simp)
  | evictFlag c old at' => exact claim (by simp [at']) (by simp [at'])
  | evictSink c old at' => exact claim (by simp [at']) (by simp)
  | evictHeld c old at' => exact claim (by simp [at']) (by simp)
  | evictClose c old at' => exact claim (by simp [at']) (by simp)
  | hold c at' => exact claim (by simp [at']) (by simp)
  | abandon c n at' => exact claim (by simp [at']) (by simp)
  | discard c n at' => exact claim (by simp [at']) (by simp)
  | arrive c n at' => exact claim (by simp [at']) (by simp)
  | install c n at' => exact claim (by simp [at']) (by simp)
  | evict c old at' found =>
    intro d other undoes
    have keep : ∀ n, v.claims c = .installed n → Claim.evicting old .flag = .installed n := by
      simp [at']
    have placed {m : Nat} (held : v.active = m ∨ ∃ e, v.claims e = .installed m) :=
      held.imp_right (fun held => claimKeeps (fun q => q = .installed m) held (keep m))
    rw [State.claimClaims] at undoes
    split at undoes
    · have same : old = other := by simpa using undoes
      exact same ▸ placed (inv.turns.slotActive old found)
    · exact placed (wired.evicting d other undoes)
  | activate c n at' =>
    intro d old undoes
    have none := unguarded.2 d old
    rw [State.claimClaims] at undoes
    split at undoes
    · simp at undoes
    · exact absurd undoes (not_or.mpr none)
  | wire | wireSink | wireFlag | leave | dismantle | lower | clear | drain | vacate | skip
  | close => exact wired.evicting

theorem outputMove (inv : Exclusive v) (wired : Wired v) (move : Move v a w) : Output w := by
  have output := wired.output
  cases move with
  | stay => exact output
  | enter c at' => exact outputClaim output (by simp [at',Claim.evicts])
  | evict c old at' found =>
    exact outputClaim (v := {v with slot := none}) output (by simp [at',Claim.evicts])
  | evictFlag c old at' =>
    have dead := evictedDead inv wired (Or.inl at')
    intro live
    exact absurd (liveClaim (v := {v with flag := false}) live (by simp [at',Claim.evicts])) dead
  | evictSink c old at' =>
    have dead := evictedDead inv wired (Or.inr at')
    intro live
    exact absurd (liveClaim (v := {v with sink := none}) live (by simp [at',Claim.evicts])) dead
  | evictHeld c old at' =>
    exact outputClaim (v := v.release old) output (by simp [at',Claim.evicts])
  | evictClose c old at' =>
    intro live
    refine output ⟨live.1,fun begun => live.2 ?_⟩
    by_cases same : v.active = old
    · exact Or.inl (by simp [same])
    · exact begunClaim (begunClose begun) (by simp [at',Claim.evicts,Ne.symm same])
  | hold c at' =>
    exact outputClaim (v := {v with next := v.next + 1}) output (by simp [at',Claim.evicts])
  | abandon c n at' => exact outputClaim output (by simp [at',Claim.evicts])
  | discard c n at' => exact outputClaim (outputClose output n) (by simp [at',Claim.evicts])
  | install c n at' =>
    exact outputClaim (v := {v with slot := some n}) output (by simp [at',Claim.evicts])
  | activate c n at' =>
    intro live
    have absent := (inv.ids.fresh c n (by simp [at',Claim.tenant])).2.2
    exact absurd absent (insidePresent live.1)
  | arrive c n at' =>
    refine outputClaim (v := v.tenant n (.living false)) ?_ (by simp [at',Claim.evicts])
    by_cases same : n = v.active
    · intro live
      simp [same,Tenant.wired]
    · exact outputTenant output (fun own => absurd own same)
  | wire n x at' active =>
    intro live
    subst active
    have before : v.Live v.active := ⟨by simp [at',Tenant.inside],live.2⟩
    have kept := (output before).2
    simpa [at',Tenant.wired] using kept
  | wireSink n x at' =>
    intro live
    have active := wired.checked n (by simp [at',Tenant.guarded])
    subst active
    have before : v.Live v.active := ⟨by simp [at',Tenant.inside],live.2⟩
    have kept := (output before).2
    simp only [at',Tenant.wired] at kept
    refine ⟨fun _ => rfl,fun again => ⟨rfl,(kept ?_).2⟩⟩
    simpa [Tenant.wired] using again
  | wireFlag n x at' =>
    intro live
    have active := wired.checked n (by simp [at',Tenant.guarded])
    subst active
    have before : v.Live v.active := ⟨by simp [at',Tenant.inside],live.2⟩
    have sink := (output before).1 ⟨x,at'⟩
    exact ⟨fun _ => sink,fun _ => ⟨sink,rfl⟩⟩
  | leave n x at' => exact outputTenant output (by simp [Tenant.inside])
  | dismantle n at' active => exact outputTenant output (by simp [Tenant.inside])
  | lower n at' | clear n at' =>
    have active := wired.checked n (by simp [at',Tenant.guarded])
    intro live
    have inside := live.1
    simp [active,Tenant.inside] at inside
  | drain n at' => exact outputTenant (v := v.release n) output (by simp [Tenant.inside])
  | vacate n at' =>
    exact outputTenant (v := {v with slot := if v.slot = some n then none else v.slot}) output
      (by simp [Tenant.inside])
  | skip n at' => exact outputTenant output (by simp [Tenant.inside])
  | close n at' => exact outputTenant (outputClose output n) (by simp [Tenant.inside])

theorem wiredMove (inv : Exclusive v) (wired : Wired v) (unguarded : Unguarded v a)
    (move : Move v a w) : Wired w :=
  ⟨checkedMove wired.checked unguarded move,evictingMove inv wired unguarded move,
    outputMove inv wired move⟩

theorem tenantFrom (move : Move v a w) (n : Nat) : w.tenants n = v.tenants n ∨
    v.tenants n ≠ .absent ∧ w.tenants n ≠ .absent ∨
    (∃ c, v.claims c = .activated n) ∧ w.tenants n ≠ .absent := by
  have tenant {u : State} {m : Nat} {q : Tenant} (tenants : u.tenants = v.tenants)
      (here : v.tenants m ≠ .absent) (stays : q ≠ .absent) :
      (u.tenant m q).tenants n = v.tenants n ∨
        v.tenants n ≠ .absent ∧ (u.tenant m q).tenants n ≠ .absent := by
    by_cases same : n = m
    · exact Or.inr ⟨same ▸ here,by simpa [same] using stays⟩
    · exact Or.inl (by simp [same,tenants])
  cases move with
  | stay | enter | evict | evictFlag | evictSink | evictHeld | evictClose | hold | abandon | discard
  | install | activate =>
    exact Or.inl rfl
  | arrive c m at' =>
    by_cases same : n = m
    · exact Or.inr (Or.inr ⟨⟨c,same ▸ at'⟩,by simp [same]⟩)
    · exact Or.inl (by simp [same])
  | wire m x at' | wireSink m x at' | wireFlag m x at' | leave m x at' | dismantle m at'
  | lower m at' | clear m at' | drain m at' | vacate m at' | skip m at' | close m at' =>
    exact (tenant rfl (by simp [at']) (by simp)).imp_right Or.inl

theorem presentMove {n : Nat} (present : v.tenants n ≠ .absent) (move : Move v a w) :
    w.tenants n ≠ .absent := by
  rcases tenantFrom move n with same|⟨_,stays⟩|⟨_,arrived⟩
  · exact same ▸ present
  · exact stays
  · exact arrived

/- Who is active or is about to be has been released, or it is in the slot, or a claim is about
to release it. -/
structure Handed (v : State) : Prop where
  word : ∀ n, n = v.active ∨ (∃ c, v.claims c = .installed n) →
    v.released n = true ∨ v.slot = some n ∨ ∃ c, (v.claims c).holds n
  vacated : ∀ n, v.tenants n = .vacating → v.released n = true

theorem wordClaim (handed : Handed v) {c n : Nat} {p : Claim}
    (places : p = .installed n → v.claims c = .installed n)
    (holds : (v.claims c).holds n → p.holds n)
    (next : n = v.active ∨ ∃ d, (v.claim c p).claims d = .installed n) :
    v.released n = true ∨ v.slot = some n ∨ ∃ d, ((v.claim c p).claims d).holds n := by
  have before : n = v.active ∨ ∃ d, v.claims d = .installed n := by
    rcases next with active|installed
    · exact Or.inl active
    · rcases claimFrom (fun q => q = .installed n) installed with own|other
      · exact Or.inr ⟨c,places own⟩
      · exact Or.inr other
  rcases handed.word n before with released|slot|held
  · exact Or.inl released
  · exact Or.inr (Or.inl slot)
  · exact Or.inr (Or.inr (claimKeeps (fun q => q.holds n) held holds))

theorem handedMove (handed : Handed v) (orderly : Orderly v a) (move : Move v a w) :
    Handed w := by
  have vacated : ∀ n, w.tenants n = .vacating → w.released n = true := by
    intro n leaving
    have tenant {u : State} {m : Nat} {q : Tenant} (tenants : u.tenants = v.tenants)
        (other : q ≠ .vacating) (leaving : (u.tenant m q).tenants n = .vacating) :
        v.released n = true := by
      rw [State.tenantTenants,tenants] at leaving
      split at leaving
      · exact absurd leaving other
      · exact handed.vacated n leaving
    cases move with
    | stay | enter | evict | evictFlag | evictSink | evictClose | hold | abandon | discard | install
    | activate =>
      exact handed.vacated n leaving
    | evictHeld => simp [handed.vacated n leaving]
    | arrive | wire | wireSink | wireFlag | leave | dismantle | lower | clear | vacate | skip | close =>
      exact tenant rfl (by simp) leaving
    | drain m =>
      by_cases same : n = m
      · simp [same]
      · simp only [State.tenantTenants,if_neg same] at leaving
        simp [handed.vacated n leaving]
  refine ⟨fun n next => ?_,vacated⟩
  cases move with
  | stay => exact handed.word n next
  | enter c at' => exact wordClaim handed (by simp) (by simp [at',Claim.holds]) next
  | evictFlag c old at' => exact wordClaim handed (by simp) (by simp [at',Claim.holds]) next
  | evictSink c old at' => exact wordClaim handed (by simp) (by simp [at',Claim.holds]) next
  | evictClose c old at' => exact wordClaim handed (by simp) (by simp [at',Claim.holds]) next
  | hold c at' => exact wordClaim handed (by simp) (by simp [at',Claim.holds]) next
  | abandon c m at' => exact wordClaim handed (by simp) (by simp [at',Claim.holds]) next
  | discard c m at' => exact wordClaim handed (by simp) (by simp [at',Claim.holds]) next
  | arrive c m at' => exact wordClaim handed (by simp) (by simp [at',Claim.holds]) next
  | evict c old at' found =>
    by_cases same : n = old
    · exact Or.inr (Or.inr ⟨c,by simp [Claim.holds,same]⟩)
    · rcases wordClaim handed (c := c) (p := .evicting old .flag) (by simp)
        (by simp [at',Claim.holds]) next with released|slot|held
      · exact Or.inl released
      · rw [found] at slot
        exact absurd (Option.some.inj slot).symm same
      · exact Or.inr (Or.inr held)
  | evictHeld c old at' =>
    by_cases same : n = old
    · exact Or.inl (by simp [same])
    · rcases wordClaim handed (c := c) (p := .evicting old .rest) (by simp)
        (by simp [at',Claim.holds,Ne.symm same]) next with released|slot|held
      · exact Or.inl (by simp [same,released])
      · exact Or.inr (Or.inl slot)
      · exact Or.inr (Or.inr held)
  | install c m at' =>
    by_cases same : n = m
    · exact Or.inr (Or.inl (by simp [same]))
    · rcases wordClaim handed (c := c) (p := .installed m) (by simp [Ne.symm same])
        (by simp [at',Claim.holds]) next with released|slot|held
      · exact Or.inl released
      · rw [orderly.1] at slot
        contradiction
      · exact Or.inr (Or.inr held)
  | activate c m at' =>
    have before : n = v.active ∨ ∃ d, v.claims d = .installed n := by
      rcases next with active|installed
      · exact Or.inr ⟨c,by rw [active]; exact at'⟩
      · rcases claimFrom (v := {v with active := m}) (fun q => q = .installed n) installed with
          own|other
        · contradiction
        · exact Or.inr other
    rcases handed.word n before with released|slot|held
    · exact Or.inl released
    · exact Or.inr (Or.inl slot)
    · exact Or.inr (Or.inr (claimKeeps (v := {v with active := m}) (fun q => q.holds n) held
        (by simp [at',Claim.holds])))
  | vacate m at' =>
    rcases handed.word n next with released|slot|held
    · exact Or.inl released
    · by_cases same : n = m
      · exact Or.inl (same ▸ handed.vacated m at')
      · exact Or.inr (Or.inl (by simp [slot,same]))
    · exact Or.inr (Or.inr held)
  | drain m at' =>
    rcases handed.word n next with released|rest
    · exact Or.inl (by simp [released])
    · exact Or.inr rest
  | wire | wireSink | wireFlag | leave | dismantle | lower | clear | skip | close =>
    exact handed.word n next

/- When a claim makes its tenant the active one, and no other claim has still to release the
active tenant so far, that tenant has been released. -/
theorem activeReleased (inv : Exclusive v) (handed : Handed v) {c n : Nat}
    (installed : v.claims c = .installed n) (none : ∀ d, ¬ (v.claims d).holds v.active) :
    v.released v.active = true := by
  rcases handed.word v.active (Or.inl rfl) with released|slot|⟨d,holds⟩
  · exact released
  · rcases inv.turns.pending c n installed with empty|own
    · rw [empty] at slot
      contradiction
    · have same : n = v.active := Option.some.inj (own.symm.trans slot)
      have activated := inv.ids.idle c (by simp [installed,Claim.tenant,same])
      rw [installed] at activated
      contradiction
  · exact absurd holds (none d)

structure Sole (v : State) : Prop where
  tenants : ∀ n, v.tenants n ≠ .absent → n = v.active ∧ 0 < n
  claims : ∀ c n, v.claims c = .activated n → n = v.active ∧ 0 < n

theorem activatedFrom (move : Move v a w) {c n : Nat} (given : w.claims c = .activated n) :
    v.claims c = .activated n ∨ v.claims c = .installed n ∧ w.active = n := by
  have before {u : State} {d : Nat} {p : Claim} (other : p ≠ .activated n)
      (given : (u.claim d p).claims c = .activated n) : u.claims c = .activated n := by
    rw [State.claimClaims] at given
    split at given
    · exact absurd given other
    · exact given
  cases move with
  | stay => exact Or.inl given
  | enter | evict | evictFlag | evictSink | evictHeld | evictClose | hold | abandon | discard
  | install | arrive =>
    exact Or.inl (before (by simp) given)
  | activate d m at' =>
    rw [State.claimClaims] at given
    split at given
    · next same =>
      cases given
      exact Or.inr ⟨same ▸ at',rfl⟩
    · exact Or.inl given
  | wire | wireSink | wireFlag | leave | dismantle | lower | clear | drain | vacate | skip | close =>
    exact Or.inl given

theorem activeFrom (move : Move v a w) : w.active = v.active ∨ ∃ c, a = .activate c := by
  cases move with
  | activate c => exact Or.inr ⟨c,rfl⟩
  | _ => exact Or.inl rfl

theorem soleMove (ids : Ids v) (sole : Sole v) (once : ∀ c, a = .activate c → v.active = 0)
    (move : Move v a w) : Sole w := by
  have kept {n : Nat} (old : n = v.active ∧ 0 < n) : n = w.active ∧ 0 < n := by
    rcases activeFrom move with same|⟨c,activates⟩
    · exact same ▸ old
    · have first := once c activates
      omega
  constructor
  · intro n present
    rcases tenantFrom move n with same|⟨before,_⟩|⟨⟨c,activated⟩,_⟩
    · exact kept (sole.tenants n (same ▸ present))
    · exact kept (sole.tenants n before)
    · exact kept (sole.claims c n activated)
  · intro c n given
    rcases activatedFrom move given with before|⟨installed,active⟩
    · exact kept (sole.claims c n before)
    · have number := (ids.fresh c n (by simp [installed,Claim.tenant])).1
      exact ⟨active.symm,number⟩

end Steps
end Vmdesk.Takeover
