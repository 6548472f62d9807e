import Vmdesk.Metadata
import Vmdesk.SdpKeeps
import Vmdesk.SessionOwnership
import Vmdesk.Signalling

/-! Where the addresses in an answer come from: through any interleaving of calls, an answer that
reaches a client can be reached itself and tells no address but the public one. -/
namespace Vmdesk

namespace Sdp
open Text

def Spelled (sdp : Text) : Prop :=
  ∃ t ls, sdp = document t ls ∧ ∀ line ∈ ls, Regular line

theorem spelledKeeps {sdp publicIp : Text} (spelled : Spelled sdp) (word : Word publicIp)
    (filled : candidateCount sdp ≠ 0) :
    candidateCount (rewriteHostCandidates sdp publicIp) ≠ 0 ∧
    ∀ line ∈ lines (rewriteHostCandidates sdp publicIp), ∀ h, IsHost line h → h.address = publicIp := by
  obtain ⟨t,ls,same,regular⟩ := spelled
  have clean : ∀ line ∈ ls, Clean line := fun line own => (regular line own).toClean
  have out : ∀ line ∈ (firsts pairOf ls).map (pointed publicIp), Clean line := by
    intro line inside
    obtain ⟨source,own,same⟩ := List.mem_map.mp inside
    rw [← same]
    exact pointedClean word (clean source ((firstsSublist pairOf ls).subset own))
  rw [same] at filled ⊢
  rw [rewriteDocument t regular]
  refine ⟨?_,?_⟩
  · rw [ne_eq,candidateCountZero t out,candidatesKept]
    rwa [ne_eq,candidateCountZero t clean] at filled
  · intro line inside h host
    rw [linesDocument t out] at inside
    obtain ⟨source,_,made⟩ := List.mem_map.mp inside
    have named := hostOfExact.mpr host
    rw [← made,pointedHost word] at named
    obtain ⟨g,_,addressed⟩ := Option.map_eq_some_iff.mp named
    rw [← addressed]
    rfl

end Sdp

namespace Server
open Function Session

def start (config : Config) (detected : Option Text) : Server :=
  initial config (if config.network.publicIp.isEmpty then detected
    else some config.network.publicIp)

def Offered (described : Text → Prop) (publicIp : Option Text) (answer : Text) : Prop :=
  ∃ sdp, described sdp ∧ Sdp.candidateCount sdp ≠ 0 ∧ answer = match publicIp with
    | some ip => Sdp.rewriteHostCandidates sdp ip
    | none => sdp

section
variable (looking : Prop) (advertised : Nat → Option Text → Prop) (described : Nat → Text → Prop)

def Answered (c : Nat) (deal : Deal) (answer : Text) : Prop :=
  advertised c deal.publicIp ∧ Offered (described c) deal.publicIp answer

/- `looking` is whether an address may still be looked up, `advertised` what a call may take for it
and `described` what the stack may tell it. -/
def Vouched (c : Nat) : Phase → Prop
  | .detecting _ _ => looking
  | .caching _ _ ip => looking ∧ ∀ d, advertised d (some ip)
  | .negotiating _ deal _ | .discarding deal => advertised c deal.publicIp
  | .installing deal _ answer | .activating deal _ answer | .spawning deal _ answer =>
      Answered advertised described c deal answer
  | _ => True

def Present (s : Server) (n : Nat) : Prop := (s.tasks n).phase ≠ .absent

structure Vouches (s : Server) : Prop where
  configured : s.config.network.publicIp.isEmpty = false →
    ∀ c, advertised c (some s.config.network.publicIp)
  cached : s.config.network.publicIp.isEmpty = true → ∀ ip, s.publicIp = some ip →
    ∀ c, advertised c (some ip)
  unknown : s.config.network.publicIp.isEmpty = true → s.publicIp = none → looking
  calls : ∀ c, Vouched looking advertised described c (s.calls c)

def Reported : Label → Prop
  | .call _ (.detected (some ip)) => looking → ∀ d, advertised d (some ip)
  | .call c (.detected none) => looking → advertised c none
  | .call c (.described (some sdp)) => described c sdp
  | _ => True
end

section Tracking
variable {looking : Prop} {advertised : Nat → Option Text → Prop} {described : Nat → Text → Prop}
variable {s t : Server} {c : Nat}

theorem gatherVouched {deal : Deal} {pending : List PcEvent} (taken : advertised c deal.publicIp)
    (stepped : s.stepGather c deal pending = some t) :
    Vouched looking advertised described c (t.calls c) := by
  simp only [stepGather] at stepped
  split at stepped
  · split at stepped
    all_goals
      cases Option.some.inj stepped
      rw [setCallSelf]
      exact taken
  · split at stepped
    · cases Option.some.inj stepped
      rw [setCallSelf]
      exact trivial
    · contradiction

theorem negotiationVouched {stage : Stage} {deal : Deal} {pending : List PcEvent} {reply : Reply}
    (taken : advertised c deal.publicIp)
    (reported : Reported looking advertised described (.call c reply))
    (stepped : s.stepNegotiation c stage deal pending reply = some t) :
    Vouched looking advertised described c (t.calls c) := by
  unfold stepNegotiation at stepped
  split at stepped
  · exact gatherVouched taken stepped
  · cases Option.some.inj stepped
    rw [setCallSelf]
    exact taken
  · contradiction
  · next sdp =>
    cases Option.some.inj stepped
    unfold stepCollect
    split
    · rw [setCallSelf]
      exact trivial
    · next sdp =>
      split
      · rw [setCallSelf]
        exact taken
      · next some' =>
        rw [setCallSelf]
        exact ⟨taken,sdp,reported,some',rfl⟩
  · contradiction
  · cases Option.some.inj stepped
    rw [setCallSelf]
    exact taken
  · cases Option.some.inj stepped
    rw [setCallSelf]
    exact trivial
  · contradiction

theorem lookUpVouched {n : Nat} {port : UInt16} {reply : Reply}
    (vouches : Vouches looking advertised described s) (at' : s.calls c = .lookingUp n port)
    (stepped : s.stepCall c reply = some t) :
    Vouched looking advertised described c (t.calls c) := by
  cases reply with
  | proceeds =>
    simp only [stepCall,at'] at stepped
    split at stepped
    · next configured =>
      cases Option.some.inj stepped
      rw [setCallSelf]
      exact vouches.configured (by simpa using configured) c
    · next empty =>
      have empty : s.config.network.publicIp.isEmpty = true := by simpa using empty
      split at stepped
      · next ip cached =>
        cases Option.some.inj stepped
        rw [setCallSelf]
        exact vouches.cached empty ip cached c
      · next unknown =>
        cases Option.some.inj stepped
        rw [setCallSelf]
        exact vouches.unknown empty unknown
  | fails | released | detected | timedOut | described =>
    simp only [stepCall,at'] at stepped
    contradiction

theorem callVouched {reply : Reply} (vouches : Vouches looking advertised described s)
    (reported : Reported looking advertised described (.call c reply))
    (stepped : s.stepCall c reply = some t) :
    Vouched looking advertised described c (t.calls c) := by
  have here := vouches.calls c
  cases callStep stepped with
  | take | pass | disconnect | clear | release | close | allocate | allocatePort | discard | spawn =>
    rw [setCallSelf]
    exact trivial
  | locate n port ip at' => exact lookUpVouched vouches at' stepped
  | detect n port at' => exact lookUpVouched vouches at' stepped
  | detected n port ip at' =>
    rw [at'] at here
    rw [setCallSelf]
    exact ⟨here,reported here⟩
  | undetected n port at' =>
    rw [at'] at here
    rw [setCallSelf]
    exact reported here
  | cache n port ip at' =>
    rw [at'] at here
    rw [setCallSelf]
    exact here.2 c
  | negotiate stage deal pending reply handler p at' leads =>
    rw [at'] at here
    simp only [stepCall,at'] at stepped
    exact negotiationVouched here reported stepped
  | install deal pending answer at' | activate deal pending answer at' =>
    rw [at'] at here
    rw [setCallSelf]
    exact here

theorem cachedStep {l : Label} (stepped : s.step l = some t) : t.publicIp = s.publicIp ∨
    ∃ c n port ip, s.calls c = .caching n port ip ∧ t.publicIp = some ip := by
  cases l with
  | offer c sdp =>
    cases offerStep stepped with
    | reject | begin => exact Or.inl rfl
  | call c reply =>
    cases callStep stepped with
    | cache n port ip at' => exact Or.inr ⟨c,n,port,ip,at',rfl⟩
    | _ => exact Or.inl rfl
  | task n emits =>
    cases taskStep stepped with
    | openChannel label at' =>
      refine Or.inl ?_
      unfold openReader
      simp only
      split <;> rfl
    | _ => exact Or.inl rfl
  | event n ev =>
    obtain ⟨handler,same⟩ := eventStep stepped
    subst same
    exact Or.inl rfl
  | stop n =>
    cases Option.some.inj stepped
    exact Or.inl rfl
  | merge n =>
    obtain ⟨handler,merges,events,same⟩ := mergeStep stepped
    subst same
    exact Or.inl rfl
  | rtcp n packets =>
    rcases rtcpStep stepped with same|same
    all_goals
      subst same
      exact Or.inl rfl
  | channel r ev =>
    cases channelStep stepped with
    | deliver | stop | ignore => exact Or.inl rfl
  | reader r emits =>
    cases readerStep stepped with
    | refuse | enter => exact Or.inl rfl
    | act reader data here at' =>
      refine Or.inl ?_
      change (s.act reader data emits).publicIp = s.publicIp
      unfold act
      split
      · split <;> rfl
      · split <;> rfl

theorem configStep {l : Label} (stepped : s.step l = some t) : t.config = s.config := by
  cases who : caller l with
  | some c => exact (callerKeeps who stepped).config
  | none =>
    cases worked : worker l with
    | some n => exact (workerKeeps worked stepped).config
    | none => exact (asideKeeps who worked stepped).config

theorem vouchesStep {l : Label} (vouches : Vouches looking advertised described s)
    (reported : Reported looking advertised described l) (stepped : s.step l = some t) :
    Vouches looking advertised described t := by
  have config := configStep stepped
  refine ⟨fun filled => ?_,fun empty ip found => ?_,fun empty none' => ?_,fun d => ?_⟩
  · rw [config] at filled ⊢
    exact vouches.configured filled
  · rw [config] at empty
    rcases cachedStep stepped with same|⟨c,n,port,fresh,at',same⟩
    · exact vouches.cached empty ip (same.symm.trans found)
    · have here := vouches.calls c
      rw [at'] at here
      cases same.symm.trans found
      exact here.2
  · rw [config] at empty
    rcases cachedStep stepped with same|⟨c,n,port,fresh,at',same⟩
    · exact vouches.unknown empty (same.symm.trans none')
    · cases same.symm.trans none'
  · have stays (same : t.calls d = s.calls d) :
        Vouched looking advertised described d (t.calls d) := by
      rw [same]
      exact vouches.calls d
    cases l with
    | offer c sdp =>
      by_cases own : d = c
      · subst own
        cases offerStep stepped with
        | reject | begin =>
          rw [setCallSelf]
          exact trivial
      · exact stays ((offerKeeps stepped).others d own)
    | call c reply =>
      by_cases own : d = c
      · subst own
        exact callVouched vouches reported stepped
      · exact stays ((callKeeps stepped).others d own)
    | task n emits => exact stays (congrFun (taskKeeps stepped).calls d)
    | event | stop | merge | rtcp | channel | reader =>
      exact stays (congrFun (asideKeeps rfl rfl stepped).calls d)

theorem vouchesRun {ls : List Label} (start' : Vouches looking advertised described s)
    (looked : looking → ∀ d ip, .call d (.detected (some ip)) ∈ ls → ∀ c, advertised c (some ip))
    (missed : looking → ∀ d, .call d (.detected none) ∈ ls → advertised d none)
    (spelled : ∀ d sdp, .call d (.described (some sdp)) ∈ ls → described d sdp)
    (reached : Runs.run step s ls = some t) : Vouches looking advertised described t := by
  have reported (l : Label) (inside : l ∈ ls) : Reported looking advertised described l := by
    cases l with
    | call d reply =>
      cases reply with
      | detected ip =>
        cases ip with
        | none => exact fun may => missed may d inside
        | some ip => exact fun may => looked may d ip inside
      | described sdp =>
        cases sdp with
        | none => exact trivial
        | some sdp => exact spelled d sdp inside
      | _ => exact trivial
    | _ => exact trivial
  exact Runs.runInvariant (Vouches looking advertised described) start'
    (fun _ _ _ vouches reported stepped => vouchesStep vouches reported stepped)
    (Runs.allowedOf (fun l inside _ => reported l inside)) reached

theorem answerStep {l : Label} {answer : Text} (before : s.calls c ≠ .finished (.ok answer))
    (after : t.calls c = .finished (.ok answer)) (stepped : s.step l = some t) :
    l = .call c .proceeds ∧ ∃ deal pending, s.calls c = .spawning deal pending answer ∧
      t.Present deal.session := by
  have apart (same : t.calls c = s.calls c) : False := before (same.symm.trans after)
  cases l with
  | offer d sdp =>
    by_cases own : c = d
    · subst own
      cases offerStep stepped with
      | reject | begin =>
        rw [setCallSelf] at after
        cases after
    · exact (apart ((offerKeeps stepped).others c own)).elim
  | call d reply =>
    by_cases own : c = d
    · subst own
      cases callStep stepped with
      | spawn deal pending answer' at' =>
        rw [setCallSelf] at after
        cases after
        exact ⟨rfl,deal,pending,at',by simp [Present,setCall]⟩
      | negotiate stage deal pending reply handler p at' leads =>
        rw [setCallSelf] at after
        cases leads <;> cases after
      | _ =>
        rw [setCallSelf] at after
        cases after
    · exact (apart ((callKeeps stepped).others c own)).elim
  | task n emits => exact (apart (congrFun (taskKeeps stepped).calls c)).elim
  | event | stop | merge | rtcp | channel | reader =>
    exact (apart (congrFun (asideKeeps rfl rfl stepped).calls c)).elim

end Tracking

structure Made (begin : Server) (ls front : List Label) (c : Nat) (deal : Deal) (answer : Text) :
    Prop where
  part : ∃ back, ls = front ++ .call c .proceeds :: back
  spawns : ∃ u pending, Runs.run step begin front = some u ∧
    u.calls c = .spawning deal pending answer

theorem madeOf {begin s : Server} {ls : List Label} {c : Nat} {answer : Text}
    (idle : begin.calls c ≠ .finished (.ok answer)) (reached : Runs.run step begin ls = some s)
    (finished : s.calls c = .finished (.ok answer)) :
    ∃ front deal, Made begin ls front c deal answer ∧ s.Present deal.session := by
  obtain ⟨front,l,back,u,v,cut,part,moved,not,turned⟩ :=
    Runs.runTurns (P := fun s : Server => s.calls c = .finished (.ok answer)) idle finished reached
  obtain ⟨own,deal,pending,at',present⟩ := answerStep not turned moved
  rw [own] at cut moved
  refine ⟨front,deal,⟨⟨back,cut⟩,u,pending,part,at'⟩,?_⟩
  rw [cut,Runs.runAppend,part,Option.bind_some] at reached
  obtain ⟨w,first,rest⟩ := Option.bind_eq_some_iff.mp reached
  cases moved.symm.trans first
  exact Runs.runKeeps (fun s : Server => s.Present deal.session) present
    (fun _ _ _ present stepped => presentStep present stepped) rest

/- What a call takes for the public address: the one in the configuration, or else a known one, or
none if its own look for one has failed. -/
def Advertises (config : Config) (detected : Option Text) (ls : List Label) (c : Nat)
    (publicIp : Option Text) : Prop :=
  if config.network.publicIp = [] then match publicIp with
    | some ip => Text.Word ip ∧ (detected = some ip ∨ ∃ d, .call d (.detected (some ip)) ∈ ls)
    | none => detected = none ∧ .call c (.detected none) ∈ ls
  else publicIp = some config.network.publicIp

def Describes (ls : List Label) (c : Nat) (sdp : Text) : Prop :=
  .call c (.described (some sdp)) ∈ ls ∧ Sdp.Spelled sdp

/- What an answer tells: at least one candidate, and no host candidate with another address than the
public one. That is the one in the configuration, or else one that has been detected; only a call
whose own look for one has failed, in a server that has found none at its start, has none. -/
structure Told (config : Config) (detected : Option Text) (ls : List Label) (c : Nat) (deal : Deal)
    (answer : Text) : Prop where
  candidates : Sdp.candidateCount answer ≠ 0
  source : ∃ sdp, .call c (.described (some sdp)) ∈ ls ∧ answer = match deal.publicIp with
    | some ip => Sdp.rewriteHostCandidates sdp ip
    | none => sdp
  addresses : ∀ ip, deal.publicIp = some ip → ∀ line ∈ Sdp.lines answer, ∀ h,
    Sdp.IsHost line h → h.address = ip
  configured : config.network.publicIp ≠ [] → deal.publicIp = some config.network.publicIp
  found : config.network.publicIp = [] → ∀ ip, deal.publicIp = some ip →
    detected = some ip ∨ ∃ d, .call d (.detected (some ip)) ∈ ls
  unknown : deal.publicIp = none →
    config.network.publicIp = [] ∧ detected = none ∧ .call c (.detected none) ∈ ls

theorem answeredTold {config : Config} {detected : Option Text} {ls : List Label} {c : Nat}
    {deal : Deal} {answer : Text}
    (fixed : config.network.publicIp ≠ [] → Text.Word config.network.publicIp)
    (answered : Answered (Advertises config detected ls) (Describes ls) c deal answer) :
    Told config detected ls c deal answer := by
  obtain ⟨advertises,sdp,⟨told,spelled⟩,filled,made⟩ := answered
  unfold Advertises at advertises
  have word (ip : Text) (own : deal.publicIp = some ip) : Text.Word ip := by
    rw [own] at advertises
    split at advertises
    · exact advertises.1
    · next configured =>
      cases advertises
      exact fixed configured
  refine ⟨?_,⟨sdp,told,made⟩,fun ip own => ?_,fun configured => ?_,fun empty ip own => ?_,fun none' => ?_⟩
  · rw [made]
    cases own : deal.publicIp with
    | none => exact filled
    | some ip => exact (Sdp.spelledKeeps spelled (word ip own) filled).1
  · rw [own] at made
    rw [made]
    exact (Sdp.spelledKeeps spelled (word ip own) filled).2
  · exact (if_neg configured).mp advertises
  · rw [if_pos empty,own] at advertises
    exact advertises.2
  · rw [none'] at advertises
    split at advertises
    · next empty => exact ⟨empty,advertises⟩
    · contradiction

theorem vouchesStart {config : Config} {detected : Option Text} {ls : List Label}
    (early : ∀ ip, detected = some ip → Text.Word ip) :
    Vouches (config.network.publicIp = [] ∧ detected = none) (Advertises config detected ls)
      (Describes ls) (start config detected) := by
  refine ⟨fun filled c => ?_,fun empty ip found c => ?_,fun empty none' => ?_,fun c => trivial⟩
  · have filled : config.network.publicIp.isEmpty = false := filled
    exact (if_neg (by simpa using filled)).mpr rfl
  · have empty : config.network.publicIp.isEmpty = true := empty
    simp only [start,initial,empty,if_true] at found
    exact (if_pos (by simpa using empty)).mpr ⟨early ip found,Or.inl found⟩
  · have empty : config.network.publicIp.isEmpty = true := empty
    simp only [start,initial,empty,if_true] at none'
    exact ⟨by simpa using empty,none'⟩

def lateAddress : List Label :=
  [.offer 0 "m=video 9\nm=application 9\n".toList] ++ List.replicate 4 (.call 0 .proceeds) ++
    [.call 0 (.detected (some "129.146.10.20".toList))] ++ List.replicate 10 (.call 0 .proceeds) ++
    [.call 0 .timedOut,.call 0 (.described (some
      "a=candidate:1 1 udp 1 10.0.0.7 5 typ host\n".toList))] ++ List.replicate 3 (.call 0 .proceeds)

def publicAnswer : Text := "a=candidate:1 1 udp 1 129.146.10.20 5 typ host\n".toList

def listing : Text := "[\x7b\"publicIp\":\"129.146.10.20\"\x7d]".toList

def readListing (json : Text) : Option Json.Value :=
  if json = listing then some (.array [.object [("publicIp".toList,.string "129.146.10.20".toList)]])
  else none

def spellLines : SessionDescription ⊕ String → String
  | .inl d => "\x7b\"type\":\"" ++ String.ofList d.kind ++ "\",\"sdp\":\"" ++
      String.ofList (d.sdp.flatMap (fun c => if c = '\n' then ['\\','n'] else [c])) ++ "\"\x7d"
  | .inr message => "\x7b\"error\":\"" ++ message ++ "\"\x7d"

end Server
end Vmdesk
