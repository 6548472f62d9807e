import Vmdesk.Firsts
import Vmdesk.Text

/-! The firewall rule for the video ports: setup makes sure that it is somewhere in the chain, doctor
looks where it stands. -/
namespace Vmdesk.Firewall
open Text

/- What is relied on of `iptables`: the rule that arguments stand for, and the line that lists a
rule. -/
structure Iptables (ρ : Type) where
  rule : List Text → ρ
  print : ρ → Text

def portRange (min max : UInt16) : Text := (toString min.toNat ++ ":" ++ toString max.toNat).toList

def ruleArgs (min max : UInt16) : List Text :=
  ["-p".toList,"udp".toList,"-m".toList,"udp".toList,"--dport".toList,portRange min max,
    "-j".toList,"ACCEPT".toList]

structure Outcomes where
  inserts : Bool
  hasPersistent : Bool
  persists : Bool
  saves : Bool
  creates : Bool
  writes : Bool
  deriving DecidableEq, Repr

def save (o : Outcomes) : Bool :=
  if o.hasPersistent then o.persists else o.saves && o.creates && o.writes

section
variable {ρ : Type} [DecidableEq ρ]

/- Whether setup's step is `Ok`, and the chain behind it. `-C` finds an identical rule anywhere in
the chain, `-I INPUT 1` puts the rule in front. -/
def firewall (t : Iptables ρ) (min max : UInt16) (o : Outcomes) (chain : List ρ) : Bool × List ρ :=
  let rule := t.rule (ruleArgs min max)
  if rule ∈ chain then (save o,chain)
  else if o.inserts then (save o,rule::chain)
  else (false,chain)
end

inductive Status where | pass | warn | fail
  deriving DecidableEq, Repr

structure Check where
  status : Status
  name : Text
  detail : Text
  fix : Option Text
  deriving DecidableEq, Repr

def pass (name detail : Text) : Check := ⟨.pass,name,detail,none⟩
def warn (name detail fix : Text) : Check := ⟨.warn,name,detail,some fix⟩
def fail (name detail fix : Text) : Check := ⟨.fail,name,detail,some fix⟩

/- What comes of `iptables -S INPUT`: the lines it prints, what it says (trimmed) when it fails, or
why it could not be run. -/
inductive Output where
  | lines (stdout : List Text)
  | failed (stderr : Text)
  | notRun (error : Text)
  deriving DecidableEq, Repr

def contains (line needle : Text) : Bool := (rfind needle line).isSome

section
variable (min max : UInt16)

def accepts (line : Text) : Bool :=
  contains line "-p udp".toList && contains line ("--dport ".toList ++ portRange min max) &&
    contains line "-j ACCEPT".toList

def rejects (line : Text) : Bool :=
  (contains line "-j REJECT".toList || contains line "-j DROP".toList) &&
    !contains line "--dport".toList

def checkIptables (output : Output) : Check :=
  let name := "iptables".toList
  let ports := portRange min max
  let fix := "sudo iptables -I INPUT 1 -p udp -m udp --dport ".toList ++ ports ++
    " -j ACCEPT && sudo netfilter-persistent save".toList
  match output with
  | .failed stderr => warn name ("cannot list rules (".toList ++ stderr ++ ")".toList)
      "run `sudo ./server doctor` to check the firewall".toList
  | .notRun error => warn name ("iptables not runnable: ".toList ++ error) fix
  | .lines lines => match lines.findIdx? (accepts min max),lines.findIdx? rejects with
    | some a,some r =>
      if a > r then fail name
        ("UDP ".toList ++ ports ++ " ACCEPT rule comes after a REJECT/DROP rule".toList) fix
      else pass name ("UDP ".toList ++ ports ++ " accepted".toList)
    | some _,none => pass name ("UDP ".toList ++ ports ++ " accepted".toList)
    | none,_ => fail name ("no ACCEPT rule for UDP ".toList ++ ports) fix
end

inductive Policy where | accept | drop
  deriving DecidableEq, Repr

def Policy.line : Policy → Text
  | .accept => "-P INPUT ACCEPT".toList
  | .drop => "-P INPUT DROP".toList

section
variable {ρ : Type}

def listing (t : Iptables ρ) (policy : Policy) (chain : List ρ) : List Text :=
  policy.line :: chain.map t.print

inductive Lists (t : Iptables ρ) (policy : Policy) (chain : List ρ) : Output → Prop where
  | lines : Lists t policy chain (.lines (listing t policy chain))
  | failed (stderr : Text) : Lists t policy chain (.failed stderr)
  | notRun (error : Text) : Lists t policy chain (.notRun error)

structure Prints (t : Iptables ρ) (min max : UInt16) : Prop where
  udp : contains (t.print (t.rule (ruleArgs min max))) "-p udp".toList = true
  ports : contains (t.print (t.rule (ruleArgs min max))) ("--dport ".toList ++ portRange min max) = true
  accept : contains (t.print (t.rule (ruleArgs min max))) "-j ACCEPT".toList = true

/- An unconditional rejection stands before every rule that doctor takes for the right one. -/
def Shadowed (t : Iptables ρ) (min max : UInt16) (chain : List ρ) : Prop :=
  ∃ before r after, chain = before ++ r::after ∧ rejects (t.print r) = true ∧
    ∀ q ∈ before, accepts min max (t.print q) = false

section
variable {min max : UInt16} {t : Iptables ρ} {chain after : List ρ} {policy : Policy}
variable {lines : List Text} {line : Text}

theorem containsExactly {needle : Text} : contains line needle = true ↔ needle <:+: line := by
  rw [contains,Option.isSome_iff_ne_none,ne_eq,rfindAbsent,not_not]

theorem acceptsApart (accepted : accepts min max line = true) : rejects line = false := by
  simp only [accepts,Bool.and_eq_true,containsExactly] at accepted
  have shorter : "--dport".toList <:+: line :=
    List.IsInfix.trans ⟨[],' '::portRange min max,by simp⟩ accepted.1.2
  have ported : contains line "--dport".toList = true := containsExactly.mpr shorter
  rw [rejects,ported,Bool.not_true,Bool.and_false]

theorem failsExactly : (checkIptables min max (.lines lines)).status = .fail ↔
    (∀ line ∈ lines, accepts min max line = false) ∨
    ∃ before r after, lines = before ++ r::after ∧ rejects r = true ∧
      ∀ q ∈ before, accepts min max q = false := by
  have apart : ∀ line, accepts min max line = true → rejects line = false := fun _ => acceptsApart
  have order := firstBefore apart lines
  have accepted {a : Nat} (first : lines.findIdx? (accepts min max) = some a) :
      ∃ line ∈ lines, accepts min max line = true := by
    obtain ⟨below,holds,_⟩ := List.findIdx?_eq_some_iff_getElem.mp first
    exact ⟨lines[a],List.getElem_mem below,holds⟩
  have someLine (inside : ∃ line ∈ lines, accepts min max line = true) :
      ¬ ∀ line ∈ lines, accepts min max line = false := by
    intro never
    obtain ⟨line,own,holds⟩ := inside
    rw [never line own] at holds
    cases holds
  unfold checkIptables
  simp only
  split
  · next a r first second =>
    have inside := accepted first
    rw [and_iff_right inside] at order
    rw [or_iff_right (someLine inside),← order]
    split
    · next later => exact iff_of_true rfl ⟨a,r,first,second,later⟩
    · next earlier =>
      refine iff_of_false (fun failed => nomatch failed) (fun places => ?_)
      obtain ⟨i,j,first',second',less⟩ := places
      rw [first] at first'
      rw [second] at second'
      cases first'
      cases second'
      exact earlier less
  · next a first second =>
    have inside := accepted first
    rw [and_iff_right inside] at order
    rw [or_iff_right (someLine inside),← order]
    refine iff_of_false (fun failed => nomatch failed) (fun places => ?_)
    obtain ⟨i,j,_,second',_⟩ := places
    rw [second] at second'
    cases second'
  · next first =>
    exact iff_of_true rfl (.inl (List.findIdx?_eq_none_iff.mp first))

theorem policyLine (policy : Policy) : accepts min max policy.line = false := by
  have quiet : contains policy.line "-p udp".toList = false := by cases policy <;> decide
  rw [accepts,quiet,Bool.false_and,Bool.false_and]

theorem policyKeeps (policy : Policy) : rejects policy.line = false := by cases policy <;> decide

theorem listingFails : (checkIptables min max (.lines (listing t policy chain))).status = .fail ↔
    (∀ rule ∈ chain, accepts min max (t.print rule) = false) ∨ Shadowed t min max chain := by
  rw [failsExactly,listing]
  refine or_congr ?_ ?_
  · simp [policyLine]
  · constructor
    · intro cut
      obtain ⟨before,r,after,same,rejected,clear⟩ := cut
      cases before with
      | nil =>
        cases same
        rw [policyKeeps] at rejected
        cases rejected
      | cons b before =>
        obtain ⟨_,tail⟩ := List.cons.inj same
        obtain ⟨front,back,whole,frontLines,backLines⟩ := List.map_eq_append_iff.mp tail
        obtain ⟨rule,rest,cons,printed,_⟩ := List.map_eq_cons_iff.mp backLines
        refine ⟨front,rule,rest,by rw [whole,cons],printed ▸ rejected,fun q inside => ?_⟩
        refine clear (t.print q) (List.mem_cons_of_mem _ ?_)
        rw [← frontLines]
        exact List.mem_map_of_mem inside
    · intro shadowed
      obtain ⟨before,r,after,same,rejected,clear⟩ := shadowed
      refine ⟨policy.line::before.map t.print,t.print r,after.map t.print,by simp [same],rejected,?_⟩
      intro line inside
      obtain here | inside := List.mem_cons.mp inside
      · rw [here]
        exact policyLine policy
      · obtain ⟨q,own,printed⟩ := List.mem_map.mp inside
        rw [← printed]
        exact clear q own

theorem ruleAccepted (prints : Prints t min max) :
    accepts min max (t.print (t.rule (ruleArgs min max))) = true := by
  rw [accepts,prints.udp,prints.ports,prints.accept]
  rfl
end
end

section
variable {ρ : Type} [DecidableEq ρ] {t : Iptables ρ} {min max : UInt16} {o : Outcomes}
variable {chain after : List ρ}

theorem firewallOk (ok : firewall t min max o chain = (true,after)) :
    t.rule (ruleArgs min max) ∈ chain ∧ after = chain ∨
      t.rule (ruleArgs min max) ∉ chain ∧ after = t.rule (ruleArgs min max)::chain := by
  unfold firewall at ok
  simp only at ok
  split at ok
  · next present => exact .inl ⟨present,(Prod.mk.inj ok).2.symm⟩
  · next absent =>
    split at ok
    · exact .inr ⟨absent,(Prod.mk.inj ok).2.symm⟩
    · cases ok

/- What setup leaves behind passes, unless it found the rule below an unconditional rejection. -/
theorem setupPassesExactly (prints : Prints t min max)
    (ok : firewall t min max o chain = (true,after)) (policy : Policy) :
    (∀ output, Lists t policy after output → (checkIptables min max output).status ≠ .fail) ↔
      ¬ (t.rule (ruleArgs min max) ∈ chain ∧ Shadowed t min max chain) := by
  have accepted := ruleAccepted prints
  have listed : (∀ output, Lists t policy after output → (checkIptables min max output).status ≠ .fail) ↔
      (checkIptables min max (.lines (listing t policy after))).status ≠ .fail := by
    constructor
    · exact fun all => all _ .lines
    · intro passes output lists
      cases lists with
      | lines => exact passes
      | failed | notRun => simp [checkIptables,warn]
  rw [listed,ne_eq,listingFails]
  obtain ⟨present,same⟩ | ⟨absent,same⟩ := firewallOk ok
  · have some : ¬ ∀ rule ∈ chain, accepts min max (t.print rule) = false := by
      intro none
      rw [none _ present] at accepted
      cases accepted
    rw [same,or_iff_right some,and_iff_right present]
  · have onTop : ¬ ((∀ rule ∈ after, accepts min max (t.print rule) = false) ∨
        Shadowed t min max after) := by
      rw [same]
      intro fails
      obtain none | ⟨before,r,rest,cut,rejected,clear⟩ := fails
      · rw [none _ (by simp)] at accepted
        cases accepted
      · cases before with
        | nil =>
          obtain ⟨head,_⟩ := List.cons.inj cut
          rw [← head,acceptsApart accepted] at rejected
          cases rejected
        | cons b before =>
          obtain ⟨head,_⟩ := List.cons.inj cut
          rw [head,clear b (by simp)] at accepted
          cases accepted
    exact ⟨fun _ both => absent both.1,fun _ => onTop⟩
end

def spelled : Iptables Text where
  rule := fun args => join " ".toList args
  print := fun rule => "-A INPUT ".toList ++ rule

def done : Outcomes := ⟨true,true,true,true,true,true⟩

def stock : List Text :=
  ["-p tcp -m tcp --dport 22 -j ACCEPT".toList,
    "-j REJECT --reject-with icmp-host-prohibited".toList]

def appended : List Text := stock ++ [spelled.rule (ruleArgs 50000 50100)]

theorem spelledPrints : Prints spelled 50000 50100 :=
  ⟨by decide +kernel,by decide +kernel,by decide +kernel⟩

theorem setupPassesStock : Prints spelled 50000 50100 ∧
    firewall spelled 50000 50100 done stock = (true,spelled.rule (ruleArgs 50000 50100)::stock) ∧
    ((∀ output, Lists spelled .accept (spelled.rule (ruleArgs 50000 50100)::stock) output →
      (checkIptables 50000 50100 output).status ≠ .fail) ↔
      ¬ (spelled.rule (ruleArgs 50000 50100) ∈ stock ∧ Shadowed spelled 50000 50100 stock)) := by
  have ok : firewall spelled 50000 50100 done stock =
      (true,spelled.rule (ruleArgs 50000 50100)::stock) := by decide +kernel
  exact ⟨spelledPrints,ok,setupPassesExactly spelledPrints ok .accept⟩

theorem setupLeavesBelow : Prints spelled 50000 50100 ∧
    firewall spelled 50000 50100 done appended = (true,appended) ∧
    checkIptables 50000 50100 (.lines (listing spelled .accept appended)) =
      fail "iptables".toList "UDP 50000:50100 ACCEPT rule comes after a REJECT/DROP rule".toList
        "sudo iptables -I INPUT 1 -p udp -m udp --dport 50000:50100 -j ACCEPT && sudo netfilter-persistent save".toList :=
  ⟨spelledPrints,by decide +kernel,by decide +kernel⟩
end Vmdesk.Firewall
