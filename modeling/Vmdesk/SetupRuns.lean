import Vmdesk.Setup
import Vmdesk.Runs

/-! Runs of setup on one machine, any of which may fail anywhere: what they keep, and what the last
one leaves if it succeeds. -/
namespace Vmdesk
open LittleEndian (Bytes)
open Firewall (Iptables)
open Stages Paths

namespace Setup

section Sections
variable {ρ : Type} {opts : SetupOptions} {config : Config} {host : Host ρ} {m : Machine ρ}
variable {path : Text} {place : Place} {kept : Place → Prop}

/- The programs that are called leave these places as they are. -/
def Gentle (kept : Place → Prop) (host : Host ρ) : Prop :=
  ∀ program args m place, kept place → (host.effect program args m).look place = m.look place

def Still (kept : Place → Prop) (act : Action (Machine ρ) Error) : Prop :=
  ∀ place, kept place → Spares Machine.look place act

@[simp] theorem succeedStill : Still kept (succeed : Action (Machine ρ) Error) := fun _ _ _ => rfl

theorem cmdStill {program : String} {args : List Text} (gentle : Gentle kept host) :
    Still kept (cmd host program args) := by
  intro place stays m
  unfold cmd
  cases host.command program.toList args with
  | done | failed => exact gentle _ _ m place stays
  | notRun => rfl

theorem preseedStill (gentle : Gentle kept host) : Still kept (preseed host) := by
  intro place stays m
  unfold preseed
  cases host.preseeds with
  | done | failed => exact gentle _ _ m place stays
  | notRun => rfl

theorem attemptStill {act : Action (Machine ρ) Error} (still : Still kept act) :
    Still kept (attempt act) :=
  fun place stays m => still place stays m

theorem performStill {acts : List (Action (Machine ρ) Error)} (each : ∀ act ∈ acts, Still kept act) :
    Still kept (perform acts) :=
  fun place stays => performSpares (fun act inside => each act inside place stays)

theorem putElsewhere {file : Option File} (other : place ≠ .file path) :
    (m.put path file).look place = m.look place := by
  cases place with
  | chain => rfl
  | file p =>
    have apart : p ≠ path := fun same => other (same ▸ rfl)
    exact congrArg Sum.inl (Function.update_of_ne apart _ _)

theorem putHere {file : Option File} : (m.put path file).files path = file :=
  Function.update_self _ _ _

theorem writeSpares {content : Text} (other : place ≠ .file path) :
    Spares Machine.look place (writeFile host path content : Action (Machine ρ) Error) := by
  intro m
  unfold writeFile
  cases host.wrote path with
  | noDirectory | refused => rfl
  | done => exact putElsewhere other
  | cut n => exact putElsewhere other

theorem writeOk {content : Text} (done : (writeFile host path content m).1 = .ok ()) :
    (writeFile host path content m).2.files path = some (.text content) := by
  unfold writeFile at done ⊢
  cases wrote : host.wrote path with
  | done => exact putHere
  | noDirectory | refused | cut =>
    rw [wrote] at done
    contradiction

theorem writesLawful {content : Text} {later : List (Action (Machine ρ) Error)}
    (still : ∀ act ∈ later, Still kept act) :
    Lawful kept Machine.look ⟨[.file path],perform (writeFile host path content::later)⟩ := by
  intro place stays other
  refine performSpares (fun act inside => ?_)
  rcases List.mem_cons.mp inside with first|rest
  · exact first ▸ writeSpares (by simpa using other)
  · exact still act rest place stays

theorem writesOk {content : Text} {later : List (Action (Machine ρ) Error)}
    (stays : kept (.file path)) (still : ∀ act ∈ later, Still kept act)
    (done : (perform (writeFile host path content::later) m).1 = .ok ()) :
    (perform (writeFile host path content::later) m).2.files path = some (.text content) := by
  have first : (writeFile host path content m).1 = .ok () ∧
      (perform (writeFile host path content::later) m).2.look (.file path) =
        (writeFile host path content m).2.look (.file path) :=
    performFirst (fun act inside => still act inside _ stays) done
  obtain ⟨wrote,same⟩ := first
  rw [Sum.inl.inj same]
  exact writeOk wrote

theorem packagesStill (gentle : Gentle kept host) : Still kept (packages opts host) := by
  unfold packages installPackages
  split
  · exact succeedStill
  · exact performStill (by simp [preseedStill gentle,cmdStill gentle])

theorem modulesStill (gentle : Gentle kept host) : Still kept (loadModules host) :=
  performStill (by simp [attemptStill (cmdStill gentle)])

theorem autologinLater (gentle : Gentle kept host) :
    ∀ act ∈ [cmd host "systemctl" (words ["set-default","graphical.target"]),
      cmd host "systemctl" (words ["enable","lightdm"])], Still kept act := by
  simp [cmdStill gentle]

theorem serviceLater (gentle : Gentle kept host) :
    ∀ act ∈ [cmd host "systemctl" (words ["daemon-reload"]),
      cmd host "systemctl" (words ["enable","vmdesk"]),
      cmd host "systemctl" (words ["restart","vmdesk"])], Still kept act := by
  simp [cmdStill gentle]

theorem udevLater (gentle : Gentle kept host) : ∀ act ∈
    ([attempt (cmd host "udevadm" (words ["control","--reload-rules"])),
    attempt (cmd host "udevadm" (words ["trigger","--name-match=uinput"])),
    if host.uinput then perform [attempt (cmd host "chgrp" (words ["input","/dev/uinput"])),
      attempt (cmd host "chmod" (words ["0660","/dev/uinput"]))] else succeed] :
    List (Action (Machine ρ) Error)), Still kept act := by
  have owned : Still kept (perform [attempt (cmd host "chgrp" (words ["input","/dev/uinput"])),
      attempt (cmd host "chmod" (words ["0660","/dev/uinput"]))] : Action (Machine ρ) Error) :=
    performStill (by simp [attemptStill (cmdStill gentle)])
  cases host.uinput with
  | true => simpa [attemptStill (cmdStill gentle)] using owned
  | false => simp [attemptStill (cmdStill gentle)]

theorem copySpares {exe tmp : Text} (other : place ≠ .file tmp) :
    Spares Machine.look place (copy host exe tmp : Action (Machine ρ) Error) := by
  intro m
  unfold copy
  cases host.copied with
  | noDirectory | refused => rfl
  | done => exact putElsewhere other
  | cut n => exact putElsewhere other

theorem renameSpares {tmp dest : Text} (other : place ≠ .file tmp) (away : place ≠ .file dest) :
    Spares Machine.look place (rename host tmp dest : Action (Machine ρ) Error) := by
  intro m
  unfold rename
  split
  · rfl
  · exact (putElsewhere other).trans (putElsewhere away)

theorem installSpares {dest : Text} (other : place ≠ .file (tmpPath dest))
    (away : place ≠ .file dest) :
    Spares Machine.look place (installBinary host dest : Action (Machine ρ) Error) := by
  unfold installBinary
  split
  · exact fun _ => rfl
  · split
    · exact fun _ => rfl
    · refine performSpares (fun act inside => ?_)
      simp only [List.mem_cons,List.not_mem_nil,or_false] at inside
      rcases inside with same|same|same|same
      · exact same ▸ fun _ => rfl
      · exact same ▸ copySpares other
      · exact same ▸ fun _ => rfl
      · exact same ▸ renameSpares other away

theorem binaryLater (gentle : Gentle kept host) : ∀ act ∈
    ([setcap host opts.installPath,match host.exeLater with
    | .error _ => succeed
    | .ok exe => if host.canonicalLater exe = host.canonicalLater opts.installPath then succeed
      else attempt (setcap host exe)] : List (Action (Machine ρ) Error)), Still kept act := by
  have noted : Still kept ((match host.exeLater with
      | .error _ => succeed
      | .ok exe => if host.canonicalLater exe = host.canonicalLater opts.installPath then succeed
        else attempt (setcap host exe)) : Action (Machine ρ) Error) := by
    split
    · exact succeedStill
    · split
      · exact succeedStill
      · exact attemptStill (cmdStill gentle)
  simpa [setcap,cmdStill gentle] using noted

theorem binaryLawful (gentle : Gentle kept host) : Lawful kept Machine.look
    ⟨[.file opts.installPath,.file (tmpPath opts.installPath)],binary opts host⟩ := by
  intro place stays other
  simp only [List.mem_cons,List.not_mem_nil,or_false,not_or] at other
  refine performSpares (List.forall_mem_cons.mpr ⟨installSpares other.2 other.1,fun act inside => ?_⟩)
  exact binaryLater gentle act inside place stays

theorem saveKeeps (gentle : Gentle kept host) (stays : kept place) (other : place ≠ .file rulesPath) :
    (saveRules host m).look place = m.look place := by
  unfold saveRules
  split
  · exact gentle _ _ _ place stays
  · exact (putElsewhere other).trans (gentle _ _ _ place stays)

theorem firewallLawful [DecidableEq ρ] {t : Iptables ρ} {min max : UInt16} (gentle : Gentle kept host) :
    Lawful kept Machine.look ⟨[.chain,.file rulesPath],firewall t host min max⟩ := by
  intro place stays other m
  simp only [List.mem_cons,List.not_mem_nil,or_false,not_or] at other
  have same (chain : List ρ) : ({m with chain := chain} : Machine ρ).look place = m.look place := by
    cases place with
    | chain => exact absurd rfl other.1
    | file p => rfl
  simp only [firewall]
  split
  · exact (saveKeeps gentle stays other.2).trans (same _)
  · exact same _

theorem configSpares (other : place ≠ .file path) :
    Spares Machine.look place (writeConfig host path config : Action (Machine ρ) Error) := by
  intro m
  unfold writeConfig
  split
  · rfl
  · exact writeSpares other m

theorem blankSpares {file : Text × Text} (other : place ≠ .file file.1) :
    Spares Machine.look place (blankFile host file : Action (Machine ρ) Error) := by
  intro m
  unfold blankFile
  split
  · rfl
  · exact writeSpares other m

theorem xfceSpares (gentle : Gentle kept host) (stays : kept place)
    (other : place ∉ (blankPaths opts host).map Place.file) :
    Spares Machine.look place (xfceNoBlank host opts.user) := by
  unfold xfceNoBlank
  unfold blankPaths at other
  cases found : homeDir opts.user host.passwdLater with
  | error e => exact fun _ => rfl
  | ok home =>
    rw [found] at other
    refine performSpares (fun act inside => ?_)
    rcases List.mem_append.mp inside with file|last
    · obtain ⟨file,here,same⟩ := List.mem_map.mp file
      refine same ▸ blankSpares (fun place => other ?_)
      exact List.mem_map.mpr ⟨file.1,List.mem_map_of_mem here,place.symm⟩
    · exact List.mem_singleton.mp last ▸ cmdStill gentle place stays

theorem configKeeps {f : File} (there : m.look (.file path) = .inl (some f)) :
    (writeConfig host path config m).2.look (.file path) = .inl (some f) := by
  have found : m.files path = some f := Sum.inl.inj there
  rw [writeConfig,found]
  exact there

theorem blankKeeps {f : File} {file : Text × Text} (ours : file.1 = path → fileName path ≠ noblankName)
    (there : m.look (.file path) = .inl (some f)) :
    (blankFile host file m).2.look (.file path) = .inl (some f) := by
  by_cases same : file.1 = path
  · have found : m.files file.1 = some f := same ▸ Sum.inl.inj there
    have name : fileName file.1 ≠ noblankName := same ▸ ours same
    rw [blankFile,found]
    simpa [name] using there
  · rw [blankSpares (fun same' => same (Place.file.inj same').symm) m]
    exact there

theorem xfceKeeps {f : File} (gentle : Gentle kept host) (stays : kept (.file path))
    (ours : fileName path ≠ noblankName)
    (there : m.look (.file path) = .inl (some f)) :
    (attempt (xfceNoBlank host opts.user) m).2.look (.file path) = .inl (some f) := by
  simp only [attempt,xfceNoBlank]
  cases homeDir opts.user host.passwdLater with
  | error e => exact there
  | ok home =>
    refine performKeeps (P := fun (m : Machine ρ) => m.look (.file path) = .inl (some f))
      (fun act inside m here => ?_) there
    rcases List.mem_append.mp inside with file|last
    · obtain ⟨file,_,same⟩ := List.mem_map.mp file
      exact same ▸ blankKeeps (fun _ => ours) here
    · exact List.mem_singleton.mp last ▸ (cmdStill gentle _ stays m).trans here

theorem installCases {dest : Text} (apart : dest ≠ tmpPath dest) :
    (installBinary host dest m).2.files dest = some (.binary host.image) ∨
    (installBinary host dest m).2.files dest = m.files dest ∧
      ((installBinary host dest m).1 = .ok () → ∃ exe, host.exe = .ok exe ∧
        host.canonical exe = host.canonical dest) := by
  have elsewhere (m : Machine ρ) (file : Option File) :
      (m.put (tmpPath dest) file).files dest = m.files dest := Function.update_of_ne apart _ _
  unfold installBinary
  cases host.exe with
  | error cause => exact Or.inr ⟨rfl,fun done => nomatch done⟩
  | ok exe =>
    by_cases same : host.canonical exe = host.canonical dest
    · exact Or.inr ⟨by simp [same,succeed],fun _ => ⟨exe,rfl,same⟩⟩
    · simp only [same,if_false,perform,ofExcept,failsWith,Except.mapError,copy,rename]
      cases host.makes with
      | error cause => simp
      | ok =>
        cases host.copied with
        | noDirectory cause | refused cause => simp
        | cut n cause => simp [elsewhere]
        | done =>
          cases host.permits with
          | error cause => simp [elsewhere]
          | ok =>
            cases host.renamed with
            | error cause => simp [elsewhere]
            | ok => simp [elsewhere,putHere]

theorem configLeaves {u : Machine ρ} (before : u.files path = m.files path)
    (done : (writeConfig host path config u).1 = .ok ()) :
    (writeConfig host path config u).2.files path = if (m.files path).isSome then m.files path
      else some (.text (configured config host).toCommentedToml) := by
  unfold writeConfig at done ⊢
  rw [before] at done ⊢
  split
  · exact before
  · next absent =>
    rw [if_neg absent] at done
    exact writeOk done

def Whole (old : Option File) (image : Bytes) (v : Option File ⊕ List ρ) : Prop :=
  v = .inl old ∨ v = .inl (some (.binary image))

theorem binaryKeeps {old : Option File} (gentle : Gentle kept host)
    (stays : kept (.file opts.installPath)) (apart : opts.installPath ≠ tmpPath opts.installPath)
    (whole : Whole old host.image (m.look (.file opts.installPath))) :
    Whole old host.image ((binary opts host m).2.look (.file opts.installPath)) := by
  refine performKeeps (P := fun (m : Machine ρ) => Whole old host.image (m.look (.file opts.installPath)))
    (fun act inside m holds => ?_) whole
  rcases List.mem_cons.mp inside with first|later
  · subst first
    rcases installCases apart with fresh|⟨same,_⟩
    · exact Or.inr (congrArg Sum.inl fresh)
    · have kept := congrArg (fun f => (Sum.inl f : Option File ⊕ List ρ)) same
      exact holds.imp kept.trans kept.trans
  · rw [binaryLater gentle act later _ stays]
    exact holds

def Opened (rule : ρ) (chain : List ρ) (v : Option File ⊕ List ρ) : Prop :=
  v = .inr chain ∨ rule ∉ chain ∧ v = .inr (rule::chain)

theorem openedAgain {rule : ρ} {chain : List ρ} {v : Option File ⊕ List ρ}
    (opened : Opened rule chain (m.look .chain)) (more : Opened rule m.chain v) :
    Opened rule chain v := by
  rcases opened with before|⟨absent,before⟩
  · cases Sum.inr.inj before
    exact more
  · have found : m.chain = rule::chain := Sum.inr.inj before
    rw [found] at more
    rcases more with same|⟨missing,_⟩
    · exact Or.inr ⟨absent,same⟩
    · exact absurd List.mem_cons_self missing

theorem binaryOk (gentle : Gentle kept host) (stays : kept (.file opts.installPath))
    (apart : opts.installPath ≠ tmpPath opts.installPath)
    (away : ∀ exe, host.exe = .ok exe → host.canonical exe ≠ host.canonical opts.installPath)
    (done : (binary opts host m).1 = .ok ()) :
    (binary opts host m).2.files opts.installPath = some (.binary host.image) := by
  have first : (installBinary host opts.installPath m).1 = .ok () ∧
      (binary opts host m).2.look (.file opts.installPath) =
        (installBinary host opts.installPath m).2.look (.file opts.installPath) :=
    performFirst (fun act inside => binaryLater gentle act inside _ stays) done
  obtain ⟨installed,same⟩ := first
  rw [Sum.inl.inj same]
  rcases installCases apart with fresh|⟨_,kept⟩
  · exact fresh
  · obtain ⟨exe,found,here⟩ := kept installed
    exact absurd here (away exe found)

def owned (opts : SetupOptions) (host : Host ρ) : List Place :=
  [.file xorgConfPath,.file lightdmConfPath,.file modulesConfPath,.file udevRulePath,
    .file opts.installPath,.file (tmpPath opts.installPath),.chain,.file rulesPath,
    .file opts.configPath] ++ (blankPaths opts host).map .file ++ [.file serviceFile]

def Apart (opts : SetupOptions) (host : Host ρ) : Prop := (owned opts host).Nodup

theorem tmpApart (apart : Apart opts host) : opts.installPath ≠ tmpPath opts.installPath := by
  intro same
  simp [Apart,owned,← same] at apart

/- Files of which a run makes sure that they are there. -/
def guarded (opts : SetupOptions) (host : Host ρ) : List Text :=
  opts.configPath::(blankPaths opts host).filter (fun path => fileName path != noblankName)

theorem defaultsLoaded {reader : Toml.Reader} : Config.load reader path
    (some (.text (configured {} host).toCommentedToml)) = .ok (configured {} host) := by
  have plain : (Toml.Plain (configured {} host).network.publicIp ∧
      Toml.Plain (configured {} host).network.metadataUrl ∧
      Toml.Plain (configured {} host).capture.card ∧
      Toml.Plain (configured {} host).capture.connector) ∧
      (configured {} host).network.signallingAddr.flowinfo = 0 := by
    unfold configured
    cases host.byPathLater <;> decide
  have valid : (configured {} host).validate = .ok () := by
    unfold configured
    cases host.byPathLater <;> decide
  simp only [Config.load,(Config.fromTomlExact reader (configured {} host)).mpr plain,valid]

variable [DecidableEq ρ] {t : Iptables ρ} {card : Text}

theorem stagesLawful (gentle : Gentle kept host) :
    ∀ st ∈ stages opts config host t card, Lawful kept Machine.look st := by
  have still {act : Action (Machine ρ) Error} (still : Still kept act) :
      Lawful kept Machine.look ⟨[],act⟩ := fun place stays _ => still place stays
  have one {act : Action (Machine ρ) Error} {path : Text}
      (spares : ∀ place, place ≠ .file path → Spares Machine.look place act) :
      Lawful kept Machine.look ⟨[.file path],act⟩ :=
    fun place _ other => spares place (by simpa using other)
  simp only [stages,List.forall_mem_cons]
  exact ⟨still (packagesStill gentle),one (fun _ => writeSpares),
    writesLawful (autologinLater gentle),one (fun _ => writeSpares),
    writesLawful (udevLater gentle),still (cmdStill gentle),binaryLawful gentle,firewallLawful gentle,
    one (fun _ => configSpares),fun _ stays other => xfceSpares gentle stays other,
    writesLawful (serviceLater gentle),List.forall_mem_nil _⟩

theorem stagesOwn : (stages opts config host t card).flatMap Stage.owns = owned opts host := by
  simp [stages,owned]

theorem stagesApart (apart : Apart opts host) :
    ((stages opts config host t card).flatMap Stage.owns).Nodup := by
  rw [stagesOwn]
  exact apart

def portRule (t : Iptables ρ) (config : Config) : ρ :=
  t.rule (Firewall.ruleArgs config.network.udpPortMin config.network.udpPortMax)

theorem firewallChain (gentle : Gentle kept host) (stays : kept .chain) : ∃ chain,
    (firewall t host config.network.udpPortMin config.network.udpPortMax m).2.look .chain =
      .inr chain ∧ (portRule t config ∈ m.chain ∧ chain = m.chain ∨ portRule t config ∉ m.chain ∧
      (chain = portRule t config::m.chain ∨ chain = m.chain ∧ (firewall t host
        config.network.udpPortMin config.network.udpPortMax m).1 ≠ .ok ())) := by
  have saved (chain : List ρ) (saves : Prop) [Decidable saves] :
      (if saves then saveRules host {m with chain := chain} else {m with chain := chain}).look .chain =
        .inr chain := by
    split
    · exact saveKeeps gentle stays (by simp)
    · rfl
  refine ⟨(Firewall.firewall t config.network.udpPortMin config.network.udpPortMax host.rules
    m.chain).2,saved _ _,?_⟩
  simp only [firewall,Firewall.firewall,portRule]
  by_cases there : t.rule (Firewall.ruleArgs config.network.udpPortMin
    config.network.udpPortMax) ∈ m.chain
  · simp [there]
  · by_cases put : host.rules.inserts = true <;> simp [there,put]

theorem firewallKeeps {chain : List ρ} (gentle : Gentle kept host) (stays : kept .chain)
    (opened : Opened (portRule t config) chain (m.look .chain)) :
    Opened (portRule t config) chain ((firewall t host config.network.udpPortMin
      config.network.udpPortMax m).2.look .chain) := by
  refine openedAgain opened ?_
  obtain ⟨after,shown,how⟩ := @firewallChain ρ config host m _ _ t gentle stays
  rw [shown]
  rcases how with ⟨_,same⟩|⟨absent,put|⟨same,_⟩⟩
  · exact Or.inl (congrArg Sum.inr same)
  · exact Or.inr ⟨absent,congrArg Sum.inr put⟩
  · exact Or.inl (congrArg Sum.inr same)

section Steps
variable {reader : Toml.Reader}

theorem mainCases : (∃ e, main t reader opts host m = (.error e,m)) ∨
    (∃ e, main t reader opts host m = (.error e,(loadModules host m).2)) ∨
    ∃ config card, Config.load reader opts.configPath (m.files opts.configPath) = .ok config ∧
      detectVkmsCard config.capture host = .ok card ∧
      main t reader opts host m = run (stages opts config host t card) (loadModules host m).2 := by
  unfold main
  cases Config.load reader opts.configPath (m.files opts.configPath) with
  | error e => exact Or.inl ⟨e,rfl⟩
  | ok config =>
    simp only [setup]
    cases begin opts host with
    | error e => exact Or.inl ⟨e,rfl⟩
    | ok =>
      cases found : detectVkmsCard config.capture host with
      | error e => exact Or.inr (Or.inl ⟨e,rfl⟩)
      | ok card => exact Or.inr (Or.inr ⟨config,card,rfl,found,rfl⟩)

theorem mainKeeps (P : Option File ⊕ List ρ → Prop) (gentle : Gentle kept host) (stays : kept place)
    (start : P (m.look place))
    (each : ∀ config card u, P (u.look place) →
      Config.load reader opts.configPath (m.files opts.configPath) = .ok config →
      (∀ place, kept place → u.look place = m.look place) →
      P ((run (stages opts config host t card) u).2.look place)) :
    P ((main t reader opts host m).2.look place) := by
  have same (place : Place) (stays : kept place) :
      (loadModules host m).2.look place = m.look place := modulesStill gentle place stays m
  have loads : P ((loadModules host m).2.look place) := (same place stays).symm ▸ start
  rcases @mainCases ρ opts host m _ t reader with ⟨e,ends⟩|⟨e,ends⟩|⟨config,card,loaded,_,ends⟩
  · rw [ends]
    exact start
  · rw [ends]
    exact loads
  · rw [ends]
    exact each config card _ loads loaded same

theorem mainSpares (gentle : Gentle kept host) (stays : kept place)
    (other : place ∉ owned opts host) :
    (main t reader opts host m).2.look place = m.look place := by
  refine mainKeeps (· = m.look place) gentle stays rfl (fun config card u here _ _ => ?_)
  refine (sparedBy (stagesLawful gentle) stays (fun st inside own => other ?_) u).trans here
  rw [← @stagesOwn ρ opts config host _ t card]
  exact List.mem_flatMap.mpr ⟨st,inside,own⟩

theorem configStage : ⟨[.file opts.configPath],writeConfig host opts.configPath config⟩ ∈
    stages opts config host t card := by
  simp only [stages,List.mem_cons,true_or,or_true]

theorem blankStage : ⟨(blankPaths opts host).map .file,attempt (xfceNoBlank host opts.user)⟩ ∈
    stages opts config host t card := by
  simp only [stages,List.mem_cons,true_or,or_true]

theorem binaryStage : ⟨[.file opts.installPath,.file (tmpPath opts.installPath)],binary opts host⟩ ∈
    stages opts config host t card := by
  simp only [stages,List.mem_cons,true_or,or_true]

theorem firewallStage : ⟨[.chain,.file rulesPath],
    firewall t host config.network.udpPortMin config.network.udpPortMax⟩ ∈
      stages opts config host t card := by
  simp only [stages,List.mem_cons,true_or,or_true]

theorem mainGuards {f : File} (gentle : Gentle kept host) (stays : kept (.file path))
    (apart : Apart opts host) (ours : path ∈ guarded opts host) (there : m.files path = some f) :
    (main t reader opts host m).2.files path = some f := by
  have here : m.look (.file path) = .inl (some f) := congrArg Sum.inl there
  have holds : (main t reader opts host m).2.look (.file path) = .inl (some f) := by
    refine mainKeeps (· = .inl (some f)) gentle stays here (fun config card u here _ _ => ?_)
    rcases List.mem_cons.mp ours with same|blank
    · subst same
      exact keepsOwned (· = .inl (some f)) (stagesApart apart) (stagesLawful gentle) stays configStage
        List.mem_cons_self (fun _ => configKeeps) here
    · obtain ⟨inside,name⟩ := List.mem_filter.mp blank
      exact keepsOwned (· = .inl (some f)) (stagesApart apart) (stagesLawful gentle) stays blankStage
        (List.mem_map_of_mem inside) (fun _ => xfceKeeps gentle stays (by simpa using name)) here
  exact Sum.inl.inj holds

theorem mainInstalls (gentle : Gentle kept host) (stays : kept (.file opts.installPath))
    (apart : Apart opts host) : Whole (m.files opts.installPath) host.image
      ((main t reader opts host m).2.look (.file opts.installPath)) := by
  refine mainKeeps (Whole _ _) gentle stays (Or.inl rfl) (fun config card u here _ _ => ?_)
  exact keepsOwned (Whole _ _) (stagesApart apart) (stagesLawful gentle) stays binaryStage
    List.mem_cons_self (fun _ => binaryKeeps gentle stays (tmpApart apart)) here

theorem mainChain (gentle : Gentle kept host) (stays : kept .chain) (apart : Apart opts host)
    (loaded : Config.load reader opts.configPath (m.files opts.configPath) = .ok config) :
    Opened (portRule t config) m.chain ((main t reader opts host m).2.look .chain) := by
  refine mainKeeps (Opened _ _) gentle stays (Or.inl rfl) (fun found card u here again _ => ?_)
  cases Except.ok.inj (loaded.symm.trans again)
  exact keepsOwned (Opened _ _) (stagesApart apart) (stagesLawful gentle) stays firewallStage
    List.mem_cons_self (fun _ => firewallKeeps gentle stays) here

theorem finished (stage : Stage (Machine ρ) Error Place) {f : Option File} (gentle : Gentle kept host)
    (apart : Apart opts host) (stays : kept (.file path))
    (inside : stage ∈ stages opts config host t card) (own : .file path ∈ stage.owns)
    (leaves : ∀ u, u.files path = m.files path → (stage.act u).1 = .ok () →
      (stage.act u).2.files path = f)
    (done : (run (stages opts config host t card) m).1 = .ok ()) :
    (run (stages opts config host t card) m).2.files path = f := by
  obtain ⟨u,before,succeeded,last⟩ := leavesOwned (stagesApart apart) (stagesLawful gentle) stays
    inside own done
  exact (Sum.inl.inj last).trans (leaves u (Sum.inl.inj before) succeeded)

theorem ruleLeft (gentle : Gentle kept host) (apart : Apart opts host) (stays : kept .chain)
    (done : (run (stages opts config host t card) m).1 = .ok ()) :
    portRule t config ∈ (run (stages opts config host t card) m).2.chain := by
  obtain ⟨u,_,succeeded,last⟩ := leavesOwned (stagesApart apart) (stagesLawful gentle) stays
    firewallStage List.mem_cons_self done
  obtain ⟨after,same,how⟩ := @firewallChain ρ config host u _ _ t gentle stays
  have left : (run (stages opts config host t card) m).2.chain = after :=
    Sum.inr.inj (last.trans same)
  rw [left]
  rcases how with ⟨there,same⟩|⟨_,put|⟨_,failed⟩⟩
  · exact same ▸ there
  · exact put ▸ List.mem_cons_self
  · exact absurd succeeded failed

end Steps
end Sections

section Runs
variable {ρ : Type} [DecidableEq ρ]

def again (t : Iptables ρ) (reader : Toml.Reader) (m : Machine ρ) (run : SetupOptions × Host ρ) :
    Option (Machine ρ) := some (main t reader run.1 run.2 m).2

def delivered (opts : SetupOptions) : List Place :=
  [.file xorgConfPath,.file lightdmConfPath,.file modulesConfPath,.file udevRulePath,
    .file opts.installPath,.chain,.file opts.configPath,.file serviceFile]

/- Whatever earlier runs have left behind, a run that succeeds leaves all this in place, made for
the configuration that the server reads afterwards. -/
theorem setupFinishes (t : Iptables ρ) (reader : Toml.Reader) (opts : SetupOptions) (host : Host ρ)
    (m : Machine ρ) (gentle : Gentle (· ∈ delivered opts) host) (apart : Apart opts host)
    (done : (main t reader opts host m).1 = .ok ()) :
    let n := (main t reader opts host m).2
    ∃ before card, Config.load reader opts.configPath (m.files opts.configPath) = .ok before ∧
      detectVkmsCard before.capture host = .ok card ∧
      let config := if (m.files opts.configPath).isSome then before else configured before host
      Config.load reader opts.configPath (n.files opts.configPath) = .ok config ∧
      portRule t config ∈ n.chain ∧
      n.files xorgConfPath = some (.text (xorgConf card config.capture.connector)) ∧
      n.files lightdmConfPath = some (.text (lightdmConf opts.user)) ∧
      n.files modulesConfPath = some (.text (unlines ["vkms","uinput"])) ∧
      n.files udevRulePath = some (.text udevRuleText) ∧
      n.files serviceFile =
        some (.text (serviceUnit opts.user opts.installPath opts.configPath)) ∧
      ((∀ exe, host.exe = .ok exe → host.canonical exe ≠ host.canonical opts.installPath) →
        n.files opts.installPath = some (.binary host.image)) := by
  intro n
  rcases @mainCases ρ opts host m _ t reader with ⟨e,same⟩|⟨e,same⟩|⟨before,card,loaded,found,same⟩
  · rw [same] at done
    contradiction
  · rw [same] at done
    contradiction
  · have end' : n = (run (stages opts before host t card) (loadModules host m).2).2 :=
      congrArg Prod.snd same
    rw [same] at done
    rw [end']
    refine ⟨before,card,loaded,found,?_⟩
    intro config
    have ports : portRule t config = portRule t before := by
      unfold config configured portRule
      split
      · rfl
      · split <;> rfl
    have connector : config.capture.connector = before.capture.connector := by
      unfold config configured
      split
      · rfl
      · split <;> rfl
    refine ⟨?_,ports ▸ ruleLeft gentle apart (by simp [delivered]) done,?_,?_,?_,?_,?_,fun away => ?_⟩
    · have loads : (loadModules host m).2.files opts.configPath = m.files opts.configPath :=
        Sum.inl.inj (modulesStill gentle (.file opts.configPath) (by simp [delivered]) m)
      rw [finished _ gentle apart (by simp [delivered]) configStage List.mem_cons_self
        (fun u start ok => configLeaves start ok) done,loads]
      cases there : m.files opts.configPath with
      | some f => simpa [config,there] using there ▸ loaded
      | none =>
        rw [there] at loaded
        cases Except.ok.inj loaded
        simpa [config,there] using defaultsLoaded
    · rw [connector]
      exact finished ⟨[.file xorgConfPath],desktop before host card⟩ gentle apart
        (by simp [delivered]) (by simp [stages]) List.mem_cons_self (fun u _ ok => writeOk ok) done
    · exact finished ⟨[.file lightdmConfPath],autologin opts host⟩ gentle apart (by simp [delivered])
        (by simp [stages]) List.mem_cons_self (fun u _ ok =>
          writesOk (by simp [delivered]) (autologinLater gentle) ok) done
    · exact finished ⟨[.file modulesConfPath],modules host⟩ gentle apart (by simp [delivered])
        (by simp [stages]) List.mem_cons_self (fun u _ ok => writeOk ok) done
    · exact finished ⟨[.file udevRulePath],udev host⟩ gentle apart (by simp [delivered])
        (by simp [stages]) List.mem_cons_self (fun u _ ok =>
          writesOk (by simp [delivered]) (udevLater gentle) ok) done
    · exact finished ⟨[.file serviceFile],service opts host⟩ gentle apart (by simp [delivered])
        (by simp [stages]) List.mem_cons_self (fun u _ ok =>
          writesOk (by simp [delivered]) (serviceLater gentle) ok) done
    · refine finished _ gentle apart (by simp [delivered]) binaryStage List.mem_cons_self
        (fun u _ ok => ?_) done
      exact binaryOk gentle (by simp [delivered]) (tmpApart apart) away ok

def bare : Machine Text := ⟨fun _ => none,[]⟩

def joins (program : Text) (_ : List Text) (m : Machine Text) : Machine Text :=
  if program = "usermod".toList then
    m.put "/etc/group".toList (some (.text "input:x:106:ubuntu\nvideo:x:44:ubuntu\n".toList))
  else m

def willing : Host Text where
  root := true
  aptGet := true
  passwd := .ok "root:x:0:0::/root:/bin/sh\nubuntu:x:1000:1000::/home/ubuntu:/bin/bash\n".toList
  passwdLater := .ok "ubuntu:x:1000:1000::/home/ubuntu:/bin/bash\n".toList
  byPath := true
  byPathLater := true
  devices := ⟨none,fun _ => .error []⟩
  preseeds := .done
  command := fun _ _ => .done
  effect := joins
  wrote := fun _ => .done
  uinput := true
  exe := .ok "/home/ubuntu/server".toList
  exeLater := .ok "/home/ubuntu/server".toList
  canonical := some
  canonicalLater := some
  image := [127,69,76,70]
  makes := .ok ()
  copied := .done
  permits := .ok ()
  renamed := .ok ()
  rules := ⟨true,true,true,true,true,true⟩
  rulesError := .said []
  rulesFile := none

def crowded : Host Text := {willing with copied := .cut 2 "No space left on device".toList}

def settled : Machine Text :=
  bare.put ({} : SetupOptions).configPath (some (.text (configured {} willing).toCommentedToml))

theorem willingApart : Apart {} willing := by
  unfold Apart
  decide

theorem joinsGentle {host : Host Text} (same : host.effect = joins) :
    Gentle (· ∈ delivered {}) host := by
  intro program args m place inside
  have other : ∀ place ∈ delivered {}, place ≠ .file "/etc/group".toList := by decide
  rw [same,joins]
  split
  · exact putElsewhere (other place inside)
  · rfl

theorem setupFinishesBare :
    let n := (main Firewall.spelled Config.plainReader {} willing bare).2
    n.files xorgConfPath = some (.text (xorgConf vkmsByPath "Virtual-1".toList)) ∧
    Config.load Config.plainReader ({} : SetupOptions).configPath
      (n.files ({} : SetupOptions).configPath) = .ok (configured {} willing) ∧
    n.files "/etc/group".toList = some (.text "input:x:106:ubuntu\nvideo:x:44:ubuntu\n".toList) := by
  have done : (main Firewall.spelled Config.plainReader {} willing bare).1 = .ok () := by decide
  obtain ⟨before,card,loaded,found,same,_,xorg,_⟩ := setupFinishes Firewall.spelled
    Config.plainReader {} willing bare (joinsGentle rfl) willingApart done
  cases Except.ok.inj loaded
  cases Except.ok.inj found
  exact ⟨xorg,same,by decide⟩

end Runs
end Setup
end Vmdesk
