import Vmdesk.ConfigText
import Vmdesk.Display
import Vmdesk.Firewall
import Vmdesk.Stages

/-! The one-time setup of a machine: the files that it writes, its firewall rule and the programs that
it calls. What the machine answers to a run, and what the programs do to it, stands in `Host`. Paths
are written without doubled or trailing slashes. -/
namespace Vmdesk
open LittleEndian (Bytes)
open Firewall (Iptables)

namespace Paths

def fileName (path : Text) : Text := path.rtakeWhile (fun c => c != '/')

def parent (path : Text) : Text :=
  let lead := path.rdropWhile (fun c => c != '/')
  if lead = ['/'] then lead else lead.dropLast

def join (base rel : Text) : Text :=
  if base.isEmpty || base.getLast? = some '/' then base ++ rel else base ++ '/'::rel

/- A dot in front does not start an extension. -/
def withExtension (path extension : Text) : Text :=
  let name := fileName path
  let stem := (name.rdropWhile (fun c => c != '.')).dropLast
  path.take (path.length - name.length) ++ (if stem.isEmpty then name else stem) ++ '.'::extension

end Paths

inductive File where
  | text (t : Text)
  | binary (b : Bytes)
  deriving DecidableEq, Repr

structure Machine (ρ : Type) where
  files : Text → Option File
  chain : List ρ

inductive Place where
  | file (path : Text)
  | chain
  deriving DecidableEq, Repr

def Machine.look {ρ : Type} (m : Machine ρ) : Place → Option File ⊕ List ρ
  | .file path => .inl (m.files path)
  | .chain => .inr m.chain

def Machine.put {ρ : Type} (m : Machine ρ) (path : Text) (file : Option File) : Machine ρ :=
  {m with files := Function.update m.files path file}

structure SetupOptions where
  user : Text := "ubuntu".toList
  configPath : Text := "/etc/vmdesk/config.toml".toList
  skipApt : Bool := false
  installPath : Text := "/usr/local/bin/vmdesk-server".toList
  deriving DecidableEq, Repr

namespace Setup
open Text Paths Stages

def xorgConfPath : Text := "/etc/X11/xorg.conf.d/10-vkms.conf".toList
def lightdmConfPath : Text := "/etc/lightdm/lightdm.conf.d/50-vmdesk.conf".toList
def modulesConfPath : Text := "/etc/modules-load.d/vmdesk.conf".toList
def udevRulePath : Text := "/etc/udev/rules.d/70-vmdesk-uinput.rules".toList
def serviceFile : Text := "/etc/systemd/system/vmdesk.service".toList
def vkmsByPath : Text := "/dev/dri/by-path/platform-vkms-card".toList
def rulesPath : Text := "/etc/iptables/rules.v4".toList

def aptPackages : List String :=
  ["xorg","xserver-xorg-input-libinput","xfce4","xfce4-terminal","lightdm","dbus-x11",
   "x11-xserver-utils","iptables","iptables-persistent","libcap2-bin"]

def unlines (lines : List String) : Text := lines.flatMap (fun l => l.toList ++ ['\n'])

def xorgConf (kmsdev connector : Text) : Text :=
  ["# Generated by `server setup` (vmdesk). Xorg on the vkms virtual display.\n".toList,
   "Section \"Device\"\n".toList,
   "    Identifier \"vkms\"\n".toList,
   "    Driver     \"modesetting\"\n".toList,
   "    Option     \"kmsdev\"      \"".toList ++ kmsdev ++ "\"\n".toList,
   "    Option     \"AccelMethod\" \"none\"\n".toList,
   "EndSection\n".toList,
   "\n".toList,
   "Section \"Monitor\"\n".toList,
   "    Identifier \"".toList ++ connector ++ "\"\n".toList,
   "    Option     \"PreferredMode\" \"1920x1080\"\n".toList,
   "    Option     \"DPMS\" \"false\"\n".toList,
   "EndSection\n".toList,
   "\n".toList,
   "Section \"Screen\"\n".toList,
   "    Identifier   \"Screen0\"\n".toList,
   "    Device       \"vkms\"\n".toList,
   "    Monitor      \"".toList ++ connector ++ "\"\n".toList,
   "    DefaultDepth 24\n".toList,
   "    SubSection \"Display\"\n".toList,
   "        Depth 24\n".toList,
   "        Modes \"1920x1080\"\n".toList,
   "    EndSubSection\n".toList,
   "EndSection\n".toList,
   "\n".toList,
   "Section \"ServerLayout\"\n".toList,
   "    Identifier \"Layout0\"\n".toList,
   "    Screen     \"Screen0\"\n".toList,
   "    Option     \"BlankTime\"   \"0\"\n".toList,
   "    Option     \"StandbyTime\" \"0\"\n".toList,
   "    Option     \"SuspendTime\" \"0\"\n".toList,
   "    Option     \"OffTime\"     \"0\"\n".toList,
   "EndSection\n".toList,
   "\n".toList,
   "Section \"ServerFlags\"\n".toList,
   "    Option \"AutoAddGPU\" \"false\"\n".toList,
   "EndSection\n".toList].flatten

def lightdmConf (user : Text) : Text :=
  ["# Generated by `server setup` (vmdesk).\n".toList,
   "[Seat:*]\n".toList,
   "autologin-user=".toList ++ user ++ "\n".toList,
   "autologin-user-timeout=0\n".toList,
   "autologin-session=xfce\n".toList,
   "user-session=xfce\n".toList].flatten

def udevRuleText : Text := unlines
  ["# Generated by `server setup` (vmdesk): let group input create uinput devices.",
   "KERNEL==\"uinput\", SUBSYSTEM==\"misc\", MODE=\"0660\", GROUP=\"input\", OPTIONS+=\"static_node=uinput\""]

def serviceUnit (user binary config : Text) : Text :=
  ["# Generated by `server setup` (vmdesk).\n".toList,
   "[Unit]\n".toList,
   "Description=vmdesk remote desktop server\n".toList,
   "After=network-online.target lightdm.service\n".toList,
   "Wants=network-online.target\n".toList,
   "\n".toList,
   "[Service]\n".toList,
   "User=".toList ++ user ++ "\n".toList,
   "SupplementaryGroups=input video\n".toList,
   "AmbientCapabilities=CAP_SYS_ADMIN\n".toList,
   "ExecStart=".toList ++ binary ++ " run --config ".toList ++ config ++ "\n".toList,
   "Restart=always\n".toList,
   "RestartSec=2\n".toList,
   "Environment=RUST_LOG=info,webrtc=warn,rtc=warn\n".toList,
   "\n".toList,
   "[Install]\n".toList,
   "WantedBy=multi-user.target\n".toList].flatten

def autostartNoblank : Text := unlines
  ["[Desktop Entry]",
   "Type=Application",
   "Name=vmdesk: disable screen blanking",
   "Exec=sh -c 'xset s off; xset s noblank; xset -dpms'",
   "OnlyShowIn=XFCE;",
   "X-GNOME-Autostart-enabled=true"]

def xfcePowerManagerXml : Text := unlines
  ["<?xml version=\"1.0\" encoding=\"UTF-8\"?>",
   "<channel name=\"xfce4-power-manager\" version=\"1.0\">",
   "  <property name=\"xfce4-power-manager\" type=\"empty\">",
   "    <property name=\"dpms-enabled\" type=\"bool\" value=\"false\"/>",
   "    <property name=\"blank-on-ac\" type=\"int\" value=\"0\"/>",
   "    <property name=\"blank-on-battery\" type=\"int\" value=\"0\"/>",
   "    <property name=\"dpms-on-ac-sleep\" type=\"uint\" value=\"0\"/>",
   "    <property name=\"dpms-on-ac-off\" type=\"uint\" value=\"0\"/>",
   "    <property name=\"lock-screen-suspend-hibernate\" type=\"bool\" value=\"false\"/>",
   "    <property name=\"logind-handle-lid-switch\" type=\"bool\" value=\"false\"/>",
   "  </property>",
   "</channel>"]

def xfceScreensaverXml : Text := unlines
  ["<?xml version=\"1.0\" encoding=\"UTF-8\"?>",
   "<channel name=\"xfce4-screensaver\" version=\"1.0\">",
   "  <property name=\"saver\" type=\"empty\">",
   "    <property name=\"enabled\" type=\"bool\" value=\"false\"/>",
   "    <property name=\"idle-activation\" type=\"empty\">",
   "      <property name=\"enabled\" type=\"bool\" value=\"false\"/>",
   "    </property>",
   "  </property>",
   "  <property name=\"lock\" type=\"empty\">",
   "    <property name=\"enabled\" type=\"bool\" value=\"false\"/>",
   "  </property>",
   "</channel>"]

inductive Error where
  | said (texts : List Text)
  | noCard (context : Text) (cause : CardError)
  deriving DecidableEq, Repr

inductive Ran where
  | done
  | failed (status stderr : Text)
  | notRun (cause : Text)
  deriving DecidableEq, Repr

/- What becomes of a file that is written: one that fails on the way is left as far as it got. -/
inductive Wrote where
  | done
  | noDirectory (cause : Text)
  | refused (cause : Text)
  | cut (n : Nat) (cause : Text)
  deriving DecidableEq, Repr

/- What a run finds on the machine and what its calls come to. Where it looks twice it may find
something else the second time. `effect` is what a program changes when it is called, also if it
fails. -/
structure Host (ρ : Type) where
  root : Bool
  aptGet : Bool
  passwd : Except Text Text
  passwdLater : Except Text Text
  byPath : Bool
  byPathLater : Bool
  devices : Drm.Devices
  preseeds : Ran
  command : Text → List Text → Ran
  effect : Text → List Text → Machine ρ → Machine ρ
  wrote : Text → Wrote
  uinput : Bool
  exe : Except Text Text
  exeLater : Except Text Text
  canonical : Text → Option Text
  canonicalLater : Text → Option Text
  image : Bytes
  makes : Except Text Unit
  copied : Wrote
  permits : Except Text Unit
  renamed : Except Text Unit
  rules : Firewall.Outcomes
  rulesError : Error
  rulesFile : Option File

section
variable {ρ : Type}

def succeed : Action (Machine ρ) Error := fun m => (.ok (),m)

def ofExcept (r : Except Error Unit) : Action (Machine ρ) Error := fun m => (r,m)

def cmd (host : Host ρ) (program : String) (args : List Text) : Action (Machine ρ) Error := fun m =>
  let line := program.toList ++ ' '::Text.join [' '] args
  let after := host.effect program.toList args m
  match host.command program.toList args with
  | .done => (.ok (),after)
  | .failed status stderr =>
      (.error (.said [line ++ " failed (".toList ++ status ++ "): ".toList ++ stderr]),after)
  | .notRun cause => (.error (.said ["running ".toList ++ line,cause]),m)

def words (args : List String) : List Text := args.map String.toList

def userExists (user : Text) (passwd : Except Text Text) : Except Error Unit := match passwd with
  | .error cause => .error (.said ["reading /etc/passwd".toList,cause])
  | .ok text =>
    if (lines text).any (fun l => (l.splitOn ':').head? == some user) then .ok ()
    else .error (.said ["user ".toList ++ user ++ " does not exist (use --user <name>)".toList])

def homeDir (user : Text) (passwd : Except Text Text) : Except Error Text := match passwd with
  | .error cause => .error (.said [cause])
  | .ok text =>
    match ((lines text).map (fun l => l.splitOn ':')).find?
      (fun fields => fields.head? == some user && 6 ≤ fields.length) with
    | some fields => .ok (fields.getD 5 [])
    | none => .error (.said ["no home directory for ".toList ++ user])

def writeFile (host : Host ρ) (path content : Text) : Action (Machine ρ) Error := fun m =>
  let failed := fun cause => Except.error (Error.said ["writing ".toList ++ path,cause])
  match host.wrote path with
  | .done => (.ok (),m.put path (some (.text content)))
  | .noDirectory cause => (.error (.said ["creating ".toList ++ parent path,cause]),m)
  | .refused cause => (failed cause,m)
  | .cut n cause => (failed cause,m.put path (some (.text (content.take n))))

def detectVkmsCard (capture : Capture) (host : Host ρ) : Except Error Text :=
  if host.byPath then .ok vkmsByPath
  else match findCard host.devices capture.card capture.connector with
    | .ok card => .ok card.path
    | .error e =>
      .error (.noCard "vkms card not found; is the module loaded? (modprobe vkms)".toList e)

def preseed (host : Host ρ) : Action (Machine ρ) Error := fun m =>
  let after := host.effect "debconf-set-selections".toList [] m
  match host.preseeds with
  | .done => (.ok (),after)
  -- Its input cannot be written; how it ends is not looked at.
  | .failed _ cause => (.error (.said [cause]),after)
  | .notRun cause => (.error (.said ["running debconf-set-selections".toList,cause]),m)

def installPackages (host : Host ρ) : Action (Machine ρ) Error := perform
  [preseed host,cmd host "apt-get" (words ["update"]),
   cmd host "apt-get" (words (["install","-y"] ++ aptPackages))]

def failsWith (context : List Text) (r : Except Text Unit) : Except Error Unit :=
  r.mapError (fun cause => .said (context ++ [cause]))

def copy (host : Host ρ) (exe tmp : Text) : Action (Machine ρ) Error := fun m =>
  let failed := fun cause => Except.error (Error.said
    ["copying ".toList ++ exe ++ " to ".toList ++ tmp,cause])
  match host.copied with
  | .done => (.ok (),m.put tmp (some (.binary host.image)))
  | .noDirectory cause | .refused cause => (failed cause,m)
  | .cut n cause => (failed cause,m.put tmp (some (.binary (host.image.take n))))

def rename (host : Host ρ) (tmp dest : Text) : Action (Machine ρ) Error := fun m =>
  match failsWith ["installing ".toList ++ dest] host.renamed with
  | .error e => (.error e,m)
  | .ok () => (.ok (),(m.put dest (m.files tmp)).put tmp none)

def tmpPath (dest : Text) : Text := withExtension dest "tmp".toList

/- The binary is copied beside its place first. -/
def installBinary (host : Host ρ) (dest : Text) : Action (Machine ρ) Error := match host.exe with
  | .error cause => ofExcept (.error (.said ["locating this binary".toList,cause]))
  | .ok exe =>
    if host.canonical exe = host.canonical dest then succeed
    else perform [ofExcept (failsWith [] host.makes),copy host exe (tmpPath dest),
      ofExcept (failsWith [] host.permits),rename host (tmpPath dest) dest]

def setcap (host : Host ρ) (path : Text) : Action (Machine ρ) Error :=
  cmd host "setcap" ["cap_sys_admin+ep".toList,path]

/- The rules are saved by the program that restores them, or else in a file. -/
def saveRules (host : Host ρ) (m : Machine ρ) : Machine ρ :=
  if host.rules.hasPersistent then host.effect "netfilter-persistent".toList (words ["save"]) m
  else (host.effect "iptables-save".toList [] m).put rulesPath host.rulesFile

def firewall [DecidableEq ρ] (t : Iptables ρ) (host : Host ρ) (min max : UInt16) :
    Action (Machine ρ) Error := fun m =>
  let (ok,chain) := Firewall.firewall t min max host.rules m.chain
  let m := {m with chain := chain}
  (if ok then .ok () else .error host.rulesError,
    if t.rule (Firewall.ruleArgs min max) ∈ chain then saveRules host m else m)

/- The configuration that is written: the card by the path that stays. -/
def configured (config : Config) (host : Host ρ) : Config :=
  if host.byPathLater then {config with capture := {config.capture with card := vkmsByPath}} else config

def writeConfig (host : Host ρ) (path : Text) (config : Config) : Action (Machine ρ) Error := fun m =>
  if (m.files path).isSome then (.ok (),m)
  else writeFile host path (configured config host).toCommentedToml m

def noblankName : Text := "vmdesk-noblank.desktop".toList

def homeFiles (home : Text) : List (Text × Text) :=
  [(join home ".config/autostart/vmdesk-noblank.desktop".toList,autostartNoblank),
   (join home ".config/xfce4/xfconf/xfce-perchannel-xml/xfce4-power-manager.xml".toList,
     xfcePowerManagerXml),
   (join home ".config/xfce4/xfconf/xfce-perchannel-xml/xfce4-screensaver.xml".toList,
     xfceScreensaverXml)]

def blankFile (host : Host ρ) (file : Text × Text) : Action (Machine ρ) Error := fun m =>
  if (m.files file.1).isSome && fileName file.1 != noblankName then (.ok (),m)
  else writeFile host file.1 file.2 m

def xfceNoBlank (host : Host ρ) (user : Text) : Action (Machine ρ) Error :=
  match homeDir user host.passwdLater with
  | .error e => ofExcept (.error e)
  | .ok home => perform ((homeFiles home).map (blankFile host) ++
      [cmd host "chown" ["-R".toList,user ++ ':'::user,join home ".config".toList]])

def blankPaths (opts : SetupOptions) (host : Host ρ) : List Text :=
  (homeDir opts.user host.passwdLater).toOption.elim [] (fun home => (homeFiles home).map Prod.fst)

section Sections
variable (opts : SetupOptions) (config : Config) (host : Host ρ)

def packages : Action (Machine ρ) Error := if opts.skipApt then succeed else installPackages host

def desktop (card : Text) : Action (Machine ρ) Error :=
  writeFile host xorgConfPath (xorgConf card config.capture.connector)

def autologin : Action (Machine ρ) Error := perform
  [writeFile host lightdmConfPath (lightdmConf opts.user),
   cmd host "systemctl" (words ["set-default","graphical.target"]),
   cmd host "systemctl" (words ["enable","lightdm"])]

def modules : Action (Machine ρ) Error := writeFile host modulesConfPath (unlines ["vkms","uinput"])

def udev : Action (Machine ρ) Error := perform
  [writeFile host udevRulePath udevRuleText,
   attempt (cmd host "udevadm" (words ["control","--reload-rules"])),
   attempt (cmd host "udevadm" (words ["trigger","--name-match=uinput"])),
   if host.uinput then perform [attempt (cmd host "chgrp" (words ["input","/dev/uinput"])),
     attempt (cmd host "chmod" (words ["0660","/dev/uinput"]))] else succeed]

def groups : Action (Machine ρ) Error :=
  cmd host "usermod" (words ["-aG","input,video"] ++ [opts.user])

def binary : Action (Machine ρ) Error := perform
  [installBinary host opts.installPath,setcap host opts.installPath,
   match host.exeLater with
   | .error _ => succeed
   | .ok exe => if host.canonicalLater exe = host.canonicalLater opts.installPath then succeed
     else attempt (setcap host exe)]

def service : Action (Machine ρ) Error := perform
  [writeFile host serviceFile (serviceUnit opts.user opts.installPath opts.configPath),
   cmd host "systemctl" (words ["daemon-reload"]),
   cmd host "systemctl" (words ["enable","vmdesk"]),
   cmd host "systemctl" (words ["restart","vmdesk"])]

def stages [DecidableEq ρ] (t : Iptables ρ) (card : Text) : List (Stage (Machine ρ) Error Place) :=
  [⟨[],packages opts host⟩,
   ⟨[.file xorgConfPath],desktop config host card⟩,
   ⟨[.file lightdmConfPath],autologin opts host⟩,
   ⟨[.file modulesConfPath],modules host⟩,
   ⟨[.file udevRulePath],udev host⟩,
   ⟨[],groups opts host⟩,
   ⟨[.file opts.installPath,.file (tmpPath opts.installPath)],binary opts host⟩,
   ⟨[.chain,.file rulesPath],firewall t host config.network.udpPortMin config.network.udpPortMax⟩,
   ⟨[.file opts.configPath],writeConfig host opts.configPath config⟩,
   ⟨(blankPaths opts host).map .file,attempt (xfceNoBlank host opts.user)⟩,
   ⟨[.file serviceFile],service opts host⟩]

def begin : Except Error Unit :=
  if !host.root then .error (.said ["setup must run as root: sudo ./server setup".toList])
  else if !host.aptGet then .error (.said ["setup expects Ubuntu/Debian (apt-get not found)".toList])
  else userExists opts.user host.passwd

def loadModules : Action (Machine ρ) Error := perform
  [attempt (cmd host "modprobe" (words ["vkms"])),attempt (cmd host "modprobe" (words ["uinput"]))]

def setup [DecidableEq ρ] (t : Iptables ρ) : Action (Machine ρ) Error := fun m =>
  match begin opts host with
  | .error e => (.error e,m)
  | .ok () =>
    let m := (loadModules host m).2
    match detectVkmsCard config.capture host with
    | .error e => (.error e,m)
    | .ok card => run (stages opts config host t card) m

end Sections
end
end Setup

/- A file that is not there stands for the defaults. -/
def Config.load (reader : Toml.Reader) (path : Text) (file : Option File) :
    Except Setup.Error Config := match file with
  | none => .ok {}
  | some (.binary _) => .error (.said ["reading ".toList ++ path])
  | some (.text text) => match fromToml reader text with
    | none => .error (.said ["parsing ".toList ++ path])
    | some config => match config.validate with
      | .error e => .error (.said [e.toList])
      | .ok () => .ok config

/- `server setup` -/
def Setup.main {ρ : Type} [DecidableEq ρ] (t : Iptables ρ) (reader : Toml.Reader)
    (opts : SetupOptions) (host : Host ρ) : Stages.Action (Machine ρ) Error := fun m =>
  match Config.load reader opts.configPath (m.files opts.configPath) with
  | .error e => (.error e,m)
  | .ok config => setup opts config host t m

end Vmdesk
