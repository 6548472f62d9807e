import Vmdesk.AccessUnit
import Vmdesk.Answers
import Vmdesk.EncoderInput
import Vmdesk.Firewall
import Vmdesk.FrameCoherence
import Vmdesk.Setup
import Vmdesk.WaitForDisplay

/-! What doctor finds on a machine, and what that says about a server started there. How values are
spelled for debugging is not looked into, and neither is how long a call has taken. -/
namespace Vmdesk
open Drm

/- How a message spells what is not text. -/
structure Spelling where
  names : List Text → Text
  handle : UInt32 → Text
  format : DrmFourcc → Text
  capture : CaptureError → Text

def Seen.text (spelling : Spelling) : Seen → Text
  | .notOpened path cause => path ++ ": opening ".toList ++ path ++ ": ".toList ++ cause
  | .card path driver connectors => path ++ ": driver ".toList ++ driver ++
      ", connectors ".toList ++ spelling.names connectors

def CardError.text (spelling : Spelling) : CardError → Text
  | .notOpened path cause => "opening ".toList ++ path ++ ": ".toList ++ cause
  | .noNodes =>
      "no /dev/dri/card* nodes found: is the vkms module loaded? (sudo modprobe vkms)".toList
  | .notFound connector seen => "no DRM card with driver vkms or connector ".toList ++ connector ++
      " found. Cards seen:\n  ".toList ++ Text.join "\n  ".toList (seen.map (Seen.text spelling))

def DisplayState.text (spelling : Spelling) : DisplayState → Text
  | .noConnector wanted path names => "connector ".toList ++ wanted ++ " not found on ".toList ++
      path ++ "; connectors present: ".toList ++ spelling.names names
  | .inactive name => "connector ".toList ++ name ++
      " has no active CRTC (no X server / mode set yet)".toList
  | .noFramebuffer name => "CRTC of ".toList ++ name ++
      " has no framebuffer (nothing scanned out yet)".toList
  | .noPlane name => "no primary plane attached to the CRTC of ".toList ++ name
  | .call context cause => context.toList ++ ": ".toList ++ cause
  | .callOn context handle cause => context.toList ++ " ".toList ++ spelling.handle handle ++
      ": ".toList ++ cause

namespace Doctor
open Text Metadata
open Firewall (Check Output pass warn fail checkIptables contains)
open Pipeline (EncoderSettings EncodedFrame)

/- What doctor meets on the machine: which paths exist, what files and commands hold, what the
kernel, the metadata service, the signalling port and the encoder library answer. -/
structure Environment where
  exe : Option Text
  present : Text → Bool
  devices : Devices
  kernel : Kernel
  calls : Calls
  captureTime : Text
  euid : UInt32
  status : Option Text
  uinput : Except Text Unit
  userVariable : Option Text
  idUser : Option Text
  group : Option Text
  runtime : Except Text Unit
  metadata : Except Text Response
  iptables : Output
  listens : Bool
  response : Text → Text
  systemctl : Text → Option Text
  created : Int
  null : Bool
  initialized : Bool
  encoded : Int
  info : OpenH264.FrameInfo
  encodeTime : Text

/- `u64::from_str_radix(s, 16)` -/
def fromStrRadix16 (s : Text) : Option UInt64 :=
  match Digits.readNumber 16 none true (2^64) ((stripPrefix ['+'] s).getD s) with
  | some (n,[]) => some (UInt64.ofNat n)
  | _ => none

def capSysAdminBit : UInt64 := 21

def checkVkmsModule (env : Environment) : Check :=
  if env.present "/sys/module/vkms".toList then pass "vkms module".toList "loaded".toList
  else fail "vkms module".toList "not loaded".toList
    "sudo modprobe vkms   (persisted by `sudo ./server setup` via /etc/modules-load.d/vmdesk.conf)".toList

section
variable (spelling : Spelling)

def checkVkmsCard (config : Config) (env : Environment) : Check × Option Card :=
  match findCard env.devices config.capture.card config.capture.connector with
  | .ok card => (pass "vkms card".toList (card.path ++ " (driver ".toList ++ FindCard.driver card ++
      ", connectors ".toList ++ spelling.names (FindCard.connectors card) ++ ")".toList),some card)
  | .error e => (fail "vkms card".toList (e.text spelling)
      "sudo modprobe vkms; if another DRM device is present set capture.card in the config".toList,none)

def captured (frame : CapturedFrame) (time : Text) : Text :=
  (s!"{frame.width}x{frame.height} ").toList ++ spelling.format frame.format ++
    (s!" pitch {frame.pitch} in ").toList ++ time ++ " ms".toList

def checkDisplayAndCapture (env : Environment) (card : Card) (connector : Text) : List Check :=
  match locateDisplay card connector with
  | .error e => [fail "Xorg on vkms".toList (e.text spelling)
      ("Is the desktop up? systemctl status lightdm; journalctl -u lightdm -b; " ++
        "grep -E '\\(EE\\)|vkms' /var/log/Xorg.0.log\n" ++
        "After `sudo ./server setup` a reboot is needed once.").toList]
  | .ok display =>
      [pass "Xorg on vkms".toList (connector ++
        (s!" active, {display.width}x{display.height}@{display.refresh}Hz").toList),
       match ((FrameSource.new display.toDisplayInfo).capture env.kernel env.calls).1 with
       | .ok frame => pass "framebuffer capture".toList (captured spelling frame env.captureTime)
       | .error e => fail "framebuffer capture".toList (spelling.capture e)
          ("GETFB2 needs CAP_SYS_ADMIN: sudo setcap cap_sys_admin+ep <this binary>, " ++
            "or run `sudo ./server setup`").toList]
end

def capEff (status : Text) : UInt64 :=
  (((lines status).findSome? (stripPrefix "CapEff:".toList)).bind
    (fun v => fromStrRadix16 (trim v))).getD 0

def checkCapability (env : Environment) : Check :=
  if env.euid = 0 then pass "CAP_SYS_ADMIN".toList "running as root".toList
  else if capEff (env.status.getD []) &&& ((1 : UInt64) <<< capSysAdminBit) ≠ 0
  then pass "CAP_SYS_ADMIN".toList "effective (file capability)".toList
  else fail "CAP_SYS_ADMIN".toList "not in the effective capability set".toList
    ("sudo setcap cap_sys_admin+ep ".toList ++ env.exe.getD "./server".toList ++
      "   (the systemd service gets it via AmbientCapabilities)".toList)

def checkUinput (env : Environment) : Check :=
  if !env.present "/dev/uinput".toList then fail "/dev/uinput".toList "missing".toList
    "sudo modprobe uinput   (persisted by setup via /etc/modules-load.d/vmdesk.conf)".toList
  else match env.uinput with
    | .ok _ => pass "/dev/uinput".toList "writable".toList
    | .error e => fail "/dev/uinput".toList ("not writable: ".toList ++ e)
        ("sudo ./server setup installs ".toList ++ Setup.udevRulePath ++
          " and adds you to group input; re-login afterwards.\n".toList ++
          "Quick fix: sudo chgrp input /dev/uinput && sudo chmod 660 /dev/uinput".toList)

def currentUser (env : Environment) : Option Text := env.userVariable.or (env.idUser.map trim)

def member (groups user group : Text) : Bool := (lines groups).any (fun l =>
  let f := l.splitOn ':'
  f.head? == some group && f[3]?.elim false (fun m => (m.splitOn ',').any (fun u => u == user)))

def checkGroups (env : Environment) : Check :=
  if env.euid = 0 then pass "groups".toList "root (group membership not needed)".toList
  else
    let user := (currentUser env).getD []
    let groups := env.group.getD []
    let missing := ["input".toList,"video".toList].filter (fun g => !member groups user g)
    if missing.isEmpty then pass "groups".toList (user ++ " is in input and video".toList)
    else warn "groups".toList (user ++ " is not in ".toList ++ join ", ".toList missing)
      ("sudo usermod -aG input,video ".toList ++ user ++ "; then log out and in again".toList)

def checkXorgConf (env : Environment) : Check :=
  if env.present Setup.xorgConfPath then
    pass "xorg.conf.d".toList (Setup.xorgConfPath ++ " present".toList)
  else warn "xorg.conf.d".toList (Setup.xorgConfPath ++ " missing".toList) "sudo ./server setup".toList

section
variable (fromStr : Text → Option Json.Value) (config : Config) (env : Environment)

def checkPublicIp : Check :=
  if !config.network.publicIp.isEmpty then
    pass "public IP".toList (config.network.publicIp ++ " (config)".toList)
  else match env.runtime with
    | .error e => fail "public IP".toList ("runtime error: ".toList ++ e) "retry".toList
    | .ok _ => match detectPublicIp fromStr env.metadata with
        | .ok ip => pass "public IP".toList (ip ++ " (OCI metadata)".toList)
        | .error e => fail "public IP".toList e
            ("set network.public_ip = \"<VM public IP>\" in /etc/vmdesk/config.toml " ++
              "and restart vmdesk").toList

def checkSignallingPort : Check :=
  let addr := config.network.signallingAddr.display
  if !env.listens then
    pass "signalling port".toList (addr ++ " free (server not running)".toList)
  else
    let body := env.response ("GET /health HTTP/1.1\r\nHost: ".toList ++ addr ++
      "\r\nConnection: close\r\n\r\n".toList)
    if contains body "vmdesk".toList && "HTTP/1.1 200".toList.isPrefixOf body then
      pass "signalling port".toList (addr ++ ": vmdesk server is running".toList)
    else fail "signalling port".toList (addr ++ " is used by another program".toList)
      "stop that program or change network.signalling_addr (and the ssh -L port)".toList

def checkService : Check :=
  let state (arg : String) : Text := ((env.systemctl arg.toList).map trim).getD "unknown".toList
  let active := state "is-active"
  let enabled := state "is-enabled"
  let detail := "active: ".toList ++ active ++ ", enabled: ".toList ++ enabled
  if active = "active".toList ∧ enabled = "enabled".toList then pass "systemd service".toList detail
  else warn "systemd service".toList detail
    ("sudo ./server setup   or   sudo systemctl enable --now vmdesk; " ++
      "journalctl -u vmdesk -b").toList

def trial : EncoderSettings := ⟨1920,1080,30,12000,600,0⟩

def checkEncoder : Check :=
  match OpenH264Encoder.new trial env.created env.null env.initialized with
  | .error e => fail "encoder".toList e.toList "report this: OpenH264 failed to initialise".toList
  | .ok _ => match OpenH264Encoder.encode trial (.new 1920 1080) 0 env.encoded env.info with
      | .ok (some out) => pass "encoder".toList
          ((s!"OpenH264 1080p keyframe {out.data.length} bytes in ").toList ++ env.encodeTime ++
            " ms".toList)
      | .ok none => fail "encoder".toList "no output for a forced keyframe".toList "report this".toList
      | .error e => fail "encoder".toList e.toList "report this".toList

variable (spelling : Spelling)

def checks : List Check :=
  let (card,found) := checkVkmsCard spelling config env
  [checkVkmsModule env,card] ++
    found.elim [] (fun card => checkDisplayAndCapture spelling env card config.capture.connector) ++
    [checkCapability env,checkUinput env,checkGroups env,checkXorgConf env,
     checkPublicIp fromStr config env,
     checkIptables config.network.udpPortMin config.network.udpPortMax env.iptables,
     checkSignallingPort config env,checkService env,checkEncoder env]

def tag : Firewall.Status → Text
  | .pass => "PASS".toList
  | .warn => "WARN".toList
  | .fail => "FAIL".toList

/- `println!("{tag}  {:<22} {}", c.name, c.detail)`, and a line for each line of the fix. -/
def printed (c : Check) : List Text :=
  (tag c.status ++ "  ".toList ++ c.name.rightpad 22 ' ' ++ " ".toList ++ c.detail) ::
    (c.fix.elim [] lines).map (fun line => "      fix: ".toList ++ line)

def run : List Text × Bool :=
  let checks := checks fromStr config env spelling
  let failures := checks.countP (fun c => c.status = .fail)
  (checks.flatMap printed ++ [[],if failures = 0 then "All checks passed.".toList
    else (s!"{failures} check(s) failed.").toList],failures == 0)
end

/- What the kernel prints about a process: a line for each field, the effective set in sixteen
digits. -/
def capDigits (mask : UInt64) : Text := (Nat.toDigits 16 mask.toNat).leftpad 16 '0'

def capLine (mask : UInt64) : Text := "CapEff:\t".toList ++ capDigits mask

structure ProcStatus where
  before : List Text
  mask : UInt64
  after : List Text
  apart : ∀ line ∈ before, ¬ "CapEff:".toList <+: line
  unbroken : ∀ line ∈ before ++ after, '\n' ∉ line ∧ '\r' ∉ line

def ProcStatus.lines (p : ProcStatus) : List Text := p.before ++ capLine p.mask::p.after

def ProcStatus.text (p : ProcStatus) : Text := p.lines.flatMap (fun line => line ++ ['\n'])

section Capability

theorem linesPrinted {ls : List Text} (unbroken : ∀ line ∈ ls, '\n' ∉ line ∧ '\r' ∉ line) :
    lines (ls.flatMap (fun line => line ++ ['\n'])) = ls := by
  have flat : ∀ line ∈ ls, '\n' ∉ line := fun line own => (unbroken line own).1
  have pieces := Sdp.splitLines [] flat (by simp)
  simp only [List.nil_append,List.append_nil,List.map_id'] at pieces
  have bare (line : Text) (own : line ∈ ls) : (stripSuffixChar '\r' line).getD line = line := by
    have last : line.getLast? ≠ some '\r' := fun ret => (unbroken line own).2 (List.mem_of_getLast? ret)
    simp [stripSuffixChar,last]
  unfold lines
  simp only [pieces,List.dropLast_concat,List.getLast?_concat]
  simpa using (List.map_congr_left (g := id) bare).trans (List.map_id ls)

theorem capSolid {mask : UInt64} {c : Char} (inside : c ∈ capDigits mask) :
    isWhitespace c = false ∧ c ≠ '\n' ∧ c ≠ '\r' ∧ c ≠ '+' := by
  have digit : Digits.toDigit 16 c ≠ none := by
    rcases List.mem_append.mp inside with front|back
    · cases (List.mem_replicate.mp front).2
      decide
    · exact (Digits.writtenDigits (by decide) (by decide) _).digits c back
  have range := Digits.digitRange digit
  refine ⟨?_,?_,?_,?_⟩
  · simp [isWhitespace]
    omega
  all_goals
    intro same
    rw [same] at range
    revert range
    decide

theorem capLineUnbroken (mask : UInt64) : '\n' ∉ capLine mask ∧ '\r' ∉ capLine mask := by
  have apart (c : Char) (lead : c ∉ "CapEff:\t".toList) (digits : c ∉ capDigits mask) :
      c ∉ capLine mask :=
    fun inside => (List.mem_append.mp inside).elim lead digits
  exact ⟨apart _ (by decide) (fun inside => (capSolid inside).2.1 rfl),
    apart _ (by decide) (fun inside => (capSolid inside).2.2.1 rfl)⟩

theorem trimTabbed {s : Text} (solid : ∀ c ∈ s, isWhitespace c = false) : trim ('\t'::s) = s := by
  have front : s.dropWhile isWhitespace = s :=
    List.dropWhile_eq_self_iff.mpr (fun filled => by simp [solid _ (List.getElem_mem filled)])
  have back : s.rdropWhile isWhitespace = s :=
    List.rdropWhile_eq_self_iff.mpr (fun filled => by simp [solid _ (List.getLast_mem filled)])
  have tab : isWhitespace '\t' = true := by decide
  rw [trim,List.dropWhile_cons_of_pos tab,front,trimEnd,back]

theorem radixPrinted (mask : UInt64) : fromStrRadix16 (capDigits mask) = some mask := by
  have plain : stripPrefix ['+'] (capDigits mask) = none := by
    refine if_neg (fun lead => ?_)
    obtain ⟨rest,same⟩ := List.isPrefixOf_iff_prefix.mp lead
    have first : '+' ∈ capDigits mask := by simp [← same]
    exact (capSolid first).2.2.2 rfl
  have stops : Digits.Stops 16 [] := fun _ none => nomatch none
  have read := Digits.readPadded (16 - (Nat.toDigits 16 mask.toNat).length) (by decide) (by decide)
    mask.toNat_lt stops
  rw [List.append_nil] at read
  have read : Digits.readNumber 16 none true (2^64) (capDigits mask) = some (mask.toNat,[]) := read
  rw [fromStrRadix16,plain,Option.getD_none,read]
  simp

theorem capEffPrinted (p : ProcStatus) : capEff p.text = p.mask := by
  have unbroken : ∀ line ∈ p.lines, '\n' ∉ line ∧ '\r' ∉ line := by
    intro line inside
    simp only [ProcStatus.lines,List.mem_append,List.mem_cons] at inside
    rcases inside with front|same|back
    · exact p.unbroken line (List.mem_append_left _ front)
    · rw [same]
      exact capLineUnbroken p.mask
    · exact p.unbroken line (List.mem_append_right _ back)
  have skipped : p.before.findSome? (stripPrefix "CapEff:".toList) = none := by
    refine List.findSome?_eq_none_iff.mpr (fun line inside => ?_)
    exact if_neg (fun lead => p.apart line inside (List.isPrefixOf_iff_prefix.mp lead))
  have own : stripPrefix "CapEff:".toList (capLine p.mask) = some ('\t'::capDigits p.mask) :=
    stripPrefixSome.mpr rfl
  have found : p.lines.findSome? (stripPrefix "CapEff:".toList) = some ('\t'::capDigits p.mask) := by
    rw [ProcStatus.lines,List.findSome?_append,skipped,List.findSome?_cons,own]
    rfl
  have printed : lines p.text = p.lines := linesPrinted unbroken
  rw [capEff,printed,found,Option.bind_some,trimTabbed (fun c inside => (capSolid inside).1),
    radixPrinted,Option.getD_some]

end Capability

section Verdict
variable {fromStr : Text → Option Json.Value} {config : Config} {env : Environment}
variable {spelling : Spelling}

theorem passedExact : (run fromStr config env spelling).2 = true ↔
    ∀ c ∈ checks fromStr config env spelling, c.status ≠ .fail := by
  change (List.countP _ (checks fromStr config env spelling) == 0) = true ↔ _
  simp only [beq_iff_eq,List.countP_eq_zero,decide_eq_true_eq,ne_eq]

theorem cardChecked : (checkVkmsCard spelling config env).1 ∈ checks fromStr config env spelling :=
  List.mem_append_left _ (List.mem_append_left _ (List.mem_cons_of_mem _ List.mem_cons_self))

theorem displayChecked {card : Card} (found : (checkVkmsCard spelling config env).2 = some card)
    {c : Check} (inside : c ∈ checkDisplayAndCapture spelling env card config.capture.connector) :
    c ∈ checks fromStr config env spelling := by
  refine List.mem_append_left _ (List.mem_append_right _ ?_)
  change c ∈ (checkVkmsCard spelling config env).2.elim [] _
  rw [found]
  exact inside

theorem restChecked {c : Check} (inside : c ∈ [checkCapability env,checkUinput env,checkGroups env,
    checkXorgConf env,checkPublicIp fromStr config env,
    checkIptables config.network.udpPortMin config.network.udpPortMax env.iptables,
    checkSignallingPort config env,checkService env,checkEncoder env]) :
    c ∈ checks fromStr config env spelling :=
  List.mem_append_right _ inside

theorem encoderPasses {e : OpenH264Encoder} {out : EncodedFrame}
    (created : OpenH264Encoder.new trial env.created env.null env.initialized = .ok e)
    (fits : OpenH264Encoder.checkFrame trial (.new 1920 1080) = .ok ()) (called : env.encoded = 0)
    (unit : env.info.accessUnit 0 = some out) : (checkEncoder env).status = .pass := by
  have coded : OpenH264Encoder.encode trial (.new 1920 1080) 0 env.encoded env.info = .ok (some out) := by
    rw [called,OpenH264Encoder.encodeFits fits,unit]
  unfold checkEncoder
  -- the planes of the frame are too long to be looked at
  generalize OpenH264Encoder.encode trial (.new 1920 1080) 0 env.encoded env.info = result at coded ⊢
  rw [created,coded]
  rfl

variable (fromStr config env spelling) in
theorem encoderLast : ∃ front, checks fromStr config env spelling = front ++ [checkEncoder env] :=
  ⟨_,(List.append_assoc _ [checkCapability env,checkUinput env,checkGroups env,checkXorgConf env,
    checkPublicIp fromStr config env,
    checkIptables config.network.udpPortMin config.network.udpPortMax env.iptables,
    checkSignallingPort config env,checkService env] [checkEncoder env]).symm⟩

structure Shows (config : Config) (env : Environment) (card : Card) (display : ActiveDisplay)
    (frame : CapturedFrame) : Prop where
  found : findCard env.devices config.capture.card config.capture.connector = .ok card
  located : locateDisplay card config.capture.connector = .ok display
  captured : ((FrameSource.new display.toDisplayInfo).capture env.kernel env.calls).1 = .ok frame

theorem cardFound (passes : (checkVkmsCard spelling config env).1.status ≠ .fail) : ∃ card,
    findCard env.devices config.capture.card config.capture.connector = .ok card ∧
    (checkVkmsCard spelling config env).2 = some card := by
  unfold checkVkmsCard at passes ⊢
  split at passes
  · next card found => exact ⟨card,found,rfl⟩
  · exact absurd rfl passes

theorem displayShown {card : Card}
    (found : findCard env.devices config.capture.card config.capture.connector = .ok card)
    (pass' : ∀ c ∈ checkDisplayAndCapture spelling env card config.capture.connector, c.status ≠ .fail) :
    ∃ display frame, Shows config env card display frame := by
  unfold checkDisplayAndCapture at pass'
  split at pass'
  · exact absurd rfl (pass' _ List.mem_cons_self)
  · next display located =>
    have last := pass' _ (List.mem_cons_of_mem _ List.mem_cons_self)
    split at last
    · next frame shot => exact ⟨display,frame,found,located,shot⟩
    · exact absurd rfl last

def address (fromStr : Text → Option Json.Value) (config : Config) (env : Environment) :
    Option Text :=
  if config.network.publicIp.isEmpty then (detectPublicIp fromStr env.metadata).toOption
  else some config.network.publicIp

theorem addressKnown (passes : (checkPublicIp fromStr config env).status ≠ .fail) :
    ∃ ip, address fromStr config env = some ip := by
  unfold checkPublicIp at passes
  unfold address
  cases given : config.network.publicIp.isEmpty with
  | false => exact ⟨_,rfl⟩
  | true =>
    rw [given] at passes
    simp only [Bool.not_true,Bool.false_eq_true,if_false] at passes
    split at passes
    · exact absurd rfl passes
    · split at passes
      · next ip detected => exact ⟨ip,by rw [detected]; rfl⟩
      · exact absurd rfl passes

theorem capabilityHeld {p : ProcStatus} (told : env.status = some p.text)
    (passes : (checkCapability env).status ≠ .fail) :
    env.euid = 0 ∨ p.mask &&& ((1 : UInt64) <<< capSysAdminBit) ≠ 0 := by
  unfold checkCapability at passes
  rw [told,Option.getD_some,capEffPrinted] at passes
  split at passes
  · next root => exact Or.inl root
  · split at passes
    · next held => exact Or.inr held
    · exact absurd rfl passes

end Verdict

theorem capturedSound {source : FrameSource} {k : Kernel} {calls : Calls} {frame : CapturedFrame}
    (shot : (source.capture k calls).1 = .ok frame) : frame.image.Sound := by
  have whole (m : Mapping) (remapped : Bool) : (m.frame k.memory remapped).image.Sound :=
    ⟨m.width.toNat_lt,m.height.toNat_lt,m.rows,by
      simp [Mapping.frame,CapturedFrame.image,Memory.read]⟩
  have outcome := FrameSource.captures source k calls
  generalize source.capture k calls = out at outcome shot
  cases outcome with
  | gone | dark | unmapped => cases shot
  | kept id m =>
    cases shot
    exact whole m false
  | mapped id m =>
    cases shot
    exact whole m true

/- What a server meets that is started on this machine, with what the first look for an address has
found: its display is there at once, the first frame can be converted, and no answer names another
address than `ip`. -/
structure Serves (config : Config) (env : Environment) (start : Server) (ip : Text) : Prop where
  displayed : ∃ card display, WaitForDisplay.Finds config.capture.card config.capture.connector
      env.devices card display ∧
    (∀ deadline now (a : WaitForDisplay.Attempt), a.devices = env.devices → ∃ w,
      (WaitForDisplay.initial config.capture.card config.capture.connector deadline now).step a =
        some w ∧ w.outcome = some (.ok (.new display.toDisplayInfo))) ∧
    ∃ frame, ((FrameSource.new display.toDisplayInfo).capture env.kernel env.calls).1 = .ok frame ∧
      ∀ dst, ∃ f, xrgbToI420 frame.data frame.width frame.height frame.pitch dst = some f
  reachable : ∀ ls s c answer, (∀ d sdp, .call d (.described (some sdp)) ∈ ls → Sdp.Spelled sdp) →
    Runs.run Server.step start ls = some s → s.calls c = .finished (.ok answer) →
    Sdp.candidateCount answer ≠ 0 ∧
    ∀ line ∈ Sdp.lines answer, ∀ h, Sdp.IsHost line h → h.address = ip

section Promise
variable {fromStr : Text → Option Json.Value} {config : Config} {env : Environment} {ip : Text}

theorem showsDisplayed {card : Card} {display : ActiveDisplay} {frame : CapturedFrame}
    (shows' : Shows config env card display frame) (deadline : Option Nat) (now : Nat)
    {a : WaitForDisplay.Attempt} (here : a.devices = env.devices) : ∃ w,
    (WaitForDisplay.initial config.capture.card config.capture.connector deadline now).step a =
      some w ∧ w.outcome = some (.ok (.new display.toDisplayInfo)) := by
  have attempt : WaitForDisplay.attempt a.devices config.capture.card config.capture.connector =
      .ok (card,display) := by
    rw [here,WaitForDisplay.attempt,shows'.found]
    simp only [shows'.located]
  refine ⟨{WaitForDisplay.initial config.capture.card config.capture.connector deadline now with
    tried := [a], outcome := some (.ok (.new display.toDisplayInfo))},?_,rfl⟩
  simp [WaitForDisplay.step,WaitForDisplay.initial,attempt]

theorem addressWord (fixed : config.network.publicIp ≠ [] → Word config.network.publicIp)
    (known : address fromStr config env = some ip) : Word ip := by
  unfold address at known
  split at known
  · cases detected : detectPublicIp fromStr env.metadata with
    | error e => simp [detected,Except.toOption] at known
    | ok found =>
      rw [detected] at known
      cases known
      exact detectedWord detected
  · next filled =>
    cases known
    exact fixed (by simpa using filled)

theorem startVouches (known : address fromStr config env = some ip) :
    Server.Vouches False (fun _ publicIp => publicIp = some ip) (fun _ => Sdp.Spelled)
      (Server.start config (detectPublicIp fromStr env.metadata).toOption) := by
  unfold address at known
  refine ⟨fun filled _ => ?_,fun empty found started _ => ?_,fun empty none' => ?_,fun c => trivial⟩
  · exact (if_neg (ne_true_of_eq_false filled)).symm.trans known
  · have empty : config.network.publicIp.isEmpty = true := empty
    simp only [Server.start,empty,if_true] at started known
    exact started.symm.trans known
  · have empty : config.network.publicIp.isEmpty = true := empty
    simp only [Server.start,empty,if_true] at none' known
    cases known.symm.trans none'

theorem answersAt (known : address fromStr config env = some ip) (word : Word ip)
    {ls : List Session.Label} {s : Server} {c : Nat} {answer : Text}
    (spelled : ∀ d sdp, .call d (.described (some sdp)) ∈ ls → Sdp.Spelled sdp)
    (reached : Runs.run Server.step
      (Server.start config (detectPublicIp fromStr env.metadata).toOption) ls = some s)
    (finished : s.calls c = .finished (.ok answer)) : Sdp.candidateCount answer ≠ 0 ∧
      ∀ line ∈ Sdp.lines answer, ∀ h, Sdp.IsHost line h → h.address = ip := by
  obtain ⟨front,deal,⟨⟨back,cut⟩,u,pending,part,at'⟩,_⟩ :=
    Server.madeOf (by simp [Server.start,Server.initial]) reached finished
  have vouches := Server.vouchesRun (startVouches known) False.elim False.elim
    (fun d sdp inside => spelled d sdp (cut ▸ List.mem_append_left _ inside)) part
  have here := vouches.calls c
  rw [at'] at here
  obtain ⟨own,sdp,described,filled,made⟩ := here
  rw [own] at made
  rw [made]
  exact Sdp.spelledKeeps described word filled

end Promise

def screen : Kernel := (Desktop.dark.kernel.addFramebuffer 40
  (Desktop.xrgb 0 6 2 ⟨Nat.succ_pos 5,Nat.succ_pos 1⟩ (Nat.le_refl 24))).setPlane 34 40 rfl

def granted : ProcStatus where
  before := ["Name:\tserver".toList]
  mask := 0x200000
  after := ["Seccomp:\t0".toList]
  apart := by decide
  unbroken := by decide

def opened : List Text := Firewall.spelled.rule (Firewall.ruleArgs 50000 50100)::Firewall.stock

def ready : Environment where
  exe := none
  present := fun _ => true
  devices := ⟨some [some "card0".toList],fun _ => .ok WaitForDisplay.vkms⟩
  kernel := screen
  calls := Desktop.answering
  captureTime := "0.3".toList
  euid := 1000
  status := some granted.text
  uinput := .ok ()
  userVariable := some "ubuntu".toList
  idUser := none
  group := some "input:x:106:ubuntu\nvideo:x:44:ubuntu\n".toList
  runtime := .ok ()
  metadata := .ok ⟨200,"200 OK".toList,Server.listing⟩
  iptables := .lines (Firewall.listing Firewall.spelled .accept opened)
  listens := false
  response := fun _ => []
  systemctl := fun _ => none
  created := 0
  null := false
  initialized := true
  encoded := 0
  info := OpenH264Encoder.answer .idr OpenH264Encoder.keyframeLayers []
  encodeTime := "9".toList

def plainSpelling : Spelling :=
  ⟨join ", ".toList,fun handle => Digits.decimal handle.toNat,fun _ => "XRGB8888".toList,fun _ => []⟩

theorem encoderReady : (checkEncoder ready).status = .pass := by
  have fits : OpenH264Encoder.checkFrame trial (.new 1920 1080) = .ok () :=
    (OpenH264Encoder.checkFrameExact _ _).mpr ⟨rfl,rfl⟩
  have unit : ready.info.accessUnit 0 = some ⟨ready.info.data,true,0⟩ := by decide +kernel
  exact encoderPasses (e := .initialise trial) rfl fits rfl unit

theorem readyPasses : (run Server.readListing {} ready plainSpelling).2 = true := by
  refine passedExact.mpr (fun c inside => ?_)
  obtain ⟨front,whole⟩ := encoderLast Server.readListing {} ready plainSpelling
  have others : (checks Server.readListing {} ready plainSpelling).dropLast.all
      (fun c => decide (c.status ≠ .fail)) = true := by decide +kernel
  rw [whole,List.dropLast_concat] at others
  rw [whole] at inside
  rcases List.mem_append.mp inside with earlier|last
  · exact of_decide_eq_true (List.all_eq_true.mp others c earlier)
  · rw [List.mem_singleton.mp last,encoderReady]
    exact fun failed => nomatch failed

end Doctor
end Vmdesk
