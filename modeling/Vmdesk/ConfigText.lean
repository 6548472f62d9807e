import Vmdesk.Config
import Vmdesk.Toml

/-! The commented file that `setup` writes, and what is read back from it. -/
namespace Vmdesk.Config
open Digits Toml

/- The lines of the file, table by table. Strings stand between quotes as they are. -/
def videoLines (v : Video) : List Text :=
  ["# vmdesk server configuration. Restart the service after editing:\n".toList,
   "#   sudo systemctl restart vmdesk\n".toList,
   "\n".toList,
   "[video]\n".toList,
   "# Capture/encode rate (frames per second).\n".toList,
   "fps = ".toList ++ decimal v.fps.toNat ++ "\n".toList,
   "# Initial H.264 target bitrate in kbit/s (the client --bitrate flag overrides it per session).\n".toList,
   "bitrate_kbps = ".toList ++ decimal v.bitrateKbps.toNat ++ "\n".toList,
   "# Keyframe interval in frames; 0 = only when a client connects or asks for one (PLI).\n".toList,
   "keyframe_interval = ".toList ++ decimal v.keyframeInterval.toNat ++ "\n".toList,
   "# OpenH264 threads; 0 = automatic.\n".toList,
   "encoder_threads = ".toList ++ decimal v.encoderThreads.toNat ++ "\n".toList,
   "\n".toList]

def networkLines (n : Network) : List Text :=
  ["[network]\n".toList,
   "# Public IP advertised to the client. Leave empty to read it from the OCI metadata service.\n".toList,
   "public_ip = \"".toList ++ n.publicIp ++ "\"\n".toList,
   "metadata_url = \"".toList ++ n.metadataUrl ++ "\"\n".toList,
   "# UDP ports for WebRTC. Must be allowed in the OCI security list and in iptables.\n".toList,
   "udp_port_min = ".toList ++ decimal n.udpPortMin.toNat ++ "\n".toList,
   "udp_port_max = ".toList ++ decimal n.udpPortMax.toNat ++ "\n".toList,
   "# HTTP signalling listener (loopback only; use `ssh -L 8080:127.0.0.1:8080`).\n".toList,
   "signalling_addr = \"".toList ++ n.signallingAddr.display ++ "\"\n".toList,
   "\n".toList]

def captureLines (c : Capture) : List Text :=
  ["[capture]\n".toList,
   "# DRM card of the vkms device; empty = autodetect.\n".toList,
   "card = \"".toList ++ c.card ++ "\"\n".toList,
   "# Connector to capture.\n".toList,
   "connector = \"".toList ++ c.connector ++ "\"\n".toList]

def toCommentedToml (config : Config) : Text :=
  (videoLines config.video ++ networkLines config.network ++ captureLines config.capture).flatten

/- The tables and their fields. Others are refused. -/
def fields : List (Text × List Text) :=
  [("video".toList,["fps".toList,"bitrate_kbps".toList,"keyframe_interval".toList,
     "encoder_threads".toList]),
   ("network".toList,["public_ip".toList,"metadata_url".toList,"udp_port_min".toList,
     "udp_port_max".toList,"signalling_addr".toList]),
   ("capture".toList,["card".toList,"connector".toList])]

def known (doc : Doc) : Bool :=
  doc.tables.all (fun path => fields.any (fun table => path == [table.1])) &&
    doc.values.all (fun value => fields.any (fun table =>
      table.2.any (fun name => value.1 == [table.1,name])))

def unsigned (bound : Nat) : Value → Option Nat
  | .integer n => if 0 ≤ n ∧ n < bound then some n.toNat else none
  | .string _ | .other => none

def u32 (v : Value) : Option UInt32 := (unsigned (2^32) v).map UInt32.ofNat

def u16 (v : Value) : Option UInt16 := (unsigned (2^16) v).map UInt16.ofNat

def string : Value → Option Text
  | .string s => some s
  | .integer _ | .other => none

def socketAddr (v : Value) : Option SocketAddr := (string v).bind SocketAddr.fromStr

def field {α : Type} (read : Value → Option α) (doc : Doc) (table name : String) (default : α) :
    Option α :=
  match doc.get [table.toList,name.toList] with
  | some v => read v
  | none => some default

def fromDoc (doc : Doc) : Option Config := if !known doc then none else do
  let fps ← field u32 doc "video" "fps" ({} : Video).fps
  let bitrateKbps ← field u32 doc "video" "bitrate_kbps" ({} : Video).bitrateKbps
  let keyframeInterval ← field u32 doc "video" "keyframe_interval" ({} : Video).keyframeInterval
  let encoderThreads ← field u16 doc "video" "encoder_threads" ({} : Video).encoderThreads
  let publicIp ← field string doc "network" "public_ip" ({} : Network).publicIp
  let metadataUrl ← field string doc "network" "metadata_url" ({} : Network).metadataUrl
  let udpPortMin ← field u16 doc "network" "udp_port_min" ({} : Network).udpPortMin
  let udpPortMax ← field u16 doc "network" "udp_port_max" ({} : Network).udpPortMax
  let signallingAddr ← field socketAddr doc "network" "signalling_addr" ({} : Network).signallingAddr
  let card ← field string doc "capture" "card" ({} : Capture).card
  let connector ← field string doc "capture" "connector" ({} : Capture).connector
  some ⟨⟨fps,bitrateKbps,keyframeInterval,encoderThreads⟩,
    ⟨publicIp,metadataUrl,udpPortMin,udpPortMax,signallingAddr⟩,⟨card,connector⟩⟩

/- `toml::from_str` -/
def fromToml (reader : Reader) (text : Text) : Option Config := do
  fromDoc (← document reader {} text)

section Fields
variable {doc : Doc} {c : Config} {s v : Text}

structure Told (doc : Doc) (c : Config) : Prop where
  known : known doc = true
  fps : field u32 doc "video" "fps" ({} : Video).fps = some c.video.fps
  bitrateKbps : field u32 doc "video" "bitrate_kbps" ({} : Video).bitrateKbps =
    some c.video.bitrateKbps
  keyframeInterval : field u32 doc "video" "keyframe_interval" ({} : Video).keyframeInterval =
    some c.video.keyframeInterval
  encoderThreads : field u16 doc "video" "encoder_threads" ({} : Video).encoderThreads =
    some c.video.encoderThreads
  publicIp : field string doc "network" "public_ip" ({} : Network).publicIp =
    some c.network.publicIp
  metadataUrl : field string doc "network" "metadata_url" ({} : Network).metadataUrl =
    some c.network.metadataUrl
  udpPortMin : field u16 doc "network" "udp_port_min" ({} : Network).udpPortMin =
    some c.network.udpPortMin
  udpPortMax : field u16 doc "network" "udp_port_max" ({} : Network).udpPortMax =
    some c.network.udpPortMax
  signallingAddr : field socketAddr doc "network" "signalling_addr"
    ({} : Network).signallingAddr = some c.network.signallingAddr
  card : field string doc "capture" "card" ({} : Capture).card = some c.capture.card
  connector : field string doc "capture" "connector" ({} : Capture).connector =
    some c.capture.connector

theorem fromDocExact : fromDoc doc = some c ↔ Told doc c := by
  apply Iff.intro
  · intro read
    unfold fromDoc at read
    split at read
    · contradiction
    · next here =>
      simp only [Option.bind_eq_bind,Option.bind_eq_some_iff] at read
      obtain ⟨fps,h1,bitrate,h2,keyframe,h3,threads,h4,publicIp,h5,url,h6,low,h7,high,h8,
        address,h9,card,h10,connector,h11,same⟩ := read
      cases same
      exact ⟨by simpa using here,h1,h2,h3,h4,h5,h6,h7,h8,h9,h10,h11⟩
  · intro told
    unfold fromDoc
    rw [if_neg (by simp [told.known]),told.fps,told.bitrateKbps,told.keyframeInterval,
      told.encoderThreads,told.publicIp,told.metadataUrl,told.udpPortMin,told.udpPortMax,
      told.signallingAddr,told.card,told.connector]
    rfl

theorem stringField {table name : String} {default : Text}
    (read : field string doc table name default = some s)
    (there : doc.get [table.toList,name.toList] = some (.string v)) : v = s := by
  simp only [field,there,string] at read
  exact Option.some.inj read

theorem unsignedDigits {bound n : Nat} (below : n < bound) :
    unsigned bound (.integer n) = some n := by
  simp [unsigned,below]

theorem u32Digits (n : UInt32) : u32 (.integer n.toNat) = some n := by
  simp [u32,unsignedDigits n.toNat_lt]

theorem u16Digits (n : UInt16) : u16 (.integer n.toNat) = some n := by
  simp [u16,unsignedDigits n.toNat_lt]

end Fields

section Lines
variable {reader : Reader} {doc doc' : Doc} {c : Config} {text s : Text} {texts : List Text}

def Yields (reader : Reader) (doc : Doc) (texts : List Text) (c : Config) : Prop :=
  (document reader doc texts.flatten).bind fromDoc = some c

theorem yieldsReads (reads : Reads reader doc text doc') :
    Yields reader doc (text::texts) c ↔ Yields reader doc' texts c := by
  unfold Yields
  rw [documentReads reads]

theorem yieldsString (name : Text) (bare : Bare name)
    (free : doc.taken (doc.table ++ [name]) = false)
    (told : ∀ {final v}, Told final c → final.get (doc.table ++ [name]) = some (.string v) → v = s)
    (next : texts.flatten.head?.all isPlain = true) :
    Yields reader doc (stringLine name s::texts) c ↔
      Plain s ∧ Yields reader (doc.put name (.string s)) texts c := by
  apply Iff.intro
  · intro yields
    obtain ⟨final,read,given⟩ := Option.bind_eq_some_iff.mp yields
    obtain ⟨v,rest,string,there⟩ := stringKept bare read
    cases told (fromDocExact.mp given) there
    have short : reader.newline.length ≤ 2 := by
      rcases reader.normal with same|same <;> simp [same]
    have plain := readOnly short ((Option.all_eq_true _ _).mp next) string
    exact ⟨plain,(yieldsReads (stringReads name bare plain free)).mp yields⟩
  · intro ⟨plain,yields⟩
    exact (yieldsReads (stringReads name bare plain free)).mpr yields

theorem yieldsDone : Yields reader doc [] c ↔ Told doc c := by
  rw [Yields,List.flatten_nil,document,if_pos rfl,Option.bind_some]
  exact fromDocExact

theorem wide32 (n : UInt32) : n.toNat < 2^63 := Nat.lt_trans n.toNat_lt (by decide)

theorem wide16 (n : UInt16) : n.toNat < 2^63 := Nat.lt_trans n.toNat_lt (by decide)

theorem signPlain {x : Char} (sign : SocketAddr.Sign x) : isPlain x = true := by
  rcases sign with digit|sign
  · have range := digitRange digit
    have other {y : Char} (out : y.toNat = 34 ∨ y.toNat = 92) : x ≠ y := by
      intro same
      subst same
      omega
    have quote : x ≠ '"' := other (by decide)
    have back : x ≠ '\\' := other (by decide)
    simp only [isPlain,Bool.and_eq_true,Bool.or_eq_true,bne_iff_ne,decide_eq_true_eq]
    exact ⟨⟨quote,back⟩,Or.inr (by omega)⟩
  · have known : ".:[]%".toList.all isPlain = true := by decide
    exact List.all_eq_true.mp known x sign

theorem displayPlain (address : SocketAddr) : Plain address.display :=
  fun x member => signPlain (SocketAddr.displaySigned address x member)

def videoDoc (v : Video) : Doc :=
  ((((({} : Doc).enter "video".toList).put "fps".toList (.integer v.fps.toNat)).put
    "bitrate_kbps".toList (.integer v.bitrateKbps.toNat)).put
    "keyframe_interval".toList (.integer v.keyframeInterval.toNat)).put
    "encoder_threads".toList (.integer v.encoderThreads.toNat)

theorem yieldsVideo (v : Video) :
    Yields reader {} (videoLines v ++ texts) c ↔ Yields reader (videoDoc v) texts c := by
  unfold videoLines
  refine Iff.trans (yieldsReads (skipReads (by decide))) ?_
  refine Iff.trans (yieldsReads (skipReads (by decide))) ?_
  refine Iff.trans (yieldsReads (skipReads (by decide))) ?_
  refine Iff.trans (yieldsReads (headerReads "video".toList (by decide) rfl)) ?_
  refine Iff.trans (yieldsReads (skipReads (by decide))) ?_
  refine Iff.trans (yieldsReads (numberReads "fps".toList (by decide) (wide32 _) rfl)) ?_
  refine Iff.trans (yieldsReads (skipReads (by decide))) ?_
  refine Iff.trans (yieldsReads (numberReads "bitrate_kbps".toList (by decide) (wide32 _) rfl)) ?_
  refine Iff.trans (yieldsReads (skipReads (by decide))) ?_
  refine Iff.trans
    (yieldsReads (numberReads "keyframe_interval".toList (by decide) (wide32 _) rfl)) ?_
  refine Iff.trans (yieldsReads (skipReads (by decide))) ?_
  refine Iff.trans (yieldsReads (numberReads "encoder_threads".toList (by decide) (wide16 _) rfl)) ?_
  exact yieldsReads (skipReads (by decide))

def networkDoc (n : Network) (doc : Doc) : Doc :=
  (((((doc.enter "network".toList).put "public_ip".toList (.string n.publicIp)).put
    "metadata_url".toList (.string n.metadataUrl)).put
    "udp_port_min".toList (.integer n.udpPortMin.toNat)).put
    "udp_port_max".toList (.integer n.udpPortMax.toNat)).put
    "signalling_addr".toList (.string n.signallingAddr.display)

def captureDoc (c : Capture) (doc : Doc) : Doc :=
  ((doc.enter "capture".toList).put "card".toList (.string c.card)).put
    "connector".toList (.string c.connector)

theorem yieldsNetwork (v : Video) :
    Yields reader (videoDoc v) (networkLines c.network ++ texts) c ↔
      Plain c.network.publicIp ∧ Plain c.network.metadataUrl ∧
        Yields reader (networkDoc c.network (videoDoc v)) texts c := by
  unfold networkLines
  refine Iff.trans (yieldsReads (headerReads "network".toList (by decide) rfl)) ?_
  refine Iff.trans (yieldsReads (skipReads (by decide))) ?_
  refine Iff.trans (yieldsString "public_ip".toList (by decide) rfl
    (fun told there => stringField told.publicIp there) rfl) (and_congr Iff.rfl ?_)
  refine Iff.trans (yieldsString "metadata_url".toList (by decide) rfl
    (fun told there => stringField told.metadataUrl there) rfl) (and_congr Iff.rfl ?_)
  refine Iff.trans (yieldsReads (skipReads (by decide))) ?_
  refine Iff.trans (yieldsReads (numberReads "udp_port_min".toList (by decide) (wide16 _) rfl)) ?_
  refine Iff.trans (yieldsReads (numberReads "udp_port_max".toList (by decide) (wide16 _) rfl)) ?_
  refine Iff.trans (yieldsReads (skipReads (by decide))) ?_
  refine Iff.trans (yieldsReads
    (stringReads "signalling_addr".toList (by decide) (displayPlain _) rfl)) ?_
  exact yieldsReads (skipReads (by decide))

theorem yieldsCapture (v : Video) (n : Network) :
    Yields reader (networkDoc n (videoDoc v)) (captureLines c.capture) c ↔
      Plain c.capture.card ∧ Plain c.capture.connector ∧
        Told (captureDoc c.capture (networkDoc n (videoDoc v))) c := by
  unfold captureLines
  refine Iff.trans (yieldsReads (headerReads "capture".toList (by decide) rfl)) ?_
  refine Iff.trans (yieldsReads (skipReads (by decide))) ?_
  refine Iff.trans (yieldsString "card".toList (by decide) rfl
    (fun told there => stringField told.card there) rfl) (and_congr Iff.rfl ?_)
  refine Iff.trans (yieldsReads (skipReads (by decide))) ?_
  refine Iff.trans (yieldsString "connector".toList (by decide) rfl
    (fun told there => stringField told.connector there) rfl) (and_congr Iff.rfl ?_)
  exact yieldsDone

theorem writtenTold (c : Config) :
    Told (captureDoc c.capture (networkDoc c.network (videoDoc c.video))) c ↔
      c.network.signallingAddr.withoutFlow = c.network.signallingAddr := by
  have address : field socketAddr (captureDoc c.capture (networkDoc c.network (videoDoc c.video)))
      "network" "signalling_addr" ({} : Network).signallingAddr =
        some c.network.signallingAddr.withoutFlow := SocketAddr.fromStrDisplay _
  apply Iff.intro
  · intro told
    exact Option.some.inj (address.symm.trans told.signallingAddr)
  · intro flow
    rw [flow] at address
    exact ⟨rfl,u32Digits _,u32Digits _,u32Digits _,u16Digits _,rfl,rfl,u16Digits _,u16Digits _,
      address,rfl,rfl⟩

theorem fromTomlExact (reader : Reader) (c : Config) :
    fromToml reader c.toCommentedToml = some c ↔
      (Plain c.network.publicIp ∧ Plain c.network.metadataUrl ∧ Plain c.capture.card ∧
        Plain c.capture.connector) ∧ c.network.signallingAddr.flowinfo = 0 := by
  have lines : fromToml reader c.toCommentedToml = some c ↔ Yields reader {}
      (videoLines c.video ++ (networkLines c.network ++ captureLines c.capture)) c := by
    rw [← List.append_assoc]
    rfl
  rw [lines,yieldsVideo,yieldsNetwork,yieldsCapture,writtenTold,SocketAddr.withoutFlowSelf]
  simp only [and_assoc]

end Lines

def ReadsBack (reader : Reader) (c : Config) : Prop :=
  ∃ parsed, fromToml reader c.toCommentedToml = some parsed ∧ parsed = c ∧ parsed.validate = .ok ()

/- A configuration that passes its checks is read back if all characters of its strings may stand
between quotes, and its address has no flow label; and in no other case. -/
theorem readsBackExactly (reader : Reader) (c : Config) (valid : c.validate = .ok ()) :
    ReadsBack reader c ↔ (Plain c.network.publicIp ∧ Plain c.network.metadataUrl ∧
      Plain c.capture.card ∧ Plain c.capture.connector) ∧ c.network.signallingAddr.flowinfo = 0 := by
  rw [← fromTomlExact reader]
  apply Iff.intro
  · intro ⟨parsed,read,same,_⟩
    exact same ▸ read
  · intro read
    exact ⟨c,read,rfl,valid⟩

def plainReader : Reader := ⟨['\n'],fun _ _ => none,Or.inl rfl,by simp⟩

theorem defaultsReadBack : ReadsBack plainReader {} :=
  (readsBackExactly plainReader {} defaultsValid).mpr (by decide)

def quoted : Config := {network := {publicIp := "1\"2".toList}}

theorem quotedNotBack : quoted.validate = .ok () ∧ ∀ reader, ¬ ReadsBack reader quoted := by
  refine ⟨?_,?_⟩
  · rw [validateExact]
    decide
  · intro reader ⟨parsed,read,same,_⟩
    have plain := ((fromTomlExact reader quoted).mp (same ▸ read)).1.1
    exact absurd (plain '"' (by decide)) (by decide)

end Vmdesk.Config
