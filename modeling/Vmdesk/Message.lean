import Vmdesk.KeyCode
import Vmdesk.LittleEndian

/-! Binary messages of the two data channels: one tag byte, then little-endian
fixed-width fields. A decoder has two ways to stop early: an error value, and the
panic of a slice index outside its slice, which is `none` here. -/
namespace Vmdesk
open LittleEndian (Bytes)

inductive DecodeError where
  | empty
  | unknownTag (tag : UInt8)
  | truncated (expected actual : Nat)
  | trailing (extra : Nat)
  | unknownKey (raw : UInt16)
  | unknownButton (raw : UInt8)
  deriving DecidableEq, Repr

abbrev Decoder := ExceptT DecodeError Option

def index (bytes : Bytes) (i : Nat) : Decoder UInt8 := ExceptT.lift (bytes[i]?)

def Accepts {α : Type} (x : Decoder α) (a : α) : Prop := x.run = some (.ok a)
def Panics {α : Type} (x : Decoder α) : Prop := x.run = none

section Outcomes
variable {α β : Type} {a : α} {b : β} {e : DecodeError} {x : Decoder α} {f : α → Decoder β}

@[simp] theorem acceptsPure {c : α} : Accepts (pure a) c ↔ a = c := by
  simp [Accepts]

@[simp] theorem acceptsThrow : ¬ Accepts (throw e : Decoder α) a := by
  simp [Accepts]

@[simp] theorem acceptsBind : Accepts (x >>= f) b ↔ ∃ a, Accepts x a ∧ Accepts (f a) b := by
  simp only [Accepts,ExceptT.run_bind]
  cases hx : x.run with
  | none => simp
  | some r => cases r <;> simp

@[simp] theorem acceptsMap {g : α → β} : Accepts (g <$> x) b ↔ ∃ a, Accepts x a ∧ g a = b := by
  rw [← bind_pure_comp,acceptsBind]
  simp

@[simp] theorem acceptsIndex {bytes : Bytes} {i : Nat} {b : UInt8} :
    Accepts (index bytes i) b ↔ bytes[i]? = some b := by
  simp only [Accepts,index,ExceptT.run_lift]
  cases bytes[i]? <;> simp

@[simp] theorem panicsPure : ¬ Panics (pure a : Decoder α) := by
  simp [Panics]

@[simp] theorem panicsThrow : ¬ Panics (throw e : Decoder α) := by
  simp [Panics]

@[simp] theorem panicsBind : Panics (x >>= f) ↔ Panics x ∨ ∃ a, Accepts x a ∧ Panics (f a) := by
  simp only [Panics,Accepts,ExceptT.run_bind]
  cases hx : x.run with
  | none => simp
  | some r => cases r <;> simp

@[simp] theorem panicsMap {g : α → β} : Panics (g <$> x) ↔ Panics x := by
  rw [← bind_pure_comp,panicsBind]
  simp

@[simp] theorem panicsIndex {bytes : Bytes} {i : Nat} :
    Panics (index bytes i) ↔ bytes.length ≤ i := by
  simp only [Panics,index,ExceptT.run_lift]
  cases h : bytes[i]? with
  | none => simpa using List.getElem?_eq_none_iff.mp h
  | some b => simpa using (List.getElem?_eq_some_iff.mp h).1

end Outcomes

def u16Bytes (v : UInt16) : Bytes := LittleEndian.write 2 v.toNat
def u32Bytes (v : UInt32) : Bytes := LittleEndian.write 4 v.toNat
def i16Bytes (v : Int16) : Bytes := u16Bytes v.toUInt16

def u16FromBytes (raw : Bytes) : UInt16 := UInt16.ofNat (LittleEndian.read raw)
def u32FromBytes (raw : Bytes) : UInt32 := UInt32.ofNat (LittleEndian.read raw)
def i16FromBytes (raw : Bytes) : Int16 := Int16.ofUInt16 (u16FromBytes raw)

@[simp] theorem u16BytesLength (v : UInt16) : (u16Bytes v).length = 2 := LittleEndian.writeLength _ _
@[simp] theorem i16BytesLength (v : Int16) : (i16Bytes v).length = 2 := u16BytesLength _
@[simp] theorem u32BytesLength (v : UInt32) : (u32Bytes v).length = 4 := LittleEndian.writeLength _ _

@[simp] theorem u16Read (v : UInt16) : u16FromBytes (u16Bytes v) = v := by
  have bound : v.toNat < 256 ^ 2 := v.toNat_lt
  rw [u16FromBytes,u16Bytes,LittleEndian.readWrite 2 _ bound,UInt16.ofNat_toNat]

@[simp] theorem u32Read (v : UInt32) : u32FromBytes (u32Bytes v) = v := by
  have bound : v.toNat < 256 ^ 4 := v.toNat_lt
  rw [u32FromBytes,u32Bytes,LittleEndian.readWrite 4 _ bound,UInt32.ofNat_toNat]

@[simp] theorem i16Read (v : Int16) : i16FromBytes (i16Bytes v) = v := by
  rw [i16FromBytes,i16Bytes,u16Read]

theorem u16Written (raw : Bytes) (two : raw.length = 2) : u16Bytes (u16FromBytes raw) = raw := by
  have bound : LittleEndian.read raw < 2 ^ 16 := by simpa [two] using LittleEndian.readBound raw
  rw [u16Bytes,u16FromBytes,UInt16.toNat_ofNat',Nat.mod_eq_of_lt bound,← two]
  exact LittleEndian.writeRead raw

theorem u32Written (raw : Bytes) (four : raw.length = 4) : u32Bytes (u32FromBytes raw) = raw := by
  have bound : LittleEndian.read raw < 2 ^ 32 := by simpa [four] using LittleEndian.readBound raw
  rw [u32Bytes,u32FromBytes,UInt32.toNat_ofNat',Nat.mod_eq_of_lt bound,← four]
  exact LittleEndian.writeRead raw

theorem i16Written (raw : Bytes) (two : raw.length = 2) : i16Bytes (i16FromBytes raw) = raw :=
  u16Written raw two

inductive MouseButton where | left | right | middle | back | forward
  deriving DecidableEq, Repr

namespace MouseButton

def all : List MouseButton := [.left,.right,.middle,.back,.forward]

def asU8 (b : MouseButton) : UInt8 := UInt8.ofNat b.ctorIdx

def fromU8 (v : UInt8) : Option MouseButton := all.find? (fun b => b.asU8 == v)

theorem fromU8Exact (v : UInt8) (b : MouseButton) : fromU8 v = some b ↔ v = b.asU8 := by
  apply Iff.intro
  · intro found
    have value : b.asU8 = v := by simpa using List.find?_some found
    exact value.symm
  · intro same
    subst v
    cases b <;> rfl

end MouseButton

inductive ControlMessage where
  | hello (version : UInt16)
  | key (code : KeyCode) (pressed : Bool)
  | button (button : MouseButton) (pressed : Bool)
  | wheel (horizontal vertical : Int16)
  | setBitrate (kbps : UInt32)
  | releaseAll
  deriving DecidableEq, Repr

def tagHello : UInt8 := 0x01
def tagKey : UInt8 := 0x02
def tagButton : UInt8 := 0x03
def tagWheel : UInt8 := 0x04
def tagSetBitrate : UInt8 := 0x05
def tagReleaseAll : UInt8 := 0x06

namespace ControlMessage

def maxEncodedLen : Nat := 5

def encodeInto (m : ControlMessage) (out : Bytes) : Bytes := match m with
  | .hello version => out ++ [tagHello] ++ u16Bytes version
  | .key code pressed => out ++ [tagKey] ++ u16Bytes code.asU16 ++ [pressed.toUInt8]
  | .button b pressed => out ++ [tagButton] ++ [b.asU8] ++ [pressed.toUInt8]
  | .wheel horizontal vertical =>
      out ++ [tagWheel] ++ i16Bytes horizontal ++ i16Bytes vertical
  | .setBitrate kbps => out ++ [tagSetBitrate] ++ u32Bytes kbps
  | .releaseAll => out ++ [tagReleaseAll]

def encode (m : ControlMessage) : Bytes := encodeInto m []

/- The closure `expect` of `decode`: the body must have exactly `n` bytes. -/
def expect (buf body : Bytes) (n : Nat) : Decoder Unit :=
  if body.length < n then throw (.truncated (n+1) buf.length)
  else if body.length > n then throw (.trailing (body.length-n))
  else pure ()

def decode (buf : Bytes) : Decoder ControlMessage := match buf with
  | [] => throw .empty
  | tag::body =>
    if tag = tagHello then do
      expect buf body 2
      return .hello (u16FromBytes [← index body 0,← index body 1])
    else if tag = tagKey then do
      expect buf body 3
      let raw := u16FromBytes [← index body 0,← index body 1]
      match KeyCode.fromU16 raw with
      | none => throw (.unknownKey raw)
      | some code => return .key code ((← index body 2) != 0)
    else if tag = tagButton then do
      expect buf body 2
      match MouseButton.fromU8 (← index body 0) with
      | none => throw (.unknownButton (← index body 0))
      | some b => return .button b ((← index body 1) != 0)
    else if tag = tagWheel then do
      expect buf body 4
      return .wheel (i16FromBytes [← index body 0,← index body 1])
        (i16FromBytes [← index body 2,← index body 3])
    else if tag = tagSetBitrate then do
      expect buf body 4
      return .setBitrate (u32FromBytes
        [← index body 0,← index body 1,← index body 2,← index body 3])
    else if tag = tagReleaseAll then do
      expect buf body 0
      return .releaseAll
    else throw (.unknownTag tag)

@[simp] theorem acceptsExpect {buf body : Bytes} {n : Nat} {u : Unit} :
    Accepts (expect buf body n) u ↔ body.length = n := by
  unfold expect
  split
  · simp; omega
  · split
    · simp; omega
    · simp; omega

@[simp] theorem panicsExpect {buf body : Bytes} {n : Nat} : ¬ Panics (expect buf body n) := by
  unfold expect
  split
  · simp
  · split <;> simp

/- The six layouts. The last byte of a key or button message is a flag: every
nonzero value reads as pressed. -/
inductive Layout : ControlMessage → Bytes → Prop where
  | hello (version : UInt16) : Layout (.hello version) (tagHello :: u16Bytes version)
  | key (code : KeyCode) (flag : UInt8) :
      Layout (.key code (flag != 0)) (tagKey :: (u16Bytes code.asU16 ++ [flag]))
  | button (b : MouseButton) (flag : UInt8) : Layout (.button b (flag != 0)) [tagButton,b.asU8,flag]
  | wheel (horizontal vertical : Int16) :
      Layout (.wheel horizontal vertical) (tagWheel :: (i16Bytes horizontal ++ i16Bytes vertical))
  | setBitrate (kbps : UInt32) : Layout (.setBitrate kbps) (tagSetBitrate :: u32Bytes kbps)
  | releaseAll : Layout .releaseAll [tagReleaseAll]

theorem helloArm {a b : UInt8} : Layout (.hello (u16FromBytes [a,b])) [tagHello,a,b] := by
  simpa only [u16Written [a,b] rfl] using Layout.hello (u16FromBytes [a,b])

theorem keyArm {a b flag : UInt8} {code : KeyCode}
    (known : KeyCode.fromU16 (u16FromBytes [a,b]) = some code) :
    Layout (.key code (flag != 0)) [tagKey,a,b,flag] := by
  have value := (KeyCode.fromU16Exact _ _).mp known
  have layout := Layout.key code flag
  rw [← value,u16Written [a,b] rfl] at layout
  exact layout

theorem buttonArm {a flag : UInt8} {b : MouseButton} (known : MouseButton.fromU8 a = some b) :
    Layout (.button b (flag != 0)) [tagButton,a,flag] := by
  rw [(MouseButton.fromU8Exact _ _).mp known]
  exact .button b flag

theorem wheelArm {a b c d : UInt8} :
    Layout (.wheel (i16FromBytes [a,b]) (i16FromBytes [c,d])) [tagWheel,a,b,c,d] := by
  have layout := Layout.wheel (i16FromBytes [a,b]) (i16FromBytes [c,d])
  rw [i16Written [a,b] rfl,i16Written [c,d] rfl] at layout
  exact layout

theorem setBitrateArm {a b c d : UInt8} :
    Layout (.setBitrate (u32FromBytes [a,b,c,d])) [tagSetBitrate,a,b,c,d] := by
  simpa only [u32Written [a,b,c,d] rfl] using Layout.setBitrate (u32FromBytes [a,b,c,d])

theorem fourBytes {body : Bytes} (four : body.length = 4) : ∃ a b c d, body = [a,b,c,d] := by
  match body,four with
  | [a,b,c,d],_ => exact ⟨a,b,c,d,rfl⟩

theorem decodeLayout {buf : Bytes} {m : ControlMessage} (ok : Accepts (decode buf) m) :
    Layout m buf := by
  cases buf with
  | nil => simp [decode] at ok
  | cons tag body =>
    simp only [decode] at ok
    split at ok
    · rename_i same
      obtain ⟨_,two,rest⟩ := acceptsBind.mp ok
      obtain ⟨a,b,rfl⟩ := List.length_eq_two.mp (acceptsExpect.mp two)
      have value : hello (u16FromBytes [a,b]) = m := by simpa using rest
      rw [← value,same]
      exact helloArm
    split at ok
    · rename_i same
      obtain ⟨_,three,rest⟩ := acceptsBind.mp ok
      obtain ⟨a,b,flag,rfl⟩ := List.length_eq_three.mp (acceptsExpect.mp three)
      cases known : KeyCode.fromU16 (u16FromBytes [a,b]) with
      | none => simp [known] at rest
      | some code =>
        have value : key code (flag != 0) = m := by simpa [known] using rest
        rw [← value,same]
        exact keyArm known
    split at ok
    · rename_i same
      obtain ⟨_,two,rest⟩ := acceptsBind.mp ok
      obtain ⟨a,flag,rfl⟩ := List.length_eq_two.mp (acceptsExpect.mp two)
      cases known : MouseButton.fromU8 a with
      | none => simp [known] at rest
      | some b =>
        have value : button b (flag != 0) = m := by simpa [known] using rest
        rw [← value,same]
        exact buttonArm known
    split at ok
    · rename_i same
      obtain ⟨_,four,rest⟩ := acceptsBind.mp ok
      obtain ⟨a,b,c,d,rfl⟩ := fourBytes (acceptsExpect.mp four)
      have value : wheel (i16FromBytes [a,b]) (i16FromBytes [c,d]) = m := by simpa using rest
      rw [← value,same]
      exact wheelArm
    split at ok
    · rename_i same
      obtain ⟨_,four,rest⟩ := acceptsBind.mp ok
      obtain ⟨a,b,c,d,rfl⟩ := fourBytes (acceptsExpect.mp four)
      have value : setBitrate (u32FromBytes [a,b,c,d]) = m := by simpa using rest
      rw [← value,same]
      exact setBitrateArm
    split at ok
    · rename_i same
      obtain ⟨_,zero,rest⟩ := acceptsBind.mp ok
      have empty := List.length_eq_zero_iff.mp (acceptsExpect.mp zero)
      have value : releaseAll = m := by simpa using rest
      rw [← value,same,empty]
      exact .releaseAll
    · simp at ok

theorem layoutDecodes {buf : Bytes} {m : ControlMessage} (layout : Layout m buf) :
    Accepts (decode buf) m := by
  cases layout with
  | hello version =>
    obtain ⟨a,b,same⟩ := List.length_eq_two.mp (u16BytesLength version)
    have value := u16Read version
    rw [same] at value ⊢
    simp [decode,value]
  | key code flag =>
    obtain ⟨a,b,same⟩ := List.length_eq_two.mp (u16BytesLength code.asU16)
    have value := u16Read code.asU16
    rw [same] at value ⊢
    simp [decode,tagKey,tagHello,value,KeyCode.fromU16AsU16]
  | button b flag =>
    have known := (MouseButton.fromU8Exact b.asU8 b).mpr rfl
    simp [decode,tagButton,tagKey,tagHello,known]
  | wheel horizontal vertical =>
    obtain ⟨a,b,left⟩ := List.length_eq_two.mp (i16BytesLength horizontal)
    obtain ⟨c,d,right⟩ := List.length_eq_two.mp (i16BytesLength vertical)
    have h := i16Read horizontal
    have v := i16Read vertical
    rw [left] at h ⊢
    rw [right] at v ⊢
    simp [decode,tagWheel,tagButton,tagKey,tagHello,h,v]
  | setBitrate kbps =>
    obtain ⟨a,b,c,d,same⟩ := fourBytes (u32BytesLength kbps)
    have value := u32Read kbps
    rw [same] at value ⊢
    simp [decode,tagSetBitrate,tagWheel,tagButton,tagKey,tagHello,value]
  | releaseAll =>
    simp [decode,tagReleaseAll,tagSetBitrate,tagWheel,tagButton,tagKey,tagHello]

theorem decodeExact (buf : Bytes) (m : ControlMessage) : Accepts (decode buf) m ↔ Layout m buf :=
  ⟨decodeLayout,layoutDecodes⟩

theorem encodeLayout (m : ControlMessage) : Layout m m.encode := by
  cases m with
  | hello version => exact .hello version
  | key code pressed =>
    have layout := Layout.key code pressed.toUInt8
    cases pressed <;> exact layout
  | button b pressed =>
    have layout := Layout.button b pressed.toUInt8
    cases pressed <;> exact layout
  | wheel horizontal vertical =>
    have layout := Layout.wheel horizontal vertical
    simpa [encode,encodeInto] using layout
  | setBitrate kbps => exact .setBitrate kbps
  | releaseAll => exact .releaseAll

theorem encodeBound (m : ControlMessage) : m.encode.length ≤ maxEncodedLen := by
  cases m <;> simp [encode,encodeInto,maxEncodedLen]

theorem decodeEncode (m : ControlMessage) : Accepts (decode m.encode) m :=
  layoutDecodes (encodeLayout m)

def Presses (m : ControlMessage) : Prop :=
  (∃ code, m = .key code true) ∨ ∃ b, m = .button b true

theorem flagShape {m : ControlMessage} (lead : Bytes) {flag : UInt8}
    (written : m.encode = lead ++ [(flag != 0).toUInt8])
    (press : (flag != 0) = true → m.Presses) :
    lead ++ [flag] = m.encode ∨ m.Presses ∧ ∃ last, last ≠ 0 ∧ lead ++ [flag] = m.encode.dropLast ++ [last] := by
  by_cases zero : flag = 0
  · subst flag
    exact Or.inl written.symm
  · have set : (flag != 0) = true := by simpa using zero
    exact Or.inr ⟨press set,flag,zero,by simp [written]⟩

theorem layoutSpelling {m : ControlMessage} {buf : Bytes} (layout : Layout m buf) :
    buf = m.encode ∨ m.Presses ∧ ∃ last, last ≠ 0 ∧ buf = m.encode.dropLast ++ [last] := by
  cases layout with
  | hello version => exact Or.inl rfl
  | key code flag =>
    exact flagShape (tagKey :: u16Bytes code.asU16) rfl
      (fun set => Or.inl ⟨code,by rw [set]⟩)
  | button b flag =>
    exact flagShape [tagButton,b.asU8] rfl (fun set => Or.inr ⟨b,by rw [set]⟩)
  | wheel horizontal vertical => exact Or.inl (by simp [encode,encodeInto])
  | setBitrate kbps => exact Or.inl rfl
  | releaseAll => exact Or.inl rfl

theorem spellingLayout {m : ControlMessage} {last : UInt8} (press : m.Presses) (set : last ≠ 0) :
    Layout m (m.encode.dropLast ++ [last]) := by
  have flag : (last != 0) = true := by simpa using set
  rcases press with ⟨code,rfl⟩ | ⟨b,rfl⟩
  · have layout := Layout.key code last
    rw [flag] at layout
    have lead : (key code true).encode.dropLast = tagKey :: u16Bytes code.asU16 :=
      @List.dropLast_concat _ (tagKey :: u16Bytes code.asU16) _
    rw [lead]
    exact layout
  · have layout := Layout.button b last
    rw [flag] at layout
    simpa [encode,encodeInto] using layout

theorem decodeSpelling (buf : Bytes) (m : ControlMessage) : Accepts (decode buf) m ↔
    buf = m.encode ∨ m.Presses ∧ ∃ last, last ≠ 0 ∧ buf = m.encode.dropLast ++ [last] := by
  rw [decodeExact]
  apply Iff.intro layoutSpelling
  intro spelling
  rcases spelling with rfl | ⟨press,last,set,rfl⟩
  · exact encodeLayout m
  · exact spellingLayout press set

theorem panicsChecked {buf body : Bytes} {n : Nat} {f : Unit → Decoder ControlMessage} :
    Panics (expect buf body n >>= f) ↔ body.length = n ∧ Panics (f ()) := by
  rw [panicsBind]
  apply Iff.intro
  · intro panics
    rcases panics with bad | ⟨_,size,rest⟩
    · exact absurd bad panicsExpect
    · exact ⟨acceptsExpect.mp size,rest⟩
  · intro inside
    exact Or.inr ⟨(),acceptsExpect.mpr inside.1,inside.2⟩

/- Every field is read after the length check, so no index leaves the slice. -/
theorem decodeTotal (buf : Bytes) : ¬ Panics (decode buf) := by
  cases buf with
  | nil => simp [decode]
  | cons tag body =>
    intro panics
    simp only [decode] at panics
    split at panics
    · obtain ⟨two,rest⟩ := panicsChecked.mp panics
      obtain ⟨a,b,rfl⟩ := List.length_eq_two.mp two
      simp at rest
    split at panics
    · obtain ⟨three,rest⟩ := panicsChecked.mp panics
      obtain ⟨a,b,flag,rfl⟩ := List.length_eq_three.mp three
      cases known : KeyCode.fromU16 (u16FromBytes [a,b]) <;> simp [known] at rest
    split at panics
    · obtain ⟨two,rest⟩ := panicsChecked.mp panics
      obtain ⟨a,flag,rfl⟩ := List.length_eq_two.mp two
      cases known : MouseButton.fromU8 a <;> simp [known] at rest
    split at panics
    · obtain ⟨four,rest⟩ := panicsChecked.mp panics
      obtain ⟨a,b,c,d,rfl⟩ := fourBytes four
      simp at rest
    split at panics
    · obtain ⟨four,rest⟩ := panicsChecked.mp panics
      obtain ⟨a,b,c,d,rfl⟩ := fourBytes four
      simp at rest
    split at panics <;> simp at panics

end ControlMessage

structure MouseMove where
  x : UInt16
  y : UInt16
  deriving DecidableEq, Repr

def tagMouseMove : UInt8 := 0x10

namespace MouseMove

def encodedLen : Nat := 5

def encode (m : MouseMove) : Bytes := [tagMouseMove] ++ u16Bytes m.x ++ u16Bytes m.y

def decode (buf : Bytes) : Decoder MouseMove := match buf.head? with
  | none => throw .empty
  | some tag =>
    if tag = tagMouseMove then
      if buf.length < encodedLen then throw (.truncated encodedLen buf.length)
      else if buf.length > encodedLen then throw (.trailing (buf.length-encodedLen))
      else return {
        x := u16FromBytes [← index buf 1,← index buf 2]
        y := u16FromBytes [← index buf 3,← index buf 4] }
    else throw (.unknownTag tag)

theorem decodeFive {a b c d : UInt8} {m : MouseMove} :
    Accepts (decode [tagMouseMove,a,b,c,d]) m ↔ ⟨u16FromBytes [a,b],u16FromBytes [c,d]⟩ = m := by
  simp [decode,encodedLen]

theorem decodeShape {buf : Bytes} (reads : (∃ m, Accepts (decode buf) m) ∨ Panics (decode buf)) :
    ∃ a b c d, buf = [tagMouseMove,a,b,c,d] := by
  cases buf with
  | nil => simp [decode] at reads
  | cons tag body =>
    simp only [decode,List.head?_cons] at reads
    split at reads
    · rename_i same
      split at reads
      · simp at reads
      split at reads
      · simp at reads
      · have four : body.length = 4 := by
          simp only [List.length_cons,encodedLen] at *
          omega
        obtain ⟨a,b,c,d,rfl⟩ := ControlMessage.fourBytes four
        exact ⟨a,b,c,d,by rw [same]⟩
    · simp at reads

theorem decodeExact (buf : Bytes) (m : MouseMove) : Accepts (decode buf) m ↔ buf = m.encode := by
  apply Iff.intro
  · intro ok
    obtain ⟨a,b,c,d,rfl⟩ := decodeShape (Or.inl ⟨m,ok⟩)
    have value := decodeFive.mp ok
    subst m
    simp [encode,u16Written [a,b] rfl,u16Written [c,d] rfl]
  · intro same
    obtain ⟨a,b,left⟩ := List.length_eq_two.mp (u16BytesLength m.x)
    obtain ⟨c,d,right⟩ := List.length_eq_two.mp (u16BytesLength m.y)
    have x := u16Read m.x
    have y := u16Read m.y
    rw [left] at x
    rw [right] at y
    subst buf
    simp only [encode,left,right]
    exact decodeFive.mpr (by rw [x,y])

theorem decodeTotal (buf : Bytes) : ¬ Panics (decode buf) := by
  intro panics
  obtain ⟨a,b,c,d,rfl⟩ := decodeShape (Or.inr panics)
  simp [decode,encodedLen] at panics

end MouseMove

theorem disjointLanguages {buf : Bytes} {m : ControlMessage} {p : MouseMove}
    (control : Accepts (ControlMessage.decode buf) m) (mouse : Accepts (MouseMove.decode buf) p) :
    False := by
  rw [(MouseMove.decodeExact buf p).mp mouse] at control
  simp [ControlMessage.decode,MouseMove.encode,tagMouseMove,tagHello,tagKey,tagButton,tagWheel,
    tagSetBitrate,tagReleaseAll] at control

theorem wireFormat :
    (∀ m : ControlMessage, m.encode.length ≤ ControlMessage.maxEncodedLen ∧
      Accepts (ControlMessage.decode m.encode) m) ∧
    (∀ (buf : Bytes) (m : ControlMessage), Accepts (ControlMessage.decode buf) m ↔
      buf = m.encode ∨ m.Presses ∧ ∃ last, last ≠ 0 ∧ buf = m.encode.dropLast ++ [last]) ∧
    (∀ (buf : Bytes) (p : MouseMove), Accepts (MouseMove.decode buf) p ↔ buf = p.encode) ∧
    (∀ (buf : Bytes) (m : ControlMessage) (p : MouseMove),
      ¬ (Accepts (ControlMessage.decode buf) m ∧ Accepts (MouseMove.decode buf) p)) ∧
    (∀ buf : Bytes, ¬ Panics (ControlMessage.decode buf) ∧ ¬ Panics (MouseMove.decode buf)) :=
  ⟨fun m => ⟨m.encodeBound,m.decodeEncode⟩,
    ControlMessage.decodeSpelling,
    MouseMove.decodeExact,
    fun _ _ _ both => disjointLanguages both.1 both.2,
    fun buf => ⟨ControlMessage.decodeTotal buf,MouseMove.decodeTotal buf⟩⟩

end Vmdesk
