import Vmdesk.Message

/-! Protocol keys and buttons as evdev codes. Keys without an evdev equivalent have
none. Two pairs of protocol keys name one physical key each and share its code. -/
namespace Vmdesk
namespace Evdev

inductive KeyCode where
  | keyGrave | keyBackslash | keyLeftbrace | keyRightbrace | keyComma | key0 | key1 | key2 | key3
  | key4 | key5 | key6 | key7 | key8 | key9 | keyEqual | key102nd | keyRo | keyYen | keyA | keyB
  | keyC | keyD | keyE | keyF | keyG | keyH | keyI | keyJ | keyK | keyL | keyM | keyN | keyO
  | keyP | keyQ | keyR | keyS | keyT | keyU | keyV | keyW | keyX | keyY | keyZ | keyMinus
  | keyDot | keyApostrophe | keySemicolon | keySlash | keyLeftalt | keyRightalt | keyBackspace
  | keyCapslock | keyCompose | keyLeftctrl | keyRightctrl | keyEnter | keyLeftmeta | keyRightmeta
  | keyLeftshift | keyRightshift | keySpace | keyTab | keyHenkan | keyKatakanahiragana
  | keyHangeul | keyHanja | keyKatakana | keyHiragana | keyZenkakuhankaku | keyMuhenkan
  | keyDelete | keyEnd | keyHelp | keyHome | keyInsert | keyPagedown | keyPageup | keyDown
  | keyLeft | keyRight | keyUp | keyNumlock | keyKp0 | keyKp1 | keyKp2 | keyKp3 | keyKp4 | keyKp5
  | keyKp6 | keyKp7 | keyKp8 | keyKp9 | keyKpplus | keyKpcomma | keyKpdot | keyKpslash
  | keyKpenter | keyKpequal | keyKpasterisk | keyKpleftparen | keyKprightparen | keyKpminus
  | keyEsc | keyFn | keySysrq | keyScrolllock | keyPause | keyBack | keyBookmarks | keyForward
  | keyHomepage | keyRefresh | keySearch | keyStop | keyEjectcd | keyComputer | keyCalc | keyMail
  | keyPlaypause | keyMedia | keyStopcd | keyNextsong | keyPrevioussong | keyPower | keySleep
  | keyVolumedown | keyMute | keyVolumeup | keyWakeup | keyAgain | keyCopy | keyCut | keyFind
  | keyOpen | keyPaste | keyProps | keySelect | keyUndo | keyF1 | keyF2 | keyF3 | keyF4 | keyF5
  | keyF6 | keyF7 | keyF8 | keyF9 | keyF10 | keyF11 | keyF12 | keyF13 | keyF14 | keyF15 | keyF16
  | keyF17 | keyF18 | keyF19 | keyF20 | keyF21 | keyF22 | keyF23 | keyF24 | btnLeft | btnRight
  | btnMiddle | btnSide | btnExtra
  deriving DecidableEq, Repr

end Evdev

def toEvdev : KeyCode → Option Evdev.KeyCode
  | .backquote => some .keyGrave | .backslash => some .keyBackslash
  | .bracketLeft => some .keyLeftbrace | .bracketRight => some .keyRightbrace
  | .comma => some .keyComma | .digit0 => some .key0 | .digit1 => some .key1
  | .digit2 => some .key2 | .digit3 => some .key3 | .digit4 => some .key4 | .digit5 => some .key5
  | .digit6 => some .key6 | .digit7 => some .key7 | .digit8 => some .key8 | .digit9 => some .key9
  | .equal => some .keyEqual | .intlBackslash => some .key102nd | .intlRo => some .keyRo
  | .intlYen => some .keyYen | .keyA => some .keyA | .keyB => some .keyB | .keyC => some .keyC
  | .keyD => some .keyD | .keyE => some .keyE | .keyF => some .keyF | .keyG => some .keyG
  | .keyH => some .keyH | .keyI => some .keyI | .keyJ => some .keyJ | .keyK => some .keyK
  | .keyL => some .keyL | .keyM => some .keyM | .keyN => some .keyN | .keyO => some .keyO
  | .keyP => some .keyP | .keyQ => some .keyQ | .keyR => some .keyR | .keyS => some .keyS
  | .keyT => some .keyT | .keyU => some .keyU | .keyV => some .keyV | .keyW => some .keyW
  | .keyX => some .keyX | .keyY => some .keyY | .keyZ => some .keyZ | .minus => some .keyMinus
  | .period => some .keyDot | .quote => some .keyApostrophe | .semicolon => some .keySemicolon
  | .slash => some .keySlash | .altLeft => some .keyLeftalt | .altRight => some .keyRightalt
  | .backspace => some .keyBackspace | .capsLock => some .keyCapslock
  | .contextMenu => some .keyCompose | .controlLeft => some .keyLeftctrl
  | .controlRight => some .keyRightctrl | .enter => some .keyEnter
  | .superLeft => some .keyLeftmeta | .superRight => some .keyRightmeta
  | .shiftLeft => some .keyLeftshift | .shiftRight => some .keyRightshift
  | .space => some .keySpace | .tab => some .keyTab | .convert => some .keyHenkan
  | .kanaMode => some .keyKatakanahiragana | .lang1 => some .keyHangeul
  | .lang2 => some .keyHanja | .lang3 => some .keyKatakana | .lang4 => some .keyHiragana
  | .lang5 => some .keyZenkakuhankaku | .nonConvert => some .keyMuhenkan
  | .delete => some .keyDelete | .«end» => some .keyEnd | .help => some .keyHelp
  | .home => some .keyHome | .insert => some .keyInsert | .pageDown => some .keyPagedown
  | .pageUp => some .keyPageup | .arrowDown => some .keyDown | .arrowLeft => some .keyLeft
  | .arrowRight => some .keyRight | .arrowUp => some .keyUp | .numLock => some .keyNumlock
  | .numpad0 => some .keyKp0 | .numpad1 => some .keyKp1 | .numpad2 => some .keyKp2
  | .numpad3 => some .keyKp3 | .numpad4 => some .keyKp4 | .numpad5 => some .keyKp5
  | .numpad6 => some .keyKp6 | .numpad7 => some .keyKp7 | .numpad8 => some .keyKp8
  | .numpad9 => some .keyKp9 | .numpadAdd => some .keyKpplus | .numpadComma => some .keyKpcomma
  | .numpadDecimal => some .keyKpdot | .numpadDivide => some .keyKpslash
  | .numpadEnter => some .keyKpenter | .numpadEqual => some .keyKpequal
  | .numpadMultiply => some .keyKpasterisk | .numpadParenLeft => some .keyKpleftparen
  | .numpadParenRight => some .keyKprightparen | .numpadSubtract => some .keyKpminus
  | .escape => some .keyEsc | .fn => some .keyFn | .printScreen => some .keySysrq
  | .scrollLock => some .keyScrolllock | .pause => some .keyPause | .browserBack => some .keyBack
  | .browserFavorites => some .keyBookmarks | .browserForward => some .keyForward
  | .browserHome => some .keyHomepage | .browserRefresh => some .keyRefresh
  | .browserSearch => some .keySearch | .browserStop => some .keyStop
  | .eject => some .keyEjectcd | .launchApp1 => some .keyComputer | .launchApp2 => some .keyCalc
  | .launchMail => some .keyMail | .mediaPlayPause => some .keyPlaypause
  | .mediaSelect => some .keyMedia | .mediaStop => some .keyStopcd
  | .mediaTrackNext => some .keyNextsong | .mediaTrackPrevious => some .keyPrevioussong
  | .power => some .keyPower | .sleep => some .keySleep | .audioVolumeDown => some .keyVolumedown
  | .audioVolumeMute => some .keyMute | .audioVolumeUp => some .keyVolumeup
  | .wakeUp => some .keyWakeup | .again => some .keyAgain | .copy => some .keyCopy
  | .cut => some .keyCut | .find => some .keyFind | .«open» => some .keyOpen
  | .paste => some .keyPaste | .props => some .keyProps | .select => some .keySelect
  | .undo => some .keyUndo | .hiragana => some .keyHiragana | .katakana => some .keyKatakana
  | .f1 => some .keyF1 | .f2 => some .keyF2 | .f3 => some .keyF3 | .f4 => some .keyF4
  | .f5 => some .keyF5 | .f6 => some .keyF6 | .f7 => some .keyF7 | .f8 => some .keyF8
  | .f9 => some .keyF9 | .f10 => some .keyF10 | .f11 => some .keyF11 | .f12 => some .keyF12
  | .f13 => some .keyF13 | .f14 => some .keyF14 | .f15 => some .keyF15 | .f16 => some .keyF16
  | .f17 => some .keyF17 | .f18 => some .keyF18 | .f19 => some .keyF19 | .f20 => some .keyF20
  | .f21 => some .keyF21 | .f22 => some .keyF22 | .f23 => some .keyF23 | .f24 => some .keyF24
  | .numpadBackspace | .numpadClear | .numpadClearEntry | .numpadHash | .numpadMemoryAdd
  | .numpadMemoryClear | .numpadMemoryRecall | .numpadMemoryStore | .numpadMemorySubtract
  | .numpadStar | .fnLock | .«meta» | .hyper | .turbo | .abort | .resume | .suspend | .f25 | .f26
  | .f27 | .f28 | .f29 | .f30 | .f31 | .f32 | .f33 | .f34 | .f35 => none

def buttonToEvdev : MouseButton → Evdev.KeyCode
  | .left => .btnLeft
  | .right => .btnRight
  | .middle => .btnMiddle
  | .back => .btnSide
  | .forward => .btnExtra

theorem buttonToEvdevInjective {a b : MouseButton} (same : buttonToEvdev a = buttonToEvdev b) :
    a = b := by
  cases a <;> cases b <;> first | rfl | contradiction

end Vmdesk
