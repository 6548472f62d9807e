import Mathlib.Data.List.Basic

/-! Physical key codes of the wire protocol. The wire value of a code is its
position in the list, which only ever grows at the end. -/
namespace Vmdesk

inductive KeyCode where
  | backquote | backslash | bracketLeft | bracketRight | comma | digit0 | digit1 | digit2
  | digit3 | digit4 | digit5 | digit6 | digit7 | digit8 | digit9 | equal | intlBackslash | intlRo
  | intlYen | keyA | keyB | keyC | keyD | keyE | keyF | keyG | keyH | keyI | keyJ | keyK | keyL
  | keyM | keyN | keyO | keyP | keyQ | keyR | keyS | keyT | keyU | keyV | keyW | keyX | keyY
  | keyZ | minus | period | quote | semicolon | slash | altLeft | altRight | backspace | capsLock
  | contextMenu | controlLeft | controlRight | enter | superLeft | superRight | shiftLeft
  | shiftRight | space | tab | convert | kanaMode | lang1 | lang2 | lang3 | lang4 | lang5
  | nonConvert | delete | «end» | help | home | insert | pageDown | pageUp | arrowDown
  | arrowLeft | arrowRight | arrowUp | numLock | numpad0 | numpad1 | numpad2 | numpad3 | numpad4
  | numpad5 | numpad6 | numpad7 | numpad8 | numpad9 | numpadAdd | numpadBackspace | numpadClear
  | numpadClearEntry | numpadComma | numpadDecimal | numpadDivide | numpadEnter | numpadEqual
  | numpadHash | numpadMemoryAdd | numpadMemoryClear | numpadMemoryRecall | numpadMemoryStore
  | numpadMemorySubtract | numpadMultiply | numpadParenLeft | numpadParenRight | numpadStar
  | numpadSubtract | escape | fn | fnLock | printScreen | scrollLock | pause | browserBack
  | browserFavorites | browserForward | browserHome | browserRefresh | browserSearch
  | browserStop | eject | launchApp1 | launchApp2 | launchMail | mediaPlayPause | mediaSelect
  | mediaStop | mediaTrackNext | mediaTrackPrevious | power | sleep | audioVolumeDown
  | audioVolumeMute | audioVolumeUp | wakeUp | «meta» | hyper | turbo | abort | resume | suspend
  | again | copy | cut | find | «open» | paste | props | select | undo | hiragana | katakana | f1
  | f2 | f3 | f4 | f5 | f6 | f7 | f8 | f9 | f10 | f11 | f12 | f13 | f14 | f15 | f16 | f17 | f18
  | f19 | f20 | f21 | f22 | f23 | f24 | f25 | f26 | f27 | f28 | f29 | f30 | f31 | f32 | f33 | f34
  | f35
  deriving DecidableEq, Repr

namespace KeyCode

def all : List KeyCode :=
  [.backquote, .backslash, .bracketLeft, .bracketRight, .comma, .digit0, .digit1, .digit2,
   .digit3, .digit4, .digit5, .digit6, .digit7, .digit8, .digit9, .equal, .intlBackslash,
   .intlRo, .intlYen, .keyA, .keyB, .keyC, .keyD, .keyE, .keyF, .keyG, .keyH, .keyI, .keyJ,
   .keyK, .keyL, .keyM, .keyN, .keyO, .keyP, .keyQ, .keyR, .keyS, .keyT, .keyU, .keyV, .keyW,
   .keyX, .keyY, .keyZ, .minus, .period, .quote, .semicolon, .slash, .altLeft, .altRight,
   .backspace, .capsLock, .contextMenu, .controlLeft, .controlRight, .enter, .superLeft,
   .superRight, .shiftLeft, .shiftRight, .space, .tab, .convert, .kanaMode, .lang1, .lang2,
   .lang3, .lang4, .lang5, .nonConvert, .delete, .«end», .help, .home, .insert, .pageDown,
   .pageUp, .arrowDown, .arrowLeft, .arrowRight, .arrowUp, .numLock, .numpad0, .numpad1,
   .numpad2, .numpad3, .numpad4, .numpad5, .numpad6, .numpad7, .numpad8, .numpad9, .numpadAdd,
   .numpadBackspace, .numpadClear, .numpadClearEntry, .numpadComma, .numpadDecimal,
   .numpadDivide, .numpadEnter, .numpadEqual, .numpadHash, .numpadMemoryAdd, .numpadMemoryClear,
   .numpadMemoryRecall, .numpadMemoryStore, .numpadMemorySubtract, .numpadMultiply,
   .numpadParenLeft, .numpadParenRight, .numpadStar, .numpadSubtract, .escape, .fn, .fnLock,
   .printScreen, .scrollLock, .pause, .browserBack, .browserFavorites, .browserForward,
   .browserHome, .browserRefresh, .browserSearch, .browserStop, .eject, .launchApp1, .launchApp2,
   .launchMail, .mediaPlayPause, .mediaSelect, .mediaStop, .mediaTrackNext, .mediaTrackPrevious,
   .power, .sleep, .audioVolumeDown, .audioVolumeMute, .audioVolumeUp, .wakeUp, .«meta», .hyper,
   .turbo, .abort, .resume, .suspend, .again, .copy, .cut, .find, .«open», .paste, .props,
   .select, .undo, .hiragana, .katakana, .f1, .f2, .f3, .f4, .f5, .f6, .f7, .f8, .f9, .f10, .f11,
   .f12, .f13, .f14, .f15, .f16, .f17, .f18, .f19, .f20, .f21, .f22, .f23, .f24, .f25, .f26,
   .f27, .f28, .f29, .f30, .f31, .f32, .f33, .f34, .f35]

def asU16 (k : KeyCode) : UInt16 := UInt16.ofNat k.ctorIdx

/- The arms are tried in wire order, each guarded by its own variant's value. -/
def fromU16 (v : UInt16) : Option KeyCode := all.find? (fun k => v == k.asU16)

theorem allAt (k : KeyCode) : all[k.ctorIdx]? = some k := by
  cases k <;> rfl

theorem memAll (k : KeyCode) : k ∈ all := List.mem_of_getElem? (allAt k)

theorem indexBound (k : KeyCode) : k.ctorIdx < 194 :=
  (List.getElem?_eq_some_iff.mp (allAt k)).1

theorem asU16ToNat (k : KeyCode) : k.asU16.toNat = k.ctorIdx := by
  have bound := indexBound k
  simp only [asU16,UInt16.toNat_ofNat']
  omega

theorem asU16Injective {a b : KeyCode} (same : a.asU16 = b.asU16) : a = b := by
  have index : a.ctorIdx = b.ctorIdx := by
    rw [← asU16ToNat a,← asU16ToNat b,same]
  have left := allAt a
  rw [index,allAt b] at left
  exact (Option.some.inj left).symm

theorem fromU16Exact (v : UInt16) (k : KeyCode) : fromU16 v = some k ↔ v = k.asU16 := by
  apply Iff.intro
  · intro found
    simpa using List.find?_some found
  · intro same
    subst v
    cases found : fromU16 k.asU16 with
    | none =>
      have absent := List.find?_eq_none.mp found k (memAll k)
      simp at absent
    | some other =>
      have value : k.asU16 = other.asU16 := by simpa using List.find?_some found
      rw [asU16Injective value]

theorem fromU16AsU16 (k : KeyCode) : fromU16 k.asU16 = some k := (fromU16Exact _ k).mpr rfl

end KeyCode
end Vmdesk
