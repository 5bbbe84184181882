/-!
# Scancodes

A scancode names a physical key position by its HID keyboard usage. The first `keyCount` codes are keys that a report can list
in a slot; the eight from `firstModifier` to `lastModifier` are modifier keys, which a report shows in its modifier byte; the
others cannot be reported.
-/

namespace BootKeyboard

/-- A physical key position. -/
@[ext]
structure Scancode where
  code : UInt16
deriving DecidableEq

instance : Ord Scancode := ⟨fun a b => compare a.code b.code⟩

namespace Scancode

/-- How many keys are tracked: every usage up to Non-US Backslash (0x64). -/
def keyCount : Nat := 101

/-- The code of left control, the first modifier key. -/
def firstModifier : UInt16 := 224

/-- The code of the right GUI key, the last modifier key. -/
def lastModifier : UInt16 := 231

/-- The key that types an a. -/
def a : Scancode := ⟨4⟩

/-- The code lies in the range of the modifier keys. -/
def isModifier (s : Scancode) : Bool := firstModifier ≤ s.code && s.code ≤ lastModifier

/-- What a scancode stands for. -/
inductive Kind
  /-- A key that takes a slot of the report; its usage fits in a byte. -/
  | key (usage : UInt8)
  /-- A modifier key. -/
  | modifier
  /-- A position without a usage that can be reported. -/
  | unsupported
deriving DecidableEq

/-- The kind of a scancode. The byte is taken only after the range is checked, so it is the whole code. -/
def kind (s : Scancode) : Kind :=
  if s.code.toNat < keyCount then .key s.code.toUInt8
  else if s.isModifier then .modifier
  else .unsupported

end Scancode

end BootKeyboard
