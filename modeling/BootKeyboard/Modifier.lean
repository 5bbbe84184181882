import BootKeyboard.Mods.Edit
import BootKeyboard.Scancode

/-!
# The modifier byte

A report shows the eight modifier keys in one byte, a bit each. The order of these bits is not the order of the flags that an
event carries, so `Mods.modifierByte` gathers them one by one; the locks and the bits without a name have no place in the byte.
`Mods.Edit.applyByte` is what an edit of the flags does to the byte.
-/

namespace BootKeyboard

/-- The modifier keys, in the order of their bits in a report. -/
inductive Modifier
  | leftCtrl
  | leftShift
  | leftAlt
  | leftGui
  | rightCtrl
  | rightShift
  | rightAlt
  | rightGui
deriving DecidableEq

namespace Modifier

/-- Every modifier key, lowest bit first. -/
def all : List Modifier := [leftCtrl, leftShift, leftAlt, leftGui, rightCtrl, rightShift, rightAlt, rightGui]

/-- The place of the key's bit in the modifier byte. -/
def index : Modifier → Nat
  | leftCtrl => 0
  | leftShift => 1
  | leftAlt => 2
  | leftGui => 3
  | rightCtrl => 4
  | rightShift => 5
  | rightAlt => 6
  | rightGui => 7

/-- The key's bit in the modifier byte. -/
def bit (k : Modifier) : UInt8 := 1 <<< k.index.toUInt8

/-- The flag by which an event says that the key is down. -/
def flag : Modifier → Mods.Flag
  | leftCtrl => .leftCtrl
  | leftShift => .leftShift
  | leftAlt => .leftAlt
  | leftGui => .leftGui
  | rightCtrl => .rightCtrl
  | rightShift => .rightShift
  | rightAlt => .rightAlt
  | rightGui => .rightGui

/-- The scancode of the key itself. -/
def scancode (k : Modifier) : Scancode := ⟨Scancode.firstModifier + k.index.toUInt16⟩

theorem mem_all (k : Modifier) : k ∈ all := by cases k <;> decide

theorem kind_scancode (k : Modifier) : k.scancode.kind = .modifier := by cases k <;> decide

end Modifier

namespace Mods

/-- The modifier byte of a set of flags: the bit of every modifier key whose flag is set. -/
def modifierByte (m : Mods) : UInt8 :=
  (Modifier.all.filter (·.flag ∈ m)).foldl (fun byte k => byte ||| k.bit) 0

/-- What a change to the flags does to the modifier byte. -/
def Edit.applyByte : Edit → UInt8 → UInt8
  | insert b, x => x ||| b.modifierByte
  | remove b, x => x &&& ~~~b.modifierByte
  | toggle b, x => x ^^^ b.modifierByte
  | keep b, x => x &&& b.modifierByte
  | put b true, x => x ||| b.modifierByte
  | put b false, x => x &&& ~~~b.modifierByte
  | complement, x => ~~~x
  | truncate, x => x

end Mods

end BootKeyboard
