import BootKeyboard.Descriptor.Item
import BootKeyboard.Report.Basic
import BootKeyboard.Scancode

/-!
# The report descriptor of the keyboard

What the accessory is told about the reports that will come: eight modifier bits, a reserved byte, five lamps that the host may
light, and an array of slots that hold the usages of the tracked keys.
-/

namespace BootKeyboard

namespace Descriptor

open Item (ofByte)

/-- The modifier bits, left control to right GUI. -/
def modifierItems : List Item :=
  [ofByte .usagePage 0x07, ofByte .usageMin 0xE0, ofByte .usageMax 0xE7, ofByte .logicalMin 0, ofByte .logicalMax 1,
    ofByte .reportSize 1, ofByte .reportCount 8, ofByte .input 0x02]

/-- The reserved byte. -/
def reservedItems : List Item := [ofByte .reportSize 8, ofByte .reportCount 1, ofByte .input 0x01]

/-- The lamps and the bits that fill their byte up. -/
def lampItems : List Item :=
  [ofByte .usagePage 0x08, ofByte .usageMin 1, ofByte .usageMax 5, ofByte .reportSize 1, ofByte .reportCount 5,
    ofByte .output 0x02, ofByte .reportSize 3, ofByte .reportCount 1, ofByte .output 0x01]

/-- The highest usage that a slot can hold. -/
def maxUsage : UInt8 := (Scancode.keyCount - 1).toUInt8

/-- The slots. -/
def slotItems : List Item :=
  [ofByte .usagePage 0x07, ofByte .usageMin 0, ofByte .usageMax maxUsage, ofByte .logicalMin 0, ofByte .logicalMax maxUsage,
    ofByte .reportSize 8, ofByte .reportCount Report.slotCount.toUInt8, ofByte .input 0x00]

/-- The items of the descriptor: one application collection, of the usage of a keyboard on the page of desktop controls. -/
def keyboardItems : List Item :=
  [ofByte .usagePage 0x01, ofByte .usage 0x06, ofByte .collection 0x01] ++ modifierItems ++ reservedItems ++ lampItems ++
    slotItems ++ [⟨.endCollection, []⟩]

/-- The descriptor of the keyboard. -/
def keyboard : Bytes := keyboardItems.flatMap Item.encode

/-- The bytes that the accessory is given, item by item. -/
theorem keyboard_eq : keyboard =
    [0x05, 0x01, 0x09, 0x06, 0xA1, 0x01,
      0x05, 0x07, 0x19, 0xE0, 0x29, 0xE7, 0x15, 0x00, 0x25, 0x01, 0x75, 0x01, 0x95, 0x08, 0x81, 0x02,
      0x75, 0x08, 0x95, 0x01, 0x81, 0x01,
      0x05, 0x08, 0x19, 0x01, 0x29, 0x05, 0x75, 0x01, 0x95, 0x05, 0x91, 0x02, 0x75, 0x03, 0x95, 0x01, 0x91, 0x01,
      0x05, 0x07, 0x19, 0x00, 0x29, 0x64, 0x15, 0x00, 0x25, 0x64, 0x75, 0x08, 0x95, 0x06, 0x81, 0x00,
      0xC0] := by
  decide

theorem readAll_keyboard : Item.readAll keyboard = some keyboardItems := by
  rw [keyboard_eq]
  decide

end Descriptor

end BootKeyboard
