import BootKeyboard.Accessory.Error
import BootKeyboard.Bytes

/-!
# Accessories

The accessory is the other end of the cable, on which the host registers HID devices of its own. Any type with the three
operations of `Accessory` can stand for it. An operation may change the accessory's state and its answer may depend on that
state in any way.
-/

namespace BootKeyboard

/-- The number by which the host names one of its devices. -/
abbrev AccessoryId := UInt16

/-- What comes back from the accessory. -/
inductive Answer
  | accepted
  | refused (e : HidError)
deriving DecidableEq

/-- A transport on which HID devices are registered. -/
class Accessory (α : Type) where
  /-- Registers a device with its report descriptor. -/
  setup : AccessoryId → Bytes → StateM α Answer
  /-- Sends one input report of a device. -/
  push : AccessoryId → Bytes → StateM α Answer
  /-- Takes a device off again. -/
  unregister : AccessoryId → StateM α Answer

/-- One use of an operation, with what it was given. -/
inductive Call
  | setup (id : AccessoryId) (descriptor : Bytes)
  | push (id : AccessoryId) (report : Bytes)
  | unregister (id : AccessoryId)
deriving DecidableEq

/-- Makes a call. -/
def Call.make {α : Type} [Accessory α] : Call → StateM α Answer
  | setup id descriptor => Accessory.setup id descriptor
  | push id report => Accessory.push id report
  | unregister id => Accessory.unregister id

end BootKeyboard
