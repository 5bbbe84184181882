/-!
# Transport errors

Why a call to the accessory fails, and the words for it.
-/

namespace BootKeyboard

/-- A failure on the way to the accessory. -/
inductive HidError
  /-- The accessory refused a report descriptor. -/
  | registration
  /-- The accessory could not be given a report. -/
  | push
  /-- The transfer below both of them failed. -/
  | transfer
deriving DecidableEq

/-- The failure in words. -/
def HidError.message : HidError → String
  | registration => "HID descriptor registration failed"
  | push => "HID event push failed"
  | transfer => "USB transfer failed"

end BootKeyboard
