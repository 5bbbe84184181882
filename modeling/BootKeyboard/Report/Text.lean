import BootKeyboard.Report.Basic

/-!
# Reports as text

A report is written with its three fields in order, the slots as a list of numbers.
-/

namespace BootKeyboard

/-- A list of bytes as text: numbers in square brackets. -/
def bytesText (b : List UInt8) : String := "[" ++ ", ".intercalate (b.map fun x => toString x.toNat) ++ "]"

/-- A report as text. -/
def Report.text (r : Report) : String :=
  "KeyboardReport \x7b modifier: " ++ toString r.modifier.toNat ++ ", reserved: " ++ toString r.reserved.toNat ++
    ", keycodes: " ++ bytesText r.slots.toList ++ " \x7d"

end BootKeyboard
