/-!
# Keyboard reports

A report in the form of the boot protocol: the modifier byte, a reserved byte, and six slots that list the usages of the keys
that are down. A slot that is not needed holds zero. When more keys are down than there are slots, every slot holds the
roll-over usage instead.
-/

namespace BootKeyboard

namespace Report

/-- How many keys a report can list. -/
def slotCount : Nat := 6

/-- The value of the reserved byte in every report that is built here. -/
def reservedByte : UInt8 := 0

/-- The usage in every slot when too many keys are down. -/
def rollOver : UInt8 := 1

end Report

/-- A keyboard report. -/
@[ext]
structure Report where
  /-- One bit for each modifier key. -/
  modifier : UInt8
  /-- Always `reservedByte` in a report built here, but kept when a report is read from the wire. -/
  reserved : UInt8 := Report.reservedByte
  /-- The usages of the keys that are down. -/
  slots : Vector UInt8 Report.slotCount
deriving DecidableEq

namespace Report

/-- The report of a keyboard on which nothing is down. -/
def empty : Report := { modifier := 0, slots := Vector.replicate slotCount 0 }

instance : Inhabited Report := ⟨empty⟩

/-- The report shows no modifier and no key. -/
def isEmpty (r : Report) : Bool := r.modifier == 0 && r.slots.toList.all (· == 0)

/-- The report shows that too many keys are down. -/
def isRollOver (r : Report) : Bool := r.slots.toList.all (· == rollOver)

end Report

end BootKeyboard
