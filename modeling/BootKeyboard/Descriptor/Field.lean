import BootKeyboard.Descriptor.Item

/-!
# The input fields of a descriptor

Walking over the items of a descriptor, each input item describes the next field of the report. The page, the logical extent
and the size and count of the elements stay in force until they are changed; the extent of the usages is forgotten after each
main item.
-/

namespace BootKeyboard

namespace Descriptor

/-- One field of a report: `count` elements of `size` bits each. -/
structure Field where
  page : Nat
  usageMin : Nat
  usageMax : Nat
  logicalMin : Int
  logicalMax : Int
  size : Nat
  count : Nat
  /-- The field is padding and says nothing. -/
  isConstant : Bool
  /-- Each element stands for a usage of its own; otherwise the value of an element chooses one. -/
  isVariable : Bool
deriving DecidableEq

/-- How many bits a field takes. -/
def Field.width (f : Field) : Nat := f.size * f.count

/-- What is in force after some items of a descriptor, and the input fields they described. -/
structure Walk where
  page : Nat := 0
  logicalMin : Int := 0
  logicalMax : Int := 0
  size : Nat := 0
  count : Nat := 0
  usageMin : Nat := 0
  usageMax : Nat := 0
  fields : List Field := []

namespace Walk

/-- The field that a main item with these flags describes. -/
def field (w : Walk) (flags : Nat) : Field where
  page := w.page
  usageMin := w.usageMin
  usageMax := w.usageMax
  logicalMin := w.logicalMin
  logicalMax := w.logicalMax
  size := w.size
  count := w.count
  isConstant := flags.testBit 0
  isVariable := flags.testBit 1

/-- Forgets what holds only up to a main item. -/
def endMain (w : Walk) : Walk := { w with usageMin := 0, usageMax := 0 }

/-- The walk after one more item. -/
def step (w : Walk) (i : Item) : Walk :=
  match i.tag with
  | .usagePage => { w with page := i.value }
  | .logicalMin => { w with logicalMin := i.signedValue }
  | .logicalMax => { w with logicalMax := i.signedValue }
  | .reportSize => { w with size := i.value }
  | .reportCount => { w with count := i.value }
  | .usage => w
  | .usageMin => { w with usageMin := i.value }
  | .usageMax => { w with usageMax := i.value }
  | .input => { w.endMain with fields := w.fields ++ [w.field i.value] }
  | .output | .feature | .collection | .endCollection => w.endMain

end Walk

/-- The input fields that a list of items describes, in the order in which they lie in the report. -/
def inputFieldsOf (items : List Item) : List Field := (items.foldl Walk.step {}).fields

/-- The input fields of a descriptor, if it is a row of short items. -/
def inputFields? (descriptor : Bytes) : Option (List Field) := (Item.readAll descriptor).map inputFieldsOf

end Descriptor

end BootKeyboard
