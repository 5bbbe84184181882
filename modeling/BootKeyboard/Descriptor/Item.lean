import BootKeyboard.Bytes

/-!
# Short items

A HID report descriptor is a row of short items. An item is a header byte, with a tag in its upper six bits and the length of
the data in the lower two, followed by the data, lowest byte first. `Item.encode` writes an item and `Item.read?` takes one off
the front of a row.
-/

namespace BootKeyboard

namespace Descriptor

/-- What an item speaks of. -/
inductive Tag
  | input
  | output
  | feature
  | collection
  | endCollection
  | usagePage
  | logicalMin
  | logicalMax
  | reportSize
  | reportCount
  | usage
  | usageMin
  | usageMax
deriving DecidableEq

namespace Tag

/-- Every tag. -/
def all : List Tag :=
  [input, output, feature, collection, endCollection, usagePage, logicalMin, logicalMax, reportSize, reportCount, usage,
    usageMin, usageMax]

/-- The header byte of an item with this tag and no data. -/
def code : Tag → UInt8
  | input => 0x80
  | output => 0x90
  | feature => 0xB0
  | collection => 0xA0
  | endCollection => 0xC0
  | usagePage => 0x04
  | logicalMin => 0x14
  | logicalMax => 0x24
  | reportSize => 0x74
  | reportCount => 0x94
  | usage => 0x08
  | usageMin => 0x18
  | usageMax => 0x28

/-- The tag with this code. -/
def ofCode? (c : UInt8) : Option Tag := all.find? (·.code == c)

theorem ofCode?_code (t : Tag) : ofCode? t.code = some t := by cases t <;> decide

end Tag

/-- A short item. -/
structure Item where
  tag : Tag
  /-- No byte, or one, two or four bytes, lowest first. -/
  data : Bytes := []
deriving DecidableEq

namespace Item

/-- An item with one byte of data. -/
def ofByte (tag : Tag) (x : UInt8) : Item := ⟨tag, [x]⟩

/-- The length of the data as the header writes it. -/
def sizeCode (n : Nat) : UInt8 := if n = 4 then 3 else n.toUInt8

/-- The length of the data after a header. -/
def dataSize (header : UInt8) : Nat :=
  let n := (header &&& 3).toNat
  if n = 3 then 4 else n

/-- The bytes of an item. -/
def encode (i : Item) : Bytes := (i.tag.code ||| sizeCode i.data.length) :: i.data

/-- The item with which a row of bytes begins, and the rest of the row. -/
def read? : Bytes → Option (Item × Bytes)
  | [] => none
  | header :: rest => do
    let tag ← Tag.ofCode? (header &&& 0xFC)
    if dataSize header ≤ rest.length then
      return (⟨tag, rest.take (dataSize header)⟩, rest.drop (dataSize header))
    else none

/-- The items that fill a row of bytes, at most `n` of them. -/
def readUpTo : Nat → Bytes → Option (List Item)
  | _, [] => some []
  | 0, _ :: _ => none
  | n + 1, b => do
    let (i, rest) ← read? b
    return i :: (← readUpTo n rest)

/-- The items that fill a row of bytes. No item is empty, so there are no more of them than bytes. -/
def readAll (b : Bytes) : Option (List Item) := readUpTo b.length b

/-- The data as a number without a sign. -/
def value (i : Item) : Nat := i.data.foldr (fun x n => x.toNat + 256 * n) 0

/-- The data as a number in two's complement. -/
def signedValue (i : Item) : Int :=
  let width := 8 * i.data.length
  if i.value.testBit (width - 1) then (i.value : Int) - ((1 <<< width : Nat) : Int) else i.value

end Item

end Descriptor

end BootKeyboard
