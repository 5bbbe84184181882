import BootKeyboard.Descriptor.Field

/-!
# Reading a report by its descriptor

What a host makes of a report when all it knows is the descriptor: the bits of the report are cut into the elements of the input
fields, and each field says which usages its elements stand for.
-/

namespace BootKeyboard

namespace Descriptor

/-- What a bit or a slot can stand for. -/
structure Usage where
  page : Nat
  id : Nat
deriving DecidableEq

/-- The bits of a row of bytes, lowest bit of the first byte first. -/
def bitsOf (b : Bytes) : List Bool := b.flatMap fun x => (List.range 8).map x.toNat.testBit

/-- The number with these bits, lowest bit first. -/
def ofBits (bits : List Bool) : Nat := bits.foldr (fun b n => b.toNat + 2 * n) 0

namespace Field

/-- The values of a field's elements, cut from the bits that begin with the field. -/
def elements (f : Field) (bits : List Bool) : List Nat :=
  (List.range f.count).map fun i => ofBits ((bits.drop (i * f.size)).take f.size)

/-- The value lies in the field's logical extent. -/
def inExtent (f : Field) (v : Nat) : Bool := decide (f.logicalMin ≤ v ∧ v ≤ f.logicalMax)

/-- The usage that a value of an array element chooses, if it is in the extent and is not the usage of no key. -/
def chosen? (f : Field) (v : Nat) : Option Usage :=
  let id := f.usageMin + ((v : Int) - f.logicalMin).toNat
  if f.inExtent v && id != 0 then some ⟨f.page, id⟩ else none

/-- The usages that the elements of a field stand for. -/
def usages (f : Field) (values : List Nat) : List Usage :=
  if f.isConstant then []
  else if f.isVariable then
    (values.zipIdx.filter (·.1 != 0)).map fun (_, i) => ⟨f.page, f.usageMin + i⟩
  else values.filterMap f.chosen?

end Field

/-- Each field with the values of its elements, when the fields lie one after the other in these bits. -/
def split : List Field → List Bool → List (Field × List Nat)
  | [], _ => []
  | f :: fs, bits => (f, f.elements bits) :: split fs (bits.drop f.width)

/-- The usages that are down in a report, going by its fields. -/
def decode (fs : List Field) (report : Bytes) : List Usage :=
  (split fs (bitsOf report)).flatMap fun (f, values) => f.usages values

/-- How many bits the fields take. -/
def totalWidth (fs : List Field) : Nat := fs.foldr (fun f n => f.width + n) 0

end Descriptor

end BootKeyboard
