/-!
# Modifier flags

A key event carries sixteen bits that say which modifiers and locks were on. Eleven of the bits have a name (`Mods.Flag`); the
other five have none and are kept as they came: the set operations work on all sixteen bits, and only `truncate` and `compl`
drop the nameless ones. `parts` takes a value apart again, into its named flags and what is left.
-/

namespace BootKeyboard

/-- A set of modifier flags, one bit each; a bit without a name is kept as it is. -/
@[ext]
structure Mods where
  bits : UInt16
deriving DecidableEq

namespace Mods

/-- The flags that have a name, lowest bit first. -/
inductive Flag
  | leftShift
  | rightShift
  | leftCtrl
  | rightCtrl
  | leftAlt
  | rightAlt
  | leftGui
  | rightGui
  | numLock
  | capsLock
  | mode
deriving DecidableEq

namespace Flag

/-- Every named flag, lowest bit first. -/
def all : List Flag :=
  [leftShift, rightShift, leftCtrl, rightCtrl, leftAlt, rightAlt, leftGui, rightGui, numLock, capsLock, mode]

/-- The one bit that stands for the flag. -/
def mask : Flag → UInt16
  | leftShift => 0x0001
  | rightShift => 0x0002
  | leftCtrl => 0x0040
  | rightCtrl => 0x0080
  | leftAlt => 0x0100
  | rightAlt => 0x0200
  | leftGui => 0x0400
  | rightGui => 0x0800
  | numLock => 0x1000
  | capsLock => 0x2000
  | mode => 0x4000

/-- The written name of the flag. -/
def name : Flag → String
  | leftShift => "LSHIFT"
  | rightShift => "RSHIFT"
  | leftCtrl => "LCTRL"
  | rightCtrl => "RCTRL"
  | leftAlt => "LALT"
  | rightAlt => "RALT"
  | leftGui => "LGUI"
  | rightGui => "RGUI"
  | numLock => "NUM"
  | capsLock => "CAPS"
  | mode => "MODE"

/-- The flag with exactly this name. -/
def ofName? (s : String) : Option Flag := all.find? (·.name == s)

/-- The set that holds this flag alone. -/
def mods (f : Flag) : Mods := ⟨f.mask⟩

theorem mem_all (f : Flag) : f ∈ all := by cases f <;> decide

end Flag

/-! ## Set operations -/

instance : EmptyCollection Mods := ⟨⟨0⟩⟩

instance : Inhabited Mods := ⟨∅⟩

instance : Union Mods := ⟨fun a b => ⟨a.bits ||| b.bits⟩⟩

instance : Inter Mods := ⟨fun a b => ⟨a.bits &&& b.bits⟩⟩

instance : SDiff Mods := ⟨fun a b => ⟨a.bits &&& ~~~b.bits⟩⟩

/-- The bits of exactly one of the two sets. -/
def symmDiff (a b : Mods) : Mods := ⟨a.bits ^^^ b.bits⟩

/-- A set is part of another when meeting it with the other changes nothing. -/
instance : HasSubset Mods := ⟨fun a b => b ∩ a = a⟩

instance (a b : Mods) : Decidable (a ⊆ b) := inferInstanceAs (Decidable (b ∩ a = a))

/-- A flag is in a set when its bit is. -/
instance : Membership Flag Mods := ⟨fun m f => f.mods ⊆ m⟩

instance (f : Flag) (m : Mods) : Decidable (f ∈ m) := inferInstanceAs (Decidable (f.mods ⊆ m))

@[simp] theorem bits_empty : (∅ : Mods).bits = 0 := rfl

@[simp] theorem bits_union (a b : Mods) : (a ∪ b).bits = a.bits ||| b.bits := rfl

@[simp] theorem bits_inter (a b : Mods) : (a ∩ b).bits = a.bits &&& b.bits := rfl

@[simp] theorem bits_sdiff (a b : Mods) : (a \ b).bits = a.bits &&& ~~~b.bits := rfl

@[simp] theorem bits_symmDiff (a b : Mods) : (a.symmDiff b).bits = a.bits ^^^ b.bits := rfl

theorem subset_iff {a b : Mods} : a ⊆ b ↔ b.bits &&& a.bits = a.bits :=
  ⟨fun h => congrArg Mods.bits h, fun h => Mods.ext h⟩

theorem mem_iff {f : Flag} {m : Mods} : f ∈ m ↔ m.bits &&& f.mask = f.mask := subset_iff

/-- No bit is set, named or not. -/
def isEmpty (m : Mods) : Bool := m.bits == 0

/-- Some bit is set in both. -/
def intersects (a b : Mods) : Bool := !(a ∩ b).isEmpty

/-! ## The named part and the rest -/

/-- Every named flag at once. -/
def known : Mods := Flag.all.foldl (fun m f => m ∪ f.mods) ∅

theorem bits_known : known.bits = 0x7FC3 := by decide

/-- The set without its nameless bits. -/
def truncate (m : Mods) : Mods := m ∩ known

/-- The nameless bits of the set. -/
def unknown (m : Mods) : Mods := m \ known

/-- The named flags that are not in the set; nameless bits never are. -/
def compl (m : Mods) : Mods := truncate ⟨~~~m.bits⟩

/-- Every named flag is set. -/
def isAll (m : Mods) : Bool := decide (known ⊆ m)

/-- The set with these bits, refused if one of them has no name. -/
def ofBits? (bits : UInt16) : Option Mods := if (unknown ⟨bits⟩).isEmpty then some ⟨bits⟩ else none

/-- The named flags of the set, lowest bit first. -/
def flags (m : Mods) : List Flag := Flag.all.filter (· ∈ m)

/-- The set in pieces: each of its named flags alone, lowest bit first, then its nameless bits in one if there are any. -/
def parts (m : Mods) : List Mods := m.flags.map Flag.mods ++ if m.unknown.isEmpty then [] else [m.unknown]

end Mods

end BootKeyboard
