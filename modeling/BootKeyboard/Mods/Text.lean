import BootKeyboard.Mods.Basic

/-!
# Modifier flags as text

A set is written as its words joined by a bar: the names of its flags, lowest bit first, then the bits without a name as one
hexadecimal number. A set without a bit has no word and is written as the number zero.
-/

namespace BootKeyboard

/-- A number in lower-case hexadecimal digits, without padding. -/
def hexText (n : Nat) : String := "0x" ++ String.ofList (Nat.toDigits 16 n)

namespace Mods

/-- The words of a set: its flags by name, then its nameless bits as one number if there are any. -/
def words (m : Mods) : List String :=
  m.flags.map Flag.name ++ if m.unknown.isEmpty then [] else [hexText m.unknown.bits.toNat]

/-- The words joined by bars, or zero when there is no word. -/
def body (m : Mods) : String :=
  if m.words.isEmpty then hexText 0 else " | ".intercalate m.words

/-- The set as text. -/
def text (m : Mods) : String := "KeyMods(" ++ m.body ++ ")"

end Mods

end BootKeyboard
