import BootKeyboard.Mods.Basic

/-!
# Editing modifier flags

The steps by which a set of flags is changed in place. None of them drops a bit without a name, except `complement` and
`truncate`.
-/

namespace BootKeyboard

namespace Mods

/-- One change to a set of flags. -/
inductive Edit
  /-- Adds the bits. -/
  | insert (b : Mods)
  /-- Takes the bits away. -/
  | remove (b : Mods)
  /-- Flips the bits. -/
  | toggle (b : Mods)
  /-- Keeps these bits and no other. -/
  | keep (b : Mods)
  /-- Adds the bits if they are to be present, else takes them away. -/
  | put (b : Mods) (present : Bool)
  /-- Turns the set into the named flags it lacks. -/
  | complement
  /-- Drops the bits without a name. -/
  | truncate

/-- The set after the change. -/
def Edit.apply : Edit → Mods → Mods
  | insert b, m => m ∪ b
  | remove b, m => m \ b
  | toggle b, m => m.symmDiff b
  | keep b, m => m ∩ b
  | put b true, m => m ∪ b
  | put b false, m => m \ b
  | complement, m => m.compl
  | truncate, m => m.truncate

/-- The set after a list of changes, first to last. -/
def edit (m : Mods) (es : List Edit) : Mods := es.foldl (fun m e => e.apply m) m

end Mods

end BootKeyboard
