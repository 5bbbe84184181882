import BootKeyboard.HeldKeys.Basic

/-!
# Editing the table of held keys

The changes that can be made to a table of held keys when a copy of it is kept aside: a key is pressed or released, all keys are
released at once, the copy is renewed from the table or the table is put back from the copy.
-/

namespace BootKeyboard

namespace HeldKeys

/-- A table and the copy of it that was set aside. -/
structure Checkpoint where
  current : HeldKeys := ∅
  saved : HeldKeys := ∅

/-- One change to a table with a copy. -/
inductive Edit
  /-- Records a press or a release. -/
  | set (code : Nat) (held : Bool)
  /-- Releases every key. -/
  | clear
  /-- Sets a copy of the table aside. -/
  | save
  /-- Puts the copy back. -/
  | restore

/-- The table and its copy after a change. -/
def Edit.apply : Edit → Checkpoint → Checkpoint
  | set code held, c => { c with current := c.current.set code held }
  | clear, c => { c with current := ∅ }
  | save, c => { c with saved := c.current }
  | restore, c => { c with current := c.saved }

/-- The table and its copy after a list of changes, first to last. -/
def Checkpoint.edit (c : Checkpoint) (es : List Edit) : Checkpoint := es.foldl (fun c e => e.apply c) c

end HeldKeys

end BootKeyboard
