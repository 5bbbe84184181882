import BootKeyboard.Accessory.Basic

/-!
# Handles on an accessory

An accessory can be used through a handle that passes every operation on to it. A `Handle` is for an accessory of a known type,
and `Nested` puts such handles on top of each other; a `Dispatched` accessory brings its operations along as a value.
-/

namespace BootKeyboard

/-- A handle on an accessory. -/
structure Handle (α : Type) where
  target : α

namespace Handle

/-- Does to the target what the action says. -/
def lift {α β : Type} (f : StateM α β) : StateM (Handle α) β := fun h =>
  let (x, a) := f h.target
  (x, ⟨a⟩)

instance {α : Type} [Accessory α] : Accessory (Handle α) where
  setup id descriptor := lift (Accessory.setup id descriptor)
  push id report := lift (Accessory.push id report)
  unregister id := lift (Accessory.unregister id)

/-- A handle on a handle, and so on, `n` deep. -/
def Nested (α : Type) : Nat → Type
  | 0 => α
  | n + 1 => Handle (Nested α n)

namespace Nested

instance accessory {α : Type} [Accessory α] : (n : Nat) → Accessory (Nested α n)
  | 0 => inferInstanceAs (Accessory α)
  | n + 1 =>
    have := accessory (α := α) n
    inferInstanceAs (Accessory (Handle (Nested α n)))

/-- Puts `n` handles on an accessory. -/
def wrap {α : Type} : (n : Nat) → α → Nested α n
  | 0, a => a
  | n + 1, a => (⟨wrap n a⟩ : Handle (Nested α n))

/-- The accessory at the bottom of the handles. -/
def unwrap {α : Type} : (n : Nat) → Nested α n → α
  | 0, a => a
  | n + 1, h => unwrap n (Handle.target h)

end Nested

end Handle

/-- An accessory together with the operations to use on it. -/
structure Dispatched (α : Type) where
  operations : Accessory α
  target : α

namespace Dispatched

/-- An accessory together with the operations that its type has. -/
def of {α : Type} [inst : Accessory α] (a : α) : Dispatched α := ⟨inst, a⟩

/-- Does to the target what the action says. -/
def lift {α β : Type} (f : Accessory α → StateM α β) : StateM (Dispatched α) β := fun d =>
  let (x, a) := f d.operations d.target
  (x, { d with target := a })

instance {α : Type} : Accessory (Dispatched α) where
  setup id descriptor := lift fun ops => ops.setup id descriptor
  push id report := lift fun ops => ops.push id report
  unregister id := lift fun ops => ops.unregister id

end Dispatched

end BootKeyboard
