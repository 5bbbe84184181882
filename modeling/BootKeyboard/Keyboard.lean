import BootKeyboard.Accessory.Basic
import BootKeyboard.Descriptor.Keyboard
import BootKeyboard.HeldKeys.Basic
import BootKeyboard.KeyEvent
import BootKeyboard.Modifier
import BootKeyboard.Report.Slots
import BootKeyboard.Report.Wire

/-!
# The keyboard

A keyboard registered on an accessory. It remembers which keys are down, and for each key event it sends a report made from all
of them, so that a report that got lost is put right by the next one. Whatever error the accessory answers with, the keyboard
reports its own: `registration` when it could not be registered and `push` when a report could not be sent. What is held never
depends on an answer.
-/

namespace BootKeyboard

/-- A registered keyboard: the keys that are down on it. -/
structure Keyboard where
  held : HeldKeys
deriving DecidableEq

namespace Keyboard

/-- The number under which the keyboard is registered. -/
def accessoryId : AccessoryId := 1

/-- What an event does to a keyboard, and the report that tells of it. A repeat and a scancode that cannot be reported do
nothing and need no report. A modifier key takes no slot, but its report shows the modifiers of the event. -/
def respond (k : Keyboard) (e : KeyEvent) : Option Report × Keyboard :=
  if e.isRepeat then (none, k)
  else
    match e.scancode.kind with
    | .key usage =>
      let held := k.held.set usage.toNat e.isDown
      (some (.ofHeld e.mods.modifierByte held), ⟨held⟩)
    | .modifier => (some (.ofHeld e.mods.modifierByte k.held), k)
    | .unsupported => (none, k)

section Accessory

variable {α : Type} [Accessory α]

/-- Registers a keyboard on which nothing is down. -/
def register : StateM α (Except HidError Keyboard) := do
  match ← Accessory.setup accessoryId Descriptor.keyboard with
  | .accepted => return .ok ⟨∅⟩
  | .refused _ => return .error .registration

/-- Sends a report. -/
def send (r : Report) : StateM α Answer := do
  match ← Accessory.push accessoryId r.toBytes.toList with
  | .accepted => return .accepted
  | .refused _ => return .refused .push

/-- Takes in one notification of the event source. The report of a key event is sent and not looked after; a text is ignored,
for its keys came as events before. -/
def receive (k : Keyboard) : Input → StateM α Keyboard
  | .key e => do
    match k.respond e with
    | (none, k) => return k
    | (some r, k) =>
      let _ ← (send r : StateM α Answer)
      return k
  | .text _ => return k

/-- Takes the keyboard off the accessory, whatever that answers. -/
def unregister : StateM α Unit := do
  let _ ← (Accessory.unregister accessoryId : StateM α Answer)

end Accessory

end Keyboard

end BootKeyboard
