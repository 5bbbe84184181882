import BootKeyboard.Keyboard
import Std.Data.TreeMap

/-!
# Sessions

A session holds keyboards in numbered slots, all of them registered on one accessory. Each step works on one slot: it puts a
keyboard there, takes it away, or uses it. A keyboard is taken off the accessory when its slot is given to another, and when the
session is closed.
-/

namespace BootKeyboard

/-- A way to use a keyboard. -/
inductive Use
  /-- Takes in a notification. -/
  | input (i : Input)
  /-- Works out the report for an event and sends nothing. -/
  | respond (e : KeyEvent)
  /-- Works out the report for an event and sends it if there is one. -/
  | respondAndSend (e : KeyEvent)
  /-- Sends a report of the caller's. -/
  | send (r : Report)
  /-- Asks for the number of the keyboard. -/
  | accessoryId
  /-- Asks whether a key is down. -/
  | isHeld (code : Nat)
  /-- Asks how many keys are down. -/
  | count

/-- What a step comes back with. -/
inductive Reply
  /-- The step was done and has nothing to tell. -/
  | silent
  /-- The step was done. -/
  | done
  /-- The step failed. -/
  | failed (e : HidError)
  /-- The slot is empty. -/
  | noKeyboard
  /-- The report for an event that was not sent. -/
  | report (r : Report)
  /-- The number that was asked for. -/
  | number (n : Nat)
  /-- Whether what was asked is so. -/
  | truth (b : Bool)
deriving DecidableEq

/-- The reply that passes an answer on. -/
def Reply.ofAnswer : Answer → Reply
  | .accepted => done
  | .refused e => failed e

/-- Uses a keyboard. -/
def Keyboard.use {α : Type} [Accessory α] (k : Keyboard) : Use → StateM α (Reply × Keyboard)
  | .input i => do return (.silent, ← k.receive i)
  | .respond e =>
    match k.respond e with
    | (none, k) => return (.silent, k)
    | (some r, k) => return (.report r, k)
  | .respondAndSend e =>
    match k.respond e with
    | (none, k) => return (.silent, k)
    | (some r, k) => do return (.ofAnswer (← send r), k)
  | .send r => do return (.ofAnswer (← send r), k)
  | .accessoryId => return (.number Keyboard.accessoryId.toNat, k)
  | .isHeld code => return (.truth (k.held.isHeld code), k)
  | .count => return (.number k.held.count, k)

/-- A step on one slot. -/
inductive Step
  /-- Puts a new keyboard there. -/
  | register
  /-- Takes the keyboard away. -/
  | vacate
  /-- Uses the keyboard. -/
  | use (u : Use)

/-- Keyboards in numbered slots on one accessory. -/
structure Session (α : Type) where
  accessory : α
  keyboards : Std.TreeMap Nat Keyboard := ∅

namespace Session

variable {α : Type} [Accessory α]

/-- Takes the keyboard in a slot away, if there is one. -/
def vacate (s : Session α) (slot : Nat) : Session α :=
  match s.keyboards[slot]? with
  | none => s
  | some _ => ⟨(Keyboard.unregister s.accessory).2, s.keyboards.erase slot⟩

/-- Takes the keyboard in a slot away and puts a new one there. When the new one cannot be registered the slot stays empty. -/
def register (s : Session α) (slot : Nat) : Reply × Session α :=
  let s := s.vacate slot
  match Keyboard.register s.accessory with
  | (.ok k, a) => (.done, ⟨a, s.keyboards.insert slot k⟩)
  | (.error e, a) => (.failed e, { s with accessory := a })

/-- Uses the keyboard in a slot. -/
def use (s : Session α) (slot : Nat) (u : Use) : Reply × Session α :=
  match s.keyboards[slot]? with
  | none => (.noKeyboard, s)
  | some k =>
    match k.use u s.accessory with
    | ((reply, k), a) => (reply, ⟨a, s.keyboards.insert slot k⟩)

/-- Takes a step on a slot. -/
def step (s : Session α) (slot : Nat) : Step → Reply × Session α
  | .register => s.register slot
  | .vacate => (.done, s.vacate slot)
  | .use u => s.use slot u

/-- The codes of the keys that are down on the keyboard in a slot. -/
def held (s : Session α) (slot : Nat) : Option (List UInt8) := s.keyboards[slot]?.map (·.held.codes)

/-- Takes all keyboards away, lowest slot first. -/
def close (s : Session α) : Session α := s.keyboards.keys.foldl vacate s

end Session

end BootKeyboard
