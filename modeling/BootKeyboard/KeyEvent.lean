import BootKeyboard.Mods.Basic
import BootKeyboard.Scancode

/-!
# Key events

What the event source tells the keyboard: a key went down or came up, or a piece of text was composed.
-/

namespace BootKeyboard

/-- Which way a key moved. -/
inductive Action
  | down
  | up
deriving DecidableEq

/-- A key press or release. -/
structure KeyEvent where
  action : Action
  scancode : Scancode
  /-- The source marks the presses it makes up while a key stays down. -/
  isRepeat : Bool := false
  /-- The flags that were on at the time. -/
  mods : Mods
deriving DecidableEq

namespace KeyEvent

/-- A press. -/
def down (s : Scancode) (m : Mods) : KeyEvent := { action := .down, scancode := s, mods := m }

/-- A release. -/
def up (s : Scancode) (m : Mods) : KeyEvent := { action := .up, scancode := s, mods := m }

/-- The same event, marked as a repeat. -/
def repeated (e : KeyEvent) : KeyEvent := { e with isRepeat := true }

/-- The event is a press. -/
def isDown (e : KeyEvent) : Bool := e.action == .down

end KeyEvent

/-- One notification from the event source. -/
inductive Input
  /-- A key moved. -/
  | key (e : KeyEvent)
  /-- An input method composed a text. -/
  | text (s : String)
deriving DecidableEq

end BootKeyboard
