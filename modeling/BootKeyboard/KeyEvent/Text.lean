import BootKeyboard.KeyEvent
import BootKeyboard.Mods.Text

/-!
# Scancodes and key events as text

The written forms of an event and of its parts: a constructor's name with its value in round brackets, a record with its
fields in order between braces.
-/

namespace BootKeyboard

/-- A scancode as text. -/
def Scancode.text (s : Scancode) : String := "Scancode(" ++ toString s.code.toNat ++ ")"

/-- The kind of a scancode as text. -/
def Scancode.Kind.text : Scancode.Kind → String
  | key usage => "Key(" ++ toString usage.toNat ++ ")"
  | modifier => "Modifier"
  | unsupported => "Unsupported"

/-- An action as text. -/
def Action.text : Action → String
  | down => "Down"
  | up => "Up"

/-- A truth value as text. -/
def truthText (b : Bool) : String := if b then "true" else "false"

/-- A key event as text. -/
def KeyEvent.text (e : KeyEvent) : String :=
  "KeyEvent \x7b action: " ++ e.action.text ++ ", scancode: " ++ e.scancode.text ++
    ", repeat: " ++ truthText e.isRepeat ++ ", mods: " ++ e.mods.text ++ " \x7d"

end BootKeyboard
