import BootKeyboard.Accessory.Recorder
import BootKeyboard.Session

/-!
# Transcripts

The record of a session whose accessory keeps a log. Every step is entered with its reply, the keys that are down afterwards on
the keyboard in its slot, and what passed between the host and the accessory meanwhile. Where the accessory answers by a script,
the script can be changed between the steps.
-/

namespace BootKeyboard

/-- What is written down about a step. -/
structure Entry where
  reply : Reply
  /-- The codes of the keys that are down afterwards on the keyboard in the slot, if there is one. -/
  held : Option (List UInt8)
  /-- The calls made during the step, with their answers. -/
  exchanges : List Exchange
deriving DecidableEq

/-- What is done in a session whose accessory is scripted. -/
inductive Command
  /-- Chooses the answer to an operation. -/
  | script (m : Method) (x : Answer)
  /-- Takes a step on a slot. -/
  | step (slot : Nat) (st : Step)

/-- The record of a session: an entry for each command that is a step, and the exchanges when the session was closed. -/
structure Transcript where
  entries : List (Option Entry)
  closing : List Exchange
deriving DecidableEq

namespace Session

variable {η : Type} [Accessory η] [HasLog η]

/-- The exchanges that came after an earlier state of the session. -/
def exchangesSince (s earlier : Session η) : List Exchange :=
  (HasLog.exchanges s.accessory).drop (HasLog.exchanges earlier.accessory).length

/-- Takes a step and enters it. -/
def enter (s : Session η) (slot : Nat) (st : Step) : Entry × Session η :=
  match s.step slot st with
  | (reply, s') => (⟨reply, s'.held slot, s'.exchangesSince s⟩, s')

/-- Takes steps, first to last, and enters them. -/
def record (s : Session η) : List (Nat × Step) → List Entry × Session η
  | [] => ([], s)
  | (slot, st) :: rest =>
    match s.enter slot st with
    | (entry, s) =>
      match s.record rest with
      | (entries, s) => (entry :: entries, s)

variable [HasScript η]

/-- A session that begins: an accessory that accepts everything, and no keyboard. -/
def fresh (η : Type) [HasScript η] : Session η := { accessory := HasScript.ofScript {} }

/-- Carries out a command. -/
def command (s : Session η) : Command → Option Entry × Session η
  | .script m x => (none, { s with accessory := HasScript.choose m x s.accessory })
  | .step slot st =>
    match s.enter slot st with
    | (entry, s) => (some entry, s)

/-- Carries out commands, first to last. -/
def run (s : Session η) : List Command → List (Option Entry) × Session η
  | [] => ([], s)
  | c :: rest =>
    match s.command c with
    | (entry, s) =>
      match s.run rest with
      | (entries, s) => (entry :: entries, s)

/-- Carries out commands and closes the session. -/
def transcript (s : Session η) (cs : List Command) : Transcript :=
  match s.run cs with
  | (entries, s) => ⟨entries, s.close.exchangesSince s⟩

end Session

end BootKeyboard
