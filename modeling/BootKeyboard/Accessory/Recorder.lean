import BootKeyboard.Accessory.Handle

/-!
# Recorded accessories

`Logged` watches an accessory: it passes each call on and writes it down together with the answer. `Script` is an accessory that
gives each operation the answer that was last chosen for it. A `Recorder` is a logged script. The classes `HasLog` and
`HasScript` find the log and the script of an accessory that is used through handles.
-/

namespace BootKeyboard

/-! ## Logs -/

/-- A call with the answer it got. -/
structure Exchange where
  call : Call
  answer : Answer
deriving DecidableEq

/-- An accessory and what passed between it and the host, oldest first. -/
structure Logged (α : Type) where
  target : α
  exchanges : List Exchange := []

namespace Logged

/-- Passes a call on and writes it down. -/
def make {α : Type} [Accessory α] (c : Call) : StateM (Logged α) Answer := fun l =>
  let (x, a) := (c.make : StateM α Answer) l.target
  (x, ⟨a, l.exchanges ++ [⟨c, x⟩]⟩)

instance {α : Type} [Accessory α] : Accessory (Logged α) where
  setup id descriptor := make (.setup id descriptor)
  push id report := make (.push id report)
  unregister id := make (.unregister id)

end Logged

/-- A log is kept of the calls to the accessory. -/
class HasLog (η : Type) where
  /-- All exchanges so far, oldest first. -/
  exchanges : η → List Exchange

instance {α : Type} : HasLog (Logged α) := ⟨Logged.exchanges⟩

instance {η : Type} [HasLog η] : HasLog (Handle η) := ⟨fun h => HasLog.exchanges h.target⟩

instance Handle.Nested.hasLog {η : Type} [HasLog η] : (n : Nat) → HasLog (Handle.Nested η n)
  | 0 => inferInstanceAs (HasLog η)
  | n + 1 =>
    have := hasLog (η := η) n
    inferInstanceAs (HasLog (Handle (Handle.Nested η n)))

instance {η : Type} [HasLog η] : HasLog (Dispatched η) := ⟨fun d => HasLog.exchanges d.target⟩

/-! ## Scripts -/

/-- The operations of an accessory, by name. -/
inductive Method
  | setup
  | push
  | unregister
deriving DecidableEq

/-- An accessory that gives each operation a fixed answer. -/
structure Script where
  setup : Answer := .accepted
  push : Answer := .accepted
  unregister : Answer := .accepted
deriving DecidableEq

namespace Script

instance : Accessory Script where
  setup _ _ := return (← get).setup
  push _ _ := return (← get).push
  unregister _ := return (← get).unregister

/-- The script with the answer to one operation changed. -/
def choose (m : Method) (x : Answer) (s : Script) : Script :=
  match m with
  | .setup => { s with setup := x }
  | .push => { s with push := x }
  | .unregister => { s with unregister := x }

end Script

/-- The accessory answers by a script that can be changed. -/
class HasScript (η : Type) where
  /-- An accessory that was not used so far, with this script. -/
  ofScript : Script → η
  /-- Chooses the answer to one operation. -/
  choose : Method → Answer → η → η

instance : HasScript Script := ⟨id, Script.choose⟩

instance {η : Type} [HasScript η] : HasScript (Logged η) where
  ofScript s := { target := HasScript.ofScript s }
  choose m x l := { l with target := HasScript.choose m x l.target }

instance {η : Type} [HasScript η] : HasScript (Handle η) where
  ofScript s := ⟨HasScript.ofScript s⟩
  choose m x h := ⟨HasScript.choose m x h.target⟩

instance {η : Type} [HasScript η] [Accessory η] : HasScript (Dispatched η) where
  ofScript s := Dispatched.of (HasScript.ofScript s)
  choose m x d := { d with target := HasScript.choose m x d.target }

/-- A script that writes down what it is asked. -/
abbrev Recorder := Logged Script

end BootKeyboard
