import BootKeyboard.Proofs.Session.Slots
import Mathlib.Logic.Function.Basic

/-!
# The ledger of a session

A session on a watched accessory says which calls were made, but not for which keyboard: all keyboards go by one number. A ledger
follows the session and charges every exchange to the keyboard it was made for. A keyboard is named by its place among the
registrations, so a slot that is given away and taken again holds a new keyboard. The session in a ledger is the session itself
(`session_step`, `session_close`): the ledger only writes.

Registering on a slot is two moves, the old keyboard leaves and the new one enrols. Each move is told by a lemma that says what is
charged and to whom.
-/

namespace BootKeyboard

open Keyboard (accessoryId)

variable {α : Type}

/-- What came of a step, if it was a registration. -/
def Entry.registration? (st : Step) (entry : Entry) : Option Reply :=
  match st with
  | .register => some entry.reply
  | _ => none

/-- A session with the account of its keyboards. -/
structure Ledger (α : Type) where
  session : Session (Logged α)
  /-- What came of each registration, oldest first. -/
  registrations : List Reply := []
  /-- The keyboard in each slot, named by its place among the registrations. -/
  tenant : Nat → Option Nat := fun _ => none
  /-- The exchanges so far, oldest first, with the keyboard each was made for. -/
  charges : List (Nat × Exchange) := []

namespace Ledger

/-- The exchanges that were made for a keyboard, oldest first. -/
def exchangesOf (l : Ledger α) (n : Nat) : List Exchange := (l.charges.filter (·.1 == n)).map Prod.snd

/-- The charges for what passed while the session went on to a later state. Nothing is charged where there is no keyboard. -/
def chargesFor (l : Ledger α) (n? : Option Nat) (s : Session (Logged α)) : List (Nat × Exchange) :=
  n?.toList.flatMap fun n => (s.exchangesSince l.session).map (n, ·)

/-- What is charged to a keyboard is made for it. -/
theorem exchangesOf_append_self {l l' : Ledger α} {n : Nat} {xs : List Exchange}
    (h : l'.charges = l.charges ++ xs.map (n, ·)) : l'.exchangesOf n = l.exchangesOf n ++ xs := by
  have hall : (xs.map (n, ·)).filter (·.1 == n) = xs.map (n, ·) := by
    rw [List.filter_eq_self]
    intro c hc
    obtain ⟨x, -, rfl⟩ := List.mem_map.mp hc
    exact beq_self_eq_true n
  rw [exchangesOf, h, List.filter_append, List.map_append, ← exchangesOf, hall, List.map_map]
  exact congrArg _ (List.map_id xs)

/-- What is charged to one keyboard is made for no other. -/
theorem exchangesOf_append_of_ne {l l' : Ledger α} {n : Nat} {xs : List Exchange}
    (h : l'.charges = l.charges ++ xs.map (n, ·)) {m : Nat} (hm : m ≠ n) : l'.exchangesOf m = l.exchangesOf m := by
  have hnone : (xs.map (n, ·)).filter (·.1 == m) = [] := by
    rw [List.filter_eq_nil_iff]
    intro c hc
    obtain ⟨x, -, rfl⟩ := List.mem_map.mp hc
    simpa using Ne.symm hm
  rw [exchangesOf, h, List.filter_append, hnone, List.append_nil, ← exchangesOf]

theorem chargesFor_some {l : Ledger α} {s : Session (Logged α)} {xs : List Exchange}
    (h : s.accessory.exchanges = l.session.accessory.exchanges ++ xs) (n : Nat) :
    l.chargesFor (some n) s = xs.map (n, ·) := by
  rw [chargesFor, Option.toList_some, List.flatMap_singleton, Session.exchangesSince_of_append h]

variable [Accessory α]

/-- A ledger that begins: an accessory that nothing was asked of, and no keyboard. -/
def begin (a : α) : Ledger α := { session := { accessory := { target := a } } }

/-- The keyboard in a slot is taken away; what passes is charged to it. -/
def leave (l : Ledger α) (slot : Nat) : Ledger α :=
  { l with
    session := l.session.vacate slot
    tenant := Function.update l.tenant slot none
    charges := l.charges ++ l.chargesFor (l.tenant slot) (l.session.vacate slot) }

/-- A new keyboard is registered on a slot that is free; what passes is charged to it. -/
def enrol (l : Ledger α) (slot : Nat) : Ledger α :=
  { session := (l.session.register slot).2
    registrations := l.registrations ++ [(l.session.register slot).1]
    tenant := Function.update l.tenant slot
      ((l.session.register slot).2.keyboards[slot]?.map fun _ => l.registrations.length)
    charges := l.charges ++ l.chargesFor (some l.registrations.length) (l.session.register slot).2 }

/-- The keyboard in a slot is used; what passes is charged to it. -/
def use (l : Ledger α) (slot : Nat) (u : Use) : Ledger α :=
  { l with
    session := (l.session.use slot u).2
    charges := l.charges ++ l.chargesFor (l.tenant slot) (l.session.use slot u).2 }

/-- Takes a step on a slot. -/
def step (l : Ledger α) (slot : Nat) : Step → Ledger α
  | .register => (l.leave slot).enrol slot
  | .vacate => l.leave slot
  | .use u => l.use slot u

/-- Takes steps, first to last. -/
def run (l : Ledger α) (steps : List (Nat × Step)) : Ledger α := steps.foldl (fun l p => l.step p.1 p.2) l

/-- All keyboards are taken away, lowest slot first. -/
def close (l : Ledger α) : Ledger α := l.session.keyboards.keys.foldl leave l

/-! ## The session in a ledger -/

theorem session_step (l : Ledger α) (slot : Nat) (st : Step) :
    (l.step slot st).session = (l.session.step slot st).2 := by
  cases st with
  | register =>
    rw [Session.step_register]
    rfl
  | vacate => rfl
  | use u => rfl

theorem session_leaves (l : Ledger α) (slots : List Nat) :
    (slots.foldl leave l).session = slots.foldl Session.vacate l.session := by
  induction slots generalizing l with
  | nil => rfl
  | cons slot slots ih => exact ih (l.leave slot)

theorem session_close (l : Ledger α) : l.close.session = l.session.close := session_leaves l _

theorem registrations_close (l : Ledger α) : l.close.registrations = l.registrations := by
  unfold close
  induction l.session.keyboards.keys generalizing l with
  | nil => rfl
  | cons slot slots ih => exact ih (l.leave slot)

/-- The session in a ledger is the one that is recorded. -/
theorem session_run (l : Ledger α) (steps : List (Nat × Step)) :
    (l.run steps).session = (l.session.record steps).2 := by
  induction steps generalizing l with
  | nil => rfl
  | cons p steps ih =>
    have hrun : (l.run (p :: steps)).session = ((l.step p.1 p.2).run steps).session := rfl
    rw [hrun, ih, session_step]
    rfl

/-- The ledger lists the replies that the registrations have in the record. -/
theorem registrations_run (l : Ledger α) (steps : List (Nat × Step)) :
    (l.run steps).registrations = l.registrations ++
      (steps.zip (l.session.record steps).1).filterMap fun p => p.2.registration? p.1.2 := by
  induction steps generalizing l with
  | nil => exact (List.append_nil _).symm
  | cons p steps ih =>
    obtain ⟨slot, st⟩ := p
    have hrun : (l.run ((slot, st) :: steps)).registrations = ((l.step slot st).run steps).registrations := rfl
    have hrecord : (l.session.record ((slot, st) :: steps)).1 =
        (l.session.enter slot st).1 :: ((l.session.step slot st).2.record steps).1 := rfl
    have hstep : (l.step slot st).registrations =
        l.registrations ++ ((l.session.enter slot st).1.registration? st).toList := by
      cases st with
      | register =>
        have hentry : (l.session.enter slot .register).1.reply = ((l.session.vacate slot).register slot).1 := by
          rw [← Session.step_register]
          rfl
        rw [Entry.registration?, hentry]
        rfl
      | vacate => exact (List.append_nil _).symm
      | use u => exact (List.append_nil _).symm
    rw [hrun, ih, session_step, hrecord, List.zip_cons_cons, hstep, List.append_assoc, List.filterMap_cons]
    cases (l.session.enter slot st).1.registration? st <;> rfl

/-! ## The moves -/

theorem tenant_leave (l : Ledger α) (slot i : Nat) :
    (l.leave slot).tenant i = if i = slot then none else l.tenant i :=
  Function.update_apply l.tenant slot none i

/-- The keyboard that enrols is in the slot, unless its set-up was refused. -/
theorem tenant_enrol (l : Ledger α) (slot i : Nat) :
    (l.enrol slot).tenant i =
      if i = slot then (l.session.register slot).2.keyboards[slot]?.map fun _ => l.registrations.length
      else l.tenant i :=
  Function.update_apply l.tenant slot _ i

/-- The tenants after a keyboard left are the others. -/
theorem tenant_leave_eq_some {l : Ledger α} {slot i m : Nat} (h : (l.leave slot).tenant i = some m) :
    i ≠ slot ∧ l.tenant i = some m := by
  rw [tenant_leave] at h
  by_cases hi : i = slot
  · rw [if_pos hi] at h
    cases h
  · rw [if_neg hi] at h
    exact ⟨hi, h⟩

/-- The tenants after a keyboard enrolled are the others and perhaps the new one. -/
theorem tenant_enrol_eq_some {l : Ledger α} {slot i m : Nat} (h : (l.enrol slot).tenant i = some m) :
    i = slot ∧ m = l.registrations.length ∨ i ≠ slot ∧ l.tenant i = some m := by
  rw [tenant_enrol] at h
  by_cases hi : i = slot
  · rw [if_pos hi] at h
    obtain ⟨k, -, rfl⟩ := Option.map_eq_some_iff.mp h
    exact Or.inl ⟨hi, rfl⟩
  · rw [if_neg hi] at h
    exact Or.inr ⟨hi, h⟩

/-- Nothing is charged where no keyboard is. -/
theorem leave_of_free {l : Ledger α} {slot : Nat} (ht : l.tenant slot = none)
    (hk : l.session.keyboards[slot]? = none) : l.leave slot = l := by
  have htenant : Function.update l.tenant slot none = l.tenant := by
    rw [← ht]
    exact Function.update_eq_self slot l.tenant
  unfold leave
  rw [Session.vacate_of_none hk, htenant, ht]
  exact congrArg (fun c => { l with charges := c }) (List.append_nil _)

theorem use_of_free {l : Ledger α} {slot : Nat} (ht : l.tenant slot = none)
    (hk : l.session.keyboards[slot]? = none) (u : Use) : l.use slot u = l := by
  unfold use
  rw [Session.use_of_none hk, ht]
  exact congrArg (fun c => { l with charges := c }) (List.append_nil _)

/-- A keyboard that leaves is charged with one call. -/
theorem charges_leave {l : Ledger α} {slot n : Nat} {k : Keyboard} (ht : l.tenant slot = some n)
    (hk : l.session.keyboards[slot]? = some k) :
    (l.leave slot).charges = l.charges ++
      [⟨.unregister accessoryId, (Accessory.unregister accessoryId l.session.accessory).1⟩].map (n, ·) := by
  have hlog := Session.exchanges_vacate l.session slot
  rw [hk] at hlog
  unfold leave
  rw [ht, chargesFor_some hlog]
  rfl

/-- A keyboard that enrols is charged with its set-up. -/
theorem charges_enrol {l : Ledger α} {slot : Nat} (hk : l.session.keyboards[slot]? = none) :
    (l.enrol slot).charges = l.charges ++
      [⟨.setup accessoryId Descriptor.keyboard,
        (Accessory.setup accessoryId Descriptor.keyboard l.session.accessory).1⟩].map (l.registrations.length, ·) := by
  unfold enrol
  rw [chargesFor_some (Session.exchanges_register hk)]

/-- A keyboard that is used is charged with the calls of that use. -/
theorem charges_use {l : Ledger α} {slot n : Nat} {k : Keyboard} (ht : l.tenant slot = some n)
    (hk : l.session.keyboards[slot]? = some k) (u : Use) :
    (l.use slot u).charges = l.charges ++ (k.exchangesOf u l.session.accessory.target).map (n, ·) := by
  unfold use
  rw [ht, chargesFor_some (Session.exchanges_use hk u)]

end Ledger

end BootKeyboard
