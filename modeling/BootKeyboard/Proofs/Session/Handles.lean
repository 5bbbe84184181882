import BootKeyboard.Proofs.Session.Slots

/-!
# Keyboards behind handles

A keyboard may hold its accessory through a handle, through a handle on a handle, and so on. Then every call it makes is passed
down, and every answer is passed up. `Forwards` says this of one accessory and another below it: a call to the one is the same
call to the other. It is said of single calls only, and carried from there to what a keyboard does, to a step of a session and
to whole sessions (`Forwards.record_close`). Handles forward (`forwards_unwrap`), by induction on how many there are.
The main statement is `handles_transparent`.
-/

namespace BootKeyboard

open Handle (Nested)
open Handle.Nested (wrap unwrap)
open Keyboard (accessoryId)

variable {η α : Type}

/-! ## What lies below -/

/-- What was put behind handles is found there. -/
theorem Handle.Nested.unwrap_wrap (n : Nat) (a : α) : unwrap n (wrap n a) = a := by
  induction n with
  | zero => rfl
  | succ n ih => exact ih

/-- The log of an accessory is read through its handles. -/
theorem Handle.Nested.exchanges_unwrap [HasLog α] (n : Nat) (h : Nested α n) :
    HasLog.exchanges (unwrap n h) = HasLog.exchanges h := by
  induction n with
  | zero => rfl
  | succ n ih => exact ih (Handle.target h)

/-- The same log on the accessory below. -/
def Logged.below (f : η → α) (l : Logged η) : Logged α := ⟨f l.target, l.exchanges⟩

/-- The same keyboards on the accessory below. -/
def Session.below (f : η → α) (s : Session η) : Session α := ⟨f s.accessory, s.keyboards⟩

variable [Accessory η] [Accessory α]

theorem Call.make_logged (c : Call) (l : Logged α) :
    (c.make : StateM (Logged α) Answer) l =
      (((c.make : StateM α Answer) l.target).1,
        ⟨((c.make : StateM α Answer) l.target).2, l.exchanges ++ [⟨c, ((c.make : StateM α Answer) l.target).1⟩]⟩) := by
  cases c <;> rfl

/-! ## Forwarding -/

/-- Every call to an accessory is that call to what `f` finds below it: it has the same answer, and `f` finds there what the call
left. -/
def Forwards (f : η → α) : Prop :=
  ∀ (c : Call) (h : η), c.make (f h) = (((c.make : StateM η Answer) h).1, f ((c.make : StateM η Answer) h).2)

theorem forwards_id : Forwards (id : α → α) := fun _ _ => rfl

theorem Forwards.comp {β : Type} [Accessory β] {g : α → β} {f : η → α} (hg : Forwards g) (hf : Forwards f) :
    Forwards (g ∘ f) := by
  intro c h
  rw [Function.comp_apply, hg, hf]
  rfl

/-- A handle forwards each operation to its like on the target. -/
theorem forwards_target : Forwards (Handle.target : Handle α → α) := by
  intro c h
  cases c <;> rfl

/-- Handles forward to the accessory at the bottom, however many they are. -/
theorem forwards_unwrap (n : Nat) : Forwards (unwrap n : Nested α n → α) := by
  induction n with
  | zero => exact forwards_id
  | succ n ih => exact ih.comp forwards_target

namespace Forwards

variable {f : η → α}

/-- It makes no difference on which side the log is kept. -/
theorem logged (hf : Forwards f) : Forwards (Logged.below f) := by
  intro c l
  rw [Call.make_logged, Call.make_logged]
  simp only [Logged.below, hf c l.target]

theorem setup (hf : Forwards f) (id : AccessoryId) (descriptor : Bytes) (h : η) :
    Accessory.setup id descriptor (f h) = ((Accessory.setup id descriptor h).1, f (Accessory.setup id descriptor h).2) :=
  hf (.setup id descriptor) h

theorem push (hf : Forwards f) (id : AccessoryId) (report : Bytes) (h : η) :
    Accessory.push id report (f h) = ((Accessory.push id report h).1, f (Accessory.push id report h).2) :=
  hf (.push id report) h

theorem unregister (hf : Forwards f) (id : AccessoryId) (h : η) :
    Accessory.unregister id (f h) = ((Accessory.unregister id h).1, f (Accessory.unregister id h).2) :=
  hf (.unregister id) h

/-! ## Keyboards -/

theorem keyboard_register (hf : Forwards f) (h : η) :
    (Keyboard.register : StateM α (Except HidError Keyboard)) (f h) =
      (((Keyboard.register : StateM η (Except HidError Keyboard)) h).1,
        f ((Keyboard.register : StateM η (Except HidError Keyboard)) h).2) := by
  rw [Keyboard.register_eq, Keyboard.register_eq, hf.setup]

theorem keyboard_use (hf : Forwards f) (k : Keyboard) (u : Use) (h : η) :
    k.use u (f h) = ((k.use u h).1, f (k.use u h).2) := by
  rw [Keyboard.use_eq, Keyboard.use_eq]
  cases u.sent? k with
  | none => rfl
  | some r => simp only [hf.push]

/-! ## Steps -/

theorem vacate (hf : Forwards f) (s : Session η) (slot : Nat) : (s.below f).vacate slot = (s.vacate slot).below f := by
  have hunregister : ((Keyboard.unregister : StateM α Unit) (f s.accessory)).2 =
      f ((Keyboard.unregister : StateM η Unit) s.accessory).2 :=
    congrArg Prod.snd (hf.unregister accessoryId s.accessory)
  simp only [Session.vacate, Session.below]
  cases s.keyboards[slot]? with
  | none => rfl
  | some k => simp only [hunregister]

theorem register (hf : Forwards f) (s : Session η) (slot : Nat) :
    (s.below f).register slot = ((s.register slot).1, (s.register slot).2.below f) := by
  have hregister := hf.keyboard_register (s.vacate slot).accessory
  simp only [Session.register, hf.vacate]
  simp only [Session.below, hregister]
  rcases (Keyboard.register : StateM η (Except HidError Keyboard)) (s.vacate slot).accessory with ⟨_ | _, _⟩
  · rfl
  · rfl

theorem use (hf : Forwards f) (s : Session η) (slot : Nat) (u : Use) :
    (s.below f).use slot u = ((s.use slot u).1, (s.use slot u).2.below f) := by
  simp only [Session.use, Session.below]
  cases s.keyboards[slot]? with
  | none => rfl
  | some k =>
    simp only [hf.keyboard_use]
    rfl

/-- A step above is that step below: it has the same reply, and leaves the same keyboards in the slots. -/
theorem step (hf : Forwards f) (s : Session η) (slot : Nat) (st : Step) :
    (s.below f).step slot st = ((s.step slot st).1, (s.step slot st).2.below f) := by
  cases st with
  | register => exact hf.register s slot
  | vacate => exact congrArg (Prod.mk Reply.done) (hf.vacate s slot)
  | use u => exact hf.use s slot u

/-! ## Whole sessions -/

variable [HasLog η] [HasLog α]

/-- Where both sides have the same log, a step is entered alike. -/
theorem enter (hf : Forwards f) (hlog : ∀ h, HasLog.exchanges (f h) = HasLog.exchanges h) (s : Session η) (slot : Nat)
    (st : Step) : (s.below f).enter slot st = ((s.enter slot st).1, (s.enter slot st).2.below f) := by
  have hsince : ∀ s' : Session η, (s'.below f).exchangesSince (s.below f) = s'.exchangesSince s := by
    intro s'
    simp only [Session.exchangesSince, Session.below, hlog]
  simp only [Session.enter, hf.step, hsince]
  rfl

theorem record (hf : Forwards f) (hlog : ∀ h, HasLog.exchanges (f h) = HasLog.exchanges h) (s : Session η)
    (steps : List (Nat × Step)) : (s.below f).record steps = ((s.record steps).1, (s.record steps).2.below f) := by
  induction steps generalizing s with
  | nil => rfl
  | cons p steps ih =>
    obtain ⟨slot, st⟩ := p
    simp only [Session.record, hf.enter hlog, ih]

omit [HasLog η] [HasLog α] in
theorem close (hf : Forwards f) (s : Session η) : (s.below f).close = s.close.below f := by
  have hleaves : ∀ (slots : List Nat) (t : Session η),
      slots.foldl Session.vacate (t.below f) = (slots.foldl Session.vacate t).below f := by
    intro slots
    induction slots with
    | nil => exact fun _ => rfl
    | cons slot slots ih =>
      intro t
      rw [List.foldl_cons, List.foldl_cons, hf.vacate, ih]
  exact hleaves s.keyboards.keys s

/-- A session above, also when it is closed, is that session below. -/
theorem record_close (hf : Forwards f) (hlog : ∀ h, HasLog.exchanges (f h) = HasLog.exchanges h) (s : Session η)
    (steps : List (Nat × Step)) :
    (s.below f).record steps = ((s.record steps).1, (s.record steps).2.below f) ∧
      ((s.below f).record steps).2.close = (s.record steps).2.close.below f := by
  have hrecord := hf.record hlog s steps
  refine ⟨hrecord, ?_⟩
  rw [hrecord, hf.close]

end Forwards

/-! ## The main statement -/

/-- A keyboard cannot tell through how many handles it holds its accessory, and the accessory cannot tell either. For handles of
any number on any accessory, in three parts.
1. An accessory that is put behind the handles is found there, and a call to the handles is one call to it: it is told the same,
   its answer comes back, and it is left as if it had been called itself.
2. Take any steps of a session behind the handles, and the same steps of the session with the same keyboards on the accessory itself.
   Every step has the same reply, leaves the same keys held and lets the same calls through to the accessory, with the same numbers
   and bytes, in order and with the same answers. Afterwards, and when the sessions are closed, the same keyboards are in the same
   slots and the accessory is the same.
3. The same when the calls are written down where the keyboards make them, above the handles, and not where they arrive. -/
theorem handles_transparent (n : Nat) :
    ((∀ a : α, unwrap n (wrap n a) = a) ∧ ∀ (c : Call) (h : Nested α n),
      c.make (unwrap n h) =
        (((c.make : StateM (Nested α n) Answer) h).1, unwrap n ((c.make : StateM (Nested α n) Answer) h).2)) ∧
    (∀ (s : Session (Nested (Logged α) n)) (steps : List (Nat × Step)),
      (s.below (unwrap n)).record steps = ((s.record steps).1, (s.record steps).2.below (unwrap n)) ∧
        ((s.below (unwrap n)).record steps).2.close = (s.record steps).2.close.below (unwrap n)) ∧
    ∀ (s : Session (Logged (Nested α n))) (steps : List (Nat × Step)),
      (s.below (Logged.below (unwrap n))).record steps =
          ((s.record steps).1, (s.record steps).2.below (Logged.below (unwrap n))) ∧
        ((s.below (Logged.below (unwrap n))).record steps).2.close =
          (s.record steps).2.close.below (Logged.below (unwrap n)) := by
  have hbottom : Forwards (unwrap n : Nested (Logged α) n → Logged α) := forwards_unwrap n
  have htop : Forwards (Logged.below (unwrap n : Nested α n → α)) := (forwards_unwrap n).logged
  refine ⟨⟨Handle.Nested.unwrap_wrap n, forwards_unwrap n⟩, ?_, ?_⟩
  · exact hbottom.record_close (Handle.Nested.exchanges_unwrap n)
  · exact htop.record_close fun _ => rfl

end BootKeyboard
