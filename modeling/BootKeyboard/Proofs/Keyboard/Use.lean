import BootKeyboard.Accessory.Recorder
import BootKeyboard.Proofs.Report.Listing
import BootKeyboard.Session

/-!
# What a use of a keyboard does

A use of a keyboard, told without an accessory: the keyboard afterwards (`Use.after`), the report that is handed over
(`Use.sent?`) and the reply, given the answer to that report (`Use.reply`). `use_eq` says that on every accessory a use does
just this, with at most one push. The keyboard afterwards does not depend on any answer, so a run of uses can be followed without
the accessory (`Keyboard.afterAll`).
-/

namespace BootKeyboard

open Scancode (keyCount)

/-! ## Events -/

/-- Recording a code past the table changes nothing. -/
theorem HeldKeys.set_of_le {code : Nat} (h : keyCount ≤ code) (k : HeldKeys) (held : Bool) : k.set code held = k := by
  refine ext_isHeld fun c _ => ?_
  rw [isHeld_set, if_neg fun hc => Nat.not_lt.mpr h hc.2]

namespace KeyEvent

/-- An event that is told to the accessory: it is no repeat, and its scancode is a tracked key or a modifier key. -/
def IsReported (e : KeyEvent) : Prop :=
  e.isRepeat = false ∧ (e.scancode.code.toNat < 101 ∨ 224 ≤ e.scancode.code.toNat ∧ e.scancode.code.toNat ≤ 231)

instance (e : KeyEvent) : Decidable e.IsReported := inferInstanceAs (Decidable (_ ∧ _))

end KeyEvent

namespace Scancode

theorem kind_of_lt {s : Scancode} (h : s.code.toNat < 101) : s.kind = .key s.code.toUInt8 := if_pos h

theorem isModifier_iff {s : Scancode} : s.isModifier = true ↔ 224 ≤ s.code.toNat ∧ s.code.toNat ≤ 231 := by
  simp only [isModifier, Bool.and_eq_true, decide_eq_true_eq, UInt16.le_iff_toNat_le]
  rfl

theorem kind_of_modifier {s : Scancode} (h : 224 ≤ s.code.toNat) (h' : s.code.toNat ≤ 231) : s.kind = .modifier := by
  have hkey : ¬s.code.toNat < keyCount := by
    simp only [keyCount]
    omega
  rw [kind, if_neg hkey, if_pos (isModifier_iff.mpr ⟨h, h'⟩)]

theorem kind_of_not {s : Scancode} (h : ¬s.code.toNat < 101) (h' : ¬(224 ≤ s.code.toNat ∧ s.code.toNat ≤ 231)) :
    s.kind = .unsupported := by
  have hkey : ¬s.code.toNat < keyCount := h
  rw [kind, if_neg hkey, if_neg fun hm => h' (isModifier_iff.mp hm)]

end Scancode

namespace Keyboard

/-- An event that is not reported does nothing. -/
theorem respond_of_not {e : KeyEvent} (h : ¬e.IsReported) (k : Keyboard) : k.respond e = (none, k) := by
  rw [respond]
  split
  · rfl
  · rename_i hrep
    have hcode : ¬(e.scancode.code.toNat < 101 ∨ 224 ≤ e.scancode.code.toNat ∧ e.scancode.code.toNat ≤ 231) :=
      fun hc => h ⟨by simpa using hrep, hc⟩
    rw [Scancode.kind_of_not (fun hk => hcode (Or.inl hk)) (fun hm => hcode (Or.inr hm))]

/-- A reported event sets its key, and its report is made of what is held then. For a modifier key there is nothing to set: its
code lies past the table. -/
theorem respond_of_isReported {e : KeyEvent} (h : e.IsReported) (k : Keyboard) :
    k.respond e =
      (some (.ofHeld e.mods.modifierByte (k.held.set e.scancode.code.toNat e.isDown)),
        ⟨k.held.set e.scancode.code.toNat e.isDown⟩) := by
  obtain ⟨hrep, hkey | hmod⟩ := h
  · have husage : e.scancode.code.toUInt8.toNat = e.scancode.code.toNat := by
      rw [UInt16.toNat_toUInt8]
      omega
    rw [respond, if_neg (by simp [hrep]), Scancode.kind_of_lt hkey]
    simp only [husage]
  · have hpast : keyCount ≤ e.scancode.code.toNat := by
      simp only [keyCount]
      omega
    rw [respond, if_neg (by simp [hrep]), Scancode.kind_of_modifier hmod.1 hmod.2, HeldKeys.set_of_le hpast]

end Keyboard

/-! ## Uses -/

/-- The answer of the accessory to a report, as the keyboard passes it on. -/
def Answer.ofPush : Answer → Answer
  | accepted => accepted
  | refused _ => refused .push

namespace Use

/-- The keyboard after a use. -/
def after (k : Keyboard) : Use → Keyboard
  | input (.key e) | respond e | respondAndSend e => (k.respond e).2
  | _ => k

/-- The report that a use hands to the accessory, if there is one. -/
def sent? (k : Keyboard) : Use → Option Report
  | input (.key e) | respondAndSend e => (k.respond e).1
  | send r => some r
  | _ => none

/-- What a use comes back with when the accessory gives this answer to the report. -/
def reply (k : Keyboard) (x : Answer) : Use → Reply
  | input _ => .silent
  | respond e => ((k.respond e).1.map .report).getD .silent
  | respondAndSend e => ((k.respond e).1.map fun _ => .ofAnswer x.ofPush).getD .silent
  | send _ => .ofAnswer x.ofPush
  | accessoryId => .number Keyboard.accessoryId.toNat
  | isHeld code => .truth (k.held.isHeld code)
  | count => .number k.held.count

end Use

namespace Keyboard

/-- The keyboard after uses, first to last. -/
def afterAll (k : Keyboard) (us : List Use) : Keyboard := us.foldl Use.after k

section Accessory

variable {α : Type} [Accessory α]

theorem send_eq (r : Report) (a : α) :
    (send r : StateM α Answer) a =
      ((Accessory.push accessoryId r.toBytes.toList a).1.ofPush, (Accessory.push accessoryId r.toBytes.toList a).2) := by
  simp only [send, bind, StateT.bind]
  cases Accessory.push accessoryId r.toBytes.toList a with
  | mk x a => cases x <;> rfl

theorem receive_key (k : Keyboard) (e : KeyEvent) (a : α) :
    k.receive (.key e) a =
      match (k.respond e).1 with
      | none => ((k.respond e).2, a)
      | some r => ((k.respond e).2, ((send r : StateM α Answer) a).2) := by
  rw [receive]
  cases k.respond e with
  | mk r? k => cases r? <;> rfl

theorem use_input (k : Keyboard) (i : Input) (a : α) :
    k.use (.input i) a = ((.silent, (k.receive i a).1), (k.receive i a).2) := rfl

theorem use_send (k : Keyboard) (r : Report) (a : α) :
    k.use (.send r) a = ((.ofAnswer ((send r : StateM α Answer) a).1, k), ((send r : StateM α Answer) a).2) := rfl

theorem use_respondAndSend (k : Keyboard) (e : KeyEvent) (a : α) :
    k.use (.respondAndSend e) a =
      match (k.respond e).1 with
      | none => ((.silent, (k.respond e).2), a)
      | some r =>
        ((.ofAnswer ((send r : StateM α Answer) a).1, (k.respond e).2), ((send r : StateM α Answer) a).2) := by
  rw [use]
  cases k.respond e with
  | mk r? k => cases r? <;> rfl

/-- On every accessory a use pushes the report it hands over, if there is one, and does nothing else there. -/
theorem use_eq (k : Keyboard) (u : Use) (a : α) :
    k.use u a =
      match u.sent? k with
      | none => ((u.reply k .accepted, u.after k), a)
      | some r =>
        ((u.reply k (Accessory.push accessoryId r.toBytes.toList a).1, u.after k),
          (Accessory.push accessoryId r.toBytes.toList a).2) := by
  cases u with
  | input i =>
    cases i with
    | key e =>
      rw [use_input, receive_key]
      simp only [Use.sent?, Use.reply, Use.after]
      cases (k.respond e).1 with
      | none => rfl
      | some r => simp only [send_eq]
    | text s => rfl
  | respond e =>
    simp only [use, Use.sent?, Use.reply, Use.after]
    cases k.respond e with
    | mk r? k => cases r? <;> rfl
  | respondAndSend e =>
    rw [use_respondAndSend]
    simp only [Use.sent?, Use.reply, Use.after]
    cases (k.respond e).1 with
    | none => rfl
    | some r =>
      simp only [send_eq]
      rfl
  | send r =>
    rw [use_send, send_eq]
    rfl
  | accessoryId => rfl
  | isHeld code => rfl
  | count => rfl

theorem register_eq (a : α) :
    (register : StateM α (Except HidError Keyboard)) a =
      (match (Accessory.setup accessoryId Descriptor.keyboard a).1 with
        | .accepted => .ok ⟨∅⟩
        | .refused _ => .error .registration,
        (Accessory.setup accessoryId Descriptor.keyboard a).2) := by
  simp only [register, bind, StateT.bind]
  cases Accessory.setup accessoryId Descriptor.keyboard a with
  | mk x a => cases x <;> rfl

end Accessory

end Keyboard

end BootKeyboard
