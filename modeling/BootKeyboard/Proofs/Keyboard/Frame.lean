import BootKeyboard.Proofs.Keyboard.Edges

/-!
# What an event leaves alone

Responding to an event is a matter of the keyboard alone: nothing is said to the accessory. An event that is refused leaves the
keyboard as it is. Any other is told by a report, and it touches the one key whose code it carries, if the table tracks that code;
the code is looked up as a whole, not by its low byte. Responding sets the key and does not flip it, so the same event again
changes nothing (`respond_respond`). The main statement is `respond_frame`.
-/

namespace BootKeyboard

/-- Setting a key twice is setting it once. -/
theorem HeldKeys.set_set (k : HeldKeys) (code : Nat) (held : Bool) : (k.set code held).set code held = k.set code held := by
  refine ext_isHeld fun c _ => ?_
  rw [isHeld_set (k.set code held), isHeld_set]
  split <;> rfl

theorem KeyEvent.not_isReported_iff {e : KeyEvent} :
    ¬e.IsReported ↔
      e.isRepeat = true ∨
        ¬(e.scancode.code.toNat < 101 ∨ 224 ≤ e.scancode.code.toNat ∧ e.scancode.code.toNat ≤ 231) := by
  rw [IsReported, not_and_or, Bool.not_eq_false]

namespace Keyboard

theorem fst_respond_eq_none_iff {k : Keyboard} {e : KeyEvent} : (k.respond e).1 = none ↔ ¬e.IsReported := by
  rw [fst_respond]
  by_cases h : e.IsReported
  · rw [if_pos h]
    exact ⟨nofun, fun hn => absurd h hn⟩
  · rw [if_neg h]
    exact ⟨fun _ => h, fun _ => rfl⟩

/-- A code that is not tracked reaches no key. -/
theorem snd_respond_of_le {e : KeyEvent} (h : 101 ≤ e.scancode.code.toNat) (k : Keyboard) : (k.respond e).2 = k := by
  by_cases he : e.IsReported
  · rw [respond_of_isReported he, HeldKeys.set_of_le h]
  · rw [respond_of_not he]

/-- The same event again gives the same report and changes nothing. -/
theorem respond_respond (k : Keyboard) (e : KeyEvent) : (k.respond e).2.respond e = k.respond e := by
  by_cases he : e.IsReported
  · rw [respond_of_isReported he k, respond_of_isReported he, HeldKeys.set_set]
  · rw [respond_of_not he, respond_of_not he]

/-- Responding to any event, on a keyboard on which anything may be held, in six parts.
1. On every accessory this makes no call and leaves the accessory as it is.
2. The event is refused when it is a repeat or when its code is neither tracked nor that of a modifier key, and only then.
3. A refused event leaves the keyboard as it is.
4. Any other gets the report of its modifiers and of what is held afterwards. Every code, tracked or not, is held as before, but
   the code of the event, if it is tracked, is held when the event is a press.
5. So an event whose code is not tracked changes nothing, be it a modifier key or a code with the low byte of a tracked one.
6. The same event again gets the same, and leaves the keyboard as it left it the first time. -/
theorem respond_frame (k : Keyboard) (e : KeyEvent) :
    let c := e.scancode.code.toNat
    let n := (k.respond e).2
    (∀ (α : Type) [Accessory α] (l : Logged α),
      k.use (.respond e) l = ((((k.respond e).1.map .report).getD .silent, n), l)) ∧
    ((k.respond e).1 = none ↔ e.isRepeat = true ∨ ¬(c < 101 ∨ 224 ≤ c ∧ c ≤ 231)) ∧
    ((k.respond e).1 = none → n = k) ∧
    (∀ r, (k.respond e).1 = some r →
      r = .ofHeld e.mods.modifierByte n.held ∧
        ∀ d, n.held.isHeld d = if d = c ∧ c < 101 then decide (e.action = .down) else k.held.isHeld d) ∧
    (101 ≤ c → n = k) ∧
    n.respond e = k.respond e := by
  intro c n
  refine ⟨fun α _ l => use_eq k (.respond e) l, ?_, ?_, ?_, fun hc => snd_respond_of_le hc k, respond_respond k e⟩
  · rw [fst_respond_eq_none_iff, KeyEvent.not_isReported_iff]
  · intro hnone
    exact congrArg Prod.snd (respond_of_not (fst_respond_eq_none_iff.mp hnone) k)
  · intro r hr
    have hrespond : k.respond e = (some r, n) := Prod.ext hr rfl
    obtain ⟨hreport, hheld⟩ := respond_eq_some hrespond
    refine ⟨hreport, ?_⟩
    intro d
    rw [hheld, HeldKeys.isHeld_set]
    exact if_congr Iff.rfl (by rw [Bool.eq_iff_iff, KeyEvent.isDown_iff, decide_eq_true_eq]) rfl

/-- With one key held, the release of a code that has the code of this key for its low byte is refused and changes nothing; the
release of the key itself is told with the modifiers of the event. -/
theorem respond_frame_low_byte :
    let k : Keyboard := ⟨(∅ : HeldKeys).set 4 true⟩
    (k.respond (.up ⟨0x104⟩ ∅)).1 = none ∧ (k.respond (.up ⟨0x104⟩ ∅)).2 = k ∧
      ∃ r, (k.respond (.up ⟨4⟩ Mods.Flag.leftShift.mods)).1 = some r ∧
        r = .ofHeld 2 (k.respond (.up ⟨4⟩ Mods.Flag.leftShift.mods)).2.held ∧
        (k.respond (.up ⟨4⟩ Mods.Flag.leftShift.mods)).2.held.isHeld 4 = false := by
  intro k
  obtain ⟨-, hrefused, hkept, -⟩ := respond_frame k (.up ⟨0x104⟩ ∅)
  obtain ⟨-, -, -, hreport, -⟩ := respond_frame k (.up ⟨4⟩ Mods.Flag.leftShift.mods)
  have hnone : (k.respond (.up ⟨0x104⟩ ∅)).1 = none := hrefused.mpr (Or.inr (by decide))
  obtain ⟨r, hr⟩ : ∃ r, (k.respond (.up ⟨4⟩ Mods.Flag.leftShift.mods)).1 = some r := ⟨_, rfl⟩
  obtain ⟨hmade, hheld⟩ := hreport r hr
  exact ⟨hnone, hkept hnone, r, hr, hmade, (hheld 4).trans (by decide)⟩

end Keyboard

end BootKeyboard
