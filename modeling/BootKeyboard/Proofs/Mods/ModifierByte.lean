import BootKeyboard.Modifier
import Mathlib.Algebra.Group.Nat.Defs

/-!
# The bits of the modifier byte

Each bit of the modifier byte tells of one modifier key: it is on exactly when the flag of that key is in the set
(`testBit_modifierByte_index`), and there are no other bits (`testBit_modifierByte`).
-/

namespace BootKeyboard

namespace Modifier

theorem toNat_bit (k : Modifier) : k.bit.toNat = 2 ^ k.index := by cases k <;> rfl

theorem testBit_bit (k : Modifier) (i : Nat) : k.bit.toNat.testBit i = decide (k.index = i) := by
  rw [toNat_bit, Nat.testBit_two_pow]

theorem index_lt (k : Modifier) : k.index < 8 := by cases k <;> decide

/-- No two modifier keys share a bit. -/
theorem index_injective {k l : Modifier} (h : k.index = l.index) : k = l := by
  revert h
  cases k <;> cases l <;> decide

/-- Gathering the bits of some modifier keys sets the bits of these keys. -/
theorem testBit_foldl_bit (ks : List Modifier) (x : UInt8) (i : Nat) :
    (ks.foldl (fun byte k => byte ||| k.bit) x).toNat.testBit i =
      (x.toNat.testBit i || ks.any fun k => decide (k.index = i)) := by
  induction ks generalizing x with
  | nil => simp
  | cons k ks ih =>
    rw [List.foldl_cons, ih, UInt8.toNat_or, Nat.testBit_or, testBit_bit, List.any_cons, Bool.or_assoc]

end Modifier

namespace Mods

theorem testBit_modifierByte (m : Mods) (i : Nat) :
    m.modifierByte.toNat.testBit i = true ↔ ∃ k : Modifier, k.flag ∈ m ∧ k.index = i := by
  rw [modifierByte, Modifier.testBit_foldl_bit]
  simp only [UInt8.toNat_zero, Nat.zero_testBit, Bool.false_or, List.any_eq_true, List.mem_filter, decide_eq_true_eq]
  constructor
  · rintro ⟨k, ⟨-, hk⟩, hi⟩
    exact ⟨k, hk, hi⟩
  · rintro ⟨k, hk, hi⟩
    exact ⟨k, ⟨Modifier.mem_all k, hk⟩, hi⟩

theorem testBit_modifierByte_index (m : Mods) (k : Modifier) :
    m.modifierByte.toNat.testBit k.index = decide (k.flag ∈ m) := by
  rw [Bool.eq_iff_iff, testBit_modifierByte, decide_eq_true_eq]
  constructor
  · rintro ⟨l, hl, hi⟩
    exact Modifier.index_injective hi ▸ hl
  · intro hk
    exact ⟨k, hk, rfl⟩

end Mods

end BootKeyboard
