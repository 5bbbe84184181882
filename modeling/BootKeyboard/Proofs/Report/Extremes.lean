import BootKeyboard.Proofs.Report.Distinction

/-!
# Empty reports and roll-overs

A report answers two questions about the table that it was made of, though it shows only the slots: whether nothing is down, and
whether too much is. The second answer is always right (`isRollOver_ofHeld`). The first is right but for one table: the key with
code zero, held alone, puts into its slot the zero that an unused slot holds (`isEmpty_ofHeld`, `isEmpty_ofHeld_exact_iff`).
-/

namespace BootKeyboard

namespace Report

open HeldKeys

/-! ## The two questions -/

/-- All slots hold the same value. -/
theorem all_slots_iff {r : Report} {x : UInt8} : r.slots.toList.all (· == x) = true ↔ r.slots.toList = List.replicate 6 x := by
  have hlen : r.slots.toList.length = 6 := Vector.length_toList
  rw [List.all_eq_true, List.eq_replicate_iff, and_iff_right hlen]
  simp only [beq_iff_eq]

theorem isEmpty_iff {r : Report} : r.isEmpty = true ↔ r.modifier = 0 ∧ r.slots.toList = List.replicate 6 0 := by
  rw [isEmpty, Bool.and_eq_true, beq_iff_eq, all_slots_iff]

theorem isRollOver_iff {r : Report} : r.isRollOver = true ↔ r.slots.toList = List.replicate 6 1 := all_slots_iff

/-! ## The answers -/

theorem slotsOf_eq_zeros {k : HeldKeys} : slotsOf k.keys = List.replicate 6 0 ↔ k.AtMostZero := by
  have hempty : (∅ : HeldKeys).AtMostZero := atMostZero_iff.mpr (Or.inl rfl)
  constructor
  · intro h
    rcases slotsOf_eq_iff.mp (h.trans (slotsOf_atMostZero hempty).symm) with rfl | ⟨-, hgt⟩ | ⟨hzero, -⟩
    · exact hempty
    · rw [count_empty] at hgt
      exact absurd hgt (Nat.not_lt_zero 6)
    · exact hzero
  · intro h
    exact slotsOf_atMostZero h

/-- A report is empty when its modifier byte is zero and no key is held but perhaps the one with code zero. -/
theorem isEmpty_ofHeld {m : UInt8} {k : HeldKeys} : (ofHeld m k).isEmpty = true ↔ m = 0 ∧ k.AtMostZero := by
  obtain ⟨hm, -, hs⟩ := ofHeld_fields m k
  rw [isEmpty_iff, hm, hs, slotsOf_eq_zeros]

/-- An empty report tells that nothing is down, and every other that something is, unless the key with code zero is held alone
and without a modifier. -/
theorem isEmpty_ofHeld_exact_iff {m : UInt8} {k : HeldKeys} :
    ((ofHeld m k).isEmpty = true ↔ m = 0 ∧ k.count = 0) ↔ ¬(m = 0 ∧ k = zeroAlone) := by
  rw [isEmpty_ofHeld, atMostZero_iff, count_eq_zero]
  constructor
  · intro hexact
    rintro ⟨hm, rfl⟩
    exact empty_ne_zeroAlone (hexact.mp ⟨hm, Or.inr rfl⟩).2.symm
  · intro hne
    exact and_congr_right fun hm => or_iff_left fun hk => hne ⟨hm, hk⟩

/-- A roll-over is shown just when more than six keys are held, whichever they are. -/
theorem isRollOver_ofHeld {m : UInt8} {k : HeldKeys} : (ofHeld m k).isRollOver = true ↔ 6 < k.count := by
  rw [isRollOver_iff, (ofHeld_fields m k).2.2, slotsOf_eq_rollOver]

end Report

end BootKeyboard
