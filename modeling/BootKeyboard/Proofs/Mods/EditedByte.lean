import BootKeyboard.Proofs.Mods.Flags
import BootKeyboard.Proofs.Mods.ModifierByte

/-!
# The modifier byte of an edited set

The modifier byte keeps what the flags say of the modifier keys and forgets the rest. Its bits stand in another order than the
flags, so each law is proved key by key (`Modifier.ext_index`): an operation on the flags does to the flag of a key what the
operation on bytes does to the bit of that key. So a set can be edited first and reduced to its byte then, or the other way round
(`modifierByte_apply`, `modifierByte_edit`). What the byte forgets is told by `modifierByte_inj`, and no byte goes without a set
(`modifierByte_ofModifierByte`). The main statement is `modifierByte_follows_edits`.
-/

namespace BootKeyboard

namespace Modifier

/-- Every bit of a byte is that of a modifier key. -/
theorem exists_index {i : Nat} (hi : i < 8) : ∃ k : Modifier, k.index = i := by
  have hall : ∀ j : Fin 8, ∃ k ∈ all, k.index = j := by decide
  obtain ⟨k, -, hk⟩ := hall ⟨i, hi⟩
  exact ⟨k, hk⟩

/-- Bytes are the same when the bits of all modifier keys are. -/
theorem ext_index {x y : UInt8} (h : ∀ k : Modifier, x.toBitVec.getLsbD k.index = y.toBitVec.getLsbD k.index) : x = y := by
  refine UInt8.eq_of_toBitVec_eq (BitVec.eq_of_getLsbD_eq fun i hi => ?_)
  obtain ⟨k, rfl⟩ := exists_index hi
  exact h k

theorem flag_injective {k l : Modifier} (h : k.flag = l.flag) : k = l := by
  revert h
  cases k <;> cases l <;> decide

/-- The flags of all modifier keys. -/
def flags : Mods := ⟨0x0FC3⟩

theorem flag_mem_flags (k : Modifier) : k.flag ∈ flags := by cases k <;> decide

/-- Only the flags of modifier keys have their bits there. -/
theorem exists_flag_of_flags {i : Nat} (hi : i < 16) (h : flags.bits.toBitVec.getLsbD i = true) :
    ∃ k : Modifier, k.flag.index = i := by
  have hall : ∀ j : Fin 16, flags.bits.toBitVec.getLsbD j = true → ∃ k ∈ all, k.flag.index = j := by decide
  obtain ⟨k, -, hk⟩ := hall ⟨i, hi⟩ h
  exact ⟨k, hk⟩

end Modifier

namespace Mods

theorem getLsbD_modifierByte (m : Mods) (k : Modifier) :
    m.modifierByte.toBitVec.getLsbD k.index = decide (k.flag ∈ m) :=
  testBit_modifierByte_index m k

/-! ## One operation -/

theorem modifierByte_union (a b : Mods) : (a ∪ b).modifierByte = a.modifierByte ||| b.modifierByte := by
  refine Modifier.ext_index fun k => ?_
  rw [UInt8.toBitVec_or, BitVec.getLsbD_or]
  simp only [getLsbD_modifierByte, mem_union, Bool.decide_or]

theorem modifierByte_inter (a b : Mods) : (a ∩ b).modifierByte = a.modifierByte &&& b.modifierByte := by
  refine Modifier.ext_index fun k => ?_
  rw [UInt8.toBitVec_and, BitVec.getLsbD_and]
  simp only [getLsbD_modifierByte, mem_inter, Bool.decide_and]

theorem getLsbD_not_modifierByte (m : Mods) (k : Modifier) :
    (~~~m.modifierByte).toBitVec.getLsbD k.index = decide (k.flag ∉ m) := by
  rw [UInt8.toBitVec_not, BitVec.getLsbD_not, decide_eq_true k.index_lt, Bool.true_and, getLsbD_modifierByte, decide_not]

theorem modifierByte_sdiff (a b : Mods) : (a \ b).modifierByte = a.modifierByte &&& ~~~b.modifierByte := by
  refine Modifier.ext_index fun k => ?_
  rw [UInt8.toBitVec_and, BitVec.getLsbD_and, getLsbD_not_modifierByte]
  simp only [getLsbD_modifierByte, mem_sdiff, Bool.decide_and]

theorem modifierByte_symmDiff (a b : Mods) : (a.symmDiff b).modifierByte = a.modifierByte ^^^ b.modifierByte := by
  refine Modifier.ext_index fun k => ?_
  rw [UInt8.toBitVec_xor, BitVec.getLsbD_xor]
  simp only [getLsbD_modifierByte, mem_symmDiff]
  by_cases ha : k.flag ∈ a <;> by_cases hb : k.flag ∈ b <;> simp [ha, hb]

/-- A named flag that is not set in a set is set in its complement, so the byte is turned round as a whole. -/
theorem modifierByte_compl (m : Mods) : m.compl.modifierByte = ~~~m.modifierByte := by
  refine Modifier.ext_index fun k => ?_
  rw [getLsbD_not_modifierByte, getLsbD_modifierByte]
  simp only [mem_compl]

theorem modifierByte_truncate (m : Mods) : m.truncate.modifierByte = m.modifierByte := by
  refine Modifier.ext_index fun k => ?_
  simp only [getLsbD_modifierByte, mem_truncate]

/-! ## Edits -/

/-- The byte follows an edit of the flags. -/
theorem modifierByte_apply (e : Edit) (m : Mods) : (e.apply m).modifierByte = e.applyByte m.modifierByte := by
  cases e with
  | insert b => exact modifierByte_union m b
  | remove b => exact modifierByte_sdiff m b
  | toggle b => exact modifierByte_symmDiff m b
  | keep b => exact modifierByte_inter m b
  | put b present =>
    cases present with
    | true => exact modifierByte_union m b
    | false => exact modifierByte_sdiff m b
  | complement => exact modifierByte_compl m
  | truncate => exact modifierByte_truncate m

/-- The byte follows a list of edits. -/
theorem modifierByte_edit (m : Mods) (es : List Edit) :
    (m.edit es).modifierByte = es.foldl (fun x e => e.applyByte x) m.modifierByte := by
  induction es generalizing m with
  | nil => rfl
  | cons e es ih =>
    rw [List.foldl_cons, ← modifierByte_apply, ← ih]
    rfl

/-! ## What the byte keeps -/

/-- The byte tells sets apart by the flags of the modifier keys. -/
theorem modifierByte_inj {a b : Mods} : a.modifierByte = b.modifierByte ↔ ∀ k : Modifier, k.flag ∈ a ↔ k.flag ∈ b := by
  constructor
  · intro h k
    rw [← decide_eq_decide, ← getLsbD_modifierByte, ← getLsbD_modifierByte, h]
  · intro h
    refine Modifier.ext_index fun k => ?_
    rw [getLsbD_modifierByte, getLsbD_modifierByte, decide_eq_decide]
    exact h k

/-- Sets have the same flags of modifier keys when they have the same bits in these places. -/
theorem inter_flags_inj {a b : Mods} : a ∩ Modifier.flags = b ∩ Modifier.flags ↔ ∀ k : Modifier, k.flag ∈ a ↔ k.flag ∈ b := by
  constructor
  · intro h k
    have hmem : k.flag ∈ a ∩ Modifier.flags ↔ k.flag ∈ b ∩ Modifier.flags := by rw [h]
    rw [mem_inter, mem_inter] at hmem
    simpa [k.flag_mem_flags] using hmem
  · intro h
    refine ext_getLsbD fun i hi => ?_
    rw [bits_inter, bits_inter, UInt16.toBitVec_and, UInt16.toBitVec_and, BitVec.getLsbD_and, BitVec.getLsbD_and]
    cases hflag : Modifier.flags.bits.toBitVec.getLsbD i with
    | false => rw [Bool.and_false, Bool.and_false]
    | true =>
      obtain ⟨k, rfl⟩ := Modifier.exists_flag_of_flags hi hflag
      rw [Bool.and_true, Bool.and_true, Bool.eq_iff_iff, ← mem_iff_getLsbD, ← mem_iff_getLsbD]
      exact h k

theorem modifierByte_eq_iff {a b : Mods} : a.modifierByte = b.modifierByte ↔ a ∩ Modifier.flags = b ∩ Modifier.flags := by
  rw [modifierByte_inj, inter_flags_inj]

theorem modifierByte_inter_flags (m : Mods) : (m ∩ Modifier.flags).modifierByte = m.modifierByte := by
  refine modifierByte_inj.mpr fun k => ?_
  rw [mem_inter]
  exact and_iff_left k.flag_mem_flags

/-- The flags of the modifier keys whose bits are on in a byte. -/
def ofModifierByte (x : UInt8) : Mods :=
  (Modifier.all.filter fun k => x.toBitVec.getLsbD k.index).foldl (fun m k => m ∪ k.flag.mods) ∅

theorem modifierByte_ofModifierByte (x : UInt8) : (ofModifierByte x).modifierByte = x := by
  refine Modifier.ext_index fun k => ?_
  rw [getLsbD_modifierByte, Bool.eq_iff_iff, decide_eq_true_eq, ofModifierByte, mem_foldl_union,
    or_iff_right not_mem_empty]
  simp only [List.mem_filter, mem_mods]
  constructor
  · rintro ⟨l, ⟨-, hl⟩, hflag⟩
    exact Modifier.flag_injective hflag ▸ hl
  · intro hk
    exact ⟨k, ⟨Modifier.mem_all k, hk⟩, rfl⟩

/-- The modifier byte and the flags it is made of, in three parts.
1. Whatever a set of flags is, with bits that have no name or without, and however it is edited, its byte is that of the set
   before the edits with each edit done to the byte instead.
2. Sets have the same byte just when they have the same bits in the places of the eight modifier flags. The locks and the bits
   without a name do not count.
3. Every byte is that of one set of these eight flags, and of no other. -/
theorem modifierByte_follows_edits :
    (∀ (m : Mods) (es : List Edit), (m.edit es).modifierByte = es.foldl (fun x e => e.applyByte x) m.modifierByte) ∧
    (∀ a b : Mods, a.modifierByte = b.modifierByte ↔ a.bits &&& 0x0FC3 = b.bits &&& 0x0FC3) ∧
    ∀ x : UInt8, ∃! m : Mods, m.bits &&& 0x0FC3 = m.bits ∧ m.modifierByte = x := by
  have hkernel : ∀ a b : Mods, a.modifierByte = b.modifierByte ↔ a.bits &&& 0x0FC3 = b.bits &&& 0x0FC3 := by
    intro a b
    rw [modifierByte_eq_iff, Mods.ext_iff]
    rfl
  refine ⟨modifierByte_edit, hkernel, fun x => ⟨ofModifierByte x ∩ Modifier.flags, ⟨?_, ?_⟩, ?_⟩⟩
  · show ((ofModifierByte x).bits &&& 0x0FC3) &&& 0x0FC3 = (ofModifierByte x).bits &&& 0x0FC3
    rw [UInt16.and_assoc, UInt16.and_self]
  · rw [modifierByte_inter_flags, modifierByte_ofModifierByte]
  · rintro m ⟨hmask, hm⟩
    refine Mods.ext ?_
    rw [← hmask, (hkernel m (ofModifierByte x)).mp (hm.trans (modifierByte_ofModifierByte x).symm)]
    rfl

end Mods

end BootKeyboard
