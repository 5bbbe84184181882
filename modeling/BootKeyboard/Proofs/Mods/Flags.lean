import BootKeyboard.Modifier
import Mathlib.Data.Nat.Bitwise

/-!
# Flags as bits

A named flag is one bit, so membership is a bit test (`mem_iff_getLsbD`), and the operations on sets of flags do to membership
what they do to the bits. The bits without a name take no part in this: `truncate` drops them, and no flag is lost; `compl` turns
every flag round.
-/

namespace BootKeyboard

namespace Mods

namespace Flag

/-- The place of the flag's bit. -/
def index : Flag → Nat
  | leftShift => 0
  | rightShift => 1
  | leftCtrl => 6
  | rightCtrl => 7
  | leftAlt => 8
  | rightAlt => 9
  | leftGui => 10
  | rightGui => 11
  | numLock => 12
  | capsLock => 13
  | mode => 14

theorem toNat_mask (f : Flag) : f.mask.toNat = 2 ^ f.index := by cases f <;> rfl

theorem index_lt (f : Flag) : f.index < 16 := by cases f <;> decide

end Flag

variable {f : Flag} {a b m : Mods}

/-- What the mask of a flag cuts out of a set is the flag's bit, in its place. -/
theorem toNat_and_mask (m : Mods) (f : Flag) :
    (m.bits &&& f.mask).toNat = (m.bits.toBitVec.getLsbD f.index).toNat * 2 ^ f.index := by
  rw [UInt16.toNat_and, Flag.toNat_mask, Nat.and_two_pow]
  rfl

theorem mem_iff_getLsbD : f ∈ m ↔ m.bits.toBitVec.getLsbD f.index = true := by
  have hpow := Nat.two_pow_pos f.index
  rw [mem_iff, ← UInt16.toNat_inj, toNat_and_mask, Flag.toNat_mask]
  cases m.bits.toBitVec.getLsbD f.index <;> simp [hpow.ne]

/-- Sets of flags are the same when their bits are, named or not. -/
theorem ext_getLsbD (h : ∀ i < 16, a.bits.toBitVec.getLsbD i = b.bits.toBitVec.getLsbD i) : a = b :=
  Mods.ext (UInt16.eq_of_toBitVec_eq (BitVec.eq_of_getLsbD_eq h))

theorem mem_mods {g : Flag} : f ∈ g.mods ↔ f = g := by
  cases f <;> cases g <;> decide

theorem not_mem_empty : f ∉ (∅ : Mods) := by
  cases f <;> decide

theorem mem_union : f ∈ a ∪ b ↔ f ∈ a ∨ f ∈ b := by
  simp only [mem_iff_getLsbD, bits_union, UInt16.toBitVec_or, BitVec.getLsbD_or, Bool.or_eq_true]

theorem mem_inter : f ∈ a ∩ b ↔ f ∈ a ∧ f ∈ b := by
  simp only [mem_iff_getLsbD, bits_inter, UInt16.toBitVec_and, BitVec.getLsbD_and, Bool.and_eq_true]

theorem mem_sdiff : f ∈ a \ b ↔ f ∈ a ∧ f ∉ b := by
  have hf := f.index_lt
  simp [mem_iff_getLsbD, hf]

theorem mem_symmDiff : f ∈ a.symmDiff b ↔ ¬(f ∈ a ↔ f ∈ b) := by
  simp only [mem_iff_getLsbD, bits_symmDiff, UInt16.toBitVec_xor, BitVec.getLsbD_xor]
  cases a.bits.toBitVec.getLsbD f.index <;> cases b.bits.toBitVec.getLsbD f.index <;> decide

theorem mem_known (f : Flag) : f ∈ known := by
  cases f <;> decide

theorem mem_truncate : f ∈ m.truncate ↔ f ∈ m := by
  rw [truncate, mem_inter]
  exact and_iff_left (mem_known f)

theorem mem_compl : f ∈ m.compl ↔ f ∉ m := by
  have hf := f.index_lt
  rw [compl, mem_truncate]
  simp [mem_iff_getLsbD, hf]

/-- The flags of some sets together. -/
theorem mem_foldl_union {ι : Type} (g : ι → Mods) (is : List ι) :
    f ∈ is.foldl (fun m i => m ∪ g i) m ↔ f ∈ m ∨ ∃ i ∈ is, f ∈ g i := by
  induction is generalizing m with
  | nil => simp
  | cons i is ih =>
    rw [List.foldl_cons, ih, mem_union]
    simp only [List.mem_cons, exists_eq_or_imp, or_assoc]

end Mods

end BootKeyboard
