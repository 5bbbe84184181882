import BootKeyboard.Proofs.Mods.EditedByte

/-!
# The parts of a set of flags

A set of flags falls into parts: each of its named flags alone, then its bits without a name in one. Every part lies in the set
(`subset_of_mem_parts`), no two of them share a bit (`pairwise_parts`), and together they are the set again (`foldl_parts`). So
their modifier bytes together are the modifier byte of the set, and the bits without a name add nothing to it
(`modifierByte_unknown`).
-/

namespace BootKeyboard

namespace Mods

namespace Flag

theorem getLsbD_mask (f : Flag) (i : Nat) : f.mask.toBitVec.getLsbD i = decide (f.index = i) := by
  show f.mask.toNat.testBit i = _
  rw [toNat_mask, Nat.testBit_two_pow]

/-- Every bit that has a name is that of a flag. -/
theorem exists_index {i : Nat} (hi : i < 16) (h : known.bits.toBitVec.getLsbD i = true) : ∃ f : Flag, f.index = i := by
  have hall : ∀ j : Fin 16, known.bits.toBitVec.getLsbD j = true → ∃ f ∈ all, f.index = j := by decide
  obtain ⟨f, -, hf⟩ := hall ⟨i, hi⟩ h
  exact ⟨f, hf⟩

end Flag

variable {f : Flag} {a b m p : Mods}

theorem getLsbD_of_subset (h : a ⊆ b) {i : Nat} (hi : a.bits.toBitVec.getLsbD i = true) :
    b.bits.toBitVec.getLsbD i = true := by
  rw [← subset_iff.mp h, UInt16.toBitVec_and, BitVec.getLsbD_and, Bool.and_eq_true] at hi
  exact hi.1

theorem getLsbD_unknown {i : Nat} (hi : i < 16) :
    m.unknown.bits.toBitVec.getLsbD i = (m.bits.toBitVec.getLsbD i && !known.bits.toBitVec.getLsbD i) := by
  rw [unknown, bits_sdiff, UInt16.toBitVec_and, UInt16.toBitVec_not, BitVec.getLsbD_and, BitVec.getLsbD_not,
    decide_eq_true hi, Bool.true_and]

/-! ## What the parts are -/

theorem mem_flags : f ∈ m.flags ↔ f ∈ m := by
  rw [flags, List.mem_filter, decide_eq_true_eq]
  exact and_iff_right f.mem_all

/-- A flag is in a set when its mask meets the bits. -/
theorem mem_iff_and_mask_ne_zero : f ∈ m ↔ m.bits &&& f.mask ≠ 0 := by
  rw [mem_iff_getLsbD, Ne, ← UInt16.toNat_inj, toNat_and_mask]
  cases m.bits.toBitVec.getLsbD f.index <;> simp

theorem flags_eq (m : Mods) : m.flags = Flag.all.filter fun f => m.bits &&& f.mask ≠ 0 :=
  List.filter_congr fun _ _ => decide_eq_decide.mpr mem_iff_and_mask_ne_zero

theorem unknown_eq (m : Mods) : m.unknown = ⟨m.bits &&& 0x803C⟩ := by
  have hrest : ~~~known.bits = 0x803C := by decide
  rw [Mods.ext_iff, unknown, bits_sdiff, hrest]

theorem isEmpty_iff_bits : m.isEmpty = true ↔ m.bits = 0 := beq_iff_eq

theorem isEmpty_iff_eq_empty : m.isEmpty = true ↔ m = ∅ := by
  rw [isEmpty_iff_bits, Mods.ext_iff, bits_empty]

/-- A part is a named flag of the set, or its bits without a name if there are any. -/
theorem mem_parts : p ∈ m.parts ↔ (∃ f ∈ m, p = f.mods) ∨ p = m.unknown ∧ p ≠ ∅ := by
  rw [parts, List.mem_append, List.mem_map]
  refine or_congr ?_ ?_
  · exact exists_congr fun f => and_congr mem_flags eq_comm
  · cases h : m.unknown.isEmpty with
    | true =>
      rw [isEmpty_iff_eq_empty] at h
      rw [if_pos rfl, h]
      exact iff_of_false List.not_mem_nil fun hp => hp.2 hp.1
    | false =>
      have hne : m.unknown ≠ ∅ := fun hempty => by simp [isEmpty_iff_eq_empty.mpr hempty] at h
      rw [if_neg Bool.false_ne_true, List.mem_singleton]
      exact ⟨fun hp => ⟨hp, hp ▸ hne⟩, And.left⟩

theorem unknown_subset : m.unknown ⊆ m := by
  rw [subset_iff, unknown, bits_sdiff, ← UInt16.and_assoc, UInt16.and_self]

theorem subset_of_mem_parts (h : p ∈ m.parts) : p ⊆ m := by
  rcases mem_parts.mp h with ⟨f, hf, rfl⟩ | ⟨rfl, -⟩
  · exact hf
  · exact unknown_subset

/-! ## The parts apart -/

/-- A named flag shares no bit with what has no name. -/
theorem mods_inter_unknown (f : Flag) (m : Mods) : f.mods ∩ m.unknown = ∅ := by
  have hmask : ~~~known.bits &&& f.mask = 0 := by cases f <;> decide
  refine Mods.ext ?_
  show f.mask &&& (m.bits &&& ~~~known.bits) = 0
  rw [UInt16.and_comm, UInt16.and_assoc, hmask, UInt16.and_zero]

/-- No two parts share a bit. -/
theorem pairwise_parts (m : Mods) : m.parts.Pairwise fun p q => p ∩ q = ∅ := by
  have hall : Flag.all.Pairwise fun f g => f.mods ∩ g.mods = ∅ := by decide
  rw [parts, List.pairwise_append, List.pairwise_map]
  refine ⟨hall.filter _, ?_, ?_⟩
  · split
    · exact List.Pairwise.nil
    · exact List.pairwise_singleton _ _
  · intro p hp q hq
    obtain ⟨f, -, rfl⟩ := List.mem_map.mp hp
    split at hq
    · cases hq
    · rw [List.mem_singleton.mp hq]
      exact mods_inter_unknown f m

/-- The named flags come lowest bit first. -/
theorem pairwise_mask_flags (m : Mods) : (m.flags.map Flag.mask).Pairwise (· < ·) := by
  have hall : Flag.all.Pairwise fun f g => f.mask < g.mask := by decide
  rw [List.pairwise_map]
  exact hall.filter _

/-! ## The parts together -/

theorem getLsbD_foldl_union (ps : List Mods) (m : Mods) (i : Nat) :
    (ps.foldl (· ∪ ·) m).bits.toBitVec.getLsbD i = true ↔
      m.bits.toBitVec.getLsbD i = true ∨ ∃ p ∈ ps, p.bits.toBitVec.getLsbD i = true := by
  induction ps generalizing m with
  | nil => simp
  | cons p ps ih =>
    rw [List.foldl_cons, ih, bits_union, UInt16.toBitVec_or, BitVec.getLsbD_or, Bool.or_eq_true]
    simp only [List.mem_cons, exists_eq_or_imp, or_assoc]

/-- The parts make up the set. -/
theorem foldl_parts (m : Mods) : m.parts.foldl (· ∪ ·) ∅ = m := by
  refine ext_getLsbD fun i hi => ?_
  rw [Bool.eq_iff_iff, getLsbD_foldl_union]
  constructor
  · rintro (hempty | ⟨p, hp, hbit⟩)
    · simp at hempty
    · exact getLsbD_of_subset (subset_of_mem_parts hp) hbit
  · intro hbit
    refine Or.inr ?_
    cases hknown : known.bits.toBitVec.getLsbD i with
    | true =>
      obtain ⟨f, rfl⟩ := Flag.exists_index hi hknown
      refine ⟨f.mods, mem_parts.mpr (Or.inl ⟨f, mem_iff_getLsbD.mpr hbit, rfl⟩), ?_⟩
      exact (f.getLsbD_mask _).trans (decide_eq_true rfl)
    | false =>
      have hrest : m.unknown.bits.toBitVec.getLsbD i = true := by rw [getLsbD_unknown hi, hbit, hknown]; rfl
      refine ⟨m.unknown, mem_parts.mpr (Or.inr ⟨rfl, ?_⟩), hrest⟩
      intro hempty
      rw [hempty] at hrest
      simp at hrest

theorem bits_foldl_union (ps : List Mods) (m : Mods) :
    (ps.foldl (· ∪ ·) m).bits = ps.foldl (fun x p => x ||| p.bits) m.bits :=
  (List.foldl_hom bits fun m p => (bits_union m p).symm).symm

/-- The modifier byte of sets together is their modifier bytes together. -/
theorem modifierByte_foldl_union (ps : List Mods) (m : Mods) :
    (ps.foldl (· ∪ ·) m).modifierByte = ps.foldl (fun x p => x ||| p.modifierByte) m.modifierByte :=
  (List.foldl_hom modifierByte fun m p => (modifierByte_union m p).symm).symm

/-- Bits without a name add nothing to the modifier byte. -/
theorem modifierByte_unknown (m : Mods) : m.unknown.modifierByte = 0 := by
  have hknown : ~~~known.modifierByte = 0 := by decide
  rw [unknown, modifierByte_sdiff, hknown, UInt8.and_zero]

end Mods

end BootKeyboard
