import BootKeyboard.HeldKeys.Edit
import BootKeyboard.Proofs.HeldKeys.Keys

/-!
# Tables as sets of codes

A table of held keys is as good as the finite set of the codes below 101 that are held. `KeySets` is such a set together with a
copy of it, `Edit.applySets` says what a change to a table does to the sets, and `keySets_apply` that the tables follow. So after
any changes every question about the tables has the answer that the sets give: `edit_refines_sets`.
-/

namespace BootKeyboard

/-- A set of codes and the copy of it that was set aside. -/
structure KeySets where
  current : Finset Nat := ∅
  saved : Finset Nat := ∅

namespace HeldKeys

/-- The sets after a change. Only codes below 101 come in or go out. -/
def Edit.applySets : Edit → KeySets → KeySets
  | set code true, s => { s with current := if code < 101 then insert code s.current else s.current }
  | set code false, s => { s with current := if code < 101 then s.current.erase code else s.current }
  | clear, s => { s with current := ∅ }
  | save, s => { s with saved := s.current }
  | restore, s => { s with current := s.saved }

end HeldKeys

/-- The sets after a list of changes, first to last. -/
def KeySets.edit (s : KeySets) (es : List HeldKeys.Edit) : KeySets := es.foldl (fun s e => e.applySets s) s

namespace HeldKeys

open Scancode (keyCount)

/-! ## One table -/

@[simp] theorem keys_empty : keys ∅ = ∅ := by
  ext c
  simp

theorem mem_keys_set {k : HeldKeys} {code c : Nat} {held : Bool} :
    c ∈ (k.set code held).keys ↔ if c = code ∧ code < 101 then held = true else c ∈ k.keys := by
  have hcell : (c = code ∧ code < keyCount) = (c = code ∧ code < 101) := rfl
  rw [mem_keys, isHeld_set]
  simp only [hcell]
  split
  · exact Iff.rfl
  · exact mem_keys.symm

theorem keys_set_true (k : HeldKeys) (code : Nat) :
    (k.set code true).keys = if code < 101 then insert code k.keys else k.keys := by
  ext c
  rw [mem_keys_set]
  by_cases hcode : code < 101
  · by_cases hc : c = code <;> simp [hc, hcode]
  · simp [hcode]

theorem keys_set_false (k : HeldKeys) (code : Nat) :
    (k.set code false).keys = if code < 101 then k.keys.erase code else k.keys := by
  ext c
  rw [mem_keys_set]
  by_cases hcode : code < 101
  · by_cases hc : c = code <;> simp [hc, hcode]
  · simp [hcode]

/-- A table is told by its set. -/
theorem keys_inj {k l : HeldKeys} : k.keys = l.keys ↔ k = l := by
  constructor
  · intro h
    refine ext_isHeld fun c _ => ?_
    rw [Bool.eq_iff_iff, ← mem_keys, ← mem_keys, h]
  · rintro rfl
    rfl

/-- A set is told by the codes that are listed, since they are its elements. -/
theorem codes_inj {k l : HeldKeys} : k.codes = l.codes ↔ k = l := by
  constructor
  · intro h
    refine keys_inj.mp ?_
    rw [← Finset.sort_toFinset k.keys (· ≤ ·), ← toNat_codes, h, toNat_codes, Finset.sort_toFinset]
  · rintro rfl
    rfl

theorem card_keys_le (k : HeldKeys) : k.keys.card ≤ 101 := by
  have hsub : k.keys ⊆ Finset.range keyCount := Finset.filter_subset _ _
  simpa [keyCount] using Finset.card_le_card hsub

theorem count_eq_zero {k : HeldKeys} : k.count = 0 ↔ k = ∅ := by
  rw [← card_keys, Finset.card_eq_zero, ← keys_empty, keys_inj]

theorem count_empty : count ∅ = 0 := count_eq_zero.mpr rfl

theorem count_set_true {k : HeldKeys} {c : Nat} (hc : c < 101) (h : k.isHeld c = false) :
    (k.set c true).count = k.count + 1 := by
  have hmem : c ∉ k.keys := by simp [h]
  rw [← card_keys, keys_set_true, if_pos hc, Finset.card_insert_of_notMem hmem, card_keys]

theorem count_set_false {k : HeldKeys} {c : Nat} (h : k.isHeld c = true) : (k.set c false).count = k.count - 1 := by
  have hc : c < 101 := lt_of_isHeld h
  rw [← card_keys, keys_set_false, if_pos hc, Finset.card_erase_of_mem (mem_keys.mpr h), card_keys]

/-! ## A table and its copy -/

/-- The sets of a table and of its copy. -/
def Checkpoint.keySets (c : Checkpoint) : KeySets := ⟨c.current.keys, c.saved.keys⟩

/-- A change does to the sets what it does to the tables. -/
theorem keySets_apply (e : Edit) (c : Checkpoint) : (e.apply c).keySets = e.applySets c.keySets := by
  cases e with
  | set code held =>
    cases held with
    | true => exact congrArg (KeySets.mk · c.saved.keys) (keys_set_true c.current code)
    | false => exact congrArg (KeySets.mk · c.saved.keys) (keys_set_false c.current code)
  | clear => exact congrArg (KeySets.mk · c.saved.keys) keys_empty
  | save => rfl
  | restore => rfl

theorem keySets_edit (c : Checkpoint) (es : List Edit) : (c.edit es).keySets = c.keySets.edit es := by
  induction es generalizing c with
  | nil => rfl
  | cons e es ih =>
    have hedit : (c.edit (e :: es)).keySets = ((e.apply c).edit es).keySets := rfl
    rw [hedit, ih, keySets_apply]
    rfl

theorem keySets_begin : ({} : Checkpoint).keySets = {} := by
  simp [Checkpoint.keySets]

/-- After any changes to a new table and its copy, so at every point of a run of changes, the table is as good as the set:
1. a key is held when its code is in the set;
2. the codes that are listed are the elements of the set, each in its place in ascending order, and no byte loses a bit of its
   code;
3. the keys are counted right, and there are never more than 101;
4. the table and its copy are the same when the sets are, and when they list the same codes;
5. the table is a new one when it counts no key. -/
theorem edit_refines_sets (es : List Edit) :
    let c := ({} : Checkpoint).edit es
    let s := ({} : KeySets).edit es
    (∀ code, c.current.isHeld code = true ↔ code ∈ s.current) ∧
    ((c.current.codes.map UInt8.toNat).Pairwise (· < ·) ∧
      ∀ code, code ∈ c.current.codes.map UInt8.toNat ↔ code ∈ s.current) ∧
    (c.current.count = c.current.codes.length ∧ c.current.codes.length = s.current.card ∧ s.current.card ≤ 101) ∧
    ((c.current = c.saved ↔ s.current = s.saved) ∧ (c.current = c.saved ↔ c.current.codes = c.saved.codes)) ∧
    (c.current = ∅ ↔ c.current.count = 0) := by
  intro c s
  have hsets : c.keySets = s := (keySets_edit {} es).trans (congrArg (KeySets.edit · es) keySets_begin)
  have hcurrent : c.current.keys = s.current := congrArg KeySets.current hsets
  have hsaved : c.saved.keys = s.saved := congrArg KeySets.saved hsets
  rw [← hcurrent, ← hsaved, toNat_codes]
  refine ⟨fun code => mem_keys.symm, ⟨?_, fun code => Finset.mem_sort _⟩, ⟨?_, ?_, ?_⟩, ⟨?_, ?_⟩, ?_⟩
  · exact (Finset.sortedLT_sort _).pairwise
  · exact (length_codes _).symm
  · exact length_codes_eq_card _
  · exact card_keys_le _
  · exact keys_inj.symm
  · exact codes_inj.symm
  · exact count_eq_zero.symm

end HeldKeys

end BootKeyboard
