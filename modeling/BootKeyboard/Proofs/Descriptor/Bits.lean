import BootKeyboard.Descriptor.Decode
import Mathlib.Algebra.Group.Nat.Defs

/-!
# Cutting a report into elements

A report is read bit by bit, lowest bit of the first byte first. The lemmas say what the elements of a field are when the field
begins at a byte: elements of one bit are the bits of that byte and those that follow (`elements_of_bit`), and elements of eight
bits are the bytes (`elements_of_byte`). The last part says which usages the elements of a field stand for.
-/

namespace BootKeyboard

namespace Descriptor

/-! ## Bits and numbers -/

@[simp] theorem ofBits_nil : ofBits [] = 0 := rfl

theorem ofBits_cons (b : Bool) (bits : List Bool) : ofBits (b :: bits) = b.toNat + 2 * ofBits bits := rfl

/-- The lowest bits of a number spell its remainder. -/
theorem ofBits_testBit (n v : Nat) : ofBits ((List.range n).map v.testBit) = v % 2 ^ n := by
  induction n generalizing v with
  | zero => rw [Nat.pow_zero, Nat.mod_one]; rfl
  | succ n ih =>
    have htail : v.testBit ∘ Nat.succ = (v / 2).testBit := funext fun i => Nat.testBit_succ v i
    rw [List.range_succ_eq_map, List.map_cons, List.map_map, htail, ofBits_cons, ih, Nat.testBit_zero]
    have hbit : (decide (v % 2 = 1)).toNat = v % 2 := by
      rcases Nat.mod_two_eq_zero_or_one v with h | h <;> rw [h] <;> rfl
    rw [hbit, Nat.pow_succ, Nat.mul_comm (2 ^ n) 2, Nat.mod_mul]

theorem bitsOf_cons (x : UInt8) (b : Bytes) : bitsOf (x :: b) = (List.range 8).map x.toNat.testBit ++ bitsOf b :=
  List.flatMap_cons

@[simp] theorem length_bitsOf (b : Bytes) : (bitsOf b).length = 8 * b.length := by
  induction b with
  | nil => rfl
  | cons x b ih =>
    rw [bitsOf_cons, List.length_append, ih, List.length_map, List.length_range, List.length_cons]
    omega

theorem take_bitsOf_cons (x : UInt8) (b : Bytes) : (bitsOf (x :: b)).take 8 = (List.range 8).map x.toNat.testBit := by
  rw [bitsOf_cons]
  exact List.take_left' (by simp)

theorem drop_bitsOf_cons (x : UInt8) (b : Bytes) : (bitsOf (x :: b)).drop 8 = bitsOf b := by
  rw [bitsOf_cons]
  exact List.drop_left' (by simp)

theorem drop_bitsOf (b : Bytes) (i : Nat) : (bitsOf b).drop (i * 8) = bitsOf (b.drop i) := by
  induction i generalizing b with
  | zero => simp
  | succ i ih =>
    cases b with
    | nil => simp [bitsOf]
    | cons x b => rw [Nat.succ_mul, Nat.add_comm, ← List.drop_drop, drop_bitsOf_cons, ih, List.drop_succ_cons]

namespace Field

/-! ## Elements -/

@[simp] theorem length_elements (f : Field) (bits : List Bool) : (f.elements bits).length = f.count := by
  simp [elements]

theorem getElem?_elements {f : Field} {i : Nat} (hi : i < f.count) (bits : List Bool) :
    (f.elements bits)[i]? = some (ofBits ((bits.drop (i * f.size)).take f.size)) := by
  simp [elements, hi]

theorem elements_of_bit {f : Field} (hsize : f.size = 1) {bits : List Bool} (hcount : f.count ≤ bits.length) :
    f.elements bits = (bits.take f.count).map Bool.toNat := by
  refine List.ext_getElem? fun i => ?_
  by_cases hi : i < f.count
  · have hi' : i < bits.length := Nat.lt_of_lt_of_le hi hcount
    rw [getElem?_elements hi, hsize, Nat.mul_one, List.drop_eq_getElem_cons hi', List.take_succ_cons, List.take_zero,
      ofBits_cons]
    simp [hi, hi']
  · rw [List.getElem?_eq_none (by simpa using hi), List.getElem?_eq_none (by simp; omega)]

theorem elements_of_byte {f : Field} (hsize : f.size = 8) {b : Bytes} (hcount : f.count ≤ b.length) :
    f.elements (bitsOf b) = (b.take f.count).map UInt8.toNat := by
  refine List.ext_getElem? fun i => ?_
  by_cases hi : i < f.count
  · have hi' : i < b.length := Nat.lt_of_lt_of_le hi hcount
    have hbyte : b[i].toNat % 2 ^ 8 = b[i].toNat := Nat.mod_eq_of_lt b[i].toNat_lt
    rw [getElem?_elements hi, hsize, drop_bitsOf, List.drop_eq_getElem_cons hi', take_bitsOf_cons, ofBits_testBit, hbyte]
    simp [hi, hi']
  · rw [List.getElem?_eq_none (by simpa using hi), List.getElem?_eq_none (by simp; omega)]

/-! ## Usages -/

theorem mem_usages_of_variable {f : Field} (hc : f.isConstant = false) (hv : f.isVariable = true) {values : List Nat}
    {u : Usage} :
    u ∈ f.usages values ↔ ∃ i v, values[i]? = some v ∧ v ≠ 0 ∧ u = ⟨f.page, f.usageMin + i⟩ := by
  rw [usages, if_neg (by simp [hc]), if_pos hv]
  simp only [List.mem_map, List.mem_filter, Prod.exists, List.mem_zipIdx_iff_getElem?, bne_iff_ne]
  constructor
  · rintro ⟨v, i, ⟨hi, h0⟩, rfl⟩
    exact ⟨i, v, hi, h0, rfl⟩
  · rintro ⟨i, v, hi, h0, rfl⟩
    exact ⟨v, i, ⟨hi, h0⟩, rfl⟩

/-- In an array a value counts from the least value of the extent, and the usage of no key is not chosen. -/
theorem mem_usages_of_array {f : Field} (hc : f.isConstant = false) (hv : f.isVariable = false) {values : List Nat}
    {u : Usage} : u ∈ f.usages values ↔ ∃ v ∈ values, f.chosen? v = some u := by
  rw [usages, if_neg (by simp [hc]), if_neg (by simp [hv]), List.mem_filterMap]

theorem usages_of_constant {f : Field} (hc : f.isConstant = true) (values : List Nat) : f.usages values = [] := if_pos hc

end Field

end Descriptor

end BootKeyboard
