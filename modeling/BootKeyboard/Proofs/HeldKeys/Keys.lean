import Mathlib.Data.Finset.Sort
import BootKeyboard.HeldKeys.Basic

/-!
# The set of the held keys

A table of held keys as the finite set of the codes that are held. Membership is `isHeld`, the size of the set is `count`, and
the codes that the table lists are the elements of the set in ascending order (`codes_eq_sort`).
-/

namespace BootKeyboard

namespace HeldKeys

open Scancode (keyCount)

/-- The codes of the keys that are down. -/
def keys (k : HeldKeys) : Finset Nat := (Finset.range keyCount).filter (k.isHeld · = true)

/-- A code past the table is never held, so membership asks nothing but `isHeld`. -/
@[simp] theorem mem_keys {k : HeldKeys} {c : Nat} : c ∈ k.keys ↔ k.isHeld c = true := by
  simp only [keys, Finset.mem_filter, Finset.mem_range]
  exact ⟨fun h => h.2, fun h => ⟨lt_of_isHeld h, h⟩⟩

/-- Read back as numbers the listed codes are the elements of the set: the scan meets them in ascending order, and none of them
loses a bit in its byte. -/
theorem toNat_codes (k : HeldKeys) : k.codes.map UInt8.toNat = k.keys.sort := by
  have hascending : (k.codes.map UInt8.toNat).Pairwise (· < ·) :=
    List.pairwise_map.mpr (k.pairwise_codes.imp UInt8.lt_iff_toNat_lt.mp)
  have hset : (k.codes.map UInt8.toNat).toFinset = k.keys := by
    ext c
    rw [List.mem_toFinset, List.mem_map, mem_keys]
    constructor
    · rintro ⟨u, hu, rfl⟩
      exact mem_codes.mp hu
    · intro hc
      have hexact := toNat_toUInt8 (lt_of_isHeld hc)
      exact ⟨c.toUInt8, mem_codes.mpr (by rwa [hexact]), hexact⟩
  rw [← hset]
  exact ((List.toFinset_sort (· ≤ ·) (hascending.imp Nat.ne_of_lt)).mpr (hascending.imp Nat.le_of_lt)).symm

theorem codes_eq_sort (k : HeldKeys) : k.codes = k.keys.sort.map Nat.toUInt8 := by
  rw [← toNat_codes, List.map_map]
  exact ((List.map_congr_left fun _ _ => UInt8.ofNat_toNat).trans (List.map_id _)).symm

theorem length_codes_eq_card (k : HeldKeys) : k.codes.length = k.keys.card := by
  rw [codes_eq_sort, List.length_map, Finset.length_sort]

theorem card_keys (k : HeldKeys) : k.keys.card = k.count := by
  rw [← length_codes_eq_card, length_codes]

end HeldKeys

end BootKeyboard
