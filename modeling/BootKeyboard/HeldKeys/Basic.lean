import BootKeyboard.Scancode

/-!
# Held keys

The table of the keys that are down, a cell for each of the first `Scancode.keyCount` codes. `isHeld` is its view: every code
can be asked for, and a code past the end of the table is never held. `isHeld_set` says what recording a press or a release
does to that view, and `ext_isHeld` that the view is all there is to a table. A scan of the cells lists the codes of the held
keys: in ascending order (`pairwise_codes`), all of those that the view calls held and no other (`mem_codes`), and as many as
`count` says (`length_codes`).
-/

namespace BootKeyboard

/-- Which of the tracked keys are down. -/
structure HeldKeys where
  cells : Vector Bool Scancode.keyCount
deriving DecidableEq

namespace HeldKeys

open Scancode (keyCount)

/-- No key is down. -/
instance : EmptyCollection HeldKeys := ⟨⟨Vector.replicate keyCount false⟩⟩

instance : Inhabited HeldKeys := ⟨∅⟩

/-- The key with this code is down; a code past the table never is. -/
def isHeld (k : HeldKeys) (code : Nat) : Bool := k.cells[code]?.getD false

/-- Records that the key with this code is down or up; a code past the table is ignored. -/
def set (k : HeldKeys) (code : Nat) (held : Bool) : HeldKeys := ⟨k.cells.setIfInBounds code held⟩

/-- The codes of the keys that are down, lowest first: the places of the cells that say so. -/
def codes (k : HeldKeys) : List UInt8 := (k.cells.toList.zipIdx.filter fun (held, _) => held).map fun (_, code) => code.toUInt8

/-- How many keys are down. -/
def count (k : HeldKeys) : Nat := k.cells.toList.count true

/-! ## The view -/

@[simp] theorem isHeld_empty (code : Nat) : isHeld ∅ code = false := by
  show ((Vector.replicate keyCount false)[code]?).getD false = false
  rw [Vector.getElem?_replicate]
  split <;> rfl

theorem isHeld_of_le {code : Nat} (h : keyCount ≤ code) (k : HeldKeys) : k.isHeld code = false := by
  simp [isHeld, Vector.getElem?_eq_none h]

theorem lt_of_isHeld {k : HeldKeys} {code : Nat} (h : k.isHeld code = true) : code < keyCount := by
  refine Nat.lt_of_not_le fun hle => ?_
  simp [isHeld_of_le hle] at h

theorem isHeld_set (k : HeldKeys) (code : Nat) (held : Bool) (c : Nat) :
    (k.set code held).isHeld c = if c = code ∧ code < keyCount then held else k.isHeld c := by
  simp only [isHeld, set, Vector.getElem?_setIfInBounds]
  by_cases hc : code = c
  · subst hc
    by_cases hk : code < keyCount
    · simp [hk]
    · simp [hk]
  · simp [hc, Ne.symm hc]

theorem ext_isHeld {k l : HeldKeys} (h : ∀ code < keyCount, k.isHeld code = l.isHeld code) : k = l := by
  obtain ⟨x⟩ := k
  obtain ⟨y⟩ := l
  congr 1
  refine Vector.ext fun i hi => ?_
  simpa [isHeld, hi] using h i hi

/-! ## The codes -/

/-- A tracked code fits in a byte. -/
theorem toNat_toUInt8 {code : Nat} (h : code < keyCount) : code.toUInt8.toNat = code :=
  UInt8.toNat_ofNat_of_lt' (Nat.lt_trans h (by decide))

theorem mem_held_cells {k : HeldKeys} {code : Nat} :
    (true, code) ∈ k.cells.toList.zipIdx ↔ k.isHeld code = true := by
  rw [List.mk_mem_zipIdx_iff_getElem?, Vector.getElem?_toList, isHeld]
  cases k.cells[code]? <;> simp

/-- The scan stops at the cells whose key is down, and at no other. -/
theorem mem_codes {k : HeldKeys} {u : UInt8} : u ∈ k.codes ↔ k.isHeld u.toNat = true := by
  simp only [codes, List.mem_map, List.mem_filter]
  constructor
  · rintro ⟨⟨held, code⟩, ⟨hcell, rfl⟩, rfl⟩
    have h := mem_held_cells.mp hcell
    rwa [toNat_toUInt8 (lt_of_isHeld h)]
  · intro h
    exact ⟨(true, u.toNat), ⟨mem_held_cells.mpr h, rfl⟩, UInt8.ofNat_toNat⟩

/-- The scan goes over the cells from the first to the last. -/
theorem pairwise_codes (k : HeldKeys) : k.codes.Pairwise (· < ·) := by
  have hplaces : (k.cells.toList.zipIdx.map Prod.snd).Pairwise (· < ·) := by
    rw [List.zipIdx_map_snd]
    exact List.pairwise_lt_range'
  have hlt : ∀ {cell : Bool × Nat}, cell ∈ k.cells.toList.zipIdx → cell.2 < keyCount := by
    intro cell hcell
    have h := List.snd_lt_of_mem_zipIdx hcell
    rwa [Vector.length_toList] at h
  rw [codes, List.pairwise_map]
  refine List.Pairwise.imp_of_mem ?_ ((List.pairwise_map.mp hplaces).filter _)
  intro a b ha hb hab
  rw [UInt8.lt_iff_toNat_lt, toNat_toUInt8 (hlt (List.mem_filter.mp ha).1), toNat_toUInt8 (hlt (List.mem_filter.mp hb).1)]
  exact hab

theorem length_codes (k : HeldKeys) : k.codes.length = k.count := by
  calc k.codes.length
    _ = k.cells.toList.zipIdx.countP fun (held, _) => held := by
      rw [codes, List.length_map, List.countP_eq_length_filter]
    _ = (k.cells.toList.zipIdx.map Prod.fst).countP (· == true) := by
      rw [List.countP_map]
      exact List.countP_congr fun _ _ => beq_iff_eq.symm
    _ = k.count := by
      rw [List.zipIdx_map_fst]
      rfl

end HeldKeys

end BootKeyboard
