import BootKeyboard.Proofs.HeldKeys.Sets
import BootKeyboard.Proofs.Report.Listing

/-!
# What a report tells apart

Two reports are the same when they show the same modifier byte and list the same slots. The slots tell almost any two tables of at
most six keys apart: only the key with code zero, when it is held alone, looks like no key at all, since zero also fills the
slots that are not needed (`padded_inj`). A table of more keys than slots shows a roll-over, which no other table does
(`slotsOf_ne_rollOver`), and looks like every other such table. Put together this is `ofHeld_eq_iff`.
-/

namespace BootKeyboard

namespace Bytes

/-- An ascending row that ends in zeros ends in one of them at most, and that has nothing before it. -/
theorem eq_nil_of_zeros {a r : Bytes} (h : (a ++ r).Pairwise (· < ·)) (hr : ∀ x ∈ r, x = 0) :
    r = [] ∨ a = [] ∧ r = [0] := by
  obtain ⟨-, hpair, hbelow⟩ := List.pairwise_append.mp h
  cases r with
  | nil => exact Or.inl rfl
  | cons x xs =>
    obtain rfl : x = 0 := hr x List.mem_cons_self
    have ha : a = [] := List.eq_nil_iff_forall_not_mem.mpr fun y hy =>
      UInt8.not_lt_zero (hbelow y hy 0 List.mem_cons_self)
    have hxs : xs = [] := List.eq_nil_iff_forall_not_mem.mpr fun y hy => by
      have hlt := (List.pairwise_cons.mp hpair).1 y hy
      rw [hr y (List.mem_cons_of_mem 0 hy)] at hlt
      exact UInt8.not_lt_zero hlt
    exact Or.inr ⟨ha, congrArg (List.cons 0) hxs⟩

/-- Ascending rows that look the same when they are filled up with zeros are the same, unless one is empty and the other holds
zero alone. -/
theorem padded_inj {a b : Bytes} {m n : Nat} (ha : a.Pairwise (· < ·)) (hb : b.Pairwise (· < ·))
    (h : a ++ List.replicate m 0 = b ++ List.replicate n 0) : a = b ∨ a = [] ∧ b = [0] ∨ a = [0] ∧ b = [] := by
  -- the longer row is the shorter one and some of the zeros behind that
  rcases List.append_eq_append_iff.mp h with ⟨r, rfl, hr⟩ | ⟨r, rfl, hr⟩
  · have hzero : ∀ x ∈ r, x = 0 := fun x hx =>
      List.eq_of_mem_replicate (hr ▸ List.mem_append_left (List.replicate n 0) hx)
    rcases eq_nil_of_zeros hb hzero with rfl | ⟨rfl, rfl⟩
    · exact Or.inl (List.append_nil a).symm
    · exact Or.inr (Or.inl ⟨rfl, rfl⟩)
  · have hzero : ∀ x ∈ r, x = 0 := fun x hx =>
      List.eq_of_mem_replicate (hr ▸ List.mem_append_left (List.replicate m 0) hx)
    rcases eq_nil_of_zeros ha hzero with rfl | ⟨rfl, rfl⟩
    · exact Or.inl (List.append_nil b)
    · exact Or.inr (Or.inr ⟨rfl, rfl⟩)

end Bytes

namespace HeldKeys

/-- No key is down but perhaps the one with code zero. -/
def AtMostZero (k : HeldKeys) : Prop := ∀ c, k.isHeld c = true → c = 0

/-- The key with code zero is down and no other. -/
def zeroAlone : HeldKeys := (∅ : HeldKeys).set 0 true

theorem codes_of_atMostZero {k : HeldKeys} (h : k.AtMostZero) : k.codes = [] ∨ k.codes = [0] := by
  have hzero : ∀ u ∈ k.codes, u = 0 := fun u hu => UInt8.toNat_inj.mp (h u.toNat (mem_codes.mp hu))
  exact (Bytes.eq_nil_of_zeros (a := []) k.pairwise_codes hzero).imp_right And.right

theorem codes_empty : codes ∅ = [] :=
  List.eq_nil_iff_forall_not_mem.mpr fun u hu => by simpa using mem_codes.mp hu

theorem atMostZero_zeroAlone : zeroAlone.AtMostZero := by
  intro c hc
  rw [zeroAlone, isHeld_set] at hc
  by_contra hne
  simp [hne] at hc

theorem codes_zeroAlone : zeroAlone.codes = [0] := by
  have hmem : (0 : UInt8) ∈ zeroAlone.codes := by
    rw [mem_codes, zeroAlone, isHeld_set]
    rfl
  rcases codes_of_atMostZero atMostZero_zeroAlone with hnil | hone
  · rw [hnil] at hmem
    nomatch hmem
  · exact hone

theorem count_zeroAlone : zeroAlone.count = 1 := by
  rw [← length_codes, codes_zeroAlone]
  rfl

theorem empty_ne_zeroAlone : (∅ : HeldKeys) ≠ zeroAlone := by
  intro h
  have hcodes := codes_zeroAlone
  rw [← h, codes_empty] at hcodes
  nomatch hcodes

/-- The two tables that hold at most the key with code zero. -/
theorem atMostZero_iff {k : HeldKeys} : k.AtMostZero ↔ k = ∅ ∨ k = zeroAlone := by
  constructor
  · intro h
    rcases codes_of_atMostZero h with hnil | hone
    · exact Or.inl (codes_inj.mp (hnil.trans codes_empty.symm))
    · exact Or.inr (codes_inj.mp (hone.trans codes_zeroAlone.symm))
  · rintro (rfl | rfl)
    · intro c hc
      simp at hc
    · exact atMostZero_zeroAlone

theorem atMostZero_iff_codes {k : HeldKeys} : k.AtMostZero ↔ k.codes = [] ∨ k.codes = [0] := by
  rw [← codes_zeroAlone, ← codes_empty, codes_inj, codes_inj, atMostZero_iff]

end HeldKeys

namespace Report

open HeldKeys

/-! ## The slots -/

/-- With at most six keys the slots never show a roll-over, for no code is listed twice. -/
theorem slotsOf_ne_rollOver {k : HeldKeys} (h : k.count ≤ 6) : slotsOf k.keys ≠ List.replicate 6 1 := by
  intro hslots
  have hnodup : k.codes.Nodup := k.pairwise_codes.imp fun hlt => UInt8.ne_of_lt hlt
  have honce : k.codes.count 1 ≤ 1 := List.nodup_iff_count_le_one.mp hnodup 1
  have hpad : (List.replicate (6 - k.count) (0 : UInt8)).count 1 = 0 :=
    List.count_eq_zero.mpr fun hone => nomatch List.eq_of_mem_replicate hone
  have hcount := congrArg (List.count 1) hslots
  rw [slotsOf_of_le h, List.count_append, hpad, List.count_replicate_self] at hcount
  omega

theorem slotsOf_eq_rollOver {k : HeldKeys} : slotsOf k.keys = List.replicate 6 1 ↔ 6 < k.count := by
  constructor
  · intro h
    exact Nat.lt_of_not_le fun hle => slotsOf_ne_rollOver hle h
  · intro h
    exact slotsOf_of_gt (Nat.not_le.mpr h)

theorem slotsOf_atMostZero {k : HeldKeys} (h : k.AtMostZero) : slotsOf k.keys = List.replicate 6 0 := by
  rcases atMostZero_iff.mp h with rfl | rfl
  · rw [slotsOf_of_le (by rw [count_empty]; decide), codes_empty, count_empty]
    rfl
  · rw [slotsOf_of_le (by rw [count_zeroAlone]; decide), codes_zeroAlone, count_zeroAlone]
    rfl

/-- Which tables call for the same slots. -/
theorem slotsOf_eq_iff {s t : HeldKeys} :
    slotsOf s.keys = slotsOf t.keys ↔ s = t ∨ (6 < s.count ∧ 6 < t.count) ∨ s.AtMostZero ∧ t.AtMostZero := by
  constructor
  · intro h
    -- either both tables show a roll-over or both list their codes
    by_cases hs : 6 < s.count
    · have ht : 6 < t.count := slotsOf_eq_rollOver.mp (h.symm.trans (slotsOf_eq_rollOver.mpr hs))
      exact Or.inr (Or.inl ⟨hs, ht⟩)
    · have ht : ¬6 < t.count := fun ht => hs (slotsOf_eq_rollOver.mp (h.trans (slotsOf_eq_rollOver.mpr ht)))
      rw [slotsOf_of_le (Nat.not_lt.mp hs), slotsOf_of_le (Nat.not_lt.mp ht)] at h
      rcases Bytes.padded_inj s.pairwise_codes t.pairwise_codes h with hcodes | ⟨hnil, hone⟩ | ⟨hone, hnil⟩
      · exact Or.inl (codes_inj.mp hcodes)
      · exact Or.inr (Or.inr ⟨atMostZero_iff_codes.mpr (Or.inl hnil), atMostZero_iff_codes.mpr (Or.inr hone)⟩)
      · exact Or.inr (Or.inr ⟨atMostZero_iff_codes.mpr (Or.inr hone), atMostZero_iff_codes.mpr (Or.inl hnil)⟩)
  · rintro (rfl | ⟨hs, ht⟩ | ⟨hs, ht⟩)
    · rfl
    · rw [slotsOf_eq_rollOver.mpr hs, slotsOf_eq_rollOver.mpr ht]
    · rw [slotsOf_atMostZero hs, slotsOf_atMostZero ht]

/-- Two tables that the slots have room for call for the same slots only when one holds the key with code zero alone and the other
holds none. -/
theorem slotsOf_eq_and_ne_iff {s t : HeldKeys} :
    s ≠ t ∧ s.count ≤ 6 ∧ t.count ≤ 6 ∧ slotsOf s.keys = slotsOf t.keys ↔
      s = ∅ ∧ t = zeroAlone ∨ s = zeroAlone ∧ t = ∅ := by
  constructor
  · rintro ⟨hne, hs, ht, h⟩
    rcases slotsOf_eq_iff.mp h with rfl | ⟨hgt, -⟩ | ⟨hs0, ht0⟩
    · exact absurd rfl hne
    · omega
    · rcases atMostZero_iff.mp hs0 with rfl | rfl <;> rcases atMostZero_iff.mp ht0 with rfl | rfl
      · exact absurd rfl hne
      · exact Or.inl ⟨rfl, rfl⟩
      · exact Or.inr ⟨rfl, rfl⟩
      · exact absurd rfl hne
  · have hsame : slotsOf (∅ : HeldKeys).keys = slotsOf zeroAlone.keys :=
      slotsOf_eq_iff.mpr (Or.inr (Or.inr ⟨atMostZero_iff.mpr (Or.inl rfl), atMostZero_zeroAlone⟩))
    have hone := count_zeroAlone
    have hnone := count_empty
    rintro (⟨rfl, rfl⟩ | ⟨rfl, rfl⟩)
    · exact ⟨empty_ne_zeroAlone, by omega, by omega, hsame⟩
    · exact ⟨empty_ne_zeroAlone.symm, by omega, by omega, hsame.symm⟩

/-! ## The reports -/

theorem ofHeld_inj {m m' : UInt8} {s t : HeldKeys} :
    ofHeld m s = ofHeld m' t ↔ m = m' ∧ slotsOf s.keys = slotsOf t.keys := by
  obtain ⟨hm, hr, hs⟩ := ofHeld_fields m s
  obtain ⟨hm', hr', ht⟩ := ofHeld_fields m' t
  rw [Report.ext_iff, ← Vector.toList_inj, hm, hr, hs, hm', hr', ht]
  exact and_congr_right fun _ => ⟨And.right, fun h => ⟨rfl, h⟩⟩

/-- What a report tells apart, in four parts.
1. Two reports are the same just when they show the same modifier byte and are made of the same table, of two tables that both
   hold more than six keys, or of two tables that hold no key but perhaps the one with code zero.
2. They are the same on the wire just when they are the same.
3. A table of at most six keys, whichever they are, never shares a report with a table of more.
4. Two tables of at most six keys share a report only when one holds the key with code zero alone and the other holds none. -/
theorem ofHeld_eq_iff (m m' : UInt8) (s t : HeldKeys) :
    (ofHeld m s = ofHeld m' t ↔
      m = m' ∧ (s = t ∨ (6 < s.count ∧ 6 < t.count) ∨
        (∀ c, s.isHeld c = true → c = 0) ∧ ∀ c, t.isHeld c = true → c = 0)) ∧
    ((ofHeld m s).toBytes = (ofHeld m' t).toBytes ↔ ofHeld m s = ofHeld m' t) ∧
    ¬(s.count ≤ 6 ∧ 6 < t.count ∧ ofHeld m s = ofHeld m' t) ∧
    (s ≠ t ∧ s.count ≤ 6 ∧ t.count ≤ 6 ∧ ofHeld m s = ofHeld m t ↔
      s = ∅ ∧ t = (∅ : HeldKeys).set 0 true ∨ s = (∅ : HeldKeys).set 0 true ∧ t = ∅) := by
  refine ⟨?_, toBytes_inj, ?_, ?_⟩
  · rw [ofHeld_inj, slotsOf_eq_iff]
    rfl
  · rintro ⟨hs, ht, h⟩
    exact slotsOf_ne_rollOver hs ((ofHeld_inj.mp h).2.trans (slotsOf_eq_rollOver.mpr ht))
  · have hslots : ofHeld m s = ofHeld m t ↔ slotsOf s.keys = slotsOf t.keys :=
      ofHeld_inj.trans (and_iff_right rfl)
    rw [hslots]
    exact slotsOf_eq_and_ne_iff

end Report

end BootKeyboard
