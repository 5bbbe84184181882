import BootKeyboard.Proofs.HeldKeys.Keys
import BootKeyboard.Report.Slots
import BootKeyboard.Report.Wire

/-!
# What a report lists

The slots of a report as they should be for a set of held keys, written without the bounded list and the checked copy by which
a report is built: `slotsOf` is the rule, `ofHeld_fields` says that the built report keeps it, and `toBytes_ofHeld` gives the
eight bytes on the wire. `ofHeld_lists_held` says the same without a set, of the one ascending list of the held codes.
-/

namespace BootKeyboard

namespace SlotList

/-- Pushing usages one by one ends with all of them in the list, or finds no room exactly when they are too many. -/
theorem foldlM_push? (us : Bytes) (l : SlotList) :
    us.foldlM push? l =
      if h : (l.usages ++ us).length ≤ Report.slotCount then some ⟨l.usages ++ us, h⟩ else none := by
  induction us generalizing l with
  | nil => simp [l.length_le]
  | cons u us ih =>
    rw [List.foldlM_cons, push?]
    by_cases hroom : l.usages.length < Report.slotCount
    · rw [dif_pos hroom]
      show us.foldlM push? _ = _
      rw [ih]
      simp only [List.append_assoc, List.singleton_append]
    · have hfull : ¬(l.usages ++ u :: us).length ≤ Report.slotCount := by
        simp only [List.length_append, List.length_cons]
        omega
      rw [dif_neg hroom, dif_neg hfull]
      rfl

theorem ofUsages?_of_le {us : Bytes} (h : us.length ≤ Report.slotCount) : ofUsages? us = some ⟨us, h⟩ := by
  rw [ofUsages?, foldlM_push?]
  exact dif_pos h

theorem ofUsages?_of_gt {us : Bytes} (h : Report.slotCount < us.length) : ofUsages? us = none := by
  rw [ofUsages?, foldlM_push?]
  exact dif_neg (Nat.not_le.mpr h)

end SlotList

namespace Report

/-- The slots that a set of held keys calls for: up to six codes, lowest first and filled up with zeros, else six times the
roll-over usage. -/
def slotsOf (keys : Finset Nat) : Bytes :=
  if keys.card ≤ 6 then keys.sort.map Nat.toUInt8 ++ List.replicate (6 - keys.card) 0 else List.replicate 6 1

theorem slotsOf_of_le {k : HeldKeys} (h : k.count ≤ 6) :
    slotsOf k.keys = k.codes ++ List.replicate (6 - k.count) 0 := by
  rw [slotsOf, HeldKeys.card_keys, if_pos h, HeldKeys.codes_eq_sort]

theorem slotsOf_of_gt {k : HeldKeys} (h : ¬k.count ≤ 6) : slotsOf k.keys = List.replicate 6 1 := by
  rw [slotsOf, HeldKeys.card_keys, if_neg h]

theorem ofHeld_of_gt {k : HeldKeys} (h : slotCount < k.codes.length) (modifier : UInt8) :
    ofHeld modifier k = { modifier, slots := Vector.replicate slotCount rollOver } := by
  refine Checked.get_eq ?_
  rw [ofHeldChecked, SlotList.ofUsages?_of_gt h]

theorem toList_slots_ofHeld_of_le {k : HeldKeys} (h : k.codes.length ≤ slotCount) (modifier : UInt8) :
    (ofHeld modifier k).modifier = modifier ∧ (ofHeld modifier k).reserved = reservedByte ∧
      (ofHeld modifier k).slots.toList = k.codes ++ List.replicate (slotCount - k.codes.length) 0 := by
  have hz := Bytes.length_zeros slotCount
  have hbytes : (Bytes.zeros slotCount).take 0 ++ k.codes ++ (Bytes.zeros slotCount).drop k.codes.length =
      k.codes ++ List.replicate (slotCount - k.codes.length) 0 := by
    rw [List.take_zero, List.nil_append, Bytes.zeros, List.drop_replicate]
  have hlen : (k.codes ++ List.replicate (slotCount - k.codes.length) (0 : UInt8)).length = slotCount := by
    rw [List.length_append, List.length_replicate]
    omega
  have hreport : ofHeld modifier k =
      { modifier, slots := ⟨(k.codes ++ List.replicate (slotCount - k.codes.length) 0).toArray, by simpa using hlen⟩ } := by
    refine Checked.get_eq ?_
    rw [ofHeldChecked, SlotList.ofUsages?_of_le h]
    show (Bytes.fill (Bytes.zeros slotCount) 0 k.codes.length k.codes >>= _) = _
    rw [Bytes.fill_eq_ok (by omega) (by omega), hbytes]
    show (Bytes.exactly slotCount _ >>= _) = _
    rw [Bytes.exactly_eq_ok hlen]
    rfl
  rw [hreport]
  exact ⟨rfl, rfl, rfl⟩

/-- The report that is built shows the modifier byte, the reserved byte and the slots that the held keys call for. -/
theorem ofHeld_fields (modifier : UInt8) (k : HeldKeys) :
    (ofHeld modifier k).modifier = modifier ∧ (ofHeld modifier k).reserved = reservedByte ∧
      (ofHeld modifier k).slots.toList = slotsOf k.keys := by
  have hcount := k.length_codes
  by_cases h : k.count ≤ 6
  · obtain ⟨hm, hr, hs⟩ := toList_slots_ofHeld_of_le (hcount.trans_le h) modifier
    refine ⟨hm, hr, ?_⟩
    rw [hs, slotsOf_of_le h, hcount]
    rfl
  · rw [ofHeld_of_gt (Nat.lt_of_not_le fun hle => h (hcount.symm.trans_le hle))]
    exact ⟨rfl, rfl, (slotsOf_of_gt h).symm⟩

/-- A report shows its modifier byte, a reserved byte of zero, and the ascending list of the held codes: all of them, filled up
with zeros, when they are no more than six, and six times the roll-over usage when they are more. -/
theorem ofHeld_lists_held (modifier : UInt8) (k : HeldKeys) :
    ∃ held : List Nat, held.Pairwise (· < ·) ∧ (∀ c, c ∈ held ↔ c < 101 ∧ k.isHeld c = true) ∧
      (ofHeld modifier k).modifier = modifier ∧ (ofHeld modifier k).reserved = 0 ∧
      (ofHeld modifier k).slots.toList.map UInt8.toNat =
        if held.length ≤ 6 then held ++ List.replicate (6 - held.length) 0 else List.replicate 6 1 := by
  obtain ⟨hm, hr, hs⟩ := ofHeld_fields modifier k
  refine ⟨k.keys.sort, (Finset.sortedLT_sort _).pairwise, ?_, hm, hr, ?_⟩
  · intro c
    rw [Finset.mem_sort, HeldKeys.mem_keys]
    exact ⟨fun h => ⟨HeldKeys.lt_of_isHeld h, h⟩, And.right⟩
  · rw [hs, slotsOf, Finset.length_sort, ← HeldKeys.codes_eq_sort]
    split
    · rw [List.map_append, HeldKeys.toNat_codes, List.map_replicate]
      rfl
    · rfl

/-! ## The slots one by one -/

/-- The slots are six. -/
theorem length_slotsOf (k : HeldKeys) : (slotsOf k.keys).length = 6 := by
  rw [← (ofHeld_fields 0 k).2.2, Vector.length_toList]
  rfl

/-- As long as they have room, the slots that are not zero hold the held keys. -/
theorem mem_slotsOf {k : HeldKeys} (h : k.count ≤ 6) {c : Nat} (hc : c ≠ 0) :
    c ∈ (slotsOf k.keys).map UInt8.toNat ↔ k.isHeld c = true := by
  have hzero : ¬c ∈ (List.replicate (6 - k.count) (0 : UInt8)).map UInt8.toNat := by
    intro hz
    obtain ⟨x, hx, rfl⟩ := List.mem_map.mp hz
    rw [List.eq_of_mem_replicate hx] at hc
    exact hc rfl
  rw [slotsOf_of_le h, List.map_append, List.mem_append, HeldKeys.toNat_codes, Finset.mem_sort, HeldKeys.mem_keys]
  exact or_iff_left hzero

/-- No slot holds more than the highest tracked code. -/
theorem le_of_mem_slotsOf {k : HeldKeys} {c : Nat} (h : c ∈ (slotsOf k.keys).map UInt8.toNat) : c ≤ 100 := by
  by_cases hcount : k.count ≤ 6
  · by_cases hc : c = 0
    · omega
    · have hlt : c < 101 := HeldKeys.lt_of_isHeld ((mem_slotsOf hcount hc).mp h)
      omega
  · rw [slotsOf_of_gt hcount] at h
    obtain rfl : c = 1 := by simpa using h
    decide

/-! ## The wire -/

/-- On the wire a report is its fields in order. -/
theorem toList_toBytes (r : Report) : r.toBytes.toList = r.modifier :: r.reserved :: r.slots.toList := by
  have hlen : (r.modifier :: r.reserved :: r.slots.toList).length = wireSize := by
    rw [List.length_cons, List.length_cons, Vector.length_toList]
    rfl
  have hbytes : r.toBytes = ⟨(r.modifier :: r.reserved :: r.slots.toList).toArray, by simpa using hlen⟩ := by
    refine Checked.get_eq ?_
    rw [toBytesChecked_eq_exactly, Bytes.exactly_eq_ok hlen]
  rw [hbytes]
  rfl

theorem length_toBytes (r : Report) : r.toBytes.toList.length = 8 := Vector.length_toList

/-- On the wire reports differ whenever they differ. -/
theorem toBytes_inj {r r' : Report} : r.toBytes = r'.toBytes ↔ r = r' := by
  constructor
  · intro h
    have hlist := congrArg Vector.toList h
    rw [toList_toBytes, toList_toBytes, List.cons.injEq, List.cons.injEq] at hlist
    obtain ⟨hm, hr, hs⟩ := hlist
    exact Report.ext hm hr (Vector.toList_inj.mp hs)
  · rintro rfl
    rfl

theorem toBytes_ofHeld (modifier : UInt8) (k : HeldKeys) :
    (ofHeld modifier k).toBytes.toList = modifier :: 0 :: slotsOf k.keys := by
  obtain ⟨hm, hr, hs⟩ := ofHeld_fields modifier k
  rw [toList_toBytes, hm, hr, hs]
  rfl

end Report

end BootKeyboard
