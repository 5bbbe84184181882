import BootKeyboard.Proofs.Descriptor.Bits
import BootKeyboard.Proofs.Keyboard.History
import BootKeyboard.Proofs.Mods.ModifierByte

/-!
# Reports mean what the descriptor says

A host that knows nothing but the descriptor reads a report by it. The descriptor of the keyboard describes three input fields
(`inputFields?_keyboard`): eight modifier bits, a constant byte and six array elements. Every report that is built fits these
fields (`fits_ofHeld`), and read by them it tells the modifiers of its event and the keys that are held (`mem_decode_ofHeld`).
The main statement, `pushed_report_decodes`, puts this together for every push of every run on a registered keyboard.
-/

namespace BootKeyboard

namespace Descriptor

/-! ## The fields of the keyboard -/

/-- The usage page of keys. -/
def keyPage : Nat := 0x07

/-- The modifier bits, one usage each. -/
def modifierField : Field where
  page := keyPage
  usageMin := 0xE0
  usageMax := 0xE7
  logicalMin := 0
  logicalMax := 1
  size := 1
  count := 8
  isConstant := false
  isVariable := true

/-- The reserved byte. -/
def reservedField : Field where
  page := keyPage
  usageMin := 0
  usageMax := 0
  logicalMin := 0
  logicalMax := 1
  size := 8
  count := 1
  isConstant := true
  isVariable := false

/-- The slots. -/
def slotField : Field where
  page := keyPage
  usageMin := 0
  usageMax := 100
  logicalMin := 0
  logicalMax := 100
  size := 8
  count := 6
  isConstant := false
  isVariable := false

theorem inputFields?_keyboard : inputFields? keyboard = some [modifierField, reservedField, slotField] := by
  rw [keyboard_eq]
  decide

/-- A report has the form that its fields ask for. -/
structure Fits (fs : List Field) (report : Bytes) : Prop where
  /-- The fields take all bits of the report, and no more. -/
  width : (bitsOf report).length = totalWidth fs
  /-- Padding is zero. -/
  constant : ∀ p ∈ split fs (bitsOf report), p.1.isConstant = true → ∀ v ∈ p.2, v = 0
  /-- An element of an array lies in the logical extent of its field. -/
  array : ∀ p ∈ split fs (bitsOf report), p.1.isConstant = false → p.1.isVariable = false →
    ∀ v ∈ p.2, p.1.logicalMin ≤ (v : Int) ∧ (v : Int) ≤ p.1.logicalMax

/-- The flags of the modifier keys, in the order of the usages from 0xE0. -/
def modifierFlags : List Mods.Flag :=
  [.leftCtrl, .leftShift, .leftAlt, .leftGui, .rightCtrl, .rightShift, .rightAlt, .rightGui]

/-- What a report should tell: the modifiers of its event, and the keys that are held. Usage zero stands for no key, so it is
never told; when more keys are held than there are slots the report tells the roll-over usage in their place. -/
def Shown (m : Mods) (k : HeldKeys) (u : Usage) : Prop :=
  (∃ i f, modifierFlags[i]? = some f ∧ f ∈ m ∧ u = ⟨keyPage, 0xE0 + i⟩) ∨
    if k.count ≤ 6 then ∃ c, c ≠ 0 ∧ k.isHeld c = true ∧ u = ⟨keyPage, c⟩ else u = ⟨keyPage, 1⟩

/-! ## The three parts of a report -/

theorem modifierFlags_index (k : Modifier) : modifierFlags[k.index]? = some k.flag := by cases k <;> rfl

theorem exists_modifier_of_modifierFlags {i : Nat} {f : Mods.Flag} (h : modifierFlags[i]? = some f) :
    ∃ k : Modifier, k.index = i ∧ k.flag = f := by
  obtain ⟨hi, rfl⟩ := List.getElem?_eq_some_iff.mp h
  have hall : ∀ j : Fin 8, ∃ k ∈ Modifier.all, k.index = j ∧ k.flag = modifierFlags[j] := by decide
  obtain ⟨k, -, hk⟩ := hall ⟨i, hi⟩
  exact ⟨k, hk⟩

/-- The elements of the modifier field are the bits of the first byte. -/
theorem getElem?_elements_modifierField (x : UInt8) (b : Bytes) {i : Nat} (hi : i < 8) :
    (modifierField.elements (bitsOf (x :: b)))[i]? = some (x.toNat.testBit i).toNat := by
  have hcount : modifierField.count ≤ (bitsOf (x :: b)).length := by
    rw [length_bitsOf, List.length_cons]
    simp only [modifierField]
    omega
  rw [Field.elements_of_bit rfl hcount, modifierField, take_bitsOf_cons]
  simp [hi]

theorem mem_usages_modifierField (m : Mods) (b : Bytes) (u : Usage) :
    u ∈ modifierField.usages (modifierField.elements (bitsOf (m.modifierByte :: b))) ↔
      ∃ i f, modifierFlags[i]? = some f ∧ f ∈ m ∧ u = ⟨keyPage, 0xE0 + i⟩ := by
  rw [Field.mem_usages_of_variable rfl rfl]
  constructor
  · rintro ⟨i, v, hv, h0, rfl⟩
    have hi : i < modifierField.count := by
      have := (List.getElem?_eq_some_iff.mp hv).1
      rwa [Field.length_elements] at this
    rw [getElem?_elements_modifierField _ _ hi] at hv
    obtain rfl : (m.modifierByte.toNat.testBit i).toNat = v := by simpa using hv
    have hbit : m.modifierByte.toNat.testBit i = true := by
      cases hb : m.modifierByte.toNat.testBit i with
      | true => rfl
      | false => rw [hb] at h0; exact absurd rfl h0
    obtain ⟨k, hk, rfl⟩ := (Mods.testBit_modifierByte m i).mp hbit
    exact ⟨k.index, k.flag, modifierFlags_index k, hk, rfl⟩
  · rintro ⟨i, f, hf, hm, rfl⟩
    obtain ⟨k, rfl, rfl⟩ := exists_modifier_of_modifierFlags hf
    refine ⟨k.index, _, getElem?_elements_modifierField _ _ k.index_lt, ?_, rfl⟩
    rw [Mods.testBit_modifierByte_index, decide_eq_true hm]
    decide

theorem elements_slotField (k : HeldKeys) :
    slotField.elements (bitsOf (Report.slotsOf k.keys)) = (Report.slotsOf k.keys).map UInt8.toNat := by
  have hlen := Report.length_slotsOf k
  rw [Field.elements_of_byte rfl (Nat.le_of_eq hlen.symm)]
  exact congrArg _ (List.take_of_length_le (Nat.le_of_eq hlen))

/-- A value in the logical extent of the slots chooses itself, unless it is zero. -/
theorem chosen?_slotField {v : Nat} (h : v ≤ 100) (u : Usage) :
    slotField.chosen? v = some u ↔ v ≠ 0 ∧ u = ⟨keyPage, v⟩ := by
  have hextent : slotField.inExtent v = true := by
    refine decide_eq_true ?_
    simp only [slotField]
    omega
  have hid : slotField.usageMin + ((v : Int) - slotField.logicalMin).toNat = v := by
    simp only [slotField]
    omega
  rw [Field.chosen?, hextent, hid]
  by_cases hv : v = 0
  · simp [hv]
  · have hpage : (⟨slotField.page, v⟩ : Usage) = ⟨keyPage, v⟩ := rfl
    simp only [Bool.true_and, bne_iff_ne, ne_eq, hv, not_false_eq_true, if_true, true_and, Option.some.injEq, hpage]
    exact eq_comm

theorem mem_usages_slotField (k : HeldKeys) (u : Usage) :
    u ∈ slotField.usages (slotField.elements (bitsOf (Report.slotsOf k.keys))) ↔
      if k.count ≤ 6 then ∃ c, c ≠ 0 ∧ k.isHeld c = true ∧ u = ⟨keyPage, c⟩ else u = ⟨keyPage, 1⟩ := by
  rw [Field.mem_usages_of_array rfl rfl, elements_slotField]
  have hmem : (∃ v ∈ (Report.slotsOf k.keys).map UInt8.toNat, slotField.chosen? v = some u) ↔
      ∃ v ∈ (Report.slotsOf k.keys).map UInt8.toNat, v ≠ 0 ∧ u = ⟨keyPage, v⟩ :=
    exists_congr fun v => and_congr_right fun hv => chosen?_slotField (Report.le_of_mem_slotsOf hv) u
  rw [hmem]
  by_cases h : k.count ≤ 6
  · rw [if_pos h]
    constructor
    · rintro ⟨c, hc, h0, rfl⟩
      exact ⟨c, h0, (Report.mem_slotsOf h h0).mp hc, rfl⟩
    · rintro ⟨c, h0, hc, rfl⟩
      exact ⟨c, (Report.mem_slotsOf h h0).mpr hc, h0, rfl⟩
  · rw [if_neg h, Report.slotsOf_of_gt h]
    simp

/-! ## A report read by the descriptor -/

/-- The fields cut a report at its bytes. -/
theorem split_keyboard (x y : UInt8) (b : Bytes) :
    split [modifierField, reservedField, slotField] (bitsOf (x :: y :: b)) =
      [(modifierField, modifierField.elements (bitsOf (x :: y :: b))),
        (reservedField, reservedField.elements (bitsOf (y :: b))), (slotField, slotField.elements (bitsOf b))] := by
  show [(modifierField, modifierField.elements (bitsOf (x :: y :: b))),
    (reservedField, reservedField.elements ((bitsOf (x :: y :: b)).drop 8)),
    (slotField, slotField.elements (((bitsOf (x :: y :: b)).drop 8).drop 8))] = _
  rw [drop_bitsOf_cons, drop_bitsOf_cons]

theorem fits_ofHeld (modifier : UInt8) (k : HeldKeys) :
    Fits [modifierField, reservedField, slotField] (modifier :: 0 :: Report.slotsOf k.keys) := by
  refine ⟨?_, ?_, ?_⟩
  · rw [length_bitsOf, List.length_cons, List.length_cons, Report.length_slotsOf]
    rfl
  · intro p hp hconst v hv
    rw [split_keyboard] at hp
    simp only [List.mem_cons, List.not_mem_nil, or_false] at hp
    rcases hp with rfl | rfl | rfl
    · cases hconst
    · have hzero : reservedField.elements (bitsOf (0 :: Report.slotsOf k.keys)) = [0] :=
        Field.elements_of_byte rfl (Nat.le_add_left 1 _)
      simpa [hzero] using hv
    · cases hconst
  · intro p hp hconst hvar v hv
    rw [split_keyboard] at hp
    simp only [List.mem_cons, List.not_mem_nil, or_false] at hp
    rcases hp with rfl | rfl | rfl
    · cases hvar
    · cases hconst
    · rw [elements_slotField] at hv
      have := Report.le_of_mem_slotsOf hv
      simp only [slotField]
      omega

theorem mem_decode_ofHeld (m : Mods) (k : HeldKeys) (u : Usage) :
    u ∈ decode [modifierField, reservedField, slotField] (m.modifierByte :: 0 :: Report.slotsOf k.keys) ↔
      Shown m k u := by
  rw [decode, split_keyboard]
  simp only [List.flatMap_cons, List.flatMap_nil, List.append_nil, List.mem_append]
  rw [mem_usages_modifierField, mem_usages_slotField, Field.usages_of_constant rfl]
  simp only [List.not_mem_nil, false_or]
  rfl

end Descriptor

namespace Keyboard

open Descriptor (Fits Shown decode inputFields?)

/-- Every report that is pushed on a registered keyboard means what the registered descriptor says. Read by the fields of that
descriptor the report fits them, and it tells exactly the modifiers of the event and the keys that are held after it. -/
theorem pushed_report_decodes {α : Type} [Accessory α] (l₀ : Logged α)
    (hsetup : (Accessory.setup 1 Descriptor.keyboard l₀.target).1 = .accepted) :
    ∃ (k : Keyboard) (l : Logged α) (d : Bytes) (fs : List Descriptor.Field),
      (register : StateM (Logged α) (Except HidError Keyboard)) l₀ = (.ok k, l) ∧
        l.exchanges = l₀.exchanges ++ [⟨.setup 1 d, .accepted⟩] ∧ inputFields? d = some fs ∧
        ∀ (xs : List Input) (i : Nat) (n : Note), (k.notes l (xs.map .input)).1[i]? = some n →
          ∀ (id : AccessoryId) (payload : Bytes), .push id payload ∈ n.calls →
            ∃ e : KeyEvent, xs[i]? = some (.key e) ∧ Fits fs payload ∧
              ∀ u, u ∈ decode fs payload ↔ Shown e.mods n.keyboard.held u := by
  have hanswer : (Accessory.setup accessoryId Descriptor.keyboard l₀).1 = .accepted := hsetup
  refine ⟨⟨∅⟩, (Accessory.setup accessoryId Descriptor.keyboard l₀).2, Descriptor.keyboard, _, ?_, ?_,
    Descriptor.inputFields?_keyboard, ?_⟩
  · rw [register_eq, hanswer]
  · show l₀.exchanges ++ [⟨_, (Accessory.setup 1 Descriptor.keyboard l₀.target).1⟩] = _
    rw [hsetup]
    rfl
  intro xs i n hn id payload hcall
  -- the note in this place is that of the notification in this place
  have hi : i < xs.length := by
    have := (List.getElem?_eq_some_iff.mp hn).1
    rwa [length_notes, List.length_map] at this
  have hx : xs[i]? = some xs[i] := List.getElem?_eq_getElem hi
  have hu : (xs.map Use.input)[i]? = some (.input xs[i]) := by rw [List.getElem?_map, hx]; rfl
  obtain ⟨l', hn'⟩ := exists_note ⟨∅⟩ (Accessory.setup accessoryId Descriptor.keyboard l₀).2 (xs.map Use.input) i _ hu
  obtain rfl := Option.some.inj (hn'.symm.trans hn)
  cases hxi : xs[i] with
  | text s =>
    rw [hxi, calls_note] at hcall
    exact absurd hcall List.not_mem_nil
  | key e =>
    rw [hxi] at hx hcall
    rw [calls_note_key] at hcall
    by_cases he : e.IsReported
    · rw [if_pos he, List.mem_singleton, Call.push.injEq] at hcall
      obtain ⟨-, rfl⟩ := hcall
      refine ⟨e, hx, Descriptor.fits_ofHeld _ _, fun u => ?_⟩
      rw [keyboard_note]
      exact Descriptor.mem_decode_ofHeld e.mods _ u
    · rw [if_neg he] at hcall
      exact absurd hcall List.not_mem_nil

/-- Left control and the key of an a are pressed in one event: the descriptor reads both of them off the report. -/
theorem pushed_report_decodes_ctrl_a :
    (Accessory.setup 1 Descriptor.keyboard ({} : Script)).1 = .accepted ∧
      ∃ (k : Keyboard) (l : Recorder) (d : Bytes) (fs : List Descriptor.Field) (n : Note),
        (register : StateM Recorder (Except HidError Keyboard)) ⟨{}, []⟩ = (.ok k, l) ∧
          l.exchanges = [⟨.setup 1 d, .accepted⟩] ∧ inputFields? d = some fs ∧
          (k.notes l ([.key (.down .a Mods.Flag.leftCtrl.mods)].map .input)).1[0]? = some n ∧
          .push 1 [1, 0, 4, 0, 0, 0, 0, 0] ∈ n.calls ∧ Fits fs [1, 0, 4, 0, 0, 0, 0, 0] ∧
          ∀ u, u ∈ decode fs [1, 0, 4, 0, 0, 0, 0, 0] ↔ Shown Mods.Flag.leftCtrl.mods n.keyboard.held u := by
  obtain ⟨k, l, d, fs, hreg, hlog, hfs, h⟩ := pushed_report_decodes (⟨{}, []⟩ : Recorder) rfl
  have hnew : (Except.ok ⟨∅⟩, (Accessory.setup 1 Descriptor.keyboard (⟨{}, []⟩ : Recorder)).2) = (Except.ok k, l) := hreg
  obtain ⟨hok, rfl⟩ := Prod.mk.inj hnew
  obtain rfl := Except.ok.inj hok
  have hkeys : KeyEvent.heldAfter [.down .a Mods.Flag.leftCtrl.mods] = {4} := by decide
  have hslots : Report.slotsOf {4} = [4, 0, 0, 0, 0, 0] := by
    rw [Report.slotsOf, Finset.sort_singleton]
    rfl
  have hfirst : ∀ (x : Input) (l : Recorder), ((⟨∅⟩ : Keyboard).note l (.input x)).1.calls = dueCalls [x] x := by
    intro x l
    refine calls_note_input ?_ l
    rw [← filterMap_event?_input]
    exact keys_afterAll [.input x]
  have hpush : .push 1 [1, 0, 4, 0, 0, 0, 0, 0] ∈
      ((⟨∅⟩ : Keyboard).note (Accessory.setup 1 Descriptor.keyboard (⟨{}, []⟩ : Recorder)).2
        (.input (.key (.down .a Mods.Flag.leftCtrl.mods)))).1.calls := by
    rw [hfirst]
    show _ ∈ [Call.push 1 (_ :: 0 :: Report.slotsOf (KeyEvent.heldAfter [.down .a Mods.Flag.leftCtrl.mods]))]
    rw [hkeys, hslots]
    exact List.mem_singleton_self _
  obtain ⟨e, he, hfits, hdecode⟩ :=
    h [.key (.down .a Mods.Flag.leftCtrl.mods)] 0 _ rfl 1 [1, 0, 4, 0, 0, 0, 0, 0] hpush
  obtain rfl : KeyEvent.down .a Mods.Flag.leftCtrl.mods = e := by simpa using he
  exact ⟨rfl, _, _, d, fs, _, hreg, hlog, hfs, rfl, hpush, hfits, hdecode⟩

end Keyboard

end BootKeyboard
