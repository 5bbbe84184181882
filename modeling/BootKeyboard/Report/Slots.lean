import BootKeyboard.Bytes
import BootKeyboard.HeldKeys.Basic
import BootKeyboard.Report.Basic

/-!
# The report of the held keys

The held keys are listed lowest first in a `SlotList`, which has room for as many usages as a report has slots. If one of them
finds no room the report shows a roll-over; otherwise the list is copied over slots of zeros. The copy is a checked access to
the slots: `isOk_ofHeldChecked` says that it never misses, since a `SlotList` is never longer than the slots.
-/

namespace BootKeyboard

/-- Usages on their way into the slots of a report, never more than there are slots. -/
structure SlotList where
  usages : Bytes := []
  length_le : usages.length ≤ Report.slotCount := by decide

namespace SlotList

/-- The list with one more usage last, if there is room. -/
def push? (l : SlotList) (usage : UInt8) : Option SlotList :=
  if h : l.usages.length < Report.slotCount then
    some ⟨l.usages ++ [usage], by rw [List.length_append]; exact h⟩
  else none

/-- The usages in a list, if there is room for all of them. -/
def ofUsages? (usages : Bytes) : Option SlotList := usages.foldlM push? {}

end SlotList

namespace Report

/-- The report that shows a modifier byte and the held keys. -/
def ofHeldChecked (modifier : UInt8) (k : HeldKeys) : Checked Report :=
  match SlotList.ofUsages? k.codes with
  | none => .ok { modifier, slots := Vector.replicate slotCount rollOver }
  | some l => do
    let slots ← (Bytes.zeros slotCount).fill 0 l.usages.length l.usages
    return { modifier, slots := ← slots.exactly slotCount }

theorem isOk_ofHeldChecked (modifier : UInt8) (k : HeldKeys) : (ofHeldChecked modifier k).isOk := by
  rw [ofHeldChecked]
  split
  · rfl
  · rename_i l _
    have hl := l.length_le
    have hz := Bytes.length_zeros slotCount
    rw [Bytes.fill_eq_ok (by omega) (by omega)]
    have hlen : ((Bytes.zeros slotCount).take 0 ++ l.usages ++ (Bytes.zeros slotCount).drop l.usages.length).length =
        slotCount := by
      simp only [List.take_zero, List.nil_append, List.length_append, List.length_drop, hz]
      omega
    show Except.isOk (Bytes.exactly slotCount _ >>= _) = true
    rw [Bytes.exactly_eq_ok hlen]
    rfl

/-- The report that shows a modifier byte and the held keys: the keys lowest first, or a roll-over when there are too many. -/
def ofHeld (modifier : UInt8) (k : HeldKeys) : Report :=
  (ofHeldChecked modifier k).get (isOk_ofHeldChecked modifier k)

theorem ofHeldChecked_eq (modifier : UInt8) (k : HeldKeys) : ofHeldChecked modifier k = .ok (ofHeld modifier k) :=
  Checked.eq_ok_get _ _

end Report

end BootKeyboard
