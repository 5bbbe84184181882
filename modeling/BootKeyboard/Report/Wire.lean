import BootKeyboard.Bytes
import BootKeyboard.Report.Basic

/-!
# Reports on the wire

On the wire a report is eight bytes: the modifier byte, the reserved byte, then the six slots. Writing puts them at the start of
a buffer and leaves what follows; a buffer that is too short stays as it is. Reading takes the first eight bytes of whatever
came. Both are written with checked accesses, and the lemmas say that none of these misses: `writeToChecked_of_le` and
`ofBytesChecked_of_le` give the results in closed form.
-/

namespace BootKeyboard

namespace Report

/-- The place of the modifier byte. -/
def modifierOffset : Nat := 0

/-- The place of the reserved byte. -/
def reservedOffset : Nat := 1

/-- The place of the first slot. -/
def slotsOffset : Nat := 2

/-- How many bytes a report takes. -/
def wireSize : Nat := slotsOffset + slotCount

/-! ## Writing -/

/-- Writes the report at the start of a buffer: the number of bytes written, and the buffer. -/
def writeToChecked (r : Report) (buf : Bytes) : Checked (Nat × Bytes) :=
  if buf.length < wireSize then .ok (0, buf)
  else do
    let buf ← buf.write modifierOffset r.modifier
    let buf ← buf.write reservedOffset r.reserved
    let buf ← buf.fill slotsOffset wireSize r.slots.toList
    return (wireSize, buf)

theorem writeToChecked_of_lt {buf : Bytes} (h : buf.length < wireSize) (r : Report) :
    r.writeToChecked buf = .ok (0, buf) :=
  if_pos h

theorem writeToChecked_of_le {buf : Bytes} (h : wireSize ≤ buf.length) (r : Report) :
    r.writeToChecked buf = .ok (wireSize, r.modifier :: r.reserved :: r.slots.toList ++ buf.drop wireSize) := by
  match buf, h with
  | x :: y :: rest, h =>
    have hslots : slotsOffset + r.slots.toList.length = wireSize := by rw [Vector.length_toList]; rfl
    have hfill := Bytes.fill_eq_ok (b := r.modifier :: r.reserved :: rest) hslots h
    rw [writeToChecked, if_neg (Nat.not_lt.mpr h)]
    show (Bytes.fill (r.modifier :: r.reserved :: rest) slotsOffset wireSize r.slots.toList >>= _) = _
    rw [hfill]
    rfl

theorem isOk_writeToChecked (r : Report) (buf : Bytes) : (r.writeToChecked buf).isOk := by
  by_cases h : buf.length < wireSize
  · rw [writeToChecked_of_lt h]; rfl
  · rw [writeToChecked_of_le (Nat.le_of_not_lt h)]; rfl

/-- Writes the report at the start of a buffer: the number of bytes written, and the buffer. -/
def writeTo (r : Report) (buf : Bytes) : Nat × Bytes := (r.writeToChecked buf).get (isOk_writeToChecked r buf)

theorem writeToChecked_eq (r : Report) (buf : Bytes) : r.writeToChecked buf = .ok (r.writeTo buf) :=
  Checked.eq_ok_get _ _

/-- Writes the report into eight bytes of its own. -/
def toBytesChecked (r : Report) : Checked (Vector UInt8 wireSize) := do
  let (_, buf) ← r.writeToChecked (Bytes.zeros wireSize)
  buf.exactly wireSize

theorem toBytesChecked_eq_exactly (r : Report) :
    r.toBytesChecked = Bytes.exactly wireSize (r.modifier :: r.reserved :: r.slots.toList) := by
  rw [toBytesChecked, writeToChecked_of_le (Nat.le_of_eq (Bytes.length_zeros wireSize).symm)]
  show Bytes.exactly wireSize (r.modifier :: r.reserved :: r.slots.toList ++ []) = _
  rw [List.append_nil]

theorem isOk_toBytesChecked (r : Report) : r.toBytesChecked.isOk := by
  have h : (r.modifier :: r.reserved :: r.slots.toList).length = wireSize := by
    rw [List.length_cons, List.length_cons, Vector.length_toList]; rfl
  rw [toBytesChecked_eq_exactly, Bytes.exactly_eq_ok h]
  rfl

/-- The eight bytes of a report. -/
def toBytes (r : Report) : Vector UInt8 wireSize := r.toBytesChecked.get (isOk_toBytesChecked r)

theorem toBytesChecked_eq (r : Report) : r.toBytesChecked = .ok r.toBytes := Checked.eq_ok_get _ _

/-! ## Reading -/

/-- The report in the first eight bytes, or nothing if there are fewer. -/
def ofBytesChecked (b : Bytes) : Checked (Option Report) :=
  if b.length < wireSize then .ok none
  else do
    let slots ← (← b.slice slotsOffset wireSize).exactly slotCount
    return some { modifier := ← b.read modifierOffset, reserved := ← b.read reservedOffset, slots }

theorem ofBytesChecked_of_lt {b : Bytes} (h : b.length < wireSize) : ofBytesChecked b = .ok none := if_pos h

theorem ofBytesChecked_of_le {b : Bytes} (h : wireSize ≤ b.length) :
    ∃ r : Report, ofBytesChecked b = .ok (some r) ∧ r.modifier :: r.reserved :: r.slots.toList = b.take wireSize := by
  match b, h with
  | x :: y :: rest, h =>
    have hrest : slotCount ≤ rest.length := by
      have h' : slotCount + 2 ≤ rest.length + 2 := h
      omega
    have hlen : (rest.take slotCount).length = slotCount := by rw [List.length_take]; omega
    refine ⟨⟨x, y, ⟨(rest.take slotCount).toArray, by simpa using hlen⟩⟩, ?_, rfl⟩
    rw [ofBytesChecked, if_neg (Nat.not_lt.mpr h), Bytes.slice_eq_ok (by decide) h]
    show (Bytes.exactly slotCount (rest.take slotCount) >>= _) = _
    rw [Bytes.exactly_eq_ok hlen]
    rfl

theorem isOk_ofBytesChecked (b : Bytes) : (ofBytesChecked b).isOk := by
  by_cases h : b.length < wireSize
  · rw [ofBytesChecked_of_lt h]; rfl
  · obtain ⟨r, hr, -⟩ := ofBytesChecked_of_le (Nat.le_of_not_lt h)
    rw [hr]; rfl

/-- The report in the first eight bytes, or nothing if there are fewer. -/
def ofBytes? (b : Bytes) : Option Report := (ofBytesChecked b).get (isOk_ofBytesChecked b)

theorem ofBytesChecked_eq (b : Bytes) : ofBytesChecked b = .ok (ofBytes? b) := Checked.eq_ok_get _ _

end Report

end BootKeyboard
