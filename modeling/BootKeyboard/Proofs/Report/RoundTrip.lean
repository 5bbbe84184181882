import BootKeyboard.Proofs.Report.Listing

/-!
# Reports there and back

Writing a report and reading one in closed form: a write puts the eight bytes of the report at the start of the buffer
(`writeTo_of_le`), and a read gives the one report whose bytes the row begins with (`ofBytes?_eq_some_iff`). So what was written is
read back, from the buffer as a whole, since nothing looks at the bytes behind, and what was read is written back over itself. The
main statements are `writeTo_reads_back`, which adds what a write leaves alone, and `ofBytes?_writes_back`, which adds which rows
can be read and when two of them read the same.
-/

namespace BootKeyboard

namespace Report

theorem writeTo_of_lt {buf : Bytes} (h : buf.length < 8) (r : Report) : r.writeTo buf = (0, buf) :=
  Checked.get_eq (writeToChecked_of_lt h r)

theorem writeTo_of_le {buf : Bytes} (h : 8 ≤ buf.length) (r : Report) :
    r.writeTo buf = (8, r.toBytes.toList ++ buf.drop 8) := by
  rw [toList_toBytes]
  exact Checked.get_eq (writeToChecked_of_le h r)

theorem ofBytes?_of_lt {b : Bytes} (h : b.length < 8) : ofBytes? b = none := Checked.get_eq (ofBytesChecked_of_lt h)

theorem ofBytes?_of_le {b : Bytes} (h : 8 ≤ b.length) : ∃ r : Report, ofBytes? b = some r ∧ r.toBytes.toList = b.take 8 := by
  obtain ⟨r, hr, hbytes⟩ := ofBytesChecked_of_le h
  exact ⟨r, Checked.get_eq hr, (toList_toBytes r).trans hbytes⟩

/-- A row reads as a report when it begins with the bytes of this report. -/
theorem ofBytes?_eq_some_iff {b : Bytes} {r : Report} :
    ofBytes? b = some r ↔ 8 ≤ b.length ∧ r.toBytes.toList = b.take 8 := by
  by_cases h : 8 ≤ b.length
  · obtain ⟨r', hr', hbytes⟩ := ofBytes?_of_le h
    rw [hr', ← hbytes, Vector.toList_inj, toBytes_inj, Option.some.injEq, eq_comm]
    exact (and_iff_right h).symm
  · rw [ofBytes?_of_lt (Nat.lt_of_not_le h)]
    exact ⟨nofun, fun hb => absurd hb.1 h⟩

/-- The bytes of a report read as this report, whatever comes after them. -/
theorem ofBytes?_toBytes_append (r : Report) (rest : Bytes) : ofBytes? (r.toBytes.toList ++ rest) = some r := by
  have hlen := r.length_toBytes
  refine ofBytes?_eq_some_iff.mpr ⟨?_, (List.take_left' hlen).symm⟩
  rw [List.length_append]
  omega

/-- A row can be read when it is long enough. -/
theorem isSome_ofBytes?_iff {b : Bytes} : (ofBytes? b).isSome = true ↔ 8 ≤ b.length := by
  rw [Option.isSome_iff_exists]
  constructor
  · rintro ⟨r, hr⟩
    exact (ofBytes?_eq_some_iff.mp hr).1
  · intro h
    obtain ⟨r, hr, -⟩ := ofBytes?_of_le h
    exact ⟨r, hr⟩

/-- A report that is written over the row it was read from leaves the row as it is. -/
theorem writeTo_of_ofBytes? {b : Bytes} {r : Report} (h : ofBytes? b = some r) : r.writeTo b = (8, b) := by
  obtain ⟨hlen, hbytes⟩ := ofBytes?_eq_some_iff.mp h
  rw [writeTo_of_le hlen, hbytes, List.take_append_drop]

/-- Rows that can be read are told apart by their first eight bytes and nothing else. -/
theorem ofBytes?_eq_iff_of_le {b c : Bytes} (hb : 8 ≤ b.length) (hc : 8 ≤ c.length) :
    ofBytes? b = ofBytes? c ↔ b.take 8 = c.take 8 := by
  obtain ⟨r, hr, hbytes⟩ := ofBytes?_of_le hb
  obtain ⟨r', hr', hbytes'⟩ := ofBytes?_of_le hc
  rw [hr, hr', ← hbytes, ← hbytes', Vector.toList_inj, toBytes_inj, Option.some.injEq]

/-- Writing a report into a buffer and reading the buffer, in four parts.
1. A buffer of fewer than eight bytes stays as it is, and no byte counts as written.
2. In any other eight bytes are written. It keeps its length and every byte behind them; it begins with the bytes of the report;
   and read as a whole it gives the report back.
3. The bytes of a report are its fields in order.
4. Reports are the same just when their bytes are. -/
theorem writeTo_reads_back (r : Report) (buf : Bytes) :
    (buf.length < 8 → r.writeTo buf = (0, buf)) ∧
    (8 ≤ buf.length →
      ∃ out : Bytes, r.writeTo buf = (8, out) ∧ out.length = buf.length ∧ (∀ i, 8 ≤ i → out[i]? = buf[i]?) ∧
        out.take 8 = r.toBytes.toList ∧ ofBytes? out = some r) ∧
    r.toBytes.toList = r.modifier :: r.reserved :: r.slots.toList ∧
    ∀ r' : Report, r = r' ↔ r.toBytes = r'.toBytes := by
  have hlen := r.length_toBytes
  refine ⟨fun h => writeTo_of_lt h r, fun h => ?_, toList_toBytes r, fun r' => toBytes_inj.symm⟩
  refine ⟨_, writeTo_of_le h r, ?_, ?_, List.take_left' hlen, ofBytes?_toBytes_append r _⟩
  · rw [List.length_append, List.length_drop]
    omega
  · intro i hi
    rw [List.getElem?_append_right (by omega), List.getElem?_drop]
    congr 1
    omega

/-- Reading a row of bytes and writing what was read, in three parts.
1. A row can be read when it has eight bytes or more, and only then.
2. The report that is read has the first eight bytes for its fields, in order and as they are, so whatever the reserved byte is.
   These are also the bytes that it writes, and written over the row it leaves the row as it is.
3. Rows of eight bytes or more read the same just when their first eight bytes are the same. -/
theorem ofBytes?_writes_back (b : Bytes) :
    ((ofBytes? b).isSome = true ↔ 8 ≤ b.length) ∧
    (∀ r, ofBytes? b = some r →
      r.modifier :: r.reserved :: r.slots.toList = b.take 8 ∧ r.toBytes.toList = b.take 8 ∧ r.writeTo b = (8, b)) ∧
    ∀ c : Bytes, 8 ≤ b.length → 8 ≤ c.length → (ofBytes? b = ofBytes? c ↔ b.take 8 = c.take 8) := by
  refine ⟨isSome_ofBytes?_iff, ?_, fun c hb hc => ofBytes?_eq_iff_of_le hb hc⟩
  intro r hr
  have hbytes := (ofBytes?_eq_some_iff.mp hr).2
  exact ⟨(toList_toBytes r).symm.trans hbytes, hbytes, writeTo_of_ofBytes? hr⟩

/-- A row of nine bytes with a reserved byte that is not zero. It is read with this byte, and the ninth does not count. -/
theorem ofBytes?_writes_back_reserved :
    let b : Bytes := [2, 0xFF, 4, 0, 4, 0xFF, 0, 0, 7]
    ∃ r, ofBytes? b = some r ∧ r.reserved = 0xFF ∧ r.writeTo b = (8, b) ∧ ofBytes? (b.take 8) = some r := by
  intro b
  obtain ⟨hsome, hread, hsame⟩ := ofBytes?_writes_back b
  obtain ⟨r, hr⟩ := Option.isSome_iff_exists.mp (hsome.mpr (by decide))
  obtain ⟨hfields, -, hwrite⟩ := hread r hr
  have hreserved : r.reserved = 0xFF := (List.cons.inj (List.cons.inj hfields).2).1
  have hrest : ofBytes? b = ofBytes? (b.take 8) := (hsame _ (by decide) (by decide)).mpr rfl
  exact ⟨r, hr, hreserved, hwrite, hrest.symm.trans hr⟩

end Report

end BootKeyboard
