/-!
# Rows of bytes with checked access

The accesses to a row of bytes that can miss it: reading or writing one place, cutting a range out, filling a range, and taking
a row for one of a fixed length. Each returns a `Fault` instead of a result when it misses. Code that is written with them and
proved to succeed (`Checked.get`) is known never to reach outside a row.
-/

namespace BootKeyboard

/-- A row of bytes. -/
abbrev Bytes := List UInt8

namespace Bytes

/-- How an access misses its row. -/
inductive Fault
  /-- The place lies outside the row. -/
  | index
  /-- The range is not inside the row. -/
  | range
  /-- The lengths of the two sides differ. -/
  | length
deriving DecidableEq

end Bytes

/-- The result of an access that can miss. -/
abbrev Checked (α : Type) := Except Bytes.Fault α

/-- The result of an access that is known to succeed. -/
def Checked.get {α : Type} : (x : Checked α) → x.isOk → α
  | .ok a, _ => a
  | .error _, h => nomatch h

theorem Checked.eq_ok_get {α : Type} (x : Checked α) (h : x.isOk) : x = .ok (x.get h) := by
  cases x with
  | ok a => rfl
  | error e => nomatch h

theorem Checked.get_eq {α : Type} {x : Checked α} {h : x.isOk} {a : α} (hx : x = .ok a) : x.get h = a := by
  subst hx
  rfl

namespace Bytes

/-- A row of zero bytes. -/
def zeros (n : Nat) : Bytes := List.replicate n 0

@[simp] theorem length_zeros (n : Nat) : (zeros n).length = n := List.length_replicate

/-- The byte in a place. -/
def read (b : Bytes) (i : Nat) : Checked UInt8 :=
  match b[i]? with
  | some x => .ok x
  | none => .error .index

/-- The row with one byte replaced. -/
def write (b : Bytes) (i : Nat) (x : UInt8) : Checked Bytes :=
  if i < b.length then .ok (b.set i x) else .error .index

/-- The bytes from `start` up to, and without, `stop`. -/
def slice (b : Bytes) (start stop : Nat) : Checked Bytes :=
  if start ≤ stop ∧ stop ≤ b.length then .ok ((b.take stop).drop start) else .error .range

/-- The row with the bytes from `start` up to `stop` replaced by as many others. -/
def fill (b : Bytes) (start stop : Nat) (src : Bytes) : Checked Bytes := do
  let range ← b.slice start stop
  if src.length = range.length then .ok (b.take start ++ src ++ b.drop stop) else .error .length

/-- The row as one of a fixed length. -/
def exactly (n : Nat) (b : Bytes) : Checked (Vector UInt8 n) :=
  if h : b.length = n then .ok ⟨b.toArray, by simpa using h⟩ else .error .length

/-! ## When an access succeeds -/

theorem read_eq_ok {b : Bytes} {i : Nat} (h : i < b.length) : b.read i = .ok b[i] := by
  simp [read, h]

theorem write_eq_ok {b : Bytes} {i : Nat} (h : i < b.length) (x : UInt8) : b.write i x = .ok (b.set i x) := by
  simp [write, h]

theorem slice_eq_ok {b : Bytes} {start stop : Nat} (h : start ≤ stop) (h' : stop ≤ b.length) :
    b.slice start stop = .ok ((b.take stop).drop start) := by
  simp [slice, h, h']

theorem fill_eq_ok {b src : Bytes} {start stop : Nat} (h : start + src.length = stop) (h' : stop ≤ b.length) :
    b.fill start stop src = .ok (b.take start ++ src ++ b.drop stop) := by
  have hlen : src.length = ((b.take stop).drop start).length := by
    rw [List.length_drop, List.length_take]
    omega
  rw [fill, slice_eq_ok (by omega) h']
  exact if_pos hlen

theorem exactly_eq_ok {n : Nat} {b : Bytes} (h : b.length = n) :
    b.exactly n = .ok ⟨b.toArray, by simpa using h⟩ := by
  simp [exactly, h]

end Bytes

end BootKeyboard
