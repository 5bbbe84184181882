import BootKeyboard.Proofs.Keyboard.Use
import BootKeyboard.Proofs.Report.RoundTrip

/-!
# No access misses

A table, a report and a buffer are reached place by place, and an access to a place that is not there has no result. Here the
accesses are told exactly: when each of them succeeds, and that none that the keyboard makes is one that fails. A report is built,
written and read by checked accesses already; the table of held keys and the keyboard are written with them once more
(`HeldKeys.setChecked`, `Keyboard.receiveChecked`), and turn out to be the ones without. A keyboard that takes in notifications
can so never come to a halt, whatever they are and whatever the accessory answers. The main statement is `no_access_misses`.
-/

namespace BootKeyboard

open Scancode (keyCount)

/-! ## When an access succeeds -/

theorem Checked.isOk_dite {β : Type} {p : Prop} [Decidable p] {f : p → β} {e : Bytes.Fault} :
    (if h : p then .ok (f h) else .error e : Checked β).isOk = true ↔ p := by
  by_cases h : p
  · rw [dif_pos h]
    exact iff_of_true rfl h
  · rw [dif_neg h]
    exact iff_of_false Bool.false_ne_true h

theorem Checked.isOk_ite {β : Type} {p : Prop} [Decidable p] {x : β} {e : Bytes.Fault} :
    (if p then .ok x else .error e : Checked β).isOk = true ↔ p :=
  Checked.isOk_dite (f := fun _ => x)

namespace Bytes

theorem isOk_read_iff {b : Bytes} {i : Nat} : (b.read i).isOk = true ↔ i < b.length := by
  rw [read]
  by_cases h : i < b.length
  · rw [List.getElem?_eq_getElem h]
    exact iff_of_true rfl h
  · rw [List.getElem?_eq_none (Nat.le_of_not_lt h)]
    exact iff_of_false Bool.false_ne_true h

theorem isOk_write_iff {b : Bytes} {i : Nat} {x : UInt8} : (b.write i x).isOk = true ↔ i < b.length := Checked.isOk_ite

theorem isOk_slice_iff {b : Bytes} {start stop : Nat} :
    (b.slice start stop).isOk = true ↔ start ≤ stop ∧ stop ≤ b.length :=
  Checked.isOk_ite

/-- A range is filled when it lies in the row and has the length of what it is filled with. -/
theorem isOk_fill_iff {b src : Bytes} {start stop : Nat} :
    (b.fill start stop src).isOk = true ↔ start + src.length = stop ∧ stop ≤ b.length := by
  by_cases hrange : start ≤ stop ∧ stop ≤ b.length
  · rw [fill, slice_eq_ok hrange.1 hrange.2]
    refine Checked.isOk_ite.trans ?_
    rw [List.length_drop, List.length_take]
    omega
  · have hslice : b.slice start stop = .error .range := if_neg hrange
    rw [fill, hslice]
    refine iff_of_false Bool.false_ne_true fun h => hrange ?_
    omega

theorem isOk_exactly_iff {n : Nat} {b : Bytes} : (b.exactly n).isOk = true ↔ b.length = n := Checked.isOk_dite

end Bytes

/-! ## The table -/

namespace HeldKeys

/-- What the cell of a code says. -/
def readCell (k : HeldKeys) (code : Nat) : Checked Bool :=
  if h : code < keyCount then .ok k.cells[code] else .error .index

/-- The table with the cell of a code replaced. -/
def writeCell (k : HeldKeys) (code : Nat) (held : Bool) : Checked HeldKeys :=
  if h : code < keyCount then .ok ⟨k.cells.set code held⟩ else .error .index

/-- The key with this code is down, as its cell says. A code past the table has no cell to look at. -/
def isHeldChecked (k : HeldKeys) (code : Nat) : Checked Bool :=
  if code < keyCount then k.readCell code else .ok false

/-- Records in the cell of a code that its key is down or up. A code past the table has no cell to write to. -/
def setChecked (k : HeldKeys) (code : Nat) (held : Bool) : Checked HeldKeys :=
  if code < keyCount then k.writeCell code held else .ok k

theorem isOk_readCell_iff {k : HeldKeys} {code : Nat} : (k.readCell code).isOk = true ↔ code < keyCount := Checked.isOk_dite

theorem isOk_writeCell_iff {k : HeldKeys} {code : Nat} {held : Bool} : (k.writeCell code held).isOk = true ↔ code < keyCount :=
  Checked.isOk_dite

theorem isHeldChecked_eq (k : HeldKeys) (code : Nat) : k.isHeldChecked code = .ok (k.isHeld code) := by
  rw [isHeldChecked]
  by_cases h : code < keyCount
  · rw [if_pos h, readCell, dif_pos h, isHeld, Vector.getElem?_eq_getElem h, Option.getD_some]
  · rw [if_neg h, isHeld_of_le (Nat.le_of_not_lt h)]

theorem setChecked_eq (k : HeldKeys) (code : Nat) (held : Bool) : k.setChecked code held = .ok (k.set code held) := by
  rw [setChecked]
  by_cases h : code < keyCount
  · have hcells : k.cells.set code held h = k.cells.setIfInBounds code held :=
      Vector.ext fun i hi => by rw [Vector.getElem_set, Vector.getElem_setIfInBounds]
    rw [if_pos h, writeCell, dif_pos h, hcells]
    rfl
  · rw [if_neg h, set_of_le (Nat.le_of_not_lt h)]

end HeldKeys

/-! ## The keyboard -/

namespace Keyboard

/-- What an event does to a keyboard, and the report that tells of it, with every access checked. -/
def respondChecked (k : Keyboard) (e : KeyEvent) : Checked (Option Report × Keyboard) :=
  if e.isRepeat then .ok (none, k)
  else
    match e.scancode.kind with
    | .key usage => do
      let held ← k.held.setChecked usage.toNat e.isDown
      return (some (← Report.ofHeldChecked e.mods.modifierByte held), ⟨held⟩)
    | .modifier => return (some (← Report.ofHeldChecked e.mods.modifierByte k.held), k)
    | .unsupported => .ok (none, k)

theorem respondChecked_eq (k : Keyboard) (e : KeyEvent) : k.respondChecked e = .ok (k.respond e) := by
  rw [respondChecked, respond]
  split
  · rfl
  · cases e.scancode.kind with
    | key usage =>
      simp only [HeldKeys.setChecked_eq, Report.ofHeldChecked_eq]
      rfl
    | modifier =>
      simp only [Report.ofHeldChecked_eq]
      rfl
    | unsupported => rfl

/-! ## The keyboard on an accessory -/

section Run

variable {α β γ : Type}

/-- What comes after a part that met no fault goes on from what this part left. -/
theorem run_bind_of_ok {x : ExceptT Bytes.Fault (StateM α) β} {f : β → ExceptT Bytes.Fault (StateM α) γ} {b : β} {a a' : α}
    (h : x.run a = (.ok b, a')) : (x >>= f).run a = (f b).run a' := by
  rw [ExceptT.run_bind]
  show StateT.bind x.run _ a = _
  rw [StateT.bind, h]
  rfl

theorem run_lift_ok (b : β) (a : α) :
    (liftM (.ok b : Checked β) : ExceptT Bytes.Fault (StateM α) β).run a = (.ok b, a) := rfl

theorem run_lift (x : StateM α β) (a : α) :
    (liftM x : ExceptT Bytes.Fault (StateM α) β).run a = (.ok (x a).1, (x a).2) := rfl

end Run

variable {α : Type} [Accessory α]

/-- Sends a report, with every access checked. -/
def sendChecked (r : Report) : ExceptT Bytes.Fault (StateM α) Answer := do
  let bytes ← r.toBytesChecked
  match ← (Accessory.push accessoryId bytes.toList : StateM α Answer) with
  | .accepted => return .accepted
  | .refused _ => return .refused .push

/-- Takes in one notification of the event source, with every access checked. -/
def receiveChecked (k : Keyboard) : Input → ExceptT Bytes.Fault (StateM α) Keyboard
  | .key e => do
    match ← k.respondChecked e with
    | (none, k) => return k
    | (some r, k) =>
      let _ ← (sendChecked r : ExceptT Bytes.Fault (StateM α) Answer)
      return k
  | .text _ => return k

theorem run_sendChecked (r : Report) (a : α) :
    (sendChecked r).run a = (.ok ((send r : StateM α Answer) a).1, ((send r : StateM α Answer) a).2) := by
  rw [sendChecked, Report.toBytesChecked_eq, send_eq, run_bind_of_ok (run_lift_ok r.toBytes a), run_bind_of_ok (run_lift _ a)]
  cases (Accessory.push accessoryId r.toBytes.toList a).1 <;> rfl

theorem run_receiveChecked (k : Keyboard) (i : Input) (a : α) :
    (k.receiveChecked i).run a = (.ok (k.receive i a).1, (k.receive i a).2) := by
  cases i with
  | key e =>
    rw [receiveChecked, respondChecked_eq, receive_key, run_bind_of_ok (run_lift_ok _ a)]
    rcases k.respond e with ⟨_ | r, k⟩
    · rfl
    · exact run_bind_of_ok (run_sendChecked r a)
  | text s => rfl

/-- A run over notifications meets no fault either: each step meets none, and leaves the next one a keyboard. -/
theorem run_foldlM_receiveChecked (k : Keyboard) (is : List Input) (a : α) :
    (is.foldlM receiveChecked k : ExceptT Bytes.Fault (StateM α) Keyboard).run a =
      (.ok ((is.foldlM receive k : StateM α Keyboard) a).1, ((is.foldlM receive k : StateM α Keyboard) a).2) := by
  induction is generalizing k a with
  | nil => rfl
  | cons i is ih =>
    rw [List.foldlM_cons, List.foldlM_cons, run_bind_of_ok (run_receiveChecked k i a), ih]
    rfl

end Keyboard

/-! ## The main statement -/

/-- No access misses, whatever the table, the report, the bytes and the notifications are, in seven parts.
1. What it is to miss: a byte is read or written in a place of the row, a range cut out of the row, a range filled with bytes of its
   own length, a row taken for one of its own length, and a cell of the table reached by a code that has one. Any other of these
   accesses fails.
2. Every code can be recorded and asked for, whether it has a cell or not.
3. The report of any held keys can be made: it has the modifier byte, and the slots that they call for.
4. Any row of bytes can be read, and a report comes of it when it has eight bytes.
5. A report can be written to any buffer: eight bytes of it, or none if there are fewer.
6. A report can be given a row of its own: all its eight bytes are written to it, so they are all zero for the empty report only.
7. A keyboard can take in any notifications, on any accessory, and does what it does without checks. -/
theorem no_access_misses {α : Type} [Accessory α] :
    ((∀ (b : Bytes) (i : Nat), (b.read i).isOk = true ↔ i < b.length) ∧
      (∀ (b : Bytes) (i : Nat) (x : UInt8), (b.write i x).isOk = true ↔ i < b.length) ∧
      (∀ (b : Bytes) (start stop : Nat), (b.slice start stop).isOk = true ↔ start ≤ stop ∧ stop ≤ b.length) ∧
      (∀ (b : Bytes) (start stop : Nat) (src : Bytes),
        (b.fill start stop src).isOk = true ↔ start + src.length = stop ∧ stop ≤ b.length) ∧
      (∀ (n : Nat) (b : Bytes), (b.exactly n).isOk = true ↔ b.length = n) ∧
      ∀ (k : HeldKeys) (code : Nat) (held : Bool),
        ((k.readCell code).isOk = true ↔ code < 101) ∧ ((k.writeCell code held).isOk = true ↔ code < 101)) ∧
    (∀ (k : HeldKeys) (code : Nat) (held : Bool),
      k.setChecked code held = .ok (k.set code held) ∧ k.isHeldChecked code = .ok (k.isHeld code)) ∧
    (∀ (modifier : UInt8) (k : HeldKeys), ∃ r : Report, Report.ofHeldChecked modifier k = .ok r ∧
      r.modifier = modifier ∧ r.reserved = 0 ∧ r.slots.toList = Report.slotsOf k.keys) ∧
    (∀ b : Bytes, ∃ r? : Option Report, Report.ofBytesChecked b = .ok r? ∧ (r?.isSome = true ↔ 8 ≤ b.length)) ∧
    (∀ (r : Report) (buf : Bytes), r.writeToChecked buf =
      .ok (if buf.length < 8 then (0, buf) else (8, r.modifier :: r.reserved :: r.slots.toList ++ buf.drop 8))) ∧
    (∀ r : Report, ∃ v : Vector UInt8 Report.wireSize, r.toBytesChecked = .ok v ∧
      r.writeToChecked (Bytes.zeros 8) = .ok (8, v.toList) ∧ (v.toList = Bytes.zeros 8 ↔ r = .empty)) ∧
    ∀ (k : Keyboard) (is : List Input) (a : α),
      (is.foldlM Keyboard.receiveChecked k : ExceptT Bytes.Fault (StateM α) Keyboard).run a =
        (.ok ((is.foldlM Keyboard.receive k : StateM α Keyboard) a).1,
          ((is.foldlM Keyboard.receive k : StateM α Keyboard) a).2) := by
  refine ⟨⟨fun _ _ => Bytes.isOk_read_iff, fun _ _ _ => Bytes.isOk_write_iff, fun _ _ _ => Bytes.isOk_slice_iff,
    fun _ _ _ _ => Bytes.isOk_fill_iff, fun _ _ => Bytes.isOk_exactly_iff,
    fun _ _ _ => ⟨HeldKeys.isOk_readCell_iff, HeldKeys.isOk_writeCell_iff⟩⟩,
    fun k code held => ⟨k.setChecked_eq code held, k.isHeldChecked_eq code⟩, ?report, ?read, ?write, ?bytes,
    Keyboard.run_foldlM_receiveChecked⟩
  case report =>
    intro modifier k
    exact ⟨_, Report.ofHeldChecked_eq modifier k, Report.ofHeld_fields modifier k⟩
  case read =>
    intro b
    exact ⟨_, Report.ofBytesChecked_eq b, Report.isSome_ofBytes?_iff⟩
  case write =>
    intro r buf
    by_cases h : buf.length < 8
    · rw [if_pos h, Report.writeToChecked_of_lt h]
    · rw [if_neg h, Report.writeToChecked_of_le (Nat.le_of_not_lt h)]
      rfl
  case bytes =>
    intro r
    refine ⟨_, r.toBytesChecked_eq, ?_, ?_⟩
    · have hnone : (Bytes.zeros 8).drop 8 = [] := rfl
      rw [Report.writeToChecked_eq, Report.writeTo_of_le (Nat.le_of_eq (Bytes.length_zeros 8).symm), hnone, List.append_nil]
    · have hempty : Report.empty.toBytes.toList = Bytes.zeros 8 := Report.toList_toBytes .empty
      rw [← hempty, Vector.toList_inj, Report.toBytes_inj]

end BootKeyboard
