import BootKeyboard.Proofs.Keyboard.Use

/-!
# Notes of a run

A keyboard is used again and again on a watched accessory. After each use a note is taken: the reply, the keyboard, and what
passed between the host and the accessory meanwhile. The lemmas say what stands in the note in each place of a run
(`exists_note`): the keyboard is the one that follows from the uses alone, and the calls are the push of the report that was
handed over, if there was one. `useAll` is the same run on an accessory that nobody watches.
-/

namespace BootKeyboard

variable {α : Type} [Accessory α]

/-- A report of eight bytes was sent under the number of the keyboard. -/
def Exchange.IsPush (x : Exchange) : Prop :=
  ∃ payload : Bytes, payload.length = 8 ∧ x.call = .push Keyboard.accessoryId payload

/-- What is written down about one use of a keyboard. -/
structure Note where
  reply : Reply
  /-- The keyboard afterwards. -/
  keyboard : Keyboard
  /-- The calls made meanwhile, with their answers. -/
  exchanges : List Exchange

namespace Note

/-- The calls made meanwhile. -/
def calls (n : Note) : List Call := n.exchanges.map Exchange.call

end Note

namespace Keyboard

/-- Uses a keyboard and takes a note of it. -/
def note (k : Keyboard) (l : Logged α) (u : Use) : Note × Logged α :=
  match k.use u l with
  | ((reply, k), l') => (⟨reply, k, l'.exchanges.drop l.exchanges.length⟩, l')

/-- Uses a keyboard, first use to last, and takes notes. -/
def notes (k : Keyboard) (l : Logged α) : List Use → List Note × Logged α
  | [] => ([], l)
  | u :: us =>
    match k.note l u with
    | (n, l) =>
      match n.keyboard.notes l us with
      | (ns, l) => (n :: ns, l)

/-- Uses a keyboard, first use to last: the replies, and the keyboard at the end. -/
def useAll (k : Keyboard) : List Use → StateM α (List Reply × Keyboard)
  | [] => return ([], k)
  | u :: us => do
    let (reply, k) ← k.use u
    let (replies, k) ← k.useAll us
    return (reply :: replies, k)

/-! ## One note -/

/-- What passes between the host and an accessory when a keyboard is used. -/
def exchangesOf (k : Keyboard) (u : Use) (a : α) : List Exchange :=
  match u.sent? k with
  | none => []
  | some r =>
    [⟨.push accessoryId r.toBytes.toList, (Accessory.push accessoryId r.toBytes.toList a).1⟩]

/-- A use makes no call, or it pushes once. -/
theorem exchangesOf_eq (k : Keyboard) (u : Use) (a : α) :
    k.exchangesOf u a = [] ∨ ∃ x : Exchange, x.IsPush ∧ k.exchangesOf u a = [x] := by
  rw [exchangesOf]
  cases u.sent? k with
  | none => exact Or.inl rfl
  | some r => exact Or.inr ⟨_, ⟨r.toBytes.toList, r.length_toBytes, rfl⟩, rfl⟩

theorem exchanges_use (k : Keyboard) (u : Use) (l : Logged α) :
    (k.use u l).2.exchanges = l.exchanges ++ k.exchangesOf u l.target := by
  rw [use_eq, exchangesOf]
  cases u.sent? k with
  | none => exact (List.append_nil _).symm
  | some r => rfl

theorem keyboard_use (k : Keyboard) (u : Use) (a : α) : (k.use u a).1.2 = u.after k := by
  rw [use_eq]
  cases u.sent? k <;> rfl

/-- Whatever the accessory answers, the keyboard at the end of a run follows from the uses. -/
theorem keyboard_useAll (k : Keyboard) (us : List Use) (a : α) : (k.useAll us a).1.2 = k.afterAll us := by
  induction us generalizing k a with
  | nil => rfl
  | cons u us ih =>
    have hcons : (k.useAll (u :: us) a).1.2 = ((k.use u a).1.2.useAll us (k.use u a).2).1.2 := rfl
    rw [hcons, ih, keyboard_use]
    rfl

@[simp] theorem keyboard_note (k : Keyboard) (l : Logged α) (u : Use) : (k.note l u).1.keyboard = u.after k :=
  keyboard_use k u l

theorem exchanges_note (k : Keyboard) (l : Logged α) (u : Use) :
    (k.note l u).1.exchanges = k.exchangesOf u l.target := by
  show (k.use u l).2.exchanges.drop l.exchanges.length = _
  rw [exchanges_use, List.drop_left]

/-- The calls of a use are the push of the report that it hands over. -/
theorem calls_note (k : Keyboard) (l : Logged α) (u : Use) :
    (k.note l u).1.calls = (u.sent? k).toList.map fun r => .push accessoryId r.toBytes.toList := by
  rw [Note.calls, exchanges_note, exchangesOf]
  cases u.sent? k <;> rfl

theorem calls_note_cases (k : Keyboard) (l : Logged α) (u : Use) :
    (k.note l u).1.calls = [] ∨ ∃ payload, (k.note l u).1.calls = [.push 1 payload] := by
  rw [calls_note]
  cases u.sent? k with
  | none => exact Or.inl rfl
  | some r => exact Or.inr ⟨r.toBytes.toList, rfl⟩

/-! ## The notes of a run -/

theorem notes_cons (k : Keyboard) (l : Logged α) (u : Use) (us : List Use) :
    (k.notes l (u :: us)).1 = (k.note l u).1 :: ((u.after k).notes (k.note l u).2 us).1 := by
  rw [← keyboard_note k l u]
  rfl

@[simp] theorem length_notes (k : Keyboard) (l : Logged α) (us : List Use) : (k.notes l us).1.length = us.length := by
  induction us generalizing k l with
  | nil => rfl
  | cons u us ih => rw [notes_cons, List.length_cons, List.length_cons, ih]

/-- The note in a place of a run is that of the use in this place, on the keyboard that the earlier uses left and on some state
of the accessory. -/
theorem exists_note (k : Keyboard) (l : Logged α) (us : List Use) (i : Nat) (u : Use) (hu : us[i]? = some u) :
    ∃ l' : Logged α, (k.notes l us).1[i]? = some ((k.afterAll (us.take i)).note l' u).1 := by
  induction us generalizing k l i with
  | nil => simp at hu
  | cons v us ih =>
    rw [notes_cons]
    cases i with
    | zero =>
      obtain rfl : v = u := by simpa using hu
      exact ⟨l, rfl⟩
    | succ i =>
      rw [List.getElem?_cons_succ] at hu ⊢
      exact ih (v.after k) (k.note l v).2 i hu

end Keyboard

end BootKeyboard
