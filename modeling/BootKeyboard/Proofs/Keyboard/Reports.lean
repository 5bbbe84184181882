import BootKeyboard.Proofs.Keyboard.Moves
import BootKeyboard.Proofs.Report.Extremes
import BootKeyboard.Proofs.Report.RoundTrip

/-!
# What the reports of a run answer

A report that is given for an event, as a reply or as a push, is made of what is held after this event (`gives_note`), at every
place of every run (`exists_note_of_event`). So it answers for the keys that are held then and for nothing that was before. The
main statements say how good the answers are: `isRollOver_iff_crowded`, that a roll-over means more than six keys, and
`isEmpty_exact_unless_zero_alone`, that an empty report means no key, with one exception (`isEmpty_of_zero_pressed`).
-/

namespace BootKeyboard

/-- A report came back as the reply or was pushed. -/
def Note.Gives (n : Note) (r : Report) : Prop :=
  n.reply = .report r ∨ .push Keyboard.accessoryId r.toBytes.toList ∈ n.calls

namespace Use

/-- The one use that replies with a report is that which works it out and does not send it. -/
theorem reply_eq_report {k : Keyboard} {u : Use} {x : Answer} {r : Report} :
    u.reply k x = .report r ↔ ∃ e, u = .respond e ∧ (k.respond e).1 = some r := by
  cases u with
  | respond e =>
    cases h : (k.respond e).1 <;> simp [reply, h]
  | respondAndSend e =>
    cases h : (k.respond e).1 <;> cases x <;> simp [reply, h, Answer.ofPush, Reply.ofAnswer]
  | send r' => cases x <;> simp [reply, Answer.ofPush, Reply.ofAnswer]
  | input i => simp [reply]
  | accessoryId => simp [reply]
  | isHeld code => simp [reply]
  | count => simp [reply]

/-- The three uses that take in an event. -/
theorem event?_eq_some {u : Use} {e : KeyEvent} :
    u.event? = some e ↔ u = .input (.key e) ∨ u = .respond e ∨ u = .respondAndSend e := by
  cases u with
  | input i => cases i <;> simp [event?, Input.event?]
  | respond e' => simp [event?]
  | respondAndSend e' => simp [event?]
  | send r => simp [event?]
  | accessoryId => simp [event?]
  | isHeld code => simp [event?]
  | count => simp [event?]

theorem after_of_event {u : Use} {e : KeyEvent} (he : u.event? = some e) (k : Keyboard) : u.after k = (k.respond e).2 := by
  rcases event?_eq_some.mp he with rfl | rfl | rfl <;> rfl

end Use

namespace Keyboard

variable {α : Type} [Accessory α]

/-! ## The report that is given for an event -/

theorem exists_reply_note (k : Keyboard) (l : Logged α) (u : Use) : ∃ x : Answer, (k.note l u).1.reply = u.reply k x := by
  show ∃ x : Answer, (k.use u l).1.1 = u.reply k x
  rw [use_eq]
  cases u.sent? k with
  | none => exact ⟨_, rfl⟩
  | some r => exact ⟨_, rfl⟩

theorem push_mem_calls_note {k : Keyboard} {l : Logged α} {u : Use} {r : Report} :
    .push accessoryId r.toBytes.toList ∈ (k.note l u).1.calls ↔ u.sent? k = some r := by
  rw [calls_note, List.mem_map]
  constructor
  · rintro ⟨r', hr', hbytes⟩
    obtain rfl : r' = r := Report.toBytes_inj.mp (Vector.toList_inj.mp (Call.push.inj hbytes).2)
    simpa using hr'
  · intro hr
    exact ⟨r, by simp [hr], rfl⟩

/-- What is given for an event is the one report that the keyboard works out for it. -/
theorem gives_note {u : Use} {e : KeyEvent} (he : u.event? = some e) (k : Keyboard) (l : Logged α) (r : Report) :
    (k.note l u).1.Gives r ↔ (k.respond e).1 = some r := by
  obtain ⟨x, hx⟩ := k.exists_reply_note l u
  rw [Note.Gives, push_mem_calls_note, hx, Use.reply_eq_report]
  rcases Use.event?_eq_some.mp he with rfl | rfl | rfl <;> simp [Use.sent?]

/-- At every place of every run an event that is reported, and no other, is given a report. It is made of what is held after the
event, and what is held is told by the history. -/
theorem exists_note_of_event {a l : Logged α} {k : Keyboard}
    (hk : (register : StateM (Logged α) (Except HidError Keyboard)) a = (.ok k, l)) {us : List Use} {i : Nat} {u : Use}
    {e : KeyEvent} (hu : us[i]? = some u) (he : u.event? = some e) :
    ∃ n : Note, (k.notes l us).1[i]? = some n ∧
      n.keyboard.held.keys = KeyEvent.heldAfter ((us.take (i + 1)).filterMap Use.event?) ∧
      ((∃ r, n.Gives r) ↔ e.IsReported) ∧ ∀ r, n.Gives r → r = .ofHeld e.mods.modifierByte n.keyboard.held := by
  obtain rfl := eq_of_register hk
  obtain ⟨l', hn⟩ := exists_note ⟨∅⟩ l us i u hu
  refine ⟨_, hn, ?_, ?_⟩
  · rw [keyboard_note, ← afterAll_take_succ _ hu, keys_afterAll]
  · simp only [gives_note he, keyboard_note, Use.after_of_event he, fst_respond]
    by_cases h : e.IsReported
    · simp [h, eq_comm]
    · simp [h]

/-! ## How good the answers are -/

/-- A roll-over means that more than six keys are held, and nothing else, in three parts.
1. This is so of the report of every table, whichever keys it holds, and of every modifier byte.
2. It is still so when the report is read from its bytes on the wire, with any bytes behind them.
3. In every run on a registered keyboard every event that is reported, and no other, is given a report. The report is a roll-over
   just when more than six keys are held after the event, and which are held is told by their last moves alone, not by the
   reports before. -/
theorem isRollOver_iff_crowded (m : UInt8) (held : HeldKeys) (rest : Bytes) :
    ((Report.ofHeld m held).isRollOver = true ↔ 6 < held.count) ∧
    (∃ r, Report.ofBytes? ((Report.ofHeld m held).toBytes.toList ++ rest) = some r ∧
      (r.isRollOver = true ↔ 6 < held.count)) ∧
    ∀ (a l : Logged α) (k : Keyboard), (register : StateM (Logged α) (Except HidError Keyboard)) a = (.ok k, l) →
      ∀ (us : List Use) (i : Nat) (u : Use) (e : KeyEvent), us[i]? = some u → u.event? = some e →
        ∃ n : Note, (k.notes l us).1[i]? = some n ∧ ((∃ r, n.Gives r) ↔ e.IsReported) ∧
          n.keyboard.held.count = (KeyEvent.heldAfter ((us.take (i + 1)).filterMap Use.event?)).card ∧
          ∀ r, n.Gives r → (r.isRollOver = true ↔ 6 < n.keyboard.held.count) := by
  refine ⟨Report.isRollOver_ofHeld, ⟨_, Report.ofBytes?_toBytes_append _ rest, Report.isRollOver_ofHeld⟩, ?_⟩
  intro a l k hk us i u e hu he
  obtain ⟨n, hn, hkeys, hsome, hmade⟩ := exists_note_of_event hk hu he
  refine ⟨n, hn, hsome, ?_, ?_⟩
  · rw [← HeldKeys.card_keys, hkeys]
  · intro r hr
    rw [hmade r hr]
    exact Report.isRollOver_ofHeld

/-- An empty report means that no modifier and no key is down, with one exception, in three parts.
1. The report of a table is empty just when its modifier byte is zero and no key is held but perhaps the one with code zero.
2. So for every modifier byte and table but one the report is empty just when the modifier byte is zero and no key is held. The
   one is a modifier byte of zero with the key with code zero held alone.
3. The same is so, with the keys that are held afterwards, of every report that is given for an event in a run on a registered
   keyboard. -/
theorem isEmpty_exact_unless_zero_alone (m : UInt8) (held : HeldKeys) :
    ((Report.ofHeld m held).isEmpty = true ↔ m = 0 ∧ ∀ c, held.isHeld c = true → c = 0) ∧
    (((Report.ofHeld m held).isEmpty = true ↔ m = 0 ∧ held.count = 0) ↔
      ¬(m = 0 ∧ held = (∅ : HeldKeys).set 0 true)) ∧
    ∀ (a l : Logged α) (k : Keyboard), (register : StateM (Logged α) (Except HidError Keyboard)) a = (.ok k, l) →
      ∀ (us : List Use) (i : Nat) (u : Use) (e : KeyEvent), us[i]? = some u → u.event? = some e →
        ∃ n : Note, (k.notes l us).1[i]? = some n ∧ ((∃ r, n.Gives r) ↔ e.IsReported) ∧
          ∀ r, n.Gives r →
            ((r.isEmpty = true ↔ e.mods.modifierByte = 0 ∧ n.keyboard.held.count = 0) ↔
              ¬(e.mods.modifierByte = 0 ∧ n.keyboard.held = (∅ : HeldKeys).set 0 true)) := by
  refine ⟨Report.isEmpty_ofHeld, Report.isEmpty_ofHeld_exact_iff, ?_⟩
  intro a l k hk us i u e hu he
  obtain ⟨n, hn, -, hsome, hmade⟩ := exists_note_of_event hk hu he
  refine ⟨n, hn, hsome, ?_⟩
  intro r hr
  rw [hmade r hr]
  exact Report.isEmpty_ofHeld_exact_iff

/-- The exception: on a new keyboard the key with code zero is pressed, without a modifier. The report is empty and a key is
held. -/
theorem isEmpty_of_zero_pressed :
    ∃ (r : Report) (k : Keyboard), (⟨∅⟩ : Keyboard).respond (.down ⟨0⟩ ∅) = (some r, k) ∧ r.isEmpty = true ∧
      k.held.isHeld 0 = true ∧ k.held.count = 1 :=
  ⟨_, _, rfl, by decide, by decide, by decide⟩

end Keyboard

end BootKeyboard
