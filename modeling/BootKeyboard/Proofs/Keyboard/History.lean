import BootKeyboard.Proofs.Keyboard.Notes

/-!
# Reports and the history of the keys

What a keyboard reports, told by the notifications so far and by nothing else. The last press or release of a key decides
whether it is held (`heldAfter`), a repeat counts for neither, and the report that is due shows the modifiers of the event and
what is held after it (`dueCalls`). The main statement, `notes_input_eq_history`, is about a keyboard on an arbitrary accessory:
whatever the accessory answers, each notification makes exactly the calls that are due.
-/

namespace BootKeyboard

open Scancode (keyCount)

/-! ## The moves of a key -/

/-- The key event in a notification. -/
def Input.event? : Input → Option KeyEvent
  | key e => some e
  | text _ => none

/-- The key event that a use takes in. -/
def Use.event? : Use → Option KeyEvent
  | input i => i.event?
  | respond e | respondAndSend e => some e
  | _ => none

namespace KeyEvent

/-- A press or a release of the key with this code. A repeat is neither. -/
def isMove (c : Nat) (e : KeyEvent) : Bool := !e.isRepeat && e.scancode.code.toNat == c

/-- The last move of a key among some events. -/
def lastMove? (c : Nat) (es : List KeyEvent) : Option KeyEvent := (es.filter (isMove c)).getLast?

/-- The tracked keys whose last move was a press. -/
def heldAfter (es : List KeyEvent) : Finset Nat :=
  (Finset.range 101).filter fun c => (lastMove? c es).map action = some .down

theorem isMove_iff {c : Nat} {e : KeyEvent} : e.isMove c = true ↔ e.isRepeat = false ∧ e.scancode.code.toNat = c := by
  simp [isMove]

theorem lastMove?_cons (c : Nat) (e : KeyEvent) (es : List KeyEvent) :
    lastMove? c (e :: es) = (lastMove? c es).or (if e.isMove c then some e else none) := by
  rw [lastMove?, List.filter_cons]
  by_cases h : e.isMove c = true
  · rw [if_pos h, if_pos h, List.getLast?_cons, ← lastMove?]
    cases lastMove? c es <;> rfl
  · rw [if_neg h, if_neg h, Option.or_none, lastMove?]

theorem isDown_iff {e : KeyEvent} : e.isDown = true ↔ e.action = .down := by
  simp [isDown]

end KeyEvent

namespace Keyboard

/-- A report is made of what is held after the event it tells of. -/
theorem fst_respond (k : Keyboard) (e : KeyEvent) :
    (k.respond e).1 = if e.IsReported then some (.ofHeld e.mods.modifierByte (k.respond e).2.held) else none := by
  by_cases h : e.IsReported
  · rw [if_pos h, respond_of_isReported h]
  · rw [if_neg h, respond_of_not h]

/-- An event moves its own key, if that is tracked, and leaves every other as it was. -/
theorem isHeld_respond {c : Nat} (hc : c < keyCount) (k : Keyboard) (e : KeyEvent) :
    (k.respond e).2.held.isHeld c = if e.isMove c then e.isDown else k.held.isHeld c := by
  by_cases h : e.IsReported
  · rw [respond_of_isReported h, HeldKeys.isHeld_set]
    have hiff : c = e.scancode.code.toNat ∧ e.scancode.code.toNat < keyCount ↔ e.isMove c = true := by
      rw [KeyEvent.isMove_iff]
      constructor
      · rintro ⟨rfl, -⟩
        exact ⟨h.1, rfl⟩
      · rintro ⟨-, rfl⟩
        exact ⟨rfl, hc⟩
    exact if_congr hiff rfl rfl
  · have hmove : ¬e.isMove c = true := by
      intro hm
      obtain ⟨hrep, hcode⟩ := KeyEvent.isMove_iff.mp hm
      exact h ⟨hrep, Or.inl (hcode ▸ hc)⟩
    rw [respond_of_not h, if_neg hmove]

/-- A use moves keys only by the event that it takes in. -/
theorem isHeld_after {c : Nat} (hc : c < keyCount) (k : Keyboard) (u : Use) :
    (u.after k).held.isHeld c =
      match u.event? with
      | none => k.held.isHeld c
      | some e => if e.isMove c then e.isDown else k.held.isHeld c := by
  cases u with
  | input i =>
    cases i with
    | key e => exact isHeld_respond hc k e
    | text s => rfl
  | respond e => exact isHeld_respond hc k e
  | respondAndSend e => exact isHeld_respond hc k e
  | send r => rfl
  | accessoryId => rfl
  | isHeld code => rfl
  | count => rfl

/-- After any run the last move of a key tells whether it is held; a key that did not move is as it was. -/
theorem isHeld_afterAll {c : Nat} (hc : c < keyCount) (k : Keyboard) (us : List Use) :
    (k.afterAll us).held.isHeld c =
      ((KeyEvent.lastMove? c (us.filterMap Use.event?)).map KeyEvent.isDown).getD (k.held.isHeld c) := by
  induction us generalizing k with
  | nil => rfl
  | cons u us ih =>
    have hstep : (k.afterAll (u :: us)).held.isHeld c = ((u.after k).afterAll us).held.isHeld c := rfl
    rw [hstep, ih, isHeld_after hc]
    cases hu : u.event? with
    | none => rw [List.filterMap_cons_none hu]
    | some e =>
      rw [List.filterMap_cons_some hu, KeyEvent.lastMove?_cons]
      by_cases hm : e.isMove c = true
      · rw [if_pos hm]
        cases KeyEvent.lastMove? c (us.filterMap Use.event?) <;> simp [hm]
      · rw [if_neg hm, Option.or_none]
        simp [hm]

/-- What is held on a keyboard that began with nothing held is told by the history alone. -/
theorem keys_afterAll (us : List Use) :
    ((⟨∅⟩ : Keyboard).afterAll us).held.keys = KeyEvent.heldAfter (us.filterMap Use.event?) := by
  ext c
  rw [HeldKeys.mem_keys, KeyEvent.heldAfter, Finset.mem_filter, Finset.mem_range]
  by_cases hc : c < keyCount
  · have hc' : c < 101 := hc
    rw [isHeld_afterAll hc]
    cases KeyEvent.lastMove? c (us.filterMap Use.event?) with
    | none => simp
    | some e => simp [KeyEvent.isDown_iff, hc']
  · have hfalse := HeldKeys.isHeld_of_le (Nat.le_of_not_lt hc) ((⟨∅⟩ : Keyboard).afterAll us).held
    rw [hfalse]
    exact ⟨fun h => absurd h Bool.false_ne_true, fun h => absurd h.1 hc⟩

end Keyboard

/-! ## The calls that are due -/

/-- The calls that are due when a history ends with this notification: for an event that is reported one push, of the modifiers
of the event, the reserved byte and the slots for what is held now; else none. -/
def dueCalls (history : List Input) : Input → List Call
  | .key e =>
    if e.IsReported then
      [.push 1 (e.mods.modifierByte :: 0 :: Report.slotsOf (KeyEvent.heldAfter (history.filterMap Input.event?)))]
    else []
  | .text _ => []

namespace Keyboard

theorem afterAll_take_succ (k : Keyboard) {us : List Use} {i : Nat} {u : Use} (hu : us[i]? = some u) :
    k.afterAll (us.take (i + 1)) = u.after (k.afterAll (us.take i)) := by
  rw [List.take_add_one, hu, afterAll, List.foldl_append]
  rfl

theorem filterMap_event?_input (xs : List Input) :
    (xs.map Use.input).filterMap Use.event? = xs.filterMap Input.event? := by
  rw [List.filterMap_map]
  rfl

/-- The report that is pushed for an event shows what is held after it. -/
theorem calls_note_key {α : Type} [Accessory α] (k : Keyboard) (l : Logged α) (e : KeyEvent) :
    (k.note l (.input (.key e))).1.calls =
      if e.IsReported then [.push 1 (e.mods.modifierByte :: 0 :: Report.slotsOf (k.respond e).2.held.keys)] else [] := by
  rw [calls_note]
  show ((k.respond e).1.toList.map fun r => Call.push accessoryId r.toBytes.toList) = _
  rw [fst_respond]
  by_cases h : e.IsReported
  · rw [if_pos h, if_pos h]
    show [Call.push accessoryId _] = _
    rw [Report.toBytes_ofHeld]
    rfl
  · rw [if_neg h, if_neg h]
    rfl

/-- A notification makes the calls that are due, if the keyboard afterwards holds what the history says. -/
theorem calls_note_input {α : Type} [Accessory α] {k : Keyboard} {x : Input} {history : List Input}
    (hk : ((Use.input x).after k).held.keys = KeyEvent.heldAfter (history.filterMap Input.event?)) (l : Logged α) :
    (k.note l (.input x)).1.calls = dueCalls history x := by
  cases x with
  | text s => rw [calls_note]; rfl
  | key e =>
    rw [calls_note_key, dueCalls, ← hk]
    rfl

/-- Every call of a run of notifications is told by their history, on every accessory that accepts the keyboard. Whatever the
accessory answers, a text, a repeat and an event that cannot be reported make no call, every other event makes one push of what
is held after it, and what is held is what the history says. So a report that was lost is made good by the next. -/
theorem notes_input_eq_history {α : Type} [Accessory α] (l₀ : Logged α)
    (hsetup : (Accessory.setup 1 Descriptor.keyboard l₀.target).1 = .accepted) :
    ∃ (k : Keyboard) (l : Logged α), (register : StateM (Logged α) (Except HidError Keyboard)) l₀ = (.ok k, l) ∧
      ∀ (xs : List Input) (i : Nat) (x : Input), xs[i]? = some x →
        ∃ n : Note, (k.notes l (xs.map .input)).1[i]? = some n ∧ n.calls = dueCalls (xs.take (i + 1)) x ∧
          ∀ c, n.keyboard.held.isHeld c = true ↔ c ∈ KeyEvent.heldAfter ((xs.take (i + 1)).filterMap Input.event?) := by
  have hanswer : (Accessory.setup accessoryId Descriptor.keyboard l₀).1 = .accepted := hsetup
  refine ⟨⟨∅⟩, (Accessory.setup accessoryId Descriptor.keyboard l₀).2, ?_, ?_⟩
  · rw [register_eq, hanswer]
  intro xs i x hx
  have hu : (xs.map Use.input)[i]? = some (.input x) := by rw [List.getElem?_map, hx]; rfl
  obtain ⟨l', hn⟩ := exists_note ⟨∅⟩ (Accessory.setup accessoryId Descriptor.keyboard l₀).2 (xs.map Use.input) i _ hu
  -- the keyboard after the use in this place is the one after the run up to it, and that holds what the history says
  have hkeys : ((Use.input x).after ((⟨∅⟩ : Keyboard).afterAll ((xs.map Use.input).take i))).held.keys =
      KeyEvent.heldAfter ((xs.take (i + 1)).filterMap Input.event?) := by
    rw [← afterAll_take_succ _ hu, keys_afterAll, ← List.map_take, filterMap_event?_input]
  refine ⟨_, hn, calls_note_input hkeys l', ?_⟩
  intro c
  rw [keyboard_note, ← hkeys, HeldKeys.mem_keys]

/-- The report of the first press is lost, for the accessory refuses every push; the report of the second lists both keys. -/
theorem notes_input_second_lists_lost :
    (Accessory.setup 1 Descriptor.keyboard ({ push := .refused .transfer } : Script)).1 = .accepted ∧
      ∃ (k : Keyboard) (l : Recorder),
        (register : StateM Recorder (Except HidError Keyboard)) ⟨{ push := .refused .transfer }, []⟩ = (.ok k, l) ∧
        ∃ n : Note, (k.notes l ([.key (.down ⟨5⟩ ∅), .key (.down ⟨4⟩ Mods.Flag.leftShift.mods)].map .input)).1[1]? = some n ∧
          n.calls = [.push 1 [2, 0, 4, 5, 0, 0, 0, 0]] ∧ n.keyboard.held.isHeld 5 = true := by
  obtain ⟨k, l, hreg, h⟩ := notes_input_eq_history (⟨{ push := .refused .transfer }, []⟩ : Recorder) rfl
  obtain ⟨n, hn, hcalls, hheld⟩ := h [.key (.down ⟨5⟩ ∅), .key (.down ⟨4⟩ Mods.Flag.leftShift.mods)] 1 _ rfl
  have hkeys : KeyEvent.heldAfter [.down ⟨5⟩ ∅, .down ⟨4⟩ Mods.Flag.leftShift.mods] = [4, 5].toFinset := by decide
  have hsort : [4, 5].toFinset.sort = [4, 5] := (List.toFinset_sort (· ≤ ·) (by decide)).mpr (by decide)
  have hslots : Report.slotsOf [4, 5].toFinset = [4, 5, 0, 0, 0, 0] := by
    rw [Report.slotsOf, hsort]
    rfl
  have hdue : dueCalls [.key (.down ⟨5⟩ ∅), .key (.down ⟨4⟩ Mods.Flag.leftShift.mods)]
      (.key (.down ⟨4⟩ Mods.Flag.leftShift.mods)) = [.push 1 [2, 0, 4, 5, 0, 0, 0, 0]] := by
    show [Call.push 1 (_ :: 0 :: Report.slotsOf (KeyEvent.heldAfter [.down ⟨5⟩ ∅, .down ⟨4⟩ Mods.Flag.leftShift.mods]))] = _
    rw [hkeys, hslots]
    rfl
  exact ⟨rfl, k, l, hreg, n, hn, hcalls.trans hdue, (hheld 5).mpr (by decide)⟩

end Keyboard

end BootKeyboard
