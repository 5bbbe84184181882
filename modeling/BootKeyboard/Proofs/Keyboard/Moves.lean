import BootKeyboard.Proofs.Keyboard.History

/-!
# Only the moves of each key count

How a keyboard is used has many parts that leave no trace on it: repeats, keys that are not tracked, texts, reports of the
caller's, and every answer of the accessory. Nor does it matter in which order different keys moved. What is left are the
presses and releases of each tracked key, in their order (`Use.moves`): two runs in which these are the same end with the same
keyboard (`afterAll_eq_of_moves`), and nothing that comes after can tell the runs apart (`same_moves_same_reports`).
-/

namespace BootKeyboard

open Scancode (keyCount)

/-- The presses and releases of the key with this code in a run, first to last. Repeats are left out. -/
def Use.moves (c : Nat) (us : List Use) : List Action :=
  ((us.filterMap Use.event?).filter (KeyEvent.isMove c)).map KeyEvent.action

namespace Keyboard

/-- The last move of a key is all that is left of its moves. -/
theorem isHeld_afterAll_of_moves {c : Nat} (hc : c < keyCount) (k : Keyboard) (us : List Use) :
    (k.afterAll us).held.isHeld c = (((Use.moves c us).getLast?).map (· == .down)).getD (k.held.isHeld c) := by
  rw [isHeld_afterAll hc, Use.moves, List.getLast?_map, Option.map_map]
  rfl

theorem afterAll_eq_of_moves {us vs : List Use} (h : ∀ c < 101, Use.moves c us = Use.moves c vs) (k : Keyboard) :
    k.afterAll us = k.afterAll vs := by
  have hheld : (k.afterAll us).held = (k.afterAll vs).held := by
    refine HeldKeys.ext_isHeld fun c hc => ?_
    rw [isHeld_afterAll_of_moves hc, isHeld_afterAll_of_moves hc, h c hc]
  exact congrArg Keyboard.mk hheld

/-- A keyboard comes newly registered with nothing held. -/
theorem eq_of_register {α : Type} [Accessory α] {a b : α} {k : Keyboard}
    (h : (register : StateM α (Except HidError Keyboard)) a = (.ok k, b)) : k = ⟨∅⟩ := by
  rw [register_eq] at h
  split at h
  · exact (Except.ok.inj (congrArg Prod.fst h)).symm
  · nomatch congrArg Prod.fst h

/-- Two keyboards are newly registered, each on an accessory of its own, and used in two ways. If every tracked key is pressed and
released in the same order in both, then they hold the same keys at the end, whatever else was done and whatever the accessories
answered. Every next event gets the same report from both and leaves both the same, and when it is taken in, both make the same
push, or neither makes a call. -/
theorem same_moves_same_reports {α β : Type} [Accessory α] [Accessory β] {a l : Logged α} {b m : Logged β} {k k' : Keyboard}
    (hk : (register : StateM (Logged α) (Except HidError Keyboard)) a = (.ok k, l))
    (hk' : (register : StateM (Logged β) (Except HidError Keyboard)) b = (.ok k', m))
    {us vs : List Use} (hmoves : ∀ c < 101, Use.moves c us = Use.moves c vs) :
    ∃ (xs ys : List Reply) (n n' : Keyboard) (l' : Logged α) (m' : Logged β),
      k.useAll us l = ((xs, n), l') ∧ k'.useAll vs m = ((ys, n'), m') ∧ n.held = n'.held ∧
      ∀ e : KeyEvent, n.respond e = n'.respond e ∧
        (n.note l' (.input (.key e))).1.calls = (n'.note m' (.input (.key e))).1.calls ∧
        ((n.note l' (.input (.key e))).1.calls = [] ∨
          ∃ payload, (n.note l' (.input (.key e))).1.calls = [.push 1 payload]) := by
  obtain rfl := eq_of_register hk
  obtain rfl := eq_of_register hk'
  have hend : ((⟨∅⟩ : Keyboard).useAll us l).1.2 = ((⟨∅⟩ : Keyboard).useAll vs m).1.2 := by
    rw [keyboard_useAll, keyboard_useAll, afterAll_eq_of_moves hmoves]
  refine ⟨_, _, _, _, _, _, rfl, rfl, congrArg held hend, fun e => ⟨?_, ?_, calls_note_cases _ _ _⟩⟩
  · rw [hend]
  · rw [calls_note, calls_note, hend]

/-- One accessory takes every report and the other none. On the first an a is pressed and released and then a b is pressed, as the
reports of events. On the second the b comes first, and there are a repeat, a text, a modifier key, a key past the table and a
report of the caller's besides. The press of a c then pushes b and c on both. -/
theorem same_moves_same_reports_two_orders :
    let a : Recorder := ⟨{}, []⟩
    let b : Recorder := ⟨{ push := .refused .transfer }, []⟩
    let us : List Use := [.input (.key (.down ⟨4⟩ ∅)), .input (.key (.up ⟨4⟩ ∅)), .input (.key (.down ⟨5⟩ ∅))]
    let vs : List Use := [.respond (.down ⟨5⟩ ∅), .send .empty, .respondAndSend (.down ⟨4⟩ ∅), .input (.text "a"),
      .input (.key (KeyEvent.down ⟨5⟩ ∅).repeated), .input (.key (.down ⟨224⟩ ∅)), .input (.key (.up ⟨260⟩ ∅)),
      .input (.key (.up ⟨4⟩ ∅))]
    let e : KeyEvent := .down ⟨6⟩ ∅
    ∃ (k k' : Keyboard) (l m : Recorder),
      (register : StateM Recorder (Except HidError Keyboard)) a = (.ok k, l) ∧
      (register : StateM Recorder (Except HidError Keyboard)) b = (.ok k', m) ∧
      (∀ c < 101, Use.moves c us = Use.moves c vs) ∧
      ∃ (xs ys : List Reply) (n n' : Keyboard) (l' m' : Recorder),
        k.useAll us l = ((xs, n), l') ∧ k'.useAll vs m = ((ys, n'), m') ∧ n.held = n'.held ∧
        (n.note l' (.input (.key e))).1.calls = [.push 1 [0, 0, 5, 6, 0, 0, 0, 0]] ∧
        (n'.note m' (.input (.key e))).1.calls = [.push 1 [0, 0, 5, 6, 0, 0, 0, 0]] := by
  intro a b us vs e
  have hmoves : ∀ c < 101, Use.moves c us = Use.moves c vs := by decide +kernel
  obtain ⟨xs, ys, n, n', l', m', hus, hvs, hheld, hnext⟩ := same_moves_same_reports (a := a) (b := b) rfl rfl hmoves
  obtain ⟨-, hsame, -⟩ := hnext e
  have hn : n = (⟨∅⟩ : Keyboard).afterAll us := (congrArg (·.1.2) hus).symm.trans (keyboard_useAll _ _ _)
  have hcalls : (n.note l' (.input (.key e))).1.calls = [.push 1 [0, 0, 5, 6, 0, 0, 0, 0]] := by
    rw [calls_note, hn]
    decide +kernel
  exact ⟨_, _, _, _, rfl, rfl, hmoves, xs, ys, n, n', l', m', hus, hvs, hheld, hcalls, hsame.symm.trans hcalls⟩

end Keyboard

end BootKeyboard
