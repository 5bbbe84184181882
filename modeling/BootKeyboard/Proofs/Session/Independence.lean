import BootKeyboard.Proofs.Session.Slots

/-!
# Keyboards do not interfere

Keyboards in different slots share the accessory, and its log shows the calls of all of them. What is entered for a step does not
depend on that: it follows from the keyboard in its slot and from what the accessory is below its log (`enter_eq`). An accessory
that answers by a script is the same below its log after any step. So two sessions that agree on one slot and on the script
(`Agree`) make the same entries for that slot, and a slot cannot tell whether the steps on other slots were taken or left out.
The main statement is `slots_independent`.
-/

namespace BootKeyboard

/-! ## What is entered for a step -/

section Logged

variable {α : Type} [Accessory α]

/-- A step does not look at the log, it only adds to it. -/
theorem Keyboard.leave_logged (k? : Option Keyboard) (l : Logged α) :
    Keyboard.leave k? l =
      ⟨(Keyboard.leave k? (⟨l.target, []⟩ : Logged α)).target,
        l.exchanges ++ (Keyboard.leave k? (⟨l.target, []⟩ : Logged α)).exchanges⟩ := by
  cases k? with
  | none => exact congrArg (Logged.mk l.target) (List.append_nil l.exchanges).symm
  | some k => rfl

theorem Step.act_logged (st : Step) (k? : Option Keyboard) (l : Logged α) :
    st.act k? l =
      ((st.act k? (⟨l.target, []⟩ : Logged α)).1,
        ⟨(st.act k? (⟨l.target, []⟩ : Logged α)).2.target,
          l.exchanges ++ (st.act k? (⟨l.target, []⟩ : Logged α)).2.exchanges⟩) := by
  cases st with
  | register =>
    unfold Step.act
    rw [Keyboard.leave_logged k? l]
    generalize Keyboard.leave k? (⟨l.target, []⟩ : Logged α) = m
    have hanswer : (Accessory.setup Keyboard.accessoryId Descriptor.keyboard
        (⟨m.target, l.exchanges ++ m.exchanges⟩ : Logged α)).1 =
          (Accessory.setup Keyboard.accessoryId Descriptor.keyboard m).1 := rfl
    simp only [hanswer]
    cases (Accessory.setup Keyboard.accessoryId Descriptor.keyboard m).1 with
    | accepted => exact congrArg (fun xs => (_, Logged.mk _ xs)) (List.append_assoc _ _ _)
    | refused e => exact congrArg (fun xs => (_, Logged.mk _ xs)) (List.append_assoc _ _ _)
  | vacate => exact congrArg (Prod.mk _) (Keyboard.leave_logged k? l)
  | use u =>
    cases k? with
    | none => exact congrArg (fun xs => (_, Logged.mk l.target xs)) (List.append_nil l.exchanges).symm
    | some k =>
      rw [act_use_some, act_use_some, Keyboard.use_eq, Keyboard.use_eq]
      cases u.sent? k with
      | none => exact congrArg (fun xs => (_, Logged.mk l.target xs)) (List.append_nil l.exchanges).symm
      | some r => rfl

/-- The entry of a step, told by the keyboard in its slot and what the accessory is below its log. -/
def Step.entry (st : Step) (k? : Option Keyboard) (a : α) : Entry :=
  let r := st.act k? (⟨a, []⟩ : Logged α)
  ⟨r.1.1, r.1.2.map (·.held.codes), r.2.exchanges⟩

theorem Session.enter_eq (s : Session (Logged α)) (slot : Nat) (st : Step) :
    (s.enter slot st).1 = st.entry s.keyboards[slot]? s.accessory.target := by
  obtain ⟨hreply, haccessory, hkeyboards⟩ := s.step_spec slot st
  have hheld : (s.step slot st).2.held slot = (st.act s.keyboards[slot]? s.accessory).1.2.map (·.held.codes) := by
    rw [held, hkeyboards slot, if_pos rfl]
  have hsince : (s.step slot st).2.exchangesSince s =
      (st.act s.keyboards[slot]? (⟨s.accessory.target, []⟩ : Logged α)).2.exchanges :=
    exchangesSince_of_append (by rw [haccessory, Step.act_logged])
  have hentry : (s.enter slot st).1 =
      ⟨(s.step slot st).1, (s.step slot st).2.held slot, (s.step slot st).2.exchangesSince s⟩ := rfl
  rw [hentry, hreply, hheld, hsince, Step.act_logged]
  rfl

end Logged

/-- No call changes a script. -/
theorem Step.target_act (st : Step) (k? : Option Keyboard) (l : Recorder) : (st.act k? l).2.target = l.target := by
  have hleave : (Keyboard.leave k? l).target = l.target := by cases k? <;> rfl
  cases st with
  | register =>
    unfold Step.act
    cases (Accessory.setup Keyboard.accessoryId Descriptor.keyboard (Keyboard.leave k? l)).1 with
    | accepted => exact hleave
    | refused e => exact hleave
  | vacate => exact hleave
  | use u =>
    cases k? with
    | none => rfl
    | some k =>
      rw [act_use_some, Keyboard.use_eq]
      cases u.sent? k <;> rfl

/-! ## Sessions that agree on a slot -/

namespace Session

/-- Two sessions have the same script and the same keyboard in a slot. Their other slots and their logs may differ. -/
structure Agree (k : Nat) (s t : Session Recorder) : Prop where
  script : s.accessory.target = t.accessory.target
  keyboard : s.keyboards[k]? = t.keyboards[k]?

theorem target_step (s : Session Recorder) (slot : Nat) (st : Step) :
    (s.step slot st).2.accessory.target = s.accessory.target := by
  rw [(s.step_spec slot st).2.1, Step.target_act]

namespace Agree

variable {k : Nat} {s t : Session Recorder}

/-- A step on another slot goes unnoticed. -/
theorem step_of_ne (h : Agree k s t) {slot : Nat} (hne : k ≠ slot) (st : Step) : Agree k (s.step slot st).2 t where
  script := (target_step s slot st).trans h.script
  keyboard := by
    rw [(s.step_spec slot st).2.2 k, if_neg hne]
    exact h.keyboard

/-- A step on the slot leaves both with the same keyboard. -/
theorem step (h : Agree k s t) (st : Step) : Agree k (s.step k st).2 (t.step k st).2 where
  script := by rw [target_step, target_step, h.script]
  keyboard := by
    rw [(s.step_spec k st).2.2 k, (t.step_spec k st).2.2 k, if_pos rfl, if_pos rfl, h.keyboard, Step.act_logged,
      Step.act_logged st _ t.accessory, h.script]

theorem enter (h : Agree k s t) (st : Step) : (s.enter k st).1 = (t.enter k st).1 := by
  rw [enter_eq, enter_eq, h.keyboard, h.script]

end Agree

end Session

/-- A command concerns a slot when it is a step there or chooses an answer. -/
def Command.concerns (k : Nat) : Command → Bool
  | script _ _ => true
  | step slot _ => k == slot

namespace Session

/-- What is entered for the commands that concern a slot. -/
def view (s : Session Recorder) (k : Nat) (cs : List Command) : List (Option Entry) :=
  ((cs.zip (s.run cs).1).filter fun p => p.1.concerns k).map Prod.snd

/-- Every command has its place in the record. -/
theorem length_run (s : Session Recorder) (cs : List Command) : (s.run cs).1.length = cs.length := by
  induction cs generalizing s with
  | nil => rfl
  | cons c cs ih =>
    have hrun : (s.run (c :: cs)).1 = (s.command c).1 :: ((s.command c).2.run cs).1 := rfl
    rw [hrun, List.length_cons, List.length_cons, ih]

theorem view_cons (s : Session Recorder) (k : Nat) (c : Command) (cs : List Command) :
    s.view k (c :: cs) =
      if c.concerns k then (s.command c).1 :: (s.command c).2.view k cs else (s.command c).2.view k cs := by
  have hzip : (c :: cs).zip (s.run (c :: cs)).1 = (c, (s.command c).1) :: cs.zip ((s.command c).2.run cs).1 := rfl
  unfold view
  rw [hzip, List.filter_cons]
  cases c.concerns k <;> rfl

namespace Agree

variable {k : Nat} {s t : Session Recorder}

theorem command_of_not (h : Agree k s t) {c : Command} (hc : c.concerns k = false) : Agree k (s.command c).2 t := by
  cases c with
  | script m x => cases hc
  | step slot st => exact h.step_of_ne (by simpa [Command.concerns] using hc) st

theorem command (h : Agree k s t) {c : Command} (hc : c.concerns k = true) :
    (s.command c).1 = (t.command c).1 ∧ Agree k (s.command c).2 (t.command c).2 := by
  cases c with
  | script m x => exact ⟨rfl, congrArg (Script.choose m x) h.script, h.keyboard⟩
  | step slot st =>
    obtain rfl : k = slot := by simpa [Command.concerns] using hc
    exact ⟨congrArg some (h.enter st), h.step st⟩

/-- A session with all commands and one with those that concern a slot go on agreeing on it, entry by entry. -/
theorem run_filter (h : Agree k s t) (cs : List Command) :
    s.view k cs = (t.run (cs.filter (·.concerns k))).1 ∧ Agree k (s.run cs).2 (t.run (cs.filter (·.concerns k))).2 := by
  -- the two sessions part at the first command that is left out; what is kept is that they agree
  induction cs generalizing s t with
  | nil => exact ⟨rfl, h⟩
  | cons c cs ih =>
    have hrun : (s.run (c :: cs)).2 = ((s.command c).2.run cs).2 := rfl
    rw [view_cons, hrun, List.filter_cons]
    cases hc : c.concerns k with
    | false =>
      rw [if_neg Bool.false_ne_true, if_neg Bool.false_ne_true]
      exact ih (h.command_of_not hc)
    | true =>
      obtain ⟨hentry, hagree⟩ := h.command hc
      obtain ⟨hrest, hend⟩ := ih hagree
      rw [if_pos rfl, if_pos rfl, hentry, hrest]
      exact ⟨rfl, hend⟩

end Agree

/-- No slot can tell what is done on the others, in three parts.
1. Every command has its place in the record.
2. The commands that concern a slot are entered as they would be if the steps on all other slots were left out: with the same
   replies, the same keys held and the same calls. The keyboard in the slot is the same at the end.
3. So if the same steps on every slot, between the same choices of answers, are taken in another order, every slot has the same
   entries and the same keyboard at the end. -/
theorem slots_independent (s : Session Recorder) (cs : List Command) :
    (s.run cs).1.length = cs.length ∧
    (∀ k : Nat, s.view k cs = (s.run (cs.filter (·.concerns k))).1 ∧
      (s.run cs).2.keyboards[k]? = (s.run (cs.filter (·.concerns k))).2.keyboards[k]?) ∧
    ∀ cs' : List Command, (∀ k, cs'.filter (·.concerns k) = cs.filter (·.concerns k)) →
      ∀ k : Nat, s.view k cs' = s.view k cs ∧ (s.run cs').2.keyboards[k]? = (s.run cs).2.keyboards[k]? := by
  have hfilter : ∀ k ds, s.view k ds = (s.run (ds.filter (·.concerns k))).1 ∧
      Agree k (s.run ds).2 (s.run (ds.filter (·.concerns k))).2 := by
    intro k ds
    exact Agree.run_filter ⟨rfl, rfl⟩ ds
  refine ⟨length_run s cs, ?_, ?_⟩
  · intro k
    obtain ⟨hview, hagree⟩ := hfilter k cs
    exact ⟨hview, hagree.keyboard⟩
  · intro cs' hsame k
    obtain ⟨hview, hagree⟩ := hfilter k cs
    obtain ⟨hview', hagree'⟩ := hfilter k cs'
    rw [hsame k] at hview' hagree'
    exact ⟨hview'.trans hview.symm, hagree'.keyboard.trans hagree.keyboard.symm⟩

/-- Two keyboards are registered, an answer is chosen, then one is used and the other is taken away, in two orders. -/
theorem slots_independent_two_orders :
    let e : KeyEvent := .down ⟨4⟩ ∅
    let cs : List Command := [.step 0 .register, .step 1 .register, .script .push (.refused .transfer),
      .step 0 (.use (.respondAndSend e)), .step 1 .vacate]
    let cs' : List Command := [.step 1 .register, .step 0 .register, .script .push (.refused .transfer),
      .step 1 .vacate, .step 0 (.use (.respondAndSend e))]
    (∀ k, cs'.filter (·.concerns k) = cs.filter (·.concerns k)) ∧
      ∀ k : Nat, (fresh Recorder).view k cs' = (fresh Recorder).view k cs ∧
        ((fresh Recorder).run cs').2.keyboards[k]? = ((fresh Recorder).run cs).2.keyboards[k]? := by
  intro e cs cs'
  have hsame : ∀ k, cs'.filter (·.concerns k) = cs.filter (·.concerns k) := by
    intro k
    rcases k with _ | _ | k
    · rfl
    · rfl
    · rfl
  obtain ⟨-, -, horder⟩ := slots_independent (fresh Recorder) cs
  exact ⟨hsame, horder cs' hsame⟩

end Session

end BootKeyboard
