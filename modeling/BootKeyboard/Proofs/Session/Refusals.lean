import BootKeyboard.Proofs.Session.Slots

/-!
# What a refusal does

An accessory may refuse any call with any error. The caller of a session sees the error of what he asked for and never that of the
transport (`Step.ownError`), and no refusal touches what is held: the keyboard that a use leaves behind follows from the use alone.
So it makes no difference whether the report for an event is sent as it is worked out or in a step of its own whose reply is not
looked at (`Move.apart`). Two sessions that differ in this only stay alike (`Alike`), in what the accessory is and heard and in
every slot. The main statement is `refusals_translated`.
-/

namespace BootKeyboard

variable {α : Type}

/-! ## The entry in each place of a record -/

namespace Session

variable [Accessory α]

theorem record_cons (s : Session (Logged α)) (slot : Nat) (st : Step) (steps : List (Nat × Step)) :
    s.record ((slot, st) :: steps) =
      ((s.enter slot st).1 :: ((s.step slot st).2.record steps).1, ((s.step slot st).2.record steps).2) := rfl

/-- The entry in a place of a record is that of the step in this place, on the session that the earlier steps left. -/
theorem getElem?_record (s : Session (Logged α)) {steps : List (Nat × Step)} {i slot : Nat} {st : Step}
    (h : steps[i]? = some (slot, st)) :
    (s.record steps).1[i]? = some ((s.record (steps.take i)).2.enter slot st).1 := by
  induction steps generalizing s i with
  | nil => simp at h
  | cons p steps ih =>
    rw [record_cons]
    cases i with
    | zero =>
      obtain rfl : p = (slot, st) := by simpa using h
      rfl
    | succ i =>
      rw [List.getElem?_cons_succ] at h ⊢
      exact ih (s.step p.1 p.2).2 h

theorem record_take_succ (s : Session (Logged α)) {steps : List (Nat × Step)} {i slot : Nat} {st : Step}
    (h : steps[i]? = some (slot, st)) :
    (s.record (steps.take (i + 1))).2 = ((s.record (steps.take i)).2.step slot st).2 := by
  induction steps generalizing s i with
  | nil => simp at h
  | cons p steps ih =>
    cases i with
    | zero =>
      obtain rfl : p = (slot, st) := by simpa using h
      rfl
    | succ i =>
      rw [List.getElem?_cons_succ] at h
      exact ih (s.step p.1 p.2).2 h

theorem fst_enter (s : Session (Logged α)) (slot : Nat) (st : Step) :
    (s.enter slot st).1 = ⟨(s.step slot st).1, (s.step slot st).2.held slot, (s.step slot st).2.exchangesSince s⟩ := rfl

end Session

/-! ## Errors -/

/-- The error by which a step fails, whatever the accessory says. -/
def Step.ownError : Step → HidError
  | register => .registration
  | _ => .push

/-- The reply passes an answer on: it fails when the answer is a refusal, with this error whatever the refusal said, and is done
when the call was accepted. -/
def Reply.Passes (reply : Reply) (x : Answer) (e : HidError) : Prop :=
  (reply = .failed e ↔ ∃ e', x = .refused e') ∧ (reply = .done ↔ x = .accepted)

theorem Reply.passes_ofPush (x : Answer) : (Reply.ofAnswer x.ofPush).Passes x .push := by
  cases x <;> simp [Passes, Answer.ofPush, ofAnswer]

/-- The one error of a use is that a report could not be sent. -/
theorem Use.eq_push_of_reply {k : Keyboard} {x : Answer} {u : Use} {e : HidError} (h : u.reply k x = .failed e) : e = .push := by
  cases u with
  | respondAndSend ev => cases hr : (k.respond ev).1 <;> cases x <;> simp_all [reply, Answer.ofPush, Reply.ofAnswer]
  | respond ev => cases hr : (k.respond ev).1 <;> simp [reply, hr] at h
  | send r => cases x <;> simp_all [reply, Answer.ofPush, Reply.ofAnswer]
  | _ => cases h

namespace Session

variable [Accessory α]

/-- A step fails by its own error. -/
theorem eq_ownError_of_step {s : Session α} {slot : Nat} {st : Step} {e : HidError} (h : (s.step slot st).1 = .failed e) :
    e = st.ownError := by
  cases st with
  | register =>
    rw [step_register] at h
    rcases register_cases (s.getElem?_vacate_self slot) with ⟨-, hdone, -⟩ | ⟨-, -, hfailed, -⟩
    · rw [hdone] at h
      cases h
    · rw [hfailed] at h
      exact (Reply.failed.inj h).symm
  | vacate => cases h
  | use u =>
    rw [step_use] at h
    cases hk : s.keyboards[slot]? with
    | none =>
      rw [use_of_none hk] at h
      cases h
    | some k =>
      rw [use_of_some hk, Keyboard.use_eq] at h
      cases hr : u.sent? k with
      | none => exact Use.eq_push_of_reply (by simpa only [hr] using h)
      | some r => exact Use.eq_push_of_reply (by simpa only [hr] using h)

/-- A use leaves the keyboard that follows from the use, whatever the accessory answers. -/
theorem getElem?_use {s : Session α} {slot : Nat} {k : Keyboard} (h : s.keyboards[slot]? = some k) (u : Use) :
    (s.step slot (.use u)).2.keyboards[slot]? = some (u.after k) := by
  rw [step_use, use_of_some h, getElem?_insert, if_pos rfl, Keyboard.keyboard_use]

/-- Registering a keyboard takes the old one off, where there is one, and is one set-up after that. The slot then holds a new
keyboard, or none if the set-up was refused. -/
theorem enter_register (s : Session (Logged α)) (slot : Nat) :
    ∃ x y : Answer,
      (s.enter slot .register).1.exchanges =
          (if s.keyboards[slot]?.isSome then [⟨.unregister 1, y⟩] else []) ++ [⟨.setup 1 Descriptor.keyboard, x⟩] ∧
        (s.enter slot .register).1.reply.Passes x .registration ∧
        (s.step slot .register).2.keyboards[slot]? = if x = .accepted then some ⟨∅⟩ else none := by
  have hfree := s.getElem?_vacate_self slot
  have hcalls := exchanges_register hfree
  rw [exchanges_vacate, List.append_assoc] at hcalls
  refine ⟨(Accessory.setup Keyboard.accessoryId Descriptor.keyboard (s.vacate slot).accessory).1,
    (Accessory.unregister Keyboard.accessoryId s.accessory).1, ?_, ?_⟩
  · rw [fst_enter, step_register, exchangesSince_of_append hcalls]
    cases s.keyboards[slot]? <;> rfl
  · rw [fst_enter, step_register]
    rcases register_cases hfree with ⟨hx, hdone, hslot⟩ | ⟨e, hx, hfailed, hslot⟩
    · rw [hx, hdone, hslot]
      simp [Reply.Passes]
    · rw [hx, hfailed, hslot]
      simp [Reply.Passes]

/-- Sending a report of the caller's is one push of its bytes. -/
theorem enter_send {s : Session (Logged α)} {slot : Nat} {k : Keyboard} (h : s.keyboards[slot]? = some k) (r : Report) :
    ∃ x : Answer, (s.enter slot (.use (.send r))).1.exchanges = [⟨.push 1 r.toBytes.toList, x⟩] ∧
      (s.enter slot (.use (.send r))).1.reply.Passes x .push := by
  have hreply : (s.use slot (.send r)).1 =
      .ofAnswer (Accessory.push Keyboard.accessoryId r.toBytes.toList s.accessory).1.ofPush := by
    rw [use_of_some h, Keyboard.use_eq]
    rfl
  rw [fst_enter, step_use, hreply]
  exact ⟨_, exchangesSince_of_append (exchanges_use h (.send r)), Reply.passes_ofPush _⟩

end Session

/-! ## Sessions that are alike -/

namespace Session

/-- The accessory of two sessions is the same, and so is the keyboard in every slot. -/
structure Alike (s t : Session α) : Prop where
  accessory : s.accessory = t.accessory
  keyboard : ∀ slot : Nat, s.keyboards[slot]? = t.keyboards[slot]?

namespace Alike

variable {s t u : Session α}

theorem refl (s : Session α) : Alike s s := ⟨rfl, fun _ => rfl⟩

theorem trans (h : Alike s t) (h' : Alike t u) : Alike s u :=
  ⟨h.accessory.trans h'.accessory, fun slot => (h.keyboard slot).trans (h'.keyboard slot)⟩

variable [Accessory α]

theorem fst_step (h : Alike s t) (slot : Nat) (st : Step) : (s.step slot st).1 = (t.step slot st).1 := by
  rw [(s.step_spec slot st).1, (t.step_spec slot st).1, h.keyboard, h.accessory]

theorem step (h : Alike s t) (slot : Nat) (st : Step) : Alike (s.step slot st).2 (t.step slot st).2 where
  accessory := by rw [(s.step_spec slot st).2.1, (t.step_spec slot st).2.1, h.keyboard, h.accessory]
  keyboard i := by rw [(s.step_spec slot st).2.2, (t.step_spec slot st).2.2, h.keyboard, h.keyboard, h.accessory]

theorem leaves (h : Alike s t) (slots : List Nat) : Alike (slots.foldl vacate s) (slots.foldl vacate t) := by
  induction slots generalizing s t with
  | nil => exact h
  | cons slot slots ih => exact ih (h.step slot .vacate)

/-- Closing two sessions that are alike takes the keyboards away from the same slots. -/
theorem close (h : Alike s t) : Alike s.close t.close := by
  have hkeys : s.keyboards.keys = t.keyboards.keys :=
    (Std.TreeMap.Equiv.of_forall_constGet?_eq h.keyboard).keys_eq
  rw [Session.close, Session.close, hkeys]
  exact h.leaves _

end Alike

end Session

/-! ## Sending apart -/

/-- What the caller of a session does. -/
inductive Move
  /-- Takes a step. -/
  | step (slot : Nat) (st : Step)
  /-- Has the report for an event worked out and then sends it, if there is one, without a look at the reply. -/
  | apart (slot : Nat) (e : KeyEvent)

/-- The one step in which a move could be made. -/
def Move.whole : Move → Nat × Step
  | step slot st => (slot, st)
  | apart slot e => (slot, .use (.input (.key e)))

namespace Session

variable [Accessory α]

/-- Makes a move. The reply is that of the step; when an event is taken in in two steps none is kept. -/
def move (s : Session α) : Move → Option Reply × Session α
  | .step slot st =>
    match s.step slot st with
    | (reply, s) => (some reply, s)
  | .apart slot e =>
    match s.step slot (.use (.respond e)) with
    | (.report r, s) => (none, (s.step slot (.use (.send r))).2)
    | (_, s) => (none, s)

/-- Makes moves, first to last. -/
def moves (s : Session α) : List Move → List (Option Reply) × Session α
  | [] => ([], s)
  | m :: ms =>
    match s.move m with
    | (reply?, s) =>
      match s.moves ms with
      | (replies, s) => (reply? :: replies, s)

theorem moves_cons (s : Session α) (m : Move) (ms : List Move) :
    s.moves (m :: ms) = ((s.move m).1 :: ((s.move m).2.moves ms).1, ((s.move m).2.moves ms).2) := rfl

theorem step_respond {s : Session α} {slot : Nat} {k : Keyboard} (h : s.keyboards[slot]? = some k) (e : KeyEvent) :
    s.step slot (.use (.respond e)) =
      (((k.respond e).1.map .report).getD .silent, ⟨s.accessory, s.keyboards.insert slot (k.respond e).2⟩) := by
  rw [step_use, use_of_some h, Keyboard.use_eq]
  rfl

theorem snd_step_send {s : Session α} {slot : Nat} {k : Keyboard} (h : s.keyboards[slot]? = some k) (r : Report) :
    (s.step slot (.use (.send r))).2 =
      ⟨(Accessory.push Keyboard.accessoryId r.toBytes.toList s.accessory).2, s.keyboards.insert slot k⟩ := by
  rw [step_use, use_of_some h, Keyboard.use_eq]
  rfl

theorem snd_step_key {s : Session α} {slot : Nat} {k : Keyboard} (h : s.keyboards[slot]? = some k) (e : KeyEvent) :
    (s.step slot (.use (.input (.key e)))).2 =
      ⟨match (k.respond e).1 with
        | none => s.accessory
        | some r => (Accessory.push Keyboard.accessoryId r.toBytes.toList s.accessory).2,
        s.keyboards.insert slot (k.respond e).2⟩ := by
  rw [step_use, use_of_some h, Keyboard.use_eq]
  simp only [Use.sent?, Use.after]
  cases (k.respond e).1 <;> rfl

/-- Two steps take an event in as one does. -/
theorem alike_apart (s : Session α) (slot : Nat) (e : KeyEvent) :
    Alike (s.move (.apart slot e)).2 (s.step slot (.use (.input (.key e)))).2 := by
  cases hk : s.keyboards[slot]? with
  | none =>
    simp only [move, step_use, use_of_none hk]
    exact Alike.refl s
  | some k =>
    rw [snd_step_key hk, move, step_respond hk]
    cases (k.respond e).1 with
    | none => exact Alike.refl _
    | some r =>
      have hfirst := getElem?_insert s.keyboards slot (k.respond e).2 slot
      rw [if_pos rfl] at hfirst
      simp only [Option.map_some, Option.getD_some]
      rw [snd_step_send hfirst]
      refine ⟨rfl, ?_⟩
      -- the second step puts the keyboard in its slot once more
      intro i
      rw [getElem?_insert, getElem?_insert]
      split <;> rfl

theorem Alike.move {s t : Session α} (h : Alike s t) (m : Move) :
    Alike (s.move m).2 (t.step m.whole.1 m.whole.2).2 := by
  cases m with
  | step slot st => exact h.step slot st
  | apart slot e => exact (alike_apart s slot e).trans (h.step slot _)

/-- A session stays like one in which every event is taken in in one step. -/
theorem Alike.moves {s t : Session (Logged α)} (h : Alike s t) (ms : List Move) :
    Alike (s.moves ms).2 (t.record (ms.map Move.whole)).2 := by
  induction ms generalizing s t with
  | nil => exact h
  | cons m ms ih => exact ih (h.move m)

/-- The replies that are kept are those in the record. -/
theorem Alike.getElem?_moves {s t : Session (Logged α)} (h : Alike s t) {ms : List Move} {i slot : Nat} {st : Step}
    (hm : ms[i]? = some (.step slot st)) :
    ∃ entry : Entry, (t.record (ms.map Move.whole)).1[i]? = some entry ∧ (s.moves ms).1[i]? = some (some entry.reply) := by
  induction ms generalizing s t i with
  | nil => simp at hm
  | cons m ms ih =>
    rw [List.map_cons, moves_cons, record_cons t m.whole.1 m.whole.2]
    cases i with
    | zero =>
      obtain rfl : m = .step slot st := by simpa using hm
      exact ⟨_, rfl, congrArg (fun reply => some (some reply)) (h.fst_step slot st)⟩
    | succ i =>
      rw [List.getElem?_cons_succ] at hm
      exact ih (h.move m) hm

/-! ## Whole sessions -/

/-- In any steps of any session, on an accessory that may refuse any call with any error, in five parts.
1. Registering a keyboard takes off the keyboard that is in the slot, if there is one, and is one set-up after that; no other call
   is made. If the set-up is refused, with whichever error, the reply is that the registration failed, and the slot is empty;
   otherwise it is that it is done, and the slot holds a keyboard on which nothing is held.
2. Sending a report on a keyboard is one push of the bytes of the report. If it is refused, with whichever error, the reply is that
   the push failed, and otherwise that it is done; the keyboard stays as it is in both cases.
3. A step fails by its own error only, never by that of the transport.
4. The keyboard that a use leaves behind follows from the use and not from the answers.
5. Take any of the events that are taken in, and have the report worked out and sent in two steps instead, with the reply not
   looked at. At no point of the session this makes a difference to the accessory, to what it heard or to any keyboard, nor when
   the session is closed; and all other steps have the same replies. -/
theorem refusals_translated (s : Session (Logged α)) (steps : List (Nat × Step)) :
    (∀ i slot : Nat, steps[i]? = some (slot, .register) →
      ∃ (entry : Entry) (x y : Answer), (s.record steps).1[i]? = some entry ∧
        entry.exchanges = (if (s.record (steps.take i)).2.keyboards[slot]?.isSome then [⟨.unregister 1, y⟩] else []) ++
          [⟨.setup 1 Descriptor.keyboard, x⟩] ∧
        entry.reply.Passes x .registration ∧
        (s.record (steps.take (i + 1))).2.keyboards[slot]? = if x = .accepted then some ⟨∅⟩ else none) ∧
    (∀ (i slot : Nat) (r : Report) (k : Keyboard), steps[i]? = some (slot, .use (.send r)) →
      (s.record (steps.take i)).2.keyboards[slot]? = some k →
      ∃ (entry : Entry) (x : Answer), (s.record steps).1[i]? = some entry ∧
        entry.exchanges = [⟨.push 1 r.toBytes.toList, x⟩] ∧ entry.reply.Passes x .push ∧
        (s.record (steps.take (i + 1))).2.keyboards[slot]? = some k) ∧
    (∀ (i slot : Nat) (st : Step) (entry : Entry) (e : HidError), steps[i]? = some (slot, st) →
      (s.record steps).1[i]? = some entry → entry.reply = .failed e → e = st.ownError) ∧
    (∀ (i slot : Nat) (u : Use) (k : Keyboard), steps[i]? = some (slot, .use u) →
      (s.record (steps.take i)).2.keyboards[slot]? = some k →
      (s.record (steps.take (i + 1))).2.keyboards[slot]? = some (u.after k)) ∧
    ∀ ms : List Move, ms.map Move.whole = steps →
      (∀ i : Nat, Alike (s.moves (ms.take i)).2 (s.record (steps.take i)).2) ∧
      Alike (s.moves ms).2.close (s.record steps).2.close ∧
      ∀ (i slot : Nat) (st : Step), ms[i]? = some (.step slot st) →
        ∃ entry : Entry, (s.record steps).1[i]? = some entry ∧ (s.moves ms).1[i]? = some (some entry.reply) := by
  refine ⟨?register, ?send, ?own, ?after, ?apart⟩
  case register =>
    intro i slot hi
    obtain ⟨x, y, hcalls, hpasses, hslot⟩ := (s.record (steps.take i)).2.enter_register slot
    refine ⟨_, x, y, getElem?_record s hi, hcalls, hpasses, ?_⟩
    rw [record_take_succ s hi, hslot]
  case send =>
    intro i slot r k hi hk
    obtain ⟨x, hpush, hpasses⟩ := enter_send hk r
    refine ⟨_, x, getElem?_record s hi, hpush, hpasses, ?_⟩
    rw [record_take_succ s hi]
    exact getElem?_use hk (.send r)
  case own =>
    intro i slot st entry e hi hentry hfailed
    rw [getElem?_record s hi, Option.some.injEq] at hentry
    subst hentry
    exact eq_ownError_of_step hfailed
  case after =>
    intro i slot u k hi hk
    rw [record_take_succ s hi]
    exact getElem?_use hk u
  case apart =>
    rintro ms rfl
    refine ⟨?_, ((Alike.refl s).moves ms).close, fun i slot st hm => (Alike.refl s).getElem?_moves hm⟩
    intro i
    rw [← List.map_take]
    exact (Alike.refl s).moves (ms.take i)

/-- `refusals_translated` on an accessory that refuses every call. One event is taken in in two steps, and its report is lost; the
caller sends a report himself and learns that the push failed, and the key of the event stays down. Then he registers a new keyboard
in the slot: the old one is taken off, the one set-up is refused, and he learns that the registration failed. The accessory has
heard the same as if the event had been taken in in one step. -/
theorem refusals_translated_all_refused :
    let script : Script := { setup := .refused .push, push := .refused .transfer, unregister := .refused .transfer }
    let s : Session (Logged Script) := { accessory := { target := script }, keyboards := Std.TreeMap.empty.insert 0 ⟨∅⟩ }
    let e : KeyEvent := .down ⟨4⟩ ∅
    let r : Report := { modifier := 2, slots := #v[4, 5, 0, 0, 0, 0] }
    let steps : List (Nat × Step) := [(0, .use (.input (.key e))), (0, .use (.send r)), (0, .register)]
    let ms : List Move := [.apart 0 e, .step 0 (.use (.send r)), .step 0 .register]
    ms.map Move.whole = steps ∧ Alike (s.moves ms).2.close (s.record steps).2.close ∧
      (∃ sent : Entry, (s.record steps).1[1]? = some sent ∧ (s.moves ms).1[1]? = some (some (.failed .push)) ∧
        sent.exchanges = [⟨.push 1 [2, 0, 4, 5, 0, 0, 0, 0], .refused .transfer⟩] ∧
        (s.record (steps.take 2)).2.keyboards[0]? = some ⟨(∅ : HeldKeys).set 4 true⟩) ∧
      ∃ registered : Entry, (s.record steps).1[2]? = some registered ∧
        (s.moves ms).1[2]? = some (some (.failed .registration)) ∧
        registered.exchanges =
          [⟨.unregister 1, .refused .transfer⟩, ⟨.setup 1 Descriptor.keyboard, .refused .push⟩] ∧
        (s.record steps).2.keyboards[0]? = none := by
  intro script s e r steps ms
  have hkey : (s.record (steps.take 1)).2.keyboards[0]? = some ⟨(∅ : HeldKeys).set 4 true⟩ := by decide +kernel
  have hsent : (s.record steps).1[1]?.map Entry.exchanges =
      some [⟨.push 1 [2, 0, 4, 5, 0, 0, 0, 0], .refused .transfer⟩] := by decide +kernel
  have hregistered : (s.record steps).1[2]?.map Entry.exchanges =
      some [⟨.unregister 1, .refused .transfer⟩, ⟨.setup 1 Descriptor.keyboard, .refused .push⟩] := by decide +kernel
  obtain ⟨hregister, hsend, -, -, hmoves⟩ := refusals_translated s steps
  obtain ⟨-, hclose, hreplies⟩ := hmoves ms rfl
  refine ⟨rfl, hclose, ?_, ?_⟩
  · obtain ⟨sent, x, hentry, hpush, hpasses, hslot⟩ := hsend 1 0 r _ rfl hkey
    obtain ⟨sent', hentry', hreply⟩ := hreplies 1 0 (.use (.send r)) rfl
    obtain rfl : sent = sent' := Option.some.inj (hentry.symm.trans hentry')
    rw [hentry, Option.map_some, Option.some.injEq] at hsent
    have hcall := List.singleton_inj.mp (hpush.symm.trans hsent)
    obtain rfl : x = .refused .transfer := congrArg Exchange.answer hcall
    rw [hpasses.1.mpr ⟨_, rfl⟩] at hreply
    exact ⟨sent, hentry, hreply, hsent, hslot⟩
  · obtain ⟨registered, x, y, hentry, hcalls, hpasses, hslot⟩ := hregister 2 0 rfl
    obtain ⟨registered', hentry', hreply⟩ := hreplies 2 0 .register rfl
    obtain rfl : registered = registered' := Option.some.inj (hentry.symm.trans hentry')
    rw [hentry, Option.map_some, Option.some.injEq] at hregistered
    have hlast := congrArg List.getLast? (hcalls.symm.trans hregistered)
    rw [List.getLast?_concat] at hlast
    obtain rfl : x = .refused .push := congrArg Exchange.answer (Option.some.inj hlast)
    rw [hpasses.1.mpr ⟨_, rfl⟩] at hreply
    exact ⟨registered, hentry, hreply, hregistered, hslot⟩

end Session

end BootKeyboard
