import BootKeyboard.Proofs.Keyboard.Notes
import BootKeyboard.Transcript
import Std.Data.TreeMap.Lemmas

/-!
# The slots of a session

What each step does to the slots and to the accessory. A step looks at the keyboard in its own slot and at the accessory, and at
nothing else: `Step.act` is the step on these two alone, and `step_spec` says that this is what a session does, leaving every
other slot as it was. The other lemmas say the same of the three kinds of steps one by one, with the number of keyboards.
-/

namespace BootKeyboard

variable {α : Type} [Accessory α]

/-- The accessory after the keyboard in a slot was taken off, if there was one. -/
def Keyboard.leave (k? : Option Keyboard) (a : α) : α :=
  match k? with
  | none => a
  | some _ => (Accessory.unregister accessoryId a).2

/-- A step, told by the keyboard in its slot: the reply, the keyboard that is there afterwards, and the accessory. -/
def Step.act (k? : Option Keyboard) (a : α) : Step → (Reply × Option Keyboard) × α
  | register =>
    match (Accessory.setup Keyboard.accessoryId Descriptor.keyboard (Keyboard.leave k? a)).1 with
    | .accepted =>
      ((.done, some ⟨∅⟩), (Accessory.setup Keyboard.accessoryId Descriptor.keyboard (Keyboard.leave k? a)).2)
    | .refused _ =>
      ((.failed .registration, none), (Accessory.setup Keyboard.accessoryId Descriptor.keyboard (Keyboard.leave k? a)).2)
  | vacate => ((.done, none), Keyboard.leave k? a)
  | use u =>
    match k? with
    | none => ((.noKeyboard, none), a)
    | some k => (((k.use u a).1.1, some (k.use u a).1.2), (k.use u a).2)

theorem Step.act_use_some (u : Use) (k : Keyboard) (a : α) :
    (use u).act (some k) a = (((k.use u a).1.1, some (k.use u a).1.2), (k.use u a).2) := rfl

namespace Session

/-! ## Slots -/

theorem getElem?_insert (t : Std.TreeMap Nat Keyboard) (slot : Nat) (k : Keyboard) (i : Nat) :
    (t.insert slot k)[i]? = if i = slot then some k else t[i]? := by
  rw [Std.TreeMap.getElem?_insert]
  exact if_congr (compare_eq_iff_eq.trans eq_comm) rfl rfl

theorem getElem?_erase (t : Std.TreeMap Nat Keyboard) (slot i : Nat) :
    (t.erase slot)[i]? = if i = slot then none else t[i]? := by
  rw [Std.TreeMap.getElem?_erase]
  exact if_congr (compare_eq_iff_eq.trans eq_comm) rfl rfl

theorem contains_eq_isSome (t : Std.TreeMap Nat Keyboard) (slot : Nat) : t.contains slot = t[slot]?.isSome :=
  Std.TreeMap.contains_eq_isSome_getElem?

/-! ## Taking a keyboard away -/

theorem accessory_vacate (s : Session α) (slot : Nat) :
    (s.vacate slot).accessory = Keyboard.leave s.keyboards[slot]? s.accessory := by
  rw [vacate]
  cases s.keyboards[slot]? <;> rfl

theorem getElem?_vacate (s : Session α) (slot i : Nat) :
    (s.vacate slot).keyboards[i]? = if i = slot then none else s.keyboards[i]? := by
  rw [vacate]
  cases h : s.keyboards[slot]? with
  | none =>
    by_cases hi : i = slot
    · rw [if_pos hi, hi]
      exact h
    · rw [if_neg hi]
  | some k => exact getElem?_erase s.keyboards slot i

theorem size_vacate (s : Session α) (slot : Nat) :
    (s.vacate slot).keyboards.size = s.keyboards.size - s.keyboards[slot]?.toList.length := by
  rw [vacate]
  cases h : s.keyboards[slot]? with
  | none => rfl
  | some k =>
    have hcontains : s.keyboards.contains slot = true := by rw [contains_eq_isSome, h, Option.isSome_some]
    have hsize : (s.keyboards.erase slot).size = s.keyboards.size - 1 := by
      rw [Std.TreeMap.size_erase, hcontains, if_pos rfl]
    exact hsize

/-- A slot is free once its keyboard was taken away. -/
theorem getElem?_vacate_self (s : Session α) (slot : Nat) : (s.vacate slot).keyboards[slot]? = none := by
  rw [getElem?_vacate, if_pos rfl]

/-- Where no keyboard is, there is nothing to take away. -/
theorem vacate_of_none {s : Session α} {slot : Nat} (h : s.keyboards[slot]? = none) : s.vacate slot = s := by
  rw [vacate, h]

theorem size_pos_of_some {t : Std.TreeMap Nat Keyboard} {slot : Nat} {k : Keyboard} (h : t[slot]? = some k) :
    0 < t.size := by
  refine Nat.pos_of_ne_zero fun h0 => ?_
  have hempty : t.isEmpty = true := by
    rw [Std.TreeMap.isEmpty_eq_size_eq_zero, h0]
    rfl
  rw [Std.TreeMap.getElem?_of_isEmpty hempty] at h
  cases h

/-! ## Putting a keyboard in -/

/-- Registering begins with taking the old keyboard away. -/
theorem register_vacate (s : Session α) (slot : Nat) : (s.vacate slot).register slot = s.register slot := by
  simp only [register, vacate_of_none (s.getElem?_vacate_self slot)]

theorem register_of_accepted {s : Session α} {slot : Nat} (h : s.keyboards[slot]? = none)
    (hx : (Accessory.setup Keyboard.accessoryId Descriptor.keyboard s.accessory).1 = .accepted) :
    s.register slot =
      (.done,
        ⟨(Accessory.setup Keyboard.accessoryId Descriptor.keyboard s.accessory).2, s.keyboards.insert slot ⟨∅⟩⟩) := by
  simp only [register, vacate_of_none h, Keyboard.register_eq, hx]

theorem register_of_refused {s : Session α} {slot : Nat} {e : HidError} (h : s.keyboards[slot]? = none)
    (hx : (Accessory.setup Keyboard.accessoryId Descriptor.keyboard s.accessory).1 = .refused e) :
    s.register slot =
      (.failed .registration,
        ⟨(Accessory.setup Keyboard.accessoryId Descriptor.keyboard s.accessory).2, s.keyboards⟩) := by
  simp only [register, vacate_of_none h, Keyboard.register_eq, hx]

theorem size_insert_of_none {t : Std.TreeMap Nat Keyboard} {slot : Nat} (h : t[slot]? = none) (k : Keyboard) :
    (t.insert slot k).size = t.size + 1 := by
  rw [Std.TreeMap.size_insert, contains_eq_isSome, h]
  rfl

/-! ## Using a keyboard -/

theorem use_of_none {s : Session α} {slot : Nat} (h : s.keyboards[slot]? = none) (u : Use) :
    s.use slot u = (.noKeyboard, s) := by
  rw [use, h]

theorem use_of_some {s : Session α} {slot : Nat} {k : Keyboard} (h : s.keyboards[slot]? = some k) (u : Use) :
    s.use slot u =
      ((k.use u s.accessory).1.1, ⟨(k.use u s.accessory).2, s.keyboards.insert slot (k.use u s.accessory).1.2⟩) := by
  rw [use, h]
  rfl

theorem size_insert_of_some {t : Std.TreeMap Nat Keyboard} {slot : Nat} {k : Keyboard} (h : t[slot]? = some k)
    (k' : Keyboard) : (t.insert slot k').size = t.size := by
  rw [Std.TreeMap.size_insert, contains_eq_isSome, h]
  rfl

/-! ## Any step -/

theorem step_register (s : Session α) (slot : Nat) : s.step slot .register = (s.vacate slot).register slot :=
  (register_vacate s slot).symm

theorem step_vacate (s : Session α) (slot : Nat) : s.step slot .vacate = (.done, s.vacate slot) := rfl

theorem step_use (s : Session α) (slot : Nat) (u : Use) : s.step slot (.use u) = s.use slot u := rfl

/-- What holds when a keyboard was taken away or used, and is kept by putting one in a free slot, holds after any step. -/
theorem step_induction {P : Session α → Prop} {s : Session α} {slot : Nat} (hvacate : P (s.vacate slot))
    (hregister : ∀ t : Session α, t.keyboards[slot]? = none → P t → P (t.register slot).2)
    (huse : ∀ u, P (s.use slot u).2) (st : Step) : P (s.step slot st).2 := by
  cases st with
  | register =>
    rw [step_register]
    exact hregister _ (s.getElem?_vacate_self slot) hvacate
  | vacate => exact hvacate
  | use u => exact huse u

/-- A step works on the keyboard in its slot and on the accessory, and leaves every other slot as it was. -/
theorem step_spec (s : Session α) (slot : Nat) (st : Step) :
    (s.step slot st).1 = (st.act s.keyboards[slot]? s.accessory).1.1 ∧
      (s.step slot st).2.accessory = (st.act s.keyboards[slot]? s.accessory).2 ∧
      ∀ i, (s.step slot st).2.keyboards[i]? =
        if i = slot then (st.act s.keyboards[slot]? s.accessory).1.2 else s.keyboards[i]? := by
  cases st with
  | register =>
    have hnone := s.getElem?_vacate_self slot
    rw [step_register, Step.act, ← accessory_vacate]
    cases hx : (Accessory.setup Keyboard.accessoryId Descriptor.keyboard (s.vacate slot).accessory).1 with
    | accepted =>
      rw [register_of_accepted hnone hx]
      refine ⟨rfl, rfl, fun i => ?_⟩
      rw [getElem?_insert, getElem?_vacate]
      by_cases hi : i = slot
      · rw [if_pos hi, if_pos hi]
      · rw [if_neg hi, if_neg hi, if_neg hi]
    | refused e =>
      rw [register_of_refused hnone hx]
      exact ⟨rfl, rfl, getElem?_vacate s slot⟩
  | vacate => exact ⟨rfl, accessory_vacate s slot, getElem?_vacate s slot⟩
  | use u =>
    rw [step_use]
    cases h : s.keyboards[slot]? with
    | none =>
      rw [use_of_none h]
      refine ⟨rfl, rfl, fun i => ?_⟩
      by_cases hi : i = slot
      · rw [if_pos hi, hi, h]
        rfl
      · rw [if_neg hi]
    | some k =>
      rw [use_of_some h]
      exact ⟨rfl, rfl, getElem?_insert s.keyboards slot _⟩

/-- A new keyboard is in its slot when the accessory accepted it; otherwise the slot stays empty. -/
theorem register_cases {s : Session α} {slot : Nat} (h : s.keyboards[slot]? = none) :
    (Accessory.setup Keyboard.accessoryId Descriptor.keyboard s.accessory).1 = .accepted ∧
        (s.register slot).1 = .done ∧ (s.register slot).2.keyboards[slot]? = some ⟨∅⟩ ∨
      ∃ e, (Accessory.setup Keyboard.accessoryId Descriptor.keyboard s.accessory).1 = .refused e ∧
        (s.register slot).1 = .failed .registration ∧ (s.register slot).2.keyboards[slot]? = none := by
  cases hx : (Accessory.setup Keyboard.accessoryId Descriptor.keyboard s.accessory).1 with
  | accepted =>
    rw [register_of_accepted h hx]
    exact Or.inl ⟨rfl, rfl, (getElem?_insert _ slot _ slot).trans (if_pos rfl)⟩
  | refused e =>
    rw [register_of_refused h hx]
    exact Or.inr ⟨e, rfl, rfl, h⟩

theorem getElem?_register_of_ne (s : Session α) {slot i : Nat} (h : i ≠ slot) :
    (s.register slot).2.keyboards[i]? = s.keyboards[i]? :=
  ((step_spec s slot .register).2.2 i).trans (if_neg h)

/-! ## What passes -/

omit [Accessory α] in
theorem exchangesSince_of_append {s earlier : Session (Logged α)} {xs : List Exchange}
    (h : s.accessory.exchanges = earlier.accessory.exchanges ++ xs) : s.exchangesSince earlier = xs := by
  have hdrop : s.exchangesSince earlier = s.accessory.exchanges.drop earlier.accessory.exchanges.length := rfl
  rw [hdrop, h, List.drop_left]

/-- Taking a keyboard away is one call, and none where no keyboard is. -/
theorem exchanges_vacate (s : Session (Logged α)) (slot : Nat) :
    (s.vacate slot).accessory.exchanges = s.accessory.exchanges ++ s.keyboards[slot]?.toList.map fun _ =>
      ⟨.unregister Keyboard.accessoryId, (Accessory.unregister Keyboard.accessoryId s.accessory).1⟩ := by
  rw [accessory_vacate]
  cases s.keyboards[slot]? with
  | none => exact (List.append_nil _).symm
  | some k => rfl

/-- Putting a keyboard in a free slot is one call. -/
theorem exchanges_register {s : Session (Logged α)} {slot : Nat} (h : s.keyboards[slot]? = none) :
    (s.register slot).2.accessory.exchanges = s.accessory.exchanges ++
      [⟨.setup Keyboard.accessoryId Descriptor.keyboard,
        (Accessory.setup Keyboard.accessoryId Descriptor.keyboard s.accessory).1⟩] := by
  have haccessory : (s.register slot).2.accessory =
      (Accessory.setup Keyboard.accessoryId Descriptor.keyboard s.accessory).2 := by
    cases hx : (Accessory.setup Keyboard.accessoryId Descriptor.keyboard s.accessory).1 with
    | accepted => rw [register_of_accepted h hx]
    | refused e => rw [register_of_refused h hx]
  rw [haccessory]
  rfl

/-- Using a keyboard makes the calls of that use. -/
theorem exchanges_use {s : Session (Logged α)} {slot : Nat} {k : Keyboard} (h : s.keyboards[slot]? = some k) (u : Use) :
    (s.use slot u).2.accessory.exchanges = s.accessory.exchanges ++ k.exchangesOf u s.accessory.target := by
  rw [use_of_some h]
  exact k.exchanges_use u s.accessory

end Session

end BootKeyboard
