import BootKeyboard.Proofs.Session.Slots

/-!
# Registrations and keyboards

What the log of a session says about the keyboards in it. As many set-ups were accepted and not taken back as there are keyboards
(`Balanced`), after any steps and also when the session is closed. All keyboards go by one number, so a keyboard that leaves takes
the registration of the others with it; but as long as there is at most one keyboard at a time, nothing is sent or taken off
under a number that is not registered (`InOrder`).
-/

namespace BootKeyboard

open Keyboard (accessoryId)

/-! ## Reading a log -/

namespace Exchange

/-- A set-up was accepted. -/
def opens (x : Exchange) : Bool :=
  match x.call, x.answer with
  | .setup _ _, .accepted => true
  | _, _ => false

/-- The accessory was told to take a device off. Its answer does not count. -/
def closes (x : Exchange) : Bool :=
  match x.call with
  | .unregister _ => true
  | _ => false

/-- Whether a device is registered after an exchange, when it is known whether it was before. -/
def registers (id : AccessoryId) (before : Bool) (x : Exchange) : Bool :=
  match x.call, x.answer with
  | .setup i _, .accepted => before || i == id
  | .unregister i, _ => before && i != id
  | _, _ => before

end Exchange

/-- Whether a device is registered after some exchanges: its set-up was accepted, and it was not taken off since. -/
def registered (id : AccessoryId) (xs : List Exchange) : Bool := xs.foldl (Exchange.registers id) false

/-- Every call is the set-up of the keyboard, or is made while the keyboard is registered. -/
def InOrder (log : List Exchange) : Prop :=
  ∀ xs x, xs ++ [x] <+: log →
    x.call = .setup accessoryId Descriptor.keyboard ∨ registered accessoryId xs = true

theorem registered_concat (id : AccessoryId) (xs : List Exchange) (x : Exchange) :
    registered id (xs ++ [x]) = x.registers id (registered id xs) := by
  rw [registered, List.foldl_append]
  rfl

/-- One more call keeps a log in order when it is the set-up or when the keyboard is registered then. -/
theorem InOrder.concat {log : List Exchange} {x : Exchange} (h : InOrder log)
    (hx : x.call = .setup accessoryId Descriptor.keyboard ∨ registered accessoryId log = true) : InOrder (log ++ [x]) := by
  intro ys y hy
  rcases List.prefix_concat_iff.mp hy with heq | hy
  · obtain ⟨rfl, hlast⟩ := List.append_inj' heq rfl
    obtain rfl : y = x := List.singleton_inj.mp hlast
    exact hx
  · exact h ys y hy

theorem Exchange.IsPush.opens_eq {x : Exchange} (h : x.IsPush) : x.opens = false := by
  obtain ⟨payload, -, hcall⟩ := h
  rw [Exchange.opens, hcall]

theorem Exchange.IsPush.closes_eq {x : Exchange} (h : x.IsPush) : x.closes = false := by
  obtain ⟨payload, -, hcall⟩ := h
  rw [Exchange.closes, hcall]

theorem Exchange.IsPush.registers_eq {x : Exchange} (h : x.IsPush) (id : AccessoryId) (before : Bool) :
    x.registers id before = before := by
  obtain ⟨payload, -, hcall⟩ := h
  rw [Exchange.registers, hcall]

namespace Session

variable {α : Type} [Accessory α]

/-! ## The balance -/

/-- As many set-ups were accepted as devices were taken off and keyboards are left. -/
def Balanced (s : Session (Logged α)) : Prop :=
  s.accessory.exchanges.countP Exchange.opens = s.accessory.exchanges.countP Exchange.closes + s.keyboards.size

omit [Accessory α] in
theorem balanced_begin (a : α) : Balanced { accessory := { target := a } } := rfl

theorem balanced_vacate {s : Session (Logged α)} (h : s.Balanced) (slot : Nat) : (s.vacate slot).Balanced := by
  unfold Balanced at h ⊢
  rw [exchanges_vacate, size_vacate, List.countP_append, List.countP_append, h]
  cases hk : s.keyboards[slot]? with
  | none => rfl
  | some k =>
    have hpos := size_pos_of_some hk
    simp only [Option.toList_some, List.map_cons, List.map_nil, List.countP_singleton, Exchange.opens, Exchange.closes,
      List.length_singleton, if_true, Bool.false_eq_true, if_false]
    omega

theorem balanced_register {s : Session (Logged α)} (h : s.Balanced) {slot : Nat} (hk : s.keyboards[slot]? = none) :
    (s.register slot).2.Balanced := by
  unfold Balanced at h ⊢
  rw [exchanges_register hk, List.countP_append, List.countP_append, h]
  cases hx : (Accessory.setup accessoryId Descriptor.keyboard s.accessory).1 with
  | accepted =>
    rw [register_of_accepted hk hx, size_insert_of_none hk]
    simp only [List.countP_singleton, Exchange.opens, Exchange.closes, if_true, Bool.false_eq_true, if_false]
    omega
  | refused e =>
    rw [register_of_refused hk hx]
    rfl

theorem balanced_use {s : Session (Logged α)} (h : s.Balanced) (slot : Nat) (u : Use) : (s.use slot u).2.Balanced := by
  cases hk : s.keyboards[slot]? with
  | none =>
    rw [use_of_none hk]
    exact h
  | some k =>
    have hsize : (s.use slot u).2.keyboards.size = s.keyboards.size := by
      rw [use_of_some hk]
      exact size_insert_of_some hk _
    unfold Balanced at h ⊢
    rw [exchanges_use hk, hsize, List.countP_append, List.countP_append, h]
    rcases k.exchangesOf_eq u s.accessory.target with hnone | ⟨x, hx, hone⟩
    · rw [hnone]
      rfl
    · rw [hone, List.countP_singleton, List.countP_singleton, hx.opens_eq, hx.closes_eq]
      rfl

theorem balanced_step {s : Session (Logged α)} (h : s.Balanced) (slot : Nat) (st : Step) :
    (s.step slot st).2.Balanced :=
  step_induction (balanced_vacate h slot) (fun _ hk ht => balanced_register ht hk) (balanced_use h slot) st

theorem balanced_record {s : Session (Logged α)} (h : s.Balanced) (steps : List (Nat × Step)) :
    (s.record steps).2.Balanced := by
  induction steps generalizing s with
  | nil => exact h
  | cons p steps ih => exact ih (balanced_step h p.1 p.2)

theorem balanced_leaves {s : Session (Logged α)} (h : s.Balanced) (slots : List Nat) :
    (slots.foldl vacate s).Balanced := by
  induction slots generalizing s with
  | nil => exact h
  | cons slot slots ih => exact ih (balanced_vacate h slot)

/-! ## The last keyboard -/

theorem getElem?_leaves (s : Session α) (slots : List Nat) (i : Nat) :
    (slots.foldl vacate s).keyboards[i]? = if i ∈ slots then none else s.keyboards[i]? := by
  induction slots generalizing s with
  | nil => rfl
  | cons slot slots ih =>
    rw [List.foldl_cons, ih, getElem?_vacate]
    by_cases hi : i ∈ slots
    · rw [if_pos hi, if_pos (List.mem_cons_of_mem _ hi)]
    · rw [if_neg hi]
      by_cases hslot : i = slot
      · rw [if_pos hslot, if_pos (List.mem_cons.mpr (Or.inl hslot))]
      · rw [if_neg hslot, if_neg fun h => (List.mem_cons.mp h).elim hslot hi]

/-- A session that is closed has no keyboard left. -/
theorem getElem?_close (s : Session α) (i : Nat) : s.close.keyboards[i]? = none := by
  rw [close, getElem?_leaves]
  by_cases hi : i ∈ s.keyboards.keys
  · exact if_pos hi
  · rw [if_neg hi]
    exact Std.TreeMap.getElem?_eq_none fun h => hi (Std.TreeMap.mem_keys.mpr h)

theorem size_close (s : Session α) : s.close.keyboards.size = 0 := by
  have hempty : s.close.keyboards.isEmpty = true := by
    rw [Std.TreeMap.isEmpty_iff_forall_not_mem]
    intro i hi
    rw [Std.TreeMap.mem_iff_isSome_getElem?, getElem?_close] at hi
    cases hi
  rw [Std.TreeMap.isEmpty_eq_size_eq_zero] at hempty
  simpa using hempty

/-! ## One keyboard at a time -/

/-- The log is in order, and the keyboard is registered just when there is one. -/
structure Orderly (s : Session (Logged α)) : Prop where
  in_order : InOrder s.accessory.exchanges
  registered_eq : registered accessoryId s.accessory.exchanges = decide (0 < s.keyboards.size)

omit [Accessory α] in
theorem orderly_begin (a : α) : Orderly { accessory := { target := a } } := by
  refine ⟨?_, rfl⟩
  intro xs x hx
  have hlen := hx.length_le
  rw [List.length_append] at hlen
  exact absurd hlen (Nat.not_succ_le_zero _)

omit [Accessory α] in
/-- Where a keyboard is, the number is registered. -/
theorem Orderly.registered_of_some {s : Session (Logged α)} (h : s.Orderly) {slot : Nat} {k : Keyboard}
    (hk : s.keyboards[slot]? = some k) : registered accessoryId s.accessory.exchanges = true := by
  rw [h.registered_eq]
  exact decide_eq_true (size_pos_of_some hk)

/-- The only keyboard takes its own registration with it. With a second keyboard this would not hold. -/
theorem orderly_vacate {s : Session (Logged α)} (h : s.Orderly) (hsize : s.keyboards.size ≤ 1) (slot : Nat) :
    (s.vacate slot).Orderly := by
  cases hk : s.keyboards[slot]? with
  | none =>
    rw [vacate_of_none hk]
    exact h
  | some k =>
    have hlog := exchanges_vacate s slot
    have hleft := size_vacate s slot
    rw [hk] at hlog hleft
    constructor
    · rw [hlog]
      exact h.in_order.concat (Or.inr (h.registered_of_some hk))
    · have hzero : (s.vacate slot).keyboards.size = 0 := by
        simp only [Option.toList_some, List.length_singleton] at hleft
        omega
      rw [hlog, hzero, Option.toList_some, List.map_singleton, registered_concat]
      simp [Exchange.registers]

theorem orderly_register {s : Session (Logged α)} (h : s.Orderly) {slot : Nat} (hk : s.keyboards[slot]? = none) :
    (s.register slot).2.Orderly := by
  have hlog := exchanges_register hk
  refine ⟨?_, ?_⟩
  · rw [hlog]
    exact h.in_order.concat (Or.inl rfl)
  · rw [hlog, registered_concat]
    cases hx : (Accessory.setup accessoryId Descriptor.keyboard s.accessory).1 with
    | accepted =>
      rw [register_of_accepted hk hx, size_insert_of_none hk]
      simp [Exchange.registers]
    | refused e =>
      rw [register_of_refused hk hx]
      exact h.registered_eq

theorem orderly_use {s : Session (Logged α)} (h : s.Orderly) (slot : Nat) (u : Use) : (s.use slot u).2.Orderly := by
  cases hk : s.keyboards[slot]? with
  | none =>
    rw [use_of_none hk]
    exact h
  | some k =>
    have hlog := exchanges_use hk u
    have hsize : (s.use slot u).2.keyboards.size = s.keyboards.size := by
      rw [use_of_some hk]
      exact size_insert_of_some hk _
    rcases k.exchangesOf_eq u s.accessory.target with hnone | ⟨x, hx, hone⟩
    · rw [hnone, List.append_nil] at hlog
      exact ⟨hlog ▸ h.in_order, by rw [hlog, hsize, h.registered_eq]⟩
    · rw [hone] at hlog
      refine ⟨?_, ?_⟩
      · rw [hlog]
        exact h.in_order.concat (Or.inr (h.registered_of_some hk))
      · rw [hlog, registered_concat, hx.registers_eq, hsize, h.registered_eq]

theorem orderly_step {s : Session (Logged α)} (h : s.Orderly) (hsize : s.keyboards.size ≤ 1) (slot : Nat) (st : Step) :
    (s.step slot st).2.Orderly :=
  step_induction (orderly_vacate h hsize slot) (fun _ hk ht => orderly_register ht hk) (orderly_use h slot) st

/-- As long as there is at most one keyboard after each of the steps, the session stays orderly. -/
theorem orderly_record {s : Session (Logged α)} (h : s.Orderly) (steps : List (Nat × Step))
    (hsize : ∀ i, (s.record (steps.take i)).2.keyboards.size ≤ 1) : (s.record steps).2.Orderly := by
  induction steps generalizing s with
  | nil => exact h
  | cons p steps ih => exact ih (orderly_step h (hsize 0) p.1 p.2) fun i => hsize (i + 1)

theorem orderly_leaves {s : Session (Logged α)} (h : s.Orderly) (hsize : s.keyboards.size ≤ 1) (slots : List Nat) :
    (slots.foldl vacate s).Orderly := by
  induction slots generalizing s with
  | nil => exact h
  | cons slot slots ih =>
    refine ih (orderly_vacate h hsize slot) ?_
    rw [size_vacate]
    omega

end Session

end BootKeyboard
