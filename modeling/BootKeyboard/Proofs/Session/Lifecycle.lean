import BootKeyboard.Proofs.Session.Balance
import BootKeyboard.Proofs.Session.Ledger

/-!
# The life of a keyboard

What is ever said to an accessory on behalf of one keyboard. Either the set-up is refused and nothing more is said, or it is
accepted, reports of eight bytes follow, and the last call takes the keyboard off again, whatever that is answered. `Sound`
is what the ledger of a session knows about all keyboards at once; each move keeps it, so it holds after any steps. The main
statement is `registration_lifecycle`.
-/

namespace BootKeyboard

open Keyboard (accessoryId)

/-! ## Lives -/

namespace Life

/-- The set-up of a keyboard and the answer to it. -/
def setUp (answer : Answer) : Exchange := ⟨.setup accessoryId Descriptor.keyboard, answer⟩

/-- The set-up was refused, and nothing else was said. -/
def Refused (xs : List Exchange) : Prop := ∃ e, xs = [setUp (.refused e)]

/-- The set-up was accepted, and only reports followed so far. -/
def Active (xs : List Exchange) : Prop := ∃ pushes, xs = setUp .accepted :: pushes ∧ ∀ x ∈ pushes, x.IsPush

/-- The set-up was accepted, reports followed, and then the keyboard was taken off. -/
def Ended (xs : List Exchange) : Prop :=
  ∃ ys answer, Active ys ∧ xs = ys ++ [⟨.unregister accessoryId, answer⟩]

theorem active_setUp : Active [setUp .accepted] := by
  refine ⟨[], rfl, ?_⟩
  intro x hx
  cases hx

/-- Reports keep a life active. -/
theorem Active.append {xs ys : List Exchange} (h : Active xs) (hys : ∀ x ∈ ys, x.IsPush) : Active (xs ++ ys) := by
  obtain ⟨pushes, rfl, hpushes⟩ := h
  refine ⟨pushes ++ ys, rfl, ?_⟩
  intro x hx
  rcases List.mem_append.mp hx with hx | hx
  · exact hpushes x hx
  · exact hys x hx

/-- Taking the keyboard off ends its life, whatever that is answered. -/
theorem Active.ended {xs : List Exchange} (h : Active xs) (answer : Answer) :
    Ended (xs ++ [⟨.unregister accessoryId, answer⟩]) :=
  ⟨xs, answer, h, rfl⟩

end Life

open Life

variable {α : Type}

namespace Ledger

/-! ## What a ledger knows -/

/-- What a ledger knows of its keyboards: those that are in a slot and those that are not. -/
structure Sound (l : Ledger α) : Prop where
  /-- Every exchange is charged, in order, and nothing else is. -/
  accounted : l.charges.map Prod.snd = l.session.accessory.exchanges
  charged_lt : ∀ c ∈ l.charges, c.1 < l.registrations.length
  tenant_isSome : ∀ slot, (l.tenant slot).isSome = l.session.keyboards[slot]?.isSome
  tenant_inj : ∀ i j n, l.tenant i = some n → l.tenant j = some n → i = j
  /-- A keyboard in a slot was registered, and it is active. -/
  active : ∀ slot n, l.tenant slot = some n → l.registrations[n]? = some .done ∧ Active (l.exchangesOf n)
  /-- A keyboard that is in no slot was refused, or it was registered and has been taken off. -/
  gone : ∀ n reply, l.registrations[n]? = some reply → (∀ slot, l.tenant slot ≠ some n) →
    reply = .failed .registration ∧ Refused (l.exchangesOf n) ∨ reply = .done ∧ Ended (l.exchangesOf n)

namespace Sound

variable {l : Ledger α}

theorem lt_of_tenant (h : l.Sound) {slot n : Nat} (ht : l.tenant slot = some n) : n < l.registrations.length :=
  (List.getElem?_eq_some_iff.mp (h.active slot n ht).1).1

/-- Nothing is charged to a keyboard that is still to come. -/
theorem exchangesOf_length (h : l.Sound) : l.exchangesOf l.registrations.length = [] := by
  rw [exchangesOf, List.map_eq_nil_iff, List.filter_eq_nil_iff]
  intro c hc
  have := h.charged_lt c hc
  simp only [beq_iff_eq]
  omega

theorem keyboard_of_tenant (h : l.Sound) {slot n : Nat} (ht : l.tenant slot = some n) :
    ∃ k, l.session.keyboards[slot]? = some k := by
  have hsome := h.tenant_isSome slot
  rw [ht] at hsome
  exact Option.isSome_iff_exists.mp hsome.symm

theorem free_of_tenant (h : l.Sound) {slot : Nat} (ht : l.tenant slot = none) :
    l.session.keyboards[slot]? = none := by
  have hsome := h.tenant_isSome slot
  rw [ht] at hsome
  exact Option.not_isSome_iff_eq_none.mp (by rw [← hsome]; exact Bool.false_ne_true)

/-- What is charged to one keyboard, past what was charged before, stays accounted when the log grows by the same. -/
theorem accounted_append (h : l.Sound) {l' : Ledger α} {n : Nat} {xs : List Exchange}
    (hc : l'.charges = l.charges ++ xs.map (n, ·))
    (hlog : l'.session.accessory.exchanges = l.session.accessory.exchanges ++ xs) :
    l'.charges.map Prod.snd = l'.session.accessory.exchanges := by
  rw [hc, hlog, List.map_append, h.accounted, List.map_map]
  exact congrArg _ (List.map_id xs)

theorem charged_append (h : l.Sound) {l' : Ledger α} {n : Nat} {xs : List Exchange}
    (hc : l'.charges = l.charges ++ xs.map (n, ·)) (hle : l.registrations.length ≤ l'.registrations.length)
    (hn : n < l'.registrations.length) : ∀ c ∈ l'.charges, c.1 < l'.registrations.length := by
  intro c hmem
  rw [hc] at hmem
  rcases List.mem_append.mp hmem with hmem | hmem
  · exact Nat.lt_of_lt_of_le (h.charged_lt c hmem) hle
  · obtain ⟨x, -, rfl⟩ := List.mem_map.mp hmem
    exact hn

theorem begin (a : α) : (begin a).Sound where
  accounted := rfl
  charged_lt := by
    intro c hc
    cases hc
  tenant_isSome := by
    intro slot
    rfl
  tenant_inj := by
    intro i j n hi
    cases hi
  active := by
    intro slot n ht
    cases ht
  gone := by
    intro n reply hreply
    cases hreply

/-- Once all keyboards are taken away, every life is over. -/
theorem settled (h : l.Sound) (hnone : ∀ slot : Nat, l.session.keyboards[slot]? = none) {n : Nat} {reply : Reply}
    (hreply : l.registrations[n]? = some reply) :
    reply = .failed .registration ∧ Refused (l.exchangesOf n) ∨ reply = .done ∧ Ended (l.exchangesOf n) := by
  refine h.gone n reply hreply ?_
  intro slot ht
  obtain ⟨k, hk⟩ := h.keyboard_of_tenant ht
  rw [hnone slot] at hk
  cases hk

variable [Accessory α]

/-! ## The moves -/

/-- A keyboard that leaves has ended its life; the others go on. -/
theorem leave (h : l.Sound) (slot : Nat) : (l.leave slot).Sound := by
  cases ht : l.tenant slot with
  | none =>
    rw [leave_of_free ht (h.free_of_tenant ht)]
    exact h
  | some n =>
    obtain ⟨k, hk⟩ := h.keyboard_of_tenant ht
    have hcharges := charges_leave ht hk
    have hlog := Session.exchanges_vacate l.session slot
    rw [hk] at hlog
    constructor
    case accounted => exact h.accounted_append hcharges hlog
    case charged_lt => exact h.charged_append hcharges (Nat.le_refl _) (h.lt_of_tenant ht)
    case tenant_isSome =>
      intro i
      have hslot : (l.leave slot).session.keyboards[i]? = _ := Session.getElem?_vacate l.session slot i
      rw [tenant_leave, hslot]
      by_cases his : i = slot
      · rw [if_pos his, if_pos his]
        rfl
      · rw [if_neg his, if_neg his]
        exact h.tenant_isSome i
    case tenant_inj =>
      intro i j m hi hj
      exact h.tenant_inj i j m (tenant_leave_eq_some hi).2 (tenant_leave_eq_some hj).2
    case active =>
      intro i m hi
      obtain ⟨his, hi⟩ := tenant_leave_eq_some hi
      -- a tenant of another slot is another keyboard, so nothing was charged to it
      have hm : m ≠ n := by
        rintro rfl
        exact his (h.tenant_inj i slot m hi ht)
      rw [exchangesOf_append_of_ne hcharges hm]
      exact h.active i m hi
    case gone =>
      intro m reply hreply hgone
      by_cases hm : m = n
      -- the one that leaves was active until now, and this is its last call
      · subst hm
        obtain ⟨hdone, hactive⟩ := h.active slot m ht
        rw [exchangesOf_append_self hcharges]
        exact Or.inr ⟨Option.some.inj (hreply.symm.trans hdone), hactive.ended _⟩
      · rw [exchangesOf_append_of_ne hcharges hm]
        refine h.gone m reply hreply ?_
        intro i hi
        by_cases his : i = slot
        · rw [his, ht] at hi
          exact hm (Option.some.inj hi).symm
        · refine hgone i ?_
          rw [tenant_leave, if_neg his]
          exact hi

/-- A keyboard that is used goes on living: it sends nothing but reports. -/
theorem use (h : l.Sound) (slot : Nat) (u : Use) : (l.use slot u).Sound := by
  cases ht : l.tenant slot with
  | none =>
    rw [use_of_free ht (h.free_of_tenant ht)]
    exact h
  | some n =>
    obtain ⟨k, hk⟩ := h.keyboard_of_tenant ht
    have hcharges := charges_use ht hk u
    have hlog := Session.exchanges_use hk u
    constructor
    case accounted => exact h.accounted_append hcharges hlog
    case charged_lt => exact h.charged_append hcharges (Nat.le_refl _) (h.lt_of_tenant ht)
    case tenant_isSome =>
      intro i
      have hsession : (l.use slot u).session = (l.session.use slot u).2 := rfl
      have htenant : (l.use slot u).tenant = l.tenant := rfl
      rw [htenant, hsession, Session.use_of_some hk, Session.getElem?_insert]
      by_cases his : i = slot
      · rw [his, ht, if_pos rfl]
        rfl
      · rw [if_neg his]
        exact h.tenant_isSome i
    case tenant_inj => exact h.tenant_inj
    case active =>
      intro i m hi
      obtain ⟨hdone, hactive⟩ := h.active i m hi
      refine ⟨hdone, ?_⟩
      by_cases hm : m = n
      · subst hm
        rw [exchangesOf_append_self hcharges]
        refine hactive.append ?_
        intro x hx
        rcases k.exchangesOf_eq u l.session.accessory.target with hnone | ⟨y, hy, hone⟩
        · rw [hnone] at hx
          cases hx
        · rw [hone, List.mem_singleton] at hx
          rw [hx]
          exact hy
      · rw [exchangesOf_append_of_ne hcharges hm]
        exact hactive
    case gone =>
      intro m reply hreply hgone
      have hm : m ≠ n := by
        rintro rfl
        exact hgone slot ht
      rw [exchangesOf_append_of_ne hcharges hm]
      exact h.gone m reply hreply hgone

/-- A keyboard that enrols begins its life; one that is refused has no more of it. -/
theorem enrol (h : l.Sound) {slot : Nat} (ht : l.tenant slot = none) : (l.enrol slot).Sound := by
  have hk := h.free_of_tenant ht
  have hcharges := charges_enrol hk
  have hlog := Session.exchanges_register hk
  have hregistrations : (l.enrol slot).registrations = l.registrations ++ [(l.session.register slot).1] := rfl
  have hlength : (l.enrol slot).registrations.length = l.registrations.length + 1 := by
    rw [hregistrations, List.length_append, List.length_singleton]
  have hnew : (l.enrol slot).exchangesOf l.registrations.length =
      [setUp (Accessory.setup accessoryId Descriptor.keyboard l.session.accessory).1] := by
    rw [exchangesOf_append_self hcharges, h.exchangesOf_length]
    rfl
  constructor
  case accounted => exact h.accounted_append hcharges hlog
  case charged_lt => exact h.charged_append hcharges (by omega) (by omega)
  case tenant_isSome =>
    intro i
    rw [tenant_enrol]
    by_cases his : i = slot
    · rw [if_pos his, his, Option.isSome_map]
      rfl
    · rw [if_neg his, h.tenant_isSome i, ← Session.getElem?_register_of_ne l.session his]
      rfl
  case tenant_inj =>
    intro i j m hi hj
    rcases tenant_enrol_eq_some hi with ⟨hislot, hm⟩ | ⟨-, hi'⟩
    · rcases tenant_enrol_eq_some hj with ⟨hjslot, -⟩ | ⟨-, hj'⟩
      · exact hislot.trans hjslot.symm
      · exact absurd (h.lt_of_tenant hj') (by omega)
    · rcases tenant_enrol_eq_some hj with ⟨-, hm⟩ | ⟨-, hj'⟩
      · exact absurd (h.lt_of_tenant hi') (by omega)
      · exact h.tenant_inj i j m hi' hj'
  case active =>
    intro i m hi
    rcases tenant_enrol_eq_some hi with ⟨rfl, rfl⟩ | ⟨-, hm⟩
    · rcases Session.register_cases hk with ⟨hx, hreply, -⟩ | ⟨e, -, -, hnone⟩
      · rw [hnew, hx, hregistrations, hreply, List.getElem?_concat_length]
        exact ⟨rfl, active_setUp⟩
      · rw [tenant_enrol, if_pos rfl, hnone] at hi
        cases hi
    · have hlt := h.lt_of_tenant hm
      rw [hregistrations, List.getElem?_append_left hlt, exchangesOf_append_of_ne hcharges (Nat.ne_of_lt hlt)]
      exact h.active i m hm
  case gone =>
    intro m reply hreply hgone
    by_cases hm : m = l.registrations.length
    -- the new keyboard is in no slot only when it was refused
    · rw [hm, hregistrations, List.getElem?_concat_length] at hreply
      rw [hm, hnew]
      rcases Session.register_cases hk with ⟨-, -, hsome⟩ | ⟨e, hx, hfailed, -⟩
      · refine absurd ?_ (hgone slot)
        rw [tenant_enrol, if_pos rfl, hsome, hm]
        rfl
      · rw [hx]
        exact Or.inl ⟨(Option.some.inj hreply).symm.trans hfailed, e, rfl⟩
    · have hlt : m < l.registrations.length := by
        have := (List.getElem?_eq_some_iff.mp hreply).1
        omega
      rw [hregistrations, List.getElem?_append_left hlt] at hreply
      rw [exchangesOf_append_of_ne hcharges hm]
      refine h.gone m reply hreply ?_
      intro i hi
      refine hgone i ?_
      have his : i ≠ slot := by
        rintro rfl
        rw [ht] at hi
        cases hi
      rw [tenant_enrol, if_neg his]
      exact hi

/-! ## Steps -/

theorem step (h : l.Sound) (slot : Nat) (st : Step) : (l.step slot st).Sound := by
  cases st with
  | register =>
    refine (h.leave slot).enrol ?_
    rw [tenant_leave, if_pos rfl]
  | vacate => exact h.leave slot
  | use u => exact h.use slot u

theorem run (h : l.Sound) (steps : List (Nat × Step)) : (l.run steps).Sound := by
  induction steps generalizing l with
  | nil => exact h
  | cons p steps ih => exact ih (h.step p.1 p.2)

theorem leaves (h : l.Sound) (slots : List Nat) : (slots.foldl Ledger.leave l).Sound := by
  induction slots generalizing l with
  | nil => exact h
  | cons slot slots ih => exact ih (h.leave slot)

theorem close (h : l.Sound) : l.close.Sound := h.leaves _

/-- A keyboard was refused, or it is in a slot, or it has been taken off; the session's end finds it refused or taken off. -/
theorem lives (h : l.Sound) {n : Nat} {reply : Reply} (hreply : l.registrations[n]? = some reply) :
    reply = .failed .registration ∧ (∀ slot, l.tenant slot ≠ some n) ∧ Refused (l.exchangesOf n) ∧
        Refused (l.close.exchangesOf n) ∨
      reply = .done ∧ (∃ slot, l.tenant slot = some n) ∧ Active (l.exchangesOf n) ∧ Ended (l.close.exchangesOf n) ∨
      reply = .done ∧ (∀ slot, l.tenant slot ≠ some n) ∧ Ended (l.exchangesOf n) ∧ Ended (l.close.exchangesOf n) := by
  have hempty : ∀ slot : Nat, l.close.session.keyboards[slot]? = none := by
    rw [session_close]
    exact Session.getElem?_close l.session
  have hsettled := h.close.settled hempty ((congrArg (·[n]?) (registrations_close l)).trans hreply)
  by_cases ht : ∃ slot, l.tenant slot = some n
  · obtain ⟨slot, hslot⟩ := ht
    obtain ⟨hdone, hactive⟩ := h.active slot n hslot
    obtain rfl : reply = .done := Option.some.inj (hreply.symm.trans hdone)
    rcases hsettled with ⟨hne, -⟩ | ⟨-, hended⟩
    · cases hne
    · exact Or.inr (Or.inl ⟨rfl, ⟨slot, hslot⟩, hactive, hended⟩)
  · have hgone : ∀ slot, l.tenant slot ≠ some n := fun slot hslot => ht ⟨slot, hslot⟩
    rcases h.gone n reply hreply hgone with ⟨rfl, hrefused⟩ | ⟨rfl, hended⟩
    · rcases hsettled with ⟨-, hrefused'⟩ | ⟨hne, -⟩
      · exact Or.inl ⟨rfl, hgone, hrefused, hrefused'⟩
      · cases hne
    · rcases hsettled with ⟨hne, -⟩ | ⟨-, hended'⟩
      · cases hne
      · exact Or.inr (Or.inr ⟨rfl, hgone, hended, hended'⟩)

end Sound

/-! ## Whole sessions -/

variable [Accessory α]

/-- On any accessory, after any steps of a session that begins, in six parts.
1. The ledger is of this session: it has its state, before and after the session is closed, and the replies of its registrations.
2. Every exchange in the log is charged to one of the keyboards that were registered, in order.
3. A slot has a tenant just when a keyboard is in it, and no two slots have the same.
4. A keyboard that was refused has made that one call. Any other is in a slot, with its set-up and reports of eight bytes so far,
   or it has been taken off, which was its last call. When the session is closed all have been taken off.
5. As many set-ups were accepted as devices were taken off and keyboards are left; when the session is closed none is left.
6. If there was at most one keyboard after each of the steps, every call but a set-up was made while the number was registered. -/
theorem registration_lifecycle (a : α) (steps : List (Nat × Step)) :
    let s : Session (Logged α) := { accessory := { target := a } }
    let l := (Ledger.begin a).run steps
    let log := l.session.accessory.exchanges
    let closed := l.close.session.accessory.exchanges
    (l.session = (s.record steps).2 ∧ l.close.session = (s.record steps).2.close ∧
      l.registrations = (steps.zip (s.record steps).1).filterMap fun p => p.2.registration? p.1.2) ∧
    (l.charges.map Prod.snd = log ∧ l.close.charges.map Prod.snd = closed ∧
      ∀ c ∈ l.close.charges, c.1 < l.registrations.length) ∧
    ((∀ slot, (l.tenant slot).isSome = l.session.keyboards[slot]?.isSome) ∧
      ∀ i j n, l.tenant i = some n → l.tenant j = some n → i = j) ∧
    (∀ n reply, l.registrations[n]? = some reply →
      reply = .failed .registration ∧ (∀ slot, l.tenant slot ≠ some n) ∧ Refused (l.exchangesOf n) ∧
          Refused (l.close.exchangesOf n) ∨
        reply = .done ∧ (∃ slot, l.tenant slot = some n) ∧ Active (l.exchangesOf n) ∧ Ended (l.close.exchangesOf n) ∨
        reply = .done ∧ (∀ slot, l.tenant slot ≠ some n) ∧ Ended (l.exchangesOf n) ∧ Ended (l.close.exchangesOf n)) ∧
    (log.countP Exchange.opens = log.countP Exchange.closes + l.session.keyboards.size ∧
      closed.countP Exchange.opens = closed.countP Exchange.closes ∧ l.close.session.keyboards.size = 0) ∧
    ((∀ i, (s.record (steps.take i)).2.keyboards.size ≤ 1) → InOrder closed) := by
  intro s l log closed
  have hsound : l.Sound := (Sound.begin a).run steps
  have hsession : l.session = (s.record steps).2 := session_run (Ledger.begin a) steps
  have hbalanced : l.session.Balanced := by
    rw [hsession]
    exact Session.balanced_record (Session.balanced_begin a) steps
  have hclosed : l.close.session = l.session.close := session_close l
  refine ⟨⟨hsession, by rw [hclosed, hsession], registrations_run (Ledger.begin a) steps⟩,
    ⟨hsound.accounted, hsound.close.accounted, ?charged⟩, ⟨hsound.tenant_isSome, hsound.tenant_inj⟩,
    fun n reply hreply => hsound.lives hreply, ?balance, ?order⟩
  case charged =>
    rw [← registrations_close l]
    exact hsound.close.charged_lt
  case balance =>
    have hsize : l.close.session.keyboards.size = 0 := by
      rw [hclosed]
      exact Session.size_close l.session
    have hbalanced' : l.close.session.Balanced := by
      rw [hclosed]
      exact Session.balanced_leaves hbalanced _
    unfold Session.Balanced at hbalanced'
    rw [hsize] at hbalanced'
    exact ⟨hbalanced, hbalanced', hsize⟩
  case order =>
    intro hone
    have horderly : (s.record steps).2.Orderly := Session.orderly_record (Session.orderly_begin a) steps hone
    have hsize : (s.record steps).2.keyboards.size ≤ 1 := by
      have := hone steps.length
      rwa [List.take_length] at this
    have hlog : closed = (s.record steps).2.close.accessory.exchanges := by rw [← hsession, ← hclosed]
    rw [hlog]
    exact (Session.orderly_leaves horderly hsize _).in_order

/-- `registration_lifecycle` on an accessory that refuses every report and every request to take a keyboard off: one that is
replaced after a lost report has ended its life all the same, and no call came while the number was free. -/
theorem registration_lifecycle_replaced :
    let steps : List (Nat × Step) := [(0, .register), (0, .use (.respondAndSend (.down ⟨4⟩ ∅))), (0, .register)]
    let script : Script := { push := .refused .transfer, unregister := .refused .transfer }
    let s : Session (Logged Script) := { accessory := { target := script } }
    (∀ i, (s.record (steps.take i)).2.keyboards.size ≤ 1) ∧
      Ended (((Ledger.begin script).run steps).close.exchangesOf 0) ∧
      InOrder ((Ledger.begin script).run steps).close.session.accessory.exchanges := by
  intro steps script s
  have hone : ∀ i, (s.record (steps.take i)).2.keyboards.size ≤ 1 := by
    intro i
    rcases i with _ | _ | _ | i
    · decide
    · decide
    · decide
    · rw [List.take_of_length_le (Nat.le_add_left 3 i)]
      decide
  obtain ⟨-, -, -, hlives, -, horder⟩ := registration_lifecycle script steps
  refine ⟨hone, ?_, horder hone⟩
  rcases hlives 0 .done rfl with ⟨hfailed, -⟩ | ⟨-, -, -, hended⟩ | ⟨-, -, -, hended⟩
  · cases hfailed
  · exact hended
  · exact hended

end Ledger

end BootKeyboard
