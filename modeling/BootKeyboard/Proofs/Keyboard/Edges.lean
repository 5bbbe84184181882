import BootKeyboard.Proofs.Keyboard.History
import BootKeyboard.Proofs.Report.Distinction

/-!
# The edge of an event

Every report lists all held keys anew, and the host sees what moved by comparing it with the report before. As long as both tables
fit into the slots the two lists differ by the key of the event and by nothing else (`listed_of_respond`), although that key
shifts the others from slot to slot. At six keys the next press turns all slots into a roll-over, and at seven the next release
brings the other six back. The main statement is `respond_makes_own_edge`.
-/

namespace BootKeyboard

/-! ## What is listed -/

/-- The usages that a report lists. Zero in a slot stands for no key. -/
def Report.listed (r : Report) : Finset Nat := (r.slots.toList.map UInt8.toNat).toFinset.erase 0

/-- What an event alone does to the listed usages: the press of a key that can be listed puts its usage in, the release takes it
out, and the key with code zero and the modifier keys have no usage there. -/
def KeyEvent.edge (e : KeyEvent) (listed : Finset Nat) : Finset Nat :=
  if 1 ≤ e.scancode.code.toNat ∧ e.scancode.code.toNat ≤ 100 then
    match e.action with
    | .down => insert e.scancode.code.toNat listed
    | .up => listed.erase e.scancode.code.toNat
  else listed

namespace Report

theorem listed_ofHeld {m : UInt8} {k : HeldKeys} (h : k.count ≤ 6) : (ofHeld m k).listed = k.keys.erase 0 := by
  ext c
  rw [listed, (ofHeld_fields m k).2.2, Finset.mem_erase, Finset.mem_erase, List.mem_toFinset, HeldKeys.mem_keys]
  exact and_congr_right fun hc => mem_slotsOf h hc

/-- Six keys fill the slots. -/
theorem toNat_slotsOf_of_count_eq {k : HeldKeys} (h : k.count = 6) : (slotsOf k.keys).map UInt8.toNat = k.keys.sort := by
  rw [slotsOf_of_le (Nat.le_of_eq h), h, ← HeldKeys.toNat_codes]
  simp

end Report

namespace KeyEvent

theorem isDown_eq_false_iff {e : KeyEvent} : e.isDown = false ↔ e.action = .up := by
  unfold isDown
  cases e.action <;> decide

/-- Setting the key of an event in a table is the edge of the event on the usages that the table calls for. -/
theorem keys_set_erase_zero (e : KeyEvent) (k : HeldKeys) :
    (k.set e.scancode.code.toNat e.isDown).keys.erase 0 = e.edge (k.keys.erase 0) := by
  unfold edge
  generalize e.scancode.code.toNat = c
  cases ha : e.action with
  | down =>
    have hdown : e.isDown = true := isDown_iff.mpr ha
    rw [hdown, HeldKeys.keys_set_true]
    by_cases hc : c < 101
    · by_cases h0 : c = 0
      · subst h0
        simp
      · rw [if_pos hc, if_pos (by omega), Finset.erase_insert_of_ne h0]
    · rw [if_neg hc, if_neg (by omega)]
  | up =>
    have hup : e.isDown = false := isDown_eq_false_iff.mpr ha
    rw [hup, HeldKeys.keys_set_false]
    by_cases hc : c < 101
    · by_cases h0 : c = 0
      · subst h0
        simp
      · rw [if_pos hc, if_pos (by omega), Finset.erase_right_comm]
    · rw [if_neg hc, if_neg (by omega)]

/-- No key but that of the event is touched by its edge. -/
theorem mem_edge_of_ne {e : KeyEvent} {c : Nat} (hc : c ≠ e.scancode.code.toNat) (listed : Finset Nat) :
    c ∈ e.edge listed ↔ c ∈ listed := by
  unfold edge
  split
  · cases e.action <;> simp [hc]
  · exact Iff.rfl

end KeyEvent

namespace Keyboard

open HeldKeys

/-! ## The report before and the report after -/

/-- The report that is given for an event, and what is held then. -/
theorem respond_eq_some {k k' : Keyboard} {e : KeyEvent} {r : Report} (h : k.respond e = (some r, k')) :
    r = .ofHeld e.mods.modifierByte k'.held ∧ k'.held = k.held.set e.scancode.code.toNat e.isDown := by
  by_cases he : e.IsReported
  · rw [respond_of_isReported he, Prod.mk.injEq, Option.some.injEq] at h
    obtain ⟨rfl, rfl⟩ := h
    exact ⟨rfl, rfl⟩
  · rw [respond_of_not he] at h
    nomatch congrArg Prod.fst h

theorem listed_of_respond {k k' : Keyboard} {e : KeyEvent} {r : Report} (h : k.respond e = (some r, k'))
    (hk : k.held.count ≤ 6) (hk' : k'.held.count ≤ 6) (m₀ : UInt8) :
    r.listed = e.edge (Report.ofHeld m₀ k.held).listed := by
  obtain ⟨rfl, hheld⟩ := respond_eq_some h
  rw [Report.listed_ofHeld hk', Report.listed_ofHeld hk, hheld, KeyEvent.keys_set_erase_zero]

theorem slots_of_seventh_press {k k' : Keyboard} {e : KeyEvent} {r : Report} (h : k.respond e = (some r, k'))
    (hk : k.held.count = 6) (hdown : e.action = .down) (hkey : e.scancode.code.toNat < 101)
    (hnew : k.held.isHeld e.scancode.code.toNat = false) : r.slots.toList = List.replicate 6 1 := by
  obtain ⟨rfl, hheld⟩ := respond_eq_some h
  have hseven : k'.held.count = 7 := by
    rw [hheld, KeyEvent.isDown_iff.mpr hdown, count_set_true hkey hnew, hk]
  rw [(Report.ofHeld_fields _ _).2.2]
  exact Report.slotsOf_of_gt (by omega)

theorem slots_of_release_from_seven {k k' : Keyboard} {e : KeyEvent} {r : Report} (h : k.respond e = (some r, k'))
    (hk : k.held.count = 7) (hup : e.action = .up) (hheld : k.held.isHeld e.scancode.code.toNat = true) :
    r.slots.toList.map UInt8.toNat = (k.held.keys.erase e.scancode.code.toNat).sort := by
  obtain ⟨rfl, hset⟩ := respond_eq_some h
  have hrel : e.isDown = false := KeyEvent.isDown_eq_false_iff.mpr hup
  have hkey : e.scancode.code.toNat < 101 := lt_of_isHeld hheld
  have hsix : k'.held.count = 6 := by rw [hset, hrel, count_set_false hheld, hk]
  rw [(Report.ofHeld_fields _ _).2.2, Report.toNat_slotsOf_of_count_eq hsix, hset, hrel, keys_set_false, if_pos hkey]

/-- The report that is given for an event tells of this event alone, whatever is held on the keyboard and whichever modifier byte
the report before it had, in three parts.
1. When at most six keys are held before and after the event, what is listed changes by the edge of the event, so no other key
   seems to be pressed or released.
2. When six keys are held and the event presses another, all six slots hold the roll-over usage.
3. When seven keys are held and the event releases one of them, the slots hold the other six in ascending order. -/
theorem respond_makes_own_edge {k k' : Keyboard} {e : KeyEvent} {r : Report} (h : k.respond e = (some r, k')) (m₀ : UInt8) :
    let c := e.scancode.code.toNat
    (k.held.count ≤ 6 → k'.held.count ≤ 6 →
      r.listed = e.edge (Report.ofHeld m₀ k.held).listed ∧
        ∀ d, d ≠ c → (d ∈ r.listed ↔ d ∈ (Report.ofHeld m₀ k.held).listed)) ∧
    (k.held.count = 6 → e.action = .down → c < 101 → k.held.isHeld c = false → r.slots.toList = List.replicate 6 1) ∧
    (k.held.count = 7 → e.action = .up → k.held.isHeld c = true →
      (r.slots.toList.map UInt8.toNat).Pairwise (· < ·) ∧
        ∀ d, d ∈ r.slots.toList.map UInt8.toNat ↔ d ≠ c ∧ k.held.isHeld d = true) := by
  intro c
  refine ⟨?_, ?_, ?_⟩
  · intro hk hk'
    have hlisted := listed_of_respond h hk hk' m₀
    refine ⟨hlisted, ?_⟩
    intro d hd
    rw [hlisted, KeyEvent.mem_edge_of_ne hd]
  · intro hk hdown hkey hnew
    exact slots_of_seventh_press h hk hdown hkey hnew
  · intro hk hup hheld
    rw [slots_of_release_from_seven h hk hup hheld]
    refine ⟨(Finset.sortedLT_sort _).pairwise, ?_⟩
    intro d
    rw [Finset.mem_sort, Finset.mem_erase, mem_keys]

/-- The usage of the roll-over is also that of a key. Pressed beside the key with code zero and another, this key joins the list;
pressed beside six others it turns every slot into a roll-over, in which the same usage stands for no key; and a release of one
of the seven brings the other six back. -/
theorem respond_makes_own_edge_at_usage_one :
    let pressed (cs : List UInt16) : Keyboard := (⟨∅⟩ : Keyboard).afterAll (cs.map fun c => .respond (.down ⟨c⟩ ∅))
    (∃ r k', (pressed [0, 5]).respond (.down ⟨1⟩ ∅) = (some r, k') ∧
      (pressed [0, 5]).held.count ≤ 6 ∧ k'.held.count ≤ 6 ∧
      r.listed = KeyEvent.edge (.down ⟨1⟩ ∅) (Report.ofHeld 0 (pressed [0, 5]).held).listed) ∧
    (∃ r k', (pressed [4, 5, 6, 7, 8, 9]).respond (.down ⟨1⟩ ∅) = (some r, k') ∧
      (pressed [4, 5, 6, 7, 8, 9]).held.count = 6 ∧ (pressed [4, 5, 6, 7, 8, 9]).held.isHeld 1 = false ∧
      r.slots.toList = List.replicate 6 1) ∧
    ∃ r k', (pressed [4, 5, 6, 7, 8, 9, 1]).respond (.up ⟨7⟩ ∅) = (some r, k') ∧
      (pressed [4, 5, 6, 7, 8, 9, 1]).held.count = 7 ∧ (pressed [4, 5, 6, 7, 8, 9, 1]).held.isHeld 7 = true ∧
      (r.slots.toList.map UInt8.toNat).Pairwise (· < ·) ∧
      ∀ d, d ∈ r.slots.toList.map UInt8.toNat ↔ d ≠ 7 ∧ (pressed [4, 5, 6, 7, 8, 9, 1]).held.isHeld d = true := by
  intro pressed
  obtain ⟨r₁, k₁, h₁⟩ : ∃ r k', (pressed [0, 5]).respond (.down ⟨1⟩ ∅) = (some r, k') :=
    ⟨_, _, respond_of_isReported (by decide) _⟩
  obtain ⟨r₂, k₂, h₂⟩ : ∃ r k', (pressed [4, 5, 6, 7, 8, 9]).respond (.down ⟨1⟩ ∅) = (some r, k') :=
    ⟨_, _, respond_of_isReported (by decide) _⟩
  obtain ⟨r₃, k₃, h₃⟩ : ∃ r k', (pressed [4, 5, 6, 7, 8, 9, 1]).respond (.up ⟨7⟩ ∅) = (some r, k') :=
    ⟨_, _, respond_of_isReported (by decide) _⟩
  have htwo : (pressed [0, 5]).held.count ≤ 6 := by decide
  have hthree : k₁.held.count ≤ 6 := by
    have hcount : ((pressed [0, 5]).respond (.down ⟨1⟩ ∅)).2.held.count ≤ 6 := by decide
    rwa [h₁] at hcount
  have hsix : (pressed [4, 5, 6, 7, 8, 9]).held.count = 6 := by decide
  have hnew : (pressed [4, 5, 6, 7, 8, 9]).held.isHeld 1 = false := by decide
  have hseven : (pressed [4, 5, 6, 7, 8, 9, 1]).held.count = 7 := by decide
  have hheld : (pressed [4, 5, 6, 7, 8, 9, 1]).held.isHeld 7 = true := by decide
  refine ⟨⟨r₁, k₁, h₁, htwo, hthree, ?_⟩, ⟨r₂, k₂, h₂, hsix, hnew, ?_⟩, ⟨r₃, k₃, h₃, hseven, hheld, ?_⟩⟩
  · exact ((respond_makes_own_edge h₁ 0).1 htwo hthree).1
  · exact (respond_makes_own_edge h₂ 0).2.1 hsix rfl (by decide) hnew
  · exact (respond_makes_own_edge h₃ 0).2.2 hseven rfl hheld

end Keyboard

end BootKeyboard
