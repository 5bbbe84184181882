import BootKeyboard.Mods.Text
import BootKeyboard.Proofs.Mods.Parts

/-!
# Reading the text of a set of flags

The text of a set names its parts: a word for each named flag, and a number for the bits without a name. It can be read: the text
between the brackets is cut at the bars (`ofBody`), and each word is taken for the part that it stands for (`ofWord`). Names are
told from numbers by their first letter, and no word has a blank or a bar in it, so what is read is the set that was written
(`ofBody_body`). The main statement is `parts_and_text_faithful`.
-/

namespace BootKeyboard

/-! ## Numbers -/

/-- The sixteen digits, in order of what they stand for. -/
def hexDigits : List Char := "0123456789abcdef".toList

/-- The number that is written in hexadecimal digits. -/
def ofHexDigits (cs : List Char) : Nat := cs.foldl (fun n c => 16 * n + hexDigits.idxOf c) 0

theorem idxOf_digitChar {d : Nat} (h : d < 16) : hexDigits.idxOf d.digitChar = d := by
  have hall : ∀ d : Fin 16, hexDigits.idxOf (d : Nat).digitChar = d := by decide
  exact hall ⟨d, h⟩

theorem digitChar_mem {d : Nat} (h : d < 16) : d.digitChar ∈ hexDigits := by
  have hall : ∀ d : Fin 16, (d : Nat).digitChar ∈ hexDigits := by decide
  exact hall ⟨d, h⟩

/-- A number is read as it was written. -/
theorem ofHexDigits_toDigits (n : Nat) : ofHexDigits (Nat.toDigits 16 n) = n := by
  induction n using Nat.strongRecOn with
  | ind n ih =>
    by_cases h : n < 16
    · rw [Nat.toDigits_of_lt_base h, ofHexDigits, List.foldl_cons, List.foldl_nil, idxOf_digitChar h]
      omega
    · have hlast : n % 16 < 16 := Nat.mod_lt n (by decide)
      rw [Nat.toDigits_of_base_le (by decide) (Nat.le_of_not_lt h), ofHexDigits, List.foldl_append, ← ofHexDigits,
        ih (n / 16) (by omega), List.foldl_cons, List.foldl_nil, idxOf_digitChar hlast]
      omega

theorem mem_hexDigits_of_mem_toDigits {n : Nat} {c : Char} (hc : c ∈ Nat.toDigits 16 n) : c ∈ hexDigits := by
  induction n using Nat.strongRecOn with
  | ind n ih =>
    by_cases h : n < 16
    · rw [Nat.toDigits_of_lt_base h, List.mem_singleton] at hc
      rw [hc]
      exact digitChar_mem h
    · rw [Nat.toDigits_of_base_le (by decide) (Nat.le_of_not_lt h), List.mem_append, List.mem_singleton] at hc
      rcases hc with hc | rfl
      · exact ih (n / 16) (by omega) hc
      · exact digitChar_mem (Nat.mod_lt n (by decide))

theorem toList_hexText (n : Nat) : (hexText n).toList = '0' :: 'x' :: Nat.toDigits 16 n := by
  simp [hexText]

/-! ## Cutting -/

/-- The words of a text: it is cut at the bars, and blanks do not count. -/
def cutWords (s : String) : List String := ((s.toList.filter (· != ' ')).splitOn '|').map String.ofList

theorem filter_intercalate {α : Type} (p : α → Bool) (sep : List α) (ls : List (List α)) :
    (sep.intercalate ls).filter p = (sep.filter p).intercalate (ls.map (List.filter p)) := by
  induction ls with
  | nil => rfl
  | cons l ls ih =>
    cases ls with
    | nil => simp
    | cons l' ls =>
      rw [List.intercalate_cons_cons, List.filter_append, List.filter_append, ih]
      simp only [List.map_cons, List.intercalate_cons_cons]

/-- A word without blanks and bars. -/
def Plain (w : String) : Prop := ∀ c ∈ w.toList, c ≠ ' ' ∧ c ≠ '|'

instance (w : String) : Decidable (Plain w) := List.decidableBAll _ w.toList

/-- Plain words that were joined by bars are cut out again. -/
theorem cutWords_intercalate {ws : List String} (hne : ws ≠ []) (hplain : ∀ w ∈ ws, Plain w) :
    cutWords (" | ".intercalate ws) = ws := by
  have hwords : ∀ w ∈ ws, w.toList.filter (· != ' ') = w.toList := by
    intro w hw
    refine List.filter_eq_self.mpr fun c hc => ?_
    exact bne_iff_ne.mpr (hplain w hw c hc).1
  have hjoined : (" | ".intercalate ws).toList.filter (· != ' ') = ['|'].intercalate (ws.map String.toList) := by
    rw [String.toList_intercalate, filter_intercalate, List.map_map]
    exact congrArg ['|'].intercalate (List.map_congr_left hwords)
  have hbar : ∀ l ∈ ws.map String.toList, '|' ∉ l := by
    intro l hl
    obtain ⟨w, hw, rfl⟩ := List.mem_map.mp hl
    exact fun hc => (hplain w hw '|' hc).2 rfl
  rw [cutWords, hjoined, List.splitOn_intercalate '|' hbar (by simpa using hne), List.map_map]
  exact (List.map_congr_left fun w _ => String.ofList_toList).trans (List.map_id ws)

namespace Mods

/-! ## Words -/

/-- The part that a word stands for: a flag by its name, else the bits of a number that follows two marking letters. -/
def ofWord (w : String) : Mods :=
  match Flag.ofName? w with
  | some f => f.mods
  | none => ⟨(ofHexDigits (w.toList.drop 2)).toUInt16⟩

theorem ofWord_name (f : Flag) : ofWord f.name = f.mods := by cases f <;> decide

theorem ofName?_hexText (n : Nat) : Flag.ofName? (hexText n) = none := by
  have hletter : ∀ f : Flag, f.name.toList.head? ≠ some '0' := by
    intro f
    cases f <;> decide
  refine List.find?_eq_none.mpr fun f _ hf => hletter f ?_
  rw [beq_iff_eq.mp hf, toList_hexText]
  rfl

theorem ofWord_hexText (bits : UInt16) : ofWord (hexText bits.toNat) = ⟨bits⟩ := by
  have hread : ofHexDigits ((hexText bits.toNat).toList.drop 2) = bits.toNat := by
    rw [toList_hexText]
    exact ofHexDigits_toDigits bits.toNat
  rw [ofWord, ofName?_hexText]
  exact congrArg Mods.mk ((congrArg Nat.toUInt16 hread).trans UInt16.ofNat_toNat)

/-- The words of a set stand for its parts. -/
theorem map_ofWord_words (m : Mods) : m.words.map ofWord = m.parts := by
  rw [words, parts, List.map_append, List.map_map]
  refine congrArg₂ _ (List.map_congr_left fun f _ => ofWord_name f) ?_
  cases m.unknown.isEmpty with
  | true => rfl
  | false => exact congrArg (fun p => [p]) (ofWord_hexText m.unknown.bits)

theorem words_eq_nil_iff {m : Mods} : m.words = [] ↔ m.bits = 0 := by
  constructor
  · intro h
    have hparts : m.parts = [] := by rw [← map_ofWord_words, h, List.map_nil]
    rw [← foldl_parts m, hparts]
    rfl
  · intro h
    rw [show m = ∅ from Mods.ext h]
    rfl

theorem plain_name (f : Flag) : Plain f.name := by
  cases f <;> decide

theorem plain_hexText (n : Nat) : Plain (hexText n) := by
  have hdigits : Plain (String.ofList ('0' :: 'x' :: hexDigits)) := by decide
  intro c hc
  rw [toList_hexText] at hc
  refine hdigits c ?_
  rw [String.toList_ofList]
  simp only [List.mem_cons] at hc ⊢
  exact hc.imp_right (Or.imp_right mem_hexDigits_of_mem_toDigits)

theorem plain_of_mem_words {m : Mods} {w : String} (hw : w ∈ m.words) : Plain w := by
  rcases List.mem_append.mp hw with hw | hw
  · obtain ⟨f, -, rfl⟩ := List.mem_map.mp hw
    exact plain_name f
  · split at hw
    · cases hw
    · rw [List.mem_singleton.mp hw]
      exact plain_hexText _

/-! ## The text -/

/-- The set that is written between the brackets of a text. -/
def ofBody (s : String) : Mods := ((cutWords s).map ofWord).foldl (· ∪ ·) ∅

/-- What is written of a set is read as this set. -/
theorem ofBody_body (m : Mods) : ofBody m.body = m := by
  rw [ofBody, body]
  by_cases h : m.words = []
  · have hcut := cutWords_intercalate (List.cons_ne_nil (hexText 0) []) fun w hw => List.mem_singleton.mp hw ▸ plain_hexText 0
    have hzero : ofWord (hexText 0) = ∅ := ofWord_hexText 0
    rw [String.intercalate_singleton] at hcut
    rw [if_pos (List.isEmpty_iff.mpr h), hcut, List.map_singleton, hzero]
    exact Mods.ext (words_eq_nil_iff.mp h).symm
  · rw [if_neg (mt List.isEmpty_iff.mp h), cutWords_intercalate h fun w => plain_of_mem_words, map_ofWord_words, foldl_parts]

theorem text_inj {a b : Mods} : a.text = b.text ↔ a = b := by
  constructor
  · intro h
    have hbody : a.body = b.body := by rwa [text, text, String.append_left_inj, String.append_right_inj] at h
    rw [← ofBody_body a, hbody, ofBody_body]
  · rintro rfl
    rfl

/-! ## The main statement -/

/-- A set of flags is told by its parts, and by its text, in three parts.
1. The parts of a set are its named flags, lowest bit first, and its bits without a name, if there are any. No two of them share a
   bit, all their bits together are the bits of the set, and all their modifier bytes together are its modifier byte; the bits
   without a name give nothing to it.
2. The text names the flags of the set, lowest bit first, with bars between them, and writes its bits without a name as a number at
   the end. The number zero stands for a set without bits.
3. Sets with the same text are the same. -/
theorem parts_and_text_faithful :
    (∀ m : Mods,
      m.parts = (Flag.all.filter fun f => m.bits &&& f.mask ≠ 0).map Flag.mods ++
          (if m.bits &&& 0x803C = 0 then [] else [⟨m.bits &&& 0x803C⟩]) ∧
        ((Flag.all.filter fun f => m.bits &&& f.mask ≠ 0).map Flag.mask).Pairwise (· < ·) ∧
        (m.parts.Pairwise fun p q => p.bits &&& q.bits = 0) ∧
        m.parts.foldl (fun x p => x ||| p.bits) 0 = m.bits ∧
        m.parts.foldl (fun x p => x ||| p.modifierByte) 0 = m.modifierByte ∧
        modifierByte ⟨m.bits &&& 0x803C⟩ = 0) ∧
    (∀ m : Mods, m.text = "KeyMods(" ++
      (if m.bits = 0 then "0x0"
        else " | ".intercalate ((Flag.all.filter fun f => m.bits &&& f.mask ≠ 0).map Flag.name ++
          (if m.bits &&& 0x803C = 0 then [] else ["0x" ++ String.ofList (Nat.toDigits 16 (m.bits &&& 0x803C).toNat)]))) ++ ")") ∧
    ∀ a b : Mods, a.text = b.text ↔ a = b := by
  refine ⟨fun m => ⟨?parts, ?ascending, ?apart, ?bits, ?byte, ?rest⟩, fun m => ?text, fun _ _ => text_inj⟩
  case parts =>
    rw [parts, flags_eq, unknown_eq]
    simp only [isEmpty_iff_bits]
  case ascending =>
    rw [← flags_eq]
    exact pairwise_mask_flags m
  case apart => exact (pairwise_parts m).imp fun h => congrArg Mods.bits h
  case bits =>
    have hbits := congrArg Mods.bits (foldl_parts m)
    rwa [bits_foldl_union] at hbits
  case byte =>
    have hbyte := congrArg modifierByte (foldl_parts m)
    rwa [modifierByte_foldl_union] at hbyte
  case rest =>
    rw [← unknown_eq]
    exact modifierByte_unknown m
  case text =>
    have hzero : hexText 0 = "0x0" := by decide
    have hwords : m.words = (Flag.all.filter fun f => m.bits &&& f.mask ≠ 0).map Flag.name ++
        (if m.bits &&& 0x803C = 0 then [] else [hexText (m.bits &&& 0x803C).toNat]) := by
      rw [words, flags_eq, unknown_eq]
      simp only [isEmpty_iff_bits]
    rw [text, body, hzero, ← hexText, ← hwords]
    simp only [List.isEmpty_iff, words_eq_nil_iff]

example : (Mods.mk 0x2001).text = "KeyMods(LSHIFT | CAPS)" := by decide

example : (Mods.mk 0x803D).text = "KeyMods(LSHIFT | 0x803c)" := by decide

example : (∅ : Mods).text = "KeyMods(0x0)" := by decide

end Mods

end BootKeyboard
