import Mathlib
import Wardrobe.Form.Key
import Wardrobe.Proofs.Text.HexDigits

/-!
# The spellings of form ids

An id is spelled by one to eight hexadecimal digits, of either letter case, with or without a marker
in front and blanks around (`FormId.Spells`).  Eight digits reach exactly as far as 32 bits do
(`FormId.Spells.lt`), so a text is read for the number that it spells, and it is not read if it
spells none (`FormId.toNat_ofText?_eq_some_iff`).  What is written for an id is one of its spellings
(`FormId.spells_toText`).
-/

namespace Wardrobe.FormId

open Text (Trimmed isBlank)

/-- What may stand in front of the digits of an id. -/
def markers : List Text :=
  [[], "0x".toList, "0X".toList]

/-- One to eight digits and the number that they are worth. -/
structure IsNumeral (t : Text) (n : ℕ) : Prop where
  ne_nil : t ≠ []
  length_le : t.length ≤ 8
  digits : ∀ c ∈ t, Text.IsHexDigit c
  value : Text.hexNumber t = n

/-- The spellings of a number as an id: digits behind a marker, with blanks around. -/
def Spells (t : Text) (n : ℕ) : Prop :=
  ∃ marker ∈ markers, ∃ digits, Text.trim t = marker ++ digits ∧ IsNumeral digits n

variable {t digits marker : Text} {n : ℕ} {c : Char} {id : FormId}

/-! ## Reading -/

/-- Eight digits are worth less than 32 bits can hold. -/
lemma IsNumeral.lt (h : IsNumeral digits n) : n < 2 ^ 32 :=
  calc n = Text.hexNumber digits := h.value.symm
    _ < 16 ^ digits.length := Text.hexNumber_lt h.digits
    _ ≤ 16 ^ 8 := Nat.pow_le_pow_right (by decide) h.length_le
    _ = 2 ^ 32 := by decide

/-- A text of the right length is a numeral when it is read as a number. -/
lemma isNumeral_iff : IsNumeral digits n ↔
    ¬ (digits = [] ∨ 8 < digits.length) ∧ Text.natOfHex? digits = some n := by
  rw [not_or, not_lt, Text.natOfHex?_eq_some_iff]
  exact ⟨fun h => ⟨⟨h.ne_nil, h.length_le⟩, h.digits, h.value⟩,
    fun h => ⟨h.1.1, h.1.2, h.2.1, h.2.2⟩⟩

/-- What is dropped in front of the digits is a marker. -/
lemma exists_marker (t : Text) : ∃ marker ∈ markers, t = marker ++ dropMarker t := by
  unfold dropMarker
  split
  · exact ⟨"0x".toList, by decide, rfl⟩
  · exact ⟨"0X".toList, by decide, rfl⟩
  · exact ⟨[], by decide, rfl⟩

/-- No digit is taken for a part of the marker. -/
lemma dropMarker_append (hmarker : marker ∈ markers) (h : IsNumeral digits n) :
    dropMarker (marker ++ digits) = digits := by
  have hbare : dropMarker digits = digits := by
    unfold dropMarker
    split
    · exact absurd (h.digits 'x' (by simp)) (by decide)
    · exact absurd (h.digits 'X' (by simp)) (by decide)
    · rfl
  rw [markers, List.mem_cons, List.mem_cons, List.mem_singleton] at hmarker
  obtain rfl | rfl | rfl := hmarker
  · exact hbare
  · rfl
  · rfl

/-- A text spells a number when what stands behind its marker is a numeral. -/
lemma spells_iff : Spells t n ↔ IsNumeral (dropMarker (Text.trim t)) n := by
  constructor
  · rintro ⟨marker, hmarker, digits, htrim, h⟩
    rwa [htrim, dropMarker_append hmarker h]
  · intro h
    obtain ⟨marker, hmarker, htrim⟩ := exists_marker (Text.trim t)
    exact ⟨marker, hmarker, _, htrim, h⟩

/-- What a text spells fits into 32 bits. -/
lemma Spells.lt (h : Spells t n) : n < 2 ^ 32 :=
  (spells_iff.mp h).lt

/-- A text is read for the number that it spells, and not read if it spells none. -/
lemma toNat_ofText?_eq_some_iff : (ofText? t).map UInt32.toNat = some n ↔ Spells t n := by
  rw [spells_iff, isNumeral_iff, ofText?]
  split
  · next hno => exact iff_of_false nofun fun h => h.1 hno
  · next hlength =>
    rw [and_iff_right hlength, Option.map_map]
    cases hread : Text.natOfHex? (dropMarker (Text.trim t)) with
    | none => exact iff_of_false nofun nofun
    | some m =>
      -- nothing is lost at 32 bits, since the digits do not reach further
      have hlt : m < 2 ^ 32 := IsNumeral.lt (isNumeral_iff.mpr ⟨hlength, hread⟩)
      rw [Option.map_some, Function.comp_apply, UInt32.toNat_ofNat_of_lt' hlt]

/-- A text is read as the id whose number it spells. -/
lemma ofText?_eq_some_iff : ofText? t = some id ↔ Spells t id.toNat := by
  have hinj : Function.Injective UInt32.toNat := fun _ _ => UInt32.toNat_inj.mp
  rw [← toNat_ofText?_eq_some_iff, ← (Option.map_injective hinj).eq_iff, Option.map_some]

/-- A text that spells an id consists of digits, but for the letter of the marker. -/
lemma Spells.isHexDigit_of_mem (h : Spells t n) (hc : c ∈ Text.trim t) :
    Text.IsHexDigit c ∨ c = 'x' ∨ c = 'X' := by
  obtain ⟨marker, hmarker, digits, htrim, hdigits⟩ := h
  rw [htrim, List.mem_append] at hc
  rcases hc with hc | hc
  · have hzero : Text.IsHexDigit '0' := by decide
    rw [markers, List.mem_cons, List.mem_cons, List.mem_singleton] at hmarker
    obtain rfl | rfl | rfl := hmarker
    · cases hc
    · obtain rfl | rfl : c = '0' ∨ c = 'x' := by simpa using hc
      · exact Or.inl hzero
      · exact Or.inr (Or.inl rfl)
    · obtain rfl | rfl : c = '0' ∨ c = 'X' := by simpa using hc
      · exact Or.inl hzero
      · exact Or.inr (Or.inr rfl)
  · exact Or.inl (hdigits.digits c hc)

/-- No delimiter and no mark of a comment is in what is read as an id. -/
lemma plain_of_ofText? (h : ofText? t = some id) :
    ∀ c ∈ Text.trim t, c ≠ '~' ∧ c ≠ '|' ∧ c ≠ ';' ∧ c ≠ '#' := by
  intro c hc
  have hdigit := (ofText?_eq_some_iff.mp h).isHexDigit_of_mem hc
  refine ⟨?_, ?_, ?_, ?_⟩ <;> rintro rfl <;> revert hdigit <;> decide

/-! ## Writing -/

/-- The characters of an id are no blanks, and no tilde is among them. -/
lemma isBlank_of_mem_toText (h : c ∈ id.toText) : isBlank c = false ∧ c ≠ '~' := by
  rw [toText, List.mem_cons, List.mem_cons] at h
  obtain rfl | rfl | h := h
  · decide
  · decide
  · have hdigits : ∀ d < 16, isBlank (Text.hexDigit d) = false ∧ Text.hexDigit d ≠ '~' := by decide
    obtain ⟨d, hd, rfl⟩ := Text.mem_hexOfUInt32 h
    exact hdigits d hd

lemma trimmed_toText (id : FormId) : Trimmed id.toText :=
  ⟨fun _ hc => (isBlank_of_mem_toText (List.mem_of_mem_head? hc)).1,
    fun _ hc => (isBlank_of_mem_toText (List.mem_of_mem_getLast? hc)).1⟩

/-- What is written for an id is a spelling of it. -/
lemma spells_toText (id : FormId) : Spells id.toText id.toNat := by
  obtain ⟨hne, hlength⟩ := Text.length_hexOfUInt32 id
  refine ⟨"0x".toList, by decide, Text.hexOfUInt32 id, Text.trim_eq_self (trimmed_toText id), ?_⟩
  exact isNumeral_iff.mpr ⟨by simp [hne, hlength], Text.natOfHex?_hexOfUInt32 id⟩

/-- An id is read as it was written. -/
lemma ofText?_toText (id : FormId) : ofText? id.toText = some id :=
  ofText?_eq_some_iff.mpr (spells_toText id)

/-- An id is read as it was written.  A text is read exactly when it spells a number, and for that
number: whatever is spelled fits into 32 bits. -/
theorem ofText?_spelled : (∀ id : FormId, ofText? id.toText = some id) ∧
    ∀ t n, ((ofText? t).map UInt32.toNat = some n ↔ Spells t n) ∧ (Spells t n → n < 2 ^ 32) :=
  ⟨ofText?_toText, fun _ _ => ⟨toNat_ofText?_eq_some_iff, Spells.lt⟩⟩

example : ofText? " 0XffffFFFF ".toList = some 0xFFFFFFFF := by decide

end Wardrobe.FormId
