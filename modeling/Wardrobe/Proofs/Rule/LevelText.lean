import Mathlib
import Wardrobe.Proofs.Text.DecimalDigits
import Wardrobe.Proofs.Text.Pieces
import Wardrobe.Rule.Level

/-!
# The grammar of level sections

`Spells` lists the spellings of a level test: a number, two numbers around `/`, or a number followed
by one of these in parentheses.  Blanks may stand around `/`, before the opening parenthesis and
inside the parentheses, nowhere else.  A level section is accepted exactly when each of its entries
is spelled in one of these ways, and then it says what they spell (`listOfText_eq_iff`).
-/

namespace Wardrobe.LevelTest

open Text (IsDigits Trimmed)

/-- A run of decimal digits with a value that is a level. -/
structure IsNumber (t : Text) (n : ℕ) : Prop where
  ne_nil : t ≠ []
  digits : IsDigits t
  value : Nat.ofDigits 10 (t.reverse.map Text.digitValue) = n
  le : n ≤ 65535

/-- Blanks and nothing else. -/
def IsGap (t : Text) : Prop :=
  ∀ c ∈ t, Text.isBlank c = true

/-- One number, or two numbers around a slash, with blanks around each of them. -/
inductive SpellsBounds : Text → ℕ → Option ℕ → Prop
  | low {a m b : Text} {low : ℕ} (ha : IsGap a) (hm : IsNumber m low) (hb : IsGap b) :
      SpellsBounds (a ++ (m ++ b)) low none
  | both {a m b a' n b' : Text} {low high : ℕ} (ha : IsGap a) (hm : IsNumber m low) (hb : IsGap b)
      (ha' : IsGap a') (hn : IsNumber n high) (hb' : IsGap b') :
      SpellsBounds (a ++ (m ++ (b ++ '/' :: (a' ++ (n ++ b'))))) low (some high)

/-- The spellings of a level test. -/
inductive Spells : Text → LevelTest → Prop
  | atLeast {m : Text} {low : ℕ} (hm : IsNumber m low) : Spells m (.atLeast low)
  | between {m b a n : Text} {low high : ℕ} (hm : IsNumber m low) (hb : IsGap b) (ha : IsGap a)
      (hn : IsNumber n high) : Spells (m ++ (b ++ '/' :: (a ++ n))) (.between low high)
  | skill {k b t : Text} {skill low : ℕ} {high? : Option ℕ} (hk : IsNumber k skill) (hb : IsGap b)
      (ht : SpellsBounds t low high?) :
      Spells (k ++ (b ++ '(' :: (t ++ [')']))) (.skill skill low high?)

variable {a b m rest s t : Text} {n low skill : ℕ} {test : LevelTest} {tests : List LevelTest}
  {fault : Fault} {x : Char}

/-! ## Numbers and gaps -/

/-- A number is taken off the front of a text before a character that is no digit. -/
lemma takeNumber?_append (hm : IsNumber m n) (hrest : ∀ c ∈ rest.head?, Text.isDigit c = false) :
    takeNumber? (m ++ rest) = some (n, rest) := by
  have hvalue : Text.natOfDigits m = n := (Text.natOfDigits_eq_ofDigits m).trans hm.value
  have hno : ¬ (m = [] ∨ bound < n) := not_or.mpr ⟨hm.ne_nil, not_lt.mpr hm.le⟩
  simp only [takeNumber?, Text.span_isDigit_append hm.digits hrest, hvalue, if_neg hno]

lemma takeNumber?_self (hm : IsNumber m n) : takeNumber? m = some (n, []) := by
  have hnone : ∀ c ∈ ([] : Text).head?, Text.isDigit c = false := nofun
  have htake := takeNumber?_append hm hnone
  rwa [List.append_nil] at htake

/-- What is taken off the front of a text is a number. -/
lemma exists_of_takeNumber? (h : takeNumber? t = some (n, rest)) :
    ∃ m, t = m ++ rest ∧ IsNumber m n := by
  obtain ⟨ht, hdigits, -⟩ := Text.span_isDigit_spec t
  simp only [takeNumber?] at h
  split at h
  · cases h
  · next hno =>
    rw [not_or, not_lt] at hno
    rw [Option.some.injEq, Prod.mk.injEq] at h
    obtain ⟨hn, hrest⟩ := h
    rw [hn] at hno
    refine ⟨(t.span Text.isDigit).1, hrest ▸ ht, hno.1, hdigits, ?_, hno.2⟩
    rw [← Text.natOfDigits_eq_ofDigits, hn]

/-- Behind a gap a text begins with a character that is no digit, if none of the two ends in one. -/
lemma isDigit_head?_gap (hb : IsGap b) (hx : Text.isDigit x = false) :
    ∀ c ∈ (b ++ x :: rest).head?, Text.isDigit c = false := by
  cases b with
  | nil => exact fun c hc => (Option.mem_some.mp hc) ▸ hx
  | cons d b =>
    exact fun c hc => (Option.mem_some.mp hc) ▸
      Text.isDigit_of_isBlank (hb d List.mem_cons_self)

/-- A gap in front is dropped. -/
lemma trimStart_gap (ha : IsGap a) (hx : Text.isBlank x = false) (t : Text) :
    Text.trimStart (a ++ x :: t) = x :: t := by
  rw [Text.trimStart_append_cons hx, Text.trimStart_eq_nil ha, List.nil_append]

/-- What is dropped in front is a gap. -/
lemma exists_gap (t : Text) : ∃ a, IsGap a ∧ t = a ++ Text.trimStart t :=
  ⟨t.takeWhile Text.isBlank, fun _ hc => List.mem_takeWhile_imp hc,
    List.takeWhile_append_dropWhile.symm⟩

/-- A number begins with no blank. -/
lemma IsNumber.trimStart_gap (hm : IsNumber m n) (ha : IsGap a) (t : Text) :
    Text.trimStart (a ++ (m ++ t)) = m ++ t := by
  obtain ⟨c, m', rfl⟩ := List.exists_cons_of_ne_nil hm.ne_nil
  have hc : Text.isBlank c = false := by
    rw [Bool.eq_false_iff]
    intro hblank
    have hdigit := hm.digits c List.mem_cons_self
    rw [Text.isDigit_of_isBlank hblank] at hdigit
    exact Bool.false_ne_true hdigit
  exact LevelTest.trimStart_gap ha hc (m' ++ t)

/-! ## Skill tests -/

/-- Behind the opening parenthesis of a skill test stand bounds and the closing parenthesis. -/
lemma skillOfText?_eq_some_iff : skillOfText? skill t = some test ↔ ∃ u low high?,
    t = u ++ [')'] ∧ SpellsBounds u low high? ∧ test = .skill skill low high? := by
  constructor
  · intro h
    obtain ⟨⟨low, t₁⟩, hlow, h⟩ := Option.bind_eq_some_iff.mp h
    obtain ⟨a, ha, ht⟩ := exists_gap t
    obtain ⟨m, hm, hnumber⟩ := exists_of_takeNumber? hlow
    obtain ⟨b, hb, ht₁⟩ := exists_gap t₁
    simp only at h
    split at h
    · next hclose =>
      rw [hclose] at ht₁
      obtain rfl := Option.some.inj h
      refine ⟨a ++ (m ++ b), low, none, ?_, .low ha hnumber hb, rfl⟩
      rw [ht, hm, ht₁]
      simp
    · next t₂ hslash =>
      rw [hslash] at ht₁
      obtain ⟨⟨high, t₃⟩, hhigh, h⟩ := Option.bind_eq_some_iff.mp h
      obtain ⟨a', ha', ht₂⟩ := exists_gap t₂
      obtain ⟨n, hn, hnumber'⟩ := exists_of_takeNumber? hhigh
      obtain ⟨b', hb', ht₃⟩ := exists_gap t₃
      simp only at h
      split at h
      · next hclose =>
        rw [hclose] at ht₃
        obtain rfl := Option.some.inj h
        refine ⟨_, low, some high, ?_, .both ha hnumber hb ha' hnumber' hb', rfl⟩
        rw [ht, hm, ht₁, ht₂, hn, ht₃]
        simp
      · cases h
    · cases h
  · rintro ⟨u, low, high?, rfl, hu, rfl⟩
    have hclose : Text.isBlank ')' = false := by decide
    have hslash : Text.isBlank '/' = false := by decide
    cases hu with
    | @low a m b _ ha hm hb =>
      have htext : a ++ (m ++ b) ++ [')'] = a ++ (m ++ (b ++ [')'])) := by simp
      rw [htext, skillOfText?, hm.trimStart_gap ha,
        takeNumber?_append hm (isDigit_head?_gap hb (by decide))]
      simp only [Option.bind_eq_bind, Option.bind_some, trimStart_gap hb hclose]
    | @both a m b a' n b' _ high ha hm hb ha' hn hb' =>
      have htext : a ++ (m ++ (b ++ '/' :: (a' ++ (n ++ b')))) ++ [')'] =
          a ++ (m ++ (b ++ '/' :: (a' ++ (n ++ (b' ++ [')']))))) := by simp
      rw [htext, skillOfText?, hm.trimStart_gap ha,
        takeNumber?_append hm (isDigit_head?_gap hb (by decide))]
      simp only [Option.bind_eq_bind, Option.bind_some, trimStart_gap hb hslash]
      rw [hn.trimStart_gap ha', takeNumber?_append hn (isDigit_head?_gap hb' (by decide))]
      simp only [Option.bind_some, trimStart_gap hb' hclose, if_true]

/-! ## Entries -/

/-- A trimmed text is read as a level test exactly when it spells it. -/
lemma ofText?_eq_some_iff (ht : Trimmed t) : ofText? t = some test ↔ Spells t test := by
  constructor
  · intro hread
    obtain ⟨⟨low, t₁⟩, hlow, h⟩ := Option.bind_eq_some_iff.mp hread
    obtain ⟨m, rfl, hm⟩ := exists_of_takeNumber? hlow
    obtain ⟨b, hb, ht₁⟩ := exists_gap t₁
    simp only at h
    split at h
    · next hnil =>
      rw [hnil, List.append_nil] at ht₁
      obtain rfl := Option.some.inj h
      have hend : t₁ = [] := Text.eq_nil_of_trimEnd_append (ht₁ ▸ hb) (Text.trimEnd_eq_self ht.last)
      rw [hend, List.append_nil]
      exact .atLeast hm
    · next t₂ hslash =>
      rw [hslash] at ht₁
      obtain ⟨⟨high, t₃⟩, hhigh, h⟩ := Option.bind_eq_some_iff.mp h
      obtain ⟨a, ha, ht₂⟩ := exists_gap t₂
      obtain ⟨n, hn, hnumber⟩ := exists_of_takeNumber? hhigh
      simp only at h
      split at h
      · next hend =>
        obtain rfl := Option.some.inj h
        rw [ht₁, ht₂, hn, hend, List.append_nil]
        exact .between hm hb ha hnumber
      · cases h
    · next t₂ hopen =>
      rw [hopen] at ht₁
      obtain ⟨u, low', high?, rfl, hu, rfl⟩ := skillOfText?_eq_some_iff.mp h
      rw [ht₁]
      exact .skill hm hb hu
    · cases h
  · intro h
    cases h with
    | atLeast hm =>
      rw [ofText?, takeNumber?_self hm]
      rfl
    | @between m b a n low high hm hb ha hn =>
      have hslash : Text.isBlank '/' = false := by decide
      have hstart := hn.trimStart_gap ha []
      rw [List.append_nil] at hstart
      rw [ofText?, takeNumber?_append hm (isDigit_head?_gap hb (by decide))]
      simp only [Option.bind_eq_bind, Option.bind_some, trimStart_gap hb hslash, hstart,
        takeNumber?_self hn, if_true]
    | @skill k b u skill low high? hk hb hu =>
      have hopen : Text.isBlank '(' = false := by decide
      rw [ofText?, takeNumber?_append hk (isDigit_head?_gap hb (by decide))]
      simp only [Option.bind_eq_bind, Option.bind_some, trimStart_gap hb hopen]
      exact skillOfText?_eq_some_iff.mpr ⟨u, low, high?, rfl, hu, rfl⟩

/-! ## Sections -/

/-- The entries of a level section, trimmed; blank ones are skipped. -/
def entries (t : Text) : List Text :=
  ((t.splitOn ',').map Text.trim).filter (· ≠ [])

/-- The entries of a section are trimmed. -/
lemma trimmed_of_mem_entries (h : s ∈ entries t) : Trimmed s := by
  obtain ⟨piece, -, rfl⟩ := List.mem_map.mp (List.mem_of_mem_filter h)
  exact Text.trimmed_trim piece

/-- Trimmed entries are read one by one. -/
lemma mapM_ofText?_eq_some_iff {ts : List Text} (hts : ∀ t ∈ ts, Trimmed t) :
    ts.mapM ofText? = some tests ↔ List.Forall₂ Spells ts tests := by
  induction ts generalizing tests with
  | nil =>
    rw [List.mapM_nil, List.forall₂_nil_left_iff]
    exact Option.some_inj.trans eq_comm
  | cons t ts ih =>
    obtain ⟨ht, hts⟩ := List.forall_mem_cons.mp hts
    rw [List.mapM_cons, List.forall₂_cons_left_iff]
    constructor
    · intro h
      obtain ⟨test, htest, h⟩ := Option.bind_eq_some_iff.mp h
      obtain ⟨rest, hrest, h⟩ := Option.bind_eq_some_iff.mp h
      obtain rfl := Option.some.inj h
      exact ⟨test, rest, (ofText?_eq_some_iff ht).mp htest, (ih hts).mp hrest, rfl⟩
    · rintro ⟨test, rest, htest, hrest, rfl⟩
      rw [(ofText?_eq_some_iff ht).mpr htest, (ih hts).mpr hrest]
      rfl

/-- When each member of a list has a partner, there is a list of partners. -/
lemma exists_forall₂_iff {α β : Type} {r : α → β → Prop} {as : List α} :
    (∃ bs, List.Forall₂ r as bs) ↔ ∀ a ∈ as, ∃ b, r a b := by
  induction as with
  | nil => exact iff_of_true ⟨[], .nil⟩ (List.forall_mem_nil _)
  | cons a as ih =>
    rw [List.forall_mem_cons, ← ih]
    constructor
    · rintro ⟨_, h⟩
      obtain ⟨b, bs, hb, hbs, -⟩ := List.forall₂_cons_left_iff.mp h
      exact ⟨⟨b, hb⟩, bs, hbs⟩
    · rintro ⟨⟨b, hb⟩, bs, hbs⟩
      exact ⟨b :: bs, .cons hb hbs⟩

/-- A level section is accepted exactly when each of its entries spells a test, and says what they
spell.  It is rejected, with the fault of the whole section, exactly when some entry spells none. -/
theorem listOfText_eq_iff (t : Text) :
    (∀ tests, listOfText t = .ok tests ↔ List.Forall₂ Spells (entries t) tests) ∧
    ∀ fault, listOfText t = .error fault ↔
      fault = .badLevel t ∧ ∃ entry ∈ entries t, ∀ test, ¬ Spells entry test := by
  have hread : ∀ tests, (entries t).mapM ofText? = some tests ↔
      List.Forall₂ Spells (entries t) tests :=
    fun tests => mapM_ofText?_eq_some_iff fun s => trimmed_of_mem_entries
  have hspelled : (∃ entry ∈ entries t, ∀ test, ¬ Spells entry test) ↔
      ¬ ∃ tests, List.Forall₂ Spells (entries t) tests := by
    rw [exists_forall₂_iff]
    push Not
    rfl
  rw [hspelled]
  cases hmapM : (entries t).mapM ofText? with
  | some tests =>
    have hlist : listOfText t = .ok tests := by
      rw [listOfText, ← entries, hmapM]
    rw [hlist]
    refine ⟨fun tests' => ?_, fun fault => iff_of_false nofun fun h => h.2 ⟨tests, ?_⟩⟩
    · rw [← hread, hmapM, Except.ok.injEq, Option.some.injEq]
    · exact (hread tests).mp hmapM
  | none =>
    have hlist : listOfText t = .error (.badLevel t) := by
      rw [listOfText, ← entries, hmapM]
    have hno : ∀ tests, ¬ List.Forall₂ Spells (entries t) tests := fun tests h => by
      rw [← hread, hmapM] at h
      cases h
    rw [hlist]
    refine ⟨fun tests => iff_of_false nofun (hno tests), fun fault => ?_⟩
    rw [Except.error.injEq, eq_comm]
    exact (and_iff_left fun h => h.elim hno).symm

example : listOfText "5/20, 14 ( 50/75 ),, 003".toList =
    .ok [.between 5 20, .skill 14 50 (some 75), .atLeast 3] := by decide

end Wardrobe.LevelTest
