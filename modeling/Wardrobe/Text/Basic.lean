/-!
# Texts

A text is a list of characters, so that every grammar of this library is a recursion on a list.
`String` appears only where texts enter and leave the program.

Two notions of letter case are kept apart. Keywords, plugin names and trait codes fold the
letters `A` to `Z` only (`asciiLower`, `SameAscii`); editor ids and game keywords are lower-cased
in full (`Wardrobe.Text.Casing`).
-/

namespace Wardrobe

/-- A text, character by character. -/
abbrev Text := List Char

namespace Text

/-! ### Blanks -/

/-- The characters with the Unicode property `White_Space`. -/
def isBlank (c : Char) : Bool :=
  let n := c.toNat
  (9 ≤ n && n ≤ 13) || n == 0x20 || n == 0x85 || n == 0xA0 || n == 0x1680 ||
    (0x2000 ≤ n && n ≤ 0x200A) || n == 0x2028 || n == 0x2029 || n == 0x202F || n == 0x205F ||
    n == 0x3000

/-- The blanks of ASCII text are blanks. -/
theorem isBlank_of_isWhitespace {c : Char} (h : c.isWhitespace = true) : isBlank c = true := by
  simp only [Char.isWhitespace, Bool.or_eq_true, decide_eq_true_eq] at h
  rcases h with ((h | h) | h) | h <;> subst h <;> decide

/-- Drops the blanks in front. -/
def trimStart (t : Text) : Text :=
  t.dropWhile isBlank

/-- Drops the blanks at the end. -/
def trimEnd (t : Text) : Text :=
  (t.reverse.dropWhile isBlank).reverse

/-- Drops the blanks on both sides. -/
def trim (t : Text) : Text :=
  trimEnd (trimStart t)

/-! ### Cutting -/

/-- What stands before and after the first `sep`; `none` without one. -/
def cut (sep : Char) (t : Text) : Option (Text × Text) :=
  match t.dropWhile (· != sep) with
  | [] => none
  | _ :: after => some (t.takeWhile (· != sep), after)

/-- A text without `sep` cannot be cut there. -/
theorem cut_eq_none {sep : Char} {t : Text} (h : sep ∉ t) : cut sep t = none := by
  have ht : ∀ c ∈ t, (c != sep) = true := fun c hc => bne_iff_ne.2 fun hs => h (hs ▸ hc)
  have hd : (t ++ []).dropWhile (· != sep) = [] := List.dropWhile_append_of_pos ht
  rw [List.append_nil] at hd
  simp [cut, hd]

/-- Cutting takes the first `sep`. -/
theorem cut_append_cons {sep : Char} {before : Text} (h : sep ∉ before) (after : Text) :
    cut sep (before ++ sep :: after) = some (before, after) := by
  have hb : ∀ c ∈ before, (c != sep) = true := fun c hc => bne_iff_ne.2 fun hs => h (hs ▸ hc)
  simp [cut, List.dropWhile_append_of_pos hb, List.takeWhile_append_of_pos hb]

/-- Drops one carriage return at the end. -/
def dropReturn (t : Text) : Text :=
  if t.getLast? = some '\r' then t.dropLast else t

/-- The physical lines. A line ends with a line feed, before which one carriage return is dropped;
what follows the last line feed is a line when it is not empty. -/
def lines (t : Text) : List Text :=
  let pieces := t.splitOn '\n'
  let rest := pieces.getLast?.getD []
  pieces.dropLast.map dropReturn ++ if rest = [] then [] else [rest]

/-- Joins texts with `sep` between neighbours. -/
def join (sep : Text) (ts : List Text) : Text :=
  sep.intercalate ts

/-! ### Case of the letters `A` to `Z` -/

/-- Lower case of the letters `A` to `Z`; every other character stays. -/
def asciiLowerChar (c : Char) : Char :=
  if 'A' ≤ c ∧ c ≤ 'Z' then Char.ofNat (c.toNat + 32) else c

/-- Lower case of the letters `A` to `Z`, through a whole text. -/
def asciiLower (t : Text) : Text :=
  t.map asciiLowerChar

/-- Equality of texts up to the case of the letters `A` to `Z`. -/
def sameAscii (s t : Text) : Bool :=
  asciiLower s == asciiLower t

/-! ### Searching -/

/-- True when `needle` stands somewhere in `t`. The empty text stands in every text. -/
def occursIn (needle : Text) : Text → Bool
  | [] => needle.isEmpty
  | c :: rest => needle.isPrefixOf (c :: rest) || occursIn needle rest

/-- The number of bytes of the UTF-8 form. -/
def byteLength (t : Text) : Nat :=
  t.foldr (fun c n => c.utf8Size + n) 0

/-! ### Decimal digits -/

/-- The characters `0` to `9`. -/
def isDigit (c : Char) : Bool :=
  '0' ≤ c && c ≤ '9'

/-- The value of a run of decimal digits. -/
def natOfDigits (digits : Text) : Nat :=
  digits.foldl (fun n c => 10 * n + (c.toNat - '0'.toNat)) 0

/-- A natural number in decimal digits. -/
def ofNat (n : Nat) : Text :=
  Nat.toDigits 10 n

/-! ### Sets of texts -/

/-- Inserts a text into a list in strictly ascending code point order, keeping it so. -/
def insertSorted (t : Text) : List Text → List Text
  | [] => [t]
  | s :: rest =>
    if t < s then t :: s :: rest
    else if t = s then s :: rest
    else s :: insertSorted t rest

theorem mem_insertSorted {s t : Text} {ts : List Text} :
    s ∈ insertSorted t ts ↔ s = t ∨ s ∈ ts := by
  induction ts with
  | nil => simp [insertSorted]
  | cons u rest ih =>
    unfold insertSorted
    split
    · simp
    · split
      · next h => subst h; simp
      · simp only [List.mem_cons, ih]
        constructor
        · rintro (h | h | h) <;> simp [h]
        · rintro (h | h | h) <;> simp [h]

/-- The distinct texts of a list, in ascending code point order. -/
def sortedSet (ts : List Text) : List Text :=
  ts.foldr insertSorted []

@[simp] theorem mem_sortedSet {t : Text} {ts : List Text} : t ∈ sortedSet ts ↔ t ∈ ts := by
  induction ts with
  | nil => simp [sortedSet]
  | cons s rest ih =>
    have h : sortedSet (s :: rest) = insertSorted s (sortedSet rest) := rfl
    rw [h, mem_insertSorted, ih, List.mem_cons]

end Text

end Wardrobe
