import Wardrobe.Json.Basic
import Wardrobe.Text.Hex

/-!
# Reading JSON

A reader for JSON documents as the standard describes them: no trailing commas, no comments, no
byte order mark, no control characters inside strings. Each function takes what it reads off the
front of a text and gives the rest back.
-/

namespace Wardrobe.Json

/-- True for the four characters that may stand between tokens. -/
def isSpace (c : Char) : Bool :=
  c == ' ' || c == '\t' || c == '\n' || c == '\r'

/-- Drops the spaces in front. -/
def skipSpace (t : Text) : Text :=
  t.dropWhile isSpace

/-- Takes a given word off the front. -/
def expect? (word : Text) (t : Text) : Option Text :=
  if word.isPrefixOf t then some (t.drop word.length) else none

/-! ### Numbers -/

/-- Takes a nonempty run of digits off the front. -/
def takeDigits? (t : Text) : Option (Text × Text) :=
  let (digits, rest) := t.span Text.isDigit
  if digits = [] then none else some (digits, rest)

/-- Takes the part before the point: a single zero, or digits that do not begin with zero. -/
def takeWhole? (t : Text) : Option (Text × Text) := do
  let (digits, rest) ← takeDigits? t
  if digits.head? = some '0' ∧ 1 < digits.length then none else some (digits, rest)

/-- Takes a point with digits, if there is one. -/
def takeFraction? : Text → Option (Text × Text)
  | '.' :: t => (takeDigits? t).map fun (digits, rest) => ('.' :: digits, rest)
  | t => some ([], t)

/-- Takes an exponent, if there is one. -/
def takeExponent? : Text → Option (Text × Text)
  | [] => some ([], [])
  | e :: t =>
    if e = 'e' ∨ e = 'E' then
      match t with
      | '+' :: t => (takeDigits? t).map fun (digits, rest) => (e :: '+' :: digits, rest)
      | '-' :: t => (takeDigits? t).map fun (digits, rest) => (e :: '-' :: digits, rest)
      | t => (takeDigits? t).map fun (digits, rest) => (e :: digits, rest)
    else some ([], e :: t)

/-- Takes a number without its minus. -/
def takeUnsigned? (t : Text) : Option (Text × Text) := do
  let (whole, t) ← takeWhole? t
  let (fraction, t) ← takeFraction? t
  let (exponent, t) ← takeExponent? t
  some (whole ++ fraction ++ exponent, t)

/-- Takes a number. -/
def takeNumber? : Text → Option (Text × Text)
  | '-' :: t => (takeUnsigned? t).map fun (digits, rest) => ('-' :: digits, rest)
  | t => takeUnsigned? t

/-! ### Strings -/

/-- A character, or half of a surrogate pair, of a string. -/
inductive Unit16 where
  | char (c : Char)
  | half (n : Nat)

/-- The character of an escape of one letter. -/
def shortEscape? : Char → Option Char
  | '"' => some '"'
  | '\\' => some '\\'
  | '/' => some '/'
  | 'b' => some (Char.ofNat 8)
  | 'f' => some (Char.ofNat 12)
  | 'n' => some '\n'
  | 'r' => some '\r'
  | 't' => some '\t'
  | _ => none

/-- True for the code of half a surrogate pair. -/
def isHalf (n : Nat) : Bool :=
  0xD800 ≤ n && n < 0xE000

/-- The value of four hexadecimal digits. -/
def hex4? (a b c d : Char) : Option Nat :=
  Text.natOfHex? [a, b, c, d]

/-- Takes the units of a string up to its closing quote. The units read so far are given last
first. -/
def takeUnits? (read : List Unit16) : Text → Option (List Unit16 × Text)
  | [] => none
  | '"' :: rest => some (read.reverse, rest)
  | '\\' :: 'u' :: a :: b :: c :: d :: rest =>
    match hex4? a b c d with
    | some n => takeUnits? ((if isHalf n then .half n else .char (Char.ofNat n)) :: read) rest
    | none => none
  | '\\' :: c :: rest =>
    match shortEscape? c with
    | some c => takeUnits? (.char c :: read) rest
    | none => none
  | c :: rest => if c.toNat < 0x20 ∨ c = '\\' then none else takeUnits? (.char c :: read) rest

/-- Joins the halves of surrogate pairs; `none` when a half stands alone. -/
def joinHalves? : List Unit16 → Option Text
  | [] => some []
  | .char c :: rest => (joinHalves? rest).map (c :: ·)
  | .half high :: .half low :: rest =>
    if high < 0xDC00 ∧ 0xDC00 ≤ low then
      (joinHalves? rest).map (Char.ofNat (0x10000 + (high - 0xD800) * 0x400 + (low - 0xDC00)) :: ·)
    else none
  | .half _ :: _ => none

/-- Takes the rest of a string behind its opening quote. -/
def takeString? (t : Text) : Option (Option Text × Text) :=
  (takeUnits? [] t).map fun (units, rest) => (joinHalves? units, rest)

/-! ### Values -/

mutual

/-- Takes a value. The number bounds the steps that may be taken. -/
def takeValue? : Nat → Text → Option (Json × Text)
  | 0, _ => none
  | steps + 1, t =>
    match skipSpace t with
    | '"' :: t => (takeString? t).map fun (s, t) => (.string s, t)
    | '[' :: t =>
      match skipSpace t with
      | ']' :: t => some (.array [], t)
      | t => (takeItems? steps [] t).map fun (items, t) => (.array items, t)
    | '\x7b' :: t =>
      match skipSpace t with
      | '\x7d' :: t => some (.object [], t)
      | t => (takeFields? steps [] t).map fun (fields, t) => (.object fields, t)
    | 't' :: t => (expect? "rue".toList t).map (.bool true, ·)
    | 'f' :: t => (expect? "alse".toList t).map (.bool false, ·)
    | 'n' :: t => (expect? "ull".toList t).map (.null, ·)
    | t => (takeNumber? t).map fun (digits, t) => (.number digits, t)

/-- Takes the items of an array and its closing bracket. Those taken so far are given last
first. -/
def takeItems? : Nat → List Json → Text → Option (List Json × Text)
  | 0, _, _ => none
  | steps + 1, read, t =>
    match takeValue? steps t with
    | none => none
    | some (value, t) =>
      match skipSpace t with
      | ',' :: t => takeItems? steps (value :: read) t
      | ']' :: t => some ((value :: read).reverse, t)
      | _ => none

/-- Takes the fields of an object and its closing brace. Those taken so far are given last
first. -/
def takeFields? : Nat → List (Option Text × Json) → Text →
    Option (List (Option Text × Json) × Text)
  | 0, _, _ => none
  | steps + 1, read, t =>
    match skipSpace t with
    | '"' :: t =>
      match takeString? t with
      | none => none
      | some (name, t) =>
        match skipSpace t with
        | ':' :: t =>
          match takeValue? steps t with
          | none => none
          | some (value, t) =>
            match skipSpace t with
            | ',' :: t => takeFields? steps ((name, value) :: read) t
            | '\x7d' :: t => some (((name, value) :: read).reverse, t)
            | _ => none
        | _ => none
    | _ => none

end

/-- Reads a document, which is one value with nothing but spaces around it. Every step takes a
character, so the length of the text bounds the steps. -/
def ofText? (t : Text) : Option Json :=
  match takeValue? (2 * t.length + 2) t with
  | some (value, rest) => if skipSpace rest = [] then some value else none
  | none => none

end Wardrobe.Json
