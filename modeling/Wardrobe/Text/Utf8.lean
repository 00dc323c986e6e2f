import Wardrobe.Text.Basic

/-!
# Texts as bytes

UTF-8 in both directions. Reading goes through a small automaton that takes one byte at a time; a
sequence that cannot be completed is reported once, at the longest part of it that could have begun
a character.
-/

namespace Wardrobe.Text

/-- Where a reader of UTF-8 stands. -/
inductive Utf8State where
  /-- Between two characters. -/
  | boundary
  /-- Inside a character: `need` more bytes, the next of them between `low` and `high`; `value` is
  what has been read of the code point. -/
  | inside (need : Nat) (low high : UInt8) (value : Nat)

/-- Reads the first byte of a character. The result holds a character that is complete, or `none`
for a byte that begins none. -/
def utf8Begin (b : UInt8) : Utf8State × List (Option Char) :=
  let n := b.toNat
  if n < 0x80 then (.boundary, [some (Char.ofNat n)])
  else if n < 0xC2 then (.boundary, [none])
  else if n < 0xE0 then (.inside 1 0x80 0xBF (n - 0xC0), [])
  else if n = 0xE0 then (.inside 2 0xA0 0xBF 0, [])
  else if n = 0xED then (.inside 2 0x80 0x9F 0xD, [])
  else if n < 0xF0 then (.inside 2 0x80 0xBF (n - 0xE0), [])
  else if n = 0xF0 then (.inside 3 0x90 0xBF 0, [])
  else if n < 0xF4 then (.inside 3 0x80 0xBF (n - 0xF0), [])
  else if n = 0xF4 then (.inside 3 0x80 0x8F 4, [])
  else (.boundary, [none])

/-- Reads one byte. -/
def utf8Step (b : UInt8) : Utf8State → Utf8State × List (Option Char)
  | .boundary => utf8Begin b
  | .inside need low high value =>
    if low ≤ b ∧ b ≤ high then
      let value := value * 64 + (b.toNat - 0x80)
      if need = 1 then (.boundary, [some (Char.ofNat value)])
      else (.inside (need - 1) 0x80 0xBF value, [])
    else
      let (state, read) := utf8Begin b
      (state, none :: read)

/-- The characters of a byte sequence, with `none` for each part that is not UTF-8. -/
def utf8Read (bytes : List UInt8) : List (Option Char) :=
  let (state, read) := bytes.foldl (fun (state, read) b =>
    let (state, more) := utf8Step b state
    (state, more.reverse ++ read)) (.boundary, [])
  match state with
  | .boundary => read.reverse
  | .inside .. => (none :: read).reverse

/-- The text of a byte sequence, with a replacement character for each part that is not UTF-8. -/
def ofUtf8Lossy (bytes : List UInt8) : Text :=
  (utf8Read bytes).map (·.getD (Char.ofNat 0xFFFD))

/-- The text of a byte sequence; `none` when some part of it is not UTF-8. -/
def ofUtf8? (bytes : List UInt8) : Option Text :=
  (utf8Read bytes).mapM id

/-- The bytes of a text in UTF-8. -/
def toUtf8 (t : Text) : List UInt8 :=
  t.flatMap String.utf8EncodeChar

end Wardrobe.Text
