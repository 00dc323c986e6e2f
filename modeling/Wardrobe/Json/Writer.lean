import Wardrobe.Json.Basic
import Wardrobe.Text.Hex

/-!
# Writing JSON

Values without any space between tokens. Quotes, backslashes and control characters are escaped,
and so are the three line separators outside ASCII, so that a document is one line in every
notion of a line.
-/

namespace Wardrobe.Json

/-- True for a character that is written as an escape of four digits. -/
def isSeparator (c : Char) : Bool :=
  c.toNat < 0x20 || c.toNat == 0x7F || c.toNat == 0x85 || c.toNat == 0x2028 || c.toNat == 0x2029

/-- A character inside a string. -/
def escape (c : Char) : Text :=
  if c = '"' ∨ c = '\\' then ['\\', c]
  else if isSeparator c then '\\' :: 'u' :: Text.hexDigits 4 c.toNat
  else [c]

/-- A string with its quotes. -/
def quote (t : Text) : Text :=
  '"' :: (t.flatMap escape ++ ['"'])

/-- Writes a string; one with half a surrogate pair, which has no text, becomes `null`. -/
def quote? (t : Option Text) : Text :=
  t.elim "null".toList quote

mutual

/-- Writes a value. -/
def toText : Json → Text
  | null => "null".toList
  | bool true => "true".toList
  | bool false => "false".toList
  | number t => t
  | string t => quote? t
  | array items => '[' :: (Text.join [','] (itemTexts items) ++ [']'])
  | object fields => '\x7b' :: (Text.join [','] (fieldTexts fields) ++ ['\x7d'])

/-- Writes the items of an array. -/
def itemTexts : List Json → List Text
  | [] => []
  | item :: rest => toText item :: itemTexts rest

/-- Writes the fields of an object. -/
def fieldTexts : List (Option Text × Json) → List Text
  | [] => []
  | (name, value) :: rest => (quote? name ++ ':' :: toText value) :: fieldTexts rest

end

end Wardrobe.Json
