import Wardrobe.Text.Hex

/-!
# Form ids and form keys

A plugin numbers its records with 32-bit form ids. A form key names one record: the plugin that
defines it, and the id it has there. Plugin names are file names, so they compare without regard
to the case of the letters `A` to `Z`.
-/

namespace Wardrobe

/-- The number of a record inside its plugin. -/
abbrev FormId := UInt32

namespace FormId

/-- Writes an id as `0x800`. -/
def toText (id : FormId) : Text :=
  '0' :: 'x' :: Text.hexOfUInt32 id

/-- Drops one `0x` or `0X` in front. -/
def dropMarker : Text → Text
  | '0' :: 'x' :: digits => digits
  | '0' :: 'X' :: digits => digits
  | digits => digits

/-- Reads one to eight hexadecimal digits, with or without `0x` in front and blanks around. -/
def ofText? (t : Text) : Option FormId :=
  let digits := dropMarker (Text.trim t)
  if digits = [] ∨ 8 < digits.length then none
  else (Text.natOfHex? digits).map UInt32.ofNat

end FormId

namespace Plugin

/-- The endings of plugin file names. -/
def extensions : List Text :=
  [".esp".toList, ".esm".toList, ".esl".toList]

/-- True for a plugin file name by itself, such as `Skyrim.esm`: no delimiter of a form key, one of
the endings, and something before it. -/
def isFileName (t : Text) : Bool :=
  let name := Text.trim t
  !name.contains '|' && !name.contains '~' &&
    extensions.any fun ext =>
      ext.length < name.length && ext.isSuffixOf (Text.asciiLower name)

/-- Reads a plugin ending and the bar right behind it. -/
def endingAtBar? : Text → Option (Text × Text)
  | d :: e :: s :: x :: '|' :: rest =>
    if extensions.contains (Text.asciiLower [d, e, s, x]) then some ([d, e, s, x], rest) else none
  | _ => none

/-- Splits a text that begins with a plugin name and a bar into the name and what follows the bar.
A plugin name may hold dots and even endings, so the bar must directly follow an ending; the first
such bar counts. -/
def atBar? : Text → Option (Text × Text)
  | [] => none
  | c :: t =>
    match endingAtBar? t with
    | some (ending, rest) => some (c :: ending, rest)
    | none => (atBar? t).map fun (name, rest) => (c :: name, rest)

end Plugin

/-- The plugin and the id that name one record. -/
structure FormKey where
  plugin : Text
  id : FormId
  deriving DecidableEq, Inhabited

namespace FormKey

/-- True when two keys name the same record: equal ids in plugins that are equal up to the case of
the letters `A` to `Z`. -/
def same (a b : FormKey) : Bool :=
  a.id == b.id && Text.sameAscii a.plugin b.plugin

/-- Writes a key as `0x800~MyMod.esp`. -/
def toText (key : FormKey) : Text :=
  key.id.toText ++ '~' :: key.plugin

end FormKey

end Wardrobe
