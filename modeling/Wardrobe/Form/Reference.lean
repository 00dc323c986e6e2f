import Wardrobe.Form.Key

/-!
# References to records

The ways in which a rule names a record:

* `Skyrim.esm|0x13BBF` and `0x13BBF~Skyrim.esm`, a form key;
* `0x13BBF`, an id in an unknown plugin;
* `Skyrim.esm`, a plugin as a whole;
* `GuardOutfit`, `GuardOutfit~Mod.esp` and `GuardOutfit|Mod.esp`, an editor id, possibly pinned to
  a plugin.
-/

namespace Wardrobe

/-- What a token of a rule refers to. -/
inductive Reference where
  | formKey (key : FormKey)
  | formId (id : FormId)
  | pluginFile (name : Text)
  | editorId (name : Text) (plugin? : Option Text)
  deriving DecidableEq

namespace Reference

/-- True for a token that begins with `0x` or `0X` and so is meant as a number. -/
def looksNumeric : Text → Bool
  | '0' :: x :: _ => x == 'x' || x == 'X'
  | _ => false

/-- Reads `left~plugin`: a form key when `left` is an id, else a pinned editor id. -/
def ofTilde? (left plugin : Text) : Option Reference :=
  if left = [] ∨ !Plugin.isFileName plugin then none
  else match FormId.ofText? left with
    | some id => some (.formKey ⟨plugin, id⟩)
    | none => if looksNumeric left then none else some (.editorId left (some plugin))

/-- Reads `name|plugin`, a pinned editor id. -/
def ofBar? (name plugin : Text) : Option Reference :=
  if name = [] ∨ looksNumeric name ∨ !Plugin.isFileName plugin then none
  else some (.editorId name (some plugin))

/-- Reads a token without delimiters. -/
def ofWord? (word : Text) : Option Reference :=
  if Plugin.isFileName word then some (.pluginFile word)
  else if looksNumeric word then (FormId.ofText? word).map .formId
  else some (.editorId word none)

/-- Reads a token; `none` for a blank one, a malformed id, and any other layout of delimiters. -/
def ofText? (token : Text) : Option Reference :=
  let token := Text.trim token
  if token = [] then none
  else match Text.cut '~' token with
    | some (left, plugin) => ofTilde? (Text.trim left) (Text.trim plugin)
    | none =>
      match Plugin.atBar? token with
      | some (plugin, id) => (FormId.ofText? id).map fun id => .formKey ⟨Text.trim plugin, id⟩
      | none =>
        match Text.cut '|' token with
        | some (name, plugin) => ofBar? (Text.trim name) (Text.trim plugin)
        | none => ofWord? token

end Reference

/-- Reads a token that must be a form key. -/
def FormKey.ofText? (t : Text) : Option FormKey :=
  match Reference.ofText? t with
  | some (.formKey key) => some key
  | _ => none

end Wardrobe
