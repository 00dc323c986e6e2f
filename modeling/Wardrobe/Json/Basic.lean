import Wardrobe.Text.Basic

/-!
# JSON values

The values of JSON documents. Numbers keep their spelling, since a reader of whole numbers refuses
`1.0` and `1e2`; objects keep the order of their fields and repeated names.
-/

namespace Wardrobe

/-- A JSON value. -/
inductive Json where
  | null
  | bool (value : Bool)
  /-- A number, as spelled. -/
  | number (text : Text)
  /-- A string; `none` when an escape in it stands for half a surrogate pair. -/
  | string (text : Option Text)
  | array (items : List Json)
  | object (fields : List (Option Text × Json))

namespace Json

/-- A string value. -/
def ofText (t : Text) : Json :=
  string (some t)

/-- A whole number. -/
def ofNat (n : Nat) : Json :=
  number (Text.ofNat n)

/-- A whole number with a sign. -/
def ofInt : Int → Json
  | .ofNat n => ofNat n
  | .negSucc n => number ('-' :: Text.ofNat (n + 1))

/-- `null` for no value. -/
def ofOption {α : Type} (f : α → Json) (x : Option α) : Json :=
  x.elim null f

/-- An array. -/
def ofList {α : Type} (f : α → Json) (xs : List α) : Json :=
  array (xs.map f)

/-- An object. -/
def ofFields (fields : List (String × Json)) : Json :=
  object (fields.map fun (name, value) => (some name.toList, value))

end Json

end Wardrobe
