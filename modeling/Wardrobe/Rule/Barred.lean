import Wardrobe.Form.Reference
import Wardrobe.Rule.Vocabulary

/-!
# Barred rules

Lines of the form `Outfit = form|texts|forms|level|traits|count|chance`. Every section behind the
form may be left out or be `NONE`. The form itself may hold a bar, as in `Skyrim.esm|0x800`, so
the first segments decide where the sections begin.
-/

namespace Wardrobe.Barred

/-- The most sections behind the form. -/
def maxSections : Nat := 6

/-- True when the two segments around the first bar of `value` form one reference: a plugin with an
id, or a name with a plugin. -/
def barJoins (value first second : Text) : Bool :=
  !first.contains '~' &&
    (((Plugin.atBar? value).map (·.1) == some first && (FormId.ofText? second).isSome) ||
      (!Plugin.isFileName first && Plugin.isFileName second))

/-- Splits what follows `=` into the form and the rest, which is `none` without a bar behind the
form. -/
def splitForm (value : Text) : Text × Option Text :=
  match Text.cut '|' value with
  | none => (value, none)
  | some (first, after) =>
    let second := after.takeWhile (· != '|')
    if barJoins value first second then
      (first ++ '|' :: second, (Text.cut '|' after).map (·.2))
    else (first, some after)

/-- The text of a section; `none` when it is blank or `NONE`. -/
def sectionText? (t : Text) : Option Text :=
  let t := Text.trim t
  if t = [] ∨ Text.sameAscii t Rule.noneWord then none else some t

/-- The form of a rule, which must be a reference. -/
def formOfText (t : Text) : Except Fault Text :=
  let form := Text.trim t
  if form = [] then .error .noForm
  else if (Reference.ofText? form).isNone then .error (.badForm form)
  else .ok form

/-- Reads the sections behind the form into a rule. -/
def ruleOfSections (line keyword : Text) (gift : Gift) (form : Text) (sections : List Text) :
    Except Fault Rule := do
  let text? (i : Nat) : Option Text := sections[i]?.bind sectionText?
  let levels ← (text? 2).elim (pure []) LevelTest.listOfText
  let traits ← (text? 3).elim (pure .nothing) TraitDemand.ofText
  let chance ← (text? 5).elim (pure Chance.always) Chance.ofText
  return {
    dialect := .barred
    gift := gift
    keyword := keyword
    form := form
    texts := (text? 0).elim .everything Selection.ofText
    forms := (text? 1).elim .everything Selection.ofText
    level := text? 2
    levels := levels
    traits := traits
    count := text? 4
    chance := chance
    source := line }

/-- Reads a line in the words of a vocabulary. -/
def ruleOfLine (v : Vocabulary) (line : Text) : Except Fault Rule := do
  let text := Text.trim (Text.stripComment line)
  if text = [] then throw .empty
  let some (keyword, value) := Text.cut '=' text | throw .noSeparator
  let keyword := Text.trim keyword
  let some gift := v.lookup? keyword | throw (.unknownKeyword keyword)
  let (form, rest) := splitForm (Text.trim value)
  let form ← formOfText form
  let sections := rest.elim [] (·.splitOn '|')
  if maxSections < sections.length then throw (.tooManySections sections.length)
  ruleOfSections line keyword gift form sections

end Wardrobe.Barred
