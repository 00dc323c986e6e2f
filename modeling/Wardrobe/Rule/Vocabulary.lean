import Wardrobe.Rule.Basic

/-!
# Vocabularies

The words that may stand on the left of `=`, and the gift that each of them names. Words compare
without regard to the case of the letters `A` to `Z`.
-/

namespace Wardrobe

/-- Words in lower case with their gifts; of two entries for one word the later counts. -/
structure Vocabulary where
  entries : List (Text × Gift)

namespace Vocabulary

/-- The vocabulary of a list of words. -/
def ofList (words : List (Text × Gift)) : Vocabulary :=
  ⟨words.map fun (word, gift) => (Text.asciiLower word, gift)⟩

/-- The built-in words. -/
def standard : Vocabulary :=
  ofList (Gift.all.map fun gift => (gift.word, gift))

/-- The gift that the vocabulary holds for a word in lower case. -/
def find? (v : Vocabulary) (word : Text) : Option Gift :=
  (v.entries.reverse.find? fun entry => entry.1 == word).map (·.2)

/-- The gift that a word names, blanks around it aside. -/
def lookup? (v : Vocabulary) (word : Text) : Option Gift :=
  v.find? (Text.asciiLower (Text.trim word))

/-- The words whose gift is among the given ones. -/
def only (v : Vocabulary) (gifts : List Gift) : Vocabulary :=
  ⟨v.entries.filter fun entry => (v.find? entry.1).any gifts.contains⟩

end Vocabulary

end Wardrobe
