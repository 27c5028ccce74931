/-!
# Vocabularies

A type whose members are written as fixed words: its members in order, their words, and the law
that a word names one member only.
-/

namespace Stepflow

class Lexicon (α : Type) where
  members : List α
  word : α → String
  find_word : ∀ a, members.find? (word · = word a) = some a

namespace Lexicon

variable {α : Type} [Lexicon α]

/-- The member written as `text`. -/
def find? (text : String) : Option α := members.find? (word · = text)

@[simp] theorem find?_word (a : α) : find? (word a) = some a := find_word a

theorem word_of_find? {text : String} {a : α} (h : find? text = some a) : word a = text := by
  simpa using List.find?_some h

end Lexicon

end Stepflow
