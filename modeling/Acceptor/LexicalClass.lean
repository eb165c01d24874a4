import Acceptor.Text.Alphanumeric

/-!
# Lexical classes

A lexical class is a fixed set of token texts that a grammar refers to by its tag.  The word-like
classes leave out the *reserved* texts, those a grammar spells out as literals.
-/

namespace Acceptor

/-- The built-in token classes. -/
inductive LexicalClass where
  /-- Letters and digits of any script, not reserved. -/
  | word
  /-- Decimal digits. -/
  | integer
  /-- Basic Latin letters, not reserved. -/
  | identifier
  deriving Repr, DecidableEq

namespace LexicalClass

/-- All classes, in order. -/
def all : List LexicalClass := [.word, .integer, .identifier]

/-- The tag by which descriptors name a class. -/
def tag : LexicalClass → String
  | .word => "word"
  | .integer => "integer"
  | .identifier => "identifier"

/-- The class with a given tag. -/
def ofTag? (s : String) : Option LexicalClass := all.find? fun c => c.tag == s

theorem ofTag?_tag (c : LexicalClass) : ofTag? c.tag = some c := by
  cases c <;> decide

/-- The tags of all classes. -/
def tags : List String := all.map tag

/-- A Basic Latin letter. -/
def isLetter (c : Char) : Bool := ('a' ≤ c && c ≤ 'z') || ('A' ≤ c && c ≤ 'Z')

/-- A decimal digit. -/
def isDigit (c : Char) : Bool := '0' ≤ c && c ≤ '9'

/-- The characters a token of the class is made of. -/
def isMember : LexicalClass → Char → Bool
  | .word => Text.isAlphanumeric
  | .integer => isDigit
  | .identifier => isLetter

/-- The class leaves out reserved texts. -/
def excludesReserved : LexicalClass → Bool
  | .integer => false
  | _ => true

/-- The text belongs to the class, given the reserved texts. -/
def accepts (c : LexicalClass) (reserved : List String) (text : String) : Bool :=
  text != "" && !(c.excludesReserved && reserved.contains text) && text.toList.all c.isMember

end LexicalClass

end Acceptor
