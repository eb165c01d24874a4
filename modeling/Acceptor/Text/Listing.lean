/-!
# Lists in messages

`Text.bracketed` and `Text.tupled` write a list of texts the two ways messages use.
-/

namespace Acceptor

namespace Text

/-- The texts with a comma and a space between them. -/
def commas (texts : List String) : String := String.intercalate ", " texts

/-- The texts in brackets. -/
def bracketed (texts : List String) : String := "[" ++ commas texts ++ "]"

/-- The texts in parentheses; a single one is followed by a comma. -/
def tupled : List String → String
  | [text] => "(" ++ text ++ ",)"
  | texts => "(" ++ commas texts ++ ")"

end Text

end Acceptor
