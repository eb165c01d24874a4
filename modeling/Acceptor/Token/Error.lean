import Acceptor.Value.Printer

/-!
# Refused tokens and positions

`TokenError` says why a value gives no token stream, `AccessError` why a stream has nothing at a
place.
-/

namespace Acceptor

/-- Why a value gives no token stream. -/
inductive TokenError where
  /-- Only a text can be split into tokens. -/
  | notText
  /-- A text stands where its tokens are expected one by one. -/
  | rawText
  /-- The value has nothing inside that could be tokens. -/
  | notIterable (found : Value.Kind)
  /-- A token is no text. -/
  | tokenKind (found : Value.Kind)
  /-- A token is empty or holds a blank. -/
  | invalidToken (found : String)
  deriving Repr, DecidableEq

/-- The wording for a value without an inside. -/
def Value.Kind.notIterable (k : Value.Kind) : String := "'" ++ k.name ++ "' object is not iterable"

/-- The wording of a refusal. -/
def TokenError.message : TokenError → String
  | .notText => "text must be a string"
  | .rawText => "TokenStream takes a sequence of tokens; use TokenStream.from_text for raw text"
  | .notIterable found => found.notIterable
  | .tokenKind found => "tokens must be strings, got " ++ found.name
  | .invalidToken found =>
    "Invalid token " ++ Text.quoted found ++ ": tokens are non-empty and contain no whitespace"

/-- Why a stream has nothing at a place. -/
inductive AccessError where
  /-- The position lies outside the stream and its end. -/
  | position (found : Int) (length : Nat)
  /-- No token has this index, counted from either end. -/
  | index
  /-- The index does not fit into a machine word. -/
  | hugeIndex
  /-- A slice needs a step. -/
  | zeroStep
  deriving Repr, DecidableEq

/-- The wording of a failed access. -/
def AccessError.message : AccessError → String
  | .position found length =>
    "position " ++ toString found ++ " out of range [0, " ++ toString length ++ "]"
  | .index => "tuple index out of range"
  | .hugeIndex => "cannot fit 'int' into an index-sized integer"
  | .zeroStep => "slice step cannot be zero"

end Acceptor
