import Acceptor.Token.Basic
import Acceptor.Token.Error
import Acceptor.Token.Slice

/-!
# Token streams

A `TokenStream` is the sequence of tokens a recognizer reads.  Its positions run from zero to its
length; at the last one nothing is left.
-/

namespace Acceptor

/-- A sequence of tokens. -/
@[ext] structure TokenStream where
  /-- The tokens, in order. -/
  tokens : List String
  /-- Each of them is a token. -/
  valid : ∀ t ∈ tokens, IsToken t
  deriving DecidableEq

/-- What messages say in place of a token where none is left. -/
def endOfInput : String := "end of input"

namespace TokenStream

/-- The number of tokens. -/
def length (w : TokenStream) : Nat := w.tokens.length

/-! ### Making a stream -/

/-- The tokens of a text. -/
def ofText (text : String) : TokenStream := ⟨tokenize text, fun _ => isToken_of_mem_tokenize⟩

/-- A value as a token: a text that splitting leaves whole. -/
def token : Value → Except TokenError { t : String // IsToken t }
  | .text t =>
    if h : tokenize t = [t] then .ok ⟨t, isToken_of_mem_tokenize (h ▸ List.mem_singleton_self t)⟩
    else .error (.invalidToken t)
  | v => .error (.tokenKind v.kind)

/-- A stream of given tokens. -/
def ofTokens (ts : List { t : String // IsToken t }) : TokenStream :=
  ⟨ts.map Subtype.val, fun _ ht => by
    obtain ⟨s, _, rfl⟩ := List.mem_map.1 ht
    exact s.2⟩

/-- The elements of a value as tokens.  A text is refused: its characters are not its tokens. -/
def ofValue (v : Value) : Except TokenError TokenStream :=
  match v with
  | .text _ => .error .rawText
  | v =>
    match v.elements? with
    | none => .error (.notIterable v.kind)
    | some items => do return ofTokens (← items.mapM token)

/-- The tokens of a value that has to be a text; they are checked like any others. -/
def ofTextValue : Value → Except TokenError TokenStream
  | .text s => ofValue (.list ((tokenize s).map .text))
  | _ => .error .notText

/-! ### Reading a stream -/

/-- The token at a position, if any is left there. -/
def read (w : TokenStream) (position : Int) : Except AccessError (Option String) :=
  if 0 ≤ position ∧ position ≤ w.length then .ok w.tokens[position.toNat]?
  else .error (.position position w.length)

/-- The token at a position, or the words for the end of input. -/
def describe (w : TokenStream) (position : Int) : Except AccessError String :=
  (w.read position).map fun token => token.getD endOfInput

/-- The least number that a signed machine word does not hold. -/
def wordLimit : Int := 0x8000000000000000

/-- The token with an index; a negative index counts from the end. -/
def get (w : TokenStream) (index : Int) : Except AccessError String :=
  if index < -wordLimit ∨ wordLimit ≤ index then .error .hugeIndex
  else
    let i := if index < 0 then index + w.length else index
    if i < 0 then .error .index
    else
      match w.tokens[i.toNat]? with
      | some token => .ok token
      | none => .error .index

/-- The tokens that a slice picks. -/
def slice (w : TokenStream) (s : Slice) : Except AccessError (List String) :=
  if s.step = 0 then .error .zeroStep else .ok (s.pick w.tokens)

/-- The text of a stream. -/
def render (w : TokenStream) : String :=
  "TokenStream(" ++ Text.bracketed (w.tokens.map Text.quoted) ++ ")"

end TokenStream

/-- What may be given where a token stream is expected. -/
inductive TokenSource where
  /-- A stream. -/
  | stream (w : TokenStream)
  /-- A text to be split, or a value whose elements are the tokens. -/
  | value (v : Value)

/-- The token stream that is meant. -/
def TokenSource.toStream : TokenSource → Except TokenError TokenStream
  | .stream w => .ok w
  | .value (.text s) => .ok (TokenStream.ofText s)
  | .value v => TokenStream.ofValue v

end Acceptor
