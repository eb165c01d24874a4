import Acceptor.Text.Printable

/-!
# Quoted text

`Text.quoted` writes a text so that a message can show where it starts and ends.  It stands in
single quotes, unless it holds a single quote and no double quote; then it stands in double quotes.
The backslash, the delimiter and every unprintable character are escaped.
-/

namespace Acceptor

namespace Text

/-- The single quote. -/
def singleQuote : Char := '\x27'

/-- The double quote. -/
def doubleQuote : Char := '\x22'

/-- The backslash. -/
def backslash : Char := '\x5c'

/-- The last `width` hexadecimal digits of `n`, in lower case. -/
def hexDigits : Nat → Nat → List Char
  | 0, _ => []
  | width + 1, n => hexDigits width (n / 16) ++ [Nat.digitChar (n % 16)]

/-- A code point as an escape: two, four or eight digits, as many as it needs. -/
def escapeCode (n : Nat) : List Char :=
  if n < 0x100 then backslash :: 'x' :: hexDigits 2 n
  else if n < 0x10000 then backslash :: 'u' :: hexDigits 4 n
  else backslash :: 'U' :: hexDigits 8 n

/-- How `c` is written between two delimiters `d`. -/
def escape (d c : Char) : List Char :=
  if c = backslash ∨ c = d then [backslash, c]
  else if c = '\n' then [backslash, 'n']
  else if c = '\r' then [backslash, 'r']
  else if c = '\t' then [backslash, 't']
  else if isPrintable c then [c]
  else escapeCode c.toNat

/-- The delimiter for a text: the double quote only where it saves an escape. -/
def delimiter (cs : List Char) : Char :=
  if singleQuote ∈ cs ∧ doubleQuote ∉ cs then doubleQuote else singleQuote

/-- `s` between its delimiters. -/
def quoted (s : String) : String :=
  let d := delimiter s.toList
  String.ofList (d :: s.toList.flatMap (escape d) ++ [d])

end Text

end Acceptor
