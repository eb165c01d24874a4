import Acceptor.Fault

/-!
# Grammar symbols

The symbols of an alternative: terminals, which are matched against one token, references to rules,
and the empty marker.
-/

namespace Acceptor

/-- The lexical class whose tag a value is. -/
def Value.lexicalClass? : Value → Option LexicalClass
  | .text s => LexicalClass.ofTag? s
  | _ => none

/-- A value that should be the tag of a lexical class and is not. -/
structure UnknownClass where
  /-- The value. -/
  found : Value

/-- The wording for a value that is no tag. -/
def UnknownClass.message (e : UnknownClass) : String :=
  e.found.render ++ " is not a valid LexicalClass"

/-- The lexical class that a value names. -/
def LexicalClass.ofValue (v : Value) : Except UnknownClass LexicalClass :=
  match v.lexicalClass? with
  | some c => .ok c
  | none => .error ⟨v⟩

/-- A symbol of a grammar. -/
inductive Symbol where
  /-- Exactly this token. -/
  | literal (text : Label)
  /-- Any token of a lexical class. -/
  | lexical (c : LexicalClass)
  /-- Whatever the rule of this name derives. -/
  | nonterminal (name : Label)
  /-- No token at all. -/
  | empty
  deriving DecidableEq

namespace Symbol

/-- The text of the empty marker. -/
def emptyText : String := "ε"

/-- The symbol is matched against one token. -/
def isTerminal : Symbol → Bool
  | .literal _ => true
  | .lexical _ => true
  | _ => false

/-- The symbol is a terminal that matches the token, given the reserved texts. -/
def accepts (reserved : List String) : Symbol → String → Bool
  | .literal text, token => token == text.val
  | .lexical c, token => c.accepts reserved token
  | _, _ => false

/-- The name a symbol refers to. -/
def reference? : Symbol → Option String
  | .nonterminal name => some name.val
  | _ => none

/-- The text a symbol spells out. -/
def literal? : Symbol → Option String
  | .literal text => some text.val
  | _ => none

theorem reference?_eq_some_iff {s : Symbol} {t : String} :
    s.reference? = some t ↔ ∃ name : Label, s = .nonterminal name ∧ name.val = t := by
  cases s <;> simp [reference?]

theorem literal?_eq_some_iff {s : Symbol} {t : String} :
    s.literal? = some t ↔ ∃ text : Label, s = .literal text ∧ text.val = t := by
  cases s <;> simp [literal?]

/-! ### Making a symbol from a value -/

/-- The literal of a value. -/
def ofLiteral (v : Value) : Except SymbolFault Symbol :=
  match v.label? with
  | some text => .ok (.literal text)
  | none => .error (.literalText v)

/-- The class symbol of a value. -/
def ofClass (v : Value) : Except SymbolFault Symbol :=
  match v.lexicalClass? with
  | some c => .ok (.lexical c)
  | none => .error (.classTag v)

/-- The reference of a value. -/
def ofNonterminal (v : Value) : Except SymbolFault Symbol :=
  match v.label? with
  | some name => .ok (.nonterminal name)
  | none => .error (.nonterminalName v)

/-! ### Texts -/

/-- How rules show a symbol. -/
def text : Symbol → String
  | .literal t => "\x22" ++ t.val ++ "\x22"
  | .lexical c => "<" ++ c.tag ++ ">"
  | .nonterminal name => name.val
  | .empty => emptyText

/-- The upper-case name of a lexical class. -/
def className : LexicalClass → String
  | .word => "WORD"
  | .integer => "INTEGER"
  | .identifier => "IDENTIFIER"

/-- How messages show a symbol. -/
def render : Symbol → String
  | .literal t => "Literal(text=" ++ Text.quoted t.val ++ ")"
  | .lexical c => "Class(name=<LexicalClass." ++ className c ++ ": " ++ Text.quoted c.tag ++ ">)"
  | .nonterminal name => "NonTerminal(name=" ++ Text.quoted name.val ++ ")"
  | .empty => "Empty()"

/-- The record by which descriptors give a symbol. -/
def toValue : Symbol → Value
  | .literal t => .record [("literal", .text t.val)]
  | .lexical c => .record [("class", .text c.tag)]
  | .nonterminal name => .record [("nonterminal", .text name.val)]
  | .empty => .record [("empty", .bool true)]

end Symbol

/-- The symbols of one way to expand a nonterminal. -/
abbrev Alternative := List Symbol

end Acceptor
