import Acceptor.LexicalClass
import Acceptor.Value.Path
import Acceptor.Value.Printer

/-!
# Faults of grammars

A grammar is refused for a `Fault`: the cause, with the values and names it is about.  There is one
family of causes for each thing that can be wrong:

* `SymbolFault`, `RuleFault`, `GrammarFault`: what is refused when symbols, rules and grammars are
  put together;
* `DescriptorFault`: what the check of a descriptor finds, located by its rule, alternative and
  symbol;
* `ReadingFault`: what an unchecked descriptor turns out to lack while it is read.

`Fault.report` words a fault: the reason, the path to its place, all single errors, and the
nonterminal concerned.
-/

namespace Acceptor

/-- The account of a malformed grammar. -/
structure Report where
  /-- What is wrong. -/
  reason : String
  /-- Where in the descriptor, if the place is known. -/
  path : String
  /-- All that is wrong, one text each. -/
  errors : List String
  /-- The nonterminal concerned, as the descriptor names it. -/
  nonterminal : Option Value

/-- The account of a reason; without single errors the reason is the only one. -/
def Report.ofReason (reason path : String) (errors : List String) (nonterminal : Option Value) :
    Report :=
  ⟨reason, path, if errors.isEmpty then [reason] else errors, nonterminal⟩

/-! ### Putting symbols, rules and grammars together -/

/-- Why a value makes no symbol. -/
inductive SymbolFault where
  /-- A literal needs a text that is not empty. -/
  | literalText (v : Value)
  /-- No lexical class has this tag. -/
  | classTag (v : Value)
  /-- A reference needs a name that is not empty. -/
  | nonterminalName (v : Value)

/-- The wording of a symbol's fault. -/
def SymbolFault.message : SymbolFault → String
  | .literalText v => "Literal text must be a non-empty string: " ++ v.render
  | .classTag v =>
    "Unknown lexical class: " ++ v.render ++ " (expected one of " ++
      Text.tupled (LexicalClass.tags.map Text.quoted) ++ ")"
  | .nonterminalName v => "Nonterminal name must be a non-empty string: " ++ v.render

/-- Why parts make no rule. -/
inductive RuleFault where
  /-- A rule needs a name that is not empty. -/
  | name (v : Value)
  /-- A rule needs an alternative. -/
  | noAlternatives (rule : String)
  /-- An alternative holds something that is no symbol. -/
  | notSymbol (rule : String) (alternative : Nat) (found : Value)

namespace RuleFault

/-- The wording of a rule's fault. -/
def message : RuleFault → String
  | .name v => "Invalid nonterminal name: " ++ v.render
  | .noAlternatives rule => "Rule " ++ Text.quoted rule ++ " has no alternatives"
  | .notSymbol rule alternative found =>
    "Rule " ++ Text.quoted rule ++ ", alternative " ++ toString alternative ++
      ": not a grammar symbol: " ++ found.render

/-- The rule, where it has a name. -/
def nonterminal : RuleFault → Option Value
  | .name _ => none
  | .noAlternatives rule => some (.text rule)
  | .notSymbol rule _ _ => some (.text rule)

end RuleFault

/-- Why rules make no grammar. -/
inductive GrammarFault where
  /-- Something that is no rule stands among the rules; `shown` is its text. -/
  | notRule (shown : String)
  /-- Two rules have the same name. -/
  | duplicate (name : String)
  /-- No rule has the name of the start symbol. -/
  | start (v : Value) (declared : List String)
  /-- Rules mention names that no rule has: all pairs of a rule and such a name, and the first rule
  that mentions one. -/
  | dangling (first : String × String) (others : List (String × String)) (offender : String)

namespace GrammarFault

/-- The wording of one dangling reference. -/
def danglingMessage (pair : String × String) : String :=
  "Rule " ++ Text.quoted pair.1 ++ " references undeclared nonterminal " ++ Text.quoted pair.2

/-- The account of a grammar's fault. -/
def report : GrammarFault → Report
  | .notRule shown => .ofReason ("Not a Rule: " ++ shown) "" [] none
  | .duplicate name =>
    .ofReason ("Nonterminal " ++ Text.quoted name ++ " is declared more than once") "" []
      (some (.text name))
  | .start v declared =>
    .ofReason
      ("Start symbol " ++ v.render ++ " is not a declared nonterminal (declared: " ++
        Text.bracketed (declared.map Text.quoted) ++ ")")
      "start_symbol" []
      (match v with
        | .text name => some (.text name)
        | _ => none)
  | .dangling first others offender =>
    .ofReason (danglingMessage first) "" ((first :: others).map danglingMessage)
      (some (.text offender))

end GrammarFault

/-! ### Checking a descriptor -/

/-- What is wrong with the record of a symbol. -/
inductive SymbolRecordFault where
  /-- It is no record. -/
  | notRecord (found : Value)
  /-- Its keys are not exactly one symbol key. -/
  | keys (found : List String)
  /-- Its class has no such tag. -/
  | classTag (found : Value)
  /-- Its empty marker is not true. -/
  | emptyMarker (found : Value)
  /-- The text under `key` is no text, or an empty one. -/
  | text (key : String) (found : Value)

/-- The keys of which a symbol's record has exactly one. -/
def symbolKeys : List String := ["literal", "class", "nonterminal", "empty"]

namespace SymbolRecordFault

/-- The wording, behind the name of the rule. -/
def message : SymbolRecordFault → String
  | .notRecord found => "symbol must be an object, got " ++ found.render
  | .keys found =>
    "symbol must have exactly one of " ++ Text.bracketed (symbolKeys.map Text.quoted) ++
      ", got " ++ Text.bracketed (found.map Text.quoted)
  | .classTag found =>
    "unrecognized class " ++ found.render ++ " (expected one of " ++
      Text.bracketed (LexicalClass.tags.map Text.quoted) ++ ")"
  | .emptyMarker found => "empty marker must be true, got " ++ found.render
  | .text key found => key ++ " must be a non-empty string, got " ++ found.render

/-- The way from the symbol's record to the fault. -/
def path : SymbolRecordFault → Path
  | .notRecord _ => []
  | .keys _ => []
  | .classTag _ => [.field "class"]
  | .emptyMarker _ => [.field "empty"]
  | .text key _ => [.field key]

end SymbolRecordFault

/-- What is wrong with the record of a rule. -/
inductive RuleRecordFault where
  /-- It is no record. -/
  | notRecord
  /-- Its name is no text, or an empty one. -/
  | name (found : Value)
  /-- Its alternatives are no list. -/
  | alternativesNotList (rule : String)
  /-- It has no alternative. -/
  | noAlternatives (rule : String)
  /-- An alternative is no list. -/
  | alternativeNotList (rule : String) (alternative : Nat)
  /-- A symbol of an alternative is wrong. -/
  | symbol (rule : String) (alternative index : Nat) (fault : SymbolRecordFault)

namespace RuleRecordFault

/-- The wording of the fault of a rule's record. -/
def message : RuleRecordFault → String
  | .notRecord => "Rule must be an object"
  | .name found => "Invalid nonterminal_name: " ++ found.render
  | .alternativesNotList rule => "Rule " ++ Text.quoted rule ++ ": alternatives must be a list"
  | .noAlternatives rule => "Rule " ++ Text.quoted rule ++ " has no alternatives"
  | .alternativeNotList rule _ =>
    "Rule " ++ Text.quoted rule ++ ": alternative must be a list of symbols"
  | .symbol rule _ _ fault => "Rule " ++ Text.quoted rule ++ ": " ++ fault.message

/-- The way from the rule's record to the fault. -/
def path : RuleRecordFault → Path
  | .notRecord => []
  | .name _ => [.field "nonterminal_name"]
  | .alternativesNotList _ => [.field "alternatives"]
  | .noAlternatives _ => [.field "alternatives"]
  | .alternativeNotList _ alternative => [.field "alternatives", .index alternative]
  | .symbol _ alternative index fault =>
    [.field "alternatives", .index alternative, .index index] ++ fault.path

/-- The name of the rule, where it has one. -/
def nonterminal : RuleRecordFault → Option String
  | .notRecord => none
  | .name _ => none
  | .alternativesNotList rule => some rule
  | .noAlternatives rule => some rule
  | .alternativeNotList rule _ => some rule
  | .symbol rule _ _ _ => some rule

end RuleRecordFault

/-- An error that a schema's validator reports. -/
structure SchemaError where
  /-- The way to the value that does not conform. -/
  path : Path
  /-- What is wrong with it. -/
  message : String

/-- An error on one line. -/
def SchemaError.text (e : SchemaError) : String :=
  let place := Path.render e.path
  (if place.isEmpty then "<root>" else place) ++ ": " ++ e.message

/-- What the check of a descriptor finds. -/
inductive DescriptorFault where
  /-- The descriptor is no record. -/
  | notRecord (found : Value.Kind)
  /-- Required fields are missing. -/
  | missing (fields : List String)
  /-- The start symbol is no text, or an empty one. -/
  | start (found : Value)
  /-- The rules are no list, or an empty one. -/
  | rules
  /-- The record of a rule is wrong. -/
  | rule (index : Nat) (fault : RuleRecordFault)
  /-- The descriptor does not conform to its schema: all errors, and the one that says best why. -/
  | schema (best : SchemaError) (errors : List SchemaError)

namespace DescriptorFault

/-- The path to a rule. -/
def rulePath (index : Nat) : Path := [.field "rules", .index index]

/-- The path to a fault. -/
def path : DescriptorFault → Path
  | .notRecord _ => []
  | .missing _ => []
  | .start _ => [.field "start_symbol"]
  | .rules => [.field "rules"]
  | .rule index fault => rulePath index ++ fault.path
  | .schema best _ => best.path

/-- The account of a descriptor's fault. -/
def report (f : DescriptorFault) : Report :=
  let path := Path.render f.path
  match f with
  | .notRecord found =>
    .ofReason ("Grammar descriptor must be an object, got " ++ found.name) path [] none
  | .missing fields =>
    .ofReason ("Missing required fields: " ++ Text.bracketed (fields.map Text.quoted)) path
      (fields.map ("Missing field: " ++ ·)) none
  | .start found =>
    .ofReason ("Invalid start_symbol: " ++ found.render ++ " (must be a non-empty string)") path
      [] none
  | .rules => .ofReason "rules must be a non-empty list" path [] none
  | .rule _ fault => .ofReason fault.message path [] (fault.nonterminal.map .text)
  | .schema best errors =>
    .ofReason ("Schema validation failed: " ++ best.message) path (errors.map SchemaError.text) none

end DescriptorFault

/-! ### Reading an unchecked descriptor -/

/-- Why a value cannot be read as a symbol. -/
inductive SymbolReadingFault where
  /-- It is no record. -/
  | notRecord (found : Value.Kind)
  /-- It has a symbol key, with a value that makes no symbol. -/
  | symbol (fault : SymbolFault)
  /-- It has no symbol key. -/
  | unrecognized (found : Value)

/-- The wording, behind the name of the rule. -/
def SymbolReadingFault.message : SymbolReadingFault → String
  | .notRecord found => "symbol must be an object, got " ++ found.name
  | .symbol fault => fault.message
  | .unrecognized found => "unrecognized symbol descriptor " ++ found.render

/-- Why a descriptor cannot be read. -/
inductive ReadingFault where
  /-- The value at `path` is no record with the field `key`. -/
  | missingField (path : Path) (key : String)
  /-- A symbol cannot be read; `owner` is what stands for the name of its rule. -/
  | symbol (owner : Value) (index alternative place : Nat) (fault : SymbolReadingFault)
  /-- A rule has a name or alternatives that make no rule. -/
  | rule (index : Nat) (fault : RuleFault)

/-- The account of a fault found while reading. -/
def ReadingFault.report : ReadingFault → Report
  | .missingField path key =>
    let place := Path.render (path ++ [.field key])
    .ofReason ("Missing required field: " ++ place) place ["Missing field: " ++ key] none
  | .symbol owner index alternative place fault =>
    .ofReason ("Rule " ++ owner.render ++ ": " ++ fault.message)
      (Path.render (DescriptorFault.rulePath index ++
        [.field "alternatives", .index alternative, .index place]))
      [] (some owner)
  | .rule index fault =>
    .ofReason fault.message (Path.render (DescriptorFault.rulePath index)) [] fault.nonterminal

/-! ### All faults -/

/-- Why a grammar is refused. -/
inductive Fault where
  | symbol (fault : SymbolFault)
  | rule (fault : RuleFault)
  | grammar (fault : GrammarFault)
  | descriptor (fault : DescriptorFault)
  | reading (fault : ReadingFault)

/-- The account of a fault. -/
def Fault.report : Fault → Report
  | .symbol fault => .ofReason fault.message "" [] none
  | .rule fault => .ofReason fault.message "" [] fault.nonterminal
  | .grammar fault => fault.report
  | .descriptor fault => fault.report
  | .reading fault => fault.report

end Acceptor
