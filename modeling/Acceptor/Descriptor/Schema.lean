import Acceptor.Fault

/-!
# The schema of descriptors

The schema by which descriptors are published: a value in the vocabulary of JSON Schema, which says
of every part of a descriptor what shape it has.

What checks a value against a schema is no part of this library.  A `Validator` stands for it: it
lists the errors of a value, in any order and any wording.
-/

namespace Acceptor

namespace Descriptor

namespace Schema

/-- A list of texts. -/
def texts (l : List String) : Value := .list (l.map .text)

/-- The schema of a text that is not empty. -/
def label : Value := .record [("type", .text "string"), ("minLength", .int 1)]

/-- A reference to a definition of the document. -/
def definition (name : String) : Value := .record [("$ref", .text ("#/$defs/" ++ name))]

/-- The schema of a symbol. -/
def symbol : Value :=
  .record
    [("type", .text "object"),
      ("minProperties", .int 1),
      ("maxProperties", .int 1),
      ("properties", .record
        [("literal", label),
          ("class", .record [("enum", texts LexicalClass.tags)]),
          ("nonterminal", label),
          ("empty", .record [("const", .bool true)])]),
      ("additionalProperties", .bool false)]

/-- The schema of the alternatives of a rule. -/
def alternatives : Value :=
  .record
    [("type", .text "array"),
      ("minItems", .int 1),
      ("items", .record [("type", .text "array"), ("items", definition "symbol")])]

/-- The schema of a rule. -/
def rule : Value :=
  .record
    [("type", .text "object"),
      ("required", texts ["nonterminal_name", "alternatives"]),
      ("additionalProperties", .bool false),
      ("properties", .record [("nonterminal_name", label), ("alternatives", alternatives)])]

/-- The schema of a descriptor, given that of its rules. -/
def descriptor (rule : Value) : Value :=
  .record
    [("$schema", .text "https://json-schema.org/draft/2020-12/schema"),
      ("title", .text "Grammar descriptor"),
      ("type", .text "object"),
      ("required", texts ["start_symbol", "rules"]),
      ("properties", .record
        [("start_symbol", label),
          ("rules", .record
            [("type", .text "array"),
              ("minItems", .int 1),
              ("items", definition "rule")])]),
      ("$defs", .record [("rule", rule), ("symbol", symbol)])]

/-- The published schema. -/
def document : Value := descriptor rule

end Schema

/-- What checks values against schemas. -/
structure Validator where
  /-- The errors of a value, given the schema that it should conform to. -/
  errors : (schema v : Value) → List SchemaError
  /-- Of some errors, listed as the first one and the others, the one that says best what is
  wrong. -/
  best : SchemaError → List SchemaError → SchemaError

end Descriptor

end Acceptor
