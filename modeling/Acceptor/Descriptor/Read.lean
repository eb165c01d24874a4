import Acceptor.Descriptor.Check
import Acceptor.Grammar.Reachable

/-!
# Reading descriptors

`Descriptor.load` makes the grammar that a descriptor describes, and tells what is logged;
`Descriptor.read` gives the grammar alone.  The descriptor is checked first; without the check,
whatever has elements is read as a list, keys are looked up as they are needed, and the first thing
that cannot be used is reported.
-/

namespace Acceptor

namespace Descriptor

/-- Why a descriptor gives no grammar. -/
inductive ReadError where
  /-- The grammar is at fault. -/
  | fault (f : Fault)
  /-- A value without elements stands where some are expected. -/
  | notIterable (found : Value.Kind)
  /-- The references of the grammar cannot be followed. -/
  | exploration (f : Grammar.Exploration.Failure)

/-- The fault of an unchecked descriptor. -/
def ReadError.ofReading (f : ReadingFault) : ReadError := .fault (.reading f)

/-- What is wrong with the rules and the start symbol that were read. -/
def ReadError.ofConstruction : Grammar.ConstructionError → ReadError
  | .fault f => .fault (.grammar f)
  | .exploration f => .exploration f

/-- A field of the record at `path`. -/
def fieldAt (path : Path) (key : String) (v : Value) : Except ReadError Value :=
  match v.field? key with
  | some found => .ok found
  | none => .error (.ofReading (.missingField path key))

/-- The elements of a value. -/
def elementsOf (v : Value) : Except ReadError (List Value) :=
  match v.elements? with
  | some items => .ok items
  | none => .error (.notIterable v.kind)

/-- The symbol that a record gives by the first symbol key it has. -/
def readSymbol (v : Value) : Except SymbolReadingFault Symbol :=
  match v with
  | .record fields =>
    match fields.lookup "literal", fields.lookup "class", fields.lookup "nonterminal",
      fields.lookup "empty" with
    | some text, _, _, _ => (Symbol.ofLiteral text).mapError .symbol
    | none, some tag, _, _ => (Symbol.ofClass tag).mapError .symbol
    | none, none, some name, _ => (Symbol.ofNonterminal name).mapError .symbol
    | none, none, none, some (.bool true) => .ok .empty
    | _, _, _, _ => .error (.unrecognized v)
  | v => .error (.notRecord v.kind)

/-- The alternative that the elements of a value give; `name` stands for the name of the rule. -/
def readAlternative (name : Value) (rule index : Nat) (v : Value) :
    Except ReadError Alternative := do
  (← elementsOf v).zipIdx.mapM fun (s, place) =>
    (readSymbol s).mapError fun fault => .ofReading (.symbol name rule index place fault)

/-- The rule that a record gives. -/
def readRule (index : Nat) (v : Value) : Except ReadError Rule := do
  let path := DescriptorFault.rulePath index
  let name ← fieldAt path "nonterminal_name" v
  let found ← elementsOf (← fieldAt path "alternatives" v)
  let alternatives ← found.zipIdx.mapM fun (a, place) => readAlternative name index place a
  (Rule.ofAlternatives name alternatives).mapError fun fault => .ofReading (.rule index fault)

/-- The grammar that an unchecked descriptor gives, and what is logged when it is built. -/
def build (v : Value) : Except ReadError (Grammar × List LogEntry) := do
  let found ← elementsOf (← fieldAt [] "rules" v)
  let rules ← found.zipIdx.mapM fun (r, index) => readRule index r
  let start ← fieldAt [] "start_symbol" v
  (Grammar.construct (rules.map .rule) start).mapError .ofConstruction

/-- How a descriptor is read. -/
structure Mode where
  /-- Check the descriptor first. -/
  validate : Bool := true
  /-- Refuse unknown keys. -/
  strict : Bool := true
  deriving Repr, DecidableEq

/-- What is logged when a grammar was read. -/
def loadedEntry (g : Grammar) : LogEntry :=
  ⟨.reader, .debug,
    "Loaded grammar with " ++ toString g.rules.length ++ " rules, start symbol " ++
      Text.quoted g.start⟩

variable (validator : Validator)

/-- Check a descriptor before it is read, if this is asked for. -/
def precheck (mode : Mode) (v : Value) : Except ReadError Unit :=
  if mode.validate then (check validator mode.strict v).mapError fun f => .fault (.descriptor f)
  else .ok ()

/-- The grammar that a descriptor describes, and what is logged when it is read. -/
def load (mode : Mode) (v : Value) : Except ReadError (Grammar × List LogEntry) := do
  precheck validator mode v
  let (g, log) ← build v
  return (g, log ++ [loadedEntry g])

/-- The grammar that a descriptor describes. -/
def read (mode : Mode) (v : Value) : Except ReadError Grammar :=
  (load validator mode v).map Prod.fst

end Descriptor

end Acceptor
