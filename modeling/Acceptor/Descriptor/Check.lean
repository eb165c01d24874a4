import Acceptor.Ascending
import Acceptor.Descriptor.Schema
import Acceptor.Symbol

/-!
# Checking descriptors

A descriptor is the plain value that describes a grammar: a record with a start symbol and a list
of rules.  `Descriptor.basicFault?` finds its first fault in document order.  If there is none, the
strict check also asks a validator whether the descriptor conforms to the published schema.
-/

namespace Acceptor

namespace Descriptor

/-- The fields that a descriptor has to have. -/
def requiredFields : List String := ["start_symbol", "rules"]

/-- The fault of the only field of a symbol's record. -/
def fieldFault? (key : String) (v : Value) : Option SymbolRecordFault :=
  if key = "class" then
    if v.lexicalClass?.isNone then some (.classTag v) else none
  else if key = "empty" then
    match v with
    | .bool true => none
    | v => some (.emptyMarker v)
  else if key ∈ symbolKeys then
    if v.label?.isNone then some (.text key v) else none
  else some (.keys [key])

/-- The fault of a symbol's record. -/
def symbolFault? : Value → Option SymbolRecordFault
  | .record [(key, v)] => fieldFault? key v
  | .record fields => some (.keys (Ascending.ofList (fields.map Prod.fst)))
  | v => some (.notRecord v)

/-- The first fault of an alternative. -/
def alternativeFault? (rule : String) (index : Nat) : Value → Option RuleRecordFault
  | .list symbols =>
    symbols.zipIdx.findSome? fun (s, place) => (symbolFault? s).map (.symbol rule index place)
  | _ => some (.alternativeNotList rule index)

/-- The first fault of the alternatives of a rule. -/
def alternativesFault? (rule : String) : Value → Option RuleRecordFault
  | .list [] => some (.noAlternatives rule)
  | .list alternatives =>
    alternatives.zipIdx.findSome? fun (a, index) => alternativeFault? rule index a
  | _ => some (.alternativesNotList rule)

/-- The first fault of a rule's record; an absent field counts as null. -/
def ruleFault? : Value → Option RuleRecordFault
  | .record fields =>
    let name := (fields.lookup "nonterminal_name").getD .null
    match name.label? with
    | none => some (.name name)
    | some label =>
      alternativesFault? label.val ((fields.lookup "alternatives").getD .null)
  | _ => some .notRecord

/-- The first fault of the rules. -/
def rulesFault? : Value → Option DescriptorFault
  | .list [] => some .rules
  | .list rules => rules.zipIdx.findSome? fun (r, index) => (ruleFault? r).map (.rule index)
  | _ => some .rules

/-- The first fault of a descriptor. -/
def basicFault? : Value → Option DescriptorFault
  | .record fields =>
    let missing := requiredFields.filter fun key => (fields.lookup key).isNone
    if missing ≠ [] then some (.missing missing)
    else
      let start := (fields.lookup "start_symbol").getD .null
      if start.label?.isNone then some (.start start)
      else rulesFault? ((fields.lookup "rules").getD .null)
  | v => some (.notRecord v.kind)

variable (validator : Validator)

/-- What a validator finds, in the order of the texts of the paths. -/
def schemaFault? (v : Value) : Option DescriptorFault :=
  let errors := (validator.errors Schema.document v).mergeSort fun a b =>
    decide (Path.render a.path ≤ Path.render b.path)
  match errors with
  | [] => none
  | first :: others => some (.schema (validator.best first others) (first :: others))

/-- The fault for which a descriptor is refused. -/
def fault? (strict : Bool) (v : Value) : Option DescriptorFault :=
  match basicFault? v with
  | some fault => some fault
  | none => if strict then schemaFault? validator v else none

/-- Refuse a descriptor that has a fault. -/
def check (strict : Bool) (v : Value) : Except DescriptorFault Unit :=
  match fault? validator strict v with
  | some fault => .error fault
  | none => .ok ()

end Descriptor

end Acceptor
