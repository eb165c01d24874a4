import Acceptor.Descriptor.Check

/-!
# A validator for the published schema

`Validator.published` lists the errors of descriptors.  It goes by the checks of a descriptor
instead of reading the schema: a value with a basic fault has one error, and of the others those do
not conform in which the record of a rule has a key that no rule has.
-/

namespace Acceptor

namespace Descriptor

/-- The fields of a rule's record. -/
def ruleFields : List String := ["nonterminal_name", "alternatives"]

/-- The keys of a rule's record that no rule has. -/
def strayKeys : Value → List String
  | .record fields => Ascending.ofList ((fields.map Prod.fst).filter fun key => key ∉ ruleFields)
  | _ => []

/-- The wording for such keys. -/
def strayMessage (keys : List String) : String :=
  "Additional properties are not allowed (" ++ Text.commas (keys.map Text.quoted) ++
    (if keys.length = 1 then " was" else " were") ++ " unexpected)"

/-- The error of the rule of an index, if its record has such keys. -/
def strayError? (index : Nat) (r : Value) : Option SchemaError :=
  let keys := strayKeys r
  if keys.isEmpty then none else some ⟨DescriptorFault.rulePath index, strayMessage keys⟩

/-- The errors of all rules. -/
def strayErrors (v : Value) : List SchemaError :=
  (v.itemsAt "rules").zipIdx.filterMap fun (r, index) => strayError? index r

/-- The index of the rule in which an error lies; no rule counts as one before the first. -/
def ruleIndex (e : SchemaError) : Int :=
  match e.path with
  | [_, .index i] => i
  | _ => -1

/-- The validator for the published schema; of several errors that of the last rule counts. -/
def Validator.published : Validator where
  errors _ v :=
    match basicFault? v with
    | some fault => [⟨fault.path, fault.report.reason⟩]
    | none => strayErrors v
  best first others :=
    others.foldl (fun best e => if ruleIndex best < ruleIndex e then e else best) first

end Descriptor

end Acceptor
