import Acceptor.Part
import Acceptor.Token.Error

/-!
# Rules

A rule is a name with the ordered alternatives it expands to.  `Rule.ofParts` and `Rule.ofOffers`
make a rule from parts that may turn out not to be symbols.
-/

namespace Acceptor

/-- A nonterminal with its alternatives. -/
@[ext] structure Rule where
  /-- The name of the nonterminal. -/
  name : Label
  /-- Its alternatives, in order; an empty one derives the empty sequence. -/
  alternatives : List Alternative
  /-- There is at least one. -/
  nonempty : alternatives ≠ []
  deriving DecidableEq

/-- What may be given where an alternative is expected. -/
inductive Offer where
  /-- Parts, one by one. -/
  | parts (ps : List Part)
  /-- A plain value whose elements are the parts. -/
  | value (v : Value)

/-- Why parts make no rule. -/
inductive RuleError where
  /-- The parts are at fault. -/
  | fault (f : RuleFault)
  /-- An alternative has no elements. -/
  | notIterable (found : Value.Kind)

/-- The parts of an offered alternative. -/
def Offer.toParts : Offer → Except RuleError (List Part)
  | .parts ps => .ok ps
  | .value v =>
    match v.elements? with
    | some items => .ok (items.map .value)
    | none => .error (.notIterable v.kind)

namespace Rule

/-- A part as a symbol of alternative `index` of the rule `name`. -/
def symbolOf (name : String) (index : Nat) : Part → Except RuleFault Symbol
  | .symbol s => .ok s
  | .value v => .error (.notSymbol name index v)

/-- The rule of a name and alternatives of symbols. -/
def ofAlternatives (name : Value) (alternatives : List Alternative) : Except RuleFault Rule :=
  match name.label? with
  | none => .error (.name name)
  | some label =>
    if h : alternatives = [] then .error (.noAlternatives label.val)
    else .ok ⟨label, alternatives, h⟩

/-- The rule of a name and alternatives of parts: the name comes first, then the number of
alternatives, then their parts. -/
def ofParts (name : Value) (alternatives : List (List Part)) : Except RuleFault Rule :=
  match name.label? with
  | none => .error (.name name)
  | some label => do
    if alternatives.isEmpty then throw (.noAlternatives label.val)
    ofAlternatives name
      (← alternatives.zipIdx.mapM fun (parts, index) => parts.mapM (symbolOf label.val index))

/-- The rule of a name and offered alternatives; the name comes before the elements of the
offers. -/
def ofOffers (name : Value) (offers : List Offer) : Except RuleError Rule :=
  match name.label? with
  | none => .error (.fault (.name name))
  | some _ => do (ofParts name (← offers.mapM Offer.toParts)).mapError .fault

/-- The rule of a name and offered alternatives; the elements of the offers come before the
name. -/
def ofOffersFirst (name : Value) (offers : List Offer) : Except RuleError Rule := do
  (ofParts name (← offers.mapM Offer.toParts)).mapError .fault

/-! ### Views -/

/-- All names the rule mentions, in order and with repeats. -/
def references (r : Rule) : List String :=
  r.alternatives.flatMap fun alternative => alternative.filterMap Symbol.reference?

/-- All texts the rule spells out. -/
def literals (r : Rule) : List String :=
  r.alternatives.flatMap fun alternative => alternative.filterMap Symbol.literal?

theorem mem_references {r : Rule} {t : String} :
    t ∈ r.references ↔
      ∃ a ∈ r.alternatives, ∃ name : Label, .nonterminal name ∈ a ∧ name.val = t := by
  simp only [references, List.mem_flatMap, List.mem_filterMap, Symbol.reference?_eq_some_iff]
  constructor
  · rintro ⟨a, ha, _, hs, name, rfl, hname⟩
    exact ⟨a, ha, name, hs, hname⟩
  · rintro ⟨a, ha, name, hs, hname⟩
    exact ⟨a, ha, _, hs, name, rfl, hname⟩

theorem mem_literals {r : Rule} {t : String} :
    t ∈ r.literals ↔ ∃ a ∈ r.alternatives, ∃ text : Label, .literal text ∈ a ∧ text.val = t := by
  simp only [literals, List.mem_flatMap, List.mem_filterMap, Symbol.literal?_eq_some_iff]
  constructor
  · rintro ⟨a, ha, _, hs, text, rfl, htext⟩
    exact ⟨a, ha, text, hs, htext⟩
  · rintro ⟨a, ha, text, hs, htext⟩
    exact ⟨a, ha, _, hs, text, rfl, htext⟩

/-- How an alternative is shown. -/
def alternativeText (alternative : Alternative) : String :=
  if alternative.isEmpty then Symbol.emptyText
  else String.intercalate " " (alternative.map Symbol.text)

/-- How grammars show a rule. -/
def text (r : Rule) : String :=
  r.name.val ++ " -> " ++ String.intercalate " | " (r.alternatives.map alternativeText)

/-- How messages show a rule. -/
def render (r : Rule) : String :=
  "Rule(name=" ++ Text.quoted r.name.val ++ ", alternatives=" ++
    Text.tupled (r.alternatives.map fun alternative => Text.tupled (alternative.map Symbol.render))
    ++ ")"

/-- Alternatives as descriptors give them. -/
def alternativesValue (alternatives : List Alternative) : Value :=
  .list (alternatives.map fun alternative => .list (alternative.map Symbol.toValue))

/-- The record by which descriptors give a rule. -/
def toValue (r : Rule) : Value :=
  .record [("nonterminal_name", .text r.name.val), ("alternatives", alternativesValue r.alternatives)]

end Rule

end Acceptor
