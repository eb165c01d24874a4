import Acceptor.Ascending
import Acceptor.Rule

/-!
# Grammars

A `Grammar` is a list of rules with distinct names, closed under reference, and a start symbol that
one of them declares.  `Grammar.ofRules` builds one, or says which of these conditions fails first.
-/

namespace Acceptor

/-- The names of rules, in order. -/
def ruleNames (rules : List Rule) : List String := rules.map fun r => r.name.val

/-- A closed set of rules with a start symbol. -/
@[ext] structure Grammar where
  /-- The rules, in the order of their declaration. -/
  rules : List Rule
  /-- The name of the start symbol. -/
  start : String
  /-- No two rules have the same name. -/
  distinct : (ruleNames rules).Nodup
  /-- The start symbol is declared. -/
  startDeclared : start ∈ ruleNames rules
  /-- Every name that a rule mentions is declared. -/
  closed : ∀ r ∈ rules, ∀ name ∈ r.references, name ∈ ruleNames rules
  deriving DecidableEq

namespace Grammar

/-! ### Building a grammar -/

/-- Rules with distinct names. -/
abbrev Table := { rules : List Rule // (ruleNames rules).Nodup }

/-- What may be given where a rule is expected. -/
inductive Component where
  /-- A rule. -/
  | rule (r : Rule)
  /-- Something that is no rule. -/
  | part (p : Part)

theorem nodup_append_rule {rules : List Rule} {r : Rule} (h : (ruleNames rules).Nodup)
    (hr : r.name.val ∉ ruleNames rules) : (ruleNames (rules ++ [r])).Nodup := by
  have he : ruleNames (rules ++ [r]) = ruleNames rules ++ [r.name.val] := by simp [ruleNames]
  rw [he, List.nodup_append]
  refine ⟨h, by simp, fun a ha b hb => ?_⟩
  rw [List.mem_singleton] at hb
  rintro rfl
  exact hr (hb ▸ ha)

/-- Enter components behind the rules of a table, up to the first that is no rule or repeats a
name. -/
def declare (table : Table) : List Component → Except GrammarFault Table
  | [] => .ok table
  | .part p :: _ => .error (.notRule p.render)
  | .rule r :: components =>
    if h : r.name.val ∈ ruleNames table.val then .error (.duplicate r.name.val)
    else declare ⟨table.val ++ [r], nodup_append_rule table.2 h⟩ components

/-- The declared name that a value gives. -/
def declared? (names : List String) : Value → Option { s : String // s ∈ names }
  | .text s => if h : s ∈ names then some ⟨s, h⟩ else none
  | _ => none

/-- All pairs of a rule and an undeclared name it mentions: rule by rule, each name where it is
mentioned first. -/
def dangling (rules : List Rule) : List (String × String) :=
  rules.flatMap fun r =>
    (r.references.eraseDups.filter fun name => name ∉ ruleNames rules).map fun name =>
      (r.name.val, name)

theorem closed_of_dangling_eq_nil {rules : List Rule} (h : dangling rules = []) :
    ∀ r ∈ rules, ∀ name ∈ r.references, name ∈ ruleNames rules := by
  intro r hr name hname
  refine Classical.byContradiction fun hn => ?_
  have hmem : (r.name.val, name) ∈ dangling rules := by
    refine List.mem_flatMap.2 ⟨r, hr, List.mem_map.2 ⟨name, ?_, rfl⟩⟩
    rw [List.mem_filter, List.mem_eraseDups]
    exact ⟨hname, by simpa using hn⟩
  rw [h] at hmem
  cases hmem

/-- The first rule that mentions an undeclared name. -/
def offender? (rules : List Rule) : Option Rule :=
  rules.find? fun r => r.references.any fun name => name ∉ ruleNames rules

theorem isSome_offender? {rules : List Rule} (h : dangling rules ≠ []) :
    (offender? rules).isSome := by
  obtain ⟨pair, hpair⟩ := List.exists_mem_of_ne_nil _ h
  obtain ⟨r, hr, hpair⟩ := List.mem_flatMap.1 hpair
  obtain ⟨name, hname, -⟩ := List.mem_map.1 hpair
  obtain ⟨hname, hnot⟩ := List.mem_filter.1 hname
  refine List.find?_isSome.2 ⟨r, hr, List.any_eq_true.2 ⟨name, ?_, hnot⟩⟩
  exact List.mem_eraseDups.1 hname

/-- The grammar of some components and a value that names the start symbol. -/
def ofComponents (components : List Component) (start : Value) : Except GrammarFault Grammar := do
  let table ← declare ⟨[], List.nodup_nil⟩ components
  match declared? (ruleNames table.val) start with
  | none => .error (.start start (Ascending.ofList (ruleNames table.val)))
  | some name =>
    match h : dangling table.val with
    | [] => .ok ⟨table.val, name.val, table.2, name.2, closed_of_dangling_eq_nil h⟩
    | first :: others =>
      let offender := (offender? table.val).get (isSome_offender? (h ▸ List.cons_ne_nil _ _))
      .error (.dangling first others offender.name.val)

/-- The grammar of some rules and a value that names the start symbol. -/
def ofRules (rules : List Rule) (start : Value) : Except GrammarFault Grammar :=
  ofComponents (rules.map .rule) start

/-! ### Views -/

variable (g : Grammar)

/-- The declared names, in order. -/
def names : List String := ruleNames g.rules

/-- The rule of a name. -/
def rule? (name : String) : Option Rule := g.rules.find? fun r => r.name.val == name

/-- The alternatives of a name. -/
def alternatives? (name : String) : Option (List Alternative) :=
  (g.rule? name).map Rule.alternatives

/-- Why a value looks up no rule. -/
inductive LookupError where
  /-- No rule has this name. -/
  | undeclared (key : Value)
  /-- A value of this kind cannot be looked up at all. -/
  | unhashable (found : Value.Kind)

/-- The wording of a failed look-up. -/
def LookupError.message : LookupError → String
  | .undeclared key => key.render
  | .unhashable found => "unhashable type: '" ++ found.name ++ "'"

/-- The rule that a value names, if there is one; lists and records cannot be looked up. -/
def find? (key : Value) : Except LookupError (Option Rule) :=
  match key with
  | .text name => .ok (g.rule? name)
  | .list _ => .error (.unhashable .list)
  | .record _ => .error (.unhashable .record)
  | _ => .ok none

/-- The rule that a value names. -/
def lookup (key : Value) : Except LookupError Rule := do
  match ← g.find? key with
  | some r => return r
  | none => throw (.undeclared key)

/-- Some rule has the name that a value gives. -/
def contains (key : Value) : Except LookupError Bool := do return (← g.find? key).isSome

/-- The texts that the grammar spells out, which the word-like classes leave out. -/
def reserved : List String := Ascending.ofList (g.rules.flatMap Rule.literals)

/-- Two grammars have the same start symbol and the same rules, in any order. -/
def sameAs (h : Grammar) : Bool :=
  g.start == h.start && g.rules.length == h.rules.length && g.rules.all fun r => r ∈ h.rules

/-- The part of a grammar that its hash covers: the start symbol and the rules in order. -/
def hashKey : String × List Rule := (g.start, g.rules)

/-- All rules, one on a line. -/
def text : String := String.intercalate "\n" (g.rules.map Rule.text)

/-- How messages show a grammar. -/
def render : String :=
  "Grammar(start=" ++ Text.quoted g.start ++ ", rules=" ++
    Text.bracketed (g.names.map Text.quoted) ++ ")"

/-- The descriptor of a grammar. -/
def toValue : Value :=
  .record [("start_symbol", .text g.start), ("rules", .list (g.rules.map Rule.toValue))]

end Grammar

end Acceptor
