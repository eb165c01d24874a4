import Acceptor.Descriptor.Read
import Acceptor.Proofs.Reachable
import Mathlib.Data.List.Forall2
import Mathlib.Data.Set.List

/-!
# The form of descriptors

A descriptor has *form* if its fields spell out a start symbol and a list of rules.  The check and
the reader go through a descriptor on their own, and both are measured against the form here:

* `Descriptor.basicFault?_eq_none_iff`: a descriptor without a basic fault is one that has form;
* `Descriptor.build_of_hasForm`: of a descriptor that has form, the reader makes the rules and the
  start symbol spelled out, and only the grammar they give can be at fault.
-/

namespace Acceptor

/-! ### Lists and results -/

section

variable {α β ε : Type}

theorem forall_mem_zipIdx_iff {p : α → Prop} {l : List α} :
    (∀ q ∈ l.zipIdx, p q.1) ↔ ∀ x ∈ l, p x := by
  rw [← List.forall_mem_map (f := Prod.fst), List.zipIdx_map_fst]

theorem findSome?_zipIdx_eq_none_iff {f : α × Nat → Option β} {p : α → Prop}
    (hf : ∀ x i, f (x, i) = none ↔ p x) {l : List α} :
    l.zipIdx.findSome? f = none ↔ ∀ x ∈ l, p x := by
  rw [List.findSome?_eq_none_iff, ← forall_mem_zipIdx_iff (l := l)]
  refine forall₂_congr ?_
  rintro ⟨x, i⟩ -
  exact hf x i

/-- Every element has a partner iff there is a list of partners. -/
theorem exists_forall₂_iff {R : α → β → Prop} {l : List α} :
    (∃ l', List.Forall₂ R l l') ↔ ∀ x ∈ l, ∃ y, R x y := by
  induction l with
  | nil => simp
  | cons x l ih =>
    rw [List.forall_mem_cons, ← ih]
    constructor
    · rintro ⟨_, hxy | ⟨hxy, hl⟩⟩
      exact ⟨⟨_, hxy⟩, _, hl⟩
    · rintro ⟨⟨y, hxy⟩, l', hl⟩
      exact ⟨y :: l', .cons hxy hl⟩

theorem exists_eq_map_iff {f : β → α} {l : List α} :
    (∃ l' : List β, l = l'.map f) ↔ ∀ x ∈ l, ∃ y, x = f y := by
  have h := Set.ext_iff.1 (Set.range_list_map f) l
  simpa only [Set.mem_range, Set.mem_ofPred_eq, eq_comm] using h

/-- A reader that succeeds on every element, wherever it stands, succeeds on the list. -/
theorem mapM_zipIdx_of_forall₂ {f : α × Nat → Except ε β} {l : List α} {l' : List β}
    (h : List.Forall₂ (fun x y => ∀ i, f (x, i) = .ok y) l l') (n : Nat) :
    (l.zipIdx n).mapM f = .ok l' := by
  induction h generalizing n with
  | nil => rfl
  | cons hxy _ ih =>
    rw [List.zipIdx_cons, List.mapM_cons, hxy n, ih (n + 1)]
    rfl

/-- What is read back element by element is read back as a list. -/
theorem mapM_zipIdx_map {f : α × Nat → Except ε β} {g : β → α} (h : ∀ y i, f (g y, i) = .ok y)
    (l : List β) : (l.map g).zipIdx.mapM f = .ok l := by
  refine mapM_zipIdx_of_forall₂ ?_ 0
  rw [List.forall₂_map_left_iff, List.forall₂_same]
  intro y _ i
  exact h y i

theorem exists_eq_some_of_not_isNone {o : Option α} (h : ¬o.isNone = true) : ∃ x, o = some x :=
  Option.ne_none_iff_exists'.1 (mt Option.isNone_iff_eq_none.2 h)

theorem eq_some_of_getD_eq {o : Option α} {x y : α} (h : o.getD x = y) (hne : x ≠ y) :
    o = some y := by
  cases o with
  | none => exact absurd h hne
  | some z => exact congrArg some h

theorem map_fst_eq_ok_iff {r : Except ε (α × β)} {a : α} :
    r.map Prod.fst = .ok a ↔ ∃ b, r = .ok (a, b) := by
  cases r <;> simp [Except.map, Prod.ext_iff]

theorem map_eq_error_iff {f : α → β} {r : Except ε α} {e : ε} :
    r.map f = .error e ↔ r = .error e := by
  cases r <;> simp [Except.map]

theorem mapError_eq_ok_iff {f : ε → β} {r : Except ε α} {a : α} :
    r.mapError f = .ok a ↔ r = .ok a := by
  cases r <;> simp [Except.mapError]

end

/-! ### Symbols -/

theorem Value.itemsAt_eq {v : Value} {key : String} {items : List Value}
    (h : v.field? key = some (.list items)) : v.itemsAt key = items := by
  rw [itemsAt, h]
  rfl

@[simp] theorem Value.label?_text (l : Label) : (Value.text l.val).label? = some l :=
  label?_eq_some.2 rfl

theorem LexicalClass.ofTag?_eq_some_iff {s : String} {c : LexicalClass} :
    ofTag? s = some c ↔ s = c.tag := by
  constructor
  · intro h
    have htag : (c.tag == s) = true := List.find?_some (p := fun c => tag c == s) h
    exact (beq_iff_eq.1 htag).symm
  · rintro rfl
    exact ofTag?_tag c

theorem Value.lexicalClass?_eq_some_iff {v : Value} {c : LexicalClass} :
    v.lexicalClass? = some c ↔ v = .text c.tag := by
  cases v with
  | text s => rw [lexicalClass?, LexicalClass.ofTag?_eq_some_iff, Value.text.injEq]
  | _ => simp [lexicalClass?]

@[simp] theorem Value.lexicalClass?_tag (c : LexicalClass) :
    (Value.text c.tag).lexicalClass? = some c :=
  lexicalClass?_eq_some_iff.2 rfl

namespace Descriptor

theorem exists_symbol_of_fieldFault?_eq_none {key : String} {v : Value} :
    fieldFault? key v = none → ∃ s : Symbol, Value.record [(key, v)] = s.toValue := by
  fun_cases fieldFault? key v with
  | case1 => nofun
  | case2 v hkey hv =>
    intro
    obtain ⟨c, hc⟩ := exists_eq_some_of_not_isNone hv
    refine ⟨.lexical c, ?_⟩
    rw [hkey, Value.lexicalClass?_eq_some_iff.1 hc, Symbol.toValue]
  | case3 _ hkey => exact fun _ => ⟨.empty, by rw [hkey, Symbol.toValue]⟩
  | case4 => nofun
  | case5 => nofun
  | case6 v hclass hempty hkey hv =>
    intro
    obtain ⟨text, htext⟩ := exists_eq_some_of_not_isNone hv
    rw [Value.label?_eq_some.1 htext]
    have hkey : key = "literal" ∨ key = "nonterminal" := by
      simpa [symbolKeys, hclass, hempty] using hkey
    rcases hkey with rfl | rfl
    · exact ⟨.literal text, rfl⟩
    · exact ⟨.nonterminal text, rfl⟩
  | case7 => nofun

theorem symbolFault?_toValue (s : Symbol) : symbolFault? s.toValue = none := by
  cases s with
  | literal text => simp [Symbol.toValue, symbolFault?, fieldFault?, symbolKeys]
  | lexical c => simp [Symbol.toValue, symbolFault?, fieldFault?]
  | nonterminal name => simp [Symbol.toValue, symbolFault?, fieldFault?, symbolKeys]
  | empty => rfl

/-- A symbol's record is without fault iff it is the record of a symbol. -/
theorem symbolFault?_eq_none_iff {v : Value} :
    symbolFault? v = none ↔ ∃ s : Symbol, v = s.toValue := by
  constructor
  · intro h
    match v, h with
    | .record [(key, v)], h => exact exists_symbol_of_fieldFault?_eq_none h
  · rintro ⟨s, rfl⟩
    exact symbolFault?_toValue s

theorem readSymbol_toValue (s : Symbol) : readSymbol s.toValue = .ok s := by
  cases s with
  | literal text => simp [Symbol.toValue, readSymbol, Symbol.ofLiteral, Except.mapError]
  | lexical c =>
    simp [Symbol.toValue, readSymbol, List.lookup_cons, Symbol.ofClass, Except.mapError]
  | nonterminal name =>
    simp [Symbol.toValue, readSymbol, List.lookup_cons, Symbol.ofNonterminal, Except.mapError]
  | empty => rfl

/-! ### Alternatives -/

theorem alternativeFault?_eq_none_iff {rule : String} {index : Nat} {v : Value} :
    alternativeFault? rule index v = none ↔
      ∃ alternative : Alternative, v = .list (alternative.map Symbol.toValue) := by
  cases v with
  | list symbols =>
    rw [alternativeFault?, findSome?_zipIdx_eq_none_iff
      (fun s place => Option.map_eq_none_iff.trans symbolFault?_eq_none_iff), ← exists_eq_map_iff]
    simp only [Value.list.injEq]
  | _ => simp [alternativeFault?]

theorem alternativesFault?_eq_none_iff {rule : String} {v : Value} :
    alternativesFault? rule v = none ↔
      ∃ alternatives ≠ [], v = Rule.alternativesValue alternatives := by
  fun_cases alternativesFault? rule v with
  | case1 => simp [Rule.alternativesValue]
  | case2 items hne =>
    rw [findSome?_zipIdx_eq_none_iff (fun a index => alternativeFault?_eq_none_iff),
      ← exists_eq_map_iff]
    simp only [Rule.alternativesValue, Value.list.injEq]
    constructor
    · rintro ⟨alternatives, rfl⟩
      exact ⟨alternatives, fun h => hne (by rw [h, List.map_nil]), rfl⟩
    · rintro ⟨alternatives, -, h⟩
      exact ⟨alternatives, h⟩
  | case3 v hnil hlist =>
    refine ⟨nofun, ?_⟩
    rintro ⟨alternatives, -, h⟩
    exact absurd h (hlist _)

theorem readAlternative_toValue (name : Value) (rule index : Nat) (alternative : Alternative) :
    readAlternative name rule index (.list (alternative.map Symbol.toValue)) = .ok alternative := by
  refine mapM_zipIdx_map ?_ alternative
  intro s place
  simp only [readSymbol_toValue, Except.mapError]

/-! ### Rules -/

/-- A rule's record spells out the rule. -/
structure Describes (v : Value) (r : Rule) : Prop where
  /-- One field has the name. -/
  name : v.field? "nonterminal_name" = some (.text r.name.val)
  /-- Another has the alternatives. -/
  alternatives : v.field? "alternatives" = some (Rule.alternativesValue r.alternatives)

theorem describes_toValue (r : Rule) : Describes r.toValue r := ⟨rfl, rfl⟩

/-- A rule's record is without fault iff it spells out a rule. -/
theorem ruleFault?_eq_none_iff {v : Value} : ruleFault? v = none ↔ ∃ r, Describes v r := by
  constructor
  · fun_cases ruleFault? v with
    | case1 => nofun
    | case2 fields name label hname =>
      intro h
      obtain ⟨alternatives, hne, halternatives⟩ := alternativesFault?_eq_none_iff.1 h
      -- an absent field would count as null, which is neither a name nor a list
      refine ⟨⟨label, alternatives, hne⟩, ?_, ?_⟩
      · exact eq_some_of_getD_eq (Value.label?_eq_some.1 hname) nofun
      · exact eq_some_of_getD_eq halternatives nofun
    | case3 => nofun
  · rintro ⟨r, hname, halternatives⟩
    cases v with
    | record fields =>
      simp only [Value.field?] at hname halternatives
      simp only [ruleFault?, hname, halternatives, Option.getD_some, Value.label?_text]
      exact alternativesFault?_eq_none_iff.2 ⟨r.alternatives, r.nonempty, rfl⟩
    | _ => cases hname

theorem readRule_of_describes {v : Value} {r : Rule} (h : Describes v r) (index : Nat) :
    readRule index v = .ok r := by
  have hread : ((r.alternatives.map fun a => Value.list (a.map Symbol.toValue)).zipIdx.mapM
      fun a => readAlternative (.text r.name.val) index a.2 a.1) = .ok r.alternatives :=
    mapM_zipIdx_map (fun a place => readAlternative_toValue _ index place a) r.alternatives
  simp only [readRule, fieldAt, h.name, h.alternatives, Rule.alternativesValue, elementsOf,
    Value.elements?, bind, Except.bind, hread, Rule.ofAlternatives, Value.label?_text, r.nonempty,
    ↓reduceDIte, Except.mapError]

/-! ### Descriptors -/

/-- The fields of a descriptor spell out a start symbol and rules. -/
structure HasForm (d : Value) (start : Label) (rules : List Rule) : Prop where
  /-- One field has the start symbol. -/
  start : d.field? "start_symbol" = some (.text start.val)
  /-- Another has a list of the records of the rules. -/
  records :
    ∃ records, d.field? "rules" = some (.list records) ∧ List.Forall₂ Describes records rules
  /-- There is at least one rule. -/
  nonempty : rules ≠ []

theorem rulesFault?_eq_none_iff {v : Value} :
    rulesFault? v = none ↔
      ∃ records rules, v = .list records ∧ List.Forall₂ Describes records rules ∧ rules ≠ [] := by
  fun_cases rulesFault? v with
  | case1 => simp
  | case2 records hne =>
    rw [findSome?_zipIdx_eq_none_iff
      (fun r index => Option.map_eq_none_iff.trans ruleFault?_eq_none_iff), ← exists_forall₂_iff]
    constructor
    · rintro ⟨rules, h⟩
      refine ⟨records, rules, rfl, h, ?_⟩
      rintro rfl
      exact hne (List.forall₂_nil_right_iff.1 h)
    · rintro ⟨_, rules, h, hrules, -⟩
      exact ⟨rules, Value.list.inj h ▸ hrules⟩
  | case3 v hnil hlist =>
    refine ⟨nofun, ?_⟩
    rintro ⟨records, rules, h, -⟩
    exact absurd h (hlist records)

/-- **Basic faults**: a descriptor has none iff it spells out a start symbol and rules. -/
theorem basicFault?_eq_none_iff {d : Value} :
    basicFault? d = none ↔ ∃ start rules, HasForm d start rules := by
  constructor
  · fun_cases basicFault? d with
    | case1 => nofun
    | case2 => nofun
    | case3 fields missing hmissing start hstart =>
      intro h
      obtain ⟨name, hname⟩ := exists_eq_some_of_not_isNone hstart
      obtain ⟨records, rules, hrecords, hdescribes, hne⟩ := rulesFault?_eq_none_iff.1 h
      refine ⟨name, rules, ?_, ⟨records, ?_, hdescribes⟩, hne⟩
      · exact eq_some_of_getD_eq (Value.label?_eq_some.1 hname) nofun
      · exact eq_some_of_getD_eq hrecords nofun
    | case4 => nofun
  · rintro ⟨start, rules, hstart, ⟨records, hrecords, hdescribes⟩, hne⟩
    cases d with
    | record fields =>
      simp only [Value.field?] at hstart hrecords
      have hrules : rulesFault? (.list records) = none :=
        rulesFault?_eq_none_iff.2 ⟨records, rules, rfl, hdescribes, hne⟩
      simp [basicFault?, requiredFields, hstart, hrecords, hrules]
    | _ => cases hstart

theorem build_of_hasForm {d : Value} {start : Label} {rules : List Rule}
    (h : HasForm d start rules) :
    build d = (Grammar.construct (rules.map .rule) (.text start.val)).mapError .ofConstruction := by
  obtain ⟨records, hrecords, hdescribes⟩ := h.records
  have hread : (records.zipIdx.mapM fun r => readRule r.2 r.1) = .ok rules :=
    mapM_zipIdx_of_forall₂ (hdescribes.imp fun _ _ hr => readRule_of_describes hr) 0
  simp only [build, fieldAt, h.start, hrecords, elementsOf, Value.elements?, bind, Except.bind,
    hread]

/-- Of a descriptor that has form, exactly the grammar spelled out is made. -/
theorem build_eq_ok_iff {d : Value} {start : Label} {rules : List Rule} {g : Grammar}
    (h : HasForm d start rules) :
    (∃ log, build d = .ok (g, log)) ↔ g.rules = rules ∧ g.start = start.val := by
  simp only [build_of_hasForm h, mapError_eq_ok_iff, Grammar.exists_construct_eq_ok_iff]
  rw [← Grammar.ofRules, Grammar.ofRules_eq_ok_iff, Value.text.injEq, eq_comm (a := start.val)]

/-! ### The whole check -/

variable {validator : Validator}

theorem schemaFault?_eq_none_iff {d : Value} :
    schemaFault? validator d = none ↔ validator.errors Schema.document d = [] := by
  have hperm := List.mergeSort_perm (validator.errors Schema.document d)
    fun a b => decide (Path.render a.path ≤ Path.render b.path)
  simp only [schemaFault?]
  split
  · rename_i h
    rw [h] at hperm
    exact iff_of_true rfl hperm.nil_eq.symm
  · rename_i first others h
    rw [h] at hperm
    refine iff_of_false nofun fun hnil => ?_
    rw [hnil] at hperm
    cases hperm.eq_nil

theorem check_eq_ok_iff {strict : Bool} {d : Value} :
    check validator strict d = .ok () ↔
      basicFault? d = none ∧ (strict = true → validator.errors Schema.document d = []) := by
  rw [← schemaFault?_eq_none_iff]
  cases hbasic : basicFault? d with
  | some fault => simp [check, fault?, hbasic]
  | none =>
    cases strict with
    | false => simp [check, fault?, hbasic]
    | true => cases hschema : schemaFault? validator d <;> simp [check, fault?, hbasic, hschema]

theorem precheck_eq_ok_iff {mode : Mode} {d : Value} :
    precheck validator mode d = .ok () ↔
      (mode.validate = true → check validator mode.strict d = .ok ()) := by
  unfold precheck
  split
  · rename_i hvalidate
    rw [mapError_eq_ok_iff, forall_prop_of_true hvalidate]
  · rename_i hvalidate
    exact iff_of_true rfl fun h => absurd h hvalidate

theorem read_of_precheck_error {mode : Mode} {d : Value} {e : ReadError}
    (h : precheck validator mode d = .error e) : read validator mode d = .error e := by
  simp only [read, load, h, bind, Except.bind, Except.map]

/-- What is read is what is built, if the check lets it pass. -/
theorem read_of_precheck_ok {mode : Mode} {d : Value} (h : precheck validator mode d = .ok ()) :
    read validator mode d = (build d).map Prod.fst := by
  simp only [read, load, h, bind, Except.bind]
  cases build d with
  | error e => rfl
  | ok built => rfl

theorem read_eq_ok_iff {mode : Mode} {d : Value} {g : Grammar} :
    read validator mode d = .ok g ↔
      (mode.validate = true → check validator mode.strict d = .ok ()) ∧
        ∃ log, build d = .ok (g, log) := by
  rw [← precheck_eq_ok_iff]
  cases hcheck : precheck validator mode d with
  | error e => simp [read_of_precheck_error hcheck]
  | ok => rw [read_of_precheck_ok hcheck, map_fst_eq_ok_iff, and_iff_right rfl]

end Descriptor

end Acceptor
