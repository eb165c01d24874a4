import Acceptor.Descriptor.Validator
import Acceptor.Proofs.Descriptor.Form

/-!
# The place of the first fault

The check of a descriptor goes through rules, alternatives and symbols in document order and stops
at the first fault.  What it reports is measured against the descriptor itself here:

* `Value.at?` follows a path into a value, and `Descriptor.Place` is a place in a rule's record that
  can be at fault;
* `Descriptor.Place.Refused` says what the check refuses at a place: a value that stands there, or
  that none does;
* `Descriptor.Place.First` says that all that comes before the place in the rule's record is in
  order.

`Descriptor.first_of_ruleFault?` finds both for one rule, and `Descriptor.check_first_fault` for a
whole descriptor: the path that is reported leads to what is refused, and all rules, alternatives
and symbols before it spell something out.
-/

namespace Acceptor

/-! ### Following a path -/

/-- An item of a list; other values have none. -/
def Value.item? : Value → ℤ → Option Value
  | .list items, .ofNat i => items[i]?
  | _, _ => none

/-- What one step of a path leads to. -/
def Value.step? (v : Value) : Path.Step → Option Value
  | .field key => v.field? key
  | .index i => v.item? i

/-- What a path leads to. -/
def Value.at? (v : Value) : Path → Option Value
  | [] => some v
  | step :: path => (v.step? step).bind fun inner => inner.at? path

theorem Value.at?_singleton (v : Value) (step : Path.Step) : v.at? [step] = v.step? step :=
  Option.bind_fun_some _

theorem Value.at?_append (v : Value) (path more : Path) :
    v.at? (path ++ more) = (v.at? path).bind fun inner => inner.at? more := by
  induction path generalizing v with
  | nil => rfl
  | cons step path ih =>
    rw [List.cons_append, at?, at?, Option.bind_assoc]
    simp only [ih]

/-- What is found first in a list, with its index: nothing is found before it. -/
theorem exists_of_findSome?_zipIdx {α β : Type} {f : α × ℕ → Option β} {l : List α} {b : β}
    (h : l.zipIdx.findSome? f = some b) :
    ∃ (i : ℕ) (x : α), l[i]? = some x ∧ f (x, i) = some b ∧
      ∀ i' < i, ∃ y, l[i']? = some y ∧ f (y, i') = none := by
  obtain ⟨before, found, after, hl, hfound, hbefore⟩ := List.findSome?_eq_some_iff.1 h
  -- at an index of the numbered list stands what the list has there
  have hitem : ∀ (i : ℕ) p, (before ++ found :: after)[i]? = some p →
      ∃ x, l[i]? = some x ∧ (x, i) = p := by
    intro i p hp
    rw [← hl, List.getElem?_zipIdx, Nat.zero_add] at hp
    exact Option.map_eq_some_iff.1 hp
  obtain ⟨x, hx, rfl⟩ := hitem before.length found (by simp)
  refine ⟨before.length, x, hx, hfound, fun i hi => ?_⟩
  obtain ⟨y, hy, hmem⟩ := hitem i before[i]
    ((List.getElem?_append_left hi).trans (List.getElem?_eq_getElem hi))
  exact ⟨y, hy, hbefore _ (hmem ▸ List.getElem_mem hi)⟩

namespace Descriptor

/-! ### Places in a rule's record -/

/-- A place in a rule's record. -/
inductive Place where
  /-- The record itself. -/
  | record
  /-- Its name. -/
  | name
  /-- All its alternatives. -/
  | alternatives
  /-- One alternative. -/
  | alternative (j : ℕ)
  /-- One symbol of an alternative. -/
  | symbol (j k : ℕ)
  /-- A field of a symbol's record. -/
  | field (j k : ℕ) (key : String)

/-- A value that a symbol's record may have under the key. -/
inductive Fits : String → Value → Prop
  | literal (text : Label) : Fits "literal" (.text text.val)
  | lexical (c : LexicalClass) : Fits "class" (.text c.tag)
  | nonterminal (name : Label) : Fits "nonterminal" (.text name.val)
  | empty : Fits "empty" (.bool true)

namespace Place

/-- The way from the rule's record to the place. -/
def path : Place → Path
  | .record => []
  | .name => [.field "nonterminal_name"]
  | .alternatives => [.field "alternatives"]
  | .alternative j => [.field "alternatives", .index j]
  | .symbol j k => [.field "alternatives", .index j, .index k]
  | .field j k key => [.field "alternatives", .index j, .index k, .field key]

/-- The text of the path to a place in the rule of index `i`. -/
def text (i : ℕ) : Place → String
  | .record => "rules[" ++ toString i ++ "]"
  | .name => "rules[" ++ toString i ++ "].nonterminal_name"
  | .alternatives => "rules[" ++ toString i ++ "].alternatives"
  | .alternative j => "rules[" ++ toString i ++ "].alternatives[" ++ toString j ++ "]"
  | .symbol j k =>
    "rules[" ++ toString i ++ "].alternatives[" ++ toString j ++ "][" ++ toString k ++ "]"
  | .field j k key =>
    "rules[" ++ toString i ++ "].alternatives[" ++ toString j ++ "][" ++ toString k ++ "]." ++ key

theorem render_path (i : ℕ) (p : Place) :
    Path.render (DescriptorFault.rulePath i ++ p.path) = p.text i := by
  have hint : ∀ n : ℕ, toString (n : ℤ) = toString n := fun _ => rfl
  unfold text
  cases p <;>
    simp [DescriptorFault.rulePath, path, Path.render, Path.append, hint, String.append_assoc]

/-- The alternative that the place belongs to. -/
def alternative? : Place → Option ℕ
  | .alternative j => some j
  | .symbol j _ => some j
  | .field j _ _ => some j
  | _ => none

/-- The symbol that the place belongs to, with its alternative. -/
def symbol? : Place → Option (ℕ × ℕ)
  | .symbol j k => some (j, k)
  | .field j k _ => some (j, k)
  | _ => none

/-- What is found at the place, if anything, is refused there. -/
def Refused (found : Option Value) : Place → Prop
  | .record => ∃ v, found = some v ∧ ∀ fields, v ≠ .record fields
  | .name => ∀ name : Label, found ≠ some (.text name.val)
  | .alternatives => ∀ items, items ≠ [] → found ≠ some (.list items)
  | .alternative _ => ∃ v, found = some v ∧ ∀ items, v ≠ .list items
  | .symbol _ _ => ∃ v, found = some v ∧ ∀ key ∈ symbolKeys, ∀ inner, v ≠ .record [(key, inner)]
  | .field _ _ key => ∃ v, found = some v ∧ key ∈ symbolKeys ∧ ¬ Fits key v

/-- Everything in the rule's record that comes before the place is in order. -/
structure First (v : Value) (p : Place) : Prop where
  /-- What is no record is refused as such. -/
  record : p ≠ .record → ∃ fields, v = .record fields
  /-- The name comes before the alternatives. -/
  name : p ≠ .record → p ≠ .name → ∃ name : Label, v.at? Place.name.path = some (.text name.val)
  /-- Alternatives before that of the place spell out alternatives. -/
  alternatives : ∀ j, p.alternative? = some j → ∀ j' < j, ∃ a : Alternative,
    v.at? (Place.alternative j').path = some (.list (a.map Symbol.toValue))
  /-- Symbols before that of the place spell out symbols. -/
  symbols : ∀ j k, p.symbol? = some (j, k) → ∀ k' < k, ∃ s : Symbol,
    v.at? (Place.symbol j k').path = some s.toValue

end Place

/-! ### Faults of a rule's record -/

/-- The place of a fault in a symbol's record. -/
def symbolPlace (j k : ℕ) : SymbolRecordFault → Place
  | .notRecord _ => .symbol j k
  | .keys _ => .symbol j k
  | .classTag _ => .field j k "class"
  | .emptyMarker _ => .field j k "empty"
  | .text key _ => .field j k key

/-- The place of a fault in a rule's record. -/
def rulePlace : RuleRecordFault → Place
  | .notRecord => .record
  | .name _ => .name
  | .alternativesNotList _ => .alternatives
  | .noAlternatives _ => .alternatives
  | .alternativeNotList _ j => .alternative j
  | .symbol _ j k fault => symbolPlace j k fault

theorem path_rulePlace (f : RuleRecordFault) : (rulePlace f).path = f.path := by
  cases f with
  | symbol rule j k fault => cases fault <;> rfl
  | _ => rfl

theorem not_fits_of_fieldFault? {key : String} {v : Value} {f : SymbolRecordFault}
    (h : fieldFault? key v = some f) : ¬ Fits key v := by
  intro hfits
  obtain ⟨s, hs⟩ : ∃ s : Symbol, Value.record [(key, v)] = s.toValue := by
    cases hfits with
    | literal text => exact ⟨.literal text, rfl⟩
    | lexical c => exact ⟨.lexical c, rfl⟩
    | nonterminal name => exact ⟨.nonterminal name, rfl⟩
    | empty => exact ⟨.empty, rfl⟩
  -- the record of a symbol has no fault
  have hnone : fieldFault? key v = none := symbolFault?_eq_none_iff.2 ⟨s, hs⟩
  cases hnone.symm.trans h

/-- What is wrong with the only field of a symbol's record is its key, or the value under it. -/
theorem fieldFault?_cases {key : String} {v : Value} {f : SymbolRecordFault}
    (h : fieldFault? key v = some f) (j k : ℕ) :
    key ∉ symbolKeys ∧ f.path = [] ∧ symbolPlace j k f = .symbol j k ∨
      key ∈ symbolKeys ∧ f.path = [.field key] ∧ symbolPlace j k f = .field j k key := by
  revert h
  fun_cases fieldFault? key v with
  | case1 v hkey hv =>
    rintro ⟨⟩
    exact .inr ⟨hkey ▸ by decide, hkey ▸ rfl, hkey ▸ rfl⟩
  | case2 => rintro ⟨⟩
  | case3 => rintro ⟨⟩
  | case4 hclass hkey hv =>
    rintro ⟨⟩
    exact .inr ⟨hkey ▸ by decide, hkey ▸ rfl, hkey ▸ rfl⟩
  | case5 v hclass hempty hkey hv =>
    rintro ⟨⟩
    exact .inr ⟨hkey, rfl, rfl⟩
  | case6 => rintro ⟨⟩
  | case7 v hclass hempty hkey =>
    rintro ⟨⟩
    exact .inl ⟨hkey, rfl, rfl⟩

theorem refused_of_symbolFault? {s : Value} {f : SymbolRecordFault} (h : symbolFault? s = some f)
    (j k : ℕ) : (symbolPlace j k f).Refused (s.at? f.path) := by
  revert h
  fun_cases symbolFault? s with
  | case1 key v =>
    intro h
    rcases fieldFault?_cases h j k with ⟨hkey, hpath, hplace⟩ | ⟨hkey, hpath, hplace⟩
    · rw [hpath, hplace]
      refine ⟨_, rfl, fun key' hkey' inner heq => ?_⟩
      cases heq
      exact hkey hkey'
    · rw [hpath, hplace]
      refine ⟨v, ?_, hkey, not_fits_of_fieldFault? h⟩
      rw [Value.at?_singleton]
      exact List.lookup_cons_self
  | case2 fields hfields =>
    rintro ⟨⟩
    refine ⟨_, rfl, fun key _ inner heq => ?_⟩
    exact hfields key inner (Value.record.inj heq)
  | case3 s hsingle hrecord =>
    rintro ⟨⟩
    exact ⟨s, rfl, fun key _ inner heq => hrecord _ heq⟩

theorem alternativeFault?_cases {rule : String} {j : ℕ} {a : Value} {f : RuleRecordFault}
    (h : alternativeFault? rule j a = some f) :
    ((∀ items, a ≠ .list items) ∧ f = .alternativeNotList rule j) ∨
      ∃ symbols k s fault, a = .list symbols ∧ symbols[k]? = some s ∧
        symbolFault? s = some fault ∧ f = .symbol rule j k fault ∧
        ∀ k' < k, ∃ s' : Symbol, symbols[k']? = some s'.toValue := by
  revert h
  fun_cases alternativeFault? rule j a with
  | case1 symbols =>
    intro h
    obtain ⟨k, s, hs, hlocated, hbefore⟩ := exists_of_findSome?_zipIdx h
    obtain ⟨fault, hfault, rfl⟩ := Option.map_eq_some_iff.1 hlocated
    refine .inr ⟨symbols, k, s, fault, rfl, hs, hfault, rfl, fun k' hk' => ?_⟩
    obtain ⟨_, hs', hnone⟩ := hbefore k' hk'
    obtain ⟨symbol, rfl⟩ := symbolFault?_eq_none_iff.1 (Option.map_eq_none_iff.1 hnone)
    exact ⟨symbol, hs'⟩
  | case2 a hlist =>
    rintro ⟨⟩
    exact .inl ⟨hlist, rfl⟩

theorem alternativesFault?_cases {rule : String} {v : Value} {f : RuleRecordFault}
    (h : alternativesFault? rule v = some f) :
    ((∀ items, items ≠ [] → v ≠ .list items) ∧
        (f = .noAlternatives rule ∨ f = .alternativesNotList rule)) ∨
      ∃ items j a, v = .list items ∧ items[j]? = some a ∧ alternativeFault? rule j a = some f ∧
        ∀ j' < j, ∃ a' : Alternative, items[j']? = some (.list (a'.map Symbol.toValue)) := by
  revert h
  fun_cases alternativesFault? rule v with
  | case1 =>
    rintro ⟨⟩
    exact .inl ⟨fun items hne heq => hne (Value.list.inj heq).symm, .inl rfl⟩
  | case2 items hne =>
    intro h
    obtain ⟨j, a, ha, hfault, hbefore⟩ := exists_of_findSome?_zipIdx h
    refine .inr ⟨items, j, a, rfl, ha, hfault, fun j' hj' => ?_⟩
    obtain ⟨_, ha', hnone⟩ := hbefore j' hj'
    obtain ⟨alternative, rfl⟩ := alternativeFault?_eq_none_iff.1 hnone
    exact ⟨alternative, ha'⟩
  | case3 v hnil hlist =>
    rintro ⟨⟩
    exact .inl ⟨fun items _ => hlist items, .inr rfl⟩

/-- The name of the rule that a record gives, if it gives one. -/
def nameIn (v : Value) : Option Label := (v.field? "nonterminal_name").bind Value.label?

theorem nameIn_eq_some_iff {v : Value} {name : Label} :
    nameIn v = some name ↔ v.field? "nonterminal_name" = some (.text name.val) := by
  simp only [nameIn, Option.bind_eq_some_iff, Value.label?_eq_some, exists_eq_right]

theorem ruleFault?_cases {v : Value} {f : RuleRecordFault} (h : ruleFault? v = some f) :
    ((∀ fields, v ≠ .record fields) ∧ f = .notRecord) ∨ (∃ fields, v = .record fields) ∧
      ((nameIn v = none ∧ ∃ found, f = .name found) ∨
        ∃ name, nameIn v = some name ∧
          alternativesFault? name.val ((v.field? "alternatives").getD .null) = some f) := by
  revert h
  fun_cases ruleFault? v with
  | case1 fields name hname =>
    rintro ⟨⟩
    refine .inr ⟨⟨fields, rfl⟩, .inl ⟨?_, name, rfl⟩⟩
    -- an absent field counts as null, which is no name either
    refine Option.eq_none_iff_forall_not_mem.2 fun label hlabel => ?_
    have hlookup : fields.lookup "nonterminal_name" = _ := nameIn_eq_some_iff.1 hlabel
    simp [name, hlookup] at hname
  | case2 fields name label hname =>
    intro h
    refine .inr ⟨⟨fields, rfl⟩, .inr ⟨label, nameIn_eq_some_iff.2 ?_, h⟩⟩
    refine eq_some_of_getD_eq (Value.label?_eq_some.1 hname) ?_
    rintro ⟨⟩
  | case3 v hrecord =>
    rintro ⟨⟩
    exact .inl ⟨hrecord, rfl⟩

/-! ### Following the path to a fault -/

theorem at?_name (v : Value) : v.at? Place.name.path = v.field? "nonterminal_name" :=
  v.at?_singleton _

theorem at?_alternatives (v : Value) : v.at? Place.alternatives.path = v.field? "alternatives" :=
  v.at?_singleton _

theorem at?_alternative {v : Value} {items : List Value}
    (h : v.field? "alternatives" = some (.list items)) (j : ℕ) :
    v.at? (Place.alternative j).path = items[j]? := by
  have hpath : (Place.alternative j).path = Place.alternatives.path ++ [.index j] := rfl
  rw [hpath, Value.at?_append, at?_alternatives, h, Option.bind_some, Value.at?_singleton]
  rfl

theorem at?_symbol {v : Value} {items symbols : List Value}
    (h : v.field? "alternatives" = some (.list items)) {j : ℕ}
    (hj : items[j]? = some (.list symbols)) (k : ℕ) : v.at? (Place.symbol j k).path = symbols[k]? := by
  have hpath : (Place.symbol j k).path = (Place.alternative j).path ++ [.index k] := rfl
  rw [hpath, Value.at?_append, at?_alternative h, hj, Option.bind_some, Value.at?_singleton]
  rfl

theorem path_symbolPlace (j k : ℕ) (f : SymbolRecordFault) :
    (symbolPlace j k f).path = (Place.symbol j k).path ++ f.path := by
  cases f <;> rfl

/-- The fault of one alternative, of a rule whose name and alternatives before this one are in
order. -/
theorem first_of_alternativeFault? {v a : Value} {items : List Value} {rule : String} {j : ℕ}
    {f : RuleRecordFault} (hrecord : ∃ fields, v = .record fields)
    (hname : ∃ name : Label, v.at? Place.name.path = some (.text name.val))
    (hitems : v.field? "alternatives" = some (.list items))
    (hbefore : ∀ j' < j, ∃ a' : Alternative, items[j']? = some (.list (a'.map Symbol.toValue)))
    (ha : items[j]? = some a) (h : alternativeFault? rule j a = some f) :
    (rulePlace f).Refused (v.at? (rulePlace f).path) ∧ (rulePlace f).First v ∧
      f.nonterminal = some rule := by
  have hearlier : ∀ j' < j, ∃ a' : Alternative,
      v.at? (Place.alternative j').path = some (.list (a'.map Symbol.toValue)) := by
    intro j' hj'
    rw [at?_alternative hitems]
    exact hbefore j' hj'
  rcases alternativeFault?_cases h with
    ⟨hnot, rfl⟩ | ⟨symbols, k, s, fault, rfl, hs, hfault, rfl, hsymbols⟩
  · refine ⟨⟨a, (at?_alternative hitems j).trans ha, hnot⟩,
      ⟨fun _ => hrecord, fun _ _ => hname, ?_, nofun⟩, rfl⟩
    rintro _ ⟨⟩
    exact hearlier
  · have hplace : (symbolPlace j k fault).alternative? = some j ∧
        (symbolPlace j k fault).symbol? = some (j, k) := by
      cases fault <;> exact ⟨rfl, rfl⟩
    refine ⟨?_, ⟨fun _ => hrecord, fun _ _ => hname, fun j' hj' => ?_, fun j' k' hk' => ?_⟩, rfl⟩
    · show (symbolPlace j k fault).Refused (v.at? (symbolPlace j k fault).path)
      rw [path_symbolPlace, Value.at?_append, at?_symbol hitems ha, hs, Option.bind_some]
      exact refused_of_symbolFault? hfault j k
    · obtain rfl := Option.some.inj (hplace.1.symm.trans hj')
      exact hearlier
    · obtain ⟨rfl, rfl⟩ := Prod.mk.inj (Option.some.inj (hplace.2.symm.trans hk'))
      intro k' hk'
      rw [at?_symbol hitems ha]
      exact hsymbols k' hk'

/-- The fault of the alternatives of a rule whose name is in order. -/
theorem first_of_alternativesFault? {v : Value} {name : Label} {f : RuleRecordFault}
    (hrecord : ∃ fields, v = .record fields) (hname : nameIn v = some name)
    (h : alternativesFault? name.val ((v.field? "alternatives").getD .null) = some f) :
    (rulePlace f).Refused (v.at? (rulePlace f).path) ∧ (rulePlace f).First v ∧
      f.nonterminal = some name.val := by
  have hfirst : ∃ name : Label, v.at? Place.name.path = some (.text name.val) :=
    ⟨name, by rw [at?_name, nameIn_eq_some_iff.1 hname]⟩
  rcases alternativesFault?_cases h with ⟨hrefused, hf⟩ | ⟨items, j, a, hitems, ha, hfault, hbefore⟩
  · have hplace : rulePlace f = .alternatives ∧ f.nonterminal = some name.val := by
      rcases hf with rfl | rfl
      · exact ⟨rfl, rfl⟩
      · exact ⟨rfl, rfl⟩
    rw [hplace.1]
    refine ⟨fun items hne hfound => ?_, ⟨fun _ => hrecord, fun _ _ => hfirst, nofun, nofun⟩,
      hplace.2⟩
    rw [at?_alternatives] at hfound
    exact hrefused items hne (by rw [hfound, Option.getD_some])
  · have hlist : v.field? "alternatives" = some (.list items) := eq_some_of_getD_eq hitems nofun
    exact first_of_alternativeFault? hrecord hfirst hlist hbefore ha hfault

/-- **The fault of a rule's record**: its place is the first that is refused, and it is reported
with the name of the rule, if the record gives one. -/
theorem first_of_ruleFault? {v : Value} {f : RuleRecordFault} (h : ruleFault? v = some f) :
    (rulePlace f).Refused (v.at? (rulePlace f).path) ∧ (rulePlace f).First v ∧
      f.nonterminal = (nameIn v).map Subtype.val := by
  rcases ruleFault?_cases h with ⟨hnot, rfl⟩ | ⟨hrecord, ⟨hname, found, rfl⟩ | ⟨name, hname, h⟩⟩
  · refine ⟨⟨v, rfl, hnot⟩, ⟨fun hne => absurd rfl hne, fun hne => absurd rfl hne, nofun, nofun⟩,
      ?_⟩
    cases v with
    | record fields => exact absurd rfl (hnot fields)
    | _ => rfl
  · refine ⟨fun name hfound => ?_, ⟨fun _ => hrecord, fun _ hne => absurd rfl hne, nofun, nofun⟩,
      ?_⟩
    · have hsome : nameIn v = some name := nameIn_eq_some_iff.2 ((at?_name v).symm.trans hfound)
      cases hname.symm.trans hsome
    · rw [hname]
      rfl
  · rw [hname]
    exact first_of_alternativesFault? hrecord hname h

/-! ### Faults of a descriptor -/

theorem basicFault?_eq_findSome? {d : Value} {start : Label} {records : List Value}
    (hstart : d.field? "start_symbol" = some (.text start.val))
    (hrecords : d.field? "rules" = some (.list records)) (hne : records ≠ []) :
    basicFault? d = records.zipIdx.findSome? fun r => (ruleFault? r.1).map (.rule r.2) := by
  cases d with
  | record fields =>
    simp only [Value.field?] at hstart hrecords
    obtain ⟨r, records, rfl⟩ := List.exists_cons_of_ne_nil hne
    simp [basicFault?, requiredFields, hstart, hrecords, rulesFault?]
  | _ => cases hstart

theorem at?_rulePath {d : Value} {records : List Value}
    (h : d.field? "rules" = some (.list records)) (i : ℕ) :
    d.at? (DescriptorFault.rulePath i) = records[i]? := by
  have hpath : DescriptorFault.rulePath i = [.field "rules"] ++ [.index i] := rfl
  rw [hpath, Value.at?_append, Value.at?_singleton, Value.step?, h, Option.bind_some,
    Value.at?_singleton]
  rfl

theorem check_of_basicFault? {d : Value} {fault : DescriptorFault} (h : basicFault? d = some fault)
    (validator : Validator) (strict : Bool) : check validator strict d = .error fault := by
  simp only [check, fault?, h]

/-- **The first fault in document order.**  A descriptor that has a start symbol and a list of rules
and does not pass the basic checks is refused, strictly or not and whatever the validator, for a
fault whose path leads to the place in one of the rules at which something is refused, while all
rules before it, and in it all alternatives and symbols before the place, are in order.  The
nonterminal reported is the name of that rule, if its record gives one. -/
theorem check_first_fault {d : Value} {start : Label} {records : List Value}
    (hstart : d.field? "start_symbol" = some (.text start.val))
    (hrecords : d.field? "rules" = some (.list records)) (hne : records ≠ [])
    (hfault : basicFault? d ≠ none) :
    ∃ fault i v place, (∀ validator strict, check validator strict d = .error fault) ∧
      fault.report.path = Place.text i place ∧
      (∀ i' < i, ∃ v' r, d.at? (DescriptorFault.rulePath i') = some v' ∧ Describes v' r) ∧
      d.at? (DescriptorFault.rulePath i) = some v ∧
      place.First v ∧ place.Refused (d.at? (DescriptorFault.rulePath i ++ place.path)) ∧
      fault.report.nonterminal = (nameIn v).map fun name => .text name.val := by
  obtain ⟨fault, hfault⟩ := Option.ne_none_iff_exists'.1 hfault
  have hfound := hfault
  rw [basicFault?_eq_findSome? hstart hrecords hne] at hfound
  obtain ⟨i, v, hv, hlocated, hbefore⟩ := exists_of_findSome?_zipIdx hfound
  obtain ⟨f, hf, rfl⟩ := Option.map_eq_some_iff.1 hlocated
  obtain ⟨hrefused, hfirst, hname⟩ := first_of_ruleFault? hf
  refine ⟨_, i, v, rulePlace f, check_of_basicFault? hfault, ?_, fun i' hi' => ?_, ?_, hfirst, ?_,
    ?_⟩
  · rw [← Place.render_path, path_rulePlace]
    rfl
  · obtain ⟨v', hv', hnone⟩ := hbefore i' hi'
    obtain ⟨r, hr⟩ := ruleFault?_eq_none_iff.1 (Option.map_eq_none_iff.1 hnone)
    exact ⟨v', r, (at?_rulePath hrecords i').trans hv', hr⟩
  · exact (at?_rulePath hrecords i).trans hv
  · rwa [Value.at?_append, at?_rulePath hrecords, hv, Option.bind_some]
  · show f.nonterminal.map Value.text = _
    rw [hname, Option.map_map]
    rfl

/-- A descriptor with faults in three rules.  The first of them is the class of the second symbol of
the second alternative of the second rule. -/
def measures : Value :=
  .record
    [("rules", .list
        [.record
          [("nonterminal_name", .text "measure"),
            ("alternatives", .list [.list [.record [("nonterminal", .text "amount")]]])],
          .record
            [("alternatives", .list
                [.list [],
                  .list
                    [.record [("empty", .bool true)], .record [("class", .text "decimal")], .null],
                  .int 3]),
              ("nonterminal_name", .text "amount")],
          .record [("nonterminal_name", .text "")],
          .text "unit"]),
      ("start_symbol", .text "measure")]

theorem check_first_fault_measures :
    basicFault? measures ≠ none ∧
      ∃ fault i v place, check .published true measures = .error fault ∧
        fault.report.path = "rules[1].alternatives[1][1].class" ∧
        fault.report.path = Place.text i place ∧
        place.First v ∧ place.Refused (measures.at? (DescriptorFault.rulePath i ++ place.path)) ∧
        fault.report.nonterminal = some (.text "amount") := by
  have hfault : basicFault? measures ≠ none := nofun
  have hcheck : check .published true measures =
      .error (.rule 1 (.symbol "amount" 1 1 (.classTag (.text "decimal")))) := rfl
  obtain ⟨fault, i, v, place, herror, hpath, -, -, hfirst, hrefused, -⟩ :=
    @check_first_fault measures ⟨"measure", by decide⟩ _ rfl rfl nofun hfault
  obtain rfl := Except.error.inj (hcheck.symm.trans (herror .published true))
  exact ⟨hfault, _, i, v, place, hcheck, by decide, hpath, hfirst, hrefused, rfl⟩

end Descriptor

end Acceptor
