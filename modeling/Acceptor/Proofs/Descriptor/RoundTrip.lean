import Acceptor.Proofs.Descriptor.Conformance
import Acceptor.Proofs.Language

/-!
# Round trips through descriptors

Every grammar is read back from its descriptor, whatever the mode of reading, and the strict check
finds no fault there.  The other way round, a descriptor that was read under the strict check is
given back by its grammar, but for the order of keys and for the fields besides the start symbol
and the rules: the check refuses other fields in the records of rules and symbols only.  What the
strict check refuses is up to a validator, which is taken to be faithful to the published schema.
-/

namespace Acceptor

/-- The two values are equal up to the order of the keys in their records. -/
inductive Value.Alike : Value → Value → Prop where
  | refl (v : Value) : Alike v v
  | list {items others : List Value} (h : List.Forall₂ Alike items others) :
      Alike (.list items) (.list others)
  | record {fields others : List (String × Value)}
      (h : ∀ key, Option.Rel Alike (fields.lookup key) (others.lookup key)) :
      Alike (.record fields) (.record others)

/-- Records are alike if they have alike fields in the same order. -/
theorem Value.Alike.of_forall₂ {fields others : List (String × Value)}
    (h : List.Forall₂ (fun f f' => f.1 = f'.1 ∧ f.2.Alike f'.2) fields others) :
    (Value.record fields).Alike (.record others) := by
  refine .record fun key => ?_
  induction h with
  | nil => exact .none
  | @cons f f' _ _ hf _ ih =>
    rw [List.lookup_cons, List.lookup_cons, hf.1]
    split
    · exact .some hf.2
    · exact ih

namespace Descriptor

open Schema

/-! ### From grammars to descriptors -/

theorem hasForm_toValue (g : Grammar) : HasForm g.toValue ⟨g.start, g.start_ne_empty⟩ g.rules where
  start := rfl
  records := ⟨g.rules.map Rule.toValue, rfl, by
    rw [List.forall₂_map_left_iff, List.forall₂_same]
    exact fun r _ => describes_toValue r⟩
  nonempty := by
    intro h
    have hstart := g.startDeclared
    rw [h] at hstart
    cases hstart

theorem strayKeys_toValue (r : Rule) : strayKeys r.toValue = [] := by
  rw [Rule.toValue, strayKeys_eq_nil_iff]
  simp [ruleFields]

theorem conforms_toValue (g : Grammar) : Conforms document document g.toValue := by
  rw [conforms_document_iff, ← basicFault?_eq_none_iff_conforms]
  refine ⟨basicFault?_eq_none_iff.2 ⟨_, _, hasForm_toValue g⟩, ?_⟩
  exact List.forall_mem_map.2 fun r _ => strayKeys_toValue r

variable {validator : Validator}

theorem check_toValue (hvalidator : validator.Faithful) (strict : Bool) (g : Grammar) :
    check validator strict g.toValue = .ok () :=
  check_eq_ok_iff.2
    ⟨basicFault?_eq_none_iff.2 ⟨_, _, hasForm_toValue g⟩,
      fun _ => (hvalidator _).2 (conforms_toValue g)⟩

theorem read_toValue (hvalidator : validator.Faithful) (mode : Mode) (g : Grammar) :
    read validator mode g.toValue = .ok g :=
  read_eq_ok_iff.2
    ⟨fun _ => check_toValue hvalidator mode.strict g,
      (build_eq_ok_iff (hasForm_toValue g)).2 ⟨rfl, rfl⟩⟩

/-! ### From descriptors to grammars -/

/-- A rule's record without unknown keys is that of its rule, up to the order of keys. -/
theorem Describes.alike {v : Value} {r : Rule} (h : Describes v r) (hstray : strayKeys v = []) :
    r.toValue.Alike v := by
  obtain ⟨hname, halternatives⟩ := h
  cases v with
  | record fields =>
    simp only [Value.field?] at hname halternatives
    rw [strayKeys_eq_nil_iff] at hstray
    refine .record fun key => ?_
    by_cases hkey : key ∈ ruleFields
    · have hkey : key = "nonterminal_name" ∨ key = "alternatives" := by
        simpa [ruleFields] using hkey
      rcases hkey with rfl | rfl
      · rw [hname]
        exact .some (.refl _)
      · rw [halternatives]
        exact .some (.refl _)
    · -- neither record has such a key
      have hfields : fields.lookup key = none := by
        rw [List.lookup_eq_none_iff]
        intro f hf
        rw [bne_iff_ne]
        rintro rfl
        exact hkey (hstray f hf)
      rw [hfields, List.lookup_eq_none_iff.2]
      · exact .none
      · simpa [ruleFields] using hkey
  | _ => cases hname

/-- **Round trips.**  Let the validator be faithful.  The descriptor of a grammar, whatever the
grammar was made from, passes the strict check and gives the same grammar back.  A descriptor that
was read under the strict check is given back in its start symbol and its rules, up to the order of
keys. -/
theorem round_trip (hvalidator : validator.Faithful) :
    (∀ g : Grammar, check validator true g.toValue = .ok () ∧
        ∀ mode, read validator mode g.toValue = .ok g) ∧
      ∀ d g, read validator { validate := true, strict := true } d = .ok g →
        ∃ start rules, d.field? "start_symbol" = some start ∧ d.field? "rules" = some rules ∧
          g.toValue.Alike (.record [("start_symbol", start), ("rules", rules)]) := by
  refine ⟨fun g => ⟨check_toValue hvalidator true g, fun mode => read_toValue hvalidator mode g⟩,
    fun d g hread => ?_⟩
  obtain ⟨hcheck, hbuild⟩ := read_eq_ok_iff.1 hread
  obtain ⟨hbasic, herrors⟩ := check_eq_ok_iff.1 (hcheck rfl)
  obtain ⟨start, rules, hform⟩ := basicFault?_eq_none_iff.1 hbasic
  obtain ⟨rfl, hstart⟩ := (build_eq_ok_iff hform).1 hbuild
  obtain ⟨records, hrecords, hdescribes⟩ := hform.records
  have hstray := (conforms_document_iff.1 ((hvalidator d).1 (herrors rfl))).2
  rw [Value.itemsAt_eq hrecords] at hstray
  have halike : List.Forall₂ Value.Alike (g.rules.map Rule.toValue) records := by
    rw [List.forall₂_map_left_iff]
    refine ((List.forall₂_and_left _ _).2 ⟨hstray, hdescribes⟩).flip.imp ?_
    rintro r v ⟨hv, hr⟩
    exact hr.alike hv
  refine ⟨.text g.start, .list records, hstart ▸ hform.start, hrecords, .of_forall₂ ?_⟩
  exact .cons ⟨rfl, .refl _⟩ (.cons ⟨rfl, .list halike⟩ .nil)

/-- A descriptor with its keys in an unusual order and one field more than it needs. -/
def shuffled : Value :=
  .record
    [("comment", .text "numbers in brackets"),
      ("rules", .list
        [.record
          [("alternatives", .list
            [.list
              [.record [("literal", .text "[")], .record [("nonterminal", .text "S")],
                .record [("literal", .text "]")]],
              .list [.record [("class", .text "integer")]],
              .list [.record [("empty", .bool true)]],
              .list []]),
            ("nonterminal_name", .text "S")]]),
      ("start_symbol", .text "S")]

/-- The grammar of `shuffled`. -/
def bracketedNumbers : Grammar where
  rules :=
    [⟨⟨"S", by decide⟩,
      [[.literal ⟨"[", by decide⟩, .nonterminal ⟨"S", by decide⟩, .literal ⟨"]", by decide⟩],
        [.lexical .integer], [.empty], []],
      List.cons_ne_nil _ _⟩]
  start := "S"
  distinct := by decide
  startDeclared := by decide
  closed := by decide

theorem round_trip_shuffled :
    Validator.published.Faithful ∧
      read .published { validate := true, strict := true } shuffled = .ok bracketedNumbers ∧
      ∃ start rules, shuffled.field? "start_symbol" = some start ∧
        shuffled.field? "rules" = some rules ∧
        bracketedNumbers.toValue.Alike (.record [("start_symbol", start), ("rules", rules)]) := by
  have hcheck : check .published true shuffled = .ok () := check_eq_ok_iff.2 ⟨rfl, fun _ => rfl⟩
  have hread : read .published { validate := true, strict := true } shuffled =
      .ok bracketedNumbers :=
    read_eq_ok_iff.2 ⟨fun _ => hcheck, _, rfl⟩
  obtain ⟨-, hback⟩ := round_trip Validator.published_faithful
  exact ⟨Validator.published_faithful, hread, hback shuffled bracketedNumbers hread⟩

end Descriptor

end Acceptor
