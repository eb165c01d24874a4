import Acceptor.Descriptor.Validator
import Acceptor.Proofs.Descriptor.Form

/-!
# Reading under the check

The check and the reader go through a descriptor on their own.  A descriptor that passes the check
can always be read up to its rules; after that only the names in it can be at fault, which the check
does not look at.  They are in order (`Descriptor.Resolves`) if no name is declared twice and the
start symbol and all names that alternatives mention are declared.

`Descriptor.read_checked` says what this comes to: a descriptor gives a grammar iff it passes the
check and its names are in order, and the grammar is the one spelled out.  This holds whatever the
validator is that the strict check asks.
-/

namespace Acceptor

namespace Descriptor

/-! ### The names in a descriptor -/

/-- What stands under the names of the rules, in order. -/
def declared (d : Value) : List Value :=
  (d.itemsAt "rules").filterMap fun r => r.field? "nonterminal_name"

/-- What a rule's record mentions in its alternatives, in order. -/
def mentionedBy (r : Value) : List Value :=
  (r.itemsAt "alternatives").flatMap fun a => a.items.filterMap fun s => s.field? "nonterminal"

/-- The names in a descriptor are in order. -/
structure Resolves (d : Value) : Prop where
  /-- No name is declared twice. -/
  distinct : (declared d).Nodup
  /-- The start symbol is declared. -/
  start : ∃ name ∈ declared d, d.field? "start_symbol" = some name
  /-- All that alternatives mention is declared. -/
  closed : ∀ r ∈ d.itemsAt "rules", ∀ name ∈ mentionedBy r, name ∈ declared d

theorem field?_nonterminal_toValue (s : Symbol) :
    s.toValue.field? "nonterminal" = s.reference?.map .text := by
  cases s with
  | literal text => simp [Symbol.toValue, Value.field?, List.lookup_cons, Symbol.reference?]
  | lexical c => simp [Symbol.toValue, Value.field?, List.lookup_cons, Symbol.reference?]
  | nonterminal name => simp [Symbol.toValue, Value.field?, Symbol.reference?]
  | empty => rfl

theorem filterMap_nonterminal (a : Alternative) :
    (a.map Symbol.toValue).filterMap (fun s => s.field? "nonterminal") =
      (a.filterMap Symbol.reference?).map .text := by
  rw [List.filterMap_map, List.map_filterMap]
  exact List.filterMap_congr fun s _ => field?_nonterminal_toValue s

theorem Describes.mentionedBy_eq {v : Value} {r : Rule} (h : Describes v r) :
    mentionedBy v = r.references.map .text := by
  have hitems : v.itemsAt "alternatives" =
      r.alternatives.map fun a => .list (a.map Symbol.toValue) :=
    Value.itemsAt_eq h.alternatives
  rw [mentionedBy, hitems, List.flatMap_map, Rule.references, List.map_flatMap]
  exact List.flatMap_congr fun a _ => filterMap_nonterminal a

section

variable {d : Value} {start : Label} {rules : List Rule}

theorem HasForm.describes (h : HasForm d start rules) :
    List.Forall₂ Describes (d.itemsAt "rules") rules := by
  obtain ⟨records, hrecords, hdescribes⟩ := h.records
  rwa [Value.itemsAt_eq hrecords]

theorem filterMap_name_of_describes {records : List Value}
    (h : List.Forall₂ Describes records rules) :
    records.filterMap (fun r => r.field? "nonterminal_name") = (ruleNames rules).map .text := by
  induction h with
  | nil => rfl
  | cons hr _ ih =>
    simp only [List.filterMap_cons, hr.name, ih]
    rfl

theorem forall_mentioned_of_describes {records : List Value} {p : Value → Prop}
    (h : List.Forall₂ Describes records rules) :
    (∀ v ∈ records, ∀ name ∈ mentionedBy v, p name) ↔
      ∀ r ∈ rules, ∀ name ∈ r.references, p (.text name) := by
  induction h with
  | nil => simp
  | cons hr _ ih =>
    rw [List.forall_mem_cons, List.forall_mem_cons, ih, hr.mentionedBy_eq, List.forall_mem_map]

/-- The names in a descriptor are in order iff those of its rules are. -/
theorem HasForm.resolves_iff (h : HasForm d start rules) :
    Resolves d ↔ (ruleNames rules).Nodup ∧ start.val ∈ ruleNames rules ∧
      ∀ r ∈ rules, ∀ name ∈ r.references, name ∈ ruleNames rules := by
  have hdeclared : declared d = (ruleNames rules).map .text := filterMap_name_of_describes h.describes
  have hinj : Function.Injective Value.text := fun _ _ => Value.text.inj
  have hmem : ∀ name, Value.text name ∈ declared d ↔ name ∈ ruleNames rules := by
    intro name
    rw [hdeclared, List.mem_map_of_injective hinj]
  have hclosed := forall_mentioned_of_describes (p := (· ∈ declared d)) h.describes
  simp only [hmem] at hclosed
  constructor
  · rintro ⟨hdistinct, ⟨name, hname, hstart⟩, hmentioned⟩
    rw [hdeclared, List.nodup_map_iff hinj] at hdistinct
    obtain rfl := Option.some.inj (h.start.symm.trans hstart)
    exact ⟨hdistinct, (hmem _).1 hname, hclosed.1 hmentioned⟩
  · rintro ⟨hdistinct, hstart, hreferences⟩
    refine ⟨?_, ⟨_, (hmem _).2 hstart, h.start⟩, hclosed.2 hreferences⟩
    rwa [hdeclared, List.nodup_map_iff hinj]

end

/-! ### Reading -/

variable {validator : Validator}

theorem check_eq_ok_hasForm {strict : Bool} {d : Value} (h : check validator strict d = .ok ()) :
    ∃ start rules, HasForm d start rules :=
  basicFault?_eq_none_iff.1 (check_eq_ok_iff.1 h).1

theorem exists_build_eq_ok_iff {d : Value} {start : Label} {rules : List Rule}
    (h : HasForm d start rules) : (∃ g log, build d = .ok (g, log)) ↔ Resolves d := by
  rw [h.resolves_iff]
  simp only [build_eq_ok_iff h]
  constructor
  · rintro ⟨g, rfl, hstart⟩
    exact ⟨g.distinct, hstart ▸ g.startDeclared, g.closed⟩
  · rintro ⟨hdistinct, hstart, hclosed⟩
    exact ⟨⟨rules, start.val, hdistinct, hstart, hclosed⟩, rfl, rfl⟩

theorem build_error_of_hasForm {d : Value} {start : Label} {rules : List Rule} {e : ReadError}
    (h : HasForm d start rules) (he : build d = .error e) :
    ∃ fault, e = .fault (.grammar fault) := by
  rw [build_of_hasForm h] at he
  cases hg : Grammar.construct (rules.map .rule) (.text start.val) with
  | ok built => simp [hg, Except.mapError] at he
  | error e' =>
    -- references of a grammar can always be followed
    obtain ⟨fault, rfl⟩ := Grammar.construct_eq_error hg
    rw [hg] at he
    exact ⟨fault, (Except.error.inj he).symm⟩

theorem read_of_check_error {strict : Bool} {d : Value} {fault : DescriptorFault}
    (h : check validator strict d = .error fault) :
    read validator { validate := true, strict } d = .error (.fault (.descriptor fault)) :=
  read_of_precheck_error (by simp [precheck, h, Except.mapError])

theorem read_of_check_ok {strict : Bool} {d : Value} (h : check validator strict d = .ok ()) :
    read validator { validate := true, strict } d = (build d).map Prod.fst :=
  read_of_precheck_ok (by simp [precheck, h, Except.mapError])

/-- **Reading under the check.**  Whatever the value is, it gives a grammar or is reported to be
malformed; it gives one iff it passes the check and its names are in order, and this is the grammar
with the start symbol and, in order, the rules that are spelled out.  A value that passes the check
and gives no grammar is at fault in its names only, never in a symbol or a rule. -/
theorem read_checked (validator : Validator) (strict : Bool) (d : Value) :
    ((∃ g, read validator { validate := true, strict } d = .ok g) ∨
        ∃ fault, read validator { validate := true, strict } d = .error (.fault fault)) ∧
      ((∃ g, read validator { validate := true, strict } d = .ok g) ↔
        check validator strict d = .ok () ∧ Resolves d) ∧
      (∀ g, read validator { validate := true, strict } d = .ok g →
        d.field? "start_symbol" = some (.text g.start) ∧
          List.Forall₂ Describes (d.itemsAt "rules") g.rules) ∧
      ∀ e, check validator strict d = .ok () →
        read validator { validate := true, strict } d = .error e →
        ∃ fault, e = .fault (.grammar fault) := by
  cases hcheck : check validator strict d with
  | error fault => simp [read_of_check_error hcheck]
  | ok =>
    obtain ⟨start, rules, hform⟩ := check_eq_ok_hasForm hcheck
    have herror : ∀ e, (build d).map Prod.fst = .error e →
        ∃ fault, e = .fault (.grammar fault) := by
      intro e he
      exact build_error_of_hasForm hform (map_eq_error_iff.1 he)
    rw [read_of_check_ok hcheck]
    refine ⟨?_, ?_, fun g hg => ?_, fun e _ he => herror e he⟩
    · cases hread : (build d).map Prod.fst with
      | ok g => exact .inl ⟨g, rfl⟩
      | error e =>
        obtain ⟨fault, rfl⟩ := herror e hread
        exact .inr ⟨_, rfl⟩
    · simp only [map_fst_eq_ok_iff, exists_build_eq_ok_iff hform, true_and]
    · obtain ⟨rfl, hstart⟩ := (build_eq_ok_iff hform).1 (map_fst_eq_ok_iff.1 hg)
      exact ⟨hstart ▸ hform.start, hform.describes⟩

/-- The descriptor of a list of letters, whose items are described by the rule of this name. -/
def letters (item : String) : Value :=
  .record
    [("start_symbol", .text "list"),
      ("rules", .list
        [.record
          [("nonterminal_name", .text "list"),
            ("alternatives", .list
              [.list [], .list [.record [("nonterminal", .text item)],
                .record [("nonterminal", .text "list")]]])],
          .record
            [("nonterminal_name", .text "letter"),
              ("alternatives", .list [.list [.record [("class", .text "identifier")]]])]])]

theorem read_checked_letters :
    (∃ g, read .published { validate := true, strict := true } (letters "letter") = .ok g ∧
        g.start = "list" ∧ List.Forall₂ Describes ((letters "letter").itemsAt "rules") g.rules) ∧
      check .published true (letters "digit") = .ok () ∧ ¬ Resolves (letters "digit") ∧
      ∃ fault, read .published { validate := true, strict := true } (letters "digit") =
        .error (.fault (.grammar fault)) := by
  have hletter : check .published true (letters "letter") = .ok () :=
    check_eq_ok_iff.2 ⟨rfl, fun _ => rfl⟩
  have hdigit : check .published true (letters "digit") = .ok () :=
    check_eq_ok_iff.2 ⟨rfl, fun _ => rfl⟩
  have hmissing : ¬ Resolves (letters "digit") := by
    intro h
    have hdigit := h.closed _ List.mem_cons_self (.text "digit") List.mem_cons_self
    simp [declared, letters, Value.itemsAt, Value.items, Value.field?, List.lookup_cons] at hdigit
  obtain ⟨-, -, hgrammar, -⟩ := read_checked .published true (letters "letter")
  obtain ⟨hcases, hiff, -, herror⟩ := read_checked .published true (letters "digit")
  refine ⟨?_, hdigit, hmissing, ?_⟩
  · have hread : ∃ g, read .published { validate := true, strict := true } (letters "letter") =
        .ok g :=
      ⟨_, read_eq_ok_iff.2 ⟨fun _ => hletter, _, rfl⟩⟩
    obtain ⟨g, hg⟩ := hread
    obtain ⟨hstart, hrules⟩ := hgrammar g hg
    exact ⟨g, hg, (Value.text.inj (Option.some.inj hstart)).symm, hrules⟩
  · rcases hcases with hread | ⟨fault, hread⟩
    · exact absurd (hiff.1 hread).2 hmissing
    · obtain ⟨names, hnames⟩ := herror _ hdigit hread
      exact ⟨names, hnames ▸ hread⟩

end Descriptor

end Acceptor
