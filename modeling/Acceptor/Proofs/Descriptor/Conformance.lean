import Acceptor.Descriptor.Validator
import Acceptor.Proofs.Descriptor.Form
import Acceptor.Value.Equality
import Mathlib.Tactic.MkIffOfInductiveProp

/-!
# Conformance to the schema

What the published schema means: `Schema.Conforms root s v` says that the value `v` conforms to the
schema `s` of the document `root`.  The keywords are those of JSON Schema, draft 2020-12, as far as
the schema of descriptors uses them; a keyword that speaks of values of one shape holds of all
others, and keywords that are not listed say nothing.

The basic check of descriptors was written without the schema, and the strict one asks a validator
besides.  Of the validator only one thing is assumed, that it reports errors exactly for the values
that do not conform (`Descriptor.Validator.Faithful`).  Then `Descriptor.check_iff_conforms` says
that check and schema agree: the strict check accepts what conforms to the schema, and the other one
what conforms to it once rules may have further fields (`Schema.lenient`).
-/

namespace Acceptor

namespace Descriptor

namespace Schema

/-! ### The meaning of schemas -/

/-- The word that schemas have for the shape of a value. -/
def typeName : Value → String
  | .null => "null"
  | .bool _ => "boolean"
  | .int _ => "number"
  | .double _ => "number"
  | .text _ => "string"
  | .list _ => "array"
  | .record _ => "object"

/-- Two values are equal as documents: numbers by their value, lists item by item, and records field
by field in any order.  A truth value equals no number. -/
inductive Equal : Value → Value → Prop where
  | null : Equal .null .null
  | bool (b : Bool) : Equal (.bool b) (.bool b)
  | number {v x : Value} (hv : typeName v = "number") (hx : typeName x = "number")
      (h : v.sameNumber x = true) : Equal v x
  | text (s : String) : Equal (.text s) (.text s)
  | list {items others : List Value} (h : List.Forall₂ Equal items others) :
      Equal (.list items) (.list others)
  | record {fields others : List (String × Value)}
      (h : ∀ key, Option.Rel Equal (fields.lookup key) (others.lookup key)) :
      Equal (.record fields) (.record others)

/-- The value holds what the keywords of a schema ask of the value alone. -/
@[mk_iff] structure Asserts (s : List (String × Value)) (v : Value) : Prop where
  /-- It has the shape. -/
  type : ∀ t, s.lookup "type" = some (.text t) → typeName v = t
  /-- A text is long enough. -/
  minLength : ∀ n, s.lookup "minLength" = some (.int n) → ∀ t, v = .text t → n ≤ t.length
  /-- A list is long enough. -/
  minItems : ∀ n, s.lookup "minItems" = some (.int n) → ∀ items, v = .list items → n ≤ items.length
  /-- A record has enough fields. -/
  minProperties : ∀ n, s.lookup "minProperties" = some (.int n) →
    ∀ fields, v = .record fields → n ≤ fields.length
  /-- A record does not have too many fields. -/
  maxProperties : ∀ n, s.lookup "maxProperties" = some (.int n) →
    ∀ fields, v = .record fields → fields.length ≤ n
  /-- A record has all fields that are required. -/
  required : ∀ keys, s.lookup "required" = some (.list keys) →
    ∀ fields, v = .record fields → ∀ key, .text key ∈ keys → (fields.lookup key).isSome
  /-- It is one of the values listed. -/
  enum : ∀ values, s.lookup "enum" = some (.list values) → ∃ x ∈ values, Equal x v
  /-- It is the value given. -/
  const : ∀ x, s.lookup "const" = some x → Equal x v

/-- The schemas that a schema has for the fields of records, by key. -/
def fieldSchemas (s : List (String × Value)) : List (String × Value) :=
  match s.lookup "properties" with
  | some (.record schemas) => schemas
  | _ => []

/-- The part of a value at the end of a path of keys. -/
def locate (v : Value) : List String → Option Value
  | [] => some v
  | key :: keys => (v.field? key).bind fun part => locate part keys

/-- The schema that a reference within the document leads to.  One that leads nowhere stands for the
schema to which nothing conforms. -/
def target (root : Value) (reference : String) : Value :=
  match (reference.toList.splitOn '/').map String.ofList with
  | "#" :: keys => (locate root keys).getD (.bool false)
  | _ => .bool false

/-- The value conforms to a schema of the document `root`. -/
inductive Conforms (root : Value) : Value → Value → Prop where
  /-- Everything conforms to the schema `true`. -/
  | always (v : Value) : Conforms root (.bool true) v
  /-- To a schema with keywords conforms what all of them hold of. -/
  | keywords {s : List (String × Value)} {v : Value} (asserts : Asserts s v)
      (reference : ∀ t, s.lookup "$ref" = some (.text t) → Conforms root (target root t) v)
      (items : ∀ s', s.lookup "items" = some s' →
        ∀ l, v = .list l → ∀ x ∈ l, Conforms root s' x)
      (fields : ∀ key s', (fieldSchemas s).lookup key = some s' →
        ∀ x, v.field? key = some x → Conforms root s' x)
      (others : ∀ s', s.lookup "additionalProperties" = some s' →
        ∀ fields, v = .record fields → ∀ f ∈ fields, (fieldSchemas s).lookup f.1 = none →
          Conforms root s' f.2) :
      Conforms root (.record s) v

/-- A document without the keyword at the end of a path of keys. -/
def without : List String → Value → Value
  | [], v => v
  | [key], .record fields => .record (fields.filter fun f => f.1 != key)
  | key :: keys, .record fields =>
    .record (fields.map fun f => if f.1 = key then (f.1, without keys f.2) else f)
  | _, v => v

/-- The schema of descriptors whose rules may have further fields. -/
def lenient : Value := without ["$defs", "rule", "additionalProperties"] document

/-- The schema of a rule that may have further fields. -/
def openRule : Value :=
  .record
    [("type", .text "object"),
      ("required", texts ["nonterminal_name", "alternatives"]),
      ("properties", .record [("nonterminal_name", label), ("alternatives", alternatives)])]

theorem lenient_eq : lenient = descriptor openRule := rfl

theorem target_rule (r : Value) : target (descriptor r) "#/$defs/rule" = r := rfl

theorem target_symbol (r : Value) : target (descriptor r) "#/$defs/symbol" = symbol := rfl

variable {root v : Value}

theorem conforms_record_iff {s : List (String × Value)} :
    Conforms root (.record s) v ↔ Asserts s v ∧
      (∀ t, s.lookup "$ref" = some (.text t) → Conforms root (target root t) v) ∧
      (∀ s', s.lookup "items" = some s' → ∀ l, v = .list l → ∀ x ∈ l, Conforms root s' x) ∧
      (∀ key s', (fieldSchemas s).lookup key = some s' →
        ∀ x, v.field? key = some x → Conforms root s' x) ∧
      ∀ s', s.lookup "additionalProperties" = some s' → ∀ fields, v = .record fields →
        ∀ f ∈ fields, (fieldSchemas s).lookup f.1 = none → Conforms root s' f.2 := by
  constructor
  · intro h
    cases h with
    | keywords asserts reference items fields others =>
      exact ⟨asserts, reference, items, fields, others⟩
  · rintro ⟨asserts, reference, items, fields, others⟩
    exact .keywords asserts reference items fields others

theorem equal_text_iff {t : String} : Equal (.text t) v ↔ v = .text t := by
  constructor
  · intro h
    cases h with
    | number hv => simp [typeName] at hv
    | text => rfl
  · rintro rfl
    exact .text t

theorem equal_bool_iff {b : Bool} : Equal (.bool b) v ↔ v = .bool b := by
  constructor
  · intro h
    cases h with
    | bool => rfl
    | number hv => simp [typeName] at hv
  · rintro rfl
    exact .bool b

example : ¬Equal (.bool true) (.int 1) := by simp [equal_bool_iff]

theorem typeName_eq_string_iff : typeName v = "string" ↔ ∃ t, v = .text t := by
  cases v <;> simp [typeName]

theorem typeName_eq_array_iff : typeName v = "array" ↔ ∃ items, v = .list items := by
  cases v <;> simp [typeName]

theorem typeName_eq_object_iff : typeName v = "object" ↔ ∃ fields, v = .record fields := by
  cases v <;> simp [typeName]

theorem not_conforms_false : ¬Conforms root (.bool false) v := nofun

/-! ### Kinds of schemas -/

theorem mem_of_lookup_eq_some {fields : List (String × Value)} {key : String}
    (h : fields.lookup key = some v) : (key, v) ∈ fields := by
  obtain ⟨before, after, rfl, -⟩ := List.lookup_eq_some_iff.1 h
  simp

theorem conforms_definition {name : String} :
    Conforms root (definition name) v ↔ Conforms root (target root ("#/$defs/" ++ name)) v := by
  rw [definition, conforms_record_iff]
  simp [asserts_iff, List.lookup_cons, fieldSchemas]

/-- A list whose items conform to a schema. -/
theorem conforms_list {s : Value} :
    Conforms root (.record [("type", .text "array"), ("items", s)]) v ↔
      ∃ l, v = .list l ∧ ∀ x ∈ l, Conforms root s x := by
  rw [conforms_record_iff]
  constructor
  · rintro ⟨asserts, -, hitems, -⟩
    obtain ⟨l, rfl⟩ := typeName_eq_array_iff.1 (asserts.type _ rfl)
    exact ⟨l, rfl, hitems s rfl l rfl⟩
  · rintro ⟨l, rfl, hitems⟩
    simpa [asserts_iff, List.lookup_cons, fieldSchemas, typeName] using hitems

/-- A list of the same that is not empty. -/
theorem conforms_list_nonempty {s : Value} :
    Conforms root (.record [("type", .text "array"), ("minItems", .int 1), ("items", s)]) v ↔
      ∃ l ≠ [], v = .list l ∧ ∀ x ∈ l, Conforms root s x := by
  rw [conforms_record_iff]
  constructor
  · rintro ⟨asserts, -, hitems, -⟩
    obtain ⟨l, rfl⟩ := typeName_eq_array_iff.1 (asserts.type _ rfl)
    have hmin := asserts.minItems 1 rfl l rfl
    exact ⟨l, List.ne_nil_of_length_pos (by omega), rfl, hitems s rfl l rfl⟩
  · rintro ⟨l, hne, rfl, hitems⟩
    have hmin : 1 ≤ (l.length : Int) := by
      have hpos := List.length_pos_of_ne_nil hne
      omega
    simpa [asserts_iff, List.lookup_cons, fieldSchemas, typeName, hmin] using hitems

/-- A record with a single field, which has one of the keys listed. -/
theorem conforms_choice {schemas : List (String × Value)} :
    Conforms root
        (.record [("type", .text "object"), ("minProperties", .int 1), ("maxProperties", .int 1),
          ("properties", .record schemas), ("additionalProperties", .bool false)]) v ↔
      ∃ key s x, schemas.lookup key = some s ∧ Conforms root s x ∧ v = .record [(key, x)] := by
  rw [conforms_record_iff]
  constructor
  · rintro ⟨asserts, -, -, fields, others⟩
    obtain ⟨l, rfl⟩ := typeName_eq_object_iff.1 (asserts.type _ rfl)
    have hmin := asserts.minProperties 1 rfl l rfl
    have hmax := asserts.maxProperties 1 rfl l rfl
    obtain ⟨⟨key, x⟩, rfl⟩ := List.length_eq_one_iff.1 (by omega : l.length = 1)
    cases hkey : schemas.lookup key with
    | none => exact absurd (others _ rfl _ rfl _ (List.mem_singleton_self _) hkey) not_conforms_false
    | some s => exact ⟨key, s, x, hkey, fields key s hkey x List.lookup_cons_self, rfl⟩
  · rintro ⟨key, s, x, hkey, hx, rfl⟩
    refine ⟨?_, ?_, ?_, ?_, ?_⟩
    · simp [asserts_iff, List.lookup_cons, typeName]
    · simp [List.lookup_cons]
    · simp
    · intro key' s' hs x' hx'
      obtain ⟨rfl, rfl⟩ : key' = key ∧ x' = x := by
        simpa using mem_of_lookup_eq_some hx'
      cases hkey.symm.trans hs
      exact hx
    · rintro s' - fields hfields f hf hnone
      cases hfields
      rw [List.mem_singleton.1 hf] at hnone
      cases hnone.symm.trans hkey

/-- A record that has the two fields required. -/
theorem conforms_pair {s : List (String × Value)} {key key' : String} {s₁ s₂ : Value}
    (hne : key' ≠ key)
    (htype : s.lookup "type" = some (.text "object"))
    (hrequired : s.lookup "required" = some (texts [key, key']))
    (hschemas : s.lookup "properties" = some (.record [(key, s₁), (key', s₂)]))
    (hrest : ∀ k ∈ ["minProperties", "maxProperties", "enum", "const", "$ref"], s.lookup k = none) :
    Conforms root (.record s) v ↔
      (∃ x, v.field? key = some x ∧ Conforms root s₁ x) ∧
      (∃ x, v.field? key' = some x ∧ Conforms root s₂ x) ∧
      ∀ s', s.lookup "additionalProperties" = some s' → ∀ fields, v = .record fields →
        ∀ f ∈ fields, f.1 ∉ [key, key'] → Conforms root s' f.2 := by
  have hfirst : [(key, s₁), (key', s₂)].lookup key = some s₁ := List.lookup_cons_self
  have hsecond : [(key, s₁), (key', s₂)].lookup key' = some s₂ := by
    simp only [List.lookup_cons, beq_false_of_ne hne, beq_self_eq_true]
  have hnone (k : String) : [(key, s₁), (key', s₂)].lookup k = none ↔ k ∉ [key, key'] := by simp
  simp only [List.mem_cons, List.not_mem_nil, or_false, forall_eq_or_imp, forall_eq] at hrest
  obtain ⟨hmin, hmax, henum, hconst, href⟩ := hrest
  simp only [conforms_record_iff, fieldSchemas, hschemas, hnone]
  constructor
  · rintro ⟨asserts, -, -, hconform, hothers⟩
    obtain ⟨fields, rfl⟩ := typeName_eq_object_iff.1 (asserts.type _ htype)
    have hhas := asserts.required _ hrequired fields rfl
    obtain ⟨x, hx⟩ := Option.isSome_iff_exists.1 (hhas key (by simp))
    obtain ⟨y, hy⟩ := Option.isSome_iff_exists.1 (hhas key' (by simp))
    exact ⟨⟨x, hx, hconform _ _ hfirst x hx⟩, ⟨y, hy, hconform _ _ hsecond y hy⟩, hothers⟩
  · rintro ⟨⟨x, hx, hfx⟩, ⟨y, hy, hfy⟩, hothers⟩
    cases v with
    | record fields =>
      simp only [Value.field?] at hx hy
      refine ⟨?_, by simp [href], by simp, ?_, hothers⟩
      · simp [asserts_iff, htype, typeName, hmin, hmax, henum, hconst, hrequired, texts,
          -List.lookup_isSome_iff, hx, hy]
      · intro k s' hs z hz
        have hk := mem_of_lookup_eq_some hs
        simp only [List.mem_cons, Prod.mk.injEq, List.not_mem_nil, or_false] at hk
        rcases hk with ⟨rfl, rfl⟩ | ⟨rfl, rfl⟩
        · cases hz.symm.trans hx
          exact hfx
        · cases hz.symm.trans hy
          exact hfy
    | _ => cases hx

/-! ### The parts of the schema of descriptors -/

theorem conforms_label : Conforms root label v ↔ ∃ l : Label, v = .text l.val := by
  rw [label, conforms_record_iff]
  constructor
  · rintro ⟨asserts, -⟩
    obtain ⟨s, rfl⟩ := typeName_eq_string_iff.1 (asserts.type _ rfl)
    have hmin := asserts.minLength 1 rfl s rfl
    refine ⟨⟨s, ?_⟩, rfl⟩
    rintro rfl
    simp at hmin
  · rintro ⟨⟨s, hs⟩, rfl⟩
    have hmin : 1 ≤ (s.length : Int) := by
      have hpos := mt String.length_eq_zero_iff.1 hs
      omega
    simp [asserts_iff, List.lookup_cons, fieldSchemas, typeName, hmin]

theorem conforms_tag :
    Conforms root (.record [("enum", texts LexicalClass.tags)]) v ↔
      ∃ c : LexicalClass, v = .text c.tag := by
  have hall : ∀ c : LexicalClass, c ∈ LexicalClass.all := by
    intro c
    cases c <;> decide
  rw [conforms_record_iff]
  simp [asserts_iff, List.lookup_cons, fieldSchemas, texts, equal_text_iff, LexicalClass.tags, hall]

theorem conforms_true : Conforms root (.record [("const", .bool true)]) v ↔ v = .bool true := by
  rw [conforms_record_iff]
  simp [asserts_iff, List.lookup_cons, fieldSchemas, equal_bool_iff]

theorem conforms_symbol : Conforms root symbol v ↔ ∃ s : Symbol, v = s.toValue := by
  rw [symbol, conforms_choice]
  constructor
  · rintro ⟨key, s, x, hs, hx, rfl⟩
    have hmem := mem_of_lookup_eq_some hs
    simp only [List.mem_cons, Prod.mk.injEq, List.not_mem_nil, or_false] at hmem
    rcases hmem with ⟨rfl, rfl⟩ | ⟨rfl, rfl⟩ | ⟨rfl, rfl⟩ | ⟨rfl, rfl⟩
    · obtain ⟨text, rfl⟩ := conforms_label.1 hx
      exact ⟨.literal text, rfl⟩
    · obtain ⟨c, rfl⟩ := conforms_tag.1 hx
      exact ⟨.lexical c, rfl⟩
    · obtain ⟨name, rfl⟩ := conforms_label.1 hx
      exact ⟨.nonterminal name, rfl⟩
    · obtain rfl := conforms_true.1 hx
      exact ⟨.empty, rfl⟩
  · rintro ⟨s, rfl⟩
    cases s with
    | literal text => exact ⟨"literal", label, _, rfl, conforms_label.2 ⟨text, rfl⟩, rfl⟩
    | lexical c => exact ⟨"class", _, _, rfl, conforms_tag.2 ⟨c, rfl⟩, rfl⟩
    | nonterminal name => exact ⟨"nonterminal", label, _, rfl, conforms_label.2 ⟨name, rfl⟩, rfl⟩
    | empty => exact ⟨"empty", _, _, rfl, conforms_true.2 rfl, rfl⟩

theorem conforms_alternatives (hroot : target root "#/$defs/symbol" = symbol) :
    Conforms root alternatives v ↔ ∃ l ≠ [], v = Rule.alternativesValue l := by
  have hsymbol (x : Value) :
      Conforms root (definition "symbol") x ↔ ∃ s : Symbol, x = s.toValue := by
    rw [conforms_definition, ← @conforms_symbol root, ← hroot]
    rfl
  have halternative (x : Value) :
      Conforms root (.record [("type", .text "array"), ("items", definition "symbol")]) x ↔
        ∃ a : Alternative, x = .list (a.map Symbol.toValue) := by
    rw [conforms_list]
    simp only [hsymbol, ← exists_eq_map_iff]
    constructor
    · rintro ⟨_, rfl, a, rfl⟩
      exact ⟨a, rfl⟩
    · rintro ⟨a, rfl⟩
      exact ⟨_, rfl, a, rfl⟩
  rw [alternatives, conforms_list_nonempty]
  simp only [halternative, Rule.alternativesValue, ← exists_eq_map_iff]
  constructor
  · rintro ⟨_, hne, rfl, l, rfl⟩
    exact ⟨l, fun h => hne (by rw [h, List.map_nil]), rfl⟩
  · rintro ⟨l, hne, rfl⟩
    exact ⟨_, fun h => hne (List.map_eq_nil_iff.1 h), rfl, l, rfl⟩

/-- What the schema says of a rule's two fields. -/
theorem exists_describes_iff (hroot : target root "#/$defs/symbol" = symbol) :
    (∃ r, Describes v r) ↔
      (∃ x, v.field? "nonterminal_name" = some x ∧ Conforms root label x) ∧
      ∃ x, v.field? "alternatives" = some x ∧ Conforms root alternatives x := by
  simp only [conforms_label, conforms_alternatives hroot]
  constructor
  · rintro ⟨r, hname, halternatives⟩
    exact ⟨⟨_, hname, r.name, rfl⟩, _, halternatives, r.alternatives, r.nonempty, rfl⟩
  · rintro ⟨⟨_, hname, name, rfl⟩, _, halternatives, l, hne, rfl⟩
    exact ⟨⟨name, l, hne⟩, hname, halternatives⟩

theorem conforms_openRule (hroot : target root "#/$defs/symbol" = symbol) :
    Conforms root openRule v ↔ ∃ r, Describes v r := by
  rw [openRule, conforms_pair (by decide) rfl rfl rfl (by simp [List.lookup_cons]),
    exists_describes_iff hroot]
  simp [List.lookup_cons]

theorem strayKeys_eq_nil_iff {fields : List (String × Value)} :
    strayKeys (.record fields) = [] ↔ ∀ f ∈ fields, f.1 ∈ ruleFields := by
  simp only [strayKeys, List.eq_nil_iff_forall_not_mem, Ascending.mem_ofList, List.mem_filter,
    List.mem_map, decide_eq_true_eq, not_and, not_not, forall_exists_index, and_imp,
    forall_apply_eq_imp_iff₂]

theorem conforms_rule (hroot : target root "#/$defs/symbol" = symbol) :
    Conforms root rule v ↔ (∃ r, Describes v r) ∧ strayKeys v = [] := by
  rw [rule, conforms_pair (by decide) rfl rfl rfl (by simp [List.lookup_cons]),
    exists_describes_iff hroot, and_assoc]
  refine and_congr_right fun hname => and_congr_right fun _ => ?_
  obtain ⟨x, hx, -⟩ := hname
  cases v with
  | record fields =>
    rw [strayKeys_eq_nil_iff]
    simp [List.lookup_cons, not_conforms_false, ruleFields, or_iff_not_imp_left]
  | _ => cases hx

theorem conforms_descriptor {r : Value} :
    Conforms (descriptor r) (descriptor r) v ↔
      (∃ start : Label, v.field? "start_symbol" = some (.text start.val)) ∧
      ∃ records ≠ [], v.field? "rules" = some (.list records) ∧
        ∀ x ∈ records, Conforms (descriptor r) r x := by
  nth_rewrite 2 [descriptor]
  rw [conforms_pair (by decide) rfl rfl rfl (by simp [List.lookup_cons])]
  have hrule (x : Value) :
      Conforms (descriptor r) (definition "rule") x ↔ Conforms (descriptor r) r x :=
    conforms_definition.trans (Iff.of_eq (congrArg (Conforms _ · x) (target_rule r)))
  simp only [conforms_label, conforms_list_nonempty, hrule]
  constructor
  · rintro ⟨⟨_, hstart, start, rfl⟩, ⟨_, hrules, records, hne, rfl, hconform⟩, -⟩
    exact ⟨⟨start, hstart⟩, records, hne, hrules, hconform⟩
  · rintro ⟨⟨start, hstart⟩, records, hne, hrules, hconform⟩
    exact ⟨⟨_, hstart, start, rfl⟩, ⟨_, hrules, records, hne, rfl, hconform⟩,
      by simp [List.lookup_cons]⟩

end Schema

/-! ### The check and the schema -/

open Schema

theorem basicFault?_eq_none_iff_conforms {d : Value} :
    basicFault? d = none ↔ Conforms lenient lenient d := by
  simp only [basicFault?_eq_none_iff, lenient_eq, conforms_descriptor,
    conforms_openRule (target_symbol openRule)]
  constructor
  · rintro ⟨start, rules, hstart, ⟨records, hrecords, hdescribes⟩, hne⟩
    refine ⟨⟨start, hstart⟩, records, ?_, hrecords, exists_forall₂_iff.1 ⟨rules, hdescribes⟩⟩
    rintro rfl
    exact hne (List.forall₂_nil_left_iff.1 hdescribes)
  · rintro ⟨⟨start, hstart⟩, records, hne, hrecords, hdescribe⟩
    obtain ⟨rules, hdescribes⟩ := exists_forall₂_iff.2 hdescribe
    refine ⟨start, rules, hstart, ⟨records, hrecords, hdescribes⟩, ?_⟩
    rintro rfl
    exact hne (List.forall₂_nil_right_iff.1 hdescribes)

/-- The schema asks for what the lenient one does, and that no rule's record has unknown keys. -/
theorem conforms_document_iff {d : Value} :
    Conforms document document d ↔
      Conforms lenient lenient d ∧ ∀ r ∈ d.itemsAt "rules", strayKeys r = [] := by
  simp only [document, lenient_eq, conforms_descriptor, conforms_rule (target_symbol rule),
    conforms_openRule (target_symbol openRule)]
  constructor
  · rintro ⟨hstart, records, hne, hrecords, hrules⟩
    refine ⟨⟨hstart, records, hne, hrecords, fun x hx => (hrules x hx).1⟩, ?_⟩
    rw [Value.itemsAt_eq hrecords]
    exact fun x hx => (hrules x hx).2
  · rintro ⟨⟨hstart, records, hne, hrecords, hrules⟩, hkeys⟩
    rw [Value.itemsAt_eq hrecords] at hkeys
    exact ⟨hstart, records, hne, hrecords, fun x hx => ⟨hrules x hx, hkeys x hx⟩⟩

/-! ### Validators -/

/-- The validator reports errors exactly for the values that do not conform to the published
schema. -/
def Validator.Faithful (validator : Validator) : Prop :=
  ∀ v, validator.errors document v = [] ↔ Conforms document document v

theorem strayErrors_eq_nil_iff {d : Value} :
    strayErrors d = [] ↔ ∀ r ∈ d.itemsAt "rules", strayKeys r = [] := by
  rw [strayErrors, List.filterMap_eq_nil_iff, ← forall_mem_zipIdx_iff (l := d.itemsAt "rules")]
  simp [strayError?]

theorem Validator.published_faithful : Validator.published.Faithful := by
  intro v
  rw [conforms_document_iff, ← basicFault?_eq_none_iff_conforms, ← strayErrors_eq_nil_iff]
  cases hbasic : basicFault? v with
  | some fault => simp [published, hbasic]
  | none => simp [published, hbasic]

/-- **The check agrees with the schema.** With a faithful validator, the strict check accepts
exactly the values that conform to the published schema, and the other check those that conform to
it when the records of rules may have further fields.  So what the strict check adds to the other
one is the schema. -/
theorem check_iff_conforms {validator : Validator} (hvalidator : validator.Faithful) (d : Value) :
    (check validator true d = .ok () ↔ Conforms document document d) ∧
    (check validator false d = .ok () ↔ Conforms lenient lenient d) ∧
    (check validator true d = .ok () ↔
      check validator false d = .ok () ∧ Conforms document document d) := by
  have hstrict : check validator true d = .ok () ↔ Conforms document document d := by
    rw [check_eq_ok_iff, basicFault?_eq_none_iff_conforms, forall_prop_of_true rfl, hvalidator d]
    exact ⟨And.right, fun h => ⟨(conforms_document_iff.1 h).1, h⟩⟩
  have hlenient : check validator false d = .ok () ↔ Conforms lenient lenient d := by
    rw [check_eq_ok_iff, ← basicFault?_eq_none_iff_conforms]
    simp
  refine ⟨hstrict, hlenient, ?_⟩
  rw [hstrict, hlenient, conforms_document_iff]
  exact ⟨fun h => ⟨h.1, h⟩, fun h => h.2⟩

/-- A descriptor with a comment on its only rule. -/
def annotated : Value :=
  .record
    [("start_symbol", .text "remark"),
      ("rules", .list
        [.record
          [("nonterminal_name", .text "remark"),
            ("alternatives", .list [.list [.record [("class", .text "word")]]]),
            ("comment", .text "a single word")]])]

theorem check_iff_conforms_annotated :
    Validator.published.Faithful ∧ check .published false annotated = .ok () ∧
      Conforms lenient lenient annotated ∧ ¬ Conforms document document annotated := by
  have hlenient : check .published false annotated = .ok () := rfl
  have herrors : Validator.published.errors document annotated ≠ [] := nofun
  obtain ⟨hstrict, hopen, -⟩ := check_iff_conforms Validator.published_faithful annotated
  refine ⟨Validator.published_faithful, hlenient, hopen.1 hlenient, fun h => herrors ?_⟩
  exact (check_eq_ok_iff.1 (hstrict.2 h)).2 rfl

end Descriptor

end Acceptor
