import Acceptor.Token.Stream
import Mathlib.Data.List.Basic

/-!
# Splitting a text into tokens

A text is cut at its blanks: what stands in front of a blank and what stands behind it are split on
their own (`Token.scan_append_blank`), and what holds no blank is not split at all.  The rest follows
from these two facts.

* `tokenize_zipWith` : tokens with gaps around them are found again, whatever the gaps are made of.
* `tokenize_eq_singleton_iff` : splitting leaves a text whole iff it is a token.
* `join_tokenize` : splitting loses nothing but blanks.
* `TokenStream.ofValue_iff_tokenized` : the lists of texts that make a stream are those that
  splitting gives.
-/

namespace Acceptor

/-- The text holds nothing but blanks. -/
def Text.IsGap (s : String) : Prop := ∀ c ∈ s.toList, isBlank c = true

instance (s : String) : Decidable (Text.IsGap s) :=
  decidable_of_iff (s.toList.all Text.isBlank = true) List.all_eq_true

namespace Token

theorem flush_append (word : List Char) (words more : List (List Char)) :
    flush word (words ++ more) = flush word words ++ more := by
  unfold flush
  split
  · rfl
  · exact (List.cons_append ..).symm

/-- **A text is cut at every blank**, whatever word is being read. -/
theorem scan_append_blank {c : Char} (hc : Text.isBlank c = true) (word u v : List Char) :
    scan word (u ++ c :: v) = scan word u ++ scan [] v := by
  induction u generalizing word with
  | nil =>
    have hcut : scan word (c :: v) = flush word (scan [] v) := by simp [scan, hc]
    rw [List.nil_append, hcut, scan, ← flush_append, List.nil_append]
  | cons d u ih =>
    by_cases hd : Text.isBlank d = true
    · simp only [List.cons_append, scan, hd, ↓reduceIte, ih, flush_append]
    · simp only [List.cons_append, scan, hd, ih, Bool.false_eq_true, ↓reduceIte]

theorem scan_of_unblank {u : List Char} (h : ∀ c ∈ u, Text.isBlank c = false) (word : List Char) :
    scan word u = flush (u.reverse ++ word) [] := by
  induction u generalizing word with
  | nil => rfl
  | cons c u ih =>
    have hc := h c List.mem_cons_self
    have hu := ih (fun d hd => h d (List.mem_cons_of_mem _ hd)) (c :: word)
    simpa [scan, hc] using hu

theorem scan_gap_append {gap : List Char} (h : ∀ c ∈ gap, Text.isBlank c = true) (v : List Char) :
    scan [] (gap ++ v) = scan [] v := by
  induction gap with
  | nil => rfl
  | cons c gap ih =>
    have hcut := scan_append_blank (h c List.mem_cons_self) [] [] (gap ++ v)
    rw [List.cons_append]
    exact hcut.trans (ih fun d hd => h d (List.mem_cons_of_mem _ hd))

theorem scan_append_gap {gap : List Char} (h : ∀ c ∈ gap, Text.isBlank c = true) (hne : gap ≠ [])
    (u v : List Char) : scan [] (u ++ (gap ++ v)) = scan [] u ++ scan [] v := by
  obtain ⟨c, gap, rfl⟩ := List.exists_cons_of_ne_nil hne
  rw [List.cons_append, scan_append_blank (h c List.mem_cons_self),
    scan_gap_append fun d hd => h d (List.mem_cons_of_mem _ hd)]

theorem flatten_flush (word : List Char) (words : List (List Char)) :
    (flush word words).flatten = word.reverse ++ words.flatten := by
  cases word with
  | nil => rfl
  | cons c word => simp [flush]

/-- The words hold what has been read and, of what is still to come, all that is no blank. -/
theorem flatten_scan (word cs : List Char) :
    (scan word cs).flatten = word.reverse ++ cs.filter fun c => !Text.isBlank c := by
  induction cs generalizing word with
  | nil => simp [scan, flatten_flush]
  | cons c cs ih =>
    by_cases hc : Text.isBlank c = true
    · simp [scan, hc, flatten_flush, ih]
    · simp [scan, hc, ih]

end Token

/-! ### Texts -/

theorem tokenize_gap_append {gap : String} (h : Text.IsGap gap) (rest : String) :
    tokenize (gap ++ rest) = tokenize rest := by
  unfold tokenize
  rw [String.toList_append, Token.scan_gap_append h]

theorem tokenize_append_gap {gap : String} (h : Text.IsGap gap) (hne : gap ≠ "")
    (text rest : String) : tokenize (text ++ (gap ++ rest)) = tokenize text ++ tokenize rest := by
  have hne' : gap.toList ≠ [] := by simpa using hne
  unfold tokenize
  rw [String.toList_append, String.toList_append, Token.scan_append_gap h hne', List.map_append]

/-- **Splitting leaves a text whole** iff it is a token. -/
theorem tokenize_eq_singleton_iff {t : String} : tokenize t = [t] ↔ IsToken t := by
  constructor
  · intro h
    exact isToken_of_mem_tokenize (h ▸ List.mem_singleton_self t)
  · rintro ⟨hne, hunblank⟩
    unfold tokenize
    rw [Token.scan_of_unblank hunblank, List.append_nil]
    simp [Token.flush, hne]

/-- A gap may be missing only behind the last token. -/
theorem tokenize_token_append {t gap rest : String} (ht : IsToken t) (hgap : Text.IsGap gap)
    (hsep : gap = "" → rest = "") : tokenize (t ++ (gap ++ rest)) = t :: tokenize rest := by
  by_cases hne : gap = ""
  · rw [hsep hne, hne, String.append_empty, String.append_empty, tokenize_eq_singleton_iff.2 ht]
    rfl
  · rw [tokenize_append_gap hgap hne, tokenize_eq_singleton_iff.2 ht, List.singleton_append]

/-- **Tokens with gaps between them are found again.** -/
theorem tokenize_zipWith {ts gaps : List String} (hlen : gaps.length = ts.length)
    (hts : ∀ t ∈ ts, IsToken t) (hgaps : ∀ s ∈ gaps, Text.IsGap s)
    (hinner : ∀ s ∈ gaps.dropLast, s ≠ "") :
    tokenize (String.join (List.zipWith (· ++ ·) ts gaps)) = ts := by
  induction ts generalizing gaps with
  | nil => simp [tokenize, Token.scan, Token.flush]
  | cons t ts ih =>
    cases gaps with
    | nil => cases hlen
    | cons gap gaps =>
      -- only the last gap may be empty, and then no token is left
      have hlast : gap = "" → gaps = [] := by
        intro hempty
        cases gaps with
        | nil => rfl
        | cons gap' gaps => exact absurd hempty (hinner gap List.mem_cons_self)
      have hinner' : ∀ s ∈ gaps.dropLast, s ≠ "" := by
        intro s hs
        cases gaps with
        | nil => cases hs
        | cons gap' gaps => exact hinner s (List.mem_cons_of_mem _ hs)
      have hrest := ih (Nat.succ.inj hlen) (fun s hs => hts s (List.mem_cons_of_mem _ hs))
        (fun s hs => hgaps s (List.mem_cons_of_mem _ hs)) hinner'
      rw [List.zipWith_cons_cons, String.join_cons, String.append_assoc,
        tokenize_token_append (hts t List.mem_cons_self) (hgaps gap List.mem_cons_self), hrest]
      intro hempty
      rw [hlast hempty, List.zipWith_nil_right, String.join_nil]

/-- **Splitting loses nothing but blanks.** -/
theorem join_tokenize (text : String) :
    String.join (tokenize text) = String.ofList (text.toList.filter fun c => !Text.isBlank c) := by
  have h := Token.flatten_scan [] text.toList
  rw [List.reverse_nil, List.nil_append] at h
  rw [← h, ← String.toList_inj, String.toList_join, String.toList_ofList, tokenize]
  simp [List.flatMap_map]

/-! ### Streams -/

namespace TokenStream

theorem token_text_eq_ok_iff {t : String} {x : { t : String // IsToken t }} :
    token (.text t) = .ok x ↔ x.val = t := by
  by_cases h : tokenize t = [t]
  · simp only [token, h, ↓reduceDIte, Except.ok.injEq, Subtype.ext_iff, eq_comm]
  · simp only [token, h, ↓reduceDIte, reduceCtorEq, false_iff]
    rintro rfl
    exact h (tokenize_eq_singleton_iff.2 x.2)

theorem mapM_token_eq_ok_iff {ts : List String} {xs : List { t : String // IsToken t }} :
    (ts.map Value.text).mapM token = .ok xs ↔ xs.map Subtype.val = ts := by
  induction ts generalizing xs with
  | nil =>
    rw [List.map_eq_nil_iff]
    exact ⟨fun h => (Except.ok.inj h).symm, fun h => h ▸ rfl⟩
  | cons t ts ih =>
    rw [List.map_cons, List.mapM_cons]
    constructor
    · intro h
      cases hx : token (.text t) with
      | error e =>
        rw [hx] at h
        cases h
      | ok x =>
        cases hxs : (ts.map Value.text).mapM token with
        | error e =>
          rw [hx, hxs] at h
          cases h
        | ok rest =>
          rw [hx, hxs] at h
          cases h
          rw [List.map_cons, token_text_eq_ok_iff.1 hx, ih.1 hxs]
    · intro h
      obtain ⟨x, rest, rfl, hx, hrest⟩ := List.map_eq_cons_iff.1 h
      rw [token_text_eq_ok_iff.2 hx, ih.2 hrest]
      rfl

/-- **Texts make a stream** iff they are its tokens. -/
theorem ofValue_texts_eq_ok_iff {ts : List String} {w : TokenStream} :
    ofValue (.list (ts.map .text)) = .ok w ↔ w.tokens = ts := by
  constructor
  · intro h
    cases hxs : (ts.map Value.text).mapM token with
    | error e =>
      simp only [ofValue, Value.elements?, hxs] at h
      cases h
    | ok xs =>
      simp only [ofValue, Value.elements?, hxs] at h
      cases h
      exact mapM_token_eq_ok_iff.1 hxs
  · intro h
    have hval : (w.tokens.attachWith IsToken w.valid).map Subtype.val = w.tokens :=
      List.attachWith_map_subtype_val w.valid
    have hxs := mapM_token_eq_ok_iff.2 (hval.trans h)
    have hw : ofTokens (w.tokens.attachWith IsToken w.valid) = w := TokenStream.ext hval
    simp only [ofValue, Value.elements?, hxs]
    exact congrArg Except.ok hw

theorem exists_ofValue_texts_iff {ts : List String} :
    (∃ w, ofValue (.list (ts.map .text)) = .ok w) ↔ ∀ t ∈ ts, IsToken t := by
  constructor
  · rintro ⟨w, hw⟩
    rw [← ofValue_texts_eq_ok_iff.1 hw]
    exact w.valid
  · intro h
    exact ⟨⟨ts, h⟩, ofValue_texts_eq_ok_iff.2 rfl⟩

theorem isToken_iff_exists_tokenize {ts : List String} :
    (∀ t ∈ ts, IsToken t) ↔ ∃ text, tokenize text = ts := by
  constructor
  · intro h
    have hfound : tokenize (String.join (List.zipWith (· ++ ·) ts (ts.map fun _ => " "))) = ts := by
      refine tokenize_zipWith (List.length_map _) h ?_ ?_
      · intro s hs
        obtain ⟨t, -, rfl⟩ := List.mem_map.1 hs
        decide
      · intro s hs
        obtain ⟨t, -, rfl⟩ := List.mem_map.1 (List.dropLast_subset _ hs)
        decide
    exact ⟨_, hfound⟩
  · rintro ⟨text, rfl⟩ t ht
    exact isToken_of_mem_tokenize ht

/-- The tokens of a text pass the check on tokens. -/
theorem ofTextValue_text (text : String) : ofTextValue (.text text) = .ok (ofText text) :=
  ofValue_texts_eq_ok_iff.2 rfl

/-- **The lists of texts that make a stream are those that splitting gives.**  A list makes a stream
iff all its texts are tokens, and then it holds these.  Tokens are found again behind a leading gap
and with a gap behind each of them, of which only the last may be empty.  Every text makes a stream,
and the tokens of that stream are together the text without its blanks. -/
theorem ofValue_iff_tokenized :
    (∀ ts : List String,
        ((∃ w, ofValue (.list (ts.map .text)) = .ok w) ↔ ∀ t ∈ ts, IsToken t) ∧
          ∀ w, ofValue (.list (ts.map .text)) = .ok w → w.tokens = ts) ∧
      (∀ (ts gaps : List String) (lead : String), (∀ t ∈ ts, IsToken t) →
        gaps.length = ts.length → Text.IsGap lead → (∀ s ∈ gaps, Text.IsGap s) →
        (∀ s ∈ gaps.dropLast, s ≠ "") →
        tokenize (lead ++ String.join (List.zipWith (· ++ ·) ts gaps)) = ts) ∧
      (∀ text : String, ofTextValue (.text text) = .ok (ofText text) ∧
        String.join (ofText text).tokens =
          String.ofList (text.toList.filter fun c => !Text.isBlank c)) ∧
      ∀ ts : List String, (∃ w, ofValue (.list (ts.map .text)) = .ok w) ↔
        ∃ text, tokenize text = ts := by
  refine ⟨?_, ?_, ?_, ?_⟩
  · intro ts
    exact ⟨exists_ofValue_texts_iff, fun w hw => ofValue_texts_eq_ok_iff.1 hw⟩
  · intro ts gaps lead hts hlen hlead hgaps hinner
    rw [tokenize_gap_append hlead, tokenize_zipWith hlen hts hgaps hinner]
  · intro text
    exact ⟨ofTextValue_text text, join_tokenize text⟩
  · intro ts
    rw [exists_ofValue_texts_iff, isToken_iff_exists_tokenize]

/-- Gaps of different blanks, one of them outside of ASCII, and none behind the last token. -/
theorem ofValue_iff_tokenized_contact :
    tokenize "\u3000contact\tA \n20" = ["contact", "A", "20"] ∧
      ∃ w, ofValue (.list (["contact", "A", "20"].map .text)) = .ok w := by
  obtain ⟨hmakes, hfound, -, -⟩ := ofValue_iff_tokenized
  constructor
  · exact hfound ["contact", "A", "20"] ["\t", " \n", ""] "\u3000" (by decide) rfl (by decide)
      (by decide) (by decide)
  · exact (hmakes ["contact", "A", "20"]).1.2 (by decide)

end TokenStream

end Acceptor
