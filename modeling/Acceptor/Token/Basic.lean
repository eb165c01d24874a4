import Acceptor.Text.Blank

/-!
# Tokens

A token is a text that is not empty and holds no blank.  `tokenize` splits a text at its blanks
into tokens.
-/

namespace Acceptor

/-- The text is not empty and holds no blank. -/
def IsToken (t : String) : Prop := t ≠ "" ∧ ∀ c ∈ t.toList, Text.isBlank c = false

instance (t : String) : Decidable (IsToken t) :=
  decidable_of_iff (t ≠ "" ∧ (t.toList.all fun c => !Text.isBlank c) = true) (by simp [IsToken])

namespace Token

/-- The word read so far, which `word` holds backwards, in front of the words after it. -/
def flush (word : List Char) (words : List (List Char)) : List (List Char) :=
  if word.isEmpty then words else word.reverse :: words

/-- The words of a text; `word` holds the one being read, backwards. -/
def scan (word : List Char) : List Char → List (List Char)
  | [] => flush word []
  | c :: cs => if Text.isBlank c then flush word (scan [] cs) else scan (c :: word) cs

theorem mem_flush {word w : List Char} {words : List (List Char)} :
    w ∈ flush word words ↔ (word ≠ [] ∧ w = word.reverse) ∨ w ∈ words := by
  cases word <;> simp [flush]

theorem scan_words {word cs w : List Char} (hword : ∀ c ∈ word, Text.isBlank c = false)
    (hw : w ∈ scan word cs) : w ≠ [] ∧ ∀ c ∈ w, Text.isBlank c = false := by
  have hdone : ∀ {u : List Char}, (∀ c ∈ u, Text.isBlank c = false) → u ≠ [] → w = u.reverse →
      w ≠ [] ∧ ∀ c ∈ w, Text.isBlank c = false := by
    rintro u hu hne rfl
    exact ⟨by simpa using hne, fun c hc => hu c (List.mem_reverse.1 hc)⟩
  induction cs generalizing word with
  | nil =>
    rcases mem_flush.1 hw with ⟨hne, rfl⟩ | hw
    · exact hdone hword hne rfl
    · cases hw
  | cons c cs ih =>
    rw [scan] at hw
    split at hw
    · rcases mem_flush.1 hw with ⟨hne, rfl⟩ | hw
      · exact hdone hword hne rfl
      · exact ih (by simp) hw
    · rename_i hc
      refine ih (fun d hd => ?_) hw
      rcases List.mem_cons.1 hd with rfl | hd
      · simpa using hc
      · exact hword d hd

end Token

/-- The tokens of a text, in order. -/
def tokenize (text : String) : List String := (Token.scan [] text.toList).map String.ofList

theorem isToken_of_mem_tokenize {text t : String} (h : t ∈ tokenize text) : IsToken t := by
  obtain ⟨w, hw, rfl⟩ := List.mem_map.1 h
  obtain ⟨hne, hb⟩ := Token.scan_words (by simp) hw
  refine ⟨fun he => hne ?_, by simpa using hb⟩
  have := congrArg String.toList he
  simpa using this

end Acceptor
