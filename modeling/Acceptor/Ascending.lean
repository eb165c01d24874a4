/-!
# Ascending lists

A finite set of positions or texts is kept as its ascending list: strictly sorted, so that equal
sets are equal lists.  `Ascending.insert` and `Ascending.union` add to such a list, and the lemmas
say that they do so as sets and keep the list ascending.
-/

namespace Acceptor

/-- The list is strictly ascending. -/
def IsAscending {α : Type} [LT α] (l : List α) : Prop := l.Pairwise (· < ·)

namespace Ascending

variable {α : Type} [LT α] [DecidableLT α]

/-- Add an element at its place, unless it is there already. -/
def insert (a : α) : List α → List α
  | [] => [a]
  | b :: l => if a < b then a :: b :: l else if b < a then b :: insert a l else b :: l

/-- Merge the ascending list `a :: l` into another, if `rest` merges `l` into any. -/
def mergeHead (a : α) (l : List α) (rest : List α → List α) : List α → List α
  | [] => a :: l
  | b :: l' =>
    if a < b then a :: rest (b :: l')
    else if b < a then b :: mergeHead a l rest l'
    else a :: rest l'

/-- The elements of two ascending lists. -/
def union : List α → List α → List α
  | [], l' => l'
  | a :: l, l' => mergeHead a l (union l) l'

/-- The ascending list of the elements of `l`. -/
def ofList (l : List α) : List α := l.foldr insert []

theorem mem_insert [Std.Trichotomous (α := α) (· < ·)] {a b : α} {l : List α} :
    b ∈ insert a l ↔ b = a ∨ b ∈ l := by
  induction l with
  | nil => simp [insert]
  | cons c l ih =>
    unfold insert
    split
    · simp
    · split
      · simp only [List.mem_cons, ih]
        exact or_left_comm
      · rename_i h₁ h₂
        have hac : a = c := Std.Trichotomous.trichotomous a c h₁ h₂
        subst hac
        simp

theorem mem_mergeHead [Std.Trichotomous (α := α) (· < ·)] {a b : α} {l l' : List α}
    {rest : List α → List α} (hrest : ∀ l', b ∈ rest l' ↔ b ∈ l ∨ b ∈ l') :
    b ∈ mergeHead a l rest l' ↔ b ∈ a :: l ∨ b ∈ l' := by
  induction l' with
  | nil => simp [mergeHead]
  | cons c l' ih =>
    unfold mergeHead
    split
    · rw [List.mem_cons, hrest, List.mem_cons (l := l), or_assoc]
    · split
      · rw [List.mem_cons, ih, List.mem_cons (l := l')]
        exact or_left_comm
      · rename_i h₁ h₂
        have hac : a = c := Std.Trichotomous.trichotomous a c h₁ h₂
        subst hac
        rw [List.mem_cons, hrest, List.mem_cons, List.mem_cons, or_assoc]
        constructor
        · rintro (h | h | h)
          · exact .inl h
          · exact .inr (.inl h)
          · exact .inr (.inr (.inr h))
        · rintro (h | h | h | h)
          · exact .inl h
          · exact .inr (.inl h)
          · exact .inl h
          · exact .inr (.inr h)

theorem mem_union [Std.Trichotomous (α := α) (· < ·)] {b : α} {l l' : List α} :
    b ∈ union l l' ↔ b ∈ l ∨ b ∈ l' := by
  induction l generalizing l' with
  | nil => simp [union]
  | cons a l ih => exact mem_mergeHead fun _ => ih

theorem mem_ofList [Std.Trichotomous (α := α) (· < ·)] {b : α} {l : List α} :
    b ∈ ofList l ↔ b ∈ l := by
  induction l with
  | nil => simp [ofList]
  | cons a l ih =>
    have h : b ∈ ofList (a :: l) ↔ b = a ∨ b ∈ ofList l := mem_insert
    rw [h, ih, List.mem_cons]

theorem isAscending_insert [Std.Trichotomous (α := α) (· < ·)]
    [Trans (α := α) (· < ·) (· < ·) (· < ·)] {a : α} {l : List α} (h : IsAscending l) :
    IsAscending (insert a l) := by
  induction l with
  | nil => simp [insert, IsAscending]
  | cons c l ih =>
    unfold IsAscending at h
    rw [List.pairwise_cons] at h
    unfold insert
    split
    · rename_i hac
      refine List.pairwise_cons.2 ⟨fun b hb => ?_, List.pairwise_cons.2 h⟩
      rcases List.mem_cons.1 hb with rfl | hb
      · exact hac
      · exact Trans.trans hac (h.1 b hb)
    · split
      · rename_i hca
        refine List.pairwise_cons.2 ⟨fun b hb => ?_, ih h.2⟩
        rcases mem_insert.1 hb with rfl | hb
        · exact hca
        · exact h.1 b hb
      · exact List.pairwise_cons.2 h

theorem isAscending_union [Std.Trichotomous (α := α) (· < ·)]
    [Trans (α := α) (· < ·) (· < ·) (· < ·)] {l l' : List α} (h : IsAscending l)
    (h' : IsAscending l') : IsAscending (union l l') := by
  induction l generalizing l' with
  | nil => exact h'
  | cons a l ih =>
    obtain ⟨ha, hl⟩ := List.pairwise_cons.1 h
    induction l' with
    | nil => exact h
    | cons b l' ih' =>
      obtain ⟨hb, hl'⟩ := List.pairwise_cons.1 h'
      show IsAscending (mergeHead a l (union l) (b :: l'))
      unfold mergeHead
      split
      · rename_i hab
        refine List.pairwise_cons.2 ⟨fun x hx => ?_, ih hl h'⟩
        rcases mem_union.1 hx with hx | hx
        · exact ha x hx
        · rcases List.mem_cons.1 hx with rfl | hx
          · exact hab
          · exact Trans.trans hab (hb x hx)
      · split
        · rename_i hba
          refine List.pairwise_cons.2 ⟨fun x hx => ?_, ih' hl'⟩
          have hx : x ∈ union (a :: l) l' := hx
          rcases mem_union.1 hx with hx | hx
          · rcases List.mem_cons.1 hx with rfl | hx
            · exact hba
            · exact Trans.trans hba (ha x hx)
          · exact hb x hx
        · rename_i h₁ h₂
          have hab : a = b := Std.Trichotomous.trichotomous a b h₁ h₂
          subst hab
          refine List.pairwise_cons.2 ⟨fun x hx => ?_, ih hl hl'⟩
          rcases mem_union.1 hx with hx | hx
          · exact ha x hx
          · exact hb x hx

theorem isAscending_ofList [Std.Trichotomous (α := α) (· < ·)]
    [Trans (α := α) (· < ·) (· < ·) (· < ·)] (l : List α) : IsAscending (ofList l) := by
  induction l with
  | nil => exact List.Pairwise.nil
  | cons a l ih => exact isAscending_insert ih

end Ascending

end Acceptor
