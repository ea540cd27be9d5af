import Mathlib.Data.List.Basic

/-! Texts joined by a separator, and what splitting finds in a join whose parts may themselves
hold separators. -/
namespace Library
namespace Lines
variable {α : Type} {sep : α}

/-- Every part of a list that has a symbol gives it to the join. -/
theorem mem_join {parts : List (List α)} {part : List α} (listed : part ∈ parts) {a : α}
    (inside : a ∈ part) : a ∈ [sep].intercalate parts := by
  induction parts with
  | nil => cases listed
  | cons first rest ih =>
    cases rest with
    | nil =>
      rw [List.mem_singleton.mp listed] at inside
      simpa using inside
    | cons next rest =>
      rw [List.intercalate_cons_cons, List.append_assoc, List.mem_append]
      rcases List.mem_cons.mp listed with rfl | later
      · exact .inl inside
      · exact .inr (List.mem_append_right _ (ih later))

/-- What a join holds is a separator or in a part. -/
theorem of_mem_join {parts : List (List α)} {a : α} (inside : a ∈ [sep].intercalate parts) :
    a = sep ∨ ∃ part ∈ parts, a ∈ part := by
  induction parts with
  | nil => cases inside
  | cons part rest ih =>
    cases rest with
    | nil => exact .inr ⟨part, List.mem_singleton_self part, by simpa using inside⟩
    | cons next rest =>
      rw [List.intercalate_cons_cons, List.append_assoc, List.mem_append, List.mem_append] at inside
      rcases inside with here | between | later
      · exact .inr ⟨part, List.mem_cons_self, here⟩
      · exact .inl (List.mem_singleton.mp between)
      · rcases ih later with same | ⟨other, listed, there⟩
        · exact .inl same
        · exact .inr ⟨other, List.mem_cons_of_mem part listed, there⟩

variable [BEq α] [LawfulBEq α]

/-- A join is split where its parts are. -/
theorem splitOn_join {parts : List (List α)} (nonempty : parts ≠ []) :
    ([sep].intercalate parts).splitOn sep = parts.flatMap (List.splitOn sep) := by
  induction parts with
  | nil => exact absurd rfl nonempty
  | cons part rest ih =>
    cases rest with
    | nil => simp
    | cons next rest =>
      rw [List.intercalate_cons_cons, List.append_assoc, List.singleton_append,
        List.splitOn_append_cons_self, ih (List.cons_ne_nil next rest)]
      rfl

/-- Text before the first separator stays in the first line. -/
theorem splitOn_prefix {before : List α} (apart : sep ∉ before) {text first : List α}
    {rest : List (List α)} (split : text.splitOn sep = first :: rest) :
    (before ++ text).splitOn sep = (before ++ first) :: rest := by
  induction before with
  | nil => exact split
  | cons a before ih =>
    rw [List.mem_cons, not_or] at apart
    rw [List.cons_append, List.splitOn_cons_eq_if_modifyHead, if_neg, ih apart.2]
    · rfl
    · rw [beq_iff_eq]
      exact fun same => apart.1 same.symm

/-- A text is its first line, or goes on behind a separator with the other lines. -/
theorem splitOn_cases {text first : List α} {rest : List (List α)}
    (split : text.splitOn sep = first :: rest) :
    rest = [] ∧ text = first ∨
      rest ≠ [] ∧ text = first ++ sep :: [sep].intercalate rest := by
  have whole : [sep].intercalate (text.splitOn sep) = text := List.intercalate_splitOn sep
  rw [split] at whole
  cases rest with
  | nil => exact .inl ⟨rfl, by simpa using whole.symm⟩
  | cons next rest =>
    refine .inr ⟨List.cons_ne_nil next rest, ?_⟩
    rw [← whole, List.intercalate_cons_cons]
    simp

/-- What a text holds is a separator or in a line. -/
theorem mem_splitOn {text : List α} {a : α} (inside : a ∈ text) :
    a = sep ∨ ∃ line ∈ text.splitOn sep, a ∈ line := by
  apply of_mem_join
  rwa [List.intercalate_splitOn]

/-- Parts without separators are read back from their join. -/
theorem join_injective {parts others : List (List α)} (plain : ∀ part ∈ parts, sep ∉ part)
    (also : ∀ part ∈ others, sep ∉ part) (some : parts ≠ []) (any : others ≠ [])
    (same : [sep].intercalate parts = [sep].intercalate others) : parts = others := by
  rw [← List.splitOn_intercalate sep plain some, same, List.splitOn_intercalate sep also any]

omit [LawfulBEq α] in
theorem length_le_flatMap_splitOn (texts : List (List α)) :
    texts.length ≤ (texts.flatMap (List.splitOn sep)).length := by
  induction texts with
  | nil => exact Nat.le_refl 0
  | cons text texts ih =>
    have lines : 0 < (text.splitOn sep).length :=
      List.length_pos_of_ne_nil (List.splitOn_ne_nil sep text)
    rw [List.flatMap_cons, List.length_append, List.length_cons]
    omega

/-- Texts that are as many as their lines have no separator. -/
theorem flatMap_splitOn_eq {texts : List (List α)}
    (short : (texts.flatMap (List.splitOn sep)).length ≤ texts.length) :
    texts.flatMap (List.splitOn sep) = texts := by
  induction texts with
  | nil => rfl
  | cons text texts ih =>
    have others : texts.length ≤ (texts.flatMap (List.splitOn sep)).length :=
      length_le_flatMap_splitOn texts
    obtain ⟨first, rest, split⟩ := List.exists_cons_of_ne_nil (List.splitOn_ne_nil sep text)
    rw [List.flatMap_cons, split, List.length_append, List.length_cons, List.length_cons] at short
    have none : rest = [] := List.eq_nil_of_length_eq_zero (by omega)
    have fewer : (texts.flatMap (List.splitOn sep)).length ≤ texts.length := by omega
    subst none
    rw [List.flatMap_cons, split, ih fewer]
    rcases splitOn_cases split with ⟨-, whole⟩ | ⟨more, -⟩
    · rw [whole]
      rfl
    · exact absurd rfl more

/-- A join of plain parts has no other reading with as many parts. -/
theorem join_unique {parts others : List (List α)} (plain : ∀ part ∈ parts, sep ∉ part)
    (many : parts.length = others.length)
    (same : [sep].intercalate parts = [sep].intercalate others) : parts = others := by
  cases parts with
  | nil => exact (List.eq_nil_of_length_eq_zero many.symm).symm
  | cons part rest =>
    have some : others ≠ [] := by
      rintro rfl
      cases many
    have lines : others.flatMap (List.splitOn sep) = part :: rest := by
      rw [← splitOn_join some, ← same,
        List.splitOn_intercalate sep plain (List.cons_ne_nil part rest)]
    rw [← lines]
    apply flatMap_splitOn_eq
    exact Nat.le_of_eq (by rw [lines, many])

end Lines
end Library
