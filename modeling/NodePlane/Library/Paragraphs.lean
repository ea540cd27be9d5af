import Mathlib.Data.List.TakeDrop

/-! Records in a list of lines: a record starts at its head line and ends before the next blank line.
What stands before a record that is taken out, and behind the blank line that ends it, stays. -/
namespace Library
namespace Paragraphs
variable {α ν : Type} (head : ν → α → Bool) (blank : α → Bool)

/-- The record of `n`, empty where there is none. -/
def block (n : ν) (lines : List α) : List α :=
  match lines.dropWhile fun l => !head n l with
  | [] => []
  | first :: rest => first :: rest.takeWhile fun l => !blank l

/-- The lines without the record of `n` and the `skip` lines behind it. -/
def without (skip : ℕ) (n : ν) (lines : List α) : List α :=
  match lines.dropWhile fun l => !head n l with
  | [] => lines
  | _ :: rest => lines.takeWhile (fun l => !head n l) ++ (rest.dropWhile fun l => !blank l).drop skip

/-- The lines of one record. -/
structure Record (n : ν) (lines : List α) : Prop where
  first : ∃ l rest, lines = l :: rest ∧ head n l = true
  solid : ∀ l ∈ lines, blank l = false

variable {head blank} {n : ν} {l : α} {rest lines more : List α} {skip : ℕ}

theorem block_head (here : head n l = true) :
    block head blank n (l :: rest) = l :: rest.takeWhile fun k => !blank k := by
  rw [block, List.dropWhile_cons_of_neg (by simp [here])]

theorem block_other (here : head n l = false) :
    block head blank n (l :: rest) = block head blank n rest := by
  rw [block, block, List.dropWhile_cons_of_pos (by simp [here])]

theorem without_head (here : head n l = true) :
    without head blank skip n (l :: rest) = (rest.dropWhile fun k => !blank k).drop skip := by
  rw [without, List.dropWhile_cons_of_neg (by simp [here]), List.takeWhile_cons_of_neg (by simp [here])]
  rfl

theorem without_other (here : head n l = false) :
    without head blank skip n (l :: rest) = l :: without head blank skip n rest := by
  rw [without, without, List.dropWhile_cons_of_pos (by simp [here]),
    List.takeWhile_cons_of_pos (by simp [here])]
  split <;> rfl

theorem block_append (missing : ∀ k ∈ lines, head n k = false) :
    block head blank n (lines ++ more) = block head blank n more := by
  induction lines with
  | nil => rfl
  | cons l rest ih =>
    rw [List.cons_append, block_other (missing l List.mem_cons_self)]
    exact ih fun k inside => missing k (List.mem_cons_of_mem l inside)

theorem without_append (missing : ∀ k ∈ lines, head n k = false) :
    without head blank skip n (lines ++ more) = lines ++ without head blank skip n more := by
  induction lines with
  | nil => rfl
  | cons l rest ih =>
    rw [List.cons_append, without_other (missing l List.mem_cons_self),
      ih fun k inside => missing k (List.mem_cons_of_mem l inside)]
    rfl

theorem block_missing (missing : ∀ k ∈ lines, head n k = false) : block head blank n lines = [] := by
  have none_ : block head blank n (lines ++ []) = [] := block_append missing
  rwa [List.append_nil] at none_

/-- A record that a blank line or the end of the list follows. -/
theorem block_record (record : Record head blank n lines) (stops : ∀ k ∈ more.head?, blank k = true) :
    block head blank n (lines ++ more) = lines := by
  obtain ⟨l, rest, rfl, here⟩ := record.first
  have solid : ∀ k ∈ rest, (!blank k) = true := by
    intro k inside
    rw [record.solid k (List.mem_cons_of_mem l inside)]
    rfl
  rw [List.cons_append, block_head here, List.takeWhile_append_of_pos solid]
  cases more with
  | nil => rw [List.takeWhile_nil, List.append_nil]
  | cons k more =>
    rw [List.takeWhile_cons_of_neg (by simp [stops k rfl]), List.append_nil]

theorem without_record (record : Record head blank n lines)
    (stops : ∀ k ∈ more.head?, blank k = true) :
    without head blank skip n (lines ++ more) = more.drop skip := by
  obtain ⟨l, rest, rfl, here⟩ := record.first
  have solid : ∀ k ∈ rest, (!blank k) = true := by
    intro k inside
    rw [record.solid k (List.mem_cons_of_mem l inside)]
    rfl
  rw [List.cons_append, without_head here, List.dropWhile_append_of_pos solid]
  cases more with
  | nil => rfl
  | cons k more => rw [List.dropWhile_cons_of_neg (by simp [stops k rfl])]

end Paragraphs
end Library
