import Mathlib.Data.List.Basic

/-! Codes whose words are recognized at the front of a text, and the two ways a
text ends a word that is not self-delimiting: a stop symbol or a symbol class. -/
namespace Library
variable {α β : Type}

/-- Reading one word of `f` off the front of a text has one outcome. -/
def PrefixCode (dom : α → Prop) (f : α → List β) : Prop :=
  ∀ ⦃a b⦄, dom a → dom b → ∀ ⦃s t⦄, f a ++ s = f b ++ t → a = b ∧ s = t

namespace PrefixCode
variable {dom : α → Prop} {f : α → List β}

/-- A reader that recovers each word makes a prefix code. -/
theorem of_read {read : List β → Option (α × List β)}
    (reads : ∀ a, dom a → ∀ s, read (f a ++ s) = some (a, s)) : PrefixCode dom f := by
  intro a b ha hb s t same
  have left := reads a ha s
  rw [same, reads b hb t] at left
  simpa [eq_comm] using left

/-- A sequence of words up to a stop symbol that starts no word. -/
theorem terminated (code : PrefixCode dom f) {stop : β} (start : ∀ a, (f a).head? ≠ some stop)
    (nonempty : ∀ a, f a ≠ []) {l m : List α} (hl : ∀ a ∈ l, dom a) (hm : ∀ a ∈ m, dom a)
    {s t : List β} (same : l.flatMap f ++ stop :: s = m.flatMap f ++ stop :: t) :
    l = m ∧ s = t := by
  have clash : ∀ a (u v : List β), f a ++ u ≠ stop :: v := by
    intro a u v equal
    cases word : f a with
    | nil => exact nonempty a word
    | cons x xs =>
      rw [word, List.cons_append] at equal
      injection equal with head
      exact start a (by rw [word, head]; rfl)
  induction l generalizing m with
  | nil =>
    cases m with
    | nil => simpa using same
    | cons b m =>
      rw [List.flatMap_cons, List.append_assoc] at same
      exact absurd same.symm (clash b _ s)
  | cons a l ih =>
    cases m with
    | nil =>
      rw [List.flatMap_cons, List.append_assoc] at same
      exact absurd same (clash a _ t)
    | cons b m =>
      simp only [List.flatMap_cons, List.append_assoc] at same
      obtain ⟨rfl, rest⟩ := code (hl a (by simp)) (hm b (by simp)) same
      obtain ⟨rfl, tail⟩ := ih (fun x hx => hl x (by simp [hx]))
        (fun x hx => hm x (by simp [hx])) rest
      exact ⟨rfl, tail⟩

/-- Nonempty words make whole messages readable. -/
theorem flatMap_injective (code : PrefixCode dom f) (nonempty : ∀ a, f a ≠ []) {l m : List α}
    (hl : ∀ a ∈ l, dom a) (hm : ∀ a ∈ m, dom a) (same : l.flatMap f = m.flatMap f) : l = m := by
  induction l generalizing m with
  | nil =>
    cases m with
    | nil => rfl
    | cons b m =>
      have empty : f b ++ m.flatMap f = [] := by simpa using same.symm
      exact absurd (List.append_eq_nil_iff.mp empty).1 (nonempty b)
  | cons a l ih =>
    cases m with
    | nil =>
      have empty : f a ++ l.flatMap f = [] := by simpa using same
      exact absurd (List.append_eq_nil_iff.mp empty).1 (nonempty a)
    | cons b m =>
      simp only [List.flatMap_cons] at same
      obtain ⟨rfl, rest⟩ := code (hl a (by simp)) (hm b (by simp)) same
      rw [ih (fun x hx => hl x (by simp [hx])) (fun x hx => hm x (by simp [hx])) rest]

end PrefixCode

/-- A text that does not go on with a symbol of the class `p`. -/
def Ends (p : β → Bool) (s : List β) : Prop := ∀ b ∈ s.head?, p b = false

@[simp] theorem ends_nil (p : β → Bool) : Ends p [] := by simp [Ends]

@[simp] theorem ends_cons {p : β → Bool} {b : β} {s : List β} :
    Ends p (b :: s) ↔ p b = false := by
  simp [Ends]

/-- Words over a symbol class are read up to the first other symbol. -/
theorem token_split {p : β → Bool} {v w s t : List β} (hv : ∀ b ∈ v, p b = true)
    (hw : ∀ b ∈ w, p b = true) (hs : Ends p s) (ht : Ends p t) (same : v ++ s = w ++ t) :
    v = w ∧ s = t := by
  induction v generalizing w with
  | nil =>
    cases w with
    | nil => exact ⟨rfl, by simpa using same⟩
    | cons b w =>
      have hb := hw b (by simp)
      rw [List.nil_append, List.cons_append] at same
      subst same
      simp [hb] at hs
  | cons a v ih =>
    have ha := hv a (by simp)
    cases w with
    | nil =>
      rw [List.nil_append, List.cons_append] at same
      subst same
      simp [ha] at ht
    | cons b w =>
      simp only [List.cons_append, List.cons.injEq] at same
      obtain ⟨rfl, rest⟩ := same
      obtain ⟨rfl, tail⟩ := ih (fun x hx => hv x (by simp [hx]))
        (fun x hx => hw x (by simp [hx])) rest
      exact ⟨rfl, tail⟩

end Library
