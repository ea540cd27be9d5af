import Mathlib.Data.List.Basic

/-! Editing one member of a list, the first or the last that satisfies a test, by an edit
that can fail. -/
namespace Library
variable {α ε : Type}

/-- Edits the first member that satisfies `p`. -/
def updateFirst (p : α → Bool) (edit : α → Except ε α) (missing : ε) : List α → Except ε (List α)
  | [] => .error missing
  | a :: rest =>
    if p a then
      (edit a).map fun b => b :: rest
    else
      (updateFirst p edit missing rest).map fun rest => a :: rest

/-- Edits the last member that satisfies `p`. -/
def updateLast (p : α → Bool) (edit : α → Except ε α) (missing : ε) (list : List α) :
    Except ε (List α) :=
  (updateFirst p edit missing list.reverse).map List.reverse

variable {p q : α → Bool} {edit : α → Except ε α} {missing : ε} {old new : List α}

theorem map_ok {β γ : Type} {result : Except ε β} {f : β → γ} {c : γ} :
    result.map f = .ok c ↔ ∃ b, result = .ok b ∧ f b = c := by
  cases result with
  | error err => simp [Except.map]
  | ok b => simp [Except.map]

theorem bind_ok {β γ : Type} {result : Except ε β} {f : β → Except ε γ} {c : γ} :
    result >>= f = .ok c ↔ ∃ b, result = .ok b ∧ f b = .ok c := by
  cases result with
  | error err => simp [bind, Except.bind]
  | ok b => simp [bind, Except.bind]

/-- What is edited is the first such member, and it stays the first. -/
theorem updateFirst_find (done : updateFirst p edit missing old = .ok new) :
    ∃ a b, old.find? p = some a ∧ edit a = .ok b ∧ (p b = true → new.find? p = some b) := by
  induction old generalizing new with
  | nil => cases done
  | cons a rest ih =>
    rw [updateFirst] at done
    split at done
    next here =>
      obtain ⟨b, edited, rfl⟩ := map_ok.mp done
      exact ⟨a, b, List.find?_cons_of_pos here, edited, fun stays => List.find?_cons_of_pos stays⟩
    next passed =>
      obtain ⟨rest', later, rfl⟩ := map_ok.mp done
      obtain ⟨c, b, found, edited, stays⟩ := ih later
      refine ⟨c, b, ?_, edited, fun kept => ?_⟩
      · rw [List.find?_cons_of_neg passed, found]
      · rw [List.find?_cons_of_neg passed, stays kept]

theorem updateFirst_fixed {a : α} (found : old.find? p = some a) (fixed : edit a = .ok a) :
    updateFirst p edit missing old = .ok old := by
  induction old with
  | nil => cases found
  | cons b rest ih =>
    rw [updateFirst]
    by_cases here : p b = true
    · rw [List.find?_cons_of_pos here] at found
      rw [if_pos here, Option.some.inj found, fixed]
      rfl
    · rw [List.find?_cons_of_neg here] at found
      rw [if_neg here, ih found]
      rfl

/-- Members that neither are edited nor come out of an edit stay as they are, in order. -/
theorem updateFirst_filter (done : updateFirst p edit missing old = .ok new)
    (apart : ∀ a b, p a = true → edit a = .ok b → q a = false ∧ q b = false) :
    new.filter q = old.filter q := by
  induction old generalizing new with
  | nil => cases done
  | cons a rest ih =>
    rw [updateFirst] at done
    split at done
    next here =>
      obtain ⟨b, edited, rfl⟩ := map_ok.mp done
      obtain ⟨before, after⟩ := apart a b here edited
      rw [List.filter_cons_of_neg (by simp [after]), List.filter_cons_of_neg (by simp [before])]
    next passed =>
      obtain ⟨rest', later, rfl⟩ := map_ok.mp done
      rw [List.filter_cons, List.filter_cons, ih later]

theorem updateLast_ok : updateLast p edit missing old = .ok new ↔
    updateFirst p edit missing old.reverse = .ok new.reverse := by
  rw [updateLast, map_ok]
  constructor
  · rintro ⟨list, done, rfl⟩
    rw [done, List.reverse_reverse]
  · intro done
    exact ⟨new.reverse, done, List.reverse_reverse new⟩

/-- An edit elsewhere does not change which member is found. -/
theorem updateFirst_find_frame (done : updateFirst p edit missing old = .ok new)
    (apart : ∀ a b, p a = true → edit a = .ok b → q a = false ∧ q b = false) :
    new.find? q = old.find? q := by
  rw [← List.head?_filter, ← List.head?_filter, updateFirst_filter done apart]

end Library
