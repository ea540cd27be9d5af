import Mathlib.Computability.RegularExpressions

/-! Regular expressions over classes and literals, and all matches of a pattern in a text. -/
namespace Library
namespace Regex
open RegularExpression

section Expressions
variable {α : Type}

def literal (word : List α) : RegularExpression α :=
  word.foldr (fun a rest => char a * rest) 1

/-- A class of letters. -/
def oneOf (letters : List α) : RegularExpression α :=
  letters.foldr (fun a rest => char a + rest) 0

/-- One or more times. -/
def plus (r : RegularExpression α) : RegularExpression α := r * star r

/-- The whole word matches. -/
def fullmatch [DecidableEq α] (r : RegularExpression α) (word : List α) : Bool := r.rmatch word

theorem fullmatch_iff [DecidableEq α] {r : RegularExpression α} {word : List α} :
    fullmatch r word = true ↔ word ∈ r.matches' :=
  rmatch_iff_matches' r word

@[simp] theorem mem_literal {word x : List α} : x ∈ (literal word).matches' ↔ x = word := by
  induction word generalizing x with
  | nil => rfl
  | cons a rest ih =>
    show x ∈ (char a * literal rest).matches' ↔ _
    rw [matches'_mul, Language.mem_mul]
    constructor
    · rintro ⟨first, here, last, there, rfl⟩
      cases (here : first = [a])
      rw [ih.mp there]
      rfl
    · rintro rfl
      exact ⟨[a], rfl, rest, ih.mpr rfl, rfl⟩

@[simp] theorem mem_oneOf {letters x : List α} :
    x ∈ (oneOf letters).matches' ↔ ∃ a ∈ letters, x = [a] := by
  induction letters with
  | nil =>
    constructor
    · intro none
      cases none
    · rintro ⟨_, none, _⟩
      cases none
  | cons a rest ih =>
    show x ∈ (char a + oneOf rest).matches' ↔ _
    rw [matches'_add, Language.mem_add, ih, List.exists_mem_cons_iff]
    rfl

theorem mem_plus {r : RegularExpression α} {x : List α} :
    x ∈ (plus r).matches' ↔ ∃ parts : List (List α), parts ≠ [] ∧ x = parts.flatten ∧
      ∀ part ∈ parts, part ∈ r.matches' := by
  rw [plus, matches'_mul, matches'_star, Language.mem_mul]
  constructor
  · rintro ⟨first, here, rest, there, rfl⟩
    obtain ⟨parts, rfl, each⟩ := Language.mem_kstar.mp there
    exact ⟨first :: parts, List.cons_ne_nil _ _, rfl, List.forall_mem_cons.mpr ⟨here, each⟩⟩
  · rintro ⟨parts, some, rfl, each⟩
    cases parts with
    | nil => exact absurd rfl some
    | cons first rest =>
      obtain ⟨here, each⟩ := List.forall_mem_cons.mp each
      exact ⟨first, here, rest.flatten, Language.mem_kstar.mpr ⟨rest, rfl, each⟩, rfl⟩

@[simp] theorem mem_plus_oneOf {letters x : List α} :
    x ∈ (plus (oneOf letters)).matches' ↔ x ≠ [] ∧ ∀ a ∈ x, a ∈ letters := by
  rw [mem_plus]
  constructor
  · rintro ⟨parts, some, rfl, each⟩
    cases parts with
    | nil => exact absurd rfl some
    | cons first rest =>
      constructor
      · obtain ⟨a, -, rfl⟩ := mem_oneOf.mp (each first List.mem_cons_self)
        exact List.cons_ne_nil _ _
      · intro a member
        obtain ⟨part, listed, inside⟩ := List.mem_flatten.mp member
        obtain ⟨b, known, rfl⟩ := mem_oneOf.mp (each part listed)
        rwa [List.mem_singleton.mp inside]
  · rintro ⟨some, each⟩
    refine ⟨x.map fun a => [a], by simpa using some, (List.flatMap_singleton' x).symm, ?_⟩
    intro part listed
    obtain ⟨a, member, rfl⟩ := List.mem_map.mp listed
    exact mem_oneOf.mpr ⟨a, each a member, rfl⟩

end Expressions

section Findall
variable {α β : Type}

/-- The matches from left to right; `pattern` gives what the match at the start of a text captures
and how long it is, and `skip` letters belong to the last match. -/
def findallFrom (pattern : List α → Option (β × ℕ)) : ℕ → List α → List β
  | _, [] => []
  | skip + 1, _ :: rest => findallFrom pattern skip rest
  | 0, a :: rest =>
    match pattern (a :: rest) with
    | some (captured, length) => captured :: findallFrom pattern (length - 1) rest
    | none => findallFrom pattern 0 rest

def findall (pattern : List α → Option (β × ℕ)) (text : List α) : List β :=
  findallFrom pattern 0 text

variable {pattern : List α → Option (β × ℕ)}

theorem findallFrom_length (matched rest : List α) :
    findallFrom pattern matched.length (matched ++ rest) = findall pattern rest := by
  induction matched with
  | nil => rfl
  | cons a more ih => exact ih

/-- A match is found and what follows it is searched. -/
theorem findall_match {matched rest : List α} {captured : β} (some : matched ≠ [])
    (found : pattern (matched ++ rest) = Option.some (captured, matched.length)) :
    findall pattern (matched ++ rest) = captured :: findall pattern rest := by
  cases matched with
  | nil => exact absurd rfl some
  | cons a more =>
    rw [findall, List.cons_append, findallFrom, ← List.cons_append, found]
    exact congrArg (captured :: ·) (findallFrom_length more rest)

/-- Letters at which no match starts are passed over. -/
theorem findall_skip {passed rest : List α}
    (none : ∀ before a after, passed = before ++ a :: after →
      pattern (a :: after ++ rest) = Option.none) :
    findall pattern (passed ++ rest) = findall pattern rest := by
  induction passed with
  | nil => rfl
  | cons a more ih =>
    rw [findall, List.cons_append, findallFrom, ← List.cons_append, none [] a more rfl]
    apply ih
    intro before b after same
    exact none (a :: before) b after (by rw [same]; rfl)

/-- The matches of a text made of parts, when a part is matched whole or nowhere. -/
theorem findall_flatMap {γ : Type} {text : γ → List α} {found : γ → Option β} {items : List γ}
    (whole : ∀ item ∈ items, ∀ captured, found item = some captured → text item ≠ [] ∧
      ∀ rest, pattern (text item ++ rest) = some (captured, (text item).length))
    (nowhere : ∀ item ∈ items, found item = none → ∀ before a after,
      text item = before ++ a :: after → ∀ rest, pattern (a :: after ++ rest) = none) :
    findall pattern (items.flatMap text) = items.filterMap found := by
  induction items with
  | nil => rfl
  | cons item rest ih =>
    have later := ih (fun other listed => whole other (List.mem_cons_of_mem _ listed))
      (fun other listed => nowhere other (List.mem_cons_of_mem _ listed))
    rw [List.flatMap_cons]
    cases here : found item with
    | none =>
      rw [List.filterMap_cons_none here, ← later]
      apply findall_skip
      intro before a after same
      exact nowhere item List.mem_cons_self here before a after same _
    | some captured =>
      obtain ⟨nonempty, matched⟩ := whole item List.mem_cons_self captured here
      rw [List.filterMap_cons_some here, ← later]
      exact findall_match nonempty (matched _)

end Findall
end Regex
end Library
