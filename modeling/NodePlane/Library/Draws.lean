import Mathlib.Algebra.Group.Nat.Defs
import Mathlib.Data.List.Range
import Mathlib.Data.Nat.Find
import Mathlib.Order.Basic
import Mathlib.Tactic.Common

/-! Programs that draw random numbers from ranges, and what holds for every outcome of the draws. -/
namespace Library

/-- A program that draws numbers: from `low` to `high`, again while `again` holds of the number. -/
inductive Draws (α : Type) where
  | done (a : α)
  | draw (low high : ℕ) (again : ℕ → Bool) (next : ℕ → Draws α)

namespace Draws
variable {α β : Type}

def bind : Draws α → (α → Draws β) → Draws β
  | .done a, f => f a
  | .draw low high again next, f => .draw low high again fun n => (next n).bind f

instance : Monad Draws where
  pure := .done
  bind := bind

/-- A number of a range. -/
def number (low high : ℕ) : Draws ℕ := .draw low high (fun _ => false) .done

/-- A number of a range that is drawn again while `again` holds. -/
def redrawn (low high : ℕ) (again : ℕ → Bool) : Draws ℕ := .draw low high again .done

/-- As many numbers of a range. -/
def numbers (low high : ℕ) : ℕ → Draws (List ℕ)
  | 0 => .done []
  | n + 1 => do
    let first ← number low high
    let rest ← numbers low high n
    return first :: rest

/-! Every outcome within the ranges. -/

/-- Whatever is drawn, each range holds a number to settle on and the result satisfies `P`. -/
def Always : Draws α → (α → Prop) → Prop
  | .done a, P => P a
  | .draw low high again next, P => high - low < 2 ^ 63 ∧
    (∃ n, low ≤ n ∧ n ≤ high ∧ again n = false) ∧
    ∀ n, low ≤ n → n ≤ high → again n = false → (next n).Always P

theorem always_pure {a : α} {P : α → Prop} : Always (pure a : Draws α) P ↔ P a := Iff.rfl

theorem always_bind {d : Draws α} {f : α → Draws β} {P : β → Prop} :
    (d >>= f).Always P ↔ d.Always fun a => (f a).Always P := by
  show (d.bind f).Always P ↔ _
  induction d with
  | done a => exact Iff.rfl
  | draw low high again next ih =>
    refine and_congr_right fun _ => and_congr_right fun _ => ?_
    exact forall_congr' fun n => imp_congr_right fun _ => imp_congr_right fun _ =>
      imp_congr_right fun _ => ih n

theorem always_map {d : Draws α} {f : α → β} {P : β → Prop} :
    (f <$> d).Always P ↔ d.Always fun a => P (f a) :=
  always_bind

theorem Always.mono {d : Draws α} {P Q : α → Prop} (always : d.Always P) (weaker : ∀ a, P a → Q a) :
    d.Always Q := by
  induction d with
  | done a => exact weaker a always
  | draw low high again next ih =>
    obtain ⟨small, some, each⟩ := always
    exact ⟨small, some, fun n least most settled => ih n (each n least most settled)⟩

theorem always_number {low high : ℕ} (ordered : low ≤ high) (small : high < 2 ^ 63) :
    (number low high).Always fun n => low ≤ n ∧ n ≤ high :=
  ⟨by omega, ⟨low, le_rfl, ordered, rfl⟩, fun _ least most _ => ⟨least, most⟩⟩

theorem always_numbers {low high : ℕ} (ordered : low ≤ high) (small : high < 2 ^ 63) (n : ℕ) :
    (numbers low high n).Always fun items => items.length = n ∧ ∀ m ∈ items, low ≤ m ∧ m ≤ high := by
  induction n with
  | zero => exact ⟨rfl, List.forall_mem_nil _⟩
  | succ n ih =>
    rw [numbers, always_bind]
    refine (always_number ordered small).mono fun first bounds => ?_
    rw [always_bind]
    refine ih.mono fun rest ⟨length, each⟩ => ?_
    exact ⟨congrArg (· + 1) length, List.forall_mem_cons.mpr ⟨bounds, each⟩⟩

/-! A run on the words of a random source. -/

inductive Outcome (α : Type)
  | emptyRange
  | waiting
  | done (a : α)
  deriving DecidableEq

/-- Words from the last multiple of the span on are passed over, so that each number is equally
likely. -/
def accepts (low high : ℕ) (again : ℕ → Bool) (word : ℕ) : Bool :=
  let span := high - low + 1
  let limit := 2 ^ 64 - 1 - (2 ^ 64 - 1) % span
  word < limit && !again (low + word % span)

/-- The first accepted word's number and the words after it. -/
def take (low high : ℕ) (again : ℕ → Bool) : List ℕ → Option (ℕ × List ℕ)
  | [] => none
  | word :: rest =>
    if accepts low high again word then some (low + word % (high - low + 1), rest)
    else take low high again rest

def run : Draws α → List ℕ → Outcome α
  | .done a, _ => .done a
  | .draw low high again next, words =>
    if high < low then .emptyRange
    else match take low high again words with
      | none => .waiting
      | some (n, rest) => run (next n) rest

theorem take_bounds {low high n : ℕ} {again : ℕ → Bool} {words rest : List ℕ} (ordered : low ≤ high)
    (taken : take low high again words = some (n, rest)) : low ≤ n ∧ n ≤ high ∧ again n = false := by
  induction words with
  | nil => cases taken
  | cons word more ih =>
    rw [take] at taken
    split at taken
    next accepted =>
      cases taken
      have within := Nat.mod_lt word (show 0 < high - low + 1 by omega)
      rw [accepts, Bool.and_eq_true, Bool.not_eq_true'] at accepted
      exact ⟨by omega, by omega, accepted.2⟩
    · exact ih taken

/-- No range is found empty, and what a run gives satisfies `P`. -/
theorem Always.run {d : Draws α} {P : α → Prop} (always : d.Always P) (words : List ℕ) :
    d.run words ≠ .emptyRange ∧ ∀ a, d.run words = .done a → P a := by
  induction d generalizing words with
  | done b =>
    refine ⟨(by rintro ⟨⟩), ?_⟩
    rintro a ⟨⟩
    exact always
  | draw low high again next ih =>
    obtain ⟨-, ⟨m, least, most, -⟩, each⟩ := always
    have ordered : low ≤ high := least.trans most
    rw [Draws.run, if_neg (Nat.not_lt_of_le ordered)]
    cases taken : take low high again words with
    | none => exact ⟨(by rintro ⟨⟩), by rintro a ⟨⟩⟩
    | some pair =>
      obtain ⟨n, rest⟩ := pair
      obtain ⟨least, most, settled⟩ := take_bounds ordered taken
      exact ih n (each n least most settled) rest

/-- A source that gives every word again and again. -/
def Fair (source : ℕ → ℕ) : Prop := ∀ word < 2 ^ 64, ∀ n, ∃ m ≥ n, source m = word

theorem take_first {low high word : ℕ} {again : ℕ → Bool} {passed rest : List ℕ}
    (refused : ∀ w ∈ passed, accepts low high again w = false)
    (accepted : accepts low high again word = true) :
    take low high again (passed ++ word :: rest) = some (low + word % (high - low + 1), rest) := by
  induction passed with
  | nil => rw [List.nil_append, take, if_pos accepted]
  | cons w more ih =>
    obtain ⟨here, later⟩ := List.forall_mem_cons.mp refused
    rw [List.cons_append, take, if_neg (Bool.eq_false_iff.mp here)]
    exact ih later

/-- On a fair source every run ends. -/
theorem Always.ends {d : Draws α} {P : α → Prop} (always : d.Always P) {source : ℕ → ℕ}
    (fair : Fair source) (start : ℕ) :
    ∃ count a, d.run ((List.range' start count).map source) = .done a ∧ P a := by
  induction d generalizing start with
  | done a => exact ⟨0, a, rfl, always⟩
  | draw low high again next ih =>
    obtain ⟨small, ⟨n, least, most, settled⟩, each⟩ := always
    -- the word that gives `n` comes up, so there is a first accepted word
    have found : ∃ m, accepts low high again (source (start + m)) = true := by
      obtain ⟨m, later, same⟩ := fair (n - low) (by omega) start
      refine ⟨m - start, ?_⟩
      rw [Nat.add_sub_cancel' later, same, accepts, Bool.and_eq_true]
      have limit := Nat.mod_lt (2 ^ 64 - 1) (show 0 < high - low + 1 by omega)
      rw [Nat.mod_eq_of_lt (show n - low < high - low + 1 by omega), Nat.add_sub_cancel' least, settled]
      exact ⟨decide_eq_true (by omega), rfl⟩
    classical
    have accepted := Nat.find_spec found
    have refused : ∀ w ∈ (List.range' start (Nat.find found)).map source,
        accepts low high again w = false := by
      intro w listed
      obtain ⟨m, within, rfl⟩ := List.mem_map.mp listed
      obtain ⟨i, short, rfl⟩ := List.mem_range'.mp within
      rw [Nat.one_mul]
      exact Bool.eq_false_iff.mpr (Nat.find_min found short)
    have ordered : low ≤ high := least.trans most
    have first : ∀ rest, take low high again (_ ++ source (start + Nat.find found) :: rest) = _ :=
      fun _ => take_first refused accepted
    obtain ⟨least, most, settled⟩ := take_bounds ordered (first [])
    obtain ⟨count, a, done, holds⟩ := ih _ (each _ least most settled) (start + Nat.find found + 1)
    refine ⟨Nat.find found + (1 + count), a, ?_, holds⟩
    rw [← List.range'_append_1, ← List.range'_append_1, List.map_append, List.map_append,
      Draws.run, if_neg (Nat.not_lt_of_le ordered)]
    rw [show List.range' (start + Nat.find found) 1 = [start + Nat.find found] from rfl, List.map_singleton,
      List.singleton_append, first]
    exact done

end Draws
end Library
