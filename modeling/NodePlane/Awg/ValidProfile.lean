import NodePlane.Library.ListEdit
import NodePlane.Awg.Profile

/-! What makes a profile valid, and that the agent's validation decides it. -/
namespace NodePlane
namespace Awg
open Library

/-! The grammar of values. -/

def decimal (text : List Char) : ℕ := Nat.ofDigitChars 10 text 0

/-- A decimal number up to `maximum`. -/
def IsNumber (text : List Char) (maximum : ℕ) : Prop := digits text = true ∧ decimal text ≤ maximum

/-- One number or two with a dash between them, in order and within the bounds. -/
def IsRange (text : List Char) (minimum maximum : ℕ) (r : ℕ × ℕ) : Prop :=
  ∃ low high, digits low = true ∧ digits high = true ∧
    ((text = low ∧ high = low) ∨ text = low ++ '-' :: high) ∧ r = (decimal low, decimal high) ∧
    minimum ≤ r.1 ∧ r.1 ≤ r.2 ∧ r.2 ≤ maximum

/-- Ranges without a common number. -/
def Apart (r s : ℕ × ℕ) : Prop := ¬ (s.1 ≤ r.2 ∧ r.1 ≤ s.2)

inductive Filler | r | rc | rd
  deriving DecidableEq

def Filler.name : Filler → String
  | .r => "r"
  | .rc => "rc"
  | .rd => "rd"

/-- The tags of a packet pattern. -/
inductive Tag
  | bytes (hex : List Char)
  | filler (name : Filler) (length : List Char)
  | time

namespace Tag

def inner : Tag → List Char
  | .bytes hex => 'b' :: ' ' :: '0' :: 'x' :: hex
  | .filler name length => name.name.toList ++ ' ' :: length
  | .time => ['t']

def text (tag : Tag) : List Char := '<' :: tag.inner ++ ['>']

/-- Its kind and its argument. -/
def pair : Tag → String × List Char
  | .bytes hex => ("b", hex)
  | .filler name length => (name.name, length)
  | .time => ("t", [])

def Spelled : Tag → Prop
  | .bytes hex => hex ≠ [] ∧ hex.all hexDigit = true
  | .filler _ length => digits length = true
  | .time => True

/-- Whole bytes, and no more than a thousand letters of filler. -/
def Bounded : Tag → Prop
  | .bytes hex => hex.length % 2 = 0
  | .filler _ length => decimal length ≤ 1000
  | .time => True

end Tag

/-- An expression of one or more tags. -/
def IsPattern (text : List Char) : Prop :=
  ∃ tags : List Tag, tags ≠ [] ∧ text = tags.flatMap Tag.text ∧
    ∀ tag ∈ tags, tag.Spelled ∧ tag.Bounded

/-- A valid AWG 3.1 profile, by the value of each field, empty where it is missing. -/
structure Valid (get : String → String) : Prop where
  protects : get "HeaderProtectionKey" ≠ ""
  trailers : (get "RandomTrailers").toLower = "on" ∨ (get "RandomTrailers").toLower = "off"
  cookies : (get "DisableCookies").toLower = "on" ∨ (get "DisableCookies").toLower = "off"
  present : ∀ key ∈ legacyFields, get key ≠ ""
  jmin : IsNumber (get "Jmin").toList 65535
  jmax : IsNumber (get "Jmax").toList 65535
  jitter : decimal (get "Jmin").toList ≤ decimal (get "Jmax").toList
  count : IsNumber (get "Jc").toList 65535
  padding : ∀ field ∈ paddingLimits, IsNumber (get field.1).toList field.2 ∧
    12 ≤ decimal (get field.1).toList
  sizes : decimal (get "S1").toList + 56 ≠ decimal (get "S2").toList
  headers : ∃ ranges, List.Forall₂ (fun key r => IsRange (get key).toList 0 4294967295 r)
    headerFields ranges ∧ ranges.Pairwise Apart
  patterns : ∀ key ∈ patternFields, IsPattern (get key).toList
  key : Base64.Whole (get "HeaderProtectionKey").toList
  content : get "ContentPaddingAddition" ≠ "" →
    ∃ r, IsRange (get "ContentPaddingAddition").toList 0 65535 r
  timings : ∀ key ∈ timingFields, get key ≠ "" → ∃ r, IsRange (get key).toList 1 65535 r
  rekeys : ∃ rekey reject,
    IsRange (if get "RekeyAfterTime" = "" then "120" else get "RekeyAfterTime").toList 1 65535
      rekey ∧
    IsRange (if get "RejectAfterTime" = "" then "180" else get "RejectAfterTime").toList 1 65535
      reject ∧ rekey.2 < reject.1

/-! The agent's readings of numbers and ranges. -/

theorem splitOnce_some {sep : Char} {text a b : List Char} :
    splitOnce sep text = some (a, b) ↔ text = a ++ sep :: b ∧ sep ∉ a := by
  unfold splitOnce
  constructor
  · intro split
    cases rest : text.dropWhile (· ≠ sep) with
    | nil =>
      rw [rest] at split
      cases split
    | cons c more =>
      rw [rest] at split
      cases split
      have stops := List.head?_dropWhile_not (· ≠ sep) text
      rw [rest] at stops
      have same : c = sep := by simpa using stops
      refine ⟨?_, ?_⟩
      · subst same
        rw [← rest, List.takeWhile_append_dropWhile]
      · intro inside
        simpa using List.mem_takeWhile_imp inside
  · rintro ⟨rfl, apart⟩
    have before : ∀ c ∈ a, decide (c ≠ sep) = true := by
      intro c inside
      exact decide_eq_true fun same => apart (same ▸ inside)
    rw [List.dropWhile_append_of_pos before, List.takeWhile_append_of_pos before]
    simp

theorem splitOnce_none {sep : Char} {text : List Char} :
    splitOnce sep text = none ↔ sep ∉ text := by
  constructor
  · intro none inside
    obtain ⟨a, b, rfl, apart⟩ := List.eq_append_cons_of_mem inside
    rw [splitOnce_some.mpr ⟨rfl, apart⟩] at none
    cases none
  · intro apart
    cases split : splitOnce sep text with
    | none => rfl
    | some parts =>
      obtain ⟨rfl, -⟩ := splitOnce_some.mp split
      exact absurd (List.mem_append_right _ List.mem_cons_self) apart

theorem digits_ne {text : List Char} (known : digits text = true) {c : Char} (inside : c ∈ text) :
    c.isDigit = true := by
  rw [digits, Bool.and_eq_true] at known
  exact List.all_eq_true.mp known.2 c inside

/-- Below 2^64 - 1 the reading is the number. -/
theorem number_le {text : List Char} (known : digits text = true) {maximum : ℕ}
    (small : maximum < 2 ^ 64 - 1) :
    (number text ≤ maximum ↔ decimal text ≤ maximum) ∧
      (number text ≤ maximum → number text = decimal text) := by
  have reads : number text = if decimal text < 2 ^ 64 then decimal text else 2 ^ 64 - 1 := by
    show (if (digits text && decide (decimal text < 2 ^ 64)) = true then decimal text
      else 2 ^ 64 - 1) = _
    rw [known, Bool.true_and]
    by_cases fits : decimal text < 2 ^ 64
    · rw [if_pos fits, if_pos (decide_eq_true fits)]
    · rw [if_neg fits, if_neg (by simpa using fits)]
  rw [reads]
  split <;> omega

theorem single_ok {value : String} {maximum n : ℕ} (small : maximum < 2 ^ 64 - 1) :
    single value maximum = .ok n ↔ IsNumber value.toList maximum ∧ n = decimal value.toList := by
  unfold single IsNumber
  by_cases known : digits value.toList = true
  · obtain ⟨bound, same⟩ := number_le known small
    simp only [known, Bool.not_true, Bool.false_or, decide_eq_true_eq, true_and]
    by_cases above : number value.toList > maximum
    · rw [if_pos above]
      constructor
      · rintro ⟨⟩
      · rintro ⟨fits, -⟩
        exact absurd (bound.mpr fits) (Nat.not_le_of_lt above)
    · have fits := Nat.le_of_not_lt above
      rw [if_neg above, Except.ok.injEq, same fits]
      exact ⟨fun is => ⟨bound.mp fits, is.symm⟩, fun is => is.2.symm⟩
  · simp [known]

theorem range_ok {value : String} {maximum minimum : ℕ} {r : ℕ × ℕ} (small : maximum < 2 ^ 64 - 1) :
    range value maximum minimum = .ok r ↔ IsRange value.toList minimum maximum r := by
  have bounds : ∀ low high : List Char, digits low = true → digits high = true →
      ((if number low < minimum || number low > number high || number high > maximum then
          .error ("Out-of-range value: " ++ debug value)
        else .ok (number low, number high) : Except String (ℕ × ℕ)) = .ok r ↔
        r = (decimal low, decimal high) ∧ minimum ≤ r.1 ∧ r.1 ≤ r.2 ∧ r.2 ≤ maximum) := by
    intro low high known known'
    obtain ⟨bound, same⟩ := number_le known small
    obtain ⟨bound', same'⟩ := number_le known' small
    constructor
    · intro ok
      split at ok
      · cases ok
      next within =>
        cases ok
        simp only [Bool.or_eq_true, decide_eq_true_eq, not_or, not_lt, gt_iff_lt] at within
        obtain ⟨⟨least, ordered⟩, most⟩ := within
        have eq' := same' most
        have eq := same (ordered.trans most)
        exact ⟨by rw [eq, eq'], least, ordered, most⟩
    · rintro ⟨rfl, least, ordered, most⟩
      dsimp only at least ordered most
      have most' := bound'.mpr most
      have eq' := same' most'
      have eq := same (bound.mpr (ordered.trans most))
      rw [if_neg, eq, eq']
      rw [eq, eq']
      simp
      omega
  unfold range IsRange
  cases split : splitOnce '-' value.toList with
  | none =>
    have dash := splitOnce_none.mp split
    dsimp only [Option.getD_none]
    by_cases known : digits value.toList = true
    · rw [known]
      simp only [Bool.not_true, Bool.or_self, Bool.false_eq_true, if_false]
      rw [bounds _ _ known known]
      constructor
      · intro within
        exact ⟨_, _, known, known, .inl ⟨rfl, rfl⟩, within⟩
      · rintro ⟨low, high, -, -, ⟨rfl, rfl⟩ | two, within⟩
        · exact within
        · exact absurd (two ▸ List.mem_append_right _ List.mem_cons_self) dash
    · simp only [Bool.not_eq_true] at known
      simp only [known, Bool.not_false, Bool.or_self, if_true]
      constructor
      · rintro ⟨⟩
      · rintro ⟨low, high, known', -, ⟨rfl, rfl⟩ | two, within⟩
        · rw [known] at known'
          cases known'
        · exact absurd (two ▸ List.mem_append_right _ List.mem_cons_self) dash
  | some parts =>
    obtain ⟨low, high⟩ := parts
    obtain ⟨same, dash⟩ := splitOnce_some.mp split
    dsimp only [Option.getD_some]
    have unique : ∀ low' high', digits low' = true → digits high' = true →
        (value.toList = low' ∧ high' = low' ∨ value.toList = low' ++ '-' :: high') →
          low' = low ∧ high' = high := by
      rintro low' high' known known' (⟨one, rfl⟩ | two)
      · have inside : '-' ∈ high' := one ▸ same ▸ List.mem_append_right _ List.mem_cons_self
        exact absurd (digits_ne known inside) (by decide)
      · have apart : '-' ∉ low' := fun inside => absurd (digits_ne known inside) (by decide)
        have again := splitOnce_some.mpr ⟨two, apart⟩
        rw [split] at again
        cases again
        exact ⟨rfl, rfl⟩
    by_cases known : digits low = true ∧ digits high = true
    · rw [known.1, known.2]
      simp only [Bool.not_true, Bool.or_self, Bool.false_eq_true, if_false]
      rw [bounds _ _ known.1 known.2]
      constructor
      · intro within
        exact ⟨low, high, known.1, known.2, .inr same, within⟩
      · rintro ⟨low', high', known', known'', spelled, within⟩
        obtain ⟨rfl, rfl⟩ := unique low' high' known' known'' spelled
        exact within
    · rw [if_pos]
      · constructor
        · rintro ⟨⟩
        · rintro ⟨low', high', known', known'', spelled, -⟩
          obtain ⟨rfl, rfl⟩ := unique low' high' known' known'' spelled
          exact absurd ⟨known', known''⟩ known
      · rw [Bool.or_eq_true, Bool.not_eq_true', Bool.not_eq_true']
        by_contra both
        simp only [not_or, Bool.not_eq_false] at both
        exact known both

/-! The agent's reading of patterns. -/

theorem cpsTag_some {inner : List Char} {pair : String × List Char} :
    cpsTag inner = some pair ↔ ∃ tag : Tag, tag.Spelled ∧ tag.inner = inner ∧ tag.pair = pair := by
  constructor
  · intro parsed
    unfold cpsTag at parsed
    split at parsed
    · split at parsed
      next same =>
        cases parsed
        exact ⟨.time, trivial, same.symm, rfl⟩
      · cases parsed
    next hex split' =>
      obtain ⟨same, -⟩ := splitOnce_some.mp split'
      split at parsed
      next spelled =>
        cases parsed
        exact ⟨.bytes hex, spelled, same.symm, rfl⟩
      · cases parsed
    next length split' =>
      obtain ⟨same, -⟩ := splitOnce_some.mp split'
      split at parsed
      next spelled =>
        cases parsed
        exact ⟨.filler .r length, spelled, same.symm, rfl⟩
      · cases parsed
    next length split' =>
      obtain ⟨same, -⟩ := splitOnce_some.mp split'
      split at parsed
      next spelled =>
        cases parsed
        exact ⟨.filler .rc length, spelled, same.symm, rfl⟩
      · cases parsed
    next length split' =>
      obtain ⟨same, -⟩ := splitOnce_some.mp split'
      split at parsed
      next spelled =>
        cases parsed
        exact ⟨.filler .rd length, spelled, same.symm, rfl⟩
      · cases parsed
    · cases parsed
  · rintro ⟨tag, spelled, rfl, rfl⟩
    cases tag with
    | bytes hex =>
      have split' : splitOnce ' ' (Tag.bytes hex).inner = some (['b'], '0' :: 'x' :: hex) :=
        splitOnce_some.mpr ⟨rfl, by decide⟩
      simp only [cpsTag, split']
      exact if_pos spelled
    | filler name length =>
      have split' : splitOnce ' ' (Tag.filler name length).inner = some (name.name.toList, length) :=
        splitOnce_some.mpr ⟨rfl, by cases name <;> decide⟩
      cases name <;>
      · simp only [cpsTag, split']
        exact if_pos spelled
    | time => rfl

theorem spelled_closing {tag : Tag} (spelled : tag.Spelled) : '>' ∉ tag.inner := by
  cases tag with
  | bytes hex =>
    intro inside
    simp only [Tag.inner, List.mem_cons] at inside
    rcases inside with same | same | same | same | inside
    iterate 4 cases same
    exact absurd (List.all_eq_true.mp spelled.2 '>' inside) (by decide)
  | filler name length =>
    intro inside
    rw [Tag.inner, List.mem_append, List.mem_cons] at inside
    rcases inside with inside | same | inside
    · revert inside
      cases name <;> decide
    · cases same
    · exact absurd (digits_ne spelled inside) (by decide)
  | time => decide

/-- By induction on the turns; the text holds enough for each. -/
theorem cpsTagsFrom_some {fuel : ℕ} {text : List Char} {pairs : List (String × List Char)}
    (enough : text.length ≤ fuel) : cpsTagsFrom fuel text = some pairs ↔
      ∃ tags : List Tag, (∀ tag ∈ tags, tag.Spelled) ∧ text = tags.flatMap Tag.text ∧
        pairs = tags.map Tag.pair := by
  induction fuel generalizing text pairs with
  | zero =>
    rw [Nat.le_zero, List.length_eq_zero_iff] at enough
    subst enough
    constructor
    · rintro ⟨⟩
      exact ⟨[], List.forall_mem_nil _, rfl, rfl⟩
    · rintro ⟨tags, -, none, rfl⟩
      cases tags with
      | nil => rfl
      | cons tag rest => cases none
  | succ fuel ih =>
    cases text with
    | nil =>
      constructor
      · rintro ⟨⟩
        exact ⟨[], List.forall_mem_nil _, rfl, rfl⟩
      · rintro ⟨tags, -, none, rfl⟩
        cases tags with
        | nil => rfl
        | cons tag rest => cases none
    | cons c inside =>
      rw [cpsTagsFrom]
      rw [List.length_cons] at enough
      constructor
      · intro read
        split at read
        next opening =>
          subst opening
          obtain ⟨⟨tag, rest⟩, split', read⟩ := Option.bind_eq_some_iff.mp read
          obtain ⟨parsed, tagged, read⟩ := Option.bind_eq_some_iff.mp read
          obtain ⟨later, found, same⟩ := Option.bind_eq_some_iff.mp read
          cases same
          obtain ⟨rfl, -⟩ := splitOnce_some.mp split'
          obtain ⟨first, spelled, rfl, rfl⟩ := cpsTag_some.mp tagged
          have shorter : rest.length ≤ fuel := by
            rw [List.length_append, List.length_cons] at enough
            omega
          obtain ⟨tags, each, rfl, rfl⟩ := (ih shorter).mp found
          refine ⟨first :: tags, List.forall_mem_cons.mpr ⟨spelled, each⟩, ?_, rfl⟩
          simp [Tag.text]
        · cases read
      · rintro ⟨tags, each, same, rfl⟩
        cases tags with
        | nil => cases same
        | cons tag rest =>
          obtain ⟨spelled, each⟩ := List.forall_mem_cons.mp each
          rw [List.flatMap_cons, Tag.text, List.cons_append, List.cons_append, List.append_assoc,
            List.singleton_append, List.cons.injEq] at same
          obtain ⟨rfl, rfl⟩ := same
          have shorter : (rest.flatMap Tag.text).length ≤ fuel := by
            rw [List.length_append, List.length_cons] at enough
            omega
          rw [if_pos rfl, splitOnce_some.mpr ⟨rfl, spelled_closing spelled⟩]
          show (do
            let parsed ← cpsTag tag.inner
            return parsed :: (← cpsTagsFrom fuel (rest.flatMap Tag.text))) = _
          rw [cpsTag_some.mpr ⟨tag, spelled, rfl, rfl⟩, (ih shorter).mpr ⟨rest, each, rfl, rfl⟩]
          rfl

theorem cpsTags_some {text : List Char} {pairs : List (String × List Char)} :
    cpsTags text = some pairs ↔ ∃ tags : List Tag, tags ≠ [] ∧ (∀ tag ∈ tags, tag.Spelled) ∧
      text = tags.flatMap Tag.text ∧ pairs = tags.map Tag.pair := by
  unfold cpsTags
  constructor
  · intro read
    obtain ⟨found, read, some⟩ := Option.bind_eq_some_iff.mp read
    obtain ⟨tags, each, same, rfl⟩ := (cpsTagsFrom_some le_rfl).mp read
    split at some
    · cases some
    next nonempty =>
      cases some
      refine ⟨tags, ?_, each, same, rfl⟩
      rintro rfl
      exact nonempty rfl
  · rintro ⟨tags, nonempty, each, same, rfl⟩
    rw [(cpsTagsFrom_some le_rfl).mpr ⟨tags, each, same, rfl⟩]
    cases tags with
    | nil => exact absurd rfl nonempty
    | cons tag rest => rfl

theorem bounded_iff {tag : Tag} (spelled : tag.Spelled) :
    tag.Bounded ↔ (tag.pair.1 == "b" && tag.pair.2.length % 2 != 0) = false ∧
      ((tag.pair.1 == "r" || tag.pair.1 == "rc" || tag.pair.1 == "rd") &&
        decide (1000 < number tag.pair.2)) = false := by
  cases tag with
  | bytes hex => simp [Tag.Bounded, Tag.pair]
  | filler name length =>
    have bound := (number_le spelled (show 1000 < 2 ^ 64 - 1 by decide)).1
    have above : decide (1000 < number length) = false ↔ decimal length ≤ 1000 := by
      rw [decide_eq_false_iff_not, Nat.not_lt, bound]
    cases name <;>
    · simp [Tag.Bounded, Tag.pair, Filler.name]
      exact above.symm
  | time => simp [Tag.Bounded, Tag.pair]

theorem checkPattern_ok {values : Values} {key : String} :
    checkPattern values key = .ok () ↔ IsPattern (values.get key).toList := by
  unfold checkPattern
  cases read : cpsTags (values.get key).toList with
  | none =>
    constructor
    · rintro ⟨⟩
    · rintro ⟨tags, nonempty, same, each⟩
      rw [cpsTags_some.mpr ⟨tags, nonempty, fun tag listed => (each tag listed).1, same, rfl⟩] at read
      cases read
  | some pairs =>
    dsimp only
    constructor
    · intro ok
      obtain ⟨tags, nonempty, spelled, same, rfl⟩ := cpsTags_some.mp read
      refine ⟨tags, nonempty, same, fun tag listed => ⟨spelled tag listed, ?_⟩⟩
      have member := List.mem_map_of_mem (f := Tag.pair) listed
      split at ok
      · cases ok
      next even =>
        split at ok
        · cases ok
        next short =>
          rw [Bool.not_eq_true, List.any_eq_false] at even
          rw [List.find?_eq_none] at short
          exact (bounded_iff (spelled tag listed)).mpr
            ⟨Bool.eq_false_iff.mpr (even _ member), Bool.eq_false_iff.mpr (short _ member)⟩
    · rintro ⟨tags, nonempty, same, each⟩
      rw [cpsTags_some.mpr ⟨tags, nonempty, fun tag listed => (each tag listed).1, same, rfl⟩] at read
      cases read
      have bounded : ∀ tag ∈ tags, _ := fun tag listed => (bounded_iff (each tag listed).1).mp
        (each tag listed).2
      rw [if_neg]
      · rw [List.find?_eq_none.mpr]
        intro pair listed
        obtain ⟨tag, member, rfl⟩ := List.mem_map.mp listed
        exact Bool.eq_false_iff.mp (bounded tag member).2
      · rw [Bool.not_eq_true, List.any_eq_false]
        intro pair listed
        obtain ⟨tag, member, rfl⟩ := List.mem_map.mp listed
        exact Bool.eq_false_iff.mp (bounded tag member).1

/-! The key. -/

theorem alphabet_iff {c : Char} :
    (c.isAlphanum || c == '+' || c == '/') = true ↔ c ∈ Base64.alphabet := by
  have small : (c.isAlphanum || c == '+' || c == '/') = true → c.toNat < 123 := by
    intro letter
    change ((((decide ('A'.val ≤ c.val ∧ c.val ≤ 'Z'.val)) ||
      (decide ('a'.val ≤ c.val) && decide (c.val ≤ 'z'.val))) ||
      (decide ('0'.val ≤ c.val) && decide (c.val ≤ '9'.val))) || c == '+' || c == '/') = true at letter
    simp only [Bool.or_eq_true, beq_iff_eq, Bool.and_eq_true, decide_eq_true_eq,
      UInt32.le_iff_toNat_le] at letter
    change ((((65 ≤ c.toNat ∧ c.toNat ≤ 90) ∨ (97 ≤ c.toNat ∧ c.toNat ≤ 122)) ∨
      (48 ≤ c.toNat ∧ c.toNat ≤ 57)) ∨ c = '+') ∨ c = '/' at letter
    rcases letter with (((cap | low) | digit) | rfl) | rfl
    · omega
    · omega
    · omega
    · decide
    · decide
  constructor
  · intro letter
    have table : ((List.range 123).all fun n => let c := Char.ofNat n
        !(c.isAlphanum || c == '+' || c == '/') || Base64.alphabet.contains c) = true := by
      decide
    have here := List.all_eq_true.mp table c.toNat (List.mem_range.mpr (small letter))
    dsimp only at here
    rw [Char.ofNat_toNat, letter, Bool.not_true, Bool.false_or, List.contains_iff_mem] at here
    exact here
  · intro inside
    have each : Base64.alphabet.all (fun c => c.isAlphanum || c == '+' || c == '/') = true := by
      decide
    exact List.all_eq_true.mp each c inside

theorem strictBase64_whole {text : List Char} :
    (∃ bytes, strictBase64 text = some bytes ∧ bytes.length = 32) ↔ Base64.Whole text := by
  unfold strictBase64
  dsimp only
  constructor
  · rintro ⟨bytes, read, length⟩
    split at read
    next shape =>
      obtain ⟨groups, padding, letters⟩ := shape
      have known : ∀ c ∈ Base64.trimEnd (· == '=') text, c ∈ Base64.alphabet :=
        fun c inside => alphabet_iff.mp (List.all_eq_true.mp letters c inside)
      have count := (Base64.decodeFrom_length (by omega)).1 bytes read
      have parts := List.rdropWhile_append_rtakeWhile (p := (· == '=')) (l := text)
      have lengths := congrArg List.length parts
      rw [List.length_append] at lengths
      unfold Base64.trimEnd at *
      obtain ⟨sign, single⟩ : ∃ sign, text.rtakeWhile (· == '=') = [sign] :=
        List.length_eq_one_iff.mp (by omega)
      have padding : sign = '=' := by
        have inside : sign ∈ text.rtakeWhile (· == '=') := single ▸ List.mem_singleton.mpr rfl
        simpa using List.mem_rtakeWhile_imp inside
      subst padding
      refine ⟨text.rdropWhile (· == '='), ?_, by omega, known⟩
      rw [← single, parts]
    · cases read
  · rintro ⟨body, rfl, length, known⟩
    have trimmed : Base64.trimEnd (· == '=') (body ++ ['=']) = body := by
      unfold Base64.trimEnd
      rw [List.rdropWhile_concat_pos _ _ _ rfl, List.rdropWhile_eq_self_iff]
      intro some last
      have letter := known _ (List.getLast_mem some)
      rw [show body.getLast some = '=' by simpa using last] at letter
      exact Base64.padding_not_mem letter
    obtain ⟨bytes, read⟩ := Option.isSome_iff_exists.mp
      ((@Base64.decodeFrom_length 0 0 _ (by omega)).2 known)
    have count := (Base64.decodeFrom_length (by omega)).1 bytes read
    refine ⟨bytes, ?_, by omega⟩
    rw [trimmed, if_pos, Base64.decode, trimmed, read]
    refine ⟨?_, ?_, List.all_eq_true.mpr fun c inside => alphabet_iff.mpr (known c inside)⟩
    · rw [List.length_append, length]
      rfl
    · rw [List.length_append, length]
      decide

/-! The whole validation. -/

theorem forM_ok {α : Type} {f : α → Except String Unit} {items : List α} :
    items.forM f = .ok () ↔ ∀ a ∈ items, f a = .ok () := by
  induction items with
  | nil => exact ⟨fun _ => List.forall_mem_nil _, fun _ => rfl⟩
  | cons a rest ih =>
    show (f a >>= fun _ => rest.forM f) = .ok () ↔ _
    rw [bind_ok, List.forall_mem_cons, ← ih]
    constructor
    · rintro ⟨⟨⟩, here, rest⟩
      exact ⟨here, rest⟩
    · rintro ⟨here, rest⟩
      exact ⟨(), here, rest⟩

theorem unless_ok {α : Type} {c : Prop} [Decidable c] {err : String} {rest : Except String α} {a : α} :
    (if c then .error err else rest) = .ok a ↔ ¬ c ∧ rest = .ok a := by
  by_cases met : c
  · rw [if_pos met]
    exact ⟨nofun, fun both => absurd met both.1⟩
  · rw [if_neg met]
    exact ⟨fun ok => ⟨met, ok⟩, And.right⟩

/-- A check that is made only under a condition. -/
theorem optional_ok {α β : Type} {c : Prop} [Decidable c] {check : Except String β}
    {rest : Except String α} {a : α} :
    (if c then check >>= fun _ => rest else rest) = .ok a ↔ (c → ∃ b, check = .ok b) ∧ rest = .ok a := by
  by_cases met : c
  · rw [if_pos met, bind_ok]
    exact ⟨fun ⟨b, passed, ok⟩ => ⟨fun _ => ⟨b, passed⟩, ok⟩,
      fun ⟨passed, ok⟩ => (passed met).imp fun b passed => ⟨passed, ok⟩⟩
  · rw [if_neg met]
    exact ⟨fun ok => ⟨fun here => absurd here met, ok⟩, And.right⟩

theorem headersFrom_ok {values : Values} {keys : List String} {ranges : List (ℕ × ℕ)} :
    headersFrom values ranges keys = .ok () ↔ ∃ more,
      List.Forall₂ (fun key r => IsRange (values.get key).toList 0 4294967295 r) keys more ∧
        (∀ r ∈ ranges, ∀ s ∈ more, Apart r s) ∧ more.Pairwise Apart := by
  induction keys generalizing ranges with
  | nil =>
    constructor
    · intro _
      exact ⟨[], .nil, fun r _ => List.forall_mem_nil _, .nil⟩
    · intro _
      rfl
  | cons key rest ih =>
    rw [headersFrom, bind_ok]
    constructor
    · rintro ⟨⟨low, high⟩, read, ok⟩
      dsimp only at ok
      split at ok
      · cases ok
      next apart =>
        obtain ⟨more, each, beside, pairs⟩ := ih.mp ok
        refine ⟨(low, high) :: more, .cons ((range_ok (by decide)).mp read) each, ?_, ?_⟩
        · intro r listed
          refine List.forall_mem_cons.mpr ⟨?_, beside r (List.mem_append_left _ listed)⟩
          intro meets
          exact apart (List.any_eq_true.mpr ⟨r, listed, by simpa using meets⟩)
        · exact List.pairwise_cons.mpr
            ⟨beside _ (List.mem_append_right _ (List.mem_singleton.mpr rfl)), pairs⟩
    · rintro ⟨more, each, beside, pairs⟩
      cases each with
      | cons here each =>
        rename_i r more
        obtain ⟨first, later⟩ := List.pairwise_cons.mp pairs
        refine ⟨r, (range_ok (by decide)).mpr here, ?_⟩
        obtain ⟨low, high⟩ := r
        dsimp only
        rw [if_neg, ih]
        · refine ⟨more, each, ?_, later⟩
          intro s listed t member
          rcases List.mem_append.mp listed with listed | new
          · exact beside s listed t (List.mem_cons_of_mem _ member)
          · rw [List.mem_singleton.mp new]
            exact first t member
        · rw [Bool.not_eq_true, List.any_eq_false]
          intro s listed meets
          exact beside s listed _ List.mem_cons_self (by simpa using meets)

theorem protocolVersion_ok {values : Values} : protocolVersion values = .ok .threeOne ↔
    values.get "HeaderProtectionKey" ≠ "" ∧ switch values "RandomTrailers" = true ∧
      switch values "DisableCookies" = true := by
  unfold protocolVersion
  by_cases key : values.get "HeaderProtectionKey" = ""
  · rw [if_neg (by simpa using key)]
    split <;> simp [key]
  · rw [if_pos key]
    split
    next off =>
      simp only [Bool.or_eq_true, Bool.not_eq_true'] at off
      constructor
      · rintro ⟨⟩
      · rintro ⟨-, trailers, cookies⟩
        simp [trailers, cookies] at off
    next on =>
      simpa [key] using on

theorem checkProtected_ok {values : Values} : checkProtected values = .ok () ↔
    Base64.Whole (values.get "HeaderProtectionKey").toList ∧
    (values.get "ContentPaddingAddition" ≠ "" →
      ∃ r, IsRange (values.get "ContentPaddingAddition").toList 0 65535 r) ∧
    (∀ key ∈ timingFields, values.get key ≠ "" →
      ∃ r, IsRange (values.get key).toList 1 65535 r) ∧
    ∃ rekey reject, IsRange (orDefault values "RekeyAfterTime" "120").toList 1 65535 rekey ∧
      IsRange (orDefault values "RejectAfterTime" "180").toList 1 65535 reject ∧
      rekey.2 < reject.1 := by
  have timings : (timingFields.forM fun key =>
      if values.get key ≠ "" then range (values.get key) 65535 1 >>= fun _ => pure () else .ok ()) =
        .ok () ↔ ∀ key ∈ timingFields, values.get key ≠ "" →
          ∃ r, IsRange (values.get key).toList 1 65535 r := by
    rw [forM_ok]
    refine forall₂_congr fun key _ => optional_ok.trans ?_
    simp only [range_ok (show 65535 < 2 ^ 64 - 1 by decide)]
    exact and_iff_left rfl
  unfold checkProtected
  rw [← strictBase64_whole]
  constructor
  · intro ok
    split at ok
    · cases ok
    next key read =>
      obtain ⟨length, ok⟩ := unless_ok.mp ok
      obtain ⟨content, ok⟩ := optional_ok.mp ok
      obtain ⟨⟨⟩, timed, ok⟩ := bind_ok.mp ok
      obtain ⟨rekey, here, ok⟩ := bind_ok.mp ok
      obtain ⟨reject, there, ok⟩ := bind_ok.mp ok
      obtain ⟨early, -⟩ := unless_ok.mp ok
      refine ⟨⟨key, read, not_not.mp length⟩, ?_, timings.mp timed, rekey, reject,
        (range_ok (by decide)).mp here, (range_ok (by decide)).mp there, Nat.lt_of_not_le early⟩
      intro some
      obtain ⟨r, within⟩ := content some
      exact ⟨r, (range_ok (by decide)).mp within⟩
  · rintro ⟨⟨key, read, length⟩, content, timed, rekey, reject, here, there, early⟩
    rw [read]
    refine unless_ok.mpr ⟨not_not.mpr length, optional_ok.mpr ⟨?_, ?_⟩⟩
    · intro some
      obtain ⟨r, within⟩ := content some
      exact ⟨r, (range_ok (by decide)).mpr within⟩
    · refine bind_ok.mpr ⟨(), timings.mpr timed, bind_ok.mpr ⟨rekey, (range_ok (by decide)).mpr here,
        bind_ok.mpr ⟨reject, (range_ok (by decide)).mpr there, ?_⟩⟩⟩
      exact if_neg (Nat.not_le_of_lt early)

theorem switch_iff {values : Values} {key : String} :
    switch values key = true ↔ (values.get key).toLower = "on" ∨ (values.get key).toLower = "off" := by
  simp [switch]

theorem padding_ok {values : Values} : (paddingLimits.forM fun field => do
      let size ← single (values.get field.1) field.2
      if Version.threeOne = Version.threeOne ∧ size < 12 then
        .error ("Invalid " ++ field.1 ++ " for header protection")
      else .ok ()) = .ok () ↔
    ∀ field ∈ paddingLimits, IsNumber (values.get field.1).toList field.2 ∧
      12 ≤ decimal (values.get field.1).toList := by
  rw [forM_ok]
  refine forall₂_congr fun field listed => ?_
  have small : field.2 < 2 ^ 64 - 1 := by
    revert field
    decide
  rw [bind_ok]
  constructor
  · rintro ⟨size, read, ok⟩
    obtain ⟨number, rfl⟩ := (single_ok small).mp read
    obtain ⟨wide, -⟩ := unless_ok.mp ok
    exact ⟨number, by simpa using wide⟩
  · rintro ⟨number, wide⟩
    exact ⟨_, (single_ok small).mpr ⟨number, rfl⟩, if_neg (by simpa using wide)⟩

/-- The agent's validation decides validity. -/
theorem validate_ok {values : Values} : validate values true = .ok () ↔ Valid values.get := by
  have small : 65535 < 2 ^ 64 - 1 := by decide
  have present : (legacyFields.forM fun key => if values.get key = "" then
      .error ("Missing AWG field: " ++ key) else .ok ()) = (.ok () : Except String Unit) ↔
      ∀ key ∈ legacyFields, values.get key ≠ "" := by
    rw [forM_ok]
    exact forall₂_congr fun key _ => unless_ok.trans (and_iff_left rfl)
  unfold validate
  constructor
  · intro ok
    obtain ⟨version, versioned, ok⟩ := bind_ok.mp ok
    obtain ⟨required, ok⟩ := unless_ok.mp ok
    obtain rfl : version = .threeOne := by simpa using required
    obtain ⟨key, trailers, cookies⟩ := protocolVersion_ok.mp versioned
    obtain ⟨⟨⟩, fields, ok⟩ := bind_ok.mp ok
    obtain ⟨jmin, readMin, ok⟩ := bind_ok.mp ok
    obtain ⟨jmax, readMax, ok⟩ := bind_ok.mp ok
    obtain ⟨ordered, ok⟩ := unless_ok.mp ok
    obtain ⟨jc, readCount, ok⟩ := bind_ok.mp ok
    obtain ⟨⟨⟩, padded, ok⟩ := bind_ok.mp ok
    obtain ⟨sized, ok⟩ := unless_ok.mp ok
    obtain ⟨⟨⟩, headed, ok⟩ := bind_ok.mp ok
    obtain ⟨⟨⟩, patterned, ok⟩ := bind_ok.mp ok
    have checked := checkProtected_ok.mp ((if_pos rfl).symm.trans ok)
    clear ok
    obtain ⟨least, rfl⟩ := (single_ok small).mp readMin
    obtain ⟨most, rfl⟩ := (single_ok small).mp readMax
    obtain ⟨count, -⟩ := (single_ok small).mp readCount
    obtain ⟨ranges, each, -, apart⟩ := headersFrom_ok.mp headed
    have padding := padding_ok.mp padded
    have s1 := (padding ("S1", 1700 - 148) (by simp [paddingLimits])).1
    have s2 := (padding ("S2", 1700 - 92) (by simp [paddingLimits])).1
    rw [(number_le s1.1 (by decide)).2 ((number_le s1.1 (by decide)).1.mpr s1.2),
      (number_le s2.1 (by decide)).2 ((number_le s2.1 (by decide)).1.mpr s2.2)] at sized
    exact {
      protects := key
      trailers := switch_iff.mp trailers
      cookies := switch_iff.mp cookies
      present := present.mp fields
      jmin := least
      jmax := most
      jitter := Nat.le_of_not_lt ordered
      count := count
      padding := padding
      sizes := sized
      headers := ⟨ranges, each, apart⟩
      patterns := fun key listed => checkPattern_ok.mp (forM_ok.mp patterned key listed)
      key := checked.1
      content := checked.2.1
      timings := checked.2.2.1
      rekeys := checked.2.2.2 }
  · intro valid
    have s1 := (valid.padding ("S1", 1700 - 148) (by simp [paddingLimits])).1
    have s2 := (valid.padding ("S2", 1700 - 92) (by simp [paddingLimits])).1
    obtain ⟨ranges, each, apart⟩ := valid.headers
    refine bind_ok.mpr ⟨.threeOne, protocolVersion_ok.mpr ⟨valid.protects,
      switch_iff.mpr valid.trailers, switch_iff.mpr valid.cookies⟩, ?_⟩
    refine unless_ok.mpr ⟨by decide, bind_ok.mpr ⟨(), present.mpr valid.present, ?_⟩⟩
    refine bind_ok.mpr ⟨_, (single_ok small).mpr ⟨valid.jmin, rfl⟩, ?_⟩
    refine bind_ok.mpr ⟨_, (single_ok small).mpr ⟨valid.jmax, rfl⟩, ?_⟩
    refine unless_ok.mpr ⟨Nat.not_lt_of_le valid.jitter, ?_⟩
    refine bind_ok.mpr ⟨_, (single_ok small).mpr ⟨valid.count, rfl⟩, ?_⟩
    refine bind_ok.mpr ⟨(), padding_ok.mpr valid.padding, unless_ok.mpr ⟨?_, ?_⟩⟩
    · rw [(number_le s1.1 (by decide)).2 ((number_le s1.1 (by decide)).1.mpr s1.2),
        (number_le s2.1 (by decide)).2 ((number_le s2.1 (by decide)).1.mpr s2.2)]
      exact valid.sizes
    · refine bind_ok.mpr ⟨(), headersFrom_ok.mpr ⟨ranges, each, nofun, apart⟩, ?_⟩
      refine bind_ok.mpr ⟨(), forM_ok.mpr fun key listed =>
        checkPattern_ok.mpr (valid.patterns key listed), ?_⟩
      rw [if_pos rfl]
      exact checkProtected_ok.mpr ⟨valid.key, valid.content, valid.timings, valid.rekeys⟩

end Awg
end NodePlane
