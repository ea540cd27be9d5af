import NodePlane.Awg.ValidProfile
import NodePlane.Awg.Parameters

/-! The controller's validation and the agent's accept the same manual parameters. -/
namespace NodePlane
namespace Awg
namespace Parameters
open Library Library.Regex
open RegularExpression (char)

/-! The controller's reading of numbers and ranges. -/

theorem mem_digit {c : Char} : c ∈ digit ↔ c.isDigit = true := by
  constructor
  · intro listed
    have each : digit.all (fun c => c.isDigit) = true := by decide
    exact List.all_eq_true.mp each c listed
  · intro known
    have bounds : 48 ≤ c.toNat ∧ c.toNat ≤ 57 := by
      simpa [Char.isDigit, UInt32.le_iff_toNat_le] using known
    have table : ((List.range 58).all fun n => n < 48 || digit.contains (Char.ofNat n)) = true := by
      decide
    have here := List.all_eq_true.mp table c.toNat (List.mem_range.mpr (by omega))
    rw [Char.ofNat_toNat, Bool.or_eq_true, decide_eq_true_eq, List.contains_iff_mem] at here
    exact here.resolve_left (by omega)

theorem mem_hexadecimal {c : Char} : c ∈ hexadecimal ↔ hexDigit c = true := by
  constructor
  · intro listed
    have each : hexadecimal.all (fun c => hexDigit c) = true := by decide
    exact List.all_eq_true.mp each c listed
  · intro known
    have bounds : c.toNat < 103 := by
      simp only [hexDigit, Char.isDigit, Bool.or_eq_true, Bool.and_eq_true, decide_eq_true_eq,
        UInt32.le_iff_toNat_le, ge_iff_le, Char.le_def] at known
      change ((48 ≤ c.toNat ∧ c.toNat ≤ 57) ∨ (97 ≤ c.toNat ∧ c.toNat ≤ 102)) ∨
        (65 ≤ c.toNat ∧ c.toNat ≤ 70) at known
      omega
    have table : ((List.range 103).all fun n =>
        !hexDigit (Char.ofNat n) || hexadecimal.contains (Char.ofNat n)) = true := by decide
    have here := List.all_eq_true.mp table c.toNat (List.mem_range.mpr bounds)
    rw [Char.ofNat_toNat, known, Bool.not_true, Bool.false_or, List.contains_iff_mem] at here
    exact here

theorem run_digits {text : List Char} : text ∈ (plus (oneOf digit)).matches' ↔ digits text = true := by
  rw [mem_plus_oneOf, digits, Bool.and_eq_true, Bool.not_eq_true', List.isEmpty_eq_false_iff,
    List.all_eq_true]
  simp only [mem_digit]

theorem run_hex {text : List Char} :
    text ∈ (plus (oneOf hexadecimal)).matches' ↔ text ≠ [] ∧ text.all hexDigit = true := by
  rw [mem_plus_oneOf, List.all_eq_true]
  simp only [mem_hexadecimal]

theorem single_ok {value : String} {maximum n : ℕ} :
    single value maximum = .ok n ↔ IsNumber value.toList maximum ∧ n = decimal value.toList := by
  unfold single
  rw [unless_ok, Bool.or_eq_true, Bool.not_eq_true', not_or, Bool.not_eq_false, fullmatch_iff,
    run_digits, decide_eq_true_eq, Nat.not_lt, Except.ok.injEq, IsNumber]
  exact and_congr_right fun _ => eq_comm

theorem range_spelled {text : List Char} : fullmatch rangeExpression text = true ↔
    ∃ low high, digits low = true ∧ digits high = true ∧
      ((text = low ∧ high = low) ∨ text = low ++ '-' :: high) := by
  rw [fullmatch_iff, rangeExpression, RegularExpression.matches'_mul, Language.mem_mul]
  constructor
  · rintro ⟨low, known, rest, spelled, rfl⟩
    rw [RegularExpression.matches'_add, Language.mem_add] at spelled
    obtain none | two := spelled
    · cases (none : rest = [])
      exact ⟨low, low, run_digits.mp known, run_digits.mp known, .inl ⟨List.append_nil low, rfl⟩⟩
    · rw [RegularExpression.matches'_mul, Language.mem_mul] at two
      obtain ⟨dash, here, high, known', rfl⟩ := two
      cases (here : dash = ['-'])
      exact ⟨low, high, run_digits.mp known, run_digits.mp known', .inr rfl⟩
  · rintro ⟨low, high, known, known', ⟨rfl, rfl⟩ | rfl⟩
    · exact ⟨_, run_digits.mpr known, [], .inl rfl, List.append_nil _⟩
    · exact ⟨low, run_digits.mpr known, '-' :: high,
        .inr ⟨['-'], rfl, high, run_digits.mpr known', rfl⟩, rfl⟩

theorem range_ok {value : String} {maximum minimum : ℕ} {r : ℕ × ℕ} :
    range value maximum minimum = .ok r ↔ IsRange value.toList minimum maximum r := by
  have bounds : ∀ low high : ℕ, (if low < minimum ∨ low > high ∨ high > maximum then
      .error ("Out-of-range value: " ++ repr value)
        else .ok (low, high) : Except String (ℕ × ℕ)) = .ok r ↔
      r = (low, high) ∧ minimum ≤ r.1 ∧ r.1 ≤ r.2 ∧ r.2 ≤ maximum := by
    intro low high
    rw [unless_ok, Except.ok.injEq]
    constructor
    · rintro ⟨within, rfl⟩
      exact ⟨rfl, by omega, by omega, by omega⟩
    · rintro ⟨rfl, least, ordered, most⟩
      exact ⟨by dsimp only at *; omega, rfl⟩
  unfold range IsRange
  rw [unless_ok, Bool.not_eq_true', Bool.not_eq_false, range_spelled]
  constructor
  · rintro ⟨⟨low, high, known, known', spelled⟩, ok⟩
    refine ⟨low, high, known, known', spelled, ?_⟩
    rcases spelled with ⟨rfl, rfl⟩ | two
    · have one : splitOnce '-' value.toList = none := by
        rw [splitOnce_none]
        intro inside
        exact absurd (digits_ne known inside) (by decide)
      rw [one] at ok
      exact (bounds _ _).mp ok
    · have apart : '-' ∉ low := fun inside => absurd (digits_ne known inside) (by decide)
      rw [splitOnce_some.mpr ⟨two, apart⟩] at ok
      exact (bounds _ _).mp ok
  · rintro ⟨low, high, known, known', spelled, within⟩
    refine ⟨⟨low, high, known, known', spelled⟩, ?_⟩
    rcases spelled with ⟨rfl, rfl⟩ | two
    · have one : splitOnce '-' value.toList = none := by
        rw [splitOnce_none]
        intro inside
        exact absurd (digits_ne known inside) (by decide)
      rw [one]
      exact (bounds _ _).mpr within
    · have apart : '-' ∉ low := fun inside => absurd (digits_ne known inside) (by decide)
      rw [splitOnce_some.mpr ⟨two, apart⟩]
      exact (bounds _ _).mpr within

/-! Its reading of patterns. -/

theorem tag_spelled {text : List Char} :
    text ∈ (literal "b 0x".toList * plus (oneOf hexadecimal) + char 'r' * (char ' ' * plus (oneOf digit)) +
      char 'r' * oneOf ['c', 'd'] * char ' ' * plus (oneOf digit) + char 't').matches' ↔
    ∃ tag : Tag, tag.Spelled ∧ text = tag.inner := by
  simp only [RegularExpression.matches'_add, RegularExpression.matches'_mul, Language.mem_add,
    Language.mem_mul, mem_literal, run_hex, run_digits, mem_oneOf]
  constructor
  · rintro (((⟨_, rfl, hex, spelled, rfl⟩ | ⟨_, rfl, _, ⟨_, rfl, length, spelled, rfl⟩, rfl⟩) |
      ⟨_, ⟨_, ⟨_, rfl, _, ⟨c, listed, rfl⟩, rfl⟩, _, rfl, rfl⟩, length, spelled, rfl⟩) | rfl)
    · exact ⟨.bytes hex, spelled, rfl⟩
    · exact ⟨.filler .r length, spelled, rfl⟩
    · rcases List.mem_cons.mp listed with rfl | listed
      · exact ⟨.filler .rc length, spelled, rfl⟩
      · rw [List.mem_singleton.mp listed]
        exact ⟨.filler .rd length, spelled, rfl⟩
    · exact ⟨.time, trivial, rfl⟩
  · rintro ⟨tag, spelled, rfl⟩
    cases tag with
    | bytes hex => exact .inl (.inl (.inl ⟨_, rfl, hex, spelled, rfl⟩))
    | filler name length =>
      cases name with
      | r => exact .inl (.inl (.inr ⟨_, rfl, _, ⟨_, rfl, length, spelled, rfl⟩, rfl⟩))
      | rc =>
        exact .inl (.inr ⟨['r', 'c', ' '], ⟨['r', 'c'], ⟨_, rfl, _, ⟨'c', by simp, rfl⟩, rfl⟩, _, rfl,
          rfl⟩, length, spelled, rfl⟩)
      | rd =>
        exact .inl (.inr ⟨['r', 'd', ' '], ⟨['r', 'd'], ⟨_, rfl, _, ⟨'d', by simp, rfl⟩, rfl⟩, _, rfl,
          rfl⟩, length, spelled, rfl⟩)
    | time => exact .inr rfl

theorem pattern_spelled {text : List Char} : fullmatch patternExpression text = true ↔
    ∃ tags : List Tag, tags ≠ [] ∧ (∀ tag ∈ tags, tag.Spelled) ∧ text = tags.flatMap Tag.text := by
  have one {part : List Char} : part ∈ (char '<' * (literal "b 0x".toList * plus (oneOf hexadecimal) +
      char 'r' * (char ' ' * plus (oneOf digit)) +
      char 'r' * oneOf ['c', 'd'] * char ' ' * plus (oneOf digit) + char 't') * char '>').matches' ↔
      ∃ tag : Tag, tag.Spelled ∧ part = tag.text := by
    rw [RegularExpression.matches'_mul, RegularExpression.matches'_mul, Language.mem_mul]
    constructor
    · rintro ⟨opened, inside, closing, there, rfl⟩
      obtain ⟨opening, here, inner, listed, rfl⟩ := Language.mem_mul.mp inside
      obtain ⟨tag, spelled, rfl⟩ := tag_spelled.mp listed
      cases (here : opening = ['<'])
      cases (there : closing = ['>'])
      exact ⟨tag, spelled, rfl⟩
    · rintro ⟨tag, spelled, rfl⟩
      exact ⟨'<' :: tag.inner, Language.mem_mul.mpr
        ⟨['<'], rfl, tag.inner, tag_spelled.mpr ⟨tag, spelled, rfl⟩, rfl⟩, ['>'], rfl, rfl⟩
  rw [fullmatch_iff, patternExpression, mem_plus]
  constructor
  · rintro ⟨parts, nonempty, rfl, each⟩
    have tags : ∃ tags : List Tag, (∀ tag ∈ tags, tag.Spelled) ∧ parts = tags.map Tag.text := by
      clear nonempty
      induction parts with
      | nil => exact ⟨[], List.forall_mem_nil _, rfl⟩
      | cons part rest ih =>
        obtain ⟨here, later⟩ := List.forall_mem_cons.mp each
        obtain ⟨tag, spelled, rfl⟩ := one.mp here
        obtain ⟨tags, known, rfl⟩ := ih later
        exact ⟨tag :: tags, List.forall_mem_cons.mpr ⟨spelled, known⟩, rfl⟩
    obtain ⟨tags, known, rfl⟩ := tags
    exact ⟨tags, by simpa using nonempty, known, rfl⟩
  · rintro ⟨tags, nonempty, known, rfl⟩
    refine ⟨tags.map Tag.text, by simpa using nonempty, rfl, ?_⟩
    intro part listed
    obtain ⟨tag, member, rfl⟩ := List.mem_map.mp listed
    exact one.mpr ⟨tag, known tag member, rfl⟩

/-- A tag is matched with its argument. -/
theorem tagMatch_some {opening letters run rest : List Char} (nonempty : run ≠ [])
    (known : ∀ c ∈ run, c ∈ letters) (closing : '>' ∉ letters) :
    tagMatch opening letters (opening ++ run ++ '>' :: rest) =
      some (run, opening.length + run.length + 1) := by
  have taken : (run ++ '>' :: rest).takeWhile (· ∈ letters) = run := by
    rw [List.takeWhile_append_of_pos fun c inside => decide_eq_true (known c inside),
      List.takeWhile_cons_of_neg (by simpa using closing), List.append_nil]
  have starts : opening.isPrefixOf (opening ++ (run ++ '>' :: rest)) = true :=
    List.isPrefixOf_iff_prefix.mpr (List.prefix_append _ _)
  rw [List.append_assoc]
  unfold tagMatch
  rw [if_pos starts]
  dsimp only
  rw [List.drop_left, taken, if_pos]
  refine ⟨nonempty, ?_⟩
  rw [← List.append_assoc, ← List.length_append, List.drop_left]
  rfl

theorem tagMatch_none {opening letters text : List Char} (other : opening.isPrefixOf text = false) :
    tagMatch opening letters text = none := by
  unfold tagMatch
  rw [other]
  rfl

theorem tagMatch_other {name letters text : List Char} {c : Char} (other : c ≠ '<') :
    tagMatch ('<' :: name) letters (c :: text) = none := by
  apply tagMatch_none
  rw [List.isPrefixOf_cons_cons, beq_eq_false_iff_ne.mpr (Ne.symm other), Bool.false_and]

theorem spelled_opening {tag : Tag} (spelled : tag.Spelled) : '<' ∉ tag.inner := by
  cases tag with
  | bytes hex =>
    intro inside
    simp only [Tag.inner, List.mem_cons] at inside
    rcases inside with same | same | same | same | inside
    iterate 4 cases same
    exact absurd (List.all_eq_true.mp spelled.2 '<' inside) (by decide)
  | filler name length =>
    intro inside
    rw [Tag.inner, List.mem_append, List.mem_cons] at inside
    rcases inside with inside | same | inside
    · revert inside
      cases name <;> decide
    · cases same
    · exact absurd (digits_ne spelled inside) (by decide)
  | time => decide

/-- A tag in which nothing is matched from its bracket on has no match at all. -/
theorem nowhere {tag : Tag} (spelled : tag.Spelled) {β : Type}
    {pattern : List Char → Option (β × ℕ)} (first : ∀ rest, pattern (tag.text ++ rest) = none)
    (others : ∀ c text, c ≠ '<' → pattern (c :: text) = none) {before after : List Char} {c : Char}
    (same : tag.text = before ++ c :: after) (rest : List Char) : pattern (c :: after ++ rest) = none := by
  cases before with
  | nil =>
    rw [List.nil_append] at same
    rw [← same]
    exact first rest
  | cons opening more =>
    apply others
    rintro rfl
    have inside : '<' ∈ tag.inner ++ ['>'] := by
      rw [Tag.text, List.cons_append, List.cons_append, List.cons.injEq] at same
      rw [same.2]
      exact List.mem_append_right _ List.mem_cons_self
    rcases List.mem_append.mp inside with inside | closing
    · exact spelled_opening spelled inside
    · cases List.mem_singleton.mp closing

/-- The argument of a tag of bytes. -/
def hexOf : Tag → Option (List Char)
  | .bytes hex => some hex
  | _ => none

/-- The name and the length of a filler. -/
def lengthOf : Tag → Option (String × List Char)
  | .filler name length => some (name.name, length)
  | _ => none

theorem findall_hex {tags : List Tag} (spelled : ∀ tag ∈ tags, tag.Spelled) :
    findall hexMatch (tags.flatMap Tag.text) = tags.filterMap hexOf := by
  apply findall_flatMap
  · intro tag listed captured found
    cases tag with
    | bytes hex =>
      obtain rfl : hex = captured := Option.some.inj found
      obtain ⟨nonempty, known⟩ := spelled _ listed
      refine ⟨List.cons_ne_nil _ _, fun rest => ?_⟩
      have each : ∀ c ∈ hex, c ∈ hexadecimal :=
        fun c inside => mem_hexadecimal.mpr (List.all_eq_true.mp known c inside)
      have matched : tagMatch "<b 0x".toList hexadecimal ("<b 0x".toList ++ hex ++ '>' :: rest) = _ :=
        tagMatch_some nonempty each (by decide)
      have same : (Tag.bytes hex).text ++ rest = "<b 0x".toList ++ hex ++ '>' :: rest := by
        show '<' :: 'b' :: ' ' :: '0' :: 'x' :: (hex ++ ['>'] ++ rest) = _
        rw [List.append_assoc]
        rfl
      have length : (Tag.bytes hex).text.length = "<b 0x".toList.length + hex.length + 1 := by
        show (hex ++ ['>']).length + 5 = 5 + hex.length + 1
        rw [List.length_append, List.length_singleton]
        omega
      rw [same, length]
      exact matched
    | filler name length => cases found
    | time => cases found
  · intro tag listed found before c after same rest
    refine nowhere (spelled tag listed) ?_ ?_ same rest
    · intro rest
      apply tagMatch_none
      cases tag with
      | bytes hex => cases found
      | filler name length => cases name <;> rfl
      | time => rfl
    · intro c text other
      exact tagMatch_other other

theorem findall_length {tags : List Tag} (spelled : ∀ tag ∈ tags, tag.Spelled) :
    findall lengthMatch (tags.flatMap Tag.text) = tags.filterMap lengthOf := by
  apply findall_flatMap
  · intro tag listed captured found
    cases tag with
    | bytes hex => cases found
    | filler name length =>
      cases found
      have known : length ≠ [] ∧ ∀ c ∈ length, c ∈ digit := by
        have run := run_digits.mpr (spelled _ listed)
        exact mem_plus_oneOf.mp run
      refine ⟨List.cons_ne_nil _ _, fun rest => ?_⟩
      have matched : tagMatch ('<' :: name.name.toList ++ [' ']) digit
          ('<' :: name.name.toList ++ [' '] ++ length ++ '>' :: rest) = _ :=
        tagMatch_some known.1 known.2 (by decide)
      have same : (Tag.filler name length).text ++ rest =
          '<' :: name.name.toList ++ [' '] ++ length ++ '>' :: rest := by
        simp [Tag.text, Tag.inner]
      have size : (Tag.filler name length).text.length =
          ('<' :: name.name.toList ++ [' ']).length + length.length + 1 := by
        simp [Tag.text, Tag.inner]
        omega
      unfold lengthMatch
      rw [same, size]
      dsimp only
      cases name with
      | r =>
        rw [show ('<' :: "r".toList ++ [' ']) = '<' :: Filler.r.name.toList ++ [' '] from rfl, matched]
        rfl
      | rc =>
        rw [tagMatch_none rfl,
          show ('<' :: "rc".toList ++ [' ']) = '<' :: Filler.rc.name.toList ++ [' '] from rfl, matched]
        rfl
      | rd =>
        rw [tagMatch_none rfl, tagMatch_none rfl,
          show ('<' :: "rd".toList ++ [' ']) = '<' :: Filler.rd.name.toList ++ [' '] from rfl, matched]
        rfl
    | time => cases found
  · intro tag listed found before c after same rest
    refine nowhere (spelled tag listed) ?_ ?_ same rest
    · intro rest
      unfold lengthMatch
      dsimp only
      cases tag with
      | bytes hex =>
        iterate 3 rw [tagMatch_none rfl]
        rfl
      | filler name length => cases found
      | time =>
        iterate 3 rw [tagMatch_none rfl]
        rfl
    · intro c text other
      unfold lengthMatch
      dsimp only
      iterate 3 rw [List.cons_append, tagMatch_other other]
      rfl

theorem bounded_iff {tags : List Tag} :
    ((∀ hex ∈ tags.filterMap hexOf, hex.length % 2 = 0) ∧
      ∀ pair ∈ tags.filterMap lengthOf, int pair.2 ≤ 1000) ↔ ∀ tag ∈ tags, tag.Bounded := by
  constructor
  · rintro ⟨even, short⟩ tag listed
    cases tag with
    | bytes hex => exact even hex (List.mem_filterMap.mpr ⟨_, listed, rfl⟩)
    | filler name length => exact short (name.name, length) (List.mem_filterMap.mpr ⟨_, listed, rfl⟩)
    | time => trivial
  · intro bounded
    constructor
    · intro hex listed
      obtain ⟨tag, member, found⟩ := List.mem_filterMap.mp listed
      cases tag with
      | bytes hex =>
        cases found
        exact bounded _ member
      | filler name length => cases found
      | time => cases found
    · intro pair listed
      obtain ⟨tag, member, found⟩ := List.mem_filterMap.mp listed
      cases tag with
      | bytes hex => cases found
      | filler name length =>
        cases found
        exact bounded _ member
      | time => cases found

theorem checkPattern_ok {values : Dict} {key : String} :
    checkPattern values key = .ok () ↔ IsPattern (values.get key).toList := by
  unfold checkPattern
  dsimp only
  rw [unless_ok, unless_ok, Bool.not_eq_true', Bool.not_eq_false, pattern_spelled]
  constructor
  · rintro ⟨⟨tags, nonempty, spelled, same⟩, even, ok⟩
    rw [same, findall_hex spelled] at even
    rw [same, findall_length spelled] at ok
    split at ok
    · cases ok
    next short =>
      rw [Bool.not_eq_true, List.any_eq_false] at even
      rw [List.find?_eq_none] at short
      have bounded := bounded_iff.mp ⟨fun hex listed => by simpa using even hex listed,
        fun pair listed => Nat.le_of_not_lt fun above => short pair listed (decide_eq_true above)⟩
      exact ⟨tags, nonempty, same, fun tag listed => ⟨spelled tag listed, bounded tag listed⟩⟩
  · rintro ⟨tags, nonempty, same, each⟩
    have spelled : ∀ tag ∈ tags, tag.Spelled := fun tag listed => (each tag listed).1
    obtain ⟨even, short⟩ := bounded_iff.mpr fun tag listed => (each tag listed).2
    refine ⟨⟨tags, nonempty, spelled, same⟩, ?_, ?_⟩
    · rw [same, findall_hex spelled, Bool.not_eq_true, List.any_eq_false]
      intro hex listed
      simpa using even hex listed
    · rw [same, findall_length spelled, List.find?_eq_none.mpr]
      intro pair listed above
      exact Nat.not_lt_of_le (short pair listed) (of_decide_eq_true above)

/-! Its validation of a profile. -/

theorem overlapping_iff {before ranges : List (ℕ × ℕ)} : overlapping before ranges = false ↔
    (∀ r ∈ before, ∀ s ∈ ranges, Apart r s) ∧ ranges.Pairwise Apart := by
  induction ranges generalizing before with
  | nil => simp [overlapping]
  | cons range rest ih =>
    obtain ⟨low, high⟩ := range
    have meets : (before.any fun other => decide (low ≤ other.2) && decide (other.1 ≤ high)) = false ↔
        ∀ r ∈ before, Apart r (low, high) := by
      simp [Apart]
    change ((before.any fun other => decide (low ≤ other.2) && decide (other.1 ≤ high)) ||
      overlapping (before ++ [(low, high)]) rest) = false ↔ _
    rw [Bool.or_eq_false_iff, meets, ih, List.pairwise_cons]
    constructor
    · rintro ⟨here, beside, pairs⟩
      refine ⟨fun r listed => List.forall_mem_cons.mpr ⟨here r listed, ?_⟩, ?_, pairs⟩
      · exact beside r (List.mem_append_left _ listed)
      · exact beside _ (List.mem_append_right _ (List.mem_singleton.mpr rfl))
    · rintro ⟨beside, first, pairs⟩
      refine ⟨fun r listed => beside r listed _ List.mem_cons_self, ?_, pairs⟩
      intro r listed s member
      rcases List.mem_append.mp listed with listed | new
      · exact beside r listed s (List.mem_cons_of_mem _ member)
      · rw [List.mem_singleton.mp new]
        exact first s member

theorem mapM_ok {α β : Type} {f : α → Except String β} {items : List α} {results : List β} :
    items.mapM f = .ok results ↔ List.Forall₂ (fun a b => f a = .ok b) items results := by
  induction items generalizing results with
  | nil =>
    rw [List.mapM_nil, List.forall₂_nil_left_iff]
    constructor
    · rintro ⟨⟩
      rfl
    · rintro rfl
      rfl
  | cons a rest ih =>
    rw [List.mapM_cons, bind_ok, List.forall₂_cons_left_iff]
    constructor
    · rintro ⟨b, here, ok⟩
      obtain ⟨more, there, same⟩ := bind_ok.mp ok
      cases same
      exact ⟨b, more, here, ih.mp there, rfl⟩
    · rintro ⟨b, more, here, there, rfl⟩
      exact ⟨b, here, bind_ok.mpr ⟨more, ih.mpr there, rfl⟩⟩

theorem protocolVersion_ok {values : Dict} : protocolVersion values = .ok .threeOne ↔
    values.get "HeaderProtectionKey" ≠ "" ∧
      ((values.get "RandomTrailers").toLower = "on" ∨ (values.get "RandomTrailers").toLower = "off") ∧
      ((values.get "DisableCookies").toLower = "on" ∨ (values.get "DisableCookies").toLower = "off") := by
  unfold protocolVersion
  dsimp only
  by_cases key : values.get "HeaderProtectionKey" = ""
  · rw [if_neg (by simpa using key)]
    split <;> simp [key]
  · rw [if_pos key, unless_ok, ← not_or, ← not_or, ← not_and_or, not_not]
    simp [key]

theorem checkProtected_ok {values : Dict} : checkProtected values = .ok () ↔
    Base64.Whole (values.get "HeaderProtectionKey").toList ∧
    (values.get "ContentPaddingAddition" ≠ "" →
      ∃ r, IsRange (values.get "ContentPaddingAddition").toList 0 65535 r) ∧
    (∀ key ∈ timingFields, values.get key ≠ "" →
      ∃ r, IsRange (values.get key).toList 1 65535 r) ∧
    ∃ rekey reject,
      IsRange (if values.get "RekeyAfterTime" = "" then "120"
        else values.get "RekeyAfterTime").toList 1 65535 rekey ∧
      IsRange (if values.get "RejectAfterTime" = "" then "180"
        else values.get "RejectAfterTime").toList 1 65535 reject ∧
      rekey.2 < reject.1 := by
  have timings : (timingFields.forM fun key =>
      if values.get key ≠ "" then range (values.get key) 65535 1 >>= fun _ => pure () else .ok ()) =
        .ok () ↔ ∀ key ∈ timingFields, values.get key ≠ "" →
          ∃ r, IsRange (values.get key).toList 1 65535 r := by
    rw [forM_ok]
    refine forall₂_congr fun key _ => optional_ok.trans ?_
    simp only [range_ok]
    exact and_iff_left rfl
  unfold checkProtected
  rw [← Base64.strict_whole]
  constructor
  · intro ok
    split at ok
    · cases ok
    next key read =>
      obtain ⟨length, ok⟩ := unless_ok.mp ok
      obtain ⟨content, ok⟩ := optional_ok.mp ok
      obtain ⟨⟨⟩, timed, ok⟩ := bind_ok.mp ok
      obtain ⟨rekey, here, ok⟩ := bind_ok.mp ok
      obtain ⟨reject, there, ok⟩ := bind_ok.mp ok
      obtain ⟨early, -⟩ := unless_ok.mp ok
      refine ⟨⟨key, read, not_not.mp length⟩, ?_, timings.mp timed, rekey, reject,
        range_ok.mp here, range_ok.mp there, Nat.lt_of_not_le early⟩
      intro some
      obtain ⟨r, within⟩ := content some
      exact ⟨r, range_ok.mp within⟩
  · rintro ⟨⟨key, read, length⟩, content, timed, rekey, reject, here, there, early⟩
    rw [read]
    refine unless_ok.mpr ⟨not_not.mpr length, optional_ok.mpr ⟨?_, ?_⟩⟩
    · intro some
      obtain ⟨r, within⟩ := content some
      exact ⟨r, range_ok.mpr within⟩
    · refine bind_ok.mpr ⟨(), timings.mpr timed, bind_ok.mpr ⟨rekey, range_ok.mpr here,
        bind_ok.mpr ⟨reject, range_ok.mpr there, ?_⟩⟩⟩
      exact if_neg (Nat.not_le_of_lt early)

theorem padding_ok {values : Dict} : (paddingLimits.forM fun field => do
      let size ← single (values.get field.1) field.2
      if Version.threeOne = Version.threeOne ∧ size < 12 then
        .error ("Invalid " ++ field.1 ++ " for header protection")
      else .ok ()) = .ok () ↔
    ∀ field ∈ paddingLimits, IsNumber (values.get field.1).toList field.2 ∧
      12 ≤ decimal (values.get field.1).toList := by
  rw [forM_ok]
  refine forall₂_congr fun field listed => ?_
  rw [bind_ok]
  constructor
  · rintro ⟨size, read, ok⟩
    obtain ⟨number, rfl⟩ := single_ok.mp read
    obtain ⟨wide, -⟩ := unless_ok.mp ok
    exact ⟨number, by simpa using wide⟩
  · rintro ⟨number, wide⟩
    exact ⟨_, single_ok.mpr ⟨number, rfl⟩, if_neg (by simpa using wide)⟩

/-- The controller's validation decides validity too. -/
theorem validate_ok {values : Dict} : validate values = .ok () ↔ Valid values.get := by
  have present : (legacyFields.forM fun key => if values.get key = "" then
      .error ("Missing AWG field: " ++ key) else .ok ()) = (.ok () : Except String Unit) ↔
      ∀ key ∈ legacyFields, values.get key ≠ "" := by
    rw [forM_ok]
    exact forall₂_congr fun key _ => unless_ok.trans (and_iff_left rfl)
  unfold validate
  constructor
  · intro ok
    obtain ⟨version, versioned, ok⟩ := bind_ok.mp ok
    obtain ⟨required, ok⟩ := unless_ok.mp ok
    obtain rfl : version = .threeOne := not_not.mp required
    obtain ⟨key, trailers, cookies⟩ := protocolVersion_ok.mp versioned
    obtain ⟨⟨⟩, fields, ok⟩ := bind_ok.mp ok
    obtain ⟨jmin, readMin, ok⟩ := bind_ok.mp ok
    obtain ⟨jmax, readMax, ok⟩ := bind_ok.mp ok
    obtain ⟨ordered, ok⟩ := unless_ok.mp ok
    obtain ⟨jc, readCount, ok⟩ := bind_ok.mp ok
    obtain ⟨⟨⟩, padded, ok⟩ := bind_ok.mp ok
    obtain ⟨sized, ok⟩ := unless_ok.mp ok
    obtain ⟨ranges, headed, ok⟩ := bind_ok.mp ok
    obtain ⟨apart, ok⟩ := unless_ok.mp ok
    obtain ⟨⟨⟩, patterned, ok⟩ := bind_ok.mp ok
    have checked := checkProtected_ok.mp ((if_pos rfl).symm.trans ok)
    clear ok
    obtain ⟨least, rfl⟩ := single_ok.mp readMin
    obtain ⟨most, rfl⟩ := single_ok.mp readMax
    obtain ⟨count, -⟩ := single_ok.mp readCount
    exact {
      protects := key
      trailers := trailers
      cookies := cookies
      present := present.mp fields
      jmin := least
      jmax := most
      jitter := Nat.le_of_not_lt ordered
      count := count
      padding := padding_ok.mp padded
      sizes := sized
      headers := ⟨ranges, (mapM_ok.mp headed).imp fun _ _ read => range_ok.mp read,
        (overlapping_iff.mp (Bool.eq_false_iff.mpr apart)).2⟩
      patterns := fun key listed => checkPattern_ok.mp (forM_ok.mp patterned key listed)
      key := checked.1
      content := checked.2.1
      timings := checked.2.2.1
      rekeys := checked.2.2.2 }
  · intro valid
    obtain ⟨ranges, each, apart⟩ := valid.headers
    refine bind_ok.mpr ⟨.threeOne, protocolVersion_ok.mpr ⟨valid.protects, valid.trailers,
      valid.cookies⟩, ?_⟩
    refine unless_ok.mpr ⟨by decide, bind_ok.mpr ⟨(), present.mpr valid.present, ?_⟩⟩
    refine bind_ok.mpr ⟨_, single_ok.mpr ⟨valid.jmin, rfl⟩, ?_⟩
    refine bind_ok.mpr ⟨_, single_ok.mpr ⟨valid.jmax, rfl⟩, ?_⟩
    refine unless_ok.mpr ⟨Nat.not_lt_of_le valid.jitter, ?_⟩
    refine bind_ok.mpr ⟨_, single_ok.mpr ⟨valid.count, rfl⟩, ?_⟩
    refine bind_ok.mpr ⟨(), padding_ok.mpr valid.padding, unless_ok.mpr ⟨valid.sizes, ?_⟩⟩
    refine bind_ok.mpr ⟨ranges, mapM_ok.mpr (each.imp fun _ _ within => range_ok.mpr within), ?_⟩
    refine unless_ok.mpr ⟨Bool.eq_false_iff.mp (overlapping_iff.mpr ⟨nofun, apart⟩), ?_⟩
    refine bind_ok.mpr ⟨(), forM_ok.mpr fun key listed =>
      checkPattern_ok.mpr (valid.patterns key listed), ?_⟩
    rw [if_pos rfl]
    exact checkProtected_ok.mpr ⟨valid.key, valid.content, valid.timings, valid.rekeys⟩

/-! The map as a whole: what the agent takes into its values. -/

/-- A known field with an acceptable value. -/
def Known (member : String × Json) : Prop :=
  allFields.contains member.1 = true ∧ acceptable member.2 = true

theorem utf8ByteSize_ascii {text : String} (plain : ∀ c ∈ text.toList, c.toNat ≤ 126) :
    text.utf8ByteSize = text.length := by
  have chars : ∀ l : List Char, (∀ c ∈ l, c.toNat ≤ 126) →
      (String.ofList l).utf8ByteSize = l.length := by
    intro l
    induction l with
    | nil => intro _; rfl
    | cons c rest ih =>
      intro plain
      obtain ⟨here, later⟩ := List.forall_mem_cons.mp plain
      have one : c.utf8Size = 1 := by
        rw [Char.utf8Size, if_pos]
        show c.val ≤ 127
        rw [UInt32.le_iff_toNat_le]
        exact here.trans (by decide)
      rw [← List.singleton_append, String.ofList_append, String.utf8ByteSize_append, ih later,
        List.length_append]
      show (String.singleton c).utf8ByteSize + _ = _
      rw [String.utf8ByteSize_singleton, one]
      rfl
  have := chars text.toList plain
  rwa [String.ofList_toList, String.length_toList] at this

/-- One member of the object. -/
theorem manualFrom_cons {values : Values} {key : String} {value : Json}
    {rest : List (String × Json)} :
    (Known (key, value) → manualFrom values ((key, value) :: rest) =
      manualFrom (values.set key (value.asStr.getD "")) rest) ∧
    (¬ Known (key, value) → manualFrom values ((key, value) :: rest) =
      .error "invalid manual AWG parameters") := by
  have field : allFields.contains key = (legacyFields.contains key || awg3Fields.contains key) := by
    rw [allFields, List.contains_append]
  rw [manualFrom, Known, field]
  cases text : value.asStr with
  | none =>
    refine ⟨?_, fun _ => rfl⟩
    rintro ⟨-, taken⟩
    rw [acceptable, text] at taken
    cases taken
  | some text' =>
    dsimp only [Option.getD_some]
    rw [acceptable, text]
    constructor
    · rintro ⟨listed, taken⟩
      simp only [Option.any_some, Bool.and_eq_true, decide_eq_true_eq, List.all_eq_true] at taken
      obtain ⟨⟨some, short⟩, plain⟩ := taken
      rw [if_neg]
      simp only [listed, Bool.not_true, Bool.false_or, Bool.or_eq_true, decide_eq_true_eq, not_or,
        Nat.not_lt, List.any_eq_true, not_exists, not_and]
      refine ⟨⟨some, ?_⟩, plain⟩
      rw [utf8ByteSize_ascii fun c inside => (plain c inside).2]
      exact short
    · intro refused
      rw [if_pos]
      by_contra taken
      apply refused
      simp only [Bool.not_eq_true, Bool.not_eq_false', Nat.not_lt, List.any_eq_false, Bool.or_eq_true,
        decide_eq_true_eq, not_or] at taken
      obtain ⟨⟨⟨listed, some⟩, short⟩, bounds⟩ := taken
      rw [utf8ByteSize_ascii fun c inside => (bounds c inside).2] at short
      refine ⟨Bool.or_eq_true_iff.mpr listed, ?_⟩
      simpa [some, short] using bounds

/-- The values read, by field. -/
theorem manualFrom_get {members : List (String × Json)} (apart : (members.map Prod.fst).Nodup)
    {values result : Values} (ok : manualFrom values members = .ok result) :
    (∀ member ∈ members, Known member) ∧
    (∀ member ∈ members, result.get member.1 = member.2.asStr.getD "") ∧
    ∀ key, key ∉ members.map Prod.fst → result.get key = values.get key := by
  induction members generalizing values with
  | nil =>
    cases ok
    exact ⟨List.forall_mem_nil _, List.forall_mem_nil _, fun _ _ => rfl⟩
  | cons member rest ih =>
    obtain ⟨key, value⟩ := member
    obtain ⟨fresh, apart⟩ := List.nodup_cons.mp apart
    by_cases known : Known (key, value)
    · rw [manualFrom_cons.1 known] at ok
      obtain ⟨each, read, others⟩ := ih apart ok
      refine ⟨List.forall_mem_cons.mpr ⟨known, each⟩, List.forall_mem_cons.mpr ⟨?_, read⟩, ?_⟩
      · rw [others key fresh, Values.get_set, if_pos rfl]
      · intro other missing
        obtain ⟨differs, missing⟩ := not_or.mp fun inside => missing (List.mem_cons.mpr inside)
        rw [others other missing, Values.get_set, if_neg differs]
    · rw [manualFrom_cons.2 known] at ok
      cases ok

theorem manualFrom_known {members : List (String × Json)} (known : ∀ member ∈ members, Known member)
    (values : Values) : ∃ result, manualFrom values members = .ok result := by
  induction members generalizing values with
  | nil => exact ⟨values, rfl⟩
  | cons member rest ih =>
    obtain ⟨here, later⟩ := List.forall_mem_cons.mp known
    rw [manualFrom_cons.1 here]
    exact ih later _

/-- The controller checks the members of a map of parameters, then the profile. -/
theorem validateParameters_ok {values : Table String Json} (nonempty : values.rows ≠ []) :
    validateParameters values = .ok () ↔ (∀ row ∈ values.rows, Known row) ∧
      validate (fun key => (values.lookup key).bind Json.asStr) = .ok () := by
  unfold validateParameters
  rw [unless_ok, if_neg (by simpa using nonempty), unless_ok, Bool.not_eq_true, Bool.not_eq_true,
    Table.has_false_iff, Table.has_false_iff]
  constructor
  · rintro ⟨fields, each, ok⟩
    refine ⟨fun row listed => ?_, ok⟩
    have found := Table.mem_rows_iff.mp listed
    exact ⟨by simpa using fields row.1 row.2 found, by simpa using each row.1 row.2 found⟩
  · rintro ⟨known, ok⟩
    refine ⟨fun key value found => ?_, fun key value found => ?_, ok⟩
    · simpa using (known (key, value) (Table.mem_rows_iff.mpr found)).1
    · simpa using (known (key, value) (Table.mem_rows_iff.mpr found)).2

/-- The agent takes what the controller takes, in whatever order the object lists the members. -/
theorem validated_alike {values : Table String Json} (nonempty : values.rows ≠ [])
    {members : List (String × Json)} (same : members.Perm values.rows) :
    validateParameters values = .ok () ↔ ∃ profile, manual (.obj members) = .ok profile := by
  have apart : (members.map Prod.fst).Nodup := (same.map Prod.fst).nodup_iff.mpr values.rows_keys_nodup
  have values_get : ∀ profile, manualFrom ⟨[]⟩ members = .ok profile →
      profile.get = Dict.get fun key => (values.lookup key).bind Json.asStr := by
    intro profile read
    obtain ⟨-, here, others⟩ := manualFrom_get apart read
    funext key
    cases found : values.lookup key with
    | none =>
      have missing : key ∉ members.map Prod.fst := by
        intro listed
        obtain ⟨row, member, rfl⟩ := List.mem_map.mp listed
        have stored := Table.mem_rows_iff.mp (same.mem_iff.mp member)
        rw [found] at stored
        cases stored
      rw [others key missing, Dict.get, found]
      rfl
    | some value =>
      have listed := same.mem_iff.mpr (Table.mem_rows_iff.mpr found)
      rw [here (key, value) listed, Dict.get, found]
      rfl
  rw [validateParameters_ok nonempty]
  constructor
  · rintro ⟨known, ok⟩
    obtain ⟨profile, read⟩ := manualFrom_known (fun row listed => known row (same.mem_iff.mp listed)) ⟨[]⟩
    refine ⟨profile, bind_ok.mpr ⟨profile, read, bind_ok.mpr ⟨(), ?_, rfl⟩⟩⟩
    rw [Awg.validate_ok, values_get profile read]
    exact validate_ok.mp ok
  · rintro ⟨profile, ok⟩
    obtain ⟨profile', read, ok⟩ := bind_ok.mp ok
    obtain ⟨⟨⟩, valid, -⟩ := bind_ok.mp ok
    rw [Awg.validate_ok, values_get profile' read] at valid
    refine ⟨?_, validate_ok.mpr valid⟩
    intro row listed
    exact (manualFrom_get apart read).1 row (same.mem_iff.mpr listed)

/-- A profile of the AWG 3.1 fields that must stand. -/
def sampleRows : List (String × Json) :=
  [("Jc", "4"), ("Jmin", "50"), ("Jmax", "0100"), ("S1", "12"), ("S2", "69"), ("S3", "20"),
    ("S4", "32"), ("H1", "5-8"), ("H2", "9"), ("H3", "10-10"), ("H4", "11-4294967295"),
    ("I1", "<t>"), ("I2", "<r 2><b 0xaF>"), ("I3", "<rc 1000>"), ("I4", "<rd 0>"), ("I5", "<t>"),
    ("HeaderProtectionKey", "AAAAAAAAAAAAAAAAAAAAAAAAAAAAAAAAAAAAAAAAAAA="), ("RandomTrailers", "On"),
    ("DisableCookies", "off")].map fun (key, value) => (key, .str value)

def sampleValues : Table String Json :=
  sampleRows.foldr (fun row values => values.put row.1 row.2) ∅

theorem validated_alike_sample :
    (validateParameters sampleValues = .ok () ↔ ∃ profile, manual (.obj sampleRows) = .ok profile) ∧
      validateParameters sampleValues = .ok () :=
  ⟨validated_alike (by decide) (.of_eq (by decide +kernel)), by decide +kernel⟩

end Parameters
end Awg
end NodePlane
