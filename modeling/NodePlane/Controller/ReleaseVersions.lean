import NodePlane.Agent.VersionOrder
import NodePlane.Library.Lines
import NodePlane.Library.PythonText

/-! The controller's order of release versions, and where the agent's is another. -/
namespace NodePlane
namespace ReleaseVersions
open Library

/-- The decimal digits of all scripts with their values. -/
structure Decimals where
  value : Char → Option ℕ
  ascii : ∀ c, c.toNat < 128 → value c = if c.isDigit then some (c.toNat - 48) else none

/-- A number of more digits than Python reads. -/
structure ValueError where
  digits : ℕ
  deriving DecidableEq, Repr

/-- A part of a prerelease as a pair: `(0, n)`, `(1, text)`, and `(2, 0)` for a release. -/
inductive Part
  | number (n : ℕ)
  | text (text : List Char)
  | release
  deriving DecidableEq, Repr

structure Version where
  core : List ℕ
  pre : List Part
  deriving DecidableEq, Repr

section
variable (decimals : Decimals)

/-- `0|[1-9]\d*`. -/
def isNumeral : List Char → Bool
  | [] => false
  | c :: rest =>
    if c = '0' then rest.isEmpty
    else '1' ≤ c && c ≤ '9' && rest.all fun c => (decimals.value c).isSome

def int (text : List Char) : Except ValueError ℕ :=
  if 4300 < text.length then .error ⟨text.length⟩
  else .ok (text.foldl (fun n c => 10 * n + (decimals.value c).getD 0) 0)

/-- `[0-9A-Za-z.-]`. -/
def preChar (c : Char) : Bool := c.isAlphanum || c = '.' || c = '-'

/-- An empty identifier, or a number with a leading zero. -/
def badId (id : List Char) : Bool :=
  id.isEmpty || (id.all Char.isDigit && 1 < id.length && id.head? = some '0')

def part (id : List Char) : Except ValueError Part :=
  if id.all Char.isDigit then (int decimals id).map .number else .ok (.text id)

def parseSemver (value : String) : Except ValueError (Option Version) :=
  let raw := PythonText.strip value.toList
  let core := raw.takeWhile (· ≠ '-')
  let numbers := core.splitOn '.'
  if numbers.length ≠ 3 ∨ numbers.all (isNumeral decimals) = false then .ok none
  else if core.length = raw.length then
    (numbers.mapM (int decimals)).map fun numbers => some ⟨numbers, [.release]⟩
  else
    let pre := raw.drop (core.length + 1)
    let ids := pre.splitOn '.'
    if pre = [] ∨ pre.all preChar = false ∨ ids.any badId = true then .ok none
    else
      (ids.mapM (part decimals)).bind fun parts =>
        (numbers.mapM (int decimals)).map fun numbers => some ⟨numbers, parts⟩

/-- The order of two pairs. -/
def Part.compare : Part → Part → Ordering
  | .number m, .number n => Ord.compare m n
  | .number _, _ => .lt
  | _, .number _ => .gt
  | .text s, .text t => Ord.compare (s.map Char.toNat) (t.map Char.toNat)
  | .text _, .release => .lt
  | .release, .text _ => .gt
  | .release, .release => .eq

def Version.compare (v w : Version) : Ordering :=
  (Ord.compare v.core w.core).then (v.pre.compareLex Part.compare w.pre)

def compareVersions (left right : String) : Except ValueError Ordering :=
  match parseSemver decimals left, parseSemver decimals right with
  | .error e, _ => .error e
  | .ok _, .error e => .error e
  | .ok none, .ok none => .ok .eq
  | .ok none, .ok (some _) => .ok .lt
  | .ok (some _), .ok none => .ok .gt
  | .ok (some v), .ok (some w) => .ok (v.compare w)

end

/-! Numerals. -/

def digits (text : List Char) : ℕ := Nat.ofDigitChars 10 text 0

theorem isDigit_iff {c : Char} : c.isDigit = true ↔ 48 ≤ c.toNat ∧ c.toNat ≤ 57 := by
  show (decide (48 ≤ c.val.toNat) && decide (c.val.toNat ≤ 57)) = true ↔ _
  rw [Bool.and_eq_true, decide_eq_true_eq, decide_eq_true_eq]
  rfl

theorem digits_cons (c : Char) (text : List Char) :
    digits (c :: text) = 10 ^ text.length * (c.toNat - 48) + digits text := by
  rw [digits, Nat.ofDigitChars_cons, Nat.ofDigitChars_eq_ofDigitChars_zero, Nat.mul_zero,
    Nat.zero_add]
  rfl

theorem digits_lt {text : List Char} (plain : ∀ c ∈ text, c.isDigit = true) :
    digits text < 10 ^ text.length := by
  induction text with
  | nil => exact Nat.one_pos
  | cons c text ih =>
    have digit := isDigit_iff.mp (plain c List.mem_cons_self)
    have rest := ih fun d member => plain d (List.mem_cons_of_mem c member)
    have most : 10 ^ text.length * (c.toNat - 48) ≤ 10 ^ text.length * 9 :=
      Nat.mul_le_mul_left _ (by omega)
    rw [digits_cons, List.length_cons, Nat.pow_succ]
    omega

/-- Numerals of one length are in the order of their texts. -/
theorem compare_digits {a b : List Char} (left : ∀ c ∈ a, c.isDigit = true)
    (right : ∀ c ∈ b, c.isDigit = true) (same : a.length = b.length) :
    Ord.compare (digits a) (digits b) = Ord.compare (a.map Char.toNat) (b.map Char.toNat) := by
  induction a generalizing b with
  | nil =>
    rw [List.eq_nil_of_length_eq_zero same.symm]
    rfl
  | cons c a ih =>
    cases b with
    | nil => cases same
    | cons d b =>
      have size : a.length = b.length := Nat.succ.inj same
      have rest := fun e member => left e (List.mem_cons_of_mem c member)
      have rest' := fun e member => right e (List.mem_cons_of_mem d member)
      have digit := isDigit_iff.mp (left c List.mem_cons_self)
      have digit' := isDigit_iff.mp (right d List.mem_cons_self)
      have below := digits_lt rest
      have below' := digits_lt rest'
      have texts : Ord.compare ((c :: a).map Char.toNat) ((d :: b).map Char.toNat) =
          (Ord.compare c.toNat d.toNat).then
            (Ord.compare (a.map Char.toNat) (b.map Char.toNat)) := List.compareLex_cons_cons
      rw [texts, ← ih rest rest' size, digits_cons, digits_cons, ← size]
      rw [← size] at below'
      rcases Nat.lt_trichotomy c.toNat d.toNat with lower | equal | higher
      · have step : 10 ^ a.length * (c.toNat - 48 + 1) ≤ 10 ^ a.length * (d.toNat - 48) :=
          Nat.mul_le_mul_left _ (by omega)
        rw [Nat.mul_add, Nat.mul_one] at step
        rw [Nat.compare_eq_lt.mpr (by omega), Nat.compare_eq_lt.mpr lower]
        rfl
      · rw [equal, Nat.compare_eq_eq.mpr rfl]
        show _ = Ord.compare (digits a) (digits b)
        rcases Nat.lt_trichotomy (digits a) (digits b) with lower | same | higher
        · rw [Nat.compare_eq_lt.mpr lower, Nat.compare_eq_lt.mpr (by omega)]
        · rw [same, Nat.compare_eq_eq.mpr rfl, Nat.compare_eq_eq.mpr rfl]
        · rw [Nat.compare_eq_gt.mpr higher, Nat.compare_eq_gt.mpr (by omega)]
      · have step : 10 ^ a.length * (d.toNat - 48 + 1) ≤ 10 ^ a.length * (c.toNat - 48) :=
          Nat.mul_le_mul_left _ (by omega)
        rw [Nat.mul_add, Nat.mul_one] at step
        rw [Nat.compare_eq_gt.mpr (by omega), Nat.compare_eq_gt.mpr higher]
        rfl

/-- A numeral as the controller accepts it. -/
structure Numeral (text : List Char) : Prop where
  nonempty : text ≠ []
  digits : ∀ c ∈ text, c.isDigit = true
  leading : text.head? = some '0' → text.length ≤ 1

theorem lt_of_shorter {a b : List Char} (left : Numeral a) (right : Numeral b)
    (shorter : a.length < b.length) : digits a < digits b := by
  cases b with
  | nil => cases shorter
  | cons c b =>
    have digit := isDigit_iff.mp (right.digits c List.mem_cons_self)
    have below := digits_lt left.digits
    have some : 0 < a.length := List.length_pos_of_ne_nil left.nonempty
    rw [List.length_cons] at shorter
    have power : 10 ^ a.length ≤ 10 ^ b.length := Nat.pow_le_pow_right (by decide) (by omega)
    rw [digits_cons]
    by_cases zero : c = '0'
    · -- a leading zero stands alone
      have alone := right.leading (by rw [zero]; rfl)
      rw [List.length_cons] at alone
      omega
    · have least : 1 ≤ c.toNat - 48 := by
        have other : c.toNat ≠ 48 := fun same => zero (Char.toNat_inj.mp same)
        omega
      have leading : 10 ^ b.length ≤ 10 ^ b.length * (c.toNat - 48) :=
        Nat.le_mul_of_pos_right _ least
      omega

theorem compare_texts_eq {a b : List Char} :
    Ord.compare (a.map Char.toNat) (b.map Char.toNat) = .eq ↔ a = b := by
  rw [Std.compare_eq_iff_eq]
  exact List.map_inj_right fun _ _ same => Char.toNat_inj.mp same

/-- Numerals are as their values. -/
theorem compare_digits_eq {a b : List Char} (left : Numeral a) (right : Numeral b) :
    Ord.compare (digits a) (digits b) = .eq ↔ a = b := by
  constructor
  · intro same
    rw [Nat.compare_eq_eq] at same
    rcases Nat.lt_trichotomy a.length b.length with shorter | equal | longer
    · have := lt_of_shorter left right shorter
      omega
    · rw [← Nat.compare_eq_eq, compare_digits left.digits right.digits equal] at same
      exact compare_texts_eq.mp same
    · have := lt_of_shorter right left longer
      omega
  · rintro rfl
    exact Nat.compare_eq_eq.mpr rfl

/-! Identifiers that both accept. -/

/-- An identifier as the controller accepts it. -/
def Accepted (id : List Char) : Prop :=
  id.all Char.isDigit = true → Numeral id

def partOf (id : List Char) : Part :=
  if id.all Char.isDigit then .number (digits id) else .text id

/-- A number the agent cannot hold. -/
def isHuge (id : List Char) : Bool := id.all Char.isDigit && 2 ^ 64 ≤ digits id

/-- Two identifiers whose texts are not in the order of their numbers, or of a number and a text. -/
def Misordered (a b : List Char) : Prop :=
  let texts := Ord.compare (a.map Char.toNat) (b.map Char.toNat)
  isHuge a = true ∧ isHuge b = true ∧
      (a.length < b.length ∧ texts = .gt ∨ b.length < a.length ∧ texts = .lt) ∨
    isHuge a = true ∧ b.all Char.isDigit = false ∧ texts = .gt ∨
    a.all Char.isDigit = false ∧ isHuge b = true ∧ texts = .lt

theorem parseNumber_digits {id : List Char} (some : id ≠ []) (plain : id.all Char.isDigit = true) :
    Update.parseNumber id = if digits id < 2 ^ 64 then Option.some (digits id) else none := by
  have full : id.isEmpty = false := by simpa using some
  unfold Update.parseNumber
  rw [full, plain]
  rfl

theorem parseNumber_text {id : List Char} (text : id.all Char.isDigit = false) :
    Update.parseNumber id = none := by
  unfold Update.parseNumber
  rw [if_pos (by simp [text])]

theorem order_of_ne {order : Ordering} (ne : order ≠ .eq) : order = .lt ↔ order ≠ .gt := by
  cases order with
  | lt => simp
  | eq => exact absurd rfl ne
  | gt => simp

theorem isHuge_iff {id : List Char} :
    isHuge id = true ↔ id.all Char.isDigit = true ∧ 2 ^ 64 ≤ digits id := by
  rw [isHuge, Bool.and_eq_true, decide_eq_true_eq]

theorem isHuge_small {id : List Char} (small : digits id < 2 ^ 64) : isHuge id = false := by
  rw [isHuge, Bool.and_eq_false_iff]
  exact .inr (decide_eq_false (Nat.not_le.mpr small))

theorem isHuge_text {id : List Char} (text : id.all Char.isDigit = false) : isHuge id = false := by
  rw [isHuge, text, Bool.false_and]

/-- Two numbers. -/
theorem compareId_numbers {a b : List Char} (left : Numeral a) (right : Numeral b) (apart : a ≠ b) :
    Update.compareId a b = Ord.compare (digits a) (digits b) ↔
      ¬(isHuge a = true ∧ isHuge b = true ∧
        (a.length < b.length ∧ Ord.compare (a.map Char.toNat) (b.map Char.toNat) = .gt ∨
          b.length < a.length ∧ Ord.compare (a.map Char.toNat) (b.map Char.toNat) = .lt)) := by
  have plain : a.all Char.isDigit = true := List.all_eq_true.mpr left.digits
  have plain' : b.all Char.isDigit = true := List.all_eq_true.mpr right.digits
  have texts : Ord.compare (a.map Char.toNat) (b.map Char.toNat) ≠ .eq :=
    fun same => apart (compare_texts_eq.mp same)
  unfold Update.compareId
  rw [parseNumber_digits left.nonempty plain, parseNumber_digits right.nonempty plain']
  by_cases small : digits a < 2 ^ 64
  · rw [if_pos small]
    have tiny := isHuge_small small
    by_cases little : digits b < 2 ^ 64
    · rw [if_pos little]
      simp [tiny]
    · rw [if_neg little]
      have lower : digits a < digits b := by omega
      simp [tiny, Nat.compare_eq_lt.mpr lower]
  · rw [if_neg small]
    by_cases little : digits b < 2 ^ 64
    · rw [if_pos little]
      have higher : digits b < digits a := by omega
      have tiny := isHuge_small little
      simp [tiny, Nat.compare_eq_gt.mpr higher]
    · rw [if_neg little]
      have huge : isHuge a = true := isHuge_iff.mpr ⟨plain, Nat.not_lt.mp small⟩
      have huge' : isHuge b = true := isHuge_iff.mpr ⟨plain', Nat.not_lt.mp little⟩
      simp only [huge, huge', true_and]
      rcases Nat.lt_trichotomy a.length b.length with shorter | equal | longer
      · rw [Nat.compare_eq_lt.mpr (lt_of_shorter left right shorter), order_of_ne texts]
        simp [shorter, Nat.not_lt_of_lt shorter]
      · rw [compare_digits left.digits right.digits equal]
        simp [equal]
      · rw [Nat.compare_eq_gt.mpr (lt_of_shorter right left longer)]
        cases order : Ord.compare (a.map Char.toNat) (b.map Char.toNat) with
        | lt => simp [longer]
        | eq => exact absurd order texts
        | gt => simp [Nat.not_lt_of_lt longer]

/-- The orders of two identifiers are the same unless they are misordered. -/
theorem compareId_iff {a b : List Char} (left : Accepted a) (right : Accepted b) (apart : a ≠ b) :
    Update.compareId a b = (partOf a).compare (partOf b) ↔ ¬Misordered a b := by
  have texts : Ord.compare (a.map Char.toNat) (b.map Char.toNat) ≠ .eq :=
    fun same => apart (compare_texts_eq.mp same)
  unfold Misordered partOf
  cases plain : a.all Char.isDigit with
  | true =>
    cases plain' : b.all Char.isDigit with
    | true =>
      have numbers := compareId_numbers (left plain) (right plain') apart
      simpa [Part.compare] using numbers
    | false =>
      have huge := isHuge_text plain'
      unfold Update.compareId
      rw [parseNumber_digits (left plain).nonempty plain, parseNumber_text plain']
      by_cases small : digits a < 2 ^ 64
      · have tiny := isHuge_small small
        rw [if_pos small]
        simp [tiny, huge, Part.compare]
      · have big : isHuge a = true := isHuge_iff.mpr ⟨plain, Nat.not_lt.mp small⟩
        rw [if_neg small]
        simp [big, huge, Part.compare, order_of_ne texts]
  | false =>
    have huge := isHuge_text plain
    cases plain' : b.all Char.isDigit with
    | true =>
      unfold Update.compareId
      rw [parseNumber_text plain, parseNumber_digits (right plain').nonempty plain']
      by_cases small : digits b < 2 ^ 64
      · have tiny := isHuge_small small
        rw [if_pos small]
        simp [tiny, huge, Part.compare]
      · have big : isHuge b = true := isHuge_iff.mpr ⟨plain', Nat.not_lt.mp small⟩
        rw [if_neg small]
        simp only [big, huge, Part.compare]
        cases order : Ord.compare (a.map Char.toNat) (b.map Char.toNat) with
        | lt => simp
        | eq => exact absurd order texts
        | gt => simp
    | false =>
      have huge' := isHuge_text plain'
      unfold Update.compareId
      rw [parseNumber_text plain, parseNumber_text plain']
      simp [huge, huge', Part.compare]

/-! Prereleases. -/

theorem compareId_ne {a b : List Char} (left : Accepted a) (right : Accepted b) (apart : a ≠ b) :
    Update.compareId a b ≠ .eq := by
  have texts : Ord.compare (a.map Char.toNat) (b.map Char.toNat) ≠ .eq :=
    fun same => apart (compare_texts_eq.mp same)
  have numbers (plain : a.all Char.isDigit = true) (plain' : b.all Char.isDigit = true) :
      Ord.compare (digits a) (digits b) ≠ .eq :=
    fun same => apart ((compare_digits_eq (left plain) (right plain')).mp same)
  have shape (id : List Char) (accepted : Accepted id) : Update.parseNumber id = none ∨
      id.all Char.isDigit = true ∧ Update.parseNumber id = some (digits id) := by
    cases plain : id.all Char.isDigit with
    | true =>
      rw [parseNumber_digits (accepted plain).nonempty plain]
      by_cases small : digits id < 2 ^ 64
      · exact .inr ⟨rfl, if_pos small⟩
      · exact .inl (if_neg small)
    | false => exact .inl (parseNumber_text plain)
  unfold Update.compareId
  rcases shape a left with none | ⟨plain, some⟩ <;>
    rcases shape b right with none' | ⟨plain', some'⟩
  · rw [none, none']
    exact texts
  · rw [none, some']
    simp
  · rw [some, none']
    simp
  · rw [some, some']
    exact numbers plain plain'

theorem partOf_ne {a b : List Char} (left : Accepted a) (right : Accepted b) (apart : a ≠ b) :
    (partOf a).compare (partOf b) ≠ .eq := by
  unfold partOf
  cases plain : a.all Char.isDigit with
  | true =>
    cases plain' : b.all Char.isDigit with
    | true => exact fun same => apart ((compare_digits_eq (left plain) (right plain')).mp same)
    | false => simp [Part.compare]
  | false =>
    cases plain' : b.all Char.isDigit with
    | true => simp [Part.compare]
    | false => exact fun same => apart (compare_texts_eq.mp same)

theorem partOf_self (a : List Char) : (partOf a).compare (partOf a) = .eq := by
  unfold partOf
  split
  · exact Std.ReflOrd.compare_self
  · exact Std.ReflOrd.compare_self

theorem then_of_ne {first second : Ordering} (ne : first ≠ .eq) : first.then second = first := by
  cases first with
  | lt => rfl
  | eq => exact absurd rfl ne
  | gt => rfl

/-- No two identifiers where two prereleases part are misordered. -/
def Clear (left right : List (List Char)) : Prop :=
  ∀ common a b rest more, left = common ++ a :: rest → right = common ++ b :: more → a ≠ b →
    ¬Misordered a b

theorem clear_same {a : List Char} {left right : List (List Char)} :
    Clear (a :: left) (a :: right) ↔ Clear left right := by
  constructor
  · intro clear common b c rest more here there
    exact clear (a :: common) b c rest more (by rw [here]; rfl) (by rw [there]; rfl)
  · intro clear common b c rest more here there apart
    cases common with
    | nil =>
      cases here
      cases there
      exact absurd rfl apart
    | cons first common =>
      obtain ⟨-, here⟩ := List.cons.inj here
      obtain ⟨-, there⟩ := List.cons.inj there
      exact clear common b c rest more here there apart

theorem clear_apart {a b : List Char} {left right : List (List Char)} (apart : a ≠ b) :
    Clear (a :: left) (b :: right) ↔ ¬Misordered a b := by
  constructor
  · exact fun clear => clear [] a b left right rfl rfl apart
  · intro ordered common c d rest more here there _
    cases common with
    | nil =>
      cases here
      cases there
      exact ordered
    | cons first common =>
      cases here
      cases there
      exact absurd rfl apart

theorem compareIds_iff {left right : List (List Char)} (each : ∀ id ∈ left, Accepted id)
    (also : ∀ id ∈ right, Accepted id) :
    Update.compareIds left right = (left.map partOf).compareLex Part.compare (right.map partOf) ↔
      Clear left right := by
  rw [Update.compareIds_eq]
  induction left generalizing right with
  | nil =>
    have clear : Clear [] right := fun common a b rest more here => by simp at here
    cases right with
    | nil => exact iff_of_true rfl clear
    | cons b right => exact iff_of_true rfl clear
  | cons a left ih =>
    cases right with
    | nil =>
      have clear : Clear (a :: left) [] := fun common a b rest more _ there => by simp at there
      exact iff_of_true rfl clear
    | cons b right =>
      have first := each a List.mem_cons_self
      have first' := also b List.mem_cons_self
      rw [List.map_cons, List.map_cons, List.compareLex_cons_cons, List.compareLex_cons_cons]
      by_cases same : a = b
      · subst same
        have self : Update.compareId a a = .eq := Std.ReflCmp.compare_self
        rw [self, partOf_self, clear_same]
        exact ih (fun id member => each id (List.mem_cons_of_mem a member))
          (fun id member => also id (List.mem_cons_of_mem a member))
      · rw [then_of_ne (compareId_ne first first' same), then_of_ne (partOf_ne first first' same),
          clear_apart same]
        exact compareId_iff first first' same

/-! What both read. -/

variable {decimals : Decimals}

theorem int_digits {text : List Char} {n : ℕ} (plain : ∀ c ∈ text, c.isDigit = true)
    (read : int decimals text = .ok n) : n = digits text := by
  unfold int at read
  split at read
  · cases read
  · cases read
    unfold digits Nat.ofDigitChars
    apply List.foldl_ext
    intro m c member
    have digit := plain c member
    have ascii : c.toNat < 128 := by
      have bounds := isDigit_iff.mp digit
      omega
    rw [decimals.ascii c ascii, if_pos digit]
    rfl

theorem mapM_some {α β : Type} {f : α → Option β} {h : α → β} {items : List α} {results : List β}
    (all : items.mapM f = some results) (each : ∀ a ∈ items, ∀ b, f a = some b → b = h a) :
    results = items.map h ∧ ∀ a ∈ items, f a = some (h a) := by
  induction items generalizing results with
  | nil =>
    cases all
    exact ⟨rfl, List.forall_mem_nil _⟩
  | cons a items ih =>
    rw [List.mapM_cons] at all
    obtain ⟨b, here, rest⟩ := Option.bind_eq_some_iff.mp all
    obtain ⟨tail, found, whole⟩ := Option.bind_eq_some_iff.mp rest
    cases whole
    obtain ⟨rfl, others⟩ := ih found fun c member => each c (List.mem_cons_of_mem a member)
    rw [List.map_cons, ← each a List.mem_cons_self b here]
    refine ⟨rfl, List.forall_mem_cons.mpr ⟨?_, others⟩⟩
    rw [here, each a List.mem_cons_self b here]

theorem mapM_ok {α β ε : Type} {g : α → Except ε β} {h : α → β} {items : List α} {results : List β}
    (ok : items.mapM g = .ok results) (each : ∀ a ∈ items, ∀ b, g a = .ok b → b = h a) :
    results = items.map h := by
  induction items generalizing results with
  | nil =>
    cases ok
    rfl
  | cons a items ih =>
    rw [List.mapM_cons] at ok
    cases here : g a with
    | error e =>
      rw [here] at ok
      cases ok
    | ok b =>
      cases there : items.mapM g with
      | error e =>
        rw [here, there] at ok
        cases ok
      | ok more =>
        rw [here, there] at ok
        cases ok
        rw [List.map_cons, each a List.mem_cons_self b here,
          ih there fun c member => each c (List.mem_cons_of_mem a member)]

theorem part_of {id : List Char} {p : Part} (read : part decimals id = .ok p) : p = partOf id := by
  unfold part at read
  unfold partOf
  cases plain : id.all Char.isDigit with
  | true =>
    rw [plain, if_pos rfl] at read
    cases number : int decimals id with
    | error e =>
      rw [number] at read
      cases read
    | ok n =>
      rw [number] at read
      cases read
      rw [int_digits (List.all_eq_true.mp plain) number]
      rfl
  | false =>
    rw [plain] at read
    cases read
    rfl

theorem parseNumber_some {text : List Char} {n : ℕ} (read : Update.parseNumber text = some n) :
    (∀ c ∈ text, c.isDigit = true) ∧ n = digits text := by
  unfold Update.parseNumber at read
  split at read
  · cases read
  next plain =>
    rw [Bool.not_eq_true, Bool.or_eq_false_iff, Bool.not_eq_false'] at plain
    dsimp only at read
    split at read
    · cases read
      exact ⟨List.all_eq_true.mp plain.2, rfl⟩
    · cases read

theorem alphanum_bounds {c : Char} (letter : c.isAlphanum = true) :
    48 ≤ c.toNat ∧ c.toNat ≤ 122 := by
  change ((decide ('A'.val ≤ c.val ∧ c.val ≤ 'Z'.val)) ||
    (decide ('a'.val ≤ c.val) && decide (c.val ≤ 'z'.val)) ||
    (decide ('0'.val ≤ c.val) && decide (c.val ≤ '9'.val))) = true at letter
  simp only [Bool.or_eq_true, Bool.and_eq_true, decide_eq_true_eq, UInt32.le_iff_toNat_le] at letter
  change ((65 ≤ c.toNat ∧ c.toNat ≤ 90) ∨ (97 ≤ c.toNat ∧ c.toNat ≤ 122)) ∨
    (48 ≤ c.toNat ∧ c.toNat ≤ 57) at letter
  omega

theorem mem_dots {text : List Char} {c : Char} (inside : c ∈ text) :
    c = '.' ∨ ∃ id ∈ text.splitOn '.', c ∈ id := Lines.mem_splitOn inside

/-- A text of the agent's has no white space. -/
theorem agent_plain {text : String} {v : Update.Version}
    (read : Update.parseVersion text = some v) : ∀ c ∈ text.toList, PythonText.isSpace c = false := by
  have white {c : Char} (known : c = '.' ∨ c = '-' ∨ c.isAlphanum = true) :
      PythonText.isSpace c = false := by
    rcases known with rfl | rfl | letter
    · decide
    · decide
    · have bounds := alphanum_bounds letter
      simp only [PythonText.isSpace, Bool.or_eq_false_iff, Bool.and_eq_false_iff,
        decide_eq_false_iff_not]
      omega
  obtain ⟨core, -, kind⟩ := Update.parseVersion_some read
  have numbers : ∀ c ∈ text.toList.takeWhile (· ≠ '-'),
      c = '.' ∨ c = '-' ∨ c.isAlphanum = true := by
    intro c member
    rcases mem_dots member with dot | ⟨number, listed, inside⟩
    · exact .inl dot
    · right
      right
      have found := (mapM_some core fun _ _ _ found => (parseNumber_some found).2).2 number listed
      have digit := (parseNumber_some found).1 c inside
      show (c.isAlpha || c.isDigit) = true
      rw [digit, Bool.or_true]
  rcases kind with ⟨-, whole⟩ | ⟨rest, whole, -, plain⟩
  · rw [whole] at numbers
    exact fun c member => white (numbers c member)
  · intro c member
    rw [whole, List.mem_append] at member
    rcases member with early | late
    · exact white (numbers c early)
    · rcases List.mem_cons.mp late with rfl | late
      · exact white (.inr (.inl rfl))
      · rcases mem_dots late with dot | ⟨id, listed, inside⟩
        · exact white (.inl dot)
        · exact white (.inr (.inr ((plain id listed).2 c inside)))

/-- A release has one part of its own. -/
def partsOf : Option (List (List Char)) → List Part
  | none => [.release]
  | some ids => ids.map partOf

/-- What the controller reads where the agent reads a version. -/
theorem parseSemver_agrees {text : String} {v : Update.Version} {w : Version}
    (read : Update.parseVersion text = some v) (also : parseSemver decimals text = .ok (some w)) :
    w = ⟨v.core, partsOf v.pre⟩ ∧
      ∀ ids, v.pre = some ids → ids ≠ [] ∧ ∀ id ∈ ids, Accepted id := by
  have plain := agent_plain read
  obtain ⟨core, three, kind⟩ := Update.parseVersion_some read
  obtain ⟨values, found⟩ := mapM_some core fun _ _ _ found => (parseNumber_some found).2
  have numbers {others : List ℕ} (ok : ((text.toList.takeWhile (· ≠ '-')).splitOn '.').mapM
      (int decimals) = .ok others) : others = v.core := by
    rw [values]
    exact mapM_ok ok fun number listed n here =>
      int_digits (parseNumber_some (found number listed)).1 here
  unfold parseSemver at also
  rw [PythonText.strip_plain plain] at also
  dsimp only at also
  split at also
  · cases also
  · split at also
    next whole =>
      cases read' : ((text.toList.takeWhile (· ≠ '-')).splitOn '.').mapM (int decimals) with
      | error e =>
        rw [read'] at also
        cases also
      | ok others =>
        rw [read'] at also
        cases also
        rcases kind with ⟨release, -⟩ | ⟨rest, longer, -⟩
        · rw [numbers read', release]
          exact ⟨rfl, fun ids none => by cases none⟩
        · have size := congrArg List.length longer
          rw [List.length_append, List.length_cons] at size
          omega
    next more =>
      split at also
      · cases also
      next bad =>
        rcases kind with ⟨-, whole⟩ | ⟨rest, longer, pre, each⟩
        · exact absurd (congrArg List.length whole) more
        · have after : text.toList.dropWhile (· ≠ '-') = '-' :: rest := by
            have halves : text.toList.takeWhile (· ≠ '-') ++ text.toList.dropWhile (· ≠ '-') =
                text.toList.takeWhile (· ≠ '-') ++ '-' :: rest := by
              rw [List.takeWhile_append_dropWhile, ← longer]
            exact List.append_cancel_left halves
          rw [Update.drop_takeWhile after] at also bad
          rw [not_or, not_or, Bool.not_eq_true, List.any_eq_false] at bad
          cases ids : (rest.splitOn '.').mapM (part decimals) with
          | error e =>
            rw [ids] at also
            cases also
          | ok parts =>
            cases core' : ((text.toList.takeWhile (· ≠ '-')).splitOn '.').mapM (int decimals) with
            | error e =>
              rw [ids, core'] at also
              cases also
            | ok others =>
              rw [ids, core'] at also
              cases also
              rw [numbers core', mapM_ok ids fun id _ p read => part_of read, pre]
              refine ⟨rfl, ?_⟩
              intro known same
              cases same
              refine ⟨List.splitOn_ne_nil _ _, ?_⟩
              intro id listed all
              have good := bad.2.2 id listed
              refine ⟨(each id listed).1, List.all_eq_true.mp all, ?_⟩
              intro zero
              by_contra longer
              apply good
              simp [badId, all, zero]
              omega

/-! The two orders. -/

/-- Both give the same order. -/
def SameOrder (decimals : Decimals) (left right : String) : Prop :=
  ∃ order, Update.compareVersions left right = some order ∧
    compareVersions decimals left right = .ok order

/-- Where only the prereleases differ, they part at identifiers that are not misordered. -/
def InOrder (v w : Update.Version) : Prop :=
  v.core = w.core → ∀ ids others, v.pre = some ids → w.pre = some others → Clear ids others

theorem comparePre_iff {p q : Option (List (List Char))}
    (left : ∀ ids, p = some ids → ids ≠ [] ∧ ∀ id ∈ ids, Accepted id)
    (right : ∀ ids, q = some ids → ids ≠ [] ∧ ∀ id ∈ ids, Accepted id) :
    Update.comparePre p q = (partsOf p).compareLex Part.compare (partsOf q) ↔
      ∀ ids others, p = some ids → q = some others → Clear ids others := by
  have below (id : List Char) : (partOf id).compare .release = .lt := by
    unfold partOf
    split <;> rfl
  have above (id : List Char) : Part.release.compare (partOf id) = .gt := by
    unfold partOf
    split <;> rfl
  cases p with
  | none =>
    refine iff_of_true ?_ fun ids others none => by cases none
    cases q with
    | none => rfl
    | some others =>
      obtain ⟨id, rest, rfl⟩ := List.exists_cons_of_ne_nil (right others rfl).1
      rw [partsOf, partsOf, List.map_cons, List.compareLex_cons_cons, above]
      rfl
  | some ids =>
    cases q with
    | none =>
      refine iff_of_true ?_ fun ids others _ none => by cases none
      obtain ⟨id, rest, rfl⟩ := List.exists_cons_of_ne_nil (left ids rfl).1
      rw [partsOf, partsOf, List.map_cons, List.compareLex_cons_cons, below]
      rfl
    | some others =>
      rw [Update.comparePre, partsOf, partsOf, compareIds_iff (left ids rfl).2 (right others rfl).2]
      constructor
      · intro clear _ _ here there
        cases here
        cases there
        exact clear
      · exact fun clear => clear ids others rfl rfl

theorem sameOrder_iff {left right : String} {v w : Update.Version} {v' w' : Version}
    (read : Update.parseVersion left = some v) (read' : Update.parseVersion right = some w)
    (also : parseSemver decimals left = .ok (some v'))
    (also' : parseSemver decimals right = .ok (some w')) :
    SameOrder decimals left right ↔ InOrder v w := by
  obtain ⟨rfl, known⟩ := parseSemver_agrees read also
  obtain ⟨rfl, known'⟩ := parseSemver_agrees read' also'
  have agent : Update.compareVersions left right = some (v.compare w) := by
    rw [Update.compareVersions_eq, read, read']
    rfl
  have controller : compareVersions decimals left right =
      .ok (Version.compare ⟨v.core, partsOf v.pre⟩ ⟨w.core, partsOf w.pre⟩) := by
    rw [compareVersions, also, also']
  have both : SameOrder decimals left right ↔
      v.compare w = Version.compare ⟨v.core, partsOf v.pre⟩ ⟨w.core, partsOf w.pre⟩ := by
    rw [SameOrder, agent, controller]
    constructor
    · rintro ⟨order, here, there⟩
      exact (Option.some.inj here).trans (Except.ok.inj there).symm
    · exact fun same => ⟨_, rfl, by rw [same]⟩
  rw [both, Update.Version.compare, Version.compare, InOrder, ← comparePre_iff known known']
  by_cases core : v.core = w.core
  · have same : Ord.compare v.core w.core = .eq := Std.compare_eq_iff_eq.mpr core
    rw [same]
    exact ⟨fun equal _ => equal, fun equal => equal core⟩
  · have differ : Ord.compare v.core w.core ≠ .eq :=
      fun same => core (Std.compare_eq_iff_eq.mp same)
    rw [then_of_ne differ, then_of_ne differ]
    exact iff_of_true rfl fun same => absurd same core

/-- The agent's order on the versions it accepts is a total preorder with every prerelease before
its release, and for two versions that both accept it is the controller's if and only if the
prereleases do not part at misordered identifiers. -/
theorem version_orders (decimals : Decimals) :
    ((∀ a, Update.validVersion a = true → Update.compareVersions a a = some .eq) ∧
      (∀ a b, Update.validVersion a = true → Update.validVersion b = true →
        (Update.compareVersions a b).isSome = true) ∧
      (∀ a b, Update.compareVersions b a = (Update.compareVersions a b).map Ordering.swap) ∧
      ∀ a b c first second, Update.compareVersions a b = some first →
        Update.compareVersions b c = some second → first.isLE = true → second.isLE = true →
        ∃ order, Update.compareVersions a c = some order ∧ order.isLE = true ∧
          (order = .eq ↔ first = .eq ∧ second = .eq)) ∧
    (∀ core pre : String, '-' ∉ core.toList → Update.validVersion core = true →
      Update.validVersion (core ++ "-" ++ pre) = true →
      Update.compareVersions (core ++ "-" ++ pre) core = some .lt) ∧
    ∀ left right v w v' w', Update.parseVersion left = some v → Update.parseVersion right = some w →
      parseSemver decimals left = .ok (some v') → parseSemver decimals right = .ok (some w') →
      (SameOrder decimals left right ↔ InOrder v w) :=
  ⟨⟨fun _ valid => Update.compareVersions_self valid,
      fun _ _ valid valid' => Update.compareVersions_total valid valid',
      Update.compareVersions_swap,
      fun _ _ _ _ _ first second => Update.compareVersions_trans first second⟩,
    fun _ _ plain release valid => Update.prerelease_before plain release valid,
    fun _ _ _ _ _ _ read read' also also' => sameOrder_iff read read' also also'⟩

/-! Samples. -/

/-- The digits of one script. -/
def asciiDecimals : Decimals where
  value c := if c.isDigit then some (c.toNat - 48) else none
  ascii _ _ := rfl

def rc (number : String) : String := "1.0.0-rc." ++ number

theorem version_orders_sample : SameOrder asciiDecimals (rc "2") (rc "10") := by
  refine ((version_orders asciiDecimals).2.2 (rc "2") (rc "10")
    ⟨[1, 0, 0], some [['r', 'c'], ['2']]⟩ ⟨[1, 0, 0], some [['r', 'c'], ['1', '0']]⟩
    ⟨[1, 0, 0], [.text ['r', 'c'], .number 2]⟩ ⟨[1, 0, 0], [.text ['r', 'c'], .number 10]⟩
    (by decide) (by decide) (by rfl) (by rfl)).mpr ?_
  intro _ ids others left right
  cases left
  cases right
  refine clear_same.mpr ((clear_apart (by decide)).mpr ?_)
  rintro (⟨huge, -⟩ | ⟨huge, -⟩ | ⟨plain, -⟩)
  · exact absurd huge (by decide)
  · exact absurd huge (by decide)
  · exact absurd plain (by decide)

/-- Two numbers that are larger than the agent can hold. -/
theorem huge_misordered :
    ¬∀ left right : String, Update.validVersion left = true → Update.validVersion right = true →
      (∃ v, parseSemver asciiDecimals left = .ok (some v)) →
      (∃ w, parseSemver asciiDecimals right = .ok (some w)) →
        SameOrder asciiDecimals left right := by
  intro same
  obtain ⟨order, agent, controller⟩ := same "1.0.0-99999999999999999999"
    "1.0.0-100000000000000000000" (by decide) (by decide)
    ⟨⟨[1, 0, 0], [.number 99999999999999999999]⟩, by rfl⟩
    ⟨⟨[1, 0, 0], [.number 100000000000000000000]⟩, by rfl⟩
  have above : Update.compareVersions "1.0.0-99999999999999999999" "1.0.0-100000000000000000000" =
      some .gt := by decide
  have below : compareVersions asciiDecimals "1.0.0-99999999999999999999"
      "1.0.0-100000000000000000000" = .ok .lt := by rfl
  rw [above] at agent
  rw [below] at controller
  cases agent
  cases controller

end ReleaseVersions
end NodePlane
