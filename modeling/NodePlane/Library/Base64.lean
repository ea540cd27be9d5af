import Mathlib.Algebra.Group.Nat.Defs
import Mathlib.Data.List.DropRight
import Mathlib.Data.List.GetD
import Mathlib.Data.Nat.Basic
import Mathlib.Tactic.Linarith

/-! Base64: encoding, a decoder that reads bits until the text ends, and a strict decoder that
reads groups of four. Bytes are numbers below 256. -/
namespace Library
namespace Base64

def alphabet : List Char :=
  "ABCDEFGHIJKLMNOPQRSTUVWXYZabcdefghijklmnopqrstuvwxyz0123456789+/".toList

/-- The letter of six bits. -/
def letter (n : ℕ) : Char := alphabet.getD (n % 64) 'A'

/-- The place of a letter. -/
def value (c : Char) : Option ℕ := alphabet.idxOf? c

def encode : List ℕ → List Char
  | [] => []
  | [a] =>
    let group := a * 65536
    [letter (group / 262144), letter (group / 4096), '=', '=']
  | [a, b] =>
    let group := a * 65536 + b * 256
    [letter (group / 262144), letter (group / 4096), letter (group / 64), '=']
  | a :: b :: c :: rest =>
    let group := a * 65536 + b * 256 + c
    letter (group / 262144) :: letter (group / 4096) :: letter (group / 64) :: letter group ::
      encode rest

/-- The bytes of a text without padding; bits left over are dropped. -/
def decodeFrom : ℕ → ℕ → List Char → Option (List ℕ)
  | _, _, [] => some []
  | group, bits, c :: rest => do
    let v ← value c
    let group := (group * 64 + v) % 2 ^ 32
    if 8 ≤ bits + 6 then
      return group / 2 ^ (bits + 6 - 8) % 256 :: (← decodeFrom group (bits + 6 - 8) rest)
    else decodeFrom group (bits + 6) rest

def trimEnd (p : Char → Bool) (text : List Char) : List Char := text.rdropWhile p

def decode (text : List Char) : Option (List ℕ) := decodeFrom 0 0 (trimEnd (· == '=') text)

/-- Groups of four letters, only the last of them padded: `quad` letters of the group read, `left`
their bits not yet given out, `pads` its padding, `started` whether padding was met. -/
def strictFrom (quad left pads : ℕ) (started : Bool) : List Char → Option (List ℕ)
  | [] => if quad = 0 then some [] else none
  | c :: rest =>
    if c = '=' then
      if 2 ≤ quad then
        if 4 ≤ quad + (pads + 1) then if rest = [] then some [] else none
        else strictFrom quad left (pads + 1) true rest
      else strictFrom quad left pads true rest
    else do
      let v ← value c
      if started then none
      else if quad = 0 then strictFrom 1 v 0 false rest
      else if quad = 1 then return (left * 4 + v / 16) :: (← strictFrom 2 (v % 16) 0 false rest)
      else if quad = 2 then return (left * 16 + v / 4) :: (← strictFrom 3 (v % 4) 0 false rest)
      else return (left * 64 + v) :: (← strictFrom 0 0 0 false rest)

def strict (text : List Char) : Option (List ℕ) :=
  if text.head? = some '=' then none else strictFrom 0 0 0 false text

theorem value_isSome {c : Char} : (value c).isSome = true ↔ c ∈ alphabet := by
  rw [value, List.isSome_idxOf?]

theorem letter_mem (n : ℕ) : letter n ∈ alphabet := by
  have short : n % 64 < alphabet.length := Nat.mod_lt n (by decide)
  rw [letter, List.getD_eq_getElem _ _ short]
  exact List.getElem_mem short

theorem padding_not_mem : '=' ∉ alphabet := by decide

/-- The decoder gives a byte for every eight bits. -/
theorem decodeFrom_length {group bits : ℕ} {text : List Char} (few : bits < 8) :
    (∀ bytes, decodeFrom group bits text = some bytes → bytes.length = (bits + 6 * text.length) / 8) ∧
      ((∀ c ∈ text, c ∈ alphabet) → (decodeFrom group bits text).isSome = true) := by
  induction text generalizing group bits with
  | nil =>
    refine ⟨?_, fun _ => rfl⟩
    rintro bytes ⟨⟩
    rw [List.length_nil, List.length_nil]
    omega
  | cons c rest ih =>
    constructor
    · intro bytes decoded
      rw [decodeFrom] at decoded
      obtain ⟨v, -, decoded⟩ := Option.bind_eq_some_iff.mp decoded
      split at decoded
      · obtain ⟨later, found, same⟩ := Option.bind_eq_some_iff.mp decoded
        cases same
        have := (ih (by omega)).1 later found
        simp only [List.length_cons]
        omega
      · have := (ih (by omega)).1 bytes decoded
        simp only [List.length_cons]
        omega
    · intro known
      obtain ⟨here, known⟩ := List.forall_mem_cons.mp known
      obtain ⟨v, found⟩ := Option.isSome_iff_exists.mp (value_isSome.mpr here)
      rw [decodeFrom, found]
      dsimp only [Option.bind_eq_bind, Option.bind_some]
      split
      · obtain ⟨later, found⟩ : ∃ later, decodeFrom ((group * 64 + v) % 2 ^ 32) (bits + 6 - 8) rest =
            some later := Option.isSome_iff_exists.mp ((ih (by omega)).2 known)
        rw [found]
        rfl
      · exact (ih (by omega)).2 known

/-- Text of 32 bytes: 43 letters and one sign of padding. -/
def Whole (text : List Char) : Prop :=
  ∃ body, text = body ++ ['='] ∧ body.length = 43 ∧ ∀ c ∈ body, c ∈ alphabet

/-- Letters before the first padding, read from `quad` letters on. -/
theorem strictFrom_letters {body tail : List Char} (known : ∀ c ∈ body, c ∈ alphabet)
    {quad : ℕ} (few : quad < 4) (left : ℕ) :
    ∃ left' out, out.length = (3 * (quad + body.length)) / 4 - 3 * quad / 4 ∧
      strictFrom quad left 0 false (body ++ tail) =
        (strictFrom ((quad + body.length) % 4) left' 0 false tail).map (out ++ ·) := by
  induction body generalizing quad left with
  | nil => exact ⟨left, [], by simp, by simp [Nat.mod_eq_of_lt few]⟩
  | cons c rest ih =>
    obtain ⟨here, known⟩ := List.forall_mem_cons.mp known
    obtain ⟨v, found⟩ := Option.isSome_iff_exists.mp (value_isSome.mpr here)
    have letter : c ≠ '=' := fun same => padding_not_mem (same ▸ here)
    rw [List.cons_append, strictFrom, if_neg letter, found]
    simp only [Option.bind_eq_bind, Option.bind_some, Bool.false_eq_true, if_false]
    split
    next first =>
      subst first
      obtain ⟨left', out, length, same⟩ := ih known (show 1 < 4 by omega) v
      refine ⟨left', out, ?_, ?_⟩
      · rw [length, List.length_cons]
        omega
      · rw [same, List.length_cons, show 0 + (rest.length + 1) = 1 + rest.length by omega]
    · split
      next second =>
        subst second
        obtain ⟨left', out, length, same⟩ := ih known (show 2 < 4 by omega) (v % 16)
        refine ⟨left', (left * 4 + v / 16) :: out, ?_, ?_⟩
        · rw [List.length_cons, length, List.length_cons]
          omega
        · rw [same, List.length_cons, show 1 + (rest.length + 1) = 2 + rest.length by omega]
          cases strictFrom ((2 + rest.length) % 4) left' 0 false tail <;> rfl
      · split
        next third =>
          subst third
          obtain ⟨left', out, length, same⟩ := ih known (show 3 < 4 by omega) (v % 4)
          refine ⟨left', (left * 16 + v / 4) :: out, ?_, ?_⟩
          · rw [List.length_cons, length, List.length_cons]
            omega
          · rw [same, List.length_cons, show 2 + (rest.length + 1) = 3 + rest.length by omega]
            cases strictFrom ((3 + rest.length) % 4) left' 0 false tail <;> rfl
        · have last : quad = 3 := by omega
          subst last
          obtain ⟨left', out, length, same⟩ := ih known (show 0 < 4 by omega) 0
          refine ⟨left', (left * 64 + v) :: out, ?_, ?_⟩
          · rw [List.length_cons, length, List.length_cons]
            omega
          · rw [same, List.length_cons,
              show (3 + (rest.length + 1)) % 4 = (0 + rest.length) % 4 by omega]
            cases strictFrom ((0 + rest.length) % 4) left' 0 false tail <;> rfl

/-- After padding no letter follows. -/
theorem strictFrom_padded {tail : List Char} {quad left pads : ℕ} {bytes : List ℕ}
    (read : strictFrom quad left pads true tail = some bytes) : bytes = [] := by
  induction tail generalizing pads with
  | nil =>
    rw [strictFrom] at read
    split at read <;> cases read
    rfl
  | cons c rest ih =>
    rw [strictFrom] at read
    split at read
    · split at read
      · split at read
        · split at read <;> cases read
          rfl
        · exact ih read
      · exact ih read
    · obtain ⟨v, -, read⟩ := Option.bind_eq_some_iff.mp read
      cases read

theorem strictFrom_known {text : List Char} {quad left pads : ℕ} {started : Bool}
    {bytes : List ℕ} (read : strictFrom quad left pads started text = some bytes) :
    ∀ c ∈ text, c ≠ '=' → c ∈ alphabet := by
  induction text generalizing quad left pads started bytes with
  | nil => exact fun c none => nomatch none
  | cons c rest ih =>
    rw [strictFrom] at read
    have later : ∀ {quad left pads started bytes},
        strictFrom quad left pads started rest = some bytes → ∀ d ∈ rest, d ≠ '=' → d ∈ alphabet :=
      fun read => ih read
    refine List.forall_mem_cons.mpr ⟨?_, ?_⟩
    · intro letter
      rw [if_neg letter] at read
      obtain ⟨v, found, -⟩ := Option.bind_eq_some_iff.mp read
      exact value_isSome.mp (Option.isSome_iff_exists.mpr ⟨v, found⟩)
    · split at read
      · split at read
        · split at read
          · split at read
            next none =>
              rw [none]
              exact fun d missing => nomatch missing
            · cases read
          · exact later read
        · exact later read
      · obtain ⟨v, -, read⟩ := Option.bind_eq_some_iff.mp read
        split at read
        · cases read
        · split at read
          · exact later read
          · split at read
            · obtain ⟨_, read, -⟩ := Option.bind_eq_some_iff.mp read
              exact later read
            · split at read
              all_goals
                obtain ⟨_, read, -⟩ := Option.bind_eq_some_iff.mp read
                exact later read

/-- What is read after the letters gives no byte. -/
theorem strictFrom_tail {tail : List Char} (padded : tail.head? = none ∨ tail.head? = some '=')
    {quad left : ℕ} {bytes : List ℕ} (read : strictFrom quad left 0 false tail = some bytes) :
    bytes = [] := by
  cases tail with
  | nil =>
    rw [strictFrom] at read
    split at read <;> cases read
    rfl
  | cons c rest =>
    obtain none | same := padded
    · cases none
    · cases same
      rw [strictFrom, if_pos rfl] at read
      split at read
      · split at read
        · split at read <;> cases read
          rfl
        · exact strictFrom_padded read
      · exact strictFrom_padded read

theorem strict_whole {text : List Char} :
    (∃ bytes, strict text = some bytes ∧ bytes.length = 32) ↔ Whole text := by
  constructor
  · rintro ⟨bytes, read, length⟩
    rw [strict] at read
    split at read
    · cases read
    have known := strictFrom_known read
    have letters : ∀ c ∈ text.takeWhile (· ≠ '='), c ∈ alphabet := by
      intro c inside
      have apart := List.mem_takeWhile_imp inside
      exact known c ((List.takeWhile_prefix _).subset inside) (by simpa using apart)
    have padded : (text.dropWhile (· ≠ '=')).head? = none ∨
        (text.dropWhile (· ≠ '=')).head? = some '=' := by
      cases rest : text.dropWhile (· ≠ '=') with
      | nil => exact .inl rfl
      | cons c more =>
        have stops := List.head?_dropWhile_not (· ≠ '=') text
        rw [rest] at stops
        exact .inr (by simpa using stops)
    obtain ⟨left, out, count, same⟩ := @strictFrom_letters _ (text.dropWhile (· ≠ '='))
      letters 0 (by omega) 0
    rw [List.takeWhile_append_dropWhile, read] at same
    obtain ⟨last, tail, rfl⟩ := Option.map_eq_some_iff.mp same.symm
    rw [strictFrom_tail padded tail, List.append_nil] at length
    have whole : (text.takeWhile (· ≠ '=')).length = 43 := by omega
    refine ⟨text.takeWhile (· ≠ '='), ?_, whole, letters⟩
    rw [whole] at tail
    cases rest : text.dropWhile (· ≠ '=') with
    | nil =>
      rw [rest] at tail
      cases tail
    | cons c more =>
      rw [rest] at tail padded
      obtain none | same := padded
      · cases none
      · cases same
        rw [strictFrom, if_pos rfl, if_pos (by decide), if_pos (by decide)] at tail
        split at tail
        next none =>
          rw [← none, ← rest, List.takeWhile_append_dropWhile]
        · cases tail
  · rintro ⟨body, rfl, length, known⟩
    obtain ⟨left, out, count, same⟩ := @strictFrom_letters _ ['='] known 0 (by omega) 0
    refine ⟨out, ?_, by omega⟩
    rw [strict, if_neg, same, length]
    · show (some []).map (out ++ ·) = some out
      rw [Option.map_some, List.append_nil]
    · cases body with
      | nil => cases length
      | cons c rest =>
        rintro ⟨⟩
        exact padding_not_mem (known '=' List.mem_cons_self)

/-- The text of 32 bytes. -/
theorem encode_whole {bytes : List ℕ} (length : bytes.length = 32) : Whole (encode bytes) := by
  have tail : ∀ n (bytes : List ℕ), bytes.length = 3 * n + 2 → ∃ body,
      encode bytes = body ++ ['='] ∧ body.length = 4 * n + 3 ∧ ∀ c ∈ body, c ∈ alphabet := by
    intro n
    induction n with
    | zero =>
      intro bytes length
      obtain ⟨a, b, rfl⟩ := List.length_eq_two.mp length
      refine ⟨[letter _, letter _, letter _], rfl, rfl, ?_⟩
      simp only [List.mem_cons, List.not_mem_nil, or_false, forall_eq_or_imp, forall_eq]
      exact ⟨letter_mem _, letter_mem _, letter_mem _⟩
    | succ n ih =>
      intro bytes length
      obtain ⟨a, b, c, rest, rfl⟩ : ∃ a b c rest, bytes = a :: b :: c :: rest := by
        match bytes, length with
        | a :: b :: c :: rest, _ => exact ⟨a, b, c, rest, rfl⟩
      obtain ⟨body, same, count, known⟩ := ih rest (by simp only [List.length_cons] at length; omega)
      rw [encode, same]
      refine ⟨_ :: _ :: _ :: _ :: body, rfl, ?_, ?_⟩
      · simp only [List.length_cons]
        omega
      · simp only [List.mem_cons, forall_eq_or_imp]
        exact ⟨letter_mem _, letter_mem _, letter_mem _, letter_mem _, known⟩
  exact tail 10 bytes length

theorem letter_ne (n : ℕ) : letter n ≠ '=' := fun same => padding_not_mem (same ▸ letter_mem n)

theorem value_letter (n : ℕ) : value (letter n) = some (n % 64) := by
  have each : ∀ k < 64, value (letter k) = some k := by decide
  have here := each (n % 64) (Nat.mod_lt n (by decide))
  rwa [letter, Nat.mod_mod] at here

/-- A letter whose bits do not fill a byte yet. -/
theorem decodeFrom_held {group bits n : ℕ} (few : bits < 2) (rest : List Char) :
    decodeFrom group bits (letter n :: rest) =
      decodeFrom ((group * 64 + n % 64) % 2 ^ 32) (bits + 6) rest := by
  rw [decodeFrom, value_letter]
  dsimp only [Option.bind_eq_bind, Option.bind_some]
  rw [if_neg (by omega)]

/-- A letter that ends a byte. -/
theorem decodeFrom_byte {group bits n : ℕ} (enough : 2 ≤ bits) (rest : List Char) :
    decodeFrom group bits (letter n :: rest) =
      (decodeFrom ((group * 64 + n % 64) % 2 ^ 32) (bits - 2) rest).map
        ((group * 64 + n % 64) % 2 ^ 32 / 2 ^ (bits - 2) % 256 :: ·) := by
  rw [decodeFrom, value_letter]
  dsimp only [Option.bind_eq_bind, Option.bind_some]
  rw [if_pos (by omega), show bits + 6 - 8 = bits - 2 by omega]
  cases decodeFrom ((group * 64 + n % 64) % 2 ^ 32) (bits - 2) rest <;> rfl

/-- Letters of a text, before its padding. -/
def letters : List ℕ → List Char
  | [] => []
  | [a] => [letter (a * 65536 / 262144), letter (a * 65536 / 4096)]
  | [a, b] =>
    [letter ((a * 65536 + b * 256) / 262144), letter ((a * 65536 + b * 256) / 4096),
      letter ((a * 65536 + b * 256) / 64)]
  | a :: b :: c :: rest =>
    letter ((a * 65536 + b * 256 + c) / 262144) :: letter ((a * 65536 + b * 256 + c) / 4096) ::
      letter ((a * 65536 + b * 256 + c) / 64) :: letter (a * 65536 + b * 256 + c) :: letters rest

theorem letters_known (bytes : List ℕ) : ∀ c ∈ letters bytes, c ∈ alphabet := by
  fun_induction letters bytes with
  | case1 => simp
  | case2 => simp [letter_mem]
  | case3 => simp [letter_mem]
  | case4 a b c rest ih =>
    simp only [List.mem_cons, forall_eq_or_imp]
    exact ⟨letter_mem _, letter_mem _, letter_mem _, letter_mem _, ih⟩

theorem encode_eq (bytes : List ℕ) :
    ∃ pads, encode bytes = letters bytes ++ List.replicate pads '=' := by
  fun_induction letters bytes with
  | case1 => exact ⟨0, rfl⟩
  | case2 => exact ⟨2, rfl⟩
  | case3 => exact ⟨1, rfl⟩
  | case4 a b c rest ih =>
    obtain ⟨pads, same⟩ := ih
    refine ⟨pads, ?_⟩
    rw [encode, same]
    rfl

theorem trimEnd_letters (body : List Char) (known : ∀ c ∈ body, c ∈ alphabet) (pads : ℕ) :
    trimEnd (· == '=') (body ++ List.replicate pads '=') = body := by
  induction pads with
  | zero =>
    rw [List.replicate_zero, List.append_nil, trimEnd, List.rdropWhile_eq_self_iff]
    intro nonempty last
    have inside := known _ (List.getLast_mem nonempty)
    rw [beq_iff_eq.mp last] at inside
    exact padding_not_mem inside
  | succ pads ih =>
    rw [List.replicate_succ', ← List.append_assoc, trimEnd, List.rdropWhile_concat_pos]
    · exact ih
    · rfl

/-- The decoder reads back what was encoded, whatever the bits of the group above the read ones. -/
theorem decodeFrom_letters (bytes : List ℕ) (small : ∀ b ∈ bytes, b < 256) (group : ℕ) :
    decodeFrom group 0 (letters bytes) = some bytes := by
  fun_induction letters bytes generalizing group with
  | case1 => rfl
  | case2 a =>
    have := small a (by simp)
    rw [decodeFrom_held (by omega), decodeFrom_byte (by omega), decodeFrom, Option.map_some]
    congr 2
    omega
  | case3 a b =>
    have := small a (by simp)
    have := small b (by simp)
    rw [decodeFrom_held (by omega), decodeFrom_byte (by omega), decodeFrom_byte (by omega),
      decodeFrom, Option.map_some, Option.map_some]
    congr 2
    · omega
    · congr 1
      omega
  | case4 a b c rest ih =>
    have := small a (by simp)
    have := small b (by simp)
    have := small c (by simp)
    rw [decodeFrom_held (by omega), decodeFrom_byte (by omega), decodeFrom_byte (by omega),
      decodeFrom_byte (by omega), ih fun d inside => small d (by simp [inside]),
      Option.map_some, Option.map_some, Option.map_some]
    congr 2
    · omega
    · congr 1
      · omega
      · congr 1
        omega

theorem decode_encode (bytes : List ℕ) (small : ∀ b ∈ bytes, b < 256) :
    decode (encode bytes) = some bytes := by
  obtain ⟨pads, same⟩ := encode_eq bytes
  rw [decode, same, trimEnd_letters _ (letters_known bytes), decodeFrom_letters bytes small]

end Base64
end Library
