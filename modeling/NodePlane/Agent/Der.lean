import NodePlane.Agent.Readings
import NodePlane.Library.Base64
import Mathlib.Data.Nat.Digits.Lemmas

/-! The PEM, DER and base64 that enrollment reads: the texts give back what was written, the
reader of elements stays inside its input, and the key of a certificate is found. -/
namespace NodePlane
namespace Enrollment
open Library

def base64 (data : List UInt8) : String := String.ofList (Base64.encode (data.map UInt8.toNat))

def unbase64 (text : String) : Option (List UInt8) :=
  (Base64.decode text.toList).map (List.map Nat.toUInt8)

/-- `chunks(n)`. -/
def chunks (n : ℕ) (text : List Char) : List (List Char) :=
  if text = [] ∨ n = 0 then [] else text.take n :: chunks n (text.drop n)
  termination_by text.length
  decreasing_by
    rw [List.length_drop]
    have := List.length_pos_iff.mpr (show text ≠ [] by tauto)
    omega

def beginLine (label : String) : List Char := ("-----BEGIN " ++ label ++ "-----").toList

def endLine (label : String) : List Char := ("-----END " ++ label ++ "-----").toList

def pem (label : String) (der : List UInt8) : String :=
  String.ofList
    (beginLine label ++ '\n' :: ((chunks 64 (base64 der).toList).flatMap fun line => line ++ ['\n']) ++
      endLine label ++ ['\n'])

/-- The text up to the first place where `pattern` stands, and what follows it. -/
def find (pattern : List Char) : List Char → Option (List Char × List Char)
  | [] => if pattern = [] then some ([], []) else none
  | c :: rest =>
    if pattern.isPrefixOf (c :: rest) then some ([], (c :: rest).drop pattern.length)
    else (find pattern rest).map fun found => (c :: found.1, found.2)

/-- The first `label` block of a PEM text. -/
def unpem (label : String) (text : String) : Option (List UInt8) := do
  let (_, started) ← find (beginLine label) text.toList
  let (body, _) ← find (endLine label) started
  unbase64 (String.ofList (body.filter fun c => !Readings.whitespace c))

/-- Why nothing is read: the bytes are not that, or a slice beyond the input, which panics. -/
inductive Stop
  | malformed
  | outOfBounds
  deriving DecidableEq, Repr

/-- A DER element's tag, the whole element, its content and what follows. -/
structure Element where
  tag : UInt8
  whole : List UInt8
  content : List UInt8
  rest : List UInt8
  deriving DecidableEq, Repr

def splitFirst : List UInt8 → Except Stop (UInt8 × List UInt8)
  | [] => .error .malformed
  | byte :: rest => .ok (byte, rest)

/-- `&data[..n]`. -/
def upTo (data : List UInt8) (n : ℕ) : Except Stop (List UInt8) :=
  if n ≤ data.length then .ok (data.take n) else .error .outOfBounds

/-- `&data[n..]`. -/
def past (data : List UInt8) (n : ℕ) : Except Stop (List UInt8) :=
  if n ≤ data.length then .ok (data.drop n) else .error .outOfBounds

/-- `a - b` of two lengths. -/
def minus (a b : ℕ) : Except Stop ℕ := if b ≤ a then .ok (a - b) else .error .outOfBounds

/-- A length of several bytes, as a `usize` of 64 bits. -/
def lengthOf (bytes : List UInt8) : ℕ :=
  bytes.foldl (fun length byte => length <<< 8 % 2 ^ 64 ||| byte.toNat) 0

/-- The length a header gives, and what follows the header. -/
def lengthField (first : UInt8) (rest : List UInt8) : Except Stop (ℕ × List UInt8) :=
  if first < 0x80 then .ok (first.toNat, rest)
  else
    let count := (first &&& 0x7f).toNat
    if count = 0 ∨ 4 < count ∨ rest.length < count then .error .malformed
    else do
      let bytes ← upTo rest count
      let rest ← past rest count
      return (lengthOf bytes, rest)

def element (data : List UInt8) : Except Stop Element := do
  let (tag, rest) ← splitFirst data
  let (first, rest) ← splitFirst rest
  let (length, rest) ← lengthField first rest
  if rest.length < length then throw .malformed
  let header ← minus data.length rest.length
  let whole ← upTo data (header + length)
  let content ← upTo rest length
  let rest ← past rest length
  return ⟨tag, whole, content, rest⟩

/-- An element that must have the tag. -/
def tagged (expected : UInt8) (data : List UInt8) : Except Stop Element := do
  let read ← element data
  if read.tag ≠ expected then throw .malformed
  return read

/-- Steps over elements with the given tags. -/
def skip : List UInt8 → List UInt8 → Except Stop (List UInt8)
  | [], fields => .ok fields
  | expected :: later, fields => do
    let read ← tagged expected fields
    skip later read.rest

/-- The fields after the version, which is optional. -/
def unversioned (fields : List UInt8) : Except Stop (List UInt8) :=
  if fields.head? = some 0xa0 then do
    let version ← element fields
    return version.rest
  else .ok fields

/-- The SubjectPublicKeyInfo element of a DER certificate: after an optional version come serial,
signature, issuer, validity and subject, then the key. -/
def certificateKey (der : List UInt8) : Except Stop (List UInt8) := do
  let certificate ← tagged 0x30 der
  let body ← tagged 0x30 certificate.content
  let fields ← unversioned body.content
  let fields ← skip [0x02, 0x30, 0x30, 0x30, 0x30] fields
  let key ← tagged 0x30 fields
  return key.whole

/-! The texts. -/

theorem unbase64_base64 (data : List UInt8) : unbase64 (base64 data) = some data := by
  have small : ∀ b ∈ data.map UInt8.toNat, b < 256 := by
    intro b member
    obtain ⟨byte, -, rfl⟩ := List.mem_map.mp member
    exact byte.toNat_lt
  rw [unbase64, base64, String.toList_ofList, Base64.decode_encode _ small, Option.map_some,
    List.map_map]
  congr 1
  conv_rhs => rw [← List.map_id data]
  apply List.map_congr_left
  intro byte _
  exact UInt8.ofNat_toNat

theorem find_here (pattern rest : List Char) : find pattern (pattern ++ rest) = some ([], rest) := by
  cases text : pattern ++ rest with
  | nil =>
    obtain ⟨rfl, rfl⟩ := List.append_eq_nil_iff.mp text
    rfl
  | cons c more =>
    have first : pattern.isPrefixOf (c :: more) = true := by
      rw [List.isPrefixOf_iff_prefix, ← text]
      exact List.prefix_append pattern rest
    rw [find, if_pos first, ← text, List.drop_left]

/-- Text without the pattern's first letter is passed over. -/
theorem find_past {c : Char} {pattern before : List Char} (apart : c ∉ before) (rest : List Char) :
    find (c :: pattern) (before ++ (c :: pattern ++ rest)) = some (before, rest) := by
  induction before with
  | nil => exact find_here (c :: pattern) rest
  | cons d before ih =>
    rw [List.mem_cons, not_or] at apart
    have other : ¬(c :: pattern).isPrefixOf (d :: (before ++ (c :: pattern ++ rest))) = true := by
      rw [List.isPrefixOf_iff_prefix, List.cons_prefix_cons]
      exact fun both => apart.1 both.1
    rw [List.cons_append, find, if_neg other, ih apart.2]
    rfl

theorem chunks_flatten (n : ℕ) (positive : 0 < n) (text : List Char) :
    (chunks n text).flatten = text := by
  fun_induction chunks n text with
  | case1 text none =>
    rcases none with rfl | zero
    · rfl
    · omega
  | case2 text some ih => rw [List.flatten_cons, ih, List.take_append_drop]

/-- What base64 writes: letters and padding. -/
theorem base64_letters (data : List UInt8) :
    ∀ c ∈ (base64 data).toList, c ∈ '=' :: Base64.alphabet := by
  rw [base64, String.toList_ofList]
  obtain ⟨pads, same⟩ := Base64.encode_eq (data.map UInt8.toNat)
  intro c member
  rw [same, List.mem_append] at member
  rcases member with letter | pad
  · exact List.mem_cons_of_mem _ (Base64.letters_known _ c letter)
  · rw [List.eq_of_mem_replicate pad]
    exact List.mem_cons_self

private theorem letter_plain :
    ∀ c ∈ '=' :: Base64.alphabet, c ≠ '-' ∧ Readings.whitespace c = false := by
  have each : ('=' :: Base64.alphabet).all (fun c => c != '-' && !Readings.whitespace c) = true := by
    decide
  intro c listed
  simpa using List.all_eq_true.mp each c listed

/-- Lines without white space, joined by line breaks, read as one. -/
theorem lines_joined {lines : List (List Char)}
    (plain : ∀ line ∈ lines, ∀ c ∈ line, Readings.whitespace c = false) :
    (lines.flatMap fun line => line ++ ['\n']).filter (fun c => !Readings.whitespace c) =
      lines.flatten := by
  induction lines with
  | nil => rfl
  | cons line lines ih =>
    obtain ⟨here, later⟩ := List.forall_mem_cons.mp plain
    have kept : line.filter (fun c => !Readings.whitespace c) = line := by
      rw [List.filter_eq_self]
      intro c member
      rw [here c member]
      rfl
    have break' : ['\n'].filter (fun c => !Readings.whitespace c) = [] := by decide
    rw [List.flatMap_cons, List.filter_append, List.filter_append, kept, break', List.append_nil,
      ih later, List.flatten_cons]

/-- A PEM block is read back, whatever its label and what follows it. -/
theorem unpem_pem (label : String) (data : List UInt8) (after : String) :
    unpem label (pem label data ++ after) = some data := by
  have whole := chunks_flatten 64 (by omega) (base64 data).toList
  have letters : ∀ line ∈ chunks 64 (base64 data).toList, ∀ c ∈ line,
      c ≠ '-' ∧ Readings.whitespace c = false := by
    intro line listed c member
    apply letter_plain
    apply base64_letters data
    rw [← whole]
    exact List.mem_flatten.mpr ⟨line, listed, member⟩
  have apart : '-' ∉ '\n' :: (chunks 64 (base64 data).toList).flatMap fun line => line ++ ['\n'] := by
    rw [List.mem_cons, not_or]
    refine ⟨by decide, ?_⟩
    intro member
    obtain ⟨line, listed, inside⟩ := List.mem_flatMap.mp member
    rcases List.mem_append.mp inside with letter | newline
    · exact (letters line listed '-' letter).1 rfl
    · exact absurd newline (by decide)
  have dash : ∃ more, endLine label = '-' :: more := by
    refine ⟨("----END " ++ label ++ "-----").toList, ?_⟩
    rw [endLine, String.toList_append, String.toList_append, String.toList_append,
      String.toList_append]
    rfl
  obtain ⟨more, dash⟩ := dash
  have text : (pem label data ++ after).toList = beginLine label ++
      (('\n' :: (chunks 64 (base64 data).toList).flatMap fun line => line ++ ['\n']) ++
        (endLine label ++ '\n' :: after.toList)) := by
    rw [pem, String.toList_append, String.toList_ofList]
    simp
  have newline : Readings.whitespace '\n' = true := by decide
  rw [unpem, text, find_here, dash]
  dsimp only [Option.bind_eq_bind, Option.bind_some]
  rw [find_past apart]
  dsimp only [Option.bind_some]
  rw [List.filter_cons, newline, if_neg (by decide),
    lines_joined fun line listed c member => (letters line listed c member).2, whole,
    String.ofList_toList, unbase64_base64]

/-! The reader of elements. -/

theorem splitFirst_ok {data rest : List UInt8} {byte : UInt8} :
    splitFirst data = .ok (byte, rest) ↔ data = byte :: rest := by
  cases data <;> simp [splitFirst]

theorem splitFirst_inside (data : List UInt8) : splitFirst data ≠ .error .outOfBounds := by
  cases data <;> simp [splitFirst]

theorem upTo_inside {data : List UInt8} {n : ℕ} (inside : n ≤ data.length) :
    upTo data n = .ok (data.take n) := if_pos inside

theorem past_inside {data : List UInt8} {n : ℕ} (inside : n ≤ data.length) :
    past data n = .ok (data.drop n) := if_pos inside

theorem minus_inside {a b : ℕ} (inside : b ≤ a) : minus a b = .ok (a - b) := if_pos inside

/-- The length field takes bytes off the front and reads nothing beyond them. -/
theorem lengthField_cases (first : UInt8) (rest : List UInt8) :
    lengthField first rest = .error .malformed ∨
      ∃ length used later, lengthField first rest = .ok (length, later) ∧ rest = used ++ later := by
  unfold lengthField
  split
  · exact .inr ⟨_, [], rest, rfl, rfl⟩
  · dsimp only
    split
    · exact .inl rfl
    next fits =>
      have inside : (first &&& 0x7f).toNat ≤ rest.length := by omega
      rw [upTo_inside inside, past_inside inside]
      exact .inr ⟨_, _, _, rfl, (List.take_append_drop _ rest).symm⟩

/-- An element is the front of what was read: its content ends it, and the rest follows. -/
structure Element.Of (data : List UInt8) (read : Element) : Prop where
  whole : read.whole ++ read.rest = data
  content : ∃ used, read.whole = read.tag :: used ++ read.content

/-- What the reader makes of a header whose length is there. -/
theorem element_read (tag first : UInt8) {used later : List UInt8} {length : ℕ}
    (read : lengthField first (used ++ later) = .ok (length, later)) (fits : length ≤ later.length) :
    element (tag :: first :: (used ++ later)) =
      .ok ⟨tag, tag :: first :: used ++ later.take length, later.take length, later.drop length⟩ := by
  have total : (tag :: first :: (used ++ later)).length =
      (tag :: first :: used).length + later.length := by
    simp only [List.length_cons, List.length_append]
    omega
  have header : (tag :: first :: (used ++ later)).length - later.length =
      (tag :: first :: used).length := by omega
  have front : tag :: first :: (used ++ later) = (tag :: first :: used) ++ later := rfl
  unfold element
  dsimp only [splitFirst, bind, Except.bind, pure, Except.pure]
  rw [read]
  dsimp only
  rw [if_neg (by omega), minus_inside (by omega)]
  dsimp only
  rw [upTo_inside (by omega), upTo_inside fits, past_inside fits]
  dsimp only
  rw [header, front, List.take_length_add_append]

/-- The reader ends with an element of its input or finds it malformed; it never slices beyond. -/
theorem element_cases (data : List UInt8) :
    element data = .error .malformed ∨ ∃ read, element data = .ok read ∧ read.Of data := by
  cases data with
  | nil => exact .inl rfl
  | cons tag rest =>
    cases rest with
    | nil => exact .inl rfl
    | cons first rest =>
      obtain malformed | ⟨length, used, later, read, rfl⟩ := lengthField_cases first rest
      · left
        unfold element
        dsimp only [splitFirst, bind, Except.bind, pure, Except.pure]
        rw [malformed]
      · by_cases fits : length ≤ later.length
        · refine .inr ⟨_, element_read tag first read fits, ?_, first :: used, rfl⟩
          dsimp only
          rw [List.append_assoc, List.take_append_drop]
          rfl
        · left
          unfold element
          dsimp only [splitFirst, bind, Except.bind, pure, Except.pure]
          rw [read]
          dsimp only
          rw [if_pos (by omega)]
          rfl

theorem element_of {data : List UInt8} {read : Element} (ok : element data = .ok read) :
    read.Of data := by
  obtain malformed | ⟨same, found, of⟩ := element_cases data
  · rw [malformed] at ok
    cases ok
  · rw [found] at ok
    rwa [← Except.ok.inj ok]

theorem tagged_cases (expected : UInt8) (data : List UInt8) :
    tagged expected data = .error .malformed ∨
      ∃ read, tagged expected data = .ok read ∧ element data = .ok read ∧ read.tag = expected := by
  unfold tagged
  obtain malformed | ⟨read, found, -⟩ := element_cases data
  · rw [malformed]
    exact .inl rfl
  · rw [found]
    dsimp only [bind, Except.bind, pure, Except.pure]
    split
    · exact .inl rfl
    next same => exact .inr ⟨read, rfl, rfl, not_not.mp same⟩

theorem Element.Of.rest_part {data : List UInt8} {read : Element} (of : read.Of data) :
    read.rest <:+: data := by
  rw [← of.whole]
  exact (List.suffix_append _ _).isInfix

theorem Element.Of.content_part {data : List UInt8} {read : Element} (of : read.Of data) :
    read.content <:+: data := by
  obtain ⟨used, whole⟩ := of.content
  rw [← of.whole, whole]
  exact ⟨read.tag :: used, read.rest, rfl⟩

theorem Element.Of.whole_part {data : List UInt8} {read : Element} (of : read.Of data) :
    read.whole <:+: data := by
  rw [← of.whole]
  exact (List.prefix_append _ _).isInfix

theorem skip_cases (tags fields : List UInt8) :
    skip tags fields = .error .malformed ∨
      ∃ later, skip tags fields = .ok later ∧ later <:+: fields := by
  induction tags generalizing fields with
  | nil => exact .inr ⟨fields, rfl, List.infix_rfl⟩
  | cons expected tags ih =>
    obtain malformed | ⟨read, found, of, -⟩ := tagged_cases expected fields
    · rw [skip, malformed]
      exact .inl rfl
    · rw [skip, found]
      dsimp only [bind, Except.bind]
      obtain malformed | ⟨later, found, inside⟩ := ih read.rest
      · exact .inl malformed
      · exact .inr ⟨later, found, inside.trans (element_of of).rest_part⟩

theorem unversioned_cases (fields : List UInt8) :
    unversioned fields = .error .malformed ∨
      ∃ later, unversioned fields = .ok later ∧ later <:+: fields := by
  unfold unversioned
  split
  · obtain malformed | ⟨read, found, of⟩ := element_cases fields
    · rw [malformed]
      exact .inl rfl
    · rw [found]
      exact .inr ⟨_, rfl, of.rest_part⟩
  · exact .inr ⟨fields, rfl, List.infix_rfl⟩

/-- The key that is returned is an element inside the certificate; nothing beyond is read. -/
theorem certificateKey_cases (der : List UInt8) :
    certificateKey der = .error .malformed ∨
      ∃ key, certificateKey der = .ok key ∧ key <:+: der ∧
        ∃ fields read, element fields = .ok read ∧ read.tag = 0x30 ∧ read.whole = key := by
  obtain malformed | ⟨certificate, found, outer, -⟩ := tagged_cases 0x30 der
  · rw [certificateKey, malformed]
    exact .inl rfl
  rw [certificateKey, found]
  dsimp only [bind, Except.bind]
  obtain malformed | ⟨body, found, inner, -⟩ := tagged_cases 0x30 certificate.content
  · rw [malformed]
    exact .inl rfl
  rw [found]
  dsimp only
  have nested : body.content <:+: der :=
    (element_of inner).content_part.trans (element_of outer).content_part
  obtain malformed | ⟨fields, found, inside⟩ := unversioned_cases body.content
  · rw [malformed]
    exact .inl rfl
  · rw [found]
    dsimp only
    obtain malformed | ⟨later, found, behind⟩ := skip_cases [0x02, 0x30, 0x30, 0x30, 0x30] fields
    · rw [malformed]
      exact .inl rfl
    · rw [found]
      dsimp only
      obtain malformed | ⟨key, found, of, tag⟩ := tagged_cases 0x30 later
      · rw [malformed]
        exact .inl rfl
      · rw [found]
        refine .inr ⟨key.whole, rfl, ?_, later, key, of, tag, rfl⟩
        exact (element_of of).whole_part.trans (behind.trans (inside.trans nested))

/-! Well-formed certificates. -/

/-- The bytes of a length, most significant first, as few as there are. -/
def octets (n : ℕ) : List UInt8 := (Nat.digits 256 n).reverse.map Nat.toUInt8

/-- How a length is encoded. -/
def lengthBytes (n : ℕ) : List UInt8 :=
  if n < 128 then [n.toUInt8] else (128 + (octets n).length).toUInt8 :: octets n

/-- An encoded element. -/
def encoded (tag : UInt8) (content : List UInt8) : List UInt8 :=
  tag :: lengthBytes content.length ++ content

/-- A certificate by the contents of its fields; `extensions` follow the key and `signature` the
signed body. -/
structure Certificate where
  version : Option (List UInt8)
  serial : List UInt8
  algorithm : List UInt8
  issuer : List UInt8
  validity : List UInt8
  subject : List UInt8
  key : List UInt8
  extensions : List UInt8
  signature : List UInt8

namespace Certificate

/-- The encoded subject public key. -/
def keyInfo (certificate : Certificate) : List UInt8 := encoded 0x30 certificate.key

/-- The fields after the version. -/
def fields (certificate : Certificate) : List UInt8 :=
  encoded 0x02 certificate.serial ++ (encoded 0x30 certificate.algorithm ++
    (encoded 0x30 certificate.issuer ++ (encoded 0x30 certificate.validity ++
      (encoded 0x30 certificate.subject ++ (certificate.keyInfo ++ certificate.extensions)))))

def body (certificate : Certificate) : List UInt8 :=
  match certificate.version with
  | none => certificate.fields
  | some version => encoded 0xa0 version ++ certificate.fields

/-- What the outer element holds. -/
def content (certificate : Certificate) : List UInt8 :=
  encoded 0x30 certificate.body ++ certificate.signature

def encode (certificate : Certificate) : List UInt8 := encoded 0x30 certificate.content

end Certificate

theorem lengthOf_digits (digits : List ℕ) (small : ∀ d ∈ digits, d < 256)
    (short : Nat.ofDigits 256 digits < 2 ^ 32) :
    lengthOf (digits.reverse.map Nat.toUInt8) = Nat.ofDigits 256 digits := by
  rw [lengthOf, List.foldl_map, List.foldl_reverse]
  induction digits with
  | nil => rfl
  | cons d digits ih =>
    obtain ⟨here, later⟩ := List.forall_mem_cons.mp small
    rw [Nat.ofDigits_cons] at short ⊢
    have low : d.toUInt8.toNat = d := UInt8.toNat_ofNat_of_lt' here
    rw [List.foldr_cons, ih later (by omega), low, Nat.mod_eq_of_lt (by rw [Nat.shiftLeft_eq]; omega),
      ← Nat.shiftLeft_add_eq_or_of_lt (by omega), Nat.shiftLeft_eq]
    push_cast
    omega

theorem lengthOf_octets {n : ℕ} (short : n < 2 ^ 32) : lengthOf (octets n) = n := by
  have value : Nat.ofDigits 256 (Nat.digits 256 n) = n := Nat.ofDigits_digits 256 n
  rw [octets, lengthOf_digits _ (fun d member => Nat.digits_lt_base (by omega) member) (by omega),
    value]

theorem octets_length (n : ℕ) : (octets n).length = (Nat.digits 256 n).length := by
  rw [octets, List.length_map, List.length_reverse]

/-- The first byte of a long length holds the count of the others. -/
theorem long_first {count : ℕ} (few : count ≤ 127) :
    ¬(128 + count).toUInt8 < 0x80 ∧ ((128 + count).toUInt8 &&& 0x7f).toNat = count := by
  have table : ((List.range 128).all fun count => !decide ((128 + count).toUInt8 < 0x80) &&
      ((128 + count).toUInt8 &&& 0x7f).toNat == count) = true := by decide
  have here := List.all_eq_true.mp table count (List.mem_range.mpr (by omega))
  simpa using here

/-- A length below 2³² is read back. -/
theorem lengthField_bytes {n : ℕ} (short : n < 2 ^ 32) :
    ∃ first used, lengthBytes n = first :: used ∧
      ∀ later, lengthField first (used ++ later) = .ok (n, later) := by
  unfold lengthBytes
  split
  next small =>
    refine ⟨n.toUInt8, [], rfl, ?_⟩
    intro later
    have value : n.toUInt8.toNat = n := UInt8.toNat_ofNat_of_lt' (show n < 256 by omega)
    have low : n.toUInt8 < 0x80 := by
      rw [UInt8.lt_iff_toNat_lt, value]
      exact small
    rw [lengthField, if_pos low, value]
    rfl
  next long =>
    have count : (octets n).length ≤ 4 := by
      rw [octets_length, Nat.digits_length_le_iff (by omega)]
      exact short
    have some : (octets n).length ≠ 0 := by
      rw [octets_length, Ne, List.length_eq_zero_iff, Nat.digits_eq_nil_iff_eq_zero]
      omega
    refine ⟨_, octets n, rfl, ?_⟩
    intro later
    obtain ⟨high, low⟩ := long_first (show (octets n).length ≤ 127 by omega)
    rw [lengthField, if_neg high]
    dsimp only
    rw [low, if_neg (by rw [List.length_append]; omega), upTo_inside (by simp),
      past_inside (by simp),
      List.take_left, List.drop_left]
    show Except.ok (lengthOf (octets n), later) = _
    rw [lengthOf_octets short]

/-- An encoded element below 2³² bytes is read back, with what follows it. -/
theorem element_encoded (tag : UInt8) {content : List UInt8} (short : content.length < 2 ^ 32)
    (rest : List UInt8) :
    element (encoded tag content ++ rest) = .ok ⟨tag, encoded tag content, content, rest⟩ := by
  obtain ⟨first, used, bytes, read⟩ := lengthField_bytes short
  have whole := element_read tag first (read (content ++ rest))
    (by rw [List.length_append]; exact Nat.le_add_right _ _)
  rw [List.take_left, List.drop_left] at whole
  rw [encoded, bytes]
  simpa using whole

theorem tagged_encoded (tag : UInt8) {content : List UInt8} (short : content.length < 2 ^ 32)
    (rest : List UInt8) :
    tagged tag (encoded tag content ++ rest) = .ok ⟨tag, encoded tag content, content, rest⟩ := by
  rw [tagged, element_encoded tag short]
  dsimp only [bind, Except.bind, pure, Except.pure]
  rw [if_neg (by simp)]

theorem skip_encoded (tag : UInt8) {content : List UInt8} (short : content.length < 2 ^ 32)
    (tags rest : List UInt8) : skip (tag :: tags) (encoded tag content ++ rest) = skip tags rest := by
  rw [skip, tagged_encoded tag short]
  rfl

theorem encoded_length (tag : UInt8) (content : List UInt8) :
    content.length ≤ (encoded tag content).length := by
  rw [encoded, List.length_append]
  exact Nat.le_add_left _ _

namespace Certificate
variable {certificate : Certificate}

theorem fields_length (certificate : Certificate) :
    certificate.fields.length ≤ certificate.body.length := by
  unfold body
  split
  · exact Nat.le_refl _
  · rw [List.length_append]
    exact Nat.le_add_left _ _

/-- The fields of a certificate that is short enough are stepped over up to the key. -/
theorem skip_fields (short : certificate.fields.length < 2 ^ 32) :
    skip [0x02, 0x30, 0x30, 0x30, 0x30] certificate.fields =
        .ok (certificate.keyInfo ++ certificate.extensions) ∧ certificate.key.length < 2 ^ 32 := by
  have serial := encoded_length 0x02 certificate.serial
  have algorithm := encoded_length 0x30 certificate.algorithm
  have issuer := encoded_length 0x30 certificate.issuer
  have validity := encoded_length 0x30 certificate.validity
  have subject := encoded_length 0x30 certificate.subject
  have key := encoded_length 0x30 certificate.key
  have total := short
  rw [fields, keyInfo] at total
  simp only [List.length_append] at total
  constructor
  · rw [fields, skip_encoded _ (by omega), skip_encoded _ (by omega), skip_encoded _ (by omega),
      skip_encoded _ (by omega), skip_encoded _ (by omega)]
    rfl
  · omega

/-- The version, when there is one, is stepped over; the fields themselves start otherwise. -/
theorem fields_start (certificate : Certificate) : certificate.fields.head? = some 0x02 := rfl

/-- The key of a certificate below 2³² bytes is found, with anything behind the certificate. -/
theorem key_found (short : certificate.content.length < 2 ^ 32) (trailing : List UInt8) :
    certificateKey (certificate.encode ++ trailing) = .ok certificate.keyInfo := by
  have inner : certificate.body.length < 2 ^ 32 := by
    have := encoded_length 0x30 certificate.body
    rw [content, List.length_append] at short
    omega
  obtain ⟨stepped, key⟩ := skip_fields (Nat.lt_of_le_of_lt (fields_length certificate) inner)
  have start : unversioned certificate.body = .ok certificate.fields := by
    unfold body at inner ⊢
    split
    · rw [unversioned, fields_start, if_neg (by decide)]
    next version same =>
      have small : version.length < 2 ^ 32 := by
        have := encoded_length 0xa0 version
        rw [same, List.length_append] at inner
        omega
      have marked : (encoded 0xa0 version ++ certificate.fields).head? = some 0xa0 := rfl
      rw [unversioned, if_pos marked, element_encoded 0xa0 small]
      rfl
  rw [certificateKey, encode, tagged_encoded 0x30 short]
  dsimp only [bind, Except.bind]
  rw [content, tagged_encoded 0x30 inner]
  dsimp only
  rw [start]
  dsimp only
  rw [stepped]
  dsimp only
  rw [keyInfo, tagged_encoded 0x30 key]
  rfl

end Certificate

/-- A length of 2³² and more is refused. -/
theorem lengthField_long {n : ℕ} (long : 2 ^ 32 ≤ n) (short : n < 256 ^ 127) :
    ∃ first used, lengthBytes n = first :: used ∧
      ∀ later, lengthField first (used ++ later) = .error .malformed := by
  have many : 4 < (octets n).length := by
    rw [octets_length, ← Nat.not_le, Nat.digits_length_le_iff (by omega)]
    omega
  have few : (octets n).length ≤ 127 := by
    rw [octets_length, Nat.digits_length_le_iff (by omega)]
    exact short
  rw [lengthBytes, if_neg (by omega)]
  refine ⟨_, octets n, rfl, ?_⟩
  intro later
  obtain ⟨high, low⟩ := long_first few
  rw [lengthField, if_neg high]
  dsimp only
  rw [low, if_pos (.inr (.inl many))]

theorem element_long (tag : UInt8) {content : List UInt8} (long : 2 ^ 32 ≤ content.length)
    (short : content.length < 256 ^ 127) (rest : List UInt8) :
    element (encoded tag content ++ rest) = .error .malformed := by
  obtain ⟨first, used, bytes, read⟩ := lengthField_long long short
  have whole : encoded tag content ++ rest = tag :: first :: (used ++ (content ++ rest)) := by
    rw [encoded, bytes]
    simp
  rw [whole]
  unfold element
  dsimp only [splitFirst, bind, Except.bind]
  rw [read]

theorem lengthBytes_length {n k : ℕ} (short : n < 256 ^ k) : (lengthBytes n).length ≤ k + 1 := by
  unfold lengthBytes
  split
  · rw [List.length_singleton]
    omega
  · rw [List.length_cons, octets_length]
    have := (Nat.digits_length_le_iff (b := 256) (by omega) n).mpr short
    omega

/-- Texts give back what was written; the readers end inside their input, an element and what
follows it being the input; and the key of a certificate whose lengths fit four bytes is found,
exactly then. -/
theorem enrollment_reads :
    (∀ data, unbase64 (base64 data) = some data) ∧
      (∀ label data after, unpem label (pem label data ++ after) = some data) ∧
      (∀ data, element data ≠ .error .outOfBounds ∧
        ∀ read, element data = .ok read → read.whole ++ read.rest = data ∧
          ∃ used, read.whole = read.tag :: used ++ read.content) ∧
      (∀ der, certificateKey der ≠ .error .outOfBounds ∧
        ∀ key, certificateKey der = .ok key → key <:+: der ∧
          ∃ fields read, element fields = .ok read ∧ read.tag = 0x30 ∧ read.whole = key) ∧
      ∀ certificate : Certificate, certificate.content.length < 256 ^ 127 → ∀ trailing,
        (certificateKey (certificate.encode ++ trailing) = .ok certificate.keyInfo ↔
          certificate.content.length < 2 ^ 32) := by
  refine ⟨unbase64_base64, unpem_pem, ?_, ?_, ?_⟩
  · intro data
    obtain malformed | ⟨read, found, of⟩ := element_cases data
    · rw [malformed]
      exact ⟨by decide, fun read ok => by cases ok⟩
    · rw [found]
      refine ⟨by rintro ⟨⟩, ?_⟩
      rintro same ⟨⟩
      exact ⟨of.whole, of.content⟩
  · intro der
    obtain malformed | ⟨key, found, inside, last⟩ := certificateKey_cases der
    · rw [malformed]
      exact ⟨by decide, fun key ok => by cases ok⟩
    · rw [found]
      refine ⟨by rintro ⟨⟩, ?_⟩
      rintro same ⟨⟩
      exact ⟨inside, last⟩
  · intro certificate possible trailing
    constructor
    · intro found
      by_contra long
      rw [certificateKey, Certificate.encode, tagged,
        element_long 0x30 (Nat.not_lt.mp long) possible] at found
      cases found
    · intro short
      exact Certificate.key_found short trailing

theorem enrollment_reads_sample :
    certificateKey (Certificate.encode ⟨some [0x02, 0x01, 0x02], [7], [], [], [], [], [1, 2], [], []⟩) =
      .ok [0x30, 2, 1, 2] := by
  have found := (enrollment_reads.2.2.2.2
    ⟨some [0x02, 0x01, 0x02], [7], [], [], [], [], [1, 2], [], []⟩ (by decide) []).mpr
      (by decide)
  rwa [List.append_nil] at found

/-- A certificate with `n` bytes behind its key. -/
def Certificate.padded (n : ℕ) : Certificate :=
  ⟨none, [], [], [], [], [], [], List.replicate n 0, []⟩

theorem padded_refused {n : ℕ} (long : 2 ^ 32 ≤ n) (short : n < 2 ^ 40) :
    certificateKey (Certificate.padded n).encode ≠ .ok (Certificate.padded n).keyInfo := by
  have fields : (Certificate.padded n).body.length = n + 12 := by
    rw [Certificate.body, Certificate.padded, Certificate.fields, Certificate.keyInfo]
    simp only [List.length_append, List.length_replicate, encoded, lengthBytes, List.length_nil,
      List.length_cons, if_pos (show 0 < 128 by decide)]
    omega
  have above : 2 ^ 32 ≤ (Certificate.padded n).content.length := by
    have := encoded_length 0x30 (Certificate.padded n).body
    rw [Certificate.content, List.length_append]
    omega
  have below : (Certificate.padded n).content.length < 256 ^ 127 := by
    have header : (lengthBytes (Certificate.padded n).body.length).length ≤ 7 := by
      apply lengthBytes_length
      rw [fields]
      omega
    have total : (Certificate.padded n).content.length =
        (lengthBytes (Certificate.padded n).body.length).length +
          (Certificate.padded n).body.length + 1 := by
      rw [Certificate.content, encoded, show (Certificate.padded n).signature = [] from rfl,
        List.append_nil, List.length_append, List.length_cons]
      omega
    have room : 2 ^ 41 < 256 ^ 127 := by decide
    omega
  rw [certificateKey, Certificate.encode, tagged, ← List.append_nil (encoded _ _),
    element_long 0x30 above below]
  rintro ⟨⟩

/-- A certificate of more than four gigabytes is refused. -/
theorem oversized_refused :
    certificateKey (Certificate.padded (2 ^ 32)).encode ≠ .ok (Certificate.padded (2 ^ 32)).keyInfo :=
  padded_refused (by decide) (by decide)

end Enrollment
end NodePlane
