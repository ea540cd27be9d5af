import Mathlib.Data.List.Basic

/-! The protobuf wire format: varints, length-delimited payloads, and messages as
sequences of fields. -/
namespace Library
namespace Wire

abbrev Bytes := List UInt8

/-- Groups of seven bits, the low one first; the last byte is below 128. -/
def varint (n : ℕ) : Bytes :=
  if n < 128 then [UInt8.ofNat n] else UInt8.ofNat (n % 128 + 128) :: varint (n / 128)
termination_by n
decreasing_by omega

def readVarint : Bytes → Option (ℕ × Bytes)
  | [] => none
  | b :: rest =>
    if b.toNat < 128 then some (b.toNat, rest)
    else (readVarint rest).map fun (n, after) => (b.toNat - 128 + 128 * n, after)

theorem readVarint_varint (n : ℕ) (rest : Bytes) :
    readVarint (varint n ++ rest) = some (n, rest) := by
  induction n using Nat.strongRecOn with
  | ind n ih =>
    rw [varint]
    split
    · rename_i small
      have byte : (UInt8.ofNat n).toNat = n := by
        rw [UInt8.toNat_ofNat']
        omega
      simp [readVarint, byte, small]
    · rename_i big
      have byte : (UInt8.ofNat (n % 128 + 128)).toNat = n % 128 + 128 := by
        rw [UInt8.toNat_ofNat']
        omega
      have value : n % 128 + 128 * (n / 128) = n := by omega
      have more : ¬n % 128 + 128 < 128 := by omega
      simp only [List.cons_append, readVarint, byte, if_neg more, ih (n / 128) (by omega),
        Option.map_some, Nat.add_sub_cancel, value]

theorem readVarint_shorter {bytes rest : Bytes} {n : ℕ} (read : readVarint bytes = some (n, rest)) :
    rest.length < bytes.length := by
  induction bytes generalizing n with
  | nil => cases read
  | cons b bytes ih =>
    rw [readVarint] at read
    split at read
    · cases read
      simp
    · obtain ⟨⟨m, after⟩, found, same⟩ := Option.map_eq_some_iff.mp read
      cases same
      have shorter := ih found
      rw [List.length_cons]
      omega

/-- A payload after its length. -/
def delimited (payload : Bytes) : Bytes := varint payload.length ++ payload

def readDelimited (bytes : Bytes) : Option (Bytes × Bytes) :=
  (readVarint bytes).bind fun (n, rest) =>
    if n ≤ rest.length then some (rest.take n, rest.drop n) else none

theorem readDelimited_delimited (payload rest : Bytes) :
    readDelimited (delimited payload ++ rest) = some (payload, rest) := by
  simp [readDelimited, delimited, List.append_assoc, readVarint_varint]

theorem readDelimited_shorter {bytes payload rest : Bytes}
    (read : readDelimited bytes = some (payload, rest)) : rest.length < bytes.length := by
  obtain ⟨⟨n, after⟩, found, taken⟩ := Option.bind_eq_some_iff.mp read
  have shorter := readVarint_shorter found
  dsimp only at taken
  split at taken
  · cases taken
    rw [List.length_drop]
    omega
  · cases taken

/-- The value of a field, of the wire types 0 and 2. -/
inductive Value where
  | number (n : ℕ)
  | bytes (payload : Bytes)
  deriving DecidableEq, Repr

structure Field where
  tag : ℕ
  value : Value
  deriving DecidableEq, Repr

def Field.encode : Field → Bytes
  | ⟨tag, .number n⟩ => varint (8 * tag) ++ varint n
  | ⟨tag, .bytes payload⟩ => varint (8 * tag + 2) ++ delimited payload

def readField (bytes : Bytes) : Option (Field × Bytes) :=
  (readVarint bytes).bind fun (key, rest) =>
    match key % 8 with
    | 0 => (readVarint rest).map fun (n, after) => (⟨key / 8, .number n⟩, after)
    | 2 => (readDelimited rest).map fun (payload, after) => (⟨key / 8, .bytes payload⟩, after)
    | _ => none

theorem readField_encode (field : Field) (rest : Bytes) :
    readField (field.encode ++ rest) = some (field, rest) := by
  obtain ⟨tag, value⟩ := field
  cases value with
  | number n =>
    have kind : 8 * tag % 8 = 0 := by omega
    simp [readField, Field.encode, List.append_assoc, readVarint_varint, kind]
  | bytes payload =>
    have kind : (8 * tag + 2) % 8 = 2 := by omega
    have number : (8 * tag + 2) / 8 = tag := by omega
    simp [readField, Field.encode, List.append_assoc, readVarint_varint, kind, number,
      readDelimited_delimited]

theorem readField_shorter {bytes rest : Bytes} {field : Field}
    (read : readField bytes = some (field, rest)) : rest.length < bytes.length := by
  obtain ⟨⟨key, after⟩, found, value⟩ := Option.bind_eq_some_iff.mp read
  have shorter := readVarint_shorter found
  dsimp only at value
  split at value
  · obtain ⟨⟨n, last⟩, there, same⟩ := Option.map_eq_some_iff.mp value
    cases same
    exact Nat.lt_trans (readVarint_shorter there) shorter
  · obtain ⟨⟨payload, last⟩, there, same⟩ := Option.map_eq_some_iff.mp value
    cases same
    exact Nat.lt_trans (readDelimited_shorter there) shorter
  · cases value

/-- The fields of a message, to the end of its payload. -/
def readFields (bytes : Bytes) : Option (List Field) :=
  if bytes = [] then some []
  else
    match _read : readField bytes with
    | none => none
    | some (field, rest) => (readFields rest).map (field :: ·)
termination_by bytes.length
decreasing_by exact readField_shorter _read

theorem readFields_flatMap (fields : List Field) :
    readFields (fields.flatMap Field.encode) = some fields := by
  induction fields with
  | nil =>
    rw [readFields]
    simp
  | cons field fields ih =>
    have read := readField_encode field (fields.flatMap Field.encode)
    have nonempty : field.encode ++ fields.flatMap Field.encode ≠ [] := by
      intro empty
      have shorter := readField_shorter read
      simp [empty] at shorter
    rw [readFields, List.flatMap_cons, if_neg nonempty]
    split
    · rename_i failed
      rw [read] at failed
      cases failed
    · rename_i got rest there
      rw [read] at there
      cases there
      simp [ih]

/-- The text of a payload. -/
def utf8 (payload : Bytes) : Option String := String.fromUTF8? payload.toByteArray

/-- The bytes of a text. -/
def textBytes (s : String) : Bytes := s.toByteArray.data.toList

@[simp] theorem utf8_textBytes (s : String) : utf8 (textBytes s) = some s := by
  have bytes : (textBytes s).toByteArray = s.toByteArray := by
    apply ByteArray.ext
    apply Array.ext'
    rw [List.toList_data_toByteArray, textBytes]
  rw [utf8, bytes]
  exact dif_pos s.isValidUTF8

/-- A text field; an empty one is left out. -/
def text (tag : ℕ) (s : String) : List Field :=
  if s = "" then [] else [⟨tag, .bytes (textBytes s)⟩]

/-- Merging a text field sets what it stands for. -/
theorem foldlM_text {α : Type} {merge : α → Field → Option α} {tag : ℕ} {start : α} {s : String}
    {rest : List Field} {result : Option α} (set : String → α) (empty : set "" = start)
    (merges : ∀ payload, merge start ⟨tag, .bytes payload⟩ = (utf8 payload).map set)
    (later : rest.foldlM merge (set s) = result) :
    (text tag s ++ rest).foldlM merge start = result := by
  unfold text
  split
  · rename_i none
    rw [none, empty] at later
    exact later
  · simp [merges, later]

end Wire
end Library
