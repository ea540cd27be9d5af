import NodePlane.Agent.Canonical
import NodePlane.Agent.JsonOrder
import Mathlib.Data.List.Sort
import Mathlib.Data.Nat.Bitwise

/-! The texts that fingerprints hash, beside what Python's `json.dumps` writes for the same value:
they differ only where a floating number is printed in another way. -/
namespace NodePlane
namespace Json

/-- The order of an object's members: that of their keys. -/
def keyBefore (a b : String × Json) : Prop := textBefore a.1 b.1 = true

instance : DecidableRel keyBefore :=
  fun a b => inferInstanceAs (Decidable (textBefore a.1 b.1 = true))

mutual
/-- The value with the members of each object in key order: `keys.sort()`, which is also the
`sort_keys=True` of Python. -/
def sorted : Json → Json
  | .arr items => .arr (sortedItems items)
  | .obj members => .obj ((sortedMembers members).insertionSort keyBefore)
  | .null => .null
  | .bool b => .bool b
  | .int n => .int n
  | .float x => .float x
  | .str s => .str s

def sortedItems : List Json → List Json
  | [] => []
  | v :: vs => v.sorted :: sortedItems vs

def sortedMembers : List (String × Json) → List (String × Json)
  | [] => []
  | (k, v) :: ms => (k, v.sorted) :: sortedMembers ms
end

mutual
/-- The members of each object ascend by key, as the agent's map keeps them. -/
def Kept : Json → Prop
  | .arr items => KeptItems items
  | .obj members => members.Pairwise keyBefore ∧ KeptMembers members
  | .null => True
  | .bool _ => True
  | .int _ => True
  | .float _ => True
  | .str _ => True

def KeptItems : List Json → Prop
  | [] => True
  | v :: vs => v.Kept ∧ KeptItems vs

def KeptMembers : List (String × Json) → Prop
  | [] => True
  | (_, v) :: ms => v.Kept ∧ KeptMembers ms
end

mutual
/-- Sorting leaves a value that the agent's map holds as it is. -/
theorem sorted_eq : ∀ v : Json, v.Kept → v.sorted = v
  | .arr items, kept => by rw [sorted, sortedItems_eq items kept]
  | .obj members, kept => by
    rw [sorted, sortedMembers_eq members kept.2, kept.1.insertionSort_eq]
  | .null, _ => rfl
  | .bool _, _ => rfl
  | .int _, _ => rfl
  | .float _, _ => rfl
  | .str _, _ => rfl

theorem sortedItems_eq : ∀ items : List Json, KeptItems items → sortedItems items = items
  | [], _ => rfl
  | v :: vs, kept => by rw [sortedItems, sorted_eq v kept.1, sortedItems_eq vs kept.2]

theorem sortedMembers_eq : ∀ members : List (String × Json), KeptMembers members →
    sortedMembers members = members
  | [], _ => rfl
  | (k, v) :: ms, kept => by rw [sortedMembers, sorted_eq v kept.1, sortedMembers_eq ms kept.2]
end

/-- Two values are equal as JSON: the members of an object may stand in any order. -/
inductive Same : Json → Json → Prop
  | refl (v : Json) : Same v v
  | symm {v w : Json} (same : Same v w) : Same w v
  | trans {u v w : Json} (first : Same u v) (second : Same v w) : Same u w
  | item {v w : Json} (before after : List Json) (same : Same v w) :
      Same (.arr (before ++ v :: after)) (.arr (before ++ w :: after))
  | member {v w : Json} (before after : List (String × Json)) (k : String) (same : Same v w) :
      Same (.obj (before ++ (k, v) :: after)) (.obj (before ++ (k, w) :: after))
  | reorder {ms ns : List (String × Json)} (perm : ms.Perm ns) : Same (.obj ms) (.obj ns)

mutual
theorem same_sorted : ∀ v : Json, Same v v.sorted
  | .arr items => same_sortedItems [] items
  | .obj members => (same_sortedMembers [] members).trans
      (.reorder (List.perm_insertionSort keyBefore (sortedMembers members)).symm)
  | .null => .refl _
  | .bool _ => .refl _
  | .int _ => .refl _
  | .float _ => .refl _
  | .str _ => .refl _

theorem same_sortedItems (before : List Json) :
    ∀ items : List Json, Same (.arr (before ++ items)) (.arr (before ++ sortedItems items))
  | [] => .refl _
  | v :: vs => by
    have first := Same.item before vs (same_sorted v)
    have rest := same_sortedItems (before ++ [v.sorted]) vs
    simp only [List.append_assoc, List.singleton_append] at rest
    exact first.trans rest

theorem same_sortedMembers (before : List (String × Json)) : ∀ members : List (String × Json),
    Same (.obj (before ++ members)) (.obj (before ++ sortedMembers members))
  | [] => .refl _
  | (k, v) :: ms => by
    have first := Same.member before ms k (same_sorted v)
    have rest := same_sortedMembers (before ++ [(k, v.sorted)]) ms
    simp only [List.append_assoc, List.singleton_append] at rest
    exact first.trans rest
end

/-- Values with one sorted form are equal as JSON. -/
theorem Same.of_sorted {v w : Json} (same : v.sorted = w.sorted) : Same v w := by
  have left := same_sorted v
  rw [same] at left
  exact left.trans (same_sorted w).symm

mutual
/-- The floating numbers of a value. -/
def floats : Json → List FloatText
  | .float x => [x]
  | .arr items => itemFloats items
  | .obj members => memberFloats members
  | .null => []
  | .bool _ => []
  | .int _ => []
  | .str _ => []

def itemFloats : List Json → List FloatText
  | [] => []
  | v :: vs => v.floats ++ itemFloats vs

def memberFloats : List (String × Json) → List FloatText
  | [] => []
  | (_, v) :: ms => v.floats ++ memberFloats ms
end

theorem mem_memberFloats {x : FloatText} {members : List (String × Json)} :
    x ∈ memberFloats members ↔ ∃ m ∈ members, x ∈ m.2.floats := by
  induction members with
  | nil => simp [memberFloats]
  | cons m ms ih =>
    obtain ⟨k, v⟩ := m
    simp [memberFloats, ih]

mutual
theorem mem_floats_sorted {x : FloatText} : ∀ v : Json, x ∈ v.sorted.floats ↔ x ∈ v.floats
  | .arr items => mem_itemFloats_sorted items
  | .obj members => by
    have placed : x ∈ memberFloats ((sortedMembers members).insertionSort keyBefore) ↔
        x ∈ memberFloats (sortedMembers members) := by
      simp only [mem_memberFloats, List.mem_insertionSort]
    exact placed.trans (mem_memberFloats_sorted members)
  | .null => Iff.rfl
  | .bool _ => Iff.rfl
  | .int _ => Iff.rfl
  | .float _ => Iff.rfl
  | .str _ => Iff.rfl

theorem mem_itemFloats_sorted {x : FloatText} :
    ∀ items : List Json, x ∈ itemFloats (sortedItems items) ↔ x ∈ itemFloats items
  | [] => Iff.rfl
  | v :: vs => by
    simp only [sortedItems, itemFloats, List.mem_append]
    rw [mem_floats_sorted v, mem_itemFloats_sorted vs]

theorem mem_memberFloats_sorted {x : FloatText} : ∀ members : List (String × Json),
    x ∈ memberFloats (sortedMembers members) ↔ x ∈ memberFloats members
  | [] => Iff.rfl
  | (k, v) :: ms => by
    simp only [sortedMembers, memberFloats, List.mem_append]
    rw [mem_floats_sorted v, mem_memberFloats_sorted ms]
end

section
variable (repr : FloatText → FloatText)

mutual
/-- The value with each floating number printed anew. -/
def reprint : Json → Json
  | .float x => .float (repr x)
  | .arr items => .arr (reprintItems items)
  | .obj members => .obj (reprintMembers members)
  | .null => .null
  | .bool b => .bool b
  | .int n => .int n
  | .str s => .str s

def reprintItems : List Json → List Json
  | [] => []
  | v :: vs => v.reprint :: reprintItems vs

def reprintMembers : List (String × Json) → List (String × Json)
  | [] => []
  | (k, v) :: ms => (k, v.reprint) :: reprintMembers ms
end

mutual
/-- Printing the floating numbers anew changes nothing just where each is printed alike. -/
theorem reprint_eq_iff : ∀ v : Json, v = v.reprint repr ↔ ∀ x ∈ v.floats, repr x = x
  | .arr items => by
    rw [reprint, Json.arr.injEq, floats]
    exact reprintItems_eq_iff items
  | .obj members => by
    rw [reprint, Json.obj.injEq, floats]
    exact reprintMembers_eq_iff members
  | .float x => by
    rw [reprint, Json.float.injEq, floats, List.forall_mem_singleton]
    exact eq_comm
  | .null => by simp [reprint, floats]
  | .bool _ => by simp [reprint, floats]
  | .int _ => by simp [reprint, floats]
  | .str _ => by simp [reprint, floats]

theorem reprintItems_eq_iff : ∀ items : List Json,
    items = reprintItems repr items ↔ ∀ x ∈ itemFloats items, repr x = x
  | [] => by simp [reprintItems, itemFloats]
  | v :: vs => by
    rw [reprintItems, itemFloats, List.cons.injEq, List.forall_mem_append, reprint_eq_iff v,
      reprintItems_eq_iff vs]

theorem reprintMembers_eq_iff : ∀ members : List (String × Json),
    members = reprintMembers repr members ↔ ∀ x ∈ memberFloats members, repr x = x
  | [] => by simp [reprintMembers, memberFloats]
  | (k, v) :: ms => by
    rw [reprintMembers, memberFloats, List.cons.injEq, Prod.mk.injEq, List.forall_mem_append,
      reprint_eq_iff v, reprintMembers_eq_iff ms]
    simp
end
end
end Json

/-! ### Python's encoder -/
namespace Python

/-- `'\\u{0:04x}'.format(n)`. -/
def unicode (n : Nat) : List Char := '\\' :: 'u' :: hex4 n

/-- `py_encode_basestring_ascii`, one character: the characters of its table, the printable ones
as they stand, the others by their UTF-16 units. -/
def escape (c : Char) : List Char :=
  if c.toNat = 0x5c then ['\\', '\\']
  else if c.toNat = 0x22 then ['\\', '"']
  else if c.toNat = 0x08 then ['\\', 'b']
  else if c.toNat = 0x0c then ['\\', 'f']
  else if c.toNat = 0x0a then ['\\', 'n']
  else if c.toNat = 0x0d then ['\\', 'r']
  else if c.toNat = 0x09 then ['\\', 't']
  else if 0x20 ≤ c.toNat ∧ c.toNat ≤ 0x7e then [c]
  else if c.toNat < 0x10000 then unicode c.toNat
  else
    let n := c.toNat - 0x10000
    unicode (0xD800 ||| ((n >>> 10) &&& 0x3FF)) ++ unicode (0xDC00 ||| (n &&& 0x3FF))

/-- A string's text after its opening quote. -/
def quoted (s : String) : List Char := s.toList.flatMap escape ++ ['"']

section
variable (repr : FloatText → FloatText) (sep : Separators)

mutual
/-- What the encoder writes of a value whose members stand in key order; `repr x` is Python's
`float.__repr__` of the number that the agent prints as `x`. -/
def encode : Json → List Char
  | .null => ['n', 'u', 'l', 'l']
  | .bool true => ['t', 'r', 'u', 'e']
  | .bool false => ['f', 'a', 'l', 's', 'e']
  | .int n => decimal n
  | .float x => (repr x).text.toList
  | .str s => '"' :: quoted s
  | .arr [] => ['[', ']']
  | .arr (v :: vs) => '[' :: (encode v ++ encodeItems vs)
  | .obj [] => ['{', '}']
  | .obj ((k, v) :: ms) => '{' :: '"' :: (quoted k ++ (sep.key ++ (encode v ++ encodeMembers ms)))

def encodeItems : List Json → List Char
  | [] => [']']
  | v :: vs => ',' :: (sep.item ++ (encode v ++ encodeItems vs))

def encodeMembers : List (String × Json) → List Char
  | [] => ['}']
  | (k, v) :: ms =>
    ',' :: (sep.item ++ '"' :: (quoted k ++ (sep.key ++ (encode v ++ encodeMembers ms))))
end

/-- `json.dumps(value, sort_keys=True, separators=…)`. -/
def dumps (v : Json) : String := String.ofList (encode repr sep v.sorted)
end

/-- The two halves of a surrogate pair, by bits and by arithmetic. -/
theorem surrogates (n : Nat) (small : n < 0x100000) :
    0xD800 ||| ((n >>> 10) &&& 0x3FF) = 0xD800 + n / 0x400 ∧
      0xDC00 ||| (n &&& 0x3FF) = 0xDC00 + n % 0x400 := by
  have high : (n >>> 10) &&& 0x3FF = n / 0x400 := by
    have masked : n / 0x400 &&& 0x3FF = n / 0x400 % 0x400 :=
      Nat.and_two_pow_sub_one_eq_mod (n / 0x400) 10
    rw [Nat.shiftRight_eq_div_pow]
    exact masked.trans (Nat.mod_eq_of_lt (by omega))
  have low : n &&& 0x3FF = n % 0x400 := Nat.and_two_pow_sub_one_eq_mod n 10
  have first : 0xD800 + n / 0x400 = 0xD800 ||| n / 0x400 :=
    Nat.two_pow_add_eq_or_of_lt (i := 10) (show n / 0x400 < 1024 by omega) 54
  have second : 0xDC00 + n % 0x400 = 0xDC00 ||| n % 0x400 :=
    Nat.two_pow_add_eq_or_of_lt (i := 10) (show n % 0x400 < 1024 by omega) 55
  rw [high, low]
  exact ⟨first.symm, second.symm⟩

/-- One character's escape is that of its UTF-16 units. -/
theorem escape_eq (c : Char) : escape c = (utf16 c).flatMap escapeUnit := by
  by_cases basic : c.toNat < 0x10000
  · rw [utf16, if_pos basic, List.flatMap_singleton, escape, escapeUnit, Char.ofNat_toNat]
    split_ifs <;> first | rfl | omega
  · have valid : c.toNat < 0x110000 := by
      have bound := c.valid
      change c.toNat < 0xD800 ∨ (0xDFFF < c.toNat ∧ c.toNat < 0x110000) at bound
      omega
    obtain ⟨high, low⟩ := surrogates (c.toNat - 0x10000) (by omega)
    have beyond {n : Nat} (large : 0x7f ≤ n) : escapeUnit n = unicode n := by
      rw [escapeUnit, unicode]
      split_ifs <;> first | rfl | omega
    rw [utf16, if_neg basic, List.flatMap_cons, List.flatMap_singleton, beyond (by omega),
      beyond (by omega), ← high, ← low, escape]
    split_ifs <;> first | rfl | omega

theorem quoted_eq (s : String) : quoted s = NodePlane.quoted s := by
  rw [quoted, NodePlane.quoted, List.flatMap_assoc]
  congr 1
  apply List.flatMap_congr
  intro c _
  exact escape_eq c

section
variable (repr : FloatText → FloatText) (sep : Separators)

mutual
/-- Python's text is the agent's of the value with each floating number printed Python's way. -/
theorem encode_eq : ∀ v : Json, encode repr sep v = (v.reprint repr).write sep
  | .null => rfl
  | .bool true => rfl
  | .bool false => rfl
  | .int _ => rfl
  | .float _ => rfl
  | .str s => by rw [encode, Json.reprint, Json.write, quoted_eq]
  | .arr [] => rfl
  | .arr (v :: vs) => by
    rw [encode, Json.reprint, Json.reprintItems, Json.write, encode_eq v, encodeItems_eq vs]
  | .obj [] => rfl
  | .obj ((k, v) :: ms) => by
    rw [encode, Json.reprint, Json.reprintMembers, Json.write, quoted_eq, encode_eq v,
      encodeMembers_eq ms]

theorem encodeItems_eq : ∀ items : List Json,
    encodeItems repr sep items = Json.writeItems sep (Json.reprintItems repr items)
  | [] => rfl
  | v :: vs => by
    rw [encodeItems, Json.reprintItems, Json.writeItems, encode_eq v, encodeItems_eq vs]

theorem encodeMembers_eq : ∀ members : List (String × Json),
    encodeMembers repr sep members = Json.writeMembers sep (Json.reprintMembers repr members)
  | [] => rfl
  | (k, v) :: ms => by
    rw [encodeMembers, Json.reprintMembers, Json.writeMembers, quoted_eq, encode_eq v,
      encodeMembers_eq ms]
end
end

end Python

/-- The agent's separators and those of `json.dumps` without any. -/
def compact : Separators := ⟨[], [':']⟩
def spaced : Separators := ⟨[' '], [':', ' ']⟩

section
variable (repr : FloatText → FloatText)

/-- The agent's text of a value is Python's just where each floating number in it is printed
alike. -/
theorem sorted_text_iff (sep : Separators) (v : Json)
    (injective : ∀ a b : Json, a.write sep = b.write sep → a = b) :
    String.ofList (v.sorted.write sep) = Python.dumps repr sep v ↔
      ∀ x ∈ v.floats, repr x = x := by
  rw [Python.dumps, Python.encode_eq]
  have texts : String.ofList (v.sorted.write sep) =
      String.ofList ((v.sorted.reprint repr).write sep) ↔ v.sorted = v.sorted.reprint repr := by
    constructor
    · intro same
      exact injective _ _ (String.ofList_injective same)
    · intro same
      rw [← same]
  rw [texts, Json.reprint_eq_iff]
  simp only [Json.mem_floats_sorted]

theorem canonical_python_iff (v : Json) :
    canonical v.sorted = Python.dumps repr compact v ↔ ∀ x ∈ v.floats, repr x = x :=
  sorted_text_iff repr compact v fun _ _ same => canonical_injective (congrArg String.ofList same)

theorem sortedDumps_python_iff (v : Json) :
    sortedDumps v.sorted = Python.dumps repr spaced v ↔ ∀ x ∈ v.floats, repr x = x :=
  sorted_text_iff repr spaced v fun _ _ same => sortedDumps_injective (congrArg String.ofList same)

/-- The text of a value as the agent's map keeps it, and Python's. -/
theorem kept_python_iff {v : Json} (kept : v.Kept) :
    canonical v = Python.dumps repr compact v ↔ ∀ x ∈ v.floats, repr x = x := by
  have iff := canonical_python_iff repr v
  rwa [Json.sorted_eq v kept] at iff

/-- Two values with one text are equal as JSON, so two other values share a fingerprint only where
the digest of two texts is one; and the texts are Python's just where each floating number of the
value is printed as Python prints it. -/
theorem canonical_text {D : Type} (digest : String → D) (v : Json) :
    (∀ w : Json, canonical v.sorted = canonical w.sorted ∨ sortedDumps v.sorted = sortedDumps w.sorted →
      v.Same w) ∧
    (∀ w : Json, digest (canonical v.sorted) = digest (canonical w.sorted) →
      v.Same w ∨ ∃ s t : String, s ≠ t ∧ digest s = digest t) ∧
    (canonical v.sorted = Python.dumps repr compact v ∧
        sortedDumps v.sorted = Python.dumps repr spaced v ↔ ∀ x ∈ v.floats, repr x = x) := by
  refine ⟨?_, ?_, ?_⟩
  · rintro w (same | same)
    · exact .of_sorted (canonical_injective same)
    · exact .of_sorted (sortedDumps_injective same)
  · intro w same
    by_cases texts : canonical v.sorted = canonical w.sorted
    · exact .inl (.of_sorted (canonical_injective texts))
    · exact .inr ⟨_, _, texts, same⟩
  · rw [canonical_python_iff, sortedDumps_python_iff, and_self]
end

/-- `float.__repr__` takes the exponent form below `1e-4`, where the agent prints `0.0000d…` down to
`1e-5`; the other texts stand as they are. -/
def exponentForm : List Char → List Char
  | '-' :: text => '-' :: exponentForm text
  | '0' :: '.' :: '0' :: '0' :: '0' :: '0' :: d :: rest =>
    d :: ((if rest = [] then [] else '.' :: rest) ++ ['e', '-', '0', '5'])
  | text => text

def floatRepr (x : FloatText) : FloatText :=
  let text := String.ofList (exponentForm x.text.toList)
  if number : text.toList.all numberChar = true then
    if fractional : text.toList.any (fun c => c ∈ ['.', 'e']) = true then ⟨text, number, fractional⟩
    else x
  else x

/-- The number 1/100000, as the agent prints it. -/
def hundredThousandth : FloatText := ⟨"0.00001", by decide, by decide⟩

/-- A value with such a number has two texts. -/
theorem small_number_differs :
    canonical (Json.arr [.float hundredThousandth]).sorted = "[0.00001]" ∧
      Python.dumps floatRepr compact (.arr [.float hundredThousandth]) = "[1e-05]" ∧
      canonical (Json.arr [.float hundredThousandth]).sorted ≠
        Python.dumps floatRepr compact (.arr [.float hundredThousandth]) := by
  have agent : canonical (Json.arr [.float hundredThousandth]).sorted = "[0.00001]" := by decide
  have python : Python.dumps floatRepr compact (.arr [.float hundredThousandth]) = "[1e-05]" := by
    decide
  refine ⟨agent, python, ?_⟩
  rw [agent, python]
  decide

end NodePlane
