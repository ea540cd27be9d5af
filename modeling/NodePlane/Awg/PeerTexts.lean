import NodePlane.Library.Paragraphs
import NodePlane.Awg.Peers

/-! What a config of issued peers reads as: its lines, its sections and its peers. -/
namespace NodePlane
namespace Peers
open Library Paragraphs Readings Tunnel

/-! Lines with their ends. -/

/-- A line and its end. -/
def Whole (line : List Char) : Prop := ∃ content, line = content ++ ['\n'] ∧ '\n' ∉ content

theorem splitInclusive_line {content : List Char} (plain : '\n' ∉ content) (rest : List Char) :
    splitInclusive (content ++ '\n' :: rest) = (content ++ ['\n']) :: splitInclusive rest := by
  induction content with
  | nil => rfl
  | cons c content ih =>
    rw [List.mem_cons, not_or] at plain
    rw [List.cons_append, splitInclusive, if_neg (Ne.symm plain.1), ih plain.2]
    rfl

theorem splitInclusive_append {lines : List (List Char)} (whole : ∀ line ∈ lines, Whole line)
    (rest : List Char) : splitInclusive (lines.flatten ++ rest) = lines ++ splitInclusive rest := by
  induction lines with
  | nil => rfl
  | cons line lines ih =>
    obtain ⟨content, rfl, plain⟩ := whole line List.mem_cons_self
    rw [List.flatten_cons, List.append_assoc, List.append_assoc, List.singleton_append,
      splitInclusive_line plain, ih fun line inside => whole line (List.mem_cons_of_mem _ inside)]
    rfl

theorem splitInclusive_flatten {lines : List (List Char)} (whole : ∀ line ∈ lines, Whole line) :
    splitInclusive lines.flatten = lines := by
  have split := splitInclusive_append whole []
  rw [List.append_nil] at split
  rw [split, splitInclusive, List.append_nil]

theorem flatten_splitInclusive (text : List Char) : (splitInclusive text).flatten = text := by
  induction text with
  | nil => rfl
  | cons c rest ih =>
    rw [splitInclusive]
    split
    · rw [List.flatten_cons, ih]
      rfl
    · cases shape : splitInclusive rest with
      | nil =>
        rw [shape] at ih
        rw [← ih]
        rfl
      | cons line more =>
        rw [shape] at ih
        rw [← ih]
        rfl

/-- The lines of a text that ends with a line end. -/
theorem whole_lines (text : List Char) : ∀ line ∈ splitInclusive (text ++ ['\n']), Whole line := by
  induction text with
  | nil =>
    intro line inside
    rw [List.mem_singleton.mp inside]
    exact ⟨[], rfl, by simp⟩
  | cons c text ih =>
    intro line inside
    rw [List.cons_append, splitInclusive] at inside
    split at inside
    · rename_i same
      rcases List.mem_cons.mp inside with rfl | later
      · exact ⟨[], by rw [same]; rfl, by simp⟩
      · exact ih line later
    · rename_i other
      cases shape : splitInclusive (text ++ ['\n']) with
      | nil =>
        have text_ := flatten_splitInclusive (text ++ ['\n'])
        rw [shape] at text_
        simp at text_
      | cons first more =>
        rw [shape] at inside
        rcases List.mem_cons.mp inside with rfl | later
        · obtain ⟨content, rfl, plain⟩ := ih first (shape ▸ List.mem_cons_self)
          exact ⟨c :: content, rfl, by
            rw [List.mem_cons, not_or]
            exact ⟨Ne.symm other, plain⟩⟩
        · exact ih line (shape ▸ List.mem_cons_of_mem first later)

/-! Peers as they are issued. -/

/-- The peer names that the agent takes. -/
def validPeer (name : String) : Bool := !name.toList.isEmpty && name.toList.all nameChar

def keyChar (c : Char) : Bool := c.isAlphanum || ['+', '/', '='].contains c

/-- A key in base64. -/
def validKey (key : List Char) : Bool := !key.isEmpty && key.all keyChar

structure Peer where
  name : String
  publicKey : List Char
  preshared : List Char
  host : Fin 256
  named : validPeer name = true
  keyed : validKey publicKey = true
  shared : validKey preshared = true

def Peer.tail (p : Peer) : List (List Char) :=
  ["PublicKey = ".toList ++ p.publicKey ++ ['\n'], "PresharedKey = ".toList ++ p.preshared ++ ['\n'],
    "AllowedIPs = ".toList ++ allowed p.host ++ ['\n']]

def Peer.lines (p : Peer) : List (List Char) :=
  (comment p.name ++ ['\n']) :: "[Peer]\n".toList :: p.tail

def Peer.block (p : Peer) : List Char := p.lines.flatten

/-- The lines behind the interface: each peer's, ended by a blank line or the end. -/
inductive Laid : List Peer → List (List Char) → Prop
  | nil : Laid [] []
  | blank {peers lines} : Laid peers lines → Laid peers (['\n'] :: lines)
  | peer {peers lines} (p : Peer) : Laid peers lines → (∀ line ∈ lines.head?, line = ['\n']) →
    Laid (p :: peers) (p.lines ++ lines)

/-- The interface section of a config: no peer stands in it, and its last line is not blank. -/
structure Interface where
  body : List Char
  solid : ∃ front c, body = front ++ [c] ∧ whitespace c = false
  clear : contains (body ++ ['\n']) peerTag = false
  headless : ∀ line ∈ splitInclusive (body ++ ['\n']), ∀ name, validPeer name = true →
    trim line ≠ comment name

def Interface.text (i : Interface) : List Char := i.body ++ ['\n']

def Interface.lines (i : Interface) : List (List Char) := splitInclusive i.text

theorem Interface.whole (i : Interface) : ∀ line ∈ i.lines, Whole line := whole_lines i.body

theorem Interface.flatten (i : Interface) : i.lines.flatten = i.text := flatten_splitInclusive i.text

/-! The characters of a peer's lines. -/

theorem alphanum_cases {c : Char} (letter : c.isAlphanum = true) :
    (48 ≤ c.toNat ∧ c.toNat ≤ 57) ∨ (65 ≤ c.toNat ∧ c.toNat ≤ 90) ∨ (97 ≤ c.toNat ∧ c.toNat ≤ 122) := by
  change ((decide ('A'.val ≤ c.val ∧ c.val ≤ 'Z'.val)) ||
    (decide ('a'.val ≤ c.val) && decide (c.val ≤ 'z'.val)) ||
    (decide ('0'.val ≤ c.val) && decide (c.val ≤ '9'.val))) = true at letter
  simp only [Bool.or_eq_true, Bool.and_eq_true, decide_eq_true_eq, UInt32.le_iff_toNat_le] at letter
  change ((65 ≤ c.toNat ∧ c.toNat ≤ 90) ∨ (97 ≤ c.toNat ∧ c.toNat ≤ 122)) ∨
    (48 ≤ c.toNat ∧ c.toNat ≤ 57) at letter
  omega

/-- A character that neither separates words nor opens a section. -/
def plainChar (c : Char) : Bool := !whitespace c && !(c = '[')

theorem plain_alphanum {c : Char} (letter : c.isAlphanum = true) : plainChar c = true ∧ c ≠ '=' := by
  have bounds := alphanum_cases letter
  have white : whitespace c = false := by
    rw [whitespace]
    simp only [Bool.or_eq_false_iff, Bool.and_eq_false_iff, decide_eq_false_iff_not, List.mem_cons,
      List.not_mem_nil, or_false, not_or]
    omega
  have other {d : Char} (differs : d.toNat ≠ c.toNat) : c ≠ d := fun same => differs (same ▸ rfl)
  refine ⟨?_, other (by change 61 ≠ _; omega)⟩
  rw [plainChar, white, decide_eq_false (other (by change 91 ≠ _; omega))]
  rfl

theorem nameChar_plain {c : Char} (is : nameChar c = true) : plainChar c = true ∧ c ≠ '=' := by
  rcases Bool.or_eq_true_iff.mp is with letter | other
  · exact plain_alphanum letter
  · rw [List.contains_iff_mem] at other
    simp only [List.mem_cons, List.not_mem_nil, or_false] at other
    rcases other with rfl | rfl | rfl <;> decide

theorem keyChar_plain {c : Char} (is : keyChar c = true) : plainChar c = true := by
  rcases Bool.or_eq_true_iff.mp is with letter | other
  · exact (plain_alphanum letter).1
  · rw [List.contains_iff_mem] at other
    simp only [List.mem_cons, List.not_mem_nil, or_false] at other
    rcases other with rfl | rfl | rfl <;> decide

theorem plain_white {c : Char} (plain : plainChar c = true) : whitespace c = false := by
  rw [plainChar, Bool.and_eq_true, Bool.not_eq_true'] at plain
  exact plain.1

/-- A character of one line, that opens no section. -/
def inline (c : Char) : Bool := plainChar c || c = ' '

theorem inline_ne {c : Char} (is : inline c = true) : c ≠ '\n' ∧ c ≠ '[' := by
  constructor <;> rintro rfl <;> revert is <;> decide

theorem allowed_inline (host : Fin 256) : (allowed host).all inline = true := by
  have part {text : List Char} (plain : ∀ c ∈ text, slashed c = true) : text.all inline = true := by
    refine List.all_eq_true.mpr fun c inside => ?_
    obtain ⟨white, -, bracket⟩ := slashed_plain (plain c inside)
    rw [inline, plainChar, white, decide_eq_false bracket]
    rfl
  have comma : inline ',' = true := by decide
  have space : inline ' ' = true := by decide
  simp [allowed, part (ownV4_slashed host), part (ownV6_slashed host), comma, space]

/-! Trimmed lines. -/

theorem trim_white {c : Char} (white : whitespace c = true) (line : List Char) :
    trim (line ++ [c]) = trim line := by
  by_cases blank : ∀ d ∈ line, whitespace d = true
  · have none_ : line.dropWhile whitespace = [] := List.dropWhile_eq_nil_iff.mpr blank
    rw [trim, trim, List.dropWhile_append_of_pos blank, none_, List.dropWhile_cons_of_pos white]
    rfl
  · have left : line.dropWhile whitespace ≠ [] := fun none_ => blank (List.dropWhile_eq_nil_iff.mp none_)
    rw [trim, trim, List.dropWhile_append, if_neg (by simpa using left), List.reverse_append,
      List.reverse_singleton, List.singleton_append, List.dropWhile_cons_of_pos white]

theorem trim_end (line : List Char) : trim (line ++ ['\n']) = trim line := trim_white (by decide) line

theorem trim_head {c : Char} (solid : whitespace c = false) (line : List Char) :
    ∃ rest, trim (c :: line) = c :: rest := by
  rw [trim, List.dropWhile_cons_of_neg (by simp [solid]), List.reverse_cons, List.dropWhile_append]
  split
  · rw [List.dropWhile_cons_of_neg (by simp [solid])]
    exact ⟨[], rfl⟩
  · exact ⟨_, by rw [List.reverse_append]; rfl⟩

def head (name : String) (line : List Char) : Bool := trim line = comment name

def blankLine (line : List Char) : Bool := trim line = []

theorem comment_eq (name : String) : comment name = '#' :: ' ' :: name.toList := by
  rw [comment, String.toList_append]
  rfl

theorem comment_inj {n m : String} (same : comment n = comment m) : n = m := by
  rw [comment_eq, comment_eq] at same
  injection same with _ same
  injection same with _ same
  exact String.toList_injective same

theorem named_chars {name : String} (valid : validPeer name = true) :
    name.toList ≠ [] ∧ ∀ c ∈ name.toList, nameChar c = true := by
  rw [validPeer, Bool.and_eq_true, Bool.not_eq_true', List.isEmpty_eq_false_iff] at valid
  exact ⟨valid.1, List.all_eq_true.mp valid.2⟩

theorem trim_comment {name : String} (valid : validPeer name = true) :
    trim (comment name ++ ['\n']) = comment name := by
  obtain ⟨some_, chars⟩ := named_chars valid
  rw [trim_end]
  refine trim_solid ?_ ?_
  · intro c is
    rw [comment_eq] at is
    cases is
    decide
  · intro c is
    rw [comment_eq, List.getLast?_cons_cons, List.getLast?_cons, Option.mem_some_iff] at is
    subst is
    cases last : name.toList.getLast? with
    | none => exact absurd (List.getLast?_eq_none_iff.mp last) some_
    | some c => exact plain_white (nameChar_plain (chars c (List.mem_of_getLast? last))).1

theorem trim_of_head {c : Char} (solid : whitespace c = false) (line : List Char) (name : String)
    (other : c ≠ '#') : head name (c :: line) = false ∧ blankLine (c :: line) = false := by
  obtain ⟨rest, trimmed⟩ := trim_head solid line
  rw [head, blankLine, trimmed, comment_eq]
  refine ⟨decide_eq_false ?_, decide_eq_false (List.cons_ne_nil c rest)⟩
  intro same
  injection same with same
  exact other same

theorem tail_lines (p : Peer) (name : String) :
    ∀ line ∈ "[Peer]\n".toList :: p.tail, head name line = false ∧ blankLine line = false := by
  intro line inside
  simp only [Peer.tail, List.mem_cons, List.not_mem_nil, or_false] at inside
  rcases inside with rfl | rfl | rfl | rfl <;>
    exact trim_of_head (by decide) _ name (by decide)

theorem head_comment {name : String} (valid : validPeer name = true) (other : String) :
    head other (comment name ++ ['\n']) = true ↔ name = other := by
  rw [head, trim_comment valid, decide_eq_true_iff]
  exact ⟨comment_inj, fun same => same ▸ rfl⟩

theorem head_blank (name : String) : head name ['\n'] = false := by
  have none_ : trim ['\n'] = [] := by decide
  rw [head, comment_eq, none_]
  exact decide_eq_false (List.cons_ne_nil _ _).symm

theorem peer_record (p : Peer) : Record head blankLine p.name p.lines where
  first := ⟨_, _, rfl, (head_comment p.named p.name).mpr rfl⟩
  solid := by
    intro line inside
    rcases List.mem_cons.mp inside with rfl | later
    · rw [blankLine, trim_comment p.named, comment_eq]
      rfl
    · exact (tail_lines p p.name line later).2

theorem peer_missing (p : Peer) {name : String} (other : name ≠ p.name) :
    ∀ line ∈ p.lines, head name line = false := by
  intro line inside
  rcases List.mem_cons.mp inside with rfl | later
  · exact Bool.eq_false_iff.mpr fun is => other ((head_comment p.named name).mp is).symm
  · exact (tail_lines p name line later).1

theorem peer_whole (p : Peer) : ∀ line ∈ p.lines, Whole line := by
  have key {text : List Char} (valid : validKey text = true) : '\n' ∉ text := by
    intro inside
    rw [validKey, Bool.and_eq_true] at valid
    exact absurd (keyChar_plain (List.all_eq_true.mp valid.2 _ inside)) (by decide)
  have name : '\n' ∉ comment p.name := by
    intro inside
    rw [comment_eq] at inside
    rcases List.mem_cons.mp inside with is | inside
    · exact absurd is (by decide)
    · rcases List.mem_cons.mp inside with is | inside
      · exact absurd is (by decide)
      · exact absurd (nameChar_plain ((named_chars p.named).2 _ inside)).1 (by decide)
  have addresses : '\n' ∉ allowed p.host := fun inside =>
    (inline_ne (List.all_eq_true.mp (allowed_inline p.host) _ inside)).1 rfl
  intro line inside
  simp only [Peer.lines, Peer.tail, List.mem_cons, List.not_mem_nil, or_false] at inside
  rcases inside with rfl | rfl | rfl | rfl | rfl
  · exact ⟨_, rfl, name⟩
  · exact ⟨"[Peer]".toList, rfl, by decide⟩
  · exact ⟨_, rfl, by rw [List.mem_append, not_or]; exact ⟨by decide, key p.keyed⟩⟩
  · exact ⟨_, rfl, by rw [List.mem_append, not_or]; exact ⟨by decide, key p.shared⟩⟩
  · exact ⟨_, rfl, by rw [List.mem_append, not_or]; exact ⟨by decide, addresses⟩⟩

/-! The lines behind the interface. -/

section
variable {peers : List Peer} {ls : List (List Char)} {name : String} {skip : ℕ}

theorem Laid.whole (laid : Laid peers ls) : ∀ line ∈ ls, Whole line := by
  induction laid with
  | nil => simp
  | blank _ ih => exact List.forall_mem_cons.mpr ⟨⟨[], rfl, by simp⟩, ih⟩
  | peer p _ _ ih => exact List.forall_mem_append.mpr ⟨peer_whole p, ih⟩

theorem Laid.missing (laid : Laid peers ls) (absent : name ∉ peers.map Peer.name) :
    ∀ line ∈ ls, head name line = false := by
  induction laid with
  | nil => simp
  | blank _ ih => exact List.forall_mem_cons.mpr ⟨head_blank name, ih absent⟩
  | peer p _ _ ih =>
    rw [List.map_cons, List.mem_cons, not_or] at absent
    exact List.forall_mem_append.mpr ⟨peer_missing p absent.1, ih absent.2⟩

/-- The blank line behind a peer can go. -/
theorem Laid.drop (laid : Laid peers ls) (blank : ∀ line ∈ ls.head?, line = ['\n']) (few : skip ≤ 1) :
    Laid peers (ls.drop skip) := by
  match skip, few with
  | 0, _ => exact laid
  | 1, _ =>
    cases laid with
    | nil => exact .nil
    | blank laid => exact laid
    | peer p laid =>
      have same := blank _ rfl
      rw [comment_eq, List.cons_append] at same
      injection same with same
      exact absurd same (by decide)

theorem stops_blank (blank : ∀ line ∈ ls.head?, line = ['\n']) :
    ∀ line ∈ ls.head?, blankLine line = true := by
  intro line first
  rw [blank line first]
  decide

theorem filter_absent (absent : name ∉ peers.map Peer.name) :
    peers.filter (fun p => p.name ≠ name) = peers := by
  refine List.filter_eq_self.mpr fun p inside => decide_eq_true fun same => absent ?_
  exact same ▸ List.mem_map_of_mem inside

/-- A peer is taken out with its lines; the others stay in their order. -/
theorem Laid.without (laid : Laid peers ls) (nodup : (peers.map Peer.name).Nodup) (few : skip ≤ 1) :
    Laid (peers.filter fun p => p.name ≠ name) (without head blankLine skip name ls) := by
  induction laid with
  | nil => exact .nil
  | @blank peers ls laid ih =>
    rw [without_other (head_blank name)]
    exact .blank (ih nodup)
  | @peer peers ls p laid blank ih =>
    rw [List.map_cons, List.nodup_cons] at nodup
    by_cases same : p.name = name
    · subst same
      rw [without_record (peer_record p) (stops_blank blank), List.filter_cons_of_neg (by simp),
        filter_absent nodup.1]
      exact laid.drop blank few
    · rw [without_append (peer_missing p (Ne.symm same)), List.filter_cons_of_pos (by simpa using same)]
      refine .peer p (ih nodup.2) ?_
      intro line first
      cases ls with
      | nil => cases first
      | cons l rest =>
        have plain : head name l = false := by
          rw [blank l rfl]
          exact head_blank name
        rw [without_other plain, List.head?_cons, Option.mem_some_iff] at first
        exact first ▸ blank l rfl

theorem Laid.block (laid : Laid peers ls) (nodup : (peers.map Peer.name).Nodup) {p : Peer}
    (inside : p ∈ peers) : Paragraphs.block head blankLine p.name ls = p.lines := by
  induction laid with
  | nil => cases inside
  | blank _ ih =>
    rw [block_other (head_blank _)]
    exact ih nodup inside
  | @peer peers ls q laid blank ih =>
    rw [List.map_cons, List.nodup_cons] at nodup
    rcases List.mem_cons.mp inside with rfl | later
    · exact block_record (peer_record p) (stops_blank blank)
    · have other : p.name ≠ q.name := fun same => nodup.1 (same ▸ List.mem_map_of_mem later)
      rw [block_append (peer_missing q other)]
      exact ih nodup.2 later

/-- A peer behind a blank line at the end. -/
theorem Laid.append (laid : Laid peers ls) (p : Peer) : Laid (peers ++ [p]) (ls ++ ['\n'] :: p.lines) := by
  induction laid with
  | nil =>
    have last : Laid [p] (p.lines ++ []) := .peer p .nil (by simp)
    rw [List.append_nil] at last
    exact .blank last
  | blank _ ih => exact .blank ih
  | @peer peers ls q laid blank ih =>
    rw [List.append_assoc]
    refine .peer q ih ?_
    intro line first
    cases ls with
    | nil => exact (Option.some.inj first).symm
    | cons l rest => exact blank line first

/-- A block ends with the length of its IPv6 prefix. -/
theorem Peer.block_end (p : Peer) : ∃ front, p.block = front ++ ['8', '\n'] := by
  refine ⟨(comment p.name ++ ['\n']) ++ "[Peer]\n".toList ++
    ("PublicKey = ".toList ++ p.publicKey ++ ['\n']) ++
    ("PresharedKey = ".toList ++ p.preshared ++ ['\n']) ++
    ("AllowedIPs = ".toList ++ ownV4 p.host ++ ", ".toList ++ show6 (managed p.host) ++ "/12".toList), ?_⟩
  simp [Peer.block, Peer.lines, Peer.tail, allowed, ownV6]

/-- The blank lines at the end aside, the text ends in a line that is not blank. -/
theorem Laid.trimmed (laid : Laid peers ls) :
    ∃ front k, ls = front ++ List.replicate k ['\n'] ∧ Laid peers front ∧
      (front = [] ∨ ∃ text c, front.flatten = text ++ [c, '\n'] ∧ whitespace c = false) := by
  induction laid with
  | nil => exact ⟨[], 0, rfl, .nil, .inl rfl⟩
  | @blank peers ls laid ih =>
    obtain ⟨front, k, rfl, held, ends⟩ := ih
    rcases ends with rfl | ⟨text, c, shape, solid⟩
    · exact ⟨[], k + 1, rfl, held, .inl rfl⟩
    · exact ⟨['\n'] :: front, k, rfl, .blank held, .inr ⟨'\n' :: text, c, by
        rw [List.flatten_cons, shape]
        rfl, solid⟩⟩
  | @peer peers ls p laid blank ih =>
    obtain ⟨front, k, rfl, held, ends⟩ := ih
    have first : ∀ line ∈ front.head?, line = ['\n'] := by
      intro line is
      cases front with
      | nil => cases is
      | cons l rest => exact blank line is
    refine ⟨p.lines ++ front, k, by rw [List.append_assoc], .peer p held first, .inr ?_⟩
    rcases ends with rfl | ⟨text, c, shape, solid⟩
    · obtain ⟨text, shape⟩ := p.block_end
      rw [List.append_nil]
      exact ⟨text, '8', shape, by decide⟩
    · refine ⟨p.block ++ text, c, ?_, solid⟩
      rw [List.flatten_append, shape, List.append_assoc]
      rfl

end

end Peers
end NodePlane
