import Mathlib.Data.List.Forall2
import Mathlib.Data.List.Infix
import NodePlane.Awg.PeerTexts

/-! A config of issued peers, as its readers take it: the peer of a name, the sections and their fields. -/
namespace NodePlane
namespace Peers
open Library Paragraphs Readings Tunnel

/-! Fields. -/

theorem trim_lines (text : List Char) : (lines text).map trim = (splitInclusive text).map trim := by
  rw [lines, List.map_map]
  refine List.map_congr_left fun line _ => ?_
  have back : line.reverse.reverse = line := List.reverse_reverse line
  rw [Function.comp_apply]
  split
  · rename_i rest shape
    rw [shape, List.reverse_cons, List.reverse_cons] at back
    rw [← back, trim_end, trim_white (by decide)]
  · rename_i rest _ shape
    rw [shape, List.reverse_cons] at back
    rw [← back, trim_end]
  · rfl

/-- The entries of lines, in order. -/
def entries (ls : List (List Char)) : List (List Char × List Char) :=
  ls.filterMap fun line => splitOnce (trim line)

theorem entries_none {line : List Char} {ls : List (List Char)} (none_ : splitOnce (trim line) = none) :
    entries (line :: ls) = entries ls := List.filterMap_cons_none none_

def table (list : List (List Char × List Char)) : BTreeMap String String :=
  list.foldl (fun fields entry =>
    fields.insert (String.ofList (trim entry.1)) (String.ofList (trim entry.2))) ∅

theorem fields_eq (text : List Char) : Awg.fields text = table (entries (splitInclusive text)) := by
  have same : (lines text).filterMap (fun line => splitOnce (trim line)) =
      (splitInclusive text).filterMap fun line => splitOnce (trim line) := by
    have left : ((lines text).map trim).filterMap splitOnce =
        (lines text).filterMap fun line => splitOnce (trim line) := List.filterMap_map
    have right : ((splitInclusive text).map trim).filterMap splitOnce =
        (splitInclusive text).filterMap fun line => splitOnce (trim line) := List.filterMap_map
    rw [trim_lines, right] at left
    exact left.symm
  rw [Awg.fields, same]
  rfl

/-- Lines without entries. -/
def Quiet (text : List Char) : Prop :=
  ∃ ls : List (List Char), text = ls.flatten ∧ ∀ line ∈ ls, Whole line ∧ '=' ∉ line

theorem trim_subset {line : List Char} {c : Char} (inside : c ∈ trim line) : c ∈ line := by
  rw [trim, List.mem_reverse] at inside
  have front := (List.dropWhile_sublist _).subset inside
  exact (List.dropWhile_sublist _).subset (List.mem_reverse.mp front)

theorem splitOnce_none {line : List Char} (plain : '=' ∉ line) : splitOnce line = none := by
  have all : ∀ c ∈ line, decide (c ≠ '=') = true :=
    fun c inside => decide_eq_true fun same => plain (same ▸ inside)
  rw [splitOnce, List.span_eq_takeWhile_dropWhile, List.dropWhile_eq_nil_iff.mpr all]

theorem fields_quiet {ls : List (List Char)} (whole : ∀ line ∈ ls, Whole line) {noise : List Char}
    (quiet : Quiet noise) : Awg.fields (ls.flatten ++ noise) = Awg.fields ls.flatten := by
  obtain ⟨more, rfl, still⟩ := quiet
  have none_ : entries more = [] := by
    refine List.filterMap_eq_nil_iff.mpr fun line inside => splitOnce_none ?_
    exact fun at_ => (still line inside).2 (trim_subset at_)
  rw [fields_eq, fields_eq, splitInclusive_append whole, splitInclusive_flatten whole,
    splitInclusive_flatten fun line inside => (still line inside).1]
  change table (List.filterMap _ (ls ++ more)) = _
  rw [List.filterMap_append]
  change table (entries ls ++ entries more) = _
  rw [none_, List.append_nil]

theorem entry_line {key value : List Char} (plain : '=' ∉ key)
    (first : ∃ c rest, key = c :: rest ∧ whitespace c = false)
    (last : ∃ front c, value = front ++ [c] ∧ whitespace c = false) :
    splitOnce (trim (key ++ " = ".toList ++ value ++ ['\n'])) = some (key ++ [' '], ' ' :: value) := by
  have solid : trim (key ++ " = ".toList ++ value) = key ++ " = ".toList ++ value := by
    obtain ⟨c, rest, rfl, white⟩ := first
    obtain ⟨front, d, rfl, ends⟩ := last
    refine trim_solid ?_ ?_
    · intro x is
      cases is
      exact white
    · intro x is
      rw [← List.append_assoc, List.getLast?_append, List.getLast?_singleton, Option.some_or,
        Option.mem_some_iff] at is
      exact is ▸ ends
  have before : ∀ c ∈ key ++ [' '], decide (c ≠ '=') = true := by
    intro c inside
    refine decide_eq_true fun same => ?_
    rcases List.mem_append.mp inside with front | space
    · exact plain (same ▸ front)
    · rw [List.mem_singleton.mp space] at same
      exact absurd same (by decide)
  have shape : key ++ " = ".toList ++ value = (key ++ [' ']) ++ '=' :: ' ' :: value := by simp
  rw [trim_end, solid, splitOnce, shape, List.span_eq_takeWhile_dropWhile,
    List.takeWhile_append_of_pos before, List.dropWhile_append_of_pos before,
    List.takeWhile_cons_of_neg (by decide), List.dropWhile_cons_of_neg (by decide), List.append_nil]

theorem key_ends {key : List Char} (valid : validKey key = true) :
    (∀ c ∈ key, whitespace c = false) ∧ ∃ front c, key = front ++ [c] ∧ whitespace c = false := by
  rw [validKey, Bool.and_eq_true, Bool.not_eq_true', List.isEmpty_eq_false_iff] at valid
  have white : ∀ c ∈ key, whitespace c = false := fun c inside =>
    plain_white (keyChar_plain (List.all_eq_true.mp valid.2 c inside))
  refine ⟨white, key.dropLast, key.getLast valid.1, (List.dropLast_append_getLast valid.1).symm, ?_⟩
  exact white _ (List.getLast_mem valid.1)

theorem allowed_ends (host : Fin 256) :
    (∃ c rest, allowed host = c :: rest ∧ whitespace c = false) ∧
      ∃ front c, allowed host = front ++ [c] ∧ whitespace c = false := by
  constructor
  · exact ⟨'1', "0.8.1.".toList ++ Nat.toDigits 10 host ++ "/32".toList ++ ", ".toList ++ ownV6 host, by
      simp [allowed, ownV4, Ipv4Addr.show, peerAddress]
      rfl, by decide⟩
  · exact ⟨ownV4 host ++ ", ".toList ++ show6 (managed host) ++ "/12".toList, '8', by
      simp [allowed, ownV6], by decide⟩

/-- What a peer's lines say. -/
def Peer.fields (p : Peer) : BTreeMap String String :=
  table [("PublicKey ".toList, ' ' :: p.publicKey), ("PresharedKey ".toList, ' ' :: p.preshared),
    ("AllowedIPs ".toList, ' ' :: allowed p.host)]

theorem entries_tail (p : Peer) : table (entries p.tail) = p.fields := by
  have key := entry_line (by decide : '=' ∉ "PublicKey".toList) ⟨_, _, rfl, by decide⟩ (key_ends p.keyed).2
  have shared := entry_line (by decide : '=' ∉ "PresharedKey".toList) ⟨_, _, rfl, by decide⟩
    (key_ends p.shared).2
  have addresses := entry_line (by decide : '=' ∉ "AllowedIPs".toList) ⟨_, _, rfl, by decide⟩
    (allowed_ends p.host).2
  change splitOnce (trim ("PublicKey = ".toList ++ p.publicKey ++ ['\n'])) = _ at key
  change splitOnce (trim ("PresharedKey = ".toList ++ p.preshared ++ ['\n'])) = _ at shared
  change splitOnce (trim ("AllowedIPs = ".toList ++ allowed p.host ++ ['\n'])) = _ at addresses
  rw [entries, Peer.tail]
  simp only [List.filterMap_cons, List.filterMap_nil, key, shared, addresses]
  rfl

theorem field_allowed {text : List Char} {p : Peer} (read : Awg.fields text = p.fields) :
    field text "AllowedIPs" = some (allowed p.host) := by
  have value : trim (' ' :: allowed p.host) = allowed p.host := by
    obtain ⟨⟨c, rest, front, white⟩, back, d, ends, last⟩ := allowed_ends p.host
    rw [trim_cons (by decide)]
    refine trim_solid ?_ ?_
    · intro x is
      rw [front, List.head?_cons, Option.mem_some_iff] at is
      exact is ▸ white
    · intro x is
      rw [ends, List.getLast?_append, List.getLast?_singleton, Option.some_or, Option.mem_some_iff] at is
      exact is ▸ last
  rw [field, read, Peer.fields, table]
  simp only [List.foldl_cons, List.foldl_nil]
  rw [BTreeMap.get_insert, if_pos (by decide), value]
  exact congrArg some String.toList_ofList

/-! The block of a peer. -/

/-- The lines of a peer from its brackets on, without them. -/
def Peer.rest (p : Peer) : List Char := (['\n'] :: p.tail).flatten

theorem tail_whole (p : Peer) : ∀ line ∈ p.tail, Whole line := fun line inside =>
  peer_whole p line (List.mem_cons_of_mem _ (List.mem_cons_of_mem _ inside))

theorem rest_whole (p : Peer) : ∀ line ∈ ['\n'] :: p.tail, Whole line :=
  List.forall_mem_cons.mpr ⟨⟨[], rfl, by simp⟩, tail_whole p⟩

theorem comment_quiet {name : String} (valid : validPeer name = true) :
    '=' ∉ comment name ++ ['\n'] := by
  rw [comment_eq]
  intro inside
  simp only [List.cons_append, List.mem_cons, List.mem_append, List.not_mem_nil, or_false] at inside
  rcases inside with is | is | is | is
  · exact absurd is (by decide)
  · exact absurd is (by decide)
  · exact (nameChar_plain ((named_chars valid).2 _ is)).2 rfl
  · exact absurd is (by decide)

theorem fields_block (p : Peer) : Awg.fields p.block = p.fields := by
  have plain : splitOnce (trim (comment p.name ++ ['\n'])) = none :=
    splitOnce_none fun inside => comment_quiet p.named (trim_subset inside)
  have brackets : splitOnce (trim "[Peer]\n".toList) = none := by decide
  rw [fields_eq, Peer.block, splitInclusive_flatten (peer_whole p), Peer.lines, entries_none plain,
    entries_none brackets]
  exact entries_tail p

theorem fields_rest (p : Peer) {noise : List Char} (quiet : Quiet noise) :
    Awg.fields (p.rest ++ noise) = p.fields := by
  have blank : splitOnce (trim ['\n']) = none := by decide
  rw [Peer.rest, fields_quiet (rest_whole p) quiet, fields_eq, splitInclusive_flatten (rest_whole p),
    entries_none blank]
  exact entries_tail p

/-! Sections. -/

/-- A text that is empty or ends with a line. -/
def Ended (text : List Char) : Prop := text = [] ∨ ∃ front, text = front ++ ['\n']

theorem contains_cons {c : Char} {text : List Char} (clear : contains (c :: text) peerTag = false) :
    ¬ peerTag <+: c :: text ∧ contains text peerTag = false := by
  rw [contains, List.tails_cons, List.any_cons, Bool.or_eq_false_iff] at clear
  refine ⟨fun starts => ?_, clear.2⟩
  rw [← List.isPrefixOf_iff_prefix, clear.1] at starts
  cases starts

theorem Ended.tail {c : Char} {text : List Char} (ended : Ended (c :: text)) : Ended text := by
  rcases ended with none_ | ⟨front, shape⟩
  · cases none_
  · cases front with
    | nil =>
      injection shape with _ shape
      exact .inl shape
    | cons d front =>
      injection shape with _ shape
      exact .inr ⟨front, shape⟩

/-- No section starts inside a line that ends before it. -/
theorem starts_apart {c : Char} {text more : List Char} (clear : contains (c :: text) peerTag = false)
    (ended : Ended (c :: text)) : peerTag.isPrefixOf (c :: (text ++ more)) = false := by
  refine Bool.eq_false_iff.mpr fun starts => ?_
  rw [List.isPrefixOf_iff_prefix, ← List.cons_append] at starts
  rcases List.prefix_or_prefix_of_prefix starts (List.prefix_append (c :: text) more) with short | long
  · exact (contains_cons clear).1 short
  · rcases ended with none_ | ⟨front, shape⟩
    · cases none_
    · rw [shape] at long
      have inside : '\n' ∈ peerTag := long.subset (List.mem_append_right front List.mem_cons_self)
      exact absurd inside (by decide)

theorem sections_split {front : List Char} (clear : contains front peerTag = false) (ended : Ended front)
    (more : List Char) : sections (front ++ (peerTag ++ more)) = front :: sections more := by
  induction front with
  | nil => rfl
  | cons c front ih =>
    rw [sections, List.cons_append, splitFrom, if_neg (by rw [starts_apart clear ended]; decide)]
    change (sections (front ++ (peerTag ++ more))).modifyHead _ = _
    rw [ih (contains_cons clear).2 ended.tail]
    rfl

theorem sections_none {text : List Char} (clear : contains text peerTag = false) (ended : Ended text) :
    sections text = [text] := by
  induction text with
  | nil => rfl
  | cons c text ih =>
    have apart : peerTag.isPrefixOf (c :: (text ++ [])) = false := starts_apart clear ended
    rw [List.append_nil] at apart
    rw [sections, splitFrom, if_neg (by rw [apart]; decide)]
    change (sections text).modifyHead _ = _
    rw [ih (contains_cons clear).2 ended.tail]
    rfl

theorem contains_append {front more : List Char} (clear : contains front peerTag = false)
    (ended : Ended front) (rest : contains more peerTag = false) :
    contains (front ++ more) peerTag = false := by
  induction front with
  | nil => exact rest
  | cons c front ih =>
    rw [List.cons_append, contains, List.tails_cons, List.any_cons, starts_apart clear ended, Bool.false_or]
    exact ih (contains_cons clear).2 ended.tail

theorem contains_plain {text : List Char} (plain : '[' ∉ text) : contains text peerTag = false := by
  induction text with
  | nil => rfl
  | cons c text ih =>
    rw [List.mem_cons, not_or] at plain
    rw [contains, List.tails_cons, List.any_cons, Bool.or_eq_false_iff]
    refine ⟨Bool.eq_false_iff.mpr fun starts => plain.1 ?_, ih plain.2⟩
    rw [List.isPrefixOf_iff_prefix] at starts
    exact (List.cons_prefix_cons.mp starts).1

theorem rest_plain (p : Peer) : '[' ∉ p.rest ∧ Ended p.rest := by
  have key {text : List Char} (valid : validKey text = true) : '[' ∉ text := by
    intro inside
    rw [validKey, Bool.and_eq_true] at valid
    exact absurd (keyChar_plain (List.all_eq_true.mp valid.2 _ inside)) (by decide)
  have addresses : '[' ∉ allowed p.host := fun inside =>
    (inline_ne (List.all_eq_true.mp (allowed_inline p.host) _ inside)).2 rfl
  constructor
  · simp only [Peer.rest, Peer.tail, List.flatten_cons, List.flatten_nil, List.mem_append, not_or]
    exact ⟨by decide, ⟨⟨by decide, key p.keyed⟩, by decide⟩,
      ⟨⟨by decide, key p.shared⟩, by decide⟩, ⟨⟨by decide, addresses⟩, by decide⟩, by decide⟩
  · refine .inr ⟨['\n'] ++ ("PublicKey = ".toList ++ p.publicKey ++ ['\n']) ++
      ("PresharedKey = ".toList ++ p.preshared ++ ['\n']) ++ ("AllowedIPs = ".toList ++ allowed p.host), ?_⟩
    simp [Peer.rest, Peer.tail]

theorem Quiet.cons {line noise : List Char} (quiet : Quiet noise) (whole : Whole line)
    (plain : '=' ∉ line) : Quiet (line ++ noise) := by
  obtain ⟨ls, rfl, still⟩ := quiet
  exact ⟨line :: ls, rfl, List.forall_mem_cons.mpr ⟨⟨whole, plain⟩, still⟩⟩

/-- A section that holds what one peer's lines say. -/
def SectionOf (p : Peer) (piece : List Char) : Prop := ∃ noise, Quiet noise ∧ piece = p.rest ++ noise

/-- What stands before the peers is followed by nothing that says more; each peer has its section. -/
theorem Laid.sections {peers : List Peer} {ls : List (List Char)} (laid : Laid peers ls) :
    ∀ front, contains front peerTag = false → Ended front → ∃ noise more, Quiet noise ∧
      Peers.sections (front ++ ls.flatten) = (front ++ noise) :: more ∧
        List.Forall₂ SectionOf peers more := by
  induction laid with
  | nil =>
    intro front clear ended
    refine ⟨[], [], ⟨[], rfl, by simp⟩, ?_, .nil⟩
    rw [List.flatten_nil, List.append_nil, sections_none clear ended]
  | blank _ ih =>
    intro front clear ended
    obtain ⟨noise, more, quiet, split, each⟩ := ih (front ++ ['\n'])
      (contains_append clear ended (by decide)) (.inr ⟨front, rfl⟩)
    refine ⟨['\n'] ++ noise, more, quiet.cons ⟨[], rfl, by simp⟩ (by decide), ?_, each⟩
    rw [List.flatten_cons, ← List.append_assoc, split, List.append_assoc]
  | @peer peers ls p laid _ ih =>
    intro front clear ended
    obtain ⟨plain, ends⟩ := rest_plain p
    obtain ⟨noise, more, quiet, split, each⟩ := ih p.rest (contains_plain plain) ends
    have line : contains (comment p.name ++ ['\n']) peerTag = false := by
      refine contains_plain fun inside => ?_
      rw [comment_eq] at inside
      simp only [List.cons_append, List.mem_cons, List.mem_append, List.not_mem_nil, or_false] at inside
      rcases inside with is | is | is | is
      · exact absurd is (by decide)
      · exact absurd is (by decide)
      · exact absurd (nameChar_plain ((named_chars p.named).2 _ is)).1 (by decide)
      · exact absurd is (by decide)
    have shape : front ++ (p.lines ++ ls).flatten =
        (front ++ (comment p.name ++ ['\n'])) ++ (peerTag ++ (p.rest ++ ls.flatten)) := by
      simp [Peer.lines, Peer.rest, peerTag]
    refine ⟨comment p.name ++ ['\n'], (p.rest ++ noise) :: more, ?_, ?_, .cons ⟨noise, quiet, rfl⟩ each⟩
    · have one := Quiet.cons ⟨[], rfl, by simp⟩ (peer_whole p _ List.mem_cons_self)
        (comment_quiet p.named)
      rwa [List.flatten_nil, List.append_nil] at one
    · rw [shape, sections_split (contains_append clear ended line)
        (.inr ⟨front ++ comment p.name, by rw [List.append_assoc]⟩), split]

/-! Configs. -/

/-- The interface and these peers behind it. -/
def Config (i : Interface) (peers : List Peer) (text : List Char) : Prop :=
  ∃ ls, Laid peers ls ∧ text = i.text ++ ls.flatten

theorem splitPeer_eq (text : List Char) (name : String) :
    Awg.splitPeer text name =
      if block head blankLine name (splitInclusive text) = [] then (text, [])
      else ((without head blankLine 0 name (splitInclusive text)).flatten,
        (block head blankLine name (splitInclusive text)).flatten) := by
  have heads : (fun line => decide (trim line ≠ ("# " ++ name).toList)) = fun line => !head name line := by
    funext line
    rw [head, comment, ← decide_not]
  have blanks : (fun line => decide (trim line ≠ [])) = fun line => !blankLine line := by
    funext line
    rw [blankLine, ← decide_not]
  rw [Awg.splitPeer, block, without, List.span_eq_takeWhile_dropWhile, heads]
  cases (splitInclusive text).dropWhile fun line => !head name line with
  | nil => rw [if_pos rfl]
  | cons first rest =>
    dsimp only
    rw [if_neg (List.cons_ne_nil _ _), List.span_eq_takeWhile_dropWhile, blanks]
    rfl

section
variable {i : Interface} {peers : List Peer} {text : List Char} {name : String}

theorem Config.headless (i : Interface) (valid : validPeer name = true) :
    ∀ line ∈ i.lines, head name line = false := fun line inside =>
  decide_eq_false (i.headless line inside name valid)

theorem splitInclusive_config {ls : List (List Char)} (laid : Laid peers ls) :
    splitInclusive (i.text ++ ls.flatten) = i.lines ++ ls := by
  have whole : ∀ line ∈ i.lines ++ ls, Whole line := List.forall_mem_append.mpr ⟨i.whole, laid.whole⟩
  rw [← i.flatten, ← List.flatten_append, splitInclusive_flatten whole]

/-- A peer of the config is split off with its lines. -/
theorem Config.split (config : Config i peers text) (nodup : (peers.map Peer.name).Nodup) {p : Peer}
    (inside : p ∈ peers) : ∃ rest, Awg.splitPeer text p.name = (rest, p.block) ∧
      Config i (peers.filter fun q => q.name ≠ p.name) rest := by
  obtain ⟨ls, laid, rfl⟩ := config
  have plain := Config.headless i p.named
  have some_ : p.lines ≠ [] := List.cons_ne_nil _ _
  refine ⟨i.text ++ (without head blankLine 0 p.name ls).flatten, ?_, _, laid.without nodup (by decide), rfl⟩
  rw [splitPeer_eq, splitInclusive_config laid, block_append plain, without_append plain,
    laid.block nodup inside, if_neg some_, List.flatten_append, i.flatten]
  rfl

theorem Config.split_absent (config : Config i peers text) (valid : validPeer name = true)
    (absent : name ∉ peers.map Peer.name) : Awg.splitPeer text name = (text, []) := by
  obtain ⟨ls, laid, rfl⟩ := config
  rw [splitPeer_eq, splitInclusive_config laid, block_append (Config.headless i valid),
    block_missing (laid.missing absent), if_pos rfl]

/-- The rest of a split holds the other peers, whether or not the name was there. -/
theorem Config.rest (config : Config i peers text) (nodup : (peers.map Peer.name).Nodup)
    (valid : validPeer name = true) :
    Config i (peers.filter fun q => q.name ≠ name) (Awg.splitPeer text name).1 := by
  by_cases inside : name ∈ peers.map Peer.name
  · obtain ⟨p, listed, rfl⟩ := List.mem_map.mp inside
    obtain ⟨rest, split, held⟩ := config.split nodup listed
    rw [split]
    exact held
  · rw [config.split_absent valid inside, filter_absent inside]
    exact config

theorem trimEnd_blank {line : List Char} (blank : ∀ c ∈ line, whitespace c = true) (front : List Char)
    {c : Char} (solid : whitespace c = false) : trimEnd (front ++ [c] ++ line) = front ++ [c] := by
  have back : ∀ d ∈ line.reverse, whitespace d = true := fun d inside => blank d (List.mem_reverse.mp inside)
  rw [trimEnd, List.rdropWhile, List.reverse_append, List.dropWhile_append_of_pos back,
    List.reverse_append, List.reverse_singleton, List.singleton_append,
    List.dropWhile_cons_of_neg (by simp [solid]), List.reverse_cons, List.reverse_reverse]

/-- A peer written behind the config without its last blank lines, as a restoration does. -/
theorem Config.restored (config : Config i peers text) (p : Peer) :
    Config i (peers ++ [p]) (trimEnd text ++ ['\n', '\n'] ++ trimEnd p.block ++ ['\n']) := by
  obtain ⟨ls, laid, rfl⟩ := config
  obtain ⟨front, k, rfl, held, ends⟩ := laid.trimmed
  have blanks : ∀ k, ∀ c ∈ ['\n'] ++ (List.replicate k ['\n']).flatten, whitespace c = true := by
    intro k c inside
    have same : c = '\n' := by
      rcases List.mem_append.mp inside with first | later
      · exact List.mem_singleton.mp first
      · obtain ⟨line, listed, is⟩ := List.mem_flatten.mp later
        rw [List.eq_of_mem_replicate listed] at is
        exact List.mem_singleton.mp is
    rw [same]
    decide
  have whole : trimEnd (i.text ++ (front ++ List.replicate k ['\n']).flatten) ++ ['\n'] =
      i.text ++ front.flatten := by
    rcases ends with rfl | ⟨before, c, shape, solid⟩
    · obtain ⟨before, c, shape, solid⟩ := i.solid
      have cut := trimEnd_blank (blanks k) before solid
      rw [List.nil_append, List.flatten_nil, List.append_nil, Interface.text, shape, List.append_assoc,
        cut]
    · have cut := trimEnd_blank (blanks k) (i.text ++ before) solid
      have split : i.text ++ (front ++ List.replicate k ['\n']).flatten =
          i.text ++ before ++ [c] ++ (['\n'] ++ (List.replicate k ['\n']).flatten) := by
        rw [List.flatten_append, shape]
        simp
      rw [split, cut, shape]
      simp
  have peer : trimEnd p.block ++ ['\n'] = p.block := by
    obtain ⟨before, shape⟩ := p.block_end
    have line : before ++ ['8', '\n'] = before ++ ['8'] ++ ['\n'] := by simp
    have newline : ∀ c ∈ ['\n'], whitespace c = true := by
      intro c inside
      rw [List.mem_singleton.mp inside]
      decide
    rw [shape, line, trimEnd_blank newline before (by decide)]
  refine ⟨_, held.append p, ?_⟩
  have joined : trimEnd (i.text ++ (front ++ List.replicate k ['\n']).flatten) ++ ['\n', '\n'] ++
      trimEnd p.block ++ ['\n'] = (trimEnd (i.text ++ (front ++ List.replicate k ['\n']).flatten) ++ ['\n']) ++
        ['\n'] ++ (trimEnd p.block ++ ['\n']) := by simp
  rw [joined, whole, peer]
  simp [Peer.block]

theorem newBlock_eq (p : Peer) :
    newBlock p.name p.publicKey p.preshared (allowed p.host) = ['\n'] ++ p.block := by
  simp [newBlock, Peer.block, Peer.lines, Peer.tail]

/-- A new peer behind the config's last line. -/
theorem Config.issued (config : Config i peers text) (p : Peer) :
    Config i (peers ++ [p]) (text ++ newBlock p.name p.publicKey p.preshared (allowed p.host)) := by
  obtain ⟨ls, laid, rfl⟩ := config
  refine ⟨_, laid.append p, ?_⟩
  rw [newBlock_eq]
  simp [Peer.block]

/-- The fields of the interface section stay its own. -/
theorem Config.interface (config : Config i peers text) :
    field ((sections text).headD []) "PrivateKey" = field i.text "PrivateKey" := by
  obtain ⟨ls, laid, rfl⟩ := config
  obtain ⟨noise, more, quiet, split, -⟩ := laid.sections i.text i.clear (.inr ⟨i.body, rfl⟩)
  have same := fields_quiet i.whole quiet
  rw [i.flatten] at same
  rw [split, List.headD_cons, field, same]
  rfl

/-- Every peer has its section, and every section behind the interface is a peer's. -/
theorem Config.blocks (config : Config i peers text) : List.Forall₂ SectionOf peers (peerBlocks text) := by
  obtain ⟨ls, laid, rfl⟩ := config
  obtain ⟨noise, more, -, split, each⟩ := laid.sections i.text i.clear (.inr ⟨i.body, rfl⟩)
  rw [peerBlocks, split]
  exact each

theorem SectionOf.allowed {p : Peer} {piece : List Char} (section_ : SectionOf p piece) :
    field piece "AllowedIPs" = some (Tunnel.allowed p.host) := by
  obtain ⟨noise, quiet, rfl⟩ := section_
  exact field_allowed (fields_rest p quiet)

theorem trim_lines_mem {line : List Char} (text : List Char) (inside : line ∈ lines text) :
    ∃ whole ∈ splitInclusive text, trim whole = trim line := by
  have mapped : trim line ∈ (lines text).map trim := List.mem_map_of_mem inside
  rw [trim_lines] at mapped
  exact List.mem_map.mp mapped

theorem mem_lines {text content : List Char} (inside : content ++ ['\n'] ∈ splitInclusive text)
    (plain : ∀ rest, content.reverse ≠ '\r' :: rest) : content ∈ lines text := by
  rw [lines, List.mem_map]
  refine ⟨_, inside, ?_⟩
  rw [List.reverse_append, List.reverse_singleton, List.singleton_append]
  split
  · rename_i rest shape
    injection shape with _ shape
    exact absurd shape (plain rest)
  · rename_i rest _ shape
    injection shape with _ shape
    rw [← shape, List.reverse_reverse]
  · rename_i other
    exact absurd rfl (other content.reverse)

/-- The comment line of a name is in the config where its peer is. -/
theorem Config.listed (config : Config i peers text) (valid : validPeer name = true) :
    comment name ∈ lines text ↔ name ∈ peers.map Peer.name := by
  obtain ⟨ls, laid, rfl⟩ := config
  constructor
  · intro inside
    by_contra absent
    obtain ⟨whole, listed, trimmed⟩ := trim_lines_mem _ inside
    have bare := trim_comment valid
    rw [trim_end] at bare
    rw [splitInclusive_config laid] at listed
    have missing := List.forall_mem_append.mpr ⟨Config.headless i valid, laid.missing absent⟩ whole listed
    rw [head, trimmed, bare] at missing
    exact absurd missing (by simp)
  · intro inside
    obtain ⟨p, listed, rfl⟩ := List.mem_map.mp inside
    have there : comment p.name ++ ['\n'] ∈ splitInclusive (i.text ++ ls.flatten) := by
      rw [splitInclusive_config laid]
      refine List.mem_append_right _ ?_
      clear valid inside
      induction laid with
      | nil => cases listed
      | blank _ ih => exact List.mem_cons_of_mem _ (ih listed)
      | peer q _ _ ih =>
        rcases List.mem_cons.mp listed with rfl | later
        · exact List.mem_append_left _ List.mem_cons_self
        · exact List.mem_append_right _ (ih later)
    refine mem_lines there fun rest same => ?_
    have inside : '\r' ∈ comment p.name := List.mem_reverse.mp (same ▸ List.mem_cons_self)
    rw [comment_eq] at inside
    rcases List.mem_cons.mp inside with is | inside
    · exact absurd is (by decide)
    · rcases List.mem_cons.mp inside with is | inside
      · exact absurd is (by decide)
      · exact absurd (nameChar_plain ((named_chars p.named).2 _ inside)).1 (by decide)

end

end Peers
end NodePlane
