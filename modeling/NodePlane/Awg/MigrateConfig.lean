import NodePlane.Awg.AddressLists

/-! The migration of a server config to IPv6: the interface gets the server's address and each peer its
managed one, and a config that has them stays as it is. -/
namespace NodePlane
namespace Peers
open Library Readings Tunnel

/-- The value of a `KEY = VALUE` line. -/
def lineValue (key content : List Char) : Option (List Char) :=
  ((stripPrefix content key).bind fun rest =>
    (stripPrefix (rest.dropWhile blankOrTab) ['=']).map (·.dropWhile blankOrTab)).filter fun value =>
      value ≠ [] && '\r' ∉ value

/-- A line without its end, and the end. -/
def lineEnd (line : List Char) : List Char × List Char :=
  if line.getLast? = some '\n' then (line.dropLast, ['\n']) else (line, [])

def rewriteLine (key : List Char) (value : List Char → Except String (List Char)) (line : List Char) :
    Except String (List Char) :=
  match lineValue key (lineEnd line).1 with
  | some current => (value current).map fun next => key ++ " = ".toList ++ next ++ (lineEnd line).2
  | none => .ok line

def rewrite (key : List Char) (value : List Char → Except String (List Char)) (text : List Char) :
    Except String (List Char) :=
  ((splitInclusive text).mapM (rewriteLine key value)).map List.flatten

/-- The server config with the tunnel's IPv6 addresses. -/
def migrate (text : List Char) : Except String (List Char) := do
  let server ← interface serverAddress
  let first ← rewrite "Address".toList (withServer server.1) ((sections text).headD [])
  let peers ← (peerBlocks text).mapM (rewrite "AllowedIPs".toList dualAddresses)
  return peerTag.intercalate (first :: peers)

/-! Lines. -/

/-- The lines of a text: only the last one may be without an end. -/
inductive Lined : List (List Char) → Prop
  | nil : Lined []
  | last {content : List Char} (some_ : content ≠ []) (plain : '\n' ∉ content) : Lined [content]
  | cons {line : List Char} {rest : List (List Char)} (whole : Whole line) (more : Lined rest) :
      Lined (line :: rest)

theorem lined_split (text : List Char) : Lined (splitInclusive text) := by
  induction text with
  | nil => exact .nil
  | cons c text ih =>
    rw [splitInclusive]
    split
    · next same => exact .cons ⟨[], by rw [same]; rfl, List.not_mem_nil⟩ ih
    · next other =>
      have apart : '\n' ∉ [c] := by simpa [eq_comm] using other
      cases shape : splitInclusive text with
      | nil => exact .last (List.cons_ne_nil c []) apart
      | cons line more =>
        rw [shape] at ih
        cases ih with
        | last some_ plain =>
          exact .last (List.cons_ne_nil _ _) (by simpa [eq_comm, other] using plain)
        | cons whole more =>
          obtain ⟨content, rfl, plain⟩ := whole
          exact .cons ⟨c :: content, rfl, by simpa [eq_comm, other] using plain⟩ more

theorem splitInclusive_last {content : List Char} (some_ : content ≠ []) (plain : '\n' ∉ content) :
    splitInclusive content = [content] := by
  induction content with
  | nil => exact absurd rfl some_
  | cons c content ih =>
    rw [List.mem_cons, not_or] at plain
    rw [splitInclusive, if_neg (Ne.symm plain.1)]
    cases content with
    | nil => rfl
    | cons d content => rw [ih (List.cons_ne_nil _ _) plain.2]

theorem split_lined {ls : List (List Char)} (lined : Lined ls) : splitInclusive ls.flatten = ls := by
  induction lined with
  | nil => rfl
  | last some_ plain => simpa using splitInclusive_last some_ plain
  | cons whole more ih =>
    obtain ⟨content, rfl, plain⟩ := whole
    rw [List.flatten_cons, List.append_assoc, List.singleton_append, splitInclusive_line plain, ih]

theorem lineEnd_whole {content : List Char} : lineEnd (content ++ ['\n']) = (content, ['\n']) := by
  simp [lineEnd]

theorem lineEnd_last {content : List Char} (plain : '\n' ∉ content) : lineEnd content = (content, []) := by
  rw [lineEnd, if_neg]
  exact fun last => plain (List.mem_of_mem_getLast? last)

theorem lineEnd_ends (text : List Char) (plain : '\n' ∉ text) : lineEnd (text ++ []) = (text, []) := by
  rw [List.append_nil, lineEnd_last plain]

/-! One line. -/

theorem lineValue_subset {key content current : List Char} (read : lineValue key content = some current) :
    current ⊆ content := by
  obtain ⟨found, -⟩ := Option.filter_eq_some_iff.mp read
  obtain ⟨rest, front, found⟩ := Option.bind_eq_some_iff.mp found
  obtain ⟨behind, equals, rfl⟩ := Option.map_eq_some_iff.mp found
  have drops : ∀ {text start rest : List Char}, stripPrefix text start = some rest → rest ⊆ text := by
    intro text start rest stripped
    unfold stripPrefix at stripped
    split at stripped
    · cases stripped
      exact List.drop_subset _ _
    · cases stripped
  exact fun c inside => drops front (List.dropWhile_subset _ (drops equals (List.dropWhile_subset _ inside)))

/-- A rewritten line has the value that was written. -/
theorem lineValue_written {key next : List Char} (starts : ∀ c ∈ next.head?, whitespace c = false) :
    lineValue key (key ++ " = ".toList ++ next) =
      if next ≠ [] ∧ '\r' ∉ next then some next else none := by
  have front : stripPrefix (key ++ " = ".toList ++ next) key = some (" = ".toList ++ next) := by
    rw [stripPrefix, List.append_assoc, if_pos (List.isPrefixOf_iff_prefix.mpr (List.prefix_append _ _)),
      List.drop_left]
  have blanks : (' ' :: next).dropWhile blankOrTab = next := by
    rw [List.dropWhile_cons_of_pos (by decide)]
    cases next with
    | nil => rfl
    | cons c next =>
      refine List.dropWhile_cons_of_neg fun blank => ?_
      have solid := starts c rfl
      rw [blankOrTab, Bool.or_eq_true, decide_eq_true_iff, decide_eq_true_iff] at blank
      rcases blank with rfl | rfl <;> exact absurd solid (by decide)
  have equals : stripPrefix ((" = ".toList ++ next).dropWhile blankOrTab) ['='] = some (' ' :: next) := rfl
  rw [lineValue, front, Option.bind_some, equals, Option.map_some, blanks, Option.filter_some]
  by_cases kept : next ≠ [] ∧ '\r' ∉ next
  · rw [if_pos kept, if_pos (by simp [kept])]
  · rw [if_neg kept, if_neg (by simpa using kept)]

section
variable {key : List Char} {value : List Char → Except String (List Char)}

/-- The content of a rewritten line: the same, or the key with its new value. -/
theorem rewriteLine_cases {line line' : List Char} (read : rewriteLine key value line = .ok line') :
    line' = line ∧ lineValue key (lineEnd line).1 = none ∨
      ∃ current next, lineValue key (lineEnd line).1 = some current ∧ value current = .ok next ∧
        line' = key ++ " = ".toList ++ next ++ (lineEnd line).2 := by
  unfold rewriteLine at read
  split at read
  · next current found =>
    cases one : value current with
    | error e => rw [one] at read; cases read
    | ok next =>
      rw [one] at read
      cases read
      exact .inr ⟨current, next, found, one, rfl⟩
  · next none =>
    cases read
    exact .inl ⟨rfl, none⟩

variable (settles : Settles value) (plainKey : '\n' ∉ key) (bareKey : '[' ∉ key)
include settles plainKey

/-- Line ends stay, and a line that was rewritten stays as it is. -/
theorem rewriteLine_again {content ending line' : List Char} (plain : '\n' ∉ content)
    (ends : ∀ text : List Char, '\n' ∉ text → lineEnd (text ++ ending) = (text, ending))
    (read : rewriteLine key value (content ++ ending) = .ok line') :
    ∃ after, line' = after ++ ending ∧ '\n' ∉ after ∧ (content ≠ [] → after ≠ []) ∧
      rewriteLine key value line' = .ok line' := by
  rcases rewriteLine_cases read with ⟨rfl, none_⟩ | ⟨current, next, found, one, rfl⟩
  · refine ⟨content, rfl, plain, id, ?_⟩
    rw [rewriteLine, none_]
  · rw [ends content plain] at found ⊢
    have plainNext := settles.plain one
    have line : '\n' ∉ next := plainNext.line fun inside => plain (lineValue_subset found inside)
    have after : '\n' ∉ key ++ " = ".toList ++ next := by
      simp only [List.mem_append, not_or]
      exact ⟨⟨plainKey, by decide⟩, line⟩
    refine ⟨key ++ " = ".toList ++ next, rfl, after, fun _ => by simp, ?_⟩
    rw [rewriteLine, ends _ after, lineValue_written plainNext.starts]
    split
    · next current' kept =>
      split at kept
      · cases kept
        rw [settles.again one]
        rfl
      · cases kept
    · rfl

theorem rewrite_lines {ls ls' : List (List Char)} (lined : Lined ls)
    (read : ls.mapM (rewriteLine key value) = .ok ls') :
    Lined ls' ∧ ls'.mapM (rewriteLine key value) = .ok ls' := by
  induction lined generalizing ls' with
  | nil =>
    cases read
    exact ⟨.nil, rfl⟩
  | @last content some_ plain =>
    obtain ⟨line', rest, one, all, rfl⟩ := mapM_cons_ok read
    cases all
    rw [← List.append_nil content] at one
    obtain ⟨after, rfl, line, kept, again⟩ :=
      rewriteLine_again settles plainKey plain lineEnd_ends one
    rw [List.append_nil] at again ⊢
    exact ⟨.last (kept some_) line, mapM_cons_of again rfl⟩
  | cons whole more ih =>
    obtain ⟨content, rfl, plain⟩ := whole
    obtain ⟨line', rest, one, all, rfl⟩ := mapM_cons_ok read
    obtain ⟨after, rfl, line, -, again⟩ :=
      rewriteLine_again settles plainKey plain (fun _ _ => lineEnd_whole) one
    obtain ⟨lined, rest_again⟩ := ih all
    exact ⟨.cons ⟨after, rfl, line⟩ lined, mapM_cons_of again rest_again⟩

/-- A text that was rewritten stays as it is. -/
theorem rewrite_again {text text' : List Char} (read : rewrite key value text = .ok text') :
    rewrite key value text' = .ok text' := by
  cases all : (splitInclusive text).mapM (rewriteLine key value) with
  | error e => rw [rewrite, all] at read; cases read
  | ok ls =>
    rw [rewrite, all] at read
    cases read
    obtain ⟨lined, again⟩ := rewrite_lines settles plainKey (lined_split text) all
    rw [rewrite, split_lined lined, again]
    rfl

end

/-! Sections. -/

theorem contains_iff {text : List Char} {pattern : List Char} :
    contains text pattern = true ↔ pattern <:+: text := by
  rw [contains, List.any_eq_true, List.infix_iff_prefix_suffix]
  constructor
  · rintro ⟨suffix, tail, starts⟩
    exact ⟨suffix, List.isPrefixOf_iff_prefix.mp starts, (List.mem_tails _ _).mp tail⟩
  · rintro ⟨suffix, starts, tail⟩
    exact ⟨suffix, (List.mem_tails _ _).mpr tail, List.isPrefixOf_iff_prefix.mpr starts⟩

theorem clear_infix {text part : List Char} (clear : contains text peerTag = false) (inside : part <:+: text) :
    contains part peerTag = false := by
  refine Bool.eq_false_iff.mpr fun found => ?_
  rw [contains_iff.mpr ((contains_iff.mp found).trans inside)] at clear
  cases clear

theorem mem_infix {ls : List (List Char)} {line : List Char} (inside : line ∈ ls) : line <:+: ls.flatten := by
  obtain ⟨before, after, rfl⟩ := List.append_of_mem inside
  exact ⟨before.flatten, after.flatten, by simp⟩

theorem clear_flatten {ls : List (List Char)} (lined : Lined ls)
    (clear : ∀ line ∈ ls, contains line peerTag = false) : contains ls.flatten peerTag = false := by
  induction lined with
  | nil => rfl
  | last some_ plain => simpa using clear _ List.mem_cons_self
  | @cons line rest whole more ih =>
    obtain ⟨content, rfl, plain⟩ := whole
    rw [List.flatten_cons]
    exact contains_append (clear _ List.mem_cons_self) (.inr ⟨content, rfl⟩)
      (ih fun other inside => clear other (List.mem_cons_of_mem _ inside))

/-- No section starts in a rewritten text where none did. -/
theorem rewrite_clear {key : List Char} {value : List Char → Except String (List Char)}
    (settles : Settles value) (plainKey : '\n' ∉ key) (bareKey : '[' ∉ key) {text text' : List Char}
    (clear : contains text peerTag = false) (read : rewrite key value text = .ok text') :
    contains text' peerTag = false := by
  cases all : (splitInclusive text).mapM (rewriteLine key value) with
  | error e => rw [rewrite, all] at read; cases read
  | ok ls =>
    rw [rewrite, all] at read
    cases read
    have lined := lined_split text
    refine clear_flatten (rewrite_lines settles plainKey lined all).1 ?_
    have lines : ∀ line ∈ splitInclusive text, contains line peerTag = false := fun line inside =>
      clear_infix clear (by simpa [flatten_splitInclusive] using mem_infix inside)
    clear lined clear
    generalize splitInclusive text = before at all lines
    induction before generalizing ls with
    | nil => cases all; intro line inside; cases inside
    | cons first before ih =>
      obtain ⟨line', rest, one, others, rfl⟩ := mapM_cons_ok all
      intro line inside
      rcases List.mem_cons.mp inside with rfl | inside
      · rcases rewriteLine_cases one with ⟨rfl, -⟩ | ⟨current, next, -, written, rfl⟩
        · exact lines _ List.mem_cons_self
        · refine contains_plain fun bracket => ?_
          simp only [List.mem_append] at bracket
          rcases bracket with ((inKey | inMiddle) | inNext) | inEnd
          · exact bareKey inKey
          · exact absurd inMiddle (by decide)
          · exact (settles.plain written).brackets inNext
          · unfold lineEnd at inEnd
            split at inEnd
            · simp at inEnd
            · cases inEnd
      · exact ih rest others (fun other there => lines other (List.mem_cons_of_mem _ there)) line inside

theorem sections_first (text : List Char) :
    ∃ first rest, sections text = first :: rest ∧ first <+: text := by
  induction text with
  | nil => exact ⟨[], [], rfl, List.nil_prefix⟩
  | cons c text ih =>
    obtain ⟨first, rest, shape, front⟩ := ih
    rw [sections, splitFrom]
    split
    · exact ⟨[], _, rfl, List.nil_prefix⟩
    · rw [sections] at shape
      rw [shape]
      exact ⟨c :: first, rest, rfl, List.prefix_cons_inj c |>.mpr front⟩

/-- No section holds the start of another. -/
theorem splitFrom_clear (text : List Char) :
    ∀ skip, ∀ piece ∈ splitFrom peerTag skip text, contains piece peerTag = false := by
  have nil : contains [] peerTag = false := rfl
  induction text with
  | nil =>
    intro skip piece inside
    rw [splitFrom, List.mem_singleton] at inside
    rw [inside, nil]
  | cons c text ih =>
    intro skip piece inside
    cases skip with
    | succ skip => exact ih skip piece inside
    | zero =>
      rw [splitFrom] at inside
      split at inside
      · rcases List.mem_cons.mp inside with rfl | inside
        · exact nil
        · exact ih _ piece inside
      · next other =>
        obtain ⟨first, rest, shape, front⟩ := sections_first text
        rw [sections] at shape
        have clear := ih 0
        rw [shape] at inside clear
        rcases List.mem_cons.mp inside with rfl | inside
        · rw [contains, List.tails_cons, List.any_cons, Bool.or_eq_false_iff]
          refine ⟨Bool.eq_false_iff.mpr fun starts => other ?_, clear first List.mem_cons_self⟩
          rw [List.isPrefixOf_iff_prefix] at starts ⊢
          exact starts.trans ((List.prefix_cons_inj c).mpr front)
        · exact clear piece (List.mem_cons_of_mem _ inside)

/-- A section starts nowhere across the end of another. -/
theorem starts_between {c : Char} {text more : List Char} (clear : contains (c :: text) peerTag = false) :
    peerTag.isPrefixOf (c :: (text ++ (peerTag ++ more))) = false := by
  have apart := (contains_cons clear).1
  refine Bool.eq_false_iff.mpr fun starts => ?_
  rw [List.isPrefixOf_iff_prefix, ← List.cons_append] at starts
  rcases List.prefix_or_prefix_of_prefix starts (List.prefix_append (c :: text) _) with short | long
  · exact apart short
  · obtain ⟨behind, shape⟩ := long
    have both : (c :: text) ++ behind <+: (c :: text) ++ (peerTag ++ more) := by
      rw [shape]
      exact starts
    have next := (List.prefix_append_right_inj (c :: text)).mp both
    cases behind with
    | nil =>
      rw [List.append_nil] at shape
      exact apart (shape ▸ List.prefix_refl _)
    | cons d behind =>
      obtain ⟨rest, same⟩ := next
      have bracket : d = '[' := by
        change d :: (behind ++ rest) = '[' :: _ at same
        exact (List.cons.inj same).1
      have inside : '[' ∈ peerTag.tail := by
        rw [← shape, bracket]
        simp
      exact absurd inside (by decide)

theorem sections_before {front : List Char} (clear : contains front peerTag = false) (more : List Char) :
    sections (front ++ (peerTag ++ more)) = front :: sections more := by
  induction front with
  | nil => rfl
  | cons c front ih =>
    rw [sections, List.cons_append, splitFrom, if_neg (by rw [starts_between clear]; decide)]
    change (sections (front ++ (peerTag ++ more))).modifyHead _ = _
    rw [ih (contains_cons clear).2]
    rfl

theorem sections_alone {text : List Char} (clear : contains text peerTag = false) : sections text = [text] := by
  induction text with
  | nil => rfl
  | cons c text ih =>
    obtain ⟨apart, rest⟩ := contains_cons clear
    rw [sections, splitFrom, if_neg fun starts => apart (List.isPrefixOf_iff_prefix.mp starts)]
    change (sections text).modifyHead _ = _
    rw [ih rest]
    rfl

/-- Sections that hold no start of another read back from their join. -/
theorem sections_join {first : List Char} {rest : List (List Char)}
    (clear : ∀ piece ∈ first :: rest, contains piece peerTag = false) :
    sections (peerTag.intercalate (first :: rest)) = first :: rest := by
  induction rest generalizing first with
  | nil => simpa using sections_alone (clear first List.mem_cons_self)
  | cons next rest ih =>
    rw [List.intercalate_cons_cons, List.append_assoc, sections_before (clear first List.mem_cons_self),
      ih fun piece inside => clear piece (List.mem_cons_of_mem _ inside)]

/-! The whole config. -/

theorem server_own : interface serverAddress = .ok (.v6 (network + 1), 64) := by decide

theorem mapM_again {f : List Char → Except String (List Char)} (good : List Char → Prop)
    (step : ∀ {a b}, good a → f a = .ok b → f b = .ok b ∧ good b) {as bs : List (List Char)}
    (all_good : ∀ a ∈ as, good a) (read : as.mapM f = .ok bs) :
    bs.mapM f = .ok bs ∧ ∀ b ∈ bs, good b := by
  induction as generalizing bs with
  | nil =>
    cases read
    exact ⟨rfl, fun b inside => by cases inside⟩
  | cons a as ih =>
    obtain ⟨b, rest, one, others, rfl⟩ := mapM_cons_ok read
    obtain ⟨again, good_b⟩ := step (all_good a List.mem_cons_self) one
    obtain ⟨rest_again, good_rest⟩ := ih (fun c inside => all_good c (List.mem_cons_of_mem _ inside)) others
    exact ⟨mapM_cons_of again rest_again, List.forall_mem_cons.mpr ⟨good_b, good_rest⟩⟩

theorem migrate_of {text first : List Char} {peers : List (List Char)}
    (shape : sections text = first :: peers) :
    migrate text = do
      let head ← rewrite "Address".toList (withServer (.v6 (network + 1))) first
      let others ← peers.mapM (rewrite "AllowedIPs".toList dualAddresses)
      return peerTag.intercalate (head :: others) := by
  rw [migrate, server_own, peerBlocks, shape]
  rfl

/-- A config that was migrated stays as it is. -/
theorem migrate_again {text text' : List Char} (read : migrate text = .ok text') :
    migrate text' = .ok text' := by
  obtain ⟨first, peers, shape, -⟩ := sections_first text
  have clear : ∀ piece ∈ first :: peers, contains piece peerTag = false := by
    rw [← shape]
    exact splitFrom_clear text 0
  rw [migrate_of shape] at read
  have server := server_settles server_own
  cases head : rewrite "Address".toList (withServer (.v6 (network + 1))) first with
  | error e => rw [head] at read; cases read
  | ok head' =>
    cases others : peers.mapM (rewrite "AllowedIPs".toList dualAddresses) with
    | error e => rw [head, others] at read; cases read
    | ok peers' =>
      rw [head, others] at read
      cases read
      have head_again := rewrite_again server (by decide) head
      have head_clear := rewrite_clear server (by decide) (by decide) (clear first List.mem_cons_self) head
      obtain ⟨peers_again, peers_clear⟩ := mapM_again (fun piece => contains piece peerTag = false)
        (fun clear one => ⟨rewrite_again dual_settles (by decide) one,
          rewrite_clear dual_settles (by decide) (by decide) clear one⟩)
        (fun piece inside => clear piece (List.mem_cons_of_mem _ inside)) others
      rw [migrate_of (sections_join (List.forall_mem_cons.mpr ⟨head_clear, peers_clear⟩)), head_again,
        peers_again]
      rfl

theorem migrate_again_sample :
    migrate ("[Interface]\nAddress = 10.8.1.1/24, fd42:6e70:6177:2::1/64\n[Peer]\n".toList ++
      "AllowedIPs = 10.8.1.2/32, fd42:6e70:6177:2::a08:102/128\n".toList) =
      .ok ("[Interface]\nAddress = 10.8.1.1/24, fd42:6e70:6177:2::1/64\n[Peer]\n".toList ++
        "AllowedIPs = 10.8.1.2/32, fd42:6e70:6177:2::a08:102/128\n".toList) := by
  have first : migrate "[Interface]\nAddress = 10.8.1.1/24\n[Peer]\nAllowedIPs = 10.8.1.2/32\n".toList =
      .ok ("[Interface]\nAddress = 10.8.1.1/24, fd42:6e70:6177:2::1/64\n[Peer]\n".toList ++
        "AllowedIPs = 10.8.1.2/32, fd42:6e70:6177:2::a08:102/128\n".toList) := by
    decide +kernel
  exact migrate_again first

end Peers
end NodePlane
