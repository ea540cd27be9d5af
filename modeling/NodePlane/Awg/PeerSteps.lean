import NodePlane.Library.ListEdit
import NodePlane.Awg.PeerConfig

/-! The peer commands, one after another write: what each of them keeps of the config, of the archives
and of the host numbers, wherever it ends. -/
namespace NodePlane
namespace Peers
open Library Paragraphs Readings Tunnel

/-! The texts of one command. -/

theorem line_end (content : List Char) : (content ++ ['\n']).getLast? = some '\n' ∧
    (content ++ ['\n']).dropLast = content := ⟨by simp, by simp⟩

theorem migrateLines_other {content : List Char} (other : allowedIps content = none) (seen : Bool)
    (rest : List (List Char)) : migrateLines seen ((content ++ ['\n']) :: rest) =
      (migrateLines (seen || trim content = peerTag) rest).map ((content ++ ['\n']) ++ ·) := by
  obtain ⟨last, front⟩ := line_end content
  rw [migrateLines, if_pos last, front]
  dsimp only
  rw [other]
  dsimp only
  cases migrateLines (seen || trim content = peerTag) rest <;> rfl

/-- An archived peer of this agent already has both its addresses. -/
theorem migrate_block (p : Peer) : migratePeer p.block = .ok p.block := by
  obtain ⟨c, rest, shape, white⟩ := (allowed_ends p.host).1
  have solid : blankOrTab c = false := by
    refine Bool.eq_false_iff.mpr fun is => ?_
    rw [blankOrTab, Bool.or_eq_true, decide_eq_true_iff, decide_eq_true_iff] at is
    rcases is with rfl | rfl <;> exact absurd white (by decide)
  have value : allowedIps ("AllowedIPs = ".toList ++ allowed p.host) = some (allowed p.host) := by
    change some ((allowed p.host).dropWhile blankOrTab) = _
    rw [shape, List.dropWhile_cons_of_neg (by simp [solid])]
  have some_ : allowed p.host ≠ [] := by
    rw [shape]
    exact List.cons_ne_nil c rest
  obtain ⟨last, front⟩ := line_end ("AllowedIPs = ".toList ++ allowed p.host)
  have addresses : migrateLines true ["AllowedIPs = ".toList ++ allowed p.host ++ ['\n']] =
      .ok ("AllowedIPs = ".toList ++ allowed p.host ++ ['\n']) := by
    rw [migrateLines, if_pos last, front]
    dsimp only
    rw [value]
    dsimp only
    rw [if_pos ⟨rfl, some_⟩, dual_again]
    change Except.ok _ = _
    rw [List.append_nil]
  have name : allowedIps (comment p.name) = none := by
    rw [comment_eq]
    rfl
  rw [migratePeer, Peer.block, splitInclusive_flatten (peer_whole p)]
  have whole : migrateLines false p.lines = .ok p.lines.flatten := by
    change migrateLines false ((comment p.name ++ ['\n']) :: ("[Peer]".toList ++ ['\n']) ::
      (("PublicKey = ".toList ++ p.publicKey) ++ ['\n']) ::
      (("PresharedKey = ".toList ++ p.preshared) ++ ['\n']) :: _) = _
    rw [migrateLines_other name, migrateLines_other (by decide), migrateLines_other rfl,
      migrateLines_other rfl]
    have seen : (((false || decide (trim (comment p.name) = peerTag)) ||
        decide (trim "[Peer]".toList = peerTag)) ||
          decide (trim ("PublicKey = ".toList ++ p.publicKey) = peerTag) ||
            decide (trim ("PresharedKey = ".toList ++ p.preshared) = peerTag)) = true := by
      have brackets : decide (trim "[Peer]".toList = peerTag) = true := by decide
      rw [brackets, Bool.or_true, Bool.true_or, Bool.true_or]
    rw [seen, addresses]
    change Except.ok _ = _
    simp [Peer.lines, Peer.tail]
  exact whole

theorem span_agree {α : Type} {p q : α → Bool} {list : List α} (agree : ∀ a ∈ list, p a = q a) :
    list.span p = (list.takeWhile q, list.dropWhile q) := by
  rw [List.span_eq_takeWhile_dropWhile]
  induction list with
  | nil => rfl
  | cons a list ih =>
    have here := agree a List.mem_cons_self
    have later := ih fun b inside => agree b (List.mem_cons_of_mem a inside)
    rw [Prod.mk.injEq] at later ⊢
    rw [List.takeWhile_cons, List.takeWhile_cons, List.dropWhile_cons, List.dropWhile_cons, here]
    cases q a with
    | false => exact ⟨rfl, rfl⟩
    | true => exact ⟨congrArg (a :: ·) later.1, later.2⟩

theorem Laid.comment {peers : List Peer} {ls : List (List Char)} (laid : Laid peers ls) {name : String}
    {line : List Char} (inside : line ∈ ls) (is : head name line = true) :
    line = Peers.comment name ++ ['\n'] := by
  induction laid with
  | nil => cases inside
  | blank _ ih =>
    rcases List.mem_cons.mp inside with rfl | later
    · rw [head_blank] at is
      cases is
    · exact ih later
  | peer p _ _ ih =>
    rcases List.mem_append.mp inside with own | later
    · rcases List.mem_cons.mp own with rfl | tail
      · rw [(head_comment p.named name).mp is]
      · rw [(tail_lines p name line tail).1] at is
        cases is
    · exact ih later

/-- A peer that was removed as an orphan is gone from the config. -/
theorem Config.orphan {i : Interface} {peers : List Peer} {text remaining : List Char} {name : String}
    (config : Config i peers text) (nodup : (peers.map Peer.name).Nodup) (valid : validPeer name = true)
    (removed : removeOrphan text name = .ok remaining) :
    Config i (peers.filter fun q => q.name ≠ name) remaining := by
  obtain ⟨ls, laid, rfl⟩ := config
  have agree : ∀ line ∈ i.lines ++ ls,
      decide (line.rdropWhile (· = '\n') ≠ Peers.comment name) = !head name line := by
    intro line inside
    obtain ⟨content, rfl, plain⟩ := List.forall_mem_append.mpr ⟨i.whole, laid.whole⟩ line inside
    have bare : (content ++ ['\n']).rdropWhile (fun c => decide (c = '\n')) = content := by
      rw [List.rdropWhile, List.reverse_append, List.reverse_singleton, List.singleton_append,
        List.dropWhile_cons_of_pos (by decide)]
      have all : ∀ c ∈ content.reverse.head?, decide (c = '\n') = false := fun c first =>
        decide_eq_false fun same => plain (same ▸ List.mem_reverse.mp (List.mem_of_mem_head? first))
      cases back : content.reverse with
      | nil => rw [← List.reverse_reverse content, back]; rfl
      | cons d rest =>
        rw [back] at all
        rw [List.dropWhile_cons_of_neg (by simp [all d rfl]), ← back, List.reverse_reverse]
    rw [bare]
    cases is : head name (content ++ ['\n']) with
    | true =>
      have same : content ++ ['\n'] = Peers.comment name ++ ['\n'] := by
        rcases List.mem_append.mp inside with front | later
        · rw [Config.headless i valid _ front] at is
          cases is
        · exact laid.comment later is
      rw [List.append_cancel_right same]
      simp
    | false =>
      refine decide_eq_true fun same => ?_
      rw [same, (head_comment valid name).mpr rfl] at is
      cases is
  have blanks : (fun line : List Char => decide (trim line ≠ [])) = fun line => !blankLine line := by
    funext line
    rw [blankLine, ← decide_not]
  have whole : Laid (peers.filter fun q => q.name ≠ name) (Paragraphs.without head blankLine 1 name ls) :=
    laid.without nodup (by decide)
  have without_ : Paragraphs.without head blankLine 1 name (i.lines ++ ls) =
      i.lines ++ Paragraphs.without head blankLine 1 name ls := without_append (Config.headless i valid)
  rw [removeOrphan, splitInclusive_config laid, span_agree agree] at removed
  rw [without] at without_
  cases found : (i.lines ++ ls).dropWhile fun line => !head name line with
  | nil =>
    rw [found] at removed
    cases removed
  | cons first rest =>
    rw [found] at removed without_
    dsimp only at removed without_
    rw [List.span_eq_takeWhile_dropWhile, blanks] at removed
    dsimp only at removed
    split at removed
    · cases removed
    · injection removed with removed
      refine ⟨_, whole, ?_⟩
      rw [← removed, without_, List.flatten_append, i.flatten]

/-! Addresses in use. -/

theorem forall₂_left {α β : Type} {r : α → β → Prop} {left : List α} {right : List β}
    (each : List.Forall₂ r left right) {a : α} (inside : a ∈ left) : ∃ b ∈ right, r a b := by
  induction each with
  | nil => cases inside
  | cons here _ ih =>
    rcases List.mem_cons.mp inside with rfl | later
    · exact ⟨_, List.mem_cons_self, here⟩
    · obtain ⟨b, listed, its⟩ := ih later
      exact ⟨b, List.mem_cons_of_mem _ listed, its⟩

/-- A block tells its peer's host number. -/
theorem host_of_block {p q : Peer} (same : p.block = q.block) : p.host = q.host := by
  have one := field_allowed (fields_block p)
  rw [same, field_allowed (fields_block q)] at one
  have read := interface_ownV4 p.host
  have lists := congrArg parts (Option.some.inj one)
  rw [parts_allowed, parts_allowed] at lists
  injection lists with first
  rw [← first, interface_ownV4] at read
  injection read with read
  injection read with read
  injection read with read
  injection read with _ _ _ read
  exact read.symm

theorem mapM_mem {α β : Type} {f : α → Except String β} {list : List α} {found : List β}
    (all : list.mapM f = .ok found) {a : α} (inside : a ∈ list) : ∃ b ∈ found, f a = .ok b := by
  induction list generalizing found with
  | nil => cases inside
  | cons first rest ih =>
    rw [List.mapM_cons] at all
    cases one : f first with
    | error e =>
      rw [one] at all
      cases all
    | ok b =>
      cases more : rest.mapM f with
      | error e =>
        rw [one, more] at all
        cases all
      | ok later =>
        rw [one, more] at all
        injection all with all
        subst all
        rcases List.mem_cons.mp inside with rfl | behind
        · exact ⟨b, List.mem_cons_self, one⟩
        · obtain ⟨d, listed, its⟩ := ih more behind
          exact ⟨d, List.mem_cons_of_mem b listed, its⟩

theorem splitOn_allowed (host : Fin 256) :
    (allowed host).splitOn ',' = [ownV4 host, ' ' :: ownV6 host] := by
  have shape : allowed host = ownV4 host ++ ',' :: ' ' :: ownV6 host := by simp [allowed]
  have first : ',' ∉ ownV4 host := fun inside => (slashed_plain (ownV4_slashed host _ inside)).2.1 rfl
  have second : ',' ∉ ' ' :: ownV6 host := by
    rw [List.mem_cons, not_or]
    exact ⟨by decide, fun inside => (slashed_plain (ownV6_slashed host _ inside)).2.1 rfl⟩
  rw [shape, List.splitOn_append_cons_self, List.splitOn_eq_singleton first,
    List.splitOn_eq_singleton second]
  rfl

theorem address_ownV4 (host : Fin 256) : address (ownV4 host) = .ok (peerAddress host).show := by
  have bare : trim (ownV4 host) = ownV4 host :=
    trim_word fun c inside => (slashed_plain (ownV4_slashed host c inside)).1
  have cut : splitSlash (ownV4 host) = ((peerAddress host).show, "32".toList) :=
    splitSlash_tokens (show_tokens _)
  rw [address, bare, cut, parse_show]
  rfl

/-- Where the addresses of a list can be read, the peer's is among them. -/
theorem address_listed {host : Fin 256} {list : List (List Char)} {found : List (List Char)}
    (first : ownV4 host ∈ list) (read : list.mapM address = .ok found) :
    (peerAddress host).show ∈ found := by
  obtain ⟨b, listed, its⟩ := mapM_mem read first
  rw [address_ownV4] at its
  injection its with its
  exact its ▸ listed

theorem disk_listed {p : Peer} {piece : List Char} (section_ : SectionOf p piece)
    {found : List (List Char)} (read : diskAddresses piece = .ok found) :
    (peerAddress p.host).show ∈ found := by
  have solid : trim (ownV4 p.host) ≠ [] := by
    rw [trim_word fun c inside => (slashed_plain (ownV4_slashed p.host c inside)).1]
    exact ownV4_ne p.host
  have some_ : allowed p.host ≠ [] := by
    obtain ⟨c, rest, shape, -⟩ := (allowed_ends p.host).1
    exact shape ▸ List.cons_ne_nil c rest
  rw [diskAddresses, section_.allowed, Option.filter_some, if_pos (decide_eq_true some_)] at read
  change (((allowed p.host).splitOn ',').filter _).mapM address = _ at read
  refine address_listed ?_ read
  rw [splitOn_allowed]
  exact List.mem_filter.mpr ⟨List.mem_cons_self, decide_eq_true solid⟩

theorem held_listed {p : Peer} {found : List (List Char)} (read : heldAddresses p.block = .ok found) :
    (peerAddress p.host).show ∈ found := by
  rw [heldAddresses, field_allowed (fields_block p)] at read
  change ((allowed p.host).splitOn ',').mapM address = _ at read
  refine address_listed ?_ read
  rw [splitOn_allowed]
  exact List.mem_cons_self

/-- What a free address is. -/
theorem freeAddress_some {used : List (List Char)} {ip : Ipv4Addr} (free : freeAddress used = some ip) :
    ∃ host, ip = peerAddress host ∧ (peerAddress host).show ∉ used := by
  rw [freeAddress] at free
  obtain ⟨host, -, rfl⟩ := List.mem_map.mp (List.mem_of_find?_eq_some free)
  refine ⟨host, rfl, fun inside => ?_⟩
  have fresh := List.find?_some free
  rw [Bool.not_eq_true', List.any_eq_false] at fresh
  exact fresh _ inside (decide_eq_true rfl)

theorem newAddresses_ok {used : List (List Char)} {addresses : List Char}
    (found : newAddresses used = .ok addresses) :
    ∃ host, addresses = allowed host ∧ (peerAddress host).show ∉ used := by
  cases free : freeAddress used with
  | none =>
    rw [newAddresses, free] at found
    cases found
  | some ip =>
    obtain ⟨host, rfl, apart⟩ := freeAddress_some free
    rw [newAddresses, free] at found
    change dualAddresses (ownV4 host) = _ at found
    rw [dual_new] at found
    injection found with found
    exact ⟨host, found.symm, apart⟩

/-! States. -/

section
variable (i : Interface) (server : String)

/-- The config holds the peer, or an archive of this server does. -/
def Holds (files : Files) (peers : List Peer) (p : Peer) : Prop :=
  p ∈ peers ∨ files.archives[p.name]? = some ⟨server, p.block⟩

/-- The config is the interface with these peers, this server's archives hold peers, and no two names
hold one host number. -/
structure Sound (files : Files) (peers : List Peer) : Prop where
  config : Config i peers files.config
  nodup : (peers.map Peer.name).Nodup
  archived : ∀ name record, files.archives[name]? = some record → record.server = server →
    ∃ p : Peer, p.name = name ∧ record.peer = p.block
  apart : ∀ p q, Holds server files peers p → Holds server files peers q → p.name ≠ q.name →
    p.host ≠ q.host

/-- What a command about some names leaves as it is. -/
structure Change (names : List String) (files : Files) (peers : List Peer) (files' : Files)
    (peers' : List Peer) : Prop where
  sound : Sound i server files' peers'
  others : ∀ p : Peer, p.name ∉ names → (p ∈ peers' ↔ p ∈ peers)
  archives : ∀ name, name ∉ names → files'.archives[name]? = files.archives[name]?
  saved : ∀ name, name ∉ names → files'.saved[name]? = files.saved[name]?

/-- A command about some names has run, or a part of it. -/
def Changed (names : List String) (files : Files) (peers : List Peer) (files' : Files) : Prop :=
  ∃ peers', Change i server names files peers files' peers'

end

section
variable {i : Interface} {server : String} {files files' : Files} {peers peers' : List Peer}
variable {names : List String} {name : String}

theorem Change.refl (sound : Sound i server files peers) : Change i server names files peers files peers :=
  ⟨sound, fun _ _ => Iff.rfl, fun _ _ => rfl, fun _ _ => rfl⟩

theorem Change.trans {files'' : Files} {peers'' : List Peer}
    (first : Change i server names files peers files' peers')
    (second : Change i server names files' peers' files'' peers'') :
    Change i server names files peers files'' peers'' where
  sound := second.sound
  others p apart := (second.others p apart).trans (first.others p apart)
  archives name apart := (second.archives name apart).trans (first.archives name apart)
  saved name apart := (second.saved name apart).trans (first.saved name apart)

theorem Change.widen {more : List String} (change : Change i server names files peers files' peers')
    (wider : ∀ name ∈ names, name ∈ more) : Change i server more files peers files' peers' where
  sound := change.sound
  others p apart := change.others p fun inside => apart (wider _ inside)
  archives name apart := change.archives name fun inside => apart (wider _ inside)
  saved name apart := change.saved name fun inside => apart (wider _ inside)

/-- A list of writes, cut after any of them. -/
theorem writes_cons (good : Files → Prop) {write : Write} {list : List Write} (here : good files)
    (later : ∀ done, good ((files.write write).writes (list.take done))) (done : ℕ) :
    good (files.writes ((write :: list).take done)) := by
  cases done with
  | zero => exact here
  | succ done => exact later done

theorem writes_nil (good : Files → Prop) (here : good files) (done : ℕ) :
    good (files.writes (([] : List Write).take done)) := by
  rw [List.take_nil]
  exact here

/-- The archive of a peer is written. -/
theorem Sound.archive (sound : Sound i server files peers) {p : Peer} (inside : p ∈ peers) :
    Change i server [p.name] files peers (files.write (.archive p.name ⟨server, p.block⟩)) peers where
  sound := by
    have held : ∀ q, Holds server (files.write (.archive p.name ⟨server, p.block⟩)) peers q →
        ∃ r, Holds server files peers r ∧ r.name = q.name ∧ r.host = q.host := by
      rintro q (listed | kept)
      · exact ⟨q, .inl listed, rfl, rfl⟩
      · change (files.archives.insert p.name ⟨server, p.block⟩)[q.name]? = _ at kept
        rw [BTreeMap.get_insert] at kept
        split at kept
        · rename_i same
          injection kept with kept
          injection kept with _ kept
          exact ⟨p, .inl inside, same, host_of_block kept⟩
        · exact ⟨q, .inr kept, rfl, rfl⟩
    refine ⟨sound.config, sound.nodup, fun name record found same => ?_, fun a b left right other => ?_⟩
    · change (files.archives.insert p.name ⟨server, p.block⟩)[name]? = _ at found
      rw [BTreeMap.get_insert] at found
      split at found
      · injection found with found
        exact ⟨p, ‹_›, found ▸ rfl⟩
      · exact sound.archived name record found same
    · obtain ⟨c, heldC, nameC, hostC⟩ := held a left
      obtain ⟨d, heldD, nameD, hostD⟩ := held b right
      rw [← hostC, ← hostD]
      exact sound.apart c d heldC heldD (nameC ▸ nameD ▸ other)
  others _ _ := Iff.rfl
  archives name apart := by
    have other : p.name ≠ name := fun same => apart (List.mem_singleton.mpr same.symm)
    change (files.archives.insert p.name _)[name]? = _
    rw [BTreeMap.get_insert, if_neg other]
  saved _ _ := rfl

/-- Peers leave the config. -/
theorem Sound.leave (sound : Sound i server files peers) {text : List Char} {keep : Peer → Bool}
    (config : Config i (peers.filter keep) text) (gone : ∀ p : Peer, keep p = false → p.name ∈ names) :
    Change i server names files peers (files.write (.config text)) (peers.filter keep) where
  sound := by
    refine ⟨config, sound.nodup.sublist (List.filter_sublist.map _), sound.archived,
      fun a b left right other => ?_⟩
    have held : ∀ q, Holds server (files.write (.config text)) (peers.filter keep) q →
        Holds server files peers q := fun q holds =>
      holds.imp (fun inside => (List.mem_filter.mp inside).1) id
    exact sound.apart a b (held a left) (held b right) other
  others p apart := by
    rw [List.mem_filter]
    refine ⟨And.left, fun inside => ⟨inside, ?_⟩⟩
    by_contra out
    exact apart (gone p (Bool.not_eq_true _ ▸ out))
  archives _ _ := rfl
  saved _ _ := rfl

/-- A peer with a host number of its own takes the place of its name. -/
theorem Sound.enter (sound : Sound i server files peers) {text : List Char} {p : Peer}
    (config : Config i ((peers.filter fun q => q.name ≠ p.name) ++ [p]) text)
    (fresh : ∀ q, Holds server files peers q → q.name ≠ p.name → q.host ≠ p.host) :
    Change i server [p.name] files peers (files.write (.config text))
      ((peers.filter fun q => q.name ≠ p.name) ++ [p]) where
  sound := by
    have held : ∀ q, Holds server (files.write (.config text))
        ((peers.filter fun q => q.name ≠ p.name) ++ [p]) q →
        q = p ∨ Holds server files peers q := by
      rintro q (listed | kept)
      · rcases List.mem_append.mp listed with old | new
        · exact .inr (.inl (List.mem_filter.mp old).1)
        · exact .inl (List.mem_singleton.mp new)
      · exact .inr (.inr kept)
    refine ⟨config, ?_, sound.archived, fun a b left right other => ?_⟩
    · rw [List.map_append, List.map_singleton, List.nodup_append]
      refine ⟨sound.nodup.sublist (List.filter_sublist.map _), List.nodup_singleton _, ?_⟩
      intro x inside y single same
      obtain ⟨q, listed, rfl⟩ := List.mem_map.mp inside
      rw [List.mem_singleton.mp single] at same
      exact of_decide_eq_true (List.mem_filter.mp listed).2 same
    · rcases held a left with rfl | heldA
      · rcases held b right with rfl | heldB
        · exact absurd rfl other
        · exact (fresh b heldB (Ne.symm other)).symm
      · rcases held b right with rfl | heldB
        · exact fresh a heldA other
        · exact sound.apart a b heldA heldB other
  others q apart := by
    rw [List.mem_append, List.mem_filter]
    have different : q.name ≠ p.name := fun same => apart (same ▸ List.mem_singleton_self _)
    constructor
    · rintro (⟨inside, -⟩ | new)
      · exact inside
      · exact absurd (congrArg Peer.name (List.mem_singleton.mp new)) different
    · exact fun inside => .inl ⟨inside, decide_eq_true different⟩
  archives _ _ := rfl
  saved _ _ := rfl

theorem Sound.dropArchive (sound : Sound i server files peers) (name : String) :
    Change i server [name] files peers (files.write (.dropArchive name)) peers where
  sound := by
    have old : ∀ {key : String} {record : Archive}, (files.archives.erase name)[key]? = some record →
        files.archives[key]? = some record := by
      intro key record found
      rw [BTreeMap.get_erase] at found
      split at found
      · cases found
      · exact found
    exact ⟨sound.config, sound.nodup, fun key record found => sound.archived key record (old found),
      fun a b left right => sound.apart a b (left.imp id old) (right.imp id old)⟩
  others _ _ := Iff.rfl
  archives key apart := by
    have other : name ≠ key := fun same => apart (List.mem_singleton.mpr same.symm)
    change (files.archives.erase name)[key]? = _
    rw [BTreeMap.get_erase, if_neg other]
  saved _ _ := rfl

theorem Sound.save (sound : Sound i server files peers) (name : String) (text : List Char) :
    Change i server [name] files peers (files.write (.saved name text)) peers where
  sound := ⟨sound.config, sound.nodup, sound.archived, sound.apart⟩
  others _ _ := Iff.rfl
  archives _ _ := rfl
  saved key apart := by
    have other : name ≠ key := fun same => apart (List.mem_singleton.mpr same.symm)
    change (files.saved.insert name text)[key]? = _
    rw [BTreeMap.get_insert, if_neg other]

end

/-! Commands. -/

section
variable {sha256Hex : String → String} {i : Interface} {server : String} {files : Files}
variable {peers : List Peer} {name : String}

theorem fingerprint_config (known : fingerprint sha256Hex i.text = .ok server) {text : List Char}
    (config : Config i peers text) : fingerprint sha256Hex text = .ok server := by
  have alone : Config i [] i.text := ⟨[], .nil, by rw [List.flatten_nil, List.append_nil]⟩
  rw [fingerprint, alone.interface] at known
  rw [fingerprint, config.interface]
  exact known

/-- A revocation archives the peer and takes it out of the config. -/
theorem revoke_writes (known : fingerprint sha256Hex i.text = .ok server)
    (sound : Sound i server files peers) {p : Peer} (listed : p ∈ peers) :
    ∃ rest, revoke sha256Hex files p.name = [.archive p.name ⟨server, p.block⟩, .config rest] ∧
      Config i (peers.filter fun q => q.name ≠ p.name) rest := by
  obtain ⟨rest, split, config⟩ := sound.config.split sound.nodup listed
  have some_ : p.block ≠ [] := by
    rw [Peer.block, Peer.lines, comment_eq]
    exact List.cons_ne_nil _ _
  refine ⟨rest, ?_, config⟩
  rw [revoke, split]
  dsimp only
  rw [if_neg some_, fingerprint_config known sound.config]

/-- Both writes of a revocation. -/
theorem Sound.revoked (sound : Sound i server files peers) {p : Peer} (listed : p ∈ peers)
    {rest : List Char} (config : Config i (peers.filter fun q => q.name ≠ p.name) rest) :
    Change i server [p.name] files peers
      ((files.write (.archive p.name ⟨server, p.block⟩)).write (.config rest))
      (peers.filter fun q => q.name ≠ p.name) := by
  have archived := sound.archive listed
  exact archived.trans (archived.sound.leave config fun q out => by simpa using out)

theorem revoke_change (known : fingerprint sha256Hex i.text = .ok server)
    (sound : Sound i server files peers) (valid : validPeer name = true) (done : ℕ) :
    Changed i server [name] files peers (files.writes ((revoke sha256Hex files name).take done)) := by
  by_cases inside : name ∈ peers.map Peer.name
  · obtain ⟨p, listed, rfl⟩ := List.mem_map.mp inside
    obtain ⟨rest, writes, config⟩ := revoke_writes known sound listed
    rw [writes]
    refine writes_cons (Changed i server _ files peers) ⟨peers, .refl sound⟩ (fun done => ?_) done
    refine writes_cons (Changed i server _ files peers) ⟨peers, sound.archive listed⟩ (fun done => ?_) done
    exact writes_nil (Changed i server _ files peers) ⟨_, sound.revoked listed config⟩ done
  · have writes : revoke sha256Hex files name = [] := by
      rw [revoke, sound.config.split_absent valid inside]
      rfl
    rw [writes]
    exact writes_nil (Changed i server _ files peers) ⟨peers, .refl sound⟩ done

/-- What a restoration does with an archive of this server, where the client config is there. -/
theorem restore_archived (known : fingerprint sha256Hex i.text = .ok server)
    (sound : Sound i server files peers) {p : Peer}
    (kept : files.archives[p.name]? = some ⟨server, p.block⟩) {text : List Char}
    (saved : files.saved[p.name]? = some text) :
    restore sha256Hex files p.name =
      if (Awg.splitPeer files.config p.name).2 = [] ∧
          (splitList ((field p.block "AllowedIPs").getD [])).any (· ∈
            (peerBlocks (Awg.splitPeer files.config p.name).1).flatMap fun block =>
              splitList ((field block "AllowedIPs").getD [])) then
        .ok (false, [.dropArchive p.name])
      else .ok (true, [.config (trimEnd (Awg.splitPeer files.config p.name).1 ++ ['\n', '\n'] ++
        trimEnd p.block ++ ['\n'])]) := by
  rw [restore, kept, saved]
  dsimp only
  rw [fingerprint_config known sound.config, migrate_block]
  change (if _ then _ else _ : Except String (Bool × List Write)) = _
  rw [if_neg (by simp)]
  rfl

/-- What a restoration finds: nothing to restore, an archive that it drops, or a peer. -/
theorem restore_cases (known : fingerprint sha256Hex i.text = .ok server)
    (sound : Sound i server files peers) (name : String) :
    (∃ e, restore sha256Hex files name = .error e) ∨ restore sha256Hex files name = .ok (false, []) ∨
      restore sha256Hex files name = .ok (false, [.dropArchive name]) ∨
      ∃ p : Peer, p.name = name ∧ files.archives[name]? = some ⟨server, p.block⟩ ∧
        restore sha256Hex files name = .ok (true, [.config (trimEnd (Awg.splitPeer files.config name).1 ++
          ['\n', '\n'] ++ trimEnd p.block ++ ['\n'])]) := by
  cases kept : files.archives[name]? with
  | none =>
    right
    left
    rw [restore, kept]
  | some record =>
    cases saved : files.saved[name]? with
    | none =>
      right
      left
      rw [restore, kept, saved]
    | some text =>
      by_cases same : record.server = server
      · obtain ⟨p, named, block⟩ := sound.archived name record kept same
        have whole : record = ⟨server, p.block⟩ := by rw [← same, ← block]
        subst named
        rw [whole] at kept
        rw [restore_archived known sound kept saved, whole]
        split
        · exact .inr (.inr (.inl rfl))
        · exact .inr (.inr (.inr ⟨p, rfl, rfl, rfl⟩))
      · right
        right
        left
        rw [restore, kept, saved]
        dsimp only
        rw [fingerprint_config known sound.config]
        change (if _ then _ else _ : Except String (Bool × List Write)) = _
        rw [if_pos same]
        rfl

/-- Where a new peer gets a host number, no peer of this server has it. -/
theorem used_fresh (known : fingerprint sha256Hex i.text = .ok server) (sound : Sound i server files peers)
    {live : List Char} {used : List (List Char)}
    (read : usedAddresses sha256Hex files.config files.archives live = .ok used) {p : Peer}
    (holds : Holds server files peers p) : (peerAddress p.host).show ∈ used := by
  rw [usedAddresses, fingerprint_config known sound.config] at read
  obtain ⟨onDisk, disk, read⟩ := bind_ok.mp read
  obtain ⟨_, same, read⟩ := bind_ok.mp read
  cases same
  obtain ⟨held, archived, read⟩ := bind_ok.mp read
  injection read with read
  rw [← read]
  rcases holds with listed | kept
  · obtain ⟨piece, there, section_⟩ := forall₂_left sound.config.blocks listed
    obtain ⟨found, inside, its⟩ := mapM_mem disk ((List.drop_sublist 1 _).subset there)
    have here := disk_listed section_ its
    exact List.mem_append_left _ (List.mem_append_right _ (List.mem_flatten.mpr ⟨found, inside, here⟩))
  · have entry : (p.name, (⟨server, p.block⟩ : Archive)) ∈
        files.archives.toList.filter fun entry => entry.2.server = server :=
      List.mem_filter.mpr ⟨BTreeMap.mem_toList.mpr kept, decide_eq_true rfl⟩
    obtain ⟨found, inside, its⟩ := mapM_mem archived entry
    exact List.mem_append_right _ (List.mem_flatten.mpr ⟨found, inside, held_listed its⟩)

/-- The keys of an add are in base64. -/
def Answers.Keyed (answers : Answers) : Prop :=
  validKey answers.publicKey = true ∧ validKey answers.preshared = true

theorem issue_change (known : fingerprint sha256Hex i.text = .ok server)
    (sound : Sound i server files peers) (valid : validPeer name = true)
    (absent : name ∉ peers.map Peer.name) {answers : Answers} (keyed : answers.Keyed) (done : ℕ) :
    Changed i server [name] files peers
      (files.writes ((issue sha256Hex files name answers).take done)) := by
  rw [issue]
  split
  · exact writes_nil (Changed i server _ files peers) ⟨peers, .refl sound⟩ done
  · rename_i addresses found
    obtain ⟨used, read, found⟩ := bind_ok.mp found
    obtain ⟨host, rfl, apart⟩ := newAddresses_ok found
    let p : Peer := ⟨name, answers.publicKey, answers.preshared, host, valid, keyed.1, keyed.2⟩
    have config : Config i ((peers.filter fun q => q.name ≠ p.name) ++ [p])
        (files.config ++ newBlock name answers.publicKey answers.preshared (allowed host)) := by
      have all : peers.filter (fun q => q.name ≠ p.name) = peers := filter_absent absent
      rw [all]
      exact sound.config.issued p
    have entered := sound.enter config fun q holds _ same => by
      have used := used_fresh known sound read holds
      rw [same] at used
      exact apart used
    refine writes_cons (Changed i server _ files peers) ⟨peers, .refl sound⟩ (fun done => ?_) done
    refine writes_cons (Changed i server _ files peers) ⟨_, entered⟩ (fun done => ?_) done
    exact writes_nil (Changed i server _ files peers)
      ⟨_, entered.trans (entered.sound.save name answers.client)⟩ done

theorem reissue_change (known : fingerprint sha256Hex i.text = .ok server)
    (sound : Sound i server files peers) (valid : validPeer name = true) {answers : Answers}
    (keyed : answers.Keyed) (done : ℕ) : Changed i server [name] files peers
      (files.writes ((reissue sha256Hex files name answers).take done)) := by
  rw [reissue]
  split
  · split
    · exact writes_nil (Changed i server _ files peers) ⟨peers, .refl sound⟩ done
    · split
      · exact writes_nil (Changed i server _ files peers) ⟨peers, .refl sound⟩ done
      · rename_i remaining removed
        have left : Change i server [name] files peers (files.write (.config remaining)) _ :=
          sound.leave (sound.config.orphan sound.nodup valid removed) fun q out => by simpa using out
        have absent : name ∉ (peers.filter fun q => q.name ≠ name).map Peer.name := by
          intro inside
          obtain ⟨q, listed, same⟩ := List.mem_map.mp inside
          exact of_decide_eq_true (List.mem_filter.mp listed).2 same
        refine writes_cons (Changed i server _ files peers) ⟨peers, .refl sound⟩ (fun done => ?_) done
        obtain ⟨peers', issued⟩ := issue_change known left.sound valid absent keyed done
        exact ⟨peers', left.trans issued⟩
  · rename_i missing
    exact issue_change known sound valid (fun inside => missing ((sound.config.listed valid).mpr inside))
      keyed done

theorem add_change (known : fingerprint sha256Hex i.text = .ok server)
    (sound : Sound i server files peers) (valid : validPeer name = true) {answers : Answers}
    (keyed : answers.Keyed) (done : ℕ) : Changed i server [name] files peers
      (files.writes ((add sha256Hex files name answers).take done)) := by
  rw [add]
  rcases restore_cases known sound name with ⟨e, found⟩ | found | found | ⟨p, rfl, kept, found⟩
  · rw [found]
    exact writes_nil (Changed i server _ files peers) ⟨peers, .refl sound⟩ done
  · rw [found]
    exact reissue_change known sound valid keyed done
  · rw [found]
    have dropped := sound.dropArchive name
    refine writes_cons (Changed i server _ files peers) ⟨peers, .refl sound⟩ (fun done => ?_) done
    obtain ⟨peers', issued⟩ := reissue_change known dropped.sound valid keyed done
    exact ⟨peers', dropped.trans issued⟩
  · rw [found]
    have config := (sound.config.rest sound.nodup valid).restored p
    have entered := sound.enter config fun q holds apart => sound.apart q p holds (.inr kept) apart
    refine writes_cons (Changed i server _ files peers) ⟨peers, .refl sound⟩ (fun done => ?_) done
    exact writes_nil (Changed i server _ files peers) ⟨_, entered⟩ done

end

/-! Names. -/

theorem Host.peerName_chars (h : Host) {profile : String} (some_ : profile.toList ≠ [])
    (chars : ∀ c ∈ profile.toList, nameChar c = true) : validPeer (h.peerName profile) = true := by
  rw [validPeer, Bool.and_eq_true, Bool.not_eq_true', List.isEmpty_eq_false_iff, Host.peerName]
  split
  · exact ⟨some_, List.all_eq_true.mpr chars⟩
  · have dash : "-".toList = ['-'] := by decide
    rw [String.toList_append, String.toList_append, dash]
    refine ⟨by simp, List.all_eq_true.mpr fun c inside => ?_⟩
    rcases List.mem_append.mp inside with front | own
    · rcases List.mem_append.mp front with key | between
      · exact List.all_eq_true.mp h.named c key
      · rw [List.mem_singleton.mp between]
        decide
    · exact chars c own

theorem Host.peer_valid {h : Host} {profile name : String} (named : h.peer profile = some name) :
    name = h.peerName profile ∧ validPeer name = true := by
  rw [Host.peer] at named
  split at named
  · rename_i fits
    injection named with named
    subst named
    rw [Bool.and_eq_true, validName, matchesName, Bool.and_eq_true, Bool.and_eq_true] at fits
    obtain ⟨⟨⟨size, -⟩, -⟩, chars⟩ := fits
    have some_ : profile.toList ≠ [] := by
      intro none_
      rw [String.toList_eq_nil_iff.mp none_] at size
      exact absurd size (by decide)
    refine ⟨rfl, ?_⟩
    rw [validPeer, chars, Bool.and_true, Bool.not_eq_true', List.isEmpty_eq_false_iff, Host.peerName]
    split
    · exact some_
    · have dash : "-".toList = ['-'] := by decide
      rw [String.toList_append, String.toList_append, dash]
      simp
  · cases named

theorem temporary_valid (h : Host) {name : String} (temporary : temporaryName name = true) :
    validPeer (h.peerName name) = true := by
  rw [temporaryName, Bool.and_eq_true, Bool.and_eq_true, beq_iff_eq, beq_iff_eq] at temporary
  obtain ⟨⟨front, size⟩, hex⟩ := temporary
  refine h.peerName_chars (fun none_ => ?_) fun c inside => ?_
  · rw [none_] at front
    cases front
  · rw [← List.take_append_drop 4 name.toList, front] at inside
    rcases List.mem_append.mp inside with lead | digits
    · simp only [List.mem_cons, List.not_mem_nil, or_false] at lead
      rcases lead with rfl | rfl | rfl | rfl <;> decide
    · have digit := List.all_eq_true.mp hex c digits
      rw [hexDigitLower, Bool.or_eq_true] at digit
      have letter : c.isAlphanum = true := by
        change (c.isUpper || (decide ('a'.val ≤ c.val) && decide (c.val ≤ 'z'.val)) || c.isDigit) = true
        rcases digit with digit | range
        · rw [digit, Bool.or_true]
        · simp only [Bool.and_eq_true, decide_eq_true_eq] at range
          have low : 'a'.val ≤ c.val := UInt32.le_iff_toNat_le.mpr range.1
          have high : c.val ≤ 'z'.val := UInt32.le_iff_toNat_le.mpr (Nat.le_trans range.2 (by decide))
          rw [decide_eq_true low, decide_eq_true high, Bool.and_self, Bool.or_true, Bool.true_or]
      rw [nameChar, letter, Bool.true_or]

end Peers
end NodePlane
