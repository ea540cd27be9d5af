import NodePlane.Awg.PeerSteps

/-! Runs of the peer commands, each of which can end after any of its writes. Every peer that the config
or an archive of this server holds has addresses of its own, a command leaves the other peers as they
are, and a revoked peer that is added again comes back as it was. -/
namespace NodePlane
namespace Peers
open Library Readings Tunnel

/-- The peer names that a command is about. -/
def Command.about (h : Host) : Command → List String
  | .add profile _ => [h.peerName profile]
  | .revoke profile => [h.peerName profile]
  | .prune names => names.map h.peerName

/-- The keys that the generator answers are in base64. -/
def Command.Keyed : Command → Prop
  | .add _ answers => answers.Keyed
  | .revoke _ => True
  | .prune _ => True

section
variable {h : Host} {i : Interface} {server : String} {files : Files} {peers : List Peer}

theorem prune_config {names : List String} (temporary : ∀ name ∈ names, temporaryName name = true) :
    ∀ {peers : List Peer} {text : List Char}, Config i peers text → (peers.map Peer.name).Nodup →
      Config i (peers.filter fun q => q.name ∉ names.map h.peerName)
        (names.foldl (fun text name => (Awg.splitPeer text (h.peerName name)).1) text) := by
  induction names with
  | nil =>
    intro peers text config _
    have all : peers.filter (fun q => decide (q.name ∉ ([] : List String).map h.peerName)) = peers :=
      List.filter_eq_self.mpr fun q _ => by simp
    rw [all]
    exact config
  | cons name names ih =>
    intro peers text config nodup
    have first := config.rest nodup (temporary_valid h (temporary name List.mem_cons_self))
    have later := ih (fun other inside => temporary other (List.mem_cons_of_mem name inside)) first
      (nodup.sublist (List.filter_sublist.map _))
    rw [List.filter_filter] at later
    have same : (fun q : Peer => decide (q.name ∉ names.map h.peerName) && decide (q.name ≠ h.peerName name)) =
        fun q => decide (q.name ∉ (name :: names).map h.peerName) := by
      funext q
      refine Bool.eq_iff_iff.mpr ?_
      rw [Bool.and_eq_true, decide_eq_true_iff, decide_eq_true_iff, decide_eq_true_iff, List.map_cons,
        List.mem_cons, not_or, and_comm]
    rw [same] at later
    exact later

theorem prune_change (sound : Sound i server files peers) (names : List String) (done : ℕ) :
    Changed i server (names.map h.peerName) files peers
      (files.writes ((pruneConfig h files names).take done)) := by
  rw [pruneConfig]
  split
  · exact writes_nil (Changed i server _ files peers) ⟨peers, .refl sound⟩ done
  · rename_i all
    have temporary : ∀ name ∈ names, temporaryName name = true := by
      intro name inside
      by_contra other
      refine all (List.any_eq_true.mpr ⟨name, inside, ?_⟩)
      rw [Bool.not_eq_true'] 
      exact Bool.not_eq_true _ ▸ other
    have config := @prune_config h i names temporary peers files.config sound.config sound.nodup
    have left : Change i server (names.map h.peerName) files peers (files.write (.config _)) _ :=
      sound.leave config fun q out => by simpa using out
    dsimp only
    split
    · exact writes_nil (Changed i server _ files peers) ⟨peers, .refl sound⟩ done
    · refine writes_cons (Changed i server _ files peers) ⟨peers, .refl sound⟩ (fun done => ?_) done
      exact writes_nil (Changed i server _ files peers) ⟨_, left⟩ done

/-- What one command does, wherever it stops. -/
theorem step_change (known : fingerprint h.sha256Hex i.text = .ok server) (sound : Sound i server files peers)
    {move : Command × ℕ} (keyed : move.1.Keyed) :
    Changed i server (move.1.about h) files peers (step h files move) := by
  obtain ⟨command, done⟩ := move
  cases command with
  | add profile answers =>
    rw [step, Command.writes]
    cases named : h.peer profile with
    | none => exact writes_nil (Changed i server _ files peers) ⟨peers, .refl sound⟩ done
    | some peer =>
      obtain ⟨rfl, valid⟩ := Host.peer_valid named
      exact add_change known sound valid keyed done
  | revoke profile =>
    rw [step, Command.writes]
    cases named : h.peer profile with
    | none => exact writes_nil (Changed i server _ files peers) ⟨peers, .refl sound⟩ done
    | some peer =>
      obtain ⟨rfl, valid⟩ := Host.peer_valid named
      exact revoke_change known sound valid done
  | prune names => exact prune_change sound names done

theorem sound_after (known : fingerprint h.sha256Hex i.text = .ok server) (run : List (Command × ℕ))
    (keyed : ∀ move ∈ run, move.1.Keyed) (sound : Sound i server files peers) :
    ∃ peers', Sound i server (after h files run) peers' := by
  induction run generalizing files peers with
  | nil => exact ⟨peers, sound⟩
  | cons move run ih =>
    obtain ⟨peers', changed⟩ := step_change known sound (keyed move List.mem_cons_self)
    exact ih (fun other inside => keyed other (List.mem_cons_of_mem move inside)) changed.sound

/-- Commands about other names. -/
theorem change_after (known : fingerprint h.sha256Hex i.text = .ok server) (run : List (Command × ℕ))
    (keyed : ∀ move ∈ run, move.1.Keyed) {names : List String}
    (about : ∀ move ∈ run, ∀ name ∈ move.1.about h, name ∈ names) (sound : Sound i server files peers) :
    Changed i server names files peers (after h files run) := by
  induction run generalizing files peers with
  | nil => exact ⟨peers, .refl sound⟩
  | cons move run ih =>
    obtain ⟨peers', changed⟩ := step_change known sound (keyed move List.mem_cons_self)
    have wider := changed.widen (about move List.mem_cons_self)
    obtain ⟨peers'', later⟩ := ih (fun other inside => keyed other (List.mem_cons_of_mem move inside))
      (fun other inside => about other (List.mem_cons_of_mem move inside)) changed.sound
    exact ⟨peers'', wider.trans later⟩

/-- A config without peers, and no archive of this server. -/
structure Fresh (i : Interface) (server : String) (files : Files) : Prop where
  config : files.config = i.text
  archived : ∀ (name : String) (record : Archive), files.archives[name]? = some record →
    record.server ≠ server

theorem Fresh.sound (fresh : Fresh i server files) : Sound i server files [] where
  config := ⟨[], .nil, by rw [fresh.config, List.flatten_nil, List.append_nil]⟩
  nodup := List.nodup_nil
  archived name record found same := absurd same (fresh.archived name record found)
  apart p _ holds := by
    rcases holds with inside | kept
    · cases inside
    · exact absurd rfl (fresh.archived p.name _ kept)

/-- What the config and this server's archives keep of a name: its blocks. -/
def keptBlocks (server : String) (files : Files) (name : String) : List (List Char) :=
  (Awg.splitPeer files.config name).2 ::
    ((files.archives[name]?.filter fun record => record.server = server).map Archive.peer).toList

/-- The addresses that a block gives its peer. -/
def tunnelAddresses (block : List Char) : List IpAddr :=
  (parts ((field block "AllowedIPs").getD [])).filterMap fun part => (interface part).toOption.map Prod.fst

theorem tunnelAddresses_block (p : Peer) :
    tunnelAddresses p.block = [.v4 (peerAddress p.host), .v6 (managed p.host)] := by
  have value : (field p.block "AllowedIPs").getD [] = allowed p.host := by
    rw [field_allowed (fields_block p)]
    rfl
  have first : (interface (ownV4 p.host)).toOption.map Prod.fst = some (.v4 (peerAddress p.host)) := by
    rw [interface_ownV4]
    rfl
  have second : (interface (ownV6 p.host)).toOption.map Prod.fst = some (.v6 (managed p.host)) := by
    rw [interface_ownV6]
    rfl
  rw [tunnelAddresses, value, parts_allowed]
  simp only [List.filterMap_cons, List.filterMap_nil, first, second]

theorem Sound.kept (sound : Sound i server files peers) {name : String} (valid : validPeer name = true)
    {block : List Char} (inside : block ∈ keptBlocks server files name) :
    block = [] ∨ ∃ p : Peer, p.name = name ∧ Holds server files peers p ∧ block = p.block := by
  rcases List.mem_cons.mp inside with rfl | archived
  · by_cases listed : name ∈ peers.map Peer.name
    · obtain ⟨p, there, rfl⟩ := List.mem_map.mp listed
      obtain ⟨rest, split, -⟩ := sound.config.split sound.nodup there
      exact .inr ⟨p, rfl, .inl there, by rw [split]⟩
    · rw [sound.config.split_absent valid listed]
      exact .inl rfl
  · rw [Option.mem_toList, Option.map_eq_some_iff] at archived
    obtain ⟨record, found, rfl⟩ := archived
    obtain ⟨kept, same⟩ := Option.filter_eq_some_iff.mp found
    have server_ := of_decide_eq_true same
    obtain ⟨p, rfl, block⟩ := sound.archived name record kept server_
    refine .inr ⟨p, rfl, .inr ?_, block⟩
    rw [kept, ← server_, ← block]

theorem managed_inj {a b : Fin 256} (same : managed a = managed b) : a = b := by
  have bits (host : Fin 256) : managed host = network + 0x0a080100 + host.val := by
    change network + (((10 * 256 + 8) * 256 + 1) * 256 + host.val) = _
    omega
  rw [bits, bits] at same
  exact Fin.ext (by omega)

/-- Over every run from a config without peers, whatever command fails in it and wherever, no address
belongs to two names: neither of the peers in the config, nor of those that this server has archived. -/
theorem addresses_apart (known : fingerprint h.sha256Hex i.text = .ok server)
    (fresh : Fresh i server files) (run : List (Command × ℕ)) (keyed : ∀ move ∈ run, move.1.Keyed)
    {name other : String} (valid : validPeer name = true) (valid' : validPeer other = true)
    (apart : name ≠ other) :
    ∀ ip ∈ (keptBlocks server (after h files run) name).flatMap tunnelAddresses,
      ip ∉ (keptBlocks server (after h files run) other).flatMap tunnelAddresses := by
  obtain ⟨peers', sound⟩ := sound_after known run keyed fresh.sound
  intro ip mine others
  obtain ⟨block, inside, here⟩ := List.mem_flatMap.mp mine
  obtain ⟨block', inside', there⟩ := List.mem_flatMap.mp others
  have none_ : ∀ ip, ip ∉ tunnelAddresses [] := by
    intro ip listed
    cases listed
  rcases sound.kept valid inside with rfl | ⟨p, rfl, holds, rfl⟩
  · exact none_ ip here
  · rcases sound.kept valid' inside' with rfl | ⟨q, rfl, holds', rfl⟩
    · exact none_ ip there
    · have different := sound.apart p q holds holds' apart
      rw [tunnelAddresses_block] at here there
      simp only [List.mem_cons, List.not_mem_nil, or_false] at here there
      rcases here with rfl | rfl
      · rcases there with same | same
        · injection same with same
          injection same with _ _ _ same
          exact different same
        · cases same
      · rcases there with same | same
        · cases same
        · injection same with same
          exact different (managed_inj same)

/-- What the config says of a name depends on the peer of that name. -/
theorem Change.block {files' : Files} {peers' : List Peer} {names : List String} {name : String}
    (change : Change i server names files peers files' peers') (sound : Sound i server files peers)
    (valid : validPeer name = true) (apart : name ∉ names) :
    (Awg.splitPeer files'.config name).2 = (Awg.splitPeer files.config name).2 := by
  by_cases listed : name ∈ peers.map Peer.name
  · obtain ⟨p, there, rfl⟩ := List.mem_map.mp listed
    obtain ⟨rest, split, -⟩ := sound.config.split sound.nodup there
    obtain ⟨rest', split', -⟩ :=
      change.sound.config.split change.sound.nodup ((change.others p apart).mpr there)
    rw [split, split']
  · have listed' : name ∉ peers'.map Peer.name := by
      intro inside
      obtain ⟨p, there, rfl⟩ := List.mem_map.mp inside
      exact listed (List.mem_map_of_mem ((change.others p apart).mp there))
    rw [sound.config.split_absent valid listed, change.sound.config.split_absent valid listed']

/-- In every run from a config without peers, a command leaves the block, the archive and the client
config of every other name as they are, wherever it ends. -/
theorem step_spares_others (known : fingerprint h.sha256Hex i.text = .ok server)
    (fresh : Fresh i server files) (run : List (Command × ℕ)) (keyed : ∀ move ∈ run, move.1.Keyed)
    (move : Command × ℕ) (keyed' : move.1.Keyed) {name : String} (valid : validPeer name = true)
    (apart : name ∉ move.1.about h) :
    (Awg.splitPeer (after h files (run ++ [move])).config name).2 =
        (Awg.splitPeer (after h files run).config name).2 ∧
      (after h files (run ++ [move])).archives[name]? = (after h files run).archives[name]? ∧
      (after h files (run ++ [move])).saved[name]? = (after h files run).saved[name]? := by
  obtain ⟨peers', sound⟩ := sound_after known run keyed fresh.sound
  obtain ⟨peers'', change⟩ := step_change known sound keyed'
  have whole : after h files (run ++ [move]) = step h (after h files run) move := by
    rw [after, List.foldl_append]
    rfl
  rw [whole]
  exact ⟨change.block sound valid apart, change.archives name apart, change.saved name apart⟩

theorem splitList_allowed (host : Fin 256) : splitList (allowed host) = [ownV4 host, ownV6 host] := by
  have first : trim (ownV4 host) = ownV4 host :=
    trim_word fun c inside => (slashed_plain (ownV4_slashed host c inside)).1
  have second : trim (' ' :: ownV6 host) = ownV6 host := by
    rw [trim_cons (by decide)]
    exact trim_word fun c inside => (slashed_plain (ownV6_slashed host c inside)).1
  rw [splitList, splitOn_allowed, List.map_cons, List.map_cons, List.map_nil, first, second]

/-- The address texts of different host numbers differ. -/
theorem allowed_apart {a b : Fin 256} (apart : a ≠ b) {text : List Char}
    (mine : text ∈ splitList (allowed a)) : text ∉ splitList (allowed b) := by
  intro theirs
  rw [splitList_allowed] at mine theirs
  simp only [List.mem_cons, List.not_mem_nil, or_false] at mine theirs
  have read {host : Fin 256} (listed : text = ownV4 host ∨ text = ownV6 host) :
      interface text = .ok (.v4 (peerAddress host), 32) ∨ interface text = .ok (.v6 (managed host), 128) := by
    rcases listed with rfl | rfl
    · exact .inl (interface_ownV4 host)
    · exact .inr (interface_ownV6 host)
  have one := read mine
  have two := read theirs
  rcases one with one | one
  · rcases two with two | two
    · rw [one] at two
      injection two with two
      injection two with two
      injection two with two
      injection two with _ _ _ two
      exact apart two
    · rw [one] at two
      injection two with two
      injection two with two
      cases two
  · rcases two with two | two
    · rw [one] at two
      injection two with two
      injection two with two
      cases two
    · rw [one] at two
      injection two with two
      injection two with two
      injection two with two
      exact apart (managed_inj two)

/-- An archived peer of this server that is not in the config comes back. -/
theorem restore_back (known : fingerprint h.sha256Hex i.text = .ok server)
    (sound : Sound i server files peers) {p : Peer}
    (kept : files.archives[p.name]? = some ⟨server, p.block⟩) {text : List Char}
    (saved : files.saved[p.name]? = some text) (absent : p.name ∉ peers.map Peer.name) :
    restore h.sha256Hex files p.name =
      .ok (true, [.config (trimEnd files.config ++ ['\n', '\n'] ++ trimEnd p.block ++ ['\n'])]) := by
  have clear : ¬ ((splitList ((field p.block "AllowedIPs").getD [])).any (· ∈
      (peerBlocks files.config).flatMap fun block =>
        splitList ((field block "AllowedIPs").getD [])) = true) := by
    intro taken
    obtain ⟨address, mine, reserved⟩ := List.any_eq_true.mp taken
    obtain ⟨piece, there, theirs⟩ := List.mem_flatMap.mp (of_decide_eq_true reserved)
    obtain ⟨q, listed, section_⟩ := forall₂_left sound.config.blocks.flip there
    rw [field_allowed (fields_block p)] at mine
    rw [SectionOf.allowed section_] at theirs
    have different : p.name ≠ q.name := fun same => absent (same ▸ List.mem_map_of_mem listed)
    exact allowed_apart (sound.apart p q (.inr kept) (.inl listed) different) mine theirs
  rw [restore_archived known sound kept saved, sound.config.split_absent p.named absent]
  dsimp only
  rw [if_neg fun both => clear both.2]

theorem after_append (run more : List (Command × ℕ)) :
    after h files (run ++ more) = after h (after h files run) more := by
  rw [after, after, after, List.foldl_append]

/-- A revocation that makes both its writes leaves the peer to its archive. -/
theorem step_revoked (known : fingerprint h.sha256Hex i.text = .ok server)
    (sound : Sound i server files peers) {p : Peer} (listed : p ∈ peers) {profile : String}
    (named : h.peer profile = some p.name) {done : ℕ} (complete : 2 ≤ done) :
    Change i server [p.name] files peers (step h files (.revoke profile, done))
        (peers.filter fun q => q.name ≠ p.name) ∧
      (step h files (.revoke profile, done)).archives[p.name]? = some ⟨server, p.block⟩ ∧
      (step h files (.revoke profile, done)).saved[p.name]? = files.saved[p.name]? := by
  obtain ⟨rest, writes, config⟩ := revoke_writes known sound listed
  have whole : step h files (.revoke profile, done) =
      (files.write (.archive p.name ⟨server, p.block⟩)).write (.config rest) := by
    rw [step, Command.writes, named]
    dsimp only
    rw [writes, List.take_of_length_le complete]
    rfl
  rw [whole]
  refine ⟨sound.revoked listed config, ?_, rfl⟩
  change (files.archives.insert p.name _)[p.name]? = _
  rw [BTreeMap.get_insert, if_pos rfl]

/-- An add brings the peer of an archive of this server back. -/
theorem step_back (known : fingerprint h.sha256Hex i.text = .ok server)
    (sound : Sound i server files peers) {p : Peer}
    (kept : files.archives[p.name]? = some ⟨server, p.block⟩)
    (saved : files.saved[p.name]?.isSome = true) (absent : p.name ∉ peers.map Peer.name)
    {profile : String} (named : h.peer profile = some p.name) (answers : Answers) {done : ℕ}
    (written : 1 ≤ done) :
    (Awg.splitPeer (step h files (.add profile answers, done)).config p.name).2 = p.block := by
  obtain ⟨text, client⟩ := Option.isSome_iff_exists.mp saved
  have whole : step h files (.add profile answers, done) = files.write (.config (trimEnd files.config ++
      ['\n', '\n'] ++ trimEnd p.block ++ ['\n'])) := by
    rw [step, Command.writes, named]
    dsimp only
    rw [add, restore_back known sound kept client absent]
    dsimp only
    rw [List.take_of_length_le written]
    rfl
  have nodup : ((peers ++ [p]).map Peer.name).Nodup := by
    rw [List.map_append, List.map_singleton, List.nodup_append]
    refine ⟨sound.nodup, List.nodup_singleton _, ?_⟩
    intro x inside y single same
    rw [List.mem_singleton.mp single] at same
    exact absent (same ▸ inside)
  obtain ⟨_, split, -⟩ :=
    (sound.config.restored p).split nodup (List.mem_append_right peers (List.mem_singleton_self p))
  rw [whole]
  change (Awg.splitPeer (trimEnd _ ++ ['\n', '\n'] ++ trimEnd p.block ++ ['\n']) p.name).2 = _
  rw [split]

/-- A peer of a run from a config without peers that is revoked is gone from the config; as long as only
commands about other names run, an add brings its block back as it was, with its keys and addresses. -/
theorem revoked_comes_back (known : fingerprint h.sha256Hex i.text = .ok server)
    (fresh : Fresh i server files) (run : List (Command × ℕ)) (keyed : ∀ move ∈ run, move.1.Keyed)
    {profile name : String} (named : h.peer profile = some name)
    (present : (Awg.splitPeer (after h files run).config name).2 ≠ [])
    (saved : (after h files run).saved[name]?.isSome = true) {done : ℕ} (complete : 2 ≤ done)
    (between : List (Command × ℕ)) (keyed' : ∀ move ∈ between, move.1.Keyed)
    (others : ∀ move ∈ between, name ∉ move.1.about h) (answers : Answers) {done' : ℕ}
    (written : 1 ≤ done') :
    (Awg.splitPeer (after h files (run ++ (.revoke profile, done) :: between)).config name).2 = [] ∧
      (Awg.splitPeer (after h files
        (run ++ (.revoke profile, done) :: between ++ [(.add profile answers, done')])).config name).2 =
          (Awg.splitPeer (after h files run).config name).2 := by
  obtain ⟨-, valid⟩ := Host.peer_valid named
  obtain ⟨peers, sound⟩ := sound_after known run keyed fresh.sound
  have listed : name ∈ peers.map Peer.name := by
    by_contra absent
    rw [sound.config.split_absent valid absent] at present
    exact present rfl
  obtain ⟨p, there, rfl⟩ := List.mem_map.mp listed
  obtain ⟨_, split, -⟩ := sound.config.split sound.nodup there
  obtain ⟨revoked, archived, client⟩ := step_revoked known sound there named complete
  have apart : p.name ∉ between.flatMap fun move => move.1.about h := by
    intro inside
    obtain ⟨move, ran, about⟩ := List.mem_flatMap.mp inside
    exact others move ran about
  obtain ⟨peers', later⟩ := change_after known between keyed'
    (fun move ran name about => List.mem_flatMap.mpr ⟨move, ran, about⟩) revoked.sound
  have absent : p.name ∉ peers'.map Peer.name := by
    intro inside
    obtain ⟨q, inside, same⟩ := List.mem_map.mp inside
    have old := (later.others q (same ▸ apart)).mp inside
    exact of_decide_eq_true (List.mem_filter.mp old).2 same
  have before : after h files (run ++ (.revoke profile, done) :: between) =
      after h (step h (after h files run) (.revoke profile, done)) between := after_append run _
  rw [after_append (run ++ (.revoke profile, done) :: between), before]
  refine ⟨by rw [later.sound.config.split_absent p.named absent], ?_⟩
  have back := step_back known later.sound ((later.archives p.name apart).trans archived)
    (by rw [later.saved p.name apart, client, saved]) absent named answers written
  rw [split]
  exact back

end

/-! A server that issues two peers and revokes one of them. -/

def server : Interface where
  body := "[Interface]\nPrivateKey = server\nAddress = 10.8.1.1/24".toList
  solid := ⟨"[Interface]\nPrivateKey = server\nAddress = 10.8.1.1/2".toList, '4', by decide, by decide⟩
  clear := by decide
  headless := by
    have apart : ∀ line ∈ splitInclusive ("[Interface]\nPrivateKey = server\nAddress = 10.8.1.1/24".toList ++
        ['\n']), (trim line).head? ≠ some '#' := by decide
    intro line inside name _ same
    have first := apart line inside
    rw [same, comment_eq] at first
    exact first rfl

def digest : String := "b3eacd33433b31b5251352032c9b3e7a2e7aa7738d5decdf0dd6c62680853c06"

def host : Host where
  sha256Hex text := if text = "server" then digest else ""
  serverKey := "n1"
  named := by decide

def files : Files := ⟨server.text, ∅, ∅⟩

def answers (key : String) : Answers := ⟨[], key.toList, "psk".toList, "conf".toList⟩

def issued : List (Command × ℕ) := [(.add "alice" (answers "alicekey"), 2)]

theorem known : fingerprint host.sha256Hex server.text = .ok digest := by decide +kernel

theorem fresh : Fresh server digest files := ⟨rfl, fun name record found => by simp [files] at found⟩

theorem keyed (key : String) (valid : validKey key.toList = true) : (answers key).Keyed :=
  ⟨valid, (by decide : validKey "psk".toList = true)⟩

theorem issued_keyed : ∀ move ∈ issued, move.1.Keyed := by
  intro move inside
  rw [List.mem_singleton.mp inside]
  exact keyed "alicekey" (by decide)

def replaced : List (Command × ℕ) := issued ++ [(.revoke "alice", 2), (.add "bob" (answers "bobkey"), 2)]

theorem replaced_keyed : ∀ move ∈ replaced, move.1.Keyed := by
  intro move inside
  rcases List.mem_append.mp inside with first | later
  · exact issued_keyed move first
  · rcases List.mem_cons.mp later with rfl | last
    · trivial
    · rw [List.mem_singleton.mp last]
      exact keyed "bobkey" (by decide)

/-- The address of the archived peer is not given away. -/
theorem addresses_apart_sample :
    IpAddr.v4 (peerAddress 2) ∉
      (keptBlocks digest (after host files replaced) "n1-bob").flatMap tunnelAddresses := by
  have listed : IpAddr.v4 (peerAddress 2) ∈
      (keptBlocks digest (after host files replaced) "n1-alice").flatMap tunnelAddresses := by decide +kernel
  have alice : validPeer "n1-alice" = true := by decide
  have bob : validPeer "n1-bob" = true := by decide
  exact addresses_apart known fresh replaced replaced_keyed alice bob (by decide) _ listed

theorem step_spares_others_sample :
    (Awg.splitPeer (after host files (issued ++ [(.add "bob" (answers "bobkey"), 1)])).config "n1-alice").2 =
        (Awg.splitPeer (after host files issued).config "n1-alice").2 ∧
      (after host files (issued ++ [(.add "bob" (answers "bobkey"), 1)])).archives["n1-alice"]? =
        (after host files issued).archives["n1-alice"]? ∧
      (after host files (issued ++ [(.add "bob" (answers "bobkey"), 1)])).saved["n1-alice"]? =
        (after host files issued).saved["n1-alice"]? :=
  step_spares_others known fresh issued issued_keyed (.add "bob" (answers "bobkey"), 1)
    (keyed "bobkey" (by decide)) (by decide) (by decide)

theorem revoked_comes_back_sample :
    (Awg.splitPeer (after host files
        (issued ++ (.revoke "alice", 2) :: [(.add "bob" (answers "bobkey"), 2)])).config "n1-alice").2 = [] ∧
      (Awg.splitPeer (after host files (issued ++ (.revoke "alice", 2) :: [(.add "bob" (answers "bobkey"), 2)] ++
        [(.add "alice" (answers "otherkey"), 1)])).config "n1-alice").2 =
          (Awg.splitPeer (after host files issued).config "n1-alice").2 := by
  refine revoked_comes_back known fresh issued issued_keyed (by decide) (by decide +kernel) (by decide +kernel)
    (by decide) [(.add "bob" (answers "bobkey"), 2)] ?_ ?_ (answers "otherkey") (by decide)
  · intro move inside
    rw [List.mem_singleton.mp inside]
    exact keyed "bobkey" (by decide)
  · intro move inside
    rw [List.mem_singleton.mp inside]
    decide

end Peers
end NodePlane
