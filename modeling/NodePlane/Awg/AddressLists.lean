import NodePlane.Library.Lines
import NodePlane.Awg.AddressTexts
import NodePlane.Awg.PeerSteps

/-! Lists of addresses in a server config: the addresses of a peer and of the server's interface, and what
stays of a list that is read again. -/
namespace NodePlane
namespace Peers
open Library Readings Tunnel

/-- The server's address on the tunnel network. -/
def serverAddress : List Char := "fd42:6e70:6177:2::1/64".toList

def joined (addresses : List (List Char)) : List Char := [',', ' '].intercalate addresses

/-- The addresses of the interface with the server's own. -/
def withServer (server : IpAddr) (value : List Char) : Except String (List Char) := do
  let addresses := splitList value
  let parsed ← addresses.mapM interface
  if parsed.any (·.1 = server) then return joined addresses
  else return joined (addresses ++ [serverAddress])

/-- An address as it stands in a list. -/
structure Item (text : List Char) : Prop where
  trimmed : trim text = text
  some : text ≠ []
  apart : ',' ∉ text

theorem splitOn_apart {sep : Char} {text piece : List Char} (inside : piece ∈ text.splitOn sep) :
    sep ∉ piece := by
  induction text generalizing piece with
  | nil =>
    rw [List.splitOn_nil, List.mem_singleton] at inside
    rw [inside]
    exact List.not_mem_nil
  | cons c text ih =>
    rw [List.splitOn_cons_eq_if_modifyHead] at inside
    split at inside
    · rcases List.mem_cons.mp inside with rfl | inside
      · exact List.not_mem_nil
      · exact ih inside
    · next other =>
      cases split : text.splitOn sep with
      | nil => rw [split] at inside; cases inside
      | cons first rest =>
        rw [split] at ih inside
        rcases List.mem_cons.mp inside with rfl | inside
        · rw [List.mem_cons, not_or]
          exact ⟨fun same => other (by simp [same]), ih List.mem_cons_self⟩
        · exact ih (List.mem_cons_of_mem _ inside)

theorem splitOn_subset {sep : Char} {text piece : List Char} (inside : piece ∈ text.splitOn sep) :
    piece ⊆ text := by
  intro c here
  have whole : c ∈ [sep].intercalate (text.splitOn sep) := Lines.mem_join inside here
  rwa [List.intercalate_splitOn] at whole

theorem mem_splitList {value address : List Char} (inside : address ∈ splitList value) :
    trim address = address ∧ ',' ∉ address ∧ address ⊆ value := by
  obtain ⟨piece, listed, rfl⟩ := List.mem_map.mp inside
  exact ⟨trim_trim piece, fun comma => splitOn_apart listed (trim_subset comma),
    fun c here => splitOn_subset listed (trim_subset here)⟩

theorem splitList_blank (rest : List Char) : splitList (' ' :: rest) = splitList rest := by
  rw [splitList, splitList, List.splitOn_cons_eq_if_modifyHead, if_neg (by decide)]
  cases rest.splitOn ',' with
  | nil => rfl
  | cons first later =>
    rw [List.modifyHead_cons, List.map_cons, List.map_cons, trim_cons (by decide)]

/-- A joined list reads back. -/
theorem splitList_joined {addresses : List (List Char)} (items : ∀ a ∈ addresses, Item a)
    (some_ : addresses ≠ []) : splitList (joined addresses) = addresses := by
  induction addresses with
  | nil => exact absurd rfl some_
  | cons a rest ih =>
    have item := items a List.mem_cons_self
    cases rest with
    | nil =>
      have alone : joined [a] = a := by simp [joined]
      rw [alone, splitList, List.splitOn_eq_singleton item.apart, List.map_cons, List.map_nil, item.trimmed]
    | cons b rest =>
      have shape : joined (a :: b :: rest) = a ++ ',' :: ' ' :: joined (b :: rest) := by simp [joined]
      have behind := splitList_blank (joined (b :: rest))
      rw [splitList] at behind
      rw [shape, splitList, List.splitOn_append_cons_self, List.splitOn_eq_singleton item.apart,
        List.singleton_append, List.map_cons, item.trimmed, behind,
        ih (fun c inside => items c (List.mem_cons_of_mem _ inside)) (List.cons_ne_nil _ _)]

theorem parts_joined {addresses : List (List Char)} (items : ∀ a ∈ addresses, Item a) :
    parts (joined addresses) = addresses := by
  cases addresses with
  | nil => rfl
  | cons a rest =>
    have read := splitList_joined items (List.cons_ne_nil a rest)
    rw [splitList] at read
    rw [parts, read, List.filter_eq_self.mpr]
    intro b inside
    exact decide_eq_true (items b inside).some

theorem mem_joined {addresses : List (List Char)} {c : Char} (inside : c ∈ joined addresses) :
    c = ',' ∨ c = ' ' ∨ ∃ a ∈ addresses, c ∈ a := by
  induction addresses with
  | nil => cases inside
  | cons a rest ih =>
    cases rest with
    | nil => exact .inr (.inr ⟨a, List.mem_cons_self, by simpa [joined] using inside⟩)
    | cons b rest =>
      have shape : joined (a :: b :: rest) = a ++ ',' :: ' ' :: joined (b :: rest) := by simp [joined]
      rw [shape, List.mem_append, List.mem_cons, List.mem_cons] at inside
      rcases inside with here | comma | blank | later
      · exact .inr (.inr ⟨a, List.mem_cons_self, here⟩)
      · exact .inl comma
      · exact .inr (.inl blank)
      · rcases ih later with comma | blank | ⟨d, listed, there⟩
        · exact .inl comma
        · exact .inr (.inl blank)
        · exact .inr (.inr ⟨d, List.mem_cons_of_mem _ listed, there⟩)

/-- A list of addresses starts with one. -/
theorem joined_head {addresses : List (List Char)} (items : ∀ a ∈ addresses, Item a) {c : Char}
    (first : (joined addresses).head? = some c) : whitespace c = false := by
  cases addresses with
  | nil => cases first
  | cons a rest =>
    have item := items a List.mem_cons_self
    have head : a.head? = some c := by
      cases shape : a with
      | nil => exact absurd shape item.some
      | cons d a =>
        rw [shape] at first
        cases rest <;> simpa [joined] using first
    rw [← item.trimmed] at head
    exact trim_first head

theorem mapM_cons_ok {α β ε : Type} {f : α → Except ε β} {a : α} {as : List α} {bs : List β}
    (read : (a :: as).mapM f = .ok bs) :
    ∃ b rest, f a = .ok b ∧ as.mapM f = .ok rest ∧ bs = b :: rest := by
  rw [List.mapM_cons] at read
  cases one : f a with
  | error e => rw [one] at read; cases read
  | ok b =>
    cases all : as.mapM f with
    | error e => rw [one, all] at read; cases read
    | ok rest =>
      rw [one, all] at read
      cases read
      exact ⟨b, rest, rfl, rfl, rfl⟩

theorem mapM_cons_of {α β ε : Type} {f : α → Except ε β} {a : α} {as : List α} {b : β} {bs : List β}
    (one : f a = .ok b) (all : as.mapM f = .ok bs) : (a :: as).mapM f = .ok (b :: bs) := by
  rw [List.mapM_cons, one, all]
  rfl

theorem mapM_concat {α β ε : Type} {f : α → Except ε β} {as : List α} {bs : List β} {a : α} {b : β}
    (read : as.mapM f = .ok bs) (one : f a = .ok b) : (as ++ [a]).mapM f = .ok (bs ++ [b]) := by
  rw [List.mapM_append, read, List.mapM_cons, one]
  rfl

/-- A list of addresses, each with nothing that a line or a section needs. -/
structure Plain (value next : List Char) : Prop where
  starts : ∀ c ∈ next.head?, whitespace c = false
  brackets : '[' ∉ next
  line : '\n' ∉ value → '\n' ∉ next

theorem plain_joined {value : List Char} {addresses : List (List Char)}
    (items : ∀ a ∈ addresses, Item a) (brackets : ∀ a ∈ addresses, '[' ∉ a)
    (line : '\n' ∉ value → ∀ a ∈ addresses, '\n' ∉ a) : Plain value (joined addresses) := by
  refine ⟨fun c first => joined_head items first, fun inside => ?_, fun one inside => ?_⟩
  · rcases mem_joined inside with same | same | ⟨a, listed, here⟩
    · cases same
    · cases same
    · exact brackets a listed here
  · rcases mem_joined inside with same | same | ⟨a, listed, here⟩
    · cases same
    · cases same
    · exact line one a listed here

/-- What a list of addresses is made of, with an address that may be added. -/
theorem listed_plain (extra : List Char) {value : List Char} {addresses : List (List Char)}
    {parsed : List (IpAddr × ℕ)} (from_ : addresses ⊆ splitList value)
    (read : addresses.mapM interface = .ok parsed) :
    (∀ a ∈ addresses, Item a) ∧ Plain value (joined addresses) ∧
      ((∀ c ∈ extra, slashed c = true) → extra ≠ [] →
        (∀ a ∈ addresses ++ [extra], Item a) ∧ Plain value (joined (addresses ++ [extra]))) := by
  have items : ∀ a ∈ addresses, Item a := by
    intro a inside
    obtain ⟨trimmed, apart, -⟩ := mem_splitList (from_ inside)
    obtain ⟨found, -, is⟩ := mapM_mem read inside
    exact ⟨trimmed, (interface_plain is).1, apart⟩
  have brackets : ∀ a ∈ addresses, '[' ∉ a := by
    intro a inside
    obtain ⟨found, -, is⟩ := mapM_mem read inside
    exact (interface_plain is).2
  have line : '\n' ∉ value → ∀ a ∈ addresses, '\n' ∉ a := fun one a inside here =>
    one ((mem_splitList (from_ inside)).2.2 here)
  refine ⟨items, plain_joined items brackets line, fun slashes some_ => ?_⟩
  have own : Item extra := ⟨trim_word fun c inside => (slashed_plain (slashes c inside)).1, some_,
    fun inside => (slashed_plain (slashes _ inside)).2.1 rfl⟩
  have all : ∀ a ∈ addresses ++ [extra], Item a := by
    intro a inside
    rcases List.mem_append.mp inside with before | last
    · exact items a before
    · rw [List.mem_singleton.mp last]
      exact own
  refine ⟨all, plain_joined all (fun a inside here => ?_) fun one a inside here => ?_⟩
  · rcases List.mem_append.mp inside with before | last
    · exact brackets a before here
    · rw [List.mem_singleton.mp last] at here
      exact (slashed_plain (slashes _ here)).2.2 rfl
  · rcases List.mem_append.mp inside with before | last
    · exact line one a before here
    · rw [List.mem_singleton.mp last] at here
      exact absurd (slashed_plain (slashes _ here)).1 (by decide)

/-- A rewritten value reads back as itself. -/
structure Settles (rewritten : List Char → Except String (List Char)) : Prop where
  again : ∀ {value next}, rewritten value = .ok next → rewritten next = .ok next
  plain : ∀ {value next}, rewritten value = .ok next → Plain value next

theorem firstV4_v6 {parsed : List (IpAddr × ℕ)} {bits length : ℕ} :
    firstV4 (parsed ++ [(.v6 bits, length)]) = firstV4 parsed := by
  induction parsed with
  | nil => rfl
  | cons one parsed ih =>
    obtain ⟨ip, n⟩ := one
    cases ip with
    | v4 ip => rfl
    | v6 bits => exact ih

theorem dual_of {value : List Char} {parsed : List (IpAddr × ℕ)}
    (read : (parts value).mapM interface = .ok parsed) :
    dualAddresses value = match firstV4 parsed with
      | none => .ok (joined (parts value))
      | some ip =>
        if parsed.any (·.1 = .v6 (network + ip.bits)) then .ok (joined (parts value))
        else .ok (joined (parts value ++ [show6 (network + ip.bits) ++ "/128".toList])) := by
  rw [dualAddresses, read]
  change (match firstV4 parsed with | none => _ | some ip => _ : Except String (List Char)) = _
  cases firstV4 parsed with
  | none => rfl
  | some ip =>
    dsimp only
    split <;> rfl

theorem parts_subset (value : List Char) : parts value ⊆ splitList value :=
  fun _ inside => (List.mem_filter.mp inside).1

theorem own_slashes {bits : ℕ} (small : bits < 4294967296) :
    ∀ c ∈ show6 (network + bits) ++ "/128".toList, slashed c = true :=
  slashed_append (network_tokens small) (by decide)

/-- The addresses of a peer, once it has its managed one, stay as they are. -/
theorem dual_settles : Settles dualAddresses := by
  have both : ∀ {value next}, dualAddresses value = .ok next →
      dualAddresses next = .ok next ∧ Plain value next := by
    intro value next read
    cases all : (parts value).mapM interface with
    | error e =>
      rw [dualAddresses, all] at read
      cases read
    | ok parsed =>
      rw [dual_of all] at read
      have same : parts (joined (parts value)) = parts value :=
        parts_joined (listed_plain [] (parts_subset value) all).1
      have again : (parts (joined (parts value))).mapM interface = .ok parsed := by rw [same, all]
      have keeps := dual_of again
      rw [same] at keeps
      have plain := (listed_plain [] (parts_subset value) all).2.1
      cases first : firstV4 parsed with
      | none =>
        rw [first] at read keeps
        cases read
        exact ⟨keeps, plain⟩
      | some ip =>
        rw [first] at read keeps
        dsimp only at read keeps
        split at read
        · next present =>
          rw [if_pos present] at keeps
          cases read
          exact ⟨keeps, plain⟩
        · cases read
          have small := bits_lt ip
          obtain ⟨items, added⟩ := (listed_plain _ (parts_subset value) all).2.2 (own_slashes small)
            (List.append_ne_nil_of_right_ne_nil _ (by decide))
          have back := parts_joined items
          have more : (parts (joined (parts value ++ [show6 (network + ip.bits) ++ "/128".toList]))).mapM
              interface = .ok (parsed ++ [(.v6 (network + ip.bits), 128)]) := by
            rw [back]
            exact mapM_concat all (interface_network small)
          refine ⟨?_, added⟩
          rw [dual_of more, firstV4_v6, first, back]
          dsimp only
          rw [if_pos (by simp)]
  exact ⟨fun read => (both read).1, fun read => (both read).2⟩

theorem server_of {server : IpAddr} {value : List Char} {parsed : List (IpAddr × ℕ)}
    (read : (splitList value).mapM interface = .ok parsed) :
    withServer server value = if parsed.any (·.1 = server) then .ok (joined (splitList value))
      else .ok (joined (splitList value ++ [serverAddress])) := by
  rw [withServer, read]
  change (if _ then _ else _ : Except String (List Char)) = _
  split <;> rfl

theorem splitList_ne (value : List Char) : splitList value ≠ [] := by
  rw [splitList, ne_eq, List.map_eq_nil_iff]
  exact List.splitOn_ne_nil ',' value

/-- The addresses of the interface, once they have the server's own, stay as they are. -/
theorem server_settles {server : IpAddr} {length : ℕ}
    (own : interface serverAddress = .ok (server, length)) : Settles (withServer server) := by
  have both : ∀ {value next}, withServer server value = .ok next →
      withServer server next = .ok next ∧ Plain value next := by
    intro value next read
    cases all : (splitList value).mapM interface with
    | error e =>
      rw [withServer, all] at read
      cases read
    | ok parsed =>
      rw [server_of all] at read
      obtain ⟨items, plain, extra⟩ :=
        listed_plain serverAddress (fun _ inside => inside) all
      split at read
      · next present =>
        cases read
        have same := splitList_joined items (splitList_ne value)
        have again : (splitList (joined (splitList value))).mapM interface = .ok parsed := by
          rw [same, all]
        rw [server_of again, if_pos present, same]
        exact ⟨rfl, plain⟩
      · cases read
        have slashes : serverAddress.all slashed = true := by decide
        obtain ⟨more, added⟩ := extra (List.all_eq_true.mp slashes) (by decide)
        have back := splitList_joined more (by simp)
        have again : (splitList (joined (splitList value ++ [serverAddress]))).mapM interface =
            .ok (parsed ++ [(server, length)]) := by
          rw [back]
          exact mapM_concat all own
        rw [server_of again, if_pos (by simp), back]
        exact ⟨rfl, added⟩
  exact ⟨fun read => (both read).1, fun read => (both read).2⟩

end Peers
end NodePlane
