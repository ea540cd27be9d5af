import Mathlib.Algebra.Group.Nat.Defs
import Mathlib.Data.List.TakeDrop
import NodePlane.Agent.Readings

/-! Tunnel addresses: a stable IPv6 address for every IPv4 peer address, and the free addresses of
the server's network. -/
namespace NodePlane
namespace Tunnel
open Readings

structure Ipv4Addr where
  a : Fin 256
  b : Fin 256
  c : Fin 256
  d : Fin 256
  deriving DecidableEq, Repr

/-- `u32::from`. -/
def Ipv4Addr.bits (ip : Ipv4Addr) : ℕ := ((ip.a * 256 + ip.b) * 256 + ip.c) * 256 + ip.d

/-- An IPv6 address is its 128 bits. -/
inductive IpAddr
  | v4 (ip : Ipv4Addr)
  | v6 (bits : ℕ)
  deriving DecidableEq, Repr

/-! Addresses as the standard library prints and reads them. -/

def Ipv4Addr.show (ip : Ipv4Addr) : List Char :=
  ['.'].intercalate ([ip.a, ip.b, ip.c, ip.d].map fun octet => Nat.toDigits 10 octet)

/-- The 16-bit groups of an address. -/
def segments (bits : ℕ) : List ℕ :=
  [7, 6, 5, 4, 3, 2, 1, 0].map fun place => bits / 65536 ^ place % 65536

/-- The longest run of zero groups, the first of several: where it starts and its length. -/
def zeroes (groups : List ℕ) : ℕ × ℕ :=
  (groups.zipIdx.foldl (fun ((longest, current) : (ℕ × ℕ) × ℕ × ℕ) (group, i) =>
    if group = 0 then
      let current := if current.2 = 0 then (i, 1) else (current.1, current.2 + 1)
      (if longest.2 < current.2 then current else longest, current)
    else (longest, 0, 0)) ((0, 0), 0, 0)).1

def hexGroups (groups : List ℕ) : List Char := [':'].intercalate (groups.map (Nat.toDigits 16))

def show6 (bits : ℕ) : List Char :=
  let groups := segments bits
  if groups.take 6 = [0, 0, 0, 0, 0, 0xffff] then
    "::ffff:".toList ++ ['.'].intercalate ([bits / 2 ^ 24 % 256, bits / 2 ^ 16 % 256, bits / 2 ^ 8 % 256,
      bits % 256].map (Nat.toDigits 10))
  else
    let (start, length) := zeroes groups
    if 1 < length then
      hexGroups (groups.take start) ++ [':', ':'] ++ hexGroups (groups.drop (start + length))
    else hexGroups groups

def IpAddr.show : IpAddr → List Char
  | .v4 ip => ip.show
  | .v6 bits => show6 bits

/-- `char::to_digit`. -/
def toDigit (radix : ℕ) (c : Char) : Option ℕ :=
  let n := c.toNat
  let value := if 48 ≤ n ∧ n ≤ 57 then n - 48 else if 97 ≤ n ∧ n ≤ 122 then n - 87
    else if 65 ≤ n ∧ n ≤ 90 then n - 55 else radix
  if value < radix then some value else none

def digits (radix : ℕ) (text : List Char) : List Char × List Char :=
  text.span fun c => (toDigit radix c).isSome

def valueOf (radix : ℕ) (digits : List Char) : ℕ :=
  digits.foldl (fun n c => radix * n + (toDigit radix c).getD 0) 0

/-- A number of at most `limit` digits, and what follows. -/
def readNumber (radix limit : ℕ) (zeros : Bool) (text : List Char) : Option (ℕ × List Char) :=
  let (number, rest) := digits radix text
  if number = [] ∨ limit < number.length ∨
      (zeros = false ∧ number.head? = some '0' ∧ 1 < number.length) then none
  else some (valueOf radix number, rest)

def readOctet (text : List Char) : Option (Fin 256 × List Char) :=
  (readNumber 10 3 false text).bind fun (n, rest) =>
    if small : n < 256 then some (⟨n, small⟩, rest) else none

def given (c : Char) : List Char → Option (List Char)
  | d :: rest => if d = c then some rest else none
  | [] => none

def readIpv4 (text : List Char) : Option (Ipv4Addr × List Char) := do
  let (a, rest) ← readOctet text
  let (b, rest) ← readOctet (← given '.' rest)
  let (c, rest) ← readOctet (← given '.' rest)
  let (d, rest) ← readOctet (← given '.' rest)
  return (⟨a, b, c, d⟩, rest)

/-- Behind a colon where it is not the first. -/
def separated {ρ : Type} (first : Bool) (read : List Char → Option (ρ × List Char))
    (text : List Char) : Option (ρ × List Char) :=
  if first then read text else (given ':' text).bind read

/-- Up to so many groups, whether an IPv4 address ended them, and what follows. -/
def readGroups : ℕ → Bool → List Char → List ℕ × Bool × List Char
  | 0, _, text => ([], false, text)
  | left + 1, first, text =>
    match if left = 0 then none else separated first readIpv4 text with
    | some (ip, rest) => ([ip.bits / 65536, ip.bits % 65536], true, rest)
    | none =>
      match separated first (readNumber 16 4 true) text with
      | none => ([], false, text)
      | some (group, rest) =>
        let (groups, embedded, rest) := readGroups left false rest
        (group :: groups, embedded, rest)

def readIpv6 (text : List Char) : Option (ℕ × List Char) :=
  let bits := List.foldl (fun n group => 65536 * n + group) 0
  let (head, embedded, rest) := readGroups 8 true text
  if head.length = 8 then some (bits head, rest)
  else if embedded then none
  else match rest with
    | ':' :: ':' :: rest =>
      let (tail, _, rest) := readGroups (7 - head.length) true rest
      some (bits (head ++ List.replicate (8 - head.length - tail.length) 0 ++ tail), rest)
    | _ => none

def IpAddr.parse (text : List Char) : Option IpAddr :=
  match readIpv4 text with
  | some (ip, rest) => if rest = [] then some (.v4 ip) else none
  | none =>
    match readIpv6 text with
    | some (bits, rest) => if rest = [] then some (.v6 bits) else none
    | none => none

/-- `parse::<u8>()`. -/
def parseU8 (text : List Char) : Option ℕ :=
  let number := match text with
    | '+' :: rest => rest
    | number => number
  if number ≠ [] ∧ (digits 10 number).2 = [] ∧ valueOf 10 number < 256 then some (valueOf 10 number)
  else none

/-! The tunnel's addresses. -/

/-- `fd42:6e70:6177:2::/64`; a peer's IPv4 address is its host part. -/
def network : ℕ := 0xfd426e70617700020000000000000000

def splitSlash (value : List Char) : List Char × List Char :=
  (value.takeWhile (· ≠ '/'), (value.dropWhile (· ≠ '/')).tail)

def IpAddr.maximum : IpAddr → ℕ
  | .v4 _ => 32
  | .v6 _ => 128

/-- An address and the length of its prefix. -/
def interface (value : List Char) : Except String (IpAddr × ℕ) :=
  let (address, prefix_) := splitSlash value
  match IpAddr.parse (trim address) with
  | none => .error ("invalid address: " ++ String.ofList value)
  | some address =>
    if prefix_ = [] then .ok (address, address.maximum)
    else match (parseU8 (trim prefix_)).filter (· ≤ address.maximum) with
      | none => .error ("invalid prefix: " ++ String.ofList value)
      | some length => .ok (address, length)

/-- The parts of a list that are not blank. -/
def parts (value : List Char) : List (List Char) :=
  ((value.splitOn ',').map trim).filter (· ≠ [])

def firstV4 : List (IpAddr × ℕ) → Option Ipv4Addr
  | [] => none
  | (.v4 ip, _) :: _ => some ip
  | (.v6 _, _) :: rest => firstV4 rest

/-- The peer's addresses with its managed IPv6 address added. -/
def dualAddresses (value : List Char) : Except String (List Char) := do
  let addresses := parts value
  let parsed ← addresses.mapM interface
  match firstV4 parsed with
  | none => return [',', ' '].intercalate addresses
  | some ipv4 =>
    let managed := network + ipv4.bits
    if parsed.any (·.1 = .v6 managed) then return [',', ' '].intercalate addresses
    else return [',', ' '].intercalate (addresses ++ [show6 managed ++ "/128".toList])

/-- The address of a peer, `10.8.1.x`. -/
def peerAddress (host : Fin 256) : Ipv4Addr := ⟨10, 8, 1, host⟩

def hosts : List (Fin 256) := (List.finRange 256).filter fun host => 1 ≤ host.val ∧ host.val ≤ 254

/-- The first free `10.8.1.x` address. -/
def freeAddress (used : List (List Char)) : Option Ipv4Addr :=
  (hosts.map peerAddress).find? fun candidate => !used.any (· = candidate.show)

/-! What the standard library prints is read back. -/

theorem digits_append {radix : ℕ} {number rest : List Char}
    (all : ∀ c ∈ number, (toDigit radix c).isSome = true)
    (stops : ∀ c ∈ rest.head?, (toDigit radix c).isSome = false) :
    digits radix (number ++ rest) = (number, rest) := by
  rw [digits, List.span_eq_takeWhile_dropWhile, List.takeWhile_append_of_pos all,
    List.dropWhile_append_of_pos all]
  cases rest with
  | nil => simp
  | cons c rest =>
    have plain := stops c rfl
    rw [List.takeWhile_cons_of_neg (by simp [plain]), List.dropWhile_cons_of_neg (by simp [plain]),
      List.append_nil]

/-- What stands neither between two addresses nor in a peer's brackets. -/
def token (c : Char) : Bool := !whitespace c && !([',', '/', '['].contains c)

theorem octet_digits : ∀ octet : Fin 256,
    (Nat.toDigits 10 octet).all (fun c => (toDigit 10 c).isSome && token c) = true ∧
      readOctet (Nat.toDigits 10 octet) = some (octet, []) := by
  decide +kernel

theorem readOctet_append (octet : Fin 256) {rest : List Char}
    (stops : ∀ c ∈ rest.head?, (toDigit 10 c).isSome = false) :
    readOctet (Nat.toDigits 10 octet ++ rest) = some (octet, rest) := by
  obtain ⟨all, alone⟩ := octet_digits octet
  have every : ∀ c ∈ Nat.toDigits 10 octet, (toDigit 10 c).isSome = true := fun c inside =>
    (Bool.and_eq_true_iff.mp (List.all_eq_true.mp all c inside)).1
  have whole : digits 10 (Nat.toDigits 10 octet) = (Nat.toDigits 10 octet, []) := by
    have bare : digits 10 (Nat.toDigits 10 octet ++ []) = (Nat.toDigits 10 octet, []) :=
      digits_append every (by simp)
    rwa [List.append_nil] at bare
  rw [readOctet, readNumber, whole] at alone
  rw [readOctet, readNumber, digits_append every stops]
  dsimp only at alone ⊢
  split at alone
  · cases alone
  · rename_i fits
    rw [if_neg fits]
    rw [Option.bind_some] at alone ⊢
    split at alone
    · rename_i small
      rw [dif_pos small]
      injection alone with alone
      rw [Prod.mk.injEq] at alone
      rw [alone.1]
    · cases alone

theorem readIpv4_show (ip : Ipv4Addr) {rest : List Char}
    (stops : ∀ c ∈ rest.head?, (toDigit 10 c).isSome = false) :
    readIpv4 (ip.show ++ rest) = some (ip, rest) := by
  have dot : ∀ more : List Char, ∀ c ∈ ('.' :: more).head?, (toDigit 10 c).isSome = false := by
    intro more c is
    cases is
    decide
  have shape : ip.show ++ rest = Nat.toDigits 10 ip.a ++ '.' :: (Nat.toDigits 10 ip.b ++ '.' ::
      (Nat.toDigits 10 ip.c ++ '.' :: (Nat.toDigits 10 ip.d ++ rest))) := by
    simp [Ipv4Addr.show]
  rw [shape, readIpv4, readOctet_append ip.a (dot _)]
  simp only [Option.bind_eq_bind, Option.bind_some, given, if_true]
  rw [readOctet_append ip.b (dot _)]
  simp only [Option.bind_some, if_true]
  rw [readOctet_append ip.c (dot _)]
  simp only [Option.bind_some, if_true]
  rw [readOctet_append ip.d stops]
  rfl

theorem parse_show (ip : Ipv4Addr) : IpAddr.parse ip.show = some (.v4 ip) := by
  have read : readIpv4 (ip.show ++ []) = some (ip, []) := readIpv4_show ip (by simp)
  rw [List.append_nil] at read
  rw [IpAddr.parse, read]
  rfl

/-! The addresses of one peer. -/

def managed (host : Fin 256) : ℕ := network + (peerAddress host).bits

/-- The two hexadecimal digits of a host number. -/
def hexHost (host : Fin 256) : List Char :=
  [Nat.digitChar (host / 16), Nat.digitChar (host % 16)]

theorem segments_managed (host : Fin 256) :
    segments (managed host) = [0xfd42, 0x6e70, 0x6177, 2, 0, 0, 0xa08, host.val + 256] := by
  have small := host.isLt
  have bits : managed host = 0xfd426e70617700020000000000000000 + 0x0a080100 + host.val := by
    change 0xfd426e70617700020000000000000000 + (((10 * 256 + 8) * 256 + 1) * 256 + host.val) = _
    omega
  rw [bits, segments]
  simp only [List.map_cons, List.map_nil, List.cons.injEq, and_true]
  omega

theorem managed_text (host : Fin 256) :
    show6 (managed host) = "fd42:6e70:6177:2::a08:1".toList ++ hexHost host := by
  have small := host.isLt
  have last : Nat.toDigits 16 (host.val + 256) = '1' :: hexHost host := by
    have whole : host.val + 256 = 16 * (16 * 1 + host.val / 16) + host.val % 16 := by omega
    rw [whole, ← Nat.toDigits_append_toDigits (by decide) (by omega) (Nat.mod_lt _ (by decide)),
      ← Nat.toDigits_append_toDigits (by decide) (by decide) (by omega),
      Nat.toDigits_of_lt_base (by decide : (1 : ℕ) < 16), Nat.toDigits_of_lt_base (by omega),
      Nat.toDigits_of_lt_base (Nat.mod_lt _ (by decide))]
    rfl
  have run : zeroes [0xfd42, 0x6e70, 0x6177, 2, 0, 0, 0xa08, host.val + 256] = (4, 2) := rfl
  rw [show6, segments_managed]
  dsimp only
  rw [if_neg (by simp), run]
  dsimp only
  rw [if_pos (by decide)]
  change hexGroups [0xfd42, 0x6e70, 0x6177, 2] ++ [':', ':'] ++ hexGroups [0xa08, host.val + 256] = _
  simp only [hexGroups, List.map_cons, List.map_nil, last]
  rfl

theorem hex_digits : ∀ high low : Fin 16,
    readGroups 2 false [':', '1', Nat.digitChar high, Nat.digitChar low] =
      ([256 + 16 * high.val + low.val], false, []) := by
  decide +kernel

theorem readGroups_group {left : ℕ} {first : Bool} {text rest : List Char} {group : ℕ}
    (plain : separated first readIpv4 text = none)
    (read : separated first (readNumber 16 4 true) text = some (group, rest)) :
    readGroups (left + 1) first text =
      (group :: (readGroups left false rest).1, (readGroups left false rest).2) := by
  rw [readGroups, plain, ite_self, read]

theorem parse_managed (host : Fin 256) :
    IpAddr.parse (show6 (managed host)) = some (.v6 (managed host)) := by
  have small := host.isLt
  have tail := hex_digits ⟨host / 16, by omega⟩ ⟨host % 16, Nat.mod_lt _ (by decide)⟩
  have front : readGroups 8 true ("fd42:6e70:6177:2::a08:1".toList ++ hexHost host) =
      ([0xfd42, 0x6e70, 0x6177, 2], false, "::a08:1".toList ++ hexHost host) := rfl
  have back : readGroups 3 true ("a08:1".toList ++ hexHost host) =
      ([0xa08, 256 + 16 * (host.val / 16) + host.val % 16], false, []) := by
    have step : readGroups 3 true ("a08:1".toList ++ hexHost host) =
        (0xa08 :: (readGroups 2 false (":1".toList ++ hexHost host)).1,
          (readGroups 2 false (":1".toList ++ hexHost host)).2) :=
      readGroups_group rfl rfl
    rw [step]
    exact congrArg (fun found : List ℕ × Bool × List Char => (0xa08 :: found.1, found.2)) tail
  have read : readIpv6 ("fd42:6e70:6177:2::a08:1".toList ++ hexHost host) = some (managed host, []) := by
    rw [readIpv6, front]
    change some (List.foldl _ 0 ([0xfd42, 0x6e70, 0x6177, 2] ++ List.replicate (8 - 4 - (readGroups 3 true
      ("a08:1".toList ++ hexHost host)).1.length) 0 ++ (readGroups 3 true ("a08:1".toList ++ hexHost host)).1),
      (readGroups 3 true ("a08:1".toList ++ hexHost host)).2.2) = _
    rw [back]
    have bits : managed host = 0xfd426e70617700020000000000000000 + 0x0a080100 + host.val := by
      change 0xfd426e70617700020000000000000000 + (((10 * 256 + 8) * 256 + 1) * 256 + host.val) = _
      omega
    rw [bits]
    simp only [List.length_cons, List.length_nil, List.replicate, List.cons_append, List.nil_append,
      List.foldl_cons, List.foldl_nil, Option.some.injEq, Prod.mk.injEq, and_true]
    omega
  rw [managed_text, IpAddr.parse, read]
  rfl

theorem show_tokens (ip : Ipv4Addr) : ip.show.all token = true := by
  have octet (n : Fin 256) : (Nat.toDigits 10 n).all token = true := by
    refine List.all_eq_true.mpr fun c inside => ?_
    exact (Bool.and_eq_true_iff.mp (List.all_eq_true.mp (octet_digits n).1 c inside)).2
  have dot : token '.' = true := by decide
  simp [Ipv4Addr.show, octet, dot]

theorem managed_tokens (host : Fin 256) : (show6 (managed host)).all token = true := by
  have hex : ∀ n : Fin 16, token (Nat.digitChar n) = true := by decide
  rw [managed_text, List.all_append]
  refine Bool.and_eq_true_iff.mpr ⟨by decide, ?_⟩
  have high := hex ⟨host / 16, by omega⟩
  have low := hex ⟨host % 16, Nat.mod_lt _ (by decide)⟩
  dsimp only at high low
  simp [hexHost, high, low]

/-! A peer's list of addresses. -/

theorem trim_solid {word : List Char} (first : ∀ c ∈ word.head?, whitespace c = false)
    (last : ∀ c ∈ word.getLast?, whitespace c = false) : trim word = word := by
  have front : word.dropWhile whitespace = word := by
    cases word with
    | nil => rfl
    | cons c word => exact List.dropWhile_cons_of_neg (by simp [first c rfl])
  have back : word.reverse.dropWhile whitespace = word.reverse := by
    cases reversed : word.reverse with
    | nil => rfl
    | cons c rest =>
      refine List.dropWhile_cons_of_neg ?_
      have ends := last c (by rw [← List.head?_reverse, reversed]; rfl)
      simp [ends]
  rw [trim, front, back, List.reverse_reverse]

theorem trim_word {word : List Char} (plain : ∀ c ∈ word, whitespace c = false) : trim word = word :=
  trim_solid (fun c at_ => plain c (List.mem_of_mem_head? at_))
    fun c at_ => plain c (List.mem_of_mem_getLast? at_)

theorem trim_cons {c : Char} (blank : whitespace c = true) (word : List Char) :
    trim (c :: word) = trim word := by
  rw [trim, trim, List.dropWhile_cons_of_pos blank]

theorem splitSlash_tokens {address : List Char} (tokens : address.all token = true)
    {length : List Char} : splitSlash (address ++ '/' :: length) = (address, length) := by
  have other : ∀ c ∈ address, decide (c ≠ '/') = true := by
    intro c inside
    have is := List.all_eq_true.mp tokens c inside
    refine decide_eq_true fun same => ?_
    subst same
    revert is
    decide
  rw [splitSlash, List.takeWhile_append_of_pos other, List.dropWhile_append_of_pos other]
  simp

theorem interface_of {address length : List Char} {ip : IpAddr} {n : ℕ}
    (tokens : address.all token = true) (read : IpAddr.parse address = some ip)
    (some_ : length ≠ []) (fits : parseU8 (trim length) = some n)
    (small : n ≤ ip.maximum) :
    interface (address ++ '/' :: length) = .ok (ip, n) := by
  have plain : ∀ c ∈ address, token c = true := List.all_eq_true.mp tokens
  have bare : trim address = address := trim_word fun c inside => by
    have is := plain c inside
    rw [token, Bool.and_eq_true, Bool.not_eq_true'] at is
    exact is.1
  rw [interface, splitSlash_tokens tokens]
  dsimp only
  rw [bare, read]
  dsimp only
  rw [if_neg some_, fits, Option.filter_some, if_pos (decide_eq_true small)]

def ownV4 (host : Fin 256) : List Char := (peerAddress host).show ++ "/32".toList

def ownV6 (host : Fin 256) : List Char := show6 (managed host) ++ "/128".toList

/-- Both addresses of the peer with this host number. -/
def allowed (host : Fin 256) : List Char := [',', ' '].intercalate [ownV4 host, ownV6 host]

theorem interface_ownV4 (host : Fin 256) : interface (ownV4 host) = .ok (.v4 (peerAddress host), 32) :=
  interface_of (show_tokens _) (parse_show _) (by decide) (by decide) (by decide : 32 ≤ 32)

theorem interface_ownV6 (host : Fin 256) : interface (ownV6 host) = .ok (.v6 (managed host), 128) :=
  interface_of (managed_tokens _) (parse_managed _) (by decide) (by decide) (by decide : 128 ≤ 128)

/-- In a list of addresses nothing but tokens and slashes stands. -/
def slashed (c : Char) : Bool := token c || c = '/'

theorem slashed_append {address length : List Char} (tokens : address.all token = true)
    (rest : length.all slashed = true) : ∀ c ∈ address ++ length, slashed c = true := by
  intro c inside
  rcases List.mem_append.mp inside with front | back
  · rw [slashed, List.all_eq_true.mp tokens c front]
    rfl
  · exact List.all_eq_true.mp rest c back

theorem ownV4_slashed (host : Fin 256) : ∀ c ∈ ownV4 host, slashed c = true :=
  slashed_append (show_tokens _) (by decide)

theorem ownV6_slashed (host : Fin 256) : ∀ c ∈ ownV6 host, slashed c = true :=
  slashed_append (managed_tokens _) (by decide)

theorem slashed_plain {c : Char} (is : slashed c = true) : whitespace c = false ∧ c ≠ ',' ∧ c ≠ '[' := by
  rw [slashed, Bool.or_eq_true, token, Bool.and_eq_true, Bool.not_eq_true', Bool.not_eq_true',
    decide_eq_true_iff] at is
  rcases is with ⟨blank, other⟩ | rfl
  · refine ⟨blank, ?_, ?_⟩
    · rintro rfl
      exact absurd other (by decide)
    · rintro rfl
      exact absurd other (by decide)
  · decide

/-- A part of a list of addresses. -/
theorem parts_cons {part : List Char} (plain : ∀ c ∈ part, slashed c = true) (some_ : part ≠ [])
    (rest : List Char) : parts (part ++ ',' :: ' ' :: rest) = part :: parts rest := by
  have apart : ',' ∉ part := fun inside => (slashed_plain (plain _ inside)).2.1 rfl
  have bare : trim part = part := trim_word fun c inside => (slashed_plain (plain c inside)).1
  rw [parts, parts, List.splitOn_append_cons_self, List.splitOn_eq_singleton apart, List.singleton_append,
    List.map_cons, bare, List.filter_cons_of_pos (by simpa using some_)]
  congr 2
  rw [List.splitOn_cons_eq_if_modifyHead, if_neg (by decide)]
  cases shape : rest.splitOn ',' with
  | nil => rfl
  | cons first later =>
    rw [List.modifyHead_cons, List.map_cons, List.map_cons, trim_cons (by decide)]

theorem parts_single {part : List Char} (plain : ∀ c ∈ part, slashed c = true) (some_ : part ≠ []) :
    parts part = [part] := by
  have apart : ',' ∉ part := fun inside => (slashed_plain (plain _ inside)).2.1 rfl
  have bare : trim part = part := trim_word fun c inside => (slashed_plain (plain c inside)).1
  rw [parts, List.splitOn_eq_singleton apart, List.map_cons, List.map_nil, bare,
    List.filter_cons_of_pos (by simpa using some_)]
  rfl

theorem ownV4_ne (host : Fin 256) : ownV4 host ≠ [] := List.append_ne_nil_of_right_ne_nil _ (by decide)

theorem ownV6_ne (host : Fin 256) : ownV6 host ≠ [] := List.append_ne_nil_of_right_ne_nil _ (by decide)

theorem parts_allowed (host : Fin 256) : parts (allowed host) = [ownV4 host, ownV6 host] := by
  have shape : allowed host = ownV4 host ++ ',' :: ' ' :: ownV6 host := by simp [allowed]
  rw [shape, parts_cons (ownV4_slashed host) (ownV4_ne host),
    parts_single (ownV6_slashed host) (ownV6_ne host)]

/-- A new peer gets both its addresses. -/
theorem dual_new (host : Fin 256) : dualAddresses (ownV4 host) = .ok (allowed host) := by
  rw [dualAddresses, parts_single (ownV4_slashed host) (ownV4_ne host)]
  simp only [List.mapM_cons, List.mapM_nil, interface_ownV4]
  rfl

/-- A peer that has both addresses keeps them. -/
theorem dual_again (host : Fin 256) : dualAddresses (allowed host) = .ok (allowed host) := by
  rw [dualAddresses, parts_allowed]
  simp only [List.mapM_cons, List.mapM_nil, interface_ownV4, interface_ownV6]
  change (if _ then _ else _ : Except String (List Char)) = _
  rw [if_pos]
  · rfl
  · simp [managed]

end Tunnel
end NodePlane
