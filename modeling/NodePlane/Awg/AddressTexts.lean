import NodePlane.Awg.Addresses

/-! The texts of addresses: what a text that reads as one is made of, and the managed IPv6 address of
every IPv4 address read back. -/
namespace NodePlane
namespace Tunnel
open Readings

/-! Hexadecimal groups. -/

theorem hex_char : ∀ d : Fin 16,
    toDigit 16 (Nat.digitChar d) = some d.val ∧ token (Nat.digitChar d) = true ∧
      Nat.digitChar d ≠ '.' := by
  decide

theorem mem_hex {n : ℕ} {c : Char} (inside : c ∈ Nat.toDigits 16 n) :
    ∃ d : Fin 16, c = Nat.digitChar d := by
  induction n using Nat.strongRecOn with
  | ind n ih =>
    by_cases small : n < 16
    · rw [Nat.toDigits_of_lt_base small, List.mem_singleton] at inside
      exact ⟨⟨n, small⟩, inside⟩
    · rw [Nat.toDigits_of_base_le (by decide) (Nat.not_lt.mp small), List.mem_append] at inside
      rcases inside with front | last
      · exact ih (n / 16) (by omega) front
      · exact ⟨⟨n % 16, Nat.mod_lt _ (by decide)⟩, List.mem_singleton.mp last⟩

theorem valueOf_hex (n : ℕ) : valueOf 16 (Nat.toDigits 16 n) = n := by
  induction n using Nat.strongRecOn with
  | ind n ih =>
    by_cases small : n < 16
    · rw [Nat.toDigits_of_lt_base small]
      simp [valueOf, (hex_char ⟨n, small⟩).1]
    · have digit := (hex_char ⟨n % 16, Nat.mod_lt _ (by decide)⟩).1
      have front := ih (n / 16) (by omega)
      rw [valueOf] at front
      rw [Nat.toDigits_of_base_le (by decide) (Nat.not_lt.mp small), valueOf, List.foldl_append, front]
      simp only [List.foldl_cons, List.foldl_nil, digit, Option.getD_some]
      omega

theorem readNumber_hex {n : ℕ} (small : n < 65536) (rest : List Char)
    (stops : ∀ c ∈ rest.head?, (toDigit 16 c).isSome = false) :
    readNumber 16 4 true (Nat.toDigits 16 n ++ rest) = some (n, rest) := by
  have all : ∀ c ∈ Nat.toDigits 16 n, (toDigit 16 c).isSome = true := by
    intro c inside
    obtain ⟨d, rfl⟩ := mem_hex inside
    simp [(hex_char d).1]
  have short : (Nat.toDigits 16 n).length ≤ 4 :=
    (Nat.length_toDigits_le_iff (by decide) (by decide)).mpr (by simpa using small)
  rw [readNumber, digits_append all stops]
  dsimp only
  rw [if_neg (by simp [Nat.toDigits_ne_nil]; omega), valueOf_hex]

/-! What the readers take. -/

/-- The symbols of an address. -/
def symbol (c : Char) : Bool := (toDigit 16 c).isSome || c = '.' || c = ':'

/-- The reader takes symbols of an address only. -/
def Takes {ρ : Type} (read : List Char → Option (ρ × List Char)) : Prop :=
  ∀ {text x rest}, read text = some (x, rest) →
    ∃ used, text = used ++ rest ∧ ∀ c ∈ used, symbol c = true

theorem digit_symbol {c : Char} (digit : (toDigit 10 c).isSome = true ∨ (toDigit 16 c).isSome = true) :
    symbol c = true := by
  have wide : (toDigit 16 c).isSome = true := by
    rcases digit with ten | sixteen
    · unfold toDigit at ten ⊢
      dsimp only at ten ⊢
      grind
    · exact sixteen
  rw [symbol, wide, Bool.true_or, Bool.true_or]

theorem readNumber_takes {radix limit : ℕ} {zeros : Bool} (known : radix = 10 ∨ radix = 16) :
    Takes (readNumber radix limit zeros) := by
  intro text n rest read
  unfold readNumber digits at read
  rw [List.span_eq_takeWhile_dropWhile] at read
  dsimp only at read
  split at read
  · cases read
  · cases read
    refine ⟨_, (List.takeWhile_append_dropWhile ..).symm, fun c inside => digit_symbol ?_⟩
    have is := List.all_eq_true.mp List.all_takeWhile c inside
    rcases known with rfl | rfl
    · exact .inl is
    · exact .inr is

theorem readOctet_takes : Takes readOctet := by
  intro text n rest read
  obtain ⟨⟨m, rest'⟩, number, small⟩ := Option.bind_eq_some_iff.mp read
  dsimp only at small
  split at small
  · cases small
    exact readNumber_takes (.inl rfl) number
  · cases small

theorem given_some {c : Char} {text rest : List Char} (read : given c text = some rest) :
    text = c :: rest := by
  cases text with
  | nil => cases read
  | cons d text =>
    rw [given] at read
    split at read
    · next same => cases read; rw [same]
    · cases read

/-- An IPv4 address takes its symbols, a dot among them. -/
theorem readIpv4_some {text rest : List Char} {ip : Ipv4Addr} (read : readIpv4 text = some (ip, rest)) :
    ∃ used, text = used ++ rest ∧ '.' ∈ used ∧ ∀ c ∈ used, symbol c = true := by
  have dot : symbol '.' = true := by decide
  unfold readIpv4 at read
  simp only [Option.bind_eq_bind, Option.bind_eq_some_iff, Prod.exists] at read
  obtain ⟨a, r₁, one, r₂, dot₁, b, r₃, two, r₄, dot₂, c, r₅, three, r₆, dot₃, d, r₇, four, same⟩ := read
  obtain ⟨u₁, rfl, s₁⟩ := readOctet_takes one
  have := given_some dot₁; subst this
  obtain ⟨u₂, rfl, s₂⟩ := readOctet_takes two
  have := given_some dot₂; subst this
  obtain ⟨u₃, rfl, s₃⟩ := readOctet_takes three
  have := given_some dot₃; subst this
  obtain ⟨u₄, rfl, s₄⟩ := readOctet_takes four
  cases same
  refine ⟨u₁ ++ '.' :: (u₂ ++ '.' :: (u₃ ++ '.' :: u₄)), by simp, by simp, ?_⟩
  intro c inside
  simp only [List.mem_append, List.mem_cons] at inside
  rcases inside with h | rfl | h | rfl | h | rfl | h
  · exact s₁ c h
  · exact dot
  · exact s₂ c h
  · exact dot
  · exact s₃ c h
  · exact dot
  · exact s₄ c h

theorem readIpv4_takes : Takes readIpv4 := by
  intro text ip rest read
  obtain ⟨used, shape, -, all⟩ := readIpv4_some read
  exact ⟨used, shape, all⟩

theorem readIpv4_none {text : List Char} (plain : '.' ∉ text) : readIpv4 text = none := by
  cases read : readIpv4 text with
  | none => rfl
  | some found =>
    obtain ⟨ip, rest⟩ := found
    obtain ⟨used, rfl, dot, -⟩ := readIpv4_some read
    exact absurd (List.mem_append_left _ dot) plain

theorem separated_takes {ρ : Type} {first : Bool} {read : List Char → Option (ρ × List Char)}
    (takes : Takes read) : Takes (separated first read) := by
  intro text x rest found
  unfold separated at found
  split at found
  · exact takes found
  · obtain ⟨behind, colon, found⟩ := Option.bind_eq_some_iff.mp found
    obtain ⟨used, rfl, all⟩ := takes found
    refine ⟨':' :: used, given_some colon, fun c inside => ?_⟩
    rcases List.mem_cons.mp inside with rfl | inside
    · decide
    · exact all c inside

theorem readGroups_takes (left : ℕ) (first : Bool) (text : List Char) :
    ∃ used, text = used ++ (readGroups left first text).2.2 ∧ ∀ c ∈ used, symbol c = true := by
  induction left generalizing first text with
  | zero => exact ⟨[], rfl, fun c inside => by cases inside⟩
  | succ left ih =>
    unfold readGroups
    split
    · next ip rest found =>
      split at found
      · cases found
      · exact separated_takes readIpv4_takes found
    · split
      · exact ⟨[], rfl, fun c inside => by cases inside⟩
      · next group rest found =>
        obtain ⟨used, shape, all⟩ := separated_takes (readNumber_takes (.inr rfl)) found
        obtain ⟨more, tail, others⟩ := ih false rest
        refine ⟨used ++ more, ?_, fun c inside => ?_⟩
        · dsimp only
          rw [shape, List.append_assoc, ← tail]
        · rcases List.mem_append.mp inside with front | back
          · exact all c front
          · exact others c back

theorem readIpv6_takes : Takes readIpv6 := by
  intro text bits rest read
  obtain ⟨used, shape, all⟩ := readGroups_takes 8 true text
  unfold readIpv6 at read
  dsimp only at read
  split at read
  · cases read
    exact ⟨used, shape, all⟩
  · split at read
    · cases read
    · split at read
      · next behind colons =>
        cases read
        obtain ⟨more, tail, others⟩ :=
          readGroups_takes (7 - (readGroups 8 true text).1.length) true behind
        refine ⟨used ++ ':' :: ':' :: more, ?_, fun c inside => ?_⟩
        · rw [List.append_assoc, List.cons_append, List.cons_append, ← tail, ← colons]
          exact shape
        · simp only [List.mem_append, List.mem_cons] at inside
          rcases inside with front | rfl | rfl | back
          · exact all c front
          · decide
          · decide
          · exact others c back
      · cases read

/-- A text that reads as an address has the symbols of one only. -/
theorem parse_symbols {text : List Char} {ip : IpAddr} (read : IpAddr.parse text = some ip) :
    ∀ c ∈ text, symbol c = true := by
  unfold IpAddr.parse at read
  split at read
  · next v4 rest found =>
    split at read
    · next none =>
      subst none
      obtain ⟨used, rfl, all⟩ := readIpv4_takes found
      simpa using all
    · cases read
  · split at read
    · next bits rest found =>
      split at read
      · next none =>
        subst none
        obtain ⟨used, rfl, all⟩ := readIpv6_takes found
        simpa using all
      · cases read
    · cases read

/-! Trimmed texts. -/

/-- A text is its trimmed middle between blanks. -/
theorem trim_shape (text : List Char) : ∃ before after, text = before ++ trim text ++ after ∧
    (∀ c ∈ before, whitespace c = true) ∧ ∀ c ∈ after, whitespace c = true := by
  refine ⟨text.takeWhile whitespace,
    ((text.dropWhile whitespace).reverse.takeWhile whitespace).reverse, ?_, ?_, ?_⟩
  · rw [trim, List.append_assoc, ← List.reverse_append, List.takeWhile_append_dropWhile,
      List.reverse_reverse, List.takeWhile_append_dropWhile]
  · exact fun c inside => List.all_eq_true.mp List.all_takeWhile c inside
  · exact fun c inside => List.all_eq_true.mp List.all_takeWhile c (List.mem_reverse.mp inside)

theorem head_dropWhile {p : Char → Bool} {text : List Char} {c : Char}
    (first : (text.dropWhile p).head? = some c) : p c = false := by
  have := List.head?_dropWhile_not p text
  rw [first] at this
  simpa using this

theorem trim_last {text : List Char} {c : Char} (last : (trim text).getLast? = some c) :
    whitespace c = false := by
  rw [trim, List.getLast?_reverse] at last
  exact head_dropWhile last

theorem trim_first {text : List Char} {c : Char} (first : (trim text).head? = some c) :
    whitespace c = false := by
  have inside : trim text <+: text.dropWhile whitespace := by
    rw [trim, ← List.reverse_suffix, List.reverse_reverse]
    exact List.dropWhile_suffix _
  obtain ⟨rest, shape⟩ := inside
  have front : (text.dropWhile whitespace).head? = some c := by
    rw [← shape, List.head?_append, first]
    rfl
  exact head_dropWhile front

theorem trim_trim (text : List Char) : trim (trim text) = trim text :=
  trim_solid (fun _ first => trim_first first) fun _ last => trim_last last

theorem mem_trim {text : List Char} {c : Char} (inside : c ∈ text) :
    whitespace c = true ∨ c ∈ trim text := by
  obtain ⟨before, after, shape, front, back⟩ := trim_shape text
  rw [shape, List.mem_append, List.mem_append] at inside
  rcases inside with (h | h) | h
  · exact .inl (front c h)
  · exact .inr h
  · exact .inl (back c h)

/-! A text that reads as an interface. -/

theorem parseU8_digits {text : List Char} {n : ℕ} (read : parseU8 text = some n) :
    ∀ c ∈ text, c = '+' ∨ symbol c = true := by
  have digits_only : ∀ number : List Char, (digits 10 number).2 = [] →
      ∀ c ∈ number, symbol c = true := by
    intro number rest c inside
    rw [digits, List.span_eq_takeWhile_dropWhile] at rest
    dsimp only at rest
    rw [← List.takeWhile_append_dropWhile (p := fun c => (toDigit 10 c).isSome) (l := number), rest,
      List.append_nil] at inside
    exact digit_symbol (.inl (List.all_eq_true.mp List.all_takeWhile c inside))
  unfold parseU8 at read
  dsimp only at read
  split at read
  · next number =>
    split at read
    · next all =>
      intro c inside
      rcases List.mem_cons.mp inside with rfl | inside
      · exact .inl rfl
      · exact .inr (digits_only _ all.2.1 c inside)
    · cases read
  · split at read
    · next all => exact fun c inside => .inr (digits_only _ all.2.1 c inside)
    · cases read

theorem splitSlash_shape (value : List Char) :
    value = (splitSlash value).1 ∧ (splitSlash value).2 = [] ∨
      value = (splitSlash value).1 ++ '/' :: (splitSlash value).2 := by
  have whole := List.takeWhile_append_dropWhile (p := (decide <| · ≠ '/')) (l := value)
  rw [splitSlash]
  cases rest : value.dropWhile (decide <| · ≠ '/') with
  | nil =>
    rw [rest, List.append_nil] at whole
    exact .inl ⟨whole.symm, rfl⟩
  | cons c behind =>
    have slash : c = '/' := by
      have front : (value.dropWhile (decide <| · ≠ '/')).head? = some c := by
        rw [rest]
        rfl
      simpa using head_dropWhile front
    rw [rest, slash] at whole
    exact .inr whole.symm

/-- An interface is not empty and has no bracket. -/
theorem interface_plain {value : List Char} {found : IpAddr × ℕ} (read : interface value = .ok found) :
    value ≠ [] ∧ '[' ∉ value := by
  unfold interface at read
  dsimp only at read
  cases address : IpAddr.parse (trim (splitSlash value).1) with
  | none => rw [address] at read; cases read
  | some ip =>
    rw [address] at read
    dsimp only at read
    have front : '[' ∉ (splitSlash value).1 := by
      intro inside
      rcases mem_trim inside with blank | inside
      · exact absurd blank (by decide)
      · exact absurd (parse_symbols address _ inside) (by decide)
    have back : '[' ∉ (splitSlash value).2 := by
      intro inside
      split at read
      · next none => rw [none] at inside; cases inside
      · split at read
        · cases read
        · next length fits =>
          obtain ⟨number, -⟩ := Option.filter_eq_some_iff.mp fits
          rcases mem_trim inside with blank | inside
          · exact absurd blank (by decide)
          · rcases parseU8_digits number _ inside with same | is
            · cases same
            · exact absurd is (by decide)
    refine ⟨fun none => ?_, fun inside => ?_⟩
    · have nothing : IpAddr.parse (trim (splitSlash []).1) = Option.none := by decide
      rw [none, nothing] at address
      cases address
    · rcases splitSlash_shape value with ⟨shape, -⟩ | shape
      · exact front (shape ▸ inside)
      · rw [shape, List.mem_append, List.mem_cons] at inside
        rcases inside with inside | same | inside
        · exact front inside
        · cases same
        · exact back inside

/-! The managed address of any IPv4 address. -/

theorem bits_lt (ip : Ipv4Addr) : ip.bits < 4294967296 := by
  have a := ip.a.isLt
  have b := ip.b.isLt
  have c := ip.c.isLt
  have d := ip.d.isLt
  rw [Ipv4Addr.bits]
  omega

theorem segments_network {bits : ℕ} (small : bits < 4294967296) :
    segments (network + bits) = [0xfd42, 0x6e70, 0x6177, 2, 0, 0, bits / 65536, bits % 65536] := by
  rw [network, segments]
  simp only [List.map_cons, List.map_nil, List.cons.injEq, and_true]
  omega

/-- The host part of a managed address, behind the two colons. -/
def hostText (high low : ℕ) : List Char :=
  if high = 0 then if low = 0 then [] else Nat.toDigits 16 low
  else Nat.toDigits 16 high ++ ':' :: Nat.toDigits 16 low

theorem network_text {bits : ℕ} (small : bits < 4294967296) :
    show6 (network + bits) =
      "fd42:6e70:6177:2::".toList ++ hostText (bits / 65536) (bits % 65536) := by
  rw [show6, segments_network small]
  dsimp only
  rw [if_neg (by simp)]
  generalize bits / 65536 = high
  generalize bits % 65536 = low
  cases high with
  | zero =>
    cases low with
    | zero => rfl
    | succ low =>
      have run : zeroes [0xfd42, 0x6e70, 0x6177, 2, 0, 0, 0, low + 1] = (4, 3) := rfl
      rw [run]
      dsimp only
      rw [if_pos (by decide)]
      simp [hexGroups, hostText]
      rfl
  | succ high =>
    have run : zeroes [0xfd42, 0x6e70, 0x6177, 2, 0, 0, high + 1, low] = (4, 2) := by
      cases low <;> rfl
    rw [run]
    dsimp only
    rw [if_pos (by decide)]
    simp [hexGroups, hostText]
    rfl

theorem hostText_chars {high low : ℕ} {c : Char} (inside : c ∈ hostText high low) :
    token c = true ∧ c ≠ '.' := by
  have hex : ∀ {n : ℕ}, c ∈ Nat.toDigits 16 n → token c = true ∧ c ≠ '.' := by
    intro n digit
    obtain ⟨d, rfl⟩ := mem_hex digit
    exact (hex_char d).2
  unfold hostText at inside
  split at inside
  · split at inside
    · cases inside
    · exact hex inside
  · rcases List.mem_append.mp inside with front | back
    · exact hex front
    · rcases List.mem_cons.mp back with rfl | back
      · decide
      · exact hex back

/-- The host part reads back as its groups. -/
theorem readGroups_host {high low : ℕ} (small : high < 65536 ∧ low < 65536) :
    ∃ groups, readGroups 3 true (hostText high low) = (groups, false, []) ∧
      List.replicate (8 - 4 - groups.length) 0 ++ groups = [0, 0, high, low] := by
  have plain : ∀ {text : List Char}, (∀ c ∈ text, c ≠ '.') → readIpv4 text = none := by
    intro text all
    exact readIpv4_none fun inside => all _ inside rfl
  have hex : ∀ {n : ℕ}, ∀ c ∈ Nat.toDigits 16 n, c ≠ '.' := by
    intro n c digit
    obtain ⟨d, rfl⟩ := mem_hex digit
    exact (hex_char d).2.2
  by_cases none_ : high = 0
  · by_cases zero : low = 0
    · exact ⟨[], by rw [hostText, if_pos none_, if_pos zero]; rfl, by simp [none_, zero]⟩
    · refine ⟨[low], ?_, by simp [none_]⟩
      have read := readNumber_hex small.2 [] (by simp)
      rw [List.append_nil] at read
      rw [hostText, if_pos none_, if_neg zero]
      have other : separated true readIpv4 (Nat.toDigits 16 low) = none := plain hex
      exact readGroups_group other read
  · refine ⟨[high, low], ?_, by simp⟩
    have first := readNumber_hex small.1 (':' :: Nat.toDigits 16 low) (by simp; decide)
    have second := readNumber_hex small.2 [] (by simp)
    rw [List.append_nil] at second
    rw [hostText, if_neg none_]
    have behind : separated false readIpv4 (':' :: Nat.toDigits 16 low) = none := plain hex
    have next : readGroups 2 false (':' :: Nat.toDigits 16 low) = ([low], false, []) :=
      readGroups_group behind second
    have other : separated true readIpv4 (Nat.toDigits 16 high ++ ':' :: Nat.toDigits 16 low) = none := by
      refine plain fun c inside => ?_
      rcases List.mem_append.mp inside with front | back
      · exact hex c front
      · rcases List.mem_cons.mp back with rfl | back
        · decide
        · exact hex c back
    rw [readGroups_group other first, next]

theorem parse_network {bits : ℕ} (small : bits < 4294967296) :
    IpAddr.parse (show6 (network + bits)) = some (.v6 (network + bits)) := by
  have groups : bits / 65536 < 65536 ∧ bits % 65536 < 65536 := by omega
  obtain ⟨tail, back, whole⟩ := readGroups_host groups
  have front : readGroups 8 true
      ("fd42:6e70:6177:2::".toList ++ hostText (bits / 65536) (bits % 65536)) =
      ([0xfd42, 0x6e70, 0x6177, 2], false, "::".toList ++ hostText (bits / 65536) (bits % 65536)) := rfl
  have read : readIpv6 ("fd42:6e70:6177:2::".toList ++ hostText (bits / 65536) (bits % 65536)) =
      some (network + bits, []) := by
    rw [readIpv6, front]
    change some (List.foldl _ 0 ([0xfd42, 0x6e70, 0x6177, 2] ++ List.replicate (8 - 4 -
      (readGroups 3 true (hostText (bits / 65536) (bits % 65536))).1.length) 0 ++
        (readGroups 3 true (hostText (bits / 65536) (bits % 65536))).1),
      (readGroups 3 true (hostText (bits / 65536) (bits % 65536))).2.2) = _
    rw [back]
    dsimp only
    rw [List.append_assoc, whole, network]
    simp only [List.cons_append, List.nil_append, List.foldl_cons, List.foldl_nil, Option.some.injEq,
      Prod.mk.injEq, and_true]
    omega
  have v4 : readIpv4 ("fd42:6e70:6177:2::".toList ++ hostText (bits / 65536) (bits % 65536)) = none := by
    refine readIpv4_none fun inside => ?_
    rcases List.mem_append.mp inside with front | back
    · exact absurd front (by decide)
    · exact (hostText_chars back).2 rfl
  rw [network_text small, IpAddr.parse, v4, read]
  rfl

theorem network_tokens {bits : ℕ} (small : bits < 4294967296) :
    (show6 (network + bits)).all token = true := by
  rw [network_text small, List.all_append]
  refine Bool.and_eq_true_iff.mpr ⟨by decide, List.all_eq_true.mpr fun c inside => ?_⟩
  exact (hostText_chars inside).1

theorem interface_network {bits : ℕ} (small : bits < 4294967296) :
    interface (show6 (network + bits) ++ "/128".toList) = .ok (.v6 (network + bits), 128) :=
  interface_of (network_tokens small) (parse_network small) (by decide) (by decide)
    (by decide : 128 ≤ 128)

end Tunnel
end NodePlane
