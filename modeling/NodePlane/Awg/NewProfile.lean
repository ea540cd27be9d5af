import NodePlane.Library.Draws
import NodePlane.Awg.ValidProfile

/-! The profiles that a preset generates. -/
namespace NodePlane
namespace Awg
open Library

/-- Also fits signed client configuration editors. -/
def generatedHeaderMax : ℕ := 2 ^ 31 - 1

def randomInt (low high : ℕ) : Draws ℕ := Draws.number low high

def randomBytes (n : ℕ) : Draws (List ℕ) := Draws.numbers 0 255 n

/-- `{byte:02x}`. -/
def hexByte (byte : ℕ) : List Char := [Nat.digitChar (byte / 16), Nat.digitChar (byte % 16)]

def presets : List String := ["dns", "chaos", "quic"]

/-- The tag `<r N>`. -/
def filler (n : ℕ) : String := "<r " ++ n.repr ++ ">"

/-- `i_values`: the packet patterns of a preset. -/
def iValues (preset : String) : Draws (Except String (List String)) :=
  if preset = "dns" then
    return .ok ["<rc 2><b 0x01000001000000000000><r 32>", "<rc 2><b 0x01000001000000000000><r 64>",
      "<r 48>", "<r 80>", "<r 40>"]
  else if preset = "chaos" then do
    let bytes ← randomBytes 4
    let hex := String.ofList (bytes.flatMap hexByte)
    let first ← randomInt 500 900
    let r : Draws String := filler <$> randomInt 100 900
    return .ok ["<b 0x" ++ hex ++ "><rc 4>" ++ filler first, ← r, ← r, ← r, ← r]
  else if preset = "quic" then
    return .ok ["<b 0xc000000001><rc 8><r 900>", "<b 0x40><rc 4><r 100>", "<r 900>", "<r 100>",
      "<r 900>"]
  else
    return .error ("Unknown I1 preset: " ++ preset)

/-- A range with bounds from two ranges. -/
def pair (a b : ℕ × ℕ) : Draws String := do
  let low ← randomInt a.1 a.2
  let high ← randomInt b.1 b.2
  return low.repr ++ "-" ++ high.repr

def newProfile (preset : String) : Draws (Except String Values) := do
  let s1 ← randomInt 16 128
  let s2 ← Draws.redrawn 16 128 fun s2 => s1 + 56 = s2
  let jmin ← randomInt 40 100
  let band := (generatedHeaderMax - 4) / 4
  let paddingLow ← randomInt 8 24
  let rekeyLow ← randomInt 100 115
  let rekeyHigh ← randomInt 125 145
  let values : Values := ⟨[]⟩
  let values := values.set "Jc" (← randomInt 3 7).repr
  let values := values.set "Jmin" jmin.repr
  let values := values.set "Jmax" (← randomInt (jmin + 40) 250).repr
  let values := values.set "S1" s1.repr
  let values := values.set "S2" s2.repr
  let values := values.set "S3" (← randomInt 12 48).repr
  let values := values.set "S4" (← randomInt 12 32).repr
  let values := values.set "H1" (← randomInt (5 + 0 * band) (4 + (0 + 1) * band)).repr
  let values := values.set "H2" (← randomInt (5 + 1 * band) (4 + (1 + 1) * band)).repr
  let values := values.set "H3" (← randomInt (5 + 2 * band) (4 + (2 + 1) * band)).repr
  let values := values.set "H4" (← randomInt (5 + 3 * band) (4 + (3 + 1) * band)).repr
  match ← iValues preset with
  | .error err => return .error err
  | .ok patterns =>
    let values := (patternFields.zip patterns).foldl (fun values (key, value) => values.set key value) values
    let values := values.set "HeaderProtectionKey" (String.ofList (Base64.encode (← randomBytes 32)))
    let values := values.set "ContentPaddingAddition"
      (paddingLow.repr ++ "-" ++ (← randomInt (paddingLow + 8) 64).repr)
    let values := values.set "RekeyAfterTime" (rekeyLow.repr ++ "-" ++ rekeyHigh.repr)
    let values := values.set "RejectAfterTime" (← pair (180, 200) (220, 260))
    let values := values.set "RekeyTimeout" (← pair (3, 5) (6, 8))
    let values := values.set "KeepaliveTimeout" (← pair (8, 10) (12, 18))
    let values := values.set "MaxHandshakeAttempts" (← pair (16, 20) (24, 32))
    let values := values.set "RandomTrailers" "on"
    let values := values.set "DisableCookies" "off"
    return do
      validate values true
      return values

/-! The texts of drawn numbers. -/

theorem digits_repr (n : ℕ) : digits n.repr.toList = true := by
  rw [digits, Nat.toList_repr, Bool.and_eq_true, Bool.not_eq_true', List.isEmpty_eq_false_iff,
    List.all_eq_true]
  exact ⟨Nat.toDigits_ne_nil, fun c inside => Nat.isDigit_of_mem_toDigits (by decide) (by decide) inside⟩

theorem decimal_repr (n : ℕ) : decimal n.repr.toList = n := by
  rw [decimal, Nat.toList_repr, Nat.ofDigitChars_ten_toDigits]

theorem isNumber_repr {n maximum : ℕ} (fits : n ≤ maximum) : IsNumber n.repr.toList maximum :=
  ⟨digits_repr n, (decimal_repr n).le.trans fits⟩

theorem isRange_repr {n maximum : ℕ} (fits : n ≤ maximum) : IsRange n.repr.toList 0 maximum (n, n) :=
  ⟨_, _, digits_repr n, digits_repr n, .inl ⟨rfl, rfl⟩, by rw [decimal_repr], Nat.zero_le _, le_rfl, fits⟩

theorem isRange_pair {low high minimum maximum : ℕ} (least : minimum ≤ low) (ordered : low ≤ high)
    (most : high ≤ maximum) :
    IsRange (low.repr ++ "-" ++ high.repr).toList minimum maximum (low, high) := by
  refine ⟨low.repr.toList, high.repr.toList, digits_repr low, digits_repr high, .inr ?_, ?_, least,
    ordered, most⟩
  · rw [String.toList_append, String.toList_append, List.append_assoc]
    rfl
  · rw [decimal_repr, decimal_repr]

/-! The patterns. -/

theorem isPattern_of_check {text : String} (passed : checkPattern ⟨[("", text)]⟩ "" = .ok ()) :
    IsPattern text.toList :=
  checkPattern_ok.mp passed

theorem isPattern_filler {n : ℕ} (few : n ≤ 1000) : IsPattern (filler n).toList := by
  refine ⟨[.filler .r n.repr.toList], List.cons_ne_nil _ _, ?_, ?_⟩
  · simp [filler, Tag.text, Tag.inner, Filler.name]
  · intro tag listed
    rw [List.mem_singleton.mp listed]
    exact ⟨digits_repr n, (decimal_repr n).le.trans few⟩

theorem hexDigit_digitChar {n : ℕ} (small : n < 16) : hexDigit (Nat.digitChar n) = true := by
  revert n
  decide

theorem hexByte_spelled {bytes : List ℕ} (each : ∀ byte ∈ bytes, byte ≤ 255) :
    (bytes.flatMap hexByte).length = 2 * bytes.length ∧
      (bytes.flatMap hexByte).all hexDigit = true := by
  induction bytes with
  | nil => exact ⟨rfl, rfl⟩
  | cons byte rest ih =>
    obtain ⟨here, later⟩ := List.forall_mem_cons.mp each
    obtain ⟨length, known⟩ := ih later
    rw [List.flatMap_cons, List.length_append, List.all_append, length, known]
    refine ⟨?_, ?_⟩
    · simp [hexByte]
      omega
    · simp [hexByte, hexDigit_digitChar (show byte / 16 < 16 by omega),
        hexDigit_digitChar (Nat.mod_lt byte (show 0 < 16 by decide))]

/-- The first pattern of `chaos`. -/
theorem isPattern_first {bytes : List ℕ} (length : bytes.length = 4)
    (each : ∀ byte ∈ bytes, byte ≤ 255) {n : ℕ} (few : n ≤ 900) :
    IsPattern ("<b 0x" ++ String.ofList (bytes.flatMap hexByte) ++ "><rc 4>" ++ filler n).toList := by
  obtain ⟨size, known⟩ := hexByte_spelled each
  refine ⟨[.bytes (bytes.flatMap hexByte), .filler .rc ['4'], .filler .r n.repr.toList],
    List.cons_ne_nil _ _, ?_, ?_⟩
  · simp [filler, Tag.text, Tag.inner, Filler.name]
  · simp only [List.mem_cons, List.not_mem_nil, or_false, forall_eq_or_imp, forall_eq]
    refine ⟨⟨⟨?_, known⟩, ?_⟩, ⟨rfl, (by decide : decimal ['4'] ≤ 1000)⟩, digits_repr n, ?_⟩
    · rw [← List.length_pos_iff, size, length]
      decide
    · show (bytes.flatMap hexByte).length % 2 = 0
      omega
    · exact (decimal_repr n).le.trans (few.trans (by decide))

/-- The packet patterns of a known preset are five expressions. -/
theorem iValues_always {preset : String} (known : preset ∈ presets) :
    (iValues preset).Always fun r => ∃ patterns, r = .ok patterns ∧ patterns.length = 5 ∧
      ∀ pattern ∈ patterns, IsPattern pattern.toList := by
  simp only [presets, List.mem_cons, List.not_mem_nil, or_false] at known
  rcases known with rfl | rfl | rfl
  · refine ⟨_, rfl, rfl, ?_⟩
    simp only [List.mem_cons, List.not_mem_nil, or_false, forall_eq_or_imp, forall_eq]
    refine ⟨?_, ?_, ?_, ?_, ?_⟩
    all_goals exact isPattern_of_check (by decide)
  · unfold iValues
    rw [if_neg (by decide), if_pos rfl, Draws.always_bind]
    refine (Draws.always_numbers (by decide) (by decide) 4).mono fun bytes ⟨length, each⟩ => ?_
    have drawn : (filler <$> randomInt 100 900).Always fun text => IsPattern text.toList :=
      Draws.always_map.mpr ((Draws.always_number (by decide) (by decide)).mono fun n bounds =>
        isPattern_filler (bounds.2.trans (by decide)))
    dsimp only
    rw [Draws.always_bind]
    refine (Draws.always_number (by decide) (by decide)).mono fun first bounds => ?_
    rw [Draws.always_bind]
    refine drawn.mono fun second here2 => ?_
    rw [Draws.always_bind]
    refine drawn.mono fun third here3 => ?_
    rw [Draws.always_bind]
    refine drawn.mono fun fourth here4 => ?_
    rw [Draws.always_bind]
    refine drawn.mono fun fifth here5 => ?_
    refine ⟨_, rfl, rfl, ?_⟩
    simp only [List.mem_cons, List.not_mem_nil, or_false, forall_eq_or_imp, forall_eq]
    exact ⟨isPattern_first length (fun byte inside => (each byte inside).2) bounds.2, here2, here3, here4,
      here5⟩
  · refine ⟨_, rfl, rfl, ?_⟩
    simp only [List.mem_cons, List.not_mem_nil, or_false, forall_eq_or_imp, forall_eq]
    refine ⟨?_, ?_, ?_, ?_, ?_⟩
    all_goals exact isPattern_of_check (by decide)

/-! The whole profile. -/

/-- What is drawn for a profile. -/
structure Drawn where
  (jc jmin jmax s1 s2 s3 s4 h1 h2 h3 h4 : ℕ)
  key : List ℕ
  (paddingLow paddingHigh rekeyLow rekeyHigh rejectLow rejectHigh : ℕ)
  jc_le : jc ≤ 65535
  jitter : jmin ≤ jmax ∧ jmax ≤ 65535
  s1_bounds : 12 ≤ s1 ∧ s1 ≤ 1552
  s2_bounds : 12 ≤ s2 ∧ s2 ≤ 1608
  s3_bounds : 12 ≤ s3 ∧ s3 ≤ 1636
  s4_bounds : 12 ≤ s4 ∧ s4 ≤ 32
  sizes : s1 + 56 ≠ s2
  headers : h1 < h2 ∧ h2 < h3 ∧ h3 < h4 ∧ h4 ≤ 4294967295
  length : key.length = 32
  padding : paddingLow ≤ paddingHigh ∧ paddingHigh ≤ 65535
  rekeys : 1 ≤ rekeyLow ∧ rekeyLow ≤ rekeyHigh ∧ rekeyHigh < rejectLow ∧ rejectLow ≤ rejectHigh ∧
    rejectHigh ≤ 65535

/-- The fields of the profile. -/
structure Drawn.Spelled (d : Drawn) (get : String → String) : Prop where
  jc : get "Jc" = d.jc.repr
  jmin : get "Jmin" = d.jmin.repr
  jmax : get "Jmax" = d.jmax.repr
  s1 : get "S1" = d.s1.repr
  s2 : get "S2" = d.s2.repr
  s3 : get "S3" = d.s3.repr
  s4 : get "S4" = d.s4.repr
  h1 : get "H1" = d.h1.repr
  h2 : get "H2" = d.h2.repr
  h3 : get "H3" = d.h3.repr
  h4 : get "H4" = d.h4.repr
  patterns : ∀ field ∈ patternFields, IsPattern (get field).toList
  key : get "HeaderProtectionKey" = String.ofList (Base64.encode d.key)
  content : get "ContentPaddingAddition" = d.paddingLow.repr ++ "-" ++ d.paddingHigh.repr
  rekey : get "RekeyAfterTime" = d.rekeyLow.repr ++ "-" ++ d.rekeyHigh.repr
  reject : get "RejectAfterTime" = d.rejectLow.repr ++ "-" ++ d.rejectHigh.repr
  timings : ∀ field ∈ ["RekeyTimeout", "KeepaliveTimeout", "MaxHandshakeAttempts"],
    ∃ r, IsRange (get field).toList 1 65535 r
  trailers : get "RandomTrailers" = "on"
  cookies : get "DisableCookies" = "off"

theorem repr_ne (n : ℕ) : n.repr ≠ "" := by
  intro none
  have known := digits_repr n
  rw [none] at known
  cases known

theorem pair_ne (low high : ℕ) : low.repr ++ "-" ++ high.repr ≠ "" := by
  intro none
  have inside : '-' ∈ (low.repr ++ "-" ++ high.repr).toList := by simp
  rw [none] at inside
  cases inside

theorem pattern_ne {text : String} (pattern : IsPattern text.toList) : text ≠ "" := by
  rintro rfl
  obtain ⟨tags, nonempty, same, -⟩ := pattern
  cases tags with
  | nil => exact nonempty rfl
  | cons tag rest => cases same

/-- A generated profile is valid. -/
theorem Drawn.valid {d : Drawn} {get : String → String} (spelled : d.Spelled get) : Valid get where
  protects := by
    rw [spelled.key]
    intro none
    obtain ⟨body, same, -⟩ := Base64.encode_whole d.length
    rw [← String.toList_ofList (l := Base64.encode d.key), none] at same
    simp at same
  trailers := .inl (by rw [spelled.trailers]; decide +kernel)
  cookies := .inr (by rw [spelled.cookies]; decide +kernel)
  present := by
    simp only [legacyFields, List.mem_cons, List.not_mem_nil, or_false, forall_eq_or_imp, forall_eq,
      spelled.jc, spelled.jmin, spelled.jmax, spelled.s1, spelled.s2, spelled.s3, spelled.s4, spelled.h1,
      spelled.h2, spelled.h3, spelled.h4]
    have patterns : ∀ field ∈ patternFields, get field ≠ "" :=
      fun field listed => pattern_ne (spelled.patterns field listed)
    simp only [patternFields, List.mem_cons, List.not_mem_nil, or_false, forall_eq_or_imp,
      forall_eq] at patterns
    exact ⟨repr_ne _, repr_ne _, repr_ne _, repr_ne _, repr_ne _, repr_ne _, repr_ne _, repr_ne _,
      repr_ne _, repr_ne _, repr_ne _, patterns⟩
  jmin := spelled.jmin ▸ isNumber_repr (d.jitter.1.trans d.jitter.2)
  jmax := spelled.jmax ▸ isNumber_repr d.jitter.2
  jitter := by
    rw [spelled.jmin, spelled.jmax, decimal_repr, decimal_repr]
    exact d.jitter.1
  count := spelled.jc ▸ isNumber_repr d.jc_le
  padding := by
    simp only [paddingLimits, List.mem_cons, List.not_mem_nil, or_false, forall_eq_or_imp, forall_eq,
      spelled.s1, spelled.s2, spelled.s3, spelled.s4, decimal_repr]
    exact ⟨⟨isNumber_repr d.s1_bounds.2, d.s1_bounds.1⟩, ⟨isNumber_repr d.s2_bounds.2, d.s2_bounds.1⟩,
      ⟨isNumber_repr d.s3_bounds.2, d.s3_bounds.1⟩, isNumber_repr d.s4_bounds.2, d.s4_bounds.1⟩
  sizes := by
    rw [spelled.s1, spelled.s2, decimal_repr, decimal_repr]
    exact d.sizes
  headers := by
    have := d.headers
    refine ⟨[(d.h1, d.h1), (d.h2, d.h2), (d.h3, d.h3), (d.h4, d.h4)], ?_, ?_⟩
    · refine .cons ?_ (.cons ?_ (.cons ?_ (.cons ?_ .nil)))
      · exact spelled.h1 ▸ isRange_repr (by omega)
      · exact spelled.h2 ▸ isRange_repr (by omega)
      · exact spelled.h3 ▸ isRange_repr (by omega)
      · exact spelled.h4 ▸ isRange_repr (by omega)
    · simp [Apart]
      omega
  patterns := spelled.patterns
  key := by
    rw [spelled.key, String.toList_ofList]
    exact Base64.encode_whole d.length
  content := fun _ => ⟨_, spelled.content ▸ isRange_pair (Nat.zero_le _) d.padding.1 d.padding.2⟩
  timings := by
    have others := spelled.timings
    have := d.rekeys
    simp only [List.mem_cons, List.not_mem_nil, or_false, forall_eq_or_imp, forall_eq] at others
    simp only [timingFields, List.mem_cons, List.not_mem_nil, or_false, forall_eq_or_imp, forall_eq]
    refine ⟨fun _ => ?_, fun _ => others.1, fun _ => ?_, fun _ => others.2.1, fun _ => others.2.2⟩
    · exact ⟨_, spelled.rekey ▸ isRange_pair (by omega) (by omega) (by omega)⟩
    · exact ⟨_, spelled.reject ▸ isRange_pair (by omega) (by omega) (by omega)⟩
  rekeys := by
    have := d.rekeys
    refine ⟨(d.rekeyLow, d.rekeyHigh), (d.rejectLow, d.rejectHigh), ?_, ?_, by omega⟩
    · rw [spelled.rekey, if_neg (pair_ne _ _)]
      exact isRange_pair (by omega) (by omega) (by omega)
    · rw [spelled.reject, if_neg (pair_ne _ _)]
      exact isRange_pair (by omega) (by omega) (by omega)

theorem checked_valid {values : Values} (valid : Valid values.get) :
    Draws.Always (return do
      validate values true
      return values) fun r => ∃ values, r = .ok values ∧ Valid values.get :=
  ⟨values, bind_ok.mpr ⟨(), validate_ok.mpr valid, rfl⟩, valid⟩

section Draws
variable {β : Type} {P : β → Prop}

theorem drawn {low high : ℕ} {f : ℕ → Draws β} (ordered : low ≤ high) (small : high < 2 ^ 63)
    (each : ∀ n, low ≤ n → n ≤ high → (f n).Always P) : (randomInt low high >>= f).Always P := by
  rw [Draws.always_bind]
  exact (Draws.always_number ordered small).mono fun n bounds => each n bounds.1 bounds.2

theorem drawn_pair {a b : ℕ × ℕ} {f : String → Draws β} (first : a.1 ≤ a.2) (second : b.1 ≤ b.2)
    (small : a.2 < 2 ^ 63) (small' : b.2 < 2 ^ 63)
    (each : ∀ low high, a.1 ≤ low → low ≤ a.2 → b.1 ≤ high → high ≤ b.2 →
      (f (low.repr ++ "-" ++ high.repr)).Always P) : (pair a b >>= f).Always P := by
  rw [Draws.always_bind, pair]
  refine drawn first small fun low least most => ?_
  exact drawn second small' fun high least' most' => each low high least most least' most'

end Draws

/-- For every known preset and all draws the profile is valid. -/
theorem newProfile_always {preset : String} (known : preset ∈ presets) :
    (newProfile preset).Always fun r => ∃ values, r = .ok values ∧ Valid values.get := by
  unfold newProfile
  refine drawn (by decide) (by decide) fun s1 s1Least s1Most => ?_
  rw [Draws.always_bind]
  refine ⟨by decide, ?_, fun s2 s2Least s2Most settled => ?_⟩
  · by_cases s1 + 56 = 128
    · exact ⟨127, by decide, by decide, decide_eq_false (by omega)⟩
    · exact ⟨128, by decide, by decide, decide_eq_false (by omega)⟩
  have sizes : s1 + 56 ≠ s2 := of_decide_eq_false settled
  refine drawn (by decide) (by decide) fun jmin jminLeast jminMost => ?_
  refine drawn (by decide) (by decide) fun paddingLow paddingLeast paddingMost => ?_
  refine drawn (by decide) (by decide) fun rekeyLow rekeyLeast rekeyMost => ?_
  refine drawn (by decide) (by decide) fun rekeyHigh rekeyLeast' rekeyMost' => ?_
  refine drawn (by decide) (by decide) fun jc jcLeast jcMost => ?_
  refine drawn (by omega) (by omega) fun jmax jmaxLeast jmaxMost => ?_
  refine drawn (by decide) (by decide) fun s3 s3Least s3Most => ?_
  refine drawn (by decide) (by decide) fun s4 s4Least s4Most => ?_
  refine drawn (by decide) (by decide) fun h1 h1Least h1Most => ?_
  refine drawn (by decide) (by decide) fun h2 h2Least h2Most => ?_
  refine drawn (by decide) (by decide) fun h3 h3Least h3Most => ?_
  refine drawn (by decide) (by decide) fun h4 h4Least h4Most => ?_
  rw [Draws.always_bind]
  refine (iValues_always known).mono fun r ⟨patterns, ok, five, each⟩ => ?_
  subst ok
  obtain ⟨i1, i2, i3, i4, i5, rfl⟩ : ∃ i1 i2 i3 i4 i5, patterns = [i1, i2, i3, i4, i5] := by
    match patterns, five with
    | [i1, i2, i3, i4, i5], _ => exact ⟨i1, i2, i3, i4, i5, rfl⟩
  simp only [List.mem_cons, List.not_mem_nil, or_false, forall_eq_or_imp, forall_eq] at each
  dsimp only
  rw [Draws.always_bind]
  refine (Draws.always_numbers (by decide) (by decide) 32).mono fun key ⟨length, _⟩ => ?_
  refine drawn (by omega) (by decide) fun paddingHigh paddingLeast' paddingMost' => ?_
  refine drawn_pair (by decide) (by decide) (by decide) (by decide)
    fun rejectLow rejectHigh rejectLeast rejectMost rejectLeast' rejectMost' => ?_
  refine drawn_pair (by decide) (by decide) (by decide) (by decide)
    fun timeoutLow timeoutHigh timeoutLeast timeoutMost timeoutLeast' timeoutMost' => ?_
  refine drawn_pair (by decide) (by decide) (by decide) (by decide)
    fun aliveLow aliveHigh aliveLeast aliveMost aliveLeast' aliveMost' => ?_
  refine drawn_pair (by decide) (by decide) (by decide) (by decide)
    fun attemptsLow attemptsHigh attemptsLeast attemptsMost attemptsLeast' attemptsMost' => ?_
  have bands : (generatedHeaderMax - 4) / 4 = 536870910 := by decide
  rw [bands] at h1Least h1Most h2Least h2Most h3Least h3Most h4Least h4Most
  dsimp only at *
  let all : Drawn := {
    jc, jmin, jmax, s1, s2, s3, s4, h1, h2, h3, h4, key, paddingLow, paddingHigh, rekeyLow, rekeyHigh,
    rejectLow, rejectHigh
    jc_le := by omega
    jitter := by omega
    s1_bounds := by omega
    s2_bounds := by omega
    s3_bounds := by omega
    s4_bounds := by omega
    sizes, length
    headers := by omega
    padding := by omega
    rekeys := by omega }
  refine checked_valid (all.valid ?_)
  have timed {low high : ℕ} (least : 1 ≤ low) (ordered : low ≤ high) (most : high ≤ 65535) :
      ∃ r, IsRange (low.repr ++ "-" ++ high.repr).toList 1 65535 r :=
    ⟨_, isRange_pair least ordered most⟩
  constructor
  case patterns =>
    simp [patternFields]
    exact each
  case timings =>
    simp only [List.mem_cons, List.not_mem_nil, or_false, forall_eq_or_imp, forall_eq]
    refine ⟨?_, ?_, ?_⟩
    · simpa [patternFields] using timed (show 1 ≤ timeoutLow by omega)
        (show timeoutLow ≤ timeoutHigh by omega) (show timeoutHigh ≤ 65535 by omega)
    · simpa [patternFields] using timed (show 1 ≤ aliveLow by omega)
        (show aliveLow ≤ aliveHigh by omega) (show aliveHigh ≤ 65535 by omega)
    · simpa [patternFields] using timed (show 1 ≤ attemptsLow by omega)
        (show attemptsLow ≤ attemptsHigh by omega) (show attemptsHigh ≤ 65535 by omega)
  all_goals simp [patternFields, all]

/-- Generating never draws from an empty range and never fails the validation; on a source that gives
every word again and again it ends. -/
theorem newProfile_ok {preset : String} (known : preset ∈ presets) :
    (∀ words, (newProfile preset).run words ≠ .emptyRange ∧ ∀ r, (newProfile preset).run words = .done r →
      ∃ values, r = .ok values ∧ validate values true = .ok ()) ∧
    ∀ source, Draws.Fair source → ∀ start, ∃ count values,
      (newProfile preset).run ((List.range' start count).map source) = .done (.ok values) ∧
        validate values true = .ok () := by
  have always := newProfile_always known
  constructor
  · intro words
    obtain ⟨nonempty, each⟩ := always.run words
    refine ⟨nonempty, fun r done => ?_⟩
    obtain ⟨values, same, valid⟩ := each r done
    exact ⟨values, same, validate_ok.mpr valid⟩
  · intro source fair start
    obtain ⟨count, r, done, values, rfl, valid⟩ := always.ends fair start
    exact ⟨count, values, done, validate_ok.mpr valid⟩

theorem newProfile_ok_chaos : Draws.Fair (· % 2 ^ 64) ∧ ∃ count values,
    (newProfile "chaos").run ((List.range' 0 count).map (· % 2 ^ 64)) = .done (.ok values) ∧
      validate values true = .ok () := by
  have fair : Draws.Fair (· % 2 ^ 64) := by
    intro word small n
    refine ⟨n * 2 ^ 64 + word, by omega, ?_⟩
    show (n * 2 ^ 64 + word) % 2 ^ 64 = word
    omega
  exact ⟨fair, (newProfile_ok (by decide)).2 _ fair 0⟩

end Awg
end NodePlane
