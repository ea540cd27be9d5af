import NodePlane.Library.PrefixCode
import NodePlane.Agent.Json

/-! The canonical text determines its value: two different requests can share a
fingerprint only through a collision of the hash. -/
namespace NodePlane
open Library

private theorem toNat_ofNat {n : Nat} (small : n < 0xD800) : (Char.ofNat n).toNat = n := by
  rw [Char.ofNat, dif_pos (Or.inl small)]
  rfl

private def hexValue (c : Char) : Nat := if c.toNat < 58 then c.toNat - 48 else c.toNat - 87

private theorem hexValue_hexDigit : ∀ n < 16, hexValue (hexDigit n) = n := by decide

private def readEscape : List Char → Option (Nat × List Char)
  | 'u' :: a :: b :: c :: d :: s =>
    some (hexValue a * 4096 + hexValue b * 256 + hexValue c * 16 + hexValue d, s)
  | '"' :: s => some (0x22, s)
  | '\\' :: s => some (0x5c, s)
  | 'n' :: s => some (0x0a, s)
  | 'r' :: s => some (0x0d, s)
  | 't' :: s => some (0x09, s)
  | 'b' :: s => some (0x08, s)
  | 'f' :: s => some (0x0c, s)
  | _ => none

private def readUnit : List Char → Option (Nat × List Char)
  | [] => none
  | c :: s => if c = '\\' then readEscape s else some (c.toNat, s)

private theorem readUnit_escapeUnit (u : Nat) (bound : u < 65536) (s : List Char) :
    readUnit (escapeUnit u ++ s) = some (u, s) := by
  unfold escapeUnit
  split_ifs with h1 h2 h3 h4 h5 h6 h7 printable
  any_goals subst u; rfl
  · have back : (Char.ofNat u).toNat = u := toNat_ofNat (by omega)
    have plain : Char.ofNat u ≠ '\\' := by
      intro same
      rw [same] at back
      exact h2 back.symm
    simp [readUnit, plain, back]
  · have value : hexValue (hexDigit (u / 4096 % 16)) * 4096 + hexValue (hexDigit (u / 256 % 16)) * 256
        + hexValue (hexDigit (u / 16 % 16)) * 16 + hexValue (hexDigit (u % 16)) = u := by
      rw [hexValue_hexDigit _ (by omega), hexValue_hexDigit _ (by omega),
        hexValue_hexDigit _ (by omega), hexValue_hexDigit _ (by omega)]
      omega
    simp [readUnit, readEscape, hex4, value]

theorem escapeUnit_code : PrefixCode (· < 65536) escapeUnit :=
  PrefixCode.of_read readUnit_escapeUnit

private theorem escapeUnit_head (u : Nat) : (escapeUnit u).head? ≠ some '"' := by
  unfold escapeUnit
  split_ifs with h1 h2 h3 h4 h5 h6 h7 printable
  any_goals decide
  · have back : (Char.ofNat u).toNat = u := toNat_ofNat (by omega)
    intro same
    rw [List.head?_cons, Option.some.injEq] at same
    rw [same] at back
    exact h1 back.symm
  · simp

private theorem escapeUnit_ne_nil (u : Nat) : escapeUnit u ≠ [] := by
  unfold escapeUnit
  split_ifs <;> simp

private def readChar : List Nat → Option (Char × List Nat)
  | [] => none
  | u :: s =>
    if 0xD800 ≤ u ∧ u < 0xDC00 then
      match s with
      | [] => none
      | v :: s => some (Char.ofNat (0x10000 + (u - 0xD800) * 0x400 + (v - 0xDC00)), s)
    else some (Char.ofNat u, s)

private theorem toNat_valid (c : Char) :
    c.toNat < 0xD800 ∨ (0xDFFF < c.toNat ∧ c.toNat < 0x110000) := c.valid

private theorem readChar_utf16 (c : Char) (s : List Nat) : readChar (utf16 c ++ s) = some (c, s) := by
  unfold utf16
  have valid := toNat_valid c
  split_ifs with basic
  · have outside : ¬(0xD800 ≤ c.toNat ∧ c.toNat < 0xDC00) := by omega
    simp [readChar, outside]
  · have high : 0xD800 ≤ 0xD800 + (c.toNat - 0x10000) / 0x400 ∧
        0xD800 + (c.toNat - 0x10000) / 0x400 < 0xDC00 := by omega
    have value : 0x10000 + (0xD800 + (c.toNat - 0x10000) / 0x400 - 0xD800) * 0x400 +
        (0xDC00 + (c.toNat - 0x10000) % 0x400 - 0xDC00) = c.toNat := by omega
    simp only [readChar, List.cons_append, List.nil_append, if_pos high, value, Char.ofNat_toNat]

theorem utf16_code : PrefixCode (fun _ => True) utf16 :=
  PrefixCode.of_read fun c _ s => readChar_utf16 c s

private theorem utf16_ne_nil (c : Char) : utf16 c ≠ [] := by
  unfold utf16
  split_ifs <;> simp

private theorem utf16_bound {c : Char} {u : Nat} (member : u ∈ utf16 c) : u < 65536 := by
  have valid := toNat_valid c
  unfold utf16 at member
  split_ifs at member with basic
  · simp at member
    omega
  · simp at member
    omega

/-- A quoted string is read back from the front of any text. -/
theorem quoted_split {s t : String} {x y : List Char} (same : quoted s ++ x = quoted t ++ y) :
    s = t ∧ x = y := by
  have bound (s : String) : ∀ u ∈ s.toList.flatMap utf16, u < 65536 := by
    intro u member
    obtain ⟨c, _, hu⟩ := List.mem_flatMap.mp member
    exact utf16_bound hu
  simp only [quoted, List.append_assoc, List.singleton_append] at same
  obtain ⟨units, rest⟩ := escapeUnit_code.terminated escapeUnit_head escapeUnit_ne_nil
    (bound s) (bound t) same
  have chars := utf16_code.flatMap_injective utf16_ne_nil (fun _ _ => trivial)
    (fun _ _ => trivial) units
  exact ⟨String.toList_inj.mp chars, rest⟩

private theorem toDigits_numberChar {n : Nat} {c : Char} (member : c ∈ Nat.toDigits 10 n) :
    numberChar c = true := by
  simp [numberChar, Nat.isDigit_of_mem_toDigits (by decide) (by decide) member]

private theorem toDigits_injective {m n : Nat} (same : Nat.toDigits 10 m = Nat.toDigits 10 n) :
    m = n := by
  have digits := congrArg (fun cs => Nat.ofDigitChars 10 cs 0) same
  simpa [Nat.ofDigitChars_ten_toDigits] using digits

private theorem dash_toDigits {n : Nat} {cs : List Char} : '-' :: cs ≠ Nat.toDigits 10 n := by
  intro same
  have member : '-' ∈ Nat.toDigits 10 n := by rw [← same]; simp
  exact absurd (Nat.isDigit_of_mem_toDigits (by decide) (by decide) member) (by decide)

theorem decimal_numberChar (n : Int) : ∀ c ∈ decimal n, numberChar c = true := by
  intro c member
  cases n with
  | ofNat n => exact toDigits_numberChar member
  | negSucc n =>
    rcases List.mem_cons.mp member with rfl | digit
    · decide
    · exact toDigits_numberChar digit

theorem decimal_injective {m n : Int} (same : decimal m = decimal n) : m = n := by
  cases m with
  | ofNat m =>
    cases n with
    | ofNat n => rw [toDigits_injective same]
    | negSucc n => exact absurd same.symm dash_toDigits
  | negSucc m =>
    cases n with
    | ofNat n => exact absurd same dash_toDigits
    | negSucc n =>
      have digits := toDigits_injective (List.cons.inj same).2
      rw [Nat.succ.inj digits]

private theorem decimal_not_fractional (n : Int) :
    ((decimal n).any fun c => c ∈ ['.', 'e']) = false := by
  have digit {c : Char} {n : Nat} (member : c ∈ Nat.toDigits 10 n) : c ∉ ['.', 'e'] := by
    have isDigit := Nat.isDigit_of_mem_toDigits (by decide) (by decide) member
    intro fraction
    rcases List.mem_pair.mp fraction with rfl | rfl <;> exact absurd isDigit (by decide)
  rw [List.any_eq_false]
  intro c member
  cases n with
  | ofNat n => simpa using digit member
  | negSucc n =>
    rcases List.mem_cons.mp member with rfl | later
    · decide
    · simpa using digit later

private theorem decimal_ne_float (n : Int) (x : FloatText) : decimal n ≠ x.text.toList := by
  intro same
  have fractional := x.fractional
  rw [← same, decimal_not_fractional] at fractional
  exact absurd fractional (by decide)

/-- The first symbol of a value's text, all numbers alike. -/
private def Json.lead : Json → Char
  | .null => 'n'
  | .bool true => 't'
  | .bool false => 'f'
  | .int _ | .float _ => '0'
  | .str _ => '"'
  | .arr _ => '['
  | .obj _ => '{'

private def classify (c : Char) : Char := if numberChar c then '0' else c

private theorem number_lead {cs : List Char} (nonempty : cs ≠ [])
    (number : ∀ c ∈ cs, numberChar c = true) : cs.head?.map classify = some '0' := by
  cases cs with
  | nil => exact absurd rfl nonempty
  | cons c cs => simp [classify, number c (by simp)]

private theorem decimal_ne_nil (n : Int) : decimal n ≠ [] := by
  cases n with
  | ofNat n =>
    intro empty
    have digits := congrArg List.length empty
    exact absurd digits (Nat.ne_of_gt Nat.length_toDigits_pos)
  | negSucc n => simp [decimal]

private theorem FloatText.number_mem (x : FloatText) : ∀ c ∈ x.text.toList, numberChar c = true :=
  List.all_eq_true.mp x.number

private theorem FloatText.ne_nil (x : FloatText) : x.text.toList ≠ [] := by
  intro empty
  have fractional := x.fractional
  rw [empty] at fractional
  exact absurd fractional (by decide)

private theorem write_lead (sep : Separators) (v : Json) :
    (v.write sep).head?.map classify = some v.lead := by
  cases v with
  | null => rfl
  | bool b => cases b <;> rfl
  | int n => exact number_lead (decimal_ne_nil n) (decimal_numberChar n)
  | float x => exact number_lead x.ne_nil x.number_mem
  | str s => simp [Json.write, Json.lead, classify, numberChar]
  | arr items => cases items <;> simp [Json.write, Json.lead, classify, numberChar]
  | obj members =>
    match members with
    | [] => simp [Json.write, Json.lead, classify, numberChar]
    | (k, v) :: ms => simp [Json.write, Json.lead, classify, numberChar]

private theorem lead_eq {sep : Separators} {v w : Json} {s t : List Char}
    (same : v.write sep ++ s = w.write sep ++ t) : v.lead = w.lead := by
  have hv := write_lead sep v
  have hw := write_lead sep w
  cases left : v.write sep with
  | nil => simp [left] at hv
  | cons a as =>
    cases right : w.write sep with
    | nil => simp [right] at hw
    | cons b bs =>
      rw [left, right] at same
      injection same with head
      simp only [left, right, List.head?_cons, Option.map_some, Option.some.injEq] at hv hw
      rw [← hv, ← hw, head]

private theorem writeItems_ends (sep : Separators) (vs : List Json) (s : List Char) :
    Ends numberChar (Json.writeItems sep vs ++ s) := by
  cases vs <;> simp [Json.writeItems, numberChar]

private theorem writeMembers_ends (sep : Separators) (ms : List (String × Json)) (s : List Char) :
    Ends numberChar (Json.writeMembers sep ms ++ s) := by
  match ms with
  | [] => simp [Json.writeMembers, numberChar]
  | (k, v) :: ms => simp [Json.writeMembers, numberChar]

private theorem lead_mem (v : Json) : v.lead ∈ ['n', 't', 'f', '0', '"', '[', '{'] := by
  cases v with
  | bool b => cases b <;> simp [Json.lead]
  | null | int | float | str | arr | obj => simp [Json.lead]

private theorem write_start {sep : Separators} {v : Json} {c : Char} {s t : List Char}
    (other : classify c ∉ ['n', 't', 'f', '0', '"', '[', '{']) : v.write sep ++ s ≠ c :: t := by
  intro same
  have start := write_lead sep v
  cases text : v.write sep with
  | nil => simp [text] at start
  | cons d ds =>
    rw [text] at same
    injection same with head
    rw [text, head, List.head?_cons, Option.map_some, Option.some.injEq] at start
    exact other (start ▸ lead_mem v)

mutual
/-- A value is read back from the front of any text that ends its number. -/
theorem write_split (sep : Separators) : ∀ (v w : Json) (s t : List Char), Ends numberChar s →
    Ends numberChar t → v.write sep ++ s = w.write sep ++ t → v = w ∧ s = t
  | .null, w, s, t, _, _, same => by
    have leads := lead_eq same
    cases w with
    | null => simpa [Json.write] using same
    | bool b => cases b <;> simp [Json.lead] at leads
    | int | float | str | arr | obj => simp [Json.lead] at leads
  | .bool a, w, s, t, _, _, same => by
    have leads := lead_eq same
    cases w with
    | bool b => cases a <;> cases b <;> simp_all [Json.lead, Json.write]
    | null | int | float | str | arr | obj => cases a <;> simp [Json.lead] at leads
  | .int m, w, s, t, hs, ht, same => by
    have leads := lead_eq same
    cases w with
    | int n =>
      obtain ⟨digits, rest⟩ := token_split (decimal_numberChar m) (decimal_numberChar n) hs ht same
      exact ⟨by rw [decimal_injective digits], rest⟩
    | float x =>
      obtain ⟨digits, _⟩ := token_split (decimal_numberChar m) x.number_mem hs ht same
      exact absurd digits (decimal_ne_float m x)
    | bool b => cases b <;> simp [Json.lead] at leads
    | null | str | arr | obj => simp [Json.lead] at leads
  | .float x, w, s, t, hs, ht, same => by
    have leads := lead_eq same
    cases w with
    | int n =>
      obtain ⟨digits, _⟩ := token_split x.number_mem (decimal_numberChar n) hs ht same
      exact absurd digits.symm (decimal_ne_float n x)
    | float y =>
      obtain ⟨digits, rest⟩ := token_split x.number_mem y.number_mem hs ht same
      exact ⟨by rw [FloatText.ext (String.toList_inj.mp digits)], rest⟩
    | bool b => cases b <;> simp [Json.lead] at leads
    | null | str | arr | obj => simp [Json.lead] at leads
  | .str a, w, s, t, _, _, same => by
    have leads := lead_eq same
    cases w with
    | str b =>
      obtain ⟨rfl, rest⟩ := quoted_split (List.cons.inj same).2
      exact ⟨rfl, rest⟩
    | bool b => cases b <;> simp [Json.lead] at leads
    | null | int | float | arr | obj => simp [Json.lead] at leads
  | .arr vs, w, s, t, _, _, same => by
    have leads := lead_eq same
    cases w with
    | arr ws =>
      match vs, ws with
      | [], [] => simpa [Json.write] using same
      | [], w :: ws =>
        simp only [Json.write, List.cons_append, List.append_assoc, List.cons.injEq, true_and] at same
        exact absurd same.symm (write_start (by decide))
      | v :: vs, [] =>
        simp only [Json.write, List.cons_append, List.append_assoc, List.cons.injEq, true_and] at same
        exact absurd same (write_start (by decide))
      | v :: vs, w :: ws =>
        simp only [Json.write, List.cons_append, List.append_assoc, List.cons.injEq, true_and] at same
        obtain ⟨rfl, rest⟩ := write_split sep v w _ _ (writeItems_ends sep vs s)
          (writeItems_ends sep ws t) same
        obtain ⟨rfl, tail⟩ := writeItems_split sep vs ws s t rest
        exact ⟨rfl, tail⟩
    | bool b => cases b <;> simp [Json.lead] at leads
    | null | int | float | str | obj => simp [Json.lead] at leads
  | .obj ms, w, s, t, _, _, same => by
    have leads := lead_eq same
    cases w with
    | obj ns =>
      match ms, ns with
      | [], [] => simpa [Json.write] using same
      | [], (k, w) :: ns => simp [Json.write] at same
      | (j, v) :: ms, [] => simp [Json.write] at same
      | (j, v) :: ms, (k, w) :: ns =>
        simp only [Json.write, List.cons_append, List.append_assoc, List.cons.injEq, true_and] at same
        obtain ⟨rfl, value⟩ := quoted_split same
        obtain ⟨rfl, rest⟩ := write_split sep v w _ _ (writeMembers_ends sep ms s)
          (writeMembers_ends sep ns t) (List.append_cancel_left value)
        obtain ⟨rfl, tail⟩ := writeMembers_split sep ms ns s t rest
        exact ⟨rfl, tail⟩
    | bool b => cases b <;> simp [Json.lead] at leads
    | null | int | float | str | arr => simp [Json.lead] at leads

theorem writeItems_split (sep : Separators) : ∀ (vs ws : List Json) (s t : List Char),
    Json.writeItems sep vs ++ s = Json.writeItems sep ws ++ t → vs = ws ∧ s = t
  | [], [], s, t, same => by simpa [Json.writeItems] using same
  | [], w :: ws, s, t, same => by simp [Json.writeItems] at same
  | v :: vs, [], s, t, same => by simp [Json.writeItems] at same
  | v :: vs, w :: ws, s, t, same => by
    simp only [Json.writeItems, List.cons_append, List.append_assoc, List.cons.injEq, true_and,
      List.append_cancel_left_eq] at same
    obtain ⟨rfl, rest⟩ := write_split sep v w _ _ (writeItems_ends sep vs s)
      (writeItems_ends sep ws t) same
    obtain ⟨rfl, tail⟩ := writeItems_split sep vs ws s t rest
    exact ⟨rfl, tail⟩

theorem writeMembers_split (sep : Separators) : ∀ (ms ns : List (String × Json)) (s t : List Char),
    Json.writeMembers sep ms ++ s = Json.writeMembers sep ns ++ t → ms = ns ∧ s = t
  | [], [], s, t, same => by simpa [Json.writeMembers] using same
  | [], (k, w) :: ws, s, t, same => by simp [Json.writeMembers] at same
  | (k, v) :: vs, [], s, t, same => by simp [Json.writeMembers] at same
  | (j, v) :: vs, (k, w) :: ws, s, t, same => by
    simp only [Json.writeMembers, List.cons_append, List.append_assoc, List.cons.injEq, true_and,
      List.append_cancel_left_eq] at same
    obtain ⟨rfl, value⟩ := quoted_split same
    obtain ⟨rfl, rest⟩ := write_split sep v w _ _ (writeMembers_ends sep vs s)
      (writeMembers_ends sep ws t) (List.append_cancel_left value)
    obtain ⟨rfl, tail⟩ := writeMembers_split sep vs ws s t rest
    exact ⟨rfl, tail⟩
end

private theorem write_injective (sep : Separators) {v w : Json}
    (same : v.write sep = w.write sep) : v = w :=
  (write_split sep v w [] [] (ends_nil _) (ends_nil _) (by rw [same])).1

theorem canonical_injective : Function.Injective canonical :=
  fun _ _ same => write_injective _ (String.ofList_injective same)

theorem sortedDumps_injective : Function.Injective sortedDumps :=
  fun _ _ same => write_injective _ (String.ofList_injective same)

/-- The two forms never agree on an object with a member: after the first key
one goes on with a blank, which starts no value. -/
theorem canonical_ne_sortedDumps {v : Json} {m : String × Json} {ms : List (String × Json)} :
    canonical (.obj (m :: ms)) ≠ sortedDumps v := by
  obtain ⟨k, x⟩ := m
  intro same
  have text := String.ofList_injective same
  have leads : (Json.obj ((k, x) :: ms)).lead = v.lead := by
    have hv := write_lead ⟨[], [':']⟩ (.obj ((k, x) :: ms))
    rw [text, write_lead] at hv
    exact (Option.some.inj hv).symm
  cases v with
  | obj ns =>
    match ns with
    | [] => simp [Json.write] at text
    | (j, y) :: ns =>
      simp only [Json.write, List.cons_append, List.cons.injEq, true_and] at text
      obtain ⟨_, value⟩ := quoted_split text
      simp only [List.nil_append, List.cons.injEq, true_and] at value
      exact write_start (by decide) value
  | bool b => cases b <;> simp [Json.lead] at leads
  | null | int | float | str | arr => simp [Json.lead] at leads

end NodePlane
