import NodePlane.Agent.SelfUpdate

/-! The order of versions in the agent's self-update. -/
namespace NodePlane
namespace Update
open Std (OrientedCmp TransCmp)

/-- The order of two identifiers: numbers below texts. -/
def compareId (a b : List Char) : Ordering :=
  match parseNumber a, parseNumber b with
  | some m, some n => Ord.compare m n
  | some _, none => .lt
  | none, some _ => .gt
  | none, none => Ord.compare (a.map Char.toNat) (b.map Char.toNat)

/-- The order of two prereleases; none is above all. -/
def comparePre : Option (List (List Char)) → Option (List (List Char)) → Ordering
  | none, none => .eq
  | none, some _ => .gt
  | some _, none => .lt
  | some left, some right => compareIds left right

def Version.compare (v w : Version) : Ordering :=
  (Ord.compare v.core w.core).then (comparePre v.pre w.pre)

theorem compareVersions_eq (left right : String) : compareVersions left right =
    (parseVersion left).bind fun v => (parseVersion right).map fun w => v.compare w := by
  unfold compareVersions
  cases parseVersion left with
  | none => rfl
  | some v =>
    cases parseVersion right with
    | none => rfl
    | some w =>
      simp only [Option.bind_eq_bind, Option.bind_some, Option.map_some, Version.compare]
      cases Ord.compare v.core w.core with
      | lt => rfl
      | gt => rfl
      | eq => cases v.pre <;> cases w.pre <;> rfl

theorem compareIds_eq : compareIds = List.compareLex compareId := by
  funext left right
  induction left generalizing right with
  | nil => cases right <;> rfl
  | cons a left ih =>
    cases right with
    | nil => rfl
    | cons b right =>
      rw [List.compareLex_cons_cons, ← ih]
      show (if compareId a b = .eq then compareIds left right else compareId a b) = _
      cases compareId a b <;> rfl

/-! Numbers come first, then texts. -/

def kind (id : List Char) : ℕ := if (parseNumber id).isSome then 0 else 1

def number (id : List Char) : ℕ := (parseNumber id).getD 0

def letters (id : List Char) : List ℕ := if (parseNumber id).isSome then [] else id.map Char.toNat

theorem compareId_eq : compareId =
    compareLex (compareOn kind) (compareLex (compareOn number) (compareOn letters)) := by
  funext a b
  unfold compareId compareLex compareOn kind number letters
  cases parseNumber a with
  | none => cases parseNumber b <;> rfl
  | some m =>
    cases parseNumber b with
    | none => rfl
    | some n =>
      show Ord.compare m n = (Ord.compare m n).then .eq
      rw [Ordering.then_eq]

instance : TransCmp compareId := by
  rw [compareId_eq]
  infer_instance

instance : TransCmp compareIds := by
  rw [compareIds_eq]
  infer_instance

theorem comap {α β : Type} (cmp : β → β → Ordering) [TransCmp cmp] (f : α → β) :
    TransCmp fun a b => cmp (f a) (f b) where
  eq_swap := OrientedCmp.eq_swap
  isLE_trans := TransCmp.isLE_trans

/-- The identifiers of a prerelease. -/
def ids (pre : Option (List (List Char))) : List (List Char) := pre.getD []

theorem comparePre_eq : comparePre =
    compareLex (compareOn Option.isNone) fun p q => compareIds (ids p) (ids q) := by
  funext p q
  cases p <;> cases q <;> rfl

instance : TransCmp comparePre := by
  have each := comap compareIds ids
  rw [comparePre_eq]
  infer_instance

instance : TransCmp Version.compare := by
  have pre := comap comparePre Version.pre
  exact inferInstanceAs (TransCmp (compareLex (compareOn Version.core) _))

theorem Version.compare_swap (v w : Version) : v.compare w = (w.compare v).swap :=
  OrientedCmp.eq_swap

/-! The laws for accepted texts. -/

theorem compareVersions_self {a : String} (valid : validVersion a = true) :
    compareVersions a a = some .eq := by
  obtain ⟨v, read⟩ := Option.isSome_iff_exists.mp valid
  have same : v.compare v = .eq := Std.ReflCmp.compare_self
  rw [compareVersions_eq, read, Option.bind_some, Option.map_some, same]

theorem compareVersions_total {a b : String} (left : validVersion a = true)
    (right : validVersion b = true) : (compareVersions a b).isSome = true := by
  obtain ⟨v, read⟩ := Option.isSome_iff_exists.mp left
  obtain ⟨w, read'⟩ := Option.isSome_iff_exists.mp right
  rw [compareVersions_eq, read, read']
  rfl

theorem compareVersions_swap (a b : String) :
    compareVersions b a = (compareVersions a b).map Ordering.swap := by
  rw [compareVersions_eq, compareVersions_eq]
  cases parseVersion a with
  | none => cases parseVersion b <;> rfl
  | some v =>
    cases parseVersion b with
    | none => rfl
    | some w =>
      simp only [Option.bind_some, Option.map_some]
      rw [Version.compare_swap]

theorem compareVersions_some {a b : String} {order : Ordering}
    (known : compareVersions a b = some order) :
    ∃ v w, parseVersion a = some v ∧ parseVersion b = some w ∧ v.compare w = order := by
  rw [compareVersions_eq] at known
  obtain ⟨v, read, mapped⟩ := Option.bind_eq_some_iff.mp known
  obtain ⟨w, read', same⟩ := Option.map_eq_some_iff.mp mapped
  exact ⟨v, w, read, read', same⟩

theorem eq_of_isLE {order : Ordering} (up : order.isLE = true) (down : order.swap.isLE = true) :
    order = .eq := by
  cases order with
  | lt => cases down
  | eq => rfl
  | gt => cases up

theorem compareVersions_trans {a b c : String} {first second : Ordering}
    (left : compareVersions a b = some first) (right : compareVersions b c = some second)
    (up : first.isLE = true) (on : second.isLE = true) :
    ∃ order, compareVersions a c = some order ∧ order.isLE = true ∧
      (order = .eq ↔ first = .eq ∧ second = .eq) := by
  obtain ⟨u, v, read, read', rfl⟩ := compareVersions_some left
  obtain ⟨_, w, same, read'', rfl⟩ := compareVersions_some right
  cases read'.symm.trans same
  refine ⟨u.compare w, ?_, TransCmp.isLE_trans up on, ?_, ?_⟩
  · rw [compareVersions_eq, read, read'']
    rfl
  · intro equal
    -- whoever is between two equal versions is equal to both
    have back : (w.compare u).isLE = true := by
      rw [Version.compare_swap, equal]
      rfl
    have down : (v.compare u).isLE = true := TransCmp.isLE_trans on back
    have off : (w.compare v).isLE = true := TransCmp.isLE_trans back up
    rw [Version.compare_swap] at down off
    exact ⟨eq_of_isLE up down, eq_of_isLE on off⟩
  · rintro ⟨first, second⟩
    exact TransCmp.eq_trans first second

/-! What a version is read from. -/

theorem drop_takeWhile {p : Char → Bool} {text rest : List Char} {c : Char}
    (after : text.dropWhile p = c :: rest) :
    text.drop ((text.takeWhile p).length + 1) = rest := by
  have whole : text.takeWhile p ++ c :: rest = text := by
    rw [← after, List.takeWhile_append_dropWhile]
  calc text.drop ((text.takeWhile p).length + 1)
      = (text.takeWhile p ++ c :: rest).drop ((text.takeWhile p).length + 1) := by rw [whole]
    _ = rest := by rw [List.drop_length_add_append, List.drop_succ_cons, List.drop_zero]

theorem parseVersion_some {text : String} {v : Version} (read : parseVersion text = some v) :
    ((text.toList.takeWhile (· ≠ '-')).splitOn '.').mapM parseNumber = some v.core ∧
      v.core.length = 3 ∧
      (v.pre = none ∧ text.toList.takeWhile (· ≠ '-') = text.toList ∨
        ∃ rest, text.toList = text.toList.takeWhile (· ≠ '-') ++ '-' :: rest ∧
          v.pre = some (rest.splitOn '.') ∧
          ∀ id ∈ rest.splitOn '.', id ≠ [] ∧ ∀ c ∈ id, c.isAlphanum = true) := by
  unfold parseVersion at read
  obtain ⟨numbers, core, read⟩ := Option.bind_eq_some_iff.mp read
  dsimp only at read core
  split at read
  · cases read
  next three =>
    have rest := List.takeWhile_append_dropWhile (p := (· ≠ '-')) (l := text.toList)
    split at read
    next whole =>
      cases read
      refine ⟨core, not_not.mp three, .inl ⟨rfl, ?_⟩⟩
      exact (List.takeWhile_prefix _).eq_of_length whole
    next more =>
      split at read
      · cases read
      next plain =>
        cases read
        refine ⟨core, not_not.mp three, .inr ⟨_, ?_, rfl, ?_⟩⟩
        · have head := List.head?_dropWhile_not (· ≠ '-') text.toList
          cases after : text.toList.dropWhile (· ≠ '-') with
          | nil =>
            rw [after, List.append_nil] at rest
            exact absurd (congrArg List.length rest) more
          | cons c tail =>
            rw [after] at head rest
            have dash : c = '-' := by simpa using head
            subst dash
            rw [drop_takeWhile after]
            exact rest.symm
        · intro id listed
          rw [Bool.not_eq_true, List.any_eq_false] at plain
          simpa using plain id listed

/-- A prerelease is before its release. -/
theorem prerelease_before {core pre : String} (plain : '-' ∉ core.toList)
    (release : validVersion core = true) (valid : validVersion (core ++ "-" ++ pre) = true) :
    compareVersions (core ++ "-" ++ pre) core = some .lt := by
  obtain ⟨v, read⟩ := Option.isSome_iff_exists.mp valid
  obtain ⟨w, read'⟩ := Option.isSome_iff_exists.mp release
  have each : ∀ c ∈ core.toList, decide (c ≠ '-') = true := by
    intro c member
    rw [decide_eq_true_eq]
    rintro rfl
    exact plain member
  have text : (core ++ "-" ++ pre).toList = core.toList ++ '-' :: pre.toList := by simp
  have first : (core ++ "-" ++ pre).toList.takeWhile (· ≠ '-') = core.toList := by
    rw [text, List.takeWhile_append_of_pos each, List.takeWhile_cons_of_neg (by simp),
      List.append_nil]
  have last : core.toList.takeWhile (· ≠ '-') = core.toList := by
    have whole : (core.toList ++ []).takeWhile (· ≠ '-') = core.toList ++ [].takeWhile (· ≠ '-') :=
      List.takeWhile_append_of_pos each
    rwa [List.append_nil, List.takeWhile_nil, List.append_nil] at whole
  obtain ⟨numbers, -, kind⟩ := parseVersion_some read
  obtain ⟨numbers', -, kind'⟩ := parseVersion_some read'
  rw [first] at numbers kind
  rw [last, numbers, Option.some_inj] at numbers'
  have before : ∃ ids, v.pre = some ids := by
    rcases kind with ⟨-, whole⟩ | ⟨rest, -, ids, -⟩
    · rw [text] at whole
      have size := congrArg List.length whole
      simp at size
    · exact ⟨_, ids⟩
  have after : w.pre = none := by
    rcases kind' with ⟨none, -⟩ | ⟨rest, whole, -⟩
    · exact none
    · rw [last] at whole
      have size := congrArg List.length whole
      simp at size
  obtain ⟨ids, before⟩ := before
  have same : Ord.compare w.core w.core = .eq := Std.ReflOrd.compare_self
  rw [compareVersions_eq, read, read', Option.bind_some, Option.map_some, Version.compare, numbers',
    before, after, same]
  rfl

end Update
end NodePlane
