import NodePlane.Agent.Json

/-! Editing JSON objects member by member, and what is read back. -/
namespace NodePlane
namespace Json

/-- `Value::is_object`. -/
def isObject : Json → Bool
  | .obj _ => true
  | _ => false

/-- `Value::get`. -/
def member (v : Json) (key : String) : Option Json :=
  match v with
  | .obj members => members.lookup key
  | _ => none

def replaceMember (key : String) (v : Json) : List (String × Json) → List (String × Json)
  | [] => []
  | (k, w) :: rest => if k = key then (k, v) :: rest else (k, w) :: replaceMember key v rest

/-- `value["key"] = item` on an object: a member that is there keeps its place. -/
def put (v : Json) (key : String) (item : Json) : Json :=
  match v with
  | .obj members =>
    .obj (if containsKey members key then replaceMember key item members
      else insertMember key item members)
  | other => other

/-- `Map::remove`. -/
def remove (v : Json) (key : String) : Json :=
  match v with
  | .obj members => .obj (members.filter fun m => m.1 ≠ key)
  | other => other

/-- The value if it is an object, else `other`. -/
def objectOr (v other : Json) : Json := if v.isObject then v else other

variable {key other : String} {item v : Json} {members : List (String × Json)}

theorem lookup_cons (j k : String) (w : Json) (rest : List (String × Json)) :
    ((k, w) :: rest).lookup j = if j = k then some w else rest.lookup j := by
  rw [List.lookup_cons]
  by_cases h : j = k
  · subst h
    simp
  · rw [beq_eq_false_iff_ne.mpr h, if_neg h]

theorem lookup_insertMember (j : String) :
    (insertMember key item members).lookup j = if j = key then some item else members.lookup j := by
  induction members with
  | nil => exact lookup_cons j key item []
  | cons m rest ih =>
    obtain ⟨k, w⟩ := m
    rw [insertMember]
    by_cases same : key = k
    · rw [if_pos same, lookup_cons, lookup_cons, same]
      by_cases h : j = k <;> simp [h]
    · rw [if_neg same]
      split
      · rw [lookup_cons]
      · rw [lookup_cons, lookup_cons, ih]
        by_cases h : j = k
        · simp [h, Ne.symm same]
        · simp [h]

theorem lookup_replaceMember (known : containsKey members key = true) (j : String) :
    (replaceMember key item members).lookup j = if j = key then some item else members.lookup j := by
  induction members with
  | nil => cases known
  | cons m rest ih =>
    obtain ⟨k, w⟩ := m
    rw [replaceMember]
    by_cases same : k = key
    · rw [if_pos same, lookup_cons, lookup_cons, same]
      by_cases h : j = key <;> simp [h]
    · have later : containsKey rest key = true := by
        rwa [containsKey, lookup_cons, if_neg (Ne.symm same)] at known
      rw [if_neg same, lookup_cons, lookup_cons, ih later]
      by_cases h : j = k
      · simp [h, same]
      · simp [h]

theorem replaceMember_same (found : members.lookup key = some item) :
    replaceMember key item members = members := by
  induction members with
  | nil => rfl
  | cons m rest ih =>
    obtain ⟨k, w⟩ := m
    rw [lookup_cons] at found
    rw [replaceMember]
    by_cases same : k = key
    · rw [if_pos same.symm] at found
      rw [if_pos same, Option.some.inj found]
    · rw [if_neg (Ne.symm same)] at found
      rw [if_neg same, ih found]

theorem lookup_filter_ne (j : String) :
    (members.filter fun m => m.1 ≠ key).lookup j = if j = key then none else members.lookup j := by
  induction members with
  | nil => simp
  | cons m rest ih =>
    obtain ⟨k, w⟩ := m
    rw [List.filter_cons]
    by_cases same : k = key
    · rw [if_neg (by simpa using same), ih, lookup_cons, same]
      by_cases h : j = key <;> simp [h]
    · rw [if_pos (by simpa using same), lookup_cons, lookup_cons, ih]
      by_cases h : j = k
      · simp [h, same]
      · simp [h]

theorem filter_ne_missing (missing : members.lookup key = none) :
    (members.filter fun m => m.1 ≠ key) = members := by
  induction members with
  | nil => rfl
  | cons m rest ih =>
    obtain ⟨k, w⟩ := m
    rw [lookup_cons] at missing
    by_cases same : key = k
    · rw [if_pos same] at missing
      cases missing
    · rw [if_neg same] at missing
      rw [List.filter_cons_of_pos (by simpa using Ne.symm same), ih missing]

@[simp] theorem isObject_put : (v.put key item).isObject = v.isObject := by
  cases v <;> rfl

@[simp] theorem isObject_remove : (v.remove key).isObject = v.isObject := by
  cases v <;> rfl

theorem isObject_objectOr {d : Json} (object : d.isObject = true) :
    (v.objectOr d).isObject = true := by
  rw [objectOr]
  split
  · assumption
  · exact object

theorem objectOr_same (object : v.isObject = true) (d : Json) : v.objectOr d = v := by
  rw [objectOr, if_pos object]

theorem member_put (object : v.isObject = true) (j : String) :
    (v.put key item).member j = if j = key then some item else v.member j := by
  cases v with
  | obj members =>
    rw [put, member]
    split
    next known => exact lookup_replaceMember known j
    next => exact lookup_insertMember j
  | _ => cases object

theorem field_eq_member : v.field key = (v.member key).getD .null := by
  cases v <;> rfl

theorem field_put (object : v.isObject = true) (j : String) :
    (v.put key item).field j = if j = key then item else v.field j := by
  rw [field_eq_member, member_put object, field_eq_member]
  split <;> rfl

/-- Writing what is there changes nothing. -/
theorem put_member (found : v.member key = some item) : v.put key item = v := by
  cases v with
  | obj members =>
    have known : containsKey members key = true := by
      rw [containsKey, show members.lookup key = some item from found]
      rfl
    rw [put, if_pos known, replaceMember_same found]
  | _ => cases found

theorem member_remove (j : String) :
    (v.remove key).member j = if j = key then none else v.member j := by
  cases v with
  | obj members => exact lookup_filter_ne j
  | _ => by_cases h : j = key <;> simp [remove, member, h]

theorem remove_missing (missing : v.member key = none) : v.remove key = v := by
  cases v with
  | obj members => rw [remove, filter_ne_missing missing]
  | _ => rfl

theorem put_field (found : v.field key = item) (present : item ≠ .null) : v.put key item = v := by
  apply put_member
  rw [field_eq_member] at found
  cases known : v.member key with
  | none =>
    rw [known] at found
    exact absurd found.symm present
  | some w =>
    rw [known] at found
    exact congrArg some found

theorem isObject_of_field {j : String} (present : v.field j ≠ .null) : v.isObject = true := by
  cases v with
  | obj members => rfl
  | _ => exact absurd rfl present

end Json
end NodePlane
