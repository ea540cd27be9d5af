import NodePlane.Library.BTreeMap
import NodePlane.Library.Lines
import NodePlane.Library.PrefixCode
import NodePlane.Library.UsedOnce
import Mathlib.Algebra.Group.Int.Defs
import Mathlib.Data.List.Induction

/-! Telegram in the web cabinet: what Telegram signed with the bot's token is checked and used
once. -/
namespace NodePlane
namespace TelegramSignIn
open Library

/-- Times are in microseconds. -/
def second : ℤ := 1000000

def minute : ℤ := 60 * second

inductive Kind
  | login
  | webapp
  deriving DecidableEq, Repr

/-- How old the data may be. -/
def Kind.maxAge : Kind → ℤ
  | .login => 10 * minute
  | .webapp => 60 * minute

/-- A value of the login fields: a text, null, or another value by the text `str` gives it. -/
inductive Value
  | text (s : String)
  | null
  | other (s : String)
  deriving DecidableEq, Repr

/-- What an attempt hands in: the Login Widget's fields, the Mini App's `initData`, or neither. -/
inductive Data
  | login (fields : List (String × Value))
  | webapp (text : String)
  | other
  deriving DecidableEq, Repr

/-- Python's readings: `int` of a text, the id and username of a `user` field (`json.loads`, then
`int` of its id) and `parse_qsl`. An integer has no equals sign, and a JSON text is not empty and
does not go on with one. -/
structure Python where
  int : String → Option ℤ
  user : String → Option (ℤ × Option String)
  parseQsl : String → List (String × String)
  int_text : ∀ {s : String} {n : ℤ}, int s = some n → '=' ∉ s.toList
  user_some : user "" = none
  user_whole : ∀ {s more : String} {found : ℤ × Option String}, user s = some found →
    '=' ∈ more.toList → user (s ++ "\n" ++ more) = none

abbrev Fields := BTreeMap String String

/-- `dict(pairs)`. -/
def dict (pairs : List (String × String)) : Fields := pairs.foldl (fun m e => m.insert e.1 e.2) ∅

/-- The text of a field that is not null. -/
def Value.read : Value → Option String
  | .text s => some s
  | .null => none
  | .other s => some s

/-- The fields that are signed, and the hash that is given. -/
def Data.read (python : Python) : Data → Option (Kind × Fields × Option String)
  | .login fields =>
    let given := match fields.lookup "hash" with
      | some (.text s) => some s
      | _ => none
    let signed := fields.filterMap fun e =>
      if e.1 = "hash" then none else e.2.read.map fun s => (e.1, s)
    some (.login, dict signed, given)
  | .webapp text =>
    if 4096 < text.length then none
    else
      let fields := dict (python.parseQsl text)
      some (.webapp, fields.erase "hash", fields["hash"]?)
  | .other => none

def line (entry : String × String) : List Char := entry.1.toList ++ '=' :: entry.2.toList

/-- The text whose HMAC is the hash: the fields in order, each on a line. -/
def check (fields : Fields) : String := String.ofList (['\n'].intercalate (fields.toList.map line))

/-- The moment of a field in whole seconds, when it is one. -/
def moment (python : Python) (authDate : Option String) : Option ℤ :=
  match authDate.bind python.int with
  | none => none
  | some n => if -62135596800 ≤ n ∧ n ≤ 253402300799 then some (n * second) else none

def dateOf (python : Python) (fields : Fields) : Option ℤ := moment python fields["auth_date"]?

def fresh (python : Python) (fields : Fields) (now maxAge : ℤ) : Bool :=
  match dateOf python fields with
  | none => false
  | some signed => now - maxAge ≤ signed && signed ≤ now + minute

/-- The user the fields are about. -/
def subject (python : Python) : Kind → Fields → Option (ℤ × Option String)
  | .login, fields => (fields["id"]?.bind python.int).map fun id => (id, fields["username"]?)
  | .webapp, fields => python.user (fields["user"]?.getD "")

section
variable (python : Python) (mac : Kind → String → String → String)

/-- The Telegram user the data is signed for, and its hash; none if it is not. `mac` is the HMAC
under the kind's secret for a token. -/
def verified (data : Data) (token : String) (now : ℤ) : Option ((ℤ × Option String) × String) :=
  match data.read python with
  | none => none
  | some (_, _, none) => none
  | some (kind, fields, some given) =>
    if mac kind token (check fields) ≠ given then none
    else if fresh python fields now kind.maxAge = false then none
    else match subject python kind fields with
      | none => none
      | some user => if 0 < user.1 ∧ user.1 < 2 ^ 63 then some (user, given) else none

/-- A row of the used hashes is dropped at `expires_at`. -/
def expiry : UsedOnce.Retention ℤ where
  gone deadline now := deadline ≤ now
  lasting past passed := by
    rw [decide_eq_true_eq] at past ⊢
    exact Int.le_trans past passed

/-- Refuses signed data already accepted. -/
def use (rows : List (String × ℤ)) (signature : String) (now : ℤ) : Bool × List (String × ℤ) :=
  let rows := expiry.purge rows now
  if signature ∈ rows.map Prod.fst then (false, rows)
  else (true, (signature, now + Kind.webapp.maxAge + minute) :: rows)

/-- An attempt at `now`: whether its source is limited, and the bot's token when Telegram is on. -/
structure Attempt where
  data : Data
  limited : Bool
  token : Option String
  now : ℤ
  deriving DecidableEq, Repr

/-- An attempt that was accepted, for the user with the id. -/
structure Accepted where
  attempt : Attempt
  token : String
  user : ℤ
  signature : String
  deriving DecidableEq, Repr

/-- The rows of the table, and what was accepted, newest first. -/
structure State where
  used : List (String × ℤ)
  accepted : List Accepted
  deriving DecidableEq, Repr

/-- The Telegram user the data proves. -/
def proven (s : State) (attempt : Attempt) : Option (ℤ × Option String) × State :=
  if attempt.limited then (none, s)
  else match attempt.token with
    | none => (none, s)
    | some token =>
      match verified python mac attempt.data token attempt.now with
      | none => (none, s)
      | some (user, signature) =>
        let (first, rows) := use s.used signature attempt.now
        if first then (some user, ⟨rows, ⟨attempt, token, user.1, signature⟩ :: s.accepted⟩)
        else (none, ⟨rows, s.accepted⟩)

def run (attempts : List Attempt) : State :=
  attempts.foldl (fun s attempt => (proven python mac s attempt).2) ⟨[], []⟩

end

/-! What the text of signed fields says. -/

/-- Fields as Telegram signs them for a user: no line breaks, and no equals sign in a name. -/
structure Plain (python : Python) (kind : Kind) (fields : Fields) : Prop where
  names : ∀ entry ∈ fields.toList, '\n' ∉ entry.1.toList ∧ '=' ∉ entry.1.toList
  values : ∀ entry ∈ fields.toList, '\n' ∉ entry.2.toList
  user : (subject python kind fields).isSome = true

variable {python : Python} {mac : Kind → String → String → String} {kind : Kind}
  {fields signed : Fields}

theorem check_lines (fields : Fields) (some : fields.toList ≠ []) :
    (check fields).toList.splitOn '\n' =
      (fields.toList.map line).flatMap (List.splitOn '\n') := by
  rw [check, String.toList_ofList, Lines.splitOn_join]
  simpa using some

/-- The lines of plain fields are their entries. -/
theorem Plain.lines (plain : Plain python kind signed) (some : signed.toList ≠ []) :
    (check signed).toList.splitOn '\n' = signed.toList.map line := by
  rw [check, String.toList_ofList, List.splitOn_intercalate]
  · intro text member
    obtain ⟨entry, held, rfl⟩ := List.mem_map.mp member
    have name := (plain.names entry held).1
    have value := plain.values entry held
    simp [line, name, value]
  · simpa using some

/-- A line tells its entry when the names have no equals sign. -/
theorem line_split {name value : List Char} {entry : String × String} (apart : '=' ∉ name)
    (also : '=' ∉ entry.1.toList) (same : name ++ '=' :: value = line entry) :
    name = entry.1.toList ∧ value = entry.2.toList := by
  have each {text : List Char} (free : '=' ∉ text) : ∀ c ∈ text, (c != '=') = true := by
    intro c member
    rw [bne_iff_ne]
    rintro rfl
    exact free member
  obtain ⟨names, rest⟩ := token_split (each apart) (each also) (by simp) (by simp) same
  exact ⟨names, (List.cons.inj rest).2⟩

/-- A field of any fields with the text of plain ones is theirs, or its value goes on with further
lines of the text. -/
theorem Plain.field (plain : Plain python kind signed) (same : check fields = check signed)
    {name value : String} (held : fields[name]? = some value)
    (simple : '\n' ∉ name.toList ∧ '=' ∉ name.toList) :
    ∃ own, signed[name]? = some own ∧
      (value = own ∨ ∃ more : String, value = own ++ "\n" ++ more ∧ '=' ∈ more.toList) := by
  have listed : (name, value) ∈ fields.toList := BTreeMap.mem_toList.mpr held
  obtain ⟨first, rest, split⟩ :=
    List.exists_cons_of_ne_nil (List.splitOn_ne_nil '\n' value.toList)
  have start : '\n' ∉ name.toList ++ ['='] := by simp [simple.1]
  have own : (line (name, value)).splitOn '\n' = (name.toList ++ ['='] ++ first) :: rest := by
    rw [line, ← Lines.splitOn_prefix start split]
    simp
  have found {text : List Char} (member : text ∈ (line (name, value)).splitOn '\n') :
      text ∈ (check signed).toList.splitOn '\n' := by
    rw [← same, check_lines fields (List.ne_nil_of_mem listed)]
    exact List.mem_flatMap.mpr ⟨_, List.mem_map_of_mem listed, member⟩
  have here := found (own ▸ List.mem_cons_self)
  have some' : signed.toList ≠ [] := by
    intro none
    rw [check, none] at here
    simp at here
  have entry_of {text : List Char} (member : text ∈ (line (name, value)).splitOn '\n') :
      ∃ entry ∈ signed.toList, line entry = text := by
    have inside := found member
    rw [plain.lines some'] at inside
    exact List.mem_map.mp inside
  obtain ⟨⟨known, text⟩, entry, lines⟩ := entry_of (own ▸ List.mem_cons_self)
  obtain ⟨names, values⟩ := line_split simple.2 (plain.names _ entry).2
    (show name.toList ++ '=' :: first = line (known, text) by rw [lines]; simp)
  cases String.toList_inj.mp names
  refine ⟨text, BTreeMap.mem_toList.mp entry, ?_⟩
  rcases Lines.splitOn_cases split with ⟨-, whole⟩ | ⟨more, whole⟩
  · left
    apply String.toList_inj.mp
    rw [whole, values]
  · right
    refine ⟨String.ofList (['\n'].intercalate rest), ?_, ?_⟩
    · apply String.toList_inj.mp
      rw [whole, values]
      simp
    · obtain ⟨next, rest', rfl⟩ := List.exists_cons_of_ne_nil more
      obtain ⟨later, -, here⟩ := entry_of (own ▸ List.mem_cons_of_mem _ List.mem_cons_self)
      rw [String.toList_ofList]
      apply Lines.mem_join List.mem_cons_self
      rw [← here]
      simp [line]

theorem Plain.int (plain : Plain python kind signed) (same : check fields = check signed)
    {name value : String} {n : ℤ} (held : fields[name]? = some value)
    (read : python.int value = some n) (simple : '\n' ∉ name.toList ∧ '=' ∉ name.toList) :
    signed[name]? = some value := by
  obtain ⟨own, found, rfl | ⟨more, rfl, equals⟩⟩ := plain.field same held simple
  · exact found
  · refine absurd ?_ (python.int_text read)
    simp [equals]

/-- The date is the signed one. -/
theorem Plain.date (plain : Plain python kind signed) (same : check fields = check signed)
    {date : ℤ} (read : dateOf python fields = some date) : dateOf python signed = some date := by
  unfold dateOf at read ⊢
  cases held : fields["auth_date"]? with
  | none =>
    rw [held] at read
    cases read
  | some value =>
    cases number : python.int value with
    | none =>
      rw [held, moment, Option.bind_some, number] at read
      cases read
    | some n => rwa [plain.int same held number (by decide), ← held]

/-- The user is the one the fields were signed for. -/
theorem Plain.subject (plain : Plain python kind signed) (same : check fields = check signed)
    {user : ℤ × Option String} (read : subject python kind fields = some user) :
    (subject python kind signed).map Prod.fst = some user.1 := by
  have known := plain.user
  cases kind with
  | login =>
    rw [TelegramSignIn.subject] at read ⊢
    obtain ⟨id, number, rfl⟩ := Option.map_eq_some_iff.mp read
    obtain ⟨value, held, number⟩ := Option.bind_eq_some_iff.mp number
    rw [plain.int same held number (by decide), Option.bind_some, number]
    rfl
  | webapp =>
    rw [TelegramSignIn.subject] at read known ⊢
    cases held : fields["user"]? with
    | none =>
      rw [held, Option.getD_none, python.user_some] at read
      cases read
    | some value =>
      rw [held, Option.getD_some] at read
      obtain ⟨own, found, rfl | ⟨more, rfl, equals⟩⟩ := plain.field same held (by decide)
      · rw [found, Option.getD_some, read]
        rfl
      · rw [found, Option.getD_some] at known
        obtain ⟨other, whole⟩ := Option.isSome_iff_exists.mp known
        rw [python.user_whole whole equals] at read
        cases read

/-! Runs. -/

/-- What an accepted attempt proves. -/
structure Proven (python : Python) (mac : Kind → String → String → String) (kind : Kind)
    (own : Fields) (token : String) (now : ℤ) (user : ℤ × Option String) (signature : String) :
    Prop where
  hash : mac kind token (check own) = signature
  date : ∃ date, dateOf python own = some date ∧ now - kind.maxAge ≤ date ∧ date ≤ now + minute
  user : subject python kind own = some user

theorem verified_ok {data : Data} {token : String} {now : ℤ} {user : ℤ × Option String}
    {signature : String} (ok : verified python mac data token now = some (user, signature)) :
    ∃ kind own, data.read python = some (kind, own, some signature) ∧
      Proven python mac kind own token now user signature := by
  unfold verified at ok
  split at ok
  · cases ok
  · cases ok
  next kind own given read =>
    split at ok
    · cases ok
    next hash =>
      split at ok
      · cases ok
      next fresh' =>
        split at ok
        · cases ok
        next found subject' =>
          split at ok
          · cases ok
            refine ⟨kind, own, read, not_not.mp hash, ?_, subject'⟩
            rw [Bool.not_eq_false, fresh] at fresh'
            split at fresh'
            · cases fresh'
            next date dated =>
              rw [Bool.and_eq_true, decide_eq_true_eq, decide_eq_true_eq] at fresh'
              exact ⟨date, dated, fresh'⟩
          · cases ok

/-- How an acceptance is remembered. -/
def Accepted.use (x : Accepted) : UsedOnce.Use String ℤ :=
  ⟨x.signature, x.attempt.now + Kind.webapp.maxAge + minute, x.attempt.now⟩

/-- What holds after the attempts. -/
structure Sound (python : Python) (mac : Kind → String → String → String)
    (attempts : List Attempt) (s : State) : Prop where
  order : (s.accepted.map Accepted.attempt).reverse.Sublist attempts
  apart : expiry.Apart (s.accepted.map Accepted.use)
  remembers : ∀ now, (∀ attempt ∈ attempts, attempt.now ≤ now) →
    expiry.Remembers (s.accepted.map Accepted.use) s.used now
  proven : ∀ x ∈ s.accepted, x.attempt.token = some x.token ∧
    ∃ kind own user, x.attempt.data.read python = some (kind, own, some x.signature) ∧
      Proven python mac kind own x.token x.attempt.now user x.signature ∧ user.1 = x.user

theorem Sound.proven_step {attempts : List Attempt} {s : State} {attempt : Attempt}
    (sound : Sound python mac attempts s)
    (ordered : ∀ earlier ∈ attempts, earlier.now ≤ attempt.now) :
    Sound python mac (attempts ++ [attempt]) (TelegramSignIn.proven python mac s attempt).2 := by
  have idle : Sound python mac (attempts ++ [attempt]) s :=
    ⟨sound.order.trans (List.sublist_append_left _ _), sound.apart,
      fun now passed => sound.remembers now fun earlier member =>
        passed earlier (List.mem_append_left _ member), sound.proven⟩
  have present := (sound.remembers attempt.now ordered).purge
  unfold TelegramSignIn.proven
  split
  · exact idle
  split
  · exact idle
  next token given =>
    split
    · exact idle
    next user signature ok =>
      dsimp only [use]
      split
      next used =>
        rw [if_neg (by simp)]
        refine ⟨idle.order, idle.apart, ?_, idle.proven⟩
        intro now passed
        exact present.mono (passed attempt (by simp))
      next missing =>
        rw [if_pos rfl]
        refine ⟨?_, ?_, ?_, ?_⟩
        · rw [List.map_cons, List.reverse_cons]
          exact sound.order.append (List.Sublist.refl _)
        · exact sound.apart.enter present missing rfl
        · intro now passed
          exact (present.enter (Accepted.use ⟨attempt, token, user.1, signature⟩)).mono
            (passed attempt (by simp))
        · intro x member
          rcases List.mem_cons.mp member with rfl | member
          · obtain ⟨kind, own, read, proof⟩ := verified_ok ok
            exact ⟨given, kind, own, user, read, proof, rfl⟩
          · exact sound.proven x member

theorem run_sound (attempts : List Attempt)
    (ordered : attempts.Pairwise fun a b => a.now ≤ b.now) :
    Sound python mac attempts (run python mac attempts) := by
  induction attempts using List.reverseRecOn with
  | nil =>
    refine ⟨List.Sublist.slnil, List.Pairwise.nil, ?_, ?_⟩
    · intro now _ use member
      cases member
    · intro x member
      cases member
  | append_singleton attempts attempt ih =>
    obtain ⟨before, -, last⟩ := List.pairwise_append.mp ordered
    rw [run, List.foldl_append]
    exact (ih before).proven_step fun earlier member => last earlier member attempt (by simp)

/-- The accepted data are those signed for `kind` and `token`. -/
def Accepted.Of (python : Python) (kind : Kind) (token : String) (signed : Fields)
    (x : Accepted) : Prop :=
  x.token = token ∧ ∃ own given, x.attempt.data.read python = some (kind, own, given) ∧
    check own = check signed

/-- A Mini App's data handed in a minute before its date and again an hour after the date. -/
def Boundary (python : Python) (a b : Attempt) : Prop :=
  a.token = b.token ∧ ∃ own other given also,
    a.data.read python = some (.webapp, own, given) ∧
    b.data.read python = some (.webapp, other, also) ∧ check own = check other ∧
    dateOf python own = some (a.now + minute) ∧ b.now = a.now + minute + Kind.webapp.maxAge

/-- A hash that is right was made by Telegram for the text: HMAC is not forged. -/
def Unforged (python : Python) (mac : Kind → String → String → String)
    (signed : Kind → String → Fields → Prop) (attempt : Attempt) : Prop :=
  ∀ kind token own given, attempt.token = some token →
    attempt.data.read python = some (kind, own, some given) → given = mac kind token (check own) →
    ∃ fields, signed kind token fields ∧ check own = check fields

def digits (s : String) : Option ℤ :=
  if s ≠ "" ∧ s.toList.all Char.isDigit = true then some (Nat.ofDigitChars 10 s.toList 0) else none

def initData : String := "auth_date=1060&user=\x7b\"id\":7\x7d&hash=5f"

/-- Python as far as the samples use it. -/
def samplePython : Python where
  int := digits
  user s := if s = "\x7b\"id\":7\x7d" then some (7, none) else none
  parseQsl s :=
    if s = initData then [("auth_date", "1060"), ("user", "\x7b\"id\":7\x7d"), ("hash", "5f")] else []
  int_text {s n} read equals := by
    rw [digits, Option.ite_none_right_eq_some] at read
    exact absurd (List.all_eq_true.mp read.1.2 '=' equals) (by decide)
  user_some := by decide
  user_whole {s more found} _ _ := by
    rw [if_neg]
    intro same
    have inside : '\n' ∈ (s ++ "\n" ++ more).toList := by simp
    rw [same] at inside
    exact absurd inside (by decide)

/-- The fields Telegram signed. -/
def sampleFields : Fields := (dict (samplePython.parseQsl initData)).erase "hash"

def sampleMac (_ : Kind) (_ _ : String) : String := "5f"

/-- The data handed in a minute before its date. -/
def early : Attempt := ⟨.webapp initData, false, some "t", 1000 * second⟩

/-- The same data, handed in an hour after its date. -/
def late : Attempt := ⟨.webapp initData, false, some "t", 4660 * second⟩

def sampleSigned (kind : Kind) (token : String) (fields : Fields) : Prop :=
  kind = .webapp ∧ token = "t" ∧ fields = sampleFields

theorem sample_read :
    (Data.webapp initData).read samplePython = some (.webapp, sampleFields, some "5f") := by
  have hash : (dict (samplePython.parseQsl initData))["hash"]? = some "5f" := by decide
  rw [Data.read, if_neg (by decide)]
  dsimp only
  rw [hash]
  rfl

theorem sample_plain (kind : Kind) (token : String) (fields : Fields)
    (signed : sampleSigned kind token fields) : Plain samplePython kind fields := by
  obtain ⟨rfl, -, rfl⟩ := signed
  exact ⟨by decide, by decide, by decide⟩

theorem sample_unforged {attempt : Attempt} (webapp : attempt.data = .webapp initData)
    (given : attempt.token = some "t") : Unforged samplePython sampleMac sampleSigned attempt := by
  intro kind token own signature known read _
  rw [webapp, sample_read] at read
  rw [given] at known
  cases read
  cases known
  exact ⟨sampleFields, ⟨rfl, rfl, rfl⟩, rfl⟩

/-- A line break in a signed name lets the fields be read for another user. -/
theorem line_break_misread :
    let signed := dict [("auth_date", "1000"), ("first_name", "x"), ("id", "7"),
      ("last_name", "z\nid=9")]
    let given := Data.login [("auth_date", .text "1000"), ("first_name", .text "x\nid=7\nlast_name=z"),
      ("id", .text "9"), ("hash", .text "5f")]
    (given.read samplePython).map (fun read => check read.2.1) = some (check signed) ∧
      (subject samplePython .login signed).map Prod.fst = some 7 ∧
      (run samplePython sampleMac [⟨given, false, some "t", 1000 * second⟩]).accepted.map
        Accepted.user = [9] := by
  refine ⟨?_, ?_, ?_⟩ <;> decide

end TelegramSignIn
end NodePlane
