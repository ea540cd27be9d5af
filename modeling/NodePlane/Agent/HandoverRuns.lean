import NodePlane.Agent.Handover

/-! What an enrollment keeps of the journal it finds, over completions, failed operations,
crashes and restarts. -/
namespace NodePlane
namespace Handover
open Library Readings

variable {nodeKey : String} {a : Agent} {d e disk : Disk} {p : Previous} {t : Task}
  {x y : Suffix} {name : String}

/-! The owner as files tell it. -/

/-- What a service that reads every file knows. -/
def Disk.owner (disk : Disk) : Previous := previous disk ⟨true, true, true⟩

theorem whitespace_hexDigit {c : Char} (digit : c = '-' ∨ hexDigitLower c = true) :
    whitespace c = false := by
  rcases digit with rfl | digit
  · decide
  · have range : (48 ≤ c.toNat ∧ c.toNat ≤ 57) ∨ (97 ≤ c.toNat ∧ c.toNat ≤ 102) := by
      simp only [hexDigitLower, Char.isDigit, Bool.or_eq_true, Bool.and_eq_true,
        decide_eq_true_eq, ge_iff_le, UInt32.le_iff_toNat_le] at digit
      exact digit
    simp only [whitespace, Bool.or_eq_false_iff, Bool.and_eq_false_iff, decide_eq_false_iff_not,
      List.mem_cons, List.not_mem_nil, or_false]
    omega

theorem uuid_chars {value : String} (valid : uuid value = true) :
    value.toList ≠ [] ∧ ∀ c ∈ value.toList, whitespace c = false := by
  simp only [uuid, validUuid, Bool.and_eq_true, beq_iff_eq, List.all_eq_true] at valid
  constructor
  · intro empty
    have none : value = "" := String.toList_inj.mp empty
    rw [none] at valid
    exact absurd valid.1 (by decide)
  · intro c held
    obtain ⟨i, bound, rfl⟩ := List.mem_iff_getElem.mp held
    have digit := valid.2 (value.toList[i], i) (by
      rw [List.mem_zipIdx_iff_getElem?]
      exact List.getElem?_eq_getElem bound)
    apply whitespace_hexDigit
    dsimp only at digit
    split at digit
    · exact .inl (beq_iff_eq.mp digit)
    · exact .inr digit

/-- The marker's text gives its controller back. -/
theorem readText_marker {controller : String} (valid : uuid controller = true) :
    readText (some (controller ++ "\n")) = controller := by
  obtain ⟨nonempty, plain⟩ := uuid_chars valid
  have drop : ∀ text : List Char, text ≠ [] → (∀ c ∈ text, whitespace c = false) →
      ∀ rest, (text ++ rest).dropWhile whitespace = text ++ rest := by
    intro text full clean rest
    obtain ⟨c, more, rfl⟩ := List.exists_cons_of_ne_nil full
    rw [List.cons_append, List.dropWhile_cons_of_neg]
    rw [clean c List.mem_cons_self]
    decide
  have line : trim (controller ++ "\n").toList = controller.toList := by
    rw [trim, String.toList_append, drop _ nonempty plain, List.reverse_append]
    have back := drop controller.toList.reverse (by simpa using nonempty)
      (fun c held => plain c (List.mem_reverse.mp held)) []
    rw [List.append_nil] at back
    rw [show ("\n".toList).reverse = ['\n'] from rfl, List.singleton_append,
      List.dropWhile_cons_of_pos (by decide), back, List.reverse_reverse]
  rw [readText, line]
  exact String.ofList_toList

theorem uuid_ne_empty {controller : String} (valid : uuid controller = true) : controller ≠ "" := by
  rintro rfl
  exact absurd valid (by decide)

theorem owner_controller {controller : String} (named : d.marker = some (controller ++ "\n"))
    (valid : uuid controller = true) : d.owner.controller = controller := by
  rw [Disk.owner, previous, named]
  simp only [if_true, readText_marker valid, valid]

theorem owner_unknown : d.owner.unknown = ((d.owner.controller = "" : Bool) && d.ca.isNone) := rfl

/-- Where all files tell nothing, some of them tell nothing. -/
theorem unknown_of_owner {readable : Readable} (lost : d.owner.unknown = true) :
    (previous d readable).unknown = true := by
  rw [owner_unknown, Bool.and_eq_true, decide_eq_true_iff, Option.isNone_iff_eq_none] at lost
  obtain ⟨controller, ca⟩ := lost
  simp only [Previous.unknown, previous, Bool.and_eq_true, decide_eq_true_eq,
    Option.isNone_iff_eq_none, ca, ite_self, and_true]
  cases readable.marker with
  | true => exact controller
  | false =>
    simp only [Bool.false_eq_true, if_false]
    decide

/-- The node's name apart, the owner stands in the marker and the CA. -/
theorem owner_congr (marker : e.marker = d.marker) (ca : e.ca = d.ca) :
    e.owner.sameController = d.owner.sameController ∧ e.owner.unknown = d.owner.unknown := by
  have controller : e.owner.controller = d.owner.controller := by
    simp only [Disk.owner, previous, marker]
  constructor
  · funext controller' ca'
    simp only [Previous.sameController, controller]
    simp only [Disk.owner, previous, ca]
  · rw [owner_unknown, owner_unknown, controller, ca]

/-! The disk under one operation. -/

@[simp] theorem mem_present : x ∈ present d ↔ (d.journal x).isSome = true := by
  rw [present, List.mem_filter]
  exact and_iff_right (by cases x <;> decide)

theorem present_congr (journal : e.journal = d.journal) : present e = present d := by
  rw [present, present, journal]

theorem present_nodup : (present d).Nodup := List.Nodup.filter _ (by decide)

/-- A file that leaves its place leaves the list of those present. -/
theorem present_remove {rest : List Suffix} (head : present d = x :: rest) :
    present { d with journal := Function.update d.journal x none } = rest := by
  have distinct := @present_nodup d
  rw [head, List.nodup_cons] at distinct
  have others : present { d with journal := Function.update d.journal x none } =
      (present d).filter fun y => y ≠ x := by
    rw [present, present, List.filter_filter]
    apply List.filter_congr
    intro y _
    by_cases same : y = x <;> simp [same]
  rw [others, head, List.filter_cons_of_neg (by simp), List.filter_eq_self]
  intro y held
  rw [decide_eq_true_iff]
  rintro rfl
  exact distinct.1 held

/-- No archive loses a file. -/
def Disk.Grows (d e : Disk) : Prop :=
  ∀ name archive, d.archives.lookup name = some archive → ∃ later, e.archives.lookup name = some later ∧
    ∀ x f, archive.files x = some f → later.files x = some f

theorem grows_of_archives (same : e.archives = d.archives) : d.Grows e := by
  intro name archive held
  exact ⟨archive, by rw [same]; exact held, fun _ _ file => file⟩

theorem keep_archive {f : Option Artifact} {archive : Archive}
    (held : d.archives.lookup name = some archive) :
    (d.keep name x f).archives.lookup name =
      some { archive with files := Function.update archive.files x f } := by
  rw [Disk.keep, Table.lookup_alter, if_pos rfl, held, Option.map_some]

/-- A file put where an archive has none. -/
theorem grows_keep {f : Option Artifact} {archive : Archive}
    (held : d.archives.lookup name = some archive) (free : archive.files x = none) :
    d.Grows (d.keep name x f) := by
  intro other found there
  by_cases same : other = name
  · subst same
    cases held.symm.trans there
    refine ⟨_, keep_archive held, ?_⟩
    intro y g file
    dsimp only
    rw [Function.update_apply, if_neg]
    · exact file
    · rintro rfl
      rw [free] at file
      cases file
  · refine ⟨found, ?_, fun _ _ file => file⟩
    rw [Disk.keep, Table.lookup_alter_ne _ same]
    exact there

/-! What every run keeps. -/

/-- The file stands in some archive. -/
def Disk.Archived (d : Disk) (x : Suffix) (f : Artifact) : Prop :=
  ∃ name archive, d.archives.lookup name = some archive ∧ archive.files x = some f

theorem archived_of_grows {f : Artifact} (held : d.Archived x f) (grows : d.Grows e) :
    e.Archived x f := by
  obtain ⟨name, archive, there, file⟩ := held
  obtain ⟨later, still, files⟩ := grows name archive there
  exact ⟨name, later, still, files x f file⟩

/-- The files, the marker and the recorded requests of a run that started with `disk`. -/
structure Kept (disk d : Disk) (service : Option Previous) (recorded : List Request) : Prop where
  found : ∀ x f, disk.journal x = some f → d.journal x = some f ∨ d.Archived x f
  enrolled : disk.token = true → d.token = false → d.ca.isSome ∧ d.certificate.isSome
  unmarked : recorded = [] → d.marker = disk.marker ∧ d.ca = disk.ca
  marked : ∀ r rest, recorded = r :: rest →
    d.marker = some (r.controller ++ "\n") ∧ uuid r.controller = true
  known : ∀ p, service = some p → p.unknown = false → d.owner.unknown = false

/-- The journal is to be archived: its owner is another, and known. -/
structure Other (p : Previous) (request : Request) : Prop where
  valid : uuid request.controller = true
  another : p.sameController request.controller request.ca = false
  known : p.unknown = false

/-- What holds where a completion stands. -/
def StageOk (d : Disk) (recorded : List Request) (p : Previous) (t : Task) : Prop :=
  match t.stage with
  | .check | .finish => True
  | .lock | .collect => Other p t.request
  | .destination files => Other p t.request ∧ files = present d
  | .manifest files => Other p t.request ∧ files = present d ∧
    ∃ archive, d.archives.lookup (archiveName p t) = some archive ∧ ∀ x, archive.files x = none
  | .move _ rest => Other p t.request ∧ rest = present d ∧
    ∃ archive, d.archives.lookup (archiveName p t) = some archive ∧ ∀ x ∈ rest, archive.files x = none
  | .record => uuid t.request.controller = true ∧
    (present d = [] ∨ p.sameController t.request.controller t.request.ca = true)
  | .storeCa => recorded.head? = some t.request
  | .storeCertificate => d.ca = some t.request.ca
  | .removeToken => d.ca = some t.request.ca ∧ d.certificate = some t.request.certificate

structure Inv (disk : Disk) (a : Agent) : Prop where
  kept : Kept disk a.disk a.service a.recorded
  task : ∀ t, a.task = some t → ∃ p, a.service = some p ∧ StageOk a.disk a.recorded p t

theorem inv_start (disk : Disk) : Inv disk (.start disk) :=
  { kept :=
      { found := fun _ _ file => .inl file
        enrolled := fun there gone => absurd (there.symm.trans gone) (by decide)
        unmarked := fun _ => ⟨rfl, rfl⟩
        marked := fun _ _ recorded => nomatch recorded
        known := fun _ running => nomatch running }
    task := fun _ running => nomatch running }

theorem Inv.reply (inv : Inv disk a) : Inv disk a.reply :=
  { kept := inv.kept, task := fun _ running => nomatch running }

theorem Kept.goto {recorded : List Request} (kept : Kept disk d (some p) recorded) (stage : Stage)
    (ok : StageOk d recorded p { t with stage := stage }) :
    Inv disk ⟨d, some p, some { t with stage := stage }, recorded⟩ := by
  refine ⟨kept, ?_⟩
  intro u held
  cases held
  exact ⟨p, rfl, ok⟩

/-- Files may be created or go to an archive; nothing else of the disk changes. -/
theorem Kept.files {service : Option Previous} {recorded : List Request}
    (kept : Kept disk d service recorded) (grows : d.Grows e)
    (moved : ∀ x f, d.journal x = some f → e.journal x = some f ∨ e.Archived x f)
    (marker : e.marker = d.marker) (ca : e.ca = d.ca) (certificate : e.certificate = d.certificate)
    (token : e.token = d.token) : Kept disk e service recorded := by
  constructor
  · intro x f file
    rcases kept.found x f file with here | there
    · exact moved x f here
    · exact .inr (archived_of_grows there grows)
  · intro there gone
    rw [ca, certificate]
    exact kept.enrolled there (token ▸ gone)
  · intro none
    rw [marker, ca]
    exact kept.unmarked none
  · intro r rest some
    rw [marker]
    exact kept.marked r rest some
  · intro p running known
    rw [(owner_congr marker ca).2]
    exact kept.known p running known

section
variable {archive : Archive} {rest : List Suffix}

/-- The file that a move takes stands in its archive after. -/
theorem moved_found (held : d.archives.lookup name = some archive) (f : Artifact)
    (file : d.journal y = some f) :
    let kept := d.keep name x (d.journal x)
    let moved := { kept with journal := Function.update kept.journal x none }
    moved.journal y = some f ∨ moved.Archived y f := by
  intro kept moved
  by_cases same : y = x
  · subst same
    right
    refine ⟨name, _, keep_archive held, ?_⟩
    rw [← file]
    exact Function.update_self ..
  · left
    exact (Function.update_of_ne same _ _).trans (file)

theorem grows_moved (held : d.archives.lookup name = some archive) (free : archive.files x = none) :
    let kept := d.keep name x (d.journal x)
    d.Grows { kept with journal := Function.update kept.journal x none } :=
  fun other found there => grows_keep held free other found there

/-- The rest of the archive stays free for the files still to move. -/
theorem moved_free (listed : x :: rest = present d) (held : d.archives.lookup name = some archive)
    (free : ∀ y ∈ x :: rest, archive.files y = none) :
    ∃ later, (d.keep name x (d.journal x)).archives.lookup name = some later ∧
      ∀ y ∈ rest, later.files y = none := by
  refine ⟨_, keep_archive held, ?_⟩
  intro y member
  dsimp only
  have distinct := @present_nodup d
  rw [← listed, List.nodup_cons] at distinct
  rw [Function.update_of_ne (by rintro rfl; exact distinct.1 member)]
  exact free y (List.mem_cons_of_mem x member)

end

theorem grows_new {archive : Archive} (free : d.archives.lookup name = none) :
    d.Grows { d with archives := d.archives.put name archive } := by
  intro other found there
  refine ⟨found, ?_, fun _ _ file => file⟩
  dsimp only
  rw [Table.lookup_put_ne]
  · exact there
  · rintro rfl
    rw [free] at there
    cases there

theorem grows_manifest (manifest : Manifest) :
    d.Grows { d with
      archives := d.archives.alter name fun archive =>
        { archive with manifest := some manifest } } := by
  intro other found there
  dsimp only
  by_cases same : other = name
  · subst same
    rw [Table.lookup_alter, if_pos rfl, there]
    exact ⟨_, rfl, fun _ _ file => file⟩
  · rw [Table.lookup_alter_ne _ same]
    exact ⟨found, there, fun _ _ file => file⟩

/-- One operation at a time: a stage's facts are those that the operation before set up. -/
theorem inv_advance {recorded : List Request} (inv : Inv disk ⟨d, some p, some t, recorded⟩) :
    Inv disk (Agent.advance nodeKey ⟨d, some p, some t, recorded⟩ p t) := by
  have kept : Kept disk d (some p) recorded := inv.kept
  have ok : StageOk d recorded p t := by
    obtain ⟨q, running, ok⟩ := inv.task t rfl
    cases running
    exact ok
  rw [StageOk] at ok
  rw [Agent.advance]
  cases stage : t.stage with
  | check =>
    dsimp only
    split
    · exact inv.reply
    · next valid =>
      rw [Bool.not_eq_true, Bool.not_eq_false'] at valid
      split
      · next foreign =>
        split
        · exact inv.reply
        · next known =>
          have other : Other p t.request := ⟨valid, foreign.2, Bool.eq_false_iff.mpr known⟩
          exact kept.goto .lock other
      · next own =>
        rw [not_and_or, not_not, Bool.not_eq_false] at own
        exact kept.goto .record ⟨valid, own⟩
  | lock =>
    have other : Other p t.request := by rwa [stage] at ok
    refine Kept.goto ?_ .collect other
    refine kept.files (grows_of_archives rfl) ?_ rfl rfl rfl rfl
    intro x f file
    left
    dsimp only
    by_cases same : x = .lock
    · subst same
      simp [file]
    · rw [Function.update_of_ne same]
      exact file
  | collect =>
    have other : Other p t.request := by rwa [stage] at ok
    dsimp only
    split
    · exact inv.reply
    · exact kept.goto (.destination _) ⟨other, rfl⟩
  | destination files =>
    obtain ⟨other, listed⟩ : Other p t.request ∧ files = present d := by rwa [stage] at ok
    dsimp only
    split
    · exact inv.reply
    · next free =>
      rw [Option.not_isSome_iff_eq_none] at free
      refine Kept.goto ?_ (.manifest files)
        ⟨other, listed, ⟨none, fun _ => none⟩, Table.lookup_put_self .., fun _ => rfl⟩
      exact kept.files (grows_new free) (fun _ _ file => .inl file) rfl rfl rfl rfl
  | manifest files =>
    obtain ⟨other, listed, archive, there, free⟩ : Other p t.request ∧ files = present d ∧
        ∃ archive, d.archives.lookup (archiveName p t) = some archive ∧ ∀ x, archive.files x = none := by
      rwa [stage] at ok
    refine Kept.goto ?_ (.move [] files) ⟨other, listed,
        { archive with manifest := some (manifestOf nodeKey p t files) }, ?_, fun x _ => free x⟩
    · exact kept.files (grows_manifest _) (fun _ _ file => .inl file) rfl rfl rfl rfl
    · refine (Table.lookup_alter ..).trans ?_
      refine (if_pos rfl).trans ?_
      dsimp only
      rw [there]
      exact Option.map_some ..
  | move moved rest =>
    obtain ⟨other, listed, archive, there, free⟩ : Other p t.request ∧ rest = present d ∧
        ∃ archive, d.archives.lookup (archiveName p t) = some archive ∧
          ∀ x ∈ rest, archive.files x = none := by
      rwa [stage] at ok
    cases rest with
    | nil => exact kept.goto .record ⟨other.valid, .inl listed.symm⟩
    | cons x rest =>
      refine Kept.goto ?_ (.move _ rest) ⟨other, ?_, ?_⟩
      · exact kept.files (grows_moved there (free x List.mem_cons_self))
          (fun _ => moved_found there) rfl rfl rfl rfl
      · have left := present_remove listed.symm
        rw [← left]
        exact present_congr rfl
      · exact moved_free listed there free
  | record =>
    obtain ⟨valid, _⟩ : uuid t.request.controller = true ∧ (present d = [] ∨
        p.sameController t.request.controller t.request.ca = true) := by
      rwa [stage] at ok
    refine Kept.goto ?_ .storeCa rfl
    refine
      { found := kept.found
        enrolled := kept.enrolled
        unmarked := fun none => nomatch none
        marked := ?_
        known := ?_ }
    · intro r rest recorded
      cases recorded
      exact ⟨rfl, valid⟩
    · intro _ _ _
      rw [owner_unknown, owner_controller rfl valid, decide_eq_false (uuid_ne_empty valid),
        Bool.false_and]
  | storeCa =>
    have last : recorded.head? = some t.request := by rwa [stage] at ok
    refine Kept.goto ?_ .storeCertificate rfl
    refine
      { found := kept.found
        enrolled := fun there gone => ⟨rfl, (kept.enrolled there gone).2⟩
        unmarked := ?_
        marked := kept.marked
        known := ?_ }
    · intro none
      rw [show recorded = [] from none] at last
      cases last
    · intro _ _ _
      simp [owner_unknown]
  | storeCertificate =>
    have stored : d.ca = some t.request.ca := by rwa [stage] at ok
    refine Kept.goto ?_ .removeToken ⟨stored, rfl⟩
    exact { kept with enrolled := fun there gone => ⟨(kept.enrolled there gone).1, rfl⟩ }
  | removeToken =>
    obtain ⟨ca, certificate⟩ : d.ca = some t.request.ca ∧
        d.certificate = some t.request.certificate := by
      rwa [stage] at ok
    dsimp only
    split
    · refine Kept.goto ?_ .finish trivial
      exact { kept with enrolled := fun _ _ => ⟨by simp [ca], by simp [certificate]⟩ }
    · exact inv.reply
  | finish => exact ⟨{ kept with }, fun _ running => nomatch running⟩

/-- A move across file systems that does not end writes only where its archive has nothing. -/
theorem kept_torn {recorded : List Request} {copied : Option Artifact}
    (kept : Kept disk d (some p) recorded) (ok : StageOk d recorded p t) :
    Kept disk (d.torn p t copied) (some p) recorded := by
  rw [StageOk] at ok
  rw [Disk.torn]
  split
  · next moved x rest stage =>
    rw [stage] at ok
    obtain ⟨_, _, archive, there, free⟩ := ok
    exact kept.files (grows_keep there (free x List.mem_cons_self))
      (fun y f file => .inl (file))
      rfl rfl rfl rfl
  · exact kept

theorem Kept.stopped {service : Option Previous} {recorded : List Request}
    (kept : Kept disk d service recorded) : Kept disk d none recorded :=
  { kept with known := fun _ running => nomatch running }

theorem inv_next (inv : Inv disk a) (event : Event) : Inv disk (a.next nodeKey event) := by
  obtain ⟨d, service, task, recorded⟩ := a
  have kept : Kept disk d service recorded := inv.kept
  cases event with
  | serve readable =>
    rw [Agent.next]
    split
    · next starts =>
      simp only [Bool.and_eq_true, Option.isNone_iff_eq_none] at starts
      obtain rfl : service = none := starts.2
      refine ⟨{ kept with known := ?_ }, ?_⟩
      · -- What was read in part is still there.
        intro p running known
        cases running
        rw [Bool.eq_false_iff] at known ⊢
        exact fun lost => known (unknown_of_owner lost)
      · intro t running
        obtain ⟨p, served, _⟩ := inv.task t running
        cases served
    · exact inv
  | complete request stamp suffix =>
    rw [Agent.next]
    split
    · next starts =>
      rw [Bool.and_eq_true, Option.isSome_iff_exists] at starts
      obtain ⟨⟨p, served⟩, _⟩ := starts
      refine ⟨kept, ?_⟩
      intro t running
      cases running
      exact ⟨p, served, trivial⟩
    · exact inv
  | advance =>
    cases service with
    | none => exact inv
    | some p =>
      cases task with
      | none => exact inv
      | some t => exact inv_advance inv
  | fail copied =>
    cases service with
    | none => exact inv
    | some p =>
      cases task with
      | none => exact inv
      | some t =>
        obtain ⟨q, served, ok⟩ := inv.task t rfl
        cases served
        exact ⟨kept_torn kept ok, fun _ running => nomatch running⟩
  | crash copied =>
    cases service with
    | none => exact ⟨kept, fun _ running => nomatch running⟩
    | some p =>
      cases task with
      | none => exact ⟨kept.stopped, fun _ running => nomatch running⟩
      | some t =>
        obtain ⟨q, served, ok⟩ := inv.task t rfl
        cases served
        exact ⟨(kept_torn kept ok).stopped, fun _ running => nomatch running⟩

theorem inv_run (disk : Disk) (events : List Event) :
    Inv disk ((Agent.start disk).run nodeKey events) := by
  rw [Agent.run]
  have start := inv_start disk
  generalize Agent.start disk = a at start
  induction events generalizing a with
  | nil => exact start
  | cons event rest ih => exact ih _ (inv_next start event)

end Handover
end NodePlane
