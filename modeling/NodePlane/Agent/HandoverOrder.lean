import NodePlane.Agent.HandoverRuns

/-! What a run keeps whose archives are never cut off and whose service knows the owner. -/
namespace NodePlane
namespace Handover
open Library Readings

variable {nodeKey : String} {a : Agent} {d e disk : Disk} {p : Previous} {t : Task}
  {x y : Suffix} {name : String}

/-- The operation does not come between two moves of one archive, and what the service read
at its start still tells of the request's controller what the files tell now. -/
def steady (a : Agent) : Event → Bool
  | .fail _ | .crash _ =>
    match a.task.map Task.stage with
    | some (.move moved rest) => moved.isEmpty || rest.isEmpty
    | _ => true
  | .advance =>
    match a.service, a.task with
    | some p, some t =>
      t.stage != .check || (present a.disk).isEmpty ||
        p.sameController t.request.controller t.request.ca ==
          a.disk.owner.sameController t.request.controller t.request.ca
    | _, _ => true
  | _ => true

def steadyRun (nodeKey : String) : Agent → List Event → Bool
  | _, [] => true
  | a, event :: rest => steady a event && steadyRun nodeKey (a.next nodeKey event) rest

theorem cut_of_steady {service : Option Previous} {recorded : List Request} {event : Event}
    {moved rest : List Suffix} (ok : steady ⟨d, service, some t, recorded⟩ event = true)
    (stops : ∃ copied, event = .fail copied ∨ event = .crash copied)
    (stage : t.stage = .move moved rest) : moved = [] ∨ rest = [] := by
  obtain ⟨copied, rfl | rfl⟩ := stops <;>
    simpa [steady, stage] using ok

theorem agree_of_steady {recorded : List Request}
    (ok : steady ⟨d, some p, some t, recorded⟩ .advance = true) (stage : t.stage = .check)
    (standing : present d ≠ []) :
    p.sameController t.request.controller t.request.ca =
      d.owner.sameController t.request.controller t.request.ca := by
  simpa [steady, stage, standing] using ok

/-- The controllers that the marker has named, the last first: all one, and the first of them
the journal's owner. -/
def Chain (owner : Previous) : List Request → Prop
  | [] => True
  | [r] => owner.sameController r.controller r.ca = true
  | r :: s :: rest => r.controller = s.controller ∧ Chain owner (s :: rest)

/-- Every file of the journal stands where it stood. -/
def Placed (disk d : Disk) : Prop := ∀ x f, disk.journal x = some f → d.journal x = some f

/-- One archive holds every file of the journal. -/
def Whole (disk d : Disk) : Prop :=
  ∃ name archive, d.archives.lookup name = some archive ∧
    ∀ x f, disk.journal x = some f → archive.files x = some f

/-- The journal is on its way to one archive. -/
def Moving (disk : Disk) (a : Agent) : Prop :=
  ∃ p t moved rest archive, a.service = some p ∧ a.task = some t ∧ t.stage = .move moved rest ∧
    moved ≠ [] ∧ a.disk.archives.lookup (archiveName p t) = some archive ∧
      ∀ x f, disk.journal x = some f →
        (x ∈ rest ∧ a.disk.journal x = some f) ∨ archive.files x = some f

/-- What the files tell of the owner where a completion stands. -/
def StageFresh (d : Disk) (t : Task) : Prop :=
  match t.stage with
  | .lock => present d ≠ [] ∧
    d.owner.sameController t.request.controller t.request.ca = false
  | .collect | .destination _ | .manifest _ | .move _ _ =>
    d.owner.sameController t.request.controller t.request.ca = false
  | .record => present d = [] ∨
    d.owner.sameController t.request.controller t.request.ca = true
  | _ => True

structure Orderly (disk : Disk) (a : Agent) : Prop where
  chain : present a.disk ≠ [] → Chain disk.owner a.recorded
  fresh : ∀ t, a.task = some t → StageFresh a.disk t
  together : Placed disk a.disk ∨ Whole disk a.disk ∨ Moving disk a

theorem whole_of_grows (whole : Whole disk d) (grows : d.Grows e) : Whole disk e := by
  obtain ⟨name, archive, there, files⟩ := whole
  obtain ⟨later, still, kept⟩ := grows name archive there
  exact ⟨name, later, still, fun x f file => kept x f (files x f file)⟩

/-- An operation takes no file out of its place but the one that it moves, and creates none
where none stands. -/
structure Effect (d : Disk) (t : Task) (recorded : List Request) (after : Agent) : Prop where
  grows : d.Grows after.disk
  placed : ∀ x f, d.journal x = some f → after.disk.journal x = some f ∨
    ∃ moved rest, t.stage = .move moved (x :: rest)
  absent : present d = [] → t.stage ≠ .lock → present after.disk = []
  owner : t.stage ≠ .record → t.stage ≠ .storeCa →
    after.disk.marker = d.marker ∧ after.disk.ca = d.ca
  recorded : t.stage ≠ .record → after.recorded = recorded

theorem effect_same {recorded : List Request} {after : Agent} (same : after.disk = d)
    (named : after.recorded = recorded) : Effect d t recorded after :=
  { grows := grows_of_archives (by rw [same])
    placed := fun _ _ file => .inl (by rw [same]; exact file)
    absent := fun none _ => by rw [same]; exact none
    owner := fun _ _ => by rw [same]; exact ⟨rfl, rfl⟩
    recorded := fun _ => named }

theorem effect_advance {recorded : List Request} (inv : Inv disk ⟨d, some p, some t, recorded⟩) :
    Effect d t recorded (Agent.advance nodeKey ⟨d, some p, some t, recorded⟩ p t) := by
  have ok : StageOk d recorded p t := by
    obtain ⟨q, running, ok⟩ := inv.task t rfl
    cases running
    exact ok
  rw [StageOk] at ok
  rw [Agent.advance]
  cases stage : t.stage with
  | check =>
    dsimp only
    split
    · exact effect_same rfl rfl
    · split
      · split
        · exact effect_same rfl rfl
        · exact effect_same rfl rfl
      · exact effect_same rfl rfl
  | lock =>
    refine ⟨grows_of_archives rfl, ?_, ?_, fun _ _ => ⟨rfl, rfl⟩, fun _ => rfl⟩
    · intro x f file
      left
      by_cases same : x = .lock
      · subst same
        simp [Agent.goto, file]
      · exact (Function.update_of_ne same _ _).trans file
    · intro _ other
      exact absurd stage other
  | collect =>
    dsimp only
    split
    · exact effect_same rfl rfl
    · exact effect_same rfl rfl
  | destination files =>
    dsimp only
    split
    · exact effect_same rfl rfl
    · next free =>
      rw [Option.not_isSome_iff_eq_none] at free
      exact ⟨grows_new free, fun _ _ file => .inl file, fun none _ => none,
        fun _ _ => ⟨rfl, rfl⟩, fun _ => rfl⟩
  | manifest files =>
    exact ⟨grows_manifest _, fun _ _ file => .inl file, fun none _ => none,
      fun _ _ => ⟨rfl, rfl⟩, fun _ => rfl⟩
  | move moved rest =>
    obtain ⟨_, listed, archive, there, free⟩ : Other p t.request ∧ rest = present d ∧
        ∃ archive, d.archives.lookup (archiveName p t) = some archive ∧
          ∀ x ∈ rest, archive.files x = none := by
      rwa [stage] at ok
    cases rest with
    | nil => exact effect_same rfl rfl
    | cons x rest =>
      refine ⟨grows_moved there (free x List.mem_cons_self), ?_, ?_,
        fun _ _ => ⟨rfl, rfl⟩, fun _ => rfl⟩
      · intro y f file
        by_cases same : y = x
        · subst same
          exact .inr ⟨moved, rest, stage⟩
        · left
          exact (Function.update_of_ne same _ _).trans (file)
      · intro none
        rw [none] at listed
        cases listed
  | record =>
    exact ⟨grows_of_archives rfl, fun _ _ file => .inl file, fun none _ => none,
      fun other => absurd stage other, fun other => absurd stage other⟩
  | storeCa =>
    exact ⟨grows_of_archives rfl, fun _ _ file => .inl file, fun none _ => none,
      fun _ other => absurd stage other, fun _ => rfl⟩
  | storeCertificate =>
    exact ⟨grows_of_archives rfl, fun _ _ file => .inl file, fun none _ => none,
      fun _ _ => ⟨rfl, rfl⟩, fun _ => rfl⟩
  | removeToken =>
    dsimp only
    split
    · exact ⟨grows_of_archives rfl, fun _ _ file => .inl file, fun none _ => none,
        fun _ _ => ⟨rfl, rfl⟩, fun _ => rfl⟩
    · exact effect_same rfl rfl
  | finish =>
    exact ⟨grows_of_archives rfl, fun _ _ file => .inl file, fun none _ => none,
      fun _ _ => ⟨rfl, rfl⟩, fun _ => rfl⟩

theorem fresh_of_owner {controller ca : String} {known : Bool} (marker : e.marker = d.marker)
    (same : e.ca = d.ca) (fresh : d.owner.sameController controller ca = known) :
    e.owner.sameController controller ca = known := by
  rw [(owner_congr marker same).1]
  exact fresh

theorem fresh_advance {recorded : List Request} {u : Task}
    (inv : Inv disk ⟨d, some p, some t, recorded⟩) (fresh : StageFresh d t)
    (calm : steady ⟨d, some p, some t, recorded⟩ .advance = true)
    (running : (Agent.advance nodeKey ⟨d, some p, some t, recorded⟩ p t).task = some u) :
    StageFresh (Agent.advance nodeKey ⟨d, some p, some t, recorded⟩ p t).disk u := by
  have ok : StageOk d recorded p t := by
    obtain ⟨q, running, ok⟩ := inv.task t rfl
    cases running
    exact ok
  rw [StageOk] at ok
  rw [StageFresh] at fresh
  rw [Agent.advance] at running ⊢
  cases stage : t.stage with
  | check =>
    simp only [stage] at running ⊢
    have agree := agree_of_steady calm stage
    split at running
    · cases running
    · next valid =>
      rw [if_neg valid]
      split at running
      · next foreign =>
        rw [if_pos foreign]
        split at running
        · cases running
        · next known =>
          rw [if_neg known]
          cases running
          exact ⟨foreign.1, (agree foreign.1).symm.trans foreign.2⟩
      · next own =>
        rw [if_neg own]
        cases running
        by_cases none : present d = []
        · exact .inl none
        · refine .inr ((agree none).symm.trans ?_)
          rw [not_and_or, not_not, Bool.not_eq_false] at own
          exact own.resolve_left none
  | lock =>
    rw [stage] at fresh
    simp only [stage] at running ⊢
    cases running
    exact fresh_of_owner rfl rfl fresh.2
  | collect =>
    rw [stage] at fresh
    simp only [stage] at running ⊢
    split at running
    · cases running
    · next regular =>
      rw [if_neg regular]
      cases running
      exact fresh
  | destination files =>
    rw [stage] at fresh
    simp only [stage] at running ⊢
    split at running
    · cases running
    · next free =>
      rw [if_neg free]
      cases running
      exact fresh_of_owner rfl rfl fresh
  | manifest files =>
    rw [stage] at fresh
    simp only [stage] at running ⊢
    cases running
    exact fresh_of_owner rfl rfl fresh
  | move moved rest =>
    rw [stage] at fresh ok
    obtain ⟨_, listed, _⟩ := ok
    cases rest with
    | nil =>
      simp only [stage] at running ⊢
      cases running
      exact .inl listed.symm
    | cons x rest =>
      simp only [stage] at running ⊢
      cases running
      exact fresh_of_owner rfl rfl fresh
  | record | storeCa | storeCertificate =>
    simp only [stage] at running ⊢
    cases running
    exact trivial
  | removeToken =>
    simp only [stage] at running ⊢
    split at running
    · next held =>
      rw [if_pos held]
      cases running
      exact trivial
    · cases running
  | finish =>
    simp only [stage] at running
    cases running

/-- The marker names one controller for as long as a file of the journal stands. -/
theorem chain_record {recorded : List Request} {r : Request} {service : Option Previous}
    (kept : Kept disk d service recorded) (chain : Chain disk.owner recorded)
    (own : d.owner.sameController r.controller r.ca = true) : Chain disk.owner (r :: recorded) := by
  cases recorded with
  | nil =>
    obtain ⟨marker, ca⟩ := kept.unmarked rfl
    rw [(owner_congr marker ca).1] at own
    exact own
  | cons s rest =>
    obtain ⟨marker, valid⟩ := kept.marked s rest rfl
    refine ⟨?_, chain⟩
    rw [Previous.sameController, owner_controller marker valid, if_neg (uuid_ne_empty valid),
      decide_eq_true_iff] at own
    exact own.symm

theorem chain_advance {recorded : List Request}
    (inv : Inv disk ⟨d, some p, some t, recorded⟩) (fresh : StageFresh d t)
    (chain : present d ≠ [] → Chain disk.owner recorded)
    (standing : present (Agent.advance nodeKey ⟨d, some p, some t, recorded⟩ p t).disk ≠ []) :
    Chain disk.owner (Agent.advance nodeKey ⟨d, some p, some t, recorded⟩ p t).recorded := by
  have effect := @effect_advance nodeKey d disk p t recorded inv
  rw [StageFresh] at fresh
  have before : present d ≠ [] := by
    intro none
    by_cases locks : t.stage = .lock
    · rw [locks] at fresh
      exact fresh.1 none
    · exact standing (effect.absent none locks)
  by_cases records : t.stage = .record
  · rw [records] at fresh
    have named : (Agent.advance nodeKey ⟨d, some p, some t, recorded⟩ p t).recorded =
        t.request :: recorded := by
      rw [Agent.advance, records]
      rfl
    rw [named]
    exact chain_record inv.kept (chain before) (fresh.resolve_left before)
  · rw [effect.recorded records]
    exact chain before

/-- One more file of the journal reaches the archive of the others. -/
theorem moving_advance {recorded : List Request} {archive : Archive} {moved rest : List Suffix}
    (stage : t.stage = .move moved (x :: rest)) (listed : x :: rest = present d)
    (there : d.archives.lookup (archiveName p t) = some archive)
    (free : ∀ y ∈ x :: rest, archive.files y = none)
    (split : ∀ y f, disk.journal y = some f →
      (y ∈ x :: rest ∧ d.journal y = some f) ∨ archive.files y = some f) :
    Moving disk (Agent.advance nodeKey ⟨d, some p, some t, recorded⟩ p t) := by
  rw [Agent.advance, stage]
  refine ⟨p, _, moved ++ [x], rest, _, rfl, rfl, rfl, by simp, keep_archive there, ?_⟩
  intro y f file
  dsimp only
  by_cases same : y = x
  · subst same
    right
    rw [Function.update_self]
    rcases split y f file with ⟨_, here⟩ | gone
    · exact here
    · rw [free y List.mem_cons_self] at gone
      cases gone
  · rw [Function.update_of_ne same]
    rcases split y f file with ⟨member, here⟩ | gone
    · left
      refine ⟨(List.mem_cons.mp member).resolve_left same, ?_⟩
      exact (Function.update_of_ne same _ _).trans (here)
    · exact .inr gone

theorem together_advance {recorded : List Request}
    (inv : Inv disk ⟨d, some p, some t, recorded⟩)
    (together : Placed disk d ∨ Whole disk d ∨ Moving disk ⟨d, some p, some t, recorded⟩) :
    Placed disk (Agent.advance nodeKey ⟨d, some p, some t, recorded⟩ p t).disk ∨
      Whole disk (Agent.advance nodeKey ⟨d, some p, some t, recorded⟩ p t).disk ∨
      Moving disk (Agent.advance nodeKey ⟨d, some p, some t, recorded⟩ p t) := by
  have effect := @effect_advance nodeKey d disk p t recorded inv
  have ok : StageOk d recorded p t := by
    obtain ⟨q, running, ok⟩ := inv.task t rfl
    cases running
    exact ok
  rcases together with placed | whole | moving
  · by_cases moves : ∃ moved x rest, t.stage = .move moved (x :: rest)
    · obtain ⟨moved, x, rest, stage⟩ := moves
      rw [StageOk, stage] at ok
      obtain ⟨_, listed, archive, there, free⟩ := ok
      refine .inr (.inr (moving_advance stage listed there free ?_))
      intro y f file
      have here := placed y f file
      refine .inl ⟨?_, here⟩
      rw [listed, mem_present, here]
      rfl
    · left
      intro x f file
      rcases effect.placed x f (placed x f file) with here | ⟨moved, rest, stage⟩
      · exact here
      · exact absurd ⟨moved, x, rest, stage⟩ moves
  · exact .inr (.inl (whole_of_grows whole effect.grows))
  · obtain ⟨q, u, moved, rest, archive, served, running, stage, _, there, split⟩ := moving
    cases served
    cases running
    cases rest with
    | nil =>
      refine .inr (.inl (@whole_of_grows d _ disk ?_ effect.grows))
      refine ⟨_, archive, there, ?_⟩
      intro x f file
      rcases split x f file with ⟨member, _⟩ | gone
      · cases member
      · exact gone
    | cons x rest =>
      rw [StageOk, stage] at ok
      obtain ⟨_, listed, found, same, free⟩ := ok
      cases there.symm.trans same
      exact .inr (.inr (moving_advance stage listed there free split))

theorem torn_grows {recorded : List Request} {copied : Option Artifact}
    (ok : StageOk d recorded p t) : d.Grows (d.torn p t copied) := by
  rw [StageOk] at ok
  rw [Disk.torn]
  split
  · next moved x rest stage =>
    rw [stage] at ok
    obtain ⟨_, _, archive, there, free⟩ := ok
    exact grows_keep there (free x List.mem_cons_self)
  · exact grows_of_archives rfl

@[simp] theorem torn_journal {copied : Option Artifact} :
    (d.torn p t copied).journal = d.journal := by
  rw [Disk.torn]
  split
  · rfl
  · rfl

@[simp] theorem torn_token {copied : Option Artifact} : (d.torn p t copied).token = d.token := by
  rw [Disk.torn]
  split <;> rfl

/-- An archive that is not cut off is whole, or nothing of it was moved. -/
theorem together_torn {recorded : List Request} {copied : Option Artifact}
    (inv : Inv disk ⟨d, some p, some t, recorded⟩)
    (cut : ∀ moved rest, t.stage = .move moved rest → moved = [] ∨ rest = [])
    (together : Placed disk d ∨ Whole disk d ∨ Moving disk ⟨d, some p, some t, recorded⟩) :
    Placed disk (d.torn p t copied) ∨ Whole disk (d.torn p t copied) := by
  obtain ⟨q, running, ok⟩ := inv.task t rfl
  cases running
  have grows := @torn_grows d p t recorded copied ok
  rcases together with placed | whole | moving
  · left
    intro x f file
    rw [torn_journal]
    exact placed x f file
  · exact .inr (whole_of_grows whole grows)
  · obtain ⟨q, u, moved, rest, archive, served, running, stage, begun, there, split⟩ := moving
    cases served
    cases running
    have done := (cut moved rest stage).resolve_left begun
    subst done
    refine .inr (@whole_of_grows d _ disk ?_ grows)
    refine ⟨_, archive, there, ?_⟩
    intro x f file
    rcases split x f file with ⟨member, _⟩ | gone
    · cases member
    · exact gone

theorem orderly_start (disk : Disk) : Orderly disk (.start disk) :=
  { chain := fun _ => trivial
    fresh := fun _ running => nomatch running
    together := .inl fun _ _ file => file }

theorem orderly_next (inv : Inv disk a) (orderly : Orderly disk a) {event : Event}
    (calm : steady a event = true) : Orderly disk (a.next nodeKey event) := by
  obtain ⟨d, service, task, recorded⟩ := a
  -- A completion that stops, with the process or without it.
  have stops : ∀ p t copied later, service = some p → task = some t →
      (∀ moved rest, t.stage = .move moved rest → moved = [] ∨ rest = []) →
      Orderly disk ⟨d.torn p t copied, later, none, recorded⟩ := by
    rintro p t copied later rfl rfl cut
    refine ⟨?_, (by rintro _ ⟨⟩), ?_⟩
    · intro standing
      rw [present_congr torn_journal] at standing
      exact orderly.chain standing
    · rcases together_torn inv cut orderly.together with placed | whole
      · exact .inl placed
      · exact .inr (.inl whole)
  cases event with
  | serve readable =>
    rw [Agent.next]
    split
    · next starts =>
      simp only [Bool.and_eq_true, Option.isNone_iff_eq_none] at starts
      obtain rfl : service = none := starts.2
      refine ⟨orderly.chain, orderly.fresh, ?_⟩
      rcases orderly.together with placed | whole | ⟨p, _, _, _, _, served, _⟩
      · exact .inl placed
      · exact .inr (.inl whole)
      · cases served
    · exact orderly
  | complete request stamp suffix =>
    rw [Agent.next]
    split
    · next starts =>
      simp only [Bool.and_eq_true, Option.isNone_iff_eq_none] at starts
      obtain rfl : task = none := starts.2
      refine ⟨orderly.chain, ?_, ?_⟩
      · intro t running
        cases running
        exact trivial
      · rcases orderly.together with placed | whole | ⟨_, _, _, _, _, _, running, _⟩
        · exact .inl placed
        · exact .inr (.inl whole)
        · cases running
    · exact orderly
  | advance =>
    cases service with
    | none => exact orderly
    | some p =>
      cases task with
      | none => exact orderly
      | some t =>
        have fresh : StageFresh d t := orderly.fresh t rfl
        exact
          { chain := chain_advance inv fresh orderly.chain
            fresh := fun u running => fresh_advance inv fresh calm running
            together := together_advance inv orderly.together }
  | fail copied =>
    cases service with
    | none => exact orderly
    | some p =>
      cases task with
      | none => exact orderly
      | some t => exact stops p t copied _ rfl rfl fun _ _ => cut_of_steady calm ⟨copied, .inl rfl⟩
  | crash copied =>
    cases service with
    | none =>
      refine ⟨orderly.chain, (by rintro _ ⟨⟩), ?_⟩
      rcases orderly.together with placed | whole | ⟨p, _, _, _, _, served, _⟩
      · exact .inl placed
      · exact .inr (.inl whole)
      · cases served
    | some p =>
      cases task with
      | none =>
        refine ⟨orderly.chain, (by rintro _ ⟨⟩), ?_⟩
        rcases orderly.together with placed | whole | ⟨_, _, _, _, _, _, running, _⟩
        · exact .inl placed
        · exact .inr (.inl whole)
        · cases running
      | some t => exact stops p t copied _ rfl rfl fun _ _ => cut_of_steady calm ⟨copied, .inr rfl⟩

/-- What an enrollment promises of every state that it reaches from `disk`. -/
structure Delivered (disk : Disk) (a : Agent) : Prop where
  /-- Every file of the journal is found, unchanged, in place or in an archive. -/
  found : ∀ x f, disk.journal x = some f → a.disk.journal x = some f ∨ a.disk.Archived x f
  enrolled : disk.token = true → a.disk.token = false →
    a.disk.ca.isSome ∧ a.disk.certificate.isSome
  marked : ∀ r rest, a.recorded = r :: rest → a.disk.marker = some (r.controller ++ "\n")
  /-- Once the marker names a controller, only that controller's journal stands in place. -/
  owned : (∃ x f, a.disk.journal x = some f) → Chain disk.owner a.recorded
  /-- Between handovers the files of the journal are together. -/
  together : (∀ t moved rest, a.task = some t → t.stage ≠ .move moved rest) →
    Placed disk a.disk ∨ Whole disk a.disk

/-- What a step keeps to: the token goes when the CA and the certificate of its completion are
stored, and a file leaves its place only for a controller that is not its known owner's. -/
structure Guarded (a after : Agent) : Prop where
  token : a.disk.token = true → after.disk.token = false → ∃ t, a.task = some t ∧
    a.disk.ca = some t.request.ca ∧ a.disk.certificate = some t.request.certificate
  moved : ∀ x f, a.disk.journal x = some f → after.disk.journal x ≠ some f →
    ∃ t, a.task = some t ∧ a.disk.owner.unknown = false ∧
      a.disk.owner.sameController t.request.controller t.request.ca = false

theorem guarded_same {after : Agent} (token : after.disk.token = a.disk.token)
    (journal : after.disk.journal = a.disk.journal) : Guarded a after := by
  constructor
  · intro there gone
    rw [token, there] at gone
    cases gone
  · intro x f here gone
    rw [journal] at gone
    exact absurd here gone

theorem guarded_advance {recorded : List Request} (inv : Inv disk ⟨d, some p, some t, recorded⟩)
    (fresh : StageFresh d t) : Guarded ⟨d, some p, some t, recorded⟩
      (Agent.advance nodeKey ⟨d, some p, some t, recorded⟩ p t) := by
  have effect := @effect_advance nodeKey d disk p t recorded inv
  have ok : StageOk d recorded p t := by
    obtain ⟨q, running, ok⟩ := inv.task t rfl
    cases running
    exact ok
  constructor
  · intro there gone
    rw [StageOk] at ok
    cases stage : t.stage with
    | removeToken =>
      rw [stage] at ok
      exact ⟨t, rfl, ok⟩
    | check | lock | collect | destination | manifest | record | storeCa | storeCertificate
    | finish =>
      rw [Agent.advance, stage] at gone
      have kept : d.token = false := by
        revert gone
        dsimp only [Agent.goto, Agent.reply]
        repeat' split
        all_goals exact id
      exact absurd (there.symm.trans kept) (by decide)
    | move moved rest =>
      have kept : d.token = false := by
        rw [Agent.advance, stage] at gone
        cases rest <;> exact gone
      exact absurd (there.symm.trans kept) (by decide)
  · intro x f here gone
    rcases effect.placed x f here with still | ⟨moved, rest, stage⟩
    · exact absurd still gone
    · rw [StageOk, stage] at ok
      rw [StageFresh, stage] at fresh
      exact ⟨t, rfl, inv.kept.known p rfl ok.1.known, fresh⟩

theorem guarded_next (inv : Inv disk a) (orderly : Orderly disk a) (event : Event) :
    Guarded a (a.next nodeKey event) := by
  obtain ⟨d, service, task, recorded⟩ := a
  cases event with
  | serve readable =>
    rw [Agent.next]
    split <;> exact guarded_same rfl rfl
  | complete request stamp suffix =>
    rw [Agent.next]
    split <;> exact guarded_same rfl rfl
  | advance =>
    cases service with
    | none => exact guarded_same rfl rfl
    | some p =>
      cases task with
      | none => exact guarded_same rfl rfl
      | some t => exact guarded_advance inv (orderly.fresh t rfl)
  | fail copied | crash copied =>
    cases service with
    | none => exact guarded_same rfl rfl
    | some p =>
      cases task with
      | none => exact guarded_same rfl rfl
      | some t => exact guarded_same torn_token torn_journal

/-- In a run whose archives are not cut off between two moves, and whose completions find what
the service read at its start still true, the handover keeps its promises in every state and
in every step from there. -/
theorem handed_over (nodeKey : String) (disk : Disk) (events : List Event)
    (calm : steadyRun nodeKey (.start disk) events = true) :
    Delivered disk ((Agent.start disk).run nodeKey events) ∧
      ∀ event, Guarded ((Agent.start disk).run nodeKey events)
        (((Agent.start disk).run nodeKey events).next nodeKey event) := by
  have reached : Inv disk ((Agent.start disk).run nodeKey events) ∧
      Orderly disk ((Agent.start disk).run nodeKey events) := by
    refine ⟨inv_run disk events, ?_⟩
    rw [Agent.run]
    have inv := inv_start disk
    have orderly := orderly_start disk
    generalize Agent.start disk = a at calm inv orderly
    induction events generalizing a with
    | nil => exact orderly
    | cons event rest ih =>
      rw [steadyRun, Bool.and_eq_true] at calm
      exact ih _ calm.2 (inv_next inv event) (orderly_next inv orderly calm.1)
  generalize (Agent.start disk).run nodeKey events = a at reached
  obtain ⟨inv, orderly⟩ := reached
  refine ⟨?_, guarded_next inv orderly⟩
  refine
    { found := inv.kept.found
      enrolled := inv.kept.enrolled
      marked := fun r rest recorded => (inv.kept.marked r rest recorded).1
      owned := ?_
      together := ?_ }
  · rintro ⟨x, f, here⟩
    apply orderly.chain
    apply List.ne_nil_of_mem (a := x)
    rw [mem_present, here]
    rfl
  · intro resting
    rcases orderly.together with placed | whole | ⟨_, t, moved, rest, _, _, running, stage, _⟩
    · exact .inl placed
    · exact .inr whole
    · exact absurd stage (resting t moved rest running)

/-- An agent of another controller, with two files of its journal. -/
def left : Disk :=
  { journal := fun x => match x with
      | .main => some (.regular "fences")
      | .wal => some (.regular "wal")
      | _ => none
    archives := ∅
    marker := some "11111111-1111-4111-8111-111111111111\n"
    ca := some "old"
    certificate := none
    token := true
    previousNode := none }

def newController : Request := ⟨"22222222-2222-4222-8222-222222222222", "new", "certificate"⟩

/-- A completion that stops before its first move, and the one after the restart. -/
def stoppedEarly : List Event :=
  [.serve ⟨true, true, true⟩, .complete newController "t1" "00000001"] ++
    List.replicate 5 .advance ++ [.crash none, .serve ⟨true, true, true⟩,
      .complete newController "t2" "00000002"] ++ List.replicate 14 .advance

theorem handed_over_stoppedEarly : Delivered left ((Agent.start left).run "n1" stoppedEarly) ∧
    ∀ event, Guarded ((Agent.start left).run "n1" stoppedEarly)
      (((Agent.start left).run "n1" stoppedEarly).next "n1" event) :=
  handed_over "n1" left stoppedEarly (by decide)

/-- A completion whose second move fails, and the one that follows it. -/
def cutOff : List Event :=
  [.serve ⟨true, true, true⟩, .complete newController "t1" "00000001"] ++
    List.replicate 6 .advance ++ [.fail none, .complete newController "t2" "00000002"] ++
      List.replicate 13 .advance

/-- The handover completes with the journal in two archives. -/
theorem archives_split :
    ((Agent.start left).run "n1" cutOff).task = none ∧
      ((Agent.start left).run "n1" cutOff).disk.token = false ∧
      ¬ Placed left ((Agent.start left).run "n1" cutOff).disk ∧
      ¬ Whole left ((Agent.start left).run "n1" cutOff).disk := by
  refine ⟨by decide, by decide, ?_, ?_⟩
  · intro placed
    have here := placed .main (.regular "fences") rfl
    revert here
    decide
  · rintro ⟨name, archive, there, files⟩
    have apart : ∀ row ∈ ((Agent.start left).run "n1" cutOff).disk.archives.rows,
        row.2.files .main = none ∨ row.2.files .wal = none := by
      decide
    rcases apart _ (Table.mem_rows_iff.mpr there) with none | none
    · cases none.symm.trans (files .main (.regular "fences") rfl)
    · cases none.symm.trans (files .wal (.regular "wal") rfl)

end Handover
end NodePlane
