import NodePlane.Controller.AlertScans

/-! The incidents of the alert monitor: every commit takes an incident through changes of its own, whatever
the order in which fast and full scans are committed. -/
namespace NodePlane
namespace Controller
namespace AlertScans
open Library

/-- The reports that concern the incident of a kind on a node. -/
def Report.about (node : NodeKey) (kind : Kind) : Report → Bool
  | .probed .. => false
  | .seen n k _ _ | .ended n k _ _ => n = node && k = kind
  | .sent e _ => e.node = node && e.kind = kind
  | .swept kept => node ∉ kept
  | .retired n => n = node

def story (node : NodeKey) (kind : Kind) (past : List Report) : List Report :=
  past.filter (Report.about node kind)

/-- The changes of one incident, with what they report of it. -/
inductive Change (node : NodeKey) (kind : Kind) : Option Row → List Report → Option Row → Prop
  | raised {prev : Option Row} {t r : Int} {f : Failure} {emit : Bool}
      (late : ∀ row ∈ prev, row.lastSeenAt ≤ t) (opens : prev = none → emit = true)
      (again : emit = true → ∀ row ∈ prev,
        kind = .cpuHigh ∧ row.notifiedCritical = false ∧ f.critical = true ∨
          30 ≤ r ∧ ∀ last ∈ row.lastNotifiedAt, last + minutes r ≤ t) :
      Change node kind prev
        (.seen node kind t .failing ::
          if emit then [.sent ⟨node, kind, false, f.value, f.critical, t⟩ r] else [])
        (some (raised t kind prev f emit))
  | unknown {row : Row} {t : Int} :
      Change node kind (some row) [.seen node kind t .unknown]
        (some { row with healthySince := none })
  | unhealthy {row : Row} {t : Int} (late : row.lastSeenAt ≤ t) :
      Change node kind (some row) [.seen node kind t .unhealthy]
        (some { row with healthySince := none, lastSeenAt := t })
  | healthy {row : Row} {t : Int} (late : row.lastSeenAt ≤ t) :
      Change node kind (some row) [.seen node kind t .healthy]
        (some { row with healthySince := some t, lastSeenAt := t })
  | stillHealthy {row : Row} {t since : Int} (late : row.lastSeenAt ≤ t)
      (recovering : row.recovering t = some since) :
      Change node kind (some row) [.seen node kind t .healthy] (some { row with lastSeenAt := t })
  | recovered {row : Row} {t since r : Int} {notice : List Report} (late : row.lastSeenAt ≤ t)
      (recovering : row.recovering t = some since) (long : seconds 30 ≤ t - since)
      (notices : ∀ x ∈ notice, ∃ value, x = .sent ⟨node, kind, true, value, false, t⟩ r) :
      Change node kind (some row)
        (.seen node kind t .healthy :: notice ++ [.ended node kind t true]) none
  | dropped {row : Row} {t : Int} : Change node kind (some row) [.ended node kind t false] none
  | swept {prev : Option Row} {kept : List NodeKey} (out : node ∉ kept) :
      Change node kind prev [.swept kept] none
  | retired {prev : Option Row} : Change node kind prev [.retired node] none

/-! What a scan does to one incident. -/

theorem story_append (node : NodeKey) (kind : Kind) (a b : List Report) :
    story node kind (a ++ b) = story node kind a ++ story node kind b := List.filter_append ..

theorem story_cons {node : NodeKey} {kind : Kind} {x : Report} (rest : List Report)
    (about : x.about node kind = true) : story node kind (x :: rest) = x :: story node kind rest :=
  List.filter_cons_of_pos about

theorem Kind.all_flatMap {α : Type} (kind : Kind) (G : Kind → List α)
    (other : ∀ k, k ≠ kind → G k = []) : Kind.all.flatMap G = G kind := by
  have one : Kind.all.flatMap G = Kind.all.flatMap fun k => if k = kind then G kind else [] := by
    congr 1
    funext k
    by_cases h : k = kind
    · simp [h]
    · simp [h, other k h]
  rw [one]
  cases kind with
  | down p => cases p <;> simp [Kind.all]
  | _ => simp [Kind.all]

section
variable {s : Db} {scan : Scan} {v : Visit} {skip : Kind → Bool} {r : Reading} {kind : Kind}

theorem recover_about {t : Int} {n : NodeKey} {row : Row} {node : NodeKey} {k : Kind} :
    ∀ x ∈ (recover s t n kind r row).2, x.about node k = (n = node && kind = k) := by
  unfold recover
  split
  · simp [Report.about]
  · split
    · split <;> simp [Report.about]
    · simp [Report.about]

theorem settle_about {row : Row} {node : NodeKey} {k : Kind} :
    ∀ x ∈ (settle s scan v skip r kind row).2, x.about node k = (v.node = node && kind = k) := by
  unfold settle
  repeat' split
  · simp
  · simp [Report.about]
  · simp [Report.about]
  · exact recover_about
  · simp [Report.about]

theorem stepKind_about {node : NodeKey} {k : Kind} :
    ∀ x ∈ (stepKind s scan v skip r kind).2, x.about node k = (v.node = node && kind = k) := by
  unfold stepKind
  split
  · intro x member
    simp only [List.mem_cons] at member
    obtain rfl | member := member
    · rfl
    · split at member
      · simp only [List.mem_cons, List.not_mem_nil, or_false] at member
        rw [member, Report.about]
      · simp at member
  · dsimp only
    split
    · simp
    · exact settle_about

theorem story_stepKind (node : NodeKey) (k : Kind) :
    story node k (stepKind s scan v skip r kind).2 =
      if v.node = node ∧ kind = k then (stepKind s scan v skip r kind).2 else [] := by
  unfold story
  split
  · next same =>
    refine List.filter_eq_self.mpr fun x member => ?_
    simp [stepKind_about x member, same]
  · next other =>
    refine List.filter_eq_nil_iff.mpr fun x member => ?_
    simpa [stepKind_about x member] using other

/-- A recovery is a change of the incident. -/
theorem recover_change {row : Row} {t : Int} {n : NodeKey} (late : row.lastSeenAt ≤ t) :
    Change n kind (some row) (recover s t n kind r row).2 (recover s t n kind r row).1 := by
  unfold recover
  split
  · exact .healthy late
  · next since recovering =>
    split
    · next long =>
      refine .recovered late recovering long (r := s.policy.repeatMinutes) fun x member => ?_
      split at member
      · simp only [List.mem_cons, List.not_mem_nil, or_false] at member
        exact ⟨_, member⟩
      · simp at member
    · exact .stillHealthy late recovering

theorem settle_change {row : Row}
    (late : skip kind = false → (scan.cpuOnly = false ∨ kind.fastObserved = true) →
      row.lastSeenAt ≤ scan.timestamp) :
    Steps (Change v.node kind) (some row) (settle s scan v skip r kind row).2
      (settle s scan v skip r kind row).1 := by
  unfold settle
  split
  · exact .refl _
  · next considered =>
    simp only [Bool.or_eq_true, Bool.and_eq_true, Bool.not_eq_true', not_or, not_and,
      Bool.not_eq_true, Bool.not_eq_false] at considered
    have late : row.lastSeenAt ≤ scan.timestamp := by
      refine late considered.1 ?_
      cases slow : scan.cpuOnly
      · exact .inl rfl
      · exact .inr (considered.2 slow)
    split
    · exact .single .dropped
    · split
      · exact .single .unknown
      · split
        · exact .single (recover_change late)
        · exact .single (.unhealthy late)

theorem shouldEmit_some {t : Int} {n : NodeKey} {row : Row} {f : Failure}
    (emit : shouldEmit s t n kind (some row) f = true) :
    kind = .cpuHigh ∧ row.notifiedCritical = false ∧ f.critical = true ∨
      30 ≤ s.policy.repeatMinutes ∧
        ∀ last ∈ row.lastNotifiedAt, last + minutes s.policy.repeatMinutes ≤ t := by
  simp only [shouldEmit, Bool.or_eq_true, Bool.and_eq_true, decide_eq_true_eq, Bool.not_eq_true'] at emit
  obtain ⟨⟨cpu, quiet⟩, critical⟩ | ⟨repeats, due⟩ := emit
  · exact .inl ⟨cpu, quiet, critical⟩
  · have choice := s.policy.choice
    simp only [repeatChoices, List.mem_cons, List.not_mem_nil, or_false] at choice
    refine .inr ⟨by omega, fun last same => ?_⟩
    simpa [lastNotified, Option.mem_def.mp same] using due

theorem recover_seen {t : Int} {n : NodeKey} {row row' : Row}
    (after : (recover s t n kind r row).1 = some row') : row'.lastSeenAt = t := by
  unfold recover at after
  split at after
  · cases after; rfl
  · split at after
    · simp at after
    · cases after; rfl

/-- An incident keeps its time unless the scan observes its kind. -/
theorem settle_seen {row row' : Row} (after : (settle s scan v skip r kind row).1 = some row') :
    row'.lastSeenAt = row.lastSeenAt ∨ row'.lastSeenAt = scan.timestamp ∧
      (scan.cpuOnly = false ∨ kind.fastObserved = true) := by
  unfold settle at after
  split at after
  · cases after; exact .inl rfl
  · next considered =>
    have speed : scan.cpuOnly = false ∨ kind.fastObserved = true := by
      cases slow : scan.cpuOnly
      · exact .inl rfl
      · have both : skip kind = false ∧ kind.fastObserved = true := by
          simpa [slow] using considered
        exact .inr both.2
    split at after
    · simp at after
    · split at after
      · cases after; exact .inl rfl
      · split at after
        · exact .inr ⟨recover_seen after, speed⟩
        · cases after; exact .inr ⟨rfl, speed⟩

theorem stepKind_seen {row : Row}
    (failing : (r.failures kind).isSome → scan.cpuOnly = false ∨ kind.fastObserved = true)
    (after : (stepKind s scan v skip r kind).1 = some row) :
    (∃ prev, s.rows v.node kind = some prev ∧ row.lastSeenAt = prev.lastSeenAt) ∨
      row.lastSeenAt = scan.timestamp ∧ (scan.cpuOnly = false ∨ kind.fastObserved = true) := by
  unfold stepKind at after
  split at after
  · next failure fails =>
    cases after
    exact .inr ⟨rfl, failing (by simp [fails])⟩
  · dsimp only at after
    split at after
    · simp at after
    · next prev same =>
      obtain kept | seen := settle_seen after
      · exact .inl ⟨prev, same, kept⟩
      · exact .inr seen

/-- The effect of a commit on one incident is a change of it, or none. -/
theorem stepKind_change
    (failing : (r.failures kind).isSome → skip kind = false ∧
      (scan.cpuOnly = false ∨ kind.fastObserved = true))
    (late : ∀ row ∈ s.rows v.node kind, skip kind = false →
      (scan.cpuOnly = false ∨ kind.fastObserved = true) → row.lastSeenAt ≤ scan.timestamp) :
    Steps (Change v.node kind) (s.rows v.node kind) (stepKind s scan v skip r kind).2
      (stepKind s scan v skip r kind).1 := by
  unfold stepKind
  split
  · next failure fails =>
    have considered := failing (by simp [fails])
    refine .single (.raised (fun row same => late row same considered.1 considered.2)
      (fun none => ?_) fun emit row same => ?_)
    · simp [none, shouldEmit]
    · rw [Option.mem_def.mp same] at emit
      have := shouldEmit_some emit
      rwa [Option.mem_def.mp same]
  · dsimp only
    split
    · next none => rw [none]; exact .refl _
    · next row same =>
      rw [same]
      exact settle_change (late row same)

end

/-- The incidents of a run change one at a time, and the kinds that only full scans observe are never
newer than `limit`, the last of these. -/
structure Tracks (limit : Option Int) (past : List Report) (s : Db) : Prop where
  rows : ∀ node kind, Steps (Change node kind) none (story node kind past) (s.rows node kind)
  behind : ∀ node kind row, s.rows node kind = some row → kind.fastObserved = false →
    ∃ last ∈ limit, row.lastSeenAt ≤ last

section
variable {s : Db} {scan : Scan} {v : Visit} {kind : Kind} {limit : Option Int} {past : List Report}

theorem observeCpu_fast {a : Answer} (fails : ((observeCpu a).failures kind).isSome) :
    kind.fast = true := by
  by_contra slow
  cases a <;> simp [observeCpu, Reading.nothing, slow] at fails

theorem without_failures {r : Reading} {skip : Kind → Bool}
    (fails : ((r.without skip).failures kind).isSome) :
    skip kind = false ∧ (r.failures kind).isSome := by
  simp only [Reading.without] at fails
  split at fails
  · simp at fails
  · next considered => exact ⟨by simpa using considered, fails⟩

theorem probe_failures {n : NodeKey} {b : Bool} {r : Reading}
    (fails : ((probe s scan n b r).reading.failures kind).isSome) : (r.failures kind).isSome := by
  unfold probe at fails
  split at fails
  · exact fails
  · dsimp only at fails
    split at fails
    · exact fails
    · exact fails
    · split at fails
      · exact fails
      · simp only [Reading.unconfirmed] at fails
        split at fails
        · simp at fails
        · exact fails

theorem story_probe {n : NodeKey} {b : Bool} {r : Reading} (node : NodeKey) (k : Kind) :
    story node k (probe s scan n b r).reports = [] := by
  unfold probe
  split
  · rfl
  · dsimp only
    split <;> rfl

theorem fast_observed (fast : kind.fast = true) : kind.fastObserved = true := by
  cases kind <;> simp_all [Kind.fast, Kind.fastObserved]

/-- A scan that is not ignored for a kind is no older than its incident. -/
theorem not_ignored {n : NodeKey} {r : Reading} (considered : ignored s scan n r kind = false)
    (observed : kind.fastObserved = true) : ∀ row ∈ s.rows n kind, row.lastSeenAt ≤ scan.timestamp := by
  intro row same
  have later : (s.rows n kind).any (fun row => scan.timestamp < row.lastSeenAt) = false := by
    unfold ignored at considered
    dsimp only at considered
    split at considered
    · exact (Bool.or_eq_false_iff.mp considered).2
    · next other =>
      have fast : kind.fast = true := by cases kind <;> simp_all [Kind.fastObserved]
      rw [fast, Bool.true_and] at considered
      exact (Bool.or_eq_false_iff.mp considered).2
  rw [Option.mem_def.mp same] at later
  simpa using later

theorem visit_rows (stands : v.stands = true) (node : NodeKey) (kind : Kind) :
    ∃ skip r, skip = ignored s scan v.node (scan.reading v) ∧
      (∀ k, (r.failures k).isSome → skip k = false ∧ ((scan.reading v).failures k).isSome) ∧
      (visit scan s v).1.rows node kind =
        (if node = v.node then (stepKind s scan v skip r kind).1 else s.rows node kind) ∧
      story node kind (visit scan s v).2 =
        if node = v.node then (stepKind s scan v skip r kind).2 else [] := by
  refine ⟨ignored s scan v.node (scan.reading v),
    (probe s scan v.node (ignored s scan v.node (scan.reading v) .nodeUnreachable)
      ((scan.reading v).without (ignored s scan v.node (scan.reading v)))).reading,
    rfl, fun k fails => without_failures (probe_failures fails), ?_, ?_⟩
  · simp [visit, stands]
  · simp only [visit, stands, Bool.not_true, Bool.false_eq_true, ↓reduceIte]
    rw [story_append, story_probe, List.nil_append, story, List.filter_flatMap,
      Kind.all_flatMap kind]
    · rw [← story, story_stepKind]
      simp [eq_comm]
    · intro k other
      rw [← story, story_stepKind]
      simp [other]

/-- One node of a commit keeps the incidents on their changes. -/
theorem visit_tracks (full : scan.cpuOnly = false → limit = some scan.timestamp)
    (tracks : Tracks limit past s) :
    Tracks limit (past ++ (visit scan s v).2) (visit scan s v).1 := by
  by_cases stands : v.stands = true
  case neg => simpa [visit, stands] using tracks
  have late : ∀ kind, ignored s scan v.node (scan.reading v) kind = false →
      (scan.cpuOnly = false ∨ kind.fastObserved = true) →
      ∀ row ∈ s.rows v.node kind, row.lastSeenAt ≤ scan.timestamp := by
    intro kind considered speed row same
    cases observed : kind.fastObserved
    · obtain ⟨last, isLast, le⟩ := tracks.behind _ _ _ (Option.mem_def.mp same) observed
      rw [full (by simpa [observed] using speed)] at isLast
      rwa [Option.mem_some_iff.mp isLast]
    · exact not_ignored considered observed row same
  have speed : ∀ kind, ((scan.reading v).failures kind).isSome →
      scan.cpuOnly = false ∨ kind.fastObserved = true := by
    intro kind fails
    cases fast : scan.cpuOnly
    · exact .inl rfl
    · rw [Scan.reading, if_pos fast] at fails
      exact .inr (fast_observed (observeCpu_fast fails))
  refine ⟨fun node kind => ?_, fun node kind row same slow => ?_⟩
  · obtain ⟨skip, r, rfl, failing, rows, reports⟩ := visit_rows stands node kind
    rw [story_append, rows, reports]
    split
    · next here =>
      subst here
      refine (tracks.rows _ kind).trans (stepKind_change (fun fails => ?_)
        fun row same considered observed => late kind considered observed row same)
      exact ⟨(failing kind fails).1, speed kind (failing kind fails).2⟩
    · simpa using tracks.rows node kind
  · obtain ⟨skip, r, rfl, failing, rows, reports⟩ := visit_rows stands node kind
    rw [rows] at same
    split at same
    · next here =>
      subst here
      obtain ⟨prev, before, le⟩ | ⟨now, observed⟩ :=
        stepKind_seen (fun fails => speed kind (failing kind fails).2) same
      · rw [le]
        exact tracks.behind _ kind prev before slow
      · refine ⟨scan.timestamp, ?_, Int.le_of_eq now⟩
        rw [full (by simpa [slow] using observed)]
        rfl
    · exact tracks.behind node kind row same slow

end

theorem scheduled_tracks {s : Db} {past : List Report} (scan : Scan) (tracks : Tracks s.lastScan past s) :
    Tracks (scheduled s scan).1.lastScan (past ++ (scheduled s scan).2) (scheduled s scan).1 := by
  unfold scheduled
  split
  · simpa using tracks
  · next admitted =>
    -- a full scan is later than the last one, and so than every incident of a slow kind
    have later : Tracks (if scan.cpuOnly then s.lastScan else some scan.timestamp) past s := by
      refine ⟨tracks.rows, fun node kind row same slow => ?_⟩
      obtain ⟨last, isLast, le⟩ := tracks.behind node kind row same slow
      cases speed : scan.cpuOnly
      · refine ⟨scan.timestamp, by simp, Int.le_trans le ?_⟩
        simp only [Bool.or_eq_true, not_or, Db.committed, speed, Bool.false_eq_true, ↓reduceIte,
          Option.mem_def.mp isLast, Option.any_some, decide_eq_true_eq] at admitted
        omega
      · exact ⟨last, by simpa using isLast, le⟩
    have limit : scan.cpuOnly = false →
        (if scan.cpuOnly then s.lastScan else some scan.timestamp) = some scan.timestamp := by
      intro full
      simp [full]
    have done : Tracks (if scan.cpuOnly then s.lastScan else some scan.timestamp)
        (past ++ (run (visit scan) s scan.visits).2) (run (visit scan) s scan.visits).1 :=
      run_invariant _ (fun past s v tracks => visit_tracks limit tracks) later scan.visits
    refine ⟨fun node kind => ?_, fun node kind row same slow => ?_⟩
    · dsimp only
      rw [← List.append_assoc, story_append]
      by_cases monitorable : node ∈ scan.monitorable
      · simpa [monitorable, story, Report.about] using done.rows node kind
      · have out : story node kind [.swept scan.monitorable] = [.swept scan.monitorable] := by
          simp [story, Report.about, monitorable]
        rw [out, if_neg monitorable]
        exact (done.rows node kind).trans (.single (.swept monitorable))
    · dsimp only at same
      split at same
      · exact done.behind node kind row same slow
      · simp at same

theorem exec_tracks {s : Db} {past : List Report} (c : Call) (tracks : Tracks s.lastScan past s) :
    Tracks (exec s c).1.lastScan (past ++ (exec s c).2) (exec s c).1 := by
  cases c with
  | scan scan => exact scheduled_tracks scan tracks
  | preferences changes =>
    simp only [exec]
    split
    · simpa using tracks
    · rw [List.append_nil]
      exact ⟨tracks.rows, tracks.behind⟩
  | retire node =>
    refine ⟨fun key kind => ?_, fun key kind row same slow => ?_⟩
    · simp only [exec, retireNode, story_append]
      by_cases here : key = node
      · subst here
        have own : story key kind [.retired key] = [.retired key] := by simp [story, Report.about]
        rw [own, if_pos rfl]
        exact (tracks.rows key kind).trans (.single .retired)
      · simpa [story, Report.about, here, Ne.symm here] using tracks.rows key kind
    · simp only [exec, retireNode] at same
      split at same
      · simp at same
      · exact tracks.behind key kind row same slow

/-- In every run of the monitor each incident goes through its changes, in the order of the reports. -/
theorem run_tracks (calls : List Call) :
    Tracks (run exec Db.new calls).1.lastScan (run exec Db.new calls).2 (run exec Db.new calls).1 := by
  have start : Tracks Db.new.lastScan [] Db.new :=
    ⟨fun _ _ => .refl _, fun _ _ _ same => by simp [Db.new] at same⟩
  exact run_invariant (fun past s => Tracks s.lastScan past s)
    (fun past s c tracks => exec_tracks c tracks) start calls

/-- The report ends the incident it is about. -/
def Report.ends : Report → Bool
  | .ended .. | .swept _ | .retired _ => true
  | _ => false

/-- What the reports since the last end of an incident hold, from its story. -/
def sinceEnd {α : Type} (pick : Report → Option α) (past : List Report) : List α :=
  past.foldl (fun before x => if x.ends then [] else before ++ (pick x).toList) []

theorem mem_sinceEnd {α : Type} {pick : Report → Option α} {a b : List Report} {x : Report} {y : α}
    (notEnd : x.ends = false) (picked : pick x = some y) (standing : ∀ z ∈ b, z.ends = false) :
    y ∈ sinceEnd pick (a ++ x :: b) := by
  have kept : ∀ before, y ∈ before →
      y ∈ b.foldl (fun before x => if x.ends then [] else before ++ (pick x).toList) before := by
    induction b with
    | nil => exact fun _ member => member
    | cons z b ih =>
      intro before member
      refine ih (fun w inB => standing w (.tail _ inB)) _ ?_
      simp only [standing z (.head _), Bool.false_eq_true, ↓reduceIte]
      exact List.mem_append_left _ member
  rw [sinceEnd, List.foldl_append, List.foldl_cons]
  exact kept _ (by simp [notEnd, picked])

/-- A full scan of one node that runs AmneziaWG. -/
def scanOf (node : NodeKey) (timestamp : Int) (answer : Answer) : Call :=
  .scan ⟨timestamp, false, [⟨node, [.awg], answer, true⟩], [node], false⟩

/-- An inspection that finds the service running or not, without metrics. -/
def inspection (running : Bool) : Answer :=
  .inspected (fun _ => some running) ⟨none, none, none, none, none, none⟩

def enabling : Call := .preferences ⟨some true, none, none, some 30⟩

end AlertScans
end Controller
end NodePlane
