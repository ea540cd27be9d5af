import NodePlane.Controller.AlertIncidents

/-! Runs of the alert monitor: the notices about an incident, the order of the findings and the recovery. -/
namespace NodePlane
namespace Controller
namespace AlertScans
open Library

/-! The notices about one incident. -/

def Report.notice : Report → Option Event
  | .sent e _ => if e.resolved then none else some e
  | _ => none

/-- The notices about the standing incident. -/
def notices (past : List Report) : List Event := sinceEnd Report.notice past

/-- The row of an incident knows its last notice, and whether one was critical. -/
structure Noticed (kind : Kind) (past : List Report) (prev : Option Row) : Prop where
  none : prev = none → notices past = []
  dated : ∀ row ∈ prev, ∃ last, row.lastNotifiedAt = some last ∧ last ≤ row.lastSeenAt ∧
    ∀ e ∈ notices past, e.createdAt ≤ last ∧
      (kind = .cpuHigh → e.critical = true → row.notifiedCritical = true)

section
variable {node : NodeKey} {kind : Kind} {past es : List Report} {prev next : Option Row}

theorem notices_seen (past : List Report) (n : NodeKey) (k : Kind) (t : Int) (f : Finding) :
    notices (past ++ [.seen n k t f]) = notices past := by
  simp [notices, sinceEnd, Report.ends, Report.notice]

theorem Noticed.ended (silent : notices (past ++ es) = []) : Noticed kind (past ++ es) Option.none :=
  ⟨fun _ => silent, fun row same => by simp at same⟩

/-- A change without a notice moves the time forward and keeps what was notified. -/
theorem Noticed.moved {row row' : Row} (noticed : Noticed kind past (some row))
    (same : notices (past ++ es) = notices past) (late : row.lastSeenAt ≤ row'.lastSeenAt)
    (last : row'.lastNotifiedAt = row.lastNotifiedAt)
    (critical : kind = .cpuHigh → row.notifiedCritical = true → row'.notifiedCritical = true) :
    Noticed kind (past ++ es) (some row') := by
  refine ⟨by simp, fun row₁ isRow => ?_⟩
  cases isRow
  obtain ⟨t, isLast, le, all⟩ := noticed.dated row rfl
  refine ⟨t, last.trans isLast, Int.le_trans le late, fun e member => ?_⟩
  rw [same] at member
  exact ⟨(all e member).1, fun cpu isCritical => critical cpu ((all e member).2 cpu isCritical)⟩

theorem raised_notifiedCritical {t : Int} {f : Failure} {emit : Bool} (cpu : kind = .cpuHigh) :
    (raised t kind prev f emit).notifiedCritical = (prev.any (·.notifiedCritical) || f.critical) := by
  simp [Row.notifiedCritical, raised, cpu]

/-- A failing observation, noticed or not. -/
theorem Noticed.raised {t r : Int} {f : Failure} {emit : Bool} (noticed : Noticed kind past prev)
    (late : ∀ row ∈ prev, row.lastSeenAt ≤ t) (opens : prev = Option.none → emit = true) :
    Noticed kind (past ++ .seen node kind t .failing ::
      if emit then [.sent ⟨node, kind, false, f.value, f.critical, t⟩ r] else [])
      (some (raised t kind prev f emit)) := by
  cases emit with
  | false =>
    cases prev with
    | none => simp at opens
    | some row =>
      refine noticed.moved (notices_seen ..) (late row rfl) rfl fun cpu critical => ?_
      simp [raised_notifiedCritical cpu, critical]
  | true =>
    refine ⟨by simp, fun row isRow => ?_⟩
    cases isRow
    refine ⟨t, rfl, Int.le_refl t, fun e member => ?_⟩
    have added : e ∈ notices past ∨ e = ⟨node, kind, false, f.value, f.critical, t⟩ := by
      simpa [notices, sinceEnd, Report.ends, Report.notice] using member
    obtain member | rfl := added
    · cases prev with
      | none =>
        rw [noticed.none rfl] at member
        simp at member
      | some row =>
        obtain ⟨last, -, le, all⟩ := noticed.dated row rfl
        obtain ⟨before, critical⟩ := all e member
        refine ⟨Int.le_trans before (Int.le_trans le (late row rfl)), fun cpu isCritical => ?_⟩
        simp [raised_notifiedCritical cpu, critical cpu isCritical]
    · exact ⟨Int.le_refl t, fun cpu isCritical => by
        rw [raised_notifiedCritical cpu, show f.critical = true from isCritical, Bool.or_true]⟩

theorem Change.noticed (change : Change node kind prev es next) (noticed : Noticed kind past prev) :
    Noticed kind (past ++ es) next := by
  cases change with
  | raised late opens again => exact noticed.raised late opens
  | unknown => exact noticed.moved (notices_seen ..) (Int.le_refl _) rfl fun _ h => h
  | unhealthy late => exact noticed.moved (notices_seen ..) late rfl fun _ h => h
  | healthy late => exact noticed.moved (notices_seen ..) late rfl fun _ h => h
  | stillHealthy late => exact noticed.moved (notices_seen ..) late rfl fun _ h => h
  | recovered => exact .ended (by simp [notices, sinceEnd, Report.ends, Report.notice])
  | dropped => exact .ended (by simp [notices, sinceEnd, Report.ends, Report.notice])
  | swept => exact .ended (by simp [notices, sinceEnd, Report.ends, Report.notice])
  | retired => exact .ended (by simp [notices, sinceEnd, Report.ends, Report.notice])

theorem steps_noticed (run : Steps (Change node kind) none es next) : Noticed kind es next := by
  have start : Noticed kind [] Option.none := ⟨fun _ => rfl, fun row same => by simp at same⟩
  exact Steps.history (fun noticed change => change.noticed noticed) start run

end

/-- An event that opens or repeats an incident is what its row before asks for. -/
theorem noticed_change {node : NodeKey} {kind : Kind} {prev next : Option Row} {pre post : List Report}
    {e : Event} {r : Int} (change : Change node kind prev (pre ++ .sent e r :: post) next)
    (opened : e.resolved = false) :
    (∀ past, notices (past ++ pre) = notices past) ∧
      ∀ row ∈ prev, kind = .cpuHigh ∧ row.notifiedCritical = false ∧ e.critical = true ∨
        30 ≤ r ∧ ∀ last ∈ row.lastNotifiedAt, last + minutes r ≤ e.createdAt := by
  generalize reports : pre ++ Report.sent e r :: post = es at change
  cases change with
  | @raised _ t r' f emit late opens again =>
    cases emit with
    | false => cases pre <;> simp at reports
    | true =>
      cases pre with
      | nil => simp at reports
      | cons x pre =>
        cases pre with
        | nil =>
          simp only [List.cons_append, List.nil_append, ↓reduceIte, List.cons.injEq,
            Report.sent.injEq] at reports
          obtain ⟨rfl, ⟨rfl, rfl⟩, -⟩ := reports
          exact ⟨by simp [notices, sinceEnd, Report.ends, Report.notice], again rfl⟩
        | cons y pre => simp at reports
  | @recovered row t since r' notice late recovering long sent =>
    have member : Report.sent e r ∈ .seen node kind t .healthy :: notice ++ [.ended node kind t true] := by
      simp [← reports]
    simp only [List.cons_append, List.mem_cons, reduceCtorEq, List.mem_append, List.not_mem_nil,
      or_false, false_or] at member
    obtain ⟨value, same⟩ := sent _ member
    cases same
    simp at opened
  | unknown | unhealthy | healthy | stillHealthy | dropped | swept | retired =>
    cases pre <;> simp at reports

/-- Two notices about one incident, in any run of the monitor: the later one either raises it to critical
for the first time, or comes at least the repeat interval after the earlier one. -/
theorem notices_spaced (calls : List Call) {a b c : List Report} {e₁ e₂ : Event} {r₁ r₂ : Int}
    (reports : (run exec Db.new calls).2 = a ++ .sent e₁ r₁ :: (b ++ .sent e₂ r₂ :: c))
    (node : e₂.node = e₁.node) (kind : e₂.kind = e₁.kind) (first : e₁.resolved = false)
    (second : e₂.resolved = false)
    (standing : ∀ x ∈ b, x.about e₁.node e₁.kind = true → x.ends = false) :
    e₁.kind = .cpuHigh ∧ e₁.critical = false ∧ e₂.critical = true ∨
      30 ≤ r₂ ∧ e₁.createdAt + minutes r₂ ≤ e₂.createdAt := by
  have steps := (run_tracks calls).rows e₁.node e₁.kind
  rw [reports, story_append, story_cons _ (by simp [Report.about]), story_append,
    story_cons _ (by simp [Report.about, node, kind]), ← List.cons_append, ← List.append_assoc] at steps
  obtain ⟨past, prev, pre, post, next, before, change, split⟩ := steps.reported rfl
  have noticed := steps_noticed before
  obtain ⟨quiet, asked⟩ := noticed_change change second
  have member : e₁ ∈ notices past := by
    rw [← quiet, ← split]
    refine mem_sinceEnd rfl (by simp [Report.notice, first]) fun x inStory => ?_
    obtain ⟨inB, about⟩ := List.mem_filter.mp inStory
    exact standing x inB about
  cases prev with
  | none => simp [noticed.none rfl] at member
  | some row =>
    obtain ⟨last, isLast, -, all⟩ := noticed.dated row rfl
    obtain ⟨earlier, critical⟩ := all e₁ member
    obtain ⟨cpu, unnoticed, isCritical⟩ | ⟨repeats, due⟩ := asked row rfl
    · refine .inl ⟨cpu, ?_, isCritical⟩
      by_contra was
      rw [critical cpu (by simpa using was)] at unnoticed
      simp at unnoticed
    · have := due last isLast
      exact .inr ⟨repeats, by omega⟩

theorem notices_spaced_sample : (30 : Int) ≤ 30 ∧ 0 + minutes 30 ≤ seconds 1830 := by
  have reports : (run exec Db.new
      [enabling, scanOf "de" 0 (inspection false), scanOf "de" (seconds 1830) (inspection false)]).2 =
      [.probed "de" 0 .replied, .seen "de" (.down .awg) 0 .failing] ++
        .sent ⟨"de", .down .awg, false, none, false, 0⟩ 30 ::
          ([.swept ["de"], .probed "de" (seconds 1830) .replied,
            .seen "de" (.down .awg) (seconds 1830) .failing] ++
            .sent ⟨"de", .down .awg, false, none, false, seconds 1830⟩ 30 :: [.swept ["de"]]) := by
    decide
  exact (notices_spaced _ reports rfl rfl rfl rfl (by decide)).resolve_left (by decide)

/-! The order of the findings. -/

/-- The time of a finding with a definite observation. -/
def Report.definite : Report → Option Int
  | .seen _ _ t f => if f = .unknown then none else some t
  | _ => none

/-- The row of an incident is as late as all that was found of it. -/
def Ordered (past : List Report) (prev : Option Row) : Prop :=
  ∀ t ∈ sinceEnd Report.definite past, ∃ row ∈ prev, t ≤ row.lastSeenAt

section
variable {node : NodeKey} {kind : Kind} {past es : List Report} {prev next : Option Row}

theorem late_row {row : Row} {t : Int} (late : row.lastSeenAt ≤ t) :
    ∀ row' ∈ some row, row'.lastSeenAt ≤ t := by
  intro row' same
  cases same
  exact late

/-- One more finding is no earlier than the ones before, and the row takes its time. -/
theorem Ordered.found {row : Row} {t : Int} (ordered : Ordered past prev)
    (late : ∀ row ∈ prev, row.lastSeenAt ≤ t) (now : row.lastSeenAt = t)
    (added : ∀ t' ∈ sinceEnd Report.definite (past ++ es),
      t' ∈ sinceEnd Report.definite past ∨ t' = t) : Ordered (past ++ es) (some row) := by
  intro t' member
  refine ⟨row, rfl, ?_⟩
  rw [now]
  obtain member | rfl := added t' member
  · obtain ⟨row', same, le⟩ := ordered t' member
    exact Int.le_trans le (late row' same)
  · exact Int.le_refl _

theorem Change.ordered (change : Change node kind prev es next) (ordered : Ordered past prev) :
    Ordered (past ++ es) next := by
  cases change with
  | raised late =>
    refine ordered.found late rfl fun t' member => ?_
    split at member <;> simpa [sinceEnd, Report.ends, Report.definite] using member
  | unknown =>
    intro t' member
    obtain ⟨row, same, le⟩ := ordered t' (by simpa [sinceEnd, Report.ends, Report.definite] using member)
    cases same
    exact ⟨_, rfl, le⟩
  | unhealthy late | healthy late | stillHealthy late =>
    refine ordered.found (late_row late) rfl fun t' member => ?_
    simpa [sinceEnd, Report.ends, Report.definite] using member
  | recovered | dropped | swept | retired =>
    intro t' member
    simp [sinceEnd, Report.ends] at member

theorem steps_ordered (run : Steps (Change node kind) none es next) : Ordered es next := by
  have start : Ordered [] none := fun t member => by simp [sinceEnd] at member
  exact Steps.history (fun ordered change => change.ordered ordered) start run

theorem head_of_eq {x y : Report} {pre post rest : List Report} (same : pre ++ x :: post = y :: rest)
    (once : x ∉ rest) : pre = [] ∧ x = y := by
  cases pre with
  | nil => exact ⟨rfl, (List.cons.inj same).1⟩
  | cons z pre =>
    have inRest : x ∈ rest := by
      rw [← (List.cons.inj same).2]
      simp
    exact absurd inRest once

/-- A definite finding is no older than its row. -/
theorem found_late {pre post : List Report} {t : Int} {f : Finding}
    (change : Change node kind prev (pre ++ .seen node kind t f :: post) next) (definite : f ≠ .unknown) :
    pre = [] ∧ ∀ row ∈ prev, row.lastSeenAt ≤ t := by
  generalize reports : pre ++ Report.seen node kind t f :: post = es at change
  cases change with
  | @raised _ t' r f' emit late =>
    obtain ⟨rfl, same⟩ := head_of_eq reports (by cases emit <;> simp)
    cases same
    exact ⟨rfl, late⟩
  | unknown =>
    obtain ⟨rfl, same⟩ := head_of_eq reports (by simp)
    cases same
    simp at definite
  | unhealthy late | healthy late | stillHealthy late =>
    obtain ⟨rfl, same⟩ := head_of_eq reports (by simp)
    cases same
    exact ⟨rfl, late_row late⟩
  | @recovered row t' since r notice late recovering long sent =>
    obtain ⟨rfl, same⟩ := head_of_eq reports fun member => by
      obtain ⟨value, same⟩ := sent _ (by simpa using member)
      cases same
    cases same
    exact ⟨rfl, late_row late⟩
  | dropped | swept | retired =>
    cases (head_of_eq reports (by simp)).2

end

/-- Two definite findings about one incident, in any run of the monitor: the later commit is of the later
scan. -/
theorem findings_ordered (calls : List Call) {a b c : List Report} {node : NodeKey} {kind : Kind}
    {t₁ t₂ : Int} {f₁ f₂ : Finding}
    (reports : (run exec Db.new calls).2 =
      a ++ .seen node kind t₁ f₁ :: (b ++ .seen node kind t₂ f₂ :: c))
    (first : f₁ ≠ .unknown) (second : f₂ ≠ .unknown)
    (standing : ∀ x ∈ b, x.about node kind = true → x.ends = false) : t₁ ≤ t₂ := by
  have steps := (run_tracks calls).rows node kind
  rw [reports, story_append, story_cons _ (by simp [Report.about]), story_append,
    story_cons _ (by simp [Report.about]), ← List.cons_append, ← List.append_assoc] at steps
  obtain ⟨past, prev, pre, post, next, before, change, split⟩ := steps.reported rfl
  obtain ⟨rfl, late⟩ := found_late change second
  have member : t₁ ∈ sinceEnd Report.definite past := by
    rw [← List.append_nil past, ← split]
    refine mem_sinceEnd rfl (by simp [Report.definite, first]) fun x inStory => ?_
    obtain ⟨inB, about⟩ := List.mem_filter.mp inStory
    exact standing x inB about
  obtain ⟨row, same, le⟩ := steps_ordered before t₁ member
  exact Int.le_trans le (late row same)

theorem findings_ordered_sample : 0 ≤ seconds 30 := by
  have reports : (run exec Db.new
      [enabling, scanOf "de" 0 (inspection false), scanOf "de" (seconds 30) (inspection true)]).2 =
      [.probed "de" 0 .replied] ++ .seen "de" (.down .awg) 0 .failing ::
        ([.sent ⟨"de", .down .awg, false, none, false, 0⟩ 30, .swept ["de"],
          .probed "de" (seconds 30) .replied] ++
          .seen "de" (.down .awg) (seconds 30) .healthy :: [.swept ["de"]]) := by
    decide
  exact findings_ordered _ reports (by decide) (by decide) (by decide)

/-! Recovery. -/

/-- Healthy observations of a kind since `since`, the last one at `last`, with nothing else observed of it
and no gap over three checks. -/
inductive Recovering (node : NodeKey) (kind : Kind) : List Report → Int → Int → Prop
  | first {past : List Report} {t : Int} :
      Recovering node kind (past ++ [.seen node kind t .healthy]) t t
  | again {past : List Report} {since last t : Int} (before : Recovering node kind past since last)
      (late : last ≤ t) (gap : t - last ≤ seconds 90) :
      Recovering node kind (past ++ [.seen node kind t .healthy]) since t
  | noticed {past : List Report} {since last r : Int} {e : Event}
      (before : Recovering node kind past since last) :
      Recovering node kind (past ++ [.sent e r]) since last

/-- The healthy time of a row is the start of its recovery. -/
def Heals (node : NodeKey) (kind : Kind) (past : List Report) (prev : Option Row) : Prop :=
  ∀ row ∈ prev, ∀ since ∈ row.healthySince, Recovering node kind past since row.lastSeenAt

section
variable {node : NodeKey} {kind : Kind} {past es : List Report} {prev next : Option Row}

/-- A healthy observation goes on with a recovery that is recent enough. -/
theorem Heals.again {row : Row} {t since : Int} (heals : Heals node kind past (some row))
    (late : row.lastSeenAt ≤ t) (recovering : row.recovering t = some since) :
    Recovering node kind (past ++ [.seen node kind t .healthy]) since t := by
  obtain ⟨same, recent⟩ := Option.filter_eq_some_iff.mp recovering
  exact .again (heals row rfl since same) late (of_decide_eq_true recent)

theorem Change.heals (change : Change node kind prev es next) (heals : Heals node kind past prev) :
    Heals node kind (past ++ es) next := by
  cases change with
  | raised => intro row same since known; cases same; simp [AlertScans.raised] at known
  | unknown => intro row same since known; cases same; simp at known
  | unhealthy => intro row same since known; cases same; simp at known
  | healthy => intro row same since known; cases same; cases known; exact .first
  | @stillHealthy row t since late recovering =>
    intro row' same since' known
    cases same
    obtain ⟨same, -⟩ := Option.filter_eq_some_iff.mp recovering
    have : since' = since := by simpa [same, eq_comm] using known
    rw [this]
    exact heals.again late recovering
  | recovered | dropped | swept | retired => intro row same; simp at same

theorem steps_heals (run : Steps (Change node kind) none es next) : Heals node kind es next := by
  have start : Heals node kind [] none := fun row same => by simp at same
  exact Steps.history (fun heals change => change.heals heals) start run

end

theorem Recovering.append {node : NodeKey} {kind : Kind} {past notice : List Report} {since last : Int}
    (before : Recovering node kind past since last) (sent : ∀ x ∈ notice, ∃ e r, x = .sent e r) :
    Recovering node kind (past ++ notice) since last := by
  induction notice generalizing past with
  | nil => simpa using before
  | cons x notice ih =>
    obtain ⟨e, r, rfl⟩ := sent x (.head _)
    have next := ih (before.noticed (e := e) (r := r)) fun y member => sent y (.tail _ member)
    simpa using next

/-- The report of a recovery is the last of its change. -/
theorem recovered_change {node : NodeKey} {kind : Kind} {prev next : Option Row}
    {past pre post : List Report} {t : Int}
    (change : Change node kind prev (pre ++ .ended node kind t true :: post) next)
    (heals : Heals node kind past prev) :
    ∃ since, Recovering node kind (past ++ pre) since t ∧ seconds 30 ≤ t - since := by
  generalize reports : pre ++ Report.ended node kind t true :: post = es at change
  cases change with
  | @recovered row t' since r notice late recovering long sent =>
    have front : pre = .seen node kind t' .healthy :: notice ∧ t' = t := by
      rcases List.append_eq_append_iff.mp reports with ⟨as, front, back⟩ | ⟨bs, rfl, back⟩
      · cases as with
        | nil =>
          simp only [List.nil_append, List.cons.injEq, Report.ended.injEq] at back
          exact ⟨by simpa using front.symm, back.1.2.2.1.symm⟩
        | cons y as =>
          simp only [List.cons_append, List.cons.injEq] at back
          have member : Report.ended node kind t true ∈ .seen node kind t' .healthy :: notice := by
            rw [front, back.1]
            simp
          obtain ⟨value, same⟩ := sent _ (by simpa using member)
          simp at same
      · cases bs with
        | nil =>
          simp only [List.nil_append, List.cons.injEq, Report.ended.injEq] at back
          exact ⟨by simp, back.1.2.2.1⟩
        | cons y bs => simp at back
    obtain ⟨rfl, rfl⟩ := front
    refine ⟨since, ?_, long⟩
    have notices : ∀ x ∈ notice, ∃ e r, x = .sent e r := by
      intro x member
      obtain ⟨value, same⟩ := sent x member
      exact ⟨_, _, same⟩
    simpa using (heals.again late recovering).append notices
  | @raised _ t' r f emit late opens again =>
    have member : Report.ended node kind t true ∈ pre ++ .ended node kind t true :: post := by simp
    rw [reports] at member
    cases emit <;> simp at member
  | unknown | unhealthy | healthy | stillHealthy | dropped | swept | retired =>
    cases pre <;> simp at reports

/-- An incident ends as recovered, in any run of the monitor, only where healthy observations of its kind,
one after another and nothing else between, go back thirty seconds. -/
theorem recovery_confirmed (calls : List Call) {a c : List Report} {node : NodeKey} {kind : Kind} {t : Int}
    (reports : (run exec Db.new calls).2 = a ++ .ended node kind t true :: c) :
    ∃ since, Recovering node kind (story node kind a) since t ∧ seconds 30 ≤ t - since := by
  have steps := (run_tracks calls).rows node kind
  rw [reports, story_append, story_cons _ (by simp [Report.about])] at steps
  obtain ⟨past, prev, pre, post, next, before, change, split⟩ := steps.reported rfl
  rw [split]
  exact recovered_change change (steps_heals before)

theorem recovery_confirmed_sample :
    ∃ since, Recovering "de" (.down .awg) (story "de" (.down .awg)
      [.probed "de" 0 .replied, .seen "de" (.down .awg) 0 .failing,
        .sent ⟨"de", .down .awg, false, none, false, 0⟩ 30, .swept ["de"],
        .probed "de" (seconds 30) .replied, .seen "de" (.down .awg) (seconds 30) .healthy,
        .swept ["de"], .probed "de" (seconds 60) .replied,
        .seen "de" (.down .awg) (seconds 60) .healthy,
        .sent ⟨"de", .down .awg, true, none, false, seconds 60⟩ 30]) since (seconds 60) ∧
      seconds 30 ≤ seconds 60 - since := by
  have reports : (run exec Db.new
      [enabling, scanOf "de" 0 (inspection false), scanOf "de" (seconds 30) (inspection true),
        scanOf "de" (seconds 60) (inspection true)]).2 =
      [.probed "de" 0 .replied, .seen "de" (.down .awg) 0 .failing,
        .sent ⟨"de", .down .awg, false, none, false, 0⟩ 30, .swept ["de"],
        .probed "de" (seconds 30) .replied, .seen "de" (.down .awg) (seconds 30) .healthy,
        .swept ["de"], .probed "de" (seconds 60) .replied,
        .seen "de" (.down .awg) (seconds 60) .healthy,
        .sent ⟨"de", .down .awg, true, none, false, seconds 60⟩ 30] ++
        .ended "de" (.down .awg) (seconds 60) true :: [.swept ["de"]] := by
    decide
  exact recovery_confirmed _ reports

end AlertScans
end Controller
end NodePlane
