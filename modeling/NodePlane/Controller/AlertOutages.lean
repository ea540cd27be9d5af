import NodePlane.Controller.AlertIncidents

/-! Runs of the alert monitor: the probes of a node, and the silence that confirms an outage. -/
namespace NodePlane
namespace Controller
namespace AlertScans
open Library

/-! Outages. -/

/-- The reports about the reachability of a node. -/
def Report.contact (node : NodeKey) : Report → Bool
  | .probed n _ _ | .retired n => n = node
  | .seen n k _ f => n = node && k = .nodeUnreachable && f = .failing
  | _ => false

def contacts (node : NodeKey) (past : List Report) : List Report := past.filter (Report.contact node)

/-- The changes of a node's last reply and its candidate for an outage. -/
inductive Contact (node : NodeKey) :
    Option Int × Option Candidate → List Report → Option Int × Option Candidate → Prop
  | replied {reachable : Option Int} {c : Option Candidate} {t : Int}
      (late : ∀ at' ∈ reachable, at' ≤ t) :
      Contact node (reachable, c) [.probed node t .replied] (some t, none)
  | unclear {reachable : Option Int} {c : Option Candidate} {t : Int} :
      Contact node (reachable, c) [.probed node t .unclear] (reachable, none)
  | noContact {reachable : Option Int} {c : Option Candidate} {t : Int}
      (late : ∀ at' ∈ reachable, at' < t) :
      Contact node (reachable, c)
        (.probed node t .noContact ::
          if (Candidate.next t c).confirmed t then [.seen node .nodeUnreachable t .failing] else [])
        (reachable, some (Candidate.next t c))
  | disabled {reachable : Option Int} {c : Option Candidate} :
      Contact node (reachable, c) [] (reachable, none)
  | retired {last : Option Int × Option Candidate} :
      Contact node last [.retired node] (none, none)

theorem contacts_append (node : NodeKey) (a b : List Report) :
    contacts node (a ++ b) = contacts node a ++ contacts node b := List.filter_append ..

theorem contacts_cons {node : NodeKey} {x : Report} (rest : List Report) (contact : x.contact node = true) :
    contacts node (x :: rest) = x :: contacts node rest := List.filter_cons_of_pos contact

section
variable {s : Db} {scan : Scan} {v : Visit} {skip : Kind → Bool} {r : Reading} {kind : Kind}

theorem recover_contacts {t : Int} {n : NodeKey} {row : Row} (node : NodeKey) :
    contacts node (recover s t n kind r row).2 = [] := by
  unfold recover
  split
  · simp [contacts, Report.contact]
  · split
    · split <;> simp [contacts, Report.contact]
    · simp [contacts, Report.contact]

theorem settle_contacts {row : Row} (node : NodeKey) :
    contacts node (settle s scan v skip r kind row).2 = [] := by
  unfold settle
  repeat' split
  · rfl
  · rfl
  · simp [contacts, Report.contact]
  · exact recover_contacts node
  · simp [contacts, Report.contact]

theorem reply_noContact : r.reply = .noContact ↔ (r.failures .nodeUnreachable).isSome = true := by
  unfold Reading.reply
  split
  · next fails => simp [fails]
  · next fine => split <;> simp [fine]

/-- The finding of an outage, where the reading has one. -/
def outage (node : NodeKey) (t : Int) (r : Reading) : List Report :=
  if (r.failures .nodeUnreachable).isSome then [.seen node .nodeUnreachable t .failing] else []

theorem stepKind_contacts (node : NodeKey) :
    contacts node (stepKind s scan v skip r kind).2 =
      if v.node = node ∧ kind = .nodeUnreachable then outage v.node scan.timestamp r else [] := by
  unfold stepKind
  split
  · next failure fails =>
    have sent : ∀ (b : Bool) (e : Event) (m : Int),
        contacts node (if b then [.sent e m] else []) = [] := by
      intro b e m
      cases b <;> rfl
    split
    · next here =>
      obtain ⟨rfl, rfl⟩ := here
      rw [contacts_cons _ (by simp [Report.contact]), sent]
      simp [outage, fails]
    · next other =>
      rw [contacts, List.filter_cons_of_neg (by simpa [Report.contact] using other), ← contacts, sent]
  · next fine =>
    have silent : (if v.node = node ∧ kind = .nodeUnreachable then outage v.node scan.timestamp r
        else []) = [] := by
      split
      · next here => simp [outage, ← here.2, fine]
      · rfl
    rw [silent]
    dsimp only
    split
    · rfl
    · exact settle_contacts node

/-- The reachability of a node changes as its reply says. -/
theorem probe_contact {n : NodeKey} {b : Bool} (skipped : b = true → r.failures .nodeUnreachable = none)
    (fast : scan.cpuOnly = true → r.failures .nodeUnreachable = none)
    (late : b = false → ∀ at' ∈ s.reachableAt n, at' ≤ scan.timestamp ∧
      ((r.failures .nodeUnreachable).isSome → at' < scan.timestamp)) :
    Steps (Contact n) (s.reachableAt n, s.candidate n)
      ((probe s scan n b r).reports ++ outage n scan.timestamp (probe s scan n b r).reading)
      ((probe s scan n b r).reachableAt, (probe s scan n b r).candidate) := by
  unfold probe
  split
  · next skips =>
    have none : r.failures .nodeUnreachable = none := by
      obtain skips | skips := Bool.or_eq_true_iff.mp skips
      · exact skipped skips
      · exact fast (Bool.and_eq_true_iff.mp skips).1
    simpa [outage, none] using Steps.refl _
  · next considered =>
    have late := late (Bool.or_eq_false_iff.mp (Bool.eq_false_iff.mpr considered)).1
    dsimp only
    split
    · next replied =>
      have fine : ¬(r.failures .nodeUnreachable).isSome = true := by
        rw [← reply_noContact, replied]
        simp
      simp only [outage, fine, Bool.false_eq_true, ↓reduceIte, List.append_nil, replied]
      exact .single (.replied fun at' same => (late at' same).1)
    · next unclear =>
      have fine : ¬(r.failures .nodeUnreachable).isSome = true := by
        rw [← reply_noContact, unclear]
        simp
      simp only [outage, fine, Bool.false_eq_true, ↓reduceIte, List.append_nil, unclear]
      exact .single .unclear
    · next noContact =>
      have fails := reply_noContact.mp noContact
      have reports : outage n scan.timestamp
          (if (Candidate.next scan.timestamp (s.candidate n)).confirmed scan.timestamp then r
            else r.unconfirmed) =
          if (Candidate.next scan.timestamp (s.candidate n)).confirmed scan.timestamp then
            [.seen n .nodeUnreachable scan.timestamp .failing] else [] := by
        split <;> simp [outage, fails, Reading.unconfirmed]
      rw [reports, noContact]
      exact .single (.noContact fun at' same => (late at' same).2 fails)

end

section
variable {s : Db} {scan : Scan} {v : Visit} {past : List Report}

/-- Every node's reachability goes through its changes. -/
def Watches (past : List Report) (s : Db) : Prop :=
  ∀ node, Steps (Contact node) (none, none) (contacts node past) (s.reachableAt node, s.candidate node)

/-- A scan that is not ignored for the reachability of a node is no older than its last reply. -/
theorem not_ignored_reply {n : NodeKey} {r : Reading}
    (considered : ignored s scan n r .nodeUnreachable = false) :
    ∀ at' ∈ s.reachableAt n, at' ≤ scan.timestamp ∧
      ((r.failures .nodeUnreachable).isSome → at' < scan.timestamp) := by
  intro at' same
  simp only [ignored, ↓reduceIte, Bool.or_eq_false_iff, Option.mem_def.mp same, Option.any_some,
    decide_eq_false_iff_not] at considered
  obtain ⟨⟨notLater, notSame⟩, -⟩ := considered
  refine ⟨by omega, fun fails => ?_⟩
  simp only [fails, Bool.and_true, decide_eq_false_iff_not] at notSame
  omega

theorem visit_contacts (stands : v.stands = true) (node : NodeKey) :
    let skip := ignored s scan v.node (scan.reading v)
    let p := probe s scan v.node (skip .nodeUnreachable) ((scan.reading v).without skip)
    contacts node (visit scan s v).2 =
      if v.node = node then p.reports ++ outage node scan.timestamp p.reading else [] := by
  intro skip p
  have own : contacts node p.reports = if v.node = node then p.reports else [] := by
    unfold p probe
    split
    · simp [contacts]
    · dsimp only
      by_cases here : v.node = node <;> split <;> simp [contacts, Report.contact, here]
  simp only [visit, stands, Bool.not_true, Bool.false_eq_true, ↓reduceIte]
  rw [contacts_append, contacts, contacts, List.filter_flatMap, ← contacts,
    Kind.all_flatMap .nodeUnreachable]
  · rw [own, ← contacts, stepKind_contacts]
    by_cases here : v.node = node
    · simp [here, p, skip]
    · simp [here]
  · intro k other
    rw [← contacts, stepKind_contacts]
    simp [other]

theorem visit_watches (watches : Watches past s) :
    Watches (past ++ (visit scan s v).2) (visit scan s v).1 := by
  by_cases stands : v.stands = true
  case neg => simpa [visit, stands] using watches
  intro node
  rw [contacts_append, visit_contacts stands node]
  by_cases here : v.node = node
  · subst here
    rw [if_pos rfl]
    refine (watches v.node).trans ?_
    simp only [visit, stands, Bool.not_true, Bool.false_eq_true, ↓reduceIte]
    refine probe_contact (fun skips => by simp [Reading.without, skips]) (fun fast => ?_)
      fun considered => ?_
    · by_contra fails
      have := without_failures (Option.isSome_iff_ne_none.mpr fails)
      rw [Scan.reading, if_pos fast] at this
      simpa [Kind.fast] using observeCpu_fast this.2
    · intro at' same
      obtain ⟨le, lt⟩ := not_ignored_reply considered at' same
      exact ⟨le, fun fails => lt (without_failures fails).2⟩
  · rw [if_neg here, List.append_nil]
    simpa [visit, stands, Ne.symm here] using watches node

theorem exec_watches (c : Call) (watches : Watches past s) :
    Watches (past ++ (exec s c).2) (exec s c).1 := by
  cases c with
  | scan scan =>
    simp only [exec, scheduled]
    split
    · simpa using watches
    · have done : Watches (past ++ (run (visit scan) s scan.visits).2) (run (visit scan) s scan.visits).1 :=
        run_invariant _ (fun past s v watches => visit_watches watches) watches scan.visits
      intro node
      have none : contacts node [.swept scan.monitorable] = [] := rfl
      rw [← List.append_assoc, contacts_append, none, List.append_nil]
      exact done node
  | preferences changes =>
    simp only [exec]
    split
    · simpa using watches
    · next policy _ =>
      intro node
      rw [List.append_nil]
      dsimp only
      split
      · exact watches node
      · simpa using (watches node).trans (.single .disabled)
  | retire node =>
    intro key
    simp only [exec, retireNode, contacts_append]
    by_cases here : key = node
    · subst here
      rw [contacts_cons _ (by simp [Report.contact]), if_pos rfl, if_pos rfl]
      exact (watches key).trans (.single .retired)
    · simpa [contacts, Report.contact, here, Ne.symm here] using watches key

theorem run_watches (calls : List Call) :
    Watches (run exec Db.new calls).2 (run exec Db.new calls).1 := by
  have start : Watches [] Db.new := fun _ => .refl _
  exact run_invariant Watches (fun _ _ c watches => exec_watches c watches) start calls

end

def replyAfter (before : List Int) : Report → List Int
  | .probed _ t .replied => before ++ [t]
  | .retired _ => []
  | _ => before

/-- The times of the replies of a node, from its contacts; a node that is removed starts anew. -/
def replies (past : List Report) : List Int := past.foldl replyAfter []

/-- Probes of a node without contact since `since`, the last one at `last`: every reply is older than the
first, nothing else is heard of the node between, and no gap is over three checks. -/
inductive Silent (node : NodeKey) : List Report → Int → Int → Prop
  | first {past : List Report} {t : Int} (earlier : ∀ at' ∈ replies past, at' < t) :
      Silent node (past ++ [.probed node t .noContact]) t t
  | again {past : List Report} {since last t : Int} (before : Silent node past since last)
      (late : last ≤ t) (gap : t - last ≤ seconds 90) :
      Silent node (past ++ [.probed node t .noContact]) since t
  | found {past : List Report} {since last t : Int} (before : Silent node past since last) :
      Silent node (past ++ [.seen node .nodeUnreachable t .failing]) since last

/-- The stored reply is the latest, and the candidate the start of the silence. -/
structure Silence (node : NodeKey) (past : List Report) (last : Option Int × Option Candidate) : Prop where
  latest : ∀ t ∈ replies past, ∃ at' ∈ last.1, t ≤ at'
  silent : ∀ c ∈ last.2, Silent node past c.since c.lastAt

section
variable {node : NodeKey} {past es : List Report} {last next : Option Int × Option Candidate}

/-- One more probe without contact. -/
theorem Silence.further {reachable : Option Int} {c : Option Candidate} {t : Int}
    (silence : Silence node past (reachable, c)) (late : ∀ at' ∈ reachable, at' < t) :
    Silent node (past ++ [.probed node t .noContact]) (Candidate.next t c).since t ∧
      (Candidate.next t c).lastAt = t := by
  unfold Candidate.next
  split
  · next c' continuous =>
    obtain ⟨same, recent⟩ := Option.filter_eq_some_iff.mp continuous
    obtain ⟨after, gap⟩ := Bool.and_eq_true_iff.mp recent
    have after := of_decide_eq_true after
    exact ⟨.again (silence.silent c' same) (by omega) (of_decide_eq_true gap), rfl⟩
  · refine ⟨.first fun at' member => ?_, rfl⟩
    obtain ⟨last, isLast, le⟩ := silence.latest at' member
    have := late last isLast
    omega

theorem Contact.silence (change : Contact node last es next) (silence : Silence node past last) :
    Silence node (past ++ es) next := by
  cases change with
  | @replied reachable c t late =>
    refine ⟨fun at' member => ⟨t, rfl, ?_⟩, fun c same => by simp at same⟩
    simp only [replies, List.foldl_append, List.foldl_cons, List.foldl_nil, replyAfter, List.mem_append,
      List.mem_cons, List.not_mem_nil, or_false] at member
    obtain member | rfl := member
    · obtain ⟨last, isLast, le⟩ := silence.latest at' member
      exact Int.le_trans le (late last isLast)
    · exact Int.le_refl _
  | unclear =>
    refine ⟨fun at' member => silence.latest at' ?_, fun c same => by simp at same⟩
    simpa [replies, replyAfter] using member
  | @noContact reachable c t late =>
    obtain ⟨silent, lastAt⟩ := silence.further late
    refine ⟨fun at' member => silence.latest at' ?_, fun c' same => ?_⟩
    · split at member <;> simpa [replies, replyAfter] using member
    · cases same
      rw [lastAt]
      split
      · simpa using silent.found (t := t)
      · exact silent
  | disabled => exact ⟨by simpa using silence.latest, fun c same => by simp at same⟩
  | retired =>
    refine ⟨fun at' member => ?_, fun c same => by simp at same⟩
    simp [replies, replyAfter] at member

theorem steps_silence (run : Steps (Contact node) (none, none) es next) : Silence node es next := by
  have start : Silence node [] (none, none) :=
    ⟨fun t member => by simp [replies] at member, fun c same => by simp at same⟩
  exact Steps.history (fun silence change => change.silence silence) start run

/-- An outage is found where the silence has been confirmed. -/
theorem found_change {pre post : List Report} {t : Int}
    (change : Contact node last (pre ++ .seen node .nodeUnreachable t .failing :: post) next)
    (silence : Silence node past last) :
    ∃ since, Silent node (past ++ pre) since t ∧ seconds 30 ≤ t - since := by
  generalize reports : pre ++ Report.seen node .nodeUnreachable t .failing :: post = es at change
  cases change with
  | @noContact reachable c t' late =>
    split at reports
    · next confirmed =>
      cases pre with
      | nil => simp at reports
      | cons x pre =>
        cases pre with
        | nil =>
          simp only [List.cons_append, List.nil_append, List.cons.injEq, Report.seen.injEq] at reports
          obtain ⟨rfl, ⟨-, -, rfl, -⟩, -⟩ := reports
          exact ⟨_, (silence.further late).1, of_decide_eq_true confirmed⟩
        | cons y pre => simp at reports
    · cases pre <;> simp at reports
  | replied | unclear | retired | disabled => cases pre <;> simp at reports

end

/-- A node is found unreachable, in any run of the monitor, only where probes without contact, one after
another and no reply since, go back thirty seconds. -/
theorem outage_confirmed (calls : List Call) {a c : List Report} {node : NodeKey} {t : Int}
    (reports : (run exec Db.new calls).2 = a ++ .seen node .nodeUnreachable t .failing :: c) :
    ∃ since, Silent node (contacts node a) since t ∧ seconds 30 ≤ t - since := by
  have steps := run_watches calls node
  rw [reports, contacts_append, contacts_cons _ (by simp [Report.contact])] at steps
  obtain ⟨past, last, pre, post, next, before, change, split⟩ := steps.reported rfl
  rw [split]
  exact found_change change (steps_silence before)

theorem outage_confirmed_sample :
    ∃ since, Silent "de" (contacts "de" [.probed "de" 0 .noContact, .swept ["de"],
      .probed "de" (seconds 30) .noContact]) since (seconds 30) ∧
      seconds 30 ≤ seconds 30 - since := by
  have reports : (run exec Db.new
      [enabling, scanOf "de" 0 .noContact, scanOf "de" (seconds 30) .noContact]).2 =
      [.probed "de" 0 .noContact, .swept ["de"], .probed "de" (seconds 30) .noContact] ++
        .seen "de" .nodeUnreachable (seconds 30) .failing ::
          [.sent ⟨"de", .nodeUnreachable, false, none, false, seconds 30⟩ 30, .swept ["de"]] := by
    decide
  exact outage_confirmed _ reports

end AlertScans
end Controller
end NodePlane
