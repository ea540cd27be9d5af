import NodePlane.Controller.LoginSteps

/-! Logins over whole runs: one account for a key, one current login for an account, the hold of
a login given up and the time between own changes. -/
namespace NodePlane
namespace Logins
open Library
open Accounts (of_check)

/-- Accounts in deletion have no current login, the others one if they ever had. -/
structure Inv (db : Db) (now : ℕ) : Prop extends Facts db now where
  inactive : ∀ key row, db.rows.lookup key = some row → row.account ∈ db.deleting →
    row.releasedAt ≠ none
  rooted : ∀ key row, db.rows.lookup key = some row → row.account ∉ db.deleting →
    ∃ key' row', db.rows.lookup key' = some row' ∧ row'.account = row.account ∧
      row'.releasedAt = none

section Inv
variable {db : Db} {now account : ℕ} {key : String} {row : Row} {rows : Rows}

theorem Inv.later {later : ℕ} (inv : Inv db now) (le : now ≤ later) : Inv db later :=
  { inv.toFacts.later le with
    inactive := inv.inactive
    rooted := inv.rooted }

theorem inv_initial : Inv Db.initial 0 := by
  have nothing {key row} : Db.initial.rows.lookup key ≠ some row := nofun
  constructor
  · constructor
    · intro key row found
      exact absurd found nothing
    · intro key row found
      exact absurd found nothing
    · intro key row at' found
      exact absurd found nothing
    · intro key key' row row' found
      exact absurd found nothing
    · intro account key at' gave
      cases gave
    · intro account key at' gave
      cases gave
    · intro account key at' changed
      cases changed
    · trivial
    · exact List.Pairwise.nil
  · intro key row found
    exact absurd found nothing
  · intro key row found
    exact absurd found nothing

/-- A deletion begins. -/
theorem Inv.begun (inv : Inv db now) (account : ℕ) : Inv (db.begin account now) now := by
  refine { (inv.toFacts.deleting account).released account with inactive := ?_, rooted := ?_ }
  · intro key row found gone
    obtain ⟨old, found', owner, given, _, released⟩ := lookup_released found
    rcases List.mem_cons.mp gone with here | gone
    · exact given (owner.symm.trans here)
    · exact released (inv.inactive key old found' (owner ▸ gone))
  · intro key row found stays
    obtain ⟨old, found', owner, _, _, _⟩ := lookup_released found
    obtain ⟨apart, stays⟩ := not_or.mp (mt List.mem_cons.mpr stays)
    obtain ⟨key', row', found'', owner', current⟩ := inv.rooted key old found' (owner ▸ stays)
    refine ⟨key', row', ?_, owner'.trans owner.symm, current⟩
    rw [Db.begin, release, Table.lookup_mapRows, found'', Option.map_some, if_neg]
    rintro ⟨here, -⟩
    exact apart (owner.trans (owner'.symm.trans here))

/-- A login is taken by an account that has none, the others keeping theirs. -/
theorem Facts.takes {login : String} (kind : Kind) (facts : Facts db now)
    (active : account ∉ db.deleting)
    (inactive : ∀ key row, db.rows.lookup key = some row → row.account ∈ db.deleting →
      row.releasedAt ≠ none)
    (rooted : ∀ key row, db.rows.lookup key = some row → row.account ∉ db.deleting →
      row.account ≠ account → ∃ key' row', db.rows.lookup key' = some row' ∧
        row'.account = row.account ∧ row'.releasedAt = none)
    (fits : pattern login = true) (free : available db.rows login.toLower account now = true)
    (none : ∀ key row, db.rows.lookup key = some row → row.account = account →
      row.releasedAt ≠ none)
    (keeps : kind ≠ .change → ∀ row, db.rows.lookup login.toLower = some row →
      row.account = account → row.kind = .change → row.claimedAt + changeEvery ≤ now)
    (looks : ∀ other, rows.lookup other =
      if other = login.toLower then some ⟨login, account, kind, now, Option.none⟩
      else db.rows.lookup other) :
    Inv { db with rows := rows, events := .took account login.toLower now :: db.events } now := by
  have taken := (looks login.toLower).trans (if_pos rfl)
  refine { facts.took fits free none keeps looks with inactive := ?_, rooted := ?_ }
  · intro key row found gone
    have found' := (looks key).symm.trans found
    split at found'
    · cases found'
      exact absurd gone active
    · exact inactive key row found' gone
  · intro key row found stays
    by_cases mine : row.account = account
    · exact ⟨_, _, taken, mine.symm, rfl⟩
    · have found' := (looks key).symm.trans found
      split at found'
      · cases found'
        exact absurd rfl mine
      obtain ⟨key', row', found'', owner, current⟩ := rooted key row found' stays mine
      refine ⟨key', row', ?_, owner, current⟩
      rw [looks, if_neg]
      · exact found''
      -- What is overwritten is no current login.
      · rintro rfl
        obtain own | ⟨at', released, _⟩ := available_row free found''
        · exact mine (owner.symm.trans own)
        · cases current.symm.trans released

/-- A claim, by the account itself or an administrator. -/
theorem Inv.claimed {login : String} {kind : Kind} (inv : Inv db now)
    (active : account ∉ db.deleting) (ok : claim db.rows account login kind now = .ok rows)
    (apart : kind = .change → ∀ previous row, currentRow db.rows account = some (previous, row) →
      previous ≠ login.toLower → ∀ key at', .changed account key at' ∈ db.events →
        at' + changeEvery ≤ now)
    (keeps : kind ≠ .change → ∀ row, db.rows.lookup login.toLower = some row →
      row.account = account → row.kind = .change → row.releasedAt ≠ none →
        row.claimedAt + changeEvery ≤ now) :
    Inv (db.claimed account login kind now rows) now := by
  obtain ⟨fits, free, took⟩ := claim_ok ok
  unfold Db.claimed claimEvents
  cases took with
  | first none looks =>
    have nothing : ∀ key row, db.rows.lookup key = some row → row.account = account →
        row.releasedAt ≠ Option.none := fun key row found owns => currentRow_none none found owns
    rw [none]
    exact inv.toFacts.takes kind active inv.inactive
      (fun key row found stays _ => inv.rooted key row found stays) fits free nothing
      (fun own row found mine change => keeps own row found mine change (nothing _ _ found mine))
      looks
  | same old held looks =>
    obtain ⟨found, rfl, current⟩ := currentRow_some held
    rw [held]
    dsimp only
    rw [if_pos rfl]
    refine { inv.toFacts.cased fits found looks with inactive := ?_, rooted := ?_ }
    · intro key row found' gone
      rw [looks] at found'
      split at found'
      · cases found'
        exact absurd gone active
      · exact inv.inactive key row found' gone
    · intro key row found' stays
      have owner : ∃ row₀, db.rows.lookup key = some row₀ ∧ row₀.account = row.account := by
        rw [looks] at found'
        split at found'
        next same =>
          cases found'
          exact ⟨old, same ▸ found, rfl⟩
        · exact ⟨row, found', rfl⟩
      obtain ⟨row₀, found₀, owner⟩ := owner
      obtain ⟨key', row', found'', owner', current'⟩ := inv.rooted key row₀ found₀ (owner ▸ stays)
      by_cases here : key' = login.toLower
      · subst here
        cases found.symm.trans found''
        exact ⟨_, _, (looks _).trans (if_pos rfl), owner'.trans owner, current'⟩
      · exact ⟨key', row', (looks key').trans ((if_neg here).trans found''), owner'.trans owner,
          current'⟩
  | moved previous old held apart' looks =>
    obtain ⟨found, owns, current⟩ := currentRow_some held
    have given := inv.toFacts.released account
    have looked := lookup_release inv.toFacts held
    have here : (release db.rows account now).lookup login.toLower = db.rows.lookup login.toLower :=
      (looked _).trans (if_neg apart'.symm)
    have gone : ∀ key row, (release db.rows account now).lookup key = some row →
        row.account = account → row.releasedAt ≠ none := by
      intro key row found mine
      obtain ⟨old, _, owner, given, _⟩ := lookup_released found
      exact given (owner.symm.trans mine)
    have taken : Inv ⟨rows, db.deleting, .took account login.toLower now ::
        (releaseEvents db.rows account now ++ db.events)⟩ now := by
      refine given.takes kind active ?_ ?_ fits ?_ gone ?_ ?_
      · intro key row found deleted
        obtain ⟨old, found', owner, _, _, released⟩ := lookup_released found
        exact released (inv.inactive key old found' (owner ▸ deleted))
      · intro key row found stays other
        obtain ⟨old, found', owner, _⟩ := lookup_released found
        obtain ⟨key', row', found'', owner', current'⟩ := inv.rooted key old found' (owner ▸ stays)
        refine ⟨key', row', ?_, owner'.trans owner.symm, current'⟩
        show (release db.rows account now).lookup key' = some row'
        rw [release, Table.lookup_mapRows, found'', Option.map_some, if_neg]
        rintro ⟨mine, -⟩
        exact other (owner.trans (owner'.symm.trans mine))
      · show available (release db.rows account now) login.toLower account now = true
        rw [available, here]
        exact free
      · intro own row found mine change
        have found' := here.symm.trans found
        refine keeps own row found' mine change ?_
        exact gone _ row found mine
      · intro other
        rw [looks, looked]
    have events : releaseEvents db.rows account now = [.gave account previous now] := by
      rw [releaseEvents, held]
    rw [events] at taken
    rw [held]
    dsimp only
    rw [if_neg apart']
    by_cases own : kind = .change
    · rw [if_pos own]
      have changed := taken.toFacts.changed ((looks login.toLower).trans (if_pos rfl)) own rfl ?_
      · exact { changed with inactive := taken.inactive, rooted := taken.rooted }
      · intro key at' before
        have before : .changed account key at' ∈ db.events := by simpa using before
        exact apart own previous old held apart' key at' before
    · rw [if_neg own]
      exact taken

/-- The login of an account moves to one without, and the account's deletion begins. -/
theorem Inv.merged {main other : ℕ} (inv : Inv db now) (apart : main ≠ other)
    (active : main ∉ db.deleting) : Inv ((db.move main other).begin other now) now := by
  unfold Db.move
  split
  next key row none held =>
    obtain ⟨found, rfl, current⟩ := currentRow_some held
    have looks (other' : String) : (db.rows.mapRows fun _ row' =>
        if row'.account = row.account ∧ row'.releasedAt = Option.none then
          { row' with account := main } else row').lookup other' =
        if other' = key then some { row with account := main } else db.rows.lookup other' := by
      rw [Table.lookup_mapRows]
      by_cases same : other' = key
      · subst same
        rw [found, if_pos rfl, Option.map_some, if_pos ⟨rfl, current⟩]
      · rw [if_neg same]
        cases found' : db.rows.lookup other' with
        | none => rfl
        | some row' =>
          rw [Option.map_some, if_neg]
          rintro ⟨owns, current'⟩
          exact same (inv.single other' key row' row found' found current' current owns)
    have facts := ((inv.toFacts.deleting row.account).handed found List.mem_cons_self
      (fun key row found owns => currentRow_none none found owns) looks).released row.account
    refine { facts with inactive := ?_, rooted := ?_ }
    · intro key' row' found' gone
      obtain ⟨old, found₀, owner, given, _, released⟩ := lookup_released found'
      rcases List.mem_cons.mp gone with here | gone
      · exact given (owner.symm.trans here)
      · rw [looks] at found₀
        split at found₀
        · cases found₀
          rw [owner] at gone
          exact absurd gone active
        · exact released (inv.inactive key' old found₀ (owner ▸ gone))
    · intro key' row' found' stays
      obtain ⟨old, found₀, owner, _⟩ := lookup_released found'
      obtain ⟨elsewhere, stays⟩ := not_or.mp (mt List.mem_cons.mpr stays)
      have rooted : ∃ key₂ row₂, (db.rows.mapRows fun _ row' =>
          if row'.account = row.account ∧ row'.releasedAt = Option.none then
            { row' with account := main } else row').lookup key₂ = some row₂ ∧
          row₂.account = row'.account ∧ row₂.releasedAt = Option.none := by
        have before := found₀
        rw [looks] at before
        split at before
        · cases before
          exact ⟨key', _, found₀, owner.symm, current⟩
        · obtain ⟨key₂, row₂, found₂, owner₂, current₂⟩ :=
            inv.rooted key' old before (owner ▸ stays)
          refine ⟨key₂, row₂, ?_, owner₂.trans owner.symm, current₂⟩
          rw [looks, if_neg]
          · exact found₂
          · rintro rfl
            cases found.symm.trans found₂
            exact elsewhere (owner.trans owner₂.symm)
      obtain ⟨key₂, row₂, found₂, owner₂, current₂⟩ := rooted
      refine ⟨key₂, row₂, ?_, owner₂, current₂⟩
      show (release _ _ _).lookup key₂ = some row₂
      rw [release, Table.lookup_mapRows, found₂, Option.map_some, if_neg]
      rintro ⟨mine, -⟩
      exact elsewhere (owner₂.symm.trans mine)
  · exact inv.begun other

end Inv

section Step
variable {lower : String → String} {db next : Db} {now : ℕ}

theorem inv_step (lowers : ∀ login, pattern login = true → lower login = login.toLower)
    (inv : Inv db now) {op : Op} (careful : db.careful (now, op) = true)
    (ok : db.step lower now op = .ok next) : Inv next now := by
  cases op with
  | join account login =>
    obtain ⟨fresh, ok⟩ := of_check ok
    obtain ⟨rows, claimed, ok⟩ := bind_ok.mp ok
    cases ok
    have none {key row} (found : db.rows.lookup key = some row) : row.account ≠ account := by
      intro mine
      exact fresh (.inr (Table.has_iff.mpr ⟨key, row, found, decide_eq_true mine⟩))
    refine inv.claimed (fun gone => fresh (.inl gone)) claimed nofun ?_
    intro _ row found mine
    exact absurd mine (none found)
  | setOwn account login =>
    obtain ⟨active, ok⟩ := of_check ok
    obtain ⟨rows, own, ok⟩ := bind_ok.mp ok
    cases ok
    have ⟨soon, claimed⟩ := of_check own
    refine inv.claimed active claimed ?_ ?_
    · intro _ previous row held apart key at' before
      obtain ⟨found, owns, _⟩ := currentRow_some held
      obtain ⟨fits, named⟩ := inv.keyed previous row found
      have differs : (current db.rows account).any (fun had => lower had != lower login) = true := by
        rw [current, held, Option.map_some, Option.any_some, lowers _ fits,
          lowers _ (claim_ok claimed).1, ← named]
        simpa using apart
      have free : changeAvailableAt db.rows account now = none := by
        simpa [differs] using soon
      by_contra early
      obtain gone | ⟨key', row', found', owns', kind, since⟩ :=
        inv.recorded account key at' before (Nat.lt_of_not_le early)
      · exact active gone
      · have := change_available free found' owns' kind
        omega
    · intro own row found mine
      have none : currentRow db.rows account = none := by
        by_contra held
        apply own
        rw [if_neg]
        simpa [current] using held
      obtain ⟨key', row', found', owner, current'⟩ := inv.rooted _ row found (mine ▸ active)
      exact absurd current' (currentRow_none none found' (owner.trans mine))
  | update account login =>
    obtain ⟨active, ok⟩ := of_check ok
    split at ok
    · cases ok
      exact inv
    obtain ⟨rows, claimed, ok⟩ := bind_ok.mp ok
    cases ok
    refine inv.claimed active claimed nofun ?_
    intro _ row found mine change released
    rw [Db.careful, found, Option.all_some] at careful
    by_contra early
    simp [mine, change, Option.isSome_iff_ne_none.mpr released, Nat.lt_of_not_le early] at careful
  | begin account =>
    cases ok
    exact inv.begun account
  | merge main other =>
    obtain ⟨apart, ok⟩ := of_check ok
    cases ok
    simp only [not_or] at apart
    exact inv.merged apart.1 apart.2.1

theorem inv_run (lowers : ∀ login, pattern login = true → lower login = login.toLower)
    {calls : List (ℕ × Op)} {db : Db} {now : ℕ} (inv : Inv db now)
    (ordered : ((now :: calls.map Prod.fst).Pairwise (· ≤ ·))) (careful : Careful lower db calls) :
    ∃ last, Inv (db.run lower calls) last := by
  induction calls generalizing db now with
  | nil => exact ⟨now, inv⟩
  | cons call rest ih =>
    obtain ⟨above, ordered⟩ := List.pairwise_cons.mp ordered
    have inv := inv.later (above call.1 List.mem_cons_self)
    have stepped : Inv (db.after lower call) call.1 := by
      unfold Db.after
      split
      next next done => exact inv_step lowers inv careful.1 done
      · exact inv
    exact ih stepped ordered careful.2

/-- A key belongs to one account, an account has one current login, a login given up stays held
for thirty days and own changes are thirty days apart, as long as no administrator gives an
account back a login that records a recent change of its own. -/
theorem logins_kept (lowers : ∀ login, pattern login = true → lower login = login.toLower)
    (calls : List (ℕ × Op)) (ordered : (calls.map Prod.fst).Pairwise (· ≤ ·))
    (careful : Careful lower Db.initial calls) : Limits (Db.initial.run lower calls) := by
  obtain ⟨last, inv⟩ := inv_run lowers inv_initial
    (List.pairwise_cons.mpr ⟨fun at' _ => Nat.zero_le at', ordered⟩) careful
  constructor
  · intro key key' row row' found found' same
    have named := (inv.keyed key row found).2.trans (same.trans (inv.keyed key' row' found').2.symm)
    subst named
    exact Option.some.inj (found.symm.trans found')
  · exact inv.single
  · exact inv.held
  · exact inv.spaced

end Step

/-- Two accounts: a change, an administrator's change, a hold that runs out, a merge. -/
def sampleCalls : List (ℕ × Op) :=
  [(0, .join 1 "anna"), (1, .setOwn 1 "bert"), (2, .update 1 "cora"), (3, .setOwn 1 "dora"),
    (4, .join 2 "anna"), (2592001, .join 2 "Anna"), (2592002, .setOwn 1 "dora"),
    (2592003, .begin 1), (2592004, .merge 3 2)]

theorem logins_kept_sample : Limits (Db.initial.run String.toLower sampleCalls) ∧
    (Db.initial.run String.toLower sampleCalls).events =
      [.moved 2 "anna" 3, .gave 1 "dora" 2592003, .changed 1 "dora" 2592002,
        .took 1 "dora" 2592002, .gave 1 "cora" 2592002, .took 2 "anna" 2592001,
        .took 1 "cora" 2, .gave 1 "bert" 2, .changed 1 "bert" 1, .took 1 "bert" 1,
        .gave 1 "anna" 1, .took 1 "anna" 0] :=
  ⟨logins_kept (fun _ _ => rfl) sampleCalls (by decide) (by decide +kernel), by decide +kernel⟩

/-- An administrator who gives an account its former login back erases the change. -/
theorem given_back_change_erased : ¬ ∀ (lower : String → String) (calls : List (ℕ × Op)),
    (∀ login, pattern login = true → lower login = login.toLower) →
      (calls.map Prod.fst).Pairwise (· ≤ ·) → Limits (Db.initial.run lower calls) := by
  intro kept
  have limits := kept String.toLower [(0, .join 1 "anna"), (1, .setOwn 1 "bert"),
    (2, .update 1 "cora"), (3, .update 1 "bert"), (4, .setOwn 1 "dora")] (fun _ _ => rfl) (by decide)
  have events : (Db.initial.run String.toLower [(0, .join 1 "anna"), (1, .setOwn 1 "bert"),
      (2, .update 1 "cora"), (3, .update 1 "bert"), (4, .setOwn 1 "dora")]).events =
      [.changed 1 "dora" 4, .took 1 "dora" 4, .gave 1 "bert" 4, .took 1 "bert" 3, .gave 1 "cora" 3,
        .took 1 "cora" 2, .gave 1 "bert" 2, .changed 1 "bert" 1, .took 1 "bert" 1, .gave 1 "anna" 1,
        .took 1 "anna" 0] := by decide +kernel
  have spaced := limits.spaced
  rw [events] at spaced
  have apart := (List.pairwise_cons.mp spaced).1 (.changed 1 "bert" 1) (by simp) 1 "dora" "bert" 4 1
    rfl rfl
  revert apart
  decide

end Logins
end NodePlane
