import NodePlane.Library.ListEdit
import NodePlane.Controller.VpnPolicies

/-! A resolved value is that of the most specific source. -/
namespace NodePlane
namespace Policies
open Library

/-- What a stored value or a tariff says for a key of a target, with its rank: device over profile
over tariff over installation, then a node's protocol over the node over every node. -/
inductive Source (db : Db) (target : Target) (name : String) : Rank → Json → Prop
  | installation {scope : Scope} {row : Row} :
    db.policies.lookup ⟨.installation, scope, name⟩ = some row → scope.covers target = true →
    Source db target name (toLex (0, scope.rank)) row.value
  | tariff {id : ℕ} {value : Json} : target.profile = some id →
    (db.profileValues id).lookup name = some value →
    Source db target name (toLex (1, 0)) value
  | profile {id : ℕ} {scope : Scope} {row : Row} : target.profile = some id →
    db.policies.lookup ⟨.profile id, scope, name⟩ = some row → scope.covers target = true →
    Source db target name (toLex (2, scope.rank)) row.value
  | device {id : ℕ} {scope : Scope} {row : Row} : target.device = some id →
    db.policies.lookup ⟨.device id, scope, name⟩ = some row → scope.covers target = true →
    Source db target name (toLex (3, scope.rank)) row.value

/-- The value of the highest source, or the default without one. -/
def MostSpecific (db : Db) (target : Target) (name : String) (default value : Json) : Prop :=
  (∃ rank, Source db target name rank value ∧
    ∀ rank' value', Source db target name rank' value' → rank' ≤ rank) ∨
  (∀ rank' value', ¬ Source db target name rank' value') ∧ value = default

/-- Scopes that cover one target are told apart by their rank. -/
theorem covers_rank {target : Target} {a b : Scope} (covers : a.covers target = true)
    (covers' : b.covers target = true) (same : a.rank = b.rank) : a = b := by
  cases a with
  | everywhere => cases b <;> first | rfl | cases same
  | node key =>
    cases b with
    | node key' =>
      simp only [Scope.covers, decide_eq_true_eq] at covers covers'
      rw [covers] at covers'
      cases covers'
      rfl
    | everywhere => cases same
    | nodeProtocol key' protocol => cases same
  | nodeProtocol key protocol =>
    cases b with
    | nodeProtocol key' protocol' =>
      simp only [Scope.covers, Bool.and_eq_true, decide_eq_true_eq] at covers covers'
      rw [covers.1, covers.2] at covers'
      obtain ⟨⟨⟩, ⟨⟩⟩ := covers'
      rfl
    | everywhere => cases same
    | node key' => cases same

theorem source_unique {db : Db} {target : Target} {name : String} {rank : Rank} {v w : Json}
    (first : Source db target name rank v) (second : Source db target name rank w) : v = w := by
  have ranks {a b c d : ℕ} (same : (toLex (a, b) : Rank) = toLex (c, d)) : a = c ∧ b = d := by
    cases same
    exact ⟨rfl, rfl⟩
  generalize eq : rank = r at second
  cases first with
  | installation held covers =>
    cases second with
    | installation held' covers' =>
      obtain rfl := covers_rank covers covers' (ranks eq).2
      rw [held] at held'
      cases held'
      rfl
    | tariff | profile | device => cases (ranks eq).1
  | tariff known held =>
    cases second with
    | tariff known' held' =>
      rw [known] at known'
      cases known'
      rw [held] at held'
      cases held'
      rfl
    | installation | profile | device => cases (ranks eq).1
  | profile known held covers =>
    cases second with
    | profile known' held' covers' =>
      obtain rfl := covers_rank covers covers' (ranks eq).2
      rw [known] at known'
      cases known'
      rw [held] at held'
      cases held'
      rfl
    | installation | tariff | device => cases (ranks eq).1
  | device known held covers =>
    cases second with
    | device known' held' covers' =>
      obtain rfl := covers_rank covers covers' (ranks eq).2
      rw [known] at known'
      cases known'
      rw [held] at held'
      cases held'
      rfl
    | installation | tariff | profile => cases (ranks eq).1

/-- The most specific value is one. -/
theorem MostSpecific.unique {db : Db} {target : Target} {name : String} {default v w : Json}
    (first : MostSpecific db target name default v) (second : MostSpecific db target name default w) :
    v = w := by
  obtain ⟨rank, source, top⟩ | ⟨none, rfl⟩ := first
  · obtain ⟨rank', source', top'⟩ | ⟨none, rfl⟩ := second
    · obtain rfl := le_antisymm (top _ _ source') (top' _ _ source)
      exact source_unique source source'
    · exact absurd source (none _ _)
  · obtain ⟨rank', source', top'⟩ | ⟨-, rfl⟩ := second
    · exact absurd source' (none _ _)
    · rfl

/-! The pass gives it. -/

/-- What a row offers for a key. -/
def rowOffer (target : Target) (name : String) (subjectRank : ℕ) (row : Place × Row) :
    Option (Rank × Json) :=
  if row.1.key = name ∧ row.1.scope.covers target = true then
    some (toLex (subjectRank, row.1.scope.rank), row.2.value)
  else none

/-- What a layer offers for a key. -/
def offers (db : Db) (target : Target) (name : String) (layer : Layer × ℕ) : List (Rank × Json) :=
  match layer.1 with
  | .rows subject => (db.rowsOf subject).filterMap (rowOffer target name layer.2)
  | .tariff profile =>
    ((db.profileValues profile).lookup name).toList.map fun value => (toLex (layer.2, 0), value)

theorem offers_rank {db : Db} {target : Target} {name : String} {layer : Layer × ℕ} {o : Rank × Json}
    (offered : o ∈ offers db target name layer) : (ofLex o.1).1 = layer.2 := by
  obtain ⟨layer, order⟩ := layer
  cases layer with
  | rows subject =>
    obtain ⟨row, -, offered⟩ := List.mem_filterMap.mp offered
    rw [rowOffer] at offered
    split at offered
    · cases offered
      rfl
    · cases offered
  | tariff profile =>
    obtain ⟨value, -, same⟩ := List.mem_map.mp offered
    cases same
    rfl

section Pass
variable {names : List String} {target : Target} {name : String} (listed : name ∈ names)
include listed

theorem considerRow_at {best : Best} (subjectRank : ℕ) (row : Place × Row) :
    considerRow names target subjectRank best row name =
      (rowOffer target name subjectRank row).toList.foldl Incumbent.offer (best name) := by
  by_cases offered : row.1.key = name ∧ row.1.scope.covers target = true
  · obtain ⟨same, covers⟩ := offered
    rw [rowOffer, if_pos ⟨same, covers⟩, considerRow, if_neg (not_not.mpr (same ▸ listed)), covers,
      if_neg (by decide)]
    subst same
    dsimp only [Option.toList_some, List.foldl_cons, List.foldl_nil]
    cases held : best row.1.key with
    | none => exact Function.update_self _ _ _
    | some incumbent =>
      obtain ⟨rank, value⟩ := incumbent
      dsimp only [Incumbent.offer]
      split
      · exact Function.update_self _ _ _
      · exact held
  · rw [rowOffer, if_neg offered]
    show considerRow names target subjectRank best row name = best name
    unfold considerRow
    split
    · rfl
    · split
      · rfl
      next covers =>
        have other : ∀ rank value, best.assign row.1.key rank value name = best name := by
          intro rank value
          refine Function.update_of_ne (fun same => offered ⟨same.symm, ?_⟩) _ _
          simpa using covers
        dsimp only
        cases held : best row.1.key with
        | none => exact other _ _
        | some incumbent =>
          dsimp only
          split
          · exact other _ _
          · rfl

theorem considerRows_at {best : Best} (subjectRank : ℕ) (rows : List (Place × Row)) :
    rows.foldl (considerRow names target subjectRank) best name =
      (rows.filterMap (rowOffer target name subjectRank)).foldl Incumbent.offer (best name) := by
  induction rows generalizing best with
  | nil => rfl
  | cons row rest ih =>
    rw [List.foldl_cons, ih, considerRow_at listed, List.filterMap_cons]
    cases rowOffer target name subjectRank row <;> rfl

/-- Keys of a tariff are unique, so at most one of its values is assigned. -/
theorem considerTariff_at {best : Best} (subjectRank : ℕ) {items : List (String × Json)}
    (distinct : (items.map Prod.fst).Nodup) :
    items.foldl (considerTariff names subjectRank) best name =
      ((items.lookup name).map fun value => (toLex (subjectRank, 0), value)).or (best name) := by
  induction items generalizing best with
  | nil => rfl
  | cons item rest ih =>
    obtain ⟨key, value⟩ := item
    obtain ⟨fresh, distinct⟩ := List.nodup_cons.mp distinct
    rw [List.foldl_cons, ih distinct, List.lookup_cons]
    by_cases same : name = key
    · subst same
      have missing : rest.lookup name = none := by
        rw [List.lookup_eq_none_iff]
        intro other inside
        rw [bne_iff_ne]
        rintro rfl
        exact fresh (List.mem_map.mpr ⟨_, inside, rfl⟩)
      rw [missing, beq_self_eq_true, considerTariff, if_pos listed]
      exact Function.update_self _ _ _
    · rw [beq_eq_false_iff_ne.mpr same]
      have kept : considerTariff names subjectRank best (key, value) name = best name := by
        unfold considerTariff
        split
        · exact Function.update_of_ne same _ _
        · rfl
      rw [kept]

theorem considerLayer_at {db : Db} {best : Best} {layer : Layer × ℕ}
    (below : ∀ b ∈ best name, (ofLex b.1).1 < layer.2) :
    considerLayer names target db best layer name =
      (offers db target name layer).foldl Incumbent.offer (best name) := by
  obtain ⟨layer, subjectRank⟩ := layer
  cases layer with
  | rows subject => exact considerRows_at listed subjectRank _
  | tariff profile =>
    show (db.profileValues profile).rows.foldl (considerTariff names subjectRank) best name = _
    rw [considerTariff_at listed subjectRank (Table.rows_keys_nodup _), Table.rows_lookup]
    unfold offers
    dsimp only
    cases (db.profileValues profile).lookup name with
    | none => rfl
    | some value =>
      refine (Incumbent.offer_eq ?_).symm
      intro b held
      exact Prod.Lex.le_iff.mpr (.inl (below b held))

theorem considerLayers_at {db : Db} {best : Best} {pass : List (Layer × ℕ)}
    (ascending : pass.Pairwise fun a b => a.2 < b.2)
    (below : ∀ b ∈ best name, ∀ layer ∈ pass, (ofLex b.1).1 < layer.2) :
    pass.foldl (considerLayer names target db) best name =
      (pass.flatMap (offers db target name)).foldl Incumbent.offer (best name) := by
  induction pass generalizing best with
  | nil => rfl
  | cons layer rest ih =>
    obtain ⟨above, ascending⟩ := List.pairwise_cons.mp ascending
    have here : considerLayer names target db best layer name = _ := considerLayer_at listed
      fun b held => below b held layer List.mem_cons_self
    rw [List.foldl_cons, ih ascending, here, List.flatMap_cons, List.foldl_append]
    intro b held later inside
    rw [here] at held
    obtain ⟨offered | before, -, -⟩ := Incumbent.foldl_offer held
    · rw [offers_rank offered]
      exact above later inside
    · exact below b before later (List.mem_cons_of_mem _ inside)

end Pass

/-- The layers of a pass with their ranks. -/
theorem zipIdx_ascending (layers : List Layer) : layers.zipIdx.Pairwise fun a b => a.2 < b.2 := by
  have ranks : (layers.zipIdx.map Prod.snd).Pairwise (· < ·) := by
    rw [List.zipIdx_map_snd]
    exact List.pairwise_lt_range'
  exact List.pairwise_map.mp ranks

theorem resolve_eq {names : List String} {target : Target} {db : Db} {name : String}
    (listed : name ∈ names) :
    resolve names target db name =
      Incumbent.best ((layers target.profile target.device).zipIdx.flatMap (offers db target name)) := by
  apply considerLayers_at listed (zipIdx_ascending _)
  rintro b ⟨⟩

/-- A row of a subject is what its place holds. -/
theorem mem_rowsOf {db : Db} {subject : Subject} {place : Place} {row : Row} :
    (place, row) ∈ db.rowsOf subject ↔ db.policies.lookup place = some row ∧ place.subject = subject := by
  rw [Db.rowsOf, List.mem_mergeSort, List.mem_filter, Table.mem_rows_iff, decide_eq_true_iff]

/-- The offers of one subject's rows. -/
theorem mem_rowOffers {db : Db} {target : Target} {name : String} {subject : Subject} {order : ℕ}
    {rank : Rank} {value : Json} :
    (rank, value) ∈ offers db target name (.rows subject, order) ↔
      ∃ scope row, db.policies.lookup ⟨subject, scope, name⟩ = some row ∧
        scope.covers target = true ∧ rank = toLex (order, scope.rank) ∧ value = row.value := by
  rw [offers, List.mem_filterMap]
  constructor
  · rintro ⟨⟨⟨subject', scope, key⟩, row⟩, held, offered⟩
    obtain ⟨stored, owner⟩ := mem_rowsOf.mp held
    rw [rowOffer] at offered
    split at offered
    next matched =>
      obtain ⟨same, covers⟩ := matched
      dsimp only at same covers owner
      subst same owner
      cases offered
      exact ⟨scope, row, stored, covers, rfl, rfl⟩
    next => cases offered
  · rintro ⟨scope, row, held, covers, rfl, rfl⟩
    refine ⟨(⟨subject, scope, name⟩, row), mem_rowsOf.mpr ⟨held, rfl⟩, ?_⟩
    exact if_pos ⟨rfl, covers⟩

theorem mem_tariffOffers {db : Db} {target : Target} {name : String} {profile order : ℕ} {rank : Rank}
    {value : Json} : (rank, value) ∈ offers db target name (.tariff profile, order) ↔
      (db.profileValues profile).lookup name = some value ∧ rank = toLex (order, 0) := by
  simp [offers, eq_comm]

/-- A device is resolved with its profile. -/
def Target.Settled (target : Target) : Prop := target.device.isSome → target.profile.isSome

/-- The offers of a pass are the sources of the target. -/
theorem mem_offers {db : Db} {target : Target} {name : String} (settled : target.Settled) {rank : Rank}
    {value : Json} :
    (rank, value) ∈ (layers target.profile target.device).zipIdx.flatMap (offers db target name) ↔
      Source db target name rank value := by
  obtain ⟨profile, device, node, protocol⟩ := target
  rw [List.mem_flatMap]
  constructor
  · rintro ⟨⟨layer, order⟩, inside, offered⟩
    have places : (layer = .rows .installation ∧ order = 0) ∨
        (∃ id, profile = some id ∧ (layer = .tariff id ∧ order = 1 ∨
          layer = .rows (.profile id) ∧ order = 2)) ∨
        ∃ id, device = some id ∧ layer = .rows (.device id) ∧ order = 3 := by
      cases profile with
      | none =>
        cases device with
        | none => simpa [layers] using inside
        | some id => cases settled rfl
      | some id =>
        cases device with
        | none => simpa [layers] using inside
        | some other => simpa [layers, or_assoc] using inside
    obtain ⟨rfl, rfl⟩ | ⟨id, known, ⟨rfl, rfl⟩ | ⟨rfl, rfl⟩⟩ | ⟨id, known, rfl, rfl⟩ := places
    · obtain ⟨scope, row, held, covers, rfl, rfl⟩ := mem_rowOffers.mp offered
      exact .installation held covers
    · obtain ⟨held, rfl⟩ := mem_tariffOffers.mp offered
      exact .tariff known held
    · obtain ⟨scope, row, held, covers, rfl, rfl⟩ := mem_rowOffers.mp offered
      exact .profile known held covers
    · obtain ⟨scope, row, held, covers, rfl, rfl⟩ := mem_rowOffers.mp offered
      exact .device known held covers
  · intro source
    cases source with
    | @installation scope row held covers =>
      refine ⟨(.rows .installation, 0), ?_, mem_rowOffers.mpr ⟨scope, row, held, covers, rfl, rfl⟩⟩
      simp [layers]
    | @tariff id value known held =>
      cases known
      refine ⟨(.tariff id, 1), ?_, mem_tariffOffers.mpr ⟨held, rfl⟩⟩
      simp [layers]
    | @profile id scope row known held covers =>
      cases known
      refine ⟨(.rows (.profile id), 2), ?_, mem_rowOffers.mpr ⟨scope, row, held, covers, rfl, rfl⟩⟩
      simp [layers]
    | @device id scope row known held covers =>
      cases known
      refine ⟨(.rows (.device id), 3), ?_, mem_rowOffers.mpr ⟨scope, row, held, covers, rfl, rfl⟩⟩
      cases profile with
      | none => cases settled rfl
      | some profile => simp [layers]

/-- The pass gives the most specific value. -/
theorem resolve_mostSpecific {names : List String} {target : Target} {db : Db} {name : String}
    (settled : target.Settled) (listed : name ∈ names) (default : Json) :
    MostSpecific db target name default
      (((resolve names target db name).map Prod.snd).getD default) := by
  rw [resolve_eq listed]
  cases found : Incumbent.best
      ((layers target.profile target.device).zipIdx.flatMap (offers db target name)) with
  | none =>
    refine .inr ⟨?_, rfl⟩
    intro rank value source
    have offered := (mem_offers settled).mpr source
    rw [Incumbent.best_none.mp found] at offered
    cases offered
  | some top =>
    obtain ⟨rank, value⟩ := top
    obtain ⟨offered, above⟩ := Incumbent.best_some found
    refine .inl ⟨rank, (mem_offers settled).mp offered, ?_⟩
    intro rank' value' source
    exact above _ ((mem_offers settled).mpr source)

variable {reg : Registry}

theorem settle_settled {db : Db} {target settled : Target} (found : target.settle db = .ok settled) :
    settled.Settled := by
  obtain ⟨profile, device, node, protocol⟩ := target
  unfold Target.settle at found
  split at found
  · cases found
  · dsimp only at found
    split at found
    · cases found
      intro device
      cases device
    · split at found
      · cases found
      · split at found
        · cases found
        · cases found
          exact fun _ => rfl

/-- The keys that are resolved. -/
def resolvedNames (reg : Registry) (keys : Option (List String)) : List String :=
  keys.getD (reg.keys.map PolicyKey.name)

/-- A key with its resolved value. -/
def resolvedValue (reg : Registry) (db : Db) (target : Target) (names : List String) (name : String) :
    String × Json :=
  (name, ((resolve names target db name).map Prod.snd).getD
    ((reg.find name).elim .null PolicyKey.default))

/-- Resolution fails on an unknown key only; otherwise it gives each key its most specific value. -/
theorem effective_ok {db : Db} {target settled : Target} {keys : Option (List String)}
    (found : target.settle db = .ok settled)
    (known : ∀ name ∈ resolvedNames reg keys, (reg.find name).isSome) :
    ∃ values, effective reg db target keys = .ok values ∧
      values.map Prod.fst = resolvedNames reg keys ∧
      ∀ name value spec, (name, value) ∈ values → reg.find name = some spec →
        MostSpecific db settled name spec.default value := by
  have registered : (resolvedNames reg keys).any (fun name => (reg.find name).isNone) = false := by
    rw [List.any_eq_false]
    intro name inside missing
    have held := known name inside
    rw [Option.isNone_iff_eq_none.mp missing] at held
    cases held
  refine ⟨(resolvedNames reg keys).map (resolvedValue reg db settled (resolvedNames reg keys)),
    ?_, ?_, ?_⟩
  · unfold effective
    rw [found]
    change (if (resolvedNames reg keys).any (fun name => (reg.find name).isNone) then _ else _) = _
    rw [registered]
    rfl
  · rw [List.map_map]
    exact List.map_id _
  · intro name value spec inside registered
    obtain ⟨name', listed, same⟩ := List.mem_map.mp inside
    cases same
    rw [registered]
    exact resolve_mostSpecific (settle_settled found) listed spec.default

end Policies
end NodePlane
