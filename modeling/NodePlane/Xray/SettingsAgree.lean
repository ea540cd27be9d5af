import NodePlane.Xray.Settings

/-! Applied settings: what is written is read back, the check accepts it unless the block
outbound is someone else's, and a second application is the first once that outbound is there. -/
namespace NodePlane
namespace Xray
open Library Json

theorem tagged_isObject {tag : String} {item : Json} (named : tagged tag item = true) :
    item.isObject = true := by
  apply isObject_of_field
  rw [of_decide_eq_true named]
  exact Json.noConfusion

theorem tagged_ne {tag other : String} (differ : tag ≠ other) {item : Json}
    (named : tagged tag item = true) : tagged other item = false := by
  rw [tagged, of_decide_eq_true named]
  simpa using differ

theorem tagged_same {tag : String} {a b : Json} (same : b.field "tag" = a.field "tag") :
    tagged tag b = tagged tag a := by
  rw [tagged, tagged, same]

/-! One inbound. -/

section
variable {settings : Settings} {tag : String} {port : ℕ} {a b s : Json}

/-- What the check reads of stream settings. -/
structure Streams (settings : Settings) (tag : String) (s : Json) : Prop where
  object : s.isObject = true
  reality : (s.field "realitySettings").isObject = true
  names : (s.field "realitySettings").field "serverNames" = strings [settings.sni]
  dest : (s.field "realitySettings").field "dest" = .str (settings.sni ++ ":443")
  path : tag = "reality-xhttp" →
    (s.field "xhttpSettings").isObject = true ∧
      (s.field "xhttpSettings").field "path" = .str settings.path

theorem object_of_reality (reality : (s.field "realitySettings").isObject = true) :
    s.isObject = true := by
  apply isObject_of_field
  intro missing
  rw [missing] at reality
  cases reality

theorem stream_streams (reality : (s.field "realitySettings").isObject = true) :
    Streams settings tag (settings.stream tag s) := by
  have object := object_of_reality reality
  have written : ∀ key, ((((s.field "realitySettings").put "serverNames" (strings [settings.sni])).put
      "dest" (.str (settings.sni ++ ":443"))).field key) =
      if key = "dest" then .str (settings.sni ++ ":443") else
        if key = "serverNames" then strings [settings.sni] else (s.field "realitySettings").field key := by
    intro key
    rw [field_put (by simpa using reality), field_put reality]
  rw [Settings.stream]
  split
  next xhttp =>
    have inner : ∀ v : Json, (v.objectOr (.obj [])).isObject = true := fun _ => isObject_objectOr rfl
    constructor
    · simpa using object
    · rw [field_put (by simpa using object), if_neg (by decide), field_put object, if_pos rfl]
      simpa using reality
    · rw [field_put (by simpa using object), if_neg (by decide), field_put object, if_pos rfl, written]
      rfl
    · rw [field_put (by simpa using object), if_neg (by decide), field_put object, if_pos rfl, written]
      rfl
    · intro _
      rw [field_put (by simpa using object), if_pos rfl]
      refine ⟨by rw [isObject_put]; exact inner _, ?_⟩
      rw [field_put (inner _), if_pos rfl]
  next other =>
    constructor
    · simpa using object
    · rw [field_put object, if_pos rfl]
      simpa using reality
    · rw [field_put object, if_pos rfl, written]
      rfl
    · rw [field_put object, if_pos rfl, written]
      rfl
    · exact fun xhttp => absurd xhttp other

/-- Stream settings that read right are left as they are. -/
theorem Streams.fixed (streams : Streams settings tag s) : settings.stream tag s = s := by
  obtain ⟨object, reality, names, dest, path⟩ := streams
  have kept : s.put "realitySettings" (((s.field "realitySettings").put "serverNames"
      (strings [settings.sni])).put "dest" (.str (settings.sni ++ ":443"))) = s := by
    rw [put_field names Json.noConfusion, put_field dest Json.noConfusion]
    apply put_field rfl
    intro missing
    rw [missing] at reality
    cases reality
  rw [Settings.stream]
  rw [kept]
  split
  next xhttp =>
    obtain ⟨inner, written⟩ := path xhttp
    rw [objectOr_same inner, put_field written Json.noConfusion]
    apply put_field rfl
    intro missing
    rw [missing] at inner
    cases inner
  next => rfl

/-- What the check reads of an inbound, and what is not read. -/
structure Inbounded (settings : Settings) (tag : String) (port : ℕ) (b : Json) : Prop where
  object : b.isObject = true
  port : b.field "port" = .int port
  streams : Streams settings tag (b.field "streamSettings")
  sniffing : b.member "sniffing" =
    if settings.blockBittorrent then some Settings.sniffing else none

theorem inbound_ok (object : a.isObject = true) (done : settings.inbound tag port a = .ok b) :
    Inbounded settings tag port b ∧ b.field "tag" = a.field "tag" := by
  rw [Settings.inbound] at done
  dsimp only at done
  split at done
  · cases done
  next reality =>
    have other : (a.put "port" (.int port)).field "streamSettings" = a.field "streamSettings" := by
      rw [field_put object, if_neg (by decide)]
    rw [Bool.not_eq_true, Bool.not_eq_false', other] at reality
    rw [other] at done
    have streams := @stream_streams settings tag _ reality
    generalize settings.stream tag (a.field "streamSettings") = stream at done streams
    have fields : ∀ key, ((a.put "port" (.int port)).put "streamSettings" stream).member key =
        if key = "streamSettings" then some stream else
          if key = "port" then some (.int port) else a.member key := by
      intro key
      rw [member_put (by simpa using object), member_put object]
    have whole : ((a.put "port" (.int port)).put "streamSettings" stream).isObject = true := by
      simpa using object
    have written : b.isObject = true ∧ ∀ key, b.member key = if key = "sniffing" then
        (if settings.blockBittorrent then some Settings.sniffing else none) else
        ((a.put "port" (.int port)).put "streamSettings" stream).member key := by
      rw [← Except.ok.inj done]
      split
      next block => exact ⟨by simpa using object, fun key => member_put whole key⟩
      next allow => exact ⟨by simpa using object, fun key => member_remove key⟩
    obtain ⟨kept, members⟩ := written
    refine ⟨⟨kept, ?_, ?_, ?_⟩, ?_⟩
    · rw [field_eq_member, members, fields]
      rfl
    · rw [field_eq_member, members, fields]
      exact streams
    · rw [members, if_pos rfl]
    · rw [field_eq_member, members, fields, field_eq_member]
      rfl

/-- An inbound that reads right is left as it is. -/
theorem Inbounded.fixed (reads : Inbounded settings tag port b) :
    settings.inbound tag port b = .ok b := by
  obtain ⟨object, number, streams, sniffing⟩ := reads
  have reality := streams.reality
  rw [Settings.inbound, put_field number Json.noConfusion, reality, streams.fixed,
    put_field rfl (by intro missing; rw [missing] at reality; cases reality)]
  dsimp only
  rw [if_neg (by decide)]
  congr 1
  split at sniffing
  next block => rw [if_pos block, put_member sniffing]
  next allow => rw [if_neg allow, remove_missing sniffing]

end

/-! The lists. -/

section
variable {settings : Settings} {old new : List Json}

/-- The last inbound with the tag reads right. -/
def Reads (settings : Settings) (tag : String) (port : ℕ) (list : List Json) : Prop :=
  ∃ inbound, list.reverse.find? (tagged tag) = some inbound ∧ Inbounded settings tag port inbound

theorem updated_reads {tag : String} {port : ℕ} {missing : String}
    (done : updateLast (tagged tag) (settings.inbound tag port) missing old = .ok new) :
    Reads settings tag port new := by
  obtain ⟨a, b, found, edited, stays⟩ := updateFirst_find (updateLast_ok.mp done)
  have named : tagged tag a = true := List.find?_some found
  obtain ⟨reads, same⟩ := inbound_ok (tagged_isObject named) edited
  exact ⟨b, stays (by rw [tagged_same same]; exact named), reads⟩

theorem updated_frame {tag other : String} {port : ℕ} {missing : String} (differ : tag ≠ other)
    (done : updateLast (tagged tag) (settings.inbound tag port) missing old = .ok new) :
    new.reverse.find? (tagged other) = old.reverse.find? (tagged other) := by
  refine updateFirst_find_frame (updateLast_ok.mp done) fun a b named edited => ?_
  obtain ⟨-, same⟩ := inbound_ok (tagged_isObject named) edited
  have apart := tagged_ne differ named
  exact ⟨apart, by rw [tagged_same same]; exact apart⟩

theorem Reads.fixed {tag : String} {port : ℕ} (reads : Reads settings tag port new)
    (missing : String) :
    updateLast (tagged tag) (settings.inbound tag port) missing new = .ok new := by
  obtain ⟨b, found, right⟩ := reads
  exact updateLast_ok.mpr (updateFirst_fixed found right.fixed)

theorem inbounds_reads (done : settings.inbounds old = .ok new) :
    Reads settings "reality-tcp" settings.tcpPort new ∧
      Reads settings "reality-xhttp" settings.xhttpPort new := by
  rw [Settings.inbounds] at done
  split at done
  · cases done
  next middle first =>
    obtain ⟨inbound, found, right⟩ := updated_reads first
    refine ⟨⟨inbound, ?_, right⟩, updated_reads done⟩
    rw [updated_frame (by decide) done, found]

theorem inbounds_again (done : settings.inbounds old = .ok new) :
    settings.inbounds new = .ok new := by
  obtain ⟨tcp, xhttp⟩ := inbounds_reads done
  rw [Settings.inbounds, tcp.fixed]
  exact xhttp.fixed _

/-! Outbounds. -/

theorem direct_tag {a : Json} (named : tagged "direct" a = true) :
    (settings.direct a).field "tag" = a.field "tag" := by
  rw [Settings.direct, field_put (tagged_isObject named), if_neg (by decide)]

theorem direct_strategy {a : Json} (named : tagged "direct" a = true) :
    ((settings.direct a).field "settings").field "domainStrategy" = settings.strategy := by
  have inner : ((a.field "settings").objectOr (.obj [])).isObject = true := isObject_objectOr rfl
  rw [Settings.direct, field_put (tagged_isObject named), if_pos rfl, field_put inner, if_pos rfl]

theorem direct_again {a : Json} (named : tagged "direct" a = true) :
    settings.direct (settings.direct a) = settings.direct a := by
  have read := @direct_strategy settings _ named
  have inner : ((settings.direct a).field "settings").isObject = true := by
    apply isObject_of_field
    rw [read]
    exact Json.noConfusion
  rw [Settings.direct.eq_def settings (settings.direct a), objectOr_same inner, put_field read]
  · apply put_field rfl
    intro missing
    rw [missing] at inner
    cases inner
  · exact Json.noConfusion

/-- The outbounds that apply has no hand in. -/
def isForeign (outbound : Json) : Bool :=
  !tagged "direct" outbound && !tagged ipv6Disabled outbound && !tagged blocked outbound

theorem tagged_blackhole (tag other : String) :
    tagged other (blackhole tag) = decide (tag = other) := by
  show decide (Json.str tag = .str other) = _
  simp

theorem kept_any (list : List Json) :
    (list.filter fun o => !tagged ipv6Disabled o).any (tagged blocked) =
      list.any (tagged blocked) := by
  rw [List.any_filter]
  congr 1
  funext o
  by_cases named : tagged blocked o = true
  · rw [named, tagged_ne (by decide) named]
    rfl
  · rw [Bool.not_eq_true] at named
    rw [named, Bool.and_false]

/-- What is added to the outbounds that stay. -/
def added (settings : Settings) (known : Bool) : List Json :=
  (if settings.ipv6 then [] else [blackhole ipv6Disabled]) ++
    if known then [] else [blackhole blocked]

theorem blackholes_eq (list : List Json) :
    settings.blackholes list = (list.filter fun o => !tagged ipv6Disabled o) ++
      added settings (list.any (tagged blocked)) := by
  have other : [blackhole ipv6Disabled].any (tagged blocked) = false := by decide
  rw [Settings.blackholes, added]
  cases settings.ipv6 with
  | false =>
    rw [if_neg Bool.false_ne_true, if_neg Bool.false_ne_true, List.any_append, kept_any, other,
      Bool.or_false]
    cases list.any (tagged blocked) <;> simp
  | true =>
    rw [if_pos rfl, if_pos rfl, kept_any]
    cases list.any (tagged blocked) <;> simp

theorem blackholes_filter {keep : Json → Bool} (list : List Json)
    (kept : ∀ o, keep o = true → tagged ipv6Disabled o = false)
    (new : keep (blackhole ipv6Disabled) = false ∧ keep (blackhole blocked) = false) :
    (settings.blackholes list).filter keep = list.filter keep := by
  have none : (added settings (list.any (tagged blocked))).filter keep = [] := by
    rw [added]
    cases settings.ipv6 <;> cases list.any (tagged blocked) <;> simp [new.1, new.2]
  rw [blackholes_eq, List.filter_append, none, List.append_nil, List.filter_filter]
  congr 1
  funext o
  by_cases held : keep o = true
  · rw [held, kept o held]
    rfl
  · rw [Bool.not_eq_true] at held
    rw [held, Bool.false_and]

/-- Applied to its own result, the list changes only by the places of the two blackholes. -/
theorem blackholes_again (list : List Json) :
    settings.blackholes (settings.blackholes list) = settings.blackholes list ↔
      settings.ipv6 = true ∨ list.any (tagged blocked) = true := by
  have stay : ((list.filter fun o => !tagged ipv6Disabled o).filter
      fun o => !tagged ipv6Disabled o) = list.filter fun o => !tagged ipv6Disabled o := by
    rw [List.filter_filter]
    simp
  have known : (settings.blackholes list).any (tagged blocked) = true := by
    rw [blackholes_eq, List.any_append, kept_any, added]
    cases list.any (tagged blocked) with
    | false => cases settings.ipv6 <;> decide
    | true => rfl
  rw [blackholes_eq (settings.blackholes list), known, blackholes_eq list, List.filter_append, stay,
    List.append_assoc, List.append_cancel_left_eq, added, added]
  cases settings.ipv6 <;> cases list.any (tagged blocked) <;> decide

end

/-! Rules. -/

section
variable (settings : Settings) (list : List Json)

/-- The rules that stay, with the one for IPv6 in front. -/
def keptRules (settings : Settings) (list : List Json) : List Json :=
  if settings.ipv6 then list.filter fun rule => !isPolicy rule
  else ipv6Rule :: list.filter fun rule => !isPolicy rule

theorem rules_eq : settings.rules list =
    (keptRules settings list).filter isApi ++ settings.policy ++
      (keptRules settings list).filter fun rule => !isApi rule := rfl

variable {settings} in
theorem policy_own {rule : Json} (held : rule ∈ settings.policy) :
    isPolicy rule = true ∧ isApi rule = false := by
  rw [Settings.policy] at held
  rcases List.mem_cons.mp held with rfl | held
  · decide
  · split at held
    · rw [List.mem_singleton.mp held]
      decide
    · exact absurd held List.not_mem_nil

theorem policy_filter {keep : Json → Bool} (drop : ∀ rule, isPolicy rule = true → keep rule = false) :
    settings.policy.filter keep = [] := by
  rw [List.filter_eq_nil_iff]
  intro rule held
  rw [drop rule (policy_own held).1]
  exact Bool.false_ne_true

theorem kept_filter {keep : Json → Bool} (drop : ∀ rule, isPolicy rule = true → keep rule = false) :
    (keptRules settings list).filter keep = list.filter keep := by
  have same : (list.filter fun rule => !isPolicy rule).filter keep = list.filter keep := by
    rw [List.filter_filter]
    congr 1
    funext rule
    by_cases own : isPolicy rule = true
    · rw [drop rule own, Bool.false_and]
    · rw [Bool.not_eq_true] at own
      rw [own, Bool.not_false, Bool.and_true]
  rw [keptRules]
  split
  · exact same
  · rw [List.filter_cons_of_neg (by rw [drop ipv6Rule (by decide)]; exact Bool.false_ne_true), same]

/-- Rules that are not the program's own stay, in order: those of the API, and the others. -/
theorem rules_kept {keep : Json → Bool} (drop : ∀ rule, isPolicy rule = true → keep rule = false) :
    (settings.rules list).filter keep =
      (list.filter keep).filter isApi ++ (list.filter keep).filter fun rule => !isApi rule := by
  rw [rules_eq, List.filter_append, List.filter_append, policy_filter settings drop, List.append_nil,
    List.filter_comm, List.filter_comm keep, kept_filter settings list drop]

theorem partition_filter {α : Type} (list : List α) (p : α → Bool) :
    ((list.filter p ++ list.filter fun a => !p a).filter p = list.filter p) ∧
      ((list.filter p ++ list.filter fun a => !p a).filter fun a => !p a) =
        list.filter fun a => !p a := by
  have none : ∀ a, (p a && !p a) = false := fun a => by cases p a <;> rfl
  have other : ∀ a, (!p a && p a) = false := fun a => by cases p a <;> rfl
  constructor
  · rw [List.filter_append, List.filter_filter, List.filter_filter]
    simp [none]
  · rw [List.filter_append, List.filter_filter, List.filter_filter]
    simp [other]

theorem rules_again : settings.rules (settings.rules list) = settings.rules list := by
  have drop : ∀ rule, isPolicy rule = true → (!isPolicy rule) = false := by
    intro rule own
    rw [own]
    rfl
  have kept : keptRules settings (settings.rules list) = if settings.ipv6 then
        (list.filter fun rule => !isPolicy rule).filter isApi ++
          (list.filter fun rule => !isPolicy rule).filter fun rule => !isApi rule
      else ipv6Rule :: ((list.filter fun rule => !isPolicy rule).filter isApi ++
          (list.filter fun rule => !isPolicy rule).filter fun rule => !isApi rule) := by
    rw [keptRules, rules_kept settings list drop]
  obtain ⟨first, second⟩ := partition_filter (list.filter fun rule => !isPolicy rule) isApi
  have api : isApi ipv6Rule = false := by decide
  rw [rules_eq settings (settings.rules list), kept, rules_eq settings list, keptRules]
  cases settings.ipv6 with
  | true => rw [if_pos rfl, if_pos rfl, first, second]
  | false =>
    rw [if_neg Bool.false_ne_true, if_neg Bool.false_ne_true]
    simp only [List.filter_cons, api, Bool.false_eq_true, if_false, Bool.not_false, if_true, first,
      second]

end

/-! What the check reads of the rules. -/

section
variable (settings : Settings) (list : List Json)

theorem asStr_iff {v : Json} {text : String} : v.asStr = some text ↔ v = .str text := by
  cases v <;> simp [asStr]

theorem countTag_append (rules more : List Json) (tag : String) :
    countTag (rules ++ more) tag = countTag rules tag + countTag more tag :=
  List.countP_append ..

theorem countTag_kept (keep : Json → Bool) {tag : String} (own : tag ∈ policyRules) :
    countTag ((keptRules settings list).filter keep) tag = 0 := by
  rw [countTag, List.countP_eq_zero]
  intro rule held named
  have kept := List.mem_of_mem_filter held
  rw [decide_eq_true_iff, asStr_iff] at named
  have policy : isPolicy rule = true := by
    rw [isPolicy, Bool.or_eq_true]
    exact .inr (List.any_eq_true.mpr ⟨tag, own, by simpa using named⟩)
  rw [keptRules] at kept
  split at kept
  · simpa [policy] using (List.mem_filter.mp kept).2
  · rcases List.mem_cons.mp kept with rfl | kept
    · have none : ipv6Rule.field "ruleTag" = .null := by decide
      rw [none] at named
      cases named
    · simpa [policy] using (List.mem_filter.mp kept).2

theorem countTag_rules {tag : String} (own : tag ∈ policyRules) :
    countTag (settings.rules list) tag = countTag settings.policy tag := by
  rw [rules_eq, countTag_append, countTag_append, countTag_kept settings list _ own,
    countTag_kept settings list _ own, Nat.zero_add, Nat.add_zero]

theorem countTag_policy : countTag settings.policy privateRule = 1 ∧
    countTag settings.policy bittorrentRule = if settings.blockBittorrent then 1 else 0 := by
  rw [Settings.policy]
  cases settings.blockBittorrent <;> decide

/-- The private rule stands behind the API rules. -/
theorem private_position : ((settings.rules list).findIdx? fun rule =>
    (rule.field "ruleTag").asStr = some privateRule) =
      some ((keptRules settings list).filter isApi).length := by
  have before : (((keptRules settings list).filter isApi).findIdx? fun rule =>
      (rule.field "ruleTag").asStr = some privateRule) = none := by
    rw [List.findIdx?_eq_none_iff]
    intro rule held
    have none := @countTag_kept settings list isApi privateRule (by decide)
    rw [countTag, List.countP_eq_zero] at none
    simpa using none rule held
  rw [rules_eq, List.append_assoc, List.findIdx?_append, before, Settings.policy, List.cons_append,
    List.findIdx?_cons]
  have here : decide (((policyRule privateRule "ip" privateNetworks).field "ruleTag").asStr =
      some privateRule) = true := by decide
  rw [here]
  simp

theorem api_position {i : ℕ} (found : (settings.rules list).findIdx? isApi = some i) :
    i ≤ ((keptRules settings list).filter isApi).length := by
  cases apis : (keptRules settings list).filter isApi with
  | nil =>
    have none : (settings.rules list).findIdx? isApi = none := by
      rw [List.findIdx?_eq_none_iff, rules_eq, apis, List.nil_append]
      intro rule held
      rcases List.mem_append.mp held with own | other
      · exact (policy_own own).2
      · simpa using (List.mem_filter.mp other).2
    rw [none] at found
    cases found
  | cons rule rest =>
    have first : isApi rule = true :=
      (List.mem_filter.mp (apis ▸ List.mem_cons_self : rule ∈ (keptRules settings list).filter isApi)).2
    rw [rules_eq, apis, List.cons_append, List.cons_append, List.findIdx?_cons, first, if_pos rfl] at found
    rw [← Option.some.inj found]
    exact Nat.zero_le _

theorem drop_rules : ((settings.rules list).drop ((keptRules settings list).filter isApi).length).headD
    .null = policyRule privateRule "ip" privateNetworks := by
  rw [rules_eq, List.append_assoc, List.drop_left, Settings.policy]
  rfl

theorem ipv6_blocks : ((settings.rules list).filter fun rule =>
    decide (rule.field "outboundTag" = .str ipv6Disabled)) =
      if settings.ipv6 then [] else [ipv6Rule] := by
  have kept : ((keptRules settings list).filter fun rule =>
      decide (rule.field "outboundTag" = .str ipv6Disabled)) =
        if settings.ipv6 then [] else [ipv6Rule] := by
    have none : ((list.filter fun rule => !isPolicy rule).filter fun rule =>
        decide (rule.field "outboundTag" = .str ipv6Disabled)) = [] := by
      rw [List.filter_eq_nil_iff]
      intro rule held blocks
      have other := (List.mem_filter.mp held).2
      rw [isPolicy, blocks] at other
      cases other
    rw [keptRules]
    split
    · exact none
    · rw [List.filter_cons_of_pos (by decide), none]
  have policy : (settings.policy.filter fun rule =>
      decide (rule.field "outboundTag" = .str ipv6Disabled)) = [] := by
    rw [Settings.policy]
    cases settings.blockBittorrent <;> decide
  rw [rules_eq, List.filter_append, List.filter_append, policy, List.append_nil, List.filter_comm, kept,
    List.filter_comm _ (fun rule => !isApi rule), kept]
  cases settings.ipv6 <;> decide

end

/-! Outbounds as a whole. -/

section
variable {settings : Settings} {old new : List Json}

/-- The blackhole of the routing policy. -/
def isBlock (outbound : Json) : Bool :=
  tagged blocked outbound && outbound.field "protocol" = .str "blackhole"

/-- An outbound that applying edits, before and after. -/
theorem direct_edit {a b : Json} (named : tagged "direct" a = true)
    (edited : (Except.ok (settings.direct a) : Except String Json) = .ok b) :
    tagged "direct" b = true := by
  rw [← Except.ok.inj edited, tagged_same (direct_tag named)]
  exact named

theorem outbounds_ok (done : settings.outbounds old = .ok new) : ∃ list,
    updateFirst (tagged "direct") (fun outbound => .ok (settings.direct outbound))
      "Xray direct outbound is missing" old = .ok list ∧ settings.blackholes list = new :=
  map_ok.mp done

theorem outbounds_kept (done : settings.outbounds old = .ok new) {keep : Json → Bool}
    (own : ∀ o, keep o = true → tagged ipv6Disabled o = false)
    (added : keep (blackhole ipv6Disabled) = false ∧ keep (blackhole blocked) = false)
    (direct : ∀ o, tagged "direct" o = true → keep o = false) :
    new.filter keep = old.filter keep := by
  obtain ⟨list, first, rfl⟩ := outbounds_ok done
  rw [blackholes_filter list own added]
  apply updateFirst_filter first
  intro a b named edited
  exact ⟨direct a named, direct b (direct_edit named edited)⟩

/-- The edit of `direct` leaves what other tags carry. -/
theorem direct_any {keep : Json → Bool} {list : List Json}
    (first : updateFirst (tagged "direct") (fun outbound => .ok (settings.direct outbound))
      "Xray direct outbound is missing" old = .ok list)
    (direct : ∀ o, tagged "direct" o = true → keep o = false) : list.any keep = old.any keep := by
  have same := updateFirst_filter (q := keep) first
    fun a b named edited => ⟨direct a named, direct b (direct_edit named edited)⟩
  rw [Bool.eq_iff_iff, List.any_eq_true, List.any_eq_true]
  constructor
  · rintro ⟨o, held, kept⟩
    have there : o ∈ old.filter keep := by
      rw [← same]
      exact List.mem_filter.mpr ⟨held, kept⟩
    exact ⟨o, (List.mem_filter.mp there).1, kept⟩
  · rintro ⟨o, held, kept⟩
    have there : o ∈ list.filter keep := by
      rw [same]
      exact List.mem_filter.mpr ⟨held, kept⟩
    exact ⟨o, (List.mem_filter.mp there).1, kept⟩

theorem blocked_not_direct (o : Json) (named : tagged "direct" o = true) :
    tagged blocked o = false :=
  tagged_ne (by decide) named

theorem isBlock_not_direct (o : Json) (named : tagged "direct" o = true) : isBlock o = false := by
  rw [isBlock, blocked_not_direct o named, Bool.false_and]

/-- The block outbound is there after applying when it was there, or when nothing had its tag. -/
theorem outbounds_block (done : settings.outbounds old = .ok new) :
    new.any isBlock = (old.any isBlock || !old.any (tagged blocked)) := by
  obtain ⟨list, first, rfl⟩ := outbounds_ok done
  have stays : (list.filter fun o => !tagged ipv6Disabled o).any isBlock = list.any isBlock := by
    rw [List.any_filter]
    congr 1
    funext o
    by_cases named : tagged ipv6Disabled o = true
    · rw [named, isBlock, tagged_ne (by decide) named]
      rfl
    · rw [Bool.not_eq_true] at named
      rw [named, Bool.not_false, Bool.true_and]
  rw [blackholes_eq, List.any_append, stays, direct_any first isBlock_not_direct,
    direct_any first blocked_not_direct, added]
  cases settings.ipv6 <;> cases old.any (tagged blocked) <;> cases old.any isBlock <;> decide

theorem outbounds_direct (done : settings.outbounds old = .ok new) : ∃ o,
    new.find? (tagged "direct") = some o ∧
      (o.field "settings").field "domainStrategy" = settings.strategy ∧ settings.direct o = o := by
  obtain ⟨list, first, rfl⟩ := outbounds_ok done
  obtain ⟨a, b, found, edited, stays⟩ := updateFirst_find first
  have named : tagged "direct" a = true := List.find?_some found
  have here := stays (direct_edit named edited)
  rw [← Except.ok.inj edited] at here
  refine ⟨settings.direct a, ?_, direct_strategy named, direct_again named⟩
  have same : (settings.blackholes list).filter (tagged "direct") = list.filter (tagged "direct") :=
    blackholes_filter list (fun o direct => tagged_ne (by decide) direct) (by decide)
  rw [← List.head?_filter, same, List.head?_filter, here]

/-- A second application leaves the outbounds exactly when the block outbound has its place. -/
theorem outbounds_again (done : settings.outbounds old = .ok new) :
    settings.outbounds new = .ok new ↔ settings.ipv6 = true ∨ old.any (tagged blocked) = true := by
  obtain ⟨o, found, -, fixed⟩ := outbounds_direct done
  obtain ⟨list, first, rfl⟩ := outbounds_ok done
  have edit : updateFirst (tagged "direct") (fun outbound => .ok (settings.direct outbound))
      "Xray direct outbound is missing" (settings.blackholes list) = .ok (settings.blackholes list) :=
    updateFirst_fixed found (congrArg Except.ok fixed)
  rw [Settings.outbounds, edit, ← direct_any first blocked_not_direct, ← blackholes_again]
  constructor
  · exact fun again => Except.ok.inj again
  · exact fun again => congrArg Except.ok again

end

/-! Services and statistics. -/

theorem withServices_known (list : List Json) :
    ∀ service ∈ services, (withServices list).any (fun known => known = .str service) = true := by
  have step : ∀ (names : List String) (known : List Json),
      (∀ item ∈ known, item ∈ names.foldl (fun list service =>
        if list.any fun known => known = .str service then list else list ++ [.str service]) known) ∧
      ∀ service ∈ names, Json.str service ∈ names.foldl (fun list service =>
        if list.any fun known => known = .str service then list else list ++ [.str service]) known := by
    intro names
    induction names with
    | nil => exact fun known => ⟨fun item held => held, fun service held => absurd held List.not_mem_nil⟩
    | cons name rest ih =>
      intro known
      rw [List.foldl_cons]
      obtain ⟨kept, there⟩ := ih (if known.any fun item => item = .str name then known
        else known ++ [.str name])
      constructor
      · intro item held
        apply kept
        split
        · exact held
        · exact List.mem_append_left _ held
      · intro service held
        rcases List.mem_cons.mp held with rfl | held
        · apply kept
          split
          next present =>
            obtain ⟨item, held, same⟩ := List.any_eq_true.mp present
            rwa [← of_decide_eq_true same]
          next => exact List.mem_append_right _ (List.mem_singleton_self _)
        · exact there service held
  intro service held
  exact List.any_eq_true.mpr ⟨.str service, (step services list).2 service held, by simp⟩

theorem withServices_again (list : List Json) :
    withServices (withServices list) = withServices list := by
  have known := withServices_known list
  have fixed : ∀ (names : List String) (held : List Json),
      (∀ service ∈ names, held.any (fun known => known = .str service) = true) →
      names.foldl (fun list service =>
        if list.any fun known => known = .str service then list else list ++ [.str service]) held =
          held := by
    intro names held
    induction names with
    | nil => exact fun _ => rfl
    | cons name rest ih =>
      intro there
      rw [List.foldl_cons, if_pos (there name List.mem_cons_self)]
      exact ih fun service later => there service (List.mem_cons_of_mem name later)
  exact fixed services (withServices list) known

theorem withStatistics_again (policy : Json) :
    withStatistics (withStatistics policy) = withStatistics policy := by
  have inner : ∀ v : Json, (v.objectOr (.obj [])).isObject = true := fun _ => isObject_objectOr rfl
  have levels : (withStatistics policy).field "levels" =
      ((((policy.objectOr (.obj [])).field "levels").objectOr (.obj [])).put "0"
        (((((policy.objectOr (.obj [])).field "levels").objectOr (.obj [])).field "0").objectOr
          (.obj []) |>.put "statsUserOnline" (.bool true))) := by
    rw [withStatistics, field_put (inner _), if_pos rfl]
  have users : ((withStatistics policy).field "levels").field "0" =
      ((((((policy.objectOr (.obj [])).field "levels").objectOr (.obj [])).field "0").objectOr
          (.obj [])).put "statsUserOnline" (.bool true)) := by
    rw [levels, field_put (inner _), if_pos rfl]
  have online : (((withStatistics policy).field "levels").field "0").field "statsUserOnline" =
      .bool true := by
    rw [users, field_put (inner _), if_pos rfl]
  have usersObject : (((withStatistics policy).field "levels").field "0").isObject = true :=
    isObject_of_field (by rw [online]; exact Json.noConfusion)
  have levelsObject : ((withStatistics policy).field "levels").isObject = true := by
    rw [levels, isObject_put]
    exact inner _
  have whole : (withStatistics policy).isObject = true := by
    rw [withStatistics, isObject_put]
    exact inner _
  rw [withStatistics.eq_def (withStatistics policy)]
  dsimp only
  rw [objectOr_same whole, objectOr_same levelsObject, objectOr_same usersObject,
    put_field online Json.noConfusion, put_field rfl, put_field rfl]
  · intro missing
    rw [missing] at levelsObject
    cases levelsObject
  · intro missing
    rw [missing] at usersObject
    cases usersObject

/-! The config as a whole. -/

section
variable {settings : Settings} {config next : Json}

theorem array_of_field {key : String} {list : List Json} (found : config.field key = .arr list) :
    array config key = .ok list := by
  rw [field_eq_member] at found
  rw [array]
  cases known : config.member key with
  | none =>
    rw [known] at found
    cases found
  | some item =>
    rw [known] at found
    rw [show item = .arr list from found]
    rfl

/-- An edit elsewhere leaves the list. -/
theorem array_put {key other : String} {item : Json} (object : config.isObject = true)
    (differ : key ≠ other) : array (config.put other item) key = array config key := by
  rw [array, array, member_put object, if_neg differ]

/-- Where the rules are. -/
def routing (config : Json) : Json := (config.field "routing").objectOr (.obj [])

/-- Where the services are. -/
def apiOf (config : Json) : Json := (config.field "api").objectOr (.obj [("tag", .str "api")])

/-- What is written: the five members, one after the other. -/
def written (config : Json) (inbounds outbounds rules services : List Json) : Json :=
  ((((config.put "inbounds" (.arr inbounds)).put "outbounds" (.arr outbounds)).put "routing"
    ((routing config).put "rules" (.arr rules))).put "api"
      ((apiOf config).put "services" (.arr services))).put "policy"
        (withStatistics (config.field "policy"))

/-- An application that succeeds: the four lists it reads, the two it can fail on, and the
result. -/
structure Applied (settings : Settings) (config next : Json) (inbounds outbounds rules services
    inbounds' outbounds' : List Json) : Prop where
  object : config.isObject = true
  readInbounds : array config "inbounds" = .ok inbounds
  changed : settings.inbounds inbounds = .ok inbounds'
  readOutbounds : array config "outbounds" = .ok outbounds
  moved : settings.outbounds outbounds = .ok outbounds'
  readRules : array (routing config) "rules" = .ok rules
  readServices : array (apiOf config) "services" = .ok services
  result : next = written config inbounds' outbounds' (settings.rules rules) (withServices services)

theorem apply_ok : settings.apply config = .ok next ↔ ∃ inbounds outbounds rules services inbounds'
    outbounds', Applied settings config next inbounds outbounds rules services inbounds'
      outbounds' := by
  by_cases object : config.isObject = true
  case neg =>
    rw [Settings.apply, if_pos (by simpa using object)]
    constructor
    · exact fun done => by cases done
    · rintro ⟨_, _, _, _, _, _, applied⟩
      exact absurd applied.object object
  rw [Settings.apply, if_neg (by simpa using object)]
  have second : ∀ i, (config.put "inbounds" (.arr i)).isObject = true := fun _ => by
    simpa using object
  have third : ∀ i o, ((config.put "inbounds" (.arr i)).put "outbounds" (.arr o)).isObject = true :=
    fun _ _ => by simpa using object
  have outboundsRead : ∀ i, array (config.put "inbounds" (.arr i)) "outbounds" =
      array config "outbounds" := fun _ => array_put object (by decide)
  have routingRead : ∀ i o, ((config.put "inbounds" (.arr i)).put "outbounds" (.arr o)).field
      "routing" = config.field "routing" := fun i o => by
    rw [field_put (second i), if_neg (by decide), field_put object, if_neg (by decide)]
  have apiRead : ∀ i o r, (((config.put "inbounds" (.arr i)).put "outbounds" (.arr o)).put "routing"
      r).field "api" = config.field "api" := fun i o r => by
    rw [field_put (third i o), if_neg (by decide), field_put (second i), if_neg (by decide),
      field_put object, if_neg (by decide)]
  have policyRead : ∀ i o r a, ((((config.put "inbounds" (.arr i)).put "outbounds" (.arr o)).put
      "routing" r).put "api" a).field "policy" = config.field "policy" := fun i o r a => by
    rw [field_put (by simpa using object), if_neg (by decide), field_put (third i o),
      if_neg (by decide), field_put (second i), if_neg (by decide), field_put object,
      if_neg (by decide)]
  dsimp only
  simp only [outboundsRead, routingRead, apiRead, policyRead]
  simp only [bind_ok]
  constructor
  · rintro ⟨ib, inbounds, ib', changed, ob, outbounds, ob', moved, rs, rules, known, services, result⟩
    exact ⟨ib, ob, rs, known, ib', ob', object, inbounds, changed, outbounds, moved, rules, services,
      (Except.ok.inj result).symm⟩
  · rintro ⟨ib, ob, rs, known, ib', ob', applied⟩
    exact ⟨ib, applied.readInbounds, ib', applied.changed, ob, applied.readOutbounds, ob',
      applied.moved, rs, applied.readRules, known, applied.readServices,
      congrArg Except.ok applied.result.symm⟩

end

section
variable {settings : Settings} {config next : Json}
  {inbounds outbounds rules services inbounds' outbounds' : List Json}

theorem written_isObject (object : config.isObject = true) :
    (written config inbounds outbounds rules services).isObject = true := by
  simpa [written] using object

theorem written_field (object : config.isObject = true) (key : String) :
    (written config inbounds outbounds rules services).field key =
      if key = "policy" then withStatistics (config.field "policy") else
      if key = "api" then (apiOf config).put "services" (.arr services) else
      if key = "routing" then (routing config).put "rules" (.arr rules) else
      if key = "outbounds" then .arr outbounds else
      if key = "inbounds" then .arr inbounds else config.field key := by
  rw [written, field_put (by simpa using object), field_put (by simpa using object),
    field_put (by simpa using object), field_put (by simpa using object), field_put object]

theorem routing_isObject : (routing config).isObject = true := isObject_objectOr rfl

theorem apiOf_isObject : (apiOf config).isObject = true := isObject_objectOr rfl

namespace Applied
variable (applied : Applied settings config next inbounds outbounds rules services inbounds'
  outbounds')
include applied

theorem isObject : next.isObject = true := by
  rw [applied.result]
  exact written_isObject applied.object

theorem inbounds_field : next.field "inbounds" = .arr inbounds' := by
  rw [applied.result, written_field applied.object]
  rfl

theorem outbounds_field : next.field "outbounds" = .arr outbounds' := by
  rw [applied.result, written_field applied.object]
  rfl

theorem routing_field : next.field "routing" =
    (routing config).put "rules" (.arr (settings.rules rules)) := by
  rw [applied.result, written_field applied.object]
  rfl

theorem api_field : next.field "api" =
    (apiOf config).put "services" (.arr (withServices services)) := by
  rw [applied.result, written_field applied.object]
  rfl

theorem policy_field : next.field "policy" = withStatistics (config.field "policy") := by
  rw [applied.result, written_field applied.object]
  rfl

theorem rules_field : (next.field "routing").field "rules" = .arr (settings.rules rules) := by
  rw [applied.routing_field, field_put routing_isObject, if_pos rfl]

theorem services_field : (next.field "api").field "services" = .arr (withServices services) := by
  rw [applied.api_field, field_put apiOf_isObject, if_pos rfl]

theorem routing_next : routing next = next.field "routing" := by
  apply objectOr_same
  rw [applied.routing_field, isObject_put]
  exact routing_isObject

theorem apiOf_next : apiOf next = next.field "api" := by
  apply objectOr_same
  rw [applied.api_field, isObject_put]
  exact apiOf_isObject

/-- The result written with its own lists is the result. -/
theorem written_same :
    written next inbounds' outbounds' (settings.rules rules) (withServices services) = next := by
  have policy : next.field "policy" ≠ .null := by
    have object : (next.field "policy").isObject = true := by
      rw [applied.policy_field, withStatistics, isObject_put]
      exact isObject_objectOr rfl
    intro missing
    rw [missing] at object
    cases object
  have routing : next.field "routing" ≠ .null := by
    intro missing
    have rules := applied.rules_field
    rw [missing] at rules
    cases rules
  have api : next.field "api" ≠ .null := by
    intro missing
    have services := applied.services_field
    rw [missing] at services
    cases services
  rw [written, put_field applied.inbounds_field Json.noConfusion,
    put_field applied.outbounds_field Json.noConfusion, applied.routing_next, applied.apiOf_next,
    put_field applied.rules_field Json.noConfusion, put_field rfl routing,
    put_field applied.services_field Json.noConfusion, put_field rfl api]
  have again := withStatistics_again (config.field "policy")
  rw [← applied.policy_field] at again
  rw [again, put_field rfl policy]

/-- Applying again changes nothing exactly when the outbounds stay. -/
theorem again : settings.apply next = .ok next ↔ settings.outbounds outbounds' = .ok outbounds' := by
  have readRules : array (routing next) "rules" = .ok (settings.rules rules) := by
    rw [applied.routing_next]
    exact array_of_field applied.rules_field
  have readServices : array (apiOf next) "services" = .ok (withServices services) := by
    rw [applied.apiOf_next]
    exact array_of_field applied.services_field
  have readInbounds := array_of_field applied.inbounds_field
  have readOutbounds := array_of_field applied.outbounds_field
  constructor
  · intro done
    obtain ⟨ib, ob, rs, known, ib', ob', second⟩ := apply_ok.mp done
    have first := second.readOutbounds
    rw [readOutbounds] at first
    have moved := second.moved
    rw [← Except.ok.inj first] at moved
    have same := second.outbounds_field
    rw [applied.outbounds_field] at same
    rw [moved, Json.arr.inj same]
  · intro stay
    refine apply_ok.mpr ⟨inbounds', outbounds', settings.rules rules, withServices services,
      inbounds', outbounds', applied.isObject, readInbounds, inbounds_again applied.changed,
      readOutbounds, stay, readRules, readServices, ?_⟩
    rw [rules_again, withServices_again, applied.written_same]

/-! What the check reads of the result. -/

theorem findInbound_ok {tag : String} {port : ℕ} (reads : Reads settings tag port inbounds') :
    ∃ inbound, findInbound next tag = .ok inbound ∧ Inbounded settings tag port inbound := by
  obtain ⟨inbound, found, right⟩ := reads
  refine ⟨inbound, ?_, right⟩
  rw [findInbound, applied.inbounds_field]
  simp only [items, asArray, Option.getD_some, found]

theorem checkInbound_ok {tag : String} {port : ℕ} (reads : Reads settings tag port inbounds') :
    settings.checkInbound next tag port = .ok () := by
  obtain ⟨inbound, found, right⟩ := applied.findInbound_ok reads
  rw [Settings.checkInbound, found]
  show (if _ then _ else _) = _
  rw [if_neg]
  · rfl
  · rintro (port | names | dest)
    · exact port right.port
    · exact names right.streams.names
    · exact dest right.streams.dest

theorem checkIpv6_ok : settings.checkIpv6 next = .ok () := by
  obtain ⟨direct, found, strategy, -⟩ := outbounds_direct applied.moved
  rw [Settings.checkIpv6, applied.outbounds_field]
  simp only [items, asArray, Option.getD_some, found]
  rw [if_neg (by simpa using strategy), applied.rules_field]
  simp only [Option.getD_some, ipv6_blocks]
  cases settings.ipv6 with
  | true => rfl
  | false =>
    have right : (ipv6Rule.field "ip" = strings ["::/0"]) := by decide
    simp [right]

theorem sniffs_ok (block : settings.blockBittorrent = true) : sniffs next clientInbounds = .ok () := by
  have read : ∀ {tag port}, Reads settings tag port inbounds' → ∃ inbound,
      findInbound next tag = .ok inbound ∧ inbound.field "sniffing" = Settings.sniffing := by
    intro tag port reads
    obtain ⟨inbound, found, right⟩ := applied.findInbound_ok reads
    refine ⟨inbound, found, ?_⟩
    rw [field_eq_member, right.sniffing, if_pos block]
    rfl
  obtain ⟨tcpReads, xhttpReads⟩ := inbounds_reads applied.changed
  obtain ⟨tcp, foundTcp, sniffTcp⟩ := read tcpReads
  obtain ⟨xhttp, foundXhttp, sniffXhttp⟩ := read xhttpReads
  have fields : Settings.sniffing.field "enabled" = .bool true ∧
      Settings.sniffing.field "routeOnly" = .bool true := by decide
  simp [clientInbounds, sniffs, foundTcp, foundXhttp, sniffTcp, sniffXhttp, fields.1, fields.2, bind,
    Except.bind]

/-- The routing policy is accepted exactly when the block outbound is a blackhole. -/
theorem routingPolicy_ok : routingPolicy next settings.blockBittorrent = .ok () ↔
    outbounds'.any isBlock = true := by
  have rulesRead : items ((next.field "routing").field "rules") = settings.rules rules := by
    rw [applied.rules_field]
    rfl
  have outboundsRead : items (next.field "outbounds") = outbounds' := by
    rw [applied.outbounds_field]
    rfl
  have private1 : countTag (settings.rules rules) privateRule = 1 := by
    rw [countTag_rules settings rules (by decide), (countTag_policy settings).1]
  have bittorrent : countTag (settings.rules rules) bittorrentRule =
      if settings.blockBittorrent then 1 else 0 := by
    rw [countTag_rules settings rules (by decide), (countTag_policy settings).2]
  have api : ¬((settings.rules rules).findIdx? isApi).any fun api =>
      ((keptRules settings rules).filter isApi).length < api := by
    cases found : (settings.rules rules).findIdx? isApi with
    | none => exact Bool.false_ne_true
    | some i =>
      rw [Option.any_some, decide_eq_true_iff]
      exact Nat.not_lt.mpr (api_position settings rules found)
  have rule : (policyRule privateRule "ip" privateNetworks).field "inboundTag" =
      strings clientInbounds ∧
      (policyRule privateRule "ip" privateNetworks).field "outboundTag" = .str blocked := by decide
  rw [routingPolicy]
  dsimp only
  rw [rulesRead, outboundsRead, private1, bittorrent, if_neg (by simp), private_position,
    Option.getD_some, if_neg api, drop_rules, rule.1, rule.2, if_neg (by simp)]
  show (if (!outbounds'.any isBlock) = true then _ else _) = _ ↔ _
  cases outbounds'.any isBlock with
  | false => simp
  | true =>
    rw [if_neg (by decide)]
    split
    next block => simpa using applied.sniffs_ok block
    next => simp

/-- So is the whole config. -/
theorem verify_ok (named : Bool) : settings.verify named next = .ok () ↔
    outbounds'.any isBlock = true := by
  obtain ⟨tcpReads, xhttpReads⟩ := inbounds_reads applied.changed
  obtain ⟨xhttp, found, right⟩ := applied.findInbound_ok xhttpReads
  have path := (right.streams.path rfl).2
  rw [← applied.routingPolicy_ok, Settings.verify, applied.checkInbound_ok tcpReads,
    applied.checkInbound_ok xhttpReads, found]
  dsimp only [bind, Except.bind]
  rw [if_neg (by simpa using path)]
  cases named with
  | true =>
    rw [if_pos rfl, applied.checkIpv6_ok]
  | false => rfl

end Applied

end

/-! The agreement. -/

section
variable {settings : Settings} {config next : Json}

def ruleList (config : Json) : List Json := items ((config.field "routing").field "rules")

def outboundList (config : Json) : List Json := items (config.field "outbounds")

/-- Rules and outbounds that are not the program's own, and the API rules among themselves, are
the same in the same order. -/
structure Keeps (config next : Json) : Prop where
  rules : ((ruleList next).filter fun rule => !isPolicy rule && !isApi rule) =
    (ruleList config).filter fun rule => !isPolicy rule && !isApi rule
  api : ((ruleList next).filter fun rule => !isPolicy rule && isApi rule) =
    (ruleList config).filter fun rule => !isPolicy rule && isApi rule
  outbounds : (outboundList next).filter isForeign = (outboundList config).filter isForeign

theorem items_of_array {key : String} {list : List Json} (read : array config key = .ok list) :
    items (config.field key) = list := by
  rw [array] at read
  rw [field_eq_member, items]
  split at read
  next missing =>
    rw [missing]
    exact Except.ok.inj read
  next item found =>
    rw [found]
    split at read
    next known =>
      rw [Option.getD_some, known]
      exact Except.ok.inj read
    next => cases read

theorem ruleList_of_array {list : List Json} (read : array (routing config) "rules" = .ok list) :
    ruleList config = list := by
  rw [ruleList, ← items_of_array read, routing, objectOr]
  split
  · rfl
  · rename_i other
    have missing : (config.field "routing").field "rules" = .null := by
      by_contra present
      exact other (isObject_of_field present)
    rw [missing]
    rfl

theorem Applied.keeps {inbounds outbounds rules services inbounds' outbounds' : List Json}
    (applied : Applied settings config next inbounds outbounds rules services inbounds'
      outbounds') : Keeps config next := by
  have before := ruleList_of_array applied.readRules
  have after : ruleList next = settings.rules rules := by
    rw [ruleList, applied.rules_field]
    rfl
  constructor
  · rw [before, after, rules_kept settings rules (fun rule own => by rw [own]; rfl), List.filter_filter,
      List.filter_filter]
    have none : (rules.filter fun rule => isApi rule && (!isPolicy rule && !isApi rule)) = [] := by
      rw [List.filter_eq_nil_iff]
      intro rule _ held
      cases api : isApi rule <;> simp [api] at held
    rw [none, List.nil_append]
    congr 1
    funext rule
    cases isApi rule <;> simp
  · rw [before, after, rules_kept settings rules (fun rule own => by rw [own]; rfl), List.filter_filter,
      List.filter_filter]
    have none : (rules.filter fun rule => !isApi rule && (!isPolicy rule && isApi rule)) = [] := by
      rw [List.filter_eq_nil_iff]
      intro rule _ held
      cases api : isApi rule <;> simp [api] at held
    rw [none, List.append_nil]
    congr 1
    funext rule
    cases isApi rule <;> simp
  · have first : outboundList config = outbounds := items_of_array applied.readOutbounds
    have second : outboundList next = outbounds' := by
      rw [outboundList, applied.outbounds_field]
      rfl
    rw [first, second]
    apply outbounds_kept applied.moved
    · intro o foreign
      cases own : tagged ipv6Disabled o with
      | false => rfl
      | true => rw [isForeign, own] at foreign; simp at foreign
    · decide
    · intro o direct
      rw [isForeign, direct]
      rfl

/-- Applied settings pass the check, a second application changes nothing and what is not the
program's own is kept in order: exactly when the block outbound is there before as a blackhole,
or nothing has its tag and no other blackhole is to be placed. -/
theorem applied_settings_agree (done : settings.apply config = .ok next) :
    ((∀ named, settings.verify named next = .ok ()) ∧ settings.apply next = .ok next ∧
        Keeps config next) ↔
      (outboundList config).any isBlock = true ∨
        (settings.ipv6 = true ∧ (outboundList config).any (tagged blocked) = false) := by
  obtain ⟨inbounds, outbounds, rules, services, inbounds', outbounds', applied⟩ := apply_ok.mp done
  have before : outboundList config = outbounds := items_of_array applied.readOutbounds
  have block := outbounds_block applied.moved
  have stays := applied.again.trans ⟨fun same => (outbounds_again applied.moved).mp same,
    fun place => (outbounds_again applied.moved).mpr place⟩
  have verified : (∀ named, settings.verify named next = .ok ()) ↔ outbounds'.any isBlock = true :=
    ⟨fun all => (applied.verify_ok true).mp (all true),
      fun there named => (applied.verify_ok named).mpr there⟩
  have known : outbounds.any isBlock = true → outbounds.any (tagged blocked) = true := by
    intro there
    obtain ⟨o, held, right⟩ := List.any_eq_true.mp there
    rw [isBlock, Bool.and_eq_true] at right
    exact List.any_eq_true.mpr ⟨o, held, right.1⟩
  rw [verified, stays, block, before, and_iff_left applied.keeps]
  cases present : outbounds.any isBlock with
  | true => simp [known present]
  | false => cases outbounds.any (tagged blocked) <;> simp

def sampleInbound (tag : String) : Json :=
  .obj [("port", .int 1), ("streamSettings", .obj [("realitySettings", .obj [("dest", .str "old")])]),
    ("tag", .str tag)]

/-- A config as it is installed, with `more` outbounds of the operator. -/
def sampleConfig (more : List Json) : Json :=
  .obj [("inbounds", .arr (clientInbounds.map sampleInbound)),
    ("outbounds", .arr (.obj [("protocol", .str "freedom"), ("tag", .str "direct")] :: more)),
    ("routing", .obj [("rules", .arr [.obj [("domain", strings ["example.org"]),
      ("outboundTag", .str "custom")], .obj [("inboundTag", strings ["api"]),
        ("outboundTag", .str "api")]])])]

def sampleSettings (ipv6 : Bool) : Settings where
  sni := "www.example.com"
  tcpPort := 443
  xhttpPort := 8443
  path := "/assets"
  ipv6 := ipv6
  blockBittorrent := true

/-- The sample's result, or what is there if there is none. -/
def applyOr (settings : Settings) (config : Json) : Json :=
  match settings.apply config with
  | .ok next => next
  | .error _ => config

theorem applied_settings_agree_sample :
    (∀ named, (sampleSettings true).verify named
        (applyOr (sampleSettings true) (sampleConfig [])) = .ok ()) ∧
      (sampleSettings true).apply (applyOr (sampleSettings true) (sampleConfig [])) =
        .ok (applyOr (sampleSettings true) (sampleConfig [])) ∧
      Keeps (sampleConfig []) (applyOr (sampleSettings true) (sampleConfig [])) :=
  (applied_settings_agree (by decide :
    (sampleSettings true).apply (sampleConfig []) =
      .ok (applyOr (sampleSettings true) (sampleConfig [])))).mpr (.inr ⟨rfl, by decide⟩)

/-- The operator's outbound that carries the block tag without being a blackhole. -/
def freedomBlock : Json := .obj [("protocol", .str "freedom"), ("tag", .str blocked)]

/-- Applied over such an outbound, the check refuses; and where IPv6 is off and nothing has the
tag, a second application moves the new block outbound. -/
theorem applied_settings_refused :
    ((∃ next, (sampleSettings true).apply (sampleConfig [freedomBlock]) = .ok next ∧
      (sampleSettings true).verify true next = .error "Xray block outbound verification failed")) ∧
    (∃ next, (sampleSettings false).apply (sampleConfig []) = .ok next ∧
      (sampleSettings false).apply next ≠ .ok next) := by
  refine ⟨⟨applyOr (sampleSettings true) (sampleConfig [freedomBlock]), ?_, ?_⟩,
    ⟨applyOr (sampleSettings false) (sampleConfig []), ?_, ?_⟩⟩
  · decide
  · decide
  · decide
  · decide

end
end Xray
end NodePlane
