import NodePlane.Xray.AdmissionState

/-! Observations of clients over time: when a source that was blocked counts again, and how far
its evictions lie apart. -/
namespace NodePlane
namespace Xray
namespace Admission
open Library

structure Observation where
  email : String
  policy : Policy
  online : BTreeMap String Int
  now : ℕ

def Observation.since (o : Observation) : ℕ := o.now - o.policy.windowSeconds

section
variable (sourceKey : String → Option String)

def State.see (state : State) (o : Observation) : State × Changes :=
  state.observe sourceKey o.email o.policy o.online o.now

def State.client (state : State) (email : String) : Client :=
  (state.clients[email]?).getD Client.default

/-- The observations, each with what it changed. -/
def State.sees (state : State) : List Observation → List (Observation × Changes)
  | [] => []
  | o :: rest => (o, (state.see sourceKey o).2) :: (state.see sourceKey o).1.sees rest

def Changes.evicted (changes : Changes) : List String := changes.add.map fun rule => rule.2.2

/-- A run of observations beside what it may forget: the latest end of a block that ended, of each
client's sources, and the latest start of a window of each client. -/
structure Watch where
  state : State
  ended : String → String → Option ℕ
  left : String → ℕ

/-- The end of the source's block, if it ended by `now`. -/
def Client.ends (client : Client) (now : ℕ) (key : String) : Option ℕ :=
  (client.blocks[key]?.filter fun block => !decide (now < block.expires)).map Block.expires

def later : Option ℕ → Option ℕ → Option ℕ
  | some a, some b => some (max a b)
  | some a, none => some a
  | none, b => b

def Watch.see (watch : Watch) (o : Observation) : Watch :=
  { state := (watch.state.see sourceKey o).1
    ended := fun email key =>
      if email = o.email then
        later (watch.ended email key) ((watch.state.client email).ends o.now key)
      else watch.ended email key
    left := fun email =>
      if email = o.email then max (watch.left email) o.since else watch.left email }

def Watch.sees (watch : Watch) (os : List Observation) : Watch := os.foldl (Watch.see sourceKey) watch

def Watch.start (state : State) : Watch := ⟨state, fun _ _ => none, fun _ => 0⟩

/-- A source whose block ended counts because of a connection opened after that end. -/
def CountsAnew (watch : Watch) (o : Observation) : Prop :=
  ∀ key ∈ (watch.state.counted sourceKey o.email o.policy o.online o.now).1.sources,
    ∀ expires, (watch.see sourceKey o).ended o.email key = some expires →
      ∃ (ip : String) (seen : Int), o.online[ip]? = some seen ∧ sourceKey ip = some key ∧
        expires < seen.toNat

/-- The window does not go back behind the end of a block that an earlier window has left, unless
the source is blocked again. -/
def KeepsWindow (watch : Watch) (o : Observation) : Prop :=
  ∀ key expires, watch.ended o.email key = some expires →
    key ∈ (watch.state.client o.email).blocks ∨ expires < o.since ∨ watch.left o.email ≤ expires

end

/-! What one observation counts. -/

section
variable {sourceKey : String → Option String} {state : State} {client : Client} {email : String}
  {policy : Policy} {online : BTreeMap String Int} {now : ℕ} {key : String}

/-- A counted source has a connection in the window, opened after the recorded end of its block. -/
theorem active_connection (counts : key ∈ client.active sourceKey policy online now) :
    ∃ (ip : String) (seen : Int), online[ip]? = some seen ∧ sourceKey ip = some key ∧
      now - policy.windowSeconds ≤ seen.toNat ∧
      ∀ expires, client.released[key]? = some expires → expires < seen.toNat := by
  rw [Client.active, Std.ExtTreeMap.foldl_eq_foldl_toList] at counts
  have reported : ∀ entry ∈ online.toList, online[entry.1]? = some entry.2 :=
    fun _ member => BTreeMap.mem_toList.mp member
  generalize online.toList = entries at counts reported
  let Fresh (key : String) : Prop :=
    ∃ (ip : String) (seen : Int), online[ip]? = some seen ∧ sourceKey ip = some key ∧
      now - policy.windowSeconds ≤ seen.toNat ∧
      ∀ expires, client.released[key]? = some expires → expires < seen.toNat
  have start : ∀ k ∈ (∅ : BTreeMap String ℕ), Fresh k := by
    intro k member
    simp at member
  generalize (∅ : BTreeMap String ℕ) = active at counts start
  induction entries generalizing active with
  | nil => exact start key counts
  | cons entry rest ih =>
    refine ih (fun other member => reported other (List.mem_cons_of_mem _ member)) _ counts ?_
    intro k member
    cases named : sourceKey entry.1 with
    | none => exact start k (by simpa [named] using member)
    | some name =>
      simp only [named] at member
      split at member
      · exact start k member
      next free =>
        rw [Std.ExtTreeMap.mem_insert] at member
        rcases member with same | member
        · rw [Std.LawfulEqOrd.eq_of_compare same] at named free
          rw [Bool.or_eq_true, Bool.or_eq_true, not_or, not_or, decide_eq_true_iff, not_lt] at free
          refine ⟨entry.1, entry.2, reported entry List.mem_cons_self, named, free.1.1, ?_⟩
          intro expires recorded
          have old := free.2
          rw [recorded, Option.any_some, decide_eq_true_iff, not_le] at old
          exact old
        · exact start k member

theorem expire_blocks : (client.expire policy now).1.blocks[key]? =
    client.blocks[key]?.filter fun block => decide (now < block.expires) := by
  rw [Client.expire]
  exact BTreeMap.get_filter ..

/-- An ended block leaves its end behind, as long as it lies in the window. -/
theorem expire_released : (client.expire policy now).1.released[key]? =
    ((client.ends now key).or client.released[key]?).filter fun expires =>
      decide (now - policy.windowSeconds ≤ expires) := by
  rw [Client.expire, Client.ends]
  simp only [BTreeMap.get_filter, BTreeMap.get_upsertAll]
  cases client.blocks[key]?.filter fun block => !decide (now < block.expires) with
  | none => rfl
  | some block => rfl

theorem counted_active
    (counts : key ∈ (state.counted sourceKey email policy online now).1.sources) :
    key ∈ ((state.client email).expire policy now).1.active sourceKey policy online now :=
  mem_admitSources.mp counts

theorem counted_blocks : (state.counted sourceKey email policy online now).1.blocks =
    ((state.client email).expire policy now).1.blocks := rfl

theorem counted_released : (state.counted sourceKey email policy online now).1.released =
    ((state.client email).expire policy now).1.released := rfl

/-- A counted source is not blocked any more. -/
theorem counted_ended (counts : key ∈ (state.counted sourceKey email policy online now).1.sources)
    {block : Block} (blocked : (state.client email).blocks[key]? = some block) :
    block.expires ≤ now := by
  have free := counted_unblocked counts
  rw [counted_blocks, Std.ExtTreeMap.mem_iff_isSome_getElem?, expire_blocks, blocked,
    Option.filter_some] at free
  by_contra holds
  rw [not_le] at holds
  simp [holds] at free

/-! What one observation leaves. -/

theorem evictions_released (sources : List String) (pass : Pass) :
    (sources.foldl (Pass.evict email policy now) pass).client.released = pass.client.released := by
  induction sources generalizing pass with
  | nil => rfl
  | cons source rest ih =>
    rw [List.foldl_cons, ih, Pass.evict]
    cases policy.mode with
    | observe =>
      dsimp only
      split <;> rfl
    | enforce => rfl

theorem evictions_block (sources : List String) (pass : Pass) {block : Block} :
    (sources.foldl (Pass.evict email policy now) pass).client.blocks[key]? = some block →
      pass.client.blocks[key]? = some block ∨ block.expires = now + policy.cooldownSeconds := by
  induction sources generalizing pass with
  | nil => exact .inl
  | cons source rest ih =>
    intro held
    rcases ih _ held with old | new
    · rw [Pass.evict] at old
      cases watching : policy.mode with
      | observe =>
        rw [watching] at old
        dsimp only at old
        split at old <;> exact .inl old
      | enforce =>
        rw [watching] at old
        dsimp only at old
        rw [BTreeMap.get_insert] at old
        split at old
        · cases old
          exact .inr rfl
        · exact .inl old
    · exact .inr new

theorem see_client (o : Observation) :
    (state.see sourceKey o).1.client o.email =
      (state.pass sourceKey o.email o.policy o.online o.now).client := by
  rw [State.client, State.see, observe_client]
  rfl

theorem see_other (o : Observation) (other : email ≠ o.email) :
    (state.see sourceKey o).1.client email = state.client email := by
  rw [State.client, State.see, State.observe, BTreeMap.get_insert, if_neg (Ne.symm other)]
  rfl

theorem pass_released : (state.pass sourceKey email policy online now).client.released =
    ((state.client email).expire policy now).1.released := by
  rw [State.pass, evictions_released]
  rfl

/-- A block after an observation is one that still holds, or the observation's. -/
theorem pass_block {block : Block}
    (held : (state.pass sourceKey email policy online now).client.blocks[key]? = some block) :
    (state.client email).blocks[key]? = some block ∧ now < block.expires ∨
      block.expires = now + policy.cooldownSeconds := by
  rcases evictions_block _ _ held with old | new
  · rw [counted_blocks, expire_blocks, Option.filter_eq_some_iff] at old
    exact .inl ⟨old.1, of_decide_eq_true old.2⟩
  · exact .inr new

/-- A block that still holds stays, up to a new block of its source. -/
theorem pass_blocked (blocked : key ∈ ((state.client email).expire policy now).1.blocks) :
    key ∈ (state.pass sourceKey email policy online now).client.blocks := by
  cases watching : policy.mode with
  | observe =>
    obtain ⟨-, -, -, -, blocks⟩ := @evictions_observe email _ now watching
      ((state.counted sourceKey email policy online now).1.excess policy)
      ⟨(state.counted sourceKey email policy online now).1, state.nextRule,
        ⟨[], (state.counted sourceKey email policy online now).2, []⟩⟩
    rw [State.pass, blocks]
    exact blocked
  | enforce =>
    rw [State.pass, evictions_blocks watching]
    exact .inr blocked

end

/-! Sources whose block ended. -/

/-- What is known of the sources whose block ended, as of `clock`. -/
structure Remembered (watch : Watch) (clock : ℕ) : Prop where
  past : ∀ email key expires, watch.ended email key = some expires → expires ≤ clock
  again : ∀ email key expires, watch.ended email key = some expires → ∀ block,
    (watch.state.client email).blocks[key]? = some block → expires ≤ block.expires
  known : ∀ email key expires, watch.ended email key = some expires →
    key ∈ (watch.state.client email).blocks ∨ expires < watch.left email ∨
      ∃ recorded, (watch.state.client email).released[key]? = some recorded ∧ expires ≤ recorded

section
variable {sourceKey : String → Option String} {watch : Watch} {clock : ℕ} {o : Observation}

theorem remembered_start (state : State) : Remembered (.start state) clock :=
  ⟨nofun, nofun, nofun⟩

theorem ends_some {client : Client} {now : ℕ} {key : String} {expires : ℕ} :
    client.ends now key = some expires ↔
      ∃ block, client.blocks[key]? = some block ∧ block.expires = expires ∧ expires ≤ now := by
  rw [Client.ends, Option.map_eq_some_iff]
  constructor
  · rintro ⟨block, held, rfl⟩
    rw [Option.filter_eq_some_iff] at held
    exact ⟨block, held.1, rfl, by simpa using held.2⟩
  · rintro ⟨block, held, rfl, finished⟩
    refine ⟨block, ?_, rfl⟩
    rw [Option.filter_eq_some_iff]
    exact ⟨held, by simpa using finished⟩

/-- The latest end of a block after an observation: of a block that just ended, or as before. -/
theorem see_ended (kept : Remembered watch clock) {key : String} {expires : ℕ}
    (ended : (watch.see sourceKey o).ended o.email key = some expires) :
    (watch.state.client o.email).ends o.now key = some expires ∨
      (watch.state.client o.email).ends o.now key = none ∧
        watch.ended o.email key = some expires := by
  simp only [Watch.see, if_true] at ended
  cases now : (watch.state.client o.email).ends o.now key with
  | none =>
    rw [now] at ended
    cases before : watch.ended o.email key with
    | none => exact nomatch (before ▸ ended : later none none = some expires)
    | some old =>
      rw [before] at ended
      exact .inr ⟨rfl, ended⟩
  | some latest =>
    obtain ⟨block, held, same, _⟩ := ends_some.mp now
    rw [now] at ended
    refine .inl ?_
    cases before : watch.ended o.email key with
    | none =>
      rw [before] at ended
      exact ended
    | some old =>
      have order := kept.again o.email key old before block held
      rw [before, later, Option.some.injEq] at ended
      rw [Option.some.injEq]
      omega

theorem see_ended_other {email key : String} (other : email ≠ o.email) :
    (watch.see sourceKey o).ended email key = watch.ended email key := if_neg other

theorem remembered_see (kept : Remembered watch clock) (time : clock ≤ o.now) :
    Remembered (watch.see sourceKey o) o.now := by
  have past {key : String} {expires : ℕ}
      (ended : (watch.see sourceKey o).ended o.email key = some expires) : expires ≤ o.now := by
    rcases see_ended kept ended with finished | ⟨_, before⟩
    · obtain ⟨_, _, _, le⟩ := ends_some.mp finished
      exact le
    · exact (kept.past o.email key expires before).trans time
  constructor
  · intro email key expires ended
    by_cases mine : email = o.email
    · subst mine
      exact past ended
    · rw [see_ended_other mine] at ended
      exact (kept.past email key expires ended).trans time
  · intro email key expires ended block held
    by_cases mine : email = o.email
    · subst mine
      have le := past ended
      rw [Watch.see, see_client] at held
      rcases pass_block held with ⟨_, holds⟩ | new
      · omega
      · omega
    · rw [see_ended_other mine] at ended
      rw [Watch.see, see_other o mine] at held
      exact kept.again email key expires ended block held
  · intro email key expires ended
    by_cases mine : email = o.email
    · subst mine
      have left : (watch.see sourceKey o).left o.email = max (watch.left o.email) o.since :=
        if_pos rfl
      have released : ((watch.see sourceKey o).state.client o.email).released =
          ((watch.state.client o.email).expire o.policy o.now).1.released := by
        rw [Watch.see, see_client, pass_released]
      -- The recorded end stays while it lies in the window.
      have stays {recorded : ℕ} (le : expires ≤ recorded)
          (found : ((watch.state.client o.email).ends o.now key).or
            (watch.state.client o.email).released[key]? = some recorded) :
          expires < (watch.see sourceKey o).left o.email ∨
            ∃ recorded, ((watch.see sourceKey o).state.client o.email).released[key]? =
              some recorded ∧ expires ≤ recorded := by
        by_cases within : o.since ≤ recorded
        · refine .inr ⟨recorded, ?_, le⟩
          rw [released, expire_released, found, Option.filter_some]
          exact if_pos (decide_eq_true within)
        · rw [left]
          exact .inl (by omega)
      rcases see_ended kept ended with finished | ⟨none, before⟩
      · exact .inr (stays le_rfl (by rw [finished, Option.some_or]))
      · rcases kept.known o.email key expires before with blocked | gone | ⟨recorded, found, le⟩
        · refine .inl ?_
          rw [Watch.see, see_client]
          apply pass_blocked
          rw [Std.ExtTreeMap.mem_iff_isSome_getElem?] at blocked ⊢
          obtain ⟨block, held⟩ := Option.isSome_iff_exists.mp blocked
          rw [expire_blocks, held, Option.filter_some]
          have holds : o.now < block.expires := by
            by_contra finished
            rw [not_lt] at finished
            exact nomatch none.symm.trans (ends_some.mpr ⟨block, held, rfl, finished⟩)
          rw [if_pos (decide_eq_true holds)]
          rfl
        · rw [left]
          exact .inr (.inl (by omega))
        · exact .inr (stays le (by rw [none, Option.none_or, found]))
    · rw [see_ended_other mine] at ended
      have left : (watch.see sourceKey o).left email = watch.left email := if_neg mine
      rw [left, Watch.see, see_other o mine]
      exact kept.known email key expires ended

theorem remembered_counts (kept : Remembered watch clock) (keeps : KeepsWindow watch o) :
    CountsAnew sourceKey watch o := by
  intro key counts expires ended
  obtain ⟨ip, seen, reported, named, within, after⟩ := active_connection (counted_active counts)
  refine ⟨ip, seen, reported, named, ?_⟩
  have released := @expire_released (watch.state.client o.email) o.policy o.now key
  -- A recorded end of the block is older than the connection, in the window or before it.
  have newer {recorded : ℕ} (found : ((watch.state.client o.email).ends o.now key).or
      (watch.state.client o.email).released[key]? = some recorded) : recorded < seen.toNat := by
    rw [found, Option.filter_some] at released
    by_cases inside : o.now - o.policy.windowSeconds ≤ recorded
    · rw [if_pos (decide_eq_true inside)] at released
      exact after recorded released
    · omega
  rcases see_ended kept ended with finished | ⟨none, before⟩
  · exact newer (by rw [finished, Option.some_or])
  · have unblocked : key ∉ (watch.state.client o.email).blocks := by
      intro blocked
      rw [Std.ExtTreeMap.mem_iff_isSome_getElem?] at blocked
      obtain ⟨block, held⟩ := Option.isSome_iff_exists.mp blocked
      exact nomatch none.symm.trans (ends_some.mpr ⟨block, held, rfl, counted_ended counts held⟩)
    rcases keeps key expires before with blocked | outside | left
    · exact absurd blocked unblocked
    · exact outside.trans_le within
    · rcases kept.known o.email key expires before with blocked | gone | ⟨recorded, found, le⟩
      · exact absurd blocked unblocked
      · omega
      · exact le.trans_lt (newer (by rw [none, Option.none_or, found]))

end

/-! Runs of observations. -/

section
variable (sourceKey : String → Option String)

def KeepsRun (watch : Watch) : List Observation → Prop
  | [] => True
  | o :: rest => KeepsWindow watch o ∧ KeepsRun (watch.see sourceKey o) rest

/-- Times do not go back. -/
def Ordered (os : List Observation) : Prop := os.Pairwise fun a b => a.now ≤ b.now

variable {sourceKey}

theorem remembered_run {watch : Watch} {clock : ℕ} {o : Observation} (kept : Remembered watch clock)
    (os : List Observation) (times : ∀ a ∈ os ++ [o], clock ≤ a.now) (ordered : Ordered (os ++ [o]))
    (keeps : KeepsRun sourceKey watch (os ++ [o])) :
    CountsAnew sourceKey (watch.sees sourceKey os) o := by
  induction os generalizing watch clock with
  | nil => exact remembered_counts kept keeps.1
  | cons first rest ih =>
    rw [Ordered, List.cons_append, List.pairwise_cons] at ordered
    have next : Remembered (watch.see sourceKey first) first.now :=
      remembered_see kept (times first List.mem_cons_self)
    exact ih next ordered.1 ordered.2 keeps.2

/-- In every run whose windows do not go back behind the end of a block, a source whose block ended
counts because of a connection that was opened after it. -/
theorem released_counts_anew (sourceKey : String → Option String) (state : State)
    (os : List Observation) (o : Observation) (ordered : Ordered (os ++ [o]))
    (keeps : KeepsRun sourceKey (.start state) (os ++ [o])) :
    CountsAnew sourceKey ((Watch.start state).sees sourceKey os) o := by
  have start : Remembered (.start state) 0 := remembered_start state
  refine remembered_run start os ?_ ordered keeps
  exact fun a _ => Nat.zero_le a.now

/-- A window that starts where an earlier one did or later keeps every end. -/
theorem keeps_since {watch : Watch} {o : Observation} (start : watch.left o.email ≤ o.since) :
    KeepsWindow watch o := by
  intro key expires _
  by_cases outside : expires < o.since
  · exact .inr (.inl outside)
  · rw [not_lt] at outside
    exact .inr (.inr (start.trans outside))

end

def samplePhone (now window : ℕ) (online : List (String × Int)) : Observation :=
  ⟨"phone", ⟨1, .enforce, window, 30⟩,
    online.foldl (fun seen entry => seen.insert entry.1 entry.2) ∅, now⟩

/-- A source is evicted until 1040 and stays online, with nothing new; `window` is the one at
1050. -/
def sampleReturn (window : ℕ) : List Observation :=
  [samplePhone 1000 120 [("198.51.100.1", 1000)],
    samplePhone 1010 120 [("198.51.100.1", 1000), ("203.0.113.9", 1010)],
    samplePhone 1050 window [("198.51.100.1", 1000), ("203.0.113.9", 1050)]]

def sampleLast : Observation :=
  samplePhone 1060 120 [("198.51.100.1", 1000), ("203.0.113.9", 1060)]

def sampleNetwork (ip : String) : Option String := some (ip ++ "/32")

theorem sampleReturn_ordered (window : ℕ) : Ordered (sampleReturn window ++ [sampleLast]) := by
  simp [Ordered, sampleReturn, sampleLast, samplePhone]

theorem released_counts_anew_sample :
    CountsAnew sampleNetwork ((Watch.start .default).sees sampleNetwork (sampleReturn 120))
      sampleLast := by
  refine released_counts_anew sampleNetwork .default (sampleReturn 120) sampleLast
    (sampleReturn_ordered 120) ⟨?_, ?_, ?_, ?_, trivial⟩
  · exact keeps_since (by decide)
  · exact keeps_since (by decide)
  · exact keeps_since (by decide)
  · exact keeps_since (by decide)

/-- A window of five seconds forgets the end of the block: the source counts again with its
connection from before the block, and evicts the network that replaced it. -/
theorem short_window_forgets :
    ¬ CountsAnew sampleNetwork ((Watch.start .default).sees sampleNetwork (sampleReturn 5))
      sampleLast := by
  intro anew
  have counts : "198.51.100.1/32" ∈ (((Watch.start .default).sees sampleNetwork
      (sampleReturn 5)).state.counted sampleNetwork "phone" sampleLast.policy sampleLast.online
      1060).1.sources := by decide +kernel
  have ended : (((Watch.start .default).sees sampleNetwork (sampleReturn 5)).see sampleNetwork
      sampleLast).ended "phone" "198.51.100.1/32" = some 1040 := by decide +kernel
  obtain ⟨ip, seen, reported, named, after⟩ := anew _ counts 1040 ended
  have old : sampleLast.online.toList = [("198.51.100.1", 1000), ("203.0.113.9", 1060)] := by
    decide
  rw [← BTreeMap.mem_toList, old, List.mem_cons, List.mem_singleton] at reported
  rcases reported with same | same
  · cases same
    omega
  · cases same
    exact absurd named (by decide)

/-! Evictions. -/

section
variable (sourceKey : String → Option String)

def State.after (state : State) (os : List Observation) : State :=
  os.foldl (fun state o => (state.see sourceKey o).1) state

variable {sourceKey} {state : State} {o : Observation} {email key : String} {policy : Policy}

theorem mem_sees {os : List Observation} {b : Observation × Changes}
    (member : b ∈ state.sees sourceKey os) :
    ∃ before rest, os = before ++ b.1 :: rest ∧
      b.2 = ((state.after sourceKey before).see sourceKey b.1).2 := by
  induction os generalizing state with
  | nil => cases member
  | cons o os ih =>
    rw [State.sees, List.mem_cons] at member
    rcases member with same | member
    · subst same
      exact ⟨[], os, rfl, rfl⟩
    · obtain ⟨before, rest, split, made⟩ := ih member
      exact ⟨o :: before, rest, by rw [split]; rfl, made⟩

theorem evictions_kept (enforcing : policy.mode = .enforce) {now : ℕ} (sources : List String)
    (pass : Pass) (apart : key ∉ sources) :
    (sources.foldl (Pass.evict email policy now) pass).client.blocks[key]? =
      pass.client.blocks[key]? := by
  induction sources generalizing pass with
  | nil => rfl
  | cons source rest ih =>
    rw [List.mem_cons, not_or] at apart
    rw [List.foldl_cons, ih _ apart.2, evict_enforce enforcing, BTreeMap.get_insert,
      if_neg (Ne.symm apart.1)]

/-- A block that holds stays as it is. -/
theorem block_stays {block : Block} (held : (state.client o.email).blocks[key]? = some block)
    (holds : o.now < block.expires) :
    ((state.see sourceKey o).1.client o.email).blocks[key]? = some block := by
  have kept : (state.counted sourceKey o.email o.policy o.online o.now).1.blocks[key]? =
      some block := by
    rw [counted_blocks, expire_blocks, held, Option.filter_some]
    exact if_pos (decide_eq_true holds)
  rw [see_client, State.pass]
  cases mode : o.policy.mode with
  | observe =>
    rw [(evictions_observe mode _ _).2.2.2.2]
    exact kept
  | enforce =>
    rw [evictions_kept mode]
    · exact kept
    · intro excess
      have finished := counted_ended (excess_counted excess) held
      omega

/-- A source counts again once its block ended. -/
theorem block_ends {block : Block} (os : List Observation)
    (held : (state.client email).blocks[key]? = some block) (ordered : Ordered (os ++ [o]))
    (mine : o.email = email)
    (counts : key ∈ ((state.after sourceKey os).counted sourceKey o.email o.policy o.online
      o.now).1.sources) : block.expires ≤ o.now := by
  induction os generalizing state with
  | nil =>
    subst mine
    exact counted_ended counts held
  | cons first rest ih =>
    rw [Ordered, List.cons_append, List.pairwise_cons] at ordered
    by_cases same : email = first.email
    · by_cases holds : first.now < block.expires
      · subst same
        exact ih (block_stays held holds) ordered.2 counts
      · have next := ordered.1 o (List.mem_append_right _ List.mem_cons_self)
        omega
    · exact ih (by rw [see_other first same]; exact held) ordered.2 counts

section
variable (enforcing : o.policy.mode = .enforce)
include enforcing

theorem see_evicted : (state.see sourceKey o).2.evicted =
    (state.counted sourceKey o.email o.policy o.online o.now).1.excess o.policy :=
  evicted_sources enforcing

theorem evicted_block (gone : key ∈ (state.see sourceKey o).2.evicted) :
    ∃ block, ((state.see sourceKey o).1.client o.email).blocks[key]? = some block ∧
      block.expires = o.now + o.policy.cooldownSeconds := by
  rw [see_evicted enforcing] at gone
  have held : key ∈ (state.pass sourceKey o.email o.policy o.online o.now).client.blocks := by
    rw [State.pass, evictions_blocks enforcing]
    exact .inl gone
  rw [Std.ExtTreeMap.mem_iff_isSome_getElem?] at held
  obtain ⟨block, found⟩ := Option.isSome_iff_exists.mp held
  rw [see_client]
  refine ⟨block, found, ?_⟩
  rcases pass_block found with ⟨old, holds⟩ | new
  · have finished := counted_ended (excess_counted gone) old
    omega
  · exact new

/-- An evicted source does not count before its cooldown is over. -/
theorem evicted_counts {b : Observation} (os : List Observation)
    (gone : key ∈ (state.see sourceKey o).2.evicted) (ordered : Ordered (o :: (os ++ [b])))
    (mine : b.email = o.email)
    (counts : key ∈ (((state.see sourceKey o).1.after sourceKey os).counted sourceKey b.email
      b.policy b.online b.now).1.sources) : o.now + o.policy.cooldownSeconds ≤ b.now := by
  obtain ⟨block, held, expires⟩ := evicted_block enforcing gone
  rw [Ordered, List.pairwise_cons] at ordered
  rw [← expires]
  exact block_ends os held ordered.2 mine counts

end

/-- Two networks that are both over a limit of at least one both count. -/
theorem both_count {x y : String} (enforcing : o.policy.mode = .enforce)
    (parties : ∀ ip k, ip ∈ o.online → sourceKey ip = some k → k = x ∨ k = y)
    (limit : 1 ≤ o.policy.maxSources) (evicts : (state.see sourceKey o).2.evicted ≠ []) :
    (state.see sourceKey o).2.evicted.length ≤ 1 ∧
    (∀ k ∈ (state.see sourceKey o).2.evicted, k = x ∨ k = y) ∧
    ∀ k, k = x ∨ k = y →
      k ∈ (state.counted sourceKey o.email o.policy o.online o.now).1.sources := by
  rw [see_evicted enforcing] at evicts ⊢
  let client := (state.counted sourceKey o.email o.policy o.online o.now).1
  have keys : ∀ k ∈ client.sources.keys, k = x ∨ k = y := by
    intro k member
    obtain ⟨ip, seen, reported, named, _⟩ :=
      active_connection (counted_active (Std.ExtTreeMap.mem_keys.mp member))
    refine parties ip k ?_ named
    rw [Std.ExtTreeMap.mem_iff_isSome_getElem?, reported]
    rfl
  have distinct : client.sources.keys.Nodup := Std.ExtTreeMap.nodup_keys
  have within : client.sources.keys ⊆ [x, y] := by
    intro k member
    rcases keys k member with same | same <;> simp [same]
  have size : client.sources.keys.length = client.sources.size := Std.ExtTreeMap.length_keys
  have few : client.sources.keys.length ≤ 2 := (List.subperm_of_subset distinct within).length_le
  have length := excess_length client o.policy
  have positive : 0 < (client.excess o.policy).length := List.length_pos_iff.mpr evicts
  refine ⟨?_, ?_, ?_⟩
  · show (client.excess o.policy).length ≤ 1
    omega
  · intro k gone
    exact keys k (Std.ExtTreeMap.mem_keys.mpr (excess_counted gone))
  · intro k party
    have all : client.sources.keys.Perm [x, y] := by
      refine (List.subperm_of_subset distinct within).perm_of_length_le ?_
      rw [List.length_cons, List.length_cons, List.length_nil]
      omega
    refine Std.ExtTreeMap.mem_keys.mp (all.mem_iff.mpr ?_)
    rcases party with same | same <;> simp [same]

/-- A relation between any two observations of a run, the first before the second. -/
theorem sees_pairwise {R : Observation × Changes → Observation × Changes → Prop}
    (os : List Observation)
    (two : ∀ before a between b rest, os = before ++ a :: (between ++ b :: rest) →
      R (a, ((state.after sourceKey before).see sourceKey a).2)
        (b, ((((state.after sourceKey before).see sourceKey a).1.after sourceKey between).see
          sourceKey b).2)) : (state.sees sourceKey os).Pairwise R := by
  induction os generalizing state with
  | nil => exact .nil
  | cons o rest ih =>
    rw [State.sees, List.pairwise_cons]
    constructor
    · intro b member
      obtain ⟨between, after, split, made⟩ := mem_sees member
      rw [← Prod.eta b, made]
      exact two [] o between b.1 after (by rw [split]; rfl)
    · apply ih
      intro before a between b after split
      exact two (o :: before) a between b after (by rw [split]; rfl)

theorem Ordered.between {os before between rest : List Observation} {a b : Observation}
    (ordered : Ordered os) (split : os = before ++ a :: (between ++ b :: rest)) :
    Ordered (a :: (between ++ [b])) := by
  rw [split, Ordered, List.pairwise_append] at ordered
  refine ordered.2.1.sublist ?_
  refine List.Sublist.cons_cons a ((List.Sublist.refl between).append ?_)
  exact List.Sublist.cons_cons b (List.nil_sublist rest)

theorem mem_split {os before between rest : List Observation} {a b : Observation}
    (split : os = before ++ a :: (between ++ b :: rest)) : a ∈ os ∧ b ∈ os := by
  rw [split]
  constructor <;> simp

end

/-- In every run with one enforcing policy, two evictions of a source lie a cooldown apart; where
the client is only used from two networks, any two evictions do. -/
theorem evictions_apart (sourceKey : String → Option String) (state : State) (email : String)
    (policy : Policy) (os : List Observation) (enforcing : policy.mode = .enforce)
    (constant : ∀ o ∈ os, o.email = email → o.policy = policy) (ordered : Ordered os) :
    (∀ a ∈ state.sees sourceKey os, a.1.email = email → a.2.evicted.Nodup) ∧
    (state.sees sourceKey os).Pairwise (fun a b => a.1.email = email → b.1.email = email →
      ∀ key ∈ a.2.evicted, key ∈ b.2.evicted →
        a.1.now + policy.cooldownSeconds ≤ b.1.now) ∧
    ∀ x y, 1 ≤ policy.maxSources →
      (∀ o ∈ os, o.email = email → ∀ ip k, ip ∈ o.online → sourceKey ip = some k →
        k = x ∨ k = y) →
      (∀ a ∈ state.sees sourceKey os, a.1.email = email → a.2.evicted.length ≤ 1) ∧
      (state.sees sourceKey os).Pairwise fun a b => a.1.email = email → b.1.email = email →
        a.2.evicted ≠ [] → b.2.evicted ≠ [] → a.1.now + policy.cooldownSeconds ≤ b.1.now := by
  have enforces {o : Observation} (member : o ∈ os) (mine : o.email = email) :
      o.policy.mode = .enforce := by
    rw [constant o member mine]
    exact enforcing
  refine ⟨?_, ?_, ?_⟩
  · intro a member mine
    obtain ⟨before, rest, split, made⟩ := mem_sees member
    rw [made, see_evicted (enforces (by rw [split]; simp) mine)]
    exact excess_nodup _ _
  · apply sees_pairwise
    intro before a between b rest split first second key gone again
    obtain ⟨early, late⟩ := mem_split split
    dsimp only at first second again ⊢
    rw [see_evicted (enforces late second)] at again
    have apart := evicted_counts (enforces early first) between gone (ordered.between split)
      (second.trans first.symm) (excess_counted again)
    rw [constant a early first] at apart
    exact apart
  · intro x y limit parties
    have limits {o : Observation} (member : o ∈ os) (mine : o.email = email) :
        1 ≤ o.policy.maxSources := by
      rw [constant o member mine]
      exact limit
    constructor
    · intro a member mine
      obtain ⟨before, rest, split, made⟩ := mem_sees member
      have early : a.1 ∈ os := by rw [split]; simp
      rw [made]
      by_cases none : ((state.after sourceKey before).see sourceKey a.1).2.evicted = []
      · rw [none]
        exact Nat.zero_le 1
      · exact (both_count (enforces early mine) (parties a.1 early mine) (limits early mine)
          none).1
    · apply sees_pairwise
      intro before a between b rest split first second evicts again
      obtain ⟨early, late⟩ := mem_split split
      dsimp only at first second evicts again ⊢
      obtain ⟨_, keys, _⟩ := both_count (enforces early first) (parties a early first)
        (limits early first) evicts
      obtain ⟨_, _, counts⟩ := both_count (enforces late second) (parties b late second)
        (limits late second) again
      obtain ⟨key, gone⟩ := List.exists_mem_of_ne_nil _ evicts
      have apart := evicted_counts (enforces early first) between gone (ordered.between split)
        (second.trans first.symm) (counts key (keys key gone))
      rw [constant a early first] at apart
      exact apart

theorem evictions_apart_sample :
    (State.default.sees sampleNetwork (sampleReturn 120)).Pairwise fun a b =>
      a.1.email = "phone" → b.1.email = "phone" →
        a.2.evicted ≠ [] → b.2.evicted ≠ [] → a.1.now + 30 ≤ b.1.now := by
  have online : ∀ o ∈ sampleReturn 120, ∀ entry ∈ o.online.toList,
      entry.1 = "198.51.100.1" ∨ entry.1 = "203.0.113.9" := by decide
  have ordered := sampleReturn_ordered 120
  rw [Ordered, List.pairwise_append] at ordered
  refine (evictions_apart sampleNetwork .default "phone" ⟨1, .enforce, 120, 30⟩ (sampleReturn 120)
    rfl ?_ ordered.1).2.2 "198.51.100.1/32" "203.0.113.9/32" le_rfl ?_ |>.2
  · intro o member _
    simp only [sampleReturn, List.mem_cons, List.not_mem_nil, or_false] at member
    rcases member with same | same | same <;> rw [same] <;> rfl
  · intro o member _ ip k reported named
    rw [Std.ExtTreeMap.mem_iff_isSome_getElem?] at reported
    obtain ⟨seen, found⟩ := Option.isSome_iff_exists.mp reported
    rcases online o member (ip, seen) (BTreeMap.mem_toList.mpr found) with same | same
    · cases same
      cases named
      exact .inl rfl
    · cases same
      cases named
      exact .inr rfl

end Admission
end Xray
end NodePlane
