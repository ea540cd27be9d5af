import NodePlane.Agent.Refinement.Profile

/-! Node operations and temporary access are runs of the agent's transitions. -/
namespace NodePlane
open Library

variable {p : Platform} {n : Node}

namespace Operation

private theorem retire_quiet {action commandId instanceId : String} {intent : Json}
    {resolving recover known : Bool} {j : Journal}
    (admitted : admission p action commandId intent resolving recover j = .ok (.retire known)) :
    j.Quiet (retire p action commandId intent instanceId known j) := by
  unfold admission at admitted
  cases found : j.commands.lookup commandId with
  | none =>
    simp only [found] at admitted
    split_ifs at admitted <;> cases admitted
    exact Journal.Quiet.insertCommand found (by simp)
  | some row =>
    simp only [found] at admitted
    split_ifs at admitted with conflict unclosed closed
    · cases admitted
      refine Journal.Quiet.alterCommand fun row' found' => ?_
      rw [found] at found'
      cases found'
      simp only [Bool.and_eq_true, Bool.or_eq_true, decide_eq_true_eq] at unclosed
      refine ⟨⟨rfl, fun stopped => ?_⟩, by simp⟩
      have retired := unclosed.2.resolve_left stopped
      cases row
      cases retired
      rfl
    · cases stored : row.response <;> simp [stored] at admitted

theorem admission_begin {action commandId : String} {intent : Json}
    {resolving recover : Bool} {j : Journal} (instanceId : String) (wrote : Bool)
    (carries : wrote = true → settingsActions.contains action = true)
    (checked : check p action commandId intent = .ok ())
    (admitted : admission p action commandId intent resolving recover j = .ok .start) :
    Begin p j (.operation action commandId intent wrote) (j.insertCommand commandId
      ⟨fingerprint p action intent, .running, none, instanceId⟩) := by
  unfold admission at admitted
  cases found : j.commands.lookup commandId with
  | none =>
    simp only [found] at admitted
    split_ifs at admitted with retires recovers unfinished
    · cases admitted
    · have idle := Journal.unfinished_false.mp (Bool.eq_false_iff.mpr unfinished)
      exact .operation instanceId wrote carries checked found fun id run => by simpa using idle id run
  | some row =>
    simp only [found] at admitted
    split_ifs at admitted with conflict unclosed closed
    · cases admitted
    · cases stored : row.response <;> simp [stored] at admitted

theorem command_covers (owner : Except String String) (instanceId requested commandId : String)
    (intent : Json) (recover : Bool) (outcome : Outcome Json) (reached : Bool) (n : Node) :
    (command p owner instanceId requested commandId intent recover outcome reached n).Covers p n := by
  unfold command
  dsimp only
  cases checked : check p ((resolving requested).getD requested) commandId intent with
  | error err => exact covers_refuse err
  | ok =>
    dsimp only
    split
    · exact covers_refuse _
    split
    · exact covers_refuse _
    · next _ disabled =>
      have enabled := enabled_of disabled
      refine covers_after (k := n.journal.commandsSchema) enabled rfl ⟨rfl, rfl, rfl, rfl⟩ ?_
      cases admitted : admission p ((resolving requested).getD requested) commandId intent
          (resolving requested).isSome recover n.journal.commandsSchema with
      | error err => exact covers_refuse err
      | ok verdict =>
        cases verdict with
        | replay response => exact covers_reply _
        | retire known =>
          refine covers_quiet (n := { n with journal := n.journal.commandsSchema }) enabled ?_
            (retire_quiet admitted) _
          unfold retire
          split <;> rfl
        | start =>
          have begun := admission_begin instanceId (settingsActions.contains
            ((resolving requested).getD requested) && outcome.wrote reached)
            (fun wrote => (Bool.and_eq_true_iff.mp wrote).1) checked admitted
          refine covers_attempt enabled rfl begun fun value journal answer closed => ?_
          cases closed
          exact ⟨Journal.Quiet.closeCommand (begun.runs rfl (by simp)), rfl⟩

end Operation

namespace Temporary

private theorem cancel_covers (instanceId : String) (intent : Intent) (t : Temporary)
    (enabled : n.marker = none) (file : n.journal.schema.file = true)
    (unclosed : ∀ row, n.journal.commands.lookup intent.commandId = some row →
      row.status = .running) :
    (cancel p instanceId intent t n).Covers p n := by
  unfold cancel
  split
  · exact covers_refuse _
  split
  · exact covers_refuse _
  split
  · exact covers_refuse _
  dsimp only
  cases found : n.journal.commands.lookup intent.commandId with
  | none =>
    refine covers_quiet enabled ?_ (Journal.Quiet.insertCommand found ?_) _
    · exact file
    · simp
  | some row =>
    have running : n.journal.Running intent.commandId := ⟨row, found, unclosed row found⟩
    refine covers_quiet enabled ?_ (Journal.Quiet.closeCommand running) _
    exact file

theorem resolveUnused_covers (instanceId : String) (intent : Intent) (t : Temporary) (n : Node) :
    (resolveUnused p instanceId intent t n).Covers p n := by
  unfold resolveUnused
  split
  · exact covers_refuse _
  split
  · exact covers_refuse _
  · next disabled =>
    have enabled := enabled_of disabled
    refine covers_after (k := n.journal.commandsSchema) enabled rfl ⟨rfl, rfl, rfl, rfl⟩ ?_
    dsimp only
    cases found : n.journal.commandsSchema.commands.lookup intent.commandId with
    | none =>
      refine cancel_covers instanceId intent t enabled rfl fun row same => ?_
      rw [found] at same
      cases same
    | some row =>
      dsimp only
      split
      · exact covers_refuse _
      split
      · exact covers_reply _
      split
      · exact covers_refuse _
      · next stopped =>
        refine cancel_covers instanceId intent t enabled rfl fun row' same => ?_
        rw [found] at same
        cases same
        simp only [Bool.or_eq_true, not_or, decide_eq_true_eq, not_not] at stopped
        exact stopped.1

theorem mutation_covers (view : Node) (instanceId action : String) (intent : Intent)
    (recover : Bool) (clock : Profile.Clock) (t : Temporary) (n : Node) :
    (mutation p view instanceId action intent recover clock t n).Covers p n := by
  unfold mutation
  split
  · exact covers_refuse _
  split
  · exact covers_reply _
  split
  · exact covers_refuse _
  · exact Profile.apply_covers intent instanceId clock t.mutate n

theorem temporary_covers (view : Node) (instanceId action commandId : String) (value : Json)
    (recover : Bool) (clock : Profile.Clock) (t : Temporary) (n : Node) :
    (temporary p view instanceId action commandId value recover clock t n).Covers p n := by
  unfold temporary
  dsimp only
  split
  · exact covers_refuse _
  split
  · exact covers_refuse _
  split
  · split
    · exact covers_refuse _
    · exact resolveUnused_covers instanceId _ t n
  split
  · split
    · exact covers_refuse _
    split
    · exact covers_refuse _
    split
    · exact covers_refuse _
    · exact covers_reply _
  split
  · split
    · exact covers_refuse _
    · exact mutation_covers view instanceId action _ recover clock t n
  split
  · split
    · exact covers_refuse _
    split
    · exact covers_refuse _
    · exact covers_refuse _
    split
    · exact covers_reply _
    · exact mutation_covers view instanceId action _ recover clock t n
  · exact covers_refuse _

end Temporary

end NodePlane
