import NodePlane.Agent.Transition
import NodePlane.Agent.Force

/-! Every call of an entry point is a run of the agent's transitions. -/
namespace NodePlane
open Library

variable {p : Platform} {n : Node}

/-- What a call did is a run of transitions. -/
def Ran.Covers (p : Platform) (n : Node) {ε α : Type} (ran : Ran ε α) : Prop :=
  Steps (Transition p) n ran.events ran.node

theorem covers_reply {ε α : Type} (answer : Except ε α) : (Ran.reply n answer).Covers p n :=
  Steps.refl n

theorem covers_refuse {ε α : Type} (err : ε) : (Ran.refuse n err : Ran ε α).Covers p n :=
  Steps.refl n

theorem covers_quiet {ε α : Type} {journal : Journal} (enabled : n.marker = none)
    (file : journal.schema.file = true) (change : n.journal.Quiet journal) (answer : Except ε α) :
    (Ran.reply { n with journal } answer).Covers p n :=
  Steps.single (.quiet enabled file change)

/-- The same call from a journal whose tables were only created. -/
theorem covers_after {ε α : Type} {k : Journal} {ran : Ran ε α}
    (enabled : n.marker = none) (file : k.schema.file = true)
    (same : n.journal.SameRows k) (later : ran.Covers p { n with journal := k }) :
    ran.Covers p n := by
  have created : Steps (Transition p) n [] { n with journal := k } :=
    Steps.single (.quiet enabled file (Journal.Quiet.of_rows same))
  exact created.trans later

theorem enabled_of {n : Node} (h : ¬n.disabled = true) : n.marker = none := by
  simpa [Node.disabled] using h

/-- A begun mutation, whatever becomes of its runner. -/
theorem covers_attempt {ρ ε α : Type} {k : Journal} {invocation : Invocation}
    {outcome : Outcome ρ} {failed : String → ε} {close : ρ → Except ε (Journal × α)}
    (enabled : n.marker = none) (file : k.schema.file = true)
    (begun : Begin p n.journal invocation k)
    (closes : ∀ result journal a, close result = .ok (journal, a) →
      k.Quiet journal ∧ journal.schema.file = true) :
    (attempt { n with journal := k } invocation outcome failed close).Covers p n := by
  unfold Ran.Covers
  have cases := attempt_cases { n with journal := k } invocation outcome failed close
  obtain ⟨node, events⟩ | ⟨node, events⟩ | ⟨result, journal, a, closed, node, events, _⟩ := cases
  · rw [node, events]
    exact Steps.single (.start enabled file begun)
  · rw [node, events]
    exact Steps.single (.invoke enabled file begun)
  · obtain ⟨quiet, kept⟩ := closes result journal a closed
    have invoked : Steps (Transition p) n [⟨invocation, k⟩] { n with journal := k } :=
      Steps.single (.invoke enabled file begun)
    have finished : Steps (Transition p) { n with journal := k } [] { n with journal } :=
      Steps.single (.quiet enabled kept quiet)
    rw [node, events]
    exact invoked.trans finished

end NodePlane
