import Mathlib.Data.List.Basic

/-! Runs of a system that reports events: the runs of a step relation, the runs
of a step function over its calls, and the rule for invariants over the state
together with the events reported so far. -/
namespace Library
variable {σ κ ε : Type}

/-- Runs of the step relation `R`, with their events oldest first. -/
inductive Steps (R : σ → List ε → σ → Prop) : σ → List ε → σ → Prop
  | refl (s : σ) : Steps R s [] s
  | head {s t u : σ} {es fs : List ε} : R s es t → Steps R t fs u → Steps R s (es ++ fs) u

namespace Steps
variable {R : σ → List ε → σ → Prop} {s t u : σ} {es fs : List ε}

theorem single (h : R s es t) : Steps R s es t := by
  simpa using Steps.head h (Steps.refl t)

theorem trans (first : Steps R s es t) (second : Steps R t fs u) : Steps R s (es ++ fs) u := by
  induction first with
  | refl => simpa using second
  | head step _ ih => simpa [List.append_assoc] using Steps.head step (ih second)

/-- A run of one relation is a run of every relation whose runs cover its steps. -/
theorem lift {Q : σ → List ε → σ → Prop} (cover : ∀ {s es t}, R s es t → Steps Q s es t)
    (run : Steps R s es t) : Steps Q s es t := by
  induction run with
  | refl s => exact Steps.refl s
  | head step _ ih => exact (cover step).trans ih

/-- The induction rule for facts about the state and the events so far. -/
theorem history {Inv : List ε → σ → Prop}
    (step : ∀ {past s es t}, Inv past s → R s es t → Inv (past ++ es) t)
    {past : List ε} (start : Inv past s) (run : Steps R s es t) : Inv (past ++ es) t := by
  induction run generalizing past with
  | refl => simpa using start
  | head one _ ih =>
    have next := ih (step start one)
    simpa [List.append_assoc] using next

/-- The induction rule for facts about the state alone. -/
theorem invariant {Inv : σ → Prop} (step : ∀ {s es t}, Inv s → R s es t → Inv t)
    (start : Inv s) (run : Steps R s es t) : Inv t := by
  induction run with
  | refl => exact start
  | head one _ ih => exact ih (step start one)

/-- Each event of a run is reported by one of its steps. -/
theorem reported (run : Steps R s es u) :
    ∀ {a x c}, es = a ++ x :: c → ∃ past t pre post t', Steps R s past t ∧
      R t (pre ++ x :: post) t' ∧ a = past ++ pre := by
  induction run with
  | refl => intro a x c h; simp at h
  | @head s t u es fs one rest ih =>
    intro a x c h
    rcases List.append_eq_append_iff.mp h with ⟨b, rfl, tail⟩ | ⟨b, rfl, tail⟩
    · obtain ⟨past, t₁, pre, post, t₂, before, step, rfl⟩ := ih tail
      exact ⟨es ++ past, t₁, pre, post, t₂, .head one before, step, by simp⟩
    · cases b with
      | nil =>
        have tail : fs = [] ++ x :: c := tail.symm
        obtain ⟨past, t₁, pre, post, t₂, before, step, rest⟩ := ih tail
        obtain ⟨rfl, rfl⟩ := List.append_eq_nil_iff.mp rest.symm
        exact ⟨a ++ [], t₁, [], post, t₂, by simpa using Steps.head one before, step, by simp⟩
      | cons y b =>
        simp only [List.cons_append, List.cons.injEq] at tail
        obtain ⟨rfl, -⟩ := tail
        exact ⟨[], s, a, b, t, .refl s, one, rfl⟩

end Steps

/-- The state and the events after `calls`, oldest first. -/
def run (exec : σ → κ → σ × List ε) (s : σ) : List κ → σ × List ε
  | [] => (s, [])
  | c :: cs =>
    let one := exec s c
    let rest := run exec one.1 cs
    (rest.1, one.2 ++ rest.2)

@[simp] theorem run_nil (exec : σ → κ → σ × List ε) (s : σ) : run exec s [] = (s, []) := rfl

theorem run_append (exec : σ → κ → σ × List ε) (s : σ) (cs ds : List κ) :
    run exec s (cs ++ ds) =
      ((run exec (run exec s cs).1 ds).1, (run exec s cs).2 ++ (run exec (run exec s cs).1 ds).2) := by
  induction cs generalizing s with
  | nil => simp
  | cons c cs ih => simp [run, ih, List.append_assoc]

/-- A step function whose calls are runs of `R` only has runs of `R`. -/
theorem run_steps {R : σ → List ε → σ → Prop} {exec : σ → κ → σ × List ε}
    (step : ∀ s c, Steps R s (exec s c).2 (exec s c).1) (s : σ) (cs : List κ) :
    Steps R s (run exec s cs).2 (run exec s cs).1 := by
  induction cs generalizing s with
  | nil => exact Steps.refl s
  | cons c cs ih => exact (step s c).trans (ih _)

/-- The induction rule for a step function: facts about the events so far and the
state, kept by every call. -/
theorem run_invariant {exec : σ → κ → σ × List ε} (Inv : List ε → σ → Prop)
    (step : ∀ past s c, Inv past s → Inv (past ++ (exec s c).2) (exec s c).1)
    {past : List ε} {s : σ} (start : Inv past s) (cs : List κ) :
    Inv (past ++ (run exec s cs).2) (run exec s cs).1 := by
  induction cs generalizing past s with
  | nil => simpa using start
  | cons c cs ih =>
    have rest := ih (step past s c start)
    simpa [run, List.append_assoc] using rest

end Library
