import Mathlib.Data.List.Induction

/-!
# Runs of a transducer

A component that is called again and again, by an interrupt, by the main loop or
by a received line, is a step function `σ → α → σ × List β`: the action changes
the state and emits outputs. `run` folds it over a whole list of actions, and
`run_history` is the one induction every "for every run" statement below goes
through: a relation between the actions so far, the outputs so far and the state
that holds initially and survives one step holds of every run.
-/

namespace Datalogger.Lib

variable {σ α β : Type}

/-- The final state and all outputs of a run. -/
def run (step : σ → α → σ × List β) : σ → List α → σ × List β
  | s, [] => (s, [])
  | s, a :: as =>
    let r := run step (step s a).1 as
    (r.1, (step s a).2 ++ r.2)

theorem run_append (step : σ → α → σ × List β) :
    ∀ (as bs : List α) (s : σ),
      run step s (as ++ bs)
        = ((run step (run step s as).1 bs).1,
            (run step s as).2 ++ (run step (run step s as).1 bs).2) := by
  intro as
  induction as with
  | nil => intro bs s; simp [run]
  | cons a as ih =>
    intro bs s
    simp only [List.cons_append, run, ih, List.append_assoc]

/-- The last action of a run, seen from the state the rest of it reached. -/
theorem run_snoc (step : σ → α → σ × List β) (s : σ) (as : List α) (a : α) :
    run step s (as ++ [a])
      = ((step (run step s as).1 a).1, (run step s as).2 ++ (step (run step s as).1 a).2) := by
  rw [run_append]
  simp [run]

/-- An output of a run is one of the step that emitted it. -/
theorem mem_run_iff {step : σ → α → σ × List β} {b : β} :
    ∀ {as : List α} {s : σ}, b ∈ (run step s as).2 ↔
      ∃ before a since, as = before ++ a :: since ∧ b ∈ (step (run step s before).1 a).2 := by
  intro as
  induction as with
  | nil =>
    intro s
    refine iff_of_false nofun ?_
    rintro ⟨before, a, since, has, -⟩
    exact absurd has (List.append_ne_nil_of_right_ne_nil _ (List.cons_ne_nil a since)).symm
  | cons c as ih =>
    intro s
    show b ∈ (step s c).2 ++ (run step (step s c).1 as).2 ↔ _
    rw [List.mem_append, ih]
    constructor
    · rintro (hhead | ⟨before, a, since, rfl, hb⟩)
      · exact ⟨[], c, as, rfl, hhead⟩
      · exact ⟨c :: before, a, since, rfl, hb⟩
    · rintro ⟨before, a, since, has, hb⟩
      cases before with
      | nil =>
        obtain ⟨rfl, -⟩ := List.cons.inj has
        exact Or.inl hb
      | cons d before =>
        obtain ⟨rfl, rfl⟩ := List.cons.inj has
        exact Or.inr ⟨before, a, since, rfl, hb⟩

/-- How many steps of a run are taken where `p` holds. -/
def countRun (step : σ → α → σ × List β) (p : σ → α → Prop) [∀ s a, Decidable (p s a)] :
    σ → List α → Nat
  | _, [] => 0
  | s, a :: as => (if p s a then 1 else 0) + countRun step p (step s a).1 as

theorem countRun_snoc (step : σ → α → σ × List β) (p : σ → α → Prop) [∀ s a, Decidable (p s a)]
    (a : α) : ∀ (as : List α) (s : σ), countRun step p s (as ++ [a])
      = countRun step p s as + if p (run step s as).1 a then 1 else 0 := by
  intro as
  induction as with
  | nil =>
    intro s
    show (if p s a then 1 else 0) + 0 = 0 + if p s a then 1 else 0
    omega
  | cons b as ih =>
    intro s
    rw [List.cons_append, countRun, countRun, run, ih, Nat.add_assoc]

/-- **The run rule.** A relation between the actions, the outputs and the state
that holds at the start and is preserved by every step holds of every run. -/
theorem run_history {step : σ → α → σ × List β} {s₀ : σ}
    (P : List α → List β → σ → Prop) (init : P [] [] s₀)
    (preserved : ∀ as outs s a, P as outs s →
      P (as ++ [a]) (outs ++ (step s a).2) (step s a).1) :
    ∀ as : List α, P as (run step s₀ as).2 (run step s₀ as).1 := by
  intro as
  induction as using List.reverseRecOn with
  | nil => exact init
  | append_singleton as a ih =>
    rw [run_snoc]
    exact preserved as _ _ a ih

/-- An invariant of the state alone, kept by every step, is kept by a run from
any state that satisfies it. -/
theorem run_invariant {step : σ → α → σ × List β} {I : σ → Prop} {s : σ} (hs : I s)
    (preserved : ∀ s a, I s → I (step s a).1) (as : List α) : I (run step s as).1 :=
  run_history (fun _ _ t => I t) hs (fun _ _ t a ht => preserved t a ht) as

/-- If every output emitted from a state with the invariant `I` satisfies `Q`,
so does every output of a run from such a state. -/
theorem run_outputs {step : σ → α → σ × List β} {I : σ → Prop} {Q : β → Prop} {s : σ} (hs : I s)
    (preserved : ∀ s a, I s → I (step s a).1)
    (emits : ∀ s a, I s → ∀ b ∈ (step s a).2, Q b) (as : List α) :
    ∀ b ∈ (run step s as).2, Q b := by
  have h : I (run step s as).1 ∧ ∀ b ∈ (run step s as).2, Q b := by
    refine run_history (fun _ outs t => I t ∧ ∀ b ∈ outs, Q b) ⟨hs, by simp⟩ ?_ as
    intro _ outs t a ht
    refine ⟨preserved t a ht.1, fun b hb => ?_⟩
    rcases List.mem_append.mp hb with hold | hnew
    · exact ht.2 b hold
    · exact emits t a ht.1 b hnew
  exact h.2

/-- Where an element of a list with one more at its end stands. -/
theorem snoc_eq_append_cons {as before since : List α} {a b : α} :
    as ++ [a] = before ++ b :: since ↔
      (since = [] ∧ before = as ∧ b = a) ∨
        ∃ since', since = since' ++ [a] ∧ as = before ++ b :: since' := by
  constructor
  · intro h
    rcases List.eq_nil_or_concat since with rfl | ⟨since', c, rfl⟩
    · obtain ⟨hbefore, hlast⟩ := List.append_inj' h rfl
      exact Or.inl ⟨rfl, hbefore.symm, (List.cons.inj hlast).1.symm⟩
    · rw [List.concat_eq_append] at h ⊢
      have h' : as ++ [a] = (before ++ b :: since') ++ [c] := by
        rw [h, List.append_assoc, List.cons_append]
      obtain ⟨hbefore, hlast⟩ := List.append_inj' h' rfl
      exact Or.inr ⟨since', by rw [(List.cons.inj hlast).1], hbefore⟩
  · rintro (⟨rfl, rfl, rfl⟩ | ⟨since', rfl, rfl⟩)
    · rfl
    · rw [List.append_assoc, List.cons_append]

end Datalogger.Lib
