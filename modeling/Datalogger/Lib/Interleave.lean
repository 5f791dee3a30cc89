import Datalogger.Lib.Trace

/-!
# A program interrupted between its statements

A main program makes calls. Each call is a list of statements, executed one by
one; a statement may put further statements in front of what the call has left
(a branch), and emits what an observer of the run should see. Between any two
statements an interrupt may run to its end on the shared state.

A schedule is a list of `Move`s, so "for every interleaving" is a quantifier over
lists. `Interruptible.run_history` is the rule for such statements: a relation
between what was observed, the state and the statements left holds of every run
as soon as a call, a statement and an interrupt each keep it.
-/

namespace Datalogger.Lib

variable {σ κ γ ι β : Type}

/-- Calls `γ` made of statements `κ`, and an interrupt with inputs `ι`, over the
shared state `σ`. `exec` gives the new state, the statements to go on with and
what was observed. -/
structure Interruptible (σ κ γ ι β : Type) where
  body : γ → List κ
  exec : σ → κ → σ × List κ × List β
  interrupt : σ → ι → σ × List β

/-- The shared state and what the call in progress still has to execute. -/
structure Frame (σ κ : Type) where
  state : σ
  todo : List κ

/-- What may happen next: the main program makes a call, it executes one
statement, or the interrupt fires. -/
inductive Move (γ ι : Type) where
  | call (c : γ)
  | next
  | fire (i : ι)
  deriving DecidableEq, Repr

/-- One move. A call is only made when none is in progress, and there is no next
statement when none is; the other moves leave everything as it is. -/
def Interruptible.step (p : Interruptible σ κ γ ι β) (m : Frame σ κ) :
    Move γ ι → Frame σ κ × List β
  | .call c =>
    match m.todo with
    | [] => ({ m with todo := p.body c }, [])
    | _ :: _ => (m, [])
  | .next =>
    match m.todo with
    | [] => (m, [])
    | k :: ks =>
      let r := p.exec m.state k
      ({ state := r.1, todo := r.2.1 ++ ks }, r.2.2)
  | .fire i =>
    let r := p.interrupt m.state i
    ({ m with state := r.1 }, r.2)

/-- The frame and the observations after the schedule `moves`. -/
def Interruptible.run (p : Interruptible σ κ γ ι β) (m : Frame σ κ) (moves : List (Move γ ι)) :
    Frame σ κ × List β :=
  Lib.run p.step m moves

/-- Every statement the schedule executes is executed in a frame with `G`. -/
def Interruptible.Guarded (p : Interruptible σ κ γ ι β) (G : Frame σ κ → Prop) (m : Frame σ κ)
    (moves : List (Move γ ι)) : Prop :=
  ∀ pre post, moves = pre ++ .next :: post → G (p.run m pre).1

theorem Interruptible.Guarded.init {p : Interruptible σ κ γ ι β} {G : Frame σ κ → Prop}
    {m : Frame σ κ} {as : List (Move γ ι)} {a : Move γ ι} (h : p.Guarded G m (as ++ [a])) :
    p.Guarded G m as := by
  intro pre post hsplit
  refine h pre (post ++ [a]) ?_
  rw [hsplit, List.append_assoc, List.cons_append]

theorem Interruptible.guarded_nil (p : Interruptible σ κ γ ι β) (G : Frame σ κ → Prop)
    (m : Frame σ κ) : p.Guarded G m [] := by
  intro pre post hsplit
  simp at hsplit

/-- A schedule is guarded if its first move is and the rest is from the next frame. -/
theorem Interruptible.guarded_cons (p : Interruptible σ κ γ ι β) {G : Frame σ κ → Prop}
    {m : Frame σ κ} {a : Move γ ι} {as : List (Move γ ι)} :
    p.Guarded G m (a :: as) ↔ (a = .next → G m) ∧ p.Guarded G (p.step m a).1 as := by
  constructor
  · intro h
    refine ⟨fun ha => h [] as (by rw [ha]; rfl), fun pre post hsplit => ?_⟩
    exact h (a :: pre) post (by rw [hsplit, List.cons_append])
  · rintro ⟨hfirst, hrest⟩ pre post hsplit
    cases pre with
    | nil =>
      obtain ⟨rfl, -⟩ := List.cons.inj hsplit
      exact hfirst rfl
    | cons b pre =>
      obtain ⟨rfl, htail⟩ := List.cons.inj hsplit
      exact hrest pre post htail

instance Interruptible.decidableGuarded [DecidableEq γ] [DecidableEq ι]
    (p : Interruptible σ κ γ ι β) (G : Frame σ κ → Prop) [DecidablePred G] :
    (m : Frame σ κ) → (moves : List (Move γ ι)) → Decidable (p.Guarded G m moves)
  | m, [] => isTrue (p.guarded_nil G m)
  | m, a :: as =>
    have := p.decidableGuarded G (p.step m a).1 as
    decidable_of_iff _ p.guarded_cons.symm

/-- **The rule for interleavings.** A relation between the observations and the
frame that every call, every statement executed in a frame with `G` and every
interrupt keeps holds of every run whose statements are executed in such frames. -/
theorem Interruptible.run_history {p : Interruptible σ κ γ ι β} {G : Frame σ κ → Prop}
    {m : Frame σ κ} (P : List β → Frame σ κ → Prop) (init : P [] m)
    (call : ∀ outs s c, P outs ⟨s, []⟩ → P outs ⟨s, p.body c⟩)
    (exec : ∀ outs s k ks, P outs ⟨s, k :: ks⟩ → G ⟨s, k :: ks⟩ →
      P (outs ++ (p.exec s k).2.2) ⟨(p.exec s k).1, (p.exec s k).2.1 ++ ks⟩)
    (interrupt : ∀ outs s ks i, P outs ⟨s, ks⟩ →
      P (outs ++ (p.interrupt s i).2) ⟨(p.interrupt s i).1, ks⟩)
    (moves : List (Move γ ι)) (hG : p.Guarded G m moves) :
    P (p.run m moves).2 (p.run m moves).1 := by
  induction moves using List.reverseRecOn with
  | nil => exact init
  | append_singleton as a ih =>
    have hold := ih hG.init
    have hguard : a = .next → G (p.run m as).1 := by
      intro ha
      exact hG as [] (by rw [ha])
    unfold Interruptible.run at hold hguard ⊢
    rw [run_snoc]
    generalize Lib.run p.step m as = r at hold hguard
    obtain ⟨⟨s, todo⟩, outs⟩ := r
    cases a with
    | call c =>
      cases todo with
      | nil =>
        show P (outs ++ []) _
        rw [List.append_nil]
        exact call outs s c hold
      | cons k ks =>
        show P (outs ++ []) _
        rw [List.append_nil]
        exact hold
    | next =>
      cases todo with
      | nil =>
        show P (outs ++ []) _
        rw [List.append_nil]
        exact hold
      | cons k ks => exact exec outs s k ks hold (hguard rfl)
    | fire i => exact interrupt outs s todo i hold

/-- A run in two parts. -/
theorem Interruptible.run_trans {p : Interruptible σ κ γ ι β} {m m₁ m₂ : Frame σ κ}
    {as bs : List (Move γ ι)} {out₁ out₂ : List β} (h₁ : p.run m as = (m₁, out₁))
    (h₂ : p.run m₁ bs = (m₂, out₂)) : p.run m (as ++ bs) = (m₂, out₁ ++ out₂) := by
  unfold Interruptible.run at h₁ h₂ ⊢
  rw [run_append, h₁, h₂]

end Datalogger.Lib
