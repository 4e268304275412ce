import Mathlib.Data.List.Basic

/-!
# Runs of a transition function

A system is a partial function from a state and an action to the next state.  A run is a sequence of
actions that are all enabled when their turn comes; a condition on the single steps, `Allowed`, is what
a law may assume of a run.

* `run` — the state after a sequence of actions;
* `run_invariant` — what every allowed step keeps holds after every allowed run;
* `Standing`, `standing_cons` — the actions of a history that no later one has undone.
-/

namespace Aimx
namespace Transition

variable {σ α : Type*}

/-- The state after a sequence of actions, when each is enabled. -/
def run (step : σ → α → Option σ) : σ → List α → Option σ
  | s, [] => some s
  | s, a :: as =>
      match step s a with
      | some s' => run step s' as
      | none => none

/-- Every step of the run meets the condition `P`, which looks at the state before the step. -/
def Allowed (step : σ → α → Option σ) (P : σ → α → Prop) : σ → List α → Prop
  | _, [] => True
  | s, a :: as =>
      P s a ∧
        match step s a with
        | some s' => Allowed step P s' as
        | none => True

instance Allowed.decidable (step : σ → α → Option σ) (P : σ → α → Prop) [∀ s a, Decidable (P s a)] :
    (s : σ) → (as : List α) → Decidable (Allowed step P s as)
  | _, [] => isTrue trivial
  | s, a :: as =>
      match h : step s a with
      | some s' =>
          have := Allowed.decidable step P s' as
          decidable_of_iff (P s a ∧ Allowed step P s' as) (by simp [Allowed, h])
      | none => decidable_of_iff (P s a) (by simp [Allowed, h])

variable {step : σ → α → Option σ} {P : σ → α → Prop}

theorem allowed_cons_iff {s s' : σ} {a : α} {as : List α} (hstep : step s a = some s') :
    Allowed step P s (a :: as) ↔ P s a ∧ Allowed step P s' as := by
  simp [Allowed, hstep]

theorem run_cons_eq_some_iff {s t : σ} {a : α} {as : List α} :
    run step s (a :: as) = some t ↔ ∃ s', step s a = some s' ∧ run step s' as = some t := by
  cases hstep : step s a with
  | none => simp [run, hstep]
  | some s' => simp [run, hstep]

/-- What every allowed step keeps holds after every allowed run. -/
theorem run_invariant {I : σ → Prop} {s t : σ} {as : List α}
    (hkeep : ∀ s a s', I s → P s a → step s a = some s' → I s') (hinit : I s)
    (hallowed : Allowed step P s as) (hrun : run step s as = some t) : I t := by
  induction as generalizing s with
  | nil =>
      cases hrun
      exact hinit
  | cons a as ih =>
      obtain ⟨s', hstep, hrest⟩ := run_cons_eq_some_iff.mp hrun
      obtain ⟨hP, hallowed'⟩ := (allowed_cons_iff hstep).mp hallowed
      exact ih (hkeep s a s' hinit hP hstep) hallowed' hrest

/-- A condition that an invariant implies is met by a run whose actions keep the invariant. -/
theorem allowed_of_invariant {I : σ → Prop} {Q : α → Prop} {s : σ} {as : List α}
    (hkeep : ∀ s a s', I s → Q a → step s a = some s' → I s') (hmeets : ∀ s a, I s → Q a → P s a)
    (hinit : I s) (has : ∀ a ∈ as, Q a) : Allowed step P s as := by
  induction as generalizing s with
  | nil => trivial
  | cons a as ih =>
      rw [List.forall_mem_cons] at has
      refine ⟨hmeets s a hinit has.1, ?_⟩
      split
      next s' hstep => exact ih (hkeep s a s' hinit has.1 hstep) has.2
      next => trivial

/-- An allowed run meets the condition at each of its steps. -/
theorem Allowed.at {s t : σ} {a : α} {as bs : List α} (h : Allowed step P s (as ++ a :: bs))
    (hrun : run step s as = some t) : P t a := by
  induction as generalizing s with
  | nil =>
      cases hrun
      exact h.1
  | cons b as ih =>
      obtain ⟨s', hstep, hrest⟩ := run_cons_eq_some_iff.mp hrun
      exact ih ((allowed_cons_iff hstep).mp h).2 hrest

/-- A condition that implies another one allows fewer runs. -/
theorem Allowed.mono {Q : σ → α → Prop} {s : σ} {as : List α} (hallowed : Allowed step P s as)
    (h : ∀ s a, P s a → Q s a) : Allowed step Q s as := by
  induction as generalizing s with
  | nil => trivial
  | cons a as ih =>
      obtain ⟨hfirst, hrest⟩ := hallowed
      refine ⟨h s a hfirst, ?_⟩
      split at hrest
      · exact ih hrest
      · trivial

/-- A run that meets two conditions meets both in each step. -/
theorem Allowed.and {Q : σ → α → Prop} {s : σ} {as : List α} (hP : Allowed step P s as)
    (hQ : Allowed step Q s as) : Allowed step (fun s a => P s a ∧ Q s a) s as := by
  induction as generalizing s with
  | nil => trivial
  | cons a as ih =>
      obtain ⟨hfirst, hrest⟩ := hP
      obtain ⟨hfirst', hrest'⟩ := hQ
      refine ⟨⟨hfirst, hfirst'⟩, ?_⟩
      cases hstep : step s a with
      | none => trivial
      | some s' =>
          rw [hstep] at hrest hrest'
          exact ih hrest hrest'

/-- Conditions that agree on every step allow the same runs. -/
theorem allowed_congr {Q : σ → α → Prop} (h : ∀ s a, P s a ↔ Q s a) (s : σ) (as : List α) :
    Allowed step P s as ↔ Allowed step Q s as :=
  ⟨fun hallowed => hallowed.mono fun s a => (h s a).mp,
    fun hallowed => hallowed.mono fun s a => (h s a).mpr⟩

/-- A condition that the actions of a run meet in every state is met. -/
theorem allowed_of_forall_state {as : List α} (h : ∀ a ∈ as, ∀ s, P s a) (s : σ) :
    Allowed step P s as := by
  induction as generalizing s with
  | nil => trivial
  | cons a as ih =>
      refine ⟨h a (by simp) s, ?_⟩
      split
      · exact ih (fun b hb => h b (List.mem_cons_of_mem a hb)) _
      · trivial

/-- A condition on the actions alone is met by a run whose actions all meet it. -/
theorem allowed_of_forall {Q : α → Prop} {as : List α} (h : ∀ a ∈ as, Q a) (s : σ) :
    Allowed step (fun _ a => Q a) s as :=
  allowed_of_forall_state (fun a ha _ => h a ha) s

/-! ## Actions that later ones undo -/

/-- An action of a history, the latest first, that no later one has undone. -/
def Standing (undoes : α → α → Prop) : List α → α → Prop
  | [], _ => False
  | b :: done, a => a = b ∨ ¬ undoes b a ∧ Standing undoes done a

/-- The effects of the standing actions are present, and stay so when one more action brings its own effect
and keeps those that it does not undo. -/
theorem standing_cons {undoes : α → α → Prop} {Present : α → σ → Prop} {done : List α} {b : α} {s s' : σ}
    (h : ∀ a, Standing undoes done a → Present a s) (hnew : Present b s')
    (hkeep : ∀ a, Present a s → ¬ undoes b a → Present a s') :
    ∀ a, Standing undoes (b :: done) a → Present a s' := by
  rintro a (rfl | ⟨hnot, hstanding⟩)
  · exact hnew
  · exact hkeep a (h a hstanding) hnot

end Transition
end Aimx
