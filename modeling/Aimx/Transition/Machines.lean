import Mathlib.Data.List.ReduceOption

/-!
# Machines that answer and are restarted

A machine answers every event.  A restart takes from its state what was not stored, and answers nothing.  When
a machine and what is left of it behind a restart both refine the same machine, which is never restarted, no
answer tells that there were restarts.

* `replay`, `replayRestarts` — the state and the answers after a history, without and with restarts;
* `Refines` — the answers of two machines agree on every event that meets a condition;
* `Refines.replayRestarts_eq` — restarts change no answer.
-/

namespace Aimx
namespace Transition

/-- What an event does, and what is answered. -/
abbrev Machine (σ ε ω : Type*) := σ → ε → σ × ω

namespace Machine

variable {σ τ ε ω : Type*}

/-- The state after a history, and the answers. -/
def replay (m : Machine σ ε ω) : σ → List ε → σ × List ω
  | s, [] => (s, [])
  | s, e :: es => ((replay m (m s e).1 es).1, (m s e).2 :: (replay m (m s e).1 es).2)

/-- The same for a history in which `none` is a restart. -/
def replayRestarts (m : Machine σ ε ω) (restart : σ → σ) : σ → List (Option ε) → σ × List ω
  | s, [] => (s, [])
  | s, none :: es => replayRestarts m restart (restart s) es
  | s, some e :: es =>
      ((replayRestarts m restart (m s e).1 es).1, (m s e).2 :: (replayRestarts m restart (m s e).1 es).2)

/-- Every event meets a condition, which looks at the state before it. -/
def Meets (m : Machine σ ε ω) (P : σ → ε → Prop) : σ → List ε → Prop
  | _, [] => True
  | s, e :: es => P s e ∧ Meets m P (m s e).1 es

/-- The same for a history with restarts. -/
def MeetsRestarts (m : Machine σ ε ω) (restart : σ → σ) (P : σ → ε → Prop) : σ → List (Option ε) → Prop
  | _, [] => True
  | s, none :: es => MeetsRestarts m restart P (restart s) es
  | s, some e :: es => P s e ∧ MeetsRestarts m restart P (m s e).1 es

theorem MeetsRestarts.and {m : Machine σ ε ω} {restart : σ → σ} {P Q : σ → ε → Prop} {s : σ}
    {es : List (Option ε)} (hP : MeetsRestarts m restart P s es) (hQ : MeetsRestarts m restart Q s es) :
    MeetsRestarts m restart (fun s e => P s e ∧ Q s e) s es := by
  induction es generalizing s with
  | nil => trivial
  | cons e es ih =>
      cases e with
      | none => exact ih hP hQ
      | some e => exact ⟨⟨hP.1, hQ.1⟩, ih hP.2 hQ.2⟩

/-- What every event that meets the condition keeps holds behind every history. -/
theorem replay_invariant {m : Machine σ ε ω} {P : σ → ε → Prop} {I : σ → Prop}
    (hkeep : ∀ s e, I s → P s e → I (m s e).1) {s : σ} {es : List ε} (hs : I s) (hmeets : Meets m P s es) :
    I (replay m s es).1 := by
  induction es generalizing s with
  | nil => exact hs
  | cons e es ih => exact ih (hkeep s e hs hmeets.1) hmeets.2

/-- What every event that meets the condition keeps, and every restart, holds behind every history. -/
theorem replayRestarts_invariant {m : Machine σ ε ω} {restart : σ → σ} {P : σ → ε → Prop} {I : σ → Prop}
    (hkeep : ∀ s e, I s → P s e → I (m s e).1) (hrestart : ∀ s, I s → I (restart s))
    {s : σ} {es : List (Option ε)} (hs : I s) (hmeets : MeetsRestarts m restart P s es) :
    I (replayRestarts m restart s es).1 := by
  induction es generalizing s with
  | nil => exact hs
  | cons e es ih =>
      cases e with
      | none => exact ih (hrestart s hs) hmeets
      | some e => exact ih (hkeep s e hs hmeets.1) hmeets.2

/-- A machine that answers as another one does, from states that stand in a relation, for the events that meet
a condition on the state of the other. -/
structure Refines (m : Machine σ ε ω) (spec : Machine τ ε ω) (P : τ → ε → Prop) (R : σ → τ → Prop) :
    Prop where
  answer : ∀ {s : σ} {t : τ} {e : ε}, R s t → P t e → (m s e).2 = (spec t e).2
  keeps : ∀ {s : σ} {t : τ} {e : ε}, R s t → P t e → R (m s e).1 (spec t e).1

section Refinement

variable {m : Machine σ ε ω} {spec : Machine τ ε ω} {P : τ → ε → Prop} {R : σ → τ → Prop} {restart : σ → σ}
  {s : σ} {t : τ}

/-- The answers to a history with restarts are those that the other machine gives without them. -/
theorem Refines.replayRestarts_eq (h : Refines m spec P R) (hrestart : ∀ {s t}, R s t → R (restart s) t)
    {es : List (Option ε)} (hR : R s t) (hmeets : Meets spec P t es.reduceOption) :
    (replayRestarts m restart s es).2 = (replay spec t es.reduceOption).2 ∧
      R (replayRestarts m restart s es).1 (replay spec t es.reduceOption).1 := by
  induction es generalizing s t with
  | nil => exact ⟨rfl, hR⟩
  | cons e es ih =>
      cases e with
      | none =>
          rw [List.reduceOption_cons_of_none] at hmeets ⊢
          exact ih (hrestart hR) hmeets
      | some e =>
          rw [List.reduceOption_cons_of_some] at hmeets ⊢
          obtain ⟨hanswers, hlast⟩ := ih (h.keeps hR hmeets.1) hmeets.2
          refine ⟨?_, hlast⟩
          show (m s e).2 :: _ = (spec t e).2 :: _
          rw [h.answer hR hmeets.1, hanswers]

theorem replayRestarts_map_some (m : Machine σ ε ω) (restart : σ → σ) (s : σ) (es : List ε) :
    replayRestarts m restart s (es.map some) = replay m s es := by
  induction es generalizing s with
  | nil => rfl
  | cons e es ih =>
      show ((replayRestarts m restart (m s e).1 (es.map some)).1, _) = _
      rw [ih]
      rfl

/-- **Restarts change no answer**, where what a restart leaves refines the same machine as what was there. -/
theorem Refines.replayRestarts_transparent (h : Refines m spec P R)
    (hrestart : ∀ {s t}, R s t → R (restart s) t) {es : List (Option ε)} (hR : R s t)
    (hmeets : Meets spec P t es.reduceOption) :
    (replayRestarts m restart s es).2 = (replay m s es.reduceOption).2 ∧
      ∃ t', R (replayRestarts m restart s es).1 t' ∧ R (replay m s es.reduceOption).1 t' := by
  obtain ⟨hanswers, hlast⟩ := h.replayRestarts_eq hrestart hR hmeets
  have hsome : (es.reduceOption.map some).reduceOption = es.reduceOption := by
    rw [List.reduceOption, List.filterMap_map]
    exact List.filterMap_some
  have hplain :
      (replayRestarts m restart s (es.reduceOption.map some)).2 = (replay spec t es.reduceOption).2 ∧
      R (replayRestarts m restart s (es.reduceOption.map some)).1 (replay spec t es.reduceOption).1 := by
    have hsame := h.replayRestarts_eq hrestart hR (hsome.symm ▸ hmeets)
    rwa [hsome] at hsame
  rw [replayRestarts_map_some] at hplain
  exact ⟨hanswers.trans hplain.1.symm, _, hlast, hplain.2⟩

end Refinement

end Machine
end Transition
end Aimx
