import Mathlib.Data.List.Perm.Basic

/-!
# Collecting entries that may occur once

A step that reads entries, a key with a value, and takes every key it knows at most once.

* `OnceStep` — what such a step looks at: the key, its value, and whether the key was there;
* `OnceStep.comm` — two entries may change places;
* `foldlM_perm` — and so may all the entries of a run;
* `OnceStep.foldlM_repeated` — a run with a repeated key fails.
-/

namespace Aimx
namespace Transition

/-- A step over entries `κ × ν` that knows some keys.  It passes over the others and fails on a known key
that was there before or has a value that it does not accept. -/
structure OnceStep {σ κ ν : Type} (step : σ → κ → ν → Option σ) (known : κ → Prop) where
  seen : σ → κ → Bool
  accepts : κ → ν → Bool
  put : σ → κ → ν → σ
  step_unknown : ∀ {k}, ¬ known k → ∀ s v, step s k v = some s
  step_known : ∀ {k}, known k → ∀ s v,
    step s k v = if seen s k = false ∧ accepts k v = true then some (put s k v) else none
  seen_put : ∀ {k v}, known k → accepts k v = true → ∀ s k',
    seen (put s k v) k' = true ↔ seen s k' = true ∨ k = k'
  put_comm : ∀ {k k'}, k ≠ k' → ∀ s v v', put (put s k v) k' v' = put (put s k' v') k v

variable {σ κ ν α : Type}

/-- A run that may exchange neighbours may be permuted. -/
theorem foldlM_perm {f : σ → α → Option σ}
    (hcomm : ∀ s a b, (f s a).bind (fun s => f s b) = (f s b).bind fun s => f s a) {l l' : List α}
    (hperm : l.Perm l') (s : σ) : l.foldlM f s = l'.foldlM f s := by
  induction hperm generalizing s with
  | nil => rfl
  | cons a _ ih =>
    rw [List.foldlM_cons, List.foldlM_cons]
    exact congrArg _ (funext ih)
  | swap a b l =>
    simp only [List.foldlM_cons, Option.bind_eq_bind, ← Option.bind_assoc, hcomm s b a]
  | trans _ _ ih ih' => exact (ih s).trans (ih' s)

namespace OnceStep

variable {step : σ → κ → ν → Option σ} {known : κ → Prop} (once : OnceStep step known)

include once

/-- A known key that was there is still there behind any other step. -/
theorem seen_of_step {s s' : σ} {k k' : κ} {v : ν} (h : step s k v = some s')
    (hseen : once.seen s k' = true) :
    once.seen s' k' = true := by
  by_cases hk : known k
  · rw [once.step_known hk] at h
    split at h
    next haccept =>
      cases h
      exact (once.seen_put hk haccept.2 s k').mpr (.inl hseen)
    next => cases h
  · rw [once.step_unknown hk] at h
    cases h
    exact hseen

/-- The second of two entries with one known key fails. -/
theorem step_repeated {s s' : σ} {k : κ} {v : ν} (hk : known k) (h : step s k v = some s') :
    once.seen s' k = true ∧ ∀ v', step s' k v' = none := by
  rw [once.step_known hk] at h
  split at h
  next haccept =>
    cases h
    have hseen := (once.seen_put hk haccept.2 s k).mpr (.inr rfl)
    exact ⟨hseen, fun v' => by rw [once.step_known hk, if_neg (by simp [hseen])]⟩
  next => cases h

/-- Two entries may change places. -/
theorem comm (s : σ) (k k' : κ) (v v' : ν) :
    (step s k v).bind (fun s => step s k' v') = (step s k' v').bind fun s => step s k v := by
  classical
  by_cases hk : known k
  swap
  · simp [once.step_unknown hk]
  by_cases hk' : known k'
  swap
  · simp [once.step_unknown hk']
  by_cases hkk : k = k'
  · -- one key: both orders fail
    subst hkk
    have hnone : ∀ v v', (step s k v).bind (fun s => step s k v') = none := by
      intro v v'
      cases h : step s k v with
      | none => rfl
      | some s' => exact (once.step_repeated hk h).2 v'
    rw [hnone, hnone]
  · have hseen : ∀ {k k' v}, known k → k ≠ k' → once.accepts k v = true →
        once.seen (once.put s k v) k' = once.seen s k' := by
      intro k k' v hk hkk haccept
      rw [Bool.eq_iff_iff, once.seen_put hk haccept]
      simp [hkk]
    rw [once.step_known hk, once.step_known hk']
    by_cases ha : once.seen s k = false ∧ once.accepts k v = true <;>
      by_cases ha' : once.seen s k' = false ∧ once.accepts k' v' = true
    · rw [if_pos ha, if_pos ha', Option.bind_some, Option.bind_some, once.step_known hk', once.step_known hk,
        hseen hk hkk ha.2, hseen hk' (Ne.symm hkk) ha'.2, if_pos ha, if_pos ha', once.put_comm hkk]
    · rw [if_pos ha, if_neg ha', Option.bind_some, once.step_known hk', hseen hk hkk ha.2, if_neg ha']
      rfl
    · rw [if_neg ha, if_pos ha', Option.bind_some, once.step_known hk,
        hseen hk' (Ne.symm hkk) ha'.2, if_neg ha]
      rfl
    · rw [if_neg ha, if_neg ha']
      rfl

end OnceStep

/-! ## Runs over encoded entries -/

/-- A step over entries that have to be decoded first. -/
def decoded (decode : α → Option (κ × ν)) (step : σ → κ → ν → Option σ) (s : σ) (a : α) : Option σ :=
  (decode a).bind fun entry => step s entry.1 entry.2

variable {step : σ → κ → ν → Option σ} {known : κ → Prop} (once : OnceStep step known)
  {decode : α → Option (κ × ν)}

include once

theorem decoded_comm (s : σ) (a b : α) :
    (decoded decode step s a).bind (fun s => decoded decode step s b) =
      (decoded decode step s b).bind fun s => decoded decode step s a := by
  unfold decoded
  cases ha : decode a with
  | none =>
    cases hb : decode b with
    | none => rfl
    | some entry => simp
  | some entry =>
    cases hb : decode b with
    | none => simp
    | some entry' => exact once.comm s entry.1 entry'.1 entry.2 entry'.2

/-- What was there stays there over a run. -/
theorem seen_of_foldlM {l : List α} {s s' : σ} {k : κ} (h : l.foldlM (decoded decode step) s = some s')
    (hseen : once.seen s k = true) : once.seen s' k = true := by
  induction l generalizing s with
  | nil =>
    cases h
    exact hseen
  | cons a l ih =>
    rw [List.foldlM_cons] at h
    obtain ⟨next, hnext, hrest⟩ := Option.bind_eq_some_iff.mp h
    obtain ⟨entry, -, hstep⟩ := Option.bind_eq_some_iff.mp hnext
    exact ih hrest (once.seen_of_step hstep hseen)

/-- A run with a repeated known key fails. -/
theorem foldlM_repeated {k : κ} {v v' : ν} {a b : α} (hk : known k) (ha : decode a = some (k, v))
    (hb : decode b = some (k, v')) (l₁ l₂ l₃ : List α) (s : σ) :
    (l₁ ++ a :: (l₂ ++ b :: l₃)).foldlM (decoded decode step) s = none := by
  rw [List.foldlM_append]
  cases h₁ : l₁.foldlM (decoded decode step) s with
  | none => rfl
  | some s₁ =>
    show (a :: (l₂ ++ b :: l₃)).foldlM (decoded decode step) s₁ = none
    rw [List.foldlM_cons]
    cases hfirst : decoded decode step s₁ a with
    | none => rfl
    | some s₂ =>
      rw [decoded, ha] at hfirst
      have hseen := (once.step_repeated hk hfirst).1
      show (l₂ ++ b :: l₃).foldlM (decoded decode step) s₂ = none
      rw [List.foldlM_append]
      cases h₂ : l₂.foldlM (decoded decode step) s₂ with
      | none => rfl
      | some s₃ =>
        have hthere := seen_of_foldlM once h₂ hseen
        have hlast : decoded decode step s₃ b = none := by
          rw [decoded, hb, Option.bind_some, once.step_known hk, if_neg (by simp [hthere])]
        show (b :: l₃).foldlM (decoded decode step) s₃ = none
        rw [List.foldlM_cons, hlast]
        rfl

end Transition
end Aimx
