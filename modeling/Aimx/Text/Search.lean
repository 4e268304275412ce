import Mathlib.Data.List.Basic
import Mathlib.Data.Nat.Find

/-!
# Searching for a sublist

`List.dropInfix?` cuts a list around the first occurrence of a contiguous sublist: it is
`str::find`, `str::split_once` and byte-window search alike.  This module gives its recursion and the
facts about skipping over places where no occurrence can start.

* `dropInfix?_cons` — the search tries the front and then moves one element on;
* `dropInfix?_eq_some_iff'`, `dropInfix?_eq_none_iff` — what the result means;
* `dropInfix?_append_iff` — a given occurrence is the first one exactly when none starts earlier;
* `splitn` — cutting a text into at most `n` pieces.
-/

namespace Aimx
namespace Text

variable {α : Type*} [BEq α] [LawfulBEq α]

/-- The front of a list is the needle, and the search stops at once. -/
theorem dropInfix?_self_append (needle rest : List α) :
    (needle ++ rest).dropInfix? needle = some ([], rest) := by
  rw [List.dropInfix?_eq_some_iff]
  exact ⟨⟨needle, by simp, by simp⟩, by simp⟩

/-- A found occurrence, without the `BEq` detour. -/
theorem dropInfix?_eq_some_iff' {l needle p s : List α} :
    l.dropInfix? needle = some (p, s) ↔
      l = p ++ needle ++ s ∧ ∀ p' s', l = p' ++ needle ++ s' → p.length ≤ p'.length := by
  rw [List.dropInfix?_eq_some_iff]
  constructor
  · rintro ⟨⟨i', hl, hi⟩, hmin⟩
    rw [eq_of_beq hi] at hl
    exact ⟨hl, fun p' s' h => hmin p' needle s' h (by simp)⟩
  · rintro ⟨hl, hmin⟩
    refine ⟨⟨needle, hl, by simp⟩, fun p' i' s' h hi => hmin p' s' ?_⟩
    rw [eq_of_beq hi] at h
    exact h

/-- Nothing is found exactly when the needle does not occur. -/
theorem dropInfix?_eq_none_iff {l needle : List α} :
    l.dropInfix? needle = none ↔ ¬ needle <:+: l := by
  constructor
  · rintro hnone ⟨p, s, hl⟩
    -- among the occurrences there is one with a shortest prefix
    have hexists : ∃ n p s, l = p ++ needle ++ s ∧ p.length = n := ⟨_, p, s, hl.symm, rfl⟩
    classical
    obtain ⟨p₀, s₀, hl₀, hn₀⟩ := Nat.find_spec hexists
    have hsome : l.dropInfix? needle = some (p₀, s₀) := by
      rw [dropInfix?_eq_some_iff']
      refine ⟨hl₀, fun p' s' h => ?_⟩
      rw [hn₀]
      exact Nat.find_min' hexists ⟨p', s', h, rfl⟩
    rw [hnone] at hsome
    cases hsome
  · intro hnot
    cases hfound : l.dropInfix? needle with
    | none => rfl
    | some r =>
        obtain ⟨p, s⟩ := r
        rw [dropInfix?_eq_some_iff'] at hfound
        exact absurd ⟨p, s, hfound.1.symm⟩ hnot

/-- The search moves on where the needle is not at the front. -/
theorem dropInfix?_cons {a : α} {l needle : List α} (h : ¬ needle <+: a :: l) :
    (a :: l).dropInfix? needle = (l.dropInfix? needle).map fun r => (a :: r.1, r.2) := by
  have hstep : ∀ {p s : List α}, a :: l = p ++ needle ++ s →
      ∃ p', p = a :: p' ∧ l = p' ++ needle ++ s := by
    intro p s hl
    cases p with
    | nil => exact absurd ⟨s, hl.symm⟩ h
    | cons b p' =>
        rw [List.cons_append, List.cons_append, List.cons.injEq] at hl
        obtain ⟨rfl, hl⟩ := hl
        exact ⟨p', rfl, hl⟩
  cases hfound : l.dropInfix? needle with
  | none =>
      rw [dropInfix?_eq_none_iff] at hfound
      rw [Option.map_none, dropInfix?_eq_none_iff]
      rintro ⟨p, s, hl⟩
      obtain ⟨p', -, hl'⟩ := hstep hl.symm
      exact hfound ⟨p', s, hl'.symm⟩
  | some r =>
      obtain ⟨p, s⟩ := r
      rw [dropInfix?_eq_some_iff'] at hfound
      obtain ⟨hl, hmin⟩ := hfound
      rw [Option.map_some, dropInfix?_eq_some_iff']
      refine ⟨by rw [hl]; rfl, fun p' s' h' => ?_⟩
      obtain ⟨p'', rfl, hl''⟩ := hstep h'
      simpa using hmin p'' s' hl''

/-- A search passes over a text in which no occurrence starts. -/
theorem dropInfix?_append_left {needle pre s : List α}
    (h : ∀ p q, pre = p ++ q → q ≠ [] → ¬ needle <+: q ++ s) :
    (pre ++ s).dropInfix? needle = (s.dropInfix? needle).map fun r => (pre ++ r.1, r.2) := by
  induction pre with
  | nil => simp
  | cons a pre ih =>
      have hfront : ¬ needle <+: a :: (pre ++ s) := h [] (a :: pre) rfl (List.cons_ne_nil a pre)
      have hrest := ih fun p q hpq hq => h (a :: p) q (by rw [hpq]; rfl) hq
      rw [List.cons_append, dropInfix?_cons hfront, hrest]
      cases s.dropInfix? needle <;> rfl

/-- A given occurrence of a needle is the one the search finds exactly when no occurrence starts
before it. -/
theorem dropInfix?_append_iff {pre needle rest : List α} (hne : needle ≠ []) :
    (pre ++ needle ++ rest).dropInfix? needle = some (pre, rest) ↔
      ¬ needle <:+: pre ++ needle.dropLast := by
  have hlast : needle.dropLast ++ [needle.getLast hne] = needle :=
    List.dropLast_append_getLast hne
  have hlen : needle.dropLast.length + 1 = needle.length := by
    have := congrArg List.length hlast
    simpa using this
  rw [dropInfix?_eq_some_iff']
  constructor
  · rintro ⟨-, hmin⟩ ⟨p, s, hps⟩
    -- an occurrence inside `pre ++ needle.dropLast` starts before `pre` ends
    have hshort : p.length < pre.length := by
      have := congrArg List.length hps
      simp only [List.length_append] at this
      omega
    have hwhole : pre ++ needle ++ rest =
        p ++ needle ++ (s ++ [needle.getLast hne] ++ rest) := by
      calc pre ++ needle ++ rest
          = pre ++ (needle.dropLast ++ [needle.getLast hne]) ++ rest := by rw [hlast]
        _ = (pre ++ needle.dropLast) ++ [needle.getLast hne] ++ rest := by
            simp only [List.append_assoc]
        _ = (p ++ needle ++ s) ++ [needle.getLast hne] ++ rest := by rw [hps]
        _ = p ++ needle ++ (s ++ [needle.getLast hne] ++ rest) := by
            simp only [List.append_assoc]
    have := hmin p _ hwhole
    omega
  · intro hnone
    refine ⟨rfl, fun p s hps => ?_⟩
    by_contra hshort
    -- the occurrence after `p` ends before the last element of the given one
    have hfront : p ++ needle <+: pre ++ needle.dropLast := by
      have hp : p ++ needle <+: pre ++ needle ++ rest := ⟨s, hps.symm⟩
      have hq : pre ++ needle.dropLast <+: pre ++ needle ++ rest :=
        ⟨needle.getLast hne :: rest, by
          conv_rhs => rw [← hlast]
          simp only [List.append_assoc, List.singleton_append]⟩
      refine List.prefix_of_prefix_length_le hp hq ?_
      simp only [List.length_append]
      omega
    obtain ⟨t, ht⟩ := hfront
    exact hnone ⟨p, t, ht⟩

/-- What is found in a text is found in it when more follows. -/
theorem dropInfix?_append_right {l needle p s : List α} (h : l.dropInfix? needle = some (p, s))
    (rest : List α) : (l ++ rest).dropInfix? needle = some (p, s ++ rest) := by
  obtain ⟨hl, hfirst⟩ := dropInfix?_eq_some_iff'.mp h
  rw [dropInfix?_eq_some_iff']
  refine ⟨by rw [hl, List.append_assoc], ?_⟩
  intro p' s' heq
  by_contra hshort
  rw [Nat.not_le] at hshort
  -- an earlier occurrence ends within the text
  have hwithin : p' ++ needle <+: l := by
    refine List.prefix_of_prefix_length_le ⟨s', heq.symm⟩ (List.prefix_append l rest) ?_
    rw [hl, List.length_append, List.length_append, List.length_append]
    omega
  obtain ⟨s'', hs''⟩ := hwithin
  have hle := hfirst p' s'' hs''.symm
  omega

/-- `str::splitn`: at most `n` pieces, cut at the first occurrences of the needle. -/
def splitn (needle : List α) : Nat → List α → List (List α)
  | 0, _ => []
  | 1, s => [s]
  | n + 2, s =>
      match s.dropInfix? needle with
      | none => [s]
      | some (piece, rest) => piece :: splitn needle (n + 1) rest

end Text
end Aimx
