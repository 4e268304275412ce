import Aimx.Text.Str

/-!
# The text between two brackets

The first opening and the first closing bracket of a text are searched for separately, and what stands
between them is cut out.  The cut is reversed where the closing bracket comes first.

* `between` — the cut;
* `between_cases` — its three outcomes;
* `between_eq_none_iff` — the texts that it fails on.
-/

namespace Aimx
namespace Text

section Between

variable {α : Type*} [DecidableEq α] {opening closing : α}

/-- The text between the first opening and the first closing bracket, or the whole text where one of them
is missing; `none` where the cut would be reversed. -/
def between (opening closing : α) (l : List α) : Option (List α) :=
  match splitOnce opening l, splitOnce closing l with
  | some (front, _), some (stop, _) =>
      if stop.length ≤ front.length then none else some (stop.drop (front.length + 1))
  | _, _ => some l

/-- A closing bracket comes before the first opening one. -/
def ClosesFirst (opening closing : α) (l : List α) : Prop :=
  ∃ front rest, l = front ++ closing :: rest ∧ opening ∉ front ∧ closing ∉ front ∧ opening ∈ rest

/-- Without one of the brackets nothing is cut. -/
theorem between_of_missing {l : List α} (h : opening ∉ l ∨ closing ∉ l) :
    between opening closing l = some l := by
  unfold between
  rcases h with h | h
  · rw [splitOnce_eq_none_iff.mpr h]
  · rw [splitOnce_eq_none_iff.mpr h]
    cases splitOnce opening l <;> rfl

/-- The brackets of a pair. -/
theorem between_of_pair (hne : opening ≠ closing) {front mid : List α} (back : List α)
    (ho : opening ∉ front) (hc : closing ∉ front) (hmid : closing ∉ mid) :
    between opening closing (front ++ opening :: (mid ++ closing :: back)) = some mid := by
  have hopen : splitOnce opening (front ++ opening :: (mid ++ closing :: back)) =
      some (front, mid ++ closing :: back) := splitOnce_eq_some_iff.mpr ⟨rfl, ho⟩
  have hclose : splitOnce closing (front ++ opening :: (mid ++ closing :: back)) =
      some (front ++ opening :: mid, back) := by
    refine splitOnce_eq_some_iff.mpr ⟨by simp, ?_⟩
    simp [hc, hmid, Ne.symm hne]
  have hlen : ¬ (front ++ opening :: mid).length ≤ front.length := by
    rw [List.length_append, List.length_cons]
    omega
  have hdrop : (front ++ opening :: mid).drop (front.length + 1) = mid := by
    rw [List.append_cons, List.drop_left' (by simp)]
  unfold between
  rw [hopen, hclose]
  show (if (front ++ opening :: mid).length ≤ front.length then none
    else some ((front ++ opening :: mid).drop (front.length + 1))) = some mid
  rw [if_neg hlen, hdrop]

/-- The reversed cut. -/
theorem between_of_closesFirst (hne : opening ≠ closing) {l : List α}
    (h : ClosesFirst opening closing l) : between opening closing l = none := by
  obtain ⟨front, rest, rfl, ho, hc, hmem⟩ := h
  obtain ⟨mid, back, rfl, hmid⟩ := List.eq_append_cons_of_mem hmem
  have hclose : splitOnce closing (front ++ closing :: (mid ++ opening :: back)) =
      some (front, mid ++ opening :: back) := splitOnce_eq_some_iff.mpr ⟨rfl, hc⟩
  have hopen : splitOnce opening (front ++ closing :: (mid ++ opening :: back)) =
      some (front ++ closing :: mid, back) := by
    refine splitOnce_eq_some_iff.mpr ⟨by simp, ?_⟩
    simp [ho, hmid, hne]
  have hlen : front.length ≤ (front ++ closing :: mid).length := by
    rw [List.length_append]
    omega
  unfold between
  rw [hopen, hclose]
  show (if front.length ≤ (front ++ closing :: mid).length then none
    else some (front.drop ((front ++ closing :: mid).length + 1))) = none
  rw [if_pos hlen]

/-- A text lacks one of the brackets, or has a pair of them, or a closing one first. -/
theorem between_cases (hne : opening ≠ closing) (l : List α) :
    (opening ∉ l ∨ closing ∉ l) ∨
      (∃ front mid back, l = front ++ opening :: (mid ++ closing :: back) ∧ opening ∉ front ∧
        closing ∉ front ∧ closing ∉ mid) ∨
      ClosesFirst opening closing l := by
  by_cases hopen : opening ∈ l
  · by_cases hclose : closing ∈ l
    · obtain ⟨front, rest, rfl, ho⟩ := List.eq_append_cons_of_mem hopen
      by_cases hc : closing ∈ front
      · -- the closing bracket is found in front of the opening one
        obtain ⟨before, after, rfl, hbefore⟩ := List.eq_append_cons_of_mem hc
        have hsplit : before ++ closing :: after ++ opening :: rest =
            before ++ closing :: (after ++ opening :: rest) := by simp
        exact .inr (.inr ⟨before, after ++ opening :: rest, hsplit,
          fun hmem => ho (List.mem_append_left _ hmem), hbefore, by simp⟩)
      · have hrest : closing ∈ rest := by simpa [hc, Ne.symm hne] using hclose
        obtain ⟨mid, back, rfl, hmid⟩ := List.eq_append_cons_of_mem hrest
        exact .inr (.inl ⟨front, mid, back, rfl, ho, hc, hmid⟩)
    · exact .inl (.inr hclose)
  · exact .inl (.inl hopen)

/-- **The texts that the cut fails on.** -/
theorem between_eq_none_iff (hne : opening ≠ closing) {l : List α} :
    between opening closing l = none ↔ ClosesFirst opening closing l := by
  refine ⟨fun h => ?_, between_of_closesFirst hne⟩
  rcases between_cases hne l with hmissing | ⟨front, mid, back, rfl, ho, hc, hmid⟩ | hfirst
  · rw [between_of_missing hmissing] at h
    cases h
  · rw [between_of_pair hne back ho hc hmid] at h
    cases h
  · exact hfirst

end Between

end Text
end Aimx
