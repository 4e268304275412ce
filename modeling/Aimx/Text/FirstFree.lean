import Mathlib.Data.List.Nodup
import Mathlib.Data.List.Infix
import Mathlib.Data.List.Perm.Subperm

/-!
# The first free number

A search through numbered candidates for the first one that is not taken.

* `firstFree_eq_some_iff` — what the search finds;
* `exists_firstFree` — it finds something whenever every taken candidate is owed to its own member of a
  shorter list.
-/

namespace Aimx
namespace Text

/-- The first number below `fuel` that is not taken. -/
def firstFree (taken : Nat → Bool) (fuel : Nat) : Option Nat :=
  (List.range fuel).find? fun k => !taken k

theorem firstFree_eq_some_iff {taken : Nat → Bool} {fuel k : Nat} :
    firstFree taken fuel = some k ↔ k < fuel ∧ taken k = false ∧ ∀ j < k, taken j = true := by
  unfold firstFree
  rw [List.find?_range_eq_some]
  simp only [Bool.not_eq_true', List.mem_range, Bool.not_not]
  constructor
  · rintro ⟨hfree, hlt, htaken⟩
    exact ⟨hlt, hfree, htaken⟩
  · rintro ⟨hlt, hfree, htaken⟩
    exact ⟨hfree, hlt, htaken⟩

/-- More candidates than reasons to be taken leave a free one. -/
theorem exists_firstFree {α : Type*} {taken : Nat → Bool} {fuel : Nat} {reason : Nat → α}
    {l : List α} (hreason : ∀ k, taken k = true → reason k ∈ l)
    (hinj : ∀ j k, taken j = true → taken k = true → reason j = reason k → j = k)
    (hfuel : l.length < fuel) : ∃ k, firstFree taken fuel = some k := by
  cases hfind : firstFree taken fuel with
  | some k => exact ⟨k, rfl⟩
  | none =>
      have htaken : ∀ k ∈ List.range fuel, taken k = true := by
        intro k hk
        have hnot := List.find?_eq_none.mp hfind k hk
        simpa using hnot
      -- the reasons of all candidates are distinct members of the list
      have hnodup : ((List.range fuel).map reason).Nodup := by
        apply List.Nodup.map_on _ List.nodup_range
        intro j hj k hk heq
        exact hinj j k (htaken j hj) (htaken k hk) heq
      have hsubset : (List.range fuel).map reason ⊆ l := by
        intro a ha
        obtain ⟨k, hk, rfl⟩ := List.mem_map.mp ha
        exact hreason k (htaken k hk)
      have hlength := (hnodup.subperm hsubset).length_le
      rw [List.length_map, List.length_range] at hlength
      omega

end Text
end Aimx
