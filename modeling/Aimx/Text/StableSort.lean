import Mathlib.Data.List.Basic

/-!
# What a stable sort depends on

A stable sort keeps the order of elements that the comparison does not tell apart.  What it makes of a list is
therefore decided by the elements of each rank in their order, and not by how the ranks are mixed.

* `Comparison`, `thenWith` — the comparisons that lists are sorted by, and one after the other;
* `ranked` — the elements of one rank, in their order;
* `ranked_mergeSort`, `eq_of_ranked` — sorting keeps them, and they determine a sorted list;
* `mergeSort_flatMap_perm` — groups that share no rank may be visited in any order.
-/

namespace Aimx
namespace Text

variable {α κ : Type*} {le : α → α → Bool}

/-- A comparison by which lists can be sorted. -/
structure Comparison (le : α → α → Bool) : Prop where
  trans : ∀ a b c, le a b = true → le b c = true → le a c = true
  total : ∀ a b, (le a b || le b a) = true

theorem Comparison.refl (h : Comparison le) (a : α) : le a a = true := by
  simpa using h.total a a

/-- A second comparison where the first does not decide. -/
def thenWith (le le' : α → α → Bool) (a b : α) : Bool := if le a b && le b a then le' a b else le a b

theorem thenWith_eq_true_iff {le' : α → α → Bool} {a b : α} :
    thenWith le le' a b = true ↔ le a b = true ∧ (le b a = true → le' a b = true) := by
  unfold thenWith
  split
  next h =>
      rw [Bool.and_eq_true] at h
      exact ⟨fun hle => ⟨h.1, fun _ => hle⟩, fun hle => hle.2 h.2⟩
  next h =>
      rw [Bool.and_eq_true] at h
      exact ⟨fun hle => ⟨hle, fun hge => absurd ⟨hle, hge⟩ h⟩, fun hle => hle.1⟩

theorem Comparison.thenWith (h : Comparison le) {le' : α → α → Bool} (h' : Comparison le') :
    Comparison (thenWith le le') where
  trans a b c hab hbc := by
    rw [thenWith_eq_true_iff] at hab hbc ⊢
    refine ⟨h.trans a b c hab.1 hbc.1, fun hca => ?_⟩
    have hba : le b a = true := h.trans b c a hbc.1 hca
    have hcb : le c b = true := h.trans c a b hca hab.1
    exact h'.trans a b c (hab.2 hba) (hbc.2 hcb)
  total a b := by
    rw [Bool.or_eq_true, thenWith_eq_true_iff, thenWith_eq_true_iff]
    have htotal := h.total a b
    have htotal' := h'.total a b
    rw [Bool.or_eq_true] at htotal htotal'
    by_cases hab : le a b = true
    · by_cases hba : le b a = true
      · exact htotal'.imp (fun hle => ⟨hab, fun _ => hle⟩) fun hle => ⟨hba, fun _ => hle⟩
      · exact Or.inl ⟨hab, fun hle => absurd hle hba⟩
    · exact Or.inr ⟨htotal.resolve_left hab, fun hle => absurd hle hab⟩

/-- The elements that the comparison does not tell from `a`. -/
def ranked (le : α → α → Bool) (a : α) (l : List α) : List α := l.filter fun b => le a b && le b a

@[simp] theorem mem_ranked {a b : α} {l : List α} :
    b ∈ ranked le a l ↔ b ∈ l ∧ le a b = true ∧ le b a = true := by
  simp [ranked]

/-- Sorting keeps the elements of a rank in their order. -/
theorem ranked_mergeSort (h : Comparison le) (a : α) (l : List α) :
    ranked le a (l.mergeSort le) = ranked le a l := by
  have hsorted : (ranked le a l).Pairwise fun x y => le x y = true := by
    refine List.pairwise_of_forall_mem_list fun x hx y hy => ?_
    exact h.trans x a y (mem_ranked.mp hx).2.2 (mem_ranked.mp hy).2.1
  have hsub : (ranked le a l).Sublist (l.mergeSort le) :=
    List.sublist_mergeSort h.trans h.total hsorted List.filter_sublist
  have hself : (ranked le a l).filter (fun b => le a b && le b a) = ranked le a l := by
    refine List.filter_eq_self.mpr fun b hb => ?_
    simpa using (mem_ranked.mp hb).2
  have hrank : (ranked le a l).Sublist (ranked le a (l.mergeSort le)) := by
    have hfilter := hsub.filter fun b => le a b && le b a
    rwa [hself] at hfilter
  refine (hrank.eq_of_length ?_).symm
  exact ((List.mergeSort_perm l le).filter _).length_eq.symm

/-- The heads of two sorted lists with the same elements of every rank are of one rank. -/
theorem le_head_of_ranked (h : Comparison le) {a b : α} {l l' : List α}
    (hsorted : (b :: l').Pairwise fun x y => le x y = true)
    (hranked : ranked le a (a :: l) = ranked le a (b :: l')) : le b a = true := by
  have hmem : a ∈ ranked le a (b :: l') := by
    rw [← hranked]
    exact mem_ranked.mpr ⟨List.mem_cons_self, h.refl a, h.refl a⟩
  rcases List.mem_cons.mp (mem_ranked.mp hmem).1 with rfl | htail
  · exact h.refl a
  · exact List.rel_of_pairwise_cons hsorted htail

/-- The elements of each rank determine a sorted list. -/
theorem eq_of_ranked (h : Comparison le) {l l' : List α} (hl : l.Pairwise fun x y => le x y = true)
    (hl' : l'.Pairwise fun x y => le x y = true) (hranked : ∀ a, ranked le a l = ranked le a l') :
    l = l' := by
  induction l generalizing l' with
  | nil =>
      cases l' with
      | nil => rfl
      | cons b l' =>
          have hmem : b ∈ ranked le b (b :: l') := mem_ranked.mpr ⟨List.mem_cons_self, h.refl b, h.refl b⟩
          rw [← hranked b] at hmem
          cases (mem_ranked.mp hmem).1
  | cons a l ih =>
      cases l' with
      | nil =>
          have hmem : a ∈ ranked le a (a :: l) := mem_ranked.mpr ⟨List.mem_cons_self, h.refl a, h.refl a⟩
          rw [hranked a] at hmem
          cases (mem_ranked.mp hmem).1
      | cons b l' =>
          have hba : le b a = true := le_head_of_ranked h hl' (hranked a)
          have hab : le a b = true := le_head_of_ranked h hl (hranked b).symm
          have hheads := hranked a
          simp only [ranked, List.filter_cons, h.refl a, hab, hba, Bool.and_self, if_true] at hheads
          obtain rfl := (List.cons.inj hheads).1
          congr 1
          refine ih hl.of_cons hl'.of_cons fun c => ?_
          have htails := hranked c
          simp only [ranked, List.filter_cons] at htails
          split at htails
          · exact (List.cons.inj htails).2
          · exact htails

/-- **The elements of each rank determine the sorted list.** -/
theorem mergeSort_congr (h : Comparison le) {l l' : List α} (hranked : ∀ a, ranked le a l = ranked le a l') :
    l.mergeSort le = l'.mergeSort le := by
  refine eq_of_ranked h (List.pairwise_mergeSort h.trans h.total l)
    (List.pairwise_mergeSort h.trans h.total l') fun a => ?_
  rw [ranked_mergeSort h, ranked_mergeSort h, hranked]

/-- Groups of which one at most is not empty may be visited in any order. -/
theorem flatMap_perm_of_alone {f : κ → List α} {ks ks' : List κ} (hperm : ks.Perm ks')
    (halone : ∀ k ∈ ks, ∀ k' ∈ ks, f k ≠ [] → f k' ≠ [] → k = k') : ks.flatMap f = ks'.flatMap f := by
  induction hperm with
  | nil => rfl
  | cons k _ ih =>
      rw [List.flatMap_cons, List.flatMap_cons,
        ih fun k hk k' hk' => halone k (List.mem_cons_of_mem _ hk) k' (List.mem_cons_of_mem _ hk')]
  | swap k k' ks =>
      simp only [List.flatMap_cons, ← List.append_assoc]
      congr 1
      by_cases hk : f k = []
      · rw [hk, List.append_nil, List.nil_append]
      · by_cases hk' : f k' = []
        · rw [hk', List.append_nil, List.nil_append]
        · rw [halone k (by simp) k' (by simp) hk hk']
  | trans hfirst _ ihfirst ihsecond =>
      refine (ihfirst halone).trans (ihsecond fun k hk k' hk' => ?_)
      exact halone k (hfirst.mem_iff.mpr hk) k' (hfirst.mem_iff.mpr hk')

/-- **Groups that share no rank may be visited in any order**: sorting what they hold gives the same list. -/
theorem mergeSort_flatMap_perm (h : Comparison le) {f : κ → List α} {ks ks' : List κ} (hperm : ks.Perm ks')
    (hgroups : ∀ k ∈ ks, ∀ k' ∈ ks, ∀ x ∈ f k, ∀ y ∈ f k', le x y = true → le y x = true → k = k') :
    (ks.flatMap f).mergeSort le = (ks'.flatMap f).mergeSort le := by
  refine mergeSort_congr h fun a => ?_
  rw [ranked, ranked, List.filter_flatMap, List.filter_flatMap]
  refine flatMap_perm_of_alone hperm fun k hk k' hk' hne hne' => ?_
  obtain ⟨x, hx⟩ := List.exists_mem_of_ne_nil _ hne
  obtain ⟨y, hy⟩ := List.exists_mem_of_ne_nil _ hne'
  have hx' := mem_ranked.mp hx
  have hy' := mem_ranked.mp hy
  exact hgroups k hk k' hk' x hx'.1 y hy'.1 (h.trans x a y hx'.2.2 hy'.2.1) (h.trans y a x hy'.2.2 hx'.2.1)

end Text
end Aimx
