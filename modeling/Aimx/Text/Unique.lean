import Aimx.Text.FirstFree

/-!
# Names made unique one after the other

Each request gets its own name if that is free, and else the first of its numbered candidates that is.

* `uniqueName`, `assign` — the names that a list of requests gets;
* `Taken` — the names that are in use behind a list of requests, without the search;
* `mem_assign_iff`, `nodup_assign` — these are the names that are given, each one once.
-/

namespace Aimx
namespace Text

section Unique

variable {α : Type*} [DecidableEq α] (candidate : α → Nat → α)

/-- The name that a request gets beside the names in use. -/
def uniqueName (used : List α) (name : α) : α :=
  if name ∈ used then
    match firstFree (fun i => decide (candidate name i ∈ used)) (used.length + 1) with
    | some i => candidate name i
    | none => name
  else name

/-- The names that a list of requests gets, behind some names in use. -/
def assign : List α → List α → List α
  | _, [] => []
  | used, name :: names =>
      uniqueName candidate used name :: assign (used ++ [uniqueName candidate used name]) names

/-- The names that are in use behind a list of requests: those that are asked for, and a candidate where
the name is asked for while it and all candidates below are in use. -/
inductive Taken : List α → α → Prop
  | named {names : List α} {name : α} (asked : name ∈ names) : Taken names name
  | numbered {before : List α} {name : α} (after : List α) {j : Nat} (own : Taken before name)
      (below : ∀ i < j, Taken before (candidate name i)) :
      Taken (before ++ name :: after) (candidate name j)

variable {candidate}

omit [DecidableEq α] in
theorem Taken.append {names : List α} {name : α} (h : Taken candidate names name) (more : List α) :
    Taken candidate (names ++ more) name := by
  cases h with
  | named asked => exact .named (List.mem_append_left more asked)
  | @numbered before name after j own below =>
      rw [List.append_assoc, List.cons_append]
      exact .numbered (after ++ more) own below

omit [DecidableEq α] in
/-- What holds of the names that are asked for and passes to their candidates holds of all names in use. -/
theorem Taken.of_closed {P : α → Prop} (hcandidate : ∀ name i, P name → P (candidate name i))
    {names : List α} {x : α} (h : Taken candidate names x) (hnames : ∀ name ∈ names, P name) : P x := by
  induction h with
  | named asked => exact hnames _ asked
  | numbered after _ _ ih _ =>
      exact hcandidate _ _ (ih fun name hname => hnames name (List.mem_append_left _ hname))

/-- The search with another test for the names in use. -/
theorem uniqueName_of_test {used : List α} {taken : α → Bool} (htaken : ∀ x, taken x = true ↔ x ∈ used)
    (name : α) : uniqueName candidate used name =
      if taken name then
        match firstFree (fun i => taken (candidate name i)) (used.length + 1) with
        | some i => candidate name i
        | none => name
      else name := by
  have hsearch : (fun i => decide (candidate name i ∈ used)) = fun i => taken (candidate name i) := by
    funext i
    rw [Bool.eq_iff_iff, decide_eq_true_eq, htaken]
  unfold uniqueName
  rw [hsearch]
  by_cases hmem : name ∈ used
  · rw [if_pos hmem, if_pos ((htaken name).mpr hmem)]
  · rw [if_neg hmem, if_neg (mt (htaken name).mp hmem)]

/-- The search finds a candidate. -/
theorem exists_free (hinj : ∀ name, Function.Injective (candidate name)) (used : List α) (name : α) :
    ∃ i, firstFree (fun i => decide (candidate name i ∈ used)) (used.length + 1) = some i := by
  refine @exists_firstFree _ _ _ (candidate name) used ?_ ?_ (Nat.lt_succ_self _)
  · intro k hk
    exact of_decide_eq_true hk
  · intro j k _ _ heq
    exact hinj name heq

/-- What a request gets. -/
theorem uniqueName_cases (hinj : ∀ name, Function.Injective (candidate name)) (used : List α) (name : α) :
    name ∉ used ∧ uniqueName candidate used name = name ∨
      name ∈ used ∧ ∃ j, uniqueName candidate used name = candidate name j ∧ candidate name j ∉ used ∧
        ∀ i < j, candidate name i ∈ used := by
  by_cases hmem : name ∈ used
  · obtain ⟨j, hj⟩ := exists_free hinj used name
    obtain ⟨-, hfree, hbelow⟩ := firstFree_eq_some_iff.mp hj
    have hname : uniqueName candidate used name = candidate name j := by
      unfold uniqueName
      rw [if_pos hmem, hj]
    exact .inr ⟨hmem, j, hname, of_decide_eq_false hfree, fun i hi => of_decide_eq_true (hbelow i hi)⟩
  · exact .inl ⟨hmem, by rw [uniqueName, if_neg hmem]⟩

theorem uniqueName_notMem (hinj : ∀ name, Function.Injective (candidate name)) (used : List α) (name : α) :
    uniqueName candidate used name ∉ used := by
  rcases uniqueName_cases hinj used name with ⟨hnot, heq⟩ | ⟨-, j, heq, hnot, -⟩
  · rwa [heq]
  · rwa [heq]

theorem length_assign (used names : List α) : (assign candidate used names).length = names.length := by
  induction names generalizing used with
  | nil => rfl
  | cons name names ih => rw [assign, List.length_cons, List.length_cons, ih]

theorem assign_append (used names more : List α) :
    assign candidate used (names ++ more) =
      assign candidate used names ++ assign candidate (used ++ assign candidate used names) more := by
  induction names generalizing used with
  | nil => simp [assign]
  | cons name names ih =>
      rw [List.cons_append, assign, ih, assign, List.cons_append, List.append_assoc, List.singleton_append]

/-- The last request. -/
theorem assign_concat (names : List α) (name : α) :
    assign candidate [] (names ++ [name]) =
      assign candidate [] names ++ [uniqueName candidate (assign candidate [] names) name] := by
  rw [assign_append, List.nil_append]
  rfl

/-- **Every request gets a name of its own.** -/
theorem nodup_assign (hinj : ∀ name, Function.Injective (candidate name)) (names : List α) :
    (assign candidate [] names).Nodup := by
  induction names using List.reverseRecOn with
  | nil => exact List.nodup_nil
  | append_singleton names name ih =>
      rw [assign_concat]
      refine List.Nodup.append ih (List.nodup_singleton _) ?_
      rw [List.disjoint_singleton]
      exact uniqueName_notMem hinj _ name

/-- **The names that are given.** -/
theorem mem_assign_iff (hinj : ∀ name, Function.Injective (candidate name)) {names : List α} {x : α} :
    x ∈ assign candidate [] names ↔ Taken candidate names x := by
  induction names using List.reverseRecOn generalizing x with
  | nil =>
      refine iff_of_false List.not_mem_nil ?_
      intro h
      generalize hnil : ([] : List α) = names at h
      cases h with
      | named asked => exact absurd (hnil ▸ asked) List.not_mem_nil
      | numbered after own below => exact absurd hnil (by simp)
  | append_singleton names name ih =>
      rw [assign_concat, List.mem_append, List.mem_singleton]
      constructor
      · rintro (hmem | rfl)
        · exact (ih.mp hmem).append [name]
        · rcases uniqueName_cases hinj (assign candidate [] names) name with
            ⟨-, heq⟩ | ⟨hown, j, heq, -, hbelow⟩
          · rw [heq]
            exact .named (List.mem_append_right names (List.mem_singleton_self name))
          · rw [heq]
            exact .numbered [] (ih.mp hown) fun i hi => ih.mp (hbelow i hi)
      · intro h
        generalize hnames : names ++ [name] = requests at h
        cases h with
        | named asked =>
            rw [← hnames, List.mem_append, List.mem_singleton] at asked
            rcases asked with asked | rfl
            · exact .inl (ih.mpr (.named asked))
            · rcases uniqueName_cases hinj (assign candidate [] names) x with ⟨-, heq⟩ | ⟨hown, -⟩
              · exact .inr heq.symm
              · exact .inl hown
        | @numbered before asked after j own below =>
            rcases List.eq_nil_or_concat after with rfl | ⟨after', last, rfl⟩
            · -- the last request is the one that gets the candidate, or the candidate is in use before
              obtain ⟨rfl, hlast⟩ := List.append_inj' hnames rfl
              obtain rfl : name = asked := by simpa using hlast
              have hown : name ∈ assign candidate [] names := ih.mpr own
              rcases uniqueName_cases hinj (assign candidate [] names) name with
                ⟨hnot, -⟩ | ⟨-, k, heq, hfree, hbelow⟩
              · exact absurd hown hnot
              · by_cases hmem : candidate name j ∈ assign candidate [] names
                · exact .inl hmem
                · right
                  rw [heq]
                  have hle : ¬ j < k := fun hlt => hmem (hbelow j hlt)
                  have hge : ¬ k < j := fun hlt => hfree (ih.mpr (below k hlt))
                  rw [show j = k by omega]
            · left
              rw [List.concat_eq_append, ← List.cons_append, ← List.append_assoc] at hnames
              obtain ⟨rfl, -⟩ := List.append_inj' hnames rfl
              exact ih.mpr (.numbered after' own below)

end Unique

end Text
end Aimx
