import Mathlib.Data.List.AList

/-!
# Tables

Association lists with distinct keys, as far as Mathlib does not have it: the change of values in
place, and where the one entry of a key stands.

* `mapValues`, `modify` — every value changed, or the value of one key;
* `lookup_mapValues`, `lookup_modify` — what is found afterwards;
* `exists_split` — a table around one of its entries, under change and erasure;
* `mapValues_eq_modify` — a change of every value that only matters at one key.
-/

namespace Aimx
namespace Table

variable {α β : Type*}

/-- Every value changed in place. -/
def mapValues (f : α → β → β) (t : AList fun _ : α => β) : AList fun _ : α => β where
  entries := t.entries.map fun e => ⟨e.1, f e.1 e.2⟩
  nodupKeys := by
    have hkeys : (t.entries.map fun e => (⟨e.1, f e.1 e.2⟩ : Sigma fun _ : α => β)).keys =
        t.entries.keys := by
      simp only [List.keys, List.map_map]
      rfl
    rw [List.NodupKeys, hkeys]
    exact t.nodupKeys

variable [DecidableEq α]

/-- The value of one key changed in place. -/
def modify (t : AList fun _ : α => β) (key : α) (f : β → β) : AList fun _ : α => β :=
  mapValues (fun k v => if k = key then f v else v) t

theorem dlookup_map_value (f : α → β → β) (key : α) (l : List (Sigma fun _ : α => β)) :
    (l.map fun e => (⟨e.1, f e.1 e.2⟩ : Sigma fun _ : α => β)).dlookup key =
      (l.dlookup key).map (f key) := by
  induction l with
  | nil => rfl
  | cons e l ih =>
      obtain ⟨k, v⟩ := e
      by_cases hk : k = key
      · subst hk
        rw [List.map_cons, List.dlookup_cons_eq, List.dlookup_cons_eq, Option.map_some]
      · rw [List.map_cons, List.dlookup_cons_ne, List.dlookup_cons_ne, ih]
        · exact fun h => hk h.symm
        · exact fun h => hk h.symm

@[simp] theorem lookup_mapValues (f : α → β → β) (t : AList fun _ : α => β) (key : α) :
    (mapValues f t).lookup key = (t.lookup key).map (f key) :=
  dlookup_map_value f key t.entries

/-- A list with distinct keys is the list of entries of its table. -/
theorem entries_toAList {l : List (Sigma fun _ : α => β)} (h : l.NodupKeys) :
    l.toAList.entries = l := by
  rw [AList.entries_toAList]
  induction l with
  | nil => rfl
  | cons e l ih =>
      rw [List.nodupKeys_cons] at h
      rw [List.dedupKeys_cons, ih h.2, List.kinsert_def, List.kerase_of_notMem_keys h.1]

/-- The changed key has the changed value, and every other key has its own. -/
theorem lookup_modify (t : AList fun _ : α => β) (key k : α) (f : β → β) :
    (modify t key f).lookup k = if k = key then (t.lookup k).map f else t.lookup k := by
  rw [modify, lookup_mapValues]
  split
  next => rfl
  next => exact Option.map_id'

@[simp] theorem mem_mapValues {f : α → β → β} {t : AList fun _ : α => β} {key : α} :
    key ∈ mapValues f t ↔ key ∈ t := by
  rw [← AList.lookup_isSome, ← AList.lookup_isSome, lookup_mapValues, Option.isSome_map]

@[simp] theorem mem_modify {f : β → β} {t : AList fun _ : α => β} {key k : α} :
    k ∈ modify t key f ↔ k ∈ t :=
  mem_mapValues

omit [DecidableEq α] in
/-- Around the entry of a key there are only other keys. -/
theorem ne_of_split {t : AList fun _ : α => β} {key : α} {v : β}
    {pre post : List (Sigma fun _ : α => β)} (h : t.entries = pre ++ ⟨key, v⟩ :: post) :
    (∀ e ∈ pre, e.1 ≠ key) ∧ ∀ e ∈ post, e.1 ≠ key := by
  have hnodup := t.nodupKeys
  rw [List.NodupKeys, h, List.keys, List.map_append, List.map_cons, List.nodup_middle,
    List.nodup_cons, List.mem_append, not_or] at hnodup
  obtain ⟨⟨hpre, hpost⟩, -⟩ := hnodup
  exact ⟨fun e he heq => hpre (List.mem_map.mpr ⟨e, he, heq⟩),
    fun e he heq => hpost (List.mem_map.mpr ⟨e, he, heq⟩)⟩

/-- The entries of a table around one of its keys, as they are, erased and changed. -/
theorem exists_split {t : AList fun _ : α => β} {key : α} {v : β} (h : t.lookup key = some v) :
    ∃ pre post : List (Sigma fun _ : α => β),
      t.entries = pre ++ ⟨key, v⟩ :: post ∧
      (t.erase key).entries = pre ++ post ∧
      ∀ f : β → β, (modify t key f).entries = pre ++ ⟨key, f v⟩ :: post := by
  have hmem : (⟨key, v⟩ : Sigma fun _ : α => β) ∈ t.entries := AList.mem_lookup_iff.mp h
  obtain ⟨pre, post, hsplit⟩ := List.append_of_mem hmem
  obtain ⟨hpre, hpost⟩ := ne_of_split hsplit
  have hsame : ∀ (f : β → β) {l : List (Sigma fun _ : α => β)}, (∀ e ∈ l, e.1 ≠ key) →
      (l.map fun e => (⟨e.1, if e.1 = key then f e.2 else e.2⟩ : Sigma fun _ : α => β)) = l := by
    intro f l hl
    conv_rhs => rw [← List.map_id l]
    apply List.map_congr_left
    intro e he
    rw [if_neg (hl e he)]
    rfl
  refine ⟨pre, post, hsplit, ?_, fun f => ?_⟩
  · have hkeys : key ∉ pre.keys := fun hkey => by
      obtain ⟨e, he, heq⟩ := List.mem_map.mp hkey
      exact hpre e he heq
    calc (t.erase key).entries = t.entries.kerase key := rfl
      _ = pre ++ post := by
        rw [hsplit, List.kerase_append_right hkeys]
        exact congrArg _ (List.kerase_cons_eq rfl)
  · calc (modify t key f).entries
        = t.entries.map fun e => ⟨e.1, if e.1 = key then f e.2 else e.2⟩ := rfl
      _ = pre ++ ⟨key, f v⟩ :: post := by
        rw [hsplit, List.map_append, List.map_cons, hsame f hpre, hsame f hpost, if_pos rfl]

/-- A change of every value that only matters at one key is a change of that key. -/
theorem mapValues_eq_modify {f : α → β → β} {t : AList fun _ : α => β} {key : α}
    (h : ∀ k ≠ key, ∀ v, t.lookup k = some v → f k v = v) :
    mapValues f t = modify t key (f key) := by
  apply AList.ext
  apply List.map_congr_left
  rintro ⟨k, v⟩ he
  dsimp only
  split
  next hk => rw [hk]
  next hk => rw [h k hk v (AList.mem_lookup_iff.mpr he)]

end Table
end Aimx
