import Aimx.Text.Path
import Mathlib.Data.List.Infix
import Mathlib.Logic.Function.Basic

/-!
# Directory trees

The directories of a file system with their owners and modes, and the two calls that make them:
`create_dir_all`, and making one with a given owner and mode.  A path is taken by its components, so that
`a/b`, `a//b`, `a/./b` and `a/b/` name one directory.

* `createDirAll`, `ownedDir`, `makeAll` — the calls, and a list of the second one;
* `makeAll_apply` — the last call for a directory decides;
* `makeAll_makeAll`, `createDirAll_of_covers` — doing it again changes nothing.
-/

namespace Aimx
namespace Text

/-- The owner, the group and the mode of a directory. -/
structure Dir where
  uid : UInt32
  gid : UInt32
  mode : Nat
  deriving DecidableEq

/-- `Path::components`. -/
def components (path : Str) : List Str :=
  (if isAbsolute path then ["/".toList] else []) ++
    (path.splitOn '/').filter fun part => part ≠ [] ∧ part ≠ ".".toList

/-- The directories, by their paths. -/
abbrev Dirs := List Str → Option Dir

/-- What root's `mkdir` makes under the usual mask. -/
def madeDir : Dir := ⟨0, 0, 0o755⟩

/-- `create_dir_all`. -/
def createDirAll (path : Str) (dirs : Dirs) : Dirs := fun p =>
  (dirs p).or (if p.isPrefixOf (components path) then some madeDir else none)

/-- `create_dir_all`, then `chown` and `chmod`. -/
def ownedDir (path : Str) (dir : Dir) (dirs : Dirs) : Dirs :=
  Function.update (createDirAll path dirs) (components path) (some dir)

/-- A list of directories made one after the other. -/
def makeAll (made : List (Str × Dir)) (dirs : Dirs) : Dirs :=
  made.foldl (fun dirs m => ownedDir m.1 m.2 dirs) dirs

/-- The last owner and mode that a list gives to a directory. -/
def lastOwned : List (Str × Dir) → List Str → Option Dir
  | [], _ => none
  | m :: made, p => (lastOwned made p).or (if components m.1 = p then some m.2 else none)

/-- The directory and everything above it is there. -/
def Covers (dirs : Dirs) (path : Str) : Prop :=
  ∀ p, p.isPrefixOf (components path) = true → (dirs p).isSome = true

theorem makeAll_nil (dirs : Dirs) : makeAll [] dirs = dirs := rfl

theorem makeAll_cons (m : Str × Dir) (made : List (Str × Dir)) (dirs : Dirs) :
    makeAll (m :: made) dirs = makeAll made (ownedDir m.1 m.2 dirs) := rfl

theorem makeAll_append (made made' : List (Str × Dir)) (dirs : Dirs) :
    makeAll (made ++ made') dirs = makeAll made' (makeAll made dirs) :=
  List.foldl_append

/-- It is one of those on the list. -/
theorem exists_of_lastOwned {made : List (Str × Dir)} {p : List Str} {dir : Dir}
    (h : lastOwned made p = some dir) : ∃ m ∈ made, components m.1 = p ∧ m.2 = dir := by
  induction made with
  | nil => cases h
  | cons m made ih =>
      rw [lastOwned] at h
      cases hlast : lastOwned made p with
      | some dir' =>
          rw [hlast, Option.some_or] at h
          cases h
          obtain ⟨m', hmem, hm'⟩ := ih hlast
          exact ⟨m', List.mem_cons_of_mem m hmem, hm'⟩
      | none =>
          rw [hlast, Option.none_or] at h
          split at h
          next hcomponents =>
              cases h
              exact ⟨m, List.mem_cons_self, hcomponents, rfl⟩
          next => cases h

theorem lastOwned_isSome {made : List (Str × Dir)} {m : Str × Dir} (h : m ∈ made) :
    (lastOwned made (components m.1)).isSome = true := by
  induction made with
  | nil => cases h
  | cons m' made ih =>
      rw [lastOwned, Option.isSome_or, Bool.or_eq_true]
      rcases List.mem_cons.mp h with rfl | hmem
      · exact .inr (by rw [if_pos rfl, Option.isSome_some])
      · exact .inl (ih hmem)

/-- The last call for a directory decides; the others only see to it that there is one. -/
theorem makeAll_apply (made : List (Str × Dir)) (dirs : Dirs) (p : List Str) :
    makeAll made dirs p = (lastOwned made p).or ((dirs p).or
      (if made.any fun m => p.isPrefixOf (components m.1) then some madeDir else none)) := by
  induction made generalizing dirs with
  | nil => simp [makeAll_nil, lastOwned]
  | cons m made ih =>
      rw [makeAll_cons, ih, lastOwned, Option.or_assoc]
      by_cases hp : components m.1 = p
      · subst hp
        simp [ownedDir]
      · have howned : ownedDir m.1 m.2 dirs p = createDirAll m.1 dirs p :=
          Function.update_of_ne (Ne.symm hp) _ _
        rw [howned, if_neg hp, Option.none_or, createDirAll, Option.or_assoc, List.any_cons]
        cases p.isPrefixOf (components m.1) <;>
          cases made.any fun m => p.isPrefixOf (components m.1) <;> rfl

/-- A list of directories made twice. -/
theorem makeAll_makeAll (made : List (Str × Dir)) (dirs : Dirs) :
    makeAll made (makeAll made dirs) = makeAll made dirs := by
  ext1 p
  rw [makeAll_apply, makeAll_apply]
  cases lastOwned made p with
  | some dir => rfl
  | none =>
      cases dirs p with
      | some dir => rfl
      | none => cases made.any fun m => p.isPrefixOf (components m.1) <;> rfl

/-- A directory with another mode than a fresh one was given to somebody, or was there. -/
theorem makeAll_createDirAll_iff {made : List (Str × Dir)} {path : Str} {dirs : Dirs}
    {p : List Str} {dir : Dir} (hmode : dir ≠ madeDir) :
    makeAll made (createDirAll path dirs) p = some dir ↔ (lastOwned made p).or (dirs p) = some dir := by
  rw [makeAll_apply, createDirAll]
  cases lastOwned made p with
  | some dir' => exact Iff.rfl
  | none =>
      rw [Option.none_or, Option.none_or]
      cases dirs p with
      | some dir' => exact Iff.rfl
      | none =>
          refine iff_of_false (fun h => ?_) (fun h => by cases h)
          split at h
          · exact hmode (Option.some.inj h).symm
          · split at h
            · exact hmode (Option.some.inj h).symm
            · cases h

theorem createDirAll_of_covers {dirs : Dirs} {path : Str} (h : Covers dirs path) :
    createDirAll path dirs = dirs := by
  ext1 p
  rw [createDirAll]
  cases hprefix : p.isPrefixOf (components path) with
  | false => simp
  | true =>
      obtain ⟨dir, hdir⟩ := Option.isSome_iff_exists.mp (h p hprefix)
      rw [hdir, Option.some_or]

theorem covers_createDirAll (path : Str) (dirs : Dirs) : Covers (createDirAll path dirs) path := by
  intro p hprefix
  rw [createDirAll, if_pos hprefix, Option.isSome_or, Option.isSome_some, Bool.or_true]

/-- Nothing that is there disappears. -/
theorem Covers.makeAll {dirs : Dirs} {path : Str} (h : Covers dirs path) (made : List (Str × Dir)) :
    Covers (makeAll made dirs) path := by
  intro p hprefix
  rw [makeAll_apply, Option.isSome_or, Option.isSome_or, h p hprefix, Bool.true_or, Bool.or_true]

end Text
end Aimx
