import Aimx.Text.Str

/-!
# Paths

Paths as texts, as far as the source takes them apart and puts them together.

* `joinPath`, `parentDir`, `fileStem`, `splitExt` — `PathBuf::join`, `Path::parent`, `Path::file_stem` and
  `Path::extension`;
* `length_joinPath_lt`, `fileStem_joinPath` — a file below a directory.
-/

namespace Aimx
namespace Text

/-- `Path::is_absolute` on Unix. -/
def isAbsolute (path : Str) : Bool := path.head? = some '/'

/-- `PathBuf::join`. -/
def joinPath (base path : Str) : Str :=
  if isAbsolute path then path
  else if base = [] ∨ base.getLast? = some '/' then base ++ path
  else base ++ '/' :: path

/-- `Path::parent` of a path without repeated or trailing separators. -/
def parentDir (path : Str) : Option Str :=
  match rsplitOnce '/' path with
  | some ([], []) => none
  | some ([], _) => some "/".toList
  | some (dir, _) => some dir
  | none => if path.isEmpty then none else some []

/-- `Path::file_stem` and `Path::extension` of a file name. -/
def splitExt (name : Str) : Str × Option Str :=
  match rsplitOnce '.' name with
  | some (stem, ext) => if stem.isEmpty then (name, none) else (stem, some ext)
  | none => (name, none)

/-- `Path::file_stem` of a path that ends in a file name, or of the empty path. -/
def fileStem (path : Str) : Str :=
  match rsplitOnce '/' path with
  | some (_, name) => (splitExt name).1
  | none => (splitExt path).1

/-- A name with one extension. -/
theorem splitExt_append {stem ext : Str} (hext : '.' ∉ ext) (hne : stem ≠ []) :
    splitExt (stem ++ '.' :: ext) = (stem, some ext) := by
  unfold splitExt
  rw [rsplitOnce_eq_some_iff.mpr ⟨rfl, hext⟩]
  dsimp only
  rw [if_neg (by simpa using hne)]

/-- A longer relative name makes a longer path. -/
theorem length_joinPath_lt (base : Str) {p q : Str} (hp : isAbsolute p = false) (hq : isAbsolute q = false)
    (h : p.length < q.length) : (joinPath base p).length < (joinPath base q).length := by
  have hp' : ¬ isAbsolute p = true := by simp [hp]
  have hq' : ¬ isAbsolute q = true := by simp [hq]
  unfold joinPath
  rw [if_neg hp', if_neg hq']
  split
  · simp only [List.length_append]
    omega
  · simp only [List.length_append, List.length_cons]
    omega

/-- The file name of a path below a directory. -/
theorem fileStem_joinPath {base file : Str} (hfile : isAbsolute file = false) (hslash : '/' ∉ file) :
    fileStem (joinPath base file) = (splitExt file).1 := by
  have hbelow : ∀ dir, fileStem (dir ++ '/' :: file) = (splitExt file).1 := by
    intro dir
    rw [fileStem, rsplitOnce_eq_some_iff.mpr ⟨rfl, hslash⟩]
  unfold joinPath
  rw [if_neg (by simp [hfile])]
  split
  next hbase =>
      rcases hbase with rfl | hlast
      · -- a name alone has no separator
        have hwhole : '/' ∉ file.reverse := by simpa using hslash
        rw [List.nil_append, fileStem, rsplitOnce, splitOnce_eq_none_iff.mpr hwhole]
        rfl
      · obtain ⟨dir, rfl⟩ := List.getLast?_eq_some_iff.mp hlast
        rw [List.append_assoc]
        exact hbelow dir
  next => exact hbelow base

end Text
end Aimx
