import Aimx.Text.Str

/-!
# References in a text

A text with references of the form `${NAME}`, and what becomes of it when each reference is replaced by
the value of its name.

* `pieces` — the characters and references that a text consists of;
* `expandVars` — the replacement;
* `expandVars_congr` — only the values of referenced names matter;
* `length_expandVars_lt` — a longer value makes a longer text;
* `expandVars_eq_self_iff` — when no value brings a `$` with it, exactly the texts without references
  are left as they are.
-/

namespace Aimx
namespace Text

/-- A literal character, or a reference to a name. -/
inductive Piece
  | char (c : Char)
  | ref (name : Str)
  deriving DecidableEq

/-- The pieces of a text.  The first argument is the part of a name that has been read since `${`. -/
def pieces : Option Str → Str → List Piece
  | none, [] => []
  | none, '$' :: '{' :: rest => pieces (some []) rest
  | none, c :: rest => .char c :: pieces none rest
  | some name, [] => .char '$' :: .char '{' :: name.map .char
  | some name, '}' :: rest => .ref name :: pieces none rest
  | some name, c :: rest => pieces (some (name ++ [c])) rest

/-- A piece as it is written. -/
def Piece.source : Piece → Str
  | .char c => [c]
  | .ref name => '$' :: '{' :: name ++ ['}']

/-- A piece with its reference replaced. -/
def Piece.value (env : Str → Str) : Piece → Str
  | .char c => [c]
  | .ref name => env name

/-- The names that a text refers to. -/
def references (s : Str) : List Str :=
  (pieces none s).filterMap fun
    | .char _ => none
    | .ref name => some name

/-- The text with every reference replaced by the value of its name. -/
def expandVars (env : Str → Str) (s : Str) : Str := (pieces none s).flatMap (Piece.value env)

@[simp] theorem flatMap_source_map_char (s : Str) : (s.map Piece.char).flatMap Piece.source = s := by
  induction s with
  | nil => rfl
  | cons c s ih => simp [Piece.source, ih]

/-- The part of a text that has been read as the beginning of a reference. -/
def opened : Option Str → Str
  | none => []
  | some name => '$' :: '{' :: name

/-- The pieces of a text are that text. -/
theorem flatMap_source_pieces_opened (o : Option Str) (s : Str) :
    (pieces o s).flatMap Piece.source = opened o ++ s := by
  fun_induction pieces o s with
  | case1 => rfl
  | case2 rest ih => simp [ih, opened]
  | case3 c rest _ ih => simp [ih, opened, Piece.source]
  | case4 name => simp [opened, Piece.source]
  | case5 name rest ih => simp [ih, opened, Piece.source]
  | case6 name c rest _ ih => simp [ih, opened]

theorem flatMap_source_pieces (s : Str) : (pieces none s).flatMap Piece.source = s :=
  flatMap_source_pieces_opened none s

theorem mem_references {s name : Str} : name ∈ references s ↔ Piece.ref name ∈ pieces none s := by
  unfold references
  rw [List.mem_filterMap]
  constructor
  · rintro ⟨piece, hpiece, hname⟩
    cases piece with
    | char c => cases hname
    | ref n =>
        cases hname
        exact hpiece
  · intro h
    exact ⟨.ref name, h, rfl⟩

/-- Only the values of the referenced names matter. -/
theorem expandVars_congr {env env' : Str → Str} {s : Str}
    (h : ∀ name ∈ references s, env name = env' name) : expandVars env s = expandVars env' s := by
  unfold expandVars
  apply List.flatMap_congr
  intro piece hpiece
  cases piece with
  | char c => rfl
  | ref name => exact h name (mem_references.mpr hpiece)

/-- A text without references is left as it is. -/
theorem expandVars_of_references_eq_nil {env : Str → Str} {s : Str} (h : references s = []) :
    expandVars env s = s := by
  have hsource : (pieces none s).flatMap (Piece.value env) = (pieces none s).flatMap Piece.source := by
    apply List.flatMap_congr
    intro piece hpiece
    cases piece with
    | char c => rfl
    | ref name =>
        have hname := mem_references.mpr hpiece
        rw [h] at hname
        cases hname
  rw [expandVars, hsource, flatMap_source_pieces s]

/-- Where no value is shorter and one referenced value is longer, the text becomes longer. -/
theorem length_expandVars_lt {env env' : Str → Str} {s name : Str}
    (hle : ∀ n, (env n).length ≤ (env' n).length) (hname : name ∈ references s)
    (hlt : (env name).length < (env' name).length) :
    (expandVars env s).length < (expandVars env' s).length := by
  have hpiece : ∀ piece : Piece, (piece.value env).length ≤ (piece.value env').length := by
    intro piece
    cases piece with
    | char c => exact le_refl _
    | ref n => exact hle n
  obtain ⟨before, after, hsplit⟩ := List.append_of_mem (mem_references.mp hname)
  have hsum : ∀ l : List Piece,
      (l.flatMap (Piece.value env)).length ≤ (l.flatMap (Piece.value env')).length := by
    intro l
    induction l with
    | nil => exact le_refl _
    | cons piece l ih =>
        rw [List.flatMap_cons, List.flatMap_cons, List.length_append, List.length_append]
        have hhead := hpiece piece
        omega
  have hbefore := hsum before
  have hafter := hsum after
  simp only [expandVars, hsplit, List.flatMap_append, List.flatMap_cons, List.length_append,
    Piece.value]
  omega

/-- Where no value of a referenced name contains a dollar sign, the text is left as it is exactly when
it has no references: each reference has a dollar sign that the replacement loses. -/
theorem expandVars_eq_self_iff {env : Str → Str} {s : Str}
    (h : ∀ name ∈ references s, '$' ∉ env name) : expandVars env s = s ↔ references s = [] := by
  refine ⟨fun hself => ?_, expandVars_of_references_eq_nil⟩
  have hcount : ∀ l : List Piece, (∀ name, Piece.ref name ∈ l → '$' ∉ env name) →
      (l.flatMap (Piece.value env)).count '$' + (l.filterMap fun
        | .char _ => none
        | .ref name => some name).length ≤ (l.flatMap Piece.source).count '$' := by
    intro l hl
    induction l with
    | nil => exact le_refl _
    | cons piece l ih =>
        have hrest := ih fun name hname => hl name (List.mem_cons_of_mem _ hname)
        cases piece with
        | char c =>
            simp only [List.flatMap_cons, List.filterMap_cons_none, Piece.value, Piece.source,
              List.count_append] at hrest ⊢
            omega
        | ref name =>
            have hzero : (env name).count '$' = 0 :=
              List.count_eq_zero.mpr (hl name List.mem_cons_self)
            have hone : 1 ≤ (Piece.source (.ref name)).count '$' :=
              List.count_pos_iff.mpr List.mem_cons_self
            simp only [List.flatMap_cons, List.filterMap_cons, Piece.value, List.count_append,
              List.length_cons] at hrest ⊢
            omega
  have hpieces := hcount (pieces none s) fun name hname => h name (mem_references.mpr hname)
  rw [flatMap_source_pieces s] at hpieces
  unfold expandVars at hself
  rw [hself] at hpieces
  have hlength : (references s).length = 0 := by
    unfold references
    omega
  exact List.length_eq_zero_iff.mp hlength

end Text
end Aimx
