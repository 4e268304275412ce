import Aimx.Ingest.Frontmatter

/-!
# A mark on the text of a message

MARK-READ and MARK-UNREAD cut the block out of a file, parse it, set the flag and print it again.

* `UndoesPrint` — what is used of the TOML library at one record;
* `markContent_formatted` — one mark on the text that `format_frontmatter` makes.
-/

namespace Aimx
namespace Ingest

open Text

/-- What is used of the TOML library at one record: parsing undoes printing, what is printed is complete
lines, and what is printed up to a `+++` within it, which can only stand in a string, is no TOML. -/
structure UndoesPrint (t : Toml) (m : InboundFrontmatter) : Prop where
  parse : t.fromStr (trim ('\n' :: t.toString m)) = some m
  newline : ∃ s, t.toString m = s ++ ['\n']
  cut : ∀ block rest, t.toString m = block ++ "+++".toList ++ rest →
    t.fromStr (trim ('\n' :: block)) = none

section

variable {t : Toml} {m : InboundFrontmatter} {body : Str}

/-- The block of a message whose record has no mark of its own is what was printed. -/
theorem splitFrontmatter_formatted (h : UndoesPrint t m) (hplus : ¬"+++".toList <:+: t.toString m) :
    splitFrontmatter (formatFrontmatter t m body) =
      some ('\n' :: t.toString m, "\n\n".toList ++ withFinalNewline body) := by
  rw [formatFrontmatter_eq, splitFrontmatter_open]
  refine (dropInfix?_append_iff (by simp)).mpr ?_
  show ¬"+++".toList <:+: '\n' :: (t.toString m ++ "++".toList)
  rw [plus_cons_newline_iff, plus_append_iff h.newline]
  exact hplus

/-- A mark within the record cuts the block off. -/
theorem splitFrontmatter_cut (hplus : "+++".toList <:+: t.toString m) :
    ∃ block more rest, t.toString m = block ++ "+++".toList ++ more ∧
      splitFrontmatter (formatFrontmatter t m body) = some ('\n' :: block, rest) := by
  have hsome : ∃ p, (t.toString m).dropInfix? "+++".toList = some p := by
    rw [← Option.ne_none_iff_exists', ne_eq, dropInfix?_eq_none_iff, not_not]
    exact hplus
  obtain ⟨⟨block, more⟩, hcut⟩ := hsome
  refine ⟨block, more, more ++ ("+++".toList ++ ("\n\n".toList ++ withFinalNewline body)),
    (dropInfix?_eq_some_iff'.mp hcut).1, ?_⟩
  rw [formatFrontmatter_eq, splitFrontmatter_open, List.append_assoc, List.cons_append,
    dropInfix?_cons (by simp), dropInfix?_append_right hcut]
  rfl

/-- **One mark** rewrites a message as ingest would have written it with the flag, or fails. -/
theorem markContent_formatted (h : UndoesPrint t m) (read : Bool) (now : Str) :
    ("+++".toList <:+: t.toString m → markContent t read now (formatFrontmatter t m body) = .error .parse) ∧
      (¬"+++".toList <:+: t.toString m → markContent t read now (formatFrontmatter t m body) =
        .ok (formatFrontmatter t (m.setRead read now) body)) := by
  constructor
  · intro hplus
    obtain ⟨block, more, rest, hprint, hsplit⟩ := @splitFrontmatter_cut t m body hplus
    unfold markContent readForMark
    rw [hsplit]
    dsimp only
    rw [h.cut block more hprint]
  · intro hplus
    unfold markContent readForMark
    rw [splitFrontmatter_formatted h hplus]
    dsimp only
    rw [h.parse]
    simp [formatFrontmatter]

end

end Ingest
end Aimx
