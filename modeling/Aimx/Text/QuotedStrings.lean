import Aimx.Text.Decimal
import Mathlib.Data.List.Infix

/-!
# Quoted strings

The value of a TXT record is a list of strings, which a lookup tool prints in quotes with a space between
them.  The reader takes the text between two strings out and the quotes at the ends off.

* `txtLine` — the printed line;
* `unquoteTxt` — the reader;
* `unquoteTxt_txtLine` — a plain value is read back, however it is cut into strings;
* `infix_of_unquoteTxt` — a word that is read is a word of the value.
-/

namespace Aimx
namespace Text

/-! ## Printing and reading -/

/-- A character that is printed as it is within quotes. -/
def IsPlain (c : Char) : Prop := c ≠ '"' ∧ c ≠ '\\' ∧ ' ' ≤ c ∧ c ≤ '~'

instance (c : Char) : Decidable (IsPlain c) := inferInstanceAs (Decidable (_ ∧ _))

/-- A character in quotes: quotes and backslashes are escaped by a backslash, and what cannot be printed by
its number. -/
def escapeTxt (c : Char) : Str :=
  if IsPlain c then [c]
  else if c = '"' ∨ c = '\\' then ['\\', c]
  else '\\' :: (List.replicate (3 - (decimal c.toNat).length) '0' ++ decimal c.toNat)

/-- The rest of a line from within a string on: what is left of that string, and the other strings. -/
def withinQuotes (s : Str) : List Str → Str
  | [] => s.flatMap escapeTxt ++ ['"']
  | t :: ts => s.flatMap escapeTxt ++ '"' :: ' ' :: '"' :: withinQuotes t ts

/-- The strings of a record as they are printed. -/
def txtLine : List Str → Str
  | [] => []
  | s :: ss => '"' :: withinQuotes s ss

/-- `l.replace("\" \"", "")`. -/
def removeSeparators : Str → Str
  | '"' :: ' ' :: '"' :: s => removeSeparators s
  | c :: s => c :: removeSeparators s
  | [] => []

/-- `trim_matches('"')`. -/
def trimQuotes (s : Str) : Str := (s.dropWhile (· = '"')).rdropWhile (· = '"')

def unquoteTxt (l : Str) : Str := trimQuotes (removeSeparators l)

example : unquoteTxt (txtLine ["v=spf1 ".toList, [], "-all".toList]) = "v=spf1 -all".toList := by decide

/-! ## Reading a plain value -/

theorem escapeTxt_plain {c : Char} (h : IsPlain c) : escapeTxt c = [c] := if_pos h

theorem removeSeparators_cons {c : Char} (h : c ≠ '"') (s : Str) :
    removeSeparators (c :: s) = c :: removeSeparators s := by
  rw [removeSeparators.eq_2]
  rintro s' rfl
  exact absurd rfl h

/-- Within a string nothing but separators is removed. -/
theorem removeSeparators_withinQuotes (s : Str) (ss : List Str) (hs : ∀ c ∈ s, IsPlain c)
    (hss : ∀ t ∈ ss, ∀ c ∈ t, IsPlain c) :
    removeSeparators (withinQuotes s ss) = s ++ ss.flatten ++ ['"'] := by
  have hfront : ∀ (s rest : Str), (∀ c ∈ s, IsPlain c) →
      removeSeparators (s.flatMap escapeTxt ++ rest) = s ++ removeSeparators rest := by
    intro s rest hs
    induction s with
    | nil => rfl
    | cons c s ih =>
        have hc := hs c List.mem_cons_self
        rw [List.flatMap_cons, escapeTxt_plain hc, List.append_assoc, List.singleton_append,
          removeSeparators_cons hc.1, ih fun c' hc' => hs c' (List.mem_cons_of_mem _ hc')]
        rfl
  induction ss generalizing s with
  | nil =>
      rw [withinQuotes, hfront s _ hs]
      simp [removeSeparators]
  | cons t ts ih =>
      have hnext := ih t (hss t List.mem_cons_self) fun u hu => hss u (List.mem_cons_of_mem _ hu)
      rw [withinQuotes, hfront s _ hs]
      show s ++ removeSeparators (withinQuotes t ts) = _
      rw [hnext, List.flatten_cons]
      simp

/-- What a character is printed as. -/
theorem escapeTxt_cases (c : Char) :
    (IsPlain c ∧ escapeTxt c = [c]) ∨ ∃ digits, escapeTxt c = '\\' :: digits ∧
      (digits = [c] ∧ (c = '"' ∨ c = '\\') ∨ ∀ d ∈ digits, d.isDigit = true) := by
  unfold escapeTxt
  split
  next h => exact .inl ⟨h, rfl⟩
  next =>
      right
      split
      next h => exact ⟨_, rfl, .inl ⟨rfl, h⟩⟩
      next =>
          refine ⟨_, rfl, .inr fun d hd => ?_⟩
          rcases List.mem_append.mp hd with hd | hd
          · rw [List.eq_of_mem_replicate hd]
            rfl
          · exact isDigit_of_mem_decimal hd

/-- What is left of a string begins with none of its characters or with the first one, escaped or not. -/
theorem withinQuotes_cons (c : Char) (s : Str) (ss : List Str) :
    withinQuotes (c :: s) ss = escapeTxt c ++ withinQuotes s ss := by
  cases ss <;> simp [withinQuotes]

theorem withinQuotes_nil_head (ss : List Str) : (withinQuotes [] ss).head? = some '"' := by
  cases ss <;> rfl

/-- The opening quote stays, where the first string is no single space. -/
theorem removeSeparators_quote {s : Str} {ss : List Str} (h : s ≠ [' ']) :
    removeSeparators ('"' :: withinQuotes s ss) = '"' :: removeSeparators (withinQuotes s ss) := by
  rw [removeSeparators.eq_2]
  rintro rest - heq
  cases s with
  | nil =>
      have hhead := withinQuotes_nil_head ss
      rw [heq] at hhead
      cases hhead
  | cons c s =>
      rw [withinQuotes_cons] at heq
      rcases escapeTxt_cases c with ⟨hplain, hc⟩ | ⟨digits, hc, -⟩ <;> rw [hc] at heq
      · obtain ⟨rfl, htail⟩ := List.cons.inj heq
        cases s with
        | nil => exact h rfl
        | cons d s =>
            have htail' : withinQuotes (d :: s) ss = '"' :: rest := htail
            rw [withinQuotes_cons] at htail'
            rcases escapeTxt_cases d with ⟨hplain', hd⟩ | ⟨digits, hd, -⟩ <;> rw [hd] at htail'
            · exact hplain'.1 (List.cons.inj htail').1
            · exact absurd (List.cons.inj htail').1 (by decide)
      · exact absurd (List.cons.inj heq).1 (by decide)

/-- The quotes around a text without quotes are taken off. -/
theorem trimQuotes_quoted {v : Str} (h : '"' ∉ v) : trimQuotes ('"' :: (v ++ ['"'])) = v := by
  have hstart : ('"' :: (v ++ ['"'])).dropWhile (· = '"') = (v ++ ['"']).dropWhile (· = '"') := by
    rw [List.dropWhile_cons_of_pos (by decide)]
  unfold trimQuotes
  rw [hstart]
  cases v with
  | nil => decide
  | cons c v =>
      have hc : c ≠ '"' := fun heq => h (heq ▸ List.mem_cons_self)
      have hlast : (c :: v).rdropWhile (· = '"') = c :: v := by
        rw [List.rdropWhile_eq_self_iff]
        intro hne hquote
        exact h (of_decide_eq_true hquote ▸ List.getLast_mem hne)
      rw [List.cons_append, List.dropWhile_cons_of_neg (by simpa using hc), ← List.cons_append,
        List.rdropWhile_concat_pos _ _ _ (by decide), hlast]

/-- A value is read back from the strings that it is cut into. -/
theorem unquoteTxt_txtLine {ss : List Str} {v : Str} (hv : ss.flatten = v) (hne : v ≠ [])
    (hplain : ∀ c ∈ v, IsPlain c) (hhead : v.head? ≠ some ' ') : unquoteTxt (txtLine ss) = v := by
  cases ss with
  | nil => exact absurd hv.symm hne
  | cons s ss =>
      rw [List.flatten_cons] at hv
      have hs : s ≠ [' '] := by
        rintro rfl
        exact hhead (hv ▸ rfl)
      have hread := removeSeparators_withinQuotes s ss
        (fun c hc => hplain c (hv ▸ List.mem_append_left _ hc))
        (fun t ht c hc => hplain c (hv ▸ List.mem_append_right _ (List.mem_flatten_of_mem ht hc)))
      unfold unquoteTxt txtLine
      rw [removeSeparators_quote hs, hread, hv]
      exact trimQuotes_quoted fun hmem => (hplain _ hmem).1 rfl

/-! ## Words -/

/-- A character of a word that is looked for. -/
def IsWordChar (c : Char) : Prop := c ≠ '"' ∧ c ≠ '\\' ∧ c ≠ ' '

/-- A word that is read at the beginning of a string takes its first character from it. -/
theorem cons_of_prefix_removeSeparators {a c : Char} {m s : Str} {ss : List Str} (ha : IsWordChar a)
    (h : (a :: m) <+: removeSeparators (withinQuotes (c :: s) ss)) :
    a = c ∧ m <+: removeSeparators (withinQuotes s ss) := by
  rw [withinQuotes_cons] at h
  rcases escapeTxt_cases c with ⟨hplain, hc⟩ | ⟨digits, hc, -⟩ <;> rw [hc] at h
  · rw [List.singleton_append, removeSeparators_cons hplain.1] at h
    exact List.cons_prefix_cons.mp h
  · rw [List.cons_append, removeSeparators_cons (by decide)] at h
    exact absurd (List.cons_prefix_cons.mp h).1 ha.2.1

/-- What is read at the beginning stands in the value. -/
theorem prefix_of_removeSeparators {m : Str} (hm : ∀ c ∈ m, IsWordChar c) (s : Str) (ss : List Str)
    (h : m <+: removeSeparators (withinQuotes s ss)) : m <+: s ++ ss.flatten := by
  induction ss generalizing s m with
  | nil =>
      induction s generalizing m with
      | nil =>
          cases m with
          | nil => exact List.nil_prefix
          | cons a m =>
              obtain ⟨t, ht⟩ := h
              exact absurd (List.cons.inj ht).1 (hm a List.mem_cons_self).1
      | cons c s ih =>
          cases m with
          | nil => exact List.nil_prefix
          | cons a m =>
              obtain ⟨rfl, hrest⟩ := cons_of_prefix_removeSeparators (hm a List.mem_cons_self) h
              exact List.cons_prefix_cons.mpr ⟨rfl, ih (fun c hc => hm c (List.mem_cons_of_mem _ hc)) hrest⟩
  | cons t ts iht =>
      induction s generalizing m with
      | nil => exact iht hm t h
      | cons c s ih =>
          cases m with
          | nil => exact List.nil_prefix
          | cons a m =>
              obtain ⟨rfl, hrest⟩ := cons_of_prefix_removeSeparators (hm a List.mem_cons_self) h
              exact List.cons_prefix_cons.mpr ⟨rfl, ih (fun c hc => hm c (List.mem_cons_of_mem _ hc)) hrest⟩

/-- A word that is read in the line stands behind its first character. -/
theorem suffix_of_infix_removeSeparators {a : Char} {m : Str} (l : Str)
    (h : (a :: m) <:+: removeSeparators l) : ∃ rest, (a :: rest) <:+ l ∧ m <+: removeSeparators rest := by
  fun_induction removeSeparators l with
  | case1 s ih =>
      obtain ⟨rest, hsuffix, hm⟩ := ih h
      exact ⟨rest, hsuffix.trans ⟨['"', ' ', '"'], rfl⟩, hm⟩
  | case2 c s hnot ih =>
      rcases List.infix_cons_iff.mp h with hprefix | hinfix
      · obtain ⟨rfl, hm⟩ := List.cons_prefix_cons.mp hprefix
        exact ⟨s, List.suffix_refl _, hm⟩
      · obtain ⟨rest, hsuffix, hm⟩ := ih hinfix
        exact ⟨rest, hsuffix.trans (List.suffix_cons c s), hm⟩
  | case3 => exact absurd (List.infix_nil.mp h) (by simp)

/-- A character of a word in a printed character is that character. -/
theorem suffix_of_suffix_escapeTxt {a c : Char} (ha : IsWordChar a) (hdigit : a.isDigit = false)
    {rest t : Str} (h : (a :: rest) <:+ escapeTxt c ++ t) : (a :: rest) <:+ t ∨ a = c ∧ rest = t := by
  obtain ⟨front, heq⟩ := h
  rcases List.append_eq_append_iff.mp heq with ⟨x, hx, hrest⟩ | ⟨x, -, ht⟩
  · cases x with
    | nil => exact .inl ⟨[], hrest⟩
    | cons b x =>
        obtain ⟨rfl, rfl⟩ := List.cons.inj hrest
        rcases escapeTxt_cases c with ⟨-, hc⟩ | ⟨digits, hc, hdigits⟩ <;> rw [hc] at hx
        · cases front with
          | nil =>
              obtain ⟨rfl, rfl⟩ := List.cons.inj hx
              exact .inr ⟨rfl, rfl⟩
          | cons d front => simp at hx
        · exfalso
          have hmem : a ∈ '\\' :: digits := hx ▸ List.mem_append_right _ List.mem_cons_self
          rcases List.mem_cons.mp hmem with rfl | hmem
          · exact ha.2.1 rfl
          · rcases hdigits with ⟨hsingle, hspecial⟩ | hdigits
            · have heq : a = c := List.mem_singleton.mp (hsingle ▸ hmem)
              rcases hspecial with hquote | hbackslash
              · exact ha.1 (heq.trans hquote)
              · exact ha.2.1 (heq.trans hbackslash)
            · rw [hdigits a hmem] at hdigit
              cases hdigit
  · exact .inl ⟨x, ht.symm⟩

/-- What follows a character of a word in a line is the rest of the string that it stands in. -/
theorem eq_withinQuotes_of_suffix {a : Char} (ha : IsWordChar a) (hdigit : a.isDigit = false) {rest s : Str}
    {ss : List Str} (h : (a :: rest) <:+ withinQuotes s ss) :
    ∃ s' ss', rest = withinQuotes s' ss' ∧ (a :: s') ++ ss'.flatten <:+ s ++ ss.flatten := by
  induction ss generalizing s with
  | nil =>
      induction s with
      | nil =>
          rcases List.suffix_cons_iff.mp h with heq | hsuffix
          · exact absurd (List.cons.inj heq).1 ha.1
          · exact absurd (List.suffix_nil.mp hsuffix) (by simp)
      | cons c s ih =>
          rw [withinQuotes_cons] at h
          rcases suffix_of_suffix_escapeTxt ha hdigit h with hsuffix | ⟨rfl, rfl⟩
          · obtain ⟨s', ss', hrest, hflat⟩ := ih hsuffix
            exact ⟨s', ss', hrest, hflat.trans (List.suffix_cons c _)⟩
          · exact ⟨s, [], rfl, List.suffix_refl _⟩
  | cons t ts iht =>
      induction s with
      | nil =>
          have hline : withinQuotes [] (t :: ts) = '"' :: ' ' :: '"' :: withinQuotes t ts := rfl
          rw [hline] at h
          rcases List.suffix_cons_iff.mp h with heq | h
          · exact absurd (List.cons.inj heq).1 ha.1
          rcases List.suffix_cons_iff.mp h with heq | h
          · exact absurd (List.cons.inj heq).1 ha.2.2
          rcases List.suffix_cons_iff.mp h with heq | h
          · exact absurd (List.cons.inj heq).1 ha.1
          obtain ⟨s', ss', hrest, hflat⟩ := iht h
          exact ⟨s', ss', hrest, by rwa [List.nil_append, List.flatten_cons]⟩
      | cons c s ih =>
          rw [withinQuotes_cons] at h
          rcases suffix_of_suffix_escapeTxt ha hdigit h with hsuffix | ⟨rfl, rfl⟩
          · obtain ⟨s', ss', hrest, hflat⟩ := ih hsuffix
            exact ⟨s', ss', hrest, hflat.trans (List.suffix_cons c _)⟩
          · exact ⟨s, t :: ts, rfl, List.suffix_refl _⟩

theorem infix_trimQuotes (s : Str) : trimQuotes s <:+: s :=
  (List.rdropWhile_prefix _ _).isInfix.trans (List.dropWhile_suffix _).isInfix

/-- A word that is read is a word of the value. -/
theorem infix_of_unquoteTxt {a : Char} {m : Str} (hm : ∀ c ∈ a :: m, IsWordChar c)
    (hdigit : a.isDigit = false) {ss : List Str} (h : (a :: m) <:+: unquoteTxt (txtLine ss)) :
    (a :: m) <:+: ss.flatten := by
  have ha := hm a List.mem_cons_self
  cases ss with
  | nil => exact absurd (List.infix_nil.mp h) (by simp)
  | cons s ss =>
      obtain ⟨rest, hsuffix, hrest⟩ := suffix_of_infix_removeSeparators _ (h.trans (infix_trimQuotes _))
      rcases List.suffix_cons_iff.mp hsuffix with heq | hsuffix
      · exact absurd (List.cons.inj heq).1 ha.1
      obtain ⟨s', ss', rfl, hflat⟩ := eq_withinQuotes_of_suffix ha hdigit hsuffix
      have hprefix := prefix_of_removeSeparators (fun c hc => hm c (List.mem_cons_of_mem _ hc)) s' ss' hrest
      have hword : (a :: m) <+: (a :: s') ++ ss'.flatten := List.cons_prefix_cons.mpr ⟨rfl, hprefix⟩
      exact hword.isInfix.trans hflat.isInfix

end Text
end Aimx
