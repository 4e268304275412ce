import Mathlib.Data.List.DropRight
import Mathlib.Data.List.Basic

/-!
# Text as lists of characters

The string operations of the source language, on character lists: a Unicode `String` is the list of
its scalar values, and every operation below works on that list exactly as its standard-library
counterpart works on the encoded text.

* `splitOnce` / `rsplitOnce` — cut at the first / last occurrence of one element, with the exact
  characterisations `splitOnce_eq_some_iff` and `rsplitOnce_eq_some_iff`;
* `trim`, `trimStart`, `trimEnd` — Unicode `White_Space` trimming;
* `lines` — the line iterator, which drops a final line terminator;
* `eqIgnoreAsciiCase`, `toAsciiLowercase`, `toUppercase` — case mapping.
-/

namespace Aimx
namespace Text

/-- A Unicode string, as the list of its scalar values. -/
abbrev Str := List Char

/-- A byte string. -/
abbrev Bytes := List UInt8

/-! ## Statements about every character of a literal -/

namespace Literal

/-- A statement about every character of a text is decided along the text, not along the character type. -/
scoped instance (priority := 2000) decidableForallMem (p : Char → Prop) [DecidablePred p] (s : Str) :
    Decidable (∀ c ∈ s, p c) :=
  List.decidableBAll p s

end Literal

/-! ## Cutting at one element -/

section Split

variable {α : Type*} [DecidableEq α]

/-- Cut a list at the first occurrence of `x`, which belongs to neither half. -/
def splitOnce (x : α) : List α → Option (List α × List α)
  | [] => none
  | a :: l => if a = x then some ([], l) else (splitOnce x l).map fun p => (a :: p.1, p.2)

/-- Cut a list at the last occurrence of `x`, which belongs to neither half. -/
def rsplitOnce (x : α) (l : List α) : Option (List α × List α) :=
  (splitOnce x l.reverse).map fun p => (p.2.reverse, p.1.reverse)

/-- There is no cut exactly when the element does not occur. -/
theorem splitOnce_eq_none_iff {x : α} {l : List α} : splitOnce x l = none ↔ x ∉ l := by
  induction l with
  | nil => simp [splitOnce]
  | cons a l ih =>
      by_cases hax : a = x
      · simp [splitOnce, hax]
      · have hxa : x ≠ a := fun h => hax h.symm
        simp [splitOnce, hax, hxa, ih]

/-- The cut is the unique decomposition whose first half avoids the element. -/
theorem splitOnce_eq_some_iff {x : α} {l pre post : List α} :
    splitOnce x l = some (pre, post) ↔ l = pre ++ x :: post ∧ x ∉ pre := by
  induction l generalizing pre with
  | nil => simp [splitOnce]
  | cons a l ih =>
      by_cases hax : a = x
      · subst hax
        cases pre with
        | nil => simp [splitOnce, eq_comm]
        | cons b pre =>
            simp only [splitOnce, if_pos, Option.some.injEq, Prod.mk.injEq, List.cons_append,
              List.cons.injEq, List.mem_cons, not_or]
            constructor
            · rintro ⟨h, -⟩
              exact absurd h (List.cons_ne_nil b pre).symm
            · rintro ⟨⟨h, -⟩, hne, -⟩
              exact absurd h hne
      · cases pre with
        | nil => simp [splitOnce, hax]
        | cons b pre =>
            have hxa : ∀ b, a = b → x ≠ b := fun b hab hxb => hax (hab.trans hxb.symm)
            simp only [splitOnce, if_neg hax, Option.map_eq_some_iff, Prod.exists, Prod.mk.injEq,
              List.cons.injEq, List.cons_append, List.mem_cons, not_or]
            constructor
            · rintro ⟨pre', post', h, ⟨rfl, rfl⟩, rfl⟩
              obtain ⟨rfl, hmem⟩ := ih.mp h
              exact ⟨⟨rfl, rfl⟩, hxa a rfl, hmem⟩
            · rintro ⟨⟨rfl, hl⟩, -, hmem⟩
              exact ⟨pre, post, ih.mpr ⟨hl, hmem⟩, ⟨rfl, rfl⟩, rfl⟩

/-- The cut at the last occurrence is the decomposition whose second half avoids the element. -/
theorem rsplitOnce_eq_some_iff {x : α} {l pre post : List α} :
    rsplitOnce x l = some (pre, post) ↔ l = pre ++ x :: post ∧ x ∉ post := by
  simp only [rsplitOnce, Option.map_eq_some_iff, Prod.exists, Prod.mk.injEq]
  constructor
  · rintro ⟨a, b, h, rfl, rfl⟩
    obtain ⟨hl, hmem⟩ := splitOnce_eq_some_iff.mp h
    refine ⟨?_, by simpa using hmem⟩
    have hrev := congrArg List.reverse hl
    simpa using hrev
  · rintro ⟨rfl, hmem⟩
    refine ⟨post.reverse, pre.reverse, ?_, List.reverse_reverse _, List.reverse_reverse _⟩
    exact splitOnce_eq_some_iff.mpr ⟨by simp, by simpa using hmem⟩

/-- A cut splits off at least the separator. -/
theorem splitOnce_length {x : α} {l pre post : List α} (h : splitOnce x l = some (pre, post)) :
    l.length = pre.length + post.length + 1 := by
  obtain ⟨rfl, -⟩ := splitOnce_eq_some_iff.mp h
  simp only [List.length_append, List.length_cons]
  omega

end Split

/-! ## White space -/

/-- The Unicode `White_Space` property (`char::is_whitespace`). -/
def isWhitespace (c : Char) : Bool :=
  let n := c.toNat
  (9 ≤ n && n ≤ 13) || n == 0x20 || n == 0x85 || n == 0xA0 || n == 0x1680 ||
    (0x2000 ≤ n && n ≤ 0x200A) || n == 0x2028 || n == 0x2029 || n == 0x202F || n == 0x205F ||
    n == 0x3000

/-- `str::trim_start`. -/
def trimStart (s : Str) : Str := s.dropWhile isWhitespace

/-- `str::trim_end`. -/
def trimEnd (s : Str) : Str := s.rdropWhile isWhitespace

/-- `str::trim`. -/
def trim (s : Str) : Str := trimEnd (trimStart s)

@[simp] theorem trimStart_nil : trimStart [] = [] := rfl

@[simp] theorem trimEnd_nil : trimEnd [] = [] := rfl

/-- White space at the end is trimmed away. -/
theorem trimEnd_concat_whitespace (s : Str) {c : Char} (h : isWhitespace c = true) :
    trimEnd (s ++ [c]) = trimEnd s :=
  List.rdropWhile_concat_pos isWhitespace s c h

/-- White space at the end stays at the end, or goes with a blank text. -/
theorem trimStart_concat_whitespace (s : Str) {c : Char} (h : isWhitespace c = true) :
    trimStart (s ++ [c]) = trimStart s ++ [c] ∨ trimStart (s ++ [c]) = trimStart s := by
  unfold trimStart
  induction s with
  | nil => simp [h]
  | cons d s ih =>
      by_cases hd : isWhitespace d = true
      · simpa [hd] using ih
      · simp [hd]

/-- A text that ends in a visible character is not shortened by `trimEnd`. -/
theorem trimEnd_concat_visible (s : Str) {c : Char} (h : isWhitespace c = false) :
    trimEnd (s ++ [c]) = s ++ [c] :=
  List.rdropWhile_concat_neg isWhitespace s c (by simp [h])

/-- Only blank texts are trimmed to nothing. -/
theorem trim_eq_nil_iff {s : Str} : trim s = [] ↔ ∀ c ∈ s, isWhitespace c = true := by
  unfold trim trimEnd trimStart
  rw [List.rdropWhile_eq_nil_iff]
  constructor
  · intro h
    -- The rest of `dropWhile` starts with a visible character, if there is a rest.
    cases hrest : s.dropWhile isWhitespace with
    | nil => exact List.dropWhile_eq_nil_iff.mp hrest
    | cons c rest =>
        have hfirst := List.head_dropWhile_not isWhitespace (l := s) (by simp [hrest])
        simp only [hrest, List.head_cons] at hfirst
        rw [h c (by simp [hrest])] at hfirst
        cases hfirst
  · intro h c hc
    rw [List.dropWhile_eq_nil_iff.mpr h] at hc
    cases hc

/-- White space at the end does not matter to `trim`. -/
theorem trim_concat_whitespace (s : Str) {c : Char} (h : isWhitespace c = true) :
    trim (s ++ [c]) = trim s := by
  unfold trim
  rcases trimStart_concat_whitespace s h with hs | hs
  · rw [hs, trimEnd_concat_whitespace _ h]
  · rw [hs]

/-- A text without white space is not trimmed. -/
theorem trim_eq_self {s : Str} (h : ∀ c ∈ s, isWhitespace c = false) : trim s = s := by
  have hstart : trimStart s = s := by
    unfold trimStart
    cases s with
    | nil => rfl
    | cons c s =>
        rw [List.dropWhile_cons_of_neg]
        simp [h c List.mem_cons_self]
  rw [trim, hstart]
  refine List.rdropWhile_eq_self_iff.mpr fun hl hlast => ?_
  exact absurd hlast (by simp [h _ (List.getLast_mem hl)])

/-! ## Lines -/

/-- `str::lines`: the lines without their terminators; a terminator at the very end of the text
opens no further line.  A carriage return belongs to the terminator only directly before the line
feed. -/
def lines : Str → List Str
  | [] => []
  | '\n' :: s => [] :: lines s
  | '\r' :: '\n' :: s => [] :: lines s
  | c :: s =>
      match lines s with
      | [] => [[c]]
      | l :: ls => (c :: l) :: ls

/-- A character that neither ends a line nor precedes a line feed belongs to the first line. -/
theorem lines_cons {c : Char} {s : Str} (hnl : c ≠ '\n') (hcr : c = '\r' → s.head? ≠ some '\n') :
    lines (c :: s) = match lines s with
      | [] => [[c]]
      | l :: ls => (c :: l) :: ls := by
  rw [lines.eq_4]
  · exact hnl
  · intro s' hc hs
    exact hcr hc (by rw [hs]; rfl)

/-- A text that is not empty has a line. -/
theorem lines_cons_ne_nil (c : Char) (s : Str) : lines (c :: s) ≠ [] := by
  unfold lines
  split
  · simp_all
  · simp
  · simp
  · split <;> simp

/-- The lines of a text are cut apart at any of its line feeds. -/
theorem lines_append_newline (a b : Str) :
    lines (a ++ '\n' :: b) = lines (a ++ ['\n']) ++ lines b := by
  induction a with
  | nil => simp [lines]
  | cons c a ih =>
      by_cases hnl : c = '\n'
      · subst hnl
        simpa [lines] using ih
      by_cases hcr : c = '\r' ∧ ∀ x : Str, (a ++ '\n' :: x).head? = some '\n'
      · -- a carriage return directly before a line feed adds nothing to the line
        obtain ⟨rfl, hhead⟩ := hcr
        have hskip : ∀ x : Str, lines ('\r' :: (a ++ '\n' :: x)) = lines (a ++ '\n' :: x) := by
          intro x
          obtain ⟨t, ht⟩ : ∃ t, a ++ '\n' :: x = '\n' :: t := by
            have := hhead x
            cases hax : a ++ '\n' :: x with
            | nil => simp [hax] at this
            | cons d t =>
                rw [hax, List.head?_cons, Option.some.injEq] at this
                exact ⟨t, by rw [this]⟩
          rw [ht]
          rfl
        show lines ('\r' :: (a ++ '\n' :: b)) = lines ('\r' :: (a ++ ['\n'])) ++ lines b
        rw [hskip, hskip, ih]
      · have hvisible : ∀ x : Str, c = '\r' → (a ++ '\n' :: x).head? ≠ some '\n' := by
          intro x hc hx
          refine hcr ⟨hc, fun y => ?_⟩
          cases a with
          | nil => rfl
          | cons d a => simpa using hx
        show lines (c :: (a ++ '\n' :: b)) = lines (c :: (a ++ ['\n'])) ++ lines b
        rw [lines_cons hnl (hvisible b), lines_cons hnl (hvisible []), ih]
        cases hlines : lines (a ++ ['\n']) with
        | nil =>
            obtain ⟨d, t, hdt⟩ := List.exists_cons_of_ne_nil (List.concat_ne_nil '\n' a)
            rw [hdt] at hlines
            exact absurd hlines (lines_cons_ne_nil d t)
        | cons l ls => rfl

/-- A line without a line feed, ended by CRLF, is the first line of the text. -/
theorem lines_crlf_cons {l : Str} (h : '\n' ∉ l) (s : Str) :
    lines (l ++ '\r' :: '\n' :: s) = l :: lines s := by
  induction l with
  | nil => rfl
  | cons c l ih =>
      rw [List.mem_cons, not_or] at h
      have hhead : (l ++ '\r' :: '\n' :: s).head? ≠ some '\n' := by
        cases l with
        | nil => simp
        | cons d l =>
            intro hd
            rw [List.cons_append, List.head?_cons, Option.some.injEq] at hd
            exact h.2 (hd ▸ List.mem_cons_self)
      show lines (c :: (l ++ '\r' :: '\n' :: s)) = _
      rw [lines_cons (fun hc => h.1 hc.symm) fun _ => hhead, ih h.2]

/-- A line without a line feed, ended by a line feed alone, is the first line of the text unless it
ends in a carriage return. -/
theorem lines_lf_cons {l : Str} (h : '\n' ∉ l) (hcr : l.getLast? ≠ some '\r') (s : Str) :
    lines (l ++ '\n' :: s) = l :: lines s := by
  induction l with
  | nil => rfl
  | cons c l ih =>
      rw [List.mem_cons, not_or] at h
      have hhead : c = '\r' → (l ++ '\n' :: s).head? ≠ some '\n' := by
        intro hc hd
        cases l with
        | nil => exact hcr (by rw [hc]; rfl)
        | cons d l =>
            rw [List.cons_append, List.head?_cons, Option.some.injEq] at hd
            exact h.2 (hd ▸ List.mem_cons_self)
      have hlast : l.getLast? ≠ some '\r' := by
        intro hl
        refine hcr ?_
        rw [List.getLast?_cons, hl]
        rfl
      show lines (c :: (l ++ '\n' :: s)) = _
      rw [lines_cons (fun hc => h.1 hc.symm) hhead, ih h.2 hlast]

/-- A line contains no line feed. -/
theorem newline_notMem_of_mem_lines {s l : Str} (h : l ∈ lines s) : '\n' ∉ l := by
  induction s using lines.induct generalizing l with
  | case1 => simp [lines] at h
  | case2 s ih =>
      rcases List.mem_cons.mp h with rfl | h
      · simp
      · exact ih h
  | case3 s ih =>
      rcases List.mem_cons.mp h with rfl | h
      · simp
      · exact ih h
  | case4 c s hnl hcr hlines ih =>
      have hc : '\n' ≠ c := fun hc => hnl hc.symm
      rw [lines.eq_4 c s hnl hcr, hlines] at h
      obtain rfl := List.mem_singleton.mp h
      simpa using hc
  | case5 c s hnl hcr l' ls hlines ih =>
      have hc : '\n' ≠ c := fun hc => hnl hc.symm
      rw [lines.eq_4 c s hnl hcr, hlines] at h
      rcases List.mem_cons.mp h with rfl | h
      · rw [List.mem_cons, not_or]
        exact ⟨hc, ih (by rw [hlines]; exact List.mem_cons_self)⟩
      · exact ih (by rw [hlines]; exact List.mem_cons_of_mem _ h)

/-- A text without a line feed is one line. -/
theorem lines_single {l : Str} (h : '\n' ∉ l) (hne : l ≠ []) : lines l = [l] := by
  induction l with
  | nil => exact absurd rfl hne
  | cons c l ih =>
      rw [List.mem_cons, not_or] at h
      have hhead : l.head? ≠ some '\n' := fun hd => h.2 (List.mem_of_mem_head? hd)
      rw [lines_cons (fun hc => h.1 hc.symm) fun _ => hhead]
      cases l with
      | nil => rfl
      | cons d l => rw [ih h.2 (List.cons_ne_nil d l)]

/-! ## Prefixes, suffixes and slices -/

/-- `str::strip_prefix`. -/
def stripPrefix (pre s : Str) : Option Str := s.dropPrefix? pre

/-- `str::strip_suffix`. -/
def stripSuffix (suf s : Str) : Option Str := s.dropSuffix? suf

/-- `&s[n..]` with a byte offset; `none` where the offset is not a character boundary of the text,
and the slicing would panic. -/
def sliceFrom (n : Nat) : Str → Option Str
  | [] => if n = 0 then some [] else none
  | c :: s =>
      if n = 0 then some (c :: s)
      else if c.utf8Size ≤ n then sliceFrom (n - c.utf8Size) s else none

theorem stripPrefix_eq_some_iff {pre s rest : Str} :
    stripPrefix pre s = some rest ↔ s = pre ++ rest := by
  simp [stripPrefix, List.dropPrefix?_eq_some_iff]

@[simp] theorem stripPrefix_append (pre rest : Str) : stripPrefix pre (pre ++ rest) = some rest :=
  stripPrefix_eq_some_iff.mpr rfl

theorem stripSuffix_eq_some_iff {suf s rest : Str} :
    stripSuffix suf s = some rest ↔ s = rest ++ suf := by
  simp [stripSuffix, List.dropSuffix?_eq_some_iff]

/-! ## Case mapping -/

/-- `str::eq_ignore_ascii_case`. -/
def eqIgnoreAsciiCase (a b : Str) : Bool := a.map Char.toLower == b.map Char.toLower

/-- `str::to_ascii_lowercase`. -/
def toAsciiLowercase (s : Str) : Str := s.map Char.toLower

/-- The upper-case image of one character, as far as it can contain an ASCII character: the ASCII
letters, the dotless `ı` and long `ſ`, and the ligatures and pre-composed letters that expand to
an ASCII capital.  Every other character has an upper-case image without ASCII characters and is
kept as it is, so comparisons of an upper-cased text with ASCII text are exact. -/
def charUppercase (c : Char) : Str :=
  match c.toNat with
  | 0xDF => "SS".toList
  | 0x131 => "I".toList
  | 0x149 => [Char.ofNat 0x2BC, 'N']
  | 0x17F => "S".toList
  | 0x1F0 => ['J', Char.ofNat 0x30C]
  | 0x1E96 => ['H', Char.ofNat 0x331]
  | 0x1E97 => ['T', Char.ofNat 0x308]
  | 0x1E98 => ['W', Char.ofNat 0x30A]
  | 0x1E99 => ['Y', Char.ofNat 0x30A]
  | 0x1E9A => ['A', Char.ofNat 0x2BE]
  | 0xFB00 => "FF".toList
  | 0xFB01 => "FI".toList
  | 0xFB02 => "FL".toList
  | 0xFB03 => "FFI".toList
  | 0xFB04 => "FFL".toList
  | 0xFB05 => "ST".toList
  | 0xFB06 => "ST".toList
  | _ => [c.toUpper]

/-- `str::to_uppercase`, up to characters whose image has no ASCII character. -/
def toUppercase (s : Str) : Str := s.flatMap charUppercase

@[simp] theorem eqIgnoreAsciiCase_self (s : Str) : eqIgnoreAsciiCase s s = true := by
  simp [eqIgnoreAsciiCase]

/-- Lower-casing makes lower-case letters only. -/
theorem eq_of_toLower_eq {c d : Char} (hd : d.val.toNat < 97) (h : c.toLower = d) : c = d := by
  unfold Char.toLower at h
  split at h
  next hupper =>
      have hval := congrArg (fun d : Char => d.val.toNat) h
      have hlow : 65 ≤ c.val.toNat := UInt32.le_iff_toNat_le.mp hupper.1
      have hhigh : c.val.toNat ≤ 90 := UInt32.le_iff_toNat_le.mp hupper.2
      have hsum : (c.val.toNat + 32) % 4294967296 = d.val.toNat := hval
      omega
  next => exact h

theorem eqIgnoreAsciiCase_iff {a b : Str} :
    eqIgnoreAsciiCase a b = true ↔ toAsciiLowercase a = toAsciiLowercase b := by
  simp [eqIgnoreAsciiCase, toAsciiLowercase]

end Text
end Aimx
