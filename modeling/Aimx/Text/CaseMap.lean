import Aimx.Text.Str
import Mathlib.Data.List.Infix

/-!
# Keywords in a text of another case

A keyword is searched for in the upper- or lower-cased copy of a text, and its length is then cut off the
text itself.  The cut is on a character boundary if the keyword can only come from ASCII letters.

* `toLowercase` — the lower-case copy;
* `sliceFrom_of_toUppercase`, `sliceFrom_of_toLowercase` — the cut behind a keyword.
-/

namespace Aimx
namespace Text

/-- The lower-case image of one character, as far as it can contain an ASCII character: the ASCII letters,
the dotted `İ` and the Kelvin sign.  Every other character is kept as it is. -/
def charLowercase (c : Char) : Str :=
  match c.toNat with
  | 0x130 => ['i', Char.ofNat 0x307]
  | 0x212A => ['k']
  | _ => [c.toLower]

/-- `str::to_lowercase`, up to characters whose image has no ASCII character. -/
def toLowercase (s : Str) : Str := s.flatMap charLowercase

/-- The upper-case images of characters that are not ASCII. -/
def foreignUppercase : List Str :=
  ["SS".toList, "I".toList, [Char.ofNat 0x2BC, 'N'], "S".toList, ['J', Char.ofNat 0x30C],
    ['H', Char.ofNat 0x331], ['T', Char.ofNat 0x308], ['W', Char.ofNat 0x30A], ['Y', Char.ofNat 0x30A],
    ['A', Char.ofNat 0x2BE], "FF".toList, "FI".toList, "FL".toList, "FFI".toList, "FFL".toList,
    "ST".toList]

/-- The lower-case images of characters that are not ASCII. -/
def foreignLowercase : List Str := [['i', Char.ofNat 0x307], ['k']]

theorem charUppercase_cases (c : Char) :
    charUppercase c = [c.toUpper] ∨ charUppercase c ∈ foreignUppercase := by
  unfold charUppercase foreignUppercase
  split
  case h_18 => exact .inl rfl
  all_goals exact .inr (by simp)

theorem charLowercase_cases (c : Char) :
    charLowercase c = [c.toLower] ∨ charLowercase c ∈ foreignLowercase := by
  unfold charLowercase foreignLowercase
  split
  case h_3 => exact .inl rfl
  all_goals exact .inr (by simp)

/-- Only ASCII letters have an ASCII letter of the other case. -/
theorem ascii_of_toUpper {c : Char} (h : c.toUpper.toNat < 128) : c.toNat < 128 := by
  unfold Char.toUpper at h
  split at h
  next hlower =>
      have hhigh : c.val.toNat ≤ 122 := UInt32.le_iff_toNat_le.mp hlower.2
      show c.val.toNat < 128
      omega
  next => exact h

theorem ascii_of_toLower {c : Char} (h : c.toLower.toNat < 128) : c.toNat < 128 := by
  unfold Char.toLower at h
  split at h
  next hupper =>
      have hhigh : c.val.toNat ≤ 90 := UInt32.le_iff_toNat_le.mp hupper.2
      show c.val.toNat < 128
      omega
  next => exact h

section Keyword

variable {image : Char → Str} {simple : Char → Char} {foreign : List Str}

/-- No image of a character that is not ASCII takes part in the keyword. -/
def Plain (foreign : List Str) (keyword : Str) : Prop :=
  (∀ x ∈ keyword, x.toNat < 128) ∧
    ∀ suf ∈ keyword.tails, suf ≠ [] → ∀ img ∈ foreign, ¬ img <+: suf ∧ ¬ suf <+: img

/-- A test for a plain keyword. -/
def isPlain (foreign : List Str) (keyword : Str) : Bool :=
  keyword.all (fun x => decide (x.toNat < 128)) &&
    keyword.tails.all fun suf => suf.isEmpty ||
      foreign.all fun img => !img.isPrefixOf suf && !suf.isPrefixOf img

theorem plain_of_isPlain {keyword : Str} (h : isPlain foreign keyword = true) :
    Plain foreign keyword := by
  unfold isPlain at h
  rw [Bool.and_eq_true, List.all_eq_true, List.all_eq_true] at h
  refine ⟨fun x hx => of_decide_eq_true (h.1 x hx), ?_⟩
  intro suf hsuf hne img himg
  have hall : (foreign.all fun img => !img.isPrefixOf suf && !suf.isPrefixOf img) = true := by
    simpa [hne] using h.2 suf hsuf
  have hboth := List.all_eq_true.mp hall img himg
  rw [Bool.and_eq_true, Bool.not_eq_true', Bool.not_eq_true'] at hboth
  constructor
  · rw [← List.isPrefixOf_iff_prefix, hboth.1]
    exact Bool.false_ne_true
  · rw [← List.isPrefixOf_iff_prefix, hboth.2]
    exact Bool.false_ne_true

/-- A keyword of an image stands over as many ASCII characters. -/
theorem ascii_of_prefix (himage : ∀ c, image c = [simple c] ∨ image c ∈ foreign)
    (hsimple : ∀ c, (simple c).toNat < 128 → c.toNat < 128) {keyword s : Str}
    (hplain : Plain foreign keyword) (h : keyword <+: s.flatMap image) :
    keyword.length ≤ s.length ∧ ∀ c ∈ s.take keyword.length, c.toNat < 128 := by
  induction keyword generalizing s with
  | nil => exact ⟨Nat.zero_le _, by simp⟩
  | cons x keyword ih =>
      obtain ⟨hascii, hforeign⟩ := hplain
      rw [List.forall_mem_cons] at hascii
      cases s with
      | nil => cases List.prefix_nil.mp h
      | cons c s =>
          rw [List.flatMap_cons] at h
          rcases himage c with hc | hc
          · rw [hc, List.singleton_append, List.cons_prefix_cons] at h
            obtain ⟨hx, hrest⟩ := h
            have hplain' : Plain foreign keyword := by
              refine ⟨hascii.2, fun suf hsuf => hforeign suf ?_⟩
              rw [List.mem_tails] at hsuf ⊢
              exact hsuf.trans (List.suffix_cons x keyword)
            obtain ⟨hlen, htake⟩ := ih hplain' hrest
            have hcascii : c.toNat < 128 := by
              refine hsimple c ?_
              rw [← hx]
              exact hascii.1
            refine ⟨Nat.succ_le_succ hlen, ?_⟩
            rw [List.length_cons, List.take_succ_cons, List.forall_mem_cons]
            exact ⟨hcascii, htake⟩
          · -- one of the foreign images would overlap the keyword
            have hself : x :: keyword ∈ (x :: keyword).tails := by
              rw [List.mem_tails]
            obtain ⟨hno, hno'⟩ := hforeign _ hself (List.cons_ne_nil _ _) _ hc
            rcases List.prefix_or_prefix_of_prefix h (List.prefix_append (image c) _) with hover | hover
            · exact absurd hover hno'
            · exact absurd hover hno

end Keyword

/-- A cut behind ASCII characters. -/
theorem sliceFrom_of_ascii {n : Nat} {s : Str} (hlen : n ≤ s.length) (h : ∀ c ∈ s.take n, c.toNat < 128) :
    sliceFrom n s = some (s.drop n) := by
  induction s generalizing n with
  | nil =>
      obtain rfl : n = 0 := by simpa using hlen
      rfl
  | cons c s ih =>
      cases n with
      | zero => rfl
      | succ n =>
          rw [List.take_succ_cons, List.forall_mem_cons] at h
          have hsize : c.utf8Size = 1 := by
            rw [Char.utf8Size_eq_one_iff, UInt32.le_iff_toNat_le]
            have hc : c.val.toNat < 128 := h.1
            have hbound : (127 : UInt32).toNat = 127 := rfl
            omega
          have hn : n ≤ s.length := by simpa using hlen
          rw [sliceFrom, if_neg (Nat.succ_ne_zero n), hsize, if_pos (by omega), Nat.add_sub_cancel,
            ih hn h.2, List.drop_succ_cons]

/-- The cut behind a keyword of the upper-cased copy. -/
theorem sliceFrom_of_toUppercase {keyword s : Str} (hplain : Plain foreignUppercase keyword)
    (h : keyword <+: toUppercase s) : sliceFrom keyword.length s = some (s.drop keyword.length) := by
  obtain ⟨hlen, hascii⟩ := ascii_of_prefix charUppercase_cases (fun _ => ascii_of_toUpper) hplain h
  exact sliceFrom_of_ascii hlen hascii

/-- The cut behind a keyword of the lower-cased copy. -/
theorem sliceFrom_of_toLowercase {keyword s : Str} (hplain : Plain foreignLowercase keyword)
    (h : keyword <+: toLowercase s) : sliceFrom keyword.length s = some (s.drop keyword.length) := by
  obtain ⟨hlen, hascii⟩ := ascii_of_prefix charLowercase_cases (fun _ => ascii_of_toLower) hplain h
  exact sliceFrom_of_ascii hlen hascii

end Text
end Aimx
