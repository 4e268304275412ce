import Aimx.Ingest.Slug

/-!
# What a slug looks like

The slug of a subject, for any Unicode tables: the subject is normalized, then lower-cased, and runs of
characters that are not alphanumeric become one dash.

* `CaseTable.toLowercase` — the lower-casing of a text, character by character and with the final sigma;
* `WellFormedSlug` — the shape of a slug;
* `slugify_wellFormed` — every slug has it, canonically equivalent subjects have one slug, and a slug that is
  normalized is its own slug.
-/

namespace Aimx
namespace Ingest

open Text

/-! ## Lower-casing -/

/-- The Unicode tables of letter case: `char::to_lowercase`, which may give several characters, and the
properties Cased and Case_Ignorable. -/
structure CaseTable where
  lower : Char → Str
  isCased : Char → Bool
  isCaseIgnorable : Char → Bool

namespace CaseTable

variable (t : CaseTable)

/-- `case_ignorable_then_cased`. -/
def caseIgnorableThenCased (s : Str) : Bool :=
  match s.dropWhile t.isCaseIgnorable with
  | [] => false
  | c :: _ => t.isCased c

/-- The loop of `str::to_lowercase`, with the characters that it has passed, the last one first: a capital
sigma becomes the final one at the end of a word. -/
def lowercaseFrom : Str → Str → Str
  | _, [] => []
  | passed, c :: s =>
      (if c = 'Σ' then
        if t.caseIgnorableThenCased passed && !t.caseIgnorableThenCased s then ['ς'] else ['σ']
      else t.lower c) ++ lowercaseFrom (c :: passed) s

/-- `str::to_lowercase`. -/
def toLowercase (s : Str) : Str := t.lowercaseFrom [] s

/-- The tables of the slugs. -/
def unicode (nfc : Str → Str) (isAlphanumericHigh : Char → Bool) : Unicode where
  nfc := nfc
  toLowercase := t.toLowercase
  isAlphanumericHigh := isAlphanumericHigh

/-- A character that lower-casing leaves as it is. -/
def IsLowered (c : Char) : Prop := c ≠ 'Σ' ∧ t.lower c = [c]

/-- What is known of the table: lower-casing is done after one step, and ASCII letters have ASCII images. -/
structure Stable : Prop where
  image : ∀ c, c ≠ 'Σ' → ∀ d ∈ t.lower c, t.IsLowered d
  sigma : t.IsLowered 'σ'
  finalSigma : t.IsLowered 'ς'
  ascii : ∀ c, c.toNat < 0x80 → t.lower c = [c.toLower]

end CaseTable

/-- What is known of normalization: canonically equivalent texts, which have one canonical decomposition, have
one normal form. -/
structure Composes (nfc nfd : Str → Str) : Prop where
  nfc_nfd : ∀ s, nfc (nfd s) = nfc s

section Lowercase

variable {t : CaseTable} {s passed : Str} {c : Char}

theorem isLowered_of_mem (ht : t.Stable) (h : c ∈ t.lowercaseFrom passed s) : t.IsLowered c := by
  induction s generalizing passed with
  | nil => cases h
  | cons d s ih =>
      rw [CaseTable.lowercaseFrom, List.mem_append] at h
      rcases h with h | h
      · split at h
        next =>
            split at h
            next => exact List.mem_singleton.mp h ▸ ht.finalSigma
            next => exact List.mem_singleton.mp h ▸ ht.sigma
        next hd => exact ht.image d hd c h
      · exact ih h

/-- Text that is lower-cased already is not changed. -/
theorem lowercaseFrom_of_isLowered (h : ∀ c ∈ s, t.IsLowered c) (passed : Str) :
    t.lowercaseFrom passed s = s := by
  induction s generalizing passed with
  | nil => rfl
  | cons c s ih =>
      have hc := h c List.mem_cons_self
      rw [CaseTable.lowercaseFrom, if_neg hc.1, hc.2, ih fun d hd => h d (List.mem_cons_of_mem _ hd)]
      rfl

end Lowercase

/-! ## The shape -/

/-- **The shape of a slug**: at most 20 characters, alphanumeric ones that lower-casing does not change, and
single dashes between them. -/
structure WellFormedSlug (t : CaseTable) (u : Unicode) (slug : Str) : Prop where
  ne_nil : slug ≠ []
  length : slug.length ≤ 20
  chars : ∀ c ∈ slug, u.isAlphanumeric c = true ∨ c = '-'
  single : ¬ ['-', '-'] <:+: slug
  front : slug.head? ≠ some '-'
  back : slug.getLast? ≠ some '-'
  lowered : ∀ c ∈ slug, t.IsLowered c

section Walk

variable {u : Unicode} {s : Str} {c : Char} {last : Bool}

theorem isAlphanumeric_dash (u : Unicode) : u.isAlphanumeric '-' = false := by
  unfold Unicode.isAlphanumeric
  rw [Bool.or_eq_false_iff]
  exact ⟨by decide, rfl⟩

theorem mem_dashed (h : c ∈ dashed u last s) : (u.isAlphanumeric c = true ∧ c ∈ s) ∨ c = '-' := by
  induction s generalizing last with
  | nil => cases h
  | cons d s ih =>
      rw [dashed] at h
      split at h
      next hd =>
          rcases List.mem_cons.mp h with rfl | h
          · exact .inl ⟨hd, List.mem_cons_self⟩
          · exact (ih h).imp_left fun hc => ⟨hc.1, List.mem_cons_of_mem _ hc.2⟩
      next =>
          split at h
          next =>
              rcases List.mem_cons.mp h with rfl | h
              · exact .inr rfl
              · exact (ih h).imp_left fun hc => ⟨hc.1, List.mem_cons_of_mem _ hc.2⟩
          next => exact (ih h).imp_left fun hc => ⟨hc.1, List.mem_cons_of_mem _ hc.2⟩

/-- Behind a dash the walk does not begin with another one. -/
theorem head_dashed (u : Unicode) (s : Str) : (dashed u true s).head? ≠ some '-' := by
  induction s with
  | nil => exact fun h => by cases h
  | cons c s ih =>
      rw [dashed]
      split
      next hc =>
          intro h
          rw [List.head?_cons, Option.some_inj] at h
          rw [h, isAlphanumeric_dash] at hc
          cases hc
      next => exact ih

/-- The walk makes single dashes. -/
theorem single_dashed (u : Unicode) (last : Bool) (s : Str) : ¬ ['-', '-'] <:+: dashed u last s := by
  induction s generalizing last with
  | nil => exact fun h => by cases List.eq_nil_of_infix_nil h
  | cons c s ih =>
      rw [dashed]
      split
      next hc =>
          rw [List.infix_cons_iff, not_or]
          refine ⟨fun h => ?_, ih false⟩
          rw [(List.cons_prefix_cons.mp h).1.symm, isAlphanumeric_dash] at hc
          cases hc
      next =>
          split
          next =>
              rw [List.infix_cons_iff, not_or]
              refine ⟨fun h => ?_, ih true⟩
              obtain ⟨rest, hrest⟩ := (List.cons_prefix_cons.mp h).2
              exact head_dashed u s (by rw [← hrest]; rfl)
          next => exact ih last

/-- Alphanumeric characters and single dashes are walked through. -/
theorem dashed_of_single (hchars : ∀ c ∈ s, u.isAlphanumeric c = true ∨ c = '-')
    (hsingle : ¬ ['-', '-'] <:+: s) (hlast : last = true → s.head? ≠ some '-') : dashed u last s = s := by
  induction s generalizing last with
  | nil => rfl
  | cons c s ih =>
      have hrest : ∀ c ∈ s, u.isAlphanumeric c = true ∨ c = '-' := fun d hd =>
        hchars d (List.mem_cons_of_mem _ hd)
      rw [List.infix_cons_iff, not_or] at hsingle
      rw [dashed]
      split
      next => rw [ih hrest hsingle.2 fun hfalse => by cases hfalse]
      next hc =>
          have hdash : c = '-' := (hchars c List.mem_cons_self).resolve_left hc
          have hfirst : last = false := by
            by_contra htrue
            exact hlast (Bool.not_eq_false _ ▸ htrue) (by rw [hdash]; rfl)
          rw [hfirst, if_pos (by decide), hdash, ih hrest hsingle.2]
          intro _ hhead
          refine hsingle.1 ?_
          rw [hdash]
          obtain ⟨rest, hs⟩ := List.head?_eq_some_iff.mp hhead
          exact ⟨rest, by rw [hs]; rfl⟩

theorem getLast_trimEndDashes (s : Str) : (trimEndDashes s).getLast? ≠ some '-' := by
  intro h
  have hne : trimEndDashes s ≠ [] := by
    intro hnil
    rw [hnil] at h
    cases h
  have hnot := List.rdropWhile_last_not (· = '-') s hne
  rw [List.getLast?_eq_some_getLast hne, Option.some_inj] at h
  exact hnot (decide_eq_true h)

theorem trimEndDashes_eq_self (h : s.getLast? ≠ some '-') : trimEndDashes s = s := by
  refine List.rdropWhile_eq_self_iff.mpr fun hne hdash => h ?_
  rw [List.getLast?_eq_some_getLast hne, of_decide_eq_true hdash]

end Walk

/-! ## The slug -/

section Slug

variable {t : CaseTable} {nfc : Str → Str} {isAlphanumericHigh : Char → Bool}

theorem wellFormedSlug_fallback (ht : t.Stable) :
    WellFormedSlug t (t.unicode nfc isAlphanumericHigh) slugEmptyFallback := by
  have hchars : slugEmptyFallback.all (fun c => c.isAlphanum || c == '-') = true := by decide
  have hascii : slugEmptyFallback.all (fun c => decide (c.toNat < 0x80)) = true := by decide
  have hlower : slugEmptyFallback.all (fun c => c.toLower == c) = true := by decide
  constructor
  case ne_nil => exact List.cons_ne_nil _ _
  case length => decide
  case chars =>
      intro c hc
      have hchar := List.all_eq_true.mp hchars c hc
      rw [Bool.or_eq_true, beq_iff_eq] at hchar
      refine hchar.imp_left fun halnum => ?_
      rw [Unicode.isAlphanumeric, halnum, Bool.true_or]
  case single =>
      intro h
      have hcount := h.sublist.count_le '-'
      have hone : slugEmptyFallback.count '-' = 1 := by decide
      rw [hone] at hcount
      exact absurd hcount (by decide)
  case front => decide
  case back => decide
  case lowered =>
      intro c hc
      have hcode : c.toNat < 0x80 := of_decide_eq_true (List.all_eq_true.mp hascii c hc)
      have hsame : c.toLower = c := beq_iff_eq.mp (List.all_eq_true.mp hlower c hc)
      refine ⟨?_, by rw [ht.ascii c hcode, hsame]⟩
      rintro rfl
      exact absurd hcode (by decide)

/-- What the walk leaves, trimmed and cut, has the shape if anything is left. -/
theorem wellFormedSlug_truncated (ht : t.Stable) {lowered : Str} (hlowered : ∀ c ∈ lowered, t.IsLowered c)
    {slug : Str} (hslug : slug = trimEndDashes ((trimEndDashes
      ((dashed (t.unicode nfc isAlphanumericHigh) false lowered).dropWhile (· = '-'))).take slugMaxLen))
    (hne : slug ≠ []) : WellFormedSlug t (t.unicode nfc isAlphanumericHigh) slug := by
  have hinitial : slug <+: (dashed (t.unicode nfc isAlphanumericHigh) false lowered).dropWhile (· = '-') := by
    rw [hslug]
    exact (List.rdropWhile_prefix _ _).trans ((List.take_prefix _ _).trans (List.rdropWhile_prefix _ _))
  have hpart : slug <:+: dashed (t.unicode nfc isAlphanumericHigh) false lowered :=
    hinitial.isInfix.trans (List.dropWhile_suffix _).isInfix
  have hmem : ∀ c ∈ slug,
      ((t.unicode nfc isAlphanumericHigh).isAlphanumeric c = true ∧ c ∈ lowered) ∨ c = '-' :=
    fun c hc => mem_dashed (hpart.subset hc)
  constructor
  case ne_nil => exact hne
  case length =>
      have htrim : slug.length ≤ ((trimEndDashes ((dashed (t.unicode nfc isAlphanumericHigh) false
          lowered).dropWhile (· = '-'))).take slugMaxLen).length := by
        rw [hslug]
        exact (List.rdropWhile_prefix _ _).length_le
      exact htrim.trans (List.length_take_le _ _)
  case chars => exact fun c hc => (hmem c hc).imp_left And.left
  case single => exact fun h => single_dashed _ _ _ (h.trans hpart)
  case front =>
      intro h
      obtain ⟨rest, hrest⟩ := hinitial
      have hhead := List.head?_dropWhile_not (· = '-')
        (dashed (t.unicode nfc isAlphanumericHigh) false lowered)
      rw [← hrest, List.head?_append, h] at hhead
      simp at hhead
  case back =>
      rw [hslug]
      exact getLast_trimEndDashes _
  case lowered =>
      intro c hc
      rcases hmem c hc with ⟨-, hc⟩ | rfl
      · exact hlowered c hc
      · exact ⟨by decide, ht.ascii '-' (by decide)⟩

theorem wellFormedSlug_slugify (ht : t.Stable) (subject : Str) :
    WellFormedSlug t (t.unicode nfc isAlphanumericHigh)
      (slugify (t.unicode nfc isAlphanumericHigh) subject) := by
  have hlowered : ∀ c ∈ (t.unicode nfc isAlphanumericHigh).toLowercase (nfc subject), t.IsLowered c :=
    fun c hc => isLowered_of_mem ht hc
  unfold slugify
  dsimp only
  split
  next => exact wellFormedSlug_fallback ht
  next hne => exact wellFormedSlug_truncated ht hlowered rfl (by simpa using hne)

/-- A slug that is normalized is its own slug. -/
theorem WellFormedSlug.slugify_eq {slug : Str}
    (h : WellFormedSlug t (t.unicode nfc isAlphanumericHigh) slug) (hnfc : nfc slug = slug) :
    slugify (t.unicode nfc isAlphanumericHigh) slug = slug := by
  have hlower : (t.unicode nfc isAlphanumericHigh).toLowercase ((t.unicode nfc isAlphanumericHigh).nfc slug) =
      slug := by
    show t.toLowercase (nfc slug) = slug
    rw [hnfc]
    exact lowercaseFrom_of_isLowered h.lowered []
  have hfront : slug.dropWhile (· = '-') = slug := by
    obtain ⟨c, rest, rfl⟩ := List.exists_cons_of_ne_nil h.ne_nil
    refine List.dropWhile_cons_of_neg fun hc => h.front ?_
    rw [List.head?_cons, of_decide_eq_true hc]
  unfold slugify
  rw [hlower, dashed_of_single h.chars h.single fun hfalse => by cases hfalse]
  dsimp only
  have hlength : slug.length ≤ slugMaxLen := h.length
  rw [hfront, trimEndDashes_eq_self h.back, List.take_of_length_le hlength, trimEndDashes_eq_self h.back,
    if_neg]
  rw [List.isEmpty_iff]
  exact h.ne_nil

/-- **Slugs are well-formed.**  Canonically equivalent subjects have one slug, and a slug that normalization
leaves alone is its own slug. -/
theorem slugify_wellFormed {nfd : Str → Str} (ht : t.Stable) (hnfc : Composes nfc nfd) (subject : Str) :
    WellFormedSlug t (t.unicode nfc isAlphanumericHigh)
        (slugify (t.unicode nfc isAlphanumericHigh) subject) ∧
      (∀ equivalent, nfd equivalent = nfd subject → slugify (t.unicode nfc isAlphanumericHigh) equivalent =
        slugify (t.unicode nfc isAlphanumericHigh) subject) ∧
      (nfc (slugify (t.unicode nfc isAlphanumericHigh) subject) =
          slugify (t.unicode nfc isAlphanumericHigh) subject →
        slugify (t.unicode nfc isAlphanumericHigh) (slugify (t.unicode nfc isAlphanumericHigh) subject) =
          slugify (t.unicode nfc isAlphanumericHigh) subject) := by
  refine ⟨wellFormedSlug_slugify ht subject, fun equivalent hequivalent => ?_, fun hnormal => ?_⟩
  · have hsame : (t.unicode nfc isAlphanumericHigh).nfc equivalent =
        (t.unicode nfc isAlphanumericHigh).nfc subject := by
      show nfc equivalent = nfc subject
      rw [← hnfc.nfc_nfd equivalent, hequivalent, hnfc.nfc_nfd]
    unfold slugify
    rw [hsame]
  · exact (wellFormedSlug_slugify ht subject).slugify_eq hnormal

/-- The case tables of ASCII text. -/
def asciiCase : CaseTable where
  lower := fun c => [c.toLower]
  isCased := Char.isAlpha
  isCaseIgnorable := fun _ => false

/-- Lower-casing an ASCII letter gives a small letter, and leaves other characters. -/
theorem toLower_cases (c : Char) : c.toLower = c ∨ (97 ≤ c.toLower.toNat ∧ c.toLower.toNat ≤ 122) := by
  unfold Char.toLower
  split
  next hupper =>
      right
      have hlow : 65 ≤ c.val.toNat := UInt32.le_iff_toNat_le.mp hupper.1
      have hhigh : c.val.toNat ≤ 90 := UInt32.le_iff_toNat_le.mp hupper.2
      show 97 ≤ (c.val + ('a'.val - 'A'.val)).toNat ∧ (c.val + ('a'.val - 'A'.val)).toNat ≤ 122
      rw [UInt32.toNat_add]
      have hshift : ('a'.val - 'A'.val).toNat = 32 := by decide
      omega
  next => exact .inl rfl

theorem toLower_of_small {c : Char} (h : 97 ≤ c.toNat) : c.toLower = c := by
  unfold Char.toLower
  split
  next hupper =>
      have hhigh : c.toNat ≤ 90 := UInt32.le_iff_toNat_le.mp hupper.2
      omega
  next => rfl

theorem stable_asciiCase : asciiCase.Stable where
  image := by
    intro c hc d hd
    rw [List.mem_singleton.mp hd]
    rcases toLower_cases c with hsame | ⟨hlow, hhigh⟩
    · rw [hsame]
      exact ⟨hc, congrArg ([·]) hsame⟩
    · refine ⟨?_, congrArg ([·]) (toLower_of_small hlow)⟩
      intro hsigma
      rw [hsigma] at hhigh
      exact absurd hhigh (by decide)
  sigma := ⟨by decide, by decide⟩
  finalSigma := ⟨by decide, by decide⟩
  ascii := fun _ _ => rfl

/-- At a subject of ASCII characters. -/
theorem slugify_wellFormed_hello : WellFormedSlug asciiCase (asciiCase.unicode id fun _ => false)
    (slugify (asciiCase.unicode id fun _ => false) "Hello, World".toList) := by
  have hnfc : Composes id id := ⟨fun _ => rfl⟩
  exact (slugify_wellFormed stable_asciiCase hnfc "Hello, World".toList).1

/-- The Greek capital alpha with its accent and the small one, the iota below a letter, the letter with both
of its marks, and the mathematical bold A. -/
def capitalAlpha : Char := Char.ofNat 0x386
def smallAlpha : Char := Char.ofNat 0x3AC
def iotaBelow : Char := Char.ofNat 0x345
def markedAlpha : Char := Char.ofNat 0x1FB4
def boldA : Char := Char.ofNat 0x1D400

/-- The capitals among them and in ASCII. -/
def greekUppercase (c : Char) : Bool := c.isUpper || c == capitalAlpha || c == boldA

/-- The case tables on these characters and on ASCII: the bold capital has no small letter. -/
def greekCase : CaseTable where
  lower := fun c => if c = capitalAlpha then [smallAlpha] else [c.toLower]
  isCased := fun _ => true
  isCaseIgnorable := fun c => c = iotaBelow

/-- The normal forms of these characters: the small letter takes in the iota below it, the capital does
not. -/
def greekNfc (s : Str) : Str := if s = [smallAlpha, iotaBelow] then [markedAlpha] else s

def greekUnicode : Unicode := greekCase.unicode greekNfc fun _ => true

/-- A capital letter with two marks, whose slug has another slug, and a capital without a small letter. -/
theorem slugify_unstable :
    (∀ s, greekNfc (greekNfc s) = greekNfc s) ∧
    slugify greekUnicode [capitalAlpha, iotaBelow] = [smallAlpha, iotaBelow] ∧
    slugify greekUnicode (slugify greekUnicode [capitalAlpha, iotaBelow]) = [markedAlpha] ∧
    slugify greekUnicode [boldA] = [boldA] ∧ greekUppercase boldA = true := by
  refine ⟨fun s => ?_, by decide, by decide, by decide, by decide⟩
  by_cases hs : s = [smallAlpha, iotaBelow]
  · rw [hs]
    decide
  · have hsame : greekNfc s = s := if_neg hs
    rw [hsame, hsame]

end Slug

end Ingest
end Aimx
