import Aimx.Ingest.Attachments

/-!
# Sanitized file names

The name of an attachment is normalized, its unsafe characters are replaced and collapsed, its ends are
trimmed, and it is cut to 200 bytes.

* `NormalForm` — what is known of the normalization;
* `SafeFileName` — what is asked of a sanitized name;
* `mem_sanitize_iff` — the characters that are neither replaced nor trimmed, and stay;
* `safeFileName_iff` — the names that are sanitized to a safe one.
-/

namespace Aimx
namespace Ingest

open Text

/-! ## Normalization -/

/-- A normalization form: it is idempotent, leaves ASCII text alone, and parts of a normalized text are
normalized.  The low line is never composed with what stands beside it. -/
structure NormalForm (nfc : Str → Str) : Prop where
  idempotent : ∀ s, nfc (nfc s) = nfc s
  ascii : ∀ s, (∀ c ∈ s, c.toNat < 0x80) → nfc s = s
  part : ∀ s t, nfc s = s → t <:+: s → nfc t = t
  underscore : ∀ s t, nfc s = s → nfc t = t → nfc (s ++ '_' :: t) = s ++ '_' :: t

/-! ## What is asked of a name -/

/-- The characters that control the direction of text. -/
def IsBidirectional (c : Char) : Prop :=
  c.toNat = 0x061C ∨ c.toNat = 0x200E ∨ c.toNat = 0x200F ∨ (0x202A ≤ c.toNat ∧ c.toNat ≤ 0x202E) ∨
    (0x2066 ≤ c.toNat ∧ c.toNat ≤ 0x2069)

/-- The zero-width space, the two joiners, the word joiner, and the zero-width no-break space. -/
def IsZeroWidth (c : Char) : Prop :=
  (0x200B ≤ c.toNat ∧ c.toNat ≤ 0x200D) ∨ c.toNat = 0x2060 ∨ c.toNat = 0xFEFF

instance (c : Char) : Decidable (IsBidirectional c) :=
  inferInstanceAs (Decidable (_ ∨ _ ∨ _ ∨ _ ∨ _))

instance (c : Char) : Decidable (IsZeroWidth c) := inferInstanceAs (Decidable (_ ∨ _ ∨ _))

/-- **A safe file name.** -/
structure SafeFileName (u : Unicode) (name : Str) : Prop where
  isFileName : IsFileName name
  length : byteLen name ≤ 200
  backslash : '\\' ∉ name
  control : ∀ c ∈ name, isControl c = false
  visible : ∀ c ∈ name, ¬ IsBidirectional c ∧ ¬ IsZeroWidth c
  front : ∀ c ∈ name.head?, isWhitespace c = false ∧ c ≠ '.' ∧ c ≠ '-' ∧ c ≠ '_'
  back : ∀ c ∈ name.getLast?, isWhitespace c = false ∧ c ≠ '.' ∧ c ≠ '-' ∧ c ≠ '_'
  fixed : ∀ index, sanitizeAttachmentFilename u name index = name

/-- The Arabic letter mark and the word joiner, which `is_filename_unsafe` does not list. -/
def IsUnlisted (c : Char) : Prop := c.toNat = 0x061C ∨ c.toNat = 0x2060

instance (c : Char) : Decidable (IsUnlisted c) := inferInstanceAs (Decidable (_ ∨ _))

/-- Every unlisted character of a name stands behind its first 200 bytes, counted after the characters in
front of it have been replaced, collapsed and trimmed. -/
def UnlistedCut (normalized : Str) : Prop :=
  ∀ front c back, normalized = front ++ c :: back → IsUnlisted c →
    200 < byteLen ((underscored false front).dropWhile isTrimmed ++ [c])

/-! ## The walk -/

section Walk

variable {s front back : Str} {c : Char} {last : Bool}

/-- A character that is not replaced cuts the walk in two. -/
theorem underscored_append_cons (hc : isFilenameUnsafe c = false) (last : Bool) (front back : Str) :
    underscored last (front ++ c :: back) = underscored last front ++ c :: underscored false back := by
  induction front generalizing last with
  | nil =>
      have hstep : underscored last (c :: back) = c :: underscored false back := by
        rw [underscored, hc, if_neg Bool.false_ne_true]
      exact hstep
  | cons d front ih =>
      rw [List.cons_append, underscored, underscored, ih, ih]
      split
      next =>
          split
          next => rfl
          next => rfl
      next => rfl

/-- The result of the walk has no unsafe characters. -/
theorem safe_of_mem_underscored (h : c ∈ underscored last s) : isFilenameUnsafe c = false := by
  induction s generalizing last with
  | nil => cases h
  | cons d s ih =>
      rw [underscored] at h
      split at h
      next =>
          split at h
          next => exact ih h
          next =>
              rcases List.mem_cons.mp h with rfl | h
              · decide
              · exact ih h
      next hd =>
          rcases List.mem_cons.mp h with rfl | h
          · exact Bool.eq_false_iff.mpr hd
          · exact ih h

/-- A character of the result, other than the low line, comes from the text. -/
theorem exists_of_mem_underscored (hc : c ≠ '_') {front' back' : Str}
    (h : underscored last s = front' ++ c :: back') :
    ∃ front back, s = front ++ c :: back ∧ underscored last front = front' ∧
      underscored false back = back' := by
  induction s generalizing last front' with
  | nil =>
      rw [underscored] at h
      exact absurd h.symm (by simp)
  | cons d s ih =>
      rw [underscored] at h
      split at h
      next hd =>
          split at h
          next hlast =>
              obtain ⟨front, back, rfl, hfront, hback⟩ := ih h
              exact ⟨d :: front, back, rfl, by rw [underscored, if_pos hd, if_pos hlast, hfront], hback⟩
          next hlast =>
              cases front' with
              | nil => exact absurd (List.cons.inj h).1.symm hc
              | cons e front' =>
                  obtain ⟨rfl, hrest⟩ := List.cons.inj h
                  obtain ⟨front, back, rfl, hfront, hback⟩ := ih hrest
                  exact ⟨d :: front, back, rfl, by rw [underscored, if_pos hd, if_neg hlast, hfront], hback⟩
      next hd =>
          cases front' with
          | nil =>
              obtain ⟨rfl, hrest⟩ := List.cons.inj h
              exact ⟨[], s, rfl, by rw [underscored], hrest⟩
          | cons e front' =>
              obtain ⟨rfl, hrest⟩ := List.cons.inj h
              obtain ⟨front, back, rfl, hfront, hback⟩ := ih hrest
              exact ⟨d :: front, back, rfl, by rw [underscored, if_neg hd, hfront], hback⟩

/-- Text without unsafe characters is walked through. -/
theorem underscored_of_safe (h : ∀ c ∈ s, isFilenameUnsafe c = false) (last : Bool) :
    underscored last s = s := by
  induction s generalizing last with
  | nil => rw [underscored]
  | cons c s ih =>
      rw [underscored, h c List.mem_cons_self, if_neg Bool.false_ne_true,
        ih fun d hd => h d (List.mem_cons_of_mem _ hd)]

/-- The walk keeps a text normalized: it joins parts of it by low lines. -/
theorem NormalForm.underscored {nfc : Str → Str} (hnfc : NormalForm nfc) {s : Str} (hs : nfc s = s)
    (last : Bool) : nfc (underscored last s) = underscored last s := by
  have hnil : nfc [] = [] := hnfc.part s [] hs List.nil_infix
  -- `seen` are the characters that were kept since the last low line
  have hwalk : ∀ (s seen : Str) (last : Bool), (last = true → seen = []) → nfc (seen ++ s) = seen ++ s →
      nfc (seen ++ Ingest.underscored last s) = seen ++ Ingest.underscored last s := by
    intro s
    induction s with
    | nil => exact fun seen _ _ h => h
    | cons c s ih =>
        intro seen last hlast h
        have hseen : nfc seen = seen := hnfc.part _ _ h (List.prefix_append seen (c :: s)).isInfix
        have hrest : nfc s = s :=
          hnfc.part _ _ h ((List.suffix_cons c s).trans (List.suffix_append seen (c :: s))).isInfix
        rw [Ingest.underscored]
        split
        next =>
            have htail := ih [] true (fun _ => rfl) hrest
            split
            next hline =>
                rw [hlast hline]
                exact htail
            next => exact hnfc.underscore seen _ hseen htail
        next =>
            have hnext := ih (seen ++ [c]) false (fun hfalse => by cases hfalse) (by rwa [List.append_assoc])
            rwa [List.append_assoc] at hnext
  exact hwalk s [] last (fun _ => rfl) hs

end Walk

/-! ## The ends and the cut -/

section Ends

variable {s t front back : Str} {c : Char} {n : Nat} {p : Char → Bool}

/-- Trimming stops at a character that is kept. -/
theorem dropWhile_append_cons (hc : p c = false) (front back : Str) :
    (front ++ c :: back).dropWhile p = front.dropWhile p ++ c :: back := by
  rw [List.dropWhile_append]
  split
  next h =>
      rw [List.isEmpty_iff.mp h, List.dropWhile_cons_of_neg (by rw [hc]; exact Bool.false_ne_true),
        List.nil_append]
  next => rfl

theorem rdropWhile_append_cons (hc : p c = false) (front back : Str) :
    (front ++ c :: back).rdropWhile p = front ++ c :: back.rdropWhile p := by
  unfold List.rdropWhile
  rw [List.reverse_append, List.reverse_cons, List.append_assoc, List.singleton_append,
    dropWhile_append_cons hc, List.reverse_append, List.reverse_cons, List.reverse_reverse, List.append_assoc,
    List.singleton_append]

theorem byteLen_capBytes_le (n : Nat) (s : Str) : byteLen (capBytes n s) ≤ n := by
  induction s generalizing n with
  | nil => exact Nat.zero_le n
  | cons c s ih =>
      rw [capBytes]
      split
      next hle =>
          have hrest := ih (n - c.utf8Size)
          rw [byteLen_cons]
          omega
      next => exact Nat.zero_le n

/-- The cut keeps every beginning that fits. -/
theorem prefix_capBytes (h : t <+: s) (hle : byteLen t ≤ n) : t <+: capBytes n s := by
  induction s generalizing n t with
  | nil =>
      rw [List.prefix_nil.mp h]
      exact List.nil_prefix
  | cons c s ih =>
      cases t with
      | nil => exact List.nil_prefix
      | cons d t =>
          obtain ⟨rfl, hrest⟩ := List.cons_prefix_cons.mp h
          rw [byteLen_cons] at hle
          rw [capBytes, if_pos (by omega)]
          exact List.cons_prefix_cons.mpr ⟨rfl, ih hrest (by omega)⟩

/-- The cut of a trimmed name, and its end trimmed again. -/
def capped (trimmed : Str) : Str :=
  if byteLen trimmed > attachmentFilenameMaxBytes then
    (capBytes attachmentFilenameMaxBytes trimmed).rdropWhile isTrimmed
  else trimmed

theorem capped_isInitial (s : Str) : capped s <+: s := by
  unfold capped
  split
  next => exact (List.rdropWhile_prefix isTrimmed _).trans (capBytes_isInitial _ s)
  next => exact List.prefix_rfl

theorem byteLen_le_of_isInitial (h : t <+: s) : byteLen t ≤ byteLen s := by
  obtain ⟨rest, rfl⟩ := h
  rw [byteLen_append]
  omega

theorem byteLen_capped_le (s : Str) : byteLen (capped s) ≤ 200 := by
  unfold capped
  split
  next =>
      have hcap := byteLen_capBytes_le attachmentFilenameMaxBytes s
      exact (byteLen_le_of_isInitial (List.rdropWhile_prefix isTrimmed _)).trans hcap
  next hle => exact Nat.not_lt.mp hle

/-- The characters that the cut keeps, among those that are not trimmed. -/
theorem mem_capped_iff (hc : isTrimmed c = false) :
    c ∈ capped s ↔ ∃ front back, s = front ++ c :: back ∧ byteLen (front ++ [c]) ≤ 200 := by
  constructor
  · intro h
    obtain ⟨front, back, hsplit⟩ := List.append_of_mem h
    obtain ⟨rest, hrest⟩ := capped_isInitial s
    refine ⟨front, back ++ rest, ?_, ?_⟩
    · rw [← hrest, hsplit, List.append_assoc, List.cons_append]
    · have hle := byteLen_capped_le s
      rw [hsplit, ← List.singleton_append, ← List.append_assoc, byteLen_append] at hle
      omega
  · rintro ⟨front, back, rfl, hle⟩
    have hfits : front ++ [c] <+: front ++ c :: back :=
      ⟨back, by rw [List.append_assoc, List.singleton_append]⟩
    unfold capped
    split
    next =>
        obtain ⟨rest, hrest⟩ := prefix_capBytes hfits hle
        rw [List.append_assoc, List.singleton_append] at hrest
        have hcut : capBytes attachmentFilenameMaxBytes (front ++ c :: back) = front ++ c :: rest :=
          hrest.symm
        rw [hcut, rdropWhile_append_cons hc]
        exact List.mem_append_right _ List.mem_cons_self
    next => exact List.mem_append_right _ List.mem_cons_self

end Ends

/-! ## The sanitized name -/

section Sanitize

variable {u : Unicode} {raw : Str} {index : Nat} {c : Char}

/-- The name before the cut: normalized, replaced, collapsed and trimmed. -/
def trimmedName (u : Unicode) (raw : Str) : Str :=
  ((underscored false (u.nfc ((pathFileName raw).getD []))).dropWhile isTrimmed).rdropWhile isTrimmed

theorem sanitize_eq (u : Unicode) (raw : Str) (index : Nat) : sanitizeAttachmentFilename u raw index =
    if (capped (trimmedName u raw)).isEmpty then "attachment-".toList ++ decimal index
    else capped (trimmedName u raw) := rfl

/-- The unsafe characters, by their codes. -/
theorem isFilenameUnsafe_iff : isFilenameUnsafe c = true ↔
    c.toNat = 0x2F ∨ c.toNat = 0x5C ∨ isControl c = true ∨ (0x200B ≤ c.toNat ∧ c.toNat ≤ 0x200F) ∨
      (0x202A ≤ c.toNat ∧ c.toNat ≤ 0x202E) ∨ (0x2066 ≤ c.toNat ∧ c.toNat ≤ 0x2069) ∨ c.toNat = 0xFEFF := by
  have hcode : ∀ d : Char, c = d ↔ c.toNat = d.toNat := by
    intro d
    refine ⟨fun h => h ▸ rfl, fun h => ?_⟩
    rw [← Char.ofNat_toNat c, h, Char.ofNat_toNat]
  unfold isFilenameUnsafe
  simp only [Bool.or_eq_true, Bool.and_eq_true, decide_eq_true_eq, hcode '/', hcode '\\', or_assoc]
  exact Iff.rfl

theorem isControl_iff : isControl c = true ↔ c.toNat < 0x20 ∨ (0x7F ≤ c.toNat ∧ c.toNat ≤ 0x9F) := by
  unfold isControl
  rw [Bool.or_eq_true, Bool.and_eq_true, decide_eq_true_eq, decide_eq_true_eq, decide_eq_true_eq]

theorem IsUnlisted.kept (h : IsUnlisted c) :
    isFilenameUnsafe c = false ∧ isTrimmed c = false ∧ 0x80 ≤ c.toNat := by
  have hcode : c = Char.ofNat 0x061C ∨ c = Char.ofNat 0x2060 := by
    rcases h with h | h
    · exact .inl (by rw [← h, Char.ofNat_toNat])
    · exact .inr (by rw [← h, Char.ofNat_toNat])
  rcases hcode with rfl | rfl
  · decide
  · decide

/-- The name for an attachment that has none left is ASCII text. -/
theorem ascii_of_mem_fallback (h : c ∈ "attachment-".toList ++ decimal index) :
    c.isLower = true ∨ c = '-' ∨ c.isDigit = true := by
  rcases List.mem_append.mp h with h | h
  · have hall : "attachment-".toList.all (fun c => c.isLower || c == '-') = true := by decide
    have hc := List.all_eq_true.mp hall c h
    rw [Bool.or_eq_true, beq_iff_eq] at hc
    exact hc.imp_right .inl
  · exact .inr (.inr (isDigit_of_mem_decimal h))

theorem ascii_of_isLower (h : c.isLower = true) : 97 ≤ c.toNat ∧ c.toNat ≤ 122 := by
  have hval : (decide ('a'.val ≤ c.val) && decide (c.val ≤ 'z'.val)) = true := h
  rw [Bool.and_eq_true, decide_eq_true_eq, decide_eq_true_eq] at hval
  exact ⟨UInt32.le_iff_toNat_le.mp hval.1, UInt32.le_iff_toNat_le.mp hval.2⟩

theorem ascii_of_isDigit (h : c.isDigit = true) : 48 ≤ c.toNat ∧ c.toNat ≤ 57 := by
  have hval : (decide ('0'.val ≤ c.val) && decide (c.val ≤ '9'.val)) = true := h
  rw [Bool.and_eq_true, decide_eq_true_eq, decide_eq_true_eq] at hval
  exact ⟨UInt32.le_iff_toNat_le.mp hval.1, UInt32.le_iff_toNat_le.mp hval.2⟩

theorem isTrimmed_of_isDigit (h : c.isDigit = true) : isTrimmed c = false := by
  have hcode := ascii_of_isDigit h
  unfold isTrimmed
  rw [isWhitespace_of_isDigit h, Bool.false_or, Bool.or_eq_false_iff, Bool.or_eq_false_iff,
    decide_eq_false_iff_not, decide_eq_false_iff_not, decide_eq_false_iff_not]
  refine ⟨⟨?_, ?_⟩, ?_⟩
  · rintro rfl
    exact absurd hcode.1 (by decide)
  · rintro rfl
    exact absurd hcode.1 (by decide)
  · rintro rfl
    exact absurd hcode.2 (by decide)

/-- The codes of the fallback name. -/
theorem code_of_mem_fallback (h : c ∈ "attachment-".toList ++ decimal index) :
    c.toNat = 45 ∨ (48 ≤ c.toNat ∧ c.toNat ≤ 57) ∨ (97 ≤ c.toNat ∧ c.toNat ≤ 122) := by
  rcases ascii_of_mem_fallback h with hlower | rfl | hdigit
  · exact .inr (.inr (ascii_of_isLower hlower))
  · exact .inl rfl
  · exact .inr (.inl (ascii_of_isDigit hdigit))

/-- **The unlisted characters of a sanitized name** are those of the normalized name that the cut keeps. -/
theorem mem_sanitize_iff (hc : IsUnlisted c) : c ∈ sanitizeAttachmentFilename u raw index ↔
    ∃ front back, u.nfc ((pathFileName raw).getD []) = front ++ c :: back ∧
      byteLen ((underscored false front).dropWhile isTrimmed ++ [c]) ≤ 200 := by
  obtain ⟨hsafe, htrimmed, hhigh⟩ := hc.kept
  have hname : c ∈ sanitizeAttachmentFilename u raw index ↔ c ∈ capped (trimmedName u raw) := by
    rw [sanitize_eq]
    split
    next hempty =>
        rw [List.isEmpty_iff.mp hempty]
        refine ⟨fun h => ?_, fun h => absurd h List.not_mem_nil⟩
        have hcode := code_of_mem_fallback h
        omega
    next => exact Iff.rfl
  rw [hname, mem_capped_iff htrimmed]
  constructor
  · rintro ⟨front, back, hsplit, hle⟩
    obtain ⟨rest, hrest⟩ := List.rdropWhile_prefix isTrimmed
      ((underscored false (u.nfc ((pathFileName raw).getD []))).dropWhile isTrimmed)
    have hdropped : (underscored false (u.nfc ((pathFileName raw).getD []))).dropWhile isTrimmed =
        front ++ c :: (back ++ rest) := by
      rw [← hrest, ← List.cons_append, ← List.append_assoc, ← hsplit]
      rfl
    have hwalk := List.takeWhile_append_dropWhile (p := isTrimmed)
      (l := underscored false (u.nfc ((pathFileName raw).getD [])))
    rw [hdropped, ← List.append_assoc] at hwalk
    have hunderscore : c ≠ '_' := by
      rintro rfl
      exact absurd hhigh (by decide)
    obtain ⟨front', back', hnormalized, hfront, -⟩ := exists_of_mem_underscored hunderscore hwalk.symm
    refine ⟨front', back', hnormalized, ?_⟩
    -- what is trimmed in front of the character is what the walk leaves there
    have htrim : (underscored false front').dropWhile isTrimmed = front := by
      rw [← hwalk, hfront.symm, dropWhile_append_cons htrimmed] at hdropped
      exact List.append_cancel_right hdropped
    rw [htrim]
    exact hle
  · rintro ⟨front, back, hnormalized, hle⟩
    refine ⟨(underscored false front).dropWhile isTrimmed, (underscored false back).rdropWhile isTrimmed, ?_,
      hle⟩
    rw [trimmedName, hnormalized, underscored_append_cons hsafe, dropWhile_append_cons htrimmed,
      rdropWhile_append_cons htrimmed]

/-- A name on which no step has anything to do. -/
structure Clean (u : Unicode) (name : Str) : Prop where
  ne_nil : name ≠ []
  normalized : u.nfc name = name
  safe : ∀ c ∈ name, isFilenameUnsafe c = false
  front : ∀ c ∈ name.head?, isTrimmed c = false
  back : ∀ c ∈ name.getLast?, isTrimmed c = false
  length : byteLen name ≤ 200

theorem clean_capped (hnfc : NormalForm u.nfc) (hne : capped (trimmedName u raw) ≠ []) :
    Clean u (capped (trimmedName u raw)) := by
  have hinitial : capped (trimmedName u raw) <+:
      (underscored false (u.nfc ((pathFileName raw).getD []))).dropWhile isTrimmed :=
    (capped_isInitial _).trans (List.rdropWhile_prefix isTrimmed _)
  have hpart : capped (trimmedName u raw) <:+: underscored false (u.nfc ((pathFileName raw).getD [])) :=
    hinitial.isInfix.trans (List.dropWhile_suffix isTrimmed).isInfix
  constructor
  case ne_nil => exact hne
  case normalized => exact hnfc.part _ _ (hnfc.underscored (hnfc.idempotent _) false) hpart
  case safe => exact fun c hc => safe_of_mem_underscored (hpart.subset hc)
  case front =>
      intro c hc
      obtain ⟨rest, hrest⟩ := hinitial
      have hhead := List.head?_dropWhile_not isTrimmed
        (underscored false (u.nfc ((pathFileName raw).getD [])))
      rw [← hrest, List.head?_append, Option.mem_def.mp hc] at hhead
      simpa using hhead
  case back =>
      intro c hc
      have hlast : ∀ s : Str, ∀ c ∈ (s.rdropWhile isTrimmed).getLast?, isTrimmed c = false := by
        intro s c hc
        have hne : s.rdropWhile isTrimmed ≠ [] := by
          rintro heq
          rw [heq] at hc
          cases hc
        have hnot := List.rdropWhile_last_not isTrimmed s hne
        rw [List.getLast?_eq_some_getLast hne, Option.mem_some_iff] at hc
        rw [← hc]
        exact Bool.eq_false_iff.mpr hnot
      unfold capped at hc
      split at hc
      next => exact hlast _ c hc
      next => exact hlast _ c hc
  case length => exact byteLen_capped_le _

theorem clean_fallback (hnfc : NormalForm u.nfc) (hindex : index < 2 ^ 64) :
    Clean u ("attachment-".toList ++ decimal index) := by
  constructor
  case ne_nil => exact List.cons_ne_nil _ _
  case normalized =>
      refine hnfc.ascii _ fun c hc => ?_
      have hcode := code_of_mem_fallback hc
      omega
  case safe =>
      intro c hc
      have hcode := code_of_mem_fallback hc
      rw [Bool.eq_false_iff, Ne, isFilenameUnsafe_iff, isControl_iff]
      omega
  case front =>
      intro c hc
      obtain rfl := Option.some.inj hc
      decide
  case back =>
      intro c hc
      rw [List.getLast?_append_of_ne_nil _ (decimal_ne_nil index)] at hc
      exact isTrimmed_of_isDigit (isDigit_of_mem_decimal (List.mem_of_getLast? hc))
  case length =>
      have hle := byteLen_le ("attachment-".toList ++ decimal index)
      have hdigits : (decimal index).length ≤ 20 :=
        (Nat.length_toDigits_le_iff (by omega) (by omega)).mpr (hindex.trans (by decide))
      rw [List.length_append] at hle
      have hword : "attachment-".toList.length = 11 := rfl
      omega

theorem clean_sanitize (hnfc : NormalForm u.nfc) (hindex : index < 2 ^ 64) (raw : Str) :
    Clean u (sanitizeAttachmentFilename u raw index) := by
  rw [sanitize_eq]
  split
  next => exact clean_fallback hnfc hindex
  next hne => exact clean_capped hnfc (by simpa using hne)

/-- A clean name is sanitized to itself. -/
theorem Clean.fixed {name : Str} (h : Clean u name) (hfile : IsFileName name) (index : Nat) :
    sanitizeAttachmentFilename u name index = name := by
  have hpath : pathFileName name = some name := by
    unfold pathFileName
    have hkept : (name ≠ [] ∧ name ≠ ['.']) := ⟨hfile.ne_nil, hfile.ne_dot⟩
    rw [List.splitOn_eq_singleton hfile.slash, List.filter_cons_of_pos (by simpa using hkept),
      List.filter_nil, List.getLast?_singleton]
    exact if_neg hfile.ne_dotdot
  have htrimmed : trimmedName u name = name := by
    obtain ⟨c, rest, rfl⟩ := List.exists_cons_of_ne_nil h.ne_nil
    rw [trimmedName, hpath, Option.getD_some, h.normalized, underscored_of_safe h.safe,
      List.dropWhile_cons_of_neg (by rw [h.front c rfl]; exact Bool.false_ne_true)]
    refine List.rdropWhile_eq_self_iff.mpr fun hne => ?_
    rw [h.back _ (List.getLast?_eq_some_getLast hne)]
    exact Bool.false_ne_true
  have hcapped : capped name = name := if_neg (Nat.not_lt.mpr h.length)
  rw [sanitize_eq, htrimmed, hcapped, if_neg]
  rw [List.isEmpty_iff]
  exact h.ne_nil

theorem not_trimmed_iff : isTrimmed c = false ↔ isWhitespace c = false ∧ c ≠ '.' ∧ c ≠ '-' ∧ c ≠ '_' := by
  unfold isTrimmed
  rw [Bool.or_eq_false_iff, Bool.or_eq_false_iff, Bool.or_eq_false_iff, decide_eq_false_iff_not,
    decide_eq_false_iff_not, decide_eq_false_iff_not, and_assoc, and_assoc]

/-- A clean name without unlisted characters is a safe one. -/
theorem Clean.safeFileName {name : Str} (h : Clean u name) (hfile : IsFileName name)
    (hunlisted : ∀ c ∈ name, ¬ IsUnlisted c) : SafeFileName u name := by
  have hsafe : ∀ c ∈ name, ¬ isFilenameUnsafe c = true := fun c hc => Bool.eq_false_iff.mp (h.safe c hc)
  constructor
  case isFileName => exact hfile
  case length => exact h.length
  case backslash => exact fun hmem => hsafe _ hmem (by decide)
  case control =>
      intro c hc
      refine Bool.eq_false_iff.mpr fun hcontrol => hsafe c hc ?_
      exact isFilenameUnsafe_iff.mpr (.inr (.inr (.inl hcontrol)))
  case visible =>
      intro c hc
      have hlisted := hsafe c hc
      have hnot := hunlisted c hc
      rw [isFilenameUnsafe_iff, isControl_iff] at hlisted
      unfold IsUnlisted at hnot
      unfold IsBidirectional IsZeroWidth
      omega
  case front => exact fun c hc => not_trimmed_iff.mp (h.front c hc)
  case back => exact fun c hc => not_trimmed_iff.mp (h.back c hc)
  case fixed => exact h.fixed hfile

/-- **A sanitized name is safe** exactly when the unlisted characters of the raw name are cut away. -/
theorem safeFileName_iff (hnfc : NormalForm u.nfc) (hindex : index < 2 ^ 64) :
    SafeFileName u (sanitizeAttachmentFilename u raw index) ↔
      UnlistedCut (u.nfc ((pathFileName raw).getD [])) := by
  constructor
  · intro h front c back hnormalized hc
    by_contra hle
    have hmem : c ∈ sanitizeAttachmentFilename u raw index :=
      (mem_sanitize_iff hc).mpr ⟨front, back, hnormalized, Nat.not_lt.mp hle⟩
    obtain ⟨hdirection, hwidth⟩ := h.visible c hmem
    rcases hc with hc | hc
    · exact hdirection (.inl hc)
    · exact hwidth (.inr (.inl hc))
  · intro hcut
    refine (clean_sanitize hnfc hindex raw).safeFileName (isFileName_sanitize u raw index) fun c hmem hc => ?_
    obtain ⟨front, back, hnormalized, hle⟩ := (mem_sanitize_iff hc).mp hmem
    have hbehind := hcut front c back hnormalized hc
    omega

theorem normalForm_id : NormalForm id where
  idempotent := fun _ => rfl
  ascii := fun _ _ => rfl
  part := fun _ _ _ _ => rfl
  underscore := fun _ _ _ _ => rfl

/-- At a name of ASCII characters with a control character in it. -/
theorem safeFileName_ascii :
    SafeFileName asciiUnicode (sanitizeAttachmentFilename asciiUnicode ['a', '\n', 'b'] 3) := by
  refine (safeFileName_iff normalForm_id (by decide)).mpr fun front c back hsplit hc => ?_
  have hname : asciiUnicode.nfc ((pathFileName ['a', '\n', 'b']).getD []) = ['a', '\n', 'b'] := by decide
  have hmem : c ∈ ['a', '\n', 'b'] := by
    rw [← hname, hsplit]
    exact List.mem_append_right _ List.mem_cons_self
  simp only [List.mem_cons, List.not_mem_nil, or_false] at hmem
  rcases hmem with rfl | rfl | rfl
  · exact absurd hc (by decide)
  · exact absurd hc (by decide)
  · exact absurd hc (by decide)

/-- A name with the Arabic letter mark in it. -/
theorem safeFileName_letterMark :
    sanitizeAttachmentFilename asciiUnicode ['a', Char.ofNat 0x061C, 'b'] 0 =
        ['a', Char.ofNat 0x061C, 'b'] ∧
      ¬ SafeFileName asciiUnicode
        (sanitizeAttachmentFilename asciiUnicode ['a', Char.ofNat 0x061C, 'b'] 0) := by
  have hname : sanitizeAttachmentFilename asciiUnicode ['a', Char.ofNat 0x061C, 'b'] 0 =
      ['a', Char.ofNat 0x061C, 'b'] := by decide
  refine ⟨hname, fun h => ?_⟩
  rw [hname] at h
  exact (h.visible _ (List.mem_cons_of_mem _ List.mem_cons_self)).1 (.inl (by decide))

end Sanitize

end Ingest
end Aimx
