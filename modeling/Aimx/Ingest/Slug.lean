import Aimx.Text.Decimal
import Aimx.Text.Path

/-!
# Slugs and stems

The names of stored messages: the slug of a subject, the timestamp, and the stems that collisions
number.  Normalization, lower-casing and the alphanumeric characters outside ASCII are parameters.

* `slugify`, `formatTimestamp`, `numberedStem` — the source's functions;
* `IsStem` — a text that is one path component without an extension;
* `isStem_numberedStem` — every name the daemon makes up is one;
* `numberedStem_injective` — two numbers never give one stem.
-/

namespace Aimx
namespace Ingest

open Text

/-- The Unicode tables: NFC, `to_lowercase`, and `is_alphanumeric` outside ASCII. -/
structure Unicode where
  nfc : Str → Str
  toLowercase : Str → Str
  isAlphanumericHigh : Char → Bool

/-- `char::is_alphanumeric`. -/
def Unicode.isAlphanumeric (u : Unicode) (c : Char) : Bool :=
  c.isAlphanum || (0x80 ≤ c.toNat && u.isAlphanumericHigh c)

/-- `SLUG_MAX_LEN` and `SLUG_EMPTY_FALLBACK`. -/
def slugMaxLen : Nat := 20
def slugEmptyFallback : Str := "no-subject".toList

/-- The walk of `slugify`: runs of other characters become one dash. -/
def dashed (u : Unicode) : Bool → Str → Str
  | _, [] => []
  | lastWasDash, c :: s =>
      if u.isAlphanumeric c then c :: dashed u false s
      else if !lastWasDash then '-' :: dashed u true s
      else dashed u lastWasDash s

/-- `trim_end_matches('-')`. -/
def trimEndDashes (s : Str) : Str := s.rdropWhile (· = '-')

/-- `slugify`. -/
def slugify (u : Unicode) (subject : Str) : Str :=
  let out := dashed u false (u.toLowercase (u.nfc subject))
  let trimmed := trimEndDashes (out.dropWhile (· = '-'))
  let truncated := trimEndDashes (trimmed.take slugMaxLen)
  if truncated.isEmpty then slugEmptyFallback else truncated

/-- A point in time in UTC. -/
structure Timestamp where
  year : Nat
  month : Nat
  day : Nat
  hour : Nat
  minute : Nat
  second : Nat
  deriving DecidableEq

/-- A number with leading zeros. -/
def padded (width n : Nat) : Str :=
  List.replicate (width - (decimal n).length) '0' ++ decimal n

/-- `format_timestamp`: `%Y-%m-%d-%H%M%S`. -/
def formatTimestamp (ts : Timestamp) : Str :=
  padded 4 ts.year ++ '-' :: padded 2 ts.month ++ '-' :: padded 2 ts.day ++ '-' ::
    padded 2 ts.hour ++ padded 2 ts.minute ++ padded 2 ts.second

/-- The stem that `allocate_filename` begins with. -/
def baseStem (ts : Timestamp) (slug : Str) : Str := formatTimestamp ts ++ '-' :: slug

/-- The stem with the `k`-th suffix: none, then `-2`, `-3`, and so on. -/
def numberedStem (base : Str) (k : Nat) : Str :=
  if k = 0 then base else base ++ '-' :: decimal (k + 1)

/-! ## One path component -/

/-- A nonempty text without dots and slashes. -/
structure IsStem (s : Str) : Prop where
  ne_nil : s ≠ []
  dot : '.' ∉ s
  slash : '/' ∉ s

/-- A character that stems consist of. -/
def IsStemChar (c : Char) : Prop := c ≠ '.' ∧ c ≠ '/'

theorem isStem_of_forall {s : Str} (hne : s ≠ []) (h : ∀ c ∈ s, IsStemChar c) : IsStem s where
  ne_nil := hne
  dot := fun hc => (h _ hc).1 rfl
  slash := fun hc => (h _ hc).2 rfl

theorem isStemChar_of_isAlphanumeric {u : Unicode} {c : Char} (h : u.isAlphanumeric c = true) :
    IsStemChar c := by
  constructor
  · rintro rfl
    revert h
    simp [Unicode.isAlphanumeric]
  · rintro rfl
    revert h
    simp [Unicode.isAlphanumeric]

theorem isStemChar_of_mem_dashed {u : Unicode} {s : Str} {c : Char} :
    ∀ {lastWasDash : Bool}, c ∈ dashed u lastWasDash s → IsStemChar c := by
  have hdash : IsStemChar '-' := ⟨by decide, by decide⟩
  induction s with
  | nil =>
      intro lastWasDash h
      cases h
  | cons d s ih =>
      intro lastWasDash h
      unfold dashed at h
      split at h
      next halnum =>
          rcases List.mem_cons.mp h with rfl | h
          · exact isStemChar_of_isAlphanumeric halnum
          · exact ih h
      next =>
          split at h
          · rcases List.mem_cons.mp h with rfl | h
            · exact hdash
            · exact ih h
          · exact ih h

theorem mem_of_mem_trimEndDashes {s : Str} {c : Char} (h : c ∈ trimEndDashes s) : c ∈ s :=
  (List.rdropWhile_prefix _ _).subset h

/-- A slug is never empty, and a path component. -/
theorem isStem_slugify (u : Unicode) (subject : Str) : IsStem (slugify u subject) := by
  unfold slugify
  dsimp only
  split
  next => exact ⟨by decide, by decide, by decide⟩
  next hne =>
      apply isStem_of_forall (by simpa using hne)
      intro c hc
      have htrimmed := List.mem_of_mem_take (mem_of_mem_trimEndDashes hc)
      have hout := (List.dropWhile_suffix _).subset (mem_of_mem_trimEndDashes htrimmed)
      exact isStemChar_of_mem_dashed hout

theorem isStemChar_of_mem_decimal {n : Nat} {c : Char} (h : c ∈ decimal n) : IsStemChar c := by
  have hdigit := isDigit_of_mem_decimal h
  constructor
  · rintro rfl
    cases hdigit
  · rintro rfl
    cases hdigit

theorem isStemChar_of_mem_padded {width n : Nat} {c : Char} (h : c ∈ padded width n) :
    IsStemChar c := by
  rcases List.mem_append.mp h with h | h
  · rw [List.eq_of_mem_replicate h]
    exact ⟨by decide, by decide⟩
  · exact isStemChar_of_mem_decimal h

/-- Every stem that `allocate_filename` tries is a path component. -/
theorem isStem_numberedStem {ts : Timestamp} {slug : Str} (h : IsStem slug) (k : Nat) :
    IsStem (numberedStem (baseStem ts slug) k) := by
  have hdash : IsStemChar '-' := ⟨by decide, by decide⟩
  have hslug : ∀ c ∈ slug, IsStemChar c := by
    intro c hc
    exact ⟨fun heq => h.dot (heq ▸ hc), fun heq => h.slash (heq ▸ hc)⟩
  have hbase : ∀ c ∈ baseStem ts slug, IsStemChar c := by
    intro c hc
    simp only [baseStem, formatTimestamp, List.append_assoc, List.cons_append, List.mem_append,
      List.mem_cons] at hc
    rcases hc with hc | rfl | hc | rfl | hc | rfl | hc | hc | hc | rfl | hc
    all_goals first
      | exact isStemChar_of_mem_padded hc
      | exact hdash
      | exact hslug c hc
  unfold numberedStem
  split
  · exact isStem_of_forall (by simp [baseStem]) hbase
  · apply isStem_of_forall (by simp [baseStem])
    intro c hc
    rcases List.mem_append.mp hc with hc | hc
    · exact hbase c hc
    · rcases List.mem_cons.mp hc with rfl | hc
      · exact hdash
      · exact isStemChar_of_mem_decimal hc

/-- Two suffixes never give one stem. -/
theorem numberedStem_injective {base : Str} {j k : Nat}
    (h : numberedStem base j = numberedStem base k) : j = k := by
  unfold numberedStem at h
  split at h
  next hj =>
      split at h
      next hk => omega
      next =>
          have hlength := congrArg List.length h
          simp at hlength
  next hj =>
      split at h
      next =>
          have hlength := congrArg List.length h
          simp at hlength
      next =>
          have htail := List.append_cancel_left h
          injection htail with _ hdecimal
          have hvalue := congrArg (fun ds => Nat.ofDigitChars 10 ds 0) hdecimal
          simp only [decimal, Nat.ofDigitChars_ten_toDigits] at hvalue
          omega

end Ingest
end Aimx
