import Aimx.Text.Str

/-!
# Quoted strings in a text

A text in which a double quote opens a string that the next one closes, where a backslash inside makes the
next character part of the string.

* `QuoteState` — where a scan stands, and `splitOutside`, the cut at a separator outside of the strings;
* `Segment` — what such a cut leaves whole, and `splitOutside_cons`: it does;
* `mem_tail_splitOutside` — a later piece stands behind a separator outside of the strings;
* `QuotedBody` — the contents of a string and what they stand for.
-/

namespace Aimx
namespace Text

/-! ## Scanning -/

/-- Where a scan stands: outside of the strings, inside of one, or there behind a backslash. -/
inductive QuoteState
  | outside | inside | escaped
  deriving DecidableEq

namespace QuoteState

def next : QuoteState → Char → QuoteState
  | outside, c => if c = '"' then inside else outside
  | inside, c => if c = '\\' then escaped else if c = '"' then outside else inside
  | escaped, _ => inside

/-- Where the scan stands behind a text. -/
def after (q : QuoteState) (s : Str) : QuoteState := s.foldl next q

@[simp] theorem after_nil (q : QuoteState) : q.after [] = q := rfl

@[simp] theorem after_cons (q : QuoteState) (c : Char) (s : Str) : q.after (c :: s) = (q.next c).after s :=
  rfl

theorem after_append (q : QuoteState) (a b : Str) : q.after (a ++ b) = (q.after a).after b :=
  List.foldl_append

end QuoteState

variable {sep : Char} {q : QuoteState}

/-- Cut a text at every separator outside of the strings. -/
def splitOutside (sep : Char) : QuoteState → Str → List Str
  | _, [] => [[]]
  | q, c :: s =>
    if q = .outside ∧ c = sep then [] :: splitOutside sep .outside s
    else (splitOutside sep (q.next c) s).modifyHead (c :: ·)

theorem splitOutside_ne_nil (sep : Char) (q : QuoteState) (s : Str) : splitOutside sep q s ≠ [] := by
  induction s generalizing q with
  | nil => simp [splitOutside]
  | cons c s ih =>
    unfold splitOutside
    split
    · simp
    · simpa [List.modifyHead_eq_nil_iff] using ih (q.next c)

/-- A text without a separator outside of the strings stays in one piece with what follows. -/
theorem splitOutside_append {a : Str} (h : splitOutside sep q a = [a]) (b : Str) :
    splitOutside sep q (a ++ b) = (splitOutside sep (q.after a) b).modifyHead (a ++ ·) := by
  induction a generalizing q with
  | nil => exact List.modifyHead_id.symm ▸ rfl
  | cons c a ih =>
    rw [splitOutside] at h
    split at h
    next => simp at h
    next hplain =>
      have ha : splitOutside sep (q.next c) a = [a] := by
        cases hsplit : splitOutside sep (q.next c) a with
        | nil => exact absurd hsplit (splitOutside_ne_nil sep _ _)
        | cons piece pieces => simpa [hsplit] using h
      rw [List.cons_append, splitOutside, if_neg hplain, ih ha, List.modifyHead_modifyHead]
      rfl

/-- A text that ends outside of the strings and has no separator there. -/
structure Segment (sep : Char) (s : Str) : Prop where
  whole : splitOutside sep .outside s = [s]
  closed : QuoteState.outside.after s = .outside

theorem Segment.append {a b : Str} (ha : Segment sep a) (hb : Segment sep b) : Segment sep (a ++ b) where
  whole := by
    rw [splitOutside_append ha.whole, ha.closed, hb.whole]
    rfl
  closed := by rw [QuoteState.after_append, ha.closed, hb.closed]

/-- A text without quotes and separators. -/
theorem Segment.plain {s : Str} (h : ∀ c ∈ s, c ≠ '"' ∧ c ≠ sep) : Segment sep s := by
  induction s with
  | nil => exact ⟨rfl, rfl⟩
  | cons c s ih =>
    have hc := h c List.mem_cons_self
    have hs := ih fun d hd => h d (List.mem_cons_of_mem c hd)
    have hnext : QuoteState.outside.next c = .outside := if_neg hc.1
    constructor
    · rw [splitOutside, if_neg (fun hsep => hc.2 hsep.2), hnext, hs.whole]
      rfl
    · rw [QuoteState.after_cons, hnext, hs.closed]

/-- A segment is the first piece of a text where a separator follows it. -/
theorem splitOutside_cons {a : Str} (ha : Segment sep a) (b : Str) :
    splitOutside sep .outside (a ++ sep :: b) = a :: splitOutside sep .outside b := by
  rw [splitOutside_append ha.whole, ha.closed, splitOutside, if_pos ⟨rfl, rfl⟩]
  simp

/-- The first piece begins the text. -/
theorem head_splitOutside {s piece : Str} (h : piece ∈ (splitOutside sep q s).head?) : piece <+: s := by
  induction s generalizing q piece with
  | nil => simp_all [splitOutside]
  | cons c s ih =>
    rw [splitOutside] at h
    split at h
    next =>
      simp only [List.head?_cons, Option.mem_some_iff] at h
      subst h
      exact List.nil_prefix
    next =>
      cases hsplit : splitOutside sep (q.next c) s with
      | nil => exact absurd hsplit (splitOutside_ne_nil sep _ _)
      | cons first rest =>
        simp only [hsplit, List.modifyHead_cons, List.head?_cons, Option.mem_some_iff] at h
        subst h
        exact List.prefix_cons_inj c |>.mpr (ih (by rw [hsplit]; rfl))

/-- Every piece but the first stands behind a separator outside of the strings. -/
theorem mem_tail_splitOutside (hquote : sep ≠ '"') {s piece : Str} (h : piece ∈ (splitOutside sep q s).tail) :
    ∃ pre post, s = pre ++ sep :: (piece ++ post) ∧ q.after pre = .outside := by
  induction s generalizing q with
  | nil => simp [splitOutside] at h
  | cons c s ih =>
    rw [splitOutside] at h
    split at h
    next hsep =>
      obtain ⟨rfl, rfl⟩ := hsep
      rw [List.tail_cons] at h
      cases hsplit : splitOutside c .outside s with
      | nil => exact absurd hsplit (splitOutside_ne_nil c _ _)
      | cons first rest =>
        rw [hsplit, List.mem_cons] at h
        rcases h with rfl | h
        · obtain ⟨post, rfl⟩ := (head_splitOutside (by rw [hsplit]; rfl) : piece <+: s)
          exact ⟨[], post, rfl, rfl⟩
        · obtain ⟨pre, post, rfl, hpre⟩ := ih (q := .outside) (by rw [hsplit]; exact h)
          have hnext : QuoteState.outside.next c = .outside := if_neg hquote
          exact ⟨c :: pre, post, rfl, by rw [QuoteState.after_cons, hnext, hpre]⟩
    next hplain =>
      have htail : piece ∈ (splitOutside sep (q.next c) s).tail := by
        cases hsplit : splitOutside sep (q.next c) s with
        | nil => exact absurd hsplit (splitOutside_ne_nil sep _ _)
        | cons first rest => simpa [hsplit] using h
      obtain ⟨pre, post, rfl, hpre⟩ := ih htail
      exact ⟨c :: pre, post, rfl, hpre⟩

/-! ## The contents of a string -/

/-- The contents of a quoted string as they are written, and the text that they stand for. -/
inductive QuotedBody : Str → Str → Prop
  | nil : QuotedBody [] []
  | char {c : Char} {raw text : Str} (hslash : c ≠ '\\') (hquote : c ≠ '"') (h : QuotedBody raw text) :
      QuotedBody (c :: raw) (c :: text)
  | pair {c : Char} {raw text : Str} (h : QuotedBody raw text) : QuotedBody ('\\' :: c :: raw) (c :: text)

theorem QuotedBody.append {raw raw' text text' : Str} (h : QuotedBody raw text)
    (h' : QuotedBody raw' text') : QuotedBody (raw ++ raw') (text ++ text') := by
  induction h with
  | nil => exact h'
  | char hslash hquote _ ih => exact .char hslash hquote ih
  | pair _ ih => exact .pair ih

/-- A scan passes the contents inside of the string. -/
theorem QuotedBody.after_inside {raw text : Str} (h : QuotedBody raw text) :
    QuoteState.inside.after raw = .inside := by
  induction h with
  | nil => rfl
  | char hslash hquote _ ih => simp [QuoteState.next, hslash, hquote, ih]
  | pair _ ih => simp [QuoteState.next, ih]

theorem QuotedBody.splitOutside_inside {raw text : Str} (h : QuotedBody raw text) :
    splitOutside sep .inside raw = [raw] := by
  induction h with
  | nil => rfl
  | char hslash hquote _ ih => simp [splitOutside, QuoteState.next, hslash, hquote, ih]
  | pair _ ih => simp [splitOutside, QuoteState.next, ih]

/-- A quoted string is a segment. -/
theorem QuotedBody.segment {raw text : Str} (h : QuotedBody raw text) (hsep : sep ≠ '"') :
    Segment sep ('"' :: (raw ++ ['"'])) := by
  constructor
  · rw [splitOutside, if_neg (fun hquote => hsep hquote.2.symm)]
    show List.modifyHead _ (splitOutside sep .inside (raw ++ ['"'])) = _
    rw [splitOutside_append h.splitOutside_inside, h.after_inside]
    simp [splitOutside]
  · show QuoteState.inside.after (raw ++ ['"']) = .outside
    rw [QuoteState.after_append, h.after_inside]
    rfl

end Text
end Aimx
