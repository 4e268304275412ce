import Aimx.Ingest.Attachments
import Aimx.Text.Lossy
import Mathlib.Algebra.Group.Even

/-!
# The tail of a hook's error output

What a hook wrote to its error output is logged as one quoted text: decoded, escaped as JSON, and abbreviated
when it is long.

* `sliceTo`, `boundaryFrom` — cutting a text at a byte offset, and the search for the next boundary;
* `SerdeJson`, `formatStderrTail` — the escaping and the function of the source;
* `LogSafe` — what is asked of the logged text;
* `logSafe_iff` — the outputs for which it holds.
-/

namespace Aimx
namespace Hook

open Text
open Ingest (isControl)

/-! ## Cutting at byte offsets -/

/-- `&s[..n]`; `none` where the offset is not a character boundary. -/
def sliceTo (n : Nat) (s : Str) : Option Str :=
  (sliceFrom n s).map fun tail => s.take (s.length - tail.length)

/-- `is_char_boundary`. -/
def isCharBoundary (s : Str) (i : Nat) : Bool := (sliceFrom i s).isSome

/-- The search for a boundary: the loop that counts an offset up. -/
def boundaryFrom (s : Str) (i : Nat) : Nat :=
  if !isCharBoundary s i && i < byteLen s then boundaryFrom s (i + 1) else i
termination_by byteLen s - i
decreasing_by
  simp_all only [Bool.and_eq_true, decide_eq_true_eq]
  omega

section Cuts

variable {s front tail : Str} {i : Nat}

/-- The boundaries of a text are the lengths of its beginnings. -/
theorem sliceFrom_eq_some_iff :
    sliceFrom i s = some tail ↔ ∃ front, s = front ++ tail ∧ byteLen front = i := by
  induction s generalizing i with
  | nil =>
      constructor
      · intro h
        rw [sliceFrom] at h
        split at h
        next hi =>
            cases h
            exact ⟨[], rfl, hi.symm⟩
        next => cases h
      · rintro ⟨front, hsplit, rfl⟩
        obtain ⟨rfl, rfl⟩ := List.append_eq_nil_iff.mp hsplit.symm
        rfl
  | cons c s ih =>
      have hsize := c.utf8Size_pos
      rw [sliceFrom]
      constructor
      · intro h
        split at h
        next hi =>
            cases h
            exact ⟨[], rfl, hi.symm⟩
        next =>
            split at h
            next hle =>
                obtain ⟨front, rfl, hlen⟩ := ih.mp h
                refine ⟨c :: front, rfl, ?_⟩
                rw [byteLen_cons, hlen]
                omega
            next => cases h
      · rintro ⟨front, hsplit, hlen⟩
        cases front with
        | nil =>
            rw [byteLen_nil] at hlen
            rw [if_pos hlen.symm]
            exact congrArg some hsplit
        | cons d front =>
            obtain ⟨rfl, rfl⟩ := List.cons.inj hsplit
            rw [byteLen_cons] at hlen
            rw [if_neg (by omega), if_pos (by omega)]
            exact ih.mpr ⟨front, rfl, by omega⟩

theorem sliceFrom_append (front tail : Str) : sliceFrom (byteLen front) (front ++ tail) = some tail :=
  sliceFrom_eq_some_iff.mpr ⟨front, rfl, rfl⟩

theorem sliceTo_append (front tail : Str) : sliceTo (byteLen front) (front ++ tail) = some front := by
  rw [sliceTo, sliceFrom_append, Option.map_some, List.length_append, Nat.add_sub_cancel, List.take_left']
  rfl

theorem isCharBoundary_iff :
    isCharBoundary s i = true ↔ ∃ front tail, s = front ++ tail ∧ byteLen front = i := by
  rw [isCharBoundary, Option.isSome_iff_exists]
  constructor
  · rintro ⟨tail, h⟩
    obtain ⟨front, hsplit, hlen⟩ := sliceFrom_eq_some_iff.mp h
    exact ⟨front, tail, hsplit, hlen⟩
  · rintro ⟨front, tail, hsplit, hlen⟩
    exact ⟨tail, sliceFrom_eq_some_iff.mpr ⟨front, hsplit, hlen⟩⟩

/-- The search ends on the offset itself, or right behind the character that it lies in. -/
theorem boundaryFrom_spec (hi : i ≤ byteLen s) :
    ∃ front tail, s = front ++ tail ∧ boundaryFrom s i = byteLen front ∧ (byteLen front = i ∨
      ∃ before c, front = before ++ [c] ∧ byteLen before < i ∧ i < byteLen front) := by
  fun_induction boundaryFrom s i with
  | case1 i hgo ih =>
      rw [Bool.and_eq_true, Bool.not_eq_true', decide_eq_true_eq] at hgo
      obtain ⟨front, tail, hsplit, hstop, hcase⟩ := ih hgo.2
      -- the offset itself is no boundary
      have hinside : ∀ before after, s = before ++ after → byteLen before ≤ i → byteLen before < i := by
        intro before after hcut hle
        refine Nat.lt_of_le_of_ne hle fun heq => ?_
        rw [isCharBoundary_iff.mpr ⟨before, after, hcut, heq⟩] at hgo
        exact absurd hgo.1 (by decide)
      refine ⟨front, tail, hsplit, hstop, .inr ?_⟩
      rcases hcase with hlen | ⟨before, c, rfl, hbefore, hfront⟩
      · obtain ⟨before, c, rfl⟩ := List.eq_nil_or_concat front |>.resolve_left (by
          rintro rfl
          rw [byteLen_nil] at hlen
          omega)
        rw [List.concat_eq_append] at hsplit hlen hstop ⊢
        have hcut : s = before ++ c :: tail := by rw [hsplit, List.append_assoc, List.singleton_append]
        refine ⟨before, c, rfl, hinside before (c :: tail) hcut ?_, by omega⟩
        have hsize := c.utf8Size_pos
        rw [byteLen_append, byteLen_cons] at hlen
        omega
      · have hcut : s = before ++ c :: tail := by rw [hsplit, List.append_assoc, List.singleton_append]
        refine ⟨before, c, rfl, hinside before (c :: tail) hcut ?_, by omega⟩
        omega
  | case2 i hstop =>
      rw [Bool.and_eq_true, Bool.not_eq_true', decide_eq_true_eq, not_and_or, Bool.not_eq_false] at hstop
      rcases hstop with hboundary | hend
      · obtain ⟨front, tail, hsplit, hlen⟩ := isCharBoundary_iff.mp hboundary
        exact ⟨front, tail, hsplit, hlen.symm, .inl hlen⟩
      · have hlen : byteLen s = i := by omega
        exact ⟨s, [], (List.append_nil s).symm, hlen.symm, .inl hlen⟩

end Cuts

/-! ## Escaping -/

/-- `serde_json` on texts, which writes each character by itself.  What is used of it: an escape is two
backslashes or ends in another character, and has no characters below the space. -/
structure SerdeJson where
  escape : Char → Str
  cases : ∀ c, escape c = ['\\', '\\'] ∨
    ∃ front d, escape c = front ++ [d] ∧ d ≠ '\\' ∧ ∀ e ∈ front ++ [d], 0x20 ≤ e.toNat

/-- The text between the quotes of a JSON string. -/
def SerdeJson.inner (json : SerdeJson) (s : Str) : Str := s.flatMap json.escape

/-- `serde_json::to_string` of a text. -/
def SerdeJson.string (json : SerdeJson) (s : Str) : Str := '"' :: (json.inner s ++ ['"'])

/-! ## The logged text -/

/-- `LOG_INLINE_LIMIT`. -/
def logInlineLimit : Nat := 1024

def headN : Nat := logInlineLimit / 2

def tailN : Nat := logInlineLimit / 2 - 8

/-- `format_stderr_tail`; `none` where it panics. -/
def formatStderrTail (json : SerdeJson) (bytes : Bytes) : Option Str :=
  if bytes = [] then some ['"', '"']
  else
    let escaped := json.string (fromUtf8Lossy bytes)
    if logInlineLimit < byteLen escaped then do
      let inner ← (sliceTo (byteLen escaped - 1) escaped).bind (sliceFrom 1)
      if headN + tailN + 8 < byteLen inner then
        let head := inner.take headN
        let tail ← sliceFrom (boundaryFrom inner (byteLen inner - tailN)) inner
        return '"' :: (head ++ "...".toList ++ tail ++ ['"'])
      else return escaped
    else return escaped

/-! ## What is asked of it -/

/-- No line feed and no carriage return. -/
def SingleLine (s : Str) : Prop := '\n' ∉ s ∧ '\r' ∉ s

/-- The number of backslashes at the end of a text. -/
def backslashes (s : Str) : Nat := (s.rtakeWhile (· = '\\')).length

/-- The character behind the text is not escaped: the text ends in an even number of backslashes. -/
def Unescaped (front : Str) : Prop := Even (backslashes front)

/-- Between two quotes, the second of which is not escaped. -/
def Quoted (s : Str) : Prop := ∃ inner, s = '"' :: (inner ++ ['"']) ∧ Unescaped ('"' :: inner)

/-- A beginning and an end of the escaped text around an ellipsis. -/
def Abbreviates (escaped s : Str) : Prop :=
  ∃ head tail, head <+: escaped ∧ tail <:+ escaped ∧ s = head ++ "...".toList ++ tail

/-- **What is logged of an error output**: one quoted line without control characters, of at most 1 KiB and a
constant.  The constant is that large because the front of an abbreviation is counted in characters. -/
structure LogSafe (json : SerdeJson) (bytes : Bytes) (logged : Str) : Prop where
  oneLine : SingleLine logged
  control : ∀ c ∈ logged, isControl c = false
  quoted : Quoted logged
  length : byteLen logged ≤ 1024 + 1533
  abbreviated : logged ≠ json.string (fromUtf8Lossy bytes) →
    Abbreviates (json.string (fromUtf8Lossy bytes)) logged

/-- The control characters that JSON does not escape: DEL and those from `U+0080` to `U+009F`. -/
def IsHighControl (c : Char) : Prop := 0x7F ≤ c.toNat ∧ c.toNat ≤ 0x9F

/-- Every high control character of the text is cut away: the text is long, and the character stands behind
the part that is taken from its front and before the part that is taken from its end. -/
def ControlsCut (inner : Str) : Prop :=
  ∀ front c back, inner = front ++ c :: back → IsHighControl c →
    1024 < byteLen inner ∧ 512 ≤ front.length ∧ 504 < byteLen (c :: back)

/-! ## The escaped text -/

section Escaped

variable {json : SerdeJson} {s front tail : Str} {c d : Char}

theorem le_of_mem_inner (h : d ∈ json.inner s) : 0x20 ≤ d.toNat := by
  obtain ⟨c, -, hd⟩ := List.mem_flatMap.mp h
  rcases json.cases c with hescape | ⟨front, e, hescape, -, hlow⟩
  · rw [hescape] at hd
    rcases List.mem_cons.mp hd with rfl | hd
    · decide
    · rw [List.mem_singleton.mp hd]
      decide
  · rw [hescape] at hd
    exact hlow d hd

/-- The other control characters are high ones. -/
theorem isControl_iff_of_low (hlow : 0x20 ≤ d.toNat) : isControl d = true ↔ IsHighControl d := by
  unfold isControl IsHighControl
  rw [Bool.or_eq_true, Bool.and_eq_true, decide_eq_true_eq, decide_eq_true_eq, decide_eq_true_eq]
  omega

/-! ### Backslashes at the end -/

theorem backslashes_concat (hd : d ≠ '\\') : backslashes (s ++ [d]) = 0 := by
  rw [backslashes, List.rtakeWhile_concat_neg]
  · rfl
  · simpa using hd

theorem backslashes_concat_backslash (s : Str) : backslashes (s ++ ['\\']) = backslashes s + 1 := by
  rw [backslashes, List.rtakeWhile_concat_pos _ _ _ (by decide), List.length_append]
  rfl

/-- Backslashes are counted on from the text before them. -/
theorem backslashes_append_of_forall (h : ∀ c ∈ tail, c = '\\') :
    backslashes (front ++ tail) = backslashes front + tail.length := by
  induction tail using List.reverseRecOn with
  | nil => rw [List.append_nil, List.length_nil, Nat.add_zero]
  | append_singleton tail c ih =>
      have hc : c = '\\' := h c (List.mem_append_right _ (List.mem_singleton_self c))
      rw [hc, ← List.append_assoc, backslashes_concat_backslash,
        ih fun c hc => h c (List.mem_append_left _ hc), List.length_append]
      rfl

/-- Another character in a text hides what is before it. -/
theorem backslashes_append_of_exists (h : ∃ c ∈ tail, c ≠ '\\') (front : Str) :
    backslashes (front ++ tail) = backslashes tail := by
  induction tail using List.reverseRecOn with
  | nil =>
      obtain ⟨c, hc, -⟩ := h
      cases hc
  | append_singleton tail c ih =>
      by_cases hc : c = '\\'
      · have hrest : ∃ c ∈ tail, c ≠ '\\' := by
          obtain ⟨d, hd, hne⟩ := h
          rcases List.mem_append.mp hd with hd | hd
          · exact ⟨d, hd, hne⟩
          · exact absurd (List.mem_singleton.mp hd ▸ hc) hne
        rw [hc, ← List.append_assoc, backslashes_concat_backslash, backslashes_concat_backslash, ih hrest]
      · rw [← List.append_assoc, backslashes_concat hc, backslashes_concat hc]

/-- An escaped text does not escape what comes behind it. -/
theorem even_backslashes_inner (h : Even (backslashes front)) (s : Str) :
    Even (backslashes (front ++ json.inner s)) := by
  induction s generalizing front with
  | nil => rwa [SerdeJson.inner, List.flatMap_nil, List.append_nil]
  | cons c s ih =>
      rw [SerdeJson.inner, List.flatMap_cons, ← List.append_assoc]
      apply ih
      rcases json.cases c with hescape | ⟨init, d, hescape, hd, -⟩
      · rw [hescape, backslashes_append_of_forall (by simp)]
        exact h.add ⟨1, rfl⟩
      · rw [hescape, ← List.append_assoc, backslashes_concat hd]
        exact Even.zero

end Escaped

/-! ## The result -/

section Result

variable {json : SerdeJson} {s : Str}

theorem byteLen_string (s : Str) : byteLen (json.string s) = byteLen (json.inner s) + 2 := by
  rw [SerdeJson.string, byteLen_cons, byteLen_append, byteLen_cons, byteLen_nil]
  have hquote : '"'.utf8Size = 1 := by decide
  omega

/-- The text between the quotes is cut out. -/
theorem inner_string (s : Str) :
    (sliceTo (byteLen (json.string s) - 1) (json.string s)).bind (sliceFrom 1) = some (json.inner s) := by
  have hquote : byteLen ['"'] = 1 := by decide
  have hlen : byteLen (json.string s) - 1 = byteLen ('"' :: json.inner s) := by
    rw [byteLen_string, byteLen_cons]
    have hsize : '"'.utf8Size = 1 := by decide
    omega
  have hfront : sliceTo (byteLen ('"' :: json.inner s)) (('"' :: json.inner s) ++ ['"']) =
      some ('"' :: json.inner s) := sliceTo_append _ _
  have hback : sliceFrom (byteLen ['"']) (['"'] ++ json.inner s) = some (json.inner s) := sliceFrom_append _ _
  rw [hquote] at hback
  rw [hlen]
  exact (congrArg (·.bind (sliceFrom 1)) hfront).trans hback

/-- The end that is kept of a long text: it has at most 504 bytes, and is shorter than that only where the
cut would fall into a character. -/
structure Kept (inner before tail : Str) : Prop where
  split : inner = before ++ tail
  cut : byteLen tail = tailN ∨
    ∃ front c, before = front ++ [c] ∧ byteLen tail < tailN ∧ tailN < byteLen (c :: tail)

/-- **The two results**: the escaped text, or its beginning and its end. -/
theorem formatStderrTail_cases (bytes : Bytes) :
    (byteLen (json.inner (fromUtf8Lossy bytes)) ≤ 1024 ∧
      formatStderrTail json bytes = some (json.string (fromUtf8Lossy bytes))) ∨
    (1024 < byteLen (json.inner (fromUtf8Lossy bytes)) ∧
      ∃ before tail, Kept (json.inner (fromUtf8Lossy bytes)) before tail ∧
        formatStderrTail json bytes = some ('"' ::
          ((json.inner (fromUtf8Lossy bytes)).take headN ++ "...".toList ++ tail ++ ['"']))) := by
  unfold formatStderrTail
  split
  next hnil =>
      rw [hnil, fromUtf8Lossy_nil]
      exact .inl ⟨Nat.zero_le 1024, rfl⟩
  next =>
      dsimp only
      generalize fromUtf8Lossy bytes = s
      have hlen : byteLen (json.string s) = byteLen (json.inner s) + 2 := byteLen_string s
      by_cases hlong : 1024 < byteLen (json.inner s)
      · right
        refine ⟨hlong, ?_⟩
        have hle : byteLen (json.inner s) - tailN ≤ byteLen (json.inner s) := Nat.sub_le _ _
        obtain ⟨before, tail, hsplit, hstop, hcase⟩ := boundaryFrom_spec hle
        have htotal : byteLen (json.inner s) = byteLen before + byteLen tail := by
          rw [hsplit, byteLen_append]
        have htail : tailN = 504 := rfl
        refine ⟨before, tail, ⟨hsplit, ?_⟩, ?_⟩
        · rcases hcase with hlen | ⟨front, c, rfl, hfront, hbefore⟩
          · left
            omega
          · right
            refine ⟨front, c, rfl, by omega, ?_⟩
            rw [byteLen_append, byteLen_cons, byteLen_nil] at htotal
            rw [byteLen_cons]
            omega
        · have hslice : sliceFrom (boundaryFrom (json.inner s) (byteLen (json.inner s) - tailN))
              (json.inner s) = some tail := sliceFrom_eq_some_iff.mpr ⟨before, hsplit, hstop.symm⟩
          rw [if_pos (show logInlineLimit < byteLen (json.string s) by rw [hlen]; show 1024 < _; omega),
            inner_string]
          show (if headN + tailN + 8 < byteLen (json.inner s) then _ else _) = _
          rw [if_pos (show headN + tailN + 8 < byteLen (json.inner s) from hlong), hslice]
          rfl
      · left
        refine ⟨by omega, ?_⟩
        split
        next =>
            rw [inner_string]
            show (if headN + tailN + 8 < byteLen (json.inner s) then _ else _) = _
            rw [if_neg (show ¬ headN + tailN + 8 < byteLen (json.inner s) from hlong)]
            rfl
        next => rfl

theorem low_dots : ∀ c ∈ "...".toList, 0x20 ≤ c.toNat := by
  intro c hc
  have hdot : c = '.' := by simpa using hc
  rw [hdot]
  decide

/-- Text without low control characters is one line. -/
theorem singleLine_of_low {t : Str} (h : ∀ c ∈ t, 0x20 ≤ c.toNat) : SingleLine t :=
  ⟨fun hmem => absurd (h _ hmem) (by decide), fun hmem => absurd (h _ hmem) (by decide)⟩

theorem Kept.byteLen_le {inner before tail : Str} (h : Kept inner before tail) : byteLen tail ≤ tailN := by
  rcases h.cut with hlen | ⟨_, _, _, hlen, _⟩
  · exact hlen.le
  · exact hlen.le

/-- The last quote of the escaped text is not escaped, wherever the text is cut off in front. -/
theorem unescaped_abbreviated {inner before tail head : Str} (h : Kept inner before tail)
    (heven : Even (backslashes ('"' :: inner))) :
    Unescaped ('"' :: (head ++ "...".toList ++ tail)) := by
  show Even (backslashes ('"' :: (head ++ "...".toList ++ tail)))
  have hdots : '"' :: (head ++ "...".toList ++ tail) = ('"' :: (head ++ ['.', '.']) ++ ['.']) ++ tail := by
    have hsplit : "...".toList = ['.', '.'] ++ ['.'] := rfl
    rw [hsplit]
    simp only [List.cons_append, List.append_assoc]
  have hinner : '"' :: inner = ('"' :: before) ++ tail := congrArg ('"' :: ·) h.split
  rw [hdots]
  rw [hinner] at heven
  by_cases hall : ∀ c ∈ tail, c = '\\'
  · rw [backslashes_append_of_forall hall, backslashes_concat (by decide), Nat.zero_add]
    -- all that is kept is backslashes: as many as bytes are kept, or as the text ends in
    have hbytes : byteLen tail = tail.length := by
      have hrepeat : tail = List.replicate tail.length '\\' := List.eq_replicate_of_mem hall
      have hlen : ∀ n, byteLen (List.replicate n '\\') = n := by
        intro n
        induction n with
        | zero => rfl
        | succ n ih =>
            have hsize : '\\'.utf8Size = 1 := by decide
            rw [List.replicate_succ, byteLen_cons, ih]
            omega
      rw [hrepeat, hlen, List.length_replicate]
    rcases h.cut with hlen | ⟨front, c, rfl, hshort, hlong⟩
    · rw [← hbytes, hlen]
      exact ⟨252, rfl⟩
    · have hc : c ≠ '\\' := by
        rintro rfl
        have hsize : '\\'.utf8Size = 1 := by decide
        rw [byteLen_cons] at hlong
        omega
      rw [backslashes_append_of_forall hall, ← List.cons_append, backslashes_concat hc, Nat.zero_add] at heven
      exact heven
  · have hexists : ∃ c ∈ tail, c ≠ '\\' := by
      by_contra hnone
      exact hall fun c hc => by_contra fun hne => hnone ⟨c, hc, hne⟩
    rw [backslashes_append_of_exists hexists] at heven ⊢
    exact heven

theorem even_backslashes_quoted (s : Str) : Even (backslashes ('"' :: json.inner s)) := by
  have hquote : Even (backslashes ['"']) := ⟨0, rfl⟩
  exact even_backslashes_inner hquote s

/-- What holds of a logged text whether or not it has control characters. -/
theorem logSafe_iff_control {bytes : Bytes} {logged : Str} (h : formatStderrTail json bytes = some logged) :
    LogSafe json bytes logged ↔ ∀ c ∈ logged, isControl c = false := by
  refine ⟨LogSafe.control, fun hcontrol => ?_⟩
  have hquote : ∀ t : Str, (∀ c ∈ t, 0x20 ≤ c.toNat) → SingleLine ('"' :: (t ++ ['"'])) := by
    intro t ht
    refine singleLine_of_low (List.forall_mem_cons.mpr ⟨by decide, List.forall_mem_append.mpr ⟨ht, ?_⟩⟩)
    exact List.forall_mem_singleton.mpr (by decide)
  have hlow : ∀ c ∈ json.inner (fromUtf8Lossy bytes), 0x20 ≤ c.toNat := fun c hc => le_of_mem_inner hc
  rcases formatStderrTail_cases bytes with ⟨hshort, hresult⟩ | ⟨hlong, before, tail, hkept, hresult⟩
  · rw [hresult] at h
    obtain rfl := Option.some.inj h
    exact
      { oneLine := hquote _ hlow
        control := hcontrol
        quoted := ⟨_, rfl, even_backslashes_quoted _⟩
        length := by
          rw [byteLen_string]
          omega
        abbreviated := fun hne => absurd rfl hne }
  · rw [hresult] at h
    obtain rfl := Option.some.inj h
    have hsuffix : tail <:+ json.inner (fromUtf8Lossy bytes) := ⟨before, hkept.split.symm⟩
    have hshown : ∀ c ∈ (json.inner (fromUtf8Lossy bytes)).take headN ++ "...".toList ++ tail,
        0x20 ≤ c.toNat := by
      refine List.forall_mem_append.mpr ⟨List.forall_mem_append.mpr ⟨fun c hc => ?_, low_dots⟩,
        fun c hc => ?_⟩
      · exact hlow c (List.mem_of_mem_take hc)
      · exact hlow c (hsuffix.subset hc)
    exact
      { oneLine := hquote _ hshown
        control := hcontrol
        quoted := ⟨_, rfl, unescaped_abbreviated hkept (even_backslashes_quoted _)⟩
        length := by
          have hhead := byteLen_le ((json.inner (fromUtf8Lossy bytes)).take headN)
          have htake := List.length_take_le headN (json.inner (fromUtf8Lossy bytes))
          have htail := hkept.byteLen_le
          have hdots : byteLen "...".toList = 3 := by decide
          have hend : byteLen ['"'] = 1 := by decide
          have hsize : '"'.utf8Size = 1 := by decide
          have hheadN : headN = 512 := rfl
          have htailN : tailN = 504 := rfl
          rw [byteLen_cons, byteLen_append, byteLen_append, byteLen_append]
          omega
        abbreviated := fun _ => by
          refine ⟨'"' :: (json.inner (fromUtf8Lossy bytes)).take headN, tail ++ ['"'], ?_, ?_, ?_⟩
          · exact List.cons_prefix_cons.mpr ⟨rfl, (List.take_prefix _ _).trans (List.prefix_append _ _)⟩
          · obtain ⟨front, hfront⟩ := hsuffix
            exact ⟨'"' :: front, by rw [SerdeJson.string, ← hfront, List.cons_append, List.append_assoc]⟩
          · rw [List.cons_append, List.cons_append, List.append_assoc _ tail] }

/-- The characters of a beginning, by what stands before them. -/
theorem mem_take_iff {l : Str} {c : Char} {n : Nat} :
    c ∈ l.take n ↔ ∃ front back, l = front ++ c :: back ∧ front.length < n := by
  constructor
  · intro h
    obtain ⟨front, back, hfront⟩ := List.append_of_mem h
    refine ⟨front, back ++ l.drop n, ?_, ?_⟩
    · rw [← List.cons_append, ← List.append_assoc, ← hfront, List.take_append_drop]
    · have hlength := congrArg List.length hfront
      have htake := List.length_take_le n l
      rw [List.length_append, List.length_cons] at hlength
      omega
  · rintro ⟨front, back, rfl, hlt⟩
    obtain ⟨k, hk⟩ := Nat.exists_eq_succ_of_ne_zero (show n - front.length ≠ 0 by omega)
    rw [List.take_append, hk, List.take_succ_cons]
    exact List.mem_append_right _ List.mem_cons_self

/-- An end of the text within the last bytes is kept. -/
theorem Kept.suffix_of_le {inner before tail t : Str} (h : Kept inner before tail) (hsuffix : t <:+ inner)
    (hle : byteLen t ≤ tailN) : t <:+ tail := by
  rcases List.suffix_or_suffix_of_suffix hsuffix ⟨before, h.split.symm⟩ with hshort | ⟨more, rfl⟩
  · exact hshort
  · rcases List.eq_nil_or_concat more with rfl | ⟨init, d, rfl⟩
    · exact List.suffix_rfl
    · -- a longer end would begin at or before the character that the cut falls into
      exfalso
      rw [List.concat_eq_append, List.append_assoc, List.singleton_append] at hsuffix hle
      have hover : tailN < byteLen (d :: tail) := by
        rcases h.cut with hlen | ⟨front, c, rfl, -, hover⟩
        · have hsize := d.utf8Size_pos
          rw [byteLen_cons]
          omega
        · obtain ⟨rest, hrest⟩ := hsuffix
          rw [h.split, ← List.append_assoc, List.append_assoc front, List.singleton_append] at hrest
          have hcons := (List.append_inj' hrest rfl).2
          rwa [(List.cons.inj hcons).1]
      rw [byteLen_append] at hle
      omega

/-- The characters that are kept, by what stands behind them. -/
theorem Kept.mem_iff {inner before tail : Str} {c : Char} (h : Kept inner before tail) :
    c ∈ tail ↔ ∃ front back, inner = front ++ c :: back ∧ byteLen (c :: back) ≤ tailN := by
  constructor
  · intro hc
    obtain ⟨front, back, rfl⟩ := List.append_of_mem hc
    refine ⟨before ++ front, back, by rw [List.append_assoc, ← h.split], ?_⟩
    have hle := h.byteLen_le
    rw [byteLen_append] at hle
    omega
  · rintro ⟨front, back, hsplit, hle⟩
    exact (h.suffix_of_le ⟨front, hsplit.symm⟩ hle).subset List.mem_cons_self

theorem control_quoted_iff {t : Str} :
    (∀ c ∈ '"' :: (t ++ ['"']), isControl c = false) ↔ ∀ c ∈ t, isControl c = false := by
  rw [List.forall_mem_cons, List.forall_mem_append, List.forall_mem_singleton]
  exact ⟨fun h => h.2.1, fun h => ⟨by decide, h, by decide⟩⟩

/-- A text that is logged as it is. -/
theorem controlsCut_of_short {inner : Str} (h : byteLen inner ≤ 1024) :
    ControlsCut inner ↔ ∀ c ∈ inner, ¬ IsHighControl c := by
  constructor
  · intro hcut c hc hcontrol
    obtain ⟨front, back, hsplit⟩ := List.append_of_mem hc
    exact absurd (hcut front c back hsplit hcontrol).1 (by omega)
  · intro hnone front c back hsplit hcontrol
    exact absurd hcontrol (hnone c (hsplit ▸ List.mem_append_right _ List.mem_cons_self))

/-- A text that is abbreviated. -/
theorem controlsCut_of_long {inner before tail : Str} (h : 1024 < byteLen inner)
    (hkept : Kept inner before tail) :
    ControlsCut inner ↔ ∀ c ∈ inner.take headN ++ "...".toList ++ tail, ¬ IsHighControl c := by
  have hdots : ∀ c ∈ "...".toList, ¬ IsHighControl c := by
    intro c hc hcontrol
    have hdot : c = '.' := by simpa using hc
    rw [hdot] at hcontrol
    exact absurd hcontrol.1 (by decide)
  have hheadN : headN = 512 := rfl
  have htailN : tailN = 504 := rfl
  constructor
  · intro hcut
    refine List.forall_mem_append.mpr ⟨List.forall_mem_append.mpr ⟨fun c hc hcontrol => ?_, hdots⟩,
      fun c hc hcontrol => ?_⟩
    · obtain ⟨front, back, hsplit, hlt⟩ := mem_take_iff.mp hc
      have hbehind := (hcut front c back hsplit hcontrol).2.1
      omega
    · obtain ⟨front, back, hsplit, hle⟩ := hkept.mem_iff.mp hc
      have hbehind := (hcut front c back hsplit hcontrol).2.2
      omega
  · intro hnone front c back hsplit hcontrol
    refine ⟨h, ?_, ?_⟩
    · by_contra hlt
      have hmem : c ∈ inner.take headN := mem_take_iff.mpr ⟨front, back, hsplit, by omega⟩
      exact hnone c (List.mem_append_left _ (List.mem_append_left _ hmem)) hcontrol
    · by_contra hle
      have hmem : c ∈ tail := hkept.mem_iff.mpr ⟨front, back, hsplit, by omega⟩
      exact hnone c (List.mem_append_right _ hmem) hcontrol

/-- **A logged error output is safe** exactly when its high control characters are cut away. -/
theorem logSafe_iff (bytes : Bytes) :
    (∃ logged, formatStderrTail json bytes = some logged ∧ LogSafe json bytes logged) ↔
      ControlsCut (json.inner (fromUtf8Lossy bytes)) := by
  have hresult : ∀ {logged}, formatStderrTail json bytes = some logged →
      ((∃ logged, formatStderrTail json bytes = some logged ∧ LogSafe json bytes logged) ↔
        ∀ c ∈ logged, isControl c = false) := by
    intro logged h
    rw [h, ← logSafe_iff_control h]
    constructor
    · rintro ⟨logged', h', hsafe⟩
      rwa [Option.some.inj h']
    · exact fun hsafe => ⟨logged, rfl, hsafe⟩
  have hhigh : ∀ c, 0x20 ≤ c.toNat → (isControl c = false ↔ ¬ IsHighControl c) := by
    intro c hc
    rw [← isControl_iff_of_low hc, Bool.not_eq_true]
  have hlow : ∀ c ∈ json.inner (fromUtf8Lossy bytes), 0x20 ≤ c.toNat := fun c hc => le_of_mem_inner hc
  rcases formatStderrTail_cases bytes with ⟨hshort, h⟩ | ⟨hlong, before, tail, hkept, h⟩
  · rw [hresult h, SerdeJson.string, control_quoted_iff, controlsCut_of_short hshort]
    exact forall₂_congr fun c hc => hhigh c (hlow c hc)
  · rw [hresult h, control_quoted_iff, controlsCut_of_long hlong hkept]
    refine forall₂_congr fun c hc => hhigh c ?_
    rcases List.mem_append.mp hc with hc | hc
    · rcases List.mem_append.mp hc with hc | hc
      · exact hlow c (List.mem_of_mem_take hc)
      · exact low_dots c hc
    · exact hlow c (hkept.split ▸ List.mem_append_right _ hc)

/-- The escapes of JSON: the quote, the backslash and the characters below the space. -/
def jsonEscape (c : Char) : Str :=
  if c = '"' then ['\\', '"']
  else if c = '\\' then ['\\', '\\']
  else if c.toNat = 0x08 then ['\\', 'b']
  else if c.toNat = 0x09 then ['\\', 't']
  else if c.toNat = 0x0A then ['\\', 'n']
  else if c.toNat = 0x0C then ['\\', 'f']
  else if c.toNat = 0x0D then ['\\', 'r']
  else if c.toNat < 0x20 then
    ['\\', 'u', '0', '0', Nat.digitChar (c.toNat / 16), Nat.digitChar (c.toNat % 16)]
  else [c]

theorem digitChar_bounds : ∀ n < 16, 0x20 ≤ (Nat.digitChar n).toNat ∧ Nat.digitChar n ≠ '\\' := by
  decide

/-- An escape is two backslashes, or ends in another character; it has no low control characters. -/
theorem jsonEscape_cases (c : Char) : jsonEscape c = ['\\', '\\'] ∨
    ∃ front d, jsonEscape c = front ++ [d] ∧ d ≠ '\\' ∧ ∀ e ∈ front ++ [d], 0x20 ≤ e.toNat := by
  have hpair : ∀ d : Char, d ≠ '\\' ∧ 0x20 ≤ d.toNat →
      ∃ front e, ['\\', d] = front ++ [e] ∧ e ≠ '\\' ∧ ∀ x ∈ front ++ [e], 0x20 ≤ x.toNat := by
    rintro d ⟨hd, hlow⟩
    refine ⟨['\\'], d, rfl, hd, List.forall_mem_cons.mpr ⟨by decide, ?_⟩⟩
    exact List.forall_mem_singleton.mpr hlow
  unfold jsonEscape
  split
  next => exact .inr (hpair '"' (by decide))
  split
  next => exact .inl rfl
  next hback =>
      right
      split
      next => exact hpair 'b' (by decide)
      split
      next => exact hpair 't' (by decide)
      split
      next => exact hpair 'n' (by decide)
      split
      next => exact hpair 'f' (by decide)
      split
      next => exact hpair 'r' (by decide)
      split
      next hlow =>
          have hfirst := digitChar_bounds (c.toNat / 16) (by omega)
          have hsecond := digitChar_bounds (c.toNat % 16) (by omega)
          refine ⟨['\\', 'u', '0', '0', Nat.digitChar (c.toNat / 16)], _, rfl, hsecond.2, ?_⟩
          intro e he
          simp only [List.cons_append, List.nil_append, List.mem_cons, List.not_mem_nil, or_false] at he
          rcases he with rfl | rfl | rfl | rfl | rfl | rfl
          · decide
          · decide
          · decide
          · decide
          · exact hfirst.1
          · exact hsecond.1
      next hhigh =>
          refine ⟨[], c, rfl, hback, List.forall_mem_singleton.mpr ?_⟩
          omega

/-- The library with these escapes. -/
def jsonEscapes : SerdeJson := ⟨jsonEscape, jsonEscape_cases⟩

/-- A hook that writes DEL. -/
theorem logSafe_del : ¬ ∃ logged, formatStderrTail jsonEscapes [0x7F] = some logged ∧
    LogSafe jsonEscapes [0x7F] logged := by
  rintro ⟨logged, hlogged, hsafe⟩
  have hdecoded : fromUtf8Lossy [0x7F] = [Char.ofNat 0x7F] :=
    fromUtf8Lossy_ascii (List.forall_mem_singleton.mpr (by decide))
  rcases formatStderrTail_cases [0x7F] with ⟨-, h⟩ | ⟨hlong, -⟩
  · rw [hdecoded, hlogged] at h
    obtain rfl := Option.some.inj h
    exact absurd (hsafe.control (Char.ofNat 0x7F) (by decide)) (by decide)
  · rw [hdecoded] at hlong
    exact absurd hlong (by decide)

end Result

end Hook
end Aimx
