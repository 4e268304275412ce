import Aimx.Text.Rfc2045
import Aimx.Send.Wire
import Mathlib.Algebra.Order.BigOperators.Group.List
import Mathlib.Algebra.Order.Ring.Nat

/-!
# The transfer encoding of a text part

A text part is sent in CRLF lines, as it is if it is ASCII in lines of at most 998 bytes, and in
`quoted-printable` otherwise.

* `normalizeTextToCrlf`, `pickTransferEncoding`, `quotedPrintableEncode`, `decodeQuotedPrintable` — the
  functions of the source;
* `parts` — a line between the soft breaks of the encoder;
* `quotedPrintableEncode_normalized` — an encoded text as lines;
* `keptLine`, `decode_encodeLines` — what RFC 2045 reads of them;
* `losslessAndLegal_iff` — the texts that are encoded as RFC 2045 has it.
-/

namespace Aimx
namespace Send

open Text Rfc2045

/-! ## The functions of the source -/

/-- `replace("\r\n", "\n")`. -/
def crlfToLf : Str → Str
  | '\r' :: '\n' :: rest => '\n' :: crlfToLf rest
  | c :: rest => c :: crlfToLf rest
  | [] => []

/-- A text in LF lines, as the first two steps of `normalize_text_to_crlf` leave it. -/
def lfText (text : Str) : Str := (crlfToLf text).map fun c => if c = '\r' then '\n' else c

/-- `normalize_text_to_crlf`. -/
def normalizeTextToCrlf (text : Str) : Str :=
  (lfText text).flatMap fun c => if c = '\n' then ['\r', '\n'] else [c]

/-- The loop of `has_long_line`. -/
def hasLongLineFrom : Nat → Bytes → Bool
  | _, [] => false
  | col, b :: rest =>
      if b = 0x0A then hasLongLineFrom 0 rest
      else if b ≠ 0x0D then col + 1 > 998 || hasLongLineFrom (col + 1) rest
      else hasLongLineFrom col rest

/-- `has_long_line`. -/
def hasLongLine (bytes : Bytes) : Bool := hasLongLineFrom 0 bytes

/-- `pick_transfer_encoding`. -/
def pickTransferEncoding (bytes : Bytes) : TextTransferEncoding :=
  if bytes.all (· < 0x80) && !hasLongLine bytes then .sevenBit else .quotedPrintable

/-- The bytes that `quoted_printable_encode` writes as escapes. -/
def needsEncoding (b : UInt8) : Bool := b == 0x3D || b == 0x09 || !(0x20 ≤ b && b ≤ 0x7E)

/-- The loop of `quoted_printable_encode`. -/
def encodeFrom : Nat → Bytes → Bytes
  | _, [] => []
  | col, b :: rest =>
      if b = 0x0A then b :: encodeFrom 0 rest
      else if b = 0x0D then b :: encodeFrom col rest
      else if needsEncoding b then
        if col + 3 > 75 then [0x3D, 0x0D, 0x0A] ++ escape b ++ encodeFrom 3 rest
        else escape b ++ encodeFrom (col + 3) rest
      else
        if col + 1 > 75 then [0x3D, 0x0D, 0x0A] ++ b :: encodeFrom 1 rest
        else b :: encodeFrom (col + 1) rest

/-- `quoted_printable_encode`, whose result is ASCII. -/
def quotedPrintableEncode (text : Str) : Bytes := encodeFrom 0 (utf8 text)

/-- `encode_text_body`. -/
def encodeTextBody (text : Str) : TextTransferEncoding → Bytes
  | .sevenBit => utf8 text
  | .quotedPrintable => quotedPrintableEncode text

/-- `decode_quoted_printable`. -/
def decodeQuotedPrintable : Bytes → Bytes
  | b :: c :: d :: rest =>
      if b = 0x3D then
        if c = 0x0D ∧ d = 0x0A then decodeQuotedPrintable rest
        else if c = 0x0A then decodeQuotedPrintable (d :: rest)
        else
          match hexPair c d with
          | some octet => octet :: decodeQuotedPrintable rest
          | none => b :: decodeQuotedPrintable (c :: d :: rest)
      else b :: decodeQuotedPrintable (c :: d :: rest)
  | short => short

/-! ## One line -/

/-- A byte as the encoder writes it. -/
def token (b : UInt8) : Bytes := if needsEncoding b then escape b else [b]

/-- A line between the soft breaks that the encoder makes in it, `col` columns behind the last one. -/
def parts : Nat → Bytes → List Bytes
  | _, [] => [[]]
  | col, b :: line =>
      if col + (token b).length > 75 then [] :: (parts (token b).length line).modifyHead (b :: ·)
      else (parts (col + (token b).length) line).modifyHead (b :: ·)

/-- A line of encoded text. -/
def encodeLine (line : Bytes) : List Bytes := withSoft ((parts 0 line).map (·.flatMap token))

theorem parts_ne_nil (col : Nat) (line : Bytes) : parts col line ≠ [] := by
  induction line generalizing col with
  | nil => simp [parts]
  | cons b line ih =>
      rw [parts]
      split
      · simp
      · simpa using ih _

theorem encodeLine_ne_nil (line : Bytes) : encodeLine line ≠ [] :=
  withSoft_ne_nil (by simpa using parts_ne_nil 0 line)

theorem encodeLines_ne_nil {lines : List Bytes} (h : lines ≠ []) : lines.flatMap encodeLine ≠ [] := by
  obtain ⟨line, more, rfl⟩ := List.exists_cons_of_ne_nil h
  rw [List.flatMap_cons]
  exact List.append_ne_nil_of_left_ne_nil (encodeLine_ne_nil line) _

/-- A byte in front of a line goes to the first part, or a soft break comes first. -/
theorem parts_cons (col : Nat) (b : UInt8) (line : Bytes) :
    ∃ part more,
      (75 < col + (token b).length ∧ parts (token b).length line = part :: more ∧
        parts col (b :: line) = [] :: (b :: part) :: more) ∨
      (col + (token b).length ≤ 75 ∧ parts (col + (token b).length) line = part :: more ∧
        parts col (b :: line) = (b :: part) :: more) := by
  by_cases hlong : col + (token b).length > 75
  · obtain ⟨part, more, heq⟩ := List.exists_cons_of_ne_nil (parts_ne_nil (token b).length line)
    refine ⟨part, more, .inl ⟨hlong, heq, ?_⟩⟩
    rw [parts, if_pos hlong, heq, List.modifyHead_cons]
  · obtain ⟨part, more, heq⟩ := List.exists_cons_of_ne_nil (parts_ne_nil (col + (token b).length) line)
    refine ⟨part, more, .inr ⟨by omega, heq, ?_⟩⟩
    rw [parts, if_neg hlong, heq, List.modifyHead_cons]

/-- Soft breaks cut a line without losing anything. -/
theorem flatten_parts (col : Nat) (line : Bytes) : (parts col line).flatten = line := by
  induction line generalizing col with
  | nil => rfl
  | cons b line ih =>
      obtain ⟨part, more, ⟨-, heq, hparts⟩ | ⟨-, heq, hparts⟩⟩ := parts_cons col b line
      · have hline := ih (token b).length
        rw [heq, List.flatten_cons] at hline
        rw [hparts, List.flatten_cons, List.flatten_cons, List.nil_append, List.cons_append, hline]
      · have hline := ih (col + (token b).length)
        rw [heq, List.flatten_cons] at hline
        rw [hparts, List.flatten_cons, List.cons_append, hline]

/-- The last part ends where the line does. -/
theorem getLast_parts (col : Nat) (line : Bytes) :
    ∃ part, (parts col line).getLast? = some part ∧ part.getLast? = line.getLast? := by
  induction line generalizing col with
  | nil => exact ⟨[], rfl, rfl⟩
  | cons b line ih =>
      have hstep : ∀ col part more, parts col line = part :: more →
          ∃ last, ((b :: part) :: more).getLast? = some last ∧ last.getLast? = (b :: line).getLast? := by
        intro col part more heq
        obtain ⟨last, hlast, hend⟩ := ih col
        rw [heq] at hlast
        cases more with
        | nil =>
            obtain rfl : part = last := by simpa using hlast
            exact ⟨b :: part, rfl, by rw [List.getLast?_cons, List.getLast?_cons, hend]⟩
        | cons next more =>
            refine ⟨last, by rwa [List.getLast?_cons_cons] at hlast ⊢, ?_⟩
            -- there is a soft break behind the byte, so the line goes on
            cases line with
            | nil => cases heq
            | cons c line => rwa [List.getLast?_cons_cons]
      obtain ⟨part, more, ⟨-, heq, hparts⟩ | ⟨-, heq, hparts⟩⟩ := parts_cons col b line
      · obtain ⟨last, hlast, hend⟩ := hstep _ _ _ heq
        exact ⟨last, by rw [hparts, List.getLast?_cons_cons, hlast], hend⟩
      · obtain ⟨last, hlast, hend⟩ := hstep _ _ _ heq
        exact ⟨last, by rw [hparts, hlast], hend⟩

theorem token_length (b : UInt8) : (token b).length ≤ 3 := by
  unfold token
  split <;> simp [escape]

/-- No part has more than 75 columns, the first one together with those in front of it. -/
theorem length_parts {col : Nat} (hcol : col ≤ 75) {line part : Bytes} {more : List Bytes}
    (h : parts col line = part :: more) :
    col + (part.flatMap token).length ≤ 75 ∧ ∀ next ∈ more, (next.flatMap token).length ≤ 75 := by
  induction line generalizing col part more with
  | nil =>
      cases h
      exact ⟨by simpa using hcol, by simp⟩
  | cons b line ih =>
      have htoken := token_length b
      obtain ⟨part', more', ⟨-, heq, hparts⟩ | ⟨hshort, heq, hparts⟩⟩ := parts_cons col b line
      · cases hparts.symm.trans h
        obtain ⟨hfirst, hmore⟩ := ih (by omega) heq
        refine ⟨by simpa using hcol, List.forall_mem_cons.mpr ⟨?_, hmore⟩⟩
        rw [List.flatMap_cons, List.length_append]
        exact hfirst
      · cases hparts.symm.trans h
        obtain ⟨hfirst, hmore⟩ := ih hshort heq
        refine ⟨?_, hmore⟩
        rw [List.flatMap_cons, List.length_append]
        omega

/-- The encoder on a line, in front of something that it writes in the same way in any column. -/
theorem encodeFrom_append {line : Bytes} (hline : 0x0D ∉ line ∧ 0x0A ∉ line) {rest out : Bytes}
    (hrest : ∀ col, encodeFrom col rest = out) (col : Nat) :
    encodeFrom col (line ++ rest) =
      joinLines (withSoft ((parts col line).map (·.flatMap token))) ++ out := by
  induction line generalizing col with
  | nil => simp [parts, withSoft, joinLines, hrest]
  | cons b line ih =>
      rw [List.mem_cons, not_or, List.mem_cons, not_or] at hline
      obtain ⟨⟨hcr, hcrs⟩, hlf, hlfs⟩ := hline
      have hencode : encodeFrom col (b :: (line ++ rest)) =
          if col + (token b).length > 75 then
            [0x3D, 0x0D, 0x0A] ++ (token b ++ encodeFrom (token b).length (line ++ rest))
          else token b ++ encodeFrom (col + (token b).length) (line ++ rest) := by
        rw [encodeFrom, if_neg (Ne.symm hlf), if_neg (Ne.symm hcr)]
        unfold token
        by_cases hneeds : needsEncoding b = true
        · rw [if_pos hneeds, if_pos hneeds]
          simp [escape]
        · rw [if_neg hneeds, if_neg hneeds]
          simp
      rw [List.cons_append, hencode]
      obtain ⟨part, more, ⟨hlong, heq, hparts⟩ | ⟨hshort, heq, hparts⟩⟩ := parts_cons col b line
      · rw [if_pos hlong, ih ⟨hcrs, hlfs⟩, heq, hparts]
        simp only [List.map_cons, List.flatMap_nil, List.flatMap_cons]
        rw [withSoft_cons [] (by simp), joinLines_cons _ (withSoft_ne_nil (by simp)),
          joinLines_withSoft_append]
        simp
      · rw [if_neg (by omega), ih ⟨hcrs, hlfs⟩, heq, hparts]
        simp only [List.map_cons, List.flatMap_cons]
        rw [joinLines_withSoft_append]
        simp

/-! ## The encoded text -/

/-- The lines of a normalized text. -/
def normalizedLines (text : Str) : List Str := (lfText text).splitOn '\n'

/-- The lines of a text hold its characters, without the line feeds. -/
theorem mem_splitOn_newline {s line : Str} (h : line ∈ s.splitOn '\n') :
    '\n' ∉ line ∧ ∀ c ∈ line, c ∈ s := by
  induction s generalizing line with
  | nil =>
      obtain rfl : line = [] := by simpa using h
      exact ⟨by simp, by simp⟩
  | cons c s ih =>
      rw [List.splitOn_cons_eq_if_modifyHead] at h
      split at h
      next =>
          rcases List.mem_cons.mp h with rfl | h
          · exact ⟨by simp, by simp⟩
          · exact ⟨(ih h).1, fun c' hc' => List.mem_cons_of_mem _ ((ih h).2 c' hc')⟩
      next hne =>
          have hc : c ≠ '\n' := by simpa using hne
          obtain ⟨first, more, heq⟩ := List.exists_cons_of_ne_nil (List.splitOn_ne_nil '\n' s)
          rw [heq] at h ih
          rcases List.mem_cons.mp h with rfl | h
          · obtain ⟨hlf, hmem⟩ := ih List.mem_cons_self
            refine ⟨by simpa [Ne.symm hc] using hlf, fun c' hc' => ?_⟩
            rcases List.mem_cons.mp hc' with rfl | hc'
            · exact List.mem_cons_self
            · exact List.mem_cons_of_mem _ (hmem c' hc')
          · obtain ⟨hlf, hmem⟩ := ih (List.mem_cons_of_mem _ h)
            exact ⟨hlf, fun c' hc' => List.mem_cons_of_mem _ (hmem c' hc')⟩

/-- A normalized text is its lines with CRLF between them. -/
theorem utf8_normalizeTextToCrlf (text : Str) :
    utf8 (normalizeTextToCrlf text) = joinLines ((normalizedLines text).map utf8) := by
  unfold normalizeTextToCrlf normalizedLines
  induction lfText text with
  | nil => rfl
  | cons c s ih =>
      rw [List.flatMap_cons, List.splitOn_cons_eq_if_modifyHead, utf8_append, ih]
      obtain ⟨first, more, heq⟩ := List.exists_cons_of_ne_nil (List.splitOn_ne_nil '\n' s)
      by_cases hc : c = '\n'
      · subst hc
        rw [if_pos rfl, if_pos (by simp), List.map_cons, joinLines_cons _ (by simp [heq])]
        rfl
      · have hfront : ∀ (front : Bytes) (lines : List Bytes),
            joinLines ((front ++ utf8 first) :: lines) = front ++ joinLines (utf8 first :: lines) := by
          intro front lines
          cases lines with
          | nil => rfl
          | cons line lines => simp [joinLines]
        rw [if_neg hc, if_neg (by simpa using hc), heq, List.modifyHead_cons, List.map_cons,
          List.map_cons, utf8_cons, utf8_cons, utf8_nil, List.append_nil, hfront]

/-- There is no line break in a line. -/
theorem noBreak_of_mem {text line : Str} (h : line ∈ normalizedLines text) :
    0x0D ∉ utf8 line ∧ 0x0A ∉ utf8 line := by
  obtain ⟨hlf, hmem⟩ := mem_splitOn_newline h
  have hcr : '\r' ∉ line := by
    intro hc
    obtain ⟨c, -, hc⟩ := List.mem_map.mp (hmem _ hc)
    split at hc
    · cases hc
    · contradiction
  have hnot : ∀ c : Char, c.toNat < 0x80 → c ∉ line → UInt8.ofNat c.toNat ∉ utf8 line := by
    intro c hlt hc hmem
    obtain ⟨d, hd, hmem⟩ := List.mem_flatMap.mp hmem
    have hascii : UInt8.ofNat c.toNat < 0x80 := by
      rw [UInt8.lt_iff_toNat_lt, UInt8.toNat_ofNat']
      exact lt_of_le_of_lt (Nat.mod_le _ _) hlt
    have heq := utf8EncodeChar_eq_of_mem_ascii hmem hascii
    rw [← utf8EncodeChar_ascii hlt] at heq
    have hcd := utf8EncodeChar_append_inj (congrArg (· ++ ([] : Bytes)) heq)
    exact hc (hcd.1 ▸ hd)
  exact ⟨hnot '\r' (by decide) hcr, hnot '\n' (by decide) hlf⟩

theorem normalizedLines_ne_nil (text : Str) : (normalizedLines text).map utf8 ≠ [] :=
  fun h => List.splitOn_ne_nil '\n' (lfText text) (List.map_eq_nil_iff.mp h)

theorem noBreak_normalizedLines (text : Str) :
    ∀ line ∈ (normalizedLines text).map utf8, 0x0D ∉ line ∧ 0x0A ∉ line := by
  intro line hline
  obtain ⟨line, hmem, rfl⟩ := List.mem_map.mp hline
  exact noBreak_of_mem hmem

theorem breakLines_normalizeTextToCrlf (text : Str) :
    breakLines (utf8 (normalizeTextToCrlf text)) = (normalizedLines text).map utf8 := by
  rw [utf8_normalizeTextToCrlf, breakLines_joinLines (normalizedLines_ne_nil text)]
  exact fun line hline => (noBreak_normalizedLines text line hline).1

/-- **An encoded text as lines.** -/
theorem quotedPrintableEncode_normalized (text : Str) :
    quotedPrintableEncode (normalizeTextToCrlf text) =
      joinLines (((normalizedLines text).map utf8).flatMap encodeLine) := by
  have hbreaks := noBreak_normalizedLines text
  rw [quotedPrintableEncode, utf8_normalizeTextToCrlf, joinLines_flatMap _ encodeLine_ne_nil]
  generalize (normalizedLines text).map utf8 = lines at hbreaks
  induction lines with
  | nil => rfl
  | cons line lines ih =>
      rw [List.forall_mem_cons] at hbreaks
      cases lines with
      | nil =>
          have hline := @encodeFrom_append line hbreaks.1 [] [] (fun _ => rfl) 0
          rwa [List.append_nil, List.append_nil] at hline
      | cons next lines =>
          rw [joinLines_cons line (List.cons_ne_nil next lines), List.append_assoc, List.map_cons,
            joinLines_cons (joinLines (encodeLine line)) (by simp), List.append_assoc, ← ih hbreaks.2]
          exact encodeFrom_append hbreaks.1 (fun _ => by simp [encodeFrom]) 0

/-! ## Reading it back -/

/-- What holds of the numbers below 256 holds of the bytes. -/
theorem forall_uint8 {P : UInt8 → Prop} (h : ∀ n : Fin 256, P (UInt8.ofNat n.val)) (b : UInt8) : P b := by
  have hb := h ⟨b.toNat, b.toNat_lt⟩
  rwa [UInt8.ofNat_toNat] at hb

/-- A byte that is not escaped is printable, and not the equals sign. -/
theorem plain_of_not_needsEncoding (b : UInt8) :
    ¬ needsEncoding b = true → (0x20 ≤ b ∧ b ≤ 0x7E) ∧ b ≠ 0x3D ∧ (isBlank b = true ↔ b = 0x20) := by
  revert b
  refine forall_uint8 ?_
  decide +kernel

/-- A printable byte behind the space is no white space. -/
theorem isBlank_of_printable (b : UInt8) :
    0x21 ≤ b ∧ b ≤ 0x7E ∧ b ≠ 0x3D → (0x20 ≤ b ∧ b ≤ 0x7E) ∧ isBlank b = false := by
  revert b
  refine forall_uint8 ?_
  decide +kernel

/-- What the encoder writes for a byte is printable, and only a space is written as white space. -/
theorem mem_token {b x : UInt8} (h : x ∈ token b) :
    (0x20 ≤ x ∧ x ≤ 0x7E) ∧ (isBlank x = true → b = 0x20) := by
  unfold token at h
  split at h
  next =>
      have hhigh := isBlank_of_printable _
        (hexDigit_printable (n := b.toNat / 16) (by have := b.toNat_lt; omega))
      have hlow := isBlank_of_printable _ (hexDigit_printable (n := b.toNat % 16) (by omega))
      have hequals : isBlank 0x3D = false := by decide
      rcases List.mem_cons.mp h with rfl | h
      · exact ⟨by decide, by simp [hequals]⟩
      · rcases List.mem_cons.mp h with rfl | h
        · exact ⟨hhigh.1, by simp [hhigh.2]⟩
        · obtain rfl := List.mem_singleton.mp h
          exact ⟨hlow.1, by simp [hlow.2]⟩
  next hneeds =>
      obtain rfl := List.mem_singleton.mp h
      obtain ⟨hprint, -, hblank⟩ := plain_of_not_needsEncoding x hneeds
      exact ⟨hprint, hblank.mp⟩

/-- It ends in a byte other than the equals sign. -/
theorem getLast_token (b : UInt8) : ∃ x, (token b).getLast? = some x ∧ x ≠ 0x3D ∧
    (isBlank x = true ↔ b = 0x20) := by
  unfold token
  split
  next hneeds =>
      have hlow := hexDigit_printable (n := b.toNat % 16) (by omega)
      refine ⟨hexDigit (b.toNat % 16), rfl, hlow.2.2, ?_⟩
      rw [(isBlank_of_printable _ hlow).2]
      refine iff_of_false (by simp) ?_
      rintro rfl
      exact absurd hneeds (by decide)
  next hneeds => exact ⟨b, rfl, (plain_of_not_needsEncoding b hneeds).2⟩

/-- Both decoders read a token as its byte. -/
theorem unescape_token (b : UInt8) (rest : Bytes) : unescape (token b ++ rest) = b :: unescape rest := by
  unfold token
  split
  next => exact unescape_escape b rest
  next hneeds => exact unescape_cons (plain_of_not_needsEncoding b hneeds).2.1 rest

theorem decodeQuotedPrintable_cons {b : UInt8} (h : b ≠ 0x3D) (rest : Bytes) :
    decodeQuotedPrintable (b :: rest) = b :: decodeQuotedPrintable rest := by
  match rest with
  | [] => rfl
  | [_] => rfl
  | _ :: _ :: _ => rw [decodeQuotedPrintable, if_neg h]

theorem decodeQuotedPrintable_token (b : UInt8) (rest : Bytes) :
    decodeQuotedPrintable (token b ++ rest) = b :: decodeQuotedPrintable rest := by
  unfold token
  split
  next =>
      have hhigh := (hexDigit_printable (n := b.toNat / 16) (by have := b.toNat_lt; omega)).1
      have hcr : hexDigit (b.toNat / 16) ≠ 0x0D := by
        intro heq
        rw [heq] at hhigh
        exact absurd hhigh (by decide)
      have hlf : hexDigit (b.toNat / 16) ≠ 0x0A := by
        intro heq
        rw [heq] at hhigh
        exact absurd hhigh (by decide)
      show decodeQuotedPrintable (0x3D :: hexDigit _ :: hexDigit _ :: rest) = _
      rw [decodeQuotedPrintable, if_pos rfl, if_neg (fun h => hcr h.1), if_neg hlf, hexPair_escape]
  next hneeds => exact decodeQuotedPrintable_cons (plain_of_not_needsEncoding b hneeds).2.1 rest

theorem unescape_tokens (part : Bytes) : unescape (part.flatMap token) = part := by
  induction part with
  | nil => rfl
  | cons b part ih => rw [List.flatMap_cons, unescape_token, ih]

theorem decodeQuotedPrintable_tokens (part rest : Bytes) :
    decodeQuotedPrintable (part.flatMap token ++ rest) = part ++ decodeQuotedPrintable rest := by
  induction part with
  | nil => rfl
  | cons b part ih => rw [List.flatMap_cons, List.append_assoc, decodeQuotedPrintable_token, ih,
      List.cons_append]

/-- The decoder of the source joins soft breaks. -/
theorem decodeQuotedPrintable_parts {pieces : List Bytes} (hne : pieces ≠ []) (rest : Bytes) :
    decodeQuotedPrintable (joinLines (withSoft (pieces.map (·.flatMap token))) ++ rest) =
      pieces.flatten ++ decodeQuotedPrintable rest := by
  induction pieces with
  | nil => exact absurd rfl hne
  | cons piece pieces ih =>
      cases pieces with
      | nil => simpa [withSoft, joinLines] using decodeQuotedPrintable_tokens piece rest
      | cons next pieces =>
          have hmap : (next :: pieces).map (·.flatMap token) ≠ [] := by simp
          rw [List.map_cons, withSoft_cons _ hmap, joinLines_cons _ (withSoft_ne_nil hmap),
            List.append_assoc, List.append_assoc, List.append_assoc, decodeQuotedPrintable_tokens]
          have hsoft : ∀ tail, decodeQuotedPrintable ([0x3D] ++ ([0x0D, 0x0A] ++ tail)) =
              decodeQuotedPrintable tail := by
            intro tail
            show decodeQuotedPrintable (0x3D :: 0x0D :: 0x0A :: tail) = decodeQuotedPrintable tail
            rw [decodeQuotedPrintable, if_pos rfl, if_pos ⟨rfl, rfl⟩]
          have hflat : (piece :: next :: pieces).flatten = piece ++ (next :: pieces).flatten := rfl
          rw [hsoft, ih (by simp), hflat, List.append_assoc]

/-- The decoder of the source reads lines back. -/
theorem decodeQuotedPrintable_lines {lines : List Bytes} :
    decodeQuotedPrintable (joinLines (lines.flatMap encodeLine)) = joinLines lines := by
  rw [joinLines_flatMap _ encodeLine_ne_nil]
  induction lines with
  | nil => rfl
  | cons line lines ih =>
      have hline : ∀ rest, decodeQuotedPrintable (joinLines (encodeLine line) ++ rest) =
          line ++ decodeQuotedPrintable rest := by
        intro rest
        rw [encodeLine, decodeQuotedPrintable_parts (parts_ne_nil 0 line), flatten_parts]
      have hbreak : ∀ tail, decodeQuotedPrintable ([0x0D, 0x0A] ++ tail) =
          [0x0D, 0x0A] ++ decodeQuotedPrintable tail := by
        intro tail
        show decodeQuotedPrintable (0x0D :: 0x0A :: tail) = 0x0D :: 0x0A :: decodeQuotedPrintable tail
        rw [decodeQuotedPrintable_cons (by decide), decodeQuotedPrintable_cons (by decide)]
      cases lines with
      | nil =>
          have hlast := hline []
          rw [List.append_nil] at hlast
          show decodeQuotedPrintable (joinLines (encodeLine line)) = line
          rw [hlast]
          exact List.append_nil line
      | cons next lines =>
          rw [List.map_cons, joinLines_cons _ (by simp), joinLines_cons line (by simp),
            List.append_assoc, hline, hbreak, ih, List.append_assoc]

/-- A line of encoded text is printable. -/
theorem encodeLine_printable {lines : List Bytes} {line : Bytes} (h : line ∈ lines.flatMap encodeLine) :
    ∀ b ∈ line, 0x20 ≤ b ∧ b ≤ 0x7E := by
  intro b hb
  obtain ⟨source, -, hline⟩ := List.mem_flatMap.mp h
  obtain ⟨piece, hpiece, heq⟩ := mem_withSoft hline
  obtain ⟨part, -, rfl⟩ := List.mem_map.mp hpiece
  have htoken : b ∈ part.flatMap token ∨ b = 0x3D := by
    rcases heq with rfl | ⟨rfl, -⟩
    · simpa using hb
    · exact .inl hb
  rcases htoken with hpart | rfl
  · obtain ⟨x, -, hx⟩ := List.mem_flatMap.mp hpart
    exact (mem_token hx).1
  · decide

/-- The last piece of a line that does not end in a space ends in a visible byte. -/
theorem lastPiece_visible {line : Bytes} (h : line.getLast? ≠ some 0x20) :
    ∀ piece ∈ ((parts 0 line).map (·.flatMap token)).getLast?,
      ∀ b ∈ piece.getLast?, isBlank b = false ∧ b ≠ 0x3D := by
  intro piece hpiece b hb
  obtain ⟨part, hpart, hend⟩ := getLast_parts 0 line
  rw [List.getLast?_map, hpart] at hpiece
  obtain rfl : part.flatMap token = piece := by simpa using hpiece
  rcases List.eq_nil_or_concat part with rfl | ⟨front, x, rfl⟩
  · cases hb
  · rw [List.concat_eq_append] at hb hend
    obtain ⟨y, hy, hne, hblank⟩ := getLast_token x
    rw [List.flatMap_append, List.flatMap_singleton, List.getLast?_append, hy] at hb
    obtain rfl : y = b := by simpa using hb
    refine ⟨?_, hne⟩
    rw [← Bool.not_eq_true, hblank]
    rintro rfl
    rw [List.getLast?_concat] at hend
    exact h hend.symm

/-- A space at the end of a line is written as it is. -/
theorem space_mem_encodeLine {line : Bytes} (h : line.getLast? = some 0x20) :
    ∃ encoded ∈ encodeLine line, encoded.getLast? = some 0x20 := by
  obtain ⟨part, hpart, hend⟩ := getLast_parts 0 line
  have hpiece : ((parts 0 line).map (·.flatMap token)).getLast? = some (part.flatMap token) := by
    rw [List.getLast?_map, hpart, Option.map_some]
  refine ⟨part.flatMap token, getLast_mem_withSoft hpiece, ?_⟩
  rw [h] at hend
  rcases List.eq_nil_or_concat part with rfl | ⟨front, x, rfl⟩
  · cases hend
  · rw [List.concat_eq_append] at hend ⊢
    obtain rfl : x = 0x20 := by simpa using hend
    rw [List.flatMap_append, List.flatMap_singleton, List.getLast?_append]
    rfl

/-- No line of encoded text has more than 76 columns. -/
theorem length_encodeLine {line encoded : Bytes} (h : encoded ∈ encodeLine line) : encoded.length ≤ 76 := by
  obtain ⟨part, more, heq⟩ := List.exists_cons_of_ne_nil (parts_ne_nil 0 line)
  obtain ⟨hfirst, hmore⟩ := length_parts (by omega) heq
  obtain ⟨piece, hpiece, hencoded⟩ := mem_withSoft h
  have hpiece : piece.length ≤ 75 := by
    rw [heq, List.map_cons] at hpiece
    rcases List.mem_cons.mp hpiece with rfl | hpiece
    · omega
    · obtain ⟨next, hnext, rfl⟩ := List.mem_map.mp hpiece
      exact hmore next hnext
  rcases hencoded with rfl | ⟨rfl, -⟩
  · rw [List.length_append, List.length_singleton]
    omega
  · omega

/-- The white space at the end of an encoded part is that of the part, which ends in no equals sign. -/
theorem rdropWhile_tokens (part : Bytes) :
    (part.flatMap token).rdropWhile isBlank = (part.rdropWhile (· == 0x20)).flatMap token ∧
      ((part.flatMap token).rdropWhile isBlank).getLast? ≠ some 0x3D := by
  induction part using List.reverseRecOn with
  | nil => exact ⟨rfl, by decide⟩
  | append_singleton part b ih =>
      obtain ⟨x, hx, hne, hblank⟩ := getLast_token b
      obtain ⟨front, hfront⟩ := List.getLast?_eq_some_iff.mp hx
      rw [List.flatMap_append, List.flatMap_singleton, hfront]
      by_cases hb : b = 0x20
      · -- a space is written as it is, so it goes on both sides
        have hone : front = [] := by
          subst hb
          have htoken : token 0x20 = [0x20] := by decide
          rw [htoken] at hfront
          exact List.eq_nil_of_length_eq_zero (by simpa using (congrArg List.length hfront).symm)
        rw [hone, List.nil_append, List.rdropWhile_concat_pos _ _ _ (hblank.mpr hb),
          List.rdropWhile_concat_pos _ _ _ (by simp [hb])]
        exact ih
      · have hvisible : ¬ isBlank x = true := fun h => hb (hblank.mp h)
        rw [← List.append_assoc, List.rdropWhile_concat_neg _ _ _ hvisible,
          List.rdropWhile_concat_neg _ _ _ (by simpa using hb), List.flatMap_append,
          List.flatMap_singleton, hfront, List.append_assoc, List.getLast?_append]
        exact ⟨rfl, by simpa using hne⟩

/-- A line as RFC 2045 reads it back: the spaces at its end are lost, back to the last soft break. -/
def keptLine (line : Bytes) : Bytes :=
  (parts 0 line).dropLast.flatten ++ ((parts 0 line).getLast?.getD []).rdropWhile (· == 0x20)

/-- The parts of a line, the last of them apart. -/
theorem exists_lastPart (line : Bytes) : ∃ front last, parts 0 line = front ++ [last] ∧
    last.getLast? = line.getLast? ∧ front.flatten ++ last = line ∧
      keptLine line = front.flatten ++ last.rdropWhile (· == 0x20) := by
  obtain ⟨last, hlast, hend⟩ := getLast_parts 0 line
  obtain ⟨front, hfront⟩ := List.getLast?_eq_some_iff.mp hlast
  refine ⟨front, last, hfront, hend, ?_, ?_⟩
  · have hflat := flatten_parts 0 line
    rwa [hfront, List.flatten_append, List.flatten_singleton] at hflat
  · rw [keptLine, hfront, List.dropLast_concat, List.getLast?_concat, Option.getD_some]

theorem keptLine_eq_self {line : Bytes} (h : line.getLast? ≠ some 0x20) : keptLine line = line := by
  obtain ⟨front, last, -, hend, hline, hkept⟩ := exists_lastPart line
  have hlast : last.rdropWhile (· == 0x20) = last := by
    refine List.rdropWhile_eq_self_iff.mpr fun hne hspace => h ?_
    rw [← hend, List.getLast?_eq_some_getLast hne, eq_of_beq hspace]
  rw [hkept, hlast, hline]

/-- Of the spaces at the end of a line, one at least is lost. -/
theorem count_keptLine (line : Bytes) :
    (keptLine line).count 0x20 + (if line.getLast? = some 0x20 then 1 else 0) ≤ line.count 0x20 := by
  obtain ⟨front, last, -, hend, hline, hkept⟩ := exists_lastPart line
  have hlast : (last.rdropWhile (· == 0x20)).count 0x20 + (if last.getLast? = some 0x20 then 1 else 0) ≤
      last.count 0x20 := by
    have hle : ∀ part : Bytes, (part.rdropWhile (· == 0x20)).count 0x20 ≤ part.count 0x20 := fun part =>
      (List.rdropWhile_prefix (· == 0x20) part).sublist.count_le 0x20
    split
    next hspace =>
        obtain ⟨part, rfl⟩ := List.getLast?_eq_some_iff.mp hspace
        rw [List.rdropWhile_concat_pos _ _ _ (by rfl), List.count_append]
        have hpart := hle part
        simp only [List.count_singleton_self]
        omega
    next => exact hle last
  -- the parts in front of the last one keep their spaces
  have hcount := congrArg (List.count 0x20) hline
  rw [List.count_append] at hcount
  rw [hkept, List.count_append, ← hend]
  omega

theorem decodeLines_encodeLine (line : Bytes) (lines : List Bytes) :
    decodeLines (encodeLine line ++ lines) =
      keptLine line ++ (if lines = [] then [] else [0x0D, 0x0A] ++ decodeLines lines) := by
  obtain ⟨front, last, hparts, -, -, hkept⟩ := exists_lastPart line
  obtain ⟨htokens, hequals⟩ := rdropWhile_tokens last
  have hflat : (front.map (·.flatMap token)).flatMap unescape = front.flatten := by
    rw [List.flatMap_map]
    simp only [unescape_tokens]
    exact List.flatMap_id'
  rw [encodeLine, hparts, List.map_append, List.map_singleton, decodeLines_withSoft _ hequals, hflat,
    htokens, unescape_tokens, hkept]

/-- **What RFC 2045 reads of encoded lines.** -/
theorem decode_encodeLines {lines : List Bytes} (hne : lines ≠ []) :
    decode (joinLines (lines.flatMap encodeLine)) = joinLines (lines.map keptLine) := by
  have hcr : ∀ line ∈ lines.flatMap encodeLine, 0x0D ∉ line := fun line hline hmem =>
    absurd (encodeLine_printable hline 0x0D hmem).1 (by decide)
  rw [decode, breakLines_joinLines (encodeLines_ne_nil hne) hcr]
  clear hcr
  induction lines with
  | nil => exact absurd rfl hne
  | cons line lines ih =>
      rw [List.flatMap_cons, decodeLines_encodeLine, List.map_cons]
      cases lines with
      | nil => simp [joinLines]
      | cons next lines =>
          rw [if_neg (encodeLines_ne_nil (by simp)), ih (by simp), joinLines_cons _ (by simp),
            List.append_assoc]

/-- Lines are read back, if none of them ends in a space. -/
theorem decode_lines {lines : List Bytes} (hne : lines ≠ [])
    (hspace : ∀ line ∈ lines, line.getLast? ≠ some 0x20) :
    decode (joinLines (lines.flatMap encodeLine)) = joinLines lines := by
  rw [decode_encodeLines hne, List.map_congr_left fun line hline => keptLine_eq_self (hspace line hline),
    List.map_id']

/-- A space is lost, if a line ends in one. -/
theorem count_decode_lines {lines : List Bytes} (h : ∃ line ∈ lines, line.getLast? = some 0x20) :
    (decode (joinLines (lines.flatMap encodeLine))).count 0x20 < (joinLines lines).count 0x20 := by
  obtain ⟨line, hline, hspace⟩ := h
  rw [decode_encodeLines (List.ne_nil_of_mem hline)]
  have hcount : ∀ lines : List Bytes, (joinLines lines).count 0x20 = (lines.map (·.count 0x20)).sum := by
    intro lines
    induction lines with
    | nil => rfl
    | cons line lines ih =>
        cases lines with
        | nil => simp [joinLines]
        | cons next lines =>
            rw [joinLines_cons line (by simp), List.count_append, List.count_append, ih]
            simp
  rw [hcount, hcount, List.map_map]
  refine List.sum_lt_sum _ _ (fun line _ => ?_) ⟨line, hline, ?_⟩
  · exact le_trans (Nat.le_add_right _ _) (count_keptLine line)
  · have hlost := count_keptLine line
    rw [if_pos hspace] at hlost
    exact hlost

/-! ## Lines of a text sent as it is -/

/-- A line of at most 998 bytes does not stop the loop. -/
theorem hasLongLineFrom_append {line : Bytes} (hline : 0x0D ∉ line ∧ 0x0A ∉ line) (rest : Bytes) {col : Nat}
    (hcol : col ≤ 998) (h : hasLongLineFrom col (line ++ rest) = false) :
    col + line.length ≤ 998 ∧ hasLongLineFrom (col + line.length) rest = false := by
  induction line generalizing col with
  | nil => exact ⟨hcol, h⟩
  | cons b line ih =>
      rw [List.mem_cons, not_or, List.mem_cons, not_or] at hline
      obtain ⟨⟨hcr, hcrs⟩, hlf, hlfs⟩ := hline
      rw [List.cons_append, hasLongLineFrom, if_neg (Ne.symm hlf), if_pos (Ne.symm hcr),
        Bool.or_eq_false_iff] at h
      obtain ⟨hshort, hrest⟩ := h
      have hnext : col + 1 ≤ 998 := by simpa using hshort
      obtain ⟨hlength, hmore⟩ := ih ⟨hcrs, hlfs⟩ hnext hrest
      rw [List.length_cons, show col + (line.length + 1) = col + 1 + line.length by omega]
      exact ⟨hlength, hmore⟩

/-- `has_long_line` measures every line. -/
theorem length_le_of_not_hasLongLine {lines : List Bytes}
    (hlines : ∀ line ∈ lines, 0x0D ∉ line ∧ 0x0A ∉ line) (h : hasLongLine (joinLines lines) = false) :
    ∀ line ∈ lines, line.length ≤ 998 := by
  unfold hasLongLine at h
  induction lines with
  | nil => simp
  | cons line lines ih =>
      rw [List.forall_mem_cons] at hlines
      cases lines with
      | nil =>
          rw [joinLines, ← List.append_nil line] at h
          obtain ⟨hlength, -⟩ := hasLongLineFrom_append hlines.1 [] (by omega) h
          simpa using hlength
      | cons next lines =>
          rw [joinLines_cons line (by simp), List.append_assoc] at h
          obtain ⟨hlength, hrest⟩ := hasLongLineFrom_append hlines.1 _ (by omega) h
          have hreset : hasLongLineFrom 0 (joinLines (next :: lines)) = false := by
            simpa [hasLongLineFrom] using hrest
          refine List.forall_mem_cons.mpr ⟨by omega, ih hlines.2 hreset⟩

/-! ## What RFC 2045 asks for -/

/-- The transfer encoding of a text keeps it and stays within the limits of a mail line. -/
structure LosslessAndLegal (text : Str) : Prop where
  width : ∀ line ∈ breakLines (quotedPrintableEncode (normalizeTextToCrlf text)),
    line.length ≤ 76 ∧ ∀ b ∈ line, 0x20 ≤ b ∧ b ≤ 0x7E
  visibleEnd : ∀ line ∈ breakLines (quotedPrintableEncode (normalizeTextToCrlf text)),
    ∀ b ∈ line.getLast?, isBlank b = false
  standard : decode (quotedPrintableEncode (normalizeTextToCrlf text)) = utf8 (normalizeTextToCrlf text)
  inHouse : decodeQuotedPrintable (quotedPrintableEncode (normalizeTextToCrlf text)) =
    utf8 (normalizeTextToCrlf text)
  sevenBit : pickTransferEncoding (utf8 (normalizeTextToCrlf text)) = .sevenBit →
    ∀ line ∈ breakLines (encodeTextBody (normalizeTextToCrlf text) .sevenBit),
      line.length ≤ 998 ∧ ∀ b ∈ line, b < 0x80

/-- The lines of the encoded text. -/
theorem breakLines_quotedPrintableEncode (text : Str) :
    breakLines (quotedPrintableEncode (normalizeTextToCrlf text)) =
      ((normalizedLines text).map utf8).flatMap encodeLine := by
  rw [quotedPrintableEncode_normalized,
    breakLines_joinLines (encodeLines_ne_nil (normalizedLines_ne_nil text))]
  intro line hline hcr
  exact absurd (encodeLine_printable hline 0x0D hcr).1 (by decide)

/-- A space is one byte, at the end of a line as anywhere. -/
theorem getLast_utf8_eq_space (line : Str) : (utf8 line).getLast? = some 0x20 ↔ line.getLast? = some ' ' := by
  rcases List.eq_nil_or_concat line with rfl | ⟨front, c, rfl⟩
  · simp
  · rw [List.concat_eq_append, utf8_append, utf8_cons, utf8_nil, List.append_nil, List.getLast?_append,
      List.getLast?_concat]
    constructor
    · intro h
      have hc : (0x20 : UInt8) ∈ String.utf8EncodeChar c := by
        cases hlast : (String.utf8EncodeChar c).getLast? with
        | none => exact absurd (List.getLast?_eq_none_iff.mp hlast) String.utf8EncodeChar_ne_nil
        | some b =>
            rw [hlast] at h
            obtain rfl : b = 0x20 := by simpa using h
            exact List.mem_of_getLast? hlast
      have heq := utf8EncodeChar_eq_of_mem_ascii hc (by decide)
      have hspace : String.utf8EncodeChar ' ' = [0x20] := by decide
      rw [← hspace] at heq
      rw [(utf8EncodeChar_append_inj (congrArg (· ++ ([] : Bytes)) heq)).1]
    · rintro ⟨⟩
      rfl

/-- No line of a text ends in a space, in bytes. -/
theorem noSpaceEnd {text : Str} (h : ∀ line ∈ normalizedLines text, line.getLast? ≠ some ' ') :
    ∀ line ∈ (normalizedLines text).map utf8, line.getLast? ≠ some 0x20 := by
  intro line hline hend
  obtain ⟨line, hmem, rfl⟩ := List.mem_map.mp hline
  exact h line hmem ((getLast_utf8_eq_space line).mp hend)

/-- **The texts that RFC 2045 would read back.**  The encoder escapes a tab but leaves a space as it is, also
at the end of a line. -/
theorem losslessAndLegal_iff (text : Str) :
    LosslessAndLegal text ↔ ∀ line ∈ normalizedLines text, line.getLast? ≠ some ' ' := by
  have hlines := breakLines_quotedPrintableEncode text
  constructor
  · intro h line hline hspace
    obtain ⟨encoded, hmem, hend⟩ := space_mem_encodeLine ((getLast_utf8_eq_space line).mpr hspace)
    have hout : encoded ∈ breakLines (quotedPrintableEncode (normalizeTextToCrlf text)) := by
      rw [hlines]
      exact List.mem_flatMap.mpr ⟨utf8 line, List.mem_map_of_mem hline, hmem⟩
    exact absurd (h.visibleEnd encoded hout 0x20 hend) (by decide)
  · intro hspace
    have hbytes := noSpaceEnd hspace
    refine
      { width := ?_
        visibleEnd := ?_
        standard := ?_
        inHouse := ?_
        sevenBit := ?_ }
    · intro encoded hencoded
      rw [hlines] at hencoded
      obtain ⟨line, -, hmem⟩ := List.mem_flatMap.mp hencoded
      exact ⟨length_encodeLine hmem, encodeLine_printable hencoded⟩
    · intro encoded hencoded b hb
      rw [hlines] at hencoded
      obtain ⟨line, hline, hmem⟩ := List.mem_flatMap.mp hencoded
      obtain ⟨piece, -, rfl | ⟨rfl, hlast⟩⟩ := mem_withSoft hmem
      · rw [List.getLast?_concat] at hb
        cases hb
        decide
      · exact (lastPiece_visible (hbytes line hline) encoded hlast b hb).1
    · rw [quotedPrintableEncode_normalized, decode_lines (normalizedLines_ne_nil text) hbytes,
        utf8_normalizeTextToCrlf]
    · rw [quotedPrintableEncode_normalized, decodeQuotedPrintable_lines, utf8_normalizeTextToCrlf]
    · intro hpick line hline
      unfold pickTransferEncoding at hpick
      split at hpick
      next hplain =>
          rw [Bool.and_eq_true, Bool.not_eq_true', utf8_normalizeTextToCrlf, List.all_eq_true] at hplain
          obtain ⟨hascii, hshort⟩ := hplain
          rw [encodeTextBody, breakLines_normalizeTextToCrlf] at hline
          have hlength := length_le_of_not_hasLongLine (noBreak_normalizedLines text) hshort
          refine ⟨hlength line hline, fun b hb => ?_⟩
          simpa using hascii b (mem_joinLines hline hb)
      next => cases hpick

/-- The two spaces of a Markdown line break are lost. -/
theorem not_losslessAndLegal_hardBreak : ¬ LosslessAndLegal "é  \nb".toList := by
  intro h
  have hread := h.standard
  revert hread
  decide +kernel

end Send
end Aimx
