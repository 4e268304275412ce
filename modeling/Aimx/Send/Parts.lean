import Aimx.Send.Compose
import Aimx.Send.Wire
import Aimx.Text.Multipart

/-!
# Taking a submitted body apart

The daemon takes the text and the attachments out of the body of a SEND request, with a scanner of its own for
multipart bodies.

* `findLineStarts`, `splitMultipartBody` — the scanner;
* `decodeTextPart`, `parseAttachmentPart` — what it makes of one part;
* `extractMarkdownAndAttachments` — the whole body;
* `splitMultipartBody_write` — the parts of a body that is written as RFC 2046 says.
-/

namespace Aimx
namespace Send

open Text
open Text.Multipart (block write dashes)
open scoped Literal

/-! ## The functions of the source -/

/-- `AttachmentPart`. -/
structure AttachmentPart where
  contentType : Str
  filename : Str
  data : Bytes
  deriving DecidableEq

/-- `RawPart`. -/
structure RawPart where
  headers : Str
  body : Bytes
  deriving DecidableEq

/-- The loop of `find_line_starts`: `skip` bytes belong to the last occurrence, and `prev` is the byte in
front. -/
def findLineStartsFrom (needle : Bytes) : Nat → Option UInt8 → Nat → Bytes → List Nat
  | _, _, _, [] => []
  | skip + 1, _, i, b :: rest => findLineStartsFrom needle skip (some b) (i + 1) rest
  | 0, prev, i, b :: rest =>
      if needle.isPrefixOf (b :: rest) then
        (if prev = none ∨ prev = some 0x0A then [i] else []) ++
          findLineStartsFrom needle (needle.length - 1) (some b) (i + 1) rest
      else findLineStartsFrom needle 0 (some b) (i + 1) rest

/-- `find_line_starts`. -/
def findLineStarts (bytes needle : Bytes) : List Nat := findLineStartsFrom needle 0 none 0 bytes

/-- `trim_trailing_crlf`. -/
def trimTrailingCrlf (bytes : Bytes) : Bytes := bytes.rdropWhile fun b => b == 0x0A || b == 0x0D

/-- `parse_raw_part`. -/
def parseRawPart (bytes : Bytes) : Option RawPart :=
  match findHeaderSeparator bytes with
  | none => none
  | some (sep, sepLen) =>
      (fromUtf8 (bytes.take sep)).map fun headers => ⟨headers, bytes.drop (sep + sepLen)⟩

/-- The loop of `split_multipart_body` over neighbouring delimiters. -/
def partsBetween (bytes closeBoundary : Bytes) : List Nat → List RawPart
  | start :: stop :: more =>
      match findSubslice ((bytes.drop start).take (stop - start)) [0x0A] with
      | none => partsBetween bytes closeBoundary (stop :: more)
      | some nl =>
          if stop ≤ start + nl + 1 then partsBetween bytes closeBoundary (stop :: more)
          else
            (parseRawPart (trimTrailingCrlf
                ((bytes.drop (start + nl + 1)).take (stop - (start + nl + 1))))).toList ++
              (if closeBoundary.isPrefixOf (bytes.drop stop) then []
              else partsBetween bytes closeBoundary (stop :: more))
  | _ => []

/-- `split_multipart_body`. -/
def splitMultipartBody (body : Bytes) (boundary : Str) : List RawPart :=
  let occurrences := findLineStarts body (utf8 ("--".toList ++ boundary))
  partsBetween body (utf8 ("--".toList ++ boundary ++ "--".toList)) occurrences ++
    match occurrences with
    | [start] =>
        match findSubslice (body.drop start) [0x0A] with
        | none => []
        | some nl => (parseRawPart (trimTrailingCrlf (body.drop (start + nl + 1)))).toList
    | _ => []

/-- The value of a field if it has the name. -/
def valueOf (target line : Str) : Option Str :=
  match splitOnce ':' line with
  | none => none
  | some (n, v) => if eqIgnoreAsciiCase (trim n) target then some (trim v) else none

/-- The loop of `header_value`: the first field of the name, with its continuation lines. -/
def headerValueFrom (target : Str) : Option Str → List Str → Option Str
  | current, [] => current.bind (valueOf target)
  | current, line :: rest =>
      if isContinuation line then
        headerValueFrom target (current.map fun cur => cur ++ ' ' :: trimStart line) rest
      else
        match current.bind (valueOf target) with
        | some v => some v
        | none => headerValueFrom target (some line) rest

/-- `header_value`. -/
def headerValue (headers name : Str) : Option Str :=
  headerValueFrom (toAsciiLowercase name) none (lines headers)

/-- `extract_multipart_boundary`. -/
def extractMultipartBoundary (headers : Str) : Option Str :=
  match headerValue headers "Content-Type".toList with
  | none => none
  | some value =>
      if "multipart/".toList <:+: toAsciiLowercase value then extractQuotedParam value "boundary".toList
      else none

/-- `decode_base64`. -/
def decodeBase64 (engine : Base64.Engine) (bytes : Bytes) : Option Bytes :=
  (fromUtf8 bytes).bind fun s => engine.decode (s.filter fun c => !isWhitespace c)

/-- The bytes of a part, decoded as its header says. -/
def decodePartBody (engine : Base64.Engine) (part : RawPart) : Bytes :=
  let encoding := ((headerValue part.headers "Content-Transfer-Encoding".toList).map fun s =>
    toAsciiLowercase (trim s)).getD []
  if encoding = "base64".toList then (decodeBase64 engine part.body).getD part.body
  else if encoding = "quoted-printable".toList then decodeQuotedPrintable part.body
  else part.body

/-- `decode_text_part`. -/
def decodeTextPart (engine : Base64.Engine) (part : RawPart) : Str :=
  crlfToLf (fromUtf8Lossy (decodePartBody engine part))

/-- The first half of `split_param`. -/
def primaryValue (value : Str) : Str :=
  match splitOnce ';' (trim value) with
  | some (primary, _) => trim primary
  | none => trim value

/-- `parse_attachment_part`. -/
def parseAttachmentPart (engine : Base64.Engine) (part : RawPart) : AttachmentPart where
  contentType :=
    match headerValue part.headers "Content-Type".toList with
    | some v => primaryValue v
    | none => "application/octet-stream".toList
  filename :=
    ((extractQuotedParam ((headerValue part.headers "Content-Disposition".toList).getD [])
        "filename".toList).or
      ((headerValue part.headers "Content-Type".toList).bind fun v =>
        extractQuotedParam v "name".toList)).getD "attachment".toList
  data := decodePartBody engine part

/-- `extract_markdown_and_attachments`. -/
def extractMarkdownAndAttachments (engine : Base64.Engine) (headers : Str) (body : Bytes) :
    Str × List AttachmentPart :=
  match extractMultipartBoundary headers with
  | none => (fromUtf8Lossy body, [])
  | some boundary =>
      match splitMultipartBody body boundary with
      | [] => (fromUtf8Lossy body, [])
      | first :: rest => (decodeTextPart engine first, rest.map (parseAttachmentPart engine))

/-! ## The scanner on well-formed bodies -/

section Scan

variable {needle : Bytes}

/-- Nothing starts in a text without the needle that ends a line. -/
theorem findLineStartsFrom_line {seg : Bytes} (hneedle : 0x0A ∉ needle)
    (hfree : ¬ needle <:+: seg) (hend : seg.getLast? = some 0x0A) (prev : Option UInt8) (i : Nat)
    (rest : Bytes) :
    findLineStartsFrom needle 0 prev i (seg ++ rest) =
      findLineStartsFrom needle 0 (some 0x0A) (i + seg.length) rest := by
  induction seg generalizing prev i with
  | nil => cases hend
  | cons b seg ih =>
      have hnot : ¬ needle.isPrefixOf (b :: (seg ++ rest)) = true := by
        intro hpre
        rw [List.isPrefixOf_iff_prefix] at hpre
        rcases List.prefix_or_prefix_of_prefix hpre (List.prefix_append (b :: seg) rest) with h | h
        · exact hfree h.isInfix
        · -- the needle would go over the end of the line
          have hlf : (0x0A : UInt8) ∈ b :: seg := List.mem_of_getLast? hend
          exact hneedle (h.subset hlf)
      rw [List.cons_append, findLineStartsFrom, if_neg hnot]
      cases seg with
      | nil =>
          cases hend
          rfl
      | cons c seg =>
          have hfree' : ¬ needle <:+: c :: seg := fun h =>
            hfree (h.trans (List.suffix_cons b (c :: seg)).isInfix)
          have hend' : (c :: seg).getLast? = some 0x0A := hend
          rw [ih hfree' hend' (some b) (i + 1), List.length_cons, List.length_cons, List.length_cons]
          congr 1
          omega

/-- The rest of an occurrence is skipped. -/
theorem findLineStartsFrom_skip (front : Bytes) (prev : Option UInt8) (i : Nat) (rest : Bytes) :
    findLineStartsFrom needle front.length prev i (front ++ rest) =
      findLineStartsFrom needle 0 ((front.getLast?).or prev) (i + front.length) rest := by
  induction front generalizing prev i with
  | nil => simp
  | cons b front ih =>
      rw [List.length_cons, List.cons_append, findLineStartsFrom, ih, List.getLast?_cons, Option.some_or]
      have hor : (front.getLast?).or (some b) = some (front.getLast?.getD b) := by
        cases front.getLast? <;> rfl
      rw [hor]
      congr 1
      omega

/-- An occurrence at the start of a line. -/
theorem findLineStartsFrom_hit (hne : needle ≠ []) {prev : Option UInt8}
    (hprev : prev = none ∨ prev = some 0x0A) (i : Nat) (rest : Bytes) :
    ∃ last, findLineStartsFrom needle 0 prev i (needle ++ rest) =
      i :: findLineStartsFrom needle 0 last (i + needle.length) rest := by
  obtain ⟨b, front, rfl⟩ := List.exists_cons_of_ne_nil hne
  have hpre : (b :: front).isPrefixOf (b :: (front ++ rest)) = true := by
    rw [List.isPrefixOf_iff_prefix]
    exact List.prefix_append (b :: front) rest
  refine ⟨(front.getLast?).or (some b), ?_⟩
  rw [List.cons_append, findLineStartsFrom, if_pos hpre, if_pos hprev, List.singleton_append]
  show i :: findLineStartsFrom (b :: front) front.length (some b) (i + 1) (front ++ rest) = _
  rw [findLineStartsFrom_skip, List.length_cons]
  congr 2
  omega

/-- Where the delimiter lines of a written body begin. -/
def delimiterStarts (needle : Bytes) : Nat → List Bytes → List Nat
  | i, [] => [i]
  | i, part :: parts => i :: delimiterStarts needle (i + (block needle part).length) parts

/-- What the scanner asks of a delimiter and of the parts that it separates. -/
structure Separates (needle : Bytes) (parts : List Bytes) : Prop where
  oneLine : 0x0D ∉ needle ∧ 0x0A ∉ needle
  ne_nil : needle ≠ []
  closing : ¬ needle <:+: dashes ++ Multipart.crlf
  free : ∀ part ∈ parts, ¬ needle <:+: Multipart.crlf ++ part ++ Multipart.crlf

theorem Separates.tail {part : Bytes} {parts : List Bytes} (h : Separates needle (part :: parts)) :
    Separates needle parts :=
  { h with free := fun p hp => h.free p (List.mem_cons_of_mem part hp) }

theorem findLineStartsFrom_write {parts : List Bytes} (h : Separates needle parts) {prev : Option UInt8}
    (hprev : prev = none ∨ prev = some 0x0A) (i : Nat) :
    findLineStartsFrom needle 0 prev i (write needle parts) = delimiterStarts needle i parts := by
  induction parts generalizing prev i with
  | nil =>
      obtain ⟨last, hhit⟩ := findLineStartsFrom_hit h.ne_nil hprev i (dashes ++ Multipart.crlf)
      have hline := findLineStartsFrom_line h.oneLine.2 h.closing rfl last (i + needle.length) []
      rw [List.append_nil] at hline
      show findLineStartsFrom needle 0 prev i (needle ++ dashes ++ Multipart.crlf) = [i]
      rw [List.append_assoc, hhit, hline]
      rfl
  | cons part parts ih =>
      obtain ⟨last, hhit⟩ := findLineStartsFrom_hit h.ne_nil hprev i
        (Multipart.crlf ++ part ++ Multipart.crlf ++ write needle parts)
      have hend : (Multipart.crlf ++ part ++ Multipart.crlf).getLast? = some 0x0A := by
        rw [List.getLast?_append]
        rfl
      have hline := findLineStartsFrom_line h.oneLine.2 (h.free part (by simp)) hend last (i + needle.length)
        (write needle parts)
      have hsplit : write needle (part :: parts) =
          needle ++ (Multipart.crlf ++ part ++ Multipart.crlf ++ write needle parts) := by
        simp only [write, List.flatMap_cons, block, List.append_assoc]
      have hlength : i + needle.length + (Multipart.crlf ++ part ++ Multipart.crlf).length =
          i + (block needle part).length := by
        simp only [block, List.length_append]
        omega
      rw [hsplit, hhit, hline, ih h.tail (.inr rfl), hlength]
      rfl

/-- The first occurrence of one byte. -/
theorem findSubslice_singleton {x : UInt8} {front : Bytes} (h : x ∉ front) (rest : Bytes) :
    findSubslice (front ++ x :: rest) [x] = some front.length := by
  have hfound : (front ++ x :: rest).dropInfix? [x] = some (front, rest) := by
    refine dropInfix?_eq_some_iff'.mpr ⟨by simp, fun p s hps => ?_⟩
    by_contra hlt
    rw [List.append_assoc] at hps
    have hwhole : p ++ [x] <+: front ++ x :: rest := by
      rw [hps]
      exact ⟨s, by simp⟩
    have hlength : (p ++ [x]).length ≤ front.length := by
      rw [List.length_append, List.length_singleton]
      omega
    have hpre := List.prefix_of_prefix_length_le hwhole (List.prefix_append _ _) hlength
    exact h (hpre.subset (by simp))
  rw [findSubslice, hfound]
  rfl

/-- The line terminator behind a part belongs to the delimiter. -/
theorem trimTrailingCrlf_append (part : Bytes) :
    trimTrailingCrlf (part ++ Multipart.crlf) = trimTrailingCrlf part := by
  show List.rdropWhile _ (part ++ ([0x0D] ++ [0x0A])) = _
  rw [← List.append_assoc, List.rdropWhile_concat_pos _ _ _ rfl, List.rdropWhile_concat_pos _ _ _ rfl]
  rfl

/-- One step of the loop over the delimiters, at a line and what stands behind it. -/
theorem partsBetween_cons {line content : Bytes} (hline : 0x0A ∉ line) (hcontent : content ≠ [])
    (pre rest close : Bytes) (more : List Nat) :
    partsBetween (pre ++ (line ++ 0x0A :: content) ++ rest) close
        (pre.length :: (pre ++ (line ++ 0x0A :: content)).length :: more) =
      (parseRawPart (trimTrailingCrlf content)).toList ++
        if close.isPrefixOf rest then []
        else partsBetween (pre ++ (line ++ 0x0A :: content) ++ rest) close
          ((pre ++ (line ++ 0x0A :: content)).length :: more) := by
  have hslice : ((pre ++ (line ++ 0x0A :: content) ++ rest).drop pre.length).take
      ((pre ++ (line ++ 0x0A :: content)).length - pre.length) = line ++ 0x0A :: content := by
    rw [List.append_assoc, List.drop_left, List.length_append, Nat.add_sub_cancel_left, List.take_left]
  have hlength : (pre ++ (line ++ 0x0A :: content)).length =
      pre.length + line.length + 1 + content.length := by
    simp only [List.length_append, List.length_cons]
    omega
  have hcut : pre ++ (line ++ 0x0A :: content) ++ rest =
      (pre ++ line ++ [0x0A]) ++ (content ++ rest) := by simp
  have hinner : ((pre ++ (line ++ 0x0A :: content) ++ rest).drop (pre.length + line.length + 1)).take
      ((pre ++ (line ++ 0x0A :: content)).length - (pre.length + line.length + 1)) = content := by
    have hfront : pre.length + line.length + 1 = (pre ++ line ++ [0x0A]).length := by
      simp only [List.length_append, List.length_singleton]
    rw [hlength, Nat.add_sub_cancel_left, hcut, hfront, List.drop_left, List.take_left]
  have hpos : 0 < content.length := List.length_pos_iff.mpr hcontent
  rw [partsBetween, hslice, findSubslice_singleton hline]
  dsimp only
  rw [if_neg (by omega), hinner, List.drop_left]

/-- **The scanner finds the parts of a written body**, without the line terminators at their ends; it drops
those that have no empty line then. -/
theorem partsBetween_write {parts : List Bytes} (h : Separates needle parts) (pre : Bytes) :
    partsBetween (pre ++ write needle parts) (needle ++ dashes)
        (delimiterStarts needle pre.length parts) =
      parts.filterMap fun part => parseRawPart (trimTrailingCrlf part) := by
  induction parts generalizing pre with
  | nil => rfl
  | cons part parts ih =>
      have hblock : block needle part = (needle ++ [0x0D]) ++ 0x0A :: (part ++ Multipart.crlf) := by
        simp [block, Multipart.crlf]
      have hsplit : pre ++ write needle (part :: parts) =
          pre ++ block needle part ++ write needle parts := by
        simp only [write, List.flatMap_cons, List.append_assoc]
      have hline : (0x0A : UInt8) ∉ needle ++ [0x0D] := by
        rw [List.mem_append, not_or]
        exact ⟨h.oneLine.2, by decide⟩
      have hcontent : part ++ Multipart.crlf ≠ [] := List.append_ne_nil_of_right_ne_nil _ (by decide)
      obtain ⟨more, hmore⟩ : ∃ more, delimiterStarts needle (pre ++ block needle part).length parts =
          (pre ++ block needle part).length :: more := by
        cases parts <;> exact ⟨_, rfl⟩
      have hrec := ih h.tail (pre ++ block needle part)
      rw [hmore] at hrec
      have hstarts : delimiterStarts needle pre.length (part :: parts) =
          pre.length :: (pre ++ block needle part).length :: more := by
        rw [delimiterStarts, ← hmore, List.length_append]
      have hstep := partsBetween_cons hline hcontent pre (write needle parts) (needle ++ dashes) more
      rw [← hblock, hrec, trimTrailingCrlf_append] at hstep
      rw [hsplit, hstarts, hstep, List.filterMap_cons]
      cases parts with
      | nil =>
          -- the closing line is next
          have hclose : (needle ++ dashes).isPrefixOf (write needle []) = true := by
            rw [List.isPrefixOf_iff_prefix]
            exact List.prefix_append _ _
          rw [if_pos hclose]
          cases parseRawPart (trimTrailingCrlf part) <;> rfl
      | cons next parts =>
          have hopen : (needle ++ dashes).isPrefixOf (write needle (next :: parts)) = false := by
            rw [Bool.eq_false_iff, ne_eq, List.isPrefixOf_iff_prefix]
            intro hpre
            have hwrite : write needle (next :: parts) =
                needle ++ (0x0D :: (0x0A :: (next ++ Multipart.crlf ++ write needle parts))) := by
              simp [write, block, Multipart.crlf]
            rw [hwrite, List.prefix_append_right_inj] at hpre
            obtain ⟨rest, hrest⟩ := hpre
            cases hrest
          rw [hopen, if_neg Bool.false_ne_true]
          cases parseRawPart (trimTrailingCrlf part) <;> rfl

end Scan

/-- **The parts of a written body.** -/
theorem splitMultipartBody_write {boundary : Str} {parts : List Bytes} (hne : parts ≠ [])
    (h : Separates (utf8 ("--".toList ++ boundary)) parts) :
    splitMultipartBody (write (utf8 ("--".toList ++ boundary)) parts) boundary =
      parts.filterMap fun part => parseRawPart (trimTrailingCrlf part) := by
  obtain ⟨part, parts, rfl⟩ := List.exists_cons_of_ne_nil hne
  have hstarts : findLineStarts (write (utf8 ("--".toList ++ boundary)) (part :: parts))
      (utf8 ("--".toList ++ boundary)) =
        delimiterStarts (utf8 ("--".toList ++ boundary)) 0 (part :: parts) :=
    findLineStartsFrom_write h (.inl rfl) 0
  have hparts := partsBetween_write h []
  have hclose : utf8 ("--".toList ++ boundary ++ "--".toList) =
      utf8 ("--".toList ++ boundary) ++ dashes := by
    rw [utf8_append]
    rfl
  rw [List.nil_append, List.length_nil] at hparts
  unfold splitMultipartBody
  rw [hstarts, hclose]
  dsimp only
  rw [hparts]
  -- there are at least two delimiters
  have hmany : ∃ stop more, delimiterStarts (utf8 ("--".toList ++ boundary)) 0 (part :: parts) =
      0 :: stop :: more := by
    cases parts <;> exact ⟨_, _, rfl⟩
  obtain ⟨stop, more, hmany⟩ := hmany
  rw [hmany, List.append_nil]

end Send
end Aimx
