import Aimx.Send.Headers
import Mathlib.Data.List.Infix

/-!
# Assembling the outgoing message

The byte side of SEND: the separator between header block and body, the injection of a `Message-ID`
field, the removal of the content fields, and the assembly of the message that is signed.  The MIME
body (multipart parsing, signature, Markdown rendering, encodings) is a parameter, `Mime`.

* `splitHeadersBody` — the boundary used to build the message, on text in `splitHeadersBody_utf8`;
* `cutSeparator` — the same boundary as a cut of the text;
* `assembleWireMessage` — the message, with its header lines in `lines_wire`;
* `wireFields_eq` — the fields of the message that are not content fields are those of its request.
-/

namespace Aimx
namespace Send

open Text

/-! ## Identifiers -/

/-- A hexadecimal digit, as the library `uuid` writes it. -/
def IsHexDigit (c : Char) : Prop := ∃ d : Fin 16, c = Nat.digitChar d.val

/-- A random UUID: its hyphen-free form of 32 digits, and its hyphenated form. -/
structure Uuid where
  simple : Str
  hyphenated : Str
  length : simple.length = 32
  digits : ∀ c ∈ simple, IsHexDigit c
  hyphens : ∀ c ∈ hyphenated, c = '-' ∨ IsHexDigit c
  ne_nil : hyphenated ≠ []

/-- A UUID of one digit, the last one of a number. -/
def Uuid.repeated (n : Nat) : Uuid where
  simple := List.replicate 32 (Nat.digitChar (n % 16))
  hyphenated := ['-'].intercalate
    ([8, 4, 4, 4, 12].map fun k => List.replicate k (Nat.digitChar (n % 16)))
  length := List.length_replicate
  digits := fun _ hc => ⟨⟨n % 16, Nat.mod_lt n (by decide)⟩, List.eq_of_mem_replicate hc⟩
  hyphens := by
    intro c hc
    have hmem : c = '-' ∨ c = Nat.digitChar (n % 16) := by
      simp [List.intercalate, List.intersperse] at hc
      tauto
    exact hmem.imp_right fun h => ⟨⟨n % 16, Nat.mod_lt n (by decide)⟩, h⟩
  ne_nil := by simp [List.intercalate, List.intersperse]

/-- `make_boundary`. -/
def makeBoundary (u : Uuid) : Str := "aimx-".toList ++ u.simple

/-! ## The separator -/

/-- `find_subslice`, for a needle that is not empty. -/
def findSubslice (haystack needle : Bytes) : Option Nat :=
  (haystack.dropInfix? needle).map fun p => p.1.length

/-- `find_header_separator`: the place and the length of the separator; one of four bytes is
preferred wherever it is. -/
def findHeaderSeparator (input : Bytes) : Option (Nat × Nat) :=
  match findSubslice input (utf8 "\r\n\r\n".toList) with
  | some idx => some (idx, 4)
  | none =>
      match findSubslice input (utf8 "\n\n".toList) with
      | some idx => some (idx, 2)
      | none => none

/-- `MAX_HEADER_BLOCK_BYTES`. -/
def maxHeaderBlockBytes : Nat := 64 * 1024

/-- `AssembleError`. -/
inductive AssembleError
  | missingHeaderSeparator
  | headerBlockTooLarge
  | bodyTooLarge
  deriving DecidableEq

/-- The texts of `AssembleError`. -/
def AssembleError.display : AssembleError → Str
  | .missingHeaderSeparator =>
      "outbound request body has no header/body separator (expected blank line)".toList
  | .headerBlockTooLarge => "outbound request header block is too large".toList
  | .bodyTooLarge => ("markdown body exceeds 5 MiB; use --html-body for pre-rendered large documents " ++
      "or --attachment for sending the document as a file").toList

/-- `split_headers_body`. -/
def splitHeadersBody (input : Bytes) : Except AssembleError (Str × Bytes) :=
  match findHeaderSeparator input with
  | none => .error .missingHeaderSeparator
  | some (sepIdx, sepLen) =>
      if maxHeaderBlockBytes < sepIdx then .error .headerBlockTooLarge
      else
        match fromUtf8 (input.take sepIdx) with
        | none => .error .missingHeaderSeparator
        | some headers => .ok (headers, input.drop (sepIdx + sepLen))

/-! ## Header lines -/

/-- `inject_message_id_header`: the new field goes first, with the terminator that the body uses. -/
def injectMessageIdHeader (body : Bytes) (messageId : Str) : Bytes :=
  let terminator := if utf8 "\r\n".toList <:+: body.take 1025 then "\r\n".toList else "\n".toList
  utf8 ("Message-ID: ".toList ++ messageId ++ terminator) ++ body

/-- The fields that describe the content; they are written anew. -/
def contentFieldNames : List Str :=
  ["content-type".toList, "content-transfer-encoding".toList, "mime-version".toList]

/-- The decision of `strip_outgoing_content_headers` about a line that is no continuation. -/
def keepsField (line : Str) : Bool :=
  match splitOnce ':' line with
  | some (n, _) => !contentFieldNames.contains (toAsciiLowercase (trim n))
  | none => true

/-- The lines that `strip_outgoing_content_headers` keeps; a continuation goes with its field. -/
def keepLines : Bool → List Str → List Str
  | _, [] => []
  | keepCurrent, line :: rest =>
      let keepCurrent := if isContinuation line then keepCurrent else keepsField line
      if keepCurrent then line :: keepLines keepCurrent rest else keepLines keepCurrent rest

/-- Lines, each with a CRLF. -/
def emitLines (ls : List Str) : Str := ls.flatMap fun line => line ++ "\r\n".toList

/-- `strip_outgoing_content_headers`. -/
def stripOutgoingContentHeaders (headers : Str) : Str :=
  emitLines (keepLines true (lines headers))

/-- `TextTransferEncoding`. -/
inductive TextTransferEncoding
  | sevenBit
  | quotedPrintable
  deriving DecidableEq

/-- `TextTransferEncoding::label`. -/
def TextTransferEncoding.label : TextTransferEncoding → Str
  | .sevenBit => "7bit".toList
  | .quotedPrintable => "quoted-printable".toList

/-- `build_outgoing_content_headers_for`, as lines. -/
def buildOutgoingContentHeadersFor (textOnly noAttachments : Bool) (outerBoundary : Str)
    (textOnlyTopCte : Option TextTransferEncoding) : List Str :=
  "MIME-Version: 1.0".toList ::
    (if textOnly && noAttachments then
      "Content-Type: text/plain; charset=utf-8".toList ::
        (match textOnlyTopCte with
        | some enc => ["Content-Transfer-Encoding: ".toList ++ enc.label]
        | none => [])
    else if noAttachments then
      ["Content-Type: multipart/alternative; boundary=\"".toList ++ outerBoundary ++ ['"']]
    else
      ["Content-Type: multipart/mixed; boundary=\"".toList ++ outerBoundary ++ ['"']])

/-! ## Assembly -/

/-- The options of a SEND request that select the wire shape. -/
structure WireShape where
  signature : Str
  textOnly : Bool
  htmlBody : Option Bytes

/-- What the MIME half of the assembly makes of a body section: whether it found attachments, the
encoding of the text, and the bytes of the new body. -/
structure MimeBody where
  noAttachments : Bool
  encoding : TextTransferEncoding
  body : Bytes

/-- The MIME half of the assembly: parsing of multipart bodies, signature, Markdown rendering and
encoding, for a header block, a body section and the two boundaries. -/
abbrev Mime := Str → Bytes → WireShape → Str → Str → Except AssembleError MimeBody

/-- `assemble_wire_message`, with the random values of its two boundaries. -/
def assembleWireMessage (mime : Mime) (outer inner : Uuid) (requestBody : Bytes)
    (shape : WireShape) : Except AssembleError Bytes :=
  match splitHeadersBody requestBody with
  | .error e => .error e
  | .ok (originalHeaders, bodySection) =>
      match mime originalHeaders bodySection shape (makeBoundary outer) (makeBoundary inner) with
      | .error e => .error e
      | .ok m =>
          let cte := if shape.textOnly && m.noAttachments then some m.encoding else none
          let contentHeaders := emitLines
            (buildOutgoingContentHeadersFor shape.textOnly m.noAttachments (makeBoundary outer) cte)
          .ok (utf8 (stripOutgoingContentHeaders originalHeaders ++ contentHeaders ++
            "\r\n".toList) ++ m.body)

/-- What is assembled was split. -/
theorem exists_split_of_assembleWireMessage {mime : Mime} {outer inner : Uuid} {body wire : Bytes}
    {shape : WireShape} (h : assembleWireMessage mime outer inner body shape = .ok wire) :
    ∃ headers bodySection, splitHeadersBody body = .ok (headers, bodySection) := by
  unfold assembleWireMessage at h
  split at h
  next => cases h
  next headers bodySection hsplit => exact ⟨headers, bodySection, hsplit⟩

/-! ## The boundary on text -/

/-- The separator on text: the text before it, one of its two line terminators, and the text after
it. -/
def cutSeparator (s : Str) : Option (Str × Str × Str) :=
  match s.dropInfix? "\r\n\r\n".toList with
  | some (headers, rest) => some (headers, "\r\n".toList, rest)
  | none =>
      match s.dropInfix? "\n\n".toList with
      | some (headers, rest) => some (headers, "\n".toList, rest)
      | none => none

/-- The halves of a separator. -/
def IsTerminator (term : Str) : Prop := term = "\r\n".toList ∨ term = "\n".toList

/-- The cut is around a doubled terminator. -/
theorem cutSeparator_eq_some {s headers term rest : Str}
    (h : cutSeparator s = some (headers, term, rest)) :
    IsTerminator term ∧ s = headers ++ (term ++ term) ++ rest := by
  unfold cutSeparator at h
  split at h
  next headers' rest' hfound =>
      cases h
      exact ⟨Or.inl rfl, (dropInfix?_eq_some_iff'.mp hfound).1⟩
  next =>
      split at h
      next headers' rest' hfound =>
          cases h
          exact ⟨Or.inr rfl, (dropInfix?_eq_some_iff'.mp hfound).1⟩
      next => cases h

/-- A search in an encoded text, as `find_subslice` reports it. -/
theorem findSubslice_utf8 (s n : Str) {c : Char} (hc : c.toNat < 0x80) :
    findSubslice (utf8 s) (utf8 (c :: n)) =
      (s.dropInfix? (c :: n)).map fun p => (utf8 p.1).length := by
  unfold findSubslice
  rw [dropInfix?_utf8 s n hc]
  cases s.dropInfix? (c :: n) <;> rfl

/-- The separator of an encoded text is that of the text. -/
theorem findHeaderSeparator_utf8 (s : Str) :
    findHeaderSeparator (utf8 s) =
      (cutSeparator s).map fun p => ((utf8 p.1).length, (utf8 (p.2.1 ++ p.2.1)).length) := by
  have hcrlf : findSubslice (utf8 s) (utf8 "\r\n\r\n".toList) =
      (s.dropInfix? "\r\n\r\n".toList).map fun p => (utf8 p.1).length :=
    findSubslice_utf8 s "\n\r\n".toList (by decide)
  have hlf : findSubslice (utf8 s) (utf8 "\n\n".toList) =
      (s.dropInfix? "\n\n".toList).map fun p => (utf8 p.1).length :=
    findSubslice_utf8 s "\n".toList (by decide)
  unfold findHeaderSeparator cutSeparator
  rw [hcrlf, hlf]
  cases s.dropInfix? "\r\n\r\n".toList with
  | some p => rfl
  | none =>
      cases s.dropInfix? "\n\n".toList with
      | some p => rfl
      | none => rfl

/-- A successful split of an encoded text is the cut of the text. -/
theorem splitHeadersBody_utf8 {s headers : Str} {body : Bytes}
    (h : splitHeadersBody (utf8 s) = .ok (headers, body)) :
    ∃ term rest, cutSeparator s = some (headers, term, rest) ∧ body = utf8 rest := by
  unfold splitHeadersBody at h
  rw [findHeaderSeparator_utf8] at h
  cases hcut : cutSeparator s with
  | none =>
      rw [hcut] at h
      cases h
  | some p =>
      obtain ⟨headers', term, rest⟩ := p
      obtain ⟨-, rfl⟩ := cutSeparator_eq_some hcut
      have htake : (utf8 (headers' ++ (term ++ term) ++ rest)).take (utf8 headers').length =
          utf8 headers' := by
        rw [utf8_append, utf8_append, List.append_assoc, List.take_left]
      have hdrop : (utf8 (headers' ++ (term ++ term) ++ rest)).drop
          ((utf8 headers').length + (utf8 (term ++ term)).length) = utf8 rest := by
        rw [utf8_append _ rest, ← List.length_append, ← utf8_append headers', List.drop_left]
      have hdecode : fromUtf8 (utf8 headers') = some headers' := fromUtf8_eq_some_iff.mpr rfl
      rw [hcut, Option.map_some] at h
      dsimp only at h
      rw [htake, hdecode, hdrop] at h
      split at h
      next => cases h
      next =>
          cases h
          exact ⟨term, rest, rfl, rfl⟩

/-! ## The two boundaries -/

/-- The walk over the lines stops at the separator when no line before it is empty, and before it
otherwise. -/
theorem cutBlank_of_cutSeparator {s headers term rest : Str}
    (h : cutSeparator s = some (headers, term, rest)) :
    ([] ∉ lines (headers ++ term) → cutBlank true s = some (headers ++ term, rest)) ∧
      ([] ∈ lines (headers ++ term) →
        ∃ head rest', cutBlank true s = some (head, rest') ∧ rest.length < rest'.length) := by
  obtain ⟨hterm, hs⟩ := cutSeparator_eq_some h
  have hblank : cutBlank true (term ++ rest) = some ([], rest) := by
    rcases hterm with rfl | rfl <;> simp [cutBlank]
  obtain ⟨t, ht⟩ : ∃ t, term = t ++ ['\n'] := by
    rcases hterm with rfl | rfl
    · exact ⟨['\r'], rfl⟩
    · exact ⟨[], rfl⟩
  rw [← List.append_assoc, List.append_assoc (headers ++ term)] at hs
  constructor
  · intro hne
    have hnone : cutBlank true (headers ++ term) = none := by
      rw [← (isSome_cutBlank_iff _).1] at hne
      simpa using hne
    have hblock : headers ++ term = (headers ++ t) ++ ['\n'] := by
      rw [ht, List.append_assoc]
    rw [hblock] at hnone hs ⊢
    rw [hs, List.append_assoc, List.singleton_append, cutBlank_append_none hnone, hblank]
    rfl
  · intro hmem
    obtain ⟨⟨head, x⟩, hcut⟩ :=
      Option.isSome_iff_exists.mp ((isSome_cutBlank_iff (headers ++ term)).1.mpr hmem)
    refine ⟨head, x ++ (term ++ rest), ?_, ?_⟩
    · rw [hs]
      exact cutBlank_append_some hcut
    · have hpos : 0 < term.length := by
        rw [ht, List.length_append]
        simp
      simp only [List.length_append]
      omega

/-- A first line in front of a text that does not begin with an empty line moves the separator
along. -/
theorem cutSeparator_line_append {w s : Str} (hw : '\n' ∉ w) (hs : (lines s).head? ≠ some []) :
    cutSeparator (w ++ '\n' :: s) =
      (cutSeparator s).map fun p => (w ++ '\n' :: p.1, p.2) := by
  have hlf : ∀ r, s ≠ '\n' :: r := by
    rintro r rfl
    exact hs rfl
  have hcrlf : ∀ r, s ≠ '\r' :: '\n' :: r := by
    rintro r rfl
    exact hs rfl
  -- what is left of the line at any place still has its only line feed at the end
  have hsuffix : ∀ {p q : Str}, w ++ ['\n'] = p ++ q → q ≠ [] →
      ∃ q', q = q' ++ ['\n'] ∧ '\n' ∉ q' := by
    intro p q hpq hq
    obtain ⟨q', c, rfl⟩ := List.eq_nil_or_concat q |>.resolve_left hq
    rw [List.concat_eq_append, ← List.append_assoc] at hpq
    obtain ⟨rfl, hc⟩ := List.append_inj' hpq rfl
    refine ⟨q', by rw [List.concat_eq_append, ← hc], fun hmem => hw ?_⟩
    exact List.mem_append_right p hmem
  have hsplit : ∀ x : Str, w ++ '\n' :: x = (w ++ ['\n']) ++ x := fun x => by simp
  have hcrlfSkip : ((w ++ ['\n']) ++ s).dropInfix? "\r\n\r\n".toList =
      (s.dropInfix? "\r\n\r\n".toList).map fun r => ((w ++ ['\n']) ++ r.1, r.2) := by
    refine dropInfix?_append_left fun p q hpq hq => ?_
    obtain ⟨q', rfl, hq'⟩ := hsuffix hpq hq
    rintro ⟨x, hx⟩
    match q', hq', hx with
    | [], _, hx => exact absurd (List.cons.inj hx).1 (by decide)
    | [a], _, hx => exact hcrlf x (List.cons.inj (List.cons.inj hx).2).2.symm
    | a :: b :: q', hq', hx =>
        have hb : b = '\n' := (List.cons.inj (List.cons.inj hx).2).1.symm
        exact hq' (by simp [hb])
  have hlfSkip : ((w ++ ['\n']) ++ s).dropInfix? "\n\n".toList =
      (s.dropInfix? "\n\n".toList).map fun r => ((w ++ ['\n']) ++ r.1, r.2) := by
    refine dropInfix?_append_left fun p q hpq hq => ?_
    obtain ⟨q', rfl, hq'⟩ := hsuffix hpq hq
    rintro ⟨x, hx⟩
    match q', hq', hx with
    | [], _, hx => exact hlf x (List.cons.inj hx).2.symm
    | a :: q', hq', hx =>
        have ha : a = '\n' := (List.cons.inj hx).1.symm
        exact hq' (by simp [ha])
  unfold cutSeparator
  rw [hsplit s, hcrlfSkip, hlfSkip]
  cases s.dropInfix? "\r\n\r\n".toList with
  | some r => simp
  | none =>
      cases s.dropInfix? "\n\n".toList with
      | some r => simp
      | none => rfl

/-! ## Lines with and without their last terminator -/

/-- A terminator behind a text either adds an empty line, or ends the last line, which loses at most
a carriage return. -/
theorem lines_append_terminator {term : Str} (hterm : IsTerminator term) (h : Str) :
    lines (h ++ term) = lines h ++ [[]] ∨
      ∃ ls l, lines (h ++ term) = ls ++ [l] ∧
        (lines h = ls ++ [l] ∨ lines h = ls ++ [l ++ ['\r']]) := by
  -- the last line of the text, if it is not complete
  obtain ⟨a, w, rfl, ha, hw⟩ : ∃ a w, h = a ++ w ∧ (a = [] ∨ ∃ t, a = t ++ ['\n']) ∧ '\n' ∉ w := by
    cases hcut : rsplitOnce '\n' h with
    | none =>
        refine ⟨[], h, rfl, Or.inl rfl, ?_⟩
        unfold rsplitOnce at hcut
        rw [Option.map_eq_none_iff, splitOnce_eq_none_iff] at hcut
        simpa using hcut
    | some p =>
        obtain ⟨t, w⟩ := p
        obtain ⟨rfl, hw⟩ := rsplitOnce_eq_some_iff.mp hcut
        exact ⟨t ++ ['\n'], w, by simp, Or.inr ⟨t, rfl⟩, hw⟩
  have happend : ∀ x, lines (a ++ x) = lines a ++ lines x := by
    intro x
    rcases ha with rfl | ⟨t, rfl⟩
    · rfl
    · rw [List.append_assoc, List.singleton_append, lines_append_newline]
  rw [List.append_assoc, happend, happend w]
  by_cases hempty : w = []
  · left
    subst hempty
    rcases hterm with rfl | rfl <;> simp [lines]
  right
  rw [lines_single hw hempty]
  rcases hterm with rfl | rfl
  · have hline : lines (w ++ "\r\n".toList) = [w] := lines_crlf_cons hw []
    exact ⟨lines a, w, by rw [hline], Or.inl rfl⟩
  · by_cases hcr : w.getLast? = some '\r'
    · obtain ⟨l, rfl⟩ := List.getLast?_eq_some_iff.mp hcr
      have hl : '\n' ∉ l := fun hmem => hw (List.mem_append_left _ hmem)
      have hline : lines ((l ++ ['\r']) ++ "\n".toList) = [l] := by
        rw [List.append_assoc]
        exact lines_crlf_cons hl []
      exact ⟨lines a, l, by rw [hline], Or.inr rfl⟩
    · have hline : lines (w ++ "\n".toList) = [w] := lines_lf_cons hw hcr []
      exact ⟨lines a, w, by rw [hline], Or.inl rfl⟩

/-- The header text and the header block hold the same fields. -/
theorem fieldsOfLines_append_terminator {term : Str} (hterm : IsTerminator term) (h : Str) :
    fieldsOfLines (lines (h ++ term)) = fieldsOfLines (lines h) := by
  unfold fieldsOfLines
  rcases lines_append_terminator hterm h with hl | ⟨ls, l, hl, hl' | hl'⟩
  · rw [hl, unfoldLines_stop]
  · rw [hl, hl']
  · rw [hl, hl', fields_concat_cr]

/-- Where the walk stops at the separator, the header text has the lines that the walk read, up to a
carriage return at the end of the last one. -/
theorem map_trimEnd_lines_append_terminator {term : Str} (hterm : IsTerminator term) {h : Str}
    (hne : [] ∉ lines (h ++ term)) :
    (lines h).map trimEnd = (lines (h ++ term)).map trimEnd := by
  rcases lines_append_terminator hterm h with hl | ⟨ls, l, hl, hl' | hl'⟩
  · exact absurd (by rw [hl]; simp) hne
  · rw [hl, hl']
  · rw [hl, hl', List.map_append, List.map_append, List.map_singleton, List.map_singleton,
      trimEnd_concat_whitespace l (by decide)]

/-! ## The fields of the message -/

/-- A field that does not describe the content. -/
def notContent (f : Str × Str) : Bool := !contentFieldNames.contains f.1

/-- The fields of unfolded lines that do not describe the content. -/
def keptFields (ls : List Str) : List (Str × Str) := (ls.filterMap headerField).filter notContent

/-- A line that begins a field describing the content. -/
def IsContentLine (line : Str) : Prop :=
  ∃ n v, splitOnce ':' line = some (n, v) ∧ toAsciiLowercase (trim n) ∈ contentFieldNames

@[simp] theorem keptFields_append (a b : List Str) :
    keptFields (a ++ b) = keptFields a ++ keptFields b := by
  simp [keptFields]

/-- The lines that are not kept begin a field describing the content. -/
theorem keepsField_eq_false_iff {line : Str} : keepsField line = false ↔ IsContentLine line := by
  unfold keepsField IsContentLine
  cases splitOnce ':' line with
  | none => simp
  | some p =>
      obtain ⟨n, v⟩ := p
      simp

/-- Such a line stays one when it is continued. -/
theorem IsContentLine.append {line : Str} (h : IsContentLine line) (ext : Str) :
    IsContentLine (line ++ ext) := by
  obtain ⟨n, v, hcut, hmem⟩ := h
  obtain ⟨rfl, hn⟩ := splitOnce_eq_some_iff.mp hcut
  exact ⟨n, v ++ ext, splitOnce_eq_some_iff.mpr ⟨by simp, hn⟩, hmem⟩

theorem IsContentLine.keptFields_eq {line : Str} (h : IsContentLine line) :
    keptFields [line] = [] := by
  obtain ⟨n, v, hcut, hmem⟩ := h
  have hfield := headerField_append hcut []
  rw [List.append_nil] at hfield
  simp [keptFields, hfield, notContent, hmem]

theorem IsContentLine.ne_nil {line : Str} (h : IsContentLine line) : line ≠ [] := by
  rintro rfl
  obtain ⟨n, v, hcut, -⟩ := h
  cases hcut

/-- Leaving out the content fields leaves out nothing else. -/
theorem keptFields_keepLines (ls : List Str) :
    (∀ current, keptFields (unfoldLines current (keepLines true ls)) =
      keptFields (unfoldLines current ls)) ∧
    ∀ current line, IsContentLine line →
      keptFields (unfoldLines current (keepLines false ls)) =
        keptFields current.toList ++ keptFields (unfoldLines (some line) ls) := by
  induction ls with
  | nil =>
      refine ⟨fun _ => rfl, fun current line hline => ?_⟩
      show keptFields current.toList = keptFields current.toList ++ keptFields [line]
      rw [hline.keptFields_eq, List.append_nil]
  | cons l ls ih =>
      obtain ⟨ihKeep, ihDrop⟩ := ih
      by_cases hcont : isContinuation l = true
      · -- a continuation goes with its field
        have hne : l ≠ [] := by
          rintro rfl
          cases hcont
        refine ⟨fun current => ?_, fun current line hline => ?_⟩
        · have hkeep : keepLines true (l :: ls) = l :: keepLines true ls := by
            simp [keepLines, hcont]
          rw [hkeep, unfoldLines_cons _ _ hne, unfoldLines_cons _ _ hne, if_pos hcont, if_pos hcont,
            ihKeep]
        · have hdrop : keepLines false (l :: ls) = keepLines false ls := by
            simp [keepLines, hcont]
          rw [hdrop, unfoldLines_cons _ _ hne, if_pos hcont, Option.map_some,
            ihDrop current _ (hline.append (' ' :: trimStart l))]
      · have hcont' : isContinuation l = false := by simpa using hcont
        have hlines : ∀ b, keepLines b (l :: ls) =
            if keepsField l then l :: keepLines true ls else keepLines false ls := by
          intro b
          cases hkeeps : keepsField l <;> simp [keepLines, hcont', hkeeps]
        have hcommit : ∀ current, l ≠ [] →
            keptFields (unfoldLines current (l :: ls)) =
              keptFields current.toList ++ keptFields (unfoldLines (some l) ls) := by
          intro current hne
          rw [unfoldLines_cons _ _ hne, hcont', if_neg (by simp), keptFields_append]
        cases hkeeps : keepsField l with
        | true =>
            simp only [hlines, hkeeps, if_true]
            by_cases hempty : l = []
            · subst hempty
              refine ⟨fun _ => rfl, fun current line hline => ?_⟩
              show keptFields current.toList = keptFields current.toList ++ keptFields [line]
              rw [hline.keptFields_eq, List.append_nil]
            · have hkept : ∀ current, keptFields (unfoldLines current (l :: keepLines true ls)) =
                  keptFields current.toList ++ keptFields (unfoldLines (some l) ls) := by
                intro current
                rw [unfoldLines_cons _ _ hempty, hcont', if_neg (by simp), keptFields_append, ihKeep]
              refine ⟨fun current => by rw [hkept, hcommit current hempty],
                fun current line hline => ?_⟩
              rw [hkept, hcommit (some line) hempty, Option.toList_some, hline.keptFields_eq,
                List.nil_append]
        | false =>
            have hl := keepsField_eq_false_iff.mp hkeeps
            have hdropped : ∀ current, keptFields (unfoldLines current (keepLines false ls)) =
                keptFields current.toList ++ keptFields (unfoldLines (some l) ls) :=
              fun current => ihDrop current l hl
            simp only [hlines, hkeeps, Bool.false_eq_true, if_false]
            refine ⟨fun current => by rw [hdropped, hcommit current hl.ne_nil],
              fun current line hline => ?_⟩
            rw [hdropped, hcommit (some line) hl.ne_nil, Option.toList_some, hline.keptFields_eq,
              List.nil_append]

/-- Content lines behind a block add no other field. -/
theorem keptFields_append_content {content : List Str}
    (hcontent : ∀ line ∈ content, IsContentLine line ∧ isContinuation line = false)
    (current : Option Str) (ls : List Str) :
    keptFields (unfoldLines current (ls ++ content)) = keptFields (unfoldLines current ls) := by
  induction ls generalizing current with
  | nil =>
      show keptFields (unfoldLines current content) = keptFields current.toList
      induction content generalizing current with
      | nil => rfl
      | cons line content ih =>
          obtain ⟨hline, hcont⟩ := hcontent line List.mem_cons_self
          have hrest := ih (fun l hl => hcontent l (List.mem_cons_of_mem _ hl)) (some line)
          rw [unfoldLines_cons _ _ hline.ne_nil, hcont, if_neg (by simp), keptFields_append, hrest,
            Option.toList_some, hline.keptFields_eq, List.append_nil]
  | cons l ls ih =>
      show keptFields (unfoldLines current (l :: (ls ++ content))) = _
      by_cases hempty : l = []
      · simp [unfoldLines, hempty]
      · rw [unfoldLines_cons _ _ hempty, unfoldLines_cons _ _ hempty]
        split
        · exact ih _
        · rw [keptFields_append, keptFields_append, ih]

/-- Emitted lines are read back. -/
theorem lines_emitLines {ls : List Str} (h : ∀ l ∈ ls, '\n' ∉ l) (rest : Str) :
    lines (emitLines ls ++ rest) = ls ++ lines rest := by
  induction ls with
  | nil => rfl
  | cons l ls ih =>
      have hl : '\n' ∉ l := h l List.mem_cons_self
      have hrest := ih fun x hx => h x (List.mem_cons_of_mem _ hx)
      have hshape : emitLines (l :: ls) ++ rest = l ++ '\r' :: '\n' :: (emitLines ls ++ rest) := by
        simp [emitLines]
      rw [hshape, lines_crlf_cons hl, hrest]
      rfl

/-- Kept lines are lines of the block. -/
theorem mem_of_mem_keepLines {l : Str} {ls : List Str} {b : Bool} (h : l ∈ keepLines b ls) :
    l ∈ ls := by
  induction ls generalizing b with
  | nil => simp [keepLines] at h
  | cons x ls ih =>
      unfold keepLines at h
      dsimp only at h
      generalize (if isContinuation x then b else keepsField x) = keepCurrent at h
      cases keepCurrent with
      | true =>
          rcases List.mem_cons.mp h with rfl | h
          · exact List.mem_cons_self
          · exact List.mem_cons_of_mem _ (ih h)
      | false => exact List.mem_cons_of_mem _ (ih h)

/-- The hyphen-free form is made of hexadecimal digits. -/
theorem forall_mem_simple {p : Char → Prop} (hdigit : ∀ d : Fin 16, p (Nat.digitChar d.val)) (u : Uuid) :
    ∀ c ∈ u.simple, p c := by
  intro c hc
  obtain ⟨d, rfl⟩ := u.digits c hc
  exact hdigit d

/-- The hyphenated form is made of hexadecimal digits and hyphens. -/
theorem forall_mem_hyphenated {p : Char → Prop} (hdash : p '-')
    (hdigit : ∀ d : Fin 16, p (Nat.digitChar d.val)) (u : Uuid) : ∀ c ∈ u.hyphenated, p c := by
  intro c hc
  rcases u.hyphens c hc with rfl | ⟨d, rfl⟩
  · exact hdash
  · exact hdigit d

/-- No random value ends a line. -/
theorem newline_notMem_simple (u : Uuid) : '\n' ∉ u.simple :=
  fun h => forall_mem_simple (p := fun c => c ≠ '\n') (by decide) u _ h rfl

theorem newline_notMem_hyphenated (u : Uuid) : '\n' ∉ u.hyphenated :=
  fun h => forall_mem_hyphenated (p := fun c => c ≠ '\n') (by decide) (by decide) u _ h rfl

/-- A line that begins like a content line is one. -/
theorem contentLine_append {pre x : Str} (hkeep : keepsField pre = false)
    (hcont : isContinuation pre = false) (hpre : '\n' ∉ pre) (hx : '\n' ∉ x) :
    (IsContentLine (pre ++ x) ∧ isContinuation (pre ++ x) = false) ∧ '\n' ∉ pre ++ x := by
  have hline := keepsField_eq_false_iff.mp hkeep
  refine ⟨⟨hline.append x, ?_⟩, ?_⟩
  · obtain ⟨c, t, rfl⟩ := List.exists_cons_of_ne_nil hline.ne_nil
    exact hcont
  · rw [List.mem_append, not_or]
    exact ⟨hpre, hx⟩

/-- The new content lines are content lines. -/
theorem mem_buildOutgoingContentHeadersFor {textOnly noAttachments : Bool} {outer : Uuid}
    {cte : Option TextTransferEncoding} {line : Str}
    (h : line ∈ buildOutgoingContentHeadersFor textOnly noAttachments (makeBoundary outer) cte) :
    (IsContentLine line ∧ isContinuation line = false) ∧ '\n' ∉ line := by
  have hboundary : '\n' ∉ makeBoundary outer ++ ['"'] := by
    unfold makeBoundary
    simp only [List.mem_append, not_or]
    exact ⟨⟨by decide, newline_notMem_simple outer⟩, by decide⟩
  have hplain : ∀ {pre : Str}, keepsField pre = false → isContinuation pre = false → '\n' ∉ pre →
      (IsContentLine pre ∧ isContinuation pre = false) ∧ '\n' ∉ pre :=
    fun hkeep hcont hnl => ⟨⟨keepsField_eq_false_iff.mp hkeep, hcont⟩, hnl⟩
  unfold buildOutgoingContentHeadersFor at h
  rcases List.mem_cons.mp h with rfl | h
  · exact hplain (by decide) (by decide) (by decide)
  split at h
  next =>
      rcases List.mem_cons.mp h with rfl | h
      · exact hplain (by decide) (by decide) (by decide)
      · cases cte with
        | none => simp at h
        | some enc =>
            obtain rfl := List.mem_singleton.mp h
            refine contentLine_append (by decide) (by decide) (by decide) ?_
            cases enc <;> decide
  next =>
      split at h
      next =>
          obtain rfl := List.mem_singleton.mp h
          rw [List.append_assoc]
          exact contentLine_append (by decide) (by decide) (by decide) hboundary
      next =>
          obtain rfl := List.mem_singleton.mp h
          rw [List.append_assoc]
          exact contentLine_append (by decide) (by decide) (by decide) hboundary

/-- The lines of a text around its separator. -/
theorem lines_eq_of_cutSeparator {s headers term rest : Str}
    (h : cutSeparator s = some (headers, term, rest)) :
    lines s = lines (headers ++ term) ++ [] :: lines rest := by
  obtain ⟨hterm, rfl⟩ := cutSeparator_eq_some h
  rcases hterm with rfl | rfl
  · have hlines := lines_append_newline (headers ++ ['\r']) ('\r' :: '\n' :: rest)
    simpa [lines] using hlines
  · have hlines := lines_append_newline headers ('\n' :: rest)
    simpa [lines] using hlines

/-- The header text of a request holds the fields that the walk over the request reads. -/
theorem fieldsOfLines_headers {s headers term rest : Str}
    (h : cutSeparator s = some (headers, term, rest)) :
    fieldsOfLines (lines headers) = scanFields s := by
  rw [← fieldsOfLines_append_terminator (cutSeparator_eq_some h).1 headers]
  unfold scanFields fieldsOfLines
  rw [lines_eq_of_cutSeparator h, unfoldLines_stop]

/-- The lines of a message: the kept lines, the new content lines, an empty line, the body. -/
theorem lines_wire {headers : Str} {content : List Str} (hcontent : ∀ l ∈ content, '\n' ∉ l)
    (body : Bytes) :
    lines (fromUtf8Lossy (utf8 (stripOutgoingContentHeaders headers ++ emitLines content ++
        "\r\n".toList) ++ body)) =
      keepLines true (lines headers) ++ content ++ [] :: lines (fromUtf8Lossy body) := by
  have hkept : ∀ l ∈ keepLines true (lines headers), '\n' ∉ l :=
    fun l hl => newline_notMem_of_mem_lines (mem_of_mem_keepLines hl)
  unfold stripOutgoingContentHeaders
  rw [fromUtf8Lossy_utf8_append, List.append_assoc, List.append_assoc, lines_emitLines hkept,
    lines_emitLines hcontent, List.append_assoc]
  rfl

/-- **Fields of the assembled message.**  Apart from the fields that describe the content, the header
block of the message holds exactly the fields that the walk over its request reads. -/
theorem wireFields_eq {mime : Mime} {outer inner : Uuid} {s : Str} {shape : WireShape} {wire : Bytes}
    (h : assembleWireMessage mime outer inner (utf8 s) shape = .ok wire) :
    (scanFields (fromUtf8Lossy wire)).filter notContent = (scanFields s).filter notContent := by
  unfold assembleWireMessage at h
  split at h
  next => cases h
  next headers body hsplit =>
      split at h
      next => cases h
      next m hm =>
          cases h
          obtain ⟨term, rest, hcut, -⟩ := splitHeadersBody_utf8 hsplit
          generalize (if shape.textOnly && m.noAttachments then some m.encoding else none) = cte
          have hcontent : ∀ line ∈ buildOutgoingContentHeadersFor shape.textOnly m.noAttachments
              (makeBoundary outer) cte,
              (IsContentLine line ∧ isContinuation line = false) ∧ '\n' ∉ line :=
            fun line hline => mem_buildOutgoingContentHeadersFor hline
          rw [← fieldsOfLines_headers hcut]
          unfold scanFields
          rw [lines_wire fun line hline => (hcontent line hline).2]
          unfold fieldsOfLines
          rw [unfoldLines_stop]
          show keptFields _ = keptFields _
          rw [keptFields_append_content fun line hline => (hcontent line hline).1,
            (keptFields_keepLines (lines headers)).1]

end Send
end Aimx
