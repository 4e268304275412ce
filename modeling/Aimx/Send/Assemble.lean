import Aimx.Send.Content
import Aimx.Text.Mime

/-!
# The message on the wire

The MIME half of the assembly: the text of the request with the signature behind it, as plain text, next to an
HTML version, or next to the HTML that came with the request, and the attachments behind them.

* `appendSignatureToBody`, `buildTextOnlyBody`, `buildMultipartBody`, `mime` — the functions of the source;
* `treeOf`, `wireTree` — what the message is read as, and what it is meant to be read as;
* `read_textEntity`, `read_fileEntity` — the parts are read, and `decodedText_eq`: which texts are read back;
* `buildMultipartBody_eq` — the bodies are multipart bodies of RFC 2046.
-/

namespace Aimx
namespace Send

open Text
open Text.Mime (Tree)
open scoped Literal

/-! ## The functions of the source -/

/-- `MAX_MARKDOWN_BODY_BYTES`. -/
def maxMarkdownBodyBytes : Nat := 5 * 1024 * 1024

/-- `render_markdown_to_email_html`, with the rendering of a text. -/
def renderMarkdownToEmailHtml (markdownToHtml : Str → Str) (markdown : Str) : Except AssembleError Str :=
  if byteLen markdown > maxMarkdownBodyBytes then .error .bodyTooLarge else .ok (markdownToHtml markdown)

/-- `append_signature_to_body`. -/
def appendSignatureToBody (body signature : Str) : Str :=
  if signature = [] then body else body.rdropWhile isLineEnd ++ "\n\n".toList ++ lfText signature

/-- The loop of `base64_encode_wrapped`. -/
def wrapFrom (lineWidth : Nat) : Nat → Str → Str
  | _, [] => []
  | i, c :: rest =>
      (if 0 < i ∧ i % lineWidth = 0 then crlf else []) ++ c :: wrapFrom lineWidth (i + 1) rest

/-- `base64_encode_wrapped`. -/
def base64EncodeWrapped (engine : Base64.Engine) (data : Bytes) (lineWidth : Nat) : Str :=
  wrapFrom lineWidth 0 (engine.encode data)

/-- The pieces of a text part that the builders push. -/
def textBlock (boundary contentType text : Str) : Bytes :=
  let normalized := normalizeTextToCrlf text
  let encoding := pickTransferEncoding (utf8 normalized)
  utf8 ("--".toList ++ boundary ++ crlf ++
    "Content-Type: ".toList ++ contentType ++ "; charset=utf-8".toList ++ crlf ++
    "Content-Transfer-Encoding: ".toList ++ encoding.label ++ crlf ++ crlf) ++
  encodeTextBody normalized encoding ++ utf8 crlf

/-- What the builders push for an attachment. -/
def attachmentBlock (engine : Base64.Engine) (outer : Str) (att : AttachmentPart) : Bytes :=
  let safeName := escapeFilename att.filename
  utf8 ("--".toList ++ outer ++ crlf ++
    "Content-Type: ".toList ++ att.contentType ++ "; name=\"".toList ++ safeName ++ "\"".toList ++ crlf ++
    "Content-Disposition: attachment; filename=\"".toList ++ safeName ++ "\"".toList ++ crlf ++
    "Content-Transfer-Encoding: base64".toList ++ crlf ++ crlf ++
    base64EncodeWrapped engine att.data 76 ++ crlf)

/-- The closing delimiter line. -/
def closing (boundary : Str) : Bytes := utf8 ("--".toList ++ boundary ++ "--".toList ++ crlf)

/-- `build_alternative_body`. -/
def buildAlternativeBody (boundary markdownSource html : Str) : Bytes :=
  textBlock boundary "text/plain".toList markdownSource ++ textBlock boundary "text/html".toList html ++
    closing boundary

/-- `build_text_only_body`. -/
def buildTextOnlyBody (engine : Base64.Engine) (bodyText : Str) (attachments : List AttachmentPart)
    (outer : Str) : Bytes :=
  let normalized := normalizeTextToCrlf bodyText
  let encoded := encodeTextBody normalized (pickTransferEncoding (utf8 normalized))
  if attachments = [] then encoded ++ if encoded.getLast? = some 0x0A then [] else utf8 crlf
  else textBlock outer "text/plain".toList bodyText ++ attachments.flatMap (attachmentBlock engine outer) ++
    closing outer

/-- `build_multipart_body`. -/
def buildMultipartBody (engine : Base64.Engine) (markdownSource html : Str)
    (attachments : List AttachmentPart) (outer inner : Str) : Bytes :=
  if attachments = [] then buildAlternativeBody outer markdownSource html
  else
    utf8 ("--".toList ++ outer ++ crlf ++
      "Content-Type: multipart/alternative; boundary=\"".toList ++ inner ++ "\"".toList ++ crlf ++ crlf) ++
    buildAlternativeBody inner markdownSource html ++ utf8 crlf ++
    attachments.flatMap (attachmentBlock engine outer) ++ closing outer

/-- The HTML that goes with a text: what came with the request, or the rendered text. -/
def htmlVersion (markdownToHtml : Str → Str) (htmlBody : Option Bytes) (bodyText : Str) :
    Except AssembleError Str :=
  match htmlBody with
  | some html => .ok (fromUtf8Lossy html)
  | none => renderMarkdownToEmailHtml markdownToHtml bodyText

/-- The MIME half of `assemble_wire_message`. -/
def mime (engine : Base64.Engine) (markdownToHtml : Str → Str) : Mime :=
    fun originalHeaders bodySection shape outer inner => do
  let content := extractMarkdownAndAttachments engine originalHeaders bodySection
  let bodyText := appendSignatureToBody content.1 shape.signature
  let encoding := pickTransferEncoding (utf8 (normalizeTextToCrlf bodyText))
  if shape.textOnly then
    return ⟨content.2 = [], encoding, buildTextOnlyBody engine bodyText content.2 outer⟩
  else
    let html ← htmlVersion markdownToHtml shape.htmlBody bodyText
    return ⟨content.2 = [], encoding, buildMultipartBody engine bodyText html content.2 outer inner⟩

/-! ## What the message is meant to be read as -/

/-- The fields of a text part. -/
def wireTextFields (contentType text : Str) : List (Str × Str) :=
  [("Content-Type".toList, contentType ++ "; charset=utf-8".toList),
    ("Content-Transfer-Encoding".toList, (pickTransferEncoding (utf8 (normalizeTextToCrlf text))).label)]

/-- What a reader has of a text in a part of its own, and of a text that is the whole message. -/
structure TextData where
  part : Str → Bytes
  whole : Str → Bytes

/-- A text. -/
def textLeaf (data : TextData) (contentType text : Str) : Tree :=
  .leaf (wireTextFields contentType text) (data.part text)

/-- A file, under its name. -/
def fileLeaf (att : AttachmentPart) : Tree :=
  .leaf (Mime.trimmed (attachmentFields att.contentType (escapeFilename att.filename))) att.data

/-- The field of a body with parts. -/
def partsField (subtype boundary : Str) : Str × Str :=
  ("Content-Type".toList, "multipart/".toList ++ subtype ++ "; boundary=\"".toList ++ boundary ++ ['"'])

/-- The fields that describe the content of the message. -/
def contentFields (textOnly noAttachments : Bool) (outer bodyText : Str) : List (Str × Str) :=
  ("MIME-Version".toList, "1.0".toList) ::
    if textOnly && noAttachments then wireTextFields "text/plain".toList bodyText
    else [partsField (if noAttachments then "alternative".toList else "mixed".toList) outer]

/-- A text without attachments ends with a line terminator. -/
def lastBreak (text : Str) : Bytes :=
  if (encodeTextBody (normalizeTextToCrlf text)
      (pickTransferEncoding (utf8 (normalizeTextToCrlf text)))).getLast? = some 0x0A then []
  else utf8 crlf

/-- The texts as they are meant to be read, in CRLF lines. -/
def meantData : TextData where
  part := fun text => utf8 (normalizeTextToCrlf text)
  whole := fun text => utf8 (normalizeTextToCrlf text) ++ lastBreak text

/-- A text next to its HTML version. -/
def alternatives (data : TextData) (text html : Str) : List Tree :=
  [textLeaf data "text/plain".toList text, textLeaf data "text/html".toList html]

/-- A message with some fields, by what a reader has of its texts. -/
def treeOf (data : TextData) (fields : List (Str × Str)) (outer inner : Str) (textOnly : Bool)
    (text html : Str) (attachments : List AttachmentPart) : Tree :=
  let top := Mime.trimmed (fields ++ contentFields textOnly (attachments = []) outer text)
  if textOnly then
    if attachments = [] then .leaf top (data.whole text)
    else .node top (textLeaf data "text/plain".toList text :: attachments.map fileLeaf)
  else if attachments = [] then .node top (alternatives data text html)
  else .node top
    (.node [partsField "alternative".toList inner] (alternatives data text html) :: attachments.map fileLeaf)

/-- What a message with some fields is meant to be read as. -/
def wireTree (fields : List (Str × Str)) (outer inner : Str) (textOnly : Bool) (text html : Str)
    (attachments : List AttachmentPart) : Tree :=
  treeOf meantData fields outer inner textOnly text html attachments

/-! ## Texts -/

/-- The two types of a text part. -/
def IsTextType (contentType : Str) : Prop :=
  contentType = "text/plain".toList ∨ contentType = "text/html".toList

/-- A text that RFC 2045 reads back: it is sent as it is, or no line of it ends in a space. -/
def ReadsBack (text : Str) : Prop :=
  pickTransferEncoding (utf8 (normalizeTextToCrlf text)) = .sevenBit ∨
    ∀ line ∈ normalizedLines text, line.getLast? ≠ some ' '

theorem isField_wireTextFields {contentType : Str} (h : IsTextType contentType) (text : Str) :
    ∀ f ∈ wireTextFields contentType text, Mime.IsField f := by
  have hlabel : ∀ enc : TextTransferEncoding, ∀ c ∈ enc.label, c ≠ '\r' ∧ c ≠ '\n' := by
    intro enc
    cases enc <;> decide
  intro f hf
  simp only [wireTextFields, List.mem_cons, List.not_mem_nil, or_false] at hf
  rcases hf with rfl | rfl
  · refine ⟨?_, ?_, ?_⟩
    · show "Content-Type".toList ≠ []
      decide
    · show ∀ c ∈ "Content-Type".toList, c ≠ ':' ∧ isWhitespace c = false
      decide
    · rcases h with rfl | rfl <;> decide
  · refine ⟨?_, ?_, hlabel _⟩
    · show "Content-Transfer-Encoding".toList ≠ []
      decide
    · show ∀ c ∈ "Content-Transfer-Encoding".toList, c ≠ ':' ∧ isWhitespace c = false
      decide

theorem trimmed_wireTextFields {contentType : Str} (h : IsTextType contentType) (text : Str) :
    Mime.trimmed (wireTextFields contentType text) = wireTextFields contentType text := by
  unfold wireTextFields
  cases pickTransferEncoding (utf8 (normalizeTextToCrlf text)) <;> rcases h with rfl | rfl <;> decide

theorem boundaryOf_wireTextFields {contentType : Str} (h : IsTextType contentType) (text : Str) :
    Mime.boundaryOf (wireTextFields contentType text) = none := by
  unfold wireTextFields
  cases pickTransferEncoding (utf8 (normalizeTextToCrlf text)) <;> rcases h with rfl | rfl <;> decide

/-- The decoder of an encoding. -/
def TextTransferEncoding.decode : TextTransferEncoding → Bytes → Bytes
  | .sevenBit, content => content
  | .quotedPrintable, content => Rfc2045.decode content

theorem decodeBody_label {fields : List (Str × Str)} {enc : TextTransferEncoding}
    (h : Mime.fieldValue fields "Content-Transfer-Encoding".toList = some enc.label) (content : Bytes) :
    Mime.decodeBody fields content = some (enc.decode content) := by
  unfold Mime.decodeBody
  rw [h]
  cases enc <;> rfl

theorem fieldValue_wireTextFields (contentType text : Str) :
    Mime.fieldValue (wireTextFields contentType text) "Content-Transfer-Encoding".toList =
      some (pickTransferEncoding (utf8 (normalizeTextToCrlf text))).label := rfl

/-- What RFC 2045 reads of an encoded text, with something behind it. -/
def decodedText (back : Str → Bytes) (text : Str) : Bytes :=
  (pickTransferEncoding (utf8 (normalizeTextToCrlf text))).decode
    (encodeTextBody (normalizeTextToCrlf text) (pickTransferEncoding (utf8 (normalizeTextToCrlf text))) ++
      back text)

/-- The texts as they are read. -/
def decodedData : TextData where
  part := decodedText fun _ => []
  whole := decodedText lastBreak

theorem lastBreak_cases (text : Str) : lastBreak text = [] ∨ lastBreak text = Multipart.crlf := by
  unfold lastBreak
  split
  · exact .inl rfl
  · exact .inr rfl

theorem decodeBody_text {fields : List (Str × Str)} {text : Str}
    (hfield : Mime.fieldValue fields "Content-Transfer-Encoding".toList =
      some (pickTransferEncoding (utf8 (normalizeTextToCrlf text))).label) (back : Str → Bytes) :
    Mime.decodeBody fields (encodeTextBody (normalizeTextToCrlf text)
        (pickTransferEncoding (utf8 (normalizeTextToCrlf text))) ++ back text) =
      some (decodedText back text) := decodeBody_label hfield _

/-- An encoded text with a line terminator behind it or without, as lines. -/
theorem exists_lines (text : Str) {back : Bytes} (hback : back = [] ∨ back = Multipart.crlf) :
    ∃ more : List Bytes, (∀ line ∈ more, line = []) ∧
      quotedPrintableEncode (normalizeTextToCrlf text) ++ back =
        Rfc2045.joinLines (((normalizedLines text).map utf8 ++ more).flatMap encodeLine) ∧
      utf8 (normalizeTextToCrlf text) ++ back =
        Rfc2045.joinLines ((normalizedLines text).map utf8 ++ more) := by
  have hne := normalizedLines_ne_nil text
  rw [quotedPrintableEncode_normalized, utf8_normalizeTextToCrlf]
  rcases hback with rfl | rfl
  · exact ⟨[], by simp, by simp, by simp⟩
  · -- one more line, which is empty
    have hencoded := encodeLines_ne_nil hne
    have hmore : (((normalizedLines text).map utf8) ++ [[]]).flatMap encodeLine =
        ((normalizedLines text).map utf8).flatMap encodeLine ++ [[]] := by
      rw [List.flatMap_append]
      rfl
    refine ⟨[[]], by simp, ?_, ?_⟩
    · rw [hmore, Rfc2045.joinLines_append hencoded (by simp)]
      simp [Rfc2045.joinLines, Multipart.crlf]
    · rw [Rfc2045.joinLines_append hne (by simp)]
      simp [Rfc2045.joinLines, Multipart.crlf]

/-- **An encoded text is read back.** -/
theorem decodedText_eq {text : Str} (h : ReadsBack text) {back : Str → Bytes}
    (hback : back text = [] ∨ back text = Multipart.crlf) :
    decodedText back text = utf8 (normalizeTextToCrlf text) ++ back text := by
  unfold decodedText
  cases henc : pickTransferEncoding (utf8 (normalizeTextToCrlf text)) with
  | sevenBit => rfl
  | quotedPrintable =>
      have hspace : ∀ line ∈ normalizedLines text, line.getLast? ≠ some ' ' := by
        rcases h with h | h
        · rw [henc] at h
          cases h
        · exact h
      obtain ⟨more, hmore, hencoded, hplain⟩ := exists_lines text hback
      show Rfc2045.decode (quotedPrintableEncode (normalizeTextToCrlf text) ++ back text) = _
      rw [hencoded, hplain]
      refine decode_lines (List.append_ne_nil_of_left_ne_nil (normalizedLines_ne_nil text) _) ?_
      exact List.forall_mem_append.mpr ⟨noSpaceEnd hspace, fun line hline => by rw [hmore line hline]; simp⟩

/-- A text that is not read back loses a space. -/
theorem count_decodedText {text : Str} (h : ¬ ReadsBack text) {back : Str → Bytes}
    (hback : back text = [] ∨ back text = Multipart.crlf) :
    (decodedText back text).count 0x20 < (utf8 (normalizeTextToCrlf text)).count 0x20 := by
  unfold ReadsBack at h
  rw [not_or] at h
  obtain ⟨hpick, hlines⟩ := h
  obtain ⟨line, hline, hspace⟩ : ∃ line ∈ normalizedLines text, line.getLast? = some ' ' := by
    simpa using hlines
  obtain ⟨more, -, hencoded, hplain⟩ := exists_lines text hback
  have hcount : (utf8 (normalizeTextToCrlf text) ++ back text).count 0x20 =
      (utf8 (normalizeTextToCrlf text)).count 0x20 := by
    rcases hback with hback | hback <;> rw [hback, List.count_append] <;> rfl
  unfold decodedText
  cases henc : pickTransferEncoding (utf8 (normalizeTextToCrlf text)) with
  | sevenBit => exact absurd henc hpick
  | quotedPrintable =>
      show (Rfc2045.decode (quotedPrintableEncode (normalizeTextToCrlf text) ++ back text)).count 0x20 < _
      rw [hencoded, ← hcount, hplain]
      exact count_decode_lines ⟨utf8 line, List.mem_append_left _ (List.mem_map_of_mem hline),
        (getLast_utf8_eq_space line).mpr hspace⟩

/-- **A text part is read.** -/
theorem read_textEntity {contentType : Str} (htype : IsTextType contentType) (text : Str) (depth : Nat) :
    Mime.read (depth + 1) (Mime.entity (wireTextFields contentType text)
        (encodeTextBody (normalizeTextToCrlf text)
          (pickTransferEncoding (utf8 (normalizeTextToCrlf text))))) =
      some (textLeaf decodedData contentType text) := by
  have htrim := trimmed_wireTextFields htype text
  have hdata := decodeBody_text (fieldValue_wireTextFields contentType text) fun _ => []
  rw [List.append_nil] at hdata
  have hread := Mime.read_leaf (isField_wireTextFields htype text)
    (by rw [htrim]; exact boundaryOf_wireTextFields htype text) (by rw [htrim]; exact hdata) depth
  rw [htrim] at hread
  exact hread

/-! ## Files -/

/-- A media type without parameters. -/
def IsMediaType (contentType : Str) : Prop := ∀ c ∈ contentType, (c ≠ '\r' ∧ c ≠ '\n') ∧ c ≠ '"' ∧ c ≠ ';'

theorem isField_fileFields {contentType : Str} (h : IsMediaType contentType) (name : Str) :
    ∀ f ∈ attachmentFields contentType (escapeFilename name), Mime.IsField f := by
  have hfields := isField_attachmentFields (fun c hc => (h c hc).1) (oneLine_escapeFilename name)
  intro f hf
  refine { name_ne_nil := (hfields f hf).name_ne_nil, name := (hfields f hf).name, value := fun c hc => ?_ }
  exact (hfields f hf).oneLine c (by simp [fieldLine, hc])

/-- The fields of a file as they are read. -/
theorem trimmed_fileFields (contentType name : Str) :
    Mime.trimmed (attachmentFields contentType (escapeFilename name)) =
      [("Content-Type".toList,
          trimStart contentType ++ ';' :: ' ' ::
            ("name".toList ++ '=' :: '"' :: (escapeFilename name ++ ['"']))),
        ("Content-Disposition".toList,
          "attachment".toList ++ ';' :: ' ' ::
            ("filename".toList ++ '=' :: '"' :: (escapeFilename name ++ ['"']))),
        ("Content-Transfer-Encoding".toList, "base64".toList)] := by
  have htype : trim (contentType ++ "; name=\"".toList ++ escapeFilename name ++ ['"']) =
      trimStart contentType ++ ';' :: ' ' ::
        ("name".toList ++ '=' :: '"' :: (escapeFilename name ++ ['"'])) := by
    have hshape : contentType ++ "; name=\"".toList ++ escapeFilename name ++ ['"'] =
        contentType ++ ';' :: ((" name=\"".toList ++ escapeFilename name) ++ ['"']) := by simp
    rw [hshape, trim_append_visible _ _ (by decide), trimEnd_concat_visible _ (by decide)]
    simp
  have hdisposition : trim ("attachment; filename=\"".toList ++ escapeFilename name ++ ['"']) =
      "attachment".toList ++ ';' :: ' ' ::
        ("filename".toList ++ '=' :: '"' :: (escapeFilename name ++ ['"'])) := by
    show trim ("attachment; filename=\"".toList ++ escapeFilename name ++ '"' :: []) = _
    rw [trim_append_visible _ _ (by decide)]
    rfl
  have hencoding : trim "base64".toList = "base64".toList := by decide
  show [(_, trim (contentType ++ "; name=\"".toList ++ escapeFilename name ++ ['"'])),
    (_, trim ("attachment; filename=\"".toList ++ escapeFilename name ++ ['"'])),
    (_, trim "base64".toList)] = _
  rw [htype, hdisposition, hencoding]

theorem quotedBody_cleanName (name : Str) : QuotedBody (escapeFilename name) (cleanName name) := by
  rw [← escapeFilename_cleanName]
  exact quotedBody_escapeFilename (fun h => (oneLine_cleanName name _ h).1 rfl)
    (fun h => (oneLine_cleanName name _ h).2 rfl)

theorem boundaryOf_fileFields {contentType : Str} (h : IsMediaType contentType) (name : Str) :
    Mime.boundaryOf (Mime.trimmed (attachmentFields contentType (escapeFilename name))) = none := by
  have hprimary : ∀ c ∈ trimStart contentType, c ≠ '"' ∧ c ≠ ';' := fun c hc =>
    (h c ((List.dropWhile_suffix isWhitespace).subset hc)).2
  have hparam := Mime.paramValue_quoted hprimary (by decide : ∀ c ∈ "name".toList,
    c ≠ '=' ∧ c ≠ ';' ∧ c ≠ '"' ∧ isWhitespace c = false) (quotedBody_cleanName name) "boundary".toList
  have hother : eqIgnoreAsciiCase "name".toList "boundary".toList = false := by decide
  rw [hother, if_neg Bool.false_ne_true] at hparam
  have hvalue : Mime.fieldValue (Mime.trimmed (attachmentFields contentType (escapeFilename name)))
      "Content-Type".toList =
        some (trimStart contentType ++
          ';' :: ' ' :: ("name".toList ++ '=' :: '"' :: (escapeFilename name ++ ['"']))) := by
    rw [trimmed_fileFields]
    rfl
  rw [Mime.boundaryOf, hvalue, Option.bind_some, hparam]
  split <;> rfl

theorem fieldValue_disposition (contentType name : Str) :
    Mime.fieldValue (Mime.trimmed (attachmentFields contentType (escapeFilename name)))
        "Content-Disposition".toList =
      some ("attachment".toList ++
        ';' :: ' ' :: ("filename".toList ++ '=' :: '"' :: (escapeFilename name ++ ['"']))) := by
  rw [trimmed_fileFields]
  rfl

/-- **The name that is read of a file.** -/
theorem fileName_attachmentFields (contentType name : Str) :
    ((Mime.fieldValue (Mime.trimmed (attachmentFields contentType (escapeFilename name)))
        "Content-Disposition".toList).bind fun value => Mime.paramValue value "filename".toList) =
      some (cleanName name) := by
  rw [fieldValue_disposition, Option.bind_some,
    Mime.paramValue_quoted (by decide) (by decide) (quotedBody_cleanName name),
    if_pos (eqIgnoreAsciiCase_self _)]

/-- Line breaks are no part of the encoding. -/
theorem filter_wrapFrom (lineWidth i : Nat) {s : Str} (h : ∀ c ∈ s, Base64.IsSextetOrPad c) :
    (wrapFrom lineWidth i s).filter (fun c => Base64.IsSextetOrPad c) = s := by
  induction s generalizing i with
  | nil => rfl
  | cons c s ih =>
      rw [List.forall_mem_cons] at h
      have hbreak : (if 0 < i ∧ i % lineWidth = 0 then crlf else []).filter
          (fun c => Base64.IsSextetOrPad c) = [] := by
        split <;> decide
      rw [wrapFrom, List.filter_append, hbreak, List.nil_append, List.filter_cons_of_pos (by simpa using h.1),
        ih (i + 1) h.2]

/-- **A file is read as its bytes.** -/
theorem read_fileEntity {att : AttachmentPart} (h : IsMediaType att.contentType) (depth : Nat) :
    Mime.read (depth + 1) (Mime.entity (attachmentFields att.contentType (escapeFilename att.filename))
        (utf8 (wrapFrom 76 0 (Base64.encode att.data)))) = some (fileLeaf att) := by
  refine Mime.read_leaf (isField_fileFields h att.filename) (boundaryOf_fileFields h att.filename) ?_ depth
  have hencoding : Mime.fieldValue (Mime.trimmed (attachmentFields att.contentType
      (escapeFilename att.filename))) "Content-Transfer-Encoding".toList = some "base64".toList := by
    rw [trimmed_fileFields]
    rfl
  unfold Mime.decodeBody
  rw [hencoding]
  show (fromUtf8 _).bind _ = _
  rw [fromUtf8_eq_some_iff.mpr rfl, Option.bind_some,
    filter_wrapFrom _ _ fun c hc => Base64.isSextetOrPad_of_mem_encode hc, Base64.decode_encode]

/-! ## Bodies with parts -/

/-- The delimiter of a boundary. -/
def delimiterOf (boundary : Str) : Bytes := utf8 ("--".toList ++ boundary)

/-- The entity of a text. -/
def textEntity (contentType text : Str) : Bytes :=
  Mime.entity (wireTextFields contentType text) (encodeTextBody (normalizeTextToCrlf text)
    (pickTransferEncoding (utf8 (normalizeTextToCrlf text))))

/-- The entity of a file. -/
def fileEntity (att : AttachmentPart) : Bytes :=
  Mime.entity (attachmentFields att.contentType (escapeFilename att.filename))
    (utf8 (wrapFrom 76 0 (Base64.encode att.data)))

theorem utf8_crlf : utf8 crlf = Multipart.crlf := rfl

theorem textBlock_eq (boundary contentType text : Str) :
    textBlock boundary contentType text =
      Multipart.block (delimiterOf boundary) (textEntity contentType text) := by
  have htype : "Content-Type: ".toList = "Content-Type".toList ++ [':', ' '] := by decide
  have hencoding : "Content-Transfer-Encoding: ".toList =
      "Content-Transfer-Encoding".toList ++ [':', ' '] := by decide
  have hcrlf : (['\r', '\n'] : Str) = crlf := rfl
  unfold textBlock Multipart.block textEntity Mime.entity delimiterOf
  dsimp only
  generalize encodeTextBody (normalizeTextToCrlf text)
    (pickTransferEncoding (utf8 (normalizeTextToCrlf text))) = encoded
  simp only [wireTextFields, Mime.header, Mime.fieldLine, List.flatMap_cons, List.flatMap_nil, htype,
    hencoding, hcrlf, ← utf8_crlf, utf8_append, utf8_cons, List.append_assoc, List.append_nil,
    List.cons_append, List.nil_append]

theorem attachmentBlock_eq (engine : Base64.Engine) (boundary : Str) (att : AttachmentPart) :
    attachmentBlock engine boundary att = Multipart.block (delimiterOf boundary) (fileEntity att) := by
  have htype : "Content-Type: ".toList = "Content-Type".toList ++ [':', ' '] := by decide
  have hdisposition : "Content-Disposition: attachment; filename=\"".toList =
      "Content-Disposition".toList ++ ':' :: ' ' :: "attachment; filename=\"".toList := by decide
  have hencoding : "Content-Transfer-Encoding: base64".toList =
      "Content-Transfer-Encoding".toList ++ ':' :: ' ' :: "base64".toList := by decide
  have hquote : "\"".toList = ['"'] := by decide
  have hcrlf : (['\r', '\n'] : Str) = crlf := rfl
  unfold attachmentBlock base64EncodeWrapped Multipart.block fileEntity Mime.entity delimiterOf
  rw [engine.encode_eq]
  simp only [attachmentFields, Mime.header, Mime.fieldLine, List.flatMap_cons, List.flatMap_nil, htype,
    hdisposition, hencoding, hquote, hcrlf, ← utf8_crlf, utf8_append, utf8_cons, List.append_assoc,
    List.append_nil, List.cons_append, List.nil_append]

theorem closing_eq (boundary : Str) :
    closing boundary = delimiterOf boundary ++ Multipart.dashes ++ Multipart.crlf := by
  have hdashes : utf8 "--".toList = Multipart.dashes := rfl
  rw [closing, utf8_append, utf8_append, hdashes, utf8_crlf]
  rfl

theorem flatMap_attachmentBlock (engine : Base64.Engine) (boundary : Str)
    (attachments : List AttachmentPart) :
    attachments.flatMap (attachmentBlock engine boundary) =
      (attachments.map fileEntity).flatMap (Multipart.block (delimiterOf boundary)) := by
  rw [List.flatMap_map]
  exact List.flatMap_congr fun att _ => attachmentBlock_eq engine boundary att

/-- The parts of a text and its HTML version. -/
theorem buildAlternativeBody_eq (boundary text html : Str) :
    buildAlternativeBody boundary text html = Multipart.write (delimiterOf boundary)
      [textEntity "text/plain".toList text, textEntity "text/html".toList html] := by
  rw [buildAlternativeBody, textBlock_eq, textBlock_eq, closing_eq, Multipart.write, List.flatMap_cons,
    List.flatMap_cons, List.flatMap_nil, List.append_nil]

/-- The parts of a text with attachments. -/
theorem buildTextOnlyBody_eq (engine : Base64.Engine) {attachments : List AttachmentPart}
    (h : attachments ≠ []) (text outer : Str) :
    buildTextOnlyBody engine text attachments outer = Multipart.write (delimiterOf outer)
      (textEntity "text/plain".toList text :: attachments.map fileEntity) := by
  rw [buildTextOnlyBody, if_neg h, textBlock_eq, flatMap_attachmentBlock, closing_eq, Multipart.write,
    List.flatMap_cons]

/-- The parts of a text with an HTML version and attachments. -/
theorem buildMultipartBody_eq (engine : Base64.Engine) {attachments : List AttachmentPart}
    (h : attachments ≠ []) (text html outer inner : Str) :
    buildMultipartBody engine text html attachments outer inner = Multipart.write (delimiterOf outer)
      (Mime.entity [partsField "alternative".toList inner] (buildAlternativeBody inner text html) ::
        attachments.map fileEntity) := by
  have hfront : ∀ body : Bytes, utf8 ("--".toList ++ outer ++ crlf ++
      "Content-Type: multipart/alternative; boundary=\"".toList ++ inner ++ "\"".toList ++ crlf ++ crlf) ++
        body ++ utf8 crlf =
      Multipart.block (delimiterOf outer) (Mime.entity [partsField "alternative".toList inner] body) := by
    intro body
    have htype : "Content-Type: multipart/alternative; boundary=\"".toList =
        "Content-Type".toList ++ ':' :: ' ' :: ("multipart/".toList ++ "alternative".toList ++
          "; boundary=\"".toList) := by decide
    have hheader : Mime.header [partsField "alternative".toList inner] =
        "Content-Type: multipart/alternative; boundary=\"".toList ++ inner ++ "\"".toList ++ crlf := by
      have hquote : "\"".toList = ['"'] := by decide
      show "Content-Type".toList ++ ':' :: ' ' :: ("multipart/".toList ++ "alternative".toList ++
        "; boundary=\"".toList ++ inner ++ ['"']) ++ crlf ++ [] = _
      rw [htype, hquote]
      simp only [List.append_assoc, List.cons_append, List.append_nil]
    rw [Multipart.block, Mime.entity, hheader, delimiterOf, ← utf8_crlf]
    simp only [utf8_append, List.append_assoc]
  rw [buildMultipartBody, if_neg h, hfront, flatMap_attachmentBlock, closing_eq, Multipart.write,
    List.flatMap_cons]

end Send
end Aimx
