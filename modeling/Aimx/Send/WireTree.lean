import Aimx.Send.Assemble
import Mathlib.Data.List.OfFn

/-!
# The message as it is read

What a MIME reader finds in an assembled message.

* `Avoids` — no line of a text begins with a delimiter, and `avoids_of_apart`: which texts are such;
* `read_wire_decoded` — the header and the body are read as a tree;
* `read_wire` — it is the tree of the message, where the texts are read back;
* `read_assembleWireMessage` — so is what the daemon assembles;
* `read_composeRequest` — from the arguments of the sender to the tree.
-/

namespace Aimx
namespace Send

open Text
open Text.Mime (Tree)
open scoped Literal

/-! ## Boundaries -/

/-- No line of a text begins with the delimiter of a boundary, as the text is sent. -/
def Avoids (boundary text : Str) : Prop :=
  Multipart.Fresh (delimiterOf boundary) (encodeTextBody (normalizeTextToCrlf text)
    (pickTransferEncoding (utf8 (normalizeTextToCrlf text))))

theorem delimiterOf_cons (boundary : Str) : ∃ rest, delimiterOf boundary = 0x2D :: rest := ⟨_, rfl⟩

theorem delimiterOf_ne_nil (boundary : Str) : delimiterOf boundary ≠ [] := by
  obtain ⟨rest, hrest⟩ := delimiterOf_cons boundary
  rw [hrest]
  exact List.cons_ne_nil _ _

/-- What stands at the beginning of an encoded part and has no equals sign stands at that of the part. -/
theorem prefix_of_tokens {needle part back : Bytes} (hequals : 0x3D ∉ needle)
    (hback : back = [] ∨ back = [0x3D]) (h : needle <+: part.flatMap token ++ back) : needle <+: part := by
  induction part generalizing needle with
  | nil =>
      rw [List.flatMap_nil, List.nil_append] at h
      cases needle with
      | nil => exact List.nil_prefix
      | cons d needle =>
          rcases hback with rfl | rfl
          · exact absurd (List.prefix_nil.mp h) (List.cons_ne_nil _ _)
          · exact absurd (List.mem_singleton.mp (h.subset List.mem_cons_self)) fun hd =>
              hequals (hd ▸ List.mem_cons_self)
  | cons b part ih =>
      cases needle with
      | nil => exact List.nil_prefix
      | cons d needle =>
          rw [List.mem_cons, not_or] at hequals
          rw [List.flatMap_cons, token] at h
          split at h
          · exact absurd (List.cons_prefix_cons.mp h).1 (Ne.symm hequals.1)
          · obtain ⟨rfl, hrest⟩ := List.cons_prefix_cons.mp h
            exact List.cons_prefix_cons.mpr ⟨rfl, ih hequals.2 hrest⟩

/-- **A boundary that is not in a text is not in it as it is sent.** -/
theorem avoids_of_apart {u : Uuid} {text : Str}
    (h : ¬ "--".toList ++ makeBoundary u <:+: normalizeTextToCrlf text) : Avoids (makeBoundary u) text := by
  have hbytes : ¬ delimiterOf (makeBoundary u) <:+: utf8 (normalizeTextToCrlf text) := fun hin =>
    h ((infix_utf8_iff (by decide) _ _).mp hin)
  unfold Avoids
  cases pickTransferEncoding (utf8 (normalizeTextToCrlf text)) with
  | sevenBit => exact Multipart.fresh_of_not_infix hbytes
  | quotedPrintable =>
      have hequals : 0x3D ∉ delimiterOf (makeBoundary u) := by
        intro hmem
        have hin : utf8 ['='] <:+: delimiterOf (makeBoundary u) := (List.singleton_infix_iff _ _).mpr hmem
        rw [delimiterOf, infix_utf8_iff (by decide), List.singleton_infix_iff] at hin
        have hplain : ∀ c ∈ "--".toList ++ makeBoundary u, c ≠ '=' := by
          unfold makeBoundary
          simp only [List.forall_mem_append]
          exact ⟨by decide, by decide, forall_mem_simple (p := fun c => c ≠ '=') (by decide) u⟩
        exact hplain _ hin rfl
      intro encoded hencoded hpre
      rw [encodeTextBody, breakLines_quotedPrintableEncode] at hencoded
      obtain ⟨line, hline, hmem⟩ := List.mem_flatMap.mp hencoded
      obtain ⟨piece, hpiece, hshape⟩ := Rfc2045.mem_withSoft hmem
      obtain ⟨part, hpart, rfl⟩ := List.mem_map.mp hpiece
      have hwhole : part <:+: utf8 (normalizeTextToCrlf text) := by
        refine (List.infix_of_mem_flatten hpart).trans ?_
        rw [flatten_parts]
        exact Multipart.infix_of_mem_breakLines (breakLines_normalizeTextToCrlf text ▸ hline)
      refine hbytes ((List.IsPrefix.isInfix ?_).trans hwhole)
      rcases hshape with rfl | ⟨rfl, -⟩
      · exact prefix_of_tokens hequals (.inr rfl) hpre
      · exact prefix_of_tokens hequals (.inl rfl) (by rwa [List.append_nil])

/-- A delimiter is made of visible characters. -/
theorem isDelimiter_makeBoundary (u : Uuid) : Multipart.IsDelimiter (delimiterOf (makeBoundary u)) := by
  have hvisible : ∀ c ∈ "--".toList ++ makeBoundary u, isWhitespace c = false := by
    unfold makeBoundary
    simp only [List.forall_mem_append]
    exact ⟨by decide, by decide, forall_mem_simple (p := fun c => isWhitespace c = false) (by decide) u⟩
  have hblank : ∀ c : Char, c.toNat < 0x80 → isWhitespace c = true →
      ¬ utf8 [c] <:+: delimiterOf (makeBoundary u) := by
    intro c hc hblank hin
    rw [delimiterOf, infix_utf8_iff hc, List.singleton_infix_iff] at hin
    rw [hvisible c hin] at hblank
    cases hblank
  have hmem : ∀ b ∈ delimiterOf (makeBoundary u), [b] <:+: delimiterOf (makeBoundary u) :=
    fun b hb => (List.singleton_infix_iff _ _).mpr hb
  refine
    { oneLine := ⟨fun h => hblank '\r' (by decide) rfl (hmem _ h), fun h =>
        hblank '\n' (by decide) rfl (hmem _ h)⟩
      visibleEnd := fun b hb => ?_ }
  have hb := hmem b (List.mem_of_getLast? hb)
  rw [Rfc2045.isBlank, Bool.or_eq_false_iff, beq_eq_false_iff_ne, beq_eq_false_iff_ne]
  refine ⟨?_, ?_⟩
  · rintro rfl
    exact hblank ' ' (by decide) rfl hb
  · rintro rfl
    exact hblank '\t' (by decide) rfl hb

/-- The delimiters of two boundaries do not begin alike. -/
theorem not_prefix_delimiter {u v : Uuid} (h : u.simple ≠ v.simple) :
    ¬ delimiterOf (makeBoundary u) <+: delimiterOf (makeBoundary v) ++ Multipart.dashes := by
  rintro ⟨rest, hrest⟩
  have hwhole : utf8 ("--".toList ++ makeBoundary v ++ "--".toList) =
      utf8 ("--".toList ++ makeBoundary u) ++ rest := by
    rw [utf8_append]
    exact hrest.symm
  obtain ⟨tail, htail, -⟩ := eq_append_of_utf8_eq hwhole
  have hlength : ∀ w : Uuid, ("--".toList ++ makeBoundary w).length = 39 := fun w => by
    simp [makeBoundary, w.length]
  have heq := (List.append_inj htail ((hlength v).trans (hlength u).symm)).1
  exact h (List.append_cancel_left (List.append_cancel_left heq)).symm

/-- No field of a part begins like a delimiter. -/
theorem not_prefix_fieldLine (boundary : Str) {name value : Str} {c : Char} {more : Str}
    (hname : name = c :: more) (hc : ∃ b bs, String.utf8EncodeChar c = b :: bs ∧ b ≠ 0x2D) :
    ¬ delimiterOf boundary <+: utf8 (Mime.fieldLine (name, value)) := by
  obtain ⟨rest, hrest⟩ := delimiterOf_cons boundary
  obtain ⟨b, bs, hencode, hne⟩ := hc
  rw [hrest, Mime.fieldLine, hname, List.cons_append, utf8_cons, hencode]
  rintro ⟨tail, htail⟩
  exact hne (List.cons.inj htail).1.symm

theorem fresh_textEntity {contentType text boundary : Str} (htype : IsTextType contentType)
    (h : Avoids boundary text) : Multipart.Fresh (delimiterOf boundary) (textEntity contentType text) := by
  refine Mime.fresh_entity (isField_wireTextFields htype text) (delimiterOf_ne_nil boundary) ?_ h
  intro f hf
  simp only [wireTextFields, List.mem_cons, List.not_mem_nil, or_false] at hf
  rcases hf with rfl | rfl
  · exact not_prefix_fieldLine boundary rfl ⟨0x43, [], rfl, by decide⟩
  · exact not_prefix_fieldLine boundary rfl ⟨0x43, [], rfl, by decide⟩

/-- The characters of a wrapped text. -/
theorem mem_wrapFrom {lineWidth i : Nat} {s : Str} {c : Char} (h : c ∈ wrapFrom lineWidth i s) :
    c ∈ s ∨ c ∈ crlf := by
  induction s generalizing i with
  | nil => cases h
  | cons d s ih =>
      rw [wrapFrom, List.mem_append, List.mem_cons] at h
      rcases h with h | rfl | h
      · split at h
        · exact .inr h
        · cases h
      · exact .inl List.mem_cons_self
      · exact (ih h).imp_left (List.mem_cons_of_mem d)

theorem fresh_fileEntity {att : AttachmentPart} (h : IsMediaType att.contentType) (boundary : Str) :
    Multipart.Fresh (delimiterOf boundary) (fileEntity att) := by
  refine Mime.fresh_entity (isField_fileFields h att.filename) (delimiterOf_ne_nil boundary) ?_ ?_
  · intro f hf
    simp only [attachmentFields, List.mem_cons, List.not_mem_nil, or_false] at hf
    rcases hf with rfl | rfl | rfl
    all_goals exact not_prefix_fieldLine boundary rfl ⟨0x43, [], rfl, by decide⟩
  · refine Multipart.fresh_of_not_infix fun hin => ?_
    obtain ⟨rest, hrest⟩ := delimiterOf_cons boundary
    have hdash : utf8 ['-'] <:+: utf8 (wrapFrom 76 0 (Base64.encode att.data)) := by
      rw [hrest] at hin
      exact (List.singleton_infix_iff _ _).mpr (hin.subset List.mem_cons_self)
    rw [infix_utf8_iff (by decide), List.singleton_infix_iff] at hdash
    rcases mem_wrapFrom hdash with hmem | hmem
    · exact (Base64.isWhitespace_of_isSextetOrPad (Base64.isSextetOrPad_of_mem_encode hmem)).2 rfl
    · exact absurd hmem (by decide)

/-! ## The header of the message -/

/-- The fields of the request that stay. -/
def keptFieldsOf (fields : List (Str × Str)) : List (Str × Str) :=
  fields.filter fun f => keepsField (fieldLine f)

section Header

variable {fields : List (Str × Str)}

theorem IsField.toMime {f : Str × Str} (h : IsField f) : Mime.IsField f where
  name_ne_nil := h.name_ne_nil
  name := h.name
  value := fun c hc => h.oneLine c (by simp [fieldLine, hc])

theorem stripOutgoingContentHeaders_headerBlock (h : ∀ f ∈ fields, IsField f) :
    stripOutgoingContentHeaders (headerBlock fields) = Mime.header (keptFieldsOf fields) := by
  have hkeep : ∀ b, keepLines b (fields.map fieldLine) = (keptFieldsOf fields).map fieldLine := by
    unfold keptFieldsOf
    induction fields with
    | nil => exact fun _ => rfl
    | cons f fields ih =>
        intro b
        rw [List.forall_mem_cons] at h
        rw [List.map_cons, keepLines, h.1.isContinuation, if_neg Bool.false_ne_true]
        cases hf : keepsField (fieldLine f) with
        | true =>
            rw [List.filter_cons_of_pos (by simpa using hf), List.map_cons, ← ih h.2 true]
            rfl
        | false =>
            rw [List.filter_cons_of_neg (by simp [hf]), ← ih h.2 false]
            rfl
  unfold stripOutgoingContentHeaders emitLines
  rw [lines_headerBlock h, hkeep, List.flatMap_map]
  rfl

/-- The fields that describe the content, as they are emitted. -/
theorem emitLines_contentFields (textOnly noAttachments : Bool) (outer bodyText : Str) :
    emitLines (buildOutgoingContentHeadersFor textOnly noAttachments outer
        (if textOnly && noAttachments then
          some (pickTransferEncoding (utf8 (normalizeTextToCrlf bodyText))) else none)) =
      Mime.header (contentFields textOnly noAttachments outer bodyText) := by
  have hversion : "MIME-Version: 1.0".toList = Mime.fieldLine ("MIME-Version".toList, "1.0".toList) := by
    decide
  have hplain : "Content-Type: text/plain; charset=utf-8".toList =
      Mime.fieldLine ("Content-Type".toList, "text/plain".toList ++ "; charset=utf-8".toList) := by decide
  have hencoding : ∀ enc : TextTransferEncoding, "Content-Transfer-Encoding: ".toList ++ enc.label =
      Mime.fieldLine ("Content-Transfer-Encoding".toList, enc.label) := by
    intro enc
    cases enc <;> decide
  have hmixed : "Content-Type: multipart/mixed; boundary=\"".toList =
      "Content-Type".toList ++ ':' :: ' ' :: ("multipart/".toList ++ "mixed".toList ++
        "; boundary=\"".toList) := by decide
  have halternative : "Content-Type: multipart/alternative; boundary=\"".toList =
      "Content-Type".toList ++ ':' :: ' ' :: ("multipart/".toList ++ "alternative".toList ++
        "; boundary=\"".toList) := by decide
  have hparts : ∀ subtype line : Str, line = "Content-Type".toList ++ ':' :: ' ' ::
        ("multipart/".toList ++ subtype ++ "; boundary=\"".toList) →
      line ++ outer ++ ['"'] = Mime.fieldLine (partsField subtype outer) := by
    rintro subtype line rfl
    unfold Mime.fieldLine partsField
    generalize "Content-Type".toList = name
    generalize "multipart/".toList = kind
    generalize "; boundary=\"".toList = parameter
    simp only [List.append_assoc, List.cons_append]
  have hlines : buildOutgoingContentHeadersFor textOnly noAttachments outer
      (if textOnly && noAttachments then
        some (pickTransferEncoding (utf8 (normalizeTextToCrlf bodyText))) else none) =
      (contentFields textOnly noAttachments outer bodyText).map Mime.fieldLine := by
    unfold buildOutgoingContentHeadersFor contentFields
    rw [List.map_cons, hversion]
    congr 1
    by_cases hsingle : (textOnly && noAttachments) = true
    · rw [if_pos hsingle, if_pos hsingle, if_pos hsingle, hplain]
      dsimp only
      rw [hencoding]
      rfl
    · rw [if_neg hsingle, if_neg hsingle]
      cases noAttachments with
      | true =>
          rw [if_pos rfl, if_pos rfl, List.map_singleton, hparts _ _ halternative]
      | false =>
          rw [if_neg Bool.false_ne_true, if_neg Bool.false_ne_true, List.map_singleton, hparts _ _ hmixed]
  rw [hlines, emitLines, List.flatMap_map]
  rfl

/-- The subtypes of the bodies with parts. -/
def IsSubtype (subtype : Str) : Prop := subtype = "alternative".toList ∨ subtype = "mixed".toList

theorem isField_partsField {subtype : Str} (h : IsSubtype subtype) (u : Uuid) :
    Mime.IsField (partsField subtype (makeBoundary u)) := by
  refine ⟨?_, ?_, ?_⟩
  · show "Content-Type".toList ≠ []
    decide
  · show ∀ c ∈ "Content-Type".toList, c ≠ ':' ∧ isWhitespace c = false
    decide
  · have hsubtype : OneLine subtype := by rcases h with rfl | rfl <;> decide
    have hkind : OneLine ("multipart/".toList ++ subtype) :=
      List.forall_mem_append.mpr ⟨by decide, hsubtype⟩
    have hparameter : OneLine ("multipart/".toList ++ subtype ++ "; boundary=\"".toList) :=
      List.forall_mem_append.mpr ⟨hkind, by decide⟩
    exact List.forall_mem_append.mpr ⟨List.forall_mem_append.mpr ⟨hparameter, mem_makeBoundary u⟩, by decide⟩

theorem trim_partsField (subtype boundary : Str) :
    trim (partsField subtype boundary).2 = (partsField subtype boundary).2 := by
  show trim ("multipart/".toList ++ subtype ++ "; boundary=\"".toList ++ boundary ++ '"' :: []) = _
  rw [trim_append_visible _ _ (by decide)]
  rfl

/-- The boundary that is read of the field. -/
theorem boundaryOf_partsField {subtype : Str} (h : IsSubtype subtype) {u : Uuid}
    (hvalue : Mime.fieldValue fields "Content-Type".toList = some (partsField subtype (makeBoundary u)).2) :
    Mime.boundaryOf fields = some (makeBoundary u) := by
  have hprimary : ∀ c ∈ "multipart/".toList ++ subtype, c ≠ '"' ∧ c ≠ ';' := by
    rcases h with rfl | rfl <;> decide
  have hshape : (partsField subtype (makeBoundary u)).2 =
      ("multipart/".toList ++ subtype) ++
        ';' :: ' ' :: ("boundary".toList ++ '=' :: '"' :: (makeBoundary u ++ ['"'])) := by
    have hparameter : "; boundary=\"".toList = ';' :: ' ' :: ("boundary".toList ++ ['=', '"']) := by decide
    unfold partsField
    rw [hparameter]
    simp only [List.append_assoc, List.cons_append, List.nil_append]
  have hmultipart : "multipart/".toList <+: toAsciiLowercase (partsField subtype (makeBoundary u)).2 := by
    unfold partsField toAsciiLowercase
    simp only [List.map_append, List.append_assoc]
    exact List.prefix_append _ _
  rw [Mime.boundaryOf, hvalue, Option.bind_some, if_pos hmultipart, hshape,
    Mime.paramValue_quoted hprimary (by decide) (quotedBody_makeBoundary u),
    if_pos (eqIgnoreAsciiCase_self _)]

theorem fieldValue_append (a b : List (Str × Str)) (name : Str) :
    Mime.fieldValue (a ++ b) name = (Mime.fieldValue a name).or (Mime.fieldValue b name) := by
  rw [Mime.fieldValue, List.find?_append, Option.map_or]
  rfl

/-- No field that describes the content stays. -/
theorem fieldValue_keptFieldsOf (h : ∀ f ∈ fields, IsField f) {name : Str}
    (hname : toAsciiLowercase name ∈ contentFieldNames) :
    Mime.fieldValue (Mime.trimmed (keptFieldsOf fields)) name = none := by
  rw [Mime.fieldValue, Option.map_eq_none_iff, List.find?_eq_none]
  intro f hf hsame
  obtain ⟨g, hg, rfl⟩ := List.mem_map.mp hf
  obtain ⟨hmem, hkept⟩ := List.mem_filter.mp hg
  have hfield := h g hmem
  have hsplit : splitOnce ':' (fieldLine g) = some (g.1, ' ' :: g.2) :=
    splitOnce_eq_some_iff.mpr ⟨rfl, fun hc => (hfield.name _ hc).1 rfl⟩
  have hlower : toAsciiLowercase g.1 = toAsciiLowercase name := by
    simpa [eqIgnoreAsciiCase, toAsciiLowercase] using hsame
  rw [keepsField, hsplit] at hkept
  dsimp only at hkept
  rw [trim_eq_self fun c hc => (hfield.name c hc).2, hlower] at hkept
  simp [hname] at hkept

/-- The fields that describe the content are those that were added. -/
theorem fieldValue_wire (h : ∀ f ∈ fields, IsField f) (added : List (Str × Str)) {name : Str}
    (hname : toAsciiLowercase name ∈ contentFieldNames) :
    Mime.fieldValue (Mime.trimmed (keptFieldsOf fields ++ added)) name =
      Mime.fieldValue (Mime.trimmed added) name := by
  have hsplit : Mime.trimmed (keptFieldsOf fields ++ added) =
      Mime.trimmed (keptFieldsOf fields) ++ Mime.trimmed added := List.map_append
  rw [hsplit, fieldValue_append, fieldValue_keptFieldsOf h hname, Option.none_or]

theorem isField_wire (h : ∀ f ∈ fields, IsField f) (textOnly noAttachments : Bool) (outer : Uuid)
    (bodyText : Str) :
    ∀ f ∈ keptFieldsOf fields ++ contentFields textOnly noAttachments (makeBoundary outer) bodyText,
      Mime.IsField f := by
  have hversion : Mime.IsField ("MIME-Version".toList, "1.0".toList) := by
    refine ⟨?_, ?_, ?_⟩
    · show "MIME-Version".toList ≠ []
      decide
    · show ∀ c ∈ "MIME-Version".toList, c ≠ ':' ∧ isWhitespace c = false
      decide
    · show ∀ c ∈ "1.0".toList, c ≠ '\r' ∧ c ≠ '\n'
      decide
  refine List.forall_mem_append.mpr ⟨fun f hf => (h f (List.mem_of_mem_filter hf)).toMime, ?_⟩
  unfold contentFields
  refine List.forall_mem_cons.mpr ⟨hversion, ?_⟩
  split
  next => exact isField_wireTextFields (.inl rfl) bodyText
  next =>
      refine List.forall_mem_singleton.mpr (isField_partsField ?_ outer)
      split
      · exact .inl rfl
      · exact .inr rfl

/-- The type of the message, where it has parts. -/
theorem boundaryOf_wire (h : ∀ f ∈ fields, IsField f) {textOnly noAttachments : Bool}
    (hparts : (textOnly && noAttachments) = false) (outer : Uuid) (bodyText : Str) :
    Mime.boundaryOf (Mime.trimmed (keptFieldsOf fields ++
      contentFields textOnly noAttachments (makeBoundary outer) bodyText)) = some (makeBoundary outer) := by
  have hsubtype : IsSubtype (if noAttachments then "alternative".toList else "mixed".toList) := by
    cases noAttachments
    · exact .inr rfl
    · exact .inl rfl
  refine boundaryOf_partsField hsubtype ?_
  rw [fieldValue_wire h _ (by decide), contentFields, hparts, if_neg Bool.false_ne_true,
    ← trim_partsField _ (makeBoundary outer)]
  rfl

/-- The type of the message, where it is one text. -/
theorem fieldValue_wire_text (h : ∀ f ∈ fields, IsField f) (outer bodyText : Str) {name : Str}
    (hname : toAsciiLowercase name ∈ contentFieldNames)
    (hversion : eqIgnoreAsciiCase "MIME-Version".toList name = false) :
    Mime.fieldValue (Mime.trimmed (keptFieldsOf fields ++ contentFields true true outer bodyText)) name =
      Mime.fieldValue (wireTextFields "text/plain".toList bodyText) name := by
  have hadded : Mime.trimmed (contentFields true true outer bodyText) =
      ("MIME-Version".toList, trim "1.0".toList) :: wireTextFields "text/plain".toList bodyText := by
    rw [← trimmed_wireTextFields (.inl rfl) bodyText]
    rfl
  rw [fieldValue_wire h _ hname, hadded, Mime.fieldValue, List.find?_cons_of_neg (by simpa using hversion)]
  rfl

end Header

/-! ## The message -/

/-- The texts of a message. -/
def wireTexts (textOnly : Bool) (text html : Str) : List Str := if textOnly then [text] else [text, html]

/-- What the builders make of the texts and the attachments. -/
def wireBody (engine : Base64.Engine) (textOnly : Bool) (text html : Str)
    (attachments : List AttachmentPart) (outer inner : Str) : Bytes :=
  if textOnly then buildTextOnlyBody engine text attachments outer
  else buildMultipartBody engine text html attachments outer inner

section Read

variable {fields : List (Str × Str)} {textOnly : Bool} {text html : Str} {attachments : List AttachmentPart}
  {outer inner : Uuid}

/-- The parts of a text and its HTML version are read as these. -/
theorem read_alternatives (text html : Str) (depth : Nat) :
    [textEntity "text/plain".toList text, textEntity "text/html".toList html].map (Mime.read (depth + 1)) =
      (alternatives decodedData text html).map some := by
  have htext := read_textEntity (.inl rfl) text depth
  have hother := read_textEntity (.inr rfl) html depth
  rw [List.map_cons, List.map_singleton, textEntity, textEntity, htext, hother]
  rfl

theorem read_files (h : ∀ att ∈ attachments, IsMediaType att.contentType) (depth : Nat) :
    (attachments.map fileEntity).map (Mime.read (depth + 1)) = (attachments.map fileLeaf).map some := by
  rw [List.map_map, List.map_map]
  exact List.map_congr_left fun att hatt => read_fileEntity (h att hatt) depth

/-- A body with a text and its HTML version. -/
theorem fresh_alternatives {boundary : Str} (hplain : Avoids boundary text) (hhtml : Avoids boundary html) :
    ∀ part ∈ [textEntity "text/plain".toList text, textEntity "text/html".toList html],
      Multipart.Fresh (delimiterOf boundary) part :=
  List.forall_mem_cons.mpr ⟨fresh_textEntity (.inl rfl) hplain,
    List.forall_mem_singleton.mpr (fresh_textEntity (.inr rfl) hhtml)⟩

/-- The part that holds a text and its HTML version. -/
def alternativeEntity (inner text html : Str) : Bytes :=
  Mime.entity [partsField "alternative".toList inner] (Multipart.write (delimiterOf inner)
    [textEntity "text/plain".toList text, textEntity "text/html".toList html])

theorem isField_alternative : ∀ f ∈ [partsField "alternative".toList (makeBoundary inner)], Mime.IsField f :=
  List.forall_mem_singleton.mpr (isField_partsField (.inl rfl) inner)

theorem read_alternativeEntity (havoid : Avoids (makeBoundary inner) text)
    (havoidHtml : Avoids (makeBoundary inner) html) (depth : Nat) :
    Mime.read (depth + 2) (alternativeEntity (makeBoundary inner) text html) =
      some (.node [partsField "alternative".toList (makeBoundary inner)]
        (alternatives decodedData text html)) := by
  have htrim : Mime.trimmed [partsField "alternative".toList (makeBoundary inner)] =
      [partsField "alternative".toList (makeBoundary inner)] := by
    show [(_, trim (partsField "alternative".toList (makeBoundary inner)).2)] = _
    rw [trim_partsField]
  have hboundary : Mime.boundaryOf (Mime.trimmed [partsField "alternative".toList (makeBoundary inner)]) =
      some (makeBoundary inner) := by
    rw [htrim]
    exact boundaryOf_partsField (.inl rfl) rfl
  have hread := Mime.read_node isField_alternative hboundary (isDelimiter_makeBoundary inner) (by simp)
    (fresh_alternatives havoid havoidHtml) (read_alternatives text html depth)
  rwa [htrim] at hread

/-- Nothing in that part looks like the delimiter of the parts around it: the two boundaries differ. -/
theorem fresh_alternativeEntity (hne : outer.simple ≠ inner.simple)
    (havoid : Avoids (makeBoundary outer) text) (havoidHtml : Avoids (makeBoundary outer) html) :
    Multipart.Fresh (delimiterOf (makeBoundary outer))
      (alternativeEntity (makeBoundary inner) text html) := by
  refine Mime.fresh_entity isField_alternative (delimiterOf_ne_nil _) ?_ ?_
  · exact List.forall_mem_singleton.mpr (not_prefix_fieldLine _ rfl ⟨0x43, [], rfl, by decide⟩)
  · exact Multipart.fresh_write (isDelimiter_makeBoundary inner) (delimiterOf_ne_nil _)
      (not_prefix_delimiter hne) (fresh_alternatives havoid havoidHtml)

theorem fresh_files (h : ∀ att ∈ attachments, IsMediaType att.contentType) (boundary : Str) :
    ∀ part ∈ attachments.map fileEntity, Multipart.Fresh (delimiterOf boundary) part := by
  intro part hpart
  obtain ⟨att, hatt, rfl⟩ := List.mem_map.mp hpart
  exact fresh_fileEntity (h att hatt) _

/-- One text. -/
theorem read_wire_text (engine : Base64.Engine) (hfields : ∀ f ∈ fields, IsField f) :
    Mime.read 3 (Mime.entity (keptFieldsOf fields ++ contentFields true true (makeBoundary outer) text)
        (wireBody engine true text html [] (makeBoundary outer) (makeBoundary inner))) =
      some (treeOf decodedData (keptFieldsOf fields) (makeBoundary outer) (makeBoundary inner) true text html
        []) := by
  have hencoding := fieldValue_wire_text hfields (makeBoundary outer) text (by decide)
    (by decide : eqIgnoreAsciiCase "MIME-Version".toList "Content-Transfer-Encoding".toList = false)
  have htype := fieldValue_wire_text hfields (makeBoundary outer) text (by decide)
    (by decide : eqIgnoreAsciiCase "MIME-Version".toList "Content-Type".toList = false)
  have hboundary : Mime.boundaryOf (Mime.trimmed (keptFieldsOf fields ++
      contentFields true true (makeBoundary outer) text)) = none := by
    rw [Mime.boundaryOf, htype]
    exact boundaryOf_wireTextFields (.inl rfl) text
  exact Mime.read_leaf (isField_wire hfields true true outer text) hboundary
    (decodeBody_text hencoding lastBreak) 2

/-- A message with parts, from its body and what is read of the parts. -/
theorem read_wire_parts (engine : Base64.Engine) (hfields : ∀ f ∈ fields, IsField f)
    (hsome : (textOnly && decide (attachments = [])) = false) {parts : List Bytes} {trees : List Mime.Tree}
    (hbody : wireBody engine textOnly text html attachments (makeBoundary outer) (makeBoundary inner) =
      Multipart.write (delimiterOf (makeBoundary outer)) parts)
    (hne : parts ≠ []) (hfresh : ∀ part ∈ parts, Multipart.Fresh (delimiterOf (makeBoundary outer)) part)
    (hparts : parts.map (Mime.read 2) = trees.map some) :
    Mime.read 3 (Mime.entity
        (keptFieldsOf fields ++ contentFields textOnly (attachments = []) (makeBoundary outer) text)
        (wireBody engine textOnly text html attachments (makeBoundary outer) (makeBoundary inner))) =
      some (.node (Mime.trimmed (keptFieldsOf fields ++
        contentFields textOnly (attachments = []) (makeBoundary outer) text)) trees) := by
  rw [hbody]
  exact Mime.read_node (isField_wire hfields textOnly (attachments = []) outer text)
    (boundaryOf_wire hfields hsome outer text) (isDelimiter_makeBoundary outer) hne hfresh hparts

/-- **A message is read.** -/
theorem read_wire_decoded (engine : Base64.Engine) (hfields : ∀ f ∈ fields, IsField f)
    (hne : outer.simple ≠ inner.simple)
    (htypes : ∀ att ∈ attachments, IsMediaType att.contentType)
    (htexts : ∀ t ∈ wireTexts textOnly text html,
      Avoids (makeBoundary outer) t ∧ Avoids (makeBoundary inner) t) :
    Mime.read 3 (Mime.entity
        (keptFieldsOf fields ++ contentFields textOnly (attachments = []) (makeBoundary outer) text)
        (wireBody engine textOnly text html attachments (makeBoundary outer) (makeBoundary inner))) =
      some (treeOf decodedData (keptFieldsOf fields) (makeBoundary outer) (makeBoundary inner) textOnly text
        html attachments) := by
  have hfiles := fresh_files htypes (makeBoundary outer)
  cases textOnly with
  | true =>
      obtain ⟨havoid, -⟩ := htexts text (List.mem_singleton_self text)
      by_cases hnone : attachments = []
      · subst hnone
        exact read_wire_text engine hfields
      · -- a text and attachments
        rw [treeOf, if_pos rfl, if_neg hnone]
        refine read_wire_parts engine hfields (by simp [hnone]) (buildTextOnlyBody_eq engine hnone text _)
          (List.cons_ne_nil _ _) (List.forall_mem_cons.mpr ⟨fresh_textEntity (.inl rfl) havoid, hfiles⟩) ?_
        rw [List.map_cons, List.map_cons, read_files htypes, textEntity, read_textEntity (.inl rfl)]
  | false =>
      obtain ⟨houter, hinner⟩ := htexts text (List.mem_cons_self ..)
      obtain ⟨houterHtml, hinnerHtml⟩ := htexts html (by simp [wireTexts])
      by_cases hnone : attachments = []
      · -- a text and its HTML version
        have hbody : wireBody engine false text html attachments (makeBoundary outer) (makeBoundary inner) =
            Multipart.write (delimiterOf (makeBoundary outer))
              [textEntity "text/plain".toList text, textEntity "text/html".toList html] := by
          rw [wireBody, if_neg Bool.false_ne_true, buildMultipartBody, if_pos hnone, buildAlternativeBody_eq]
        rw [treeOf, if_neg Bool.false_ne_true, if_pos hnone]
        exact read_wire_parts engine hfields rfl hbody (List.cons_ne_nil _ _)
          (fresh_alternatives houter houterHtml) (read_alternatives text html 1)
      · -- these as the first part, and attachments
        have hbody : wireBody engine false text html attachments (makeBoundary outer) (makeBoundary inner) =
            Multipart.write (delimiterOf (makeBoundary outer))
              (alternativeEntity (makeBoundary inner) text html :: attachments.map fileEntity) := by
          rw [wireBody, if_neg Bool.false_ne_true, buildMultipartBody_eq engine hnone,
            buildAlternativeBody_eq, alternativeEntity]
        have hfirst := fresh_alternativeEntity hne houter houterHtml
        have hnested := read_alternativeEntity hinner hinnerHtml 0
        rw [treeOf, if_neg Bool.false_ne_true, if_neg hnone]
        refine read_wire_parts engine hfields rfl hbody (List.cons_ne_nil _ _)
          (List.forall_mem_cons.mpr ⟨hfirst, hfiles⟩) ?_
        rw [List.map_cons, List.map_cons, read_files htypes, hnested]

/-- Texts that are read back are read as they are meant to be. -/
theorem treeOf_decodedData (h : ∀ t ∈ wireTexts textOnly text html, ReadsBack t)
    (fields : List (Str × Str)) (outer inner : Str) (attachments : List AttachmentPart) :
    treeOf decodedData fields outer inner textOnly text html attachments =
      wireTree fields outer inner textOnly text html attachments := by
  have hpart : ∀ t, ReadsBack t → decodedData.part t = meantData.part t := by
    intro t ht
    have hread := @decodedText_eq t ht (fun _ => []) (.inl rfl)
    rwa [List.append_nil] at hread
  have hwhole : ∀ t, ReadsBack t → decodedData.whole t = meantData.whole t := fun t ht =>
    decodedText_eq ht (lastBreak_cases t)
  unfold wireTree treeOf alternatives textLeaf
  cases textOnly with
  | true =>
      have htext := h text (List.mem_singleton_self text)
      dsimp only
      rw [if_pos rfl, if_pos rfl, hpart text htext, hwhole text htext]
  | false =>
      have htext := h text (List.mem_cons_self ..)
      have hhtml := h html (by simp [wireTexts])
      dsimp only
      rw [if_neg Bool.false_ne_true, if_neg Bool.false_ne_true, hpart text htext, hpart html hhtml]

/-- **A message is read as it is meant to be.** -/
theorem read_wire (engine : Base64.Engine) (hfields : ∀ f ∈ fields, IsField f)
    (hne : outer.simple ≠ inner.simple)
    (htypes : ∀ att ∈ attachments, IsMediaType att.contentType)
    (htexts : ∀ t ∈ wireTexts textOnly text html,
      ReadsBack t ∧ Avoids (makeBoundary outer) t ∧ Avoids (makeBoundary inner) t) :
    Mime.read 3 (Mime.entity
        (keptFieldsOf fields ++ contentFields textOnly (attachments = []) (makeBoundary outer) text)
        (wireBody engine textOnly text html attachments (makeBoundary outer) (makeBoundary inner))) =
      some (wireTree (keptFieldsOf fields) (makeBoundary outer) (makeBoundary inner) textOnly text html
        attachments) := by
  rw [read_wire_decoded engine hfields hne htypes fun t ht => (htexts t ht).2,
    treeOf_decodedData fun t ht => (htexts t ht).1]

end Read

/-- The bytes of a message whose request begins with a block of fields. -/
theorem assembleWireMessage_eq_ok {engine : Base64.Engine} {markdownToHtml : Str → Str} {outer inner : Uuid}
    {request bodySection wire : Bytes} {shape : WireShape} {fields : List (Str × Str)}
    (hfields : ∀ f ∈ fields, IsField f)
    (hsplit : splitHeadersBody request = .ok (headerBlock fields, bodySection))
    (h : assembleWireMessage (mime engine markdownToHtml) outer inner request shape = .ok wire)
    {content : Str × List AttachmentPart}
    (hcontent : extractMarkdownAndAttachments engine (headerBlock fields) bodySection = content) :
    ∃ html, (shape.textOnly = false → htmlVersion markdownToHtml shape.htmlBody
        (appendSignatureToBody content.1 shape.signature) = .ok html) ∧
      wire = Mime.entity
        (keptFieldsOf fields ++ contentFields shape.textOnly (content.2 = []) (makeBoundary outer)
          (appendSignatureToBody content.1 shape.signature))
        (wireBody engine shape.textOnly (appendSignatureToBody content.1 shape.signature) html content.2
          (makeBoundary outer) (makeBoundary inner)) := by
  have hheader : ∀ body : Bytes, utf8 (stripOutgoingContentHeaders (headerBlock fields) ++
      Mime.header (contentFields shape.textOnly (content.2 = []) (makeBoundary outer)
        (appendSignatureToBody content.1 shape.signature)) ++ "\r\n".toList) ++ body =
      Mime.entity (keptFieldsOf fields ++ contentFields shape.textOnly (content.2 = []) (makeBoundary outer)
        (appendSignatureToBody content.1 shape.signature)) body := by
    intro body
    have happend : ∀ a b : List (Str × Str), Mime.header (a ++ b) = Mime.header a ++ Mime.header b :=
      fun a b => List.flatMap_append
    rw [stripOutgoingContentHeaders_headerBlock hfields, Mime.entity, happend, utf8_append, List.append_assoc]
    rfl
  unfold assembleWireMessage mime at h
  rw [hsplit] at h
  dsimp only at h
  rw [hcontent] at h
  split at h
  next => cases h
  next m hm =>
      have hwire := Except.ok.inj h
      cases htext : shape.textOnly with
      | true =>
          rw [htext, if_pos rfl] at hm
          obtain rfl := Except.ok.inj hm
          refine ⟨[], by simp, hwire.symm.trans ?_⟩
          rw [htext] at hheader
          rw [htext, emitLines_contentFields, hheader]
          rfl
      | false =>
          rw [htext, if_neg Bool.false_ne_true] at hm
          obtain ⟨html, hhtml, hm⟩ := exceptBind_eq_ok.mp hm
          obtain rfl := Except.ok.inj hm
          refine ⟨html, fun _ => hhtml, hwire.symm.trans ?_⟩
          rw [htext] at hheader
          rw [htext, emitLines_contentFields, hheader]
          rfl

/-- **A MIME reader reads the message as it is meant to be**: its text with the signature, the HTML version
next to it, and the attachments behind them with their bytes, under the fields of the request that do not
describe the content.  The texts are such that RFC 2045 reads them back, and the boundaries are in none of
their lines. -/
theorem read_assembleWireMessage {engine : Base64.Engine} {markdownToHtml : Str → Str} {outer inner : Uuid}
    {request bodySection wire : Bytes} {shape : WireShape} {fields : List (Str × Str)}
    (hfields : ∀ f ∈ fields, IsField f)
    (hsplit : splitHeadersBody request = .ok (headerBlock fields, bodySection))
    (h : assembleWireMessage (mime engine markdownToHtml) outer inner request shape = .ok wire)
    (hne : outer.simple ≠ inner.simple) {content : Str × List AttachmentPart}
    (hcontent : extractMarkdownAndAttachments engine (headerBlock fields) bodySection = content)
    (htypes : ∀ att ∈ content.2, IsMediaType att.contentType) :
    ∃ html, (shape.textOnly = false → htmlVersion markdownToHtml shape.htmlBody
        (appendSignatureToBody content.1 shape.signature) = .ok html) ∧
      ((∀ t ∈ wireTexts shape.textOnly (appendSignatureToBody content.1 shape.signature) html,
          ReadsBack t ∧ Avoids (makeBoundary outer) t ∧ Avoids (makeBoundary inner) t) →
        Mime.read 3 wire = some (wireTree (keptFieldsOf fields) (makeBoundary outer) (makeBoundary inner)
          shape.textOnly (appendSignatureToBody content.1 shape.signature) html content.2)) := by
  obtain ⟨html, hhtml, rfl⟩ := assembleWireMessage_eq_ok hfields hsplit h hcontent
  exact ⟨html, hhtml, read_wire engine hfields hne htypes⟩

/-- A signature, and an HTML version of its own. -/
def noteShape : WireShape where
  signature := "Sent by aimx".toList
  textOnly := false
  htmlBody := some (utf8 "<p>Hi</p>".toList)

theorem noteBoundaries : (Uuid.repeated 1).simple ≠ (Uuid.repeated 2).simple := by decide

/-- No boundary is in the texts of the note. -/
theorem note_apart : ∀ t ∈ wireTexts noteShape.textOnly
      (appendSignatureToBody "Hi".toList noteShape.signature) (fromUtf8Lossy (utf8 "<p>Hi</p>".toList)),
    ∀ u ∈ [Uuid.repeated 1, Uuid.repeated 2],
      ¬ "--".toList ++ makeBoundary u <:+: normalizeTextToCrlf t := by
  rw [fromUtf8Lossy_utf8]
  decide +kernel

/-- The texts of the note are read back. -/
theorem note_texts : ∀ t ∈ wireTexts noteShape.textOnly
      (appendSignatureToBody "Hi".toList noteShape.signature) (fromUtf8Lossy (utf8 "<p>Hi</p>".toList)),
    ReadsBack t ∧ Avoids (makeBoundary (.repeated 1)) t ∧ Avoids (makeBoundary (.repeated 2)) t := by
  have hplain : ∀ t ∈ wireTexts noteShape.textOnly
      (appendSignatureToBody "Hi".toList noteShape.signature) (fromUtf8Lossy (utf8 "<p>Hi</p>".toList)),
      pickTransferEncoding (utf8 (normalizeTextToCrlf t)) = .sevenBit := by
    rw [fromUtf8Lossy_utf8]
    decide +kernel
  exact fun t ht => ⟨.inl (hplain t ht), avoids_of_apart (note_apart t ht _ (by simp)),
    avoids_of_apart (note_apart t ht _ (by simp))⟩

theorem note_assembled {message body : Bytes} {headers : Str}
    (h : splitHeadersBody message = .ok (headers, body)) :
    ∃ wire, assembleWireMessage (mime Base64.standard id) (.repeated 1) (.repeated 2) message noteShape =
      .ok wire := by
  unfold assembleWireMessage
  rw [h]
  exact ⟨_, rfl⟩

/-- The message of the note is read as its text, its HTML version and its file. -/
theorem read_noteShape : ∃ message wire, composeRequest noteEnv noteArgs = .ok message ∧
    assembleWireMessage (mime Base64.standard id) (.repeated 1) (.repeated 2) message noteShape = .ok wire ∧
    Mime.read 3 wire = some (wireTree (keptFieldsOf (composedFields noteEnv noteArgs))
      (makeBoundary (.repeated 1)) (makeBoundary (.repeated 2)) false "Hi\n\nSent by aimx".toList
      "<p>Hi</p>".toList [⟨"text/plain".toList, "a.txt".toList, [0x61]⟩]) := by
  obtain ⟨message, headers, body, h, hsplit⟩ := noteArgs_composed
  obtain ⟨rfl, hfields, hcontent⟩ := sentContent_extract Base64.standard (by decide) noteArgs_fresh h hsplit
  cases hcontent with
  | text hnone => cases hnone
  | files sources hsome hpaths hreads hfiles htext =>
      obtain rfl := noteSources hpaths hreads
      have hiff := content_eq_iff (List.cons_ne_nil _ _) hfiles htext
      obtain ⟨wire, hwire⟩ := note_assembled hsplit
      have htypes : ∀ att ∈ [sentFile noteEnv ("a.txt".toList, [0x61])], IsMediaType att.contentType := by
        unfold IsMediaType
        decide
      obtain ⟨html, hhtml, hread⟩ := read_assembleWireMessage hfields hsplit hwire noteBoundaries
        (hiff.mpr (by decide)) htypes
      obtain rfl := Except.ok.inj (hhtml rfl)
      have htree := hread note_texts
      rw [fromUtf8Lossy_utf8] at htree
      exact ⟨message, wire, h, hwire, htree⟩

/-! ## From the sender to the reader -/

/-- The primary value of a media type is one. -/
theorem isMediaType_primaryValue {contentType : Str} (h : IsMediaType contentType) :
    IsMediaType (primaryValue contentType) := by
  intro c hc
  have htrim : ∀ c ∈ trim contentType, c ∈ contentType := fun c hc => mem_of_mem_trim hc
  unfold primaryValue at hc
  split at hc
  next primary rest hcut =>
      have hmem : c ∈ trim contentType := by
        rw [(splitOnce_eq_some_iff.mp hcut).1]
        exact List.mem_append_left _ (mem_of_mem_trim hc)
      exact h c (htrim c hmem)
  next => exact h c (htrim c hc)

/-- **What was sent is what is read.**  A composed message goes through the daemon to a MIME reader: the
reader has its text with the signature, and each of its files under its name, with its bytes, if there is a
text and no file is empty. -/
theorem read_composeRequest {engine : Base64.Engine} {env : ComposeEnv} {args : SendArgs}
    {markdownToHtml : Str → Str} {outer inner : Uuid} {shape : WireShape} {message wire : Bytes}
    (htypes : ∀ path ∈ args.attachments, IsMediaType (env.contentType path))
    (hfresh : ∀ text ∈ composedTexts env args, ¬ "--".toList ++ makeBoundary env.boundaryUuid <:+: text)
    (hfull : args.attachments ≠ [] → sentText args.body ≠ [] ∧
      ∀ path ∈ args.attachments, env.files.read path ≠ .ok [])
    (hne : outer.simple ≠ inner.simple) (h : composeRequest env args = .ok message)
    (hwire : assembleWireMessage (mime engine markdownToHtml) outer inner message shape = .ok wire) :
    ∃ (text html : Str) (files : List AttachmentPart),
      ((args.attachments = [] ∧ text = normalizeCrlf args.body ++ crlf ∧ files = []) ∨
        ∃ sources : List (Str × Bytes), sources.map Prod.fst = args.attachments ∧
          (∀ source ∈ sources, env.files.read source.1 = .ok source.2) ∧
          text = sentText args.body ∧ files = sources.map (sentFile env)) ∧
      (shape.textOnly = false → htmlVersion markdownToHtml shape.htmlBody
        (appendSignatureToBody text shape.signature) = .ok html) ∧
      ((∀ t ∈ wireTexts shape.textOnly (appendSignatureToBody text shape.signature) html,
          ReadsBack t ∧ Avoids (makeBoundary outer) t ∧ Avoids (makeBoundary inner) t) →
        Mime.read 3 wire = some (wireTree (keptFieldsOf (composedFields env args)) (makeBoundary outer)
          (makeBoundary inner) shape.textOnly (appendSignatureToBody text shape.signature) html files)) := by
  obtain ⟨headers, body, hsplit⟩ := exists_split_of_assembleWireMessage hwire
  obtain ⟨rfl, hfields, hcontent⟩ :=
    sentContent_extract engine (fun path hpath c hc => (htypes path hpath c hc).1) hfresh h hsplit
  cases hcontent with
  | text hnone hcontent =>
      obtain ⟨html, hhtml, rfl⟩ := assembleWireMessage_eq_ok hfields hsplit hwire hcontent
      exact ⟨_, html, [], .inl ⟨hnone, rfl, rfl⟩, hhtml, read_wire engine hfields hne (by simp)⟩
  | files sources hsome hpaths hreads hfiles htextIf =>
      have hcontent := content_eq_iff (ne_nil_of_paths hpaths hsome) hfiles htextIf
      obtain ⟨htext, hempty⟩ := hfull hsome
      have hpath : ∀ source ∈ sources, source.1 ∈ args.attachments := fun source hsource =>
        hpaths ▸ List.mem_map_of_mem hsource
      have hall : ∀ source ∈ sources, source.2 ≠ [] := by
        intro source hsource hnil
        have hread := hreads source hsource
        rw [hnil] at hread
        exact hempty _ (hpath source hsource) hread
      obtain ⟨html, hhtml, rfl⟩ :=
        assembleWireMessage_eq_ok hfields hsplit hwire (hcontent.mpr ⟨htext, hall⟩)
      refine ⟨_, html, _, .inr ⟨sources, hpaths, hreads, rfl, rfl⟩, hhtml, read_wire engine hfields hne ?_⟩
      intro att hatt
      obtain ⟨source, hsource, rfl⟩ := List.mem_map.mp hatt
      exact isMediaType_primaryValue (htypes _ (hpath source hsource))

/-- The note arrives. -/
theorem read_note : ∃ message wire text html files, composeRequest noteEnv noteArgs = .ok message ∧
    assembleWireMessage (mime Base64.standard id) (.repeated 1) (.repeated 2) message noteShape = .ok wire ∧
    text = "Hi".toList ∧ files = [⟨"text/plain".toList, "a.txt".toList, [0x61]⟩] ∧
    Mime.read 3 wire = some (wireTree (keptFieldsOf (composedFields noteEnv noteArgs))
      (makeBoundary (.repeated 1)) (makeBoundary (.repeated 2)) false
      (appendSignatureToBody text noteShape.signature) html files) := by
  obtain ⟨message, headers, body, h, hsplit⟩ := noteArgs_composed
  obtain ⟨wire, hwire⟩ := note_assembled hsplit
  have htypes : ∀ path ∈ noteArgs.attachments, IsMediaType (noteEnv.contentType path) := by
    unfold IsMediaType
    decide
  have hfull : noteArgs.attachments ≠ [] → sentText noteArgs.body ≠ [] ∧
      ∀ path ∈ noteArgs.attachments, noteEnv.files.read path ≠ .ok [] :=
    fun _ => ⟨by decide, fun _ _ hread => List.cons_ne_nil _ _ (Except.ok.inj hread)⟩
  obtain ⟨text, html, files, hcontent, hhtml, hread⟩ :=
    read_composeRequest htypes noteArgs_fresh hfull noteBoundaries h hwire
  rcases hcontent with ⟨hnone, -, -⟩ | ⟨sources, hpaths, hreads, rfl, rfl⟩
  · cases hnone
  obtain rfl := noteSources hpaths hreads
  obtain rfl := Except.ok.inj (hhtml rfl)
  exact ⟨message, wire, _, _, _, h, hwire, rfl, rfl, hread note_texts⟩

end Send
end Aimx
