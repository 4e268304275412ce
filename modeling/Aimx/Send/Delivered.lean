import Aimx.Send.LineEnds
import Aimx.Send.WireTree

/-!
# What arrives

The text and the files of a message, from the arguments of the sender to a reader of the mail.

* `lfText_appendSignatureToBody` — the lines of a text with its signature;
* `Delivers` — a reader of the mail finds a text and some files;
* `treeOf_finds` — what a reader finds in the tree of a message;
* `Deliverable` — the messages that arrive, and `delivers_iff`: they do.
-/

namespace Aimx
namespace Send

open Text
open Text.Mime (Tree)
open scoped Literal

/-! ## What a reader finds -/

/-- A reader of the mail finds a text, up to one line terminator at its end, and some files under their names,
and neither another text nor another file. -/
def Delivers (wire : Bytes) (text : Str) (files : List (Str × Bytes)) : Prop :=
  ∃ tree, Mime.read 3 wire = some tree ∧
    (∃ data, tree.plainTexts = [data] ∧ SameText data (utf8 (normalizeTextToCrlf text))) ∧
    tree.files = files.map fun file => (some file.1, file.2)

theorem isAttachment_wireTextFields {contentType : Str} (h : IsTextType contentType) (text : Str) :
    Mime.isAttachment (wireTextFields contentType text) = false := by
  unfold wireTextFields
  cases pickTransferEncoding (utf8 (normalizeTextToCrlf text)) <;> rcases h with rfl | rfl <;> decide

theorem isPlainText_wireTextFields {contentType : Str} (h : IsTextType contentType) (text : Str) :
    Mime.isPlainText (wireTextFields contentType text) = (contentType == "text/plain".toList) := by
  unfold wireTextFields
  cases pickTransferEncoding (utf8 (normalizeTextToCrlf text)) <;> rcases h with rfl | rfl <;> decide

theorem isAttachment_fileFields (contentType name : Str) :
    Mime.isAttachment (Mime.trimmed (attachmentFields contentType (escapeFilename name))) = true := by
  rw [Mime.isAttachment, fieldValue_disposition, Option.any_some, Mime.primaryOf_append (by decide)]
  decide

section Leaves

variable (data : TextData) (attachments : List AttachmentPart)

/-- A file is found under its name, and is no text. -/
theorem fileLeaf_finds (att : AttachmentPart) :
    (fileLeaf att).plainTexts = [] ∧ (fileLeaf att).files = [(some (cleanName att.filename), att.data)] := by
  have hfile := isAttachment_fileFields att.contentType att.filename
  have hname : Mime.fileName (Mime.trimmed (attachmentFields att.contentType (escapeFilename att.filename))) =
      some (cleanName att.filename) := fileName_attachmentFields _ _
  unfold fileLeaf
  rw [Tree.plainTexts_leaf, Tree.files_leaf, Mime.isPlainText, hfile, hname]
  exact ⟨rfl, rfl⟩

theorem files_finds :
    (attachments.map fileLeaf).flatMap Tree.plainTexts = [] ∧
      (attachments.map fileLeaf).flatMap Tree.files =
        attachments.map fun att => (some (cleanName att.filename), att.data) := by
  induction attachments with
  | nil => exact ⟨rfl, rfl⟩
  | cons att attachments ih =>
      obtain ⟨htexts, hfiles⟩ := fileLeaf_finds att
      rw [List.map_cons, List.flatMap_cons, List.flatMap_cons, ih.1, ih.2, htexts, hfiles]
      exact ⟨rfl, rfl⟩

theorem textLeaf_finds {contentType : Str} (h : IsTextType contentType) (text : Str) :
    (textLeaf data contentType text).plainTexts =
        (if contentType = "text/plain".toList then [data.part text] else []) ∧
      (textLeaf data contentType text).files = [] := by
  unfold textLeaf
  rw [Tree.plainTexts_leaf, Tree.files_leaf, isPlainText_wireTextFields h, isAttachment_wireTextFields h]
  exact ⟨by simp only [beq_iff_eq], rfl⟩

theorem alternatives_finds (text html : Str) :
    (alternatives data text html).flatMap Tree.plainTexts = [data.part text] ∧
      (alternatives data text html).flatMap Tree.files = [] := by
  obtain ⟨htext, hfiles⟩ := textLeaf_finds data (.inl rfl) text
  obtain ⟨hhtml, hfiles'⟩ := textLeaf_finds data (.inr rfl) html
  have hne : "text/html".toList ≠ "text/plain".toList := by decide
  rw [if_pos rfl] at htext
  rw [if_neg hne] at hhtml
  simp only [alternatives, List.flatMap_cons, List.flatMap_nil, htext, hfiles, hhtml, hfiles']
  exact ⟨rfl, rfl⟩

variable {fields : List (Str × Str)} (hfields : ∀ f ∈ fields, IsField f)
  (hdisposition : ∀ f ∈ fields, eqIgnoreAsciiCase f.1 "Content-Disposition".toList = false)

include hdisposition in
/-- The message is no attachment. -/
theorem isAttachment_wire (outer text : Str) :
    Mime.isAttachment (Mime.trimmed (keptFieldsOf fields ++ contentFields true true outer text)) = false := by
  have hadded : ∀ name ∈ (contentFields true true outer text).map Prod.fst,
      eqIgnoreAsciiCase name "Content-Disposition".toList = false := by
    show ∀ name ∈ ["MIME-Version".toList, "Content-Type".toList, "Content-Transfer-Encoding".toList], _
    decide
  have hnone : Mime.fieldValue (Mime.trimmed (keptFieldsOf fields ++ contentFields true true outer text))
      "Content-Disposition".toList = none := by
    rw [Mime.fieldValue, Option.map_eq_none_iff, List.find?_eq_none]
    intro f hf
    obtain ⟨g, hg, rfl⟩ := List.mem_map.mp hf
    rw [Bool.not_eq_true]
    rcases List.mem_append.mp hg with hg | hg
    · exact hdisposition g (List.mem_of_mem_filter hg)
    · exact hadded g.1 (List.mem_map_of_mem (f := Prod.fst) hg)
  rw [Mime.isAttachment, hnone]
  rfl

include hfields hdisposition in
theorem isPlainText_wire (outer text : Str) :
    Mime.isPlainText (Mime.trimmed (keptFieldsOf fields ++ contentFields true true outer text)) = true := by
  have htype := fieldValue_wire_text hfields outer text (by decide)
    (by decide : eqIgnoreAsciiCase "MIME-Version".toList "Content-Type".toList = false)
  have hplain := isPlainText_wireTextFields (.inl rfl) text
  rw [Mime.isPlainText, isAttachment_wireTextFields (.inl rfl)] at hplain
  rw [Mime.isPlainText, isAttachment_wire hdisposition, htype, hplain]
  exact beq_self_eq_true _

include hfields hdisposition in
/-- **What a reader finds in a message**: its text, and the files. -/
theorem treeOf_finds (outer inner : Str) (textOnly : Bool) (text html : Str) :
    (treeOf data (keptFieldsOf fields) outer inner textOnly text html attachments).plainTexts =
        [if textOnly = true ∧ attachments = [] then data.whole text else data.part text] ∧
      (treeOf data (keptFieldsOf fields) outer inner textOnly text html attachments).files =
        attachments.map fun att => (some (cleanName att.filename), att.data) := by
  obtain ⟨htexts, hfiles⟩ := files_finds attachments
  obtain ⟨hplain, hnofile⟩ := textLeaf_finds data (.inl rfl) text
  obtain ⟨hboth, hnofile'⟩ := alternatives_finds data text html
  rw [if_pos rfl] at hplain
  unfold treeOf
  dsimp only
  cases textOnly with
  | true =>
      rw [if_pos rfl]
      by_cases hnone : attachments = []
      · -- the message is the text
        subst hnone
        rw [if_pos rfl, if_pos ⟨rfl, rfl⟩, Tree.plainTexts_leaf, Tree.files_leaf]
        have htop := isPlainText_wire hfields hdisposition outer text
        have htop' := isAttachment_wire hdisposition outer text
        exact ⟨if_pos htop, if_neg fun h => Bool.false_ne_true (htop'.symm.trans h)⟩
      · rw [if_neg hnone, if_neg fun h => hnone h.2, Tree.plainTexts_node, Tree.files_node, List.flatMap_cons,
          List.flatMap_cons, hplain, hnofile, htexts, hfiles]
        exact ⟨rfl, rfl⟩
  | false =>
      have hparts : ¬ (false = true ∧ attachments = []) := fun h => Bool.false_ne_true h.1
      rw [if_neg Bool.false_ne_true, if_neg hparts]
      by_cases hnone : attachments = []
      · subst hnone
        rw [if_pos rfl, Tree.plainTexts_node, Tree.files_node, hboth, hnofile']
        exact ⟨rfl, rfl⟩
      · -- the two versions are a part of their own
        rw [if_neg hnone, Tree.plainTexts_node, Tree.files_node, List.flatMap_cons, List.flatMap_cons,
          Tree.plainTexts_node, Tree.files_node, hboth, hnofile', htexts, hfiles]
        exact ⟨rfl, rfl⟩

end Leaves

/-! ## The messages that arrive -/

/-- The name of a file without line terminators. -/
def sentName (path : Str) : Str := cleanName ((Ingest.pathFileName path).getD "attachment".toList)

/-- The texts that the daemon sends for a request: the text with the signature, and its HTML version. -/
def emittedTexts (engine : Base64.Engine) (markdownToHtml : Str → Str) (message : Bytes)
    (shape : WireShape) : List Str :=
  match splitHeadersBody message with
  | .error _ => []
  | .ok (headers, body) =>
      let text := appendSignatureToBody (extractMarkdownAndAttachments engine headers body).1 shape.signature
      match htmlVersion markdownToHtml shape.htmlBody text with
      | .ok html => wireTexts shape.textOnly text html
      | .error _ => [text]

/-- The messages that arrive as they were written. -/
structure Deliverable (body signature : Str) (sources : List (Str × Bytes)) : Prop where
  text : sources ≠ [] → sentText body ≠ []
  full : ∀ source ∈ sources, source.2 ≠ []
  feeds : sources ≠ [] → signature = [] → ¬ "\n\n".toList <:+ lfText body
  readsBack : ReadsBack (appendSignatureToBody body signature)

/-- Boundaries that are in none of these texts are in none of them as it is sent. -/
theorem avoids_emittedTexts {engine : Base64.Engine} {markdownToHtml : Str → Str} {message body : Bytes}
    {shape : WireShape} {outer inner : Uuid}
    (hapart : ∀ text ∈ emittedTexts engine markdownToHtml message shape, ∀ u ∈ [outer, inner],
      ¬ "--".toList ++ makeBoundary u <:+: normalizeTextToCrlf text)
    {headers html : Str} (hsplit : splitHeadersBody message = .ok (headers, body))
    (hhtml : shape.textOnly = false → htmlVersion markdownToHtml shape.htmlBody
      (appendSignatureToBody (extractMarkdownAndAttachments engine headers body).1 shape.signature) =
        .ok html) :
    ∀ t ∈ wireTexts shape.textOnly
      (appendSignatureToBody (extractMarkdownAndAttachments engine headers body).1 shape.signature) html,
      Avoids (makeBoundary outer) t ∧ Avoids (makeBoundary inner) t := by
  intro t ht
  have hmem : t ∈ emittedTexts engine markdownToHtml message shape := by
    unfold emittedTexts
    rw [hsplit]
    dsimp only
    cases htext : shape.textOnly with
    | true =>
        rw [htext] at ht
        obtain rfl := List.mem_singleton.mp ht
        split
        · exact List.mem_singleton_self _
        · exact List.mem_singleton_self _
    | false =>
        rw [hhtml htext]
        rwa [htext] at ht
  exact ⟨avoids_of_apart (hapart t hmem outer (by simp)),
    avoids_of_apart (hapart t hmem inner (by simp))⟩

/-- A composed message has no disposition. -/
theorem composedFields_disposition (env : ComposeEnv) (args : SendArgs) :
    ∀ f ∈ composedFields env args, eqIgnoreAsciiCase f.1 "Content-Disposition".toList = false := by
  intro f hf
  have hname : f.1 ∈ fieldNames args := composedFields_names env args ▸ List.mem_map_of_mem hf
  have hnames : ∀ name ∈ fieldNames args, eqIgnoreAsciiCase name "Content-Disposition".toList = false := by
    unfold fieldNames
    simp only [List.forall_mem_append]
    refine ⟨⟨⟨by decide, ?_⟩, by decide⟩, ?_⟩
    · split <;> decide
    · split <;> decide
  exact hnames _ hname

theorem delivers_tree_iff {wire : Bytes} {tree : Tree} (hread : Mime.read 3 wire = some tree) {data : Bytes}
    (htexts : tree.plainTexts = [data]) (text : Str) (files : List (Str × Bytes)) :
    Delivers wire text files ↔ SameText data (utf8 (normalizeTextToCrlf text)) ∧
      tree.files = files.map fun file => (some file.1, file.2) := by
  constructor
  · rintro ⟨other, hother, ⟨found, hfound, hsame⟩, hfiles⟩
    obtain rfl := Option.some.inj (hread.symm.trans hother)
    obtain rfl : data = found := by simpa [htexts] using hfound
    exact ⟨hsame, hfiles⟩
  · rintro ⟨hsame, hfiles⟩
    exact ⟨tree, hread, ⟨data, htexts, hsame⟩, hfiles⟩

section Whole

variable {engine : Base64.Engine} {env : ComposeEnv} {args : SendArgs} {markdownToHtml : Str → Str}
  {outer inner : Uuid} (hne : outer.simple ≠ inner.simple) {shape : WireShape} {message wire : Bytes}
  {sources : List (Str × Bytes)}

include hne in
/-- A message without files. -/
theorem delivers_text_iff (hfields : ∀ f ∈ composedFields env args, IsField f) {html : Str}
    (htexts : ∀ t ∈ wireTexts shape.textOnly
        (appendSignatureToBody (normalizeCrlf args.body ++ crlf) shape.signature) html,
      Avoids (makeBoundary outer) t ∧ Avoids (makeBoundary inner) t) :
    Delivers (Mime.entity
        (keptFieldsOf (composedFields env args) ++ contentFields shape.textOnly
          (([] : List AttachmentPart) = []) (makeBoundary outer)
          (appendSignatureToBody (normalizeCrlf args.body ++ crlf) shape.signature))
        (wireBody engine shape.textOnly
          (appendSignatureToBody (normalizeCrlf args.body ++ crlf) shape.signature) html []
          (makeBoundary outer) (makeBoundary inner)))
        (appendSignatureToBody args.body shape.signature) [] ↔
      ReadsBack (appendSignatureToBody args.body shape.signature) := by
  have hfind := treeOf_finds decodedData [] hfields (composedFields_disposition env args)
    (makeBoundary outer) (makeBoundary inner) shape.textOnly
    (appendSignatureToBody (normalizeCrlf args.body ++ crlf) shape.signature) html
  rw [delivers_tree_iff (read_wire_decoded engine hfields hne (by simp) htexts) hfind.1, hfind.2]
  refine (and_iff_left rfl).trans ?_
  split
  · exact sameText_composed (.inr rfl)
  · exact sameText_composed (.inl rfl)

include hne in
/-- A message with files. -/
theorem delivers_files_iff (hfields : ∀ f ∈ composedFields env args, IsField f)
    (htypes : ∀ source ∈ sources, IsMediaType (env.contentType source.1)) (hsome : sources ≠ [])
    {content : Str × List AttachmentPart} {html : Str}
    (hfiles : content.2 = filesOut env args.body sources)
    (htext : sentText args.body ≠ [] → content.1 = sentText args.body)
    (htexts : ∀ t ∈ wireTexts shape.textOnly (appendSignatureToBody content.1 shape.signature) html,
      Avoids (makeBoundary outer) t ∧ Avoids (makeBoundary inner) t) :
    Delivers (Mime.entity
        (keptFieldsOf (composedFields env args) ++ contentFields shape.textOnly (content.2 = [])
          (makeBoundary outer) (appendSignatureToBody content.1 shape.signature))
        (wireBody engine shape.textOnly (appendSignatureToBody content.1 shape.signature) html content.2
          (makeBoundary outer) (makeBoundary inner)))
        (appendSignatureToBody args.body shape.signature)
        (sources.map fun source => (sentName source.1, source.2)) ↔
      Deliverable args.body shape.signature sources := by
  have hfind := treeOf_finds decodedData content.2 hfields (composedFields_disposition env args)
    (makeBoundary outer) (makeBoundary inner) shape.textOnly
    (appendSignatureToBody content.1 shape.signature) html
  have hmedia : ∀ att ∈ content.2, IsMediaType att.contentType := by
    intro att hatt
    rw [hfiles] at hatt
    obtain ⟨source, hsource, rfl⟩ := mem_filesOut hatt
    exact isMediaType_primaryValue (htypes source hsource)
  rw [delivers_tree_iff (read_wire_decoded engine hfields hne hmedia htexts) hfind.1, hfind.2, hfiles]
  by_cases hgood : sentText args.body ≠ [] ∧ ∀ source ∈ sources, source.2 ≠ []
  · -- the text and all files come out
    obtain ⟨hsent, hfull⟩ := hgood
    have hparts : ¬ (shape.textOnly = true ∧ sources.map (sentFile env) = []) := fun h =>
      hsome (List.map_eq_nil_iff.mp h.2)
    have hnames : (sources.map (sentFile env)).map (fun att => (some (cleanName att.filename), att.data)) =
        (sources.map fun source => (sentName source.1, source.2)).map fun file => (some file.1, file.2) := by
      rw [List.map_map, List.map_map]
      exact List.map_congr_left fun source _ => Prod.ext (congrArg some (cleanName_idem _)) rfl
    have hsame := @sameText_sent args.body shape.signature hsent
    rw [filesOut_eq hsent hfull, if_neg hparts, htext hsent, and_iff_left hnames]
    exact hsame.trans ⟨fun h => ⟨fun _ => hsent, hfull, fun _ => h.2, h.1⟩,
      fun h => ⟨h.readsBack, h.feeds hsome⟩⟩
  · -- there are fewer files
    refine iff_of_false (fun hboth => ?_) fun h => hgood ⟨h.text hsome, h.full⟩
    have hlength := congrArg List.length hboth.2
    rw [List.length_map, List.length_map, List.length_map, length_filesOut_iff hsome] at hlength
    exact hgood hlength

include hne in
/-- **What arrives.**  A composed message arrives with its text, the signature behind it, and its files if and
only if it has a text where it has files, no file is empty, at most one line terminator is lost at the end of
the text, and RFC 2045 reads the text back. -/
theorem delivers_iff (htypes : ∀ path ∈ args.attachments, IsMediaType (env.contentType path))
    (hfresh : ∀ text ∈ composedTexts env args, ¬ "--".toList ++ makeBoundary env.boundaryUuid <:+: text)
    (hapart : ∀ text ∈ emittedTexts engine markdownToHtml message shape, ∀ u ∈ [outer, inner],
      ¬ "--".toList ++ makeBoundary u <:+: normalizeTextToCrlf text)
    (hpaths : sources.map Prod.fst = args.attachments)
    (hreads : ∀ source ∈ sources, env.files.read source.1 = .ok source.2)
    (h : composeRequest env args = .ok message)
    (hwire : assembleWireMessage (mime engine markdownToHtml) outer inner message shape = .ok wire) :
    Delivers wire (appendSignatureToBody args.body shape.signature)
        (sources.map fun source => (sentName source.1, source.2)) ↔
      Deliverable args.body shape.signature sources := by
  obtain ⟨headers, bodySection, hsplit⟩ := exists_split_of_assembleWireMessage hwire
  obtain ⟨rfl, hfields, hcontent⟩ :=
    sentContent_extract engine (fun path hpath c hc => (htypes path hpath c hc).1) hfresh h hsplit
  obtain ⟨html, hhtml, rfl⟩ := assembleWireMessage_eq_ok hfields hsplit hwire rfl
  have htexts := avoids_emittedTexts hapart hsplit hhtml
  generalize extractMarkdownAndAttachments engine (headerBlock (composedFields env args)) bodySection =
    content at *
  cases hcontent with
  | text hnone hcontent =>
      obtain rfl := List.map_eq_nil_iff.mp (hpaths.trans hnone)
      subst hcontent
      refine (delivers_text_iff hne hfields htexts).trans ⟨fun h => ?_, Deliverable.readsBack⟩
      exact ⟨fun hsome => absurd rfl hsome, by simp, fun hsome => absurd rfl hsome, h⟩
  | files others hsome hpaths' hreads' hfiles htext =>
      -- the client read the same files
      obtain rfl := sources_eq (hpaths'.trans hpaths.symm) hreads' hreads
      refine delivers_files_iff hne hfields (fun source hsource => htypes _ ?_)
        (ne_nil_of_paths hpaths hsome) hfiles htext htexts
      exact hpaths ▸ List.mem_map_of_mem hsource

end Whole

/-! ### A note -/

/-- The texts of the note, with its signature. -/
theorem note_emitted {message body : Bytes} {headers : Str}
    (hsplit : splitHeadersBody message = .ok (headers, body))
    (htext : (extractMarkdownAndAttachments Base64.standard headers body).1 = "Hi".toList) :
    ∀ t ∈ emittedTexts Base64.standard id message noteShape, ∀ u ∈ [Uuid.repeated 1, Uuid.repeated 2],
      ¬ "--".toList ++ makeBoundary u <:+: normalizeTextToCrlf t := by
  intro t ht
  unfold emittedTexts at ht
  rw [hsplit] at ht
  dsimp only at ht
  rw [htext] at ht
  exact note_apart t ht

/-- The note arrives. -/
theorem delivers_note : ∃ message wire, composeRequest noteEnv noteArgs = .ok message ∧
    assembleWireMessage (mime Base64.standard id) (.repeated 1) (.repeated 2) message noteShape = .ok wire ∧
    Delivers wire "Hi\n\nSent by aimx".toList [("a.txt".toList, [0x61])] := by
  obtain ⟨message, headers, body, h, hsplit⟩ := noteArgs_composed
  obtain ⟨wire, hwire⟩ := note_assembled hsplit
  have htypes : ∀ path ∈ noteArgs.attachments, IsMediaType (noteEnv.contentType path) := by
    unfold IsMediaType
    decide
  obtain ⟨-, -, hcontent⟩ := sentContent_extract Base64.standard (by decide) noteArgs_fresh h hsplit
  cases hcontent with
  | text hnone => cases hnone
  | files sources hsome hpaths hreads hfiles htext =>
      obtain rfl := noteSources hpaths hreads
      have hdeliver := (delivers_iff noteBoundaries htypes noteArgs_fresh
        (note_emitted hsplit (htext (by decide))) hpaths hreads h hwire).mpr
      refine ⟨message, wire, h, hwire, hdeliver ?_⟩
      exact
        { text := fun _ => by decide
          full := by decide
          feeds := fun _ hnone => absurd hnone (by decide)
          readsBack := .inl (by decide +kernel) }

/-- The note with an empty file. -/
def emptyFileEnv : ComposeEnv :=
  { noteEnv with files := { noteEnv.files with read := fun _ => .ok [] } }

/-- An empty file is lost. -/
theorem not_delivers_emptyFile : ∃ message wire, composeRequest emptyFileEnv noteArgs = .ok message ∧
    assembleWireMessage (mime Base64.standard id) (.repeated 1) (.repeated 2) message noteShape = .ok wire ∧
    (∀ text ∈ composedTexts emptyFileEnv noteArgs,
      ¬ "--".toList ++ makeBoundary emptyFileEnv.boundaryUuid <:+: text) ∧
    (∀ text ∈ emittedTexts Base64.standard id message noteShape, ∀ u ∈ [Uuid.repeated 1, Uuid.repeated 2],
      ¬ "--".toList ++ makeBoundary u <:+: normalizeTextToCrlf text) ∧
    ¬ Delivers wire (appendSignatureToBody noteArgs.body noteShape.signature) [("a.txt".toList, [])] := by
  obtain ⟨message, headers, body, h, hsplit⟩ := exists_composed
    (by decide +kernel : (composeRequest emptyFileEnv noteArgs).toOption.isSome = true) (by decide +kernel)
  obtain ⟨wire, hwire⟩ := note_assembled hsplit
  have hfresh : ∀ text ∈ composedTexts emptyFileEnv noteArgs,
      ¬ "--".toList ++ makeBoundary emptyFileEnv.boundaryUuid <:+: text := by
    decide +kernel
  obtain ⟨rfl, hfields, hcontent⟩ := sentContent_extract Base64.standard (by decide) hfresh h hsplit
  cases hcontent with
  | text hnone => cases hnone
  | files sources hsome hpaths hreads hfiles htext =>
      obtain rfl : sources = [("a.txt".toList, [])] :=
        sources_eq hpaths hreads (List.forall_mem_singleton.mpr rfl)
      have hapart := note_emitted hsplit (htext (by decide))
      refine ⟨message, wire, h, hwire, hfresh, hapart, fun hdeliver => ?_⟩
      obtain ⟨html, hhtml, rfl⟩ := assembleWireMessage_eq_ok hfields hsplit hwire rfl
      have htypes : ∀ source ∈ [("a.txt".toList, ([] : Bytes))],
          IsMediaType (emptyFileEnv.contentType source.1) := by
        unfold IsMediaType
        decide
      have hfull := ((delivers_files_iff noteBoundaries hfields htypes (List.cons_ne_nil _ _) hfiles htext
        (avoids_emittedTexts hapart hsplit hhtml)).mp hdeliver).full
      exact hfull _ (List.mem_singleton_self _) rfl

end Send
end Aimx
