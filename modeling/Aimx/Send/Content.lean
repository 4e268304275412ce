import Aimx.Send.PartFields

/-!
# From the client to the daemon

What `aimx send` puts into a request is taken out of it by the daemon.  The text loses the line terminators at
its end on the way, and a part without content is lost.

* `composedParts` — the parts of a composed message, and `utf8_multipartBody`: the body is made of them;
* `sentText`, `sentFile` — the text and a file as they come out;
* `splitMultipartBody_composedParts` — the parts that come out, and `filesOut`: the files among them;
* `extract_composeRequest` — the round trip.
-/

namespace Aimx
namespace Send

open Text Ingest
open Text.Multipart (block write dashes)
open scoped Literal

/-! ## The parts of a composed message -/

/-- The text part of a composed message. -/
def composedText (body : Str) : Str := headerText textFields ++ (crlf ++ normalizeCrlf body)

/-- The lines of an encoded file. -/
def base64Lines (data : Bytes) : List Str := (Base64.encode data).toChunks 76

/-- The part of a file, without the line terminator at its end. -/
def composedFile (env : ComposeEnv) (source : Str × Bytes) : Str :=
  headerText (attachmentFields (env.contentType source.1)
    (escapeFilename ((Ingest.pathFileName source.1).getD "attachment".toList))) ++
  (base64Lines source.2).flatMap fun line => crlf ++ line

/-- The part behind its delimiter line. -/
def composedBlock (env : ComposeEnv) (boundary : Str) (source : Str × Bytes) : Str :=
  "--".toList ++ boundary ++ crlf ++ composedFile env source ++ crlf

/-- The body of a composed message, as its parts. -/
def composedParts (env : ComposeEnv) (body : Str) (sources : List (Str × Bytes)) : List Str :=
  composedText body :: sources.map (composedFile env)

theorem crlf_flatMap (ls : List Str) :
    (ls.flatMap fun line => crlf ++ line) ++ crlf = crlf ++ ls.flatMap fun line => line ++ crlf := by
  induction ls with
  | nil => rfl
  | cons line ls ih =>
      rw [List.flatMap_cons, List.append_assoc, ih, List.flatMap_cons]
      simp only [List.append_assoc]

theorem composedFile_crlf (env : ComposeEnv) (source : Str × Bytes) :
    composedFile env source ++ crlf =
      headerText (attachmentFields (env.contentType source.1)
        (escapeFilename ((Ingest.pathFileName source.1).getD "attachment".toList))) ++
      (crlf ++ (base64Lines source.2).flatMap fun line => line ++ crlf) := by
  rw [composedFile, List.append_assoc, crlf_flatMap]

theorem attachmentPart_eq_ok {env : ComposeEnv} {boundary path part : Str}
    (h : attachmentPart env boundary path = .ok part) :
    ∃ data, env.files.read path = .ok data ∧
      part = composedBlock env boundary (path, data) := by
  obtain ⟨data, hdata, h⟩ := exceptBind_eq_ok.mp h
  refine ⟨data, hdata, (Except.ok.inj h).symm.trans ?_⟩
  have htype : "Content-Type: ".toList = "Content-Type".toList ++ [':', ' '] := by decide
  have hdisposition : "Content-Disposition: attachment; filename=\"".toList =
      "Content-Disposition".toList ++ ':' :: ' ' :: "attachment; filename=\"".toList := by decide
  have hencoding : "Content-Transfer-Encoding: base64".toList =
      "Content-Transfer-Encoding".toList ++ ':' :: ' ' :: "base64".toList := by decide
  have hquote : "\"".toList = ['"'] := by decide
  have hname : Compose.escapeFilename = escapeFilename := rfl
  rw [composedBlock, List.append_assoc _ (composedFile env (path, data)), composedFile_crlf]
  simp only [attachmentFields, headerText, fieldLine, List.flatMap_cons, List.flatMap_nil, base64Lines,
    List.append_assoc, List.cons_append, List.nil_append, List.append_nil, htype, hdisposition, hencoding,
    hquote, hname, env.base64.encode_eq]

/-- The parts of the files, one behind the other. -/
theorem mapM_attachmentPart_eq_ok {env : ComposeEnv} {boundary : Str} {paths parts : List Str}
    (h : paths.mapM (attachmentPart env boundary) = .ok parts) :
    ∃ sources : List (Str × Bytes), sources.map Prod.fst = paths ∧
      (∀ source ∈ sources, env.files.read source.1 = .ok source.2) ∧
      parts = sources.map (composedBlock env boundary) := by
  induction paths generalizing parts with
  | nil =>
      cases h
      exact ⟨[], rfl, by simp, rfl⟩
  | cons path paths ih =>
      rw [List.mapM_cons] at h
      obtain ⟨part, hpart, h⟩ := exceptBind_eq_ok.mp h
      obtain ⟨more, hmore, h⟩ := exceptBind_eq_ok.mp h
      cases h
      obtain ⟨data, hread, rfl⟩ := attachmentPart_eq_ok hpart
      obtain ⟨sources, hpaths, hreads, rfl⟩ := ih hmore
      refine ⟨(path, data) :: sources, by rw [List.map_cons, hpaths], ?_, rfl⟩
      exact List.forall_mem_cons.mpr ⟨hread, hreads⟩

/-- **The body of a composed message is written as RFC 2046 says.** -/
theorem utf8_multipartBody (env : ComposeEnv) (boundary body : Str) (sources : List (Str × Bytes)) :
    utf8 (multipartBody boundary body (sources.map (composedBlock env boundary))) =
      write (utf8 ("--".toList ++ boundary)) ((composedParts env body sources).map utf8) := by
  have hcrlf : utf8 crlf = Multipart.crlf := rfl
  have hdashes : utf8 "--".toList = dashes := rfl
  have hpart : ∀ source : Str × Bytes,
      utf8 (composedBlock env boundary source) =
        block (utf8 ("--".toList ++ boundary)) (utf8 (composedFile env source)) := by
    intro source
    rw [block, ← hcrlf, ← utf8_append, ← utf8_append, ← utf8_append]
    rfl
  have hfiles : utf8 ((sources.map (composedBlock env boundary)).flatten) =
        ((sources.map (composedFile env)).map utf8).flatMap (block (utf8 ("--".toList ++ boundary))) := by
    induction sources with
    | nil => rfl
    | cons source sources ih =>
        rw [List.map_cons, List.flatten_cons, utf8_append, hpart, ih, List.map_cons, List.map_cons,
          List.flatMap_cons]
  unfold multipartBody composedParts
  rw [List.map_cons, write, List.flatMap_cons, ← hfiles]
  simp only [block, composedText, textFields, headerText, fieldLine, List.flatMap_cons, List.flatMap_nil,
    utf8_append, hcrlf, hdashes, List.append_assoc, List.append_nil]
  rfl

/-! ### The encoded files -/

theorem flatten_toChunks {α : Type*} (n : Nat) (xs : List α) : (xs.toChunks n).flatten = xs := by
  have hgo : ∀ (k : Nat) (xs : List α) (acc : Array α) (done : Array (List α)),
      (List.toChunks.go k xs acc done).flatten = done.toList.flatten ++ acc.toList ++ xs := by
    intro k xs
    induction xs with
    | nil =>
        intro acc done
        simp [List.toChunks.go]
    | cons x xs ih =>
        intro acc done
        rw [List.toChunks.go]
        split
        · rw [ih]
          simp
        · rw [ih]
          simp
  cases xs with
  | nil => cases n <;> rfl
  | cons x xs =>
      cases n with
      | zero => simp [List.toChunks]
      | succ n =>
          rw [List.toChunks, hgo]
          · simp
          · exact Nat.succ_ne_zero n

/-- Line terminators are white space. -/
theorem isWhitespace_of_isLineEnd {c : Char} (h : isLineEnd c = true) : isWhitespace c = true := by
  rw [isLineEnd, Bool.or_eq_true, beq_iff_eq, beq_iff_eq] at h
  rcases h with rfl | rfl <;> rfl

theorem filter_rdropWhile_isLineEnd (s : Str) :
    (s.rdropWhile isLineEnd).filter (fun c => !isWhitespace c) = s.filter fun c => !isWhitespace c := by
  induction s using List.reverseRecOn with
  | nil => rfl
  | append_singleton s c ih =>
      by_cases hc : isLineEnd c = true
      · rw [List.rdropWhile_concat_pos _ _ _ hc, ih, List.filter_append]
        simp [isWhitespace_of_isLineEnd hc]
      · rw [List.rdropWhile_concat_neg _ _ _ hc]

theorem mem_base64Lines {data : Bytes} {line : Str} {c : Char} (hline : line ∈ base64Lines data)
    (hc : c ∈ line) : isWhitespace c = false ∧ c ≠ '-' := by
  have hmem : c ∈ (base64Lines data).flatten := List.mem_flatten.mpr ⟨line, hline, hc⟩
  rw [base64Lines, flatten_toChunks] at hmem
  exact Base64.isWhitespace_of_isSextetOrPad (Base64.isSextetOrPad_of_mem_encode hmem)

/-- The lines of a file hold its encoding. -/
theorem filter_base64Lines (data : Bytes) :
    ((base64Lines data).flatMap fun line => line ++ crlf).filter (fun c => !isWhitespace c) =
      Base64.encode data := by
  have hlines : ∀ ls : List Str, (∀ line ∈ ls, ∀ c ∈ line, isWhitespace c = false) →
      (ls.flatMap fun line => line ++ crlf).filter (fun c => !isWhitespace c) = ls.flatten := by
    intro ls hls
    induction ls with
    | nil => rfl
    | cons line ls ih =>
        rw [List.forall_mem_cons] at hls
        have hline : line.filter (fun c => !isWhitespace c) = line :=
          List.filter_eq_self.mpr fun c hc => by rw [hls.1 c hc]; rfl
        have hcrlf : crlf.filter (fun c => !isWhitespace c) = [] := by decide
        rw [List.flatMap_cons, List.filter_append, List.filter_append, hline, hcrlf, ih hls.2,
          List.append_nil, List.flatten_cons]
  rw [hlines _ fun line hline c hc => (mem_base64Lines hline hc).1, base64Lines, flatten_toChunks]

/-- **An encoded file is decoded**, with line terminators at its end or without. -/
theorem decodeBase64_base64Lines (engine : Base64.Engine) (data : Bytes) :
    decodeBase64 engine (utf8 (((base64Lines data).flatMap fun line => line ++ crlf).rdropWhile isLineEnd)) =
      some data := by
  unfold decodeBase64
  rw [fromUtf8_eq_some_iff.mpr rfl, Option.bind_some, filter_rdropWhile_isLineEnd, filter_base64Lines,
    engine.decode_eq]

/-- Only an empty file has no content. -/
theorem rdropWhile_base64Lines {data : Bytes} :
    ((base64Lines data).flatMap fun line => line ++ crlf).rdropWhile isLineEnd = [] ↔ data = [] := by
  constructor
  · intro h
    have hfilter := filter_rdropWhile_isLineEnd ((base64Lines data).flatMap fun line => line ++ crlf)
    rw [h, filter_base64Lines] at hfilter
    exact Base64.encode_eq_nil_iff.mp hfilter.symm
  · rintro rfl
    rfl

/-! ### The text -/

/-- The text that comes out: in LF lines, without line feeds at its end. -/
def sentText (body : Str) : Str := (lfText body).rdropWhile (· == '\n')

theorem cr_notMem_lfText (s : Str) : '\r' ∉ lfText s := by
  intro h
  obtain ⟨c, -, hc⟩ := List.mem_map.mp h
  split at hc
  next => cases hc
  next hne => exact hne hc

theorem crlfToLf_cons {c : Char} (hc : c ≠ '\r') (s : Str) : crlfToLf (c :: s) = c :: crlfToLf s := by
  rw [crlfToLf]
  rintro rest rfl
  exact absurd rfl hc

/-- A text in LF lines comes back from CRLF lines. -/
theorem crlfToLf_replaceChar {s : Str} (h : '\r' ∉ s) : crlfToLf (replaceChar '\n' crlf s) = s := by
  induction s with
  | nil => rfl
  | cons c s ih =>
      rw [List.mem_cons, not_or] at h
      have hrest := ih h.2
      by_cases hc : c = '\n'
      · subst hc
        show crlfToLf ('\r' :: '\n' :: replaceChar '\n' crlf s) = _
        rw [crlfToLf, hrest]
      · have hcons : replaceChar '\n' crlf (c :: s) = c :: replaceChar '\n' crlf s := by
          simp [replaceChar, hc]
        rw [hcons, crlfToLf_cons (Ne.symm h.1), hrest]

theorem rdropWhile_replaceChar {s : Str} (h : '\r' ∉ s) :
    (replaceChar '\n' crlf s).rdropWhile isLineEnd = replaceChar '\n' crlf (s.rdropWhile (· == '\n')) := by
  induction s using List.reverseRecOn with
  | nil => rfl
  | append_singleton s c ih =>
      rw [List.mem_append, not_or, List.mem_singleton] at h
      have happend : replaceChar '\n' crlf (s ++ [c]) =
          replaceChar '\n' crlf s ++ if c = '\n' then crlf else [c] := by
        simp [replaceChar]
      by_cases hc : c = '\n'
      · rw [happend, if_pos hc, rdropWhile_append_text, if_pos (by decide), ih h.1,
          List.rdropWhile_concat_pos _ _ _ (by simpa using hc)]
      · have hend : ¬ isLineEnd c = true := by
          rw [isLineEnd, Bool.or_eq_true, beq_iff_eq, beq_iff_eq, not_or]
          exact ⟨hc, Ne.symm h.2⟩
        rw [happend, if_neg hc, List.rdropWhile_concat_neg _ _ _ hend,
          List.rdropWhile_concat_neg _ _ _ (by simpa using hc), happend, if_neg hc]

/-- **What is read of the text part.** -/
theorem decodeTextPart_textFields (engine : Base64.Engine) (text : Str) :
    decodeTextPart engine ⟨headerBlock textFields, utf8 text⟩ = crlfToLf text := by
  have hencoding : headerValue (headerBlock textFields) "Content-Transfer-Encoding".toList = none := by
    rw [headerValue_headerBlock isField_textFields]
    rfl
  have hbody : decodePartBody engine ⟨headerBlock textFields, utf8 text⟩ = utf8 text := by
    unfold decodePartBody
    rw [hencoding]
    rfl
  rw [decodeTextPart, hbody, fromUtf8Lossy_utf8]

/-! ## The parts that come out -/

/-- A file as it comes out. -/
def sentFile (env : ComposeEnv) (source : Str × Bytes) : AttachmentPart where
  contentType := primaryValue (env.contentType source.1)
  filename := cleanName ((Ingest.pathFileName source.1).getD "attachment".toList)
  data := source.2

theorem parseRawPart_composedText (body : Str) :
    parseRawPart (trimTrailingCrlf (utf8 (composedText body))) =
      if sentText body = [] then none
      else some ⟨headerBlock textFields, utf8 (replaceChar '\n' crlf (sentText body))⟩ := by
  have hempty : replaceChar '\n' crlf (sentText body) = [] ↔ sentText body = [] := by
    cases sentText body with
    | nil => simp [replaceChar]
    | cons c s =>
        by_cases hc : c = '\n' <;> simp [replaceChar, hc, crlf]
  have hcontent : (normalizeCrlf body).rdropWhile isLineEnd = replaceChar '\n' crlf (sentText body) :=
    rdropWhile_replaceChar (cr_notMem_lfText body)
  rw [composedText, parseRawPart_trimmed (by simp [textFields]) isField_textFields, hcontent]
  simp only [hempty]

theorem parseRawPart_composedFile (engine : Base64.Engine) {env : ComposeEnv} {source : Str × Bytes}
    (htype : OneLine (env.contentType source.1)) :
    (parseRawPart (trimTrailingCrlf (utf8 (composedFile env source)))).map (parseAttachmentPart engine) =
      if source.2 = [] then none else some (sentFile env source) := by
  have hfields := isField_attachmentFields htype
    (oneLine_escapeFilename ((Ingest.pathFileName source.1).getD "attachment".toList))
  have htrim : trimTrailingCrlf (utf8 (composedFile env source)) =
      trimTrailingCrlf (utf8 (composedFile env source ++ crlf)) := by
    rw [utf8_append]
    exact (trimTrailingCrlf_append _).symm
  rw [htrim, composedFile_crlf, parseRawPart_trimmed (by simp [attachmentFields]) hfields]
  simp only [rdropWhile_base64Lines]
  split
  next => rfl
  next =>
      rw [Option.map_some, parseAttachmentPart_attachmentFields engine htype, decodeBase64_base64Lines]
      rfl

/-- The texts that a composed message takes over. -/
def composedTexts (env : ComposeEnv) (args : SendArgs) : List Str :=
  normalizeCrlf args.body :: args.attachments.flatMap fun path =>
    [env.contentType path, escapeFilename ((Ingest.pathFileName path).getD "attachment".toList)]

/-- A boundary that is in none of the texts is in none of the parts. -/
theorem not_infix_composedParts {env : ComposeEnv} {args : SendArgs} {sources : List (Str × Bytes)}
    (hpaths : sources.map Prod.fst = args.attachments)
    (hfresh : ∀ text ∈ composedTexts env args, ¬ "--".toList ++ makeBoundary env.boundaryUuid <:+: text) :
    ∀ part ∈ composedParts env args.body sources,
      ¬ "--".toList ++ makeBoundary env.boundaryUuid <:+: part := by
  have hplain := mem_delimiter env.boundaryUuid
  have hne : "--".toList ++ makeBoundary env.boundaryUuid ≠ [] := by simp
  generalize hneedle : "--".toList ++ makeBoundary env.boundaryUuid = needle at *
  have hline : OneLine needle := fun c hc => (hplain c hc).1
  have hdash : ∀ s : Str, ¬ "--".toList <:+: s → ¬ needle <:+: s := by
    intro s hs h
    rw [← hneedle] at h
    exact hs ((List.prefix_append _ _).isInfix.trans h)
  intro part hpart
  rcases List.mem_cons.mp hpart with rfl | hpart
  · refine not_infix_headerText hne hline ?_ (hfresh _ (List.mem_cons_self ..))
    intro f hf
    obtain rfl := List.mem_singleton.mp hf
    exact hdash _ (by decide)
  · obtain ⟨source, hsource, rfl⟩ := List.mem_map.mp hpart
    have hpath : source.1 ∈ args.attachments := hpaths ▸ List.mem_map_of_mem hsource
    have htexts : ∀ text ∈ [env.contentType source.1,
        escapeFilename ((Ingest.pathFileName source.1).getD "attachment".toList)], ¬ needle <:+: text :=
      fun text htext => hfresh text (List.mem_cons_of_mem _ (List.mem_flatMap.mpr ⟨_, hpath, htext⟩))
    have hname := htexts _ (List.mem_cons_of_mem _ (List.mem_singleton_self _))
    have htype := htexts _ (List.mem_cons_self ..)
    -- the value of a field between its blanks, semicolons and quotes
    have hquoted : ∀ front : Str, ¬ needle <:+: front →
        ¬ needle <:+: front ++ '"' :: (escapeFilename ((Ingest.pathFileName source.1).getD
          "attachment".toList) ++ '"' :: []) := by
      intro front hfront
      have hquote : '"' ∉ needle := fun hmem => (hplain _ hmem).2.2.2.2 rfl
      exact not_infix_append_cons hquote hfront (not_infix_append_cons hquote hname (not_infix_nil hne))
    have hwhole : ¬ needle <:+: composedFile env source ++ crlf := by
      rw [composedFile_crlf]
      refine not_infix_headerText hne hline ?_ ?_
      · intro f hf
        simp only [attachmentFields, List.mem_cons, List.not_mem_nil, or_false] at hf
        rcases hf with rfl | rfl | rfl
        · have hfront : ¬ needle <:+: "Content-Type:".toList ++ ' ' :: (env.contentType source.1 ++
              ';' :: " name=".toList) :=
            not_infix_append_cons (fun hmem => (hplain _ hmem).2.1 rfl) (hdash _ (by decide))
              (not_infix_append_cons (fun hmem => (hplain _ hmem).2.2.2.1 rfl) htype (hdash _ (by decide)))
          have hfield := hquoted _ hfront
          simpa [fieldLine] using hfield
        · have hfield := hquoted "Content-Disposition: attachment; filename=".toList (hdash _ (by decide))
          simpa [fieldLine] using hfield
        · exact hdash _ (by decide)
      · -- there is no dash in an encoded file
        intro hin
        have hmem : '-' ∈ needle := by
          rw [← hneedle]
          simp
        obtain ⟨line, hline, hc⟩ := List.mem_flatMap.mp (hin.subset hmem)
        rcases List.mem_append.mp hc with hc | hc
        · exact (mem_base64Lines hline hc).2 rfl
        · exact absurd hc (by decide)
    exact fun hin => hwhole (hin.trans (List.prefix_append _ _).isInfix)

/-- **The parts that come out**: those with some content. -/
theorem splitMultipartBody_composedParts {env : ComposeEnv} {args : SendArgs} {sources : List (Str × Bytes)}
    (hpaths : sources.map Prod.fst = args.attachments)
    (hfresh : ∀ text ∈ composedTexts env args, ¬ "--".toList ++ makeBoundary env.boundaryUuid <:+: text) :
    splitMultipartBody (write (utf8 ("--".toList ++ makeBoundary env.boundaryUuid))
        ((composedParts env args.body sources).map utf8)) (makeBoundary env.boundaryUuid) =
      (composedParts env args.body sources).filterMap fun part =>
        parseRawPart (trimTrailingCrlf (utf8 part)) := by
  rw [splitMultipartBody_write (by simp [composedParts])
    (separates_makeBoundary _ (not_infix_composedParts hpaths hfresh)), List.filterMap_map]
  rfl

/-! ## The request -/

theorem isParamName_boundary : IsParamName "boundary".toList := { ne_nil := by decide, plain := by decide }

theorem blank_space : ∀ c ∈ [' '], isWhitespace c = true := by decide

/-- The parameter of the field that announces the parts. -/
def boundaryParam (u : Uuid) : Param where
  lead := [' ']
  name := "boundary".toList
  nameEnd := []
  valueStart := []
  written := '"' :: (makeBoundary u ++ ['"'])
  trail := []
  value := makeBoundary u
  isParamName := isParamName_boundary
  hasValue := .quoted (quotedBody_makeBoundary u)
  blank := blank_space

theorem extractQuotedParam_boundary (u : Uuid) :
    extractQuotedParam (contentTypeField (makeBoundary u)).2 "boundary".toList = some (makeBoundary u) := by
  have hprimary : IsPrimary "multipart/mixed".toList := by
    unfold IsPrimary
    decide
  have hfront : "multipart/mixed; boundary=\"".toList =
      "multipart/mixed".toList ++ ';' :: ' ' :: ("boundary".toList ++ ['=', '"']) := by decide
  have htext : (contentTypeField (makeBoundary u)).2 =
      "multipart/mixed".toList ++ paramsText [boundaryParam u] := by
    show "multipart/mixed; boundary=\"".toList ++ makeBoundary u ++ ['"'] = _
    rw [hfront]
    simp only [paramsText, Param.text, boundaryParam, List.flatMap_cons, List.flatMap_nil,
      List.append_nil, List.append_assoc, List.cons_append, List.nil_append]
  have hfound : [boundaryParam u].find? (fun p => eqIgnoreAsciiCase p.name "boundary".toList) =
      some (boundaryParam u) := by
    rw [List.find?_cons_of_pos]
    exact eqIgnoreAsciiCase_self _
  rw [htext, extractQuotedParam_headerText hprimary, hfound]
  rfl

theorem isField_composedFields {env : ComposeEnv} {args : SendArgs} (hfrom : OneLine args.from_) :
    ∀ f ∈ composedFields env args, IsField f := by
  intro f hf
  have hname : f.1 ∈ fieldNames args := composedFields_names env args ▸ List.mem_map_of_mem hf
  have hnames : ∀ name ∈ fieldNames args, name ≠ [] ∧ ∀ c ∈ name, c ≠ ':' ∧ isWhitespace c = false := by
    unfold fieldNames
    simp only [List.forall_mem_append]
    refine ⟨⟨⟨by decide, ?_⟩, by decide⟩, ?_⟩
    · split <;> decide
    · split <;> decide
  exact
    { oneLine := mem_composedFields hfrom hf
      name_ne_nil := (hnames _ hname).1
      name := (hnames _ hname).2 }

/-- The boundary that is read of the fields of a message. -/
theorem extractMultipartBoundary_composed {env : ComposeEnv} {args : SendArgs} (hfrom : OneLine args.from_) :
    extractMultipartBoundary (headerBlock (composedFields env args)) =
      if args.attachments = [] then none else some (makeBoundary env.boundaryUuid) := by
  have hcommon : ∀ f ∈ commonFields args env.date.text (composedMessageId env args.from_),
      eqIgnoreAsciiCase f.1 "Content-Type".toList = false := by
    intro f hf
    have hname : f.1 ∈ fieldNames { args with attachments := [] } := by
      rw [← composedFields_names env]
      exact List.mem_map_of_mem (List.mem_append_left _ hf)
    have hnames : ∀ name ∈ fieldNames { args with attachments := [] },
        eqIgnoreAsciiCase name "Content-Type".toList = false := by
      unfold fieldNames
      simp only [List.forall_mem_append]
      refine ⟨⟨⟨by decide, ?_⟩, by decide⟩, by decide⟩
      split <;> decide
    exact hnames _ hname
  have hskip : (commonFields args env.date.text (composedMessageId env args.from_)).find?
      (fun f => eqIgnoreAsciiCase f.1 "Content-Type".toList) = none :=
    List.find?_eq_none.mpr fun f hf => by rw [hcommon f hf]; exact Bool.false_ne_true
  unfold extractMultipartBoundary
  rw [headerValue_headerBlock (isField_composedFields hfrom), composedFields, List.find?_append, hskip,
    Option.none_or]
  by_cases hnone : args.attachments = []
  · rw [if_pos hnone, if_pos hnone]
    rfl
  have hvalue : ([contentTypeField (makeBoundary env.boundaryUuid)].find?
      fun f => eqIgnoreAsciiCase f.1 "Content-Type".toList).map (fun f => trim f.2) =
        some (trim (contentTypeField (makeBoundary env.boundaryUuid)).2) := by
    rw [List.find?_cons_of_pos]
    · rfl
    · exact eqIgnoreAsciiCase_self _
  have htrim : trim (contentTypeField (makeBoundary env.boundaryUuid)).2 =
      (contentTypeField (makeBoundary env.boundaryUuid)).2 := by
    show trim ("multipart/mixed; boundary=\"".toList ++ makeBoundary env.boundaryUuid ++ '"' :: []) = _
    rw [trim_append_visible _ _ (by decide)]
    rfl
  have hmultipart : "multipart/".toList <:+:
      toAsciiLowercase (contentTypeField (makeBoundary env.boundaryUuid)).2 := by
    unfold contentTypeField
    rw [List.append_assoc, toAsciiLowercase, List.map_append]
    have hfront : "multipart/".toList <:+: "multipart/mixed; boundary=\"".toList.map Char.toLower := by decide
    exact hfront.trans (List.prefix_append _ _).isInfix
  rw [if_neg hnone, if_neg hnone, hvalue]
  dsimp only
  rw [htrim, if_pos hmultipart, extractQuotedParam_boundary]

/-- The split of a message at its empty line. -/
theorem splitHeadersBody_headerText {fields : List (Str × Str)} (hne : fields ≠ [])
    (h : ∀ f ∈ fields, IsField f) (content : Str) :
    splitHeadersBody (utf8 (headerText fields ++ (crlf ++ content))) =
      if maxHeaderBlockBytes < (utf8 (headerBlock fields)).length then .error .headerBlockTooLarge
      else .ok (headerBlock fields, utf8 content) := by
  have hwhole : utf8 (headerText fields ++ (crlf ++ content)) =
      utf8 (headerBlock fields) ++ (utf8 (crlf ++ crlf) ++ utf8 content) := by
    rw [headerText_eq_headerBlock hne]
    simp only [utf8_append, List.append_assoc]
  have hdecode : fromUtf8 (utf8 (headerBlock fields)) = some (headerBlock fields) :=
    fromUtf8_eq_some_iff.mpr rfl
  unfold splitHeadersBody
  rw [findHeaderSeparator_utf8, cutSeparator_headerText hne h, Option.map_some]
  dsimp only
  rw [hwhole, List.take_left, hdecode, ← List.append_assoc, ← List.length_append, List.drop_left]

/-- The two shapes of a composed message. -/
theorem composeRequest_body {env : ComposeEnv} {args : SendArgs} {message : Bytes}
    (h : composeRequest env args = .ok message) :
    OneLine args.from_ ∧
      ((args.attachments = [] ∧ message = utf8 (headerText (composedFields env args) ++
          (crlf ++ (normalizeCrlf args.body ++ crlf)))) ∨
        ∃ sources : List (Str × Bytes), args.attachments ≠ [] ∧ sources.map Prod.fst = args.attachments ∧
          (∀ source ∈ sources, env.files.read source.1 = .ok source.2) ∧
          message = utf8 (headerText (composedFields env args) ++
            (crlf ++ multipartBody (makeBoundary env.boundaryUuid) args.body
              (sources.map (composedBlock env (makeBoundary env.boundaryUuid)))))) := by
  obtain ⟨_, -, h⟩ := exceptBind_eq_ok.mp h
  obtain ⟨headers, hheaders, h⟩ := exceptBind_eq_ok.mp h
  obtain ⟨rfl, hfrom⟩ := writeCommonHeaders_eq_ok hheaders
  rw [sanitizeHeaderValue_eq_self hfrom] at h
  refine ⟨hfrom, ?_⟩
  unfold composedFields composedMessageId
  split at h
  next hnone =>
      rw [if_pos hnone, List.append_nil]
      cases h
      exact .inl ⟨hnone, rfl⟩
  next hsome =>
      obtain ⟨parts, hparts, h⟩ := exceptBind_eq_ok.mp h
      obtain ⟨sources, hpaths, hreads, rfl⟩ := mapM_attachmentPart_eq_ok hparts
      rw [if_neg hsome, headerText_append]
      cases h
      exact .inr ⟨sources, hsome, hpaths, hreads, rfl⟩

/-! ## The round trip -/

section RoundTrip

variable {env : ComposeEnv} {args : SendArgs} {sources : List (Str × Bytes)}

/-- The files that come out: those with some content, without the first of them where there is no text. -/
def filesOut (env : ComposeEnv) (body : Str) (sources : List (Str × Bytes)) : List AttachmentPart :=
  let files := sources.filterMap fun source => if source.2 = [] then none else some (sentFile env source)
  if sentText body = [] then files.tail else files

theorem mem_filesOut {body : Str} {att : AttachmentPart} (h : att ∈ filesOut env body sources) :
    ∃ source ∈ sources, att = sentFile env source := by
  have hmem : att ∈ sources.filterMap fun source =>
      if source.2 = [] then none else some (sentFile env source) := by
    unfold filesOut at h
    dsimp only at h
    split at h
    · exact List.mem_of_mem_tail h
    · exact h
  obtain ⟨source, hsource, heq⟩ := List.mem_filterMap.mp hmem
  split at heq
  next => cases heq
  next => exact ⟨source, hsource, (Option.some.inj heq).symm⟩

/-- **All files come out if there is a text and none of them is empty.** -/
theorem filesOut_eq {body : Str} (htext : sentText body ≠ []) (h : ∀ source ∈ sources, source.2 ≠ []) :
    filesOut env body sources = sources.map (sentFile env) := by
  unfold filesOut
  dsimp only
  rw [if_neg htext, ← List.filterMap_eq_map]
  exact List.filterMap_congr fun source hsource => if_neg (h source hsource)

/-- Only then as many come out as were sent. -/
theorem length_filesOut_iff {body : Str} (hsome : sources ≠ []) :
    (filesOut env body sources).length = sources.length ↔
      sentText body ≠ [] ∧ ∀ source ∈ sources, source.2 ≠ [] := by
  constructor
  · intro h
    have hpos := List.length_pos_iff.mpr hsome
    have hle := List.length_filterMap_le
      (fun source : Str × Bytes => if source.2 = [] then none else some (sentFile env source)) sources
    unfold filesOut at h
    dsimp only at h
    split at h
    next =>
        rw [List.length_tail] at h
        omega
    next htext =>
        refine ⟨htext, fun source hsource hempty => ?_⟩
        have hall := List.filterMap_length_eq_length.mp h source hsource
        rw [if_pos hempty] at hall
        cases hall
  · rintro ⟨htext, hfull⟩
    rw [filesOut_eq htext hfull, List.length_map]

/-- **What comes out of the parts.**  Where there is no text, the first file is taken for it. -/
theorem extract_write (engine : Base64.Engine) (hpaths : sources.map Prod.fst = args.attachments)
    (htypes : ∀ path ∈ args.attachments, OneLine (env.contentType path))
    (hfresh : ∀ text ∈ composedTexts env args, ¬ "--".toList ++ makeBoundary env.boundaryUuid <:+: text)
    {headers : Str} (hboundary : extractMultipartBoundary headers = some (makeBoundary env.boundaryUuid))
    {content : Str × List AttachmentPart}
    (hcontent : extractMarkdownAndAttachments engine headers
      (write (utf8 ("--".toList ++ makeBoundary env.boundaryUuid))
        ((composedParts env args.body sources).map utf8)) = content) :
    content.2 = filesOut env args.body sources ∧
      (sentText args.body ≠ [] → content.1 = sentText args.body) := by
  have hparts := splitMultipartBody_composedParts hpaths hfresh
  rw [composedParts, List.filterMap_cons, parseRawPart_composedText] at hparts
  have hfiles : ((sources.map (composedFile env)).filterMap
      fun part => parseRawPart (trimTrailingCrlf (utf8 part))).map (parseAttachmentPart engine) =
        sources.filterMap fun source => if source.2 = [] then none else some (sentFile env source) := by
    rw [List.map_filterMap, List.filterMap_map]
    refine List.filterMap_congr fun source hsource => ?_
    exact parseRawPart_composedFile engine (htypes _ (hpaths ▸ List.mem_map_of_mem hsource))
  generalize (sources.map (composedFile env)).filterMap
    (fun part => parseRawPart (trimTrailingCrlf (utf8 part))) = parts at hparts hfiles
  unfold extractMarkdownAndAttachments at hcontent
  rw [hboundary] at hcontent
  dsimp only at hcontent
  unfold filesOut
  dsimp only
  rw [← hfiles]
  by_cases htext : sentText args.body = []
  · -- the first file is taken for the text
    rw [if_pos htext] at hparts
    dsimp only at hparts
    rw [composedParts, hparts] at hcontent
    rw [if_pos htext]
    refine ⟨?_, absurd htext⟩
    cases parts with
    | nil => exact (congrArg Prod.snd hcontent).symm
    | cons first rest => exact (congrArg Prod.snd hcontent).symm
  · rw [if_neg htext] at hparts
    dsimp only at hparts
    rw [composedParts, hparts] at hcontent
    rw [if_neg htext]
    refine ⟨(congrArg Prod.snd hcontent).symm, fun _ => (congrArg Prod.fst hcontent).symm.trans ?_⟩
    show decodeTextPart engine
      ⟨headerBlock textFields, utf8 (replaceChar '\n' crlf (sentText args.body))⟩ = sentText args.body
    rw [decodeTextPart_textFields, crlfToLf_replaceChar]
    exact fun hmem => cr_notMem_lfText args.body ((List.rdropWhile_prefix _ _).subset hmem)

end RoundTrip

theorem ne_nil_of_paths {sources : List (Str × Bytes)} {paths : List Str}
    (hpaths : sources.map Prod.fst = paths) (hsome : paths ≠ []) : sources ≠ [] := by
  rintro rfl
  exact hsome hpaths.symm

/-- The content of a composed message, as it comes out. -/
inductive SentContent (env : ComposeEnv) (args : SendArgs) (content : Str × List AttachmentPart) : Prop
  | text (hnone : args.attachments = []) (h : content = (normalizeCrlf args.body ++ crlf, []))
  | files (sources : List (Str × Bytes)) (hsome : args.attachments ≠ [])
      (hpaths : sources.map Prod.fst = args.attachments)
      (hreads : ∀ source ∈ sources, env.files.read source.1 = .ok source.2)
      (hfiles : content.2 = filesOut env args.body sources)
      (htext : sentText args.body ≠ [] → content.1 = sentText args.body)

/-- The text and all files come out if there is a text and no file is empty. -/
theorem content_eq_iff {env : ComposeEnv} {body : Str} {sources : List (Str × Bytes)} (hsome : sources ≠ [])
    {content : Str × List AttachmentPart} (hfiles : content.2 = filesOut env body sources)
    (htext : sentText body ≠ [] → content.1 = sentText body) :
    content = (sentText body, sources.map (sentFile env)) ↔
      sentText body ≠ [] ∧ ∀ source ∈ sources, source.2 ≠ [] := by
  constructor
  · rintro rfl
    have hall := @length_filesOut_iff env sources body hsome
    rw [← hfiles, List.length_map] at hall
    exact hall.mp rfl
  · rintro ⟨hsome, hfull⟩
    exact Prod.ext (htext hsome) (hfiles.trans (filesOut_eq hsome hfull))

/-- What is split and taken out of a composed message. -/
theorem sentContent_extract (engine : Base64.Engine) {env : ComposeEnv} {args : SendArgs}
    {message body : Bytes} {headers : Str}
    (htypes : ∀ path ∈ args.attachments, OneLine (env.contentType path))
    (hfresh : ∀ text ∈ composedTexts env args, ¬ "--".toList ++ makeBoundary env.boundaryUuid <:+: text)
    (h : composeRequest env args = .ok message) (hsplit : splitHeadersBody message = .ok (headers, body)) :
    headers = headerBlock (composedFields env args) ∧ (∀ f ∈ composedFields env args, IsField f) ∧
      SentContent env args (extractMarkdownAndAttachments engine headers body) := by
  have hfields : composedFields env args ≠ [] := by simp [composedFields, commonFields]
  obtain ⟨hfrom, ⟨hnone, rfl⟩ | ⟨sources, hsome, hpaths, hreads, rfl⟩⟩ := composeRequest_body h
  · rw [splitHeadersBody_headerText hfields (isField_composedFields hfrom)] at hsplit
    split at hsplit
    next => cases hsplit
    next =>
        cases hsplit
        have hboundary := @extractMultipartBoundary_composed env args hfrom
        rw [if_pos hnone] at hboundary
        refine ⟨rfl, isField_composedFields hfrom, .text hnone ?_⟩
        unfold extractMarkdownAndAttachments
        rw [hboundary]
        dsimp only
        rw [fromUtf8Lossy_utf8]
  · rw [splitHeadersBody_headerText hfields (isField_composedFields hfrom)] at hsplit
    split at hsplit
    next => cases hsplit
    next =>
        cases hsplit
        have hboundary := @extractMultipartBoundary_composed env args hfrom
        rw [if_neg hsome] at hboundary
        obtain ⟨hfiles, htext⟩ := extract_write engine hpaths htypes hfresh hboundary rfl
        rw [← utf8_multipartBody] at hfiles htext
        exact ⟨rfl, isField_composedFields hfrom, .files sources hsome hpaths hreads hfiles htext⟩

/-- **What comes out of a request.**  Without attachments it is the text as it was written.  With attachments
it is the text, without the line feeds at its end, and each file under its type and name, if there is a text
and no file is empty; the parts that come out are others otherwise. -/
theorem extract_composeRequest (engine : Base64.Engine) {env : ComposeEnv} {args : SendArgs}
    {message body : Bytes} {headers : Str}
    (htypes : ∀ path ∈ args.attachments, OneLine (env.contentType path))
    (hfresh : ∀ text ∈ composedTexts env args, ¬ "--".toList ++ makeBoundary env.boundaryUuid <:+: text)
    (h : composeRequest env args = .ok message) (hsplit : splitHeadersBody message = .ok (headers, body)) :
    (args.attachments = [] →
      extractMarkdownAndAttachments engine headers body = (normalizeCrlf args.body ++ crlf, [])) ∧
    (args.attachments ≠ [] → ∃ sources : List (Str × Bytes), sources.map Prod.fst = args.attachments ∧
      (∀ source ∈ sources, env.files.read source.1 = .ok source.2) ∧
      (extractMarkdownAndAttachments engine headers body = (sentText args.body, sources.map (sentFile env)) ↔
        sentText args.body ≠ [] ∧ ∀ source ∈ sources, source.2 ≠ [])) := by
  obtain ⟨-, -, hcontent⟩ := sentContent_extract engine htypes hfresh h hsplit
  cases hcontent with
  | text hnone hcontent => exact ⟨fun _ => hcontent, fun hsome => absurd hnone hsome⟩
  | files sources hsome hpaths hreads hfiles htext =>
      have hne : sources ≠ [] := ne_nil_of_paths hpaths hsome
      exact ⟨fun hnone => absurd hnone hsome, fun _ => ⟨sources, hpaths, hreads,
        content_eq_iff hne hfiles htext⟩⟩

/-- The files that were read are those that are there. -/
theorem sources_eq {env : ComposeEnv} {a b : List (Str × Bytes)} (hpaths : a.map Prod.fst = b.map Prod.fst)
    (ha : ∀ source ∈ a, env.files.read source.1 = .ok source.2)
    (hb : ∀ source ∈ b, env.files.read source.1 = .ok source.2) : a = b := by
  induction a generalizing b with
  | nil => exact (List.map_eq_nil_iff.mp hpaths.symm).symm
  | cons source a ih =>
      obtain ⟨other, b, rfl⟩ := List.exists_cons_of_ne_nil (l := b) (by rintro rfl; cases hpaths)
      rw [List.forall_mem_cons] at ha hb
      obtain ⟨hpath, hrest⟩ := List.cons.inj hpaths
      have hread := ha.1
      rw [hpath, hb.1] at hread
      rw [ih hrest ha.2 hb.2, Prod.ext hpath (Except.ok.inj hread).symm]

/-- A note with a file. -/
def noteArgs : SendArgs where
  from_ := "a@b.c".toList
  to_ := "d@e.f".toList
  subject := "Note".toList
  body := "Hi\n".toList
  replyTo := none
  references := none
  attachments := ["a.txt".toList]

def noteEnv : ComposeEnv where
  messageUuid := Uuid.repeated 0
  boundaryUuid := Uuid.repeated 0
  date := plainEnv.date
  files := { pathExists := fun _ => true, isFile := fun _ => true, read := fun _ => .ok [0x61] }
  contentType := fun _ => "text/plain".toList
  base64 := Base64.standard

/-- A message that is composed, with a small header block. -/
theorem exists_composed {env : ComposeEnv} {args : SendArgs}
    (hcomposed : (composeRequest env args).toOption.isSome = true)
    (hshort : ¬ maxHeaderBlockBytes < (utf8 (headerBlock (composedFields env args))).length) :
    ∃ message headers body, composeRequest env args = .ok message ∧
      splitHeadersBody message = .ok (headers, body) := by
  cases h : composeRequest env args with
  | error e =>
      rw [h] at hcomposed
      cases hcomposed
  | ok message =>
      obtain ⟨hfrom, body, rfl⟩ := composeRequest_eq_ok h
      have hsplit := splitHeadersBody_headerText (by simp [composedFields, commonFields])
        (@isField_composedFields env args hfrom) body
      rw [if_neg hshort] at hsplit
      exact ⟨_, _, _, rfl, hsplit⟩

theorem noteArgs_composed : ∃ message headers body, composeRequest noteEnv noteArgs = .ok message ∧
    splitHeadersBody message = .ok (headers, body) :=
  exists_composed (by decide +kernel) (by decide +kernel)

theorem noteArgs_fresh : ∀ text ∈ composedTexts noteEnv noteArgs,
    ¬ "--".toList ++ makeBoundary noteEnv.boundaryUuid <:+: text := by
  decide +kernel

/-- The file of the note. -/
theorem noteSources {sources : List (Str × Bytes)} (hpaths : sources.map Prod.fst = noteArgs.attachments)
    (hreads : ∀ source ∈ sources, noteEnv.files.read source.1 = .ok source.2) :
    sources = [("a.txt".toList, [0x61])] :=
  sources_eq hpaths hreads (List.forall_mem_singleton.mpr rfl)

/-- The text and the file come out. -/
theorem extract_note : ∃ message headers body, composeRequest noteEnv noteArgs = .ok message ∧
    splitHeadersBody message = .ok (headers, body) ∧
    extractMarkdownAndAttachments Base64.standard headers body =
      ("Hi".toList, [⟨"text/plain".toList, "a.txt".toList, [0x61]⟩]) := by
  obtain ⟨message, headers, body, h, hsplit⟩ := noteArgs_composed
  obtain ⟨sources, hpaths, hreads, hiff⟩ :=
    (extract_composeRequest Base64.standard (by decide) noteArgs_fresh h hsplit).2 (by decide)
  obtain rfl := noteSources hpaths hreads
  exact ⟨message, headers, body, h, hsplit, hiff.mpr (by decide)⟩

end Send
end Aimx
