import Aimx.Send.FieldBlock

/-!
# The fields of a part

The client and the daemon write the same fields in front of a file.

* `textFields`, `attachmentFields` — the fields of a part;
* `cleanName` — a file name without line terminators, and `extractQuotedParam_disposition`: it is read back;
* `parseAttachmentPart_attachmentFields` — what is read of the part of a file;
* `separates_makeBoundary` — a boundary that is in none of the parts separates them.
-/

namespace Aimx
namespace Send

open Text Ingest
open Text.Multipart (infix_or_infix_of_notMem)
open scoped Literal

/-! ## The fields of a part -/

/-- The fields of a text part of the client. -/
def textFields : List (Str × Str) := [("Content-Type".toList, "text/plain; charset=utf-8".toList)]

/-- The fields of an attachment, for its type and its escaped name. -/
def attachmentFields (contentType safeName : Str) : List (Str × Str) :=
  [("Content-Type".toList, contentType ++ "; name=\"".toList ++ safeName ++ ['"']),
    ("Content-Disposition".toList, "attachment; filename=\"".toList ++ safeName ++ ['"']),
    ("Content-Transfer-Encoding".toList, "base64".toList)]

theorem isField_textFields : ∀ f ∈ textFields, IsField f := by
  intro f hf
  obtain rfl := List.mem_singleton.mp hf
  exact { oneLine := by decide, name_ne_nil := by decide, name := by decide }

theorem isField_attachmentFields {contentType safeName : Str} (htype : OneLine contentType)
    (hname : OneLine safeName) : ∀ f ∈ attachmentFields contentType safeName, IsField f := by
  have hquoted : ∀ value : Str, OneLine value → OneLine (value ++ safeName ++ ['"']) := fun value hvalue =>
    List.forall_mem_append.mpr ⟨List.forall_mem_append.mpr ⟨hvalue, hname⟩, by decide⟩
  have hfield : ∀ name value : Str, name ≠ [] → (∀ c ∈ name, c ≠ ':' ∧ isWhitespace c = false) →
      OneLine name → OneLine value → IsField (name, value) := fun name value hne hplain hline hvalue =>
    { oneLine := List.forall_mem_append.mpr ⟨hline, by simpa using hvalue⟩
      name_ne_nil := hne
      name := hplain }
  intro f hf
  simp only [attachmentFields, List.mem_cons, List.not_mem_nil, or_false] at hf
  rcases hf with rfl | rfl | rfl
  · refine hfield _ _ (by decide) (by decide) (by decide) (hquoted _ ?_)
    exact List.forall_mem_append.mpr ⟨htype, by decide⟩
  · exact hfield _ _ (by decide) (by decide) (by decide) (hquoted _ (by decide))
  · exact hfield _ _ (by decide) (by decide) (by decide) (by decide)

/-! ## File names -/

/-- A file name without line terminators, as it is sent. -/
def cleanName (name : Str) : Str := replaceChar '\n' " ".toList (replaceChar '\r' [] name)

theorem mem_replaceChar {c d : Char} {sub s : Str} (h : d ∈ replaceChar c sub s) :
    d ∈ s ∧ d ≠ c ∨ d ∈ sub := by
  obtain ⟨e, he, hd⟩ := List.mem_flatMap.mp h
  split at hd
  next => exact .inr hd
  next hne =>
      obtain rfl := List.mem_singleton.mp hd
      exact .inl ⟨he, hne⟩

theorem oneLine_cleanName (name : Str) : OneLine (cleanName name) := by
  intro c hc
  rcases mem_replaceChar hc with ⟨hc, hlf⟩ | hc
  · rcases mem_replaceChar hc with ⟨-, hcr⟩ | hc
    · exact ⟨hcr, hlf⟩
    · cases hc
  · obtain rfl := List.mem_singleton.mp hc
    decide

theorem oneLine_escapeFilename (name : Str) : OneLine (escapeFilename name) := oneLine_cleanName _

/-- Line terminators are taken out of a name with or without the escapes. -/
theorem escapeFilename_cleanName (name : Str) : escapeFilename (cleanName name) = escapeFilename name := by
  induction name with
  | nil => rfl
  | cons c name ih =>
      have hclean : cleanName (c :: name) = cleanName [c] ++ cleanName name := by
        simp [cleanName, replaceChar]
      have happend : ∀ a b : Str, escapeFilename (a ++ b) = escapeFilename a ++ escapeFilename b := by
        intro a b
        simp [escapeFilename, replaceChar]
      have hone : escapeFilename (cleanName [c]) = escapeFilename [c] := by
        by_cases hcr : c = '\r'
        · subst hcr
          rfl
        · by_cases hlf : c = '\n'
          · subst hlf
            rfl
          · have hself : cleanName [c] = [c] := by simp [cleanName, replaceChar, hcr, hlf]
            rw [hself]
      rw [hclean, happend, ih, hone, ← escapeFilename_cons]

theorem replaceChar_eq_self {c : Char} {s : Str} (h : c ∉ s) (sub : Str) : replaceChar c sub s = s := by
  induction s with
  | nil => rfl
  | cons d s ih =>
      rw [List.mem_cons, not_or] at h
      have hrest := ih h.2
      unfold replaceChar at hrest ⊢
      rw [List.flatMap_cons, if_neg (Ne.symm h.1), hrest, List.singleton_append]

theorem cleanName_idem (name : Str) : cleanName (cleanName name) = cleanName name := by
  have hcr : '\r' ∉ cleanName name := fun h => (oneLine_cleanName name _ h).1 rfl
  have hlf : '\n' ∉ cleanName name := fun h => (oneLine_cleanName name _ h).2 rfl
  show replaceChar '\n' " ".toList (replaceChar '\r' [] (cleanName name)) = _
  rw [replaceChar_eq_self hcr, replaceChar_eq_self hlf]

/-- The name that is read of a disposition. -/
theorem extractQuotedParam_disposition (name : Str) :
    extractQuotedParam ("attachment; filename=\"".toList ++ escapeFilename name ++ ['"']) "filename".toList =
      some (cleanName name) := by
  have hname : IsParamName "filename".toList := { ne_nil := by decide, plain := by decide }
  have hcr : '\r' ∉ cleanName name := fun h => (oneLine_cleanName name _ h).1 rfl
  have hlf : '\n' ∉ cleanName name := fun h => (oneLine_cleanName name _ h).2 rfl
  have hprimary : IsPrimary "attachment".toList := by
    unfold IsPrimary
    decide
  have htext : "attachment".toList ++ paramsText [fileParam hname hcr hlf] =
      "attachment; filename=\"".toList ++ escapeFilename name ++ ['"'] := by
    simp [paramsText, Param.text, fileParam, escapeFilename_cleanName]
  rw [← htext, extractQuotedParam_headerText hprimary]
  rfl

/-! ## Reading a part -/

theorem trimStart_idem (s : Str) : trimStart (trimStart s) = trimStart s := List.dropWhile_idempotent _ _

theorem trimEnd_idem (s : Str) : trimEnd (trimEnd s) = trimEnd s := List.rdropWhile_idempotent _ _

/-- Parameters behind a type leave its primary value as it is. -/
theorem primaryValue_append (contentType rest : Str) :
    primaryValue (trim (contentType ++ ';' :: rest)) = primaryValue contentType := by
  have hsemi : isWhitespace ';' = false := by decide
  unfold primaryValue
  rw [trim_append_visible _ _ hsemi, trim_append_visible _ _ hsemi, trimStart_idem, trimEnd_idem]
  cases hcut : splitOnce ';' contentType with
  | none =>
      have hno := splitOnce_eq_none_iff.mp hcut
      have hstart : ';' ∉ trimStart contentType := fun h => hno ((List.dropWhile_suffix _).subset h)
      have hwhole : ';' ∉ trim contentType := fun h => hno (mem_of_mem_trim h)
      rw [splitOnce_eq_some_iff.mpr ⟨rfl, hstart⟩, splitOnce_eq_none_iff.mpr hwhole]
      dsimp only
      rw [trim, trimStart_idem, trim]
  | some cut =>
      obtain ⟨rfl, hno⟩ := splitOnce_eq_some_iff.mp hcut
      have hstart : ';' ∉ trimStart cut.1 := fun h => hno ((List.dropWhile_suffix _).subset h)
      rw [trimStart_append_visible _ _ hsemi, trim_append_visible _ _ hsemi, List.append_assoc,
        List.cons_append, splitOnce_eq_some_iff.mpr ⟨rfl, hstart⟩, splitOnce_eq_some_iff.mpr ⟨rfl, hstart⟩]

/-- **What is read of the part of an attachment.** -/
theorem parseAttachmentPart_attachmentFields (engine : Base64.Engine) {contentType : Str}
    (htype : OneLine contentType) (name : Str) (body : Bytes) :
    parseAttachmentPart engine ⟨headerBlock (attachmentFields contentType (escapeFilename name)), body⟩ =
      { contentType := primaryValue contentType
        filename := cleanName name
        data := (decodeBase64 engine body).getD body } := by
  have hfields := isField_attachmentFields htype (oneLine_escapeFilename name)
  have hvalue := headerValue_headerBlock hfields
  have htypeField : headerValue (headerBlock (attachmentFields contentType (escapeFilename name)))
      "Content-Type".toList =
        some (trim (contentType ++ ';' :: (" name=\"".toList ++ escapeFilename name ++ ['"']))) := by
    have happend : contentType ++ ';' :: (" name=\"".toList ++ escapeFilename name ++ ['"']) =
        contentType ++ "; name=\"".toList ++ escapeFilename name ++ ['"'] := by
      have hname : "; name=\"".toList = ';' :: " name=\"".toList := by decide
      rw [hname, List.append_assoc contentType, List.cons_append, List.append_assoc contentType,
        List.cons_append]
    rw [hvalue, happend]
    rfl
  have hdisposition : headerValue (headerBlock (attachmentFields contentType (escapeFilename name)))
      "Content-Disposition".toList =
        some ("attachment; filename=\"".toList ++ escapeFilename name ++ ['"']) := by
    have htrim : trim ("attachment; filename=\"".toList ++ escapeFilename name ++ '"' :: []) =
        "attachment; filename=\"".toList ++ escapeFilename name ++ ['"'] := by
      rw [trim_append_visible _ _ (by decide)]
      rfl
    rw [hvalue, ← htrim]
    rfl
  have hencoding : headerValue (headerBlock (attachmentFields contentType (escapeFilename name)))
      "Content-Transfer-Encoding".toList = some "base64".toList := by
    rw [hvalue]
    rfl
  have hdata : decodePartBody engine
      ⟨headerBlock (attachmentFields contentType (escapeFilename name)), body⟩ =
      (decodeBase64 engine body).getD body := by
    unfold decodePartBody
    rw [hencoding]
    rfl
  unfold parseAttachmentPart
  rw [hdata]
  dsimp only
  rw [htypeField, hdisposition]
  dsimp only
  rw [primaryValue_append, Option.getD_some, extractQuotedParam_disposition]
  rfl

/-! ## The boundary -/

/-- A delimiter is on one line, and has none of the characters between the parts of a field. -/
theorem mem_delimiter (u : Uuid) :
    ∀ c ∈ "--".toList ++ makeBoundary u, (c ≠ '\r' ∧ c ≠ '\n') ∧ c ≠ ' ' ∧ c ≠ ':' ∧ c ≠ ';' ∧ c ≠ '"' := by
  unfold makeBoundary
  simp only [List.forall_mem_append]
  refine ⟨by decide, by decide, ?_⟩
  exact forall_mem_simple (p := fun c => (c ≠ '\r' ∧ c ≠ '\n') ∧ c ≠ ' ' ∧ c ≠ ':' ∧ c ≠ ';' ∧ c ≠ '"')
    (by decide) u

theorem quotedBody_plain {s : Str} (h : ∀ c ∈ s, c ≠ '\\' ∧ c ≠ '"') : QuotedBody s s := by
  induction s with
  | nil => exact .nil
  | cons c s ih =>
      rw [List.forall_mem_cons] at h
      exact .char h.1.1 h.1.2 (ih h.2)

theorem quotedBody_makeBoundary (u : Uuid) : QuotedBody (makeBoundary u) (makeBoundary u) := by
  unfold makeBoundary
  refine quotedBody_plain (List.forall_mem_append.mpr ⟨by decide, ?_⟩)
  exact forall_mem_simple (p := fun c => c ≠ '\\' ∧ c ≠ '"') (by decide) u

theorem infix_utf8_iff {c : Char} (hc : c.toNat < 0x80) (n s : Str) :
    utf8 (c :: n) <:+: utf8 s ↔ (c :: n) <:+: s := by
  rw [← not_iff_not, ← dropInfix?_eq_none_iff, ← dropInfix?_eq_none_iff, dropInfix?_utf8 s n hc,
    Option.map_eq_none_iff]

section Delimiter

variable {needle : Str}

theorem not_infix_append_cons {a b : Str} {x : Char} (hx : x ∉ needle) (ha : ¬ needle <:+: a)
    (hb : ¬ needle <:+: b) : ¬ needle <:+: a ++ x :: b :=
  fun h => (infix_or_infix_of_notMem hx h).elim ha hb

theorem not_infix_nil (hne : needle ≠ []) : ¬ needle <:+: [] := fun h => hne (List.infix_nil.mp h)

/-- A delimiter is not in a line between two texts without it. -/
theorem not_infix_append_crlf (hne : needle ≠ []) (hline : OneLine needle) {a b : Str} (ha : ¬ needle <:+: a)
    (hb : ¬ needle <:+: b) : ¬ needle <:+: a ++ (crlf ++ b) :=
  not_infix_append_cons (fun h => (hline _ h).1 rfl) ha
    (not_infix_append_cons (fun h => (hline _ h).2 rfl) (not_infix_nil hne) hb)

theorem not_infix_headerText (hne : needle ≠ []) (hline : OneLine needle) {fields : List (Str × Str)}
    (hfields : ∀ f ∈ fields, ¬ needle <:+: fieldLine f) {content : Str} (hcontent : ¬ needle <:+: content) :
    ¬ needle <:+: headerText fields ++ (crlf ++ content) := by
  induction fields with
  | nil => exact not_infix_append_crlf hne hline (not_infix_nil hne) hcontent
  | cons f fields ih =>
      rw [List.forall_mem_cons] at hfields
      have hsplit : headerText (f :: fields) ++ (crlf ++ content) =
          fieldLine f ++ (crlf ++ (headerText fields ++ (crlf ++ content))) := by
        simp [headerText]
      rw [hsplit]
      exact not_infix_append_crlf hne hline hfields.1 (ih hfields.2)

end Delimiter

/-- **A boundary that is in none of the parts separates them.** -/
theorem separates_makeBoundary (u : Uuid) {parts : List Str}
    (h : ∀ part ∈ parts, ¬ "--".toList ++ makeBoundary u <:+: part) :
    Separates (utf8 ("--".toList ++ makeBoundary u)) (parts.map utf8) := by
  have hplain := mem_delimiter u
  have hne : "--".toList ++ makeBoundary u ≠ [] := by simp
  have hbyte : ∀ c : Char, c.toNat < 0x80 → c ∉ "--".toList ++ makeBoundary u →
      ¬ utf8 [c] <:+: utf8 ("--".toList ++ makeBoundary u) := by
    intro c hc hno hin
    rw [infix_utf8_iff hc, List.singleton_infix_iff] at hin
    exact hno hin
  have hin : ∀ s : Str, utf8 ("--".toList ++ makeBoundary u) <:+: utf8 s ↔
      "--".toList ++ makeBoundary u <:+: s := fun s => infix_utf8_iff (by decide) _ s
  refine
    { oneLine := ⟨fun hmem => ?_, fun hmem => ?_⟩
      ne_nil := by simp
      closing := fun hclose => ?_
      free := fun part hpart hfree => ?_ }
  · exact hbyte '\r' (by decide) (fun hc => (hplain _ hc).1.1 rfl) ((List.singleton_infix_iff _ _).mpr hmem)
  · exact hbyte '\n' (by decide) (fun hc => (hplain _ hc).1.2 rfl) ((List.singleton_infix_iff _ _).mpr hmem)
  · -- the closing line is shorter than the delimiter
    have hlength := ((hin ("--".toList ++ crlf)).mp hclose).length_le
    simp [makeBoundary, u.length, crlf] at hlength
  · obtain ⟨text, htext, rfl⟩ := List.mem_map.mp hpart
    have hline : OneLine ("--".toList ++ makeBoundary u) := fun c hc => (hplain c hc).1
    have hpadded : ¬ "--".toList ++ makeBoundary u <:+: [] ++ (crlf ++ (text ++ (crlf ++ []))) :=
      not_infix_append_crlf hne hline (not_infix_nil hne)
        (not_infix_append_crlf hne hline (h text htext) (not_infix_nil hne))
    have hbytes : utf8 ([] ++ (crlf ++ (text ++ (crlf ++ [])))) =
        Multipart.crlf ++ utf8 text ++ Multipart.crlf := by
      simp only [utf8_append, List.nil_append, List.append_nil, List.append_assoc]
      rfl
    refine hpadded ((hin _).mp ?_)
    rw [hbytes]
    exact hfree

end Send
end Aimx
