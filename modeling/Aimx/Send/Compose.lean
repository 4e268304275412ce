import Aimx.Ingest.Attachments
import Aimx.Ingest.Thread
import Aimx.Send.Params
import Aimx.Send.QuotedPrintable
import Aimx.Text.Base64

/-!
# Composing a message

`aimx send` and the `email_reply` tool build the message that they submit from their arguments: a header
block, and the Markdown text or the parts of a multipart body behind it.

* `composeRequest` — the message, with `writeCommonHeaders` for its header block;
* `Emits` — a text begins with the lines of some fields and an empty line;
* `composeRequest_emits` — the fields of a composed message, whatever the arguments are;
* `BareSender` — the `From` values that end in the address of the sender;
* `composedWell_iff` — the `From` values for which the id of the message is well formed.
-/

namespace Aimx
namespace Send

open Text Ingest
open scoped Literal

/-! ## The functions of the source -/

/-- The arguments that `compose_request` reads. -/
structure SendArgs where
  from_ : Str
  to_ : Str
  subject : Str
  body : Str
  replyTo : Option Str
  references : Option Str
  attachments : List Str

/-- The files of the attachments. -/
structure AttachmentFiles where
  pathExists : Str → Bool
  isFile : Str → Bool
  read : Str → Except Str Bytes

/-- A text on one line. -/
abbrev OneLine (s : Str) : Prop := ∀ c ∈ s, c ≠ '\r' ∧ c ≠ '\n'

instance (s : Str) : Decidable (OneLine s) :=
  decidable_of_iff (s.all (fun c => c ≠ '\r' ∧ c ≠ '\n') = true) (by simp)

/-- A date as `to_rfc2822` writes it, on one line. -/
structure Rfc2822Date where
  text : Str
  oneLine : OneLine text

/-- What a composed message takes from elsewhere: two random values, the time, the files, the media type of
a path and the encoding of bytes. -/
structure ComposeEnv where
  messageUuid : Uuid
  boundaryUuid : Uuid
  date : Rfc2822Date
  files : AttachmentFiles
  contentType : Str → Str
  base64 : Base64.Engine

def crlf : Str := ['\r', '\n']

def validateHeaderValue (name value : Str) : Except Str Unit :=
  if '\r' ∈ value ∨ '\n' ∈ value then
    .error ("Header '".toList ++ name ++
      "' contains CRLF characters. Possible header injection".toList)
  else .ok ()

/-- A header field without its line terminator. -/
def fieldLine (field : Str × Str) : Str := field.1 ++ ':' :: ' ' :: field.2

/-- The fields of a reply. -/
def replyFields (args : SendArgs) : List (Str × Str) :=
  match args.replyTo with
  | none => []
  | some replyTo =>
      let replyId := normalizeMessageId (sanitizeHeaderValue replyTo)
      let refs :=
        match args.references with
        | some r => if trim r ≠ [] then sanitizeHeaderValue r else replyId
        | none => replyId
      [("In-Reply-To".toList, replyId), ("References".toList, refs)]

/-- The fields that `write_common_headers` pushes, in its order. -/
def commonFields (args : SendArgs) (date messageId : Str) : List (Str × Str) :=
  [("From".toList, sanitizeHeaderValue args.from_), ("To".toList, sanitizeHeaderValue args.to_),
    ("Subject".toList, sanitizeHeaderValue args.subject), ("Date".toList, date),
    ("Message-ID".toList, messageId)] ++
  replyFields args ++ [("MIME-Version".toList, "1.0".toList)]

/-- Fields as they are pushed, each on a line of its own. -/
def headerText (fields : List (Str × Str)) : Str := fields.flatMap fun f => fieldLine f ++ crlf

def writeCommonHeaders (args : SendArgs) (date messageId : Str) : Except Str Str := do
  validateHeaderValue "From".toList args.from_
  validateHeaderValue "To".toList args.to_
  validateHeaderValue "Subject".toList args.subject
  return headerText (commonFields args date messageId)

/-- `normalize_crlf`. -/
def normalizeCrlf (text : Str) : Str := replaceChar '\n' crlf (lfText text)

/-- `validate_attachments`. -/
def validateAttachments (files : AttachmentFiles) : List Str → Except Str Unit
  | [] => .ok ()
  | path :: paths =>
      if !files.pathExists path then .error ("Attachment file not found: ".toList ++ path)
      else if !files.isFile path then .error ("Attachment path is not a file: ".toList ++ path)
      else validateAttachments files paths

/-- The part of one attachment. -/
def attachmentPart (env : ComposeEnv) (boundary path : Str) : Except Str Str := do
  let safeName := Compose.escapeFilename ((Ingest.pathFileName path).getD "attachment".toList)
  let fileData ← env.files.read path
  return "--".toList ++ boundary ++ crlf ++
    "Content-Type: ".toList ++ env.contentType path ++ "; name=\"".toList ++ safeName ++
      "\"".toList ++ crlf ++
    "Content-Disposition: attachment; filename=\"".toList ++ safeName ++ "\"".toList ++ crlf ++
    "Content-Transfer-Encoding: base64".toList ++ crlf ++ crlf ++
    ((env.base64.encode fileData).toChunks 76).flatMap fun chunk => chunk ++ crlf

/-- The domain of the message id: the text between the first two at signs of the `From` value. -/
def messageIdDomain (sanitizedFrom : Str) : Str :=
  ((sanitizedFrom.splitOn '@')[1]?).getD "localhost".toList

/-- The field that announces the parts of a message with attachments. -/
def contentTypeField (boundary : Str) : Str × Str :=
  ("Content-Type".toList, "multipart/mixed; boundary=\"".toList ++ boundary ++ "\"".toList)

/-- The body of a message with attachments: the text part, their parts and the closing boundary. -/
def multipartBody (boundary body : Str) (parts : List Str) : Str :=
  "--".toList ++ boundary ++ crlf ++ "Content-Type: text/plain; charset=utf-8".toList ++ crlf ++ crlf ++
    normalizeCrlf body ++ crlf ++
  parts.flatten ++ "--".toList ++ boundary ++ "--".toList ++ crlf

def composeRequest (env : ComposeEnv) (args : SendArgs) : Except Str Bytes := do
  validateAttachments env.files args.attachments
  let domain := messageIdDomain (sanitizeHeaderValue args.from_)
  let messageId := '<' :: env.messageUuid.hyphenated ++ '@' :: domain ++ ['>']
  let headers ← writeCommonHeaders args env.date.text messageId
  if args.attachments = [] then
    return utf8 (headers ++ (crlf ++ (normalizeCrlf args.body ++ crlf)))
  else
    let boundary := makeBoundary env.boundaryUuid
    let parts ← args.attachments.mapM (attachmentPart env boundary)
    return utf8 (headers ++ headerText [contentTypeField boundary] ++
      (crlf ++ multipartBody boundary args.body parts))

/-! ## The header block -/

/-- A text begins with one line for each of some fields, and an empty line ends them. -/
structure Emits (text : Str) (fields : List (Str × Str)) : Prop where
  block : ∃ rest, lines text = fields.map fieldLine ++ [] :: rest
  oneLine : ∀ f ∈ fields, OneLine (fieldLine f)

/-- What is accepted as a header value is on one line. -/
theorem validateHeaderValue_eq_ok {name value : Str} {u : Unit} (h : validateHeaderValue name value = .ok u) :
    OneLine value := by
  unfold validateHeaderValue at h
  split at h
  next => cases h
  next hno =>
      rw [not_or] at hno
      exact fun c hc => ⟨fun h => hno.1 (h ▸ hc), fun h => hno.2 (h ▸ hc)⟩

theorem mem_sanitizeHeaderValue {value : Str} {c : Char} (h : c ∈ sanitizeHeaderValue value) :
    c ≠ '\r' ∧ c ≠ '\n' := by
  simpa using List.of_mem_filter h

/-- The brackets around an id bring no line break. -/
theorem mem_normalizeMessageId {id : Str} (hid : OneLine id) {c : Char}
    (h : c ∈ normalizeMessageId id) : c ≠ '\r' ∧ c ≠ '\n' := by
  have htrim : c ∈ trim id → c ≠ '\r' ∧ c ≠ '\n' := fun hc => hid c (mem_of_mem_trim hc)
  unfold normalizeMessageId at h
  dsimp only at h
  split at h
  next => exact htrim h
  next =>
      rw [List.cons_append, List.mem_cons, List.mem_append, List.mem_singleton] at h
      rcases h with rfl | h | rfl
      · decide
      · exact htrim h
      · decide

/-- A reply id and its references are on one line each. -/
theorem mem_replyFields {args : SendArgs} {f : Str × Str} (h : f ∈ replyFields args) :
    OneLine f.2 := by
  intro c hc
  unfold replyFields at h
  split at h
  next => cases h
  next replyTo _ =>
      have hid : OneLine (normalizeMessageId (sanitizeHeaderValue replyTo)) :=
        fun c hc => mem_normalizeMessageId (fun _ => mem_sanitizeHeaderValue) hc
      simp only [List.mem_cons, List.not_mem_nil, or_false] at h
      rcases h with rfl | rfl
      · exact hid c hc
      · dsimp only at hc
        split at hc
        next =>
            split at hc
            · exact mem_sanitizeHeaderValue hc
            · exact hid c hc
        next => exact hid c hc

theorem replyFields_names (args : SendArgs) :
    (replyFields args).map Prod.fst =
      if args.replyTo.isSome then ["In-Reply-To".toList, "References".toList] else [] := by
  unfold replyFields
  cases args.replyTo <;> rfl

/-- The lines of a header text. -/
theorem lines_headerText {fields : List (Str × Str)} (h : ∀ f ∈ fields, OneLine (fieldLine f))
    (rest : Str) : lines (headerText fields ++ rest) = fields.map fieldLine ++ lines rest := by
  induction fields with
  | nil => rfl
  | cons f fields ih =>
      have hf : '\n' ∉ fieldLine f := fun hmem => (h f List.mem_cons_self _ hmem).2 rfl
      have hcut : headerText (f :: fields) ++ rest =
          fieldLine f ++ '\r' :: '\n' :: (headerText fields ++ rest) := by
        simp [headerText, crlf]
      rw [hcut, lines_crlf_cons hf, ih fun g hg => h g (List.mem_cons_of_mem _ hg)]
      rfl

/-- A header text and an empty line. -/
theorem emits_headerText {fields : List (Str × Str)} (h : ∀ f ∈ fields, OneLine (fieldLine f))
    (rest : Str) : Emits (headerText fields ++ (crlf ++ rest)) fields where
  block := by
    refine ⟨lines rest, ?_⟩
    rw [lines_headerText h]
    rfl
  oneLine := h


/-- A computation that goes on after another succeeds only behind a success. -/
theorem exceptBind_eq_ok {ε : Type*} {α β : Type} {x : Except ε α} {f : α → Except ε β} {b : β} :
    (x >>= f) = .ok b ↔ ∃ a, x = .ok a ∧ f a = .ok b := by
  cases x with
  | error e =>
      refine ⟨fun h => ?_, fun ⟨a, ha, _⟩ => ?_⟩
      · cases h
      · cases ha
  | ok a =>
      refine ⟨fun h => ⟨a, rfl, h⟩, fun ⟨a', ha, h⟩ => ?_⟩
      cases ha
      exact h

/-- What is accepted stands in the headers, and its `From` value is on one line. -/
theorem writeCommonHeaders_eq_ok {args : SendArgs} {date messageId headers : Str}
    (h : writeCommonHeaders args date messageId = .ok headers) :
    headers = headerText (commonFields args date messageId) ∧ OneLine args.from_ := by
  obtain ⟨_, hfrom, h⟩ := exceptBind_eq_ok.mp h
  obtain ⟨_, -, h⟩ := exceptBind_eq_ok.mp h
  obtain ⟨_, -, h⟩ := exceptBind_eq_ok.mp h
  cases h
  exact ⟨rfl, validateHeaderValue_eq_ok hfrom⟩

/-- The names of the fields of a composed message, in their order. -/
def fieldNames (args : SendArgs) : List Str :=
  ["From".toList, "To".toList, "Subject".toList, "Date".toList, "Message-ID".toList] ++
  (if args.replyTo.isSome then ["In-Reply-To".toList, "References".toList] else []) ++
  ["MIME-Version".toList] ++
  if args.attachments = [] then [] else ["Content-Type".toList]

/-- The id that a message is composed with. -/
def composedMessageId (env : ComposeEnv) (from_ : Str) : Str :=
  '<' :: env.messageUuid.hyphenated ++ '@' :: messageIdDomain from_ ++ ['>']

/-- The fields of a composed message. -/
def composedFields (env : ComposeEnv) (args : SendArgs) : List (Str × Str) :=
  commonFields args env.date.text (composedMessageId env args.from_) ++
  if args.attachments = [] then [] else [contentTypeField (makeBoundary env.boundaryUuid)]

theorem composedFields_names (env : ComposeEnv) (args : SendArgs) :
    (composedFields env args).map Prod.fst = fieldNames args := by
  unfold composedFields commonFields fieldNames
  rw [List.map_append, List.map_append, List.map_append, replyFields_names]
  congr 1
  split <;> rfl

theorem headerText_append (a b : List (Str × Str)) : headerText (a ++ b) = headerText a ++ headerText b :=
  List.flatMap_append

/-- A composed message is its header text, an empty line and a body. -/
theorem composeRequest_eq_ok {env : ComposeEnv} {args : SendArgs} {message : Bytes}
    (h : composeRequest env args = .ok message) :
    OneLine args.from_ ∧
      ∃ body, message = utf8 (headerText (composedFields env args) ++ (crlf ++ body)) := by
  obtain ⟨_, -, h⟩ := exceptBind_eq_ok.mp h
  obtain ⟨headers, hheaders, h⟩ := exceptBind_eq_ok.mp h
  obtain ⟨rfl, hfrom⟩ := writeCommonHeaders_eq_ok hheaders
  rw [sanitizeHeaderValue_eq_self hfrom] at h
  refine ⟨hfrom, ?_⟩
  unfold composedFields composedMessageId
  split at h
  next hnone =>
      rw [if_pos hnone, List.append_nil]
      cases h
      exact ⟨_, rfl⟩
  next hsome =>
      obtain ⟨parts, -, h⟩ := exceptBind_eq_ok.mp h
      rw [if_neg hsome, headerText_append]
      cases h
      exact ⟨_, rfl⟩

/-- A character that stands in an id: no at sign, no angle bracket, no white space, and none of the
parentheses around a comment. -/
abbrev IsIdChar (c : Char) : Prop :=
  c ≠ '@' ∧ c ≠ '<' ∧ c ≠ '>' ∧ c ≠ '(' ∧ c ≠ ')' ∧ isWhitespace c = false

/-- The random part of an id is made of such characters. -/
theorem mem_hyphenated (u : Uuid) : ∀ c ∈ u.hyphenated, IsIdChar c :=
  forall_mem_hyphenated (p := IsIdChar) (by decide) (by decide) u

/-- Such a character does not end a line. -/
theorem IsIdChar.oneLine {c : Char} (h : IsIdChar c) : c ≠ '\r' ∧ c ≠ '\n' := by
  constructor
  · rintro rfl
    exact absurd h (by decide)
  · rintro rfl
    exact absurd h (by decide)

theorem mem_makeBoundary (u : Uuid) : OneLine (makeBoundary u) := by
  unfold makeBoundary
  refine List.forall_mem_append.mpr ?_
  exact ⟨by decide, forall_mem_simple (p := fun c => c ≠ '\r' ∧ c ≠ '\n') (by decide) u⟩

/-! ### The domain of the id -/

/-- No character of a text without an at sign is one. -/
theorem beq_at_eq_false {s : Str} (h : '@' ∉ s) : ∀ c ∈ s, (c == '@') = false := by
  intro c hc
  rw [beq_eq_false_iff_ne]
  rintro rfl
  exact h hc

theorem splitOn_noAt {s : Str} (h : '@' ∉ s) : s.splitOn '@' = [s] :=
  List.splitOnP_eq_singleton (beq_at_eq_false h)

theorem splitOn_at {pre : Str} (h : '@' ∉ pre) (rest : Str) :
    (pre ++ '@' :: rest).splitOn '@' = pre :: rest.splitOn '@' :=
  List.splitOnP_append_cons_of_forall_mem (beq_at_eq_false h) '@' (beq_self_eq_true '@') rest

theorem messageIdDomain_noAt {s : Str} (h : '@' ∉ s) : messageIdDomain s = "localhost".toList := by
  rw [messageIdDomain, splitOn_noAt h]
  rfl

theorem messageIdDomain_oneAt {pre domain : Str} (hpre : '@' ∉ pre) (hdomain : '@' ∉ domain) :
    messageIdDomain (pre ++ '@' :: domain) = domain := by
  rw [messageIdDomain, splitOn_at hpre, splitOn_noAt hdomain]
  rfl

theorem messageIdDomain_repeated {pre domain rest : Str} (hpre : '@' ∉ pre) (hdomain : '@' ∉ domain) :
    messageIdDomain (pre ++ '@' :: (domain ++ '@' :: rest)) = domain := by
  rw [messageIdDomain, splitOn_at hpre, splitOn_at hdomain]
  rfl

/-- A text around its first two at signs. -/
theorem exists_atSigns (s : Str) :
    '@' ∉ s ∨ ∃ pre domain, '@' ∉ pre ∧ '@' ∉ domain ∧
      (s = pre ++ '@' :: domain ∨ ∃ rest, s = pre ++ '@' :: (domain ++ '@' :: rest)) := by
  cases hs : splitOnce '@' s with
  | none => exact .inl (splitOnce_eq_none_iff.mp hs)
  | some cut =>
      obtain ⟨rfl, hpre⟩ := splitOnce_eq_some_iff.mp hs
      cases htail : splitOnce '@' cut.2 with
      | none => exact .inr ⟨cut.1, cut.2, hpre, splitOnce_eq_none_iff.mp htail, .inl rfl⟩
      | some cut' =>
          obtain ⟨hcut, hdomain⟩ := splitOnce_eq_some_iff.mp htail
          exact .inr ⟨cut.1, cut'.1, hpre, hdomain, .inr ⟨cut'.2, by rw [hcut]⟩⟩

/-- The domain of the id is on the line of the sender. -/
theorem mem_messageIdDomain {s : Str} {c : Char} (h : c ∈ messageIdDomain s) :
    c ∈ s ∨ c ∈ "localhost".toList := by
  rcases exists_atSigns s with hs | ⟨pre, domain, hpre, hdomain, rfl | ⟨rest, rfl⟩⟩
  · rw [messageIdDomain_noAt hs] at h
    exact .inr h
  · rw [messageIdDomain_oneAt hpre hdomain] at h
    exact .inl (List.mem_append_right _ (List.mem_cons_of_mem _ h))
  · rw [messageIdDomain_repeated hpre hdomain] at h
    exact .inl (List.mem_append_right _ (List.mem_cons_of_mem _ (List.mem_append_left _ h)))

theorem at_notMem_messageIdDomain (s : Str) : '@' ∉ messageIdDomain s := by
  rcases exists_atSigns s with hs | ⟨pre, domain, hpre, hdomain, rfl | ⟨rest, rfl⟩⟩
  · rw [messageIdDomain_noAt hs]
    decide
  · rwa [messageIdDomain_oneAt hpre hdomain]
  · rwa [messageIdDomain_repeated hpre hdomain]

theorem fieldNames_oneLine (args : SendArgs) : ∀ name ∈ fieldNames args, OneLine name := by
  unfold fieldNames
  simp only [List.forall_mem_append]
  refine ⟨⟨⟨by decide, ?_⟩, by decide⟩, ?_⟩
  · split <;> decide
  · split <;> decide

/-- No name is written twice, in whatever case. -/
theorem fieldNames_nodup (args : SendArgs) : ((fieldNames args).map toAsciiLowercase).Nodup := by
  unfold fieldNames
  split <;> split <;> decide +kernel

/-- The fields of a composed message are on one line each. -/
theorem mem_composedFields {env : ComposeEnv} {args : SendArgs} (hfrom : OneLine args.from_)
    {f : Str × Str} (h : f ∈ composedFields env args) : OneLine (fieldLine f) := by
  have hline : ∀ name value : Str, OneLine name → OneLine value →
      OneLine (fieldLine (name, value)) := by
    intro name value hname hvalue
    unfold fieldLine
    simp only [List.forall_mem_append, List.forall_mem_cons]
    exact ⟨hname, by decide, by decide, hvalue⟩
  have hid : OneLine (composedMessageId env args.from_) := by
    unfold composedMessageId
    simp only [List.forall_mem_append, List.forall_mem_cons]
    refine ⟨⟨⟨by decide, fun c hc => (mem_hyphenated _ c hc).oneLine⟩, by decide,
      fun c hc => ?_⟩, by decide, by simp⟩
    rcases mem_messageIdDomain hc with hc | hc
    · exact hfrom c hc
    · exact (by decide : OneLine "localhost".toList) c hc
  have hboundary : OneLine (contentTypeField (makeBoundary env.boundaryUuid)).2 := by
    unfold contentTypeField
    simp only [List.forall_mem_append]
    exact ⟨⟨by decide, mem_makeBoundary _⟩, by decide⟩
  have hsanitized : ∀ value, OneLine (sanitizeHeaderValue value) :=
    fun _ _ => mem_sanitizeHeaderValue
  have hname : OneLine f.1 := by
    have hmem : f.1 ∈ fieldNames args := composedFields_names env args ▸ List.mem_map_of_mem h
    exact fieldNames_oneLine args _ hmem
  unfold composedFields commonFields at h
  simp only [List.mem_append, List.mem_cons, List.not_mem_nil, or_false] at h
  -- the fields of every message, those of a reply, the version of MIME and the type of the parts
  rcases h with (((rfl | rfl | rfl | rfl | rfl) | h) | rfl) | h
  · exact hline _ _ hname (hsanitized _)
  · exact hline _ _ hname (hsanitized _)
  · exact hline _ _ hname (hsanitized _)
  · exact hline _ _ hname env.date.oneLine
  · exact hline _ _ hname hid
  · exact hline _ _ hname (mem_replyFields h)
  · exact hline _ _ hname (by decide)
  · split at h
    · cases h
    · obtain rfl := List.mem_singleton.mp h
      exact hline _ _ hname hboundary

/-- Whatever the arguments are, a composed message begins with its fields, one line each. -/
theorem composeRequest_emits {env : ComposeEnv} {args : SendArgs} {message : Bytes}
    (h : composeRequest env args = .ok message) :
    ∃ text, message = utf8 text ∧ Emits text (composedFields env args) := by
  obtain ⟨hfrom, body, hmessage⟩ := composeRequest_eq_ok h
  exact ⟨_, hmessage, emits_headerText (fun _ hf => mem_composedFields hfrom hf) body⟩

/-! ## The sender of a message -/

/-- The domain of a sender: the one that SEND reads off its address.  A sender without an at sign has
none. -/
def IsSenderDomain (from_ domain : Str) : Prop :=
  ∃ addr local_, extractBareAddress from_ = some addr ∧ rsplitOnce '@' addr = some (local_, domain)

/-- A text leaves the last of its angle brackets open, or has none. -/
def LeavesOpen (pre : Str) : Prop := ∀ a t, pre = a ++ '<' :: t → '<' ∉ t → '>' ∉ t

/-- The senders whose domain stands between the first two at signs of the text. -/
inductive BareSender : Str → Prop
  /-- One at sign: the domain is what stands behind it. -/
  | oneAt {pre domain : Str} (hpre : ∀ c ∈ pre, c ≠ '@' ∧ c ≠ ',') (hopen : LeavesOpen pre)
      (hdomain : ∀ c ∈ domain, IsIdChar c ∧ c ≠ ',') (hne : domain ≠ []) :
      BareSender (pre ++ '@' :: domain)
  /-- Several at signs: the address ends in what stands between the first two of them. -/
  | repeated {pre domain rest addr local_ : Str} (hpre : '@' ∉ pre) (hne : domain ≠ [])
      (hdomain : ∀ c ∈ domain, IsIdChar c)
      (haddr : extractBareAddress (pre ++ '@' :: (domain ++ '@' :: rest)) = some addr)
      (hsplit : rsplitOnce '@' addr = some (local_, domain)) :
      BareSender (pre ++ '@' :: (domain ++ '@' :: rest))

/-- Trimming at the start keeps a visible character with what stands behind it. -/
theorem trimStart_append_visible (a b : Str) {c : Char} (hc : isWhitespace c = false) :
    trimStart (a ++ c :: b) = trimStart a ++ c :: b := by
  induction a with
  | nil => exact List.dropWhile_cons_of_neg (by simp [hc])
  | cons d a ih =>
      show (d :: (a ++ c :: b)).dropWhile isWhitespace = (d :: a).dropWhile isWhitespace ++ c :: b
      by_cases hd : isWhitespace d = true
      · rw [List.dropWhile_cons_of_pos hd, List.dropWhile_cons_of_pos hd]
        exact ih
      · rw [List.dropWhile_cons_of_neg hd, List.dropWhile_cons_of_neg hd]
        rfl

/-- Trimming at the end keeps a visible character with what stands before it. -/
theorem trimEnd_append_visible (a b : Str) {c : Char} (hc : isWhitespace c = false) :
    trimEnd (a ++ c :: b) = a ++ c :: trimEnd b := by
  induction b using List.reverseRecOn with
  | nil => rw [trimEnd_nil, trimEnd_concat_visible _ hc]
  | append_singleton b d ih =>
      have hassoc : a ++ c :: (b ++ [d]) = (a ++ c :: b) ++ [d] := by simp
      by_cases hd : isWhitespace d = true
      · rw [hassoc, trimEnd_concat_whitespace _ hd, trimEnd_concat_whitespace _ hd, ih]
      · rw [Bool.not_eq_true] at hd
        rw [hassoc, trimEnd_concat_visible _ hd, trimEnd_concat_visible _ hd, hassoc]

theorem trim_append_visible (a b : Str) {c : Char} (hc : isWhitespace c = false) :
    trim (a ++ c :: b) = trimStart a ++ c :: trimEnd b := by
  rw [trim, trimStart_append_visible a b hc, trimEnd_append_visible _ b hc]

/-- The address is what is left between the brackets of the first part, and has an at sign. -/
theorem extractBareAddress_eq_some_iff {value addr : Str} :
    extractBareAddress value = some addr ↔
      addr = trim (innerAddress (trim (firstPart value))) ∧ '@' ∈ addr := by
  unfold extractBareAddress
  dsimp only
  by_cases hfirst : trim (firstPart value) = []
  · rw [if_pos hfirst, hfirst]
    refine ⟨(fun h => nomatch h), ?_⟩
    rintro ⟨rfl, hat⟩
    cases hat
  rw [if_neg hfirst]
  split
  next hnone =>
      refine ⟨(fun h => nomatch h), ?_⟩
      rintro ⟨rfl, hat⟩
      rcases hnone with hnil | hno
      · rw [hnil] at hat
        cases hat
      · exact absurd hat hno
  next hsome =>
      rw [not_or, not_not] at hsome
      rw [Option.some.injEq]
      exact ⟨fun h => ⟨h.symm, h ▸ hsome.2⟩, fun h => h.1.symm⟩

/-- What follows the first comma is not read. -/
theorem firstPart_comma {p q : Str} (h : ',' ∉ p) : firstPart (p ++ ',' :: q) = p := by
  unfold firstPart
  rw [splitOnce_eq_some_iff.mpr ⟨rfl, h⟩]

theorem firstPart_noComma {s : Str} (h : ',' ∉ s) : firstPart s = s := by
  unfold firstPart
  rw [splitOnce_eq_none_iff.mpr h]

theorem extractBareAddress_comma {p q : Str} (h : ',' ∉ p) :
    extractBareAddress (p ++ ',' :: q) = extractBareAddress p := by
  unfold extractBareAddress
  rw [firstPart_comma h, firstPart_noComma h]

/-- A text around its last opening bracket. -/
theorem exists_lastBracket (s : Str) : '<' ∉ s ∨ ∃ a t, s = a ++ '<' :: t ∧ '<' ∉ t := by
  cases h : rsplitOnce '<' s with
  | none =>
      rw [rsplitOnce, Option.map_eq_none_iff, splitOnce_eq_none_iff, List.mem_reverse] at h
      exact .inl h
  | some cut => exact .inr ⟨cut.1, cut.2, rsplitOnce_eq_some_iff.mp h⟩

theorem innerAddress_noBracket {s : Str} (h : '<' ∉ s) : innerAddress s = s := by
  have hnone : rsplitOnce '<' s = none := by
    rw [rsplitOnce, Option.map_eq_none_iff, splitOnce_eq_none_iff, List.mem_reverse]
    exact h
  unfold innerAddress
  rw [hnone]

theorem innerAddress_open {a t : Str} (ht : '<' ∉ t) (hclose : '>' ∉ t) :
    innerAddress (a ++ '<' :: t) = t := by
  unfold innerAddress
  rw [rsplitOnce_eq_some_iff.mpr ⟨rfl, ht⟩]
  dsimp only
  rw [splitOnce_eq_none_iff.mpr hclose]

theorem innerAddress_closed {a inner post : Str} (ht : '<' ∉ inner ++ '>' :: post)
    (hclose : '>' ∉ inner) :
    innerAddress (a ++ '<' :: (inner ++ '>' :: post)) = inner := by
  unfold innerAddress
  rw [rsplitOnce_eq_some_iff.mpr ⟨rfl, ht⟩]
  dsimp only
  rw [splitOnce_eq_some_iff.mpr ⟨rfl, hclose⟩]

/-! ### One at sign -/

section OneAt

variable {pre domain : Str}

/-- The text is trimmed on both sides of its at sign. -/
theorem innerAddress_input (hpre : ',' ∉ pre) (hdomain : ',' ∉ domain) :
    trim (firstPart (pre ++ '@' :: domain)) = trimStart pre ++ '@' :: trimEnd domain := by
  have hcomma : ',' ∉ pre ++ '@' :: domain := by
    simp only [List.mem_append, List.mem_cons, not_or]
    exact ⟨hpre, by decide, hdomain⟩
  rw [firstPart_noComma hcomma, trim_append_visible pre domain (by decide)]

/-- An address whose bracket is left open goes to the end of the text. -/
theorem extractBareAddress_open (hpre : ',' ∉ pre) (hopen : LeavesOpen pre)
    (hdomain : ∀ c ∈ domain, c ≠ ',' ∧ c ≠ '<' ∧ c ≠ '>') :
    ∃ l, extractBareAddress (pre ++ '@' :: domain) = some (l ++ '@' :: trimEnd domain) := by
  have hend : ∀ c ∈ trimEnd domain, c ≠ ',' ∧ c ≠ '<' ∧ c ≠ '>' :=
    fun c hc => hdomain c ((List.rdropWhile_prefix isWhitespace _).subset hc)
  have hidem : trimEnd (trimEnd domain) = trimEnd domain := List.rdropWhile_idempotent _ _
  have hinput := innerAddress_input hpre fun h => (hdomain _ h).1 rfl
  have hbehind : ∀ {t : Str} {c : Char}, c ∉ t → c ≠ '@' → c ∉ trimEnd domain →
      c ∉ t ++ '@' :: trimEnd domain := by
    intro t c ht hat hc
    simp only [List.mem_append, List.mem_cons, not_or]
    exact ⟨ht, hat, hc⟩
  rcases exists_lastBracket pre with hno | ⟨a, t, rfl, ht⟩
  · refine ⟨trimStart (trimStart pre), extractBareAddress_eq_some_iff.mpr ⟨?_, by simp⟩⟩
    have hno' : '<' ∉ trimStart pre := fun h => hno ((List.dropWhile_suffix _).subset h)
    rw [hinput, innerAddress_noBracket (hbehind hno' (by decide) fun h => (hend _ h).2.1 rfl),
      trim_append_visible _ _ (by decide), hidem]
  · refine ⟨trimStart t, extractBareAddress_eq_some_iff.mpr ⟨?_, by simp⟩⟩
    have hclose : '>' ∉ t := hopen a t rfl ht
    rw [hinput, trimStart_append_visible a t (by decide), List.append_assoc, List.cons_append,
      innerAddress_open (hbehind ht (by decide) fun h => (hend _ h).2.1 rfl)
        (hbehind hclose (by decide) fun h => (hend _ h).2.2 rfl),
      trim_append_visible _ _ (by decide), hidem]

/-- An address is a piece of the text that it is read from. -/
theorem extractBareAddress_isInfix {value addr : Str} (h : extractBareAddress value = some addr) :
    addr <:+: value := by
  have htrim : ∀ s : Str, trim s <:+: s := fun s =>
    (List.rdropWhile_prefix _ _).isInfix.trans (List.dropWhile_suffix _).isInfix
  have hfirst : firstPart value <:+: value := by
    unfold firstPart
    split
    next part _ hcut => 
        rw [(splitOnce_eq_some_iff.mp hcut).1]
        exact (List.prefix_append part _).isInfix
    next => exact List.infix_refl _
  have hinner : ∀ s : Str, innerAddress s <:+: s := by
    intro s
    rcases exists_lastBracket s with hno | ⟨a, t, rfl, ht⟩
    · rw [innerAddress_noBracket hno]
    have htail : t <:+: a ++ '<' :: t := ((List.suffix_cons _ _).trans (List.suffix_append _ _)).isInfix
    cases hclose : splitOnce '>' t with
    | none => rwa [innerAddress_open ht (splitOnce_eq_none_iff.mp hclose)]
    | some cut =>
        obtain ⟨rfl, hcut⟩ := splitOnce_eq_some_iff.mp hclose
        rw [innerAddress_closed ht hcut]
        exact (List.prefix_append cut.1 _).isInfix.trans htail
  obtain ⟨rfl, -⟩ := extractBareAddress_eq_some_iff.mp h
  exact (htrim _).trans ((hinner _).trans ((htrim _).trans hfirst))

/-- The other way round: where the domain of the address is all that stands behind the at sign, the address
goes to the end of the text. -/
theorem bareSender_of_oneAt {local_ : Str} (hpre : '@' ∉ pre) (hne : domain ≠ [])
    (hdomain : ∀ c ∈ domain, IsIdChar c)
    (haddr : extractBareAddress (pre ++ '@' :: domain) = some (local_ ++ '@' :: domain)) :
    BareSender (pre ++ '@' :: domain) := by
  have hat : '@' ∉ domain := fun h => (hdomain _ h).1 rfl
  have hcommaPre : ',' ∉ pre := by
    intro hmem
    obtain ⟨p, q, rfl, hp⟩ := List.eq_append_cons_of_mem hmem
    rw [List.append_assoc, List.cons_append, extractBareAddress_comma hp] at haddr
    have hmemAt : '@' ∈ local_ ++ '@' :: domain := by simp
    exact hpre (List.mem_append_left _ (mem_of_mem_extractBareAddress haddr hmemAt))
  have hcommaDomain : ',' ∉ domain := by
    -- otherwise the address stops before the comma and its domain is shorter
    intro hmem
    obtain ⟨d, q, hd, hp⟩ := List.eq_append_cons_of_mem hmem
    have hcut : ',' ∉ pre ++ '@' :: d := by
      simp only [List.mem_append, List.mem_cons, not_or]
      exact ⟨hcommaPre, by decide, hp⟩
    have hassoc : pre ++ '@' :: domain = (pre ++ '@' :: d) ++ ',' :: q := by rw [hd]; simp
    rw [hassoc, extractBareAddress_comma hcut] at haddr
    obtain ⟨x, y, hxy⟩ := extractBareAddress_isInfix haddr
    have hsame : (x ++ local_) ++ '@' :: (domain ++ y) = pre ++ '@' :: d := by
      rw [← hxy]
      simp
    have hdat : '@' ∉ d := fun h => hat (hd ▸ List.mem_append_left _ h)
    obtain ⟨-, -, htail⟩ := (List.append_cons_inj_of_notMem hpre hdat).mp hsame.symm
    have hlen := congrArg List.length htail
    have hlen' := congrArg List.length hd
    simp only [List.length_append, List.length_cons] at hlen hlen'
    omega
  have hopen : LeavesOpen pre := by
    -- otherwise the address ends before the at sign
    rintro a t rfl ht hclose
    obtain ⟨inner, post, rfl, hinner⟩ := List.eq_append_cons_of_mem hclose
    obtain ⟨haddr', hmem⟩ := extractBareAddress_eq_some_iff.mp haddr
    have hbehind : '<' ∉ inner ++ '>' :: (post ++ '@' :: trimEnd domain) := by
      have hend : '<' ∉ trimEnd domain :=
        fun h => (hdomain _ ((List.rdropWhile_prefix isWhitespace _).subset h)).2.1 rfl
      simp only [List.mem_append, List.mem_cons, not_or] at ht ⊢
      exact ⟨ht.1, by decide, ht.2.2, by decide, hend⟩
    have hinput : trim (firstPart (a ++ '<' :: (inner ++ '>' :: post) ++ '@' :: domain)) =
        trimStart a ++ '<' :: (inner ++ '>' :: (post ++ '@' :: trimEnd domain)) := by
      rw [innerAddress_input hcommaPre hcommaDomain, trimStart_append_visible a _ (by decide)]
      simp
    rw [haddr', hinput, innerAddress_closed hbehind hinner] at hmem
    refine hpre (List.mem_append_right _ (List.mem_cons_of_mem _ (List.mem_append_left _ ?_)))
    exact mem_of_mem_trim hmem
  exact .oneAt (fun c hc => ⟨fun h => hpre (h ▸ hc), fun h => hcommaPre (h ▸ hc)⟩) hopen
    (fun c hc => ⟨hdomain c hc, fun h => hcommaDomain (h ▸ hc)⟩) hne

end OneAt

/-! ## The id of a message -/

/-- The form of a message id: one pair of angle brackets around an id and the domain of the sender, with
neither white space nor a comment in them. -/
def WellFormedId (from_ value : Str) : Prop :=
  ∃ id domain, value = '<' :: id ++ '@' :: domain ++ ['>'] ∧ id ≠ [] ∧ domain ≠ [] ∧
    (∀ c ∈ id ++ domain, IsIdChar c) ∧ IsSenderDomain from_ domain

/-- The two sides of the at sign of the id. -/
theorem composedMessageId_inj {env : ComposeEnv} {from_ id domain : Str}
    (h : composedMessageId env from_ = '<' :: id ++ '@' :: domain ++ ['>']) :
    env.messageUuid.hyphenated = id ∧ messageIdDomain from_ = domain := by
  unfold composedMessageId at h
  have hinner := List.append_cancel_right h
  rw [List.cons_append, List.cons_append, List.cons.injEq] at hinner
  have hid : '@' ∉ env.messageUuid.hyphenated := fun h => (mem_hyphenated _ _ h).1 rfl
  obtain ⟨hleft, -, hright⟩ :=
    (List.append_cons_inj_of_notMem hid (at_notMem_messageIdDomain from_)).mp hinner.2
  exact ⟨hleft, hright⟩

/-- The id of a message is well formed for the senders whose domain stands between the first two at
signs. -/
theorem wellFormedId_iff (env : ComposeEnv) (from_ : Str) :
    WellFormedId from_ (composedMessageId env from_) ↔ BareSender from_ := by
  constructor
  · rintro ⟨id, domain, hvalue, -, hne, hchars, addr, local_, haddr, hsplit⟩
    obtain ⟨-, hdomain⟩ := composedMessageId_inj hvalue
    rw [List.forall_mem_append] at hchars
    -- the From value has no at sign, one or several
    rcases exists_atSigns from_ with hs | ⟨pre, dom, hpre, hdom, hs | ⟨rest, hs⟩⟩
    · exact absurd (mem_of_mem_extractBareAddress haddr (extractBareAddress_eq_some_iff.mp haddr).2) hs
    · subst hs
      rw [messageIdDomain_oneAt hpre hdom] at hdomain
      subst hdomain
      obtain ⟨rfl, -⟩ := rsplitOnce_eq_some_iff.mp hsplit
      exact bareSender_of_oneAt hpre hne hchars.2 haddr
    · subst hs
      rw [messageIdDomain_repeated hpre hdom] at hdomain
      subst hdomain
      exact .repeated hpre hne hchars.2 haddr hsplit
  · intro h
    refine ⟨env.messageUuid.hyphenated, messageIdDomain from_, rfl, env.messageUuid.ne_nil, ?_⟩
    rw [List.forall_mem_append]
    cases h with
    | @oneAt pre domain hpre hopen hdomain hne =>
        rw [messageIdDomain_oneAt (fun h => (hpre _ h).1 rfl) (fun h => (hdomain _ h).1.1 rfl)]
        refine ⟨hne, ⟨mem_hyphenated _, fun c hc => (hdomain c hc).1⟩, ?_⟩
        obtain ⟨l, hl⟩ := extractBareAddress_open (fun h => (hpre _ h).2 rfl) hopen
          (fun c hc => ⟨(hdomain c hc).2, (hdomain c hc).1.2.1, (hdomain c hc).1.2.2.1⟩)
        -- nothing is trimmed from a domain without white space
        have hend : trimEnd domain = domain := List.rdropWhile_eq_self_iff.mpr fun hl => by
          rw [Bool.not_eq_true]
          exact (hdomain _ (List.getLast_mem hl)).1.2.2.2.2.2
        rw [hend] at hl
        exact ⟨_, l, hl, rsplitOnce_eq_some_iff.mpr ⟨rfl, fun h => (hdomain _ h).1.1 rfl⟩⟩
    | @repeated pre domain rest addr local_ hpre hne hdomain haddr hsplit =>
        rw [messageIdDomain_repeated hpre fun h => (hdomain _ h).1 rfl]
        exact ⟨hne, ⟨mem_hyphenated _, hdomain⟩, addr, local_, haddr, hsplit⟩

/-! ## Composed messages -/

/-- What is asked of a composed message: its header block has the fields of a message, each once and on a
line of its own, and a well-formed id among them. -/
def ComposedWell (args : SendArgs) (message : Bytes) : Prop :=
  ∃ text fields, message = utf8 text ∧ Emits text fields ∧ fields.map Prod.fst = fieldNames args ∧
    ((fields.map Prod.fst).map toAsciiLowercase).Nodup ∧
    ∃ id, ("Message-ID".toList, id) ∈ fields ∧ WellFormedId args.from_ id

theorem fieldLine_ne_nil (f : Str × Str) : fieldLine f ≠ [] := by
  unfold fieldLine
  simp

/-- Fields with the same names on the same lines are the same. -/
theorem eq_of_map_fieldLine {a b : List (Str × Str)} (hnames : a.map Prod.fst = b.map Prod.fst)
    (hlines : a.map fieldLine = b.map fieldLine) : a = b := by
  induction a generalizing b with
  | nil => exact (List.map_eq_nil_iff.mp hlines.symm).symm
  | cons f a ih =>
      obtain ⟨g, b, rfl⟩ := List.exists_cons_of_ne_nil fun h : b = [] => by simp [h] at hlines
      rw [List.map_cons, List.map_cons, List.cons.injEq] at hnames hlines
      have hvalue : f.2 = g.2 := by
        have hline := hlines.1
        unfold fieldLine at hline
        rw [hnames.1] at hline
        simpa using hline
      rw [ih hnames.2 hlines.2, Prod.ext hnames.1 hvalue]

/-- A text begins with one list of fields under the same names only. -/
theorem Emits.unique {text : Str} {a b : List (Str × Str)} (ha : Emits text a) (hb : Emits text b)
    (hnames : a.map Prod.fst = b.map Prod.fst) : a = b := by
  have hno : ∀ l : List (Str × Str), [] ∉ l.map fieldLine := by
    intro l hmem
    obtain ⟨f, -, hf⟩ := List.mem_map.mp hmem
    exact fieldLine_ne_nil f hf
  obtain ⟨rest, hblock⟩ := ha.block
  obtain ⟨rest', hblock'⟩ := hb.block
  have hcut := splitOnce_eq_some_iff.mpr ⟨hblock, hno a⟩
  rw [splitOnce_eq_some_iff.mpr ⟨hblock', hno b⟩, Option.some.injEq, Prod.mk.injEq] at hcut
  exact eq_of_map_fieldLine hnames hcut.1.symm

/-- A composed message has the one id that it is composed with. -/
theorem eq_composedMessageId {env : ComposeEnv} {args : SendArgs} {id : Str}
    (h : ("Message-ID".toList, id) ∈ composedFields env args) : id = composedMessageId env args.from_ := by
  have hnodup : ((composedFields env args).map Prod.fst).Nodup := by
    rw [composedFields_names]
    exact List.Nodup.of_map _ (fieldNames_nodup args)
  have hmem : ("Message-ID".toList, composedMessageId env args.from_) ∈ composedFields env args := by
    unfold composedFields commonFields
    simp
  exact congrArg Prod.snd (List.inj_on_of_nodup_map hnodup h hmem rfl)

/-- A message is composed well when its id is well formed. -/
theorem composedWell_iff_wellFormedId {env : ComposeEnv} {args : SendArgs} {message : Bytes}
    (h : composeRequest env args = .ok message) :
    ComposedWell args message ↔ WellFormedId args.from_ (composedMessageId env args.from_) := by
  obtain ⟨text, rfl, hemits⟩ := composeRequest_emits h
  have hnames := composedFields_names env args
  constructor
  · rintro ⟨text', fields, htext, hfields, hsame, -, id, hid, hwell⟩
    obtain rfl : text = text' := utf8_injective htext
    obtain rfl := hfields.unique hemits (hsame.trans hnames.symm)
    rwa [← eq_composedMessageId hid]
  · intro hwell
    refine ⟨text, _, rfl, hemits, hnames, ?_, _, ?_, hwell⟩
    · rw [hnames]
      exact fieldNames_nodup args
    · unfold composedFields commonFields
      simp

/-- A message is composed well exactly for the senders whose domain stands between the first two at signs
of the `From` value. -/
theorem composedWell_iff {env : ComposeEnv} {args : SendArgs} {message : Bytes}
    (h : composeRequest env args = .ok message) : ComposedWell args message ↔ BareSender args.from_ :=
  (composedWell_iff_wellFormedId h).trans (wellFormedId_iff env args.from_)

/-! ### Two senders -/

/-- Values on one line are accepted. -/
theorem composeRequest_plain (env : ComposeEnv) {args : SendArgs} (hfrom : OneLine args.from_)
    (hto : OneLine args.to_) (hsubject : OneLine args.subject)
    (hnone : args.attachments = []) : ∃ message, composeRequest env args = .ok message := by
  have hvalid : ∀ name value : Str, OneLine value → validateHeaderValue name value = .ok () :=
    fun name value hv => if_neg (not_or.mpr ⟨fun h => (hv _ h).1 rfl, fun h => (hv _ h).2 rfl⟩)
  unfold composeRequest writeCommonHeaders
  rw [hvalid _ _ hfrom, hvalid _ _ hto, hvalid _ _ hsubject, hnone]
  exact ⟨_, rfl⟩

/-- A sender with neither reply nor attachment. -/
def plainArgs (from_ : Str) : SendArgs where
  from_ := from_
  to_ := "bob@example.org".toList
  subject := "Hi".toList
  body := "Hi".toList
  replyTo := none
  references := none
  attachments := []

theorem plainDate_oneLine : OneLine "Tue, 1 Jul 2025 10:52:37 +0000".toList := by decide

/-- A host without attachments. -/
def plainEnv : ComposeEnv where
  messageUuid := Uuid.repeated 0
  boundaryUuid := Uuid.repeated 0
  date := ⟨"Tue, 1 Jul 2025 10:52:37 +0000".toList, plainDate_oneLine⟩
  files := ⟨fun _ => false, fun _ => false, fun _ => .error []⟩
  contentType := fun _ => "application/octet-stream".toList
  base64 := Base64.standard

theorem plainArgs_composed {from_ : Str} (h : OneLine from_) :
    ∃ message, composeRequest plainEnv (plainArgs from_) = .ok message :=
  composeRequest_plain plainEnv h (by decide : OneLine "bob@example.org".toList)
    (by decide : OneLine "Hi".toList) rfl

/-- A bare address goes to the end of its text. -/
theorem bareSender_alice : BareSender "alice@example.com".toList :=
  @BareSender.oneAt "alice".toList "example.com".toList (by decide)
    (fun a t h _ => by
      have hno : '<' ∉ "alice".toList := by decide
      exact absurd (h ▸ List.mem_append_right a List.mem_cons_self) hno)
    (by decide) (by decide)

/-- A message of that sender is composed well. -/
theorem composedWell_bareAddress :
    ∃ message, composeRequest plainEnv (plainArgs "alice@example.com".toList) = .ok message ∧
      ComposedWell (plainArgs "alice@example.com".toList) message := by
  obtain ⟨message, h⟩ := plainArgs_composed (by decide : OneLine "alice@example.com".toList)
  exact ⟨message, h, (composedWell_iff h).mpr bareSender_alice⟩

/-- The closing bracket of an address behind a name goes into the id. -/
theorem composedWell_displayName :
    ∃ message, composeRequest plainEnv (plainArgs "Alice <alice@example.com>".toList) = .ok message ∧
      ¬ ComposedWell (plainArgs "Alice <alice@example.com>".toList) message := by
  obtain ⟨message, h⟩ :=
    plainArgs_composed (by decide : OneLine "Alice <alice@example.com>".toList)
  refine ⟨message, h, fun hwell => ?_⟩
  obtain ⟨id, domain, hvalue, -, -, hbrackets, -⟩ := (composedWell_iff_wellFormedId h).mp hwell
  obtain ⟨-, rfl⟩ := composedMessageId_inj hvalue
  have hclose : '>' ∈ messageIdDomain "Alice <alice@example.com>".toList := by decide +kernel
  exact (hbrackets '>' (List.mem_append_right _ hclose)).2.2.1 rfl

end Send
end Aimx
