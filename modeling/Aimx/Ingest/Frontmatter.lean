import Aimx.Text.Str
import Aimx.Text.Search
import Mathlib.Data.List.Infix

/-!
# Stored messages and their readers

An inbound message is stored as one Markdown file: a TOML block between two `+++` marks, a blank
line and the body.  `formatFrontmatter` writes it; `mcp.rs`, `state_handler.rs`, `mailbox.rs`,
`mailbox_list_handler.rs` and `doctor.rs` each have a reader of their own.  The TOML library is a
parameter, `Toml`, and `Toml.Renders` says what is used of it at one record.

* `splitFrontmatter` — the three pieces that most readers cut a file into;
* `markContent` — the rewriting of a file by MARK-READ and MARK-UNREAD;
* `ReadsBack` — every reader recovers what was written;
* `formatFrontmatter_readsBack_iff` — the exact condition under which that holds.
-/

namespace Aimx
namespace Ingest

open Text

/-! ## The record -/

/-- One stored attachment. -/
structure AttachmentMeta where
  filename : Str
  contentType : Str
  size : Nat
  path : Str
  deriving DecidableEq

/-- The front matter of a stored inbound message.  Times are RFC 3339 texts. -/
structure InboundFrontmatter where
  id : Str
  messageId : Str
  threadId : Str
  from_ : Str
  to_ : Str
  cc : Option Str
  replyTo : Option Str
  deliveredTo : Str
  subject : Str
  date : Str
  receivedAt : Str
  receivedFromIp : Option Str
  sizeBytes : Nat
  attachments : List AttachmentMeta
  inReplyTo : Option Str
  references : Option Str
  listId : Option Str
  autoSubmitted : Option Str
  dkim : Str
  spf : Str
  dmarc : Str
  trusted : Str
  mailbox : Str
  read : Bool
  readAt : Option Str
  labels : List Str
  deriving DecidableEq

/-- Every text of the record. -/
def InboundFrontmatter.strings (m : InboundFrontmatter) : List Str :=
  [m.id, m.messageId, m.threadId, m.from_, m.to_] ++ m.cc.toList ++ m.replyTo.toList ++
    [m.deliveredTo, m.subject, m.date, m.receivedAt] ++ m.receivedFromIp.toList ++
    m.attachments.flatMap (fun a => [a.filename, a.contentType, a.path]) ++ m.inReplyTo.toList ++
    m.references.toList ++ m.listId.toList ++ m.autoSubmitted.toList ++
    [m.dkim, m.spf, m.dmarc, m.trusted, m.mailbox] ++ m.readAt.toList ++ m.labels

/-- The part of the front matter that `email_list` reads.  `delivery_status` is a field of sent
copies only. -/
structure EmailListFm where
  from_ : Str
  to_ : Str
  subject : Str
  date : Str
  read : Bool
  deliveryStatus : Option Str
  deriving DecidableEq

/-- The listing row of an inbound record. -/
def InboundFrontmatter.listFm (m : InboundFrontmatter) : EmailListFm where
  from_ := m.from_
  to_ := m.to_
  subject := m.subject
  date := m.date
  read := m.read
  deliveryStatus := none

/-! ## The TOML library -/

/-- The TOML library at the types it is used at: the serializer, and the parser for the full record
and for the listing row. -/
structure Toml where
  toString : InboundFrontmatter → Str
  fromStr : Str → Option InboundFrontmatter
  listFromStr : Str → Option EmailListFm

/-- The `read` key as it is printed. -/
def readLine (b : Bool) : Str :=
  "read = ".toList ++ (if b then "true".toList else "false".toList) ++ ['\n']

/-- What is used of the TOML library at one record: `before` and `after` are the texts it prints for
the fields before and after `read`. -/
structure Toml.Renders (t : Toml) (m : InboundFrontmatter) (before after : Str) : Prop where
  /-- The `read` key stands on a line of its own, after complete lines. -/
  layout : t.toString m = before ++ readLine m.read ++ after
  before_lines : before = [] ∨ ∃ s, before = s ++ ['\n']
  /-- The text is made of complete lines. -/
  newline : ∃ s, t.toString m = s ++ ['\n']
  /-- Parsing undoes printing, and white space around the text does not matter. -/
  fromStr_trim : t.fromStr (trim (t.toString m)) = some m
  fromStr_newline : t.fromStr ('\n' :: t.toString m) = some m
  listFromStr_trim : t.listFromStr (trim (t.toString m)) = some m.listFm
  /-- The character `+` is printed as it is, and only in strings. -/
  plus : "+++".toList <:+: t.toString m ↔ ∃ s ∈ m.strings, "+++".toList <:+: s

/-! ## The writer -/

/-- A body ends with a line feed in the file. -/
def withFinalNewline (body : Str) : Str :=
  if body.getLast? = some '\n' then body else body ++ ['\n']

/-- `format_frontmatter`. -/
def formatFrontmatter (t : Toml) (m : InboundFrontmatter) (body : Str) : Str :=
  "+++\n".toList ++ t.toString m ++ "+++\n\n".toList ++ withFinalNewline body

/-! ## The readers -/

/-- `content.splitn(3, "+++")`, where a file has to give all three pieces: the text before the first
mark is dropped by every reader, the two others are the TOML text and the rest. -/
def splitFrontmatter (content : Str) : Option (Str × Str) :=
  match splitn "+++".toList 3 content with
  | [_, toml, body] => some (toml, body)
  | _ => none

/-- `mcp::parse_frontmatter`. -/
def parseFrontmatter (t : Toml) (content : Str) : Option InboundFrontmatter :=
  match splitFrontmatter content with
  | none => none
  | some (toml, _) => t.fromStr (trim toml)

/-- Why a stored file cannot be read: it has too few marks, or its block is no TOML. -/
inductive ReadError
  | malformed
  | parse
  deriving DecidableEq

/-- `mcp::read_email_frontmatter`, on the text of the file: a file without the marks is skipped, one
whose block does not parse fails the whole page. -/
def readEmailFrontmatter (t : Toml) (content : Str) : Except ReadError (Option EmailListFm) :=
  match splitFrontmatter content with
  | none => .ok none
  | some (toml, _) =>
      match t.listFromStr (trim toml) with
      | none => .error .parse
      | some fm => .ok (some fm)

/-- What `handle_mark` reads of the file: the record, and the text it copies behind the new block. -/
def readForMark (t : Toml) (content : Str) : Except ReadError (InboundFrontmatter × Str) :=
  match splitFrontmatter content with
  | none => .error .malformed
  | some (toml, body) =>
      match t.fromStr (trim toml) with
      | none => .error .parse
      | some m => .ok (m, body)

/-- The record after a mark: `read_at` goes with `read`. -/
def InboundFrontmatter.setRead (m : InboundFrontmatter) (read : Bool) (now : Str) :
    InboundFrontmatter :=
  { m with read := read, readAt := if read then some now else none }

/-- The rewriting of a file by `handle_mark`. -/
def markContent (t : Toml) (read : Bool) (now content : Str) : Except ReadError Str :=
  match readForMark t content with
  | .error e => .error e
  | .ok (m, body) =>
      .ok ("+++\n".toList ++ t.toString (m.setRead read now) ++ "+++".toList ++ body)

/-- A line that sets `read`, and whether it sets it to `true`. -/
def readValue (line : Str) : Option Bool :=
  match stripPrefix "read".toList (trim line) with
  | none => none
  | some rest =>
      match stripPrefix ['='] (trimStart rest) with
      | none => none
      | some value => some (trim value == "true".toList)

/-- `mailbox_list_handler::is_marked_read`: the first line that sets `read` decides. -/
def isMarkedRead (content : Str) : Bool :=
  match splitFrontmatter content with
  | none => false
  | some (toml, _) => ((lines toml).findSome? readValue).getD false

/-- The check of `mailbox::count_with_unread` on one file: it is counted as unread. -/
def countsUnread (t : Toml) (content : Str) : Bool :=
  match splitFrontmatter content with
  | none => false
  | some (toml, _) =>
      match t.fromStr (trim toml) with
      | none => false
      | some m => !m.read

/-- `doctor::extract_frontmatter`. -/
def extractFrontmatter (content : Str) : Option Str :=
  match stripPrefix "+++".toList (trimStart content) with
  | none => none
  | some afterFirst => (afterFirst.dropInfix? "+++".toList).map Prod.fst

/-- `doctor::is_unread`. -/
def isUnread (t : Toml) (content : Str) : Bool :=
  match extractFrontmatter content with
  | none => false
  | some fm =>
      match t.fromStr fm with
      | none => false
      | some m => !m.read

/-! ## Reading back -/

/-- Every reader recovers the record from the stored file, MARK copies exactly the blank line and
the body, and the three unread counters see the flag that was stored. -/
structure ReadsBack (t : Toml) (m : InboundFrontmatter) (body : Str) : Prop where
  parse : parseFrontmatter t (formatFrontmatter t m body) = some m
  list : readEmailFrontmatter t (formatFrontmatter t m body) = .ok (some m.listFm)
  mark : readForMark t (formatFrontmatter t m body) =
    .ok (m, "\n\n".toList ++ withFinalNewline body)
  listing : isMarkedRead (formatFrontmatter t m body) = m.read
  show_ : countsUnread t (formatFrontmatter t m body) = !m.read
  doctor : isUnread t (formatFrontmatter t m body) = !m.read

/-- Appending two characters of a mark behind a text that ends a line makes no new mark. -/
theorem plus_append_iff {s : Str} (h : ∃ t, s = t ++ ['\n']) :
    "+++".toList <:+: s ++ "++".toList ↔ "+++".toList <:+: s := by
  constructor
  · rintro ⟨p, q, hpq⟩
    obtain ⟨t, rfl⟩ := h
    -- the mark cannot reach over the line feed, so two characters at least follow it
    have hlen : 2 ≤ q.length := by
      by_contra hshort
      have hrev := congrArg List.reverse hpq
      simp only [List.reverse_append] at hrev
      generalize hq : q.reverse = r at hrev
      have hr : r.length ≤ 1 := by
        rw [← hq, List.length_reverse]
        omega
      match r, hr with
      | [], _ => simp at hrev
      | [c], _ => simp at hrev
    obtain ⟨q', q₂, rfl, hq₂⟩ : ∃ q' q₂, q = q' ++ q₂ ∧ q₂.length = 2 :=
      ⟨q.take (q.length - 2), q.drop (q.length - 2), (List.take_append_drop _ _).symm, by
        rw [List.length_drop]
        omega⟩
    rw [← List.append_assoc] at hpq
    have hcut := List.append_inj_left' hpq (by simp [hq₂])
    exact ⟨p, q', hcut⟩
  · intro hs
    exact hs.trans (List.prefix_append _ _).isInfix

/-- A line feed in front makes no new mark. -/
theorem plus_cons_newline_iff {s : Str} :
    "+++".toList <:+: '\n' :: s ↔ "+++".toList <:+: s := by
  constructor
  · rintro ⟨p, q, hpq⟩
    cases p with
    | nil => simp at hpq
    | cons c p =>
        simp only [List.cons_append, List.cons.injEq] at hpq
        exact ⟨p, q, hpq.2⟩
  · intro hs
    exact hs.trans (List.suffix_cons _ _).isInfix

section Formatted

variable {t : Toml} {m : InboundFrontmatter} {body before after : Str}

/-- The opening mark is the first one, and everything behind it is searched for the second. -/
theorem splitFrontmatter_open (rest : Str) :
    splitFrontmatter ("+++".toList ++ rest) = rest.dropInfix? "+++".toList := by
  unfold splitFrontmatter splitn
  rw [dropInfix?_self_append]
  dsimp only [splitn]
  cases hrest : rest.dropInfix? "+++".toList with
  | none => rfl
  | some r =>
      obtain ⟨toml, body⟩ := r
      rfl

/-- A formatted file as the mark, the block, the mark and the rest. -/
theorem formatFrontmatter_eq :
    formatFrontmatter t m body = "+++".toList ++
      (('\n' :: t.toString m) ++ "+++".toList ++ ("\n\n".toList ++ withFinalNewline body)) := by
  simp [formatFrontmatter]

/-- The two marks of the writer are the two that are found exactly when no string contains one. -/
theorem dropInfix?_block_iff (h : t.Renders m before after) (rest : Str) :
    (('\n' :: t.toString m) ++ "+++".toList ++ rest).dropInfix? "+++".toList =
        some ('\n' :: t.toString m, rest) ↔
      ∀ s ∈ m.strings, ¬ "+++".toList <:+: s := by
  rw [dropInfix?_append_iff (by simp)]
  show ¬ "+++".toList <:+: '\n' :: (t.toString m ++ "++".toList) ↔ _
  rw [plus_cons_newline_iff, plus_append_iff h.newline, h.plus]
  push Not
  rfl

/-- The value that decides in a block is that of the first line setting `read` before the key itself,
else that of the key. -/
theorem findSome?_readValue_toString (h : t.Renders m before after) :
    (lines ('\n' :: t.toString m)).findSome? readValue =
      some (((lines before).findSome? readValue).getD m.read) := by
  have hkey : ∀ rest, (lines (readLine m.read ++ rest)).findSome? readValue = some m.read := by
    intro rest
    cases m.read
    · show (lines ("read = false".toList ++ '\n' :: rest)).findSome? readValue = some false
      rw [lines_append_newline, List.findSome?_append]
      have : (lines ("read = false".toList ++ ['\n'])).findSome? readValue = some false := by
        decide +kernel
      rw [this]
      rfl
    · show (lines ("read = true".toList ++ '\n' :: rest)).findSome? readValue = some true
      rw [lines_append_newline, List.findSome?_append]
      have : (lines ("read = true".toList ++ ['\n'])).findSome? readValue = some true := by
        decide +kernel
      rw [this]
      rfl
  have hfirst : (lines ('\n' :: t.toString m)).findSome? readValue =
      (lines (t.toString m)).findSome? readValue := rfl
  rw [hfirst, h.layout, List.append_assoc]
  rcases h.before_lines with rfl | ⟨s, rfl⟩
  · rw [List.nil_append, hkey]
    rfl
  · rw [List.append_assoc, List.singleton_append, lines_append_newline, List.findSome?_append, hkey]
    cases (lines (s ++ ['\n'])).findSome? readValue with
    | none => rfl
    | some v => rfl

/-- The listing's counter sees the stored flag exactly when no earlier line sets another one. -/
theorem isMarkedRead_block_iff (h : t.Renders m before after)
    (hplus : ∀ s ∈ m.strings, ¬ "+++".toList <:+: s) :
    isMarkedRead (formatFrontmatter t m body) = m.read ↔
      ∀ v, (lines before).findSome? readValue = some v → v = m.read := by
  unfold isMarkedRead
  rw [formatFrontmatter_eq, splitFrontmatter_open, (dropInfix?_block_iff h _).mpr hplus]
  dsimp only
  rw [findSome?_readValue_toString h, Option.getD_some]
  cases (lines before).findSome? readValue with
  | none => simp
  | some v => simp

/-- **Stored mail reads back.**  Every reader recovers the record and the body exactly when no string
of the record contains `+++` and no line printed before the `read` key sets another `read`. -/
theorem formatFrontmatter_readsBack_iff (h : t.Renders m before after) :
    ReadsBack t m body ↔
      (∀ s ∈ m.strings, ¬ "+++".toList <:+: s) ∧
        ∀ v, (lines before).findSome? readValue = some v → v = m.read := by
  constructor
  · intro hback
    have hplus : ∀ s ∈ m.strings, ¬ "+++".toList <:+: s := by
      -- MARK copies the text behind the second mark it finds, so the marks are the writer's
      rw [← dropInfix?_block_iff h ("\n\n".toList ++ withFinalNewline body)]
      have hmark := hback.mark
      rw [formatFrontmatter_eq] at hmark
      unfold readForMark at hmark
      rw [splitFrontmatter_open] at hmark
      split at hmark
      next => cases hmark
      next toml rest hsplit =>
          split at hmark
          next => cases hmark
          next m' hm' =>
              simp only [Except.ok.injEq, Prod.mk.injEq] at hmark
              obtain ⟨-, rfl⟩ := hmark
              have hcut := (dropInfix?_eq_some_iff'.mp hsplit).1
              rw [List.append_cancel_right_eq, List.append_cancel_right_eq] at hcut
              rw [hcut]
              rw [hcut] at hsplit
              exact hsplit
    exact ⟨hplus, (isMarkedRead_block_iff h hplus).mp hback.listing⟩
  · rintro ⟨hplus, hread⟩
    have hblock := (dropInfix?_block_iff h ("\n\n".toList ++ withFinalNewline body)).mpr hplus
    have hsplit : splitFrontmatter (formatFrontmatter t m body) =
        some ('\n' :: t.toString m, "\n\n".toList ++ withFinalNewline body) := by
      rw [formatFrontmatter_eq, splitFrontmatter_open, hblock]
    have htrim : trim ('\n' :: t.toString m) = trim (t.toString m) := rfl
    have hextract : extractFrontmatter (formatFrontmatter t m body) =
        some ('\n' :: t.toString m) := by
      have hstart : ∀ rest : Str, trimStart ("+++".toList ++ rest) = "+++".toList ++ rest :=
        fun _ => rfl
      unfold extractFrontmatter
      rw [formatFrontmatter_eq, hstart, stripPrefix_eq_some_iff.mpr rfl]
      dsimp only
      rw [hblock]
      rfl
    constructor
    case parse =>
      unfold parseFrontmatter
      rw [hsplit]
      dsimp only
      rw [htrim, h.fromStr_trim]
    case list =>
      unfold readEmailFrontmatter
      rw [hsplit]
      dsimp only
      rw [htrim, h.listFromStr_trim]
    case mark =>
      unfold readForMark
      rw [hsplit]
      dsimp only
      rw [htrim, h.fromStr_trim]
    case listing => exact (isMarkedRead_block_iff h hplus).mpr hread
    case show_ =>
      unfold countsUnread
      rw [hsplit]
      dsimp only
      rw [htrim, h.fromStr_trim]
    case doctor =>
      unfold isUnread
      rw [hextract]
      dsimp only
      rw [h.fromStr_newline]

end Formatted

/-! ## Two stored messages -/

/-- A delivered message with the given subject. -/
def sampleMeta (subject : Str) : InboundFrontmatter where
  id := "2025-01-01-000000-note".toList
  messageId := "m1@example.net".toList
  threadId := "0123456789abcdef".toList
  from_ := "a@example.net".toList
  to_ := "b@example.org".toList
  cc := none
  replyTo := none
  deliveredTo := "b@example.org".toList
  subject := subject
  date := "2025-01-01T00:00:00Z".toList
  receivedAt := "2025-01-01T00:00:01+00:00".toList
  receivedFromIp := none
  sizeBytes := 80
  attachments := []
  inReplyTo := none
  references := none
  listId := none
  autoSubmitted := none
  dkim := "none".toList
  spf := "none".toList
  dmarc := "none".toList
  trusted := "none".toList
  mailbox := "b".toList
  read := false
  readAt := none
  labels := []

/-- The TOML text of `sampleMeta` before its `read` key, for a subject without quotes, escapes and
line feeds; the last line feed is left out. -/
def sampleFields (subject : Str) : Str :=
  "id = \"2025-01-01-000000-note\"\nmessage_id = \"m1@example.net\"\n".toList ++
    "thread_id = \"0123456789abcdef\"\nfrom = \"a@example.net\"\nto = \"b@example.org\"\n".toList ++
    "delivered_to = \"b@example.org\"\nsubject = \"".toList ++ subject ++ "\"\n".toList ++
    "date = \"2025-01-01T00:00:00Z\"\nreceived_at = \"2025-01-01T00:00:01+00:00\"\n".toList ++
    "size_bytes = 80\ndkim = \"none\"\nspf = \"none\"\ndmarc = \"none\"\ntrusted = \"none\"\n".toList ++
    "mailbox = \"b\"".toList

/-- The complete lines of `sampleFields`. -/
def sampleBefore (subject : Str) : Str := sampleFields subject ++ ['\n']

/-- The TOML library on `sampleMeta`: the text of that record and what parses back to it. -/
def sampleToml (subject : Str) : Toml where
  toString := fun _ => sampleBefore subject ++ readLine false
  fromStr := fun s =>
    if s = trim (sampleBefore subject ++ readLine false) ∨
        s = '\n' :: (sampleBefore subject ++ readLine false) then
      some (sampleMeta subject)
    else none
  listFromStr := fun s =>
    if s = trim (sampleBefore subject ++ readLine false) then some (sampleMeta subject).listFm
    else none

theorem sampleToml_toString (subject : Str) (m : InboundFrontmatter) :
    (sampleToml subject).toString m = sampleBefore subject ++ readLine false := by
  unfold sampleToml
  rfl

theorem sampleToml_newline (subject : Str) :
    ∃ s, (sampleToml subject).toString (sampleMeta subject) = s ++ ['\n'] := by
  have hkey : readLine false = "read = false".toList ++ ['\n'] := by decide
  refine ⟨sampleBefore subject ++ "read = false".toList, ?_⟩
  rw [sampleToml_toString, List.append_assoc, hkey]

/-- The sample text is printed as the library's laws ask, wherever the mark is kept apart. -/
theorem sampleToml_renders {subject : Str}
    (hplus : "+++".toList <:+: sampleBefore subject ++ readLine false ↔
      ∃ s ∈ (sampleMeta subject).strings, "+++".toList <:+: s) :
    (sampleToml subject).Renders (sampleMeta subject) (sampleBefore subject) [] where
  layout := by
    have hread : (sampleMeta subject).read = false := by
      unfold sampleMeta
      rfl
    rw [sampleToml_toString, hread, List.append_nil]
  before_lines := Or.inr ⟨sampleFields subject, rfl⟩
  newline := sampleToml_newline subject
  fromStr_trim := by simp only [sampleToml, true_or, if_true]
  fromStr_newline := by simp only [sampleToml, or_true, if_true]
  listFromStr_trim := by simp only [sampleToml, if_true]
  plus := by
    rw [sampleToml_toString]
    exact hplus

theorem sampleMeta_note_plain : ∀ s ∈ (sampleMeta "note".toList).strings, ¬"+++".toList <:+: s := by
  decide +kernel

theorem sampleToml_note_plus : "+++".toList <:+: sampleBefore "note".toList ++ readLine false ↔
    ∃ s ∈ (sampleMeta "note".toList).strings, "+++".toList <:+: s := by
  decide +kernel

theorem sampleToml_marked_plus : "+++".toList <:+: sampleBefore "a+++b".toList ++ readLine false ↔
    ∃ s ∈ (sampleMeta "a+++b".toList).strings, "+++".toList <:+: s := by
  decide +kernel

theorem findSome?_readValue_note : (lines (sampleBefore "note".toList)).findSome? readValue = none := by
  decide +kernel

/-- An ordinary subject reads back. -/
theorem formatFrontmatter_readsBack_note :
    ReadsBack (sampleToml "note".toList) (sampleMeta "note".toList) "Hello".toList :=
  (formatFrontmatter_readsBack_iff (sampleToml_renders sampleToml_note_plus)).mpr (by
    refine ⟨sampleMeta_note_plain, fun v hv => ?_⟩
    rw [findSome?_readValue_note] at hv
    cases hv)

/-- The file of a message whose subject contains the mark. -/
def plusContent : Str :=
  formatFrontmatter (sampleToml "a+++b".toList) (sampleMeta "a+++b".toList) "Hello".toList

/-- A subject that contains the mark makes the stored message unreadable for every reader of the TOML
text, and the unread message is not counted. -/
theorem plusSubject_unreadable :
    (sampleToml "a+++b".toList).Renders (sampleMeta "a+++b".toList)
        (sampleBefore "a+++b".toList) [] ∧
      parseFrontmatter (sampleToml "a+++b".toList) plusContent = none ∧
      readEmailFrontmatter (sampleToml "a+++b".toList) plusContent = .error .parse ∧
      readForMark (sampleToml "a+++b".toList) plusContent = .error .parse ∧
      countsUnread (sampleToml "a+++b".toList) plusContent = false ∧
      ¬ ReadsBack (sampleToml "a+++b".toList) (sampleMeta "a+++b".toList) "Hello".toList := by
  have hblock : ∃ toml rest, splitFrontmatter plusContent = some (toml, rest) ∧
      (sampleToml "a+++b".toList).fromStr (trim toml) = none ∧
      (sampleToml "a+++b".toList).listFromStr (trim toml) = none := by
    -- the block ends inside the subject
    refine ⟨_, _, rfl, ?_, ?_⟩ <;> decide +kernel
  obtain ⟨toml, rest, hsplit, hfrom, hlist⟩ := hblock
  have hparse : parseFrontmatter (sampleToml "a+++b".toList) plusContent = none := by
    unfold parseFrontmatter
    rw [hsplit]
    exact hfrom
  refine ⟨sampleToml_renders sampleToml_marked_plus, hparse, ?_, ?_, ?_, ?_⟩
  · unfold readEmailFrontmatter
    rw [hsplit]
    dsimp only
    rw [hlist]
  · unfold readForMark
    rw [hsplit]
    dsimp only
    rw [hfrom]
  · unfold countsUnread
    rw [hsplit]
    dsimp only
    rw [hfrom]
  · intro hback
    have hread : parseFrontmatter (sampleToml "a+++b".toList) plusContent =
        some (sampleMeta "a+++b".toList) := hback.parse
    rw [hread] at hparse
    cases hparse

end Ingest
end Aimx
