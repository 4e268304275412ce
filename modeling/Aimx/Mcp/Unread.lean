import Aimx.Daemon.Marks
import Aimx.Mcp.Listing

/-!
# Counting unread messages

MAILBOX-LIST counts with a scan over lines, `aimx mailboxes show` and `aimx doctor` parse the front matter,
and `email_list` reports the flag of each message.

* `countInbox`, `countWithUnread`, `countMessages` — the three counters of the source;
* `StoredFile` — a file written by ingest and rewritten by MARK;
* `CountersAgree` — the four ways to count give one number;
* `countersAgree_iff` — they do exactly where no string of a record cuts its block or sets the flag.
-/

namespace Aimx
namespace Mcp

open Text Ingest Daemon

/-! ## The counters -/

/-- An entry of an inbox directory as the counters look at it: `is_dir` follows links, and `exists` is
asked about the text in a directory. -/
structure InboxEntry extends ListEntry where
  isDir : Bool
  found : Bool

/-- `Path::extension` is `md`. -/
def hasMdExtension (name : Bytes) : Bool :=
  match rsplitOnce 0x2E name with
  | some (stem, ext) => !stem.isEmpty && ext == utf8 "md".toList
  | none => false

/-- What is read of an entry that counts as a message. -/
def InboxEntry.message? (e : InboxEntry) : Option FileRead :=
  if e.isDir then
    match fromUtf8 e.name with
    | none => none
    | some _ => if e.found then some e.text else none
  else if hasMdExtension e.name then some e.text
  else none

/-- `read_to_string`, without the errors. -/
def FileRead.text? : FileRead → Option Str
  | .bytes content => fromUtf8 content
  | _ => none

/-- The loop of the counters: the messages, and how many of them a check takes for unread. -/
def countEntries (unread : FileRead → Bool) (dir : Option (List InboxEntry)) : Nat × Nat :=
  match dir with
  | none => (0, 0)
  | some entries =>
    let messages := entries.filterMap InboxEntry.message?
    (messages.length, messages.countP unread)

/-- `mailbox_list_handler::count_inbox`. -/
def countInbox (dir : Option (List InboxEntry)) : Nat × Nat :=
  countEntries (fun r => !(r.text?.any isMarkedRead)) dir

/-- `mailbox::count_with_unread`. -/
def countWithUnread (t : Toml) (dir : Option (List InboxEntry)) : Nat × Nat :=
  countEntries (fun r => r.text?.any (countsUnread t)) dir

/-- `doctor::count_messages`. -/
def countMessages (t : Toml) (dir : Option (List InboxEntry)) : Nat × Nat :=
  countEntries (fun r => r.text?.any (isUnread t)) dir

/-- A row that reports the message as unread. -/
def ListRow.reportsUnread : ListRow → Bool
  | .inbox row => !row.read
  | .sent _ => false

/-! ## The files -/

/-- The text of a file after successful marks. -/
def afterMarks (t : Toml) (content : Str) (marks : List (Bool × Str)) : Option Str :=
  marks.foldlM (fun content mark => (markContent t mark.1 mark.2 content).toOption) content

/-- A message that ingest has written, as a file or in a directory of its own, and that MARK has rewritten
any number of times. -/
structure StoredFile (t : Toml) where
  id : Str
  id_ne : id ≠ []
  bundled : Bool
  first : InboundFrontmatter
  body : Str
  marks : List (Bool × Str)
  content : Str
  written : afterMarks t (formatFrontmatter t first body) marks = some content

namespace StoredFile

variable {t : Toml} (file : StoredFile t)

/-- The records that the file has held, the current one last. -/
def records : List InboundFrontmatter :=
  file.first :: file.marks.map fun mark => file.first.setRead mark.1 mark.2

/-- The record that it holds. -/
def current : InboundFrontmatter := file.records.getLast (List.cons_ne_nil _ _)

def entry : InboxEntry :=
  if file.bundled then ⟨⟨utf8 file.id, .dir, .bytes (utf8 file.content)⟩, true, true⟩
  else ⟨⟨utf8 (file.id ++ ".md".toList), .file, .bytes (utf8 file.content)⟩, false, true⟩

end StoredFile

/-- What is used of the TOML library at one record: it prints the record in the expected layout, parsing
undoes it, and what is printed up to a `+++`, which can only stand in a string, is no TOML. -/
structure FileLaws (t : Toml) (m : InboundFrontmatter) (before after : Str) : Prop
    extends t.Renders m before after where
  cut : ∀ block rest, t.toString m = block ++ "+++".toList ++ rest →
    t.fromStr (trim ('\n' :: block)) = none ∧ t.fromStr ('\n' :: block) = none ∧
      t.listFromStr (trim ('\n' :: block)) = none

/-- The four ways to count agree on an inbox of such files: the scan finds the flag that parsing finds, and
the numbers of unread messages are the same, for `email_list` over pages of any size. -/
structure CountersAgree (t : Toml) (files : List (StoredFile t)) : Prop where
  scanner : ∀ file ∈ files, isMarkedRead file.content = true ↔
    ∃ m, parseFrontmatter t file.content = some m ∧ m.read = true
  show_ : (countWithUnread t (some (files.map StoredFile.entry))).2 =
    (countInbox (some (files.map StoredFile.entry))).2
  doctor : (countMessages t (some (files.map StoredFile.entry))).2 =
    (countInbox (some (files.map StoredFile.entry))).2
  listing : ∀ n, 0 < n → ∃ page : Nat → List ListRow,
    (∀ k, listEmailPage t (.entries (files.map fun file => file.entry.toListEntry)) .inbox (k * n) n =
      .ok (page k)) ∧
    ∀ m, files.length ≤ m * n → ((List.range m).flatMap page).countP ListRow.reportsUnread =
      (countInbox (some (files.map StoredFile.entry))).2

/-! ## One file -/

section File

variable {t : Toml} {m : InboundFrontmatter} {body before after : Str}

theorem FileLaws.undoesPrint (h : FileLaws t m before after) : UndoesPrint t m where
  parse := h.fromStr_trim
  newline := h.newline
  cut := fun block rest hprint => (h.cut block rest hprint).1

/-- A file that marks have rewritten is as ingest would have written it with the last mark. -/
theorem afterMarks_formatted {marks : List (Bool × Str)} {content : Str}
    (hlaws : ∀ r ∈ m :: marks.map (fun mark => m.setRead mark.1 mark.2), UndoesPrint t r)
    (hwritten : afterMarks t (formatFrontmatter t m body) marks = some content) :
    content = formatFrontmatter t
      ((m :: marks.map fun mark => m.setRead mark.1 mark.2).getLast (List.cons_ne_nil _ _)) body := by
  induction marks generalizing m with
  | nil =>
    cases hwritten
    rfl
  | cons mark marks ih =>
    rw [afterMarks, List.foldlM_cons] at hwritten
    obtain ⟨next, hnext, hrest⟩ := Option.bind_eq_some_iff.mp hwritten
    obtain ⟨hcut, hkeep⟩ := @markContent_formatted _ _ body (hlaws m List.mem_cons_self) mark.1 mark.2
    by_cases hplus : "+++".toList <:+: t.toString m
    · rw [hcut hplus] at hnext
      cases hnext
    · rw [hkeep hplus] at hnext
      cases hnext
      have hmap : (marks.map fun mark' => (m.setRead mark.1 mark.2).setRead mark'.1 mark'.2) =
          marks.map fun mark' => m.setRead mark'.1 mark'.2 := by
        simp [setRead_setRead]
      have hcontent := ih (m := m.setRead mark.1 mark.2) ?_ hrest
      · rw [hcontent]
        simp [hmap]
      · rw [hmap]
        exact fun r hr => hlaws r (List.mem_cons_of_mem m hr)

/-- The doctor cuts a file that begins with the mark like the other readers. -/
theorem extractFrontmatter_open (rest : Str) : extractFrontmatter ("+++".toList ++ rest) =
    (splitFrontmatter ("+++".toList ++ rest)).map Prod.fst := by
  have hstart : trimStart ("+++".toList ++ rest) = "+++".toList ++ rest := rfl
  rw [extractFrontmatter, hstart, stripPrefix_append, splitFrontmatter_open]

/-- A record without a mark in its strings is what every reader finds. -/
theorem views_plain (h : FileLaws t m before after) (hplus : ∀ s ∈ m.strings, ¬"+++".toList <:+: s) :
    parseFrontmatter t (formatFrontmatter t m body) = some m ∧
      countsUnread t (formatFrontmatter t m body) = !m.read ∧
      isUnread t (formatFrontmatter t m body) = !m.read ∧
      Ingest.readEmailFrontmatter t (formatFrontmatter t m body) = .ok (some m.listFm) := by
  have hprint : ¬"+++".toList <:+: t.toString m := by
    rw [h.plus]
    rintro ⟨s, hs, hmark⟩
    exact hplus s hs hmark
  have hsplit := @splitFrontmatter_formatted _ _ body h.undoesPrint hprint
  have hparse : t.fromStr (trim ('\n' :: t.toString m)) = some m := h.fromStr_trim
  refine ⟨?_, ?_, ?_, ?_⟩
  · rw [parseFrontmatter, hsplit]
    exact hparse
  · rw [countsUnread, hsplit]
    dsimp only
    rw [hparse]
  · have hextract : extractFrontmatter (formatFrontmatter t m body) = some ('\n' :: t.toString m) := by
      rw [formatFrontmatter_eq] at hsplit ⊢
      rw [extractFrontmatter_open, hsplit]
      rfl
    rw [isUnread, hextract]
    dsimp only
    rw [h.fromStr_newline]
  · have hlist : t.listFromStr (trim ('\n' :: t.toString m)) = some m.listFm := h.listFromStr_trim
    rw [Ingest.readEmailFrontmatter, hsplit]
    dsimp only
    rw [hlist]

/-- A mark in a string hides the record from parsing. -/
theorem views_cut (h : FileLaws t m before after) (hplus : ∃ s ∈ m.strings, "+++".toList <:+: s) :
    parseFrontmatter t (formatFrontmatter t m body) = none ∧
      countsUnread t (formatFrontmatter t m body) = false := by
  obtain ⟨block, more, rest, hprint, hsplit⟩ := @splitFrontmatter_cut _ _ body (h.plus.mpr hplus)
  have hnone := (h.cut block more hprint).1
  constructor
  · rw [parseFrontmatter, hsplit]
    exact hnone
  · rw [countsUnread, hsplit]
    dsimp only
    rw [hnone]

/-- A record whose file counts right: no string cuts the block, and no line that is printed before the
`read` key sets another flag. -/
def CountsRight (before : InboundFrontmatter → Str) (m : InboundFrontmatter) : Prop :=
  (∀ s ∈ m.strings, ¬"+++".toList <:+: s) ∧
    ∀ v, (lines (before m)).findSome? readValue = some v → v = m.read

end File

/-! ## The directory -/

section Directory

variable {t : Toml} (files : List (StoredFile t))

theorem message?_entry (file : StoredFile t) :
    file.entry.message? = some (.bytes (utf8 file.content)) := by
  unfold StoredFile.entry
  split
  · simp [InboxEntry.message?, fromUtf8_eq_some_iff.mpr rfl]
  · have hmd : hasMdExtension (utf8 (file.id ++ ".md".toList)) = true := by
      have hcut : rsplitOnce 0x2E (utf8 (file.id ++ ".md".toList)) =
          some (utf8 file.id, utf8 "md".toList) := by
        rw [rsplitOnce_eq_some_iff, utf8_append]
        exact ⟨rfl, by decide⟩
      have hne : utf8 file.id ≠ [] := by
        intro hnil
        exact file.id_ne (by simpa [hnil] using (fromUtf8Lossy_utf8 file.id).symm)
      rw [hasMdExtension, hcut]
      simp [hne]
    rw [InboxEntry.message?, if_neg Bool.false_ne_true, if_pos hmd]

/-- A counter over such a directory. -/
theorem countEntries_files (unread : FileRead → Bool) :
    (countEntries unread (some (files.map StoredFile.entry))).2 =
      files.countP fun file => unread (.bytes (utf8 file.content)) := by
  have hmessages : (files.map StoredFile.entry).filterMap InboxEntry.message? =
      files.map fun file => FileRead.bytes (utf8 file.content) := by
    rw [List.filterMap_map]
    induction files with
    | nil => rfl
    | cons file files ih =>
      rw [List.filterMap_cons, Function.comp_apply, message?_entry, ih]
      rfl
  show ((files.map StoredFile.entry).filterMap InboxEntry.message?).countP unread = _
  rw [hmessages, List.countP_map]
  rfl

theorem text?_bytes (content : Str) : (FileRead.bytes (utf8 content)).text? = some content :=
  fromUtf8_eq_some_iff.mpr rfl

theorem countInbox_files : (countInbox (some (files.map StoredFile.entry))).2 =
    files.countP fun file => !(isMarkedRead file.content) := by
  rw [countInbox, countEntries_files]
  simp only [text?_bytes, Option.any_some]

theorem countWithUnread_files : (countWithUnread t (some (files.map StoredFile.entry))).2 =
    files.countP fun file => countsUnread t file.content := by
  rw [countWithUnread, countEntries_files]
  simp only [text?_bytes, Option.any_some]

theorem countMessages_files : (countMessages t (some (files.map StoredFile.entry))).2 =
    files.countP fun file => isUnread t file.content := by
  rw [countMessages, countEntries_files]
  simp only [text?_bytes, Option.any_some]

/-- Two counts of one list where every element of the second is one of the first. -/
theorem forall_of_countP_eq {α : Type} {p q : α → Bool} {l : List α} (himp : ∀ x ∈ l, q x = true → p x = true)
    (hcount : l.countP q = l.countP p) : ∀ x ∈ l, p x = true → q x = true := by
  induction l with
  | nil => simp
  | cons a l ih =>
    rw [List.forall_mem_cons] at himp ⊢
    have hle : l.countP q ≤ l.countP p := List.countP_mono_left himp.2
    rw [List.countP_cons, List.countP_cons] at hcount
    constructor
    · intro hp
      by_contra hq
      simp [hp, hq] at hcount
      omega
    · refine ih himp.2 ?_
      by_cases hq : q a = true
      · simpa [hq, himp.1 hq] using hcount
      · by_cases hp : p a = true
        · simp [hp, hq] at hcount
          omega
        · simpa [hp, hq] using hcount

variable {files} {before after : InboundFrontmatter → Str}

/-- The laws of the TOML library at every record of the files. -/
def LawsAt (files : List (StoredFile t)) (before after : InboundFrontmatter → Str) : Prop :=
  ∀ file ∈ files, ∀ m ∈ file.records, FileLaws t m (before m) (after m)

theorem LawsAt.content_eq (h : LawsAt files before after) {file : StoredFile t} (hfile : file ∈ files) :
    file.content = formatFrontmatter t file.current file.body :=
  afterMarks_formatted (fun m hm => (h file hfile m hm).undoesPrint) file.written

theorem LawsAt.current (h : LawsAt files before after) {file : StoredFile t} (hfile : file ∈ files) :
    FileLaws t file.current (before file.current) (after file.current) :=
  h file hfile _ (List.getLast_mem _)

/-- The id and the text under which `email_list` finds a file. -/
theorem id?_entry (file : StoredFile t) : file.entry.id? = some file.id := by
  unfold StoredFile.entry
  split
  · exact fromUtf8_eq_some_iff.mpr rfl
  · have hname : fromUtf8 (utf8 (file.id ++ ".md".toList)) = some (file.id ++ '.' :: "md".toList) :=
      fromUtf8_eq_some_iff.mpr rfl
    have hext : splitExt (file.id ++ '.' :: "md".toList) = (file.id, some "md".toList) :=
      splitExt_append (by decide) file.id_ne
    show (fromUtf8 (utf8 (file.id ++ ".md".toList))).bind _ = _
    rw [hname, Option.bind_some, hext]
    rfl

theorem text_entry (file : StoredFile t) : file.entry.text = .bytes (utf8 file.content) := by
  unfold StoredFile.entry
  split <;> rfl

theorem enumerateEmailIds_files (files : List (StoredFile t)) :
    enumerateEmailIds (files.map fun file => file.entry.toListEntry) =
      files.map fun file => (file.id, FileRead.bytes (utf8 file.content)) := by
  unfold enumerateEmailIds
  rw [List.filterMap_map]
  induction files with
  | nil => rfl
  | cons file files ih =>
    rw [List.filterMap_cons, Function.comp_apply, id?_entry, text_entry, ih]
    rfl

/-- Counters over files that count right. -/
theorem countersAgree_of_countsRight (hlaws : LawsAt files before after)
    (hright : ∀ file ∈ files, CountsRight before file.current) : CountersAgree t files := by
  have hview : ∀ file ∈ files, isMarkedRead file.content = file.current.read ∧
      parseFrontmatter t file.content = some file.current ∧
      countsUnread t file.content = !file.current.read ∧ isUnread t file.content = !file.current.read ∧
      Ingest.readEmailFrontmatter t file.content = .ok (some file.current.listFm) := by
    intro file hfile
    obtain ⟨hplus, hread⟩ := hright file hfile
    rw [hlaws.content_eq hfile]
    exact ⟨(isMarkedRead_block_iff (hlaws.current hfile).toRenders hplus).mpr hread,
      views_plain (hlaws.current hfile) hplus⟩
  have hinbox : (countInbox (some (files.map StoredFile.entry))).2 =
      files.countP fun file => !file.current.read := by
    rw [countInbox_files]
    exact List.countP_congr fun file hfile => by rw [(hview file hfile).1]
  constructor
  case scanner =>
    intro file hfile
    obtain ⟨hscan, hparse, -⟩ := hview file hfile
    rw [hscan, hparse]
    simp
  case show_ =>
    rw [hinbox, countWithUnread_files]
    exact List.countP_congr fun file hfile => by rw [(hview file hfile).2.2.1]
  case doctor =>
    rw [hinbox, countMessages_files]
    exact List.countP_congr fun file hfile => by rw [(hview file hfile).2.2.2.1]
  case listing =>
    intro n hn
    have hread : ∀ file ∈ files, Mcp.readEmailFrontmatter t (.bytes (utf8 file.content)) =
        .ok (some file.current.listFm) := by
      intro file hfile
      unfold Mcp.readEmailFrontmatter
      dsimp only
      rw [fromUtf8_eq_some_iff.mpr rfl]
      dsimp only
      rw [(hview file hfile).2.2.2.2]
    have hall : AllRead t (files.map fun file => file.entry.toListEntry) := by
      intro m hm
      rw [enumerateEmailIds_files] at hm
      obtain ⟨file, hfile, rfl⟩ := List.mem_map.mp hm
      exact ⟨_, hread file hfile⟩
    have hpages : PagesShow t .inbox (files.map fun file => file.entry.toListEntry) n :=
      pagesShow_of_allRead hn hall
    obtain ⟨page, hpage, rows, hperm, -, hrows⟩ := hpages
    refine ⟨page, hpage, ?_⟩
    intro m hm
    rw [hrows m (by simpa using hm), hperm.countP_eq, enumerateEmailIds_files, List.filterMap_map, hinbox]
    clear hperm hrows hpage hall hinbox hlaws hright hview hm
    induction files with
    | nil => rfl
    | cons file files ih =>
      rw [List.forall_mem_cons] at hread
      have hrow : readableRow t .inbox (file.id, FileRead.bytes (utf8 file.content)) =
          some (listRow .inbox file.id file.current.listFm) := by
        rw [readableRow, hread.1]
      rw [List.filterMap_cons, Function.comp_apply, hrow, List.countP_cons, List.countP_cons, ih hread.2]
      rfl

/-- **The counters agree** exactly on the files that count right. -/
theorem countersAgree_iff (hlaws : LawsAt files before after) :
    CountersAgree t files ↔ ∀ file ∈ files, CountsRight before file.current := by
  refine ⟨?_, countersAgree_of_countsRight hlaws⟩
  intro hagree file hfile
  have hcount := hagree.show_
  rw [countWithUnread_files, countInbox_files] at hcount
  -- a message that parsing counts as unread is one that the scan counts
  have himp : ∀ file ∈ files, countsUnread t file.content = true → (!isMarkedRead file.content) = true := by
    intro file hfile hunread
    by_cases hplus : ∃ s ∈ file.current.strings, "+++".toList <:+: s
    · rw [hlaws.content_eq hfile, (views_cut (hlaws.current hfile) hplus).2] at hunread
      cases hunread
    · push Not at hplus
      have hviews := @views_plain _ _ file.body _ _ (hlaws.current hfile) hplus
      rw [← hlaws.content_eq hfile] at hviews
      have hscan := hagree.scanner file hfile
      rw [hviews.1] at hscan
      rw [hviews.2.1] at hunread
      cases hmarked : isMarkedRead file.content with
      | false => rfl
      | true =>
        obtain ⟨m, hm, hread⟩ := hscan.mp hmarked
        cases hm
        rw [hread] at hunread
        cases hunread
  have hback := forall_of_countP_eq himp hcount
  have hscan := hagree.scanner file hfile
  by_cases hplus : ∃ s ∈ file.current.strings, "+++".toList <:+: s
  · obtain ⟨hparse, hunread⟩ := @views_cut _ _ file.body _ _ (hlaws.current hfile) hplus
    rw [← hlaws.content_eq hfile] at hparse hunread
    -- the scan does not find the message read, so it counts it, and parsing does not
    have hmarked : isMarkedRead file.content = false := by
      rw [← Bool.not_eq_true, hscan, hparse]
      simp
    have hcounted := hback file hfile (by rw [hmarked]; rfl)
    rw [hunread] at hcounted
    cases hcounted
  · push Not at hplus
    refine ⟨hplus, ?_⟩
    have hviews := @views_plain _ _ file.body _ _ (hlaws.current hfile) hplus
    rw [← hlaws.content_eq hfile] at hviews
    rw [← @isMarkedRead_block_iff _ _ file.body _ _ (hlaws.current hfile).toRenders hplus,
      ← hlaws.content_eq hfile, Bool.eq_iff_iff, hscan, hviews.1]
    simp

end Directory

/-! ## Two inboxes -/

theorem afterMarks_nil (t : Toml) (content : Str) : afterMarks t content [] = some content := rfl

/-- A new message of a subject. -/
def newMessage (subject : Str) : StoredFile (sampleToml subject) where
  id := "note".toList
  id_ne := by decide
  bundled := false
  first := sampleMeta subject
  body := "Hello".toList
  marks := []
  content := formatFrontmatter (sampleToml subject) (sampleMeta subject) "Hello".toList
  written := afterMarks_nil _ _

theorem length_trim_le (s : Str) : (trim s).length ≤ s.length := by
  have hend : (trim s).length ≤ (trimStart s).length := (List.rdropWhile_prefix isWhitespace _).length_le
  have hstart : (trimStart s).length ≤ s.length := List.length_dropWhile_le _ _
  omega

/-- What parsing reads of the sample text is all of it but its last line feed. -/
theorem length_sampleToml (subject : Str) : (sampleBefore subject ++ readLine false).length ≤
    (trim (sampleBefore subject ++ readLine false)).length + 1 := by
  obtain ⟨rest, hfirst⟩ : ∃ rest, sampleFields subject = 'i' :: rest := ⟨_, rfl⟩
  have hkey : readLine false = "read = fals".toList ++ ['e'] ++ ['\n'] := by decide
  have hend : sampleBefore subject ++ readLine false =
      ('i' :: (rest ++ ['\n'] ++ "read = fals".toList) ++ ['e']) ++ ['\n'] := by
    rw [sampleBefore, hfirst, hkey]
    simp only [List.append_assoc, List.cons_append]
  generalize rest ++ ['\n'] ++ "read = fals".toList = middle at hend
  have hstart : trimStart ('i' :: middle ++ ['e']) = 'i' :: middle ++ ['e'] := rfl
  rw [hend, trim_concat_whitespace _ (by decide), trim, hstart, trimEnd_concat_visible _ (by decide),
    List.length_append]
  exact Nat.le_refl _

/-- The sample library at its own record: the beginning of what it prints is too short for it. -/
theorem sampleToml_fileLaws {subject : Str}
    (hplus : "+++".toList <:+: sampleBefore subject ++ readLine false ↔
      ∃ s ∈ (sampleMeta subject).strings, "+++".toList <:+: s) :
    FileLaws (sampleToml subject) (sampleMeta subject) (sampleBefore subject) [] where
  toRenders := sampleToml_renders hplus
  cut := by
    intro block rest hprint
    rw [sampleToml_toString] at hprint
    simp only [sampleToml]
    have hlength := length_sampleToml subject
    generalize sampleBefore subject ++ readLine false = full at hprint hlength ⊢
    have hlen : full.length = block.length + 3 + rest.length := by
      rw [hprint, List.length_append, List.length_append]
      rfl
    have hshort : ∀ s : Str, s.length ≤ block.length + 1 → s ≠ trim full ∧ s ≠ '\n' :: full := by
      intro s hs
      constructor
      · rintro rfl
        omega
      · rintro rfl
        rw [List.length_cons] at hs
        omega
    have hblock : ('\n' :: block).length ≤ block.length + 1 := Nat.le_refl _
    have htrim := hshort (trim ('\n' :: block)) (Nat.le_trans (length_trim_le _) hblock)
    have hplain := hshort ('\n' :: block) hblock
    exact ⟨if_neg (not_or.mpr htrim), if_neg (not_or.mpr hplain), if_neg htrim.1⟩

/-- An ordinary message is counted the same by all. -/
theorem countersAgree_note : CountersAgree (sampleToml "note".toList) [newMessage "note".toList] := by
  have hlaws : LawsAt [newMessage "note".toList] (fun _ => sampleBefore "note".toList) fun _ => [] := by
    intro file hfile m hm
    rw [List.mem_singleton.mp hfile] at hm
    rw [List.mem_singleton.mp hm]
    exact sampleToml_fileLaws sampleToml_note_plus
  refine (countersAgree_iff hlaws).mpr ?_
  intro file hfile
  rw [List.mem_singleton.mp hfile]
  refine ⟨sampleMeta_note_plain, fun v hv => ?_⟩
  rw [findSome?_readValue_note] at hv
  cases hv

/-- An inbox with one message that cannot be parsed. -/
theorem not_countersAgree_singleton {t : Toml} {file : StoredFile t}
    (hparse : parseFrontmatter t file.content = none) (hunread : countsUnread t file.content = false) :
    ¬CountersAgree t [file] := by
  intro hagree
  have hscan := hagree.scanner file (List.mem_singleton_self file)
  have hmarked : isMarkedRead file.content = false := by
    rw [← Bool.not_eq_true, hscan, hparse]
    simp
  have hcount := hagree.show_
  rw [countWithUnread_files, countInbox_files] at hcount
  simp [hmarked, hunread] at hcount

theorem subject_mem_strings (m : InboundFrontmatter) : m.subject ∈ m.strings := by
  simp [InboundFrontmatter.strings]

/-- A message with a mark in its subject is counted by MAILBOX-LIST alone. -/
theorem markedSubject_counted :
    FileLaws (sampleToml "a+++b".toList) (sampleMeta "a+++b".toList) (sampleBefore "a+++b".toList) [] ∧
      ¬CountersAgree (sampleToml "a+++b".toList) [newMessage "a+++b".toList] := by
  have hlaws := sampleToml_fileLaws sampleToml_marked_plus
  have hmark : ∃ s ∈ (sampleMeta "a+++b".toList).strings, "+++".toList <:+: s :=
    ⟨_, subject_mem_strings _, ['a'], ['b'], rfl⟩
  obtain ⟨hparse, hunread⟩ := @views_cut _ _ "Hello".toList _ _ hlaws hmark
  exact ⟨hlaws, not_countersAgree_singleton hparse hunread⟩

end Mcp
end Aimx
