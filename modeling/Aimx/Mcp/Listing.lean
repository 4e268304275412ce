import Aimx.Ingest.Frontmatter
import Aimx.Text.Path
import Aimx.Text.Utf8
import Mathlib.Data.List.Perm.Basic

/-!
# Listing a mailbox

`email_list` gives the messages of a mailbox page by page: all ids first, then the front matter of the
files of one page.  A file without front matter is left out; one that cannot be read or parsed fails the
page.

* `enumerateEmailIds`, `readEmailFrontmatter`, `listEmailPage` — the functions of the source;
* `PagesShow` — the pages show every readable message once, in order;
* `pagesShow_iff` — they do exactly when no file fails.
-/

namespace Aimx
namespace Mcp

open Text Ingest

/-! ## Pages of a list -/

/-- The pages of a size, one after the other. -/
theorem flatMap_pages {α : Type} (l : List α) (n m : Nat) :
    (List.range m).flatMap (fun k => (l.drop (k * n)).take n) = l.take (m * n) := by
  induction m with
  | zero => rw [Nat.zero_mul, List.take_zero, List.range_zero, List.flatMap_nil]
  | succ m ih =>
      rw [List.range_succ, List.flatMap_append, ih, Nat.succ_mul, List.take_add, List.flatMap_singleton]

/-- The page on which an element stands. -/
theorem mem_page {α : Type} {l : List α} {n : Nat} (hn : 0 < n) {x : α} (hx : x ∈ l) :
    ∃ k, x ∈ (l.drop (k * n)).take n := by
  have hall : x ∈ l.take (l.length * n) := by
    rw [List.take_of_length_le (Nat.le_mul_of_pos_right _ hn)]
    exact hx
  rw [← flatMap_pages, List.mem_flatMap] at hall
  obtain ⟨k, -, hk⟩ := hall
  exact ⟨k, hk⟩

/-! ## The order of ids -/

/-- The comparison of two texts, as of their bytes. -/
def atMost : Str → Str → Bool
  | [], _ => true
  | _ :: _, [] => false
  | a :: s, b :: t => decide (a.toNat < b.toNat) || (a == b && atMost s t)

theorem atMost_total (s t : Str) : (atMost s t || atMost t s) = true := by
  induction s generalizing t with
  | nil => rfl
  | cons a s ih =>
      cases t with
      | nil => rfl
      | cons b t =>
          rcases Nat.lt_trichotomy a.toNat b.toNat with hlt | heq | hgt
          · simp [atMost, hlt]
          · obtain rfl : a = b := Char.toNat_inj.mp heq
            simpa [atMost] using ih t
          · simp [atMost, hgt]

theorem atMost_trans {s t u : Str} (hst : atMost s t = true) (htu : atMost t u = true) :
    atMost s u = true := by
  induction s generalizing t u with
  | nil => rfl
  | cons a s ih =>
      cases t with
      | nil => cases hst
      | cons b t =>
          cases u with
          | nil => cases htu
          | cons c u =>
              simp only [atMost, Bool.or_eq_true, decide_eq_true_eq, Bool.and_eq_true,
                beq_iff_eq] at hst htu ⊢
              rcases hst with hlt | ⟨rfl, hst⟩
              · rcases htu with hlt' | ⟨rfl, -⟩
                · exact Or.inl (by omega)
                · exact Or.inl hlt
              · rcases htu with hlt' | ⟨rfl, htu⟩
                · exact Or.inl hlt'
                · exact Or.inr ⟨rfl, ih hst htu⟩

/-! ## Listing -/

/-- What `read_to_string` meets at a path: nothing, an error, or a file. -/
inductive FileRead
  | missing
  | failed (error : Str)
  | bytes (content : Bytes)
  deriving DecidableEq

/-- The type of a directory entry: symbolic links are not followed. -/
inductive EntryKind
  | dir
  | file
  | other
  deriving DecidableEq

/-- An entry of a mailbox directory, with what is read where a message of its name has its text:
`<name>/<name>.md` for a directory, and the file itself for a file. -/
structure ListEntry where
  name : Bytes
  kind : EntryKind
  text : FileRead

/-- `read_dir` of a mailbox directory. -/
inductive DirRead
  | missing
  | failed (error : Str)
  | entries (entries : List ListEntry)

/-- The folders of a mailbox. -/
inductive Folder
  | inbox
  | sent
  deriving DecidableEq

/-- `InboxListRow`. -/
structure InboxListRow where
  id : Str
  from_ : Str
  to_ : Str
  subject : Str
  date : Str
  read : Bool
  deriving DecidableEq

/-- `SentListRow`. -/
structure SentListRow where
  id : Str
  from_ : Str
  to_ : Str
  subject : Str
  date : Str
  deliveryStatus : Str
  deriving DecidableEq

/-- A row of a page. -/
inductive ListRow
  | inbox (row : InboxListRow)
  | sent (row : SentListRow)
  deriving DecidableEq

/-- The id of a row. -/
def ListRow.id : ListRow → Str
  | .inbox row => row.id
  | .sent row => row.id

/-- The row of a message. -/
def listRow (folder : Folder) (id : Str) (fm : EmailListFm) : ListRow :=
  match folder with
  | .inbox => .inbox ⟨id, fm.from_, fm.to_, fm.subject, fm.date, fm.read⟩
  | .sent => .sent ⟨id, fm.from_, fm.to_, fm.subject, fm.date, fm.deliveryStatus.getD []⟩

/-- Why a page is not given. -/
inductive ListError
  | io (error : Str)
  | parse
  deriving DecidableEq

/-- The id of an entry, if it can be a message. -/
def ListEntry.id? (e : ListEntry) : Option Str :=
  match e.kind with
  | .dir => fromUtf8 e.name
  | .file =>
      (fromUtf8 e.name).bind fun name =>
        match splitExt name with
        | (stem, some ext) => if ext = "md".toList then some stem else none
        | (_, none) => none
  | .other => none

/-- `enumerate_email_ids`: each id with what is read at its path. -/
def enumerateEmailIds (entries : List ListEntry) : List (Str × FileRead) :=
  entries.filterMap fun e => e.id?.map fun id => (id, e.text)

/-- `read_email_frontmatter`. -/
def readEmailFrontmatter (t : Toml) : FileRead → Except ListError (Option EmailListFm)
  | .missing => .ok none
  | .failed e => .error (.io e)
  | .bytes content =>
      match fromUtf8 content with
      | none => .error (.io "stream did not contain valid UTF-8".toList)
      | some text =>
          match Ingest.readEmailFrontmatter t text with
          | .error _ => .error .parse
          | .ok fm => .ok fm

/-- The rows of a page. -/
def readRows (t : Toml) (folder : Folder) : List (Str × FileRead) → Except ListError (List ListRow)
  | [] => .ok []
  | m :: page =>
      match readEmailFrontmatter t m.2 with
      | .error e => .error e
      | .ok none => readRows t folder page
      | .ok (some fm) => (readRows t folder page).map (listRow folder m.1 fm :: ·)

/-- The ids in descending order. -/
def sortIds (ids : List (Str × FileRead)) : List (Str × FileRead) :=
  ids.mergeSort fun a b => atMost b.1 a.1

/-- `list_email_page_json`, as the rows of the array.  The offset and the limit are 32-bit numbers, so
their sum does not overflow. -/
def listEmailPage (t : Toml) (dir : DirRead) (folder : Folder) (offset limit : Nat) :
    Except ListError (List ListRow) :=
  match dir with
  | .failed e => .error (.io e)
  | .missing => .ok []
  | .entries entries =>
      let ids := sortIds (enumerateEmailIds entries)
      if ids.length ≤ offset ∨ limit = 0 then .ok []
      else readRows t folder ((ids.take (min (offset + limit) ids.length)).drop offset)

/-! ## What is asked of the pages -/

section Pages

variable (t : Toml) (folder : Folder)

/-- The row of a message that can be read. -/
def readableRow (m : Str × FileRead) : Option ListRow :=
  match readEmailFrontmatter t m.2 with
  | .ok (some fm) => some (listRow folder m.1 fm)
  | _ => none

/-- All pages of a size are given, and together they show every readable message once, the later ids
first. -/
def PagesShow (entries : List ListEntry) (n : Nat) : Prop :=
  ∃ page : Nat → List ListRow,
    (∀ k, listEmailPage t (.entries entries) folder (k * n) n = .ok (page k)) ∧
      ∃ rows, rows.Perm ((enumerateEmailIds entries).filterMap (readableRow t folder)) ∧
        rows.Pairwise (fun a b => atMost b.id a.id = true) ∧
        ∀ m, entries.length ≤ m * n → (List.range m).flatMap page = rows

/-- No file of a message fails to be read or parsed. -/
def AllRead (entries : List ListEntry) : Prop :=
  ∀ m ∈ enumerateEmailIds entries, ∃ fm, readEmailFrontmatter t m.2 = .ok fm

variable {t} {folder}

theorem readRows_ok_iff (page : List (Str × FileRead)) :
    (∃ rows, readRows t folder page = .ok rows) ↔
      ∀ m ∈ page, ∃ fm, readEmailFrontmatter t m.2 = .ok fm := by
  induction page with
  | nil => exact ⟨fun _ m hm => (by cases hm), fun _ => ⟨[], rfl⟩⟩
  | cons m page ih =>
      rw [List.forall_mem_cons, ← ih, readRows]
      cases hread : readEmailFrontmatter t m.2 with
      | error e => simp
      | ok fm =>
          cases fm with
          | none => simp
          | some fm =>
              cases hrest : readRows t folder page with
              | error e => simp [Except.map]
              | ok rows => simp [Except.map]

/-- The rows of a page whose files can all be read. -/
theorem readRows_eq {page : List (Str × FileRead)}
    (h : ∀ m ∈ page, ∃ fm, readEmailFrontmatter t m.2 = .ok fm) :
    readRows t folder page = .ok (page.filterMap (readableRow t folder)) := by
  induction page with
  | nil => rfl
  | cons m page ih =>
      rw [List.forall_mem_cons] at h
      obtain ⟨⟨fm, hread⟩, hrest⟩ := h
      rw [readRows, hread, ih hrest, List.filterMap_cons, readableRow, hread]
      cases fm <;> rfl

/-- A file that fails ends the page. -/
theorem readRows_error {m : Str × FileRead} {page : List (Str × FileRead)} {e : ListError}
    (h : readEmailFrontmatter t m.2 = .error e) : readRows t folder (m :: page) = .error e := by
  rw [readRows, h]

/-- A block that is no TOML fails. -/
theorem readEmailFrontmatter_utf8 {text toml rest : Str} (hsplit : splitFrontmatter text = some (toml, rest))
    (hlist : t.listFromStr (trim toml) = none) :
    readEmailFrontmatter t (.bytes (utf8 text)) = .error .parse := by
  unfold readEmailFrontmatter
  dsimp only
  rw [fromUtf8_eq_some_iff.mpr rfl]
  unfold Ingest.readEmailFrontmatter
  dsimp only
  rw [hsplit]
  dsimp only
  rw [hlist]

theorem mem_sortIds {ids : List (Str × FileRead)} {m : Str × FileRead} : m ∈ sortIds ids ↔ m ∈ ids :=
  List.mem_mergeSort

/-- One page is a part of the sorted ids. -/
theorem listEmailPage_eq (entries : List ListEntry) {n : Nat} (hn : 0 < n) (offset : Nat) :
    listEmailPage t (.entries entries) folder offset n =
      readRows t folder (((sortIds (enumerateEmailIds entries)).drop offset).take n) := by
  unfold listEmailPage
  dsimp only
  by_cases hend : (sortIds (enumerateEmailIds entries)).length ≤ offset
  · rw [if_pos (Or.inl hend), List.drop_eq_nil_of_le hend, List.take_nil]
    rfl
  · rw [if_neg (by omega), List.drop_take]
    congr 1
    rcases Nat.le_total (offset + n) (sortIds (enumerateEmailIds entries)).length with hle | hle
    · rw [Nat.min_eq_left hle, Nat.add_sub_cancel_left]
    · -- the last page
      rw [Nat.min_eq_right hle, List.take_of_length_le (by rw [List.length_drop]),
        List.take_of_length_le (by rw [List.length_drop]; omega)]

theorem id_listRow (folder : Folder) (id : Str) (fm : EmailListFm) : (listRow folder id fm).id = id := by
  cases folder <;> rfl

theorem id_of_readableRow {m : Str × FileRead} {row : ListRow} (h : readableRow t folder m = some row) :
    row.id = m.1 := by
  unfold readableRow at h
  split at h
  · cases h
    exact id_listRow folder m.1 _
  · cases h

/-- The sorted ids give sorted rows. -/
theorem pairwise_rows (ids : List (Str × FileRead)) :
    ((sortIds ids).filterMap (readableRow t folder)).Pairwise fun a b => atMost b.id a.id = true := by
  rw [List.pairwise_filterMap]
  have hsorted : (sortIds ids).Pairwise fun a b => atMost b.1 a.1 = true := by
    refine List.pairwise_mergeSort ?_ ?_ ids
    · intro a b c hab hbc
      exact atMost_trans hbc hab
    · intro a b
      exact atMost_total b.1 a.1
  refine hsorted.imp ?_
  intro a b hab row hrow row' hrow'
  rw [id_of_readableRow hrow, id_of_readableRow hrow']
  exact hab

/-- Pages of files that can all be read show every message once. -/
theorem pagesShow_of_allRead {entries : List ListEntry} {n : Nat} (hn : 0 < n)
    (h : AllRead t entries) : PagesShow t folder entries n := by
  have hpage : ∀ k, listEmailPage t (.entries entries) folder (k * n) n =
      .ok ((((sortIds (enumerateEmailIds entries)).drop (k * n)).take n).filterMap
        (readableRow t folder)) := by
    intro k
    rw [listEmailPage_eq entries hn]
    refine readRows_eq fun m hm => h m ?_
    exact mem_sortIds.mp (List.mem_of_mem_drop (List.mem_of_mem_take hm))
  refine ⟨_, hpage, (sortIds (enumerateEmailIds entries)).filterMap (readableRow t folder), ?_, ?_, ?_⟩
  · exact (List.mergeSort_perm _ _).filterMap _
  · exact pairwise_rows _
  · intro m hm
    have hlen : (sortIds (enumerateEmailIds entries)).length ≤ m * n := by
      have hle : (enumerateEmailIds entries).length ≤ entries.length := List.length_filterMap_le _ _
      rw [sortIds, List.length_mergeSort]
      omega
    rw [← List.filterMap_flatMap, flatMap_pages, List.take_of_length_le hlen]

variable (t) (folder)

/-- **Paging shows every readable message once**, whatever the size of the pages, exactly when no file
fails. -/
theorem pagesShow_iff (entries : List ListEntry) :
    (∀ n, 0 < n → PagesShow t folder entries n) ↔ AllRead t entries := by
  refine ⟨?_, fun h n hn => pagesShow_of_allRead hn h⟩
  intro h m hm
  obtain ⟨page, hpage, -⟩ := h 1 Nat.one_pos
  -- the page on which the message stands
  obtain ⟨k, hk⟩ := mem_page Nat.one_pos (mem_sortIds.mpr hm)
  have hrows := hpage k
  rw [listEmailPage_eq entries Nat.one_pos] at hrows
  exact (readRows_ok_iff _).mp ⟨_, hrows⟩ m hk

end Pages

/-! ## A message that is not read back -/

/-- The id of a message, from the word in its subject. -/
def storedId (subject : Str) : Str := "2025-01-01-000000-".toList ++ subject.filter Char.isAlpha

/-- A message as it is stored. -/
def storedMessage (subject : Str) : ListEntry where
  name := utf8 (storedId subject ++ ".md".toList)
  kind := .file
  text := .bytes (utf8 (formatFrontmatter (sampleToml subject) (sampleMeta subject) "Hello".toList))

/-- Two messages, the first with a mark in its subject. -/
def markedMailbox : List ListEntry :=
  [storedMessage "+++ offer".toList, storedMessage "note".toList]

theorem id_storedMessage (subject : Str) : (storedMessage subject).id? = some (storedId subject) := by
  have hname : fromUtf8 (storedMessage subject).name = some (storedId subject ++ '.' :: "md".toList) :=
    fromUtf8_eq_some_iff.mpr rfl
  have hext : splitExt (storedId subject ++ '.' :: "md".toList) =
      (storedId subject, some "md".toList) :=
    splitExt_append (by decide) (List.append_ne_nil_of_left_ne_nil (by decide) _)
  unfold ListEntry.id?
  show (fromUtf8 (storedMessage subject).name).bind _ = _
  rw [hname, Option.bind_some, hext]
  rfl

/-- What is read of the first one: the block ends within the subject. -/
theorem marked_unreadable :
    readEmailFrontmatter (sampleToml "note".toList) (storedMessage "+++ offer".toList).text =
      .error .parse := by
  have hblock : ∃ toml rest, splitFrontmatter (formatFrontmatter (sampleToml "+++ offer".toList)
      (sampleMeta "+++ offer".toList) "Hello".toList) = some (toml, rest) ∧
        (sampleToml "note".toList).listFromStr (trim toml) = none := by
    refine ⟨_, _, rfl, ?_⟩
    decide +kernel
  obtain ⟨toml, rest, hsplit, hlist⟩ := hblock
  exact readEmailFrontmatter_utf8 hsplit hlist

/-- A message with a mark in its subject hides the other one. -/
theorem markedMailbox_hidden :
    listEmailPage (sampleToml "note".toList) (.entries markedMailbox) .inbox 0 50 = .error .parse ∧
      ¬∀ n, 0 < n → PagesShow (sampleToml "note".toList) .inbox markedMailbox n := by
  have hids : enumerateEmailIds markedMailbox =
      [(storedId "+++ offer".toList, (storedMessage "+++ offer".toList).text),
        (storedId "note".toList, (storedMessage "note".toList).text)] := by
    unfold enumerateEmailIds markedMailbox
    rw [List.filterMap_cons, id_storedMessage, List.filterMap_cons, id_storedMessage]
    rfl
  have hsort : sortIds (enumerateEmailIds markedMailbox) = enumerateEmailIds markedMailbox := by
    have hle : atMost (storedId "note".toList) (storedId "+++ offer".toList) = true := by decide
    rw [hids]
    exact List.mergeSort_of_pairwise (List.pairwise_pair.mpr hle)
  have hpage : listEmailPage (sampleToml "note".toList) (.entries markedMailbox) .inbox 0 50 =
      .error .parse := by
    rw [listEmailPage_eq markedMailbox (by decide), hsort, hids]
    exact readRows_error marked_unreadable
  refine ⟨hpage, ?_⟩
  intro h
  obtain ⟨page, hpages, -⟩ := h 50 (by decide)
  have hfirst := hpages 0
  rw [Nat.zero_mul, hpage] at hfirst
  cases hfirst

end Mcp
end Aimx
