import Aimx.Ingest.Store
import Aimx.Ingest.Trust
import Aimx.Text.Unique

/-!
# Attachments of a stored message

The attachments of a message are written into its bundle directory under names made from those that the
sender chose, and then the message is created as a new file of the same directory.

* `sanitizeAttachmentFilename`, `prepareAttachments`, `writeAttachmentsFrom` — the functions of the source;
* `deduplicateFilename_eq` — names are made unique as in `Text.Unique`;
* `AttachmentsStored` — what is asked of a delivery;
* `attachmentsStored_iff` — the attachments for which it holds.
-/

namespace Aimx
namespace Ingest

open Text

/-! ## File names -/

/-- `Path::file_name`. -/
def pathFileName (path : Str) : Option Str :=
  match ((path.splitOn '/').filter fun c => c ≠ [] ∧ c ≠ ['.']).getLast? with
  | none => none
  | some name => if name = "..".toList then none else some name

/-- `char::is_control`. -/
def isControl (c : Char) : Bool := c.toNat < 0x20 || (0x7F ≤ c.toNat && c.toNat ≤ 0x9F)

/-- `is_filename_unsafe`. -/
def isFilenameUnsafe (c : Char) : Bool :=
  c = '/' || c = '\\' || isControl c || (0x200B ≤ c.toNat && c.toNat ≤ 0x200F) ||
    (0x202A ≤ c.toNat && c.toNat ≤ 0x202E) || (0x2066 ≤ c.toNat && c.toNat ≤ 0x2069) ||
    c.toNat = 0xFEFF

/-- The walk of `sanitize_attachment_filename`: runs of unsafe characters become one underscore. -/
def underscored : Bool → Str → Str
  | _, [] => []
  | lastWasUnderscore, c :: s =>
      if isFilenameUnsafe c then
        if lastWasUnderscore then underscored true s else '_' :: underscored true s
      else c :: underscored false s

/-- The characters that `sanitize_attachment_filename` trims. -/
def isTrimmed (c : Char) : Bool := isWhitespace c || c = '.' || c = '-' || c = '_'

/-- `ATTACHMENT_FILENAME_MAX_BYTES`. -/
def attachmentFilenameMaxBytes : Nat := 200

/-- The longest beginning of a text that has at most some number of bytes. -/
def capBytes : Nat → Str → Str
  | _, [] => []
  | n, c :: s => if c.utf8Size ≤ n then c :: capBytes (n - c.utf8Size) s else []

/-- `sanitize_attachment_filename`. -/
def sanitizeAttachmentFilename (u : Unicode) (raw : Str) (index : Nat) : Str :=
  let normalized := u.nfc ((pathFileName raw).getD [])
  let trimmed := ((underscored false normalized).dropWhile isTrimmed).rdropWhile isTrimmed
  let trimmed :=
    if byteLen trimmed > attachmentFilenameMaxBytes then
      (capBytes attachmentFilenameMaxBytes trimmed).rdropWhile isTrimmed
    else trimmed
  if trimmed.isEmpty then "attachment-".toList ++ decimal index else trimmed

/-- An attachment of a parsed message: its name, its content type and subtype, and its bytes. -/
structure Attachment where
  name : Option Str
  contentType : Option (Str × Option Str)
  contents : Bytes

/-- `PreparedAttachment`. -/
structure PreparedAttachment where
  filename : Str
  contentType : Str
  body : Bytes

/-- `prepare_attachments`. -/
def prepareAttachments (u : Unicode) (attachments : List Attachment) : List PreparedAttachment :=
  attachments.mapIdx fun index attachment =>
    { filename := sanitizeAttachmentFilename u (attachment.name.getD []) index
      contentType :=
        match attachment.contentType with
        | some (main, some sub) => main ++ '/' :: sub
        | some (main, none) => main
        | none => "application/octet-stream".toList
      body := attachment.contents }

/-- `write_attachments`, with the files that the bundle holds already. -/
def writeAttachmentsFrom (files : List (Str × Bytes)) :
    List PreparedAttachment → List (Str × Bytes) × List AttachmentMeta
  | [] => (files, [])
  | att :: atts =>
      let destFilename := deduplicateFilename files att.filename
      let rest := writeAttachmentsFrom (files ++ [(destFilename, att.body)]) atts
      (rest.1, ⟨destFilename, att.contentType, att.body.length, destFilename⟩ :: rest.2)

/-! ## Names made unique -/

/-- The numbered names that `deduplicate_filename` tries. -/
def numberedName (filename : Str) (i : Nat) : Str :=
  match (splitExt filename).2 with
  | some e => (splitExt filename).1 ++ '-' :: decimal (i + 1) ++ '.' :: e
  | none => (splitExt filename).1 ++ '-' :: decimal (i + 1)

theorem numberedName_injective (filename : Str) : Function.Injective (numberedName filename) := by
  intro j k h
  unfold numberedName at h
  cases hext : (splitExt filename).2 with
  | none =>
      rw [hext] at h
      have hdigits : decimal (j + 1) = decimal (k + 1) :=
        (List.cons.inj (List.append_cancel_left h)).2
      have hsucc : j + 1 = k + 1 := decimal_injective hdigits
      omega
  | some ext =>
      rw [hext] at h
      have hdigits : decimal (j + 1) = decimal (k + 1) :=
        (List.cons.inj (List.append_cancel_left (List.append_cancel_right h))).2
      have hsucc : j + 1 = k + 1 := decimal_injective hdigits
      omega

/-- `deduplicate_filename` makes names unique among those of the directory. -/
theorem deduplicateFilename_eq (files : List (Str × Bytes)) (filename : Str) :
    deduplicateFilename files filename = uniqueName numberedName (files.map Prod.fst) filename := by
  have htaken : ∀ name, (files.find? fun f => f.1 == name).isSome = true ↔ name ∈ files.map Prod.fst := by
    intro name
    rw [List.find?_isSome, List.mem_map]
    simp only [beq_iff_eq]
  rw [uniqueName_of_test htaken, List.length_map]
  by_cases hfree : (!(files.find? fun f => f.1 == filename).isSome) = true
  · rw [Bool.not_eq_true', ← Bool.not_eq_true] at hfree
    rw [if_neg hfree]
    exact if_pos (by rw [Bool.not_eq_true', ← Bool.not_eq_true]; exact hfree)
  · rw [Bool.not_eq_true', Bool.not_eq_false] at hfree
    rw [if_pos hfree]
    exact if_neg (by dsimp only; rw [hfree]; exact Bool.false_ne_true)

/-- The names that are written are those that the requests get. -/
theorem writeAttachmentsFrom_names (files : List (Str × Bytes)) (atts : List PreparedAttachment) :
    (writeAttachmentsFrom files atts).1 = files ++
      (assign numberedName (files.map Prod.fst) (atts.map PreparedAttachment.filename)).zip
        (atts.map PreparedAttachment.body) ∧
    (writeAttachmentsFrom files atts).2.map AttachmentMeta.filename =
      assign numberedName (files.map Prod.fst) (atts.map PreparedAttachment.filename) ∧
    (writeAttachmentsFrom files atts).2.map AttachmentMeta.path =
      assign numberedName (files.map Prod.fst) (atts.map PreparedAttachment.filename) := by
  induction atts generalizing files with
  | nil => simp [writeAttachmentsFrom, assign]
  | cons att atts ih =>
      obtain ⟨hfiles, hnames, hpaths⟩ := ih (files ++ [(deduplicateFilename files att.filename, att.body)])
      rw [List.map_append, List.map_singleton] at hfiles hnames hpaths
      rw [List.map_cons, List.map_cons, assign, ← deduplicateFilename_eq, List.zip_cons_cons]
      refine ⟨?_, ?_, ?_⟩
      · show (writeAttachmentsFrom (files ++ [(deduplicateFilename files att.filename, att.body)]) atts).1 = _
        rw [hfiles, List.append_assoc, List.singleton_append]
      · show deduplicateFilename files att.filename :: _ = _
        rw [hnames]
      · show deduplicateFilename files att.filename :: _ = _
        rw [hpaths]

/-- The files are those of the model of the mailbox directory. -/
theorem writeAttachmentsFrom_files (atts : List PreparedAttachment) :
    (writeAttachmentsFrom [] atts).1 = writeAttachments (atts.map fun a => (a.filename, a.body)) := by
  have hfold : ∀ files, (writeAttachmentsFrom files atts).1 =
      (atts.map fun a => (a.filename, a.body)).foldl
        (fun files a => files ++ [(deduplicateFilename files a.1, a.2)]) files := by
    induction atts with
    | nil => exact fun _ => rfl
    | cons att atts ih => exact fun files => ih _
  exact hfold []

/-! ## Names inside the bundle -/

/-- A text that names an entry of a directory. -/
structure IsFileName (name : Str) : Prop where
  ne_nil : name ≠ []
  slash : '/' ∉ name
  ne_dot : name ≠ ".".toList
  ne_dotdot : name ≠ "..".toList

/-- A text with a dash is neither of the special names. -/
theorem isFileName_of_dash {name : Str} (hdash : '-' ∈ name) (hslash : '/' ∉ name) : IsFileName name where
  ne_nil := List.ne_nil_of_mem hdash
  slash := hslash
  ne_dot := fun h => absurd (h ▸ hdash) (by decide)
  ne_dotdot := fun h => absurd (h ▸ hdash) (by decide)

theorem slash_notMem_underscored (last : Bool) (s : Str) : '/' ∉ underscored last s := by
  induction s generalizing last with
  | nil => exact List.not_mem_nil
  | cons c s ih =>
      rw [underscored]
      by_cases hc : isFilenameUnsafe c = true
      · rw [if_pos hc]
        cases last with
        | true => exact ih true
        | false =>
            rw [if_neg Bool.false_ne_true, List.mem_cons, not_or]
            exact ⟨by decide, ih true⟩
      · have hslash : '/' ≠ c := by
          rintro rfl
          exact hc (by decide)
        rw [if_neg hc, List.mem_cons, not_or]
        exact ⟨hslash, ih false⟩

theorem capBytes_isInitial (n : Nat) (s : Str) : capBytes n s <+: s := by
  induction s generalizing n with
  | nil => exact List.prefix_rfl
  | cons c s ih =>
      rw [capBytes]
      split
      · exact List.cons_prefix_cons.mpr ⟨rfl, ih _⟩
      · exact List.nil_prefix

/-- What trimming leaves at the end is neither a dot nor a separator. -/
theorem isFileName_of_trimmed {s : Str} (hslash : '/' ∉ s) (hne : s.rdropWhile isTrimmed ≠ []) :
    IsFileName (s.rdropWhile isTrimmed) := by
  have hlast := List.rdropWhile_last_not isTrimmed s hne
  have hdot : ∀ front : Str, s.rdropWhile isTrimmed ≠ front ++ ['.'] := by
    intro front heq
    have hend : (s.rdropWhile isTrimmed).getLast hne = '.' := by simp [heq]
    rw [hend] at hlast
    exact hlast (by decide)
  exact
    { ne_nil := hne
      slash := fun hmem => hslash ((List.rdropWhile_prefix isTrimmed _).subset hmem)
      ne_dot := hdot []
      ne_dotdot := hdot ['.'] }

/-- **A sanitized name names an entry of the bundle.** -/
theorem isFileName_sanitize (u : Unicode) (raw : Str) (index : Nat) :
    IsFileName (sanitizeAttachmentFilename u raw index) := by
  have hfallback : IsFileName ("attachment-".toList ++ decimal index) := by
    refine isFileName_of_dash (by simp) ?_
    rw [List.mem_append, not_or]
    refine ⟨by decide, fun hmem => ?_⟩
    exact absurd (isDigit_of_mem_decimal hmem) (by decide)
  have hslash : '/' ∉ (underscored false (u.nfc ((pathFileName raw).getD []))).dropWhile isTrimmed :=
    fun hmem => slash_notMem_underscored _ _ ((List.dropWhile_suffix isTrimmed).subset hmem)
  unfold sanitizeAttachmentFilename
  dsimp only
  generalize (underscored false (u.nfc ((pathFileName raw).getD []))).dropWhile isTrimmed = s at hslash
  by_cases hlong : byteLen (s.rdropWhile isTrimmed) > attachmentFilenameMaxBytes
  · rw [if_pos hlong]
    split
    next => exact hfallback
    next hne =>
        refine isFileName_of_trimmed (fun hmem => hslash ?_) (by simpa using hne)
        exact (List.rdropWhile_prefix isTrimmed _).subset ((capBytes_isInitial _ _).subset hmem)
  · rw [if_neg hlong]
    split
    next => exact hfallback
    next hne => exact isFileName_of_trimmed hslash (by simpa using hne)

/-- The parts of a file name are parts of it. -/
theorem mem_of_mem_splitExt {name : Str} {c : Char}
    (h : c ∈ (splitExt name).1 ∨ ∃ ext, (splitExt name).2 = some ext ∧ c ∈ ext) : c ∈ name := by
  unfold splitExt at h
  cases hsplit : rsplitOnce '.' name with
  | none => simpa [hsplit] using h
  | some cut =>
      obtain ⟨stem, ext⟩ := cut
      obtain ⟨rfl, -⟩ := rsplitOnce_eq_some_iff.mp hsplit
      rw [hsplit] at h
      dsimp only at h
      split at h
      · simpa using h
      · rw [List.mem_append, List.mem_cons]
        rcases h with h | ⟨e, he, h⟩
        · exact .inl h
        · cases he
          exact .inr (.inr h)

theorem isFileName_numberedName {filename : Str} (h : IsFileName filename) (i : Nat) :
    IsFileName (numberedName filename i) := by
  have hdigits : '/' ∉ decimal (i + 1) := fun hmem => absurd (isDigit_of_mem_decimal hmem) (by decide)
  have hstem : '/' ∉ (splitExt filename).1 := fun hmem => h.slash (mem_of_mem_splitExt (.inl hmem))
  unfold numberedName
  cases hext : (splitExt filename).2 with
  | none => exact isFileName_of_dash (by simp) (by simp [hdigits, hstem])
  | some ext =>
      have hslash : '/' ∉ ext := fun hmem => h.slash (mem_of_mem_splitExt (.inr ⟨ext, hext, hmem⟩))
      exact isFileName_of_dash (by simp) (by simp [hdigits, hstem, hslash])

/-- Every name that an attachment gets names an entry of the bundle. -/
theorem isFileName_of_mem_assign (u : Unicode) (attachments : List Attachment) {name : Str}
    (h : name ∈ assign numberedName [] ((prepareAttachments u attachments).map PreparedAttachment.filename)) :
    IsFileName name := by
  have hclosed : ∀ filename i, IsFileName filename → IsFileName (numberedName filename i) :=
    fun _ i hfile => isFileName_numberedName hfile i
  refine Taken.of_closed hclosed ((mem_assign_iff numberedName_injective).mp h) ?_
  intro filename hfilename
  obtain ⟨prepared, hprepared, rfl⟩ := List.mem_map.mp hfilename
  obtain ⟨index, hindex, rfl⟩ := List.mem_mapIdx.mp hprepared
  exact isFileName_sanitize u _ index

/-! ## The delivery -/

section Delivery

variable (u : Unicode) (t : Toml) (e : SenderMatch) (config : Config) (rcpt mailbox : Str) (raw : Bytes)
  (message : Message) (a : Arrival) (ts : Timestamp) (attachments : List Attachment) (d : MailDir)

/-- The subject of a message, as ingest takes it. -/
def subjectOf : Str := message.subject.getD "(no subject)".toList

/-- The record of the message, which lists the attachments that were written. -/
def recordFor (id : Str) : InboundFrontmatter :=
  inboundMeta e config rcpt mailbox raw message
    { a with id := id, attachments := (writeAttachmentsFrom [] (prepareAttachments u attachments)).2 }

/-- The text of the message file. -/
def messageText (id : Str) : Bytes :=
  utf8 (formatFrontmatter t (recordFor u e config rcpt mailbox raw message a attachments id) message.body)

/-- The storing part of `ingest_email` for a parsed message, where no call to the file system fails for
another reason than the files that are there. -/
def ingestAttachments : MailDir × Option StoredMessage :=
  store u d
    { timestamp := ts
      subject := subjectOf message
      attachments := (prepareAttachments u attachments).map fun p => (p.filename, p.body)
      content := messageText u t e config rcpt mailbox raw message a attachments
      failure := none }

/-- A bundle holds the attachments of a message beside its own file, and the record lists them. -/
structure HoldsAttachments (stem : Str) (files : List (Str × Bytes)) (m : InboundFrontmatter) : Prop where
  distinct : (files.map Prod.fst ++ [mdName stem]).Nodup
  inside : ∀ name ∈ files.map Prod.fst, IsFileName name
  bytes : files.map Prod.snd = attachments.map Attachment.contents
  listed : m.attachments.map AttachmentMeta.filename = files.map Prod.fst
  paths : m.attachments.map AttachmentMeta.path = files.map Prod.fst

/-- What is asked of the delivery: the message is stored, with its attachments if it has any. -/
def AttachmentsStored : Prop :=
  ∃ stem,
    (attachments = [] ∧ ingestAttachments u t e config rcpt mailbox raw message a ts attachments d =
      (d ++ [(mdName stem, .file (messageText u t e config rcpt mailbox raw message a attachments stem))],
        some ⟨stem, .flat stem⟩)) ∨
    ∃ files, ingestAttachments u t e config rcpt mailbox raw message a ts attachments d =
      (d ++ [(stem, .dir (files ++
        [(mdName stem, messageText u t e config rcpt mailbox raw message a attachments stem)]))],
        some ⟨stem, .bundle stem⟩) ∧
      HoldsAttachments attachments stem files
        (recordFor u e config rcpt mailbox raw message a attachments stem)

/-- The files of a bundle, without the message. -/
theorem writeAttachments_names :
    (writeAttachments ((prepareAttachments u attachments).map fun p => (p.filename, p.body))) =
      (assign numberedName [] ((prepareAttachments u attachments).map PreparedAttachment.filename)).zip
        (attachments.map Attachment.contents) := by
  have hbodies : (prepareAttachments u attachments).map PreparedAttachment.body =
      attachments.map Attachment.contents := by
    refine List.ext_getElem? fun i => ?_
    rw [prepareAttachments, List.getElem?_map, List.getElem?_mapIdx, List.getElem?_map]
    cases attachments[i]? <;> rfl
  rw [← writeAttachmentsFrom_files, (writeAttachmentsFrom_names [] _).1, hbodies]
  rfl

theorem length_prepareAttachments :
    ((prepareAttachments u attachments).map PreparedAttachment.filename).length = attachments.length := by
  rw [List.length_map, prepareAttachments, List.length_mapIdx]

/-- The bundle that is written holds the attachments, unless one of them has the name of the message. -/
theorem holdsAttachments {stem : Str}
    (h : mdName stem ∉
      assign numberedName [] ((prepareAttachments u attachments).map PreparedAttachment.filename)) :
    HoldsAttachments attachments stem
      (writeAttachments ((prepareAttachments u attachments).map fun p => (p.filename, p.body)))
      (recordFor u e config rcpt mailbox raw message a attachments stem) := by
  have hlength : (assign numberedName []
      ((prepareAttachments u attachments).map PreparedAttachment.filename)).length =
      (attachments.map Attachment.contents).length := by
    rw [length_assign, length_prepareAttachments, List.length_map]
  have hnames : (writeAttachments ((prepareAttachments u attachments).map fun p => (p.filename, p.body))).map
      Prod.fst =
        assign numberedName [] ((prepareAttachments u attachments).map PreparedAttachment.filename) := by
    rw [writeAttachments_names, List.map_fst_zip hlength.le]
  refine
    { distinct := ?_
      inside := ?_
      bytes := ?_
      listed := ?_
      paths := ?_ }
  · rw [hnames]
    refine List.Nodup.append (nodup_assign numberedName_injective _) (List.nodup_singleton _) ?_
    rwa [List.disjoint_singleton]
  · intro name hname
    rw [hnames] at hname
    exact isFileName_of_mem_assign u attachments hname
  · rw [writeAttachments_names, List.map_snd_zip hlength.ge]
  · rw [hnames]
    exact (writeAttachmentsFrom_names [] (prepareAttachments u attachments)).2.1
  · rw [hnames]
    exact (writeAttachmentsFrom_names [] (prepareAttachments u attachments)).2.2

/-- **The attachments that are stored.**  A message is stored with all of them, unless one of them gets the
name of the message file. -/
theorem attachmentsStored_iff :
    AttachmentsStored u t e config rcpt mailbox raw message a ts attachments d ↔
      ∀ stem, allocateFilename d ts (slugify u (subjectOf message)) (!attachments.isEmpty) =
          some (.bundle stem) →
        ¬ Taken numberedName ((prepareAttachments u attachments).map PreparedAttachment.filename)
          (mdName stem) := by
  have hempty : ((prepareAttachments u attachments).map fun p => (p.filename, p.body)) = [] ↔
      attachments = [] := by
    rw [List.map_eq_nil_iff, prepareAttachments, List.mapIdx_eq_nil_iff]
  obtain ⟨k, htaken, hfree, stem, hstem, -, hflat, hbundle⟩ :=
    store_cases (u := u) (d := d) (r :=
      { timestamp := ts
        subject := subjectOf message
        attachments := (prepareAttachments u attachments).map fun p => (p.filename, p.body)
        content := messageText u t e config rcpt mailbox raw message a attachments
        failure := none }) rfl
  have hisEmpty : ((prepareAttachments u attachments).map fun p => (p.filename, p.body)).isEmpty =
      attachments.isEmpty := by
    rw [Bool.eq_iff_iff, List.isEmpty_iff, List.isEmpty_iff]
    exact hempty
  dsimp only at htaken hfree hstem hflat hbundle
  rw [hisEmpty] at htaken hfree
  -- the stem of a bundle is the one that the allocation finds
  have hallocated : ∀ other, allocateFilename d ts (slugify u (subjectOf message)) (!attachments.isEmpty) =
      some (.bundle other) → other = stem := by
    intro other hother
    obtain ⟨j, hpath, hfree', htaken'⟩ := allocateFilename_eq_some hother
    have hjk : j = k := by
      rcases Nat.lt_trichotomy j k with hlt | heq | hlt
      · rw [htaken j hlt] at hfree'
        cases hfree'
      · exact heq
      · rw [htaken' k hlt] at hfree
        cases hfree
    split at hpath
    · cases hpath
      rw [hstem, hjk]
    · cases hpath
  by_cases hnone : attachments = []
  · refine iff_of_true ⟨stem, .inl ⟨hnone, hflat (hempty.mpr hnone)⟩⟩ ?_
    intro other hother
    obtain ⟨j, hpath, -⟩ := allocateFilename_eq_some hother
    rw [hnone] at hpath
    cases hpath
  · have hstore := hbundle (mt hempty.mp hnone)
    have hnames : (writeAttachments
        ((prepareAttachments u attachments).map fun p => (p.filename, p.body))).map Prod.fst =
        assign numberedName [] ((prepareAttachments u attachments).map PreparedAttachment.filename) := by
      rw [writeAttachments_names, List.map_fst_zip]
      rw [length_assign, length_prepareAttachments, List.length_map]
    rw [hnames] at hstore
    obtain ⟨path, hpath⟩ := allocateFilename_isSome d ts (isStem_slugify u (subjectOf message))
      (!attachments.isEmpty)
    obtain ⟨other, rfl⟩ : ∃ other, path = .bundle other := by
      obtain ⟨j, heq, -⟩ := allocateFilename_eq_some hpath
      rw [if_pos (by simpa using hnone)] at heq
      exact ⟨_, heq⟩
    obtain rfl := hallocated other hpath
    constructor
    · rintro ⟨other', ⟨hnone', -⟩ | ⟨files, hresult, -⟩⟩
      · exact absurd hnone' hnone
      · intro another hanother htakenName
        obtain rfl := hallocated another hanother
        -- the message file cannot be created beside the attachment of its name
        have hmem := (mem_assign_iff numberedName_injective).mpr htakenName
        rw [ingestAttachments, hstore, if_pos hmem] at hresult
        cases congrArg Prod.snd hresult
    · intro h
      have hfree' : mdName other ∉ assign numberedName []
          ((prepareAttachments u attachments).map PreparedAttachment.filename) :=
        mt (mem_assign_iff numberedName_injective).mp (h other hpath)
      refine ⟨other, .inr ⟨_, ?_, holdsAttachments u e config rcpt mailbox raw message a attachments hfree'⟩⟩
      rw [ingestAttachments, hstore, if_neg hfree']

end Delivery

/-- An attachment with the name that the message file will have. -/
def ownNameAttachment : Attachment := ⟨some "2025-01-01-000001-pay.md".toList, none, [0x78]⟩

/-- It makes the delivery fail. -/
theorem not_attachmentsStored_ownName :
    ¬ AttachmentsStored asciiUnicode (sampleToml []) plainMatch verifiedConfig "b@example.org".toList
      "b".toList [] forgedMessage forgedArrival ⟨2025, 1, 1, 0, 0, 1⟩ [ownNameAttachment] [] := by
  have hfails : (ingestAttachments asciiUnicode (sampleToml []) plainMatch verifiedConfig
      "b@example.org".toList "b".toList [] forgedMessage forgedArrival ⟨2025, 1, 1, 0, 0, 1⟩
      [ownNameAttachment] []).2 = none := by
    decide +kernel
  rintro ⟨stem, ⟨hnone, -⟩ | ⟨files, hstored, -⟩⟩
  · cases hnone
  · rw [hstored] at hfails
    cases hfails

end Ingest
end Aimx
