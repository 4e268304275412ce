import Aimx.Ingest.Slug
import Aimx.Text.FirstFree
import Aimx.Text.Utf8

/-!
# The mailbox directory

A mailbox directory as the daemon fills it: flat `.md` files and bundle directories, which share one
name space.  `store` is the part of `ingest_email` that allocates a name and writes, and
`resolveEmailPathStrict` finds a message by its id.

* `allocateFilename`, `store` — where a message goes;
* `enumerateEmailIds`, `resolveEmailPathStrict` — how it is found;
* `allocateFilename_isSome` — the search for a name ends;
* `identified_deliver_iff` — one delivery keeps ids apart exactly when a bundle meets no flat file of its
  stem;
* `identified_run_iff` — the same over every sequence of deliveries.
-/

namespace Aimx
namespace Ingest

open Text

/-! ## Directories -/

/-- An entry of a mailbox directory: a regular file, or a directory of regular files. -/
inductive Node
  | file (content : Bytes)
  | dir (files : List (Str × Bytes))
  deriving DecidableEq

/-- A mailbox directory. -/
abbrev MailDir := List (Str × Node)

/-- The entry of a name. -/
def MailDir.get (d : MailDir) (name : Str) : Option Node :=
  (d.find? fun e => e.1 == name).map Prod.snd

/-- `Path::exists`. -/
def MailDir.has (d : MailDir) (name : Str) : Bool := (d.get name).isSome

/-- Where a message is stored: `<stem>.md`, or `<stem>/<stem>.md`. -/
inductive MdPath
  | flat (stem : Str)
  | bundle (stem : Str)
  deriving DecidableEq

/-- The stem of a stored message. -/
def MdPath.stem : MdPath → Str
  | .flat stem => stem
  | .bundle stem => stem

/-- `format!("{stem}.md")`. -/
def mdName (stem : Str) : Str := stem ++ ".md".toList

/-- The id of a message: the stem of its file name. -/
def MdPath.id (path : MdPath) : Str := fileStem (mdName path.stem)

/-! ## Allocation -/

/-- What `allocate_filename` checks of one candidate. -/
def stemTaken (d : MailDir) (hasAttachments : Bool) (stem : Str) : Bool :=
  if hasAttachments then d.has stem else d.has (mdName stem) || d.has stem

/-- `allocate_filename`.  The loop is bounded by the number of entries; `allocateFilename_isSome` says
that it always ends before. -/
def allocateFilename (d : MailDir) (ts : Timestamp) (slug : Str) (hasAttachments : Bool) :
    Option MdPath :=
  let stem := numberedStem (baseStem ts slug)
  (firstFree (fun k => stemTaken d hasAttachments (stem k)) (d.length + 1)).map fun k =>
    if hasAttachments then .bundle (stem k) else .flat (stem k)

/-- `deduplicate_filename`. -/
def deduplicateFilename (files : List (Str × Bytes)) (filename : Str) : Str :=
  let taken (name : Str) : Bool := (files.find? fun f => f.1 == name).isSome
  if !taken filename then filename
  else
    let (stem, ext) := splitExt filename
    let candidate (i : Nat) : Str :=
      match ext with
      | some e => stem ++ '-' :: decimal (i + 1) ++ '.' :: e
      | none => stem ++ '-' :: decimal (i + 1)
    match firstFree (fun i => taken (candidate i)) (files.length + 1) with
    | some i => candidate i
    | none => filename

/-- `write_attachments`. -/
def writeAttachments (attachments : List (Str × Bytes)) : List (Str × Bytes) :=
  attachments.foldl (fun files a => files ++ [(deduplicateFilename files a.1, a.2)]) []

/-! ## Storing a message -/

/-- What a failed delivery leaves behind: nothing, a partly written file, or a directory that could not
be removed. -/
inductive Residue
  | nothing
  | file (content : Bytes)
  | dir (files : List (Str × Bytes))
  deriving DecidableEq

/-- One delivery into the mailbox: the time, the subject, the attachments, the text that is written for
an id, and, when a call to the file system fails, what is left. -/
structure Delivery where
  timestamp : Timestamp
  subject : Str
  attachments : List (Str × Bytes)
  content : Str → Bytes
  failure : Option Residue

/-- A message that has been stored. -/
structure StoredMessage where
  id : Str
  path : MdPath
  deriving DecidableEq

/-- The entry that a failed delivery leaves at the place it was writing to. -/
def Residue.entry (path : MdPath) : Residue → MailDir
  | .nothing => []
  | .file content =>
      match path with
      | .flat stem => [(mdName stem, .file content)]
      | .bundle _ => []
  | .dir files =>
      match path with
      | .flat _ => []
      | .bundle stem => [(stem, .dir files)]

/-- The writing part of `ingest_email`: allocate a name, write the attachments, write the message.  The
message is created as a new file, which fails when an attachment has its name; the bundle is removed
then. -/
def store (u : Unicode) (d : MailDir) (r : Delivery) : MailDir × Option StoredMessage :=
  let hasAttachments := !r.attachments.isEmpty
  match allocateFilename d r.timestamp (slugify u r.subject) hasAttachments with
  | none => (d, none)
  | some path =>
      match r.failure with
      | some residue => (d ++ residue.entry path, none)
      | none =>
          match path with
          | .flat stem => (d ++ [(mdName stem, .file (r.content path.id))], some ⟨path.id, path⟩)
          | .bundle stem =>
              let files := writeAttachments r.attachments
              if (files.find? fun f => f.1 == mdName stem).isSome then (d, none)
              else
                (d ++ [(stem, .dir (files ++ [(mdName stem, r.content path.id)]))],
                  some ⟨path.id, path⟩)

/-! ## Finding a message -/

/-- `resolve_email_path_strict`, on a directory without symbolic links. -/
def resolveEmailPathStrict (d : MailDir) (id : Str) : Option MdPath :=
  match d.get (mdName id) with
  | some (.file _) => some (.flat id)
  | some (.dir _) => none
  | none =>
      match d.get id with
      | some (.dir files) =>
          if (files.find? fun f => f.1 == mdName id).isSome then some (.bundle id) else none
      | _ => none

/-- `enumerate_email_ids`: each id with the path that a listing reads. -/
def enumerateEmailIds (d : MailDir) : List (Str × MdPath) :=
  d.filterMap fun e =>
    match e.2 with
    | .dir _ => some (e.1, .bundle e.1)
    | .file _ =>
        match splitExt e.1 with
        | (stem, some ext) => if ext = "md".toList then some (stem, .flat stem) else none
        | (_, none) => none

/-! ## The search for a name ends -/

theorem mdName_injective {s t : Str} (h : mdName s = mdName t) : s = t :=
  List.append_cancel_right h

theorem dot_mem_mdName (stem : Str) : '.' ∈ mdName stem := by simp [mdName]

/-- The id of a message is its stem. -/
theorem MdPath.id_eq {path : MdPath} (h : IsStem path.stem) : path.id = path.stem := by
  unfold MdPath.id fileStem
  have hslash : rsplitOnce '/' (mdName path.stem) = none := by
    cases hsplit : rsplitOnce '/' (mdName path.stem) with
    | none => rfl
    | some p =>
        obtain ⟨heq, -⟩ := rsplitOnce_eq_some_iff.mp hsplit
        have hmem : '/' ∈ mdName path.stem := by
          rw [heq]
          simp
        simp [mdName, h.slash] at hmem
  rw [hslash]
  have hext : splitExt (mdName path.stem) = (path.stem, some "md".toList) :=
    splitExt_append (by decide) h.ne_nil
  rw [hext]

theorem MailDir.mem_of_has {d : MailDir} {name : Str} (h : d.has name = true) :
    name ∈ d.map Prod.fst := by
  unfold MailDir.has MailDir.get at h
  rw [Option.isSome_map, List.find?_isSome] at h
  obtain ⟨e, he, hname⟩ := h
  exact List.mem_map.mpr ⟨e, he, by simpa using hname⟩

/-- The search of `allocate_filename` ends: an entry can only be in the way of one candidate. -/
theorem allocateFilename_isSome (d : MailDir) (ts : Timestamp) {slug : Str} (hslug : IsStem slug)
    (hasAttachments : Bool) : ∃ path, allocateFilename d ts slug hasAttachments = some path := by
  have hstem : ∀ k, IsStem (numberedStem (baseStem ts slug) k) := isStem_numberedStem hslug
  -- the entry that is in the way of a candidate
  let reason (k : Nat) : Str :=
    if d.has (numberedStem (baseStem ts slug) k) then numberedStem (baseStem ts slug) k
    else mdName (numberedStem (baseStem ts slug) k)
  have hreason : ∀ k, stemTaken d hasAttachments (numberedStem (baseStem ts slug) k) = true →
      reason k ∈ d.map Prod.fst := by
    intro k hk
    unfold stemTaken at hk
    by_cases hdir : d.has (numberedStem (baseStem ts slug) k) = true
    · simp only [reason, hdir, if_true]
      exact MailDir.mem_of_has hdir
    · simp only [reason, hdir, if_false, Bool.false_eq_true]
      apply MailDir.mem_of_has
      cases hasAttachments <;> simp_all
  have hinj : ∀ j k, reason j = reason k → j = k := by
    intro j k heq
    have hdot : ∀ i, '.' ∉ numberedStem (baseStem ts slug) i := fun i => (hstem i).dot
    by_cases hj : d.has (numberedStem (baseStem ts slug) j) = true <;>
      by_cases hk : d.has (numberedStem (baseStem ts slug) k) = true <;>
      simp only [reason, hj, hk, if_true, if_false, Bool.false_eq_true] at heq
    · exact numberedStem_injective heq
    · exact absurd (heq ▸ dot_mem_mdName _) (hdot j)
    · exact absurd (heq ▸ dot_mem_mdName _) (hdot k)
    · exact numberedStem_injective (mdName_injective heq)
  have hfuel : (d.map Prod.fst).length < d.length + 1 := by simp
  obtain ⟨k, hk⟩ := exists_firstFree hreason (fun j k _ _ => hinj j k) hfuel
  exact ⟨_, Option.map_eq_some_iff.mpr ⟨k, hk, rfl⟩⟩

/-- What `allocate_filename` returns. -/
theorem allocateFilename_eq_some {d : MailDir} {ts : Timestamp} {slug : Str} {hasAttachments : Bool}
    {path : MdPath} (h : allocateFilename d ts slug hasAttachments = some path) :
    ∃ k, path = (if hasAttachments then .bundle (numberedStem (baseStem ts slug) k)
        else .flat (numberedStem (baseStem ts slug) k)) ∧
      stemTaken d hasAttachments (numberedStem (baseStem ts slug) k) = false ∧
      ∀ j < k, stemTaken d hasAttachments (numberedStem (baseStem ts slug) j) = true := by
  obtain ⟨k, hk, rfl⟩ := Option.map_eq_some_iff.mp h
  obtain ⟨-, hfree, htaken⟩ := firstFree_eq_some_iff.mp hk
  exact ⟨k, rfl, hfree, htaken⟩

/-! ## One more entry -/

theorem MailDir.get_append (d : MailDir) (n name : Str) (node : Node) (h : d.has n = false) :
    MailDir.get (d ++ [(n, node)]) name = if n = name then some node else d.get name := by
  unfold MailDir.has MailDir.get at h
  unfold MailDir.get
  rw [List.find?_append]
  by_cases hn : n = name
  · subst hn
    rw [Option.isSome_eq_false_iff, Option.isNone_iff_eq_none, Option.map_eq_none_iff] at h
    simp [h]
  · simp [hn]

/-- A message that is found is at a name that exists. -/
theorem has_of_resolve {d : MailDir} {id : Str} {path : MdPath}
    (h : resolveEmailPathStrict d id = some path) : d.has (mdName id) = true ∨ d.has id = true := by
  unfold resolveEmailPathStrict at h
  unfold MailDir.has
  split at h
  next hflat => simp [hflat]
  next => cases h
  next =>
      split at h
      next hbundle => simp [hbundle]
      next => cases h

/-- A name of which neither form exists is not found. -/
theorem resolve_eq_none {d : MailDir} {id : Str} (hfile : d.has (mdName id) = false)
    (hdir : d.has id = false) : resolveEmailPathStrict d id = none := by
  by_contra hne
  obtain ⟨path, hpath⟩ := Option.ne_none_iff_exists'.mp hne
  rcases has_of_resolve hpath with hhas | hhas
  · rw [hfile] at hhas
    cases hhas
  · rw [hdir] at hhas
    cases hhas

/-- A new flat entry changes nothing for the messages that were found before. -/
theorem resolve_append_flat {d : MailDir} {stem id : Str} {node : Node} {path : MdPath}
    (hid : '.' ∉ id) (hfile : d.has (mdName stem) = false) (hdir : d.has stem = false)
    (h : resolveEmailPathStrict d id = some path) :
    resolveEmailPathStrict (d ++ [(mdName stem, node)]) id = some path := by
  have hne : mdName stem ≠ id := fun heq => hid (heq ▸ dot_mem_mdName stem)
  have hmd : mdName stem ≠ mdName id := by
    intro heq
    obtain rfl := mdName_injective heq
    rw [resolve_eq_none hfile hdir] at h
    cases h
  rw [← h]
  unfold resolveEmailPathStrict
  rw [MailDir.get_append d _ _ _ hfile, MailDir.get_append d _ _ _ hfile, if_neg hmd, if_neg hne]

/-- A new bundle entry changes nothing for the messages that were found before. -/
theorem resolve_append_bundle {d : MailDir} {stem id : Str} {node : Node} {path : MdPath}
    (hstem : '.' ∉ stem) (hdir : d.has stem = false)
    (h : resolveEmailPathStrict d id = some path) :
    resolveEmailPathStrict (d ++ [(stem, node)]) id = some path := by
  have hmd : stem ≠ mdName id := fun heq => hstem (heq ▸ dot_mem_mdName id)
  by_cases hne : stem = id
  · -- a flat file of that stem is found first, as before
    subst hne
    unfold resolveEmailPathStrict at h ⊢
    rw [MailDir.get_append d _ _ _ hdir, if_neg hmd]
    split at h
    next hflat => exact h
    next => cases h
    next =>
        unfold MailDir.has at hdir
        split at h
        next hbundle =>
            rw [hbundle] at hdir
            cases hdir
        next => cases h
  · rw [← h]
    unfold resolveEmailPathStrict
    rw [MailDir.get_append d _ _ _ hdir, MailDir.get_append d _ _ _ hdir, if_neg hmd, if_neg hne]

/-! ## Ids identify messages -/

/-- The stored messages have distinct ids, and each is found by its own. -/
structure Identified (d : MailDir) (stored : List StoredMessage) : Prop where
  distinct : (stored.map StoredMessage.id).Nodup
  found : ∀ s ∈ stored, resolveEmailPathStrict d s.id = some s.path

/-- A delivery that stores a bundle meets no flat file of the stem that it takes: the first one without
a directory, unless an attachment has the name of the message. -/
def NoFlatTwin (u : Unicode) (d : MailDir) (r : Delivery) : Prop :=
  r.attachments ≠ [] → r.failure = none →
    ∀ k, (∀ j < k, d.has (numberedStem (baseStem r.timestamp (slugify u r.subject)) j) = true) →
      d.has (numberedStem (baseStem r.timestamp (slugify u r.subject)) k) = false →
      mdName (numberedStem (baseStem r.timestamp (slugify u r.subject)) k) ∉
        (writeAttachments r.attachments).map Prod.fst →
      d.has (mdName (numberedStem (baseStem r.timestamp (slugify u r.subject)) k)) = false

/-- The messages that were found before a delivery are found after it. -/
theorem resolve_store {u : Unicode} {d : MailDir} {r : Delivery} {id : Str} {path : MdPath}
    (hid : '.' ∉ id) (h : resolveEmailPathStrict d id = some path) :
    resolveEmailPathStrict (store u d r).1 id = some path := by
  unfold store
  dsimp only
  split
  next => exact h
  next new hnew =>
      obtain ⟨k, rfl, hfree, -⟩ := allocateFilename_eq_some hnew
      have hstem := @isStem_numberedStem r.timestamp _ (isStem_slugify u r.subject) k
      generalize numberedStem (baseStem r.timestamp (slugify u r.subject)) k = stem at hfree hstem ⊢
      cases hatt : !r.attachments.isEmpty with
      | false =>
          simp only [hatt, stemTaken, Bool.false_eq_true, if_false, Bool.or_eq_false_iff] at hfree ⊢
          cases r.failure with
          | none => exact resolve_append_flat hid hfree.1 hfree.2 h
          | some residue =>
              cases residue with
              | nothing => simpa [Residue.entry] using h
              | file content => exact resolve_append_flat hid hfree.1 hfree.2 h
              | dir files => simpa [Residue.entry] using h
      | true =>
          simp only [hatt, stemTaken, if_true] at hfree ⊢
          cases r.failure with
          | none =>
              dsimp only
              split
              · exact h
              · exact resolve_append_bundle hstem.dot hfree h
          | some residue =>
              cases residue with
              | nothing => simpa [Residue.entry] using h
              | file content => simpa [Residue.entry] using h
              | dir files => exact resolve_append_bundle hstem.dot hfree h

/-- A new flat file is found. -/
theorem resolve_new_flat {d : MailDir} {stem : Str} {content : Bytes}
    (hfile : d.has (mdName stem) = false) :
    resolveEmailPathStrict (d ++ [(mdName stem, .file content)]) stem = some (.flat stem) := by
  unfold resolveEmailPathStrict
  rw [MailDir.get_append d _ _ _ hfile, if_pos rfl]

/-- A new bundle is found exactly when there is no flat file of its stem. -/
theorem resolve_new_bundle {d : MailDir} {stem : Str} {files : List (Str × Bytes)} {content : Bytes}
    (hstem : '.' ∉ stem) (hdir : d.has stem = false) :
    resolveEmailPathStrict (d ++ [(stem, .dir (files ++ [(mdName stem, content)]))]) stem =
        some (.bundle stem) ↔ d.has (mdName stem) = false := by
  have hmd : stem ≠ mdName stem := fun heq => hstem (heq ▸ dot_mem_mdName stem)
  unfold resolveEmailPathStrict
  rw [MailDir.get_append d _ _ _ hdir, MailDir.get_append d _ _ _ hdir, if_neg hmd, if_pos rfl]
  unfold MailDir.has
  cases hget : d.get (mdName stem) with
  | some node =>
      cases node with
      | file content' => simp
      | dir files' => simp
  | none =>
      -- the message is the last file of its bundle
      simp

/-- What a delivery does when nothing fails: a new flat file, or, when no attachment has the name of the
message, a new bundle. -/
theorem store_cases {u : Unicode} {d : MailDir} {r : Delivery} (hfailure : r.failure = none) :
    ∃ k, (∀ j < k, stemTaken d (!r.attachments.isEmpty)
        (numberedStem (baseStem r.timestamp (slugify u r.subject)) j) = true) ∧
      stemTaken d (!r.attachments.isEmpty)
        (numberedStem (baseStem r.timestamp (slugify u r.subject)) k) = false ∧
      ∃ stem, stem = numberedStem (baseStem r.timestamp (slugify u r.subject)) k ∧ IsStem stem ∧
        (r.attachments = [] → store u d r =
          (d ++ [(mdName stem, .file (r.content stem))], some ⟨stem, .flat stem⟩)) ∧
        (r.attachments ≠ [] → store u d r =
          if mdName stem ∈ (writeAttachments r.attachments).map Prod.fst then (d, none)
          else (d ++ [(stem, .dir (writeAttachments r.attachments ++
            [(mdName stem, r.content stem)]))], some ⟨stem, .bundle stem⟩)) := by
  obtain ⟨path, hpath⟩ := allocateFilename_isSome d r.timestamp (isStem_slugify u r.subject)
    (!r.attachments.isEmpty)
  obtain ⟨k, rfl, hfree, htaken⟩ := allocateFilename_eq_some hpath
  have hstem := @isStem_numberedStem r.timestamp _ (isStem_slugify u r.subject) k
  have hflat : (MdPath.flat (numberedStem (baseStem r.timestamp (slugify u r.subject)) k)).id =
      numberedStem (baseStem r.timestamp (slugify u r.subject)) k := MdPath.id_eq hstem
  have hbundle : (MdPath.bundle (numberedStem (baseStem r.timestamp (slugify u r.subject)) k)).id =
      numberedStem (baseStem r.timestamp (slugify u r.subject)) k := MdPath.id_eq hstem
  refine ⟨k, htaken, hfree, _, rfl, hstem, ?_, ?_⟩
  · intro hnone
    unfold store
    dsimp only
    rw [hpath]
    dsimp only
    rw [hfailure]
    simp only [hnone, List.isEmpty_nil, Bool.not_true, Bool.false_eq_true, if_false, hflat]
  · intro hsome
    have hatt : (!r.attachments.isEmpty) = true := by simpa using hsome
    unfold store
    dsimp only
    rw [hpath]
    dsimp only
    rw [hfailure, hatt]
    have hmem : ((writeAttachments r.attachments).find? fun f => f.1 == mdName
        (numberedStem (baseStem r.timestamp (slugify u r.subject)) k)).isSome = true ↔
        mdName (numberedStem (baseStem r.timestamp (slugify u r.subject)) k) ∈
          (writeAttachments r.attachments).map Prod.fst := by
      rw [List.find?_isSome, List.mem_map]
      simp only [beq_iff_eq]
    simp only [if_true, hbundle, hmem]

/-- A failed delivery stores nothing. -/
theorem store_failed {u : Unicode} {d : MailDir} {r : Delivery} {residue : Residue}
    (hfailure : r.failure = some residue) : (store u d r).2 = none := by
  unfold store
  dsimp only
  rw [hfailure]
  split
  · rfl
  · rfl

/-- The messages that the mailbox holds, next to its directory. -/
structure MailboxState where
  dir : MailDir
  stored : List StoredMessage

/-- The empty mailbox. -/
def MailboxState.empty : MailboxState := ⟨[], []⟩

/-- The state after one delivery. -/
def MailboxState.deliver (u : Unicode) (st : MailboxState) (r : Delivery) : MailboxState :=
  ⟨(store u st.dir r).1, st.stored ++ (store u st.dir r).2.toList⟩

/-- The state after a sequence of deliveries into an empty mailbox. -/
def afterDeliveries (u : Unicode) (rs : List Delivery) : MailboxState :=
  rs.foldl (MailboxState.deliver u) .empty

/-- The ids of the stored messages are path components. -/
def Named (st : MailboxState) : Prop := ∀ s ∈ st.stored, IsStem s.id

/-- Adding a message that is found, with an id of its own, keeps the messages identified. -/
theorem Identified.concat {d d' : MailDir} {stored : List StoredMessage} {s : StoredMessage}
    (h : Identified d stored)
    (hold : ∀ t ∈ stored, resolveEmailPathStrict d' t.id = some t.path)
    (hnew : resolveEmailPathStrict d' s.id = some s.path)
    (hfresh : resolveEmailPathStrict d s.id = none) : Identified d' (stored ++ [s]) where
  distinct := by
    rw [List.map_append, List.nodup_append]
    refine ⟨h.distinct, List.nodup_singleton _, ?_⟩
    intro a ha b hb heq
    obtain ⟨t, ht, rfl⟩ := List.mem_map.mp ha
    obtain rfl := List.mem_singleton.mp hb
    have hfound := h.found t ht
    rw [heq, hfresh] at hfound
    cases hfound
  found := by
    intro t ht
    rcases List.mem_append.mp ht with ht | ht
    · exact hold t ht
    · rw [List.mem_singleton.mp ht]
      exact hnew

/-- **One delivery** keeps the messages identified exactly when no bundle takes the stem of a flat
file. -/
theorem identified_deliver_iff {u : Unicode} {st : MailboxState} {r : Delivery}
    (h : Identified st.dir st.stored) (hnamed : Named st) :
    Identified (st.deliver u r).dir (st.deliver u r).stored ↔ NoFlatTwin u st.dir r := by
  have hold : ∀ t ∈ st.stored, resolveEmailPathStrict (store u st.dir r).1 t.id = some t.path :=
    fun t ht => resolve_store (hnamed t ht).dot (h.found t ht)
  have hkeep : (store u st.dir r).2 = none →
      Identified (st.deliver u r).dir (st.deliver u r).stored := by
    intro hnone
    unfold MailboxState.deliver
    rw [hnone, Option.toList_none, List.append_nil]
    exact ⟨h.distinct, hold⟩
  cases hfailure : r.failure with
  | some residue =>
      refine ⟨fun _ _ hnone => ?_, fun _ => hkeep (store_failed hfailure)⟩
      rw [hfailure] at hnone
      cases hnone
  | none =>
      obtain ⟨k, htaken, hfree, stem, hstemEq, hstem, hflat, hbundle⟩ :=
        @store_cases u st.dir r hfailure
      by_cases hatt : r.attachments = []
      · -- a flat message takes a name of which neither form exists
        refine ⟨fun _ hne => absurd hatt hne, fun _ => ?_⟩
        simp only [hatt, List.isEmpty_nil, Bool.not_true, stemTaken, Bool.false_eq_true, if_false,
          Bool.or_eq_false_iff, ← hstemEq] at hfree
        rw [hflat hatt] at hold
        unfold MailboxState.deliver
        rw [hflat hatt]
        exact h.concat hold (resolve_new_flat hfree.1) (resolve_eq_none hfree.1 hfree.2)
      · have hatt' : (!r.attachments.isEmpty) = true := by simpa using hatt
        simp only [hatt', stemTaken, if_true] at hfree htaken
        rw [← hstemEq] at hfree
        -- the first stem without an entry is the one that was allocated
        have hfirst : ∀ k', (∀ j < k', st.dir.has
            (numberedStem (baseStem r.timestamp (slugify u r.subject)) j) = true) →
            st.dir.has (numberedStem (baseStem r.timestamp (slugify u r.subject)) k') = false →
            k' = k := by
          intro k' htaken' hfree'
          rcases lt_trichotomy k' k with hlt | heq | hlt
          · rw [htaken k' hlt] at hfree'
            cases hfree'
          · exact heq
          · have hhas := htaken' k hlt
            rw [← hstemEq, hfree] at hhas
            cases hhas
        by_cases hclash : mdName stem ∈ (writeAttachments r.attachments).map Prod.fst
        · -- an attachment is in the way of the message, and nothing is stored
          have hnone : (store u st.dir r).2 = none := by rw [hbundle hatt, if_pos hclash]
          refine ⟨fun _ _ _ k' htaken' hfree' hclash' => ?_, fun _ => hkeep hnone⟩
          obtain rfl := hfirst k' htaken' hfree'
          rw [← hstemEq] at hclash'
          exact absurd hclash hclash'
        · have hstore := hbundle hatt
          rw [if_neg hclash] at hstore
          have hnew := @resolve_new_bundle st.dir stem (writeAttachments r.attachments)
            (r.content stem) hstem.dot hfree
          constructor
          · intro hident _ _ k' htaken' hfree' _
            obtain rfl := hfirst k' htaken' hfree'
            rw [← hstemEq]
            apply hnew.mp
            have hfound := hident.found ⟨stem, .bundle stem⟩
            unfold MailboxState.deliver at hfound
            rw [hstore] at hfound
            exact hfound (by simp)
          · intro htwin
            have hno : st.dir.has (mdName stem) = false := by
              have hno := htwin hatt hfailure k htaken
              rw [← hstemEq] at hno
              exact hno hfree hclash
            rw [hstore] at hold
            unfold MailboxState.deliver
            rw [hstore]
            exact h.concat hold (hnew.mpr hno) (resolve_eq_none hno hfree)

/-! ## Over every sequence of deliveries -/

theorem afterDeliveries_concat (u : Unicode) (rs : List Delivery) (r : Delivery) :
    afterDeliveries u (rs ++ [r]) = (afterDeliveries u rs).deliver u r := by
  unfold afterDeliveries
  rw [List.foldl_append]
  rfl

/-- The ids in a mailbox are path components. -/
theorem named_afterDeliveries (u : Unicode) (rs : List Delivery) : Named (afterDeliveries u rs) := by
  induction rs using List.reverseRecOn with
  | nil =>
      intro s hs
      cases hs
  | append_singleton rs r ih =>
      rw [afterDeliveries_concat]
      intro s hs
      rcases List.mem_append.mp hs with hs | hs
      · exact ih s hs
      · rw [Option.mem_toList] at hs
        cases hfailure : r.failure with
        | some residue =>
            rw [store_failed hfailure] at hs
            cases hs
        | none =>
            obtain ⟨k, -, -, stem, -, hstem, hflat, hbundle⟩ :=
              @store_cases u (afterDeliveries u rs).dir r hfailure
            by_cases hatt : r.attachments = []
            · rw [hflat hatt] at hs
              cases hs
              exact hstem
            · rw [hbundle hatt] at hs
              split at hs
              · cases hs
              · cases hs
                exact hstem

/-- **Ids identify messages.**  In every state of a sequence of deliveries the messages have distinct
ids, by which each is found, exactly when no delivery stores a bundle under the stem of a flat file. -/
theorem identified_run_iff (u : Unicode) (rs : List Delivery) :
    (∀ past, past <+: rs →
        Identified (afterDeliveries u past).dir (afterDeliveries u past).stored) ↔
      ∀ past r, past ++ [r] <+: rs → NoFlatTwin u (afterDeliveries u past).dir r := by
  constructor
  · intro h past r hpast
    have hbefore := h past ((List.prefix_append past [r]).trans hpast)
    have hafter := h (past ++ [r]) hpast
    rw [afterDeliveries_concat] at hafter
    exact (identified_deliver_iff hbefore (named_afterDeliveries u past)).mp hafter
  · intro h past
    induction past using List.reverseRecOn with
    | nil =>
        intro _
        exact ⟨List.nodup_nil, fun s hs => by cases hs⟩
    | append_singleton past r ih =>
        intro hpast
        have hbefore := ih ((List.prefix_append past [r]).trans hpast)
        rw [afterDeliveries_concat]
        exact (identified_deliver_iff hbefore (named_afterDeliveries u past)).mpr (h past r hpast)

/-- A message that is found by its id is listed under it. -/
theorem mem_enumerateEmailIds_of_resolve {d : MailDir} {id : Str} {path : MdPath} (hid : IsStem id)
    (h : resolveEmailPathStrict d id = some path) : (id, path) ∈ enumerateEmailIds d := by
  have hmem : ∀ {name : Str} {node : Node}, d.get name = some node → (name, node) ∈ d := by
    intro name node hget
    obtain ⟨e, hfind, rfl⟩ := Option.map_eq_some_iff.mp hget
    have hname := List.find?_some hfind
    rw [beq_iff_eq] at hname
    rw [← hname]
    exact List.mem_of_find?_eq_some hfind
  have hsplit : splitExt (mdName id) = (id, some "md".toList) := splitExt_append (by decide) hid.ne_nil
  unfold resolveEmailPathStrict at h
  split at h
  next hflat =>
      cases h
      refine List.mem_filterMap.mpr ⟨_, hmem hflat, ?_⟩
      dsimp only
      rw [hsplit]
      dsimp only
      rw [if_pos rfl]
  next => cases h
  next =>
      split at h
      next hbundle =>
          split at h
          · cases h
            exact List.mem_filterMap.mpr ⟨_, hmem hbundle, rfl⟩
          · cases h
      next => cases h

/-! ## A flat file and a bundle of one second -/

/-- ASCII text is its own normal form. -/
def asciiUnicode : Unicode where
  nfc := id
  toLowercase := toAsciiLowercase
  isAlphanumericHigh := fun _ => false

/-- A delivery in one and the same second. -/
def sampleDelivery (subject : Str) (attachments : List (Str × Bytes)) : Delivery where
  timestamp := ⟨2026, 1, 1, 12, 0, 0⟩
  subject := subject
  attachments := attachments
  content := utf8
  failure := none

/-- A message without attachments, then one with an attachment and a subject of the same slug. -/
def clashingDeliveries : List Delivery :=
  [sampleDelivery "Report".toList [],
    sampleDelivery "report!".toList [("a.pdf".toList, [1, 2, 3])]]

/-- A message without attachments and one with, of one subject and second, get one id, and the id finds
the first for both. -/
theorem flat_then_bundle_share_id :
    (afterDeliveries asciiUnicode clashingDeliveries).stored =
        [⟨"2026-01-01-120000-report".toList, .flat "2026-01-01-120000-report".toList⟩,
          ⟨"2026-01-01-120000-report".toList, .bundle "2026-01-01-120000-report".toList⟩] ∧
      resolveEmailPathStrict (afterDeliveries asciiUnicode clashingDeliveries).dir
          "2026-01-01-120000-report".toList =
        some (.flat "2026-01-01-120000-report".toList) := by
  decide +kernel

end Ingest
end Aimx
