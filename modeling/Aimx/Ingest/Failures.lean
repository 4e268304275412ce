import Aimx.Ingest.Durable

/-!
# Failing deliveries

`ingest_email` call by call, where each call to the file system may fail.  A bundle is removed after a
failure, as far as the removal succeeds; a flat file is not.

* `storeFaulty`, `ingestEmail` — the delivery;
* `storeFaulty_refines` — what it leaves is a residue of the coarser model;
* `NoTrace` — what is asked of a failed delivery;
* `noTrace_iff` — the failures that leave no trace.
-/

namespace Aimx
namespace Ingest

open Text

/-! ## Failures -/

/-- How the writing of an attachment fails: no file, or the first bytes only. -/
inductive AttachmentFault
  | notCreated
  | cut (written : Nat)
  deriving DecidableEq

/-- What fails during one delivery: making the inbox, reading entries for the duplicate store, making the
parent directory, the writing of each attachment, creating the message file, writing it, which leaves its
first bytes, and removing the bundle, which leaves some of its files. -/
structure IngestFaults where
  inbox : Bool
  readable : Str → Bool
  parent : Bool
  attachment : Nat → Option AttachmentFault
  create : Bool
  write : Option Nat
  cleanup : Option (Str → Bool)

/-- Nothing fails. -/
def IngestFaults.none : IngestFaults where
  inbox := false
  readable := fun _ => true
  parent := false
  attachment := fun _ => .none
  create := false
  write := .none
  cleanup := .none

/-! ## The delivery -/

/-- `write_attachments` up to the first failure, and whether there is none. -/
def writeUntilFault (fault : Nat → Option AttachmentFault) :
    Nat → List (Str × Bytes) → List (Str × Bytes) → List (Str × Bytes) × Bool
  | _, files, [] => (files, true)
  | k, files, a :: atts =>
      match fault k with
      | none => writeUntilFault fault (k + 1) (files ++ [(deduplicateFilename files a.1, a.2)]) atts
      | some .notCreated => (files, false)
      | some (.cut written) => (files ++ [(deduplicateFilename files a.1, a.2.take written)], false)

/-- `cleanup_bundle`. -/
def cleanupBundle (cleanup : Option (Str → Bool)) (d : MailDir) (stem : Str)
    (files : List (Str × Bytes)) : MailDir :=
  match cleanup with
  | none => d
  | some keep => d ++ [(stem, .dir (files.filter fun file => keep file.1))]

/-- The part of `ingest_email` that writes. -/
def storeFaulty (u : Unicode) (d : MailDir) (r : Delivery) (f : IngestFaults) :
    MailDir × Option StoredMessage :=
  match allocateFilename d r.timestamp (slugify u r.subject) (!r.attachments.isEmpty) with
  | none => (d, none)
  | some path =>
      if f.parent then (d, none)
      else
        match path with
        | .flat stem =>
            if f.create then (d, none)
            else
              match f.write with
              | some written => (d ++ [(mdName stem, .file ((r.content path.id).take written))], none)
              | none => (d ++ [(mdName stem, .file (r.content path.id))], some ⟨path.id, path⟩)
        | .bundle stem =>
            match writeUntilFault f.attachment 0 [] r.attachments with
            | (files, false) => (cleanupBundle f.cleanup d stem files, none)
            | (files, true) =>
                if f.create || (files.find? fun file => file.1 == mdName stem).isSome then
                  (cleanupBundle f.cleanup d stem files, none)
                else
                  match f.write with
                  | some written =>
                      (cleanupBundle f.cleanup d stem
                        (files ++ [(mdName stem, (r.content path.id).take written)]), none)
                  | none =>
                      (d ++ [(stem, .dir (files ++ [(mdName stem, r.content path.id)]))],
                        some ⟨path.id, path⟩)

/-- A mailbox: its directory, and the duplicate store if it has been built. -/
structure MailboxStore where
  dir : MailDir
  cache : Option Cache

/-- What the check for duplicates finds. -/
inductive DuplicateCheck
  | panicked
  | duplicate (cache : Option Cache)
  | fresh (cache : Option Cache)

/-- The check for duplicates, which builds the store if there is none. -/
def checkDuplicate (env : Env) (now : Int) (raw : Bytes) (readable : Str → Bool) (st : MailboxStore) :
    DuplicateCheck :=
  if env.messageId raw = [] then .fresh st.cache
  else
    match st.cache.or
        (buildDedupCacheFromDisk env.chrono now (st.dir.filter fun e => readable e.1)) with
    | none => .panicked
    | some cache =>
        if env.makeDedupSparkv.containsKey cache now (env.messageId raw) then .duplicate (some cache)
        else .fresh (some cache)

/-- How a delivery ends. -/
inductive Outcome
  | stored (s : StoredMessage)
  | duplicate
  | failed
  | panicked
  deriving DecidableEq

/-! ## The messages of a mailbox -/

/-- The content of the file of a message. -/
def readMessage (d : MailDir) : MdPath → Option Bytes
  | .flat stem =>
      match d.get (mdName stem) with
      | some (.file content) => some content
      | _ => none
  | .bundle stem =>
      match d.get stem with
      | some (.dir files) => (files.find? fun file => file.1 == mdName stem).map Prod.snd
      | _ => none

/-- The messages of a mailbox: what is enumerated and has a file, with its content. -/
def messages (d : MailDir) : List (Str × MdPath × Bytes) :=
  (enumerateEmailIds d).filterMap fun m => (readMessage d m.2).map fun content => (m.1, m.2, content)

section Ingest

variable (env : Env) (config : Config) (rcpt mailbox : Str) (raw : Bytes) (now : Int) (wr : Writing)

/-- `ingest_email` for a mailbox that the recipient is routed to. -/
def ingestEmail (f : IngestFaults) (st : MailboxStore) : MailboxStore × Outcome :=
  if f.inbox then (st, .failed)
  else
    match env.parse raw with
    | none => (st, .failed)
    | some message =>
        match checkDuplicate env now raw f.readable st with
        | .panicked => (st, .panicked)
        | .duplicate cache => (⟨st.dir, cache⟩, .duplicate)
        | .fresh cache =>
            match storeFaulty env.unicode st.dir (wr.delivery env config rcpt mailbox raw message) f with
            | (dir, none) => (⟨dir, cache⟩, .failed)
            | (dir, some s) =>
                (⟨dir, cache.map fun cache =>
                  env.makeDedupSparkv.enter cache now (env.messageId raw) s.id⟩, .stored s)

/-! ## What is asked of a failed delivery -/

/-- Neither the duplicate store nor one that is built after a restart knows the message. -/
structure Unknown (st : MailboxStore) : Prop where
  live : ∀ cache, st.cache = some cache → ∀ t, now ≤ t →
    env.makeDedupSparkv.containsKey cache t (env.messageId raw) = false
  restarted : ∀ t cache, buildDedupCacheFromDisk env.chrono t st.dir = some cache →
    env.makeDedupSparkv.containsKey cache t (env.messageId raw) = false

/-- A delivery of the same message without failures stores all of it, unless an attachment gets the name
of the message file or the duplicate store cannot be built. -/
def RetryStores (st : MailboxStore) : Prop :=
  ∀ (message : Message) (now' : Int) (again : Writing), env.parse raw = some message → now ≤ now' →
    again.attachments = wr.attachments →
    (∀ t, buildDedupCacheFromDisk env.chrono t st.dir ≠ none) →
    (∀ stem, allocateFilename st.dir again.timestamp
        (slugify env.unicode (again.delivery env config rcpt mailbox raw message).subject)
          (!wr.attachments.isEmpty) = some (.bundle stem) →
      mdName stem ∉ (writeAttachments wr.attachments).map Prod.fst) →
    ∃ stem s, (ingestEmail env config rcpt mailbox raw now' again .none st).2 = .stored s ∧
      (ingestEmail env config rcpt mailbox raw now' again .none st).1.dir = st.dir ++
        [if wr.attachments = [] then
            (mdName stem, .file ((again.delivery env config rcpt mailbox raw message).content stem))
          else (stem, .dir (writeAttachments wr.attachments ++
            [(mdName stem, (again.delivery env config rcpt mailbox raw message).content stem)]))]

/-- What is asked of a failed delivery: the messages are those that were there, the message is unknown
if it was, and a retry stores it, in this daemon or after a restart. -/
structure NoTrace (st st' : MailboxStore) : Prop where
  listed : ∀ m, m ∈ messages st'.dir ↔ m ∈ messages st.dir
  found : ∀ id, resolveEmailPathStrict st'.dir id = resolveEmailPathStrict st.dir id
  unknown : Unknown env raw now st → Unknown env raw now st'
  retry : Unknown env raw now st → RetryStores env config rcpt mailbox raw now wr st'
  restart : Unknown env raw now st → RetryStores env config rcpt mailbox raw now wr ⟨st'.dir, none⟩

/-! ## When it holds -/

/-- The failures that leave no message: those before a flat message is created, those of a bundle whose
removal removes its message file or that come before there is one, or none. -/
def LeavesNothing (d : MailDir) (r : Delivery) (f : IngestFaults) : Prop :=
  f.parent = true ∨ ∀ path,
    allocateFilename d r.timestamp (slugify env.unicode r.subject) (!r.attachments.isEmpty) =
        some path →
      match path with
      | .flat _ => f.create = false → f.write = none
      | .bundle stem =>
          (∀ keep, f.cleanup = some keep → keep (mdName stem) = false) ∨
            mdName stem ∉ (writeUntilFault f.attachment 0 [] r.attachments).1.map Prod.fst ∧
              ((∀ k < r.attachments.length, f.attachment k = none) → f.create = false →
                f.write = none)

end Ingest

/-! ## The writing -/

theorem writeUntilFault_ok_iff (fault : Nat → Option AttachmentFault) (k : Nat)
    (files atts : List (Str × Bytes)) :
    (writeUntilFault fault k files atts).2 = true ↔ ∀ i < atts.length, fault (k + i) = none := by
  induction atts generalizing k files with
  | nil => simp [writeUntilFault]
  | cons a atts ih =>
      have hsplit : (∀ i < (a :: atts).length, fault (k + i) = none) ↔
          fault k = none ∧ ∀ i < atts.length, fault (k + 1 + i) = none := by
        constructor
        · intro h
          refine ⟨h 0 (by simp), fun i hi => ?_⟩
          rw [show k + 1 + i = k + (i + 1) by omega]
          exact h (i + 1) (by simpa using hi)
        · rintro ⟨hfirst, hrest⟩ i hi
          cases i with
          | zero => exact hfirst
          | succ i =>
              rw [show k + (i + 1) = k + 1 + i by omega]
              exact hrest i (by simpa using hi)
      rw [hsplit, writeUntilFault]
      cases hfault : fault k with
      | none =>
          dsimp only
          rw [ih]
          simp
      | some fault => cases fault <;> simp

/-- Without a failure all attachments are written. -/
theorem writeUntilFault_files {fault : Nat → Option AttachmentFault} {k : Nat}
    {files atts : List (Str × Bytes)} (h : (writeUntilFault fault k files atts).2 = true) :
    (writeUntilFault fault k files atts).1 =
      atts.foldl (fun files a => files ++ [(deduplicateFilename files a.1, a.2)]) files := by
  induction atts generalizing k files with
  | nil => rfl
  | cons a atts ih =>
      rw [writeUntilFault] at h ⊢
      cases hfault : fault k with
      | none =>
          rw [hfault] at h
          exact ih h
      | some fault =>
          rw [hfault] at h
          cases fault <;> cases h

/-- `writeUntilFault` does not look at failures after the last attachment. -/
theorem writeUntilFault_none (k : Nat) (files atts : List (Str × Bytes)) :
    writeUntilFault (fun _ => none) k files atts =
      (atts.foldl (fun files a => files ++ [(deduplicateFilename files a.1, a.2)]) files, true) := by
  have hok : (writeUntilFault (fun _ => none) k files atts).2 = true :=
    (writeUntilFault_ok_iff _ k files atts).mpr fun _ _ => rfl
  rw [← writeUntilFault_files hok, ← hok]

theorem isSome_find_name {files : List (Str × Bytes)} {name : Str} :
    (files.find? fun file => file.1 == name).isSome = true ↔ name ∈ files.map Prod.fst := by
  rw [List.find?_isSome, List.mem_map]
  simp only [beq_iff_eq]

/-- Without failures this is the delivery of the coarser model. -/
theorem storeFaulty_none (u : Unicode) (d : MailDir) (r : Delivery) :
    storeFaulty u d r .none = store u d { r with failure := none } := by
  unfold storeFaulty store
  dsimp only
  cases allocateFilename d r.timestamp (slugify u r.subject) (!r.attachments.isEmpty) with
  | none => rfl
  | some path =>
      cases path with
      | flat stem => rfl
      | bundle stem =>
          simp only [IngestFaults.none, writeUntilFault_none, writeAttachments, cleanupBundle,
            Bool.false_eq_true, if_false, Bool.false_or]
          rfl

/-- **A delivery that fails anywhere** leaves what the coarser model allows. -/
theorem storeFaulty_refines (u : Unicode) (d : MailDir) (r : Delivery) (f : IngestFaults) :
    ∃ failure, storeFaulty u d r f = store u d { r with failure := failure } := by
  -- the residue is what the removal of the bundle does not remove
  have hcleanup : ∀ stem files, allocateFilename d r.timestamp (slugify u r.subject)
        (!r.attachments.isEmpty) = some (.bundle stem) →
      ∃ failure, (cleanupBundle f.cleanup d stem files, none) =
        store u d { r with failure := failure } := by
    intro stem files hpath
    refine ⟨some (match f.cleanup with
      | none => .nothing
      | some keep => .dir (files.filter fun file => keep file.1)), ?_⟩
    unfold store cleanupBundle
    dsimp only
    rw [hpath]
    cases f.cleanup <;> simp [Residue.entry]
  have hnothing : ∃ failure, (d, none) = store u d { r with failure := failure } := by
    refine ⟨some .nothing, ?_⟩
    unfold store
    dsimp only
    split <;> simp [Residue.entry]
  unfold storeFaulty
  split
  next => exact hnothing
  next path hpath =>
      split
      next => exact hnothing
      next =>
          cases path with
          | flat stem =>
              dsimp only
              split
              next => exact hnothing
              next =>
                  split
                  next written _ =>
                      refine ⟨some (.file ((r.content (MdPath.flat stem).id).take written)), ?_⟩
                      unfold store
                      dsimp only
                      rw [hpath]
                      rfl
                  next =>
                      refine ⟨none, ?_⟩
                      unfold store
                      dsimp only
                      rw [hpath]
          | bundle stem =>
              dsimp only
              split
              next files _ => exact hcleanup stem files hpath
              next files hfiles =>
                  split
                  next => exact hcleanup stem files hpath
                  next hnew =>
                      split
                      next => exact hcleanup stem _ hpath
                      next =>
                          refine ⟨none, ?_⟩
                          have hok : (writeUntilFault f.attachment 0 [] r.attachments).2 = true := by
                            rw [hfiles]
                          have hall : files = writeAttachments r.attachments := by
                            rw [writeAttachments, ← writeUntilFault_files hok, hfiles]
                          have hname : ¬mdName stem ∈ (writeAttachments r.attachments).map Prod.fst := by
                            rw [← hall]
                            rw [Bool.or_eq_true, isSome_find_name] at hnew
                            exact fun hmem => hnew (Or.inr hmem)
                          unfold store
                          dsimp only
                          rw [hpath]
                          simp only [isSome_find_name, hname, if_false, hall]

/-! ## What is left -/

/-- The directory as it was, or with a bundle that has no message file. -/
def Harmless (d d' : MailDir) : Prop :=
  d' = d ∨ ∃ stem files, IsStem stem ∧ d.has stem = false ∧ mdName stem ∉ files.map Prod.fst ∧
    d' = d ++ [(stem, .dir files)]

theorem mem_messages_iff {d : MailDir} {id : Str} {path : MdPath} {content : Bytes} :
    (id, path, content) ∈ messages d ↔
      (id, path) ∈ enumerateEmailIds d ∧ readMessage d path = some content := by
  unfold messages
  rw [List.mem_filterMap]
  constructor
  · rintro ⟨m, hm, hread⟩
    obtain ⟨content', hcontent, heq⟩ := Option.map_eq_some_iff.mp hread
    cases heq
    exact ⟨hm, hcontent⟩
  · rintro ⟨hm, hread⟩
    exact ⟨(id, path), hm, by simp [hread]⟩

theorem find_eq_none_of_not_mem {files : List (Str × Bytes)} {name : Str}
    (h : name ∉ files.map Prod.fst) : files.find? (fun file => file.1 == name) = none := by
  rw [← Option.isNone_iff_eq_none, ← Option.isSome_eq_false_iff, Bool.eq_false_iff]
  exact fun hsome => h (isSome_find_name.mp hsome)

theorem MailDir.get_eq_none {d : MailDir} {name : Str} (h : d.has name = false) : d.get name = none := by
  unfold MailDir.has at h
  rwa [Option.isSome_eq_false_iff, Option.isNone_iff_eq_none] at h

/-- A bundle without a message file changes no file that is read. -/
theorem readMessage_append_bare {d : MailDir} {stem : Str} {files : List (Str × Bytes)}
    (hstem : IsStem stem) (hdir : d.has stem = false) (hbare : mdName stem ∉ files.map Prod.fst)
    (path : MdPath) : readMessage (d ++ [(stem, .dir files)]) path = readMessage d path := by
  cases path with
  | flat other =>
      have hne : stem ≠ mdName other := fun heq => hstem.dot (heq ▸ dot_mem_mdName other)
      unfold readMessage
      dsimp only
      rw [MailDir.get_append d _ _ _ hdir, if_neg hne]
  | bundle other =>
      unfold readMessage
      dsimp only
      rw [MailDir.get_append d _ _ _ hdir]
      by_cases heq : stem = other
      · subst heq
        rw [if_pos rfl, MailDir.get_eq_none hdir]
        dsimp only
        rw [find_eq_none_of_not_mem hbare]
        rfl
      · rw [if_neg heq]

theorem enumerateEmailIds_append (d d' : MailDir) :
    enumerateEmailIds (d ++ d') = enumerateEmailIds d ++ enumerateEmailIds d' :=
  List.filterMap_append

theorem mem_messages_harmless {d d' : MailDir} (h : Harmless d d') (m : Str × MdPath × Bytes) :
    m ∈ messages d' ↔ m ∈ messages d := by
  rcases h with rfl | ⟨stem, files, hstem, hdir, hbare, rfl⟩
  · exact Iff.rfl
  · obtain ⟨id, path, content⟩ := m
    rw [mem_messages_iff, mem_messages_iff, readMessage_append_bare hstem hdir hbare,
      enumerateEmailIds_append, List.mem_append]
    constructor
    · rintro ⟨hmem | hmem, hread⟩
      · exact ⟨hmem, hread⟩
      · -- the new directory is enumerated, but there is no file to read
        cases List.mem_singleton.mp hmem
        rw [readMessage, MailDir.get_eq_none hdir] at hread
        cases hread
    · rintro ⟨hmem, hread⟩
      exact ⟨Or.inl hmem, hread⟩

theorem resolve_harmless {d d' : MailDir} (h : Harmless d d') (id : Str) :
    resolveEmailPathStrict d' id = resolveEmailPathStrict d id := by
  rcases h with rfl | ⟨stem, files, hstem, hdir, hbare, rfl⟩
  · rfl
  · have hne : stem ≠ mdName id := fun heq => hstem.dot (heq ▸ dot_mem_mdName id)
    unfold resolveEmailPathStrict
    rw [MailDir.get_append d _ _ _ hdir, MailDir.get_append d _ _ _ hdir, if_neg hne]
    by_cases heq : stem = id
    · subst heq
      rw [if_pos rfl, MailDir.get_eq_none hdir]
      dsimp only
      rw [find_eq_none_of_not_mem hbare]
      rfl
    · rw [if_neg heq]

/-- A bundle without a message file adds nothing to a store that is rebuilt. -/
theorem build_harmless {c : Chrono} {t : Int} {d d' : MailDir} {cache : Cache} (h : Harmless d d')
    (hbuild : buildDedupCacheFromDisk c t d' = some cache) :
    buildDedupCacheFromDisk c t d = some cache := by
  rcases h with rfl | ⟨stem, files, -, -, hbare, rfl⟩
  · exact hbuild
  · unfold buildDedupCacheFromDisk at hbuild ⊢
    rw [List.foldlM_append] at hbuild
    obtain ⟨before, hbefore, hlast⟩ := Option.bind_eq_some_iff.mp hbuild
    rw [List.foldlM_cons] at hlast
    obtain ⟨after, hafter, hpure⟩ := Option.bind_eq_some_iff.mp hlast
    cases hpure
    unfold loadEntry at hafter
    have hcontent : entryContent (stem, .dir files) = none := by
      unfold entryContent
      dsimp only
      rw [find_eq_none_of_not_mem hbare]
      rfl
    rw [hcontent] at hafter
    split at hafter
    · cases hafter
    · cases hafter
      exact hbefore
    · cases hafter
      exact hbefore

/-- A new file of a message is a new message. -/
theorem mem_messages_flat {d : MailDir} {stem : Str} {content : Bytes} (hstem : IsStem stem)
    (hfile : d.has (mdName stem) = false) :
    (stem, MdPath.flat stem, content) ∈ messages (d ++ [(mdName stem, .file content)]) ∧
      (stem, MdPath.flat stem, content) ∉ messages d := by
  rw [mem_messages_iff, mem_messages_iff]
  constructor
  · constructor
    · rw [enumerateEmailIds_append, List.mem_append]
      right
      have hext : splitExt (mdName stem) = (stem, some "md".toList) :=
        splitExt_append (by decide) hstem.ne_nil
      simp [enumerateEmailIds, hext]
    · rw [readMessage, MailDir.get_append d _ _ _ hfile, if_pos rfl]
  · rintro ⟨-, hread⟩
    rw [readMessage, MailDir.get_eq_none hfile] at hread
    cases hread

theorem exists_mem_messages_bundle {d : MailDir} {stem : Str} {files : List (Str × Bytes)}
    (hdir : d.has stem = false) (hmd : mdName stem ∈ files.map Prod.fst) :
    ∃ m, m ∈ messages (d ++ [(stem, .dir files)]) ∧ m ∉ messages d := by
  obtain ⟨file, hfile⟩ := Option.isSome_iff_exists.mp (isSome_find_name.mpr hmd)
  refine ⟨(stem, .bundle stem, file.2), mem_messages_iff.mpr ⟨?_, ?_⟩, ?_⟩
  · rw [enumerateEmailIds_append, List.mem_append]
    exact Or.inr (by simp [enumerateEmailIds])
  · rw [readMessage, MailDir.get_append d _ _ _ hdir, if_pos rfl]
    dsimp only
    rw [hfile]
    rfl
  · rw [mem_messages_iff]
    rintro ⟨-, hread⟩
    rw [readMessage, MailDir.get_eq_none hdir] at hread
    cases hread

/-! ## A failed delivery -/

theorem mem_cleanup {keep : Str → Bool} {files : List (Str × Bytes)} {name : Str} :
    name ∈ (files.filter fun file => keep file.1).map Prod.fst ↔
      name ∈ files.map Prod.fst ∧ keep name = true := by
  simp only [List.mem_map, List.mem_filter]
  constructor
  · rintro ⟨file, ⟨hmem, hkeep⟩, rfl⟩
    exact ⟨⟨file, hmem, rfl⟩, hkeep⟩
  · rintro ⟨⟨file, hmem, rfl⟩, hkeep⟩
    exact ⟨file, ⟨hmem, hkeep⟩, rfl⟩

/-- The removal leaves no message exactly when it removes the message file, or there is none. -/
theorem cleanupBundle_cases {cleanup : Option (Str → Bool)} {d : MailDir} {stem : Str}
    {files : List (Str × Bytes)} (hstem : IsStem stem) (hdir : d.has stem = false) :
    ((∀ keep, cleanup = some keep → keep (mdName stem) = false) ∨ mdName stem ∉ files.map Prod.fst) ∧
        Harmless d (cleanupBundle cleanup d stem files) ∨
      ¬((∀ keep, cleanup = some keep → keep (mdName stem) = false) ∨
          mdName stem ∉ files.map Prod.fst) ∧
        ∃ m, m ∈ messages (cleanupBundle cleanup d stem files) ∧ m ∉ messages d := by
  cases cleanup with
  | none => exact Or.inl ⟨Or.inl (fun _ h => (by cases h)), Or.inl rfl⟩
  | some keep =>
      by_cases hleft : mdName stem ∈ (files.filter fun file => keep file.1).map Prod.fst
      · refine Or.inr ⟨?_, exists_mem_messages_bundle hdir hleft⟩
        obtain ⟨hmem, hkeep⟩ := mem_cleanup.mp hleft
        rintro (hremoved | hnot)
        · rw [hremoved keep rfl] at hkeep
          cases hkeep
        · exact hnot hmem
      · refine Or.inl ⟨?_, Or.inr ⟨stem, _, hstem, hdir, hleft, rfl⟩⟩
        by_cases hmem : mdName stem ∈ files.map Prod.fst
        · left
          intro other heq
          cases heq
          rw [Bool.eq_false_iff]
          exact fun hkeep => hleft (mem_cleanup.mpr ⟨hmem, hkeep⟩)
        · exact Or.inr hmem

section Failed

variable {env : Env} {d : MailDir} {r : Delivery} {f : IngestFaults}

/-- A delivery that fails leaves nothing that is a message, or it leaves a new one. -/
theorem storeFaulty_cases :
    LeavesNothing env d r f ∧ ((storeFaulty env.unicode d r f).2 = none →
        Harmless d (storeFaulty env.unicode d r f).1) ∨
      ¬LeavesNothing env d r f ∧ (storeFaulty env.unicode d r f).2 = none ∧
        ∃ m, m ∈ messages (storeFaulty env.unicode d r f).1 ∧ m ∉ messages d := by
  unfold LeavesNothing storeFaulty
  obtain ⟨path, hpath⟩ := allocateFilename_isSome d r.timestamp (isStem_slugify env.unicode r.subject)
    (!r.attachments.isEmpty)
  obtain ⟨k, hk, hfree, -⟩ := allocateFilename_eq_some hpath
  have hstem := @isStem_numberedStem r.timestamp _ (isStem_slugify env.unicode r.subject) k
  generalize numberedStem (baseStem r.timestamp (slugify env.unicode r.subject)) k = stem
    at hk hfree hstem
  rw [hpath]
  dsimp only
  by_cases hparent : f.parent = true
  · rw [if_pos hparent]
    exact Or.inl ⟨Or.inl hparent, fun _ => Or.inl rfl⟩
  rw [if_neg hparent]
  simp only [hparent, Bool.false_eq_true, false_or, Option.some.injEq, forall_eq']
  cases hatt : !r.attachments.isEmpty with
  | false =>
      -- a flat file: whatever has been written of it stays
      rw [hatt, if_neg Bool.false_ne_true] at hk
      subst hk
      unfold stemTaken at hfree
      rw [hatt, if_neg Bool.false_ne_true, Bool.or_eq_false_iff] at hfree
      dsimp only
      cases hcreate : f.create with
      | true => exact Or.inl ⟨fun h => (by cases h), fun _ => Or.inl rfl⟩
      | false =>
          cases hwrite : f.write with
          | none => exact Or.inl ⟨fun _ => rfl, fun h => (by cases h)⟩
          | some written =>
              exact Or.inr ⟨fun h => (by cases h rfl), rfl, _, mem_messages_flat hstem hfree.1⟩
  | true =>
      rw [hatt, if_pos rfl] at hk
      subst hk
      unfold stemTaken at hfree
      rw [hatt, if_pos rfl] at hfree
      dsimp only
      have hok := writeUntilFault_ok_iff f.attachment 0 [] r.attachments
      simp only [Nat.zero_add] at hok
      rw [← hok]
      generalize writeUntilFault f.attachment 0 [] r.attachments = wrote
      obtain ⟨files, ok⟩ := wrote
      cases ok with
      | false =>
          -- an attachment failed: the message file has not been created
          simpa using @cleanupBundle_cases f.cleanup d stem files hstem hfree
      | true =>
          dsimp only
          by_cases hstop : (f.create || (files.find? fun file => file.1 == mdName stem).isSome) = true
          · rw [if_pos hstop]
            rw [Bool.or_eq_true, isSome_find_name] at hstop
            have hcases := @cleanupBundle_cases f.cleanup d stem files hstem hfree
            rcases hstop with hcreate | hmem
            · simpa [hcreate] using hcases
            · simpa [hmem] using hcases
          · rw [if_neg hstop]
            rw [Bool.or_eq_true, isSome_find_name, not_or, Bool.not_eq_true] at hstop
            cases hwrite : f.write with
            | none =>
                exact Or.inl ⟨Or.inr ⟨hstop.2, fun _ _ => rfl⟩, fun h => (by cases h)⟩
            | some written =>
                -- the message file has been created, and some of it written
                have hcases := @cleanupBundle_cases f.cleanup d stem
                  (files ++ [(mdName stem, (r.content (MdPath.bundle stem).id).take written)]) hstem hfree
                simpa [hstop.1] using hcases

end Failed

/-! ## The retry -/

section Retry

variable {env : Env} {config : Config} {rcpt mailbox : Str} {raw : Bytes} {now : Int} {wr : Writing}
  {f : IngestFaults} {st : MailboxStore}

/-- The check for duplicates passes a message that is unknown. -/
theorem checkDuplicate_of_unknown {now' : Int} (h : Unknown env raw now st) (hle : now ≤ now')
    (hbuild : buildDedupCacheFromDisk env.chrono now' st.dir ≠ none) :
    ∃ cache, checkDuplicate env now' raw IngestFaults.none.readable st = .fresh cache := by
  unfold checkDuplicate
  by_cases hid : env.messageId raw = []
  · exact ⟨_, if_pos hid⟩
  rw [if_neg hid]
  have hall : (st.dir.filter fun e => IngestFaults.none.readable e.1) = st.dir :=
    List.filter_eq_self.mpr fun _ _ => rfl
  rw [hall]
  cases hcache : st.cache with
  | some cache =>
      refine ⟨some cache, ?_⟩
      simp [h.live cache hcache now' hle]
  | none =>
      obtain ⟨cache, hsome⟩ := Option.ne_none_iff_exists'.mp hbuild
      refine ⟨some cache, ?_⟩
      simp [hsome, h.restarted now' cache hsome]

/-- **The retry** of an unknown message stores all of it. -/
theorem retryStores_of_unknown (h : Unknown env raw now st) :
    RetryStores env config rcpt mailbox raw now wr st := by
  intro message now' again hparse hle hatt hbuild hname
  obtain ⟨cache, hfresh⟩ := checkDuplicate_of_unknown h hle (hbuild now')
  obtain ⟨k, htaken, hfree, stem, hstemEq, hstem, hflat, hbundle⟩ := @store_cases env.unicode st.dir
    { again.delivery env config rcpt mailbox raw message with failure := none } rfl
  have hcontent : (again.delivery env config rcpt mailbox raw message).attachments = wr.attachments :=
    hatt
  dsimp only at htaken hfree hstemEq hflat hbundle
  rw [hcontent] at htaken hfree hflat hbundle
  unfold ingestEmail
  rw [hparse]
  simp only [IngestFaults.none, Bool.false_eq_true, if_false]
  simp only [IngestFaults.none] at hfresh
  rw [hfresh]
  have hstore := storeFaulty_none env.unicode st.dir
    (again.delivery env config rcpt mailbox raw message)
  simp only [IngestFaults.none] at hstore
  rw [hcontent] at hstore
  dsimp only
  rw [hstore]
  by_cases hnone : wr.attachments = []
  · rw [hflat hnone]
    exact ⟨stem, _, rfl, by rw [if_pos hnone]⟩
  · rw [hbundle hnone, if_neg]
    · exact ⟨stem, _, rfl, by rw [if_neg hnone]⟩
    · -- the stem is the one that is allocated
      refine hname stem ?_
      have hhas : (!wr.attachments.isEmpty) = true := by simpa using hnone
      obtain ⟨path, hpath⟩ := allocateFilename_isSome st.dir again.timestamp
        (isStem_slugify env.unicode (again.delivery env config rcpt mailbox raw message).subject)
        (!wr.attachments.isEmpty)
      obtain ⟨k', hk', hfree', htaken'⟩ := allocateFilename_eq_some hpath
      have hsame : k' = k := by
        rcases Nat.lt_trichotomy k' k with hlt | heq | hgt
        · have hbusy := htaken k' hlt
          exact absurd (hfree'.symm.trans hbusy) Bool.false_ne_true
        · exact heq
        · have hbusy := htaken' k hgt
          exact absurd (hfree.symm.trans hbusy) Bool.false_ne_true
      rw [hpath, hk', if_pos hhas, hsame, hstemEq]
      rfl

/-- What does no harm to the directory leaves no trace. -/
theorem noTrace_of_harmless {st' : MailboxStore} (hdir : Harmless st.dir st'.dir)
    (hlive : Unknown env raw now st → ∀ cache, st'.cache = some cache → ∀ t, now ≤ t →
      env.makeDedupSparkv.containsKey cache t (env.messageId raw) = false) :
    NoTrace env config rcpt mailbox raw now wr st st' := by
  have hunknown : Unknown env raw now st → Unknown env raw now st' := fun h =>
    ⟨hlive h, fun t cache hbuild => h.restarted t cache (build_harmless hdir hbuild)⟩
  refine ⟨mem_messages_harmless hdir, resolve_harmless hdir, hunknown, ?_, ?_⟩
  · exact fun h => retryStores_of_unknown (hunknown h)
  · intro h
    refine retryStores_of_unknown ⟨?_, (hunknown h).restarted⟩
    intro cache hcache
    cases hcache

/-- A check that passes leaves a store that does not know the message, if it did not before. -/
theorem live_of_fresh {cache : Option Cache}
    (hfresh : checkDuplicate env now raw f.readable st = .fresh cache) (h : Unknown env raw now st) :
    ∀ c, cache = some c → ∀ t, now ≤ t →
      env.makeDedupSparkv.containsKey c t (env.messageId raw) = false := by
  intro c hc t hle
  unfold checkDuplicate at hfresh
  split at hfresh
  · cases hfresh
    exact h.live c hc t hle
  · split at hfresh
    · cases hfresh
    · split at hfresh
      · cases hfresh
      next hnot =>
          cases hfresh
          cases hc
          rw [Bool.eq_false_iff]
          exact fun hlater => hnot (env.makeDedupSparkv.later hle hlater)

end Retry

section Traces

variable (env : Env) (config : Config) (rcpt mailbox : Str) (raw : Bytes) (now : Int) (wr : Writing)

/-- **A failed delivery leaves no trace** exactly when the failure leaves no message file behind. -/
theorem noTrace_iff (f : IngestFaults) (st : MailboxStore) :
    ((ingestEmail env config rcpt mailbox raw now wr f st).2 = .failed →
        NoTrace env config rcpt mailbox raw now wr st
          (ingestEmail env config rcpt mailbox raw now wr f st).1) ↔
      ∀ message cache, f.inbox = false → env.parse raw = some message →
        checkDuplicate env now raw f.readable st = .fresh cache →
        LeavesNothing env st.dir (wr.delivery env config rcpt mailbox raw message) f := by
  have hrefl : NoTrace env config rcpt mailbox raw now wr st st :=
    noTrace_of_harmless (Or.inl rfl) fun h => h.live
  unfold ingestEmail
  cases hinbox : f.inbox with
  | true => exact ⟨fun _ _ _ h => (by cases h), fun _ _ => hrefl⟩
  | false =>
      cases hparse : env.parse raw with
      | none => exact ⟨fun _ _ _ _ h => (by cases h), fun _ _ => hrefl⟩
      | some message =>
          cases hcheck : checkDuplicate env now raw f.readable st with
          | panicked => exact ⟨fun _ _ _ _ _ h => (by cases h), fun _ h => (by cases h)⟩
          | duplicate cache => exact ⟨fun _ _ _ _ _ h => (by cases h), fun _ h => (by cases h)⟩
          | fresh cache =>
              have hcases := @storeFaulty_cases env st.dir
                (wr.delivery env config rcpt mailbox raw message) f
              simp only [Bool.false_eq_true, if_false]
              generalize storeFaulty env.unicode st.dir
                (wr.delivery env config rcpt mailbox raw message) f = left at hcases ⊢
              obtain ⟨dir, s⟩ := left
              rcases hcases with ⟨hleaves, hharmless⟩ | ⟨hleaves, hnone, m, hnew, hold⟩
              · refine ⟨fun _ message' cache' _ hparse' _ => (by cases hparse'; exact hleaves), ?_⟩
                intro _ hfailed
                cases s with
                | some s => cases hfailed
                | none => exact noTrace_of_harmless (hharmless rfl) (live_of_fresh hcheck)
              · cases hnone
                constructor
                · intro htrace
                  exact absurd (((htrace rfl).listed m).mp hnew) hold
                · intro h
                  exact absurd (h message cache trivial rfl rfl) hleaves

end Traces

/-- A delivery without attachments whose write is cut after 40 bytes. -/
def cutWrite : MailboxStore × Outcome :=
  ingestEmail helloEnv twoMailboxes "alice@example.org".toList "alice".toList helloRaw
    (1735689601 * nanosPerSec) helloWriting { IngestFaults.none with write := some 40 } ⟨[], none⟩

/-- The start of a message stays in the mailbox. -/
theorem cutWrite_stays : cutWrite.2 = .failed ∧
    (messages cutWrite.1.dir).map (fun m => String.ofList m.1) = ["2025-01-01-000001-hello"] ∧
    ¬NoTrace helloEnv twoMailboxes "alice@example.org".toList "alice".toList helloRaw
      (1735689601 * nanosPerSec) helloWriting ⟨[], none⟩ cutWrite.1 := by
  have hone : (messages cutWrite.1.dir).map (fun m => String.ofList m.1) =
      ["2025-01-01-000001-hello"] := by decide +kernel
  refine ⟨by decide +kernel, hone, ?_⟩
  intro h
  cases hmessages : messages cutWrite.1.dir with
  | nil =>
      rw [hmessages] at hone
      cases hone
  | cons m rest =>
      have hmem := (h.listed m).mp (by rw [hmessages]; exact List.mem_cons_self)
      cases hmem

end Ingest
end Aimx
