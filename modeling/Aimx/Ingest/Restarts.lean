import Aimx.Ingest.Legible
import Aimx.Ingest.Marked
import Aimx.Ingest.Recall
import Aimx.Transition.Machines

/-!
# Restarts of the daemon

The duplicate store of a mailbox lives in memory and is built again from the files after a restart.  The
history of a mailbox is its deliveries, with any failures, the marks of its owner, and restarts.

* `mailboxMachine`, `ledger` — the mailbox, and a list of the stored messages in place of its store;
* `Printed` — a record that TOML prints for the small reader;
* `Filed`, `Remarked` — deliveries and marks print such records;
* `Steady` — a message is sent again only while the stored one is younger than 24 hours, less a second;
* `rebuilt_of_run` — a store that is built after any history holds the messages of the last 24 hours;
* `restarts_transparent` — the deliveries end as they would without the restarts.
-/

namespace Aimx
namespace Ingest

open Text Transition
open scoped Literal

/-! ## The history of a mailbox -/

/-- One delivery: besides what it takes from its surroundings, the time that its file says and the time that
the name of the file is made of. -/
structure Attempt where
  config : Config
  rcpt : Str
  raw : Bytes
  now : Int
  writing : Writing
  faults : IngestFaults
  received : Int
  stamped : Int

def Attempt.delivery (env : Env) (name : Str) (a : Attempt) (message : Message) : Delivery :=
  a.writing.delivery env a.config a.rcpt name a.raw message

/-- What is remembered of a delivery: a message that it stored, if it has a Message-Id. -/
def Attempt.kept (env : Env) (a : Attempt) : Option StoredMessage → List Kept
  | some _ => if env.messageId a.raw = [] then [] else [⟨env.messageId a.raw, a.received, a.now⟩]
  | none => []

/-- What happens to a mailbox: a delivery, or a mark on the entry of a name. -/
inductive Happening
  | ingest (a : Attempt)
  | mark (entry : Str) (read : Bool) (now : Str)

/-- The rewriting of a file by MARK-READ and MARK-UNREAD. -/
def markFile (t : Toml) (read : Bool) (now : Str) (content : Bytes) : Bytes :=
  match fromUtf8 content with
  | none => content
  | some text =>
      match markContent t read now text with
      | .ok marked => utf8 marked
      | .error _ => content

def markEntry (t : Toml) (read : Bool) (now entry : Str) (e : Str × Node) : Str × Node :=
  if e.1 = entry then
    match e.2 with
    | .file content => (e.1, .file (markFile t read now content))
    | .dir files =>
        (e.1, .dir (files.map fun f => if f.1 = mdName e.1 then (f.1, markFile t read now f.2) else f))
  else e

/-- The mailbox: a mark changes a file, and a delivery is what `ingest_email` does. -/
def mailboxMachine (env : Env) (name : Str) : Machine MailboxStore Happening (Option Outcome)
  | st, .ingest a =>
      let r := ingestEmail env a.config a.rcpt name a.raw a.now a.writing a.faults st
      (r.1, some r.2)
  | st, .mark entry read now => (⟨st.dir.map (markEntry env.toml read now entry), st.cache⟩, none)

/-- A restart of the daemon. -/
def MailboxStore.restart (st : MailboxStore) : MailboxStore := ⟨st.dir, none⟩

/-! ## The stored messages in place of the store -/

/-- A mailbox whose duplicates are found by the list of its messages. -/
structure Ledger where
  dir : MailDir
  log : List Kept
  now : Int

/-- A message under this Message-Id was stored less than 24 hours ago. -/
def Ledger.remembers (t : Ledger) (id : Str) (now : Int) : Bool :=
  decide (id ≠ []) && t.log.any fun k => decide (k.id = id ∧ now < k.stored + dedupTtl)

def ledger (env : Env) (name : Str) : Machine Ledger Happening (Option Outcome)
  | t, .ingest a =>
      if a.faults.inbox then ({ t with now := a.now }, some .failed)
      else
        match env.parse a.raw with
        | none => ({ t with now := a.now }, some .failed)
        | some message =>
            if t.remembers (env.messageId a.raw) a.now then ({ t with now := a.now }, some .duplicate)
            else
              match storeFaulty env.unicode t.dir (a.delivery env name message) a.faults with
              | (dir, none) => (⟨dir, t.log, a.now⟩, some .failed)
              | (dir, some s) => (⟨dir, t.log ++ a.kept env (some s), a.now⟩, some (.stored s))
  | t, .mark entry read now => ({ t with dir := t.dir.map (markEntry env.toml read now entry) }, none)

/-! ## What the laws are about -/

/-- The date of a time never goes back. -/
def Chrono.Forward (c : Chrono) : Prop := ∀ s t, s ≤ t → ¬ c.date t < c.date s

/-- The first part of a file name: `%Y-%m-%d`. -/
def Timestamp.datePart (ts : Timestamp) : Str :=
  padded 4 ts.year ++ '-' :: padded 2 ts.month ++ '-' :: padded 2 ts.day

/-- A record that TOML prints as lines, with the time of arrival behind the Message-Id; and if it has one, it
stands in double quotes as it is, and the record ends within the window of the small reader. -/
structure Printed (env : Env) (m : InboundFrontmatter) (body : Str) (received : Int) : Prop where
  lists : ∃ front idWritten middle after, env.toml.Lists m front idWritten middle after ∧
    (m.messageId ≠ [] → IsPlain m.messageId idWritten)
  fits : m.messageId ≠ [] → byteLen (env.toml.toString m) + 7 ≤ headSize
  whole : m.messageId ≠ [] → WindowWhole (formatFrontmatter env.toml m body)
  quote : '"' ∉ m.receivedAt
  time : env.chrono.parseRfc3339 m.receivedAt = some received

/-- **What the reader finds** in the file of such a record, if it has a Message-Id. -/
theorem Printed.read {env : Env} {m : InboundFrontmatter} {body : Str} {received : Int}
    (h : Printed env m body received) :
    readFrontmatterIdPair env.chrono (utf8 (formatFrontmatter env.toml m body)) =
      if m.messageId = [] then none else some (m.messageId, received) := by
  obtain ⟨front, idWritten, middle, after, hlists, hplain⟩ := h.lists
  by_cases hid : m.messageId = []
  · rw [read_nameless hlists h.quote hid, if_pos hid]
  · rw [read_within hlists h.quote (h.fits hid) (h.whole hid), (hplain hid).quotedStart, h.time]
    rfl

/-- The record of a delivery, under an id. -/
def Attempt.record (env : Env) (name : Str) (a : Attempt) (message : Message) (id : Str) :
    InboundFrontmatter :=
  inboundMeta env.sender a.config a.rcpt name a.raw message { a.writing.arrival with id := id }

/-- A delivery of which TOML prints the record for the small reader, under a name with the date of its time;
and that leaves nothing to be read where it fails. -/
structure Filed (env : Env) (name : Str) (d : MailDir) (a : Attempt) : Prop where
  ordered : a.received ≤ a.stamped ∧ a.stamped ≤ a.now
  named : a.writing.timestamp.datePart = env.chrono.date a.stamped ∧
    a.writing.timestamp.datePart.length = 10
  leaves : ∀ message, env.parse a.raw = some message →
    LeavesNothing env d (a.delivery env name message) a.faults
  printed : ∀ message path, env.parse a.raw = some message →
    allocateFilename d a.writing.timestamp (slugify env.unicode (a.delivery env name message).subject)
      (!a.writing.attachments.isEmpty) = some path →
    Printed env (a.record env name message path.id) message.body a.received

/-- A mark on a message whose record TOML parses as it has printed it, and prints again for the reader. -/
def Remarked (env : Env) (d : MailDir) (entry : Str) (read : Bool) (now : Str) : Prop :=
  ∀ e ∈ d, e.1 = entry → ∀ content, entryContent e = some content → ∃ m body received,
    content = utf8 (formatFrontmatter env.toml m body) ∧ UndoesPrint env.toml m ∧
      Printed env m body received ∧ Printed env (m.setRead read now) body received

/-- What is asked of one event. -/
def FiledHappening (env : Env) (name : Str) (d : MailDir) : Happening → Prop
  | .ingest a => Filed env name d a
  | .mark entry read now => Remarked env d entry read now

/-- A delivery that comes later than the ones before it, finds every file readable if the store is built and
room in the store, and repeats a message only while that one is younger than 24 hours, less a second. -/
structure Steady (env : Env) (t : Ledger) (a : Attempt) : Prop where
  later : t.now ≤ a.now
  readable : ∀ entry, a.faults.readable entry = true
  room : t.log.length < dedupMaxItems
  young : ∀ k ∈ t.log, k.id = env.messageId a.raw → a.now < k.received + dedupTtl - nanosPerSec

def SteadyHappening (env : Env) (name : Str) (t : Ledger) (e : Happening) : Prop :=
  FiledHappening env name t.dir e ∧ ∀ a, e = .ingest a → Steady env t a

/-! ## The names -/

section Names

variable {c : Chrono}

theorem byteLen_eq_length {s : Str} (h : ∀ ch ∈ s, ch.toNat < 0x80) : byteLen s = s.length := by
  induction s with
  | nil => rfl
  | cons ch s ih =>
      obtain ⟨hfirst, hrest⟩ := List.forall_mem_cons.mp h
      have hlen := ih hrest
      unfold byteLen at hlen ⊢
      rw [utf8_cons, List.length_append, utf8EncodeChar_ascii hfirst, hlen]
      exact Nat.add_comm 1 s.length

theorem toNat_lt_of_isDigit {ch : Char} (h : ch.isDigit = true) : ch.toNat < 0x80 := by
  unfold Char.isDigit at h
  rw [Bool.and_eq_true, decide_eq_true_eq, decide_eq_true_eq] at h
  have hle : ch.val.toNat ≤ 57 := UInt32.le_iff_toNat_le.mp h.2
  show ch.val.toNat < 128
  omega

theorem ascii_of_mem_padded {width n : Nat} {ch : Char} (h : ch ∈ padded width n) : ch.toNat < 0x80 := by
  rcases List.mem_append.mp h with h | h
  · obtain rfl := List.eq_of_mem_replicate h
    decide
  · exact toNat_lt_of_isDigit (isDigit_of_mem_decimal h)

theorem ascii_of_mem_datePart {ts : Timestamp} {ch : Char} (h : ch ∈ ts.datePart) : ch.toNat < 0x80 := by
  have hdash : '-'.toNat < 0x80 := by decide
  unfold Timestamp.datePart at h
  simp only [List.mem_append, List.mem_cons] at h
  rcases h with (h | rfl | h) | rfl | h
  · exact ascii_of_mem_padded h
  · exact hdash
  · exact ascii_of_mem_padded h
  · exact hdash
  · exact ascii_of_mem_padded h

theorem byteLen_datePart {ts : Timestamp} (h : ts.datePart.length = 10) : byteLen ts.datePart = 10 := by
  rw [byteLen_eq_length fun ch => ascii_of_mem_datePart, h]

/-- The date in the name of an entry decides whether it is passed over. -/
theorem datedBefore_datePart {ts : Timestamp} (h : ts.datePart.length = 10) {name : Str}
    (hname : ts.datePart <+: name) (cutoff : Str) :
    datedBefore cutoff name = some (decide (ts.datePart < cutoff)) := by
  obtain ⟨rest, rfl⟩ := hname
  have hlen := byteLen_datePart h
  have hlong : ¬ byteLen (ts.datePart ++ rest) < 10 := by
    rw [byteLen_append]
    omega
  have htake : (utf8 (ts.datePart ++ rest)).take 10 = utf8 ts.datePart := by
    rw [utf8_append, List.take_left' hlen]
  rw [datedBefore, if_neg hlong, htake, fromUtf8_eq_some_iff.mpr rfl, Option.map_some]

/-- The entry of a file with the date of its time is passed over only when it is too old. -/
theorem cutsOnlyOld_of_datePart (hforward : c.Forward) {ts : Timestamp} {stamped : Int} {e : Str × Node}
    (hdate : ts.datePart = c.date stamped) (hlen : ts.datePart.length = 10) (hname : ts.datePart <+: e.1)
    (hread : ∀ pair, readEntry c e = some pair → pair.2 ≤ stamped) : CutsOnlyOld c e := by
  constructor
  · obtain ⟨rest, hrest⟩ := hname
    exact Or.inr ⟨ts.datePart, rest, hrest.symm, byteLen_datePart hlen⟩
  · intro pair hpair now hbefore
    rw [datedBefore_datePart hlen hname, Option.some.injEq, decide_eq_true_eq, hdate] at hbefore
    have hpast := hread pair hpair
    by_contra hlive
    exact hforward (now - dedupTtl) stamped (by omega) hbefore

/-- The stem of a message begins with the date. -/
theorem datePart_prefix_stem {d : MailDir} {ts : Timestamp} {slug : Str} {hasAttachments : Bool}
    {path : MdPath} (h : allocateFilename d ts slug hasAttachments = some path) :
    ts.datePart <+: path.stem := by
  obtain ⟨k, hpath, -, -⟩ := allocateFilename_eq_some h
  have hstem : path.stem = numberedStem (baseStem ts slug) k := by
    rw [hpath]
    cases hasAttachments <;> rfl
  have hbase : ts.datePart <+: baseStem ts slug := by
    unfold baseStem formatTimestamp Timestamp.datePart
    simp only [List.append_assoc, List.cons_append]
    exact ⟨'-' :: (padded 2 ts.hour ++ (padded 2 ts.minute ++ (padded 2 ts.second ++ '-' :: slug))), by
      simp⟩
  rw [hstem]
  unfold numberedStem
  split
  · exact hbase
  · exact hbase.trans (List.prefix_append _ _)

end Names

/-! ## The files -/

/-- A mailbox directory for the reader: what it finds, and what it passes over is too old. -/
structure Files (env : Env) (d : MailDir) (pairs : List (Str × Int)) : Prop where
  found : d.filterMap (readEntry env.chrono) = pairs
  cut : ∀ e ∈ d, CutsOnlyOld env.chrono e

theorem files_nil (env : Env) : Files env [] [] := ⟨rfl, by simp⟩

theorem Files.build {env : Env} {d : MailDir} {pairs : List (Str × Int)} (h : Files env d pairs) (now : Int) :
    buildDedupCacheFromDisk env.chrono now d = some (rebuilt now pairs) := by
  rw [buildDedupCacheFromDisk_eq h.cut, h.found]

/-- A delivery adds nothing, or one entry under the stem that it has allocated, which holds the message when
the delivery succeeds. -/
theorem storeFaulty_entry (u : Unicode) (d : MailDir) (r : Delivery) (f : IngestFaults) :
    ((storeFaulty u d r f).1 = d ∧ (storeFaulty u d r f).2 = none) ∨
      ∃ e path, allocateFilename d r.timestamp (slugify u r.subject) (!r.attachments.isEmpty) = some path ∧
        (storeFaulty u d r f).1 = d ++ [e] ∧ path.stem <+: e.1 ∧
        ∀ s, (storeFaulty u d r f).2 = some s → s.id = path.id ∧
          entryContent e = some (r.content path.id) := by
  -- what the removal of the bundle leaves stands under the stem
  have hcleanup : ∀ stem files, allocateFilename d r.timestamp (slugify u r.subject)
        (!r.attachments.isEmpty) = some (.bundle stem) →
      (cleanupBundle f.cleanup d stem files = d ∧ (none : Option StoredMessage) = none) ∨
        ∃ e path, allocateFilename d r.timestamp (slugify u r.subject) (!r.attachments.isEmpty) =
            some path ∧
          cleanupBundle f.cleanup d stem files = d ++ [e] ∧ path.stem <+: e.1 ∧
          ∀ s, (none : Option StoredMessage) = some s → s.id = path.id ∧
            entryContent e = some (r.content path.id) := by
    intro stem files hpath
    unfold cleanupBundle
    cases f.cleanup with
    | none => exact Or.inl ⟨rfl, rfl⟩
    | some keep => exact Or.inr ⟨_, _, hpath, rfl, List.prefix_rfl, fun s hs => by cases hs⟩
  unfold storeFaulty
  split
  next => exact Or.inl ⟨rfl, rfl⟩
  next path hpath =>
      split
      next => exact Or.inl ⟨rfl, rfl⟩
      next =>
          cases path with
          | flat stem =>
              have hname : (MdPath.flat stem).stem <+: mdName stem := List.prefix_append _ _
              dsimp only
              split
              next => exact Or.inl ⟨rfl, rfl⟩
              next =>
                  split
                  next => exact Or.inr ⟨_, _, hpath, rfl, hname, fun s hs => by cases hs⟩
                  next =>
                      refine Or.inr ⟨_, _, hpath, rfl, hname, fun s hs => ?_⟩
                      obtain rfl := Option.some.inj hs
                      refine ⟨rfl, ?_⟩
                      have hmd : ".md".toList.isSuffixOf (mdName stem) = true :=
                        List.isSuffixOf_iff_suffix.mpr (List.suffix_append _ _)
                      unfold entryContent
                      dsimp only
                      rw [if_pos hmd]
          | bundle stem =>
              dsimp only
              split
              next files _ => exact hcleanup stem files hpath
              next files _ =>
                  split
                  next => exact hcleanup stem files hpath
                  next hnew =>
                      split
                      next => exact hcleanup stem _ hpath
                      next =>
                          refine Or.inr ⟨_, _, hpath, rfl, List.prefix_rfl, fun s hs => ?_⟩
                          obtain rfl := Option.some.inj hs
                          refine ⟨rfl, ?_⟩
                          rw [Bool.or_eq_true, not_or, Bool.not_eq_true, Bool.not_eq_true] at hnew
                          have hfirst : files.find? (fun file => file.1 == mdName stem) = none := by
                            rw [← Option.isNone_iff_eq_none, ← Option.isSome_eq_false_iff]
                            exact hnew.2
                          unfold entryContent
                          dsimp only
                          rw [List.find?_append, hfirst]
                          simp

theorem mem_kept {env : Env} {a : Attempt} {stored : Option StoredMessage} {k : Kept}
    (h : k ∈ a.kept env stored) :
    k.id = env.messageId a.raw ∧ k.received = a.received ∧ k.stored = a.now ∧ env.messageId a.raw ≠ [] := by
  unfold Attempt.kept at h
  split at h
  next =>
      split at h
      next => cases h
      next hid =>
          obtain rfl := List.mem_singleton.mp h
          exact ⟨rfl, rfl, rfl, hid⟩
  next => cases h

section Store

variable {env : Env} {name : Str} {d : MailDir} {pairs : List (Str × Int)} {log : List Kept} {a : Attempt}
  {message : Message}

/-- What the reader finds in the file of a stored message. -/
def Attempt.found (env : Env) (name : Str) (a : Attempt) (message : Message) (s : StoredMessage) :
    Option (Str × Int) :=
  readFrontmatterIdPair env.chrono
    (utf8 (formatFrontmatter env.toml (a.record env name message s.id) message.body))

/-- A message is stored under the id of the path that is allocated for it. -/
theorem allocated_of_stored {dir : MailDir} {s : StoredMessage}
    (hstore : storeFaulty env.unicode d (a.delivery env name message) a.faults = (dir, some s)) :
    ∃ path, allocateFilename d a.writing.timestamp
        (slugify env.unicode (a.delivery env name message).subject) (!a.writing.attachments.isEmpty) =
      some path ∧ s.id = path.id := by
  rcases storeFaulty_entry env.unicode d (a.delivery env name message) a.faults with
    ⟨-, hnone⟩ | ⟨e, path, hpath, -, -, hcontent⟩
  · rw [hstore] at hnone
    cases hnone
  · exact ⟨path, hpath, (hcontent s (by rw [hstore])).1⟩

/-- **One delivery**: behind what the reader found, it finds what the new file holds, if there is one. -/
theorem Files.add (h : Files env d pairs) (hforward : env.chrono.Forward)
    (hnamed : a.writing.timestamp.datePart = env.chrono.date a.stamped ∧
      a.writing.timestamp.datePart.length = 10)
    (hleaves : LeavesNothing env d (a.delivery env name message) a.faults) {dir : MailDir}
    {stored : Option StoredMessage}
    (hstore : storeFaulty env.unicode d (a.delivery env name message) a.faults = (dir, stored))
    (hpast : ∀ s pair, stored = some s → a.found env name message s = some pair → pair.2 ≤ a.stamped) :
    Files env dir (pairs ++ (stored.bind (a.found env name message)).toList) := by
  have hdir : (storeFaulty env.unicode d (a.delivery env name message) a.faults).1 = dir := by rw [hstore]
  have hstored : (storeFaulty env.unicode d (a.delivery env name message) a.faults).2 = stored := by
    rw [hstore]
  rcases storeFaulty_entry env.unicode d (a.delivery env name message) a.faults with
    ⟨hsame, hnone⟩ | ⟨e, path, hpath, hadd, hunder, hcontent⟩
  · rw [hdir] at hsame
    rw [hstored] at hnone
    subst hsame hnone
    rw [Option.bind_none, Option.toList_none, List.append_nil]
    exact h
  · rw [hdir] at hadd
    rw [hstored] at hcontent
    subst hadd
    have hdate : a.writing.timestamp.datePart <+: e.1 := (datePart_prefix_stem hpath).trans hunder
    -- the new entry holds the message, or nothing that is read
    have hread : readEntry env.chrono e = stored.bind (a.found env name message) := by
      cases hs : stored with
      | some s =>
          obtain ⟨hid, hfile⟩ := hcontent s hs
          rw [Option.bind_some, readEntry, hfile, Option.bind_some, Attempt.found, hid]
          rfl
      | none =>
          rw [hs] at hstored
          have hbare : entryContent e = none := by
            rcases @storeFaulty_cases env d (a.delivery env name message) a.faults with
              ⟨-, hharmless⟩ | ⟨hnot, -⟩
            · rcases hharmless hstored with hsame | ⟨stem, files, -, -, hbare, hentry⟩
              · rw [hdir] at hsame
                exact absurd hsame (by simp)
              · rw [hdir] at hentry
                obtain rfl : e = (stem, .dir files) := by simpa using hentry
                unfold entryContent
                dsimp only
                rw [find_eq_none_of_not_mem hbare]
                rfl
            · exact absurd hleaves hnot
          rw [readEntry, hbare]
          rfl
    constructor
    case found =>
      rw [List.filterMap_append, h.found, ← hread, List.filterMap_cons]
      cases readEntry env.chrono e <;> rfl
    case cut =>
      have hcut : CutsOnlyOld env.chrono e := by
        refine cutsOnlyOld_of_datePart hforward hnamed.1 hnamed.2 hdate ?_
        intro pair hpair
        rw [hread] at hpair
        obtain ⟨s, hs, hfound⟩ := Option.bind_eq_some_iff.mp hpair
        exact hpast s pair hs hfound
      exact List.forall_mem_append.mpr ⟨h.cut, List.forall_mem_singleton.mpr hcut⟩

/-- A delivery that is filed adds its message to what the reader finds. -/
theorem Files.store (h : Files env d (log.map Kept.pair)) (hforward : env.chrono.Forward)
    (hfiled : Filed env name d a) (hparse : env.parse a.raw = some message) {dir : MailDir}
    {stored : Option StoredMessage}
    (hstore : storeFaulty env.unicode d (a.delivery env name message) a.faults = (dir, stored)) :
    Files env dir ((log ++ a.kept env stored).map Kept.pair) := by
  -- the record is printed for the reader
  have hfound : ∀ s, stored = some s → a.found env name message s =
      if env.messageId a.raw = [] then none else some (env.messageId a.raw, a.received) := by
    intro s hs
    subst hs
    obtain ⟨path, hpath, hid⟩ := allocated_of_stored hstore
    have hrecord : (a.record env name message s.id).messageId = env.messageId a.raw := by
      rw [Env.messageId, hparse]
      rfl
    have hprinted := hfiled.printed message path hparse hpath
    rw [← hid] at hprinted
    rw [Attempt.found, hprinted.read, hrecord]
  have hkept : (stored.bind (a.found env name message)).toList = (a.kept env stored).map Kept.pair := by
    cases hs : stored with
    | none => rfl
    | some s =>
        rw [Option.bind_some, hfound s hs, Attempt.kept]
        split <;> rfl
  rw [List.map_append, ← hkept]
  refine h.add hforward hfiled.named (hfiled.leaves message hparse) hstore ?_
  intro s pair hs hpair
  rw [hfound s hs] at hpair
  split at hpair
  next => cases hpair
  next =>
      obtain rfl := Option.some.inj hpair
      exact hfiled.ordered.1

theorem markEntry_fst (t : Toml) (read : Bool) (now entry : Str) (e : Str × Node) :
    (markEntry t read now entry e).1 = e.1 := by
  unfold markEntry
  split
  · split <;> rfl
  · rfl

/-- A mark rewrites what is read of an entry. -/
theorem entryContent_markEntry (t : Toml) (read : Bool) (now : Str) (e : Str × Node) :
    entryContent (markEntry t read now e.1 e) = (entryContent e).map (markFile t read now) := by
  obtain ⟨entry, node⟩ := e
  unfold markEntry entryContent
  rw [if_pos rfl]
  cases node with
  | file content =>
      dsimp only
      split <;> rfl
  | dir files =>
      dsimp only
      induction files with
      | nil => rfl
      | cons f files ih =>
          by_cases hname : f.1 = mdName entry
          · rw [List.map_cons, if_pos hname, List.find?_cons_of_pos (by simpa using hname),
              List.find?_cons_of_pos (by simpa using hname)]
            rfl
          · rw [List.map_cons, if_neg hname, List.find?_cons_of_neg (by simpa using hname),
              List.find?_cons_of_neg (by simpa using hname)]
            exact ih

/-- **One mark** on the file of a printed record leaves one that is read alike. -/
theorem read_markFile {m : InboundFrontmatter} {body now : Str} {received : Int} {read : Bool}
    (hundoes : UndoesPrint env.toml m) (h : Printed env m body received)
    (hmarked : Printed env (m.setRead read now) body received) :
    readFrontmatterIdPair env.chrono (markFile env.toml read now (utf8 (formatFrontmatter env.toml m body))) =
      readFrontmatterIdPair env.chrono (utf8 (formatFrontmatter env.toml m body)) := by
  obtain ⟨hcut, hwhole⟩ := @markContent_formatted env.toml m body hundoes read now
  unfold markFile
  rw [fromUtf8_eq_some_iff.mpr rfl]
  dsimp only
  -- a record with a `+++` in a string is refused, and its file stays as it is
  by_cases hplus : "+++".toList <:+: env.toml.toString m
  · rw [hcut hplus]
  · rw [hwhole hplus]
    dsimp only
    rw [hmarked.read, h.read]
    rfl

/-- A mark keeps what the reader finds, and the names. -/
theorem Files.mark (h : Files env d pairs) {entry now : Str} {read : Bool}
    (hremarked : Remarked env d entry read now) :
    Files env (d.map (markEntry env.toml read now entry)) pairs := by
  have hsame : ∀ e ∈ d, readEntry env.chrono (markEntry env.toml read now entry e) =
      readEntry env.chrono e := by
    intro e he
    -- the entry that is marked is read as before, and the others are the same
    by_cases hname : e.1 = entry
    · subst hname
      unfold readEntry
      rw [entryContent_markEntry]
      cases hfile : entryContent e with
      | none => rfl
      | some content =>
          obtain ⟨m, body, received, rfl, hundoes, hprinted, hmarked⟩ := hremarked e he rfl content hfile
          exact read_markFile hundoes hprinted hmarked
    · have hother : markEntry env.toml read now entry e = e := if_neg hname
      rw [hother]
  constructor
  case found =>
    rw [List.filterMap_map, ← h.found]
    exact List.filterMap_congr hsame
  case cut =>
    intro marked hmarked
    obtain ⟨e, he, rfl⟩ := List.mem_map.mp hmarked
    obtain ⟨hcuts, hold⟩ := h.cut e he
    unfold CutsOnlyOld
    rw [markEntry_fst, hsame e he]
    exact ⟨hcuts, hold⟩

end Store

/-! ## One event -/

section Step

variable {env : Env} {name : Str} {st : MailboxStore} {t : Ledger} {a : Attempt}

/-- The mailbox and the list of its messages answer alike. -/
structure Agrees (env : Env) (st : MailboxStore) (t : Ledger) : Prop where
  dir : st.dir = t.dir
  files : Files env t.dir (t.log.map Kept.pair)
  distinct : Distinct t.log t.now
  recalls : ∀ cache, st.cache = some cache → Recalls env.makeDedupSparkv cache t.log t.now

theorem Ledger.remembers_iff {id : Str} {now : Int} :
    t.remembers id now = true ↔ id ≠ [] ∧ ∃ k ∈ t.log, k.id = id ∧ now < k.stored + dedupTtl := by
  unfold Ledger.remembers
  rw [Bool.and_eq_true, decide_eq_true_eq, List.any_eq_true]
  simp only [decide_eq_true_eq]

/-- A store that recalls the messages finds the duplicates among them. -/
theorem contains_eq_remembers (hkeeps : env.makeDedupSparkv.Keeps) {cache : Cache}
    (hrecalls : Recalls env.makeDedupSparkv cache t.log a.now) (hdistinct : Distinct t.log t.now)
    (hsteady : Steady env t a) (hid : env.messageId a.raw ≠ []) :
    env.makeDedupSparkv.containsKey cache a.now (env.messageId a.raw) =
      t.remembers (env.messageId a.raw) a.now := by
  rw [Bool.eq_iff_iff, Ledger.remembers_iff, hrecalls.contains_iff hkeeps hsteady.young]
  constructor
  · rintro ⟨k, hk, hkey⟩
    have hyoung := hsteady.young k hk hkey
    have hpast := (hdistinct.past k hk).1
    refine ⟨hid, k, hk, hkey, ?_⟩
    unfold nanosPerSec at hyoung
    omega
  · rintro ⟨-, k, hk, hkey, -⟩
    exact ⟨k, hk, hkey⟩

/-- **The check for duplicates** finds what the list says, with a store that was kept or is built now. -/
theorem checkDuplicate_eq (hkeeps : env.makeDedupSparkv.Keeps) (h : Agrees env st t)
    (hsteady : Steady env t a) :
    ∃ found : Option Cache,
      (∀ cache, found = some cache → Recalls env.makeDedupSparkv cache t.log a.now) ∧
        checkDuplicate env a.now a.raw a.faults.readable st =
          if t.remembers (env.messageId a.raw) a.now then .duplicate found else .fresh found := by
  have hkept : ∀ cache, st.cache = some cache → Recalls env.makeDedupSparkv cache t.log a.now :=
    fun cache hcache => (h.recalls cache hcache).mono hsteady.later
  by_cases hid : env.messageId a.raw = []
  · refine ⟨st.cache, hkept, ?_⟩
    have hnot : ¬ t.remembers (env.messageId a.raw) a.now = true := fun hyes =>
      (Ledger.remembers_iff.mp hyes).1 hid
    rw [checkDuplicate, if_pos hid, if_neg hnot]
  · have hall : (st.dir.filter fun e => a.faults.readable e.1) = t.dir := by
      rw [h.dir]
      exact List.filter_eq_self.mpr fun e _ => hsteady.readable e.1
    obtain ⟨cache, hcache, hrecalls⟩ : ∃ cache, st.cache.or (buildDedupCacheFromDisk env.chrono a.now
        (st.dir.filter fun e => a.faults.readable e.1)) = some cache ∧
          Recalls env.makeDedupSparkv cache t.log a.now := by
      rw [hall, h.files.build]
      cases hst : st.cache with
      | some cache => exact ⟨cache, rfl, hkept cache hst⟩
      | none => exact ⟨_, rfl, recalls_rebuilt hkeeps (h.distinct.mono hsteady.later) hsteady.room.le⟩
    refine ⟨some cache, fun other hother => Option.some.inj hother ▸ hrecalls, ?_⟩
    rw [checkDuplicate, if_neg hid, hcache]
    dsimp only
    rw [contains_eq_remembers hkeeps hrecalls h.distinct hsteady hid]

/-- A message that is no duplicate has a Message-Id of its own. -/
theorem Distinct.store (h : Distinct t.log t.now) (hfiled : Filed env name t.dir a)
    (hsteady : Steady env t a) (hnew : ¬ t.remembers (env.messageId a.raw) a.now = true)
    (stored : Option StoredMessage) : Distinct (t.log ++ a.kept env stored) a.now := by
  have hold := h.mono hsteady.later
  have hordered := hfiled.ordered
  constructor
  case past =>
    refine List.forall_mem_append.mpr ⟨hold.past, fun k hk => ?_⟩
    obtain ⟨-, hreceived, hstored, -⟩ := mem_kept hk
    omega
  case apart =>
    have hsingle : (a.kept env stored).Pairwise fun k k' : Kept => k.id ≠ k'.id := by
      unfold Attempt.kept
      split
      · split
        · exact List.Pairwise.nil
        · exact List.pairwise_singleton _ _
      · exact List.Pairwise.nil
    refine List.pairwise_append.mpr ⟨h.apart, hsingle, fun k hk k' hk' hsame => ?_⟩
    obtain ⟨hid, -, -, hne⟩ := mem_kept hk'
    -- an older message of its Message-Id is not 24 hours old, and makes it a duplicate
    have hyoung := hsteady.young k hk (hsame.trans hid)
    have hpast := (h.past k hk).1
    unfold nanosPerSec at hyoung
    exact hnew (Ledger.remembers_iff.mpr ⟨hne, k, hk, hsame.trans hid, by omega⟩)

/-- The store with the new message recalls it behind the others. -/
theorem Recalls.enter (hkeeps : env.makeDedupSparkv.Keeps) {cache : Cache}
    (h : Recalls env.makeDedupSparkv cache t.log a.now) (hfiled : Filed env name t.dir a)
    (hdistinct : Distinct t.log t.now) (hsteady : Steady env t a) (s : StoredMessage) :
    Recalls env.makeDedupSparkv (env.makeDedupSparkv.enter cache a.now (env.messageId a.raw) s.id)
      (t.log ++ a.kept env (some s)) a.now := by
  have hordered := hfiled.ordered
  have hlater := hsteady.later
  have hlength := h.length
  have hroom := hsteady.room
  have hsecond : 0 < nanosPerSec := by decide
  -- fewer calls than the maximum were made, so the insert does not fail
  have hfree : env.makeDedupSparkv.HasRoom cache a.now := by
    apply SparKV.hasRoom_of_length
    show cache.length < dedupMaxItems
    omega
  have hentry := hkeeps.entry_enter hfree (env.messageId a.raw) s.id
  constructor
  case held =>
    intro k hk hlive
    have hreceived : k.received ≤ a.now := by
      rcases List.mem_append.mp hk with hk | hk
      · have hpast := hdistinct.past k hk
        omega
      · have hkept := (mem_kept hk).2.1
        omega
    rw [hentry]
    split
    · exact ⟨_, rfl, by omega⟩
    · next hother =>
        rcases List.mem_append.mp hk with hk | hk
        · exact h.held k hk hlive
        · exact absurd ⟨(mem_kept hk).2.2.2, (mem_kept hk).1⟩ hother
  case calls =>
    have hold : ∀ c ∈ cache, c.time ≤ a.now ∧ ∃ k ∈ t.log ++ a.kept env (some s), k.id = c.key := by
      intro c hc
      obtain ⟨htime, k, hk, hkey⟩ := h.calls c hc
      exact ⟨htime, k, List.mem_append_left _ hk, hkey⟩
    rw [SparKV.enter_eq]
    split
    next => exact hold
    next hid =>
        refine List.forall_mem_cons.mpr ⟨⟨le_rfl, ⟨env.messageId a.raw, a.received, a.now⟩, ?_, rfl⟩, hold⟩
        rw [Attempt.kept, if_neg hid]
        exact List.mem_append_right _ (List.mem_singleton_self _)
  case length =>
    rw [SparKV.enter_eq, Attempt.kept, List.length_append]
    split
    · rw [List.length_nil]
      omega
    · rw [List.length_cons, List.length_singleton]
      omega

/-- **One delivery** ends in the mailbox as it does in the list of its messages. -/
theorem ingest_agrees (hkeeps : env.makeDedupSparkv.Keeps) (hforward : env.chrono.Forward)
    (h : Agrees env st t) (hfiled : Filed env name t.dir a) (hsteady : Steady env t a) :
    (mailboxMachine env name st (.ingest a)).2 = (ledger env name t (.ingest a)).2 ∧
      Agrees env (mailboxMachine env name st (.ingest a)).1 (ledger env name t (.ingest a)).1 := by
  have hunchanged : Agrees env st { t with now := a.now } :=
    { dir := h.dir
      files := h.files
      distinct := h.distinct.mono hsteady.later
      recalls := fun cache hcache => (h.recalls cache hcache).mono hsteady.later }
  unfold mailboxMachine ledger
  dsimp only
  unfold ingestEmail
  cases hinbox : a.faults.inbox with
  | true => exact ⟨rfl, hunchanged⟩
  | false =>
      rw [if_neg Bool.false_ne_true, if_neg Bool.false_ne_true]
      cases hparse : env.parse a.raw with
      | none => exact ⟨rfl, hunchanged⟩
      | some message =>
          obtain ⟨found, hrecalls, hcheck⟩ := checkDuplicate_eq hkeeps h hsteady
          dsimp only
          rw [hcheck]
          -- both go on alike from here: a duplicate, or a message that is stored
          by_cases hdup : t.remembers (env.messageId a.raw) a.now = true
          · rw [if_pos hdup, if_pos hdup]
            exact ⟨rfl, h.dir, h.files, h.distinct.mono hsteady.later, hrecalls⟩
          · rw [if_neg hdup, if_neg hdup, h.dir]
            dsimp only
            cases hstore : storeFaulty env.unicode t.dir (a.delivery env name message) a.faults with
            | mk dir stored =>
                have hwrite : storeFaulty env.unicode t.dir
                    (a.writing.delivery env a.config a.rcpt name a.raw message) a.faults = (dir, stored) :=
                  hstore
                have hfiles := h.files.store hforward hfiled hparse hstore
                have hdistinct := h.distinct.store hfiled hsteady hdup stored
                rw [hwrite]
                cases stored with
                | none =>
                    rw [Attempt.kept, List.append_nil] at hfiles hdistinct
                    exact ⟨rfl, rfl, hfiles, hdistinct, hrecalls⟩
                | some s =>
                    refine ⟨rfl, rfl, hfiles, hdistinct, fun cache hcache => ?_⟩
                    obtain ⟨old, hold, rfl⟩ := Option.map_eq_some_iff.mp hcache
                    exact (hrecalls old hold).enter hkeeps hfiled h.distinct hsteady s

end Step

/-! ## Over every history -/

section Histories

variable {env : Env} {name : Str}

/-- What is remembered of an event. -/
def Happening.kept (env : Env) : Happening → Option Outcome → List Kept
  | .ingest a, some (.stored s) => a.kept env (some s)
  | _, _ => []

/-- The mailbox, with a record of its messages that it does not read. -/
def recordedMachine (env : Env) (name : Str) :
    Machine (MailboxStore × List Kept) Happening (Option Outcome) :=
  fun s e =>
    (((mailboxMachine env name s.1 e).1, s.2 ++ e.kept env (mailboxMachine env name s.1 e).2),
      (mailboxMachine env name s.1 e).2)

/-- **One event**, whatever it finds in the store: the reader finds the messages that are recorded. -/
theorem files_happen (hforward : env.chrono.Forward) {st : MailboxStore} {log : List Kept} {e : Happening}
    (h : Files env st.dir (log.map Kept.pair)) (hfiled : FiledHappening env name st.dir e) :
    Files env (mailboxMachine env name st e).1.dir
      ((log ++ e.kept env (mailboxMachine env name st e).2).map Kept.pair) := by
  cases e with
  | mark entry read now =>
      rw [Happening.kept, List.append_nil]
      · exact h.mark hfiled
      · exact fun _ _ heq _ => by cases heq
  | ingest a =>
      have hnothing : Files env st.dir ((log ++ []).map Kept.pair) := by rwa [List.append_nil]
      unfold mailboxMachine ingestEmail
      dsimp only
      split
      next => exact hnothing
      next =>
          split
          next => exact hnothing
          next message hparse =>
              split
              next => exact hnothing
              next => exact hnothing
              next found _ =>
                  cases hstore : storeFaulty env.unicode st.dir (a.delivery env name message) a.faults with
                  | mk dir stored =>
                      have hwrite : storeFaulty env.unicode st.dir
                          (a.writing.delivery env a.config a.rcpt name a.raw message) a.faults =
                            (dir, stored) := hstore
                      have hfiles := h.store hforward hfiled hparse hstore
                      rw [hwrite]
                      cases stored <;> exact hfiles

/-- **A rebuilt store holds the messages of the last 24 hours.**  Behind every history of deliveries, with any
failures that leave nothing to be read, marks and restarts, a store that is built from the directory holds
exactly the Message-Ids under which a message was stored that arrived less than 24 hours ago. -/
theorem rebuilt_of_run (hkeeps : env.makeDedupSparkv.Keeps) (hforward : env.chrono.Forward)
    {es : List (Option Happening)}
    (hfiled : Machine.MeetsRestarts (recordedMachine env name) (Prod.map MailboxStore.restart id)
      (fun s e => FiledHappening env name s.1.dir e) (⟨[], none⟩, []) es) {last : MailboxStore × List Kept}
    (hlast : (Machine.replayRestarts (recordedMachine env name) (Prod.map MailboxStore.restart id)
      (⟨[], none⟩, []) es).1 = last) {now : Int}
    (hroom : (last.2.filter fun k => decide (now < k.received + dedupTtl)).length ≤ dedupMaxItems)
    (hpast : ∀ k ∈ last.2, k.received ≤ now) :
    ∃ cache, buildDedupCacheFromDisk env.chrono now last.1.dir = some cache ∧
      ∀ id, env.makeDedupSparkv.containsKey cache now id = true ↔
        ∃ k ∈ last.2, k.id = id ∧ now < k.received + dedupTtl := by
  -- the invariant of the history: the reader finds the messages that are recorded
  have hfiles : Files env last.1.dir (last.2.map Kept.pair) := by
    rw [← hlast]
    refine Machine.replayRestarts_invariant (I := fun s : MailboxStore × List Kept =>
      Files env s.1.dir (s.2.map Kept.pair)) ?_ ?_ (files_nil env) hfiled
    · exact fun s e hs he => files_happen hforward hs he
    · exact fun s hs => hs
  refine ⟨_, hfiles.build now, fun id => ?_⟩
  have hpairs : ∀ p ∈ last.2.map Kept.pair, p.2 ≤ now := by
    intro p hp
    obtain ⟨k, hk, rfl⟩ := List.mem_map.mp hp
    exact hpast k hk
  have hrecent : (recent now (last.2.map Kept.pair)).length ≤ dedupMaxItems := by
    rwa [recent, List.filter_map, List.length_map]
  rw [contains_rebuilt_iff hkeeps hrecent hpairs]
  constructor
  · rintro ⟨p, hp, hid, hlive⟩
    obtain ⟨k, hk, rfl⟩ := List.mem_map.mp hp
    exact ⟨k, hk, hid, hlive⟩
  · rintro ⟨k, hk, hid, hlive⟩
    exact ⟨k.pair, List.mem_map_of_mem hk, hid, hlive⟩

/-- The mailbox refines the list of its messages. -/
theorem mailbox_refines (hkeeps : env.makeDedupSparkv.Keeps) (hforward : env.chrono.Forward) :
    Machine.Refines (mailboxMachine env name) (ledger env name) (SteadyHappening env name) (Agrees env) := by
  have hstep : ∀ {st : MailboxStore} {t : Ledger} {e : Happening}, Agrees env st t →
      SteadyHappening env name t e → (mailboxMachine env name st e).2 = (ledger env name t e).2 ∧
        Agrees env (mailboxMachine env name st e).1 (ledger env name t e).1 := by
    intro st t e h he
    cases e with
    | ingest a => exact ingest_agrees hkeeps hforward h he.1 (he.2 a rfl)
    | mark entry read now =>
        refine ⟨rfl, ?_, h.files.mark he.1, h.distinct, h.recalls⟩
        show st.dir.map _ = t.dir.map _
        rw [h.dir]
  exact ⟨fun h he => (hstep h he).1, fun h he => (hstep h he).2⟩

/-- The new mailbox. -/
theorem agrees_empty (start : Int) : Agrees env ⟨[], none⟩ ⟨[], [], start⟩ where
  dir := rfl
  files := files_nil env
  distinct := ⟨by simp, List.Pairwise.nil⟩
  recalls := fun cache hcache => by cases hcache

/-- **Restarts change no delivery.**  A history of a mailbox in which every delivery leaves a file that can be
read, and none comes within a second of the time at which a message of its Message-Id is 24 hours old, ends in
the same directory, and each delivery as it would, without the restarts. -/
theorem restarts_transparent (hkeeps : env.makeDedupSparkv.Keeps) (hforward : env.chrono.Forward)
    {start : Int} {es : List (Option Happening)}
    (hsteady : Machine.Meets (ledger env name) (SteadyHappening env name) ⟨[], [], start⟩ es.reduceOption) :
    (Machine.replayRestarts (mailboxMachine env name) MailboxStore.restart ⟨[], none⟩ es).2 =
        (Machine.replay (mailboxMachine env name) ⟨[], none⟩ es.reduceOption).2 ∧
      (Machine.replayRestarts (mailboxMachine env name) MailboxStore.restart ⟨[], none⟩ es).1.dir =
        (Machine.replay (mailboxMachine env name) ⟨[], none⟩ es.reduceOption).1.dir := by
  have hrestart : ∀ {st : MailboxStore} {t : Ledger}, Agrees env st t → Agrees env st.restart t :=
    fun h => ⟨h.dir, h.files, h.distinct, fun cache hcache => by cases hcache⟩
  obtain ⟨hanswers, t, hleft, hright⟩ :=
    (mailbox_refines hkeeps hforward).replayRestarts_transparent hrestart (agrees_empty start) hsteady
  exact ⟨hanswers, hleft.dir.trans hright.dir.symm⟩

end Histories

/-- A delivery on the first morning of 2025. -/
def helloAttempt (now : Int) : Attempt where
  config := twoMailboxes
  rcpt := "alice@example.org".toList
  raw := helloRaw
  now := now
  writing := helloWriting
  faults := .none
  received := 1735689601 * nanosPerSec
  stamped := 1735689601 * nanosPerSec

theorem newYear_forward : newYear.Forward := by
  have hsteps : ∀ first second third : Str, ¬ second < first → ¬ third < first → ¬ third < second →
      ∀ early late s t : Int, early ≤ late → s ≤ t →
        ¬ (if t < early then first else if t < late then second else third) <
          (if s < early then first else if s < late then second else third) := by
    intro first second third h₁ h₂ h₃ early late s t hearly hle
    by_cases ht : t < early
    · rw [if_pos ht, if_pos (by omega)]
      exact List.lt_irrefl first
    · rw [if_neg ht]
      by_cases hs : s < early
      · rw [if_pos hs]
        split
        · exact h₁
        · exact h₂
      · rw [if_neg hs]
        by_cases ht' : t < late
        · rw [if_pos ht', if_pos (by omega)]
          exact List.lt_irrefl second
        · rw [if_neg ht']
          split
          · exact h₃
          · exact List.lt_irrefl third
  intro s t hle
  exact hsteps _ _ _ (by decide) (by decide) (by decide) _ _ s t (by decide) hle

/-- The ids of the first delivery and of the one behind it. -/
def firstId : Str := "2025-01-01-000001-hello".toList
def secondId : Str := "2025-01-01-000001-hello-2".toList

/-- The record of the delivery, under an id. -/
def helloRecord (id : Str) : InboundFrontmatter :=
  (helloAttempt (1735689601 * nanosPerSec)).record helloEnv "alice".toList helloMessage id

/-- The TOML library, with a parser for the first record. -/
def markingToml : Toml :=
  { lineToml with
    fromStr := fun s =>
      if s = trim ('\n' :: lineToml.toString (helloRecord firstId)) then some (helloRecord firstId)
      else none }

def markingEnv : Env := { helloEnv with toml := markingToml }

theorem markingEnv_keeps : markingEnv.makeDedupSparkv.Keeps := memorySparKV_keeps

/-- The records under the two ids, and the first one with its mark. -/
def helloRecords : List InboundFrontmatter :=
  [helloRecord firstId, helloRecord secondId,
    (helloRecord firstId).setRead true "2025-01-01T00:00:30Z".toList]

theorem printed_helloRecords : ∀ m ∈ helloRecords,
    Printed markingEnv m helloMessage.body (1735689601 * nanosPerSec) := by
  intro m hm
  have hlaid : ∀ m ∈ helloRecords, Laid m := by decide +kernel
  have hid : ∀ m ∈ helloRecords, m.messageId = "m1@example.net".toList := by decide +kernel
  have hshort : ∀ m ∈ helloRecords,
      4 * (formatFrontmatter lineToml m helloMessage.body).length ≤ headSize := by decide +kernel
  have htime : ∀ m ∈ helloRecords, '"' ∉ m.receivedAt ∧
      newYear.parseRfc3339 m.receivedAt = some (1735689601 * nanosPerSec) := by decide +kernel
  have hbytes := (byteLen_le (formatFrontmatter lineToml m helloMessage.body)).trans (hshort m hm)
  obtain ⟨rest, -, htotal⟩ := formatFrontmatter_front lineToml m helloMessage.body
  constructor
  case lists =>
    have hlists := (hlaid m hm).lists
    refine ⟨_, _, _, _, ⟨hlists.layout, hlists.id, hlists.line, hlists.last, hlists.other⟩, fun _ => ?_⟩
    rw [hid m hm]
    exact ⟨by decide, by decide⟩
  case fits =>
    intro _
    show byteLen (lineToml.toString m) + 7 ≤ headSize
    omega
  case whole => exact fun _ => windowWhole_of_length (hshort m hm)
  case quote => exact (htime m hm).1
  case time => exact (htime m hm).2

theorem filed_hello {d : MailDir} {now : Int} {stem : Str} (hnow : 1735689601 * nanosPerSec ≤ now)
    (hstem : helloRecord stem ∈ helloRecords) (hid : (MdPath.flat stem).id = stem)
    (hpath : allocateFilename d helloWriting.timestamp (slugify asciiUnicode "hello".toList) false =
      some (.flat stem)) : Filed markingEnv "alice".toList d (helloAttempt now) where
  ordered := ⟨le_rfl, hnow⟩
  named := (by decide +kernel : helloWriting.timestamp.datePart = newYear.date (1735689601 * nanosPerSec) ∧
    helloWriting.timestamp.datePart.length = 10)
  leaves := by
    intro message _
    right
    intro path _
    cases path with
    | flat stem => exact fun _ => rfl
    | bundle stem => exact Or.inl fun keep hkeep => by cases hkeep
  printed := by
    intro message path hparse hallocated
    have hhello : markingEnv.parse helloRaw = some helloMessage := by
      show (if helloRaw = helloRaw then some helloMessage else none) = some helloMessage
      exact if_pos rfl
    obtain rfl : helloMessage = message := Option.some.inj (hhello.symm.trans hparse)
    have hsame : allocateFilename d helloWriting.timestamp (slugify asciiUnicode "hello".toList) false =
        some path := hallocated
    obtain rfl : MdPath.flat stem = path := Option.some.inj (hpath.symm.trans hsame)
    rw [hid]
    exact printed_helloRecords _ hstem

theorem filed_first {now : Int} (hnow : 1735689601 * nanosPerSec ≤ now) :
    Filed markingEnv "alice".toList [] (helloAttempt now) :=
  filed_hello hnow List.mem_cons_self (by decide +kernel : (MdPath.flat firstId).id = firstId)
    (by decide +kernel)

theorem markingToml_toString (m : InboundFrontmatter) : markingToml.toString m = lineToml.toString m := by
  simp only [markingToml]

theorem markingToml_fromStr (s : Str) : markingToml.fromStr s =
    if s = trim ('\n' :: lineToml.toString (helloRecord firstId)) then some (helloRecord firstId)
    else none := by
  simp only [markingToml]

theorem markingToml_undoesPrint : UndoesPrint markingToml (helloRecord firstId) where
  parse := by
    rw [markingToml_fromStr, markingToml_toString, if_pos rfl]
  newline := by
    have hline : (lineToml.toString (helloRecord firstId)).dropLast ++ ['\n'] =
        lineToml.toString (helloRecord firstId) := by decide +kernel
    exact ⟨_, hline.symm⟩
  cut := by
    intro block rest hprint
    have hplus : ¬ "+++".toList <:+: lineToml.toString (helloRecord firstId) := by decide +kernel
    exact absurd ⟨block, rest, hprint.symm⟩ hplus

/-- The mark on the first delivery. -/
theorem remarked_first : Remarked markingEnv
    [(mdName firstId, .file (utf8 (formatFrontmatter markingToml (helloRecord firstId) helloMessage.body)))]
    (mdName firstId) true "2025-01-01T00:00:30Z".toList := by
  have hmarked : (helloRecord firstId).setRead true "2025-01-01T00:00:30Z".toList ∈ helloRecords :=
    List.mem_cons_of_mem _ (List.mem_cons_of_mem _ List.mem_cons_self)
  intro e he _ content hcontent
  obtain rfl := List.mem_singleton.mp he
  obtain rfl := Option.some.inj hcontent
  exact ⟨helloRecord firstId, helloMessage.body, _, rfl, markingToml_undoesPrint,
    printed_helloRecords _ List.mem_cons_self, printed_helloRecords _ hmarked⟩

/-- A delivery, a mark on it, a restart, and the same message a minute later. -/
def retryHistory : List (Option Happening) :=
  [some (.ingest (helloAttempt (1735689601 * nanosPerSec))),
    some (.mark (mdName firstId) true "2025-01-01T00:00:30Z".toList), none,
    some (.ingest (helloAttempt (1735689661 * nanosPerSec)))]

/-- The retry ends as it does without the restart. -/
theorem restarts_transparent_retry :
    (Machine.replayRestarts (mailboxMachine markingEnv "alice".toList) MailboxStore.restart ⟨[], none⟩
        retryHistory).2 =
      (Machine.replay (mailboxMachine markingEnv "alice".toList) ⟨[], none⟩ retryHistory.reduceOption).2 := by
  have hsteady : Machine.Meets (ledger markingEnv "alice".toList) (SteadyHappening markingEnv "alice".toList)
      ⟨[], [], 0⟩ retryHistory.reduceOption := by
    refine ⟨⟨filed_first le_rfl, ?_⟩, ⟨remarked_first, fun a ha => by cases ha⟩,
      ⟨filed_hello (by decide) (List.mem_cons_of_mem _ List.mem_cons_self)
        (by decide +kernel : (MdPath.flat secondId).id = secondId) (by decide +kernel), ?_⟩, trivial⟩
    · rintro a ⟨⟩
      exact ⟨by decide +kernel, fun _ => rfl, by decide +kernel, by decide +kernel⟩
    · rintro a ⟨⟩
      exact ⟨by decide +kernel, fun _ => rfl, by decide +kernel, by decide +kernel⟩
  exact (restarts_transparent markingEnv_keeps newYear_forward hsteady).1

/-- After a delivery, a mark and a restart, two minutes later, the store holds the Message-Id. -/
theorem rebuilt_of_run_retry : ∃ cache, buildDedupCacheFromDisk newYear (1735689721 * nanosPerSec)
      (Machine.replayRestarts (recordedMachine markingEnv "alice".toList) (Prod.map MailboxStore.restart id)
        (⟨[], none⟩, []) (retryHistory.take 3)).1.1.dir = some cache ∧
    markingEnv.makeDedupSparkv.containsKey cache (1735689721 * nanosPerSec) "m1@example.net".toList =
      true := by
  have hfiled : Machine.MeetsRestarts (recordedMachine markingEnv "alice".toList)
      (Prod.map MailboxStore.restart id) (fun s e => FiledHappening markingEnv "alice".toList s.1.dir e)
      (⟨[], none⟩, []) (retryHistory.take 3) :=
    ⟨filed_first le_rfl, remarked_first, trivial⟩
  have hkept : ∀ k ∈ (Machine.replayRestarts (recordedMachine markingEnv "alice".toList)
      (Prod.map MailboxStore.restart id) (⟨[], none⟩, []) (retryHistory.take 3)).1.2,
        k.received ≤ 1735689721 * nanosPerSec := by decide +kernel
  obtain ⟨cache, hcache, hiff⟩ := rebuilt_of_run markingEnv_keeps newYear_forward hfiled rfl
    (by decide +kernel) hkept
  exact ⟨cache, hcache, (hiff _).mpr (by decide +kernel)⟩

end Ingest
end Aimx
