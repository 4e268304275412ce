import Aimx.Ingest.Restarts

/-!
# Duplicates across a restart

The small reader is not a reader of TOML: it finds a Message-Id where it stands in double quotes as it is, in
a record that ends within the first 16 KiB of the file.  Here TOML may write the Message-Ids in any way, and
each message counts by itself.

* `Chronicle` — a mailbox, and what is known of each message that was stored in it;
* `Posted.readId` — what the reader takes for the Message-Id of a message;
* `Told` — the reader tells a Message-Id: it finds it in the messages that have it, and in no other;
* `Knows` — what a duplicate store holds of the messages of one Message-Id;
* `duplicates_across_restart` — what a store that is built holds, and when a restart changes no decision.
-/

namespace Aimx
namespace Ingest

open Text Transition
open scoped Literal

/-! ## The stored messages -/

/-- A delivery, and what TOML writes for the Message-Id of its record. -/
structure Posting extends Attempt where
  idWritten : Str

/-- A stored message: its record, what is written there for its Message-Id, the time that its file says, and
the time at which it was stored. -/
structure Posted where
  record : InboundFrontmatter
  idWritten : Str
  received : Int
  stored : Int

def Posted.id (k : Posted) : Str := k.record.messageId

/-- The record ends within the window of the small reader. -/
def Posted.Fits (env : Env) (k : Posted) : Prop := byteLen (env.toml.toString k.record) + 7 ≤ headSize

instance (env : Env) (k : Posted) : Decidable (k.Fits env) := inferInstanceAs (Decidable (_ ≤ _))

/-- What the reader takes for the Message-Id: what stands in double quotes at the start of the value. -/
def Posted.readId (env : Env) (k : Posted) : Option Str :=
  if k.Fits env then (quotedStart k.idWritten).filter fun id => decide (id ≠ []) else none

/-- What the reader finds of a stored message. -/
def Posted.pair (env : Env) (k : Posted) : Option (Str × Int) := (k.readId env).map fun id => (id, k.received)

/-- A mailbox, the messages that were stored in it, and the time of the last delivery. -/
structure Chronicle where
  mailbox : MailboxStore
  log : List Posted
  now : Int

/-- What is known of the message of a delivery. -/
def Posting.posted (env : Env) (name : Str) (p : Posting) : Outcome → List Posted
  | .stored s =>
      match env.parse p.raw with
      | some message => [⟨p.record env name message s.id, p.idWritten, p.received, p.now⟩]
      | none => []
  | _ => []

/-- A delivery, with a record of the messages that nothing reads. -/
def chronicle (env : Env) (name : Str) : Machine Chronicle Posting Outcome := fun s p =>
  let r := ingestEmail env p.config p.rcpt name p.raw p.now p.writing p.faults s.mailbox
  (⟨r.1, s.log ++ p.posted env name r.2, p.now⟩, r.2)

def Chronicle.restart (s : Chronicle) : Chronicle := { s with mailbox := s.mailbox.restart }

/-- A new mailbox. -/
def Chronicle.empty (start : Int) : Chronicle := ⟨⟨[], none⟩, [], start⟩

/-! ## What the theorem is about -/

/-- A delivery of which TOML prints the record as lines, with any writing of the Message-Id, and of whose file
the first 16 KiB end between two characters; it stands under a name with the date of its time, and leaves
nothing to be read where it fails. -/
structure FiledAs (env : Env) (name : Str) (d : MailDir) (p : Posting) : Prop where
  ordered : p.received ≤ p.stamped ∧ p.stamped ≤ p.now
  named : p.writing.timestamp.datePart = env.chrono.date p.stamped ∧
    p.writing.timestamp.datePart.length = 10
  leaves : ∀ message, env.parse p.raw = some message →
    LeavesNothing env d (p.delivery env name message) p.faults
  printed : ∀ message path, env.parse p.raw = some message →
    allocateFilename d p.writing.timestamp (slugify env.unicode (p.delivery env name message).subject)
      (!p.writing.attachments.isEmpty) = some path →
    (∃ front middle after,
        env.toml.Lists (p.record env name message path.id) front p.idWritten middle after) ∧
      WindowWhole (formatFrontmatter env.toml (p.record env name message path.id) message.body) ∧
      '"' ∉ p.writing.arrival.now ∧ env.chrono.parseRfc3339 p.writing.arrival.now = some p.received

/-- The messages of the last 24 hours. -/
def recentLog (now : Int) (log : List Posted) : List Posted :=
  log.filter fun k => decide (now < k.received + dedupTtl)

/-- A delivery that comes later than the ones before it and finds every file readable if the store is built,
and room in the store; and not in the last second before a message of its Message-Id is 24 hours old. -/
structure Orderly (env : Env) (s : Chronicle) (p : Posting) : Prop where
  later : s.now ≤ p.now
  readable : ∀ entry, p.faults.readable entry = true
  recent : (recentLog p.now s.log).length < dedupMaxItems
  room : ∀ cache, s.mailbox.cache = some cache → env.makeDedupSparkv.HasRoom cache p.now
  repeats : ∀ k ∈ s.log, k.id = env.messageId p.raw →
    p.now < k.received + dedupTtl - nanosPerSec ∨ k.received + dedupTtl ≤ p.now

/-- The small reader finds a Message-Id in the messages that have it, and takes no other one for it. -/
def Told (env : Env) (id : Str) (log : List Posted) : Prop := ∀ k ∈ log, k.readId env = some id ↔ k.id = id

/-- A Message-Id that the small reader tells, and of which every stored message is younger than 24 hours, less
a second; or none. -/
def Recalled (env : Env) (log : List Posted) (now : Int) (id : Str) : Prop :=
  id ≠ [] → Told env id log ∧ ∀ k ∈ log, k.id = id → now < k.received + dedupTtl - nanosPerSec

/-- What the check for duplicates decides for a message; `none` where it panics. -/
def isDuplicate (env : Env) (now : Int) (raw : Bytes) (st : MailboxStore) : Option Bool :=
  match checkDuplicate env now raw (fun _ => true) st with
  | .panicked => none
  | .duplicate _ => some true
  | .fresh _ => some false

/-! ## The reader -/

section Reader

variable {env : Env} {k : Posted}

/-- The reader finds the Message-Id of a message where it stands in double quotes as it is, within the
window. -/
theorem Posted.readId_eq_id_iff (h : TomlString k.id k.idWritten) (hid : k.id ≠ []) :
    k.readId env = some k.id ↔ IsPlain k.id k.idWritten ∧ k.Fits env := by
  unfold Posted.readId
  by_cases hfits : k.Fits env
  · rw [if_pos hfits, and_iff_left hfits, ← h.quotedStart_iff hid, Option.filter_eq_some_iff]
    exact and_iff_left (decide_eq_true hid)
  · rw [if_neg hfits]
    exact iff_of_false (fun hnone => by cases hnone) fun hboth => hfits hboth.2

end Reader

/-- What the reader finds in the file of a posted message. -/
theorem found_eq_pair {env : Env} {name : Str} {d : MailDir} {p : Posting} {message : Message} {dir : MailDir}
    {stored : StoredMessage} (hfiled : FiledAs env name d p) (hparse : env.parse p.raw = some message)
    (hstore : storeFaulty env.unicode d (p.delivery env name message) p.faults = (dir, some stored)) :
    p.found env name message stored =
      Posted.pair env ⟨p.record env name message stored.id, p.idWritten, p.received, p.now⟩ := by
  obtain ⟨path, hpath, hid⟩ := allocated_of_stored hstore
  obtain ⟨⟨front, middle, after, hlists⟩, hwhole, hquote, htime⟩ := hfiled.printed message path hparse hpath
  rw [← hid] at hlists hwhole
  unfold Attempt.found Posted.pair Posted.readId
  by_cases hfits : Posted.Fits env ⟨p.record env name message stored.id, p.idWritten, p.received, p.now⟩
  · have hreceived : env.chrono.parseRfc3339 (p.record env name message stored.id).receivedAt =
        some p.received := htime
    rw [if_pos hfits, read_within hlists hquote hfits hwhole, hreceived]
    cases quotedStart p.idWritten with
    | none => rfl
    | some id =>
        rw [Option.bind_some, Option.filter_some]
        by_cases hnil : id = []
        · rw [if_pos hnil, if_neg (by simpa using hnil)]
          rfl
        · rw [if_neg hnil, if_pos (decide_eq_true hnil)]
          rfl
  · rw [if_neg hfits, read_beyond hlists fun hboth => hfits hboth.1]
    rfl

/-! ## One delivery -/

section Delivery

variable {env : Env} {name : Str} {s : Chronicle} {p : Posting}

/-- What the reader finds in the directory is what is known of the messages. -/
structure Chronicle.Filed (env : Env) (s : Chronicle) : Prop where
  files : Files env s.mailbox.dir (s.log.filterMap (Posted.pair env))
  written : ∀ k ∈ s.log, TomlString k.id k.idWritten

/-- What one delivery can do to a mailbox. -/
theorem chronicle_cases :
    (chronicle env name s p).1 = ⟨s.mailbox, s.log, p.now⟩ ∨
      (∃ found, checkDuplicate env p.now p.raw p.faults.readable s.mailbox = .duplicate found ∧
        (chronicle env name s p).1 = ⟨⟨s.mailbox.dir, found⟩, s.log, p.now⟩) ∨
      ∃ found message dir stored,
        checkDuplicate env p.now p.raw p.faults.readable s.mailbox = .fresh found ∧
        env.parse p.raw = some message ∧
        storeFaulty env.unicode s.mailbox.dir (p.delivery env name message) p.faults = (dir, stored) ∧
        (stored = none ∧ (chronicle env name s p).1 = ⟨⟨dir, found⟩, s.log, p.now⟩ ∨
          ∃ st, stored = some st ∧ (chronicle env name s p).1 =
            ⟨⟨dir, found.map fun cache =>
                env.makeDedupSparkv.enter cache p.now (env.messageId p.raw) st.id⟩,
              s.log ++ [⟨p.record env name message st.id, p.idWritten, p.received, p.now⟩], p.now⟩) := by
  unfold chronicle ingestEmail
  dsimp only
  have hsame : ∀ mailbox, (⟨mailbox, s.log ++ [], p.now⟩ : Chronicle) = ⟨mailbox, s.log, p.now⟩ := fun _ => by
    rw [List.append_nil]
  cases hinbox : p.faults.inbox with
  | true => exact Or.inl (hsame _)
  | false =>
      rw [if_neg Bool.false_ne_true]
      cases hparse : env.parse p.raw with
      | none => exact Or.inl (hsame _)
      | some message =>
          dsimp only
          cases hcheck : checkDuplicate env p.now p.raw p.faults.readable s.mailbox with
          | panicked => exact Or.inl (hsame _)
          | duplicate found => exact Or.inr (Or.inl ⟨found, rfl, hsame _⟩)
          | fresh found =>
              cases hstore : storeFaulty env.unicode s.mailbox.dir (p.delivery env name message) p.faults with
              | mk dir stored =>
                  have hwrite : storeFaulty env.unicode s.mailbox.dir
                      (p.writing.delivery env p.config p.rcpt name p.raw message) p.faults = (dir, stored) :=
                    hstore
                  refine Or.inr (Or.inr ⟨found, message, dir, stored, rfl, rfl, hstore, ?_⟩)
                  rw [hwrite]
                  cases stored with
                  | none => exact Or.inl ⟨rfl, hsame _⟩
                  | some st => exact Or.inr ⟨st, rfl, by unfold Posting.posted; dsimp only; rw [hparse]⟩

/-- **One delivery**, whatever it finds in the duplicate store: the reader finds its message behind the
others, as far as it reads it. -/
theorem Chronicle.Filed.post (h : s.Filed env) (hforward : env.chrono.Forward)
    (hfiled : FiledAs env name s.mailbox.dir p) : (chronicle env name s p).1.Filed env := by
  rcases @chronicle_cases env name s p with
    hsame | ⟨found, -, hdup⟩ | ⟨found, message, dir, stored, -, hparse, hstore, hend⟩
  · rw [hsame]
    exact ⟨h.files, h.written⟩
  · rw [hdup]
    exact ⟨h.files, h.written⟩
  · have hpair : ∀ st, stored = some st → p.found env name message st =
        Posted.pair env ⟨p.record env name message st.id, p.idWritten, p.received, p.now⟩ := by
      rintro st rfl
      exact found_eq_pair hfiled hparse hstore
    have hadd := h.files.add hforward hfiled.named (hfiled.leaves message hparse) hstore (by
      intro st pair hst hfound
      rw [hpair st hst] at hfound
      obtain ⟨id, -, rfl⟩ := Option.map_eq_some_iff.mp hfound
      exact hfiled.ordered.1)
    rcases hend with ⟨rfl, hfailed⟩ | ⟨st, rfl, hstored⟩
    · rw [Option.bind_none, Option.toList_none, List.append_nil] at hadd
      rw [hfailed]
      exact ⟨hadd, h.written⟩
    · rw [Option.bind_some, hpair st rfl] at hadd
      obtain ⟨path, hpath, hid⟩ := allocated_of_stored hstore
      obtain ⟨⟨front, middle, after, hlists⟩, -⟩ := hfiled.printed message path hparse hpath
      rw [← hid] at hlists
      rw [hstored]
      refine ⟨?_, List.forall_mem_append.mpr ⟨h.written, List.forall_mem_singleton.mpr hlists.id⟩⟩
      rw [List.filterMap_append, List.filterMap_cons, List.filterMap_nil]
      generalize Posted.pair env _ = pair at hadd ⊢
      cases pair <;> exact hadd

end Delivery

/-! ## What is known of one Message-Id -/

section Known

variable {env : Env} {id : Str} {log : List Posted} {now : Int} {cache : Cache}

/-- No two messages of a Message-Id are younger than 24 hours together. -/
def Apart (id : Str) (log : List Posted) : Prop :=
  log.Pairwise fun k k' => k.id = id → k'.id = id → k.received + dedupTtl ≤ k'.stored

/-- The messages are of the past. -/
def Past (log : List Posted) (now : Int) : Prop := ∀ k ∈ log, k.received ≤ k.stored ∧ k.stored ≤ now

/-- A store knows the messages of a Message-Id: calls for it are of these messages, and each of them has an
entry until it is 24 hours old, less a second. -/
structure Knows (env : Env) (id : Str) (log : List Posted) (now : Int) (cache : Cache) : Prop where
  times : ∀ c ∈ cache, c.time ≤ now
  keys : ∀ c ∈ cache, c.key = id → ∃ k ∈ log, k.id = id
  held : ∀ k ∈ log, k.id = id → now < k.received + dedupTtl - nanosPerSec →
    ∃ e, env.makeDedupSparkv.entry cache id = some e ∧ k.received + dedupTtl - nanosPerSec < e

theorem Knows.mono (h : Knows env id log now cache) {now' : Int} (hle : now ≤ now') :
    Knows env id log now' cache where
  times := fun c hc => (h.times c hc).trans hle
  keys := h.keys
  held := fun k hk hid hlive => h.held k hk hid (lt_of_le_of_lt hle hlive)

theorem Past.mono (h : Past log now) {now' : Int} (hle : now ≤ now') : Past log now' :=
  fun k hk => ⟨(h k hk).1, (h k hk).2.trans hle⟩

/-- What a store contains that knows a Message-Id, while its messages are younger than 24 hours, less a
second. -/
theorem Knows.contains_iff (hkeeps : env.makeDedupSparkv.Keeps) (h : Knows env id log now cache)
    (hyoung : ∀ k ∈ log, k.id = id → now < k.received + dedupTtl - nanosPerSec) :
    env.makeDedupSparkv.containsKey cache now id = true ↔ ∃ k ∈ log, k.id = id := by
  constructor
  · intro hcontains
    obtain ⟨c, hc, hkey⟩ := List.mem_map.mp (SparKV.mem_of_containsKey hcontains)
    exact h.keys c hc hkey
  · rintro ⟨k, hk, hid⟩
    obtain ⟨e, hentry, hlate⟩ := h.held k hk hid (hyoung k hk hid)
    exact hkeeps.kept h.times hentry ((hyoung k hk hid).trans hlate)

/-- Two messages of a Message-Id that are both younger than 24 hours are one. -/
theorem Apart.eq_of_live (h : Apart id log) (hpast : Past log now) {k k' : Posted} (hk : k ∈ log)
    (hk' : k' ∈ log) (hid : k.id = id) (hid' : k'.id = id) (hlive : now < k.received + dedupTtl)
    (hlive' : now < k'.received + dedupTtl) : k = k' := by
  have hsymm : Std.Symm fun k k' : Posted => k.id = id → k'.id = id →
      k.received + dedupTtl ≤ k'.stored ∨ k'.received + dedupTtl ≤ k.stored :=
    ⟨fun _ _ hor hid hid' => (hor hid' hid).symm⟩
  by_contra hne
  have hboth : log.Pairwise fun k k' : Posted => k.id = id → k'.id = id →
      k.received + dedupTtl ≤ k'.stored ∨ k'.received + dedupTtl ≤ k.stored :=
    h.imp fun hle hid hid' => Or.inl (hle hid hid')
  have hor := hboth.forall hk hk' hne hid hid'
  have hstored := (hpast k hk).2
  have hstored' := (hpast k' hk').2
  omega

theorem length_recent_filterMap_pair (env : Env) (log : List Posted) (now : Int) :
    (recent now (log.filterMap (Posted.pair env))).length ≤ (recentLog now log).length := by
  have hsame : recent now (log.filterMap (Posted.pair env)) =
      (recentLog now log).filterMap (Posted.pair env) := by
    unfold recent recentLog
    rw [List.filter_filterMap, List.filterMap_filter]
    refine List.filterMap_congr fun k _ => ?_
    unfold Posted.pair
    cases k.readId env with
    | none => simp
    | some id => simp [Option.filter_some]
  rw [hsame]
  exact List.length_filterMap_le _ _

/-- A pair is of a message under the Message-Id that is read. -/
theorem mem_filterMap_pair {pair : Str × Int} (h : pair ∈ log.filterMap (Posted.pair env)) :
    ∃ k ∈ log, k.readId env = some pair.1 ∧ k.received = pair.2 := by
  obtain ⟨k, hk, hpair⟩ := List.mem_filterMap.mp h
  obtain ⟨id, hread, rfl⟩ := Option.map_eq_some_iff.mp hpair
  exact ⟨k, hk, hread, rfl⟩

theorem mem_pair_of_readId {k : Posted} (hk : k ∈ log) (hread : k.readId env = some id) :
    (id, k.received) ∈ log.filterMap (Posted.pair env) :=
  List.mem_filterMap.mpr ⟨k, hk, by rw [Posted.pair, hread, Option.map_some]⟩

/-- **A rebuilt store knows the messages** of a Message-Id that the reader tells. -/
theorem knows_rebuilt (hkeeps : env.makeDedupSparkv.Keeps) (htold : Told env id log) (hapart : Apart id log)
    (hpast : Past log now) (hroom : (recentLog now log).length ≤ dedupMaxItems) :
    Knows env id log now (rebuilt now (log.filterMap (Posted.pair env))) := by
  have hpairs : ∀ pair ∈ log.filterMap (Posted.pair env), pair.2 ≤ now := by
    intro pair hpair
    obtain ⟨k, hk, -, hreceived⟩ := mem_filterMap_pair hpair
    rw [← hreceived]
    exact (hpast k hk).1.trans (hpast k hk).2
  have hrecent := (length_recent_filterMap_pair env log now).trans hroom
  obtain ⟨-, hcalls⟩ := rebuilt_calls now (log.filterMap (Posted.pair env))
  constructor
  case times => exact fun c hc => (hcalls c hc).1.le
  case keys =>
    rintro c hc rfl
    obtain ⟨-, pair, hpair, hkey⟩ := hcalls c hc
    obtain ⟨k, hk, hread, -⟩ := mem_filterMap_pair hpair
    rw [hkey] at hread
    exact ⟨k, hk, (htold k hk).mp hread⟩
  case held =>
    intro k hk hid hlive
    have hnow : now < k.received + dedupTtl := by
      unfold nanosPerSec at hlive
      omega
    have hmem := mem_pair_of_readId hk ((htold k hk).mpr hid)
    obtain ⟨expiry, hexpiry⟩ := Option.ne_none_iff_exists'.mp
      (rebuilt_ne_none hkeeps hrecent hpairs hmem hnow)
    obtain ⟨pair, hpair, hkey, hplive, rfl⟩ := exists_of_rebuilt hkeeps hrecent hpairs hexpiry
    obtain ⟨k', hk', hread, hreceived⟩ := mem_filterMap_pair hpair
    rw [hkey] at hread
    -- the entry is of a message under this Message-Id, and there is only one that is young
    rw [← hreceived] at hplive hexpiry
    obtain rfl := hapart.eq_of_live hpast hk' hk ((htold k' hk').mp hread) hid hplive hnow
    exact ⟨_, hexpiry, (loadedExpiry_bounds hplive).2.1⟩

end Known

/-! ## One delivery, and what is known of a Message-Id -/

section Check

variable {env : Env} {name id : Str} {s : Chronicle} {p : Posting} {now : Int} {raw : Bytes}
  {readable : Str → Bool} {st : MailboxStore} {found : Option Cache}

/-- The store that a check leaves is the one that was there, or one that it has built. -/
theorem checkDuplicate_found (h : checkDuplicate env now raw readable st = .duplicate found ∨
    checkDuplicate env now raw readable st = .fresh found) : found = st.cache ∨ ∃ cache, found = some cache ∧
      buildDedupCacheFromDisk env.chrono now (st.dir.filter fun e => readable e.1) = some cache := by
  unfold checkDuplicate at h
  by_cases hid : env.messageId raw = []
  · rw [if_pos hid] at h
    rcases h with h | h
    · cases h
    · exact Or.inl (DuplicateCheck.fresh.inj h).symm
  · rw [if_neg hid] at h
    cases hcache : st.cache.or (buildDedupCacheFromDisk env.chrono now
        (st.dir.filter fun e => readable e.1)) with
    | none =>
        rw [hcache] at h
        rcases h with h | h <;> cases h
    | some cache =>
        rw [hcache] at h
        dsimp only at h
        have hfound : found = some cache := by
          split at h
          · rcases h with h | h
            · exact (DuplicateCheck.duplicate.inj h).symm
            · cases h
          · rcases h with h | h
            · cases h
            · exact (DuplicateCheck.fresh.inj h).symm
        rcases Option.or_eq_some_iff.mp hcache with hkept | ⟨-, hbuilt⟩
        · exact Or.inl (hfound.trans hkept.symm)
        · exact Or.inr ⟨cache, hfound, hbuilt⟩

/-- A store does not contain the Message-Id of a message that passes. -/
theorem not_contains_of_fresh (h : checkDuplicate env now raw readable st = .fresh found)
    (hid : env.messageId raw ≠ []) :
    ∃ cache, found = some cache ∧ env.makeDedupSparkv.containsKey cache now (env.messageId raw) = false := by
  unfold checkDuplicate at h
  rw [if_neg hid] at h
  split at h
  next => cases h
  next cache _ =>
      split at h
      next => cases h
      next hnot => exact ⟨cache, (DuplicateCheck.fresh.inj h).symm, Bool.eq_false_iff.mpr hnot⟩

/-- A mailbox behind orderly deliveries: the reader finds what is known of the messages, and if it tells the
Message-Id, the store knows it. -/
structure Chronicle.Settled (env : Env) (id : Str) (s : Chronicle) : Prop where
  filed : s.Filed env
  past : Past s.log s.now
  apart : Told env id s.log → Apart id s.log
  known : Told env id s.log → ∀ cache, s.mailbox.cache = some cache → Knows env id s.log s.now cache

/-- A store that was there, or that is built from all files, knows the messages. -/
theorem Chronicle.Settled.consult (hkeeps : env.makeDedupSparkv.Keeps) (h : s.Settled env id)
    (htold : Told env id s.log) (hlater : s.now ≤ now) (hreadable : ∀ entry, readable entry = true)
    (hrecent : (recentLog now s.log).length ≤ dedupMaxItems)
    (hfound : found = s.mailbox.cache ∨ ∃ cache, found = some cache ∧
      buildDedupCacheFromDisk env.chrono now (s.mailbox.dir.filter fun e => readable e.1) = some cache)
    {cache : Cache} (hcache : found = some cache) :
    Knows env id s.log now cache ∧
      (s.mailbox.cache = some cache ∨ cache.length ≤ (recentLog now s.log).length) := by
  rcases hfound with hkept | ⟨built, hbuilt, hbuild⟩
  · have hsame : s.mailbox.cache = some cache := hkept.symm.trans hcache
    exact ⟨(h.known htold cache hsame).mono hlater, Or.inl hsame⟩
  · have hall : (s.mailbox.dir.filter fun e => readable e.1) = s.mailbox.dir :=
      List.filter_eq_self.mpr fun e _ => hreadable e.1
    rw [hall, h.filed.files.build, Option.some.injEq] at hbuild
    obtain rfl : built = cache := Option.some.inj (hbuilt.symm.trans hcache)
    rw [← hbuild]
    refine ⟨knows_rebuilt hkeeps htold (h.apart htold) (h.past.mono hlater) hrecent, Or.inr ?_⟩
    exact (rebuilt_calls now _).1.trans (length_recent_filterMap_pair env s.log now)

/-- The store with a new message knows it behind the others. -/
theorem Knows.enter (hkeeps : env.makeDedupSparkv.Keeps) {log : List Posted} {cache : Cache}
    (h : Knows env id log now cache) (hid : id ≠ []) (hroom : env.makeDedupSparkv.HasRoom cache now)
    (hpast : Past log now) {k : Posted} (hreceived : k.received ≤ now) (value : Str) :
    Knows env id (log ++ [k]) now (env.makeDedupSparkv.enter cache now k.id value) := by
  have hsecond : 0 < nanosPerSec := by decide
  have hmem : k ∈ log ++ [k] := List.mem_append_right _ (List.mem_singleton_self k)
  have hold : ∀ c ∈ cache, c.key = id → ∃ k' ∈ log ++ [k], k'.id = id := by
    intro c hc hkey
    obtain ⟨k', hk', hid'⟩ := h.keys c hc hkey
    exact ⟨k', List.mem_append_left _ hk', hid'⟩
  have hentry := hkeeps.entry_enter hroom k.id value id
  constructor
  case times =>
    rw [SparKV.enter_eq]
    split
    next => exact h.times
    next => exact List.forall_mem_cons.mpr ⟨le_rfl, h.times⟩
  case keys =>
    rw [SparKV.enter_eq]
    split
    next => exact hold
    next => exact List.forall_mem_cons.mpr ⟨fun hkey => ⟨k, hmem, hkey⟩, hold⟩
  case held =>
    intro k' hk' hid' hlive
    rw [hentry]
    by_cases hnew : k.id = id
    · -- the entry is new, and ends behind that of every other message
      have hpast' : k'.received ≤ now := by
        rcases List.mem_append.mp hk' with hk' | hk'
        · exact (hpast k' hk').1.trans (hpast k' hk').2
        · rwa [List.mem_singleton.mp hk']
      exact ⟨_, if_pos ⟨fun hnil => hid (hnew.symm.trans hnil), hnew.symm⟩, by omega⟩
    · rw [if_neg fun hboth => hnew hboth.2.symm]
      rcases List.mem_append.mp hk' with hk' | hk'
      · exact h.held k' hk' hid' hlive
      · rw [List.mem_singleton.mp hk'] at hid'
        exact absurd hid' hnew

/-- **One delivery** in order keeps what is known of a Message-Id. -/
theorem Chronicle.Settled.post (hkeeps : env.makeDedupSparkv.Keeps) (hforward : env.chrono.Forward)
    (hid : id ≠ []) (h : s.Settled env id) (hfiled : FiledAs env name s.mailbox.dir p)
    (horderly : Orderly env s p) : (chronicle env name s p).1.Settled env id := by
  have hpast := h.past.mono horderly.later
  -- the stores that a check can leave
  have hleft : Told env id s.log → ∀ found,
      (checkDuplicate env p.now p.raw p.faults.readable s.mailbox = .duplicate found ∨
        checkDuplicate env p.now p.raw p.faults.readable s.mailbox = .fresh found) →
      ∀ cache, found = some cache → Knows env id s.log p.now cache ∧
        env.makeDedupSparkv.HasRoom cache p.now := by
    intro htold found hcheck cache hcache
    obtain ⟨hknows, hstore⟩ := h.consult hkeeps htold horderly.later horderly.readable horderly.recent.le
      (checkDuplicate_found hcheck) hcache
    refine ⟨hknows, hstore.elim (horderly.room cache) fun hshort => SparKV.hasRoom_of_length ?_⟩
    exact hshort.trans_lt horderly.recent
  have hnext := h.filed.post hforward hfiled
  -- without a new message, the store is known as it is left
  have hquiet : ∀ dir found, (chronicle env name s p).1 = ⟨⟨dir, found⟩, s.log, p.now⟩ →
      (Told env id s.log → ∀ cache, found = some cache → Knows env id s.log p.now cache) →
      (chronicle env name s p).1.Settled env id := by
    intro dir found hend hknown
    rw [hend] at hnext ⊢
    exact ⟨hnext, hpast, h.apart, hknown⟩
  rcases @chronicle_cases env name s p with
    hsame | ⟨found, hcheck, hdup⟩ | ⟨found, message, dir, stored, hcheck, hparse, hstore, hend⟩
  · exact hquiet _ _ hsame fun htold cache hcache => (h.known htold cache hcache).mono horderly.later
  · exact hquiet _ _ hdup fun htold cache hcache => (hleft htold found (Or.inl hcheck) cache hcache).1
  rcases hend with ⟨-, hfailed⟩ | ⟨st, -, hstored⟩
  · exact hquiet _ _ hfailed fun htold cache hcache => (hleft htold found (Or.inr hcheck) cache hcache).1
  · have hname : ∀ recordId, (p.record env name message recordId).messageId = env.messageId p.raw := by
      intro recordId
      rw [Env.messageId, hparse]
      rfl
    have hreceived := hfiled.ordered
    have htold : ∀ k, Told env id (s.log ++ [k]) → Told env id s.log :=
      fun _ htold k' hk' => htold k' (List.mem_append_left _ hk')
    rw [hstored] at hnext ⊢
    refine ⟨hnext, ?_, fun hall => ?_, fun hall cache hcache => ?_⟩
    · refine List.forall_mem_append.mpr ⟨hpast, List.forall_mem_singleton.mpr ⟨?_, le_rfl⟩⟩
      exact hreceived.1.trans hreceived.2
    · -- an older message of the Message-Id that is still young makes a duplicate of the new one
      refine List.pairwise_append.mpr ⟨h.apart (htold _ hall), List.pairwise_singleton _ _, ?_⟩
      intro k hk k' hk' hkid hid'
      obtain rfl := List.mem_singleton.mp hk'
      have hraw : env.messageId p.raw = id := (hname st.id).symm.trans hid'
      obtain ⟨cache, hcache, hnot⟩ := not_contains_of_fresh hcheck (hraw ▸ hid)
      rw [hraw] at hnot
      obtain ⟨hknows, -⟩ := hleft (htold _ hall) found (Or.inr hcheck) cache hcache
      refine (horderly.repeats k hk (hkid.trans hraw.symm)).resolve_left fun hyoung => ?_
      obtain ⟨e, hentry, hlate⟩ := hknows.held k hk hkid hyoung
      rw [hkeeps.kept hknows.times hentry (hyoung.trans hlate)] at hnot
      cases hnot
    · obtain ⟨old, hold, rfl⟩ := Option.map_eq_some_iff.mp hcache
      obtain ⟨hknows, hroom⟩ := hleft (htold _ hall) found (Or.inr hcheck) old hold
      have henter := hknows.enter hkeeps hid hroom hpast
        (k := ⟨p.record env name message st.id, p.idWritten, p.received, p.now⟩)
        (hreceived.1.trans hreceived.2) st.id
      have hkey : Posted.id ⟨p.record env name message st.id, p.idWritten, p.received, p.now⟩ =
          env.messageId p.raw := hname st.id
      rwa [hkey] at henter

/-- A message with a Message-Id is a duplicate if the store that is there, or one that is built, contains
it. -/
theorem isDuplicate_of_consult {cache : Cache} (hid : env.messageId raw ≠ [])
    (hcache : st.cache.or (buildDedupCacheFromDisk env.chrono now st.dir) = some cache) :
    isDuplicate env now raw st =
      some (env.makeDedupSparkv.containsKey cache now (env.messageId raw)) := by
  have hall : (st.dir.filter fun _ => true) = st.dir := List.filter_eq_self.mpr fun _ _ => rfl
  unfold isDuplicate checkDuplicate
  rw [if_neg hid, hall, hcache]
  dsimp only
  cases env.makeDedupSparkv.containsKey cache now (env.messageId raw) <;> rfl

/-- Behind a restart, the store is built. -/
theorem isDuplicate_restart {cache : Cache} (hid : env.messageId raw ≠ [])
    (hbuild : buildDedupCacheFromDisk env.chrono now st.dir = some cache) :
    isDuplicate env now raw st.restart =
      some (env.makeDedupSparkv.containsKey cache now (env.messageId raw)) :=
  isDuplicate_of_consult hid hbuild

/-- **The decision** for a message, by the store that is there or by one that is built: it is a duplicate if
it has a Message-Id, and a message of it was stored. -/
theorem Chronicle.Settled.isDuplicate_eq (hkeeps : env.makeDedupSparkv.Keeps)
    (h : env.messageId raw ≠ [] → s.Settled env (env.messageId raw)) (hlater : s.now ≤ now)
    (hrecent : (recentLog now s.log).length ≤ dedupMaxItems)
    (hrecalled : Recalled env s.log now (env.messageId raw)) :
    isDuplicate env now raw s.mailbox =
      some (decide (env.messageId raw ≠ [] ∧ ∃ k ∈ s.log, k.id = env.messageId raw)) := by
  by_cases hid : env.messageId raw = []
  · unfold isDuplicate checkDuplicate
    rw [if_pos hid, decide_eq_false fun hboth => hboth.1 hid]
  have hsettled := h hid
  obtain ⟨htold, hyoung⟩ := hrecalled hid
  obtain ⟨cache, hcache⟩ : ∃ cache, s.mailbox.cache.or (buildDedupCacheFromDisk env.chrono now
      s.mailbox.dir) = some cache := by
    rw [hsettled.filed.files.build]
    cases s.mailbox.cache with
    | none => exact ⟨_, rfl⟩
    | some cache => exact ⟨cache, rfl⟩
  have hall : (s.mailbox.dir.filter fun _ => true) = s.mailbox.dir := List.filter_eq_self.mpr fun _ _ => rfl
  have hfound : some cache = s.mailbox.cache ∨ ∃ built, some cache = some built ∧
      buildDedupCacheFromDisk env.chrono now (s.mailbox.dir.filter fun _ => true) = some built := by
    rcases Option.or_eq_some_iff.mp hcache with hkept | ⟨-, hbuilt⟩
    · exact Or.inl hkept.symm
    · exact Or.inr ⟨cache, rfl, hall.symm ▸ hbuilt⟩
  obtain ⟨hknows, -⟩ := hsettled.consult hkeeps htold hlater (fun _ => rfl) hrecent hfound rfl
  rw [isDuplicate_of_consult hid hcache, Option.some.injEq, Bool.eq_iff_iff, decide_eq_true_eq,
    and_iff_right hid]
  exact hknows.contains_iff hkeeps hyoung

theorem Chronicle.Filed.restart (h : s.Filed env) : s.restart.Filed env := ⟨h.files, h.written⟩

theorem Chronicle.Settled.restart (h : s.Settled env id) : s.restart.Settled env id where
  filed := h.filed.restart
  past := h.past
  apart := h.apart
  known := fun _ cache hcache => by cases hcache

theorem filed_empty (start : Int) : (Chronicle.empty start).Filed env :=
  ⟨files_nil env, fun k hk => by cases hk⟩

theorem settled_empty (start : Int) : (Chronicle.empty start).Settled env id where
  filed := filed_empty start
  past := fun k hk => by cases hk
  apart := fun _ => List.Pairwise.nil
  known := fun _ cache hcache => by cases hcache

end Check

/-! ## Over every history -/

/-- A delivery whose record TOML prints for the reader is one of these. -/
theorem Filed.filedAs {env : Env} {name : Str} {d : MailDir} {a : Attempt} (h : Filed env name d a)
    (hid : env.messageId a.raw ≠ []) : FiledAs env name d ⟨a, '"' :: (env.messageId a.raw ++ ['"'])⟩ where
  ordered := h.ordered
  named := h.named
  leaves := h.leaves
  printed := by
    intro message path hparse hpath
    have hprinted := h.printed message path hparse hpath
    have hname : (a.record env name message path.id).messageId = env.messageId a.raw := by
      rw [Env.messageId, hparse]
      rfl
    obtain ⟨front, written, middle, after, hlists, hplain⟩ := hprinted.lists
    rw [hname] at hplain
    rw [(hplain hid).1] at hlists
    exact ⟨⟨front, middle, after, hlists⟩, hprinted.whole (hname ▸ hid), hprinted.quote, hprinted.time⟩

/-- The first delivery, and its mailbox behind it. -/
def helloPosting : Posting := ⟨helloAttempt (1735689601 * nanosPerSec), "\"m1@example.net\"".toList⟩

def helloChronicle : Chronicle :=
  (Machine.replayRestarts (chronicle markingEnv "alice".toList) Chronicle.restart (Chronicle.empty 0)
    [none, some helloPosting]).1

/-- A Message-Id with a quoted part. -/
def quotedId : Str := "\"a b\"@example.net".toList

/-- A message under it. -/
def quotedRaw : Bytes :=
  utf8 "Message-ID: <\"a b\"@example.net>\r\nSubject: hello\r\n\r\nHello\r\n".toList

def quotedMessage : Message := { helloMessage with messageId := some quotedId }

def quotedEnv : Env :=
  { helloEnv with parse := fun raw => if raw = quotedRaw then some quotedMessage else none }

def quotedPosting : Posting :=
  ⟨{ helloAttempt (1735689601 * nanosPerSec) with raw := quotedRaw }, basicString quotedId⟩

/-- The mailbox behind its delivery. -/
def quotedChronicle : Chronicle :=
  (Machine.replayRestarts (chronicle quotedEnv "alice".toList) Chronicle.restart (Chronicle.empty 0)
    [some quotedPosting]).1

theorem quotedPosting_filedAs : FiledAs quotedEnv "alice".toList [] quotedPosting where
  ordered := ⟨le_rfl, le_rfl⟩
  named := (by decide +kernel : helloWriting.timestamp.datePart = newYear.date (1735689601 * nanosPerSec) ∧
    helloWriting.timestamp.datePart.length = 10)
  leaves := by
    intro message _
    right
    intro path _
    cases path with
    | flat stem => exact fun _ => rfl
    | bundle stem => exact Or.inl fun keep hkeep => by cases hkeep
  printed := by
    intro message path hparse hpath
    have hmessage : quotedEnv.parse quotedRaw = some quotedMessage := by
      show (if quotedRaw = quotedRaw then some quotedMessage else none) = some quotedMessage
      exact if_pos rfl
    obtain rfl : quotedMessage = message := Option.some.inj (hmessage.symm.trans hparse)
    have hfirst : allocateFilename [] helloWriting.timestamp (slugify asciiUnicode "hello".toList) false =
        some (.flat firstId) := by decide +kernel
    obtain rfl : MdPath.flat firstId = path := Option.some.inj (hfirst.symm.trans hpath)
    have hlaid : Laid (quotedPosting.record quotedEnv "alice".toList quotedMessage firstId) := by
      decide +kernel
    exact ⟨⟨_, _, _, hlaid.lists⟩, windowWhole_of_length (by decide +kernel), by decide +kernel,
      by decide +kernel⟩

theorem quotedChronicle_filed : quotedChronicle.Filed quotedEnv :=
  (filed_empty 0).post newYear_forward quotedPosting_filedAs

end Ingest
end Aimx
