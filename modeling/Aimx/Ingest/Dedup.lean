import Aimx.Ingest.Frontmatter
import Aimx.Ingest.Store

/-!
# The duplicate filter and its rebuilding

The daemon remembers the Message-Ids of a mailbox in a key-value store whose entries have a time to
live.  The store is built from the mailbox directory on the first delivery after a start, by a small
reader of front matter.

* `SparKV`, `SparKV.Keeps` — the library of the store, and what it promises of its entries;
* `readFrontmatterIdPair`, `buildDedupCacheFromDisk` — the reader, and the rebuilding;
* `memorySparKV` — a library that keeps its promises.
-/

namespace Aimx
namespace Ingest

open Text

/-! ## The store -/

/-- Times are nanoseconds since the epoch. -/
def nanosPerSec : Int := 1000000000

/-- `DEDUP_TTL`: 24 hours. -/
def dedupTtl : Int := 24 * 60 * 60 * nanosPerSec

/-- `DEDUP_MAX_ITEMS`. -/
def dedupMaxItems : Nat := 100000

/-- `DEDUP_MAX_VALUE_SIZE`. -/
def dedupMaxValueSize : Nat := 256

/-- `sparkv::Config`. -/
structure SparKVConfig where
  maxItems : Nat
  maxItemSize : Option Nat
  maxTtl : Int
  defaultTtl : Int
  autoClearExpired : Bool

/-- The configuration that `make_dedup_sparkv` gives to `SparKV::with_config`. -/
def dedupConfig : SparKVConfig where
  maxItems := dedupMaxItems
  maxItemSize := some dedupMaxValueSize
  maxTtl := dedupTtl
  defaultTtl := dedupTtl
  autoClearExpired := true

/-- A call of `SparKV::set_with_ttl`, with the time at which it is made. -/
structure SetCall where
  time : Int
  key : Str
  value : Str
  ttl : Int

/-- A store, by the calls that were made to it since it was created: the last one first. -/
abbrev Cache := List SetCall

/-- The library `sparkv`, with a configuration: what a store answers after some calls.  The laws are the
ones that hold whether or not `contains_key` still finds an entry whose time to live has ended. -/
structure SparKV (config : SparKVConfig) where
  /-- `SparKV::contains_key`, at a time. -/
  containsKey : Cache → Int → Str → Bool
  /-- The result of `SparKV::set_with_ttl`. -/
  setWithTtl : Cache → SetCall → Except Str Unit
  /-- A new store is empty. -/
  new : ∀ now key, containsKey [] now key = false
  /-- A call adds no key but its own, and none when it fails. -/
  call : ∀ {calls c now key}, containsKey (c :: calls) now key = true →
    key = c.key ∧ (setWithTtl calls c).isOk = true ∨ containsKey calls now key = true
  /-- No key appears without a call. -/
  later : ∀ {calls now now' key}, now ≤ now' → containsKey calls now' key = true →
    containsKey calls now key = true

/-- The value of an entry: the id of the message, if it is short enough. -/
def enteredValue (id : Str) : Str := if byteLen id ≤ dedupMaxValueSize then id else []

/-- The insert of `ingest_email`, after the message of an id is stored: nothing is entered for a message
without a Message-Id. -/
def SparKV.enter {config : SparKVConfig} (kv : SparKV config) (cache : Cache) (now : Int)
    (messageId id : Str) : Cache :=
  if messageId = [] then cache
  else
    let call : SetCall := ⟨now, messageId, enteredValue id, dedupTtl⟩
    match kv.setWithTtl cache call with
    | .ok _ => call :: cache
    -- the failure is logged, and the delivery goes on
    | .error _ => call :: cache

/-- When the entry of a key ends: the last call for the key that did not fail decides. -/
def SparKV.entry {config : SparKVConfig} (kv : SparKV config) : Cache → Str → Option Int
  | [], _ => none
  | c :: calls, key =>
      if key = c.key ∧ (kv.setWithTtl calls c).isOk = true then some (c.time + c.ttl)
      else kv.entry calls key

/-- Fewer than the maximum number of entries are in the store. -/
def SparKV.HasRoom {config : SparKVConfig} (kv : SparKV config) (calls : Cache) (now : Int) : Prop :=
  ∀ keys : List Str, keys.Nodup → (∀ key ∈ keys, kv.containsKey calls now key = true) →
    keys.length < config.maxItems

/-- What the library promises of the entries: they are kept until their time to live ends. -/
structure SparKV.Keeps {config : SparKVConfig} (kv : SparKV config) : Prop where
  kept : ∀ {calls : Cache} {now e : Int} {key : Str}, (∀ c ∈ calls, c.time ≤ now) →
    kv.entry calls key = some e → now < e → kv.containsKey calls now key = true
  /-- A call succeeds while there is room, with a value and a time to live within the maximum. -/
  accepted : ∀ {calls : Cache} {c : SetCall}, kv.HasRoom calls c.time →
    (∀ size ∈ config.maxItemSize, byteLen c.value ≤ size) → c.ttl ≤ config.maxTtl →
    (kv.setWithTtl calls c).isOk = true
  /-- A call with a longer time to live fails. -/
  capped : ∀ {calls : Cache} {c : SetCall}, (kv.setWithTtl calls c).isOk = true → c.ttl ≤ config.maxTtl

section Store

variable {config : SparKVConfig} {kv : SparKV config} {calls : Cache} {now : Int} {key : Str}

theorem SparKV.enter_eq (cache : Cache) (messageId id : Str) :
    kv.enter cache now messageId id =
      if messageId = [] then cache else ⟨now, messageId, enteredValue id, dedupTtl⟩ :: cache := by
  unfold SparKV.enter
  dsimp only
  split
  · rfl
  · split
    · rfl
    · rfl

/-- What a store contains has been entered. -/
theorem SparKV.entry_of_containsKey (h : kv.containsKey calls now key = true) :
    ∃ e, kv.entry calls key = some e := by
  induction calls with
  | nil =>
      rw [kv.new] at h
      cases h
  | cons c calls ih =>
      unfold SparKV.entry
      by_cases hnew : key = c.key ∧ (kv.setWithTtl calls c).isOk = true
      · exact ⟨_, if_pos hnew⟩
      · rw [if_neg hnew]
        exact ih ((kv.call h).resolve_left hnew)

theorem SparKV.mem_of_containsKey (h : kv.containsKey calls now key = true) :
    key ∈ calls.map SetCall.key := by
  induction calls with
  | nil =>
      rw [kv.new] at h
      cases h
  | cons c calls ih =>
      rw [List.map_cons, List.mem_cons]
      exact (kv.call h).imp And.left ih

/-- There is room after fewer calls than the maximum. -/
theorem SparKV.hasRoom_of_length (h : calls.length < config.maxItems) : kv.HasRoom calls now := by
  intro keys hnodup hkeys
  have hsub : keys ⊆ calls.map SetCall.key := fun key hkey => SparKV.mem_of_containsKey (hkeys key hkey)
  have hle := (List.subperm_of_subset hnodup hsub).length_le
  rw [List.length_map] at hle
  omega

/-- A key that is not found has no entry, or one that has ended. -/
theorem SparKV.Keeps.entry_le (h : kv.Keeps) (htimes : ∀ c ∈ calls, c.time ≤ now)
    (hnot : kv.containsKey calls now key = false) {e : Int} (hentry : kv.entry calls key = some e) :
    e ≤ now := by
  by_contra hlive
  rw [h.kept htimes hentry (by omega)] at hnot
  cases hnot

/-- No entry ends later than the maximum allows. -/
theorem SparKV.Keeps.entry_le_max (h : kv.Keeps) (htimes : ∀ c ∈ calls, c.time ≤ now) {e : Int}
    (hentry : kv.entry calls key = some e) : e ≤ now + config.maxTtl := by
  induction calls with
  | nil => cases hentry
  | cons c calls ih =>
      obtain ⟨hfirst, hrest⟩ := List.forall_mem_cons.mp htimes
      unfold SparKV.entry at hentry
      split at hentry
      next hnew =>
          have hcap := h.capped hnew.2
          have hend := Option.some.inj hentry
          omega
      next => exact ih hrest hentry

end Store

/-- The insert of a delivery succeeds while there is room. -/
theorem SparKV.Keeps.entry_enter {kv : SparKV dedupConfig} (h : kv.Keeps) {cache : Cache} {now : Int}
    (hroom : kv.HasRoom cache now) (messageId id key : Str) :
    kv.entry (kv.enter cache now messageId id) key =
      if messageId ≠ [] ∧ key = messageId then some (now + dedupTtl) else kv.entry cache key := by
  rw [SparKV.enter_eq]
  by_cases hid : messageId = []
  · rw [if_pos hid, if_neg fun hboth => hboth.1 hid]
  · have hsize : ∀ size ∈ dedupConfig.maxItemSize, byteLen (enteredValue id) ≤ size := by
      rintro size ⟨⟩
      unfold enteredValue
      split
      · assumption
      · exact Nat.zero_le _
    have hok := h.accepted (c := ⟨now, messageId, enteredValue id, dedupTtl⟩) hroom hsize
      (Int.le_refl dedupTtl)
    rw [if_neg hid, SparKV.entry]
    by_cases hkey : key = messageId
    · rw [if_pos ⟨hkey, hok⟩, if_pos ⟨hid, hkey⟩]
    · rw [if_neg fun hboth => hkey hboth.1, if_neg fun hboth => hkey hboth.2]

/-! ## The reader -/

/-- The calendar library, at what is used of it. -/
structure Chrono where
  /-- `DateTime::parse_from_rfc3339`, in UTC. -/
  parseRfc3339 : Str → Option Int
  /-- `format("%Y-%m-%d")`. -/
  date : Int → Str

/-- `parse_toml_string_value`. -/
def parseTomlStringValue (afterKey : Str) : Option Str := do
  let rest ← stripPrefix ['='] (trimStart afterKey)
  let rest ← stripPrefix ['"'] (trimStart rest)
  let (value, _) ← splitOnce '"' rest
  return value

/-- The value of a line that opens with a key. -/
def keyValue (key line : Str) : Option Str :=
  (stripPrefix key (trimStart line)).bind parseTomlStringValue

/-- One turn of the loop over the lines: the Message-Id and the time found so far. -/
def scanLine (found : Option Str × Option Str) (line : Str) : Option Str × Option Str :=
  match found.1, keyValue "message_id".toList line with
  | none, some value => (some value, found.2)
  | _, _ =>
      match found.2, keyValue "received_at".toList line with
      | none, some value => (found.1, some value)
      | _, _ => found

/-- The number of bytes that are read of a file. -/
def headSize : Nat := 16 * 1024

/-- `read_frontmatter_id_pair`, on the content of the file. -/
def readFrontmatterIdPair (c : Chrono) (content : Bytes) : Option (Str × Int) := do
  let head ← fromUtf8 (content.take headSize)
  let body ← (stripPrefix "+++\n".toList head).or (stripPrefix "+++\r\n".toList head)
  let (block, _) ← (body.dropInfix? "\n+++".toList).or (body.dropInfix? "\r\n+++".toList)
  let (messageId, receivedAt) := (lines block).foldl scanLine (none, none)
  let messageId ← messageId
  if messageId = [] then none
  else
    let receivedAt ← receivedAt
    let time ← c.parseRfc3339 receivedAt
    return (messageId, time)

/-! ## The rebuilding -/

/-- Whether an entry is passed over for the date in its name; `none` where cutting the name panics. -/
def datedBefore (cutoff name : Str) : Option Bool :=
  if byteLen name < 10 then some false
  else (fromUtf8 ((utf8 name).take 10)).map fun date => decide (date < cutoff)

/-- The content that is read of an entry: the `.md` file, or the file `<name>/<name>.md`. -/
def entryContent : Str × Node → Option Bytes
  | (name, .dir files) => (files.find? fun f => f.1 == mdName name).map Prod.snd
  | (name, .file content) => if ".md".toList.isSuffixOf name then some content else none

/-- What one entry of the directory adds to the store. -/
def loadEntry (c : Chrono) (now : Int) (cache : Cache) (e : Str × Node) : Option Cache :=
  match datedBefore (c.date (now - dedupTtl)) e.1 with
  | none => none
  | some true => some cache
  | some false =>
      match (entryContent e).bind (readFrontmatterIdPair c) with
      | none => some cache
      | some (messageId, receivedAt) =>
          let elapsed := now - receivedAt
          if dedupTtl ≤ elapsed then some cache
          else
            let remainingSecs := max ((dedupTtl - elapsed) / nanosPerSec) 1
            -- whether the call fails is not looked at
            some (⟨now, messageId, "loaded".toList, remainingSecs * nanosPerSec⟩ :: cache)

/-- `build_dedup_cache_from_disk`; `none` where it panics. -/
def buildDedupCacheFromDisk (c : Chrono) (now : Int) (d : MailDir) : Option Cache :=
  d.foldlM (loadEntry c now) []

/-! ## A store in memory -/

/-- Why a call fails, with the entries that are there. -/
def refusal (config : SparKVConfig) (entries : List (Str × Int)) (c : SetCall) : Option Str :=
  if config.maxItems ≤ entries.length ∧ ∀ e ∈ entries, e.1 ≠ c.key then some "CapacityExceeded".toList
  else if ∃ size ∈ config.maxItemSize, size < byteLen c.value then some "ItemSizeExceeded".toList
  else if config.maxTtl < c.ttl then some "TTLTooLong".toList
  else none

/-- The entries after some calls, each with its end; a call first removes those that have ended. -/
def memoryEntries (config : SparKVConfig) : Cache → List (Str × Int)
  | [] => []
  | c :: calls =>
      let live := (memoryEntries config calls).filter fun e => decide (c.time < e.2)
      match refusal config live c with
      | none => (c.key, c.time + c.ttl) :: live.filter fun e => decide (e.1 ≠ c.key)
      | some _ => live

/-- A store that keeps its entries in memory, and finds an entry until a call removes it. -/
def memorySparKV (config : SparKVConfig) : SparKV config where
  containsKey := fun calls _ key => (memoryEntries config calls).any fun e => decide (e.1 = key)
  setWithTtl := fun calls c =>
    match refusal config ((memoryEntries config calls).filter fun e => decide (c.time < e.2)) c with
    | none => .ok ()
    | some error => .error error
  new := fun _ _ => rfl
  call := by
    intro calls c _ key h
    unfold memoryEntries at h
    dsimp only at h ⊢
    cases hrefusal : refusal config
        ((memoryEntries config calls).filter fun e => decide (c.time < e.2)) c with
    | none =>
        rw [hrefusal, List.any_cons, Bool.or_eq_true, decide_eq_true_eq] at h
        rcases h with hkey | h
        · exact Or.inl ⟨hkey.symm, rfl⟩
        · obtain ⟨e, he, hkey⟩ := List.any_eq_true.mp h
          exact Or.inr (List.any_eq_true.mpr
            ⟨e, List.mem_of_mem_filter (List.mem_of_mem_filter he), hkey⟩)
    | some error =>
        rw [hrefusal] at h
        obtain ⟨e, he, hkey⟩ := List.any_eq_true.mp h
        exact Or.inr (List.any_eq_true.mpr ⟨e, List.mem_of_mem_filter he, hkey⟩)
  later := fun _ h => h

section Memory

variable {config : SparKVConfig} {calls : Cache} {c : SetCall} {key : Str}

theorem memorySparKV_isOk_iff : ((memorySparKV config).setWithTtl calls c).isOk = true ↔
    refusal config ((memoryEntries config calls).filter fun e => decide (c.time < e.2)) c = none := by
  unfold memorySparKV
  dsimp only
  cases refusal config ((memoryEntries config calls).filter fun e => decide (c.time < e.2)) c with
  | none => exact iff_of_true rfl rfl
  | some error => exact iff_of_false (fun h => by cases h) (fun h => by cases h)

theorem nodup_memoryEntries (calls : Cache) : ((memoryEntries config calls).map Prod.fst).Nodup := by
  induction calls with
  | nil => exact List.nodup_nil
  | cons c calls ih =>
      have hlive := ih.sublist ((List.filter_sublist (p := fun e => decide (c.time < e.2))).map Prod.fst)
      unfold memoryEntries
      dsimp only
      split
      · rw [List.map_cons, List.nodup_cons]
        refine ⟨fun hmem => ?_, hlive.sublist (List.filter_sublist.map Prod.fst)⟩
        obtain ⟨e, he, hkey⟩ := List.mem_map.mp hmem
        exact absurd hkey (of_decide_eq_true (List.mem_filter.mp he).2)
      · exact hlive

/-- An entry stays until it has ended. -/
theorem mem_memoryEntries {now e : Int} (htimes : ∀ c ∈ calls, c.time ≤ now)
    (hentry : (memorySparKV config).entry calls key = some e) (hlive : now < e) :
    (key, e) ∈ memoryEntries config calls := by
  induction calls with
  | nil => cases hentry
  | cons c calls ih =>
      obtain ⟨hfirst, hrest⟩ := List.forall_mem_cons.mp htimes
      unfold SparKV.entry at hentry
      unfold memoryEntries
      dsimp only
      split at hentry
      next hnew =>
          obtain rfl := Option.some.inj hentry
          rw [memorySparKV_isOk_iff.mp hnew.2, hnew.1]
          exact List.mem_cons_self
      next hother =>
          have hkept : (key, e) ∈ (memoryEntries config calls).filter fun e => decide (c.time < e.2) :=
            List.mem_filter.mpr ⟨ih hrest hentry, decide_eq_true (by show c.time < e; omega)⟩
          split
          next haccepted =>
              have hkey : key ≠ c.key := fun hkey => hother ⟨hkey, memorySparKV_isOk_iff.mpr haccepted⟩
              exact List.mem_cons_of_mem _ (List.mem_filter.mpr ⟨hkept, decide_eq_true hkey⟩)
          next => exact hkept

theorem memorySparKV_keeps : (memorySparKV config).Keeps where
  kept := by
    intro calls now e key htimes hentry hlive
    exact List.any_eq_true.mpr ⟨_, mem_memoryEntries htimes hentry hlive, decide_eq_true rfl⟩
  accepted := by
    intro calls c hroom hsize httl
    have hlength : (memoryEntries config calls).length < config.maxItems := by
      rw [← List.length_map Prod.fst]
      refine hroom _ (nodup_memoryEntries calls) fun key hkey => ?_
      obtain ⟨e, he, hkey⟩ := List.mem_map.mp hkey
      exact List.any_eq_true.mpr ⟨e, he, decide_eq_true hkey⟩
    have hfilter := List.length_filter_le (fun e => decide (c.time < e.2)) (memoryEntries config calls)
    rw [memorySparKV_isOk_iff, refusal, if_neg fun h => by omega, if_neg, if_neg (by omega)]
    rintro ⟨size, hmem, hlt⟩
    have hle := hsize size hmem
    omega
  capped := by
    intro calls c hok
    rw [memorySparKV_isOk_iff, refusal] at hok
    by_contra hlong
    split at hok
    · cases hok
    · split at hok
      · cases hok
      · rw [if_pos (by omega)] at hok
        cases hok

end Memory

/-! ## A printer -/

/-- A basic TOML string of a text without control characters. -/
def basicString (s : Str) : Str :=
  '"' :: s.flatMap (fun c => if c = '"' ∨ c = '\\' then ['\\', c] else [c]) ++ ['"']

/-- `key = "value"` on a line of its own. -/
def keyLine (key value : Str) : Str := key ++ " = ".toList ++ basicString value ++ ['\n']

/-- The TOML library for records whose texts have no control characters: every field on a line of its own,
and behind them a table for each attachment.  Its parser is not used. -/
def lineToml : Toml where
  toString := fun m =>
    let optional (key : String) (value : Option Str) : Str :=
      (value.map (keyLine key.toList)).getD []
    keyLine "id".toList m.id ++ keyLine "message_id".toList m.messageId ++
      keyLine "thread_id".toList m.threadId ++ keyLine "from".toList m.from_ ++
      keyLine "to".toList m.to_ ++ optional "cc" m.cc ++ optional "reply_to" m.replyTo ++
      keyLine "delivered_to".toList m.deliveredTo ++ keyLine "subject".toList m.subject ++
      keyLine "date".toList m.date ++ keyLine "received_at".toList m.receivedAt ++
      optional "received_from_ip" m.receivedFromIp ++
      "size_bytes = ".toList ++ decimal m.sizeBytes ++ ['\n'] ++
      optional "in_reply_to" m.inReplyTo ++ optional "references" m.references ++
      optional "list_id" m.listId ++ optional "auto_submitted" m.autoSubmitted ++
      keyLine "dkim".toList m.dkim ++ keyLine "spf".toList m.spf ++ keyLine "dmarc".toList m.dmarc ++
      keyLine "trusted".toList m.trusted ++ keyLine "mailbox".toList m.mailbox ++
      readLine m.read ++ optional "read_at" m.readAt ++
      (if m.labels = [] then []
        else "labels = [".toList ++ ", ".toList.intercalate (m.labels.map basicString) ++ "]\n".toList) ++
      m.attachments.flatMap fun a =>
        "\n[[attachments]]\n".toList ++ keyLine "filename".toList a.filename ++
          keyLine "content_type".toList a.contentType ++ "size = ".toList ++ decimal a.size ++ ['\n'] ++
          keyLine "path".toList a.path
  fromStr := fun _ => none
  listFromStr := fun _ => none

/-- The calendar library on the first two days of 2025. -/
def newYear : Chrono where
  parseRfc3339 := fun s =>
    if s = "2025-01-01T00:00:01+00:00".toList then some (1735689601 * nanosPerSec) else none
  date := fun t =>
    if t < 1735689600 * nanosPerSec then "2024-12-31".toList
    else if t < (1735689600 + 86400) * nanosPerSec then "2025-01-01".toList
    else "2025-01-02".toList

end Ingest
end Aimx
