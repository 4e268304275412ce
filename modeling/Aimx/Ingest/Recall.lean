import Aimx.Ingest.Rebuild

/-!
# What a rebuilt store recalls

A store that is built from a directory holds what the small reader finds in the files, up to whole seconds.
The cut by the dates in the names leaves out only what is too old anyway, and of two records under one
Message-Id the later one decides.

* `readEntry`, `rebuilt` — what the reader finds, and the store that is made of it;
* `buildDedupCacheFromDisk_eq` — the cut by names changes nothing;
* `contains_rebuilt_iff` — the Message-Ids that a rebuilt store holds;
* `Recalls`, `recalls_rebuilt` — a store with an entry for each stored message that is younger than a day.
-/

namespace Aimx
namespace Ingest

open Text

/-! ## Loading -/

/-- What is found in an entry of the directory. -/
def readEntry (c : Chrono) (e : Str × Node) : Option (Str × Int) :=
  (entryContent e).bind (readFrontmatterIdPair c)

/-- When an entry of the store ends that is loaded at a time. -/
def loadedExpiry (now received : Int) : Int :=
  now + max ((dedupTtl - (now - received)) / nanosPerSec) 1 * nanosPerSec

/-- Loading one record. -/
def loadPair (now : Int) (cache : Cache) (pair : Str × Int) : Cache :=
  if dedupTtl ≤ now - pair.2 then cache
  else
    ⟨now, pair.1, "loaded".toList, max ((dedupTtl - (now - pair.2)) / nanosPerSec) 1 * nanosPerSec⟩ :: cache

/-- The store that is made of some records. -/
def rebuilt (now : Int) (pairs : List (Str × Int)) : Cache := pairs.foldl (loadPair now) []

/-- The records of the last 24 hours. -/
def recent (now : Int) (pairs : List (Str × Int)) : List (Str × Int) :=
  pairs.filter fun pair => decide (now < pair.2 + dedupTtl)

/-- An entry ends within a second of the 24 hours. -/
theorem loadedExpiry_bounds {now received : Int} (hlive : now < received + dedupTtl) :
    now < loadedExpiry now received ∧ received + dedupTtl - nanosPerSec < loadedExpiry now received ∧
      loadedExpiry now received ≤ received + dedupTtl + nanosPerSec := by
  unfold dedupTtl nanosPerSec at hlive
  unfold loadedExpiry dedupTtl nanosPerSec
  omega

theorem rebuilt_concat (now : Int) (pairs : List (Str × Int)) (pair : Str × Int) :
    rebuilt now (pairs ++ [pair]) = loadPair now (rebuilt now pairs) pair := by
  rw [rebuilt, List.foldl_append]
  rfl

/-- A rebuilt store has had at most one call for each record of the last 24 hours, at the time at which it is
built. -/
theorem rebuilt_calls (now : Int) (pairs : List (Str × Int)) :
    (rebuilt now pairs).length ≤ (recent now pairs).length ∧ ∀ c ∈ rebuilt now pairs, c.time = now ∧
      ∃ p ∈ pairs, p.1 = c.key := by
  induction pairs using List.reverseRecOn with
  | nil => exact ⟨le_rfl, fun c hc => by cases hc⟩
  | append_singleton pairs pair ih =>
      obtain ⟨hlength, hcalls⟩ := ih
      have hold : ∀ c ∈ rebuilt now pairs, c.time = now ∧ ∃ p ∈ pairs ++ [pair], p.1 = c.key := by
        intro c hc
        obtain ⟨htime, p, hp, hkey⟩ := hcalls c hc
        exact ⟨htime, p, List.mem_append_left _ hp, hkey⟩
      rw [rebuilt_concat, recent, List.filter_append, List.length_append]
      unfold loadPair
      split
      next => exact ⟨hlength.trans (Nat.le_add_right _ _), hold⟩
      next hlive =>
          rw [List.filter_singleton, decide_eq_true (by omega), cond_true]
          refine ⟨Nat.succ_le_succ hlength, List.forall_mem_cons.mpr ⟨⟨rfl, pair, ?_, rfl⟩, hold⟩⟩
          simp

section Entries

variable {kv : SparKV dedupConfig} {now : Int} {pairs : List (Str × Int)}

/-- A record of the past is loaded while it is younger than 24 hours. -/
theorem entry_loadPair (hkeeps : kv.Keeps) {cache : Cache} {pair : Str × Int}
    (hlength : now < pair.2 + dedupTtl → cache.length < dedupMaxItems) (hpast : pair.2 ≤ now) (key : Str) :
    kv.entry (loadPair now cache pair) key =
      if key = pair.1 ∧ now < pair.2 + dedupTtl then some (loadedExpiry now pair.2)
      else kv.entry cache key := by
  unfold loadPair
  by_cases hold : dedupTtl ≤ now - pair.2
  · rw [if_pos hold, if_neg]
    rintro ⟨-, hlive⟩
    omega
  · -- the time to live is at most the maximum, so that the call succeeds
    have hshort : max ((dedupTtl - (now - pair.2)) / nanosPerSec) 1 * nanosPerSec ≤ dedupTtl := by
      unfold dedupTtl nanosPerSec at hold ⊢
      omega
    have hsize : ∀ size ∈ dedupConfig.maxItemSize, byteLen "loaded".toList ≤ size := by
      rintro size ⟨⟩
      decide
    have hok := hkeeps.accepted (c := ⟨now, pair.1, "loaded".toList, _⟩)
      (SparKV.hasRoom_of_length (hlength (by omega))) hsize hshort
    rw [if_neg hold, SparKV.entry]
    by_cases hkey : key = pair.1
    · rw [if_pos ⟨hkey, hok⟩, if_pos ⟨hkey, by omega⟩, loadedExpiry]
    · rw [if_neg fun h => hkey h.1, if_neg fun h => hkey h.1]

/-- There is room for the last of the records, if there is room for those of the last 24 hours. -/
theorem room_concat {pair : Str × Int} (hroom : (recent now (pairs ++ [pair])).length ≤ dedupMaxItems) :
    (recent now pairs).length ≤ dedupMaxItems ∧
      (now < pair.2 + dedupTtl → (rebuilt now pairs).length < dedupMaxItems) := by
  have hcalls := (rebuilt_calls now pairs).1
  rw [recent, List.filter_append, List.length_append, ← recent] at hroom
  refine ⟨(Nat.le_add_right _ _).trans hroom, fun hlive => ?_⟩
  rw [List.filter_singleton, decide_eq_true hlive, cond_true, List.length_singleton] at hroom
  omega

/-- What a rebuilt store holds comes from a record of the last 24 hours. -/
theorem exists_of_rebuilt (hkeeps : kv.Keeps) (hroom : (recent now pairs).length ≤ dedupMaxItems)
    (hpast : ∀ p ∈ pairs, p.2 ≤ now) {key : Str} {expiry : Int}
    (h : kv.entry (rebuilt now pairs) key = some expiry) :
    ∃ p ∈ pairs, p.1 = key ∧ now < p.2 + dedupTtl ∧ expiry = loadedExpiry now p.2 := by
  induction pairs using List.reverseRecOn with
  | nil => cases h
  | append_singleton pairs pair ih =>
      obtain ⟨hbefore, hlast⟩ := List.forall_mem_append.mp hpast
      obtain ⟨hfirst, hnext⟩ := room_concat hroom
      rw [rebuilt_concat, entry_loadPair hkeeps hnext (hlast pair (List.mem_singleton_self pair))] at h
      split at h
      next hnew =>
          cases h
          exact ⟨pair, by simp, hnew.1.symm, hnew.2, rfl⟩
      next =>
          obtain ⟨p, hp, hrest⟩ := ih hfirst hbefore h
          exact ⟨p, List.mem_append_left _ hp, hrest⟩

/-- Every record of the last 24 hours is in a rebuilt store. -/
theorem rebuilt_ne_none (hkeeps : kv.Keeps) (hroom : (recent now pairs).length ≤ dedupMaxItems)
    (hpast : ∀ p ∈ pairs, p.2 ≤ now) {p : Str × Int} (hp : p ∈ pairs) (hlive : now < p.2 + dedupTtl) :
    kv.entry (rebuilt now pairs) p.1 ≠ none := by
  induction pairs using List.reverseRecOn with
  | nil => cases hp
  | append_singleton pairs pair ih =>
      obtain ⟨hbefore, hlast⟩ := List.forall_mem_append.mp hpast
      obtain ⟨hfirst, hnext⟩ := room_concat hroom
      rw [rebuilt_concat, entry_loadPair hkeeps hnext (hlast pair (List.mem_singleton_self pair))]
      split
      next => exact Option.some_ne_none _
      next hother =>
          rcases List.mem_append.mp hp with hp | hp
          · exact ih hfirst hbefore hp
          · cases List.mem_singleton.mp hp
            exact absurd ⟨rfl, hlive⟩ hother

/-- The Message-Ids that a rebuilt store holds when it is built. -/
theorem contains_rebuilt_iff (hkeeps : kv.Keeps) (hroom : (recent now pairs).length ≤ dedupMaxItems)
    (hpast : ∀ p ∈ pairs, p.2 ≤ now) (key : Str) :
    kv.containsKey (rebuilt now pairs) now key = true ↔ ∃ p ∈ pairs, p.1 = key ∧ now < p.2 + dedupTtl := by
  constructor
  · intro hcontains
    obtain ⟨expiry, hexpiry⟩ := SparKV.entry_of_containsKey hcontains
    obtain ⟨p, hp, hkey, hlive, -⟩ := exists_of_rebuilt hkeeps hroom hpast hexpiry
    exact ⟨p, hp, hkey, hlive⟩
  · rintro ⟨p, hp, rfl, hlive⟩
    obtain ⟨expiry, hexpiry⟩ := Option.ne_none_iff_exists'.mp (rebuilt_ne_none hkeeps hroom hpast hp hlive)
    obtain ⟨q, -, -, hqlive, rfl⟩ := exists_of_rebuilt hkeeps hroom hpast hexpiry
    exact hkeeps.kept (fun c hc => ((rebuilt_calls now pairs).2 c hc).1.le) hexpiry
      (loadedExpiry_bounds hqlive).1

end Entries

/-! ## The cut by names -/

/-- What is passed over for the date in its name is too old. -/
def CutsOnlyOld (c : Chrono) (e : Str × Node) : Prop :=
  CutsAtTen e.1 ∧ ∀ pair, readEntry c e = some pair → ∀ now,
    datedBefore (c.date (now - dedupTtl)) e.1 = some true → pair.2 + dedupTtl ≤ now

theorem loadEntry_eq {c : Chrono} {e : Str × Node} (h : CutsOnlyOld c e) (now : Int) (cache : Cache) :
    loadEntry c now cache e =
      some (match readEntry c e with
        | none => cache
        | some pair => loadPair now cache pair) := by
  obtain ⟨early, hearly⟩ := Option.isSome_iff_exists.mp
    ((datedBefore_isSome_iff (c.date (now - dedupTtl))).mpr h.1)
  unfold loadEntry
  rw [hearly]
  cases early with
  | true =>
      cases hread : readEntry c e with
      | none => rfl
      | some pair =>
          have hold := h.2 pair hread now hearly
          dsimp only
          rw [loadPair, if_pos (by omega)]
  | false =>
      have hread : (entryContent e).bind (readFrontmatterIdPair c) = readEntry c e := rfl
      dsimp only
      rw [hread]
      cases readEntry c e with
      | none => rfl
      | some pair => exact (apply_ite some _ _ _).symm

/-- **The cut by names changes nothing**: the store is the one that is made of everything that is found. -/
theorem buildDedupCacheFromDisk_eq {c : Chrono} {d : MailDir} (h : ∀ e ∈ d, CutsOnlyOld c e) (now : Int) :
    buildDedupCacheFromDisk c now d = some (rebuilt now (d.filterMap (readEntry c))) := by
  have hfold : ∀ start : Cache, d.foldlM (loadEntry c now) start =
      some ((d.filterMap (readEntry c)).foldl (loadPair now) start) := by
    induction d with
    | nil => exact fun _ => rfl
    | cons e d ih =>
        intro start
        obtain ⟨hfirst, hrest⟩ := List.forall_mem_cons.mp h
        rw [List.foldlM_cons, loadEntry_eq hfirst, List.filterMap_cons]
        cases readEntry c e with
        | none => exact ih hrest start
        | some pair => exact ih hrest (loadPair now start pair)
  exact hfold _

/-! ## The stored messages -/

/-- A stored message with a Message-Id: the time that its file says, and the time at which it was entered. -/
structure Kept where
  id : Str
  received : Int
  stored : Int
  deriving DecidableEq

/-- What the reader finds of a stored message. -/
def Kept.pair (k : Kept) : Str × Int := (k.id, k.received)

/-- The messages of a mailbox so far: none is from the future, and no two have one Message-Id. -/
structure Distinct (log : List Kept) (now : Int) : Prop where
  past : ∀ k ∈ log, k.received ≤ k.stored ∧ k.stored ≤ now
  apart : log.Pairwise fun k k' : Kept => k.id ≠ k'.id

/-- The calls on a store are of the stored messages, and each message has an entry until it is 24 hours old,
less a second. -/
structure Recalls (kv : SparKV dedupConfig) (cache : Cache) (log : List Kept) (now : Int) : Prop where
  held : ∀ k ∈ log, now < k.received + dedupTtl - nanosPerSec →
    ∃ e, kv.entry cache k.id = some e ∧ k.received + dedupTtl - nanosPerSec < e
  calls : ∀ c ∈ cache, c.time ≤ now ∧ ∃ k ∈ log, k.id = c.key
  length : cache.length ≤ log.length

theorem Recalls.mono {kv : SparKV dedupConfig} {cache : Cache} {log : List Kept} {now now' : Int}
    (h : Recalls kv cache log now) (hle : now ≤ now') : Recalls kv cache log now' where
  held := fun k hk hlive => h.held k hk (lt_of_le_of_lt hle hlive)
  calls := fun c hc => ⟨(h.calls c hc).1.trans hle, (h.calls c hc).2⟩
  length := h.length

theorem Distinct.mono {log : List Kept} {now now' : Int} (h : Distinct log now) (hle : now ≤ now') :
    Distinct log now' where
  past := fun k hk => ⟨(h.past k hk).1, (h.past k hk).2.trans hle⟩
  apart := h.apart

theorem Distinct.eq_of_id {log : List Kept} {now : Int} (h : Distinct log now) {k k' : Kept} (hk : k ∈ log)
    (hk' : k' ∈ log) (hid : k.id = k'.id) : k = k' := by
  have hsymm : Std.Symm fun k k' : Kept => k.id ≠ k'.id := ⟨fun _ _ hids => hids.symm⟩
  by_contra hne
  exact h.apart.forall hk hk' hne hid

/-- **A store that recalls the messages** contains those under a Message-Id while they are younger than 24
hours, less a second. -/
theorem Recalls.contains_iff {kv : SparKV dedupConfig} (hkeeps : kv.Keeps) {cache : Cache} {log : List Kept}
    {now : Int} (h : Recalls kv cache log now) {id : Str}
    (hyoung : ∀ k ∈ log, k.id = id → now < k.received + dedupTtl - nanosPerSec) :
    kv.containsKey cache now id = true ↔ ∃ k ∈ log, k.id = id := by
  constructor
  · intro hcontains
    obtain ⟨c, hc, rfl⟩ := List.mem_map.mp (SparKV.mem_of_containsKey hcontains)
    exact (h.calls c hc).2
  · rintro ⟨k, hk, rfl⟩
    have hlive := hyoung k hk rfl
    obtain ⟨e, hentry, hlate⟩ := h.held k hk hlive
    exact hkeeps.kept (fun c hc => (h.calls c hc).1) hentry (hlive.trans hlate)

/-- **A rebuilt store recalls the stored messages.** -/
theorem recalls_rebuilt {kv : SparKV dedupConfig} (hkeeps : kv.Keeps) {log : List Kept} {now : Int}
    (h : Distinct log now) (hroom : log.length ≤ dedupMaxItems) :
    Recalls kv (rebuilt now (log.map Kept.pair)) log now := by
  have hpast : ∀ p ∈ log.map Kept.pair, p.2 ≤ now := by
    intro p hp
    obtain ⟨k, hk, rfl⟩ := List.mem_map.mp hp
    exact (h.past k hk).1.trans (h.past k hk).2
  have hrecent : (recent now (log.map Kept.pair)).length ≤ log.length :=
    (List.length_filter_le _ _).trans_eq (List.length_map _)
  obtain ⟨hlength, hcalls⟩ := rebuilt_calls now (log.map Kept.pair)
  constructor
  case held =>
    intro k hk hlive
    have hnow : now < k.received + dedupTtl := by
      unfold nanosPerSec at hlive
      omega
    obtain ⟨expiry, hexpiry⟩ := Option.ne_none_iff_exists'.mp
      (rebuilt_ne_none hkeeps (hrecent.trans hroom) hpast (List.mem_map_of_mem hk) hnow)
    obtain ⟨p, hp, hkey, hplive, rfl⟩ := exists_of_rebuilt hkeeps (hrecent.trans hroom) hpast hexpiry
    obtain ⟨k', hk', rfl⟩ := List.mem_map.mp hp
    have hsame : k' = k := h.eq_of_id hk' hk hkey
    subst hsame
    exact ⟨_, hexpiry, (loadedExpiry_bounds hplive).2.1⟩
  case calls =>
    intro c hc
    obtain ⟨htime, p, hp, hkey⟩ := hcalls c hc
    obtain ⟨k, hk, rfl⟩ := List.mem_map.mp hp
    exact ⟨htime.le, k, hk, hkey⟩
  case length => exact hlength.trans hrecent

end Ingest
end Aimx
