import Aimx.Ingest.Failures

/-!
# The rebuilding of the duplicate store

The store is rebuilt from the directory of a mailbox, whose owner chooses the names and the contents of its
files.  Here every step that can panic is written out: the cut of a name, and the differences of times.

* `rebuildDedupCache` — the function of the source, with its checked arithmetic;
* `rebuildDedupCache_eq` — the arithmetic never overflows;
* `RebuildSafe` — what is asked of a directory;
* `rebuildSafe_iff` — the directories for which it holds.
-/

namespace Aimx
namespace Ingest

open Text

/-! ## Times -/

/-- The times between `DateTime::<Utc>::MIN_UTC` and `MAX_UTC`. -/
def minTime : Int := -8334601228800 * nanosPerSec
def maxTime : Int := 8210266876799 * nanosPerSec + 999999999

/-- `TimeDelta::MAX`: the milliseconds of a signed 64-bit number. -/
def maxTimeDelta : Int := 9223372036854775807 * 1000000

/-- A difference of times; `none` where it overflows, and the library panics. -/
def timeDelta (d : Int) : Option Int := if -maxTimeDelta ≤ d ∧ d ≤ maxTimeDelta then some d else none

/-- A point in time; `none` where it is out of range, and the library panics. -/
def dateTime (t : Int) : Option Int := if minTime ≤ t ∧ t ≤ maxTime then some t else none

/-- `Utc::now`: a time after the epoch. -/
structure UtcNow where
  nanos : Int
  epoch : 0 ≤ nanos
  le_max : nanos ≤ maxTime

/-- The calendar library, with the range of the times that it reads. -/
structure DateLibrary extends Chrono where
  inRange : ∀ s t, parseRfc3339 s = some t → minTime ≤ t ∧ t ≤ maxTime

/-! ## The rebuilding -/

/-- One turn of the loop over the directory, behind the date that it cuts off at. -/
def rebuildEntry (c : DateLibrary) (now : UtcNow) (cutoffDatePrefix : Str) (cache : Cache) (e : Str × Node) :
    Option Cache :=
  match datedBefore cutoffDatePrefix e.1 with
  | none => none
  | some true => some cache
  | some false =>
      match (entryContent e).bind (readFrontmatterIdPair c.toChrono) with
      | none => some cache
      | some (messageId, receivedAt) =>
          (timeDelta (now.nanos - receivedAt)).bind fun elapsed =>
            if dedupTtl ≤ elapsed then some cache
            else
              (timeDelta (dedupTtl - elapsed)).map fun remaining =>
                -- whether the call fails is not looked at
                ⟨now.nanos, messageId, "loaded".toList, max (remaining / nanosPerSec) 1 * nanosPerSec⟩ ::
                  cache

/-- `build_dedup_cache_from_disk`; no directory where it cannot be read, and `none` where it panics. -/
def rebuildDedupCache (c : DateLibrary) (now : UtcNow) (inbox : Option MailDir) : Option Cache :=
  (dateTime (now.nanos - dedupTtl)).bind fun cutoff =>
    match inbox with
    | none => some []
    | some d => d.foldlM (rebuildEntry c now (c.date cutoff)) []

/-! ## What is asked of a directory -/

/-- The first ten bytes of a name, if it has as many, are whole characters. -/
def CutsAtTen (name : Str) : Prop :=
  byteLen name < 10 ∨ ∃ front back, name = front ++ back ∧ byteLen front = 10

/-- **A directory that no delivery fails on**: the store can be rebuilt from it at any time, and no delivery
that finds no store panics, whatever else fails. -/
structure RebuildSafe (c : DateLibrary) (d : MailDir) : Prop where
  total : ∀ now : UtcNow, ∃ cache, rebuildDedupCache c now (some d) = some cache
  delivered : ∀ (env : Env) (config : Config) (rcpt mailbox : Str) (raw : Bytes) (now : UtcNow) (wr : Writing)
    (f : IngestFaults), env.chrono = c.toChrono →
      (ingestEmail env config rcpt mailbox raw now.nanos wr f ⟨d, none⟩).2 ≠ .panicked

/-! ## The arithmetic -/

section Times

variable {c : DateLibrary}

theorem dateTime_cutoff (now : UtcNow) : dateTime (now.nanos - dedupTtl) = some (now.nanos - dedupTtl) := by
  have hepoch := now.epoch
  have hmax := now.le_max
  unfold maxTime nanosPerSec at hmax
  apply if_pos
  unfold minTime maxTime dedupTtl nanosPerSec
  omega

/-- A time that is read lies in the range of the library. -/
theorem inRange_of_readFrontmatterIdPair {content : Bytes} {pair : Str × Int}
    (h : readFrontmatterIdPair c.toChrono content = some pair) : minTime ≤ pair.2 ∧ pair.2 ≤ maxTime := by
  unfold readFrontmatterIdPair at h
  obtain ⟨head, -, h⟩ := Option.bind_eq_some_iff.mp h
  obtain ⟨body, -, h⟩ := Option.bind_eq_some_iff.mp h
  obtain ⟨block, -, h⟩ := Option.bind_eq_some_iff.mp h
  obtain ⟨messageId, -, h⟩ := Option.bind_eq_some_iff.mp h
  split at h
  next => cases h
  next =>
      obtain ⟨receivedAt, -, h⟩ := Option.bind_eq_some_iff.mp h
      obtain ⟨time, htime, hpair⟩ := Option.bind_eq_some_iff.mp h
      cases hpair
      exact c.inRange _ _ htime

theorem timeDelta_of_inRange {d : Int}
    (h : -20000000000000 * nanosPerSec ≤ d ∧ d ≤ 20000000000000 * nanosPerSec) : timeDelta d = some d := by
  unfold nanosPerSec at h
  apply if_pos
  unfold maxTimeDelta
  omega

/-- The checked arithmetic of one entry gives what the unchecked one gives. -/
theorem rebuildEntry_eq (now : UtcNow) (cache : Cache) (e : Str × Node) :
    rebuildEntry c now (c.date (now.nanos - dedupTtl)) cache e =
      loadEntry c.toChrono now.nanos cache e := by
  unfold rebuildEntry loadEntry
  cases datedBefore (c.date (now.nanos - dedupTtl)) e.1 with
  | none => rfl
  | some early =>
      cases early with
      | true => rfl
      | false =>
          cases hread : (entryContent e).bind (readFrontmatterIdPair c.toChrono) with
          | none => rfl
          | some pair =>
              obtain ⟨content, -, hcontent⟩ := Option.bind_eq_some_iff.mp hread
              obtain ⟨hlow, hhigh⟩ := inRange_of_readFrontmatterIdPair hcontent
              have hepoch := now.epoch
              have hmax := now.le_max
              unfold minTime nanosPerSec at hlow
              unfold maxTime nanosPerSec at hhigh hmax
              have helapsed : timeDelta (now.nanos - pair.2) = some (now.nanos - pair.2) := by
                apply timeDelta_of_inRange
                unfold nanosPerSec
                omega
              have hremaining : timeDelta (dedupTtl - (now.nanos - pair.2)) =
                  some (dedupTtl - (now.nanos - pair.2)) := by
                apply timeDelta_of_inRange
                unfold dedupTtl nanosPerSec
                omega
              dsimp only
              rw [helapsed, Option.bind_some, hremaining, Option.map_some]

/-- **The arithmetic never overflows.** -/
theorem rebuildDedupCache_eq (now : UtcNow) (d : MailDir) :
    rebuildDedupCache c now (some d) = buildDedupCacheFromDisk c.toChrono now.nanos d := by
  have hstep : rebuildEntry c now (c.date (now.nanos - dedupTtl)) = loadEntry c.toChrono now.nanos := by
    funext cache e
    exact rebuildEntry_eq now cache e
  unfold rebuildDedupCache buildDedupCacheFromDisk
  rw [dateTime_cutoff, Option.bind_some]
  dsimp only
  rw [hstep]

end Times

/-! ## The cut of the names -/

section Names

variable {name : Str}

theorem datedBefore_isSome_iff (cutoff : Str) : (datedBefore cutoff name).isSome = true ↔ CutsAtTen name := by
  unfold datedBefore CutsAtTen
  by_cases hshort : byteLen name < 10
  · rw [if_pos hshort]
    exact ⟨fun _ => .inl hshort, fun _ => rfl⟩
  · rw [if_neg hshort, Option.isSome_map, Option.isSome_iff_exists]
    constructor
    · rintro ⟨front, hfront⟩
      have htake : (utf8 name).take 10 = utf8 front := fromUtf8_eq_some_iff.mp hfront
      have hname : utf8 name = utf8 front ++ (utf8 name).drop 10 := by
        rw [← htake, List.take_append_drop]
      obtain ⟨back, hsplit, -⟩ := eq_append_of_utf8_eq hname
      refine .inr ⟨front, back, hsplit, ?_⟩
      rw [byteLen, ← htake, List.length_take]
      unfold byteLen at hshort
      omega
    · rintro (hlt | ⟨front, back, rfl, hlen⟩)
      · exact absurd hlt hshort
      · refine ⟨front, fromUtf8_eq_some_iff.mpr ?_⟩
        rw [utf8_append, List.take_left' hlen]

/-- An entry stops the rebuilding only by its name. -/
theorem loadEntry_isSome_iff {c : Chrono} {now : Int} {cache : Cache} {e : Str × Node} :
    (loadEntry c now cache e).isSome = true ↔ CutsAtTen e.1 := by
  rw [← datedBefore_isSome_iff (c.date (now - dedupTtl))]
  unfold loadEntry
  cases datedBefore (c.date (now - dedupTtl)) e.1 with
  | none => exact Iff.rfl
  | some early =>
      refine ⟨fun _ => rfl, fun _ => ?_⟩
      cases early with
      | true => rfl
      | false =>
          cases (entryContent e).bind (readFrontmatterIdPair c) with
          | none => rfl
          | some pair =>
              dsimp only
              split
              next => rfl
              next => rfl

/-- A loop that each element stops or lets pass, whatever the state, ends when none of them stops it. -/
theorem foldlM_isSome_iff {α β : Type} {f : β → α → Option β} {P : α → Prop}
    (h : ∀ b a, (f b a).isSome = true ↔ P a) (l : List α) (b : β) :
    (l.foldlM f b).isSome = true ↔ ∀ a ∈ l, P a := by
  induction l generalizing b with
  | nil => simp
  | cons a l ih =>
      rw [List.foldlM_cons, List.forall_mem_cons, ← h b a]
      cases hstep : f b a with
      | none => simp
      | some b' =>
          show (l.foldlM f b').isSome = true ↔ _
          rw [ih b']
          simp

theorem buildDedupCacheFromDisk_isSome_iff {c : Chrono} {now : Int} {d : MailDir} :
    (buildDedupCacheFromDisk c now d).isSome = true ↔ ∀ e ∈ d, CutsAtTen e.1 := by
  unfold buildDedupCacheFromDisk
  exact foldlM_isSome_iff (P := fun e => CutsAtTen e.1) (fun _ _ => loadEntry_isSome_iff) d _

end Names

/-! ## When it holds -/

/-- A delivery panics only where the store cannot be rebuilt. -/
theorem ingestEmail_ne_panicked {env : Env} {config : Config} {rcpt mailbox : Str} {raw : Bytes} {now : Int}
    {wr : Writing} {f : IngestFaults} {d : MailDir} (h : ∀ e ∈ d, CutsAtTen e.1) :
    (ingestEmail env config rcpt mailbox raw now wr f ⟨d, none⟩).2 ≠ .panicked := by
  have hbuild : (buildDedupCacheFromDisk env.chrono now (d.filter fun e => f.readable e.1)).isSome = true :=
    buildDedupCacheFromDisk_isSome_iff.mpr fun e he => h e (List.mem_of_mem_filter he)
  obtain ⟨cache, hcache⟩ := Option.isSome_iff_exists.mp hbuild
  have hcheck : ∀ st, checkDuplicate env now raw f.readable ⟨d, none⟩ = st → st ≠ .panicked := by
    rintro st rfl
    unfold checkDuplicate
    rw [Option.none_or, hcache]
    split
    next => exact fun h => by cases h
    next =>
        dsimp only
        split
        next => exact fun h => by cases h
        next => exact fun h => by cases h
  unfold ingestEmail
  split
  next => exact fun h => by cases h
  split
  next => exact fun h => by cases h
  next message =>
      split
      next hpanicked => exact absurd rfl (hcheck _ hpanicked)
      next => exact fun h => by cases h
      next =>
          split
          next => exact fun h => by cases h
          next => exact fun h => by cases h

/-- One name that is cut inside a character stops every delivery of a message with a Message-Id, and the next
one finds the mailbox as this one did. -/
theorem ingestEmail_panicked {env : Env} {config : Config} {rcpt mailbox : Str} {raw : Bytes} {now : Int}
    {wr : Writing} {d : MailDir} (h : ¬ ∀ e ∈ d, CutsAtTen e.1) (hid : env.messageId raw ≠ []) :
    ingestEmail env config rcpt mailbox raw now wr .none ⟨d, none⟩ = (⟨d, none⟩, .panicked) := by
  have hreadable : (d.filter fun e => IngestFaults.none.readable e.1) = d := List.filter_true d
  have hbuild : buildDedupCacheFromDisk env.chrono now d = none := by
    rw [← Option.not_isSome_iff_eq_none, buildDedupCacheFromDisk_isSome_iff]
    exact h
  have hcheck : checkDuplicate env now raw IngestFaults.none.readable ⟨d, none⟩ = .panicked := by
    unfold checkDuplicate
    rw [if_neg hid, Option.none_or]
    dsimp only
    rw [hreadable, hbuild]
  unfold ingestEmail
  cases hparse : env.parse raw with
  | none =>
      refine absurd ?_ hid
      rw [Env.messageId, hparse]
      rfl
  | some message =>
      rw [if_neg (by decide)]
      dsimp only
      rw [hcheck]

theorem rebuildDedupCache_isSome_iff {c : DateLibrary} {now : UtcNow} {d : MailDir} :
    (rebuildDedupCache c now (some d)).isSome = true ↔ ∀ e ∈ d, CutsAtTen e.1 := by
  rw [rebuildDedupCache_eq]
  exact buildDedupCacheFromDisk_isSome_iff

/-- **The rebuilding is total** exactly on the directories whose names are all cut between characters. -/
theorem rebuildSafe_iff (c : DateLibrary) (d : MailDir) : RebuildSafe c d ↔ ∀ e ∈ d, CutsAtTen e.1 := by
  constructor
  · intro h
    have htotal := h.total ⟨0, by decide, by decide⟩
    exact rebuildDedupCache_isSome_iff.mp (Option.isSome_iff_exists.mpr htotal)
  · intro h
    constructor
    case total => exact fun now => Option.isSome_iff_exists.mp (rebuildDedupCache_isSome_iff.mpr h)
    case delivered => exact fun env config rcpt mailbox raw now wr f _ => ingestEmail_ne_panicked h

/-- The calendar library on the first two days of 2025, in its range. -/
def newYearLibrary : DateLibrary where
  toChrono := newYear
  inRange := by
    intro s t h
    have hcases : (if s = "2025-01-01T00:00:01+00:00".toList then some (1735689601 * nanosPerSec) else none) =
        some t := h
    split at hcases
    next =>
        cases hcases
        decide
    next => cases hcases

/-- A name of nine ASCII characters and one more. -/
theorem rebuildSafe_nineAndOne :
    rebuildDedupCache newYearLibrary ⟨0, by decide, by decide⟩
        (some [("aaaaaaaaa".toList ++ [Char.ofNat 0xE9] ++ ".md".toList, .file [])]) = none ∧
      ¬ RebuildSafe newYearLibrary [("aaaaaaaaa".toList ++ [Char.ofNat 0xE9] ++ ".md".toList, .file [])] := by
  have hname : ¬ CutsAtTen ("aaaaaaaaa".toList ++ [Char.ofNat 0xE9] ++ ".md".toList) := by
    rw [← datedBefore_isSome_iff []]
    decide +kernel
  have hentry : ¬ ∀ e ∈ [("aaaaaaaaa".toList ++ [Char.ofNat 0xE9] ++ ".md".toList, Node.file [])],
      CutsAtTen e.1 := fun h => hname (h _ (List.mem_singleton_self _))
  constructor
  · rw [← Option.not_isSome_iff_eq_none, rebuildDedupCache_isSome_iff]
    exact hentry
  · intro h
    have htotal := h.total ⟨0, by decide, by decide⟩
    exact hentry (rebuildDedupCache_isSome_iff.mp (Option.isSome_iff_exists.mpr htotal))

end Ingest
end Aimx
