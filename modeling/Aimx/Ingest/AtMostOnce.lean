import Aimx.Ingest.Records
import Aimx.Ingest.Recipients

/-!
# One copy and one hook run per retry

A sender repeats a message until it is answered 250.  Whatever the sessions, the interleaving of their
deliveries and the failures between, a mailbox gets a Message-Id once in 24 hours, its hooks are started
once for each stored message, and a message is passed over only where it is held already.

* `AtMostOnce` — the law, of the record of a run;
* `atMostOnce_of_run` — it holds after every run in which nothing takes messages away, while the duplicate
  store keeps its entries and has room for them.
-/

namespace Aimx
namespace Ingest

open Text Transition

/-! ## The law -/

/-- The mailbox holds a message with this Message-Id. -/
def World.holdsId (env : Env) (w : World) (m id : Str) : Prop :=
  ∃ raw ∈ letters (w.inbox m), env.messageId raw = id

/-- The duplicate store of the mailbox, as it was built from files of an earlier run, contains the
Message-Id at a time. -/
def World.foundOnDisk (env : Env) (w : World) (m id : Str) (time : Int) : Prop :=
  ∃ (n : Nat) (built : Int) (cache : Cache),
    w.log[n]? = some (.built built m cache) ∧ env.makeDedupSparkv.containsKey cache time id = true

/-- It was built with an entry for the Message-Id that has not ended at the time. -/
def World.liveOnDisk (env : Env) (w : World) (m id : Str) (time : Int) : Prop :=
  ∃ (n : Nat) (built : Int) (cache : Cache) (e : Int),
    w.log[n]? = some (.built built m cache) ∧ env.makeDedupSparkv.entry cache id = some e ∧ time < e

/-- The transaction stored the message in the mailbox, or was told that it is a duplicate there. -/
def World.servedBy (w : World) (pid : Nat) (m id : Str) : Prop :=
  ∃ (n : Nat) (time : Int), w.log[n]? = some (.stored pid time m id) ∨
    w.log[n]? = some (.skipped pid time m id)

/-- At most one copy and one start of the hooks for a non-empty Message-Id in a mailbox, within 24 hours
of one run; and a retry stores the message for exactly those recipients that do not hold it yet. -/
structure AtMostOnce (env : Env) (w : World) : Prop where
  /-- Two copies in one mailbox are 24 hours apart. -/
  stored : ∀ {i j pid pid' : Nat} {time time' : Int} {m id : Str}, i < j → id ≠ [] →
    w.log[i]? = some (.stored pid time m id) → w.log[j]? = some (.stored pid' time' m id) →
    time + dedupTtl ≤ time'
  /-- Hooks are started for a stored message. -/
  fired : ∀ {i n : Nat} {m : Str}, w.log[i]? = some (.fired m n) →
    ∃ pid time id, w.log[n]? = some (.stored pid time m id)
  /-- Two starts for one Message-Id are for messages that were stored 24 hours apart. -/
  firedOnce : ∀ {i j n n' pid pid' : Nat} {time time' : Int} {m id : Str}, i ≠ j → id ≠ [] →
    w.log[i]? = some (.fired m n) → w.log[j]? = some (.fired m n') →
    w.log[n]? = some (.stored pid time m id) → w.log[n']? = some (.stored pid' time' m id) →
    time + dedupTtl ≤ time' ∨ time' + dedupTtl ≤ time
  /-- A message that is passed over is held. -/
  skipped : ∀ {n pid : Nat} {time : Int} {m id : Str}, w.log[n]? = some (.skipped pid time m id) →
    w.holdsId env m id ∨ w.foundOnDisk env m id time
  /-- A message that is stored was not held from an earlier run. -/
  missing : ∀ {n pid : Nat} {time : Int} {m id : Str}, w.log[n]? = some (.stored pid time m id) →
    id ≠ [] → ¬ w.liveOnDisk env m id time
  /-- A transaction that was answered 250 stored the message, or passed it over, for each recipient. -/
  replied : ∀ {n pid : Nat} {id : Str} {routes : List (Option Str)},
    w.log[n]? = some (.replied pid true id routes) →
    ∀ route ∈ routes, ∃ m, route = some m ∧ w.servedBy pid m id

/-! ## What is held -/

/-- What the record says of the mailboxes, while nothing takes messages away. -/
structure Held (env : Env) (w : World) : Prop where
  stored : ∀ {n pid : Nat} {time : Int} {m id : Str}, w.log[n]? = some (.stored pid time m id) →
    w.holdsId env m id
  skipped : ∀ {n pid : Nat} {time : Int} {m id : Str}, w.log[n]? = some (.skipped pid time m id) →
    w.holdsId env m id ∨ w.foundOnDisk env m id time
  attends : Attends w fun pid raw m => w.servedBy pid m (env.messageId raw)
  replied : ∀ {n pid : Nat} {id : Str} {routes : List (Option Str)},
    w.log[n]? = some (.replied pid true id routes) →
    ∀ route ∈ routes, ∃ m, route = some m ∧ w.servedBy pid m id

theorem held_start (env : Env) (now : Int) (config : Config) (inbox sent : Str → List Entry) :
    Held env (World.start now config inbox sent) where
  stored := by
    intro n pid time m id h
    simp [World.start] at h
  skipped := by
    intro n pid time m id h
    simp [World.start] at h
  attends := by
    intro pid t ht
    cases ht
  replied := by
    intro n pid id routes h
    simp [World.start] at h

theorem held_of_effect {env : Env} {w w' : World} {a : Move} (h : Held env w)
    (hrecorded : Recorded env w) (heffect : Effect env w a w') (ha : a.wipesInbox = false) :
    Held env w' := by
  have hholds : ∀ {m id : Str}, w.holdsId env m id → w'.holdsId env m id := by
    rintro m id ⟨raw, hraw, hid⟩
    exact ⟨raw, letters_subset heffect ha m hraw, hid⟩
  have hdisk : ∀ {m id : Str} {time : Int}, w.foundOnDisk env m id time → w'.foundOnDisk env m id time := by
    rintro m id time ⟨n, built, cache, hn, hcontains⟩
    exact ⟨n, built, cache, event_mono heffect hn, hcontains⟩
  have hserved : ∀ {pid : Nat} {m id : Str}, w.servedBy pid m id → w'.servedBy pid m id := by
    rintro pid m id ⟨n, time, hn⟩
    exact ⟨n, time, hn.imp (event_mono heffect) (event_mono heffect)⟩
  constructor
  case stored =>
    intro n pid time m id hn
    rcases event_of_effect heffect hn with hn | ⟨t, e, -, rfl, hinbox, hletter⟩
    · exact hholds (h.stored hn)
    · refine ⟨t.raw, ?_, rfl⟩
      rw [hinbox, letters_append, List.mem_append]
      exact Or.inr (List.mem_filterMap.mpr ⟨e, List.mem_singleton.mpr rfl, hletter⟩)
  case skipped =>
    intro n pid time m id hn
    rcases event_of_effect heffect hn with hn | ⟨rfl, cache, hcache, hdup⟩
    · exact (h.skipped hn).imp hholds hdisk
    · -- the key that made it a duplicate is of a stored message, or from disk
      rcases hrecorded.origin hcache hdup with ⟨k, pid', time', hk⟩ | ⟨k, built, cache₀, hk, hdup₀⟩
      · exact Or.inl (hholds (h.stored hk))
      · exact Or.inr (hdisk ⟨k, built, cache₀, hk, hdup₀⟩)
  case attends =>
    refine attends_of_effect h.attends heffect (fun pid raw m => hserved) ?_ ?_
    · intro pid t m cache hpid hphase hid hcache hdup hlog
      refine ⟨w.log.length, w.now, Or.inr ?_⟩
      rw [hlog]
      exact getElem?_concat_eq_some.mpr (Or.inr ⟨rfl, rfl⟩)
    · intro pid t m n hpid hphase _ _
      obtain ⟨⟨time, hn⟩, -⟩ := hrecorded.pending hpid (Or.inr hphase)
      exact hserved ⟨n, time, Or.inl hn⟩
  case replied =>
    intro n pid id routes hn
    rcases event_of_effect heffect hn with hn | ⟨t, hpid, htodo, hstill, rfl, haccepted, rfl⟩
    · intro route hroute
      obtain ⟨m, hm, hm'⟩ := h.replied hn route hroute
      exact ⟨m, hm, hserved hm'⟩
    · intro route hroute
      obtain ⟨rcpt, hrcpt, rfl⟩ := List.mem_map.mp hroute
      have hfailed : t.failed = 0 := by
        have hboth := haccepted.symm
        unfold Transaction.accepted at hboth
        rw [Bool.and_eq_true, beq_iff_eq] at hboth
        exact hboth.1
      have hattended := h.attends pid t hpid
      have hall := hattended.all hstill
      rw [htodo, List.append_nil] at hall
      rw [← hall] at hrcpt
      obtain ⟨m, hm, hm'⟩ := hattended.served hstill hfailed rcpt hrcpt
      exact ⟨m, hm, hserved hm'⟩

/-! ## Over every run -/

/-- **At most one copy and one hook run.**  The daemon starts on any disk; the run is any interleaving
of deliveries, with any failures, and of everything else but the emptying of an inbox.  The duplicate store
keeps its entries, and has fewer of them than its maximum. -/
theorem atMostOnce_of_run (env : Env) {now : Int} {config : Config} {inbox sent : Str → List Entry}
    {as : List Move} {w : World} (hkeeps : env.makeDedupSparkv.Keeps)
    (hroom : Allowed (step env) (World.BelowMaximum env) (World.start now config inbox sent) as)
    (hkeep : ∀ a ∈ as, a.wipesInbox = false)
    (hrun : run (step env) (World.start now config inbox sent) as = some w) : AtMostOnce env w := by
  have hinv : Locked w ∧ Recorded env w ∧ Held env w := by
    refine run_invariant (I := fun w => Locked w ∧ Recorded env w ∧ Held env w) ?_ ?_
      (hroom.and (allowed_of_forall hkeep _)) hrun
    · rintro w₁ a w₂ ⟨hlocked, hrecorded, hheld⟩ ⟨hbelow, ha⟩ hstep
      have heffect := effect_of_step hstep
      exact ⟨locked_of_effect hlocked heffect,
        recorded_of_effect hrecorded hkeeps hlocked heffect hbelow,
        held_of_effect hheld hrecorded heffect ha⟩
    · exact ⟨locked_start now config inbox sent, recorded_start env now config inbox sent,
        held_start env now config inbox sent⟩
  obtain ⟨-, hrecorded, hheld⟩ := hinv
  constructor
  case stored => exact fun hij hid hi hj => hrecorded.spaced hij hi hj hid
  case fired => exact hrecorded.fired
  case firedOnce =>
    intro i j n n' pid pid' time time' m id hij hid hi hj hn hn'
    rcases Nat.lt_trichotomy n n' with hlt | heq | hgt
    · exact Or.inl (hrecorded.spaced hlt hn hn' hid)
    · subst heq
      exact absurd (hrecorded.once hi hj) hij
    · exact Or.inr (hrecorded.spaced hgt hn' hn hid)
  case skipped => exact hheld.skipped
  case missing =>
    intro n pid time m id hn hid hdisk
    -- a message that is stored has no entry from the disk that is still live
    obtain ⟨k, built, cache, e, hk, hentry, hlate⟩ := hdisk
    have hle := hrecorded.reloaded hk hn hid hentry
    omega
  case replied => exact hheld.replied

/-- A transaction that fails for its second recipient, and its retry: the first recipient is passed over
and the second gets the message. -/
def helloRetry : List Move :=
  [.data helloRaw ["alice@example.org".toList, "bob@example.org".toList]] ++ deliverNext 0 true ++
    [.deliver 0 .route, .deliver 0 (.mkdir false), .deliver 0 .reply, .tick 1000000000,
      .data helloRaw ["alice@example.org".toList, "bob@example.org".toList],
      .deliver 1 .route, .deliver 1 (.mkdir true), .deliver 1 .lock, .deliver 1 .check] ++
    deliverNext 1 true ++ [.deliver 1 .reply]

/-- Fewer calls than the maximum have been made on the store into which a delivery inserts. -/
def World.fewCalls (w : World) : Move → Bool
  | .deliver pid .insert =>
      match w.procs pid with
      | some (.deliver t) =>
          match t.phase with
          | .written m _ => (w.cache m).all fun cache => decide (cache.length < dedupMaxItems)
          | _ => true
      | _ => true
  | _ => true

theorem World.belowMaximum_of_fewCalls {env : Env} {w : World} {a : Move} (h : w.fewCalls a = true) :
    w.BelowMaximum env a := by
  unfold World.BelowMaximum
  split
  next pid =>
      intro t m n cache hpid hphase hcache
      unfold World.delivers at hpid
      simp only [World.fewCalls, hpid, hphase, hcache, Option.all_some, decide_eq_true_eq] at h
      exact SparKV.hasRoom_of_length h
  next => trivial

theorem atMostOnce_helloRetry :
    ∃ w, run (step helloEnv) helloWorld helloRetry = some w ∧ AtMostOnce helloEnv w := by
  have hsome : (run (step helloEnv) helloWorld helloRetry).isSome = true := by decide +kernel
  obtain ⟨w, hrun⟩ := Option.isSome_iff_exists.mp hsome
  have hfew : Allowed (step helloEnv) (fun w a => w.fewCalls a = true) helloWorld helloRetry := by
    decide +kernel
  exact ⟨w, hrun, atMostOnce_of_run helloEnv memorySparKV_keeps
    (hfew.mono fun w a => World.belowMaximum_of_fewCalls) (by decide) hrun⟩

end Ingest
end Aimx
