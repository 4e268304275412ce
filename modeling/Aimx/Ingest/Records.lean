import Aimx.Ingest.Locks
import Mathlib.Data.Int.Order.Basic

/-!
# What the duplicate store knows

Under the lock of a mailbox a delivery looks a Message-Id up, writes the file and then enters the id;
the three are separate steps.  `Recorded` ties the store to what has been written: it is what makes the
duplicate check mean something in every interleaving.

* `Recorded` — the invariant;
* `Recorded.quiet` — a step that touches neither store nor record keeps it;
* `recorded_of_effect` — every step keeps it.
-/

namespace Aimx
namespace Ingest

open Text

/-! ## The store -/

/-- What an entry of the directory adds to the store is a call of now, for an id that was read in it. -/
theorem mem_of_loadEntry {c : Chrono} {now : Int} {cache cache' : Cache} {entry : Str × Node} {call : SetCall}
    (hload : loadEntry c now cache entry = some cache') (hcall : call ∈ cache') :
    call ∈ cache ∨ call.time = now ∧
      ∃ time, (entryContent entry).bind (readFrontmatterIdPair c) = some (call.key, time) := by
  unfold loadEntry at hload
  split at hload
  · cases hload
  · cases hload
    exact Or.inl hcall
  · split at hload
    · cases hload
      exact Or.inl hcall
    next id time hread =>
        dsimp only at hload
        split at hload
        · cases hload
          exact Or.inl hcall
        · cases hload
          rcases List.mem_cons.mp hcall with rfl | hcall
          · exact Or.inr ⟨rfl, time, hread⟩
          · exact Or.inl hcall

/-- Every call on a rebuilt store is of the time at which it is built, for an id that was read in a file. -/
theorem mem_of_buildDedupCacheFromDisk {c : Chrono} {now : Int} {d : MailDir} {cache : Cache}
    (hbuild : buildDedupCacheFromDisk c now d = some cache) {call : SetCall} (hcall : call ∈ cache) :
    call.time = now ∧
      ∃ entry ∈ d, ∃ time, (entryContent entry).bind (readFrontmatterIdPair c) = some (call.key, time) := by
  have hfold : ∀ (d : MailDir) (start : Cache), d.foldlM (loadEntry c now) start = some cache →
      call ∈ start ∨ call.time = now ∧ ∃ entry ∈ d, ∃ time,
        (entryContent entry).bind (readFrontmatterIdPair c) = some (call.key, time) := by
    intro d
    induction d with
    | nil =>
        intro start hd
        cases hd
        exact Or.inl hcall
    | cons entry d ih =>
        intro start hd
        rw [List.foldlM_cons] at hd
        obtain ⟨next, hnext, hrest⟩ := Option.bind_eq_some_iff.mp hd
        rcases ih next hrest with hbefore | ⟨htime, entry', hmem, hread⟩
        · rcases mem_of_loadEntry hnext hbefore with hstart | ⟨htime, hread⟩
          · exact Or.inl hstart
          · exact Or.inr ⟨htime, entry, List.mem_cons_self, hread⟩
        · exact Or.inr ⟨htime, entry', List.mem_cons_of_mem _ hmem, hread⟩
  exact (hfold d [] hbuild).resolve_left List.not_mem_nil

theorem time_le_of_buildDedupCacheFromDisk {c : Chrono} {now : Int} {d : MailDir} {cache : Cache}
    (hbuild : buildDedupCacheFromDisk c now d = some cache) : ∀ call ∈ cache, call.time ≤ now := by
  intro call hcall
  exact (mem_of_buildDedupCacheFromDisk hbuild hcall).1.le

/-! ## The invariant -/

theorem getElem?_concat_eq_some {α : Type*} {l : List α} {x y : α} {n : Nat} :
    (l ++ [x])[n]? = some y ↔ l[n]? = some y ∨ n = l.length ∧ x = y := by
  rcases Nat.lt_trichotomy n l.length with hlt | heq | hgt
  · rw [List.getElem?_append_left hlt]
    constructor
    · exact Or.inl
    · rintro (h | ⟨h, -⟩)
      · exact h
      · omega
  · subst heq
    simp
  · rw [List.getElem?_eq_none (by simp; omega), List.getElem?_eq_none (by omega)]
    constructor
    · intro h
      cases h
    · rintro (h | ⟨h, -⟩)
      · cases h
      · omega

/-- A transaction has passed the duplicate check of its current recipient. -/
def Phase.admitted : Phase → Bool
  | .fresh _ => true
  | .written _ _ => true
  | .firing _ _ => true
  | _ => false

/-- The message is on disk and its id is not entered yet. -/
def Phase.isWritten : Phase → Bool
  | .written _ _ => true
  | _ => false

/-- The events that the duplicate store is about. -/
def Event.isRecord : Event → Bool
  | .built _ _ _ => true
  | .stored _ _ _ _ => true
  | .fired _ _ => true
  | _ => false

/-- What the duplicate store of each mailbox knows of the run. -/
structure Recorded (env : Env) (w : World) : Prop where
  past : ∀ {n pid : Nat} {time : Int} {m id : Str},
    w.log[n]? = some (.stored pid time m id) → time ≤ w.now
  builtPast : ∀ {n : Nat} {time : Int} {m : Str} {cache : Cache},
    w.log[n]? = some (.built time m cache) →
    time ≤ w.now ∧ ∀ id e, env.makeDedupSparkv.entry cache id = some e → e ≤ time + dedupTtl
  /-- The calls on a store are of the past. -/
  timely : ∀ {m : Str} {cache : Cache}, w.cache m = some cache → ∀ c ∈ cache, c.time ≤ w.now
  /-- Before the store is built, nothing has been stored under an id. -/
  unbuilt : ∀ {n pid : Nat} {time : Int} {m id : Str}, w.cache m = none →
    w.log[n]? = some (.stored pid time m id) → id = []
  unlogged : ∀ {n : Nat} {time : Int} {m : Str} {cache : Cache}, w.cache m = none →
    w.log[n]? ≠ some (.built time m cache)
  /-- A stored message is known for its 24 hours, or is about to be entered. -/
  kept : ∀ {n pid : Nat} {time : Int} {m id : Str},
    w.log[n]? = some (.stored pid time m id) → id ≠ [] →
    (∃ cache e, w.cache m = some cache ∧ env.makeDedupSparkv.entry cache id = some e ∧
      time + dedupTtl ≤ e) ∨
      ∃ t, w.delivers pid t ∧ t.phase = .written m n
  loaded : ∀ {n : Nat} {time : Int} {m : Str} {cache₀ : Cache} {id : Str} {e₀ : Int},
    w.log[n]? = some (.built time m cache₀) → env.makeDedupSparkv.entry cache₀ id = some e₀ →
    ∃ cache e, w.cache m = some cache ∧ env.makeDedupSparkv.entry cache id = some e ∧ e₀ ≤ e
  /-- What a store contains is of a stored message, or was found on disk. -/
  origin : ∀ {m : Str} {cache : Cache} {id : Str} {now : Int},
    w.cache m = some cache → env.makeDedupSparkv.containsKey cache now id = true →
    (∃ (n pid : Nat) (time : Int), w.log[n]? = some (.stored pid time m id)) ∨
      ∃ (n : Nat) (time : Int) (cache₀ : Cache),
        w.log[n]? = some (.built time m cache₀) ∧ env.makeDedupSparkv.containsKey cache₀ now id = true
  fresh : ∀ {pid : Nat} {t : Transaction} {m : Str},
    w.delivers pid t → t.phase = .fresh m → env.messageId t.raw ≠ [] →
    ∃ cache, w.cache m = some cache ∧
      env.makeDedupSparkv.containsKey cache w.now (env.messageId t.raw) = false
  pending : ∀ {pid : Nat} {t : Transaction} {m : Str} {n : Nat},
    w.delivers pid t → t.phase = .written m n ∨ t.phase = .firing m n →
    (∃ time, w.log[n]? = some (.stored pid time m (env.messageId t.raw))) ∧
      ∀ (j : Nat) (m' : Str), w.log[j]? ≠ some (.fired m' n)
  fired : ∀ {j : Nat} {m : Str} {n : Nat}, w.log[j]? = some (.fired m n) →
    ∃ pid time id, w.log[n]? = some (.stored pid time m id)
  once : ∀ {i j : Nat} {m m' : Str} {n : Nat},
    w.log[i]? = some (.fired m n) → w.log[j]? = some (.fired m' n) → i = j
  spaced : ∀ {i j pid pid' : Nat} {time time' : Int} {m id : Str},
    i < j → w.log[i]? = some (.stored pid time m id) →
    w.log[j]? = some (.stored pid' time' m id) → id ≠ [] → time + dedupTtl ≤ time'
  reloaded : ∀ {i j pid : Nat} {time time' : Int} {m : Str} {cache : Cache} {id : Str} {e : Int},
    w.log[i]? = some (.built time m cache) →
    w.log[j]? = some (.stored pid time' m id) → id ≠ [] →
    env.makeDedupSparkv.entry cache id = some e → e ≤ time'

/-- An insert into the store of a mailbox finds fewer entries there than the maximum. -/
def World.BelowMaximum (env : Env) (w : World) : Move → Prop
  | .deliver pid .insert => ∀ {t : Transaction} {m : Str} {n : Nat} {cache : Cache},
      w.delivers pid t → t.phase = .written m n → w.cache m = some cache →
      env.makeDedupSparkv.HasRoom cache w.now
  | _ => True

theorem recorded_start (env : Env) (now : Int) (config : Config) (inbox sent : Str → List Entry) :
    Recorded env (World.start now config inbox sent) := by
  constructor
  all_goals
    intros
    simp [World.start, World.delivers] at *

/-! ## Quiet steps -/

/-- A step that touches neither the duplicate stores nor what they are about. -/
structure Quiet (w w' : World) : Prop where
  now : w.now ≤ w'.now
  cache : w'.cache = w.cache
  log : ∃ es, w'.log = w.log ++ es ∧ ∀ e ∈ es, e.isRecord = false
  back : ∀ {pid : Nat} {t' : Transaction}, w'.delivers pid t' → t'.phase.admitted = true →
    ∃ t, w.delivers pid t ∧ t.raw = t'.raw ∧ t.phase = t'.phase
  written : ∀ {pid : Nat} {t : Transaction} {m : Str} {n : Nat}, w.delivers pid t → t.phase = .written m n →
    ∃ t', w'.delivers pid t' ∧ t'.phase = .written m n

theorem Quiet.getElem?_iff {w w' : World} (h : Quiet w w') {n : Nat} {e : Event}
    (he : e.isRecord = true) : w'.log[n]? = some e ↔ w.log[n]? = some e := by
  obtain ⟨es, hlog, hquiet⟩ := h.log
  rw [hlog]
  by_cases hlt : n < w.log.length
  · rw [List.getElem?_append_left hlt]
  · have hnone : w.log[n]? = none := List.getElem?_eq_none (by omega)
    rw [List.getElem?_append_right (by omega), hnone]
    constructor
    · intro hes
      have hnot := hquiet e (List.mem_of_getElem? hes)
      rw [he] at hnot
      cases hnot
    · intro hnone
      cases hnone

/-- A quiet step keeps the invariant. -/
theorem Recorded.quiet {env : Env} {w w' : World} (h : Recorded env w) (hq : Quiet w w') :
    Recorded env w' := by
  have hstored : ∀ {n pid : Nat} {time : Int} {m id : Str},
      w'.log[n]? = some (.stored pid time m id) →
      w.log[n]? = some (.stored pid time m id) := fun he => (hq.getElem?_iff rfl).mp he
  have hbuilt : ∀ {n : Nat} {time : Int} {m : Str} {cache : Cache},
      w'.log[n]? = some (.built time m cache) →
      w.log[n]? = some (.built time m cache) := fun he => (hq.getElem?_iff rfl).mp he
  have hfired : ∀ {n : Nat} {m : Str} {k : Nat},
      w'.log[n]? = some (.fired m k) → w.log[n]? = some (.fired m k) :=
    fun he => (hq.getElem?_iff rfl).mp he
  constructor
  case past =>
    intro n pid time m id he
    exact (h.past (hstored he)).trans hq.now
  case builtPast =>
    intro n time m cache he
    have hold := h.builtPast (hbuilt he)
    exact ⟨hold.1.trans hq.now, hold.2⟩
  case timely =>
    intro m cache hcache c hc
    rw [hq.cache] at hcache
    exact (h.timely hcache c hc).trans hq.now
  case unbuilt =>
    intro n pid time m id hnone he
    rw [hq.cache] at hnone
    exact h.unbuilt hnone (hstored he)
  case unlogged =>
    intro n time m cache hnone he
    rw [hq.cache] at hnone
    exact h.unlogged hnone (hbuilt he)
  case kept =>
    intro n pid time m id he hid
    rw [hq.cache]
    rcases h.kept (hstored he) hid with hknown | ⟨t, ht, hphase⟩
    · exact Or.inl hknown
    · exact Or.inr (hq.written ht hphase)
  case loaded =>
    intro n time m cache₀ id e₀ he hentry
    rw [hq.cache]
    exact h.loaded (hbuilt he) hentry
  case origin =>
    intro m cache id now hcache hcontains
    rw [hq.cache] at hcache
    rcases h.origin hcache hcontains with ⟨n, pid, time, he⟩ | ⟨n, time, cache₀, he, hentry₀⟩
    · exact Or.inl ⟨n, pid, time, (hq.getElem?_iff rfl).mpr he⟩
    · exact Or.inr ⟨n, time, cache₀, (hq.getElem?_iff rfl).mpr he, hentry₀⟩
  case fresh =>
    intro pid t' m ht' hphase hid
    obtain ⟨t, ht, hraw, hphase'⟩ := hq.back ht' (by rw [hphase]; rfl)
    rw [← hraw] at hid ⊢
    obtain ⟨cache, hcache, hnot⟩ := h.fresh ht (hphase'.trans hphase) hid
    refine ⟨cache, by rw [hq.cache]; exact hcache, ?_⟩
    rw [← Bool.not_eq_true] at hnot ⊢
    exact fun hlater => hnot (env.makeDedupSparkv.later hq.now hlater)
  case pending =>
    intro pid t' m n ht' hphase
    obtain ⟨t, ht, hraw, hphase'⟩ := hq.back ht' (by rcases hphase with hp | hp <;> rw [hp] <;> rfl)
    rw [← hphase'] at hphase
    obtain ⟨⟨time, he⟩, hnone⟩ := h.pending ht hphase
    rw [← hraw]
    exact ⟨⟨time, (hq.getElem?_iff rfl).mpr he⟩, fun j m' hj => hnone j m' (hfired hj)⟩
  case fired =>
    intro j m n he
    obtain ⟨pid, time, id, hn⟩ := h.fired (hfired he)
    exact ⟨pid, time, id, (hq.getElem?_iff rfl).mpr hn⟩
  case once =>
    intro i j m m' n hi hj
    exact h.once (hfired hi) (hfired hj)
  case spaced =>
    intro i j pid pid' time time' m id hij hi hj hid
    exact h.spaced hij (hstored hi) (hstored hj) hid
  case reloaded =>
    intro i j pid time time' m cache id e hi hj hid hentry
    exact h.reloaded (hbuilt hi) (hstored hj) hid hentry

section

variable {w w' : World} {pid : Nat}

/-- A transaction goes on and is not past the duplicate check afterwards. -/
theorem quiet_deliver {t : Transaction} {ph : Phase} {q : Option Proc} (hpid : w.delivers pid t)
    (hphase : t.phase = ph) (hold : ph.isWritten = false)
    (hnew : q = none ∨ ∃ t', q = some (.deliver t') ∧ t'.phase.admitted = false)
    (hprocs : w'.procs = (w.setProc pid q).procs) (hnow : w.now ≤ w'.now)
    (hcache : w'.cache = w.cache)
    (hlog : ∃ es, w'.log = w.log ++ es ∧ ∀ e ∈ es, e.isRecord = false) : Quiet w w' where
  now := hnow
  cache := hcache
  log := hlog
  back := by
    intro pid' t' ht' hadmitted
    unfold World.delivers at ht'
    rw [hprocs, World.procs_setProc] at ht'
    split at ht'
    · rcases hnew with rfl | ⟨t'', rfl, hnot⟩
      · cases ht'
      · cases ht'
        rw [hnot] at hadmitted
        cases hadmitted
    · exact ⟨t', ht', rfl, rfl⟩
  written := by
    intro pid' t' m n ht' hwritten
    refine ⟨t', ?_, hwritten⟩
    unfold World.delivers
    rw [hprocs, World.procs_setProc, if_neg]
    · exact ht'
    · rintro rfl
      unfold World.delivers at hpid ht'
      rw [hpid] at ht'
      cases ht'
      rw [← hphase, hwritten] at hold
      cases hold

/-- A process that is no transaction goes on. -/
theorem quiet_other {p : Proc} {q : Option Proc} (hpid : w.procs pid = some p)
    (hp : ∀ t, p ≠ .deliver t) (hq : ∀ t, q ≠ some (.deliver t))
    (hprocs : w'.procs = (w.setProc pid q).procs) (hnow : w.now ≤ w'.now)
    (hcache : w'.cache = w.cache)
    (hlog : ∃ es, w'.log = w.log ++ es ∧ ∀ e ∈ es, e.isRecord = false) : Quiet w w' where
  now := hnow
  cache := hcache
  log := hlog
  back := by
    intro pid' t' ht' _
    unfold World.delivers at ht'
    rw [hprocs, World.procs_setProc] at ht'
    split at ht'
    · exact absurd ht' (hq t')
    · exact ⟨t', ht', rfl, rfl⟩
  written := by
    intro pid' t' m n ht' hphase
    refine ⟨t', ?_, hphase⟩
    unfold World.delivers
    rw [hprocs, World.procs_setProc, if_neg]
    · exact ht'
    · rintro rfl
      unfold World.delivers at ht'
      rw [hpid] at ht'
      exact hp t' (Option.some.inj ht')

/-- A process begins. -/
theorem quiet_spawn {p : Proc} (h : Locked w) (hp : ∀ t, p = .deliver t → t.phase.admitted = false)
    (hprocs : w'.procs = (w.spawn p).procs) (hnow : w.now ≤ w'.now) (hcache : w'.cache = w.cache)
    (hlog : w'.log = w.log) : Quiet w w' where
  now := hnow
  cache := hcache
  log := ⟨[], by rw [hlog, List.append_nil], by simp⟩
  back := by
    intro pid' t' ht' hadmitted
    unfold World.delivers at ht'
    rw [hprocs, World.procs_spawn] at ht'
    split at ht'
    · rw [hp t' (Option.some.inj ht')] at hadmitted
      cases hadmitted
    · exact ⟨t', ht', rfl, rfl⟩
  written := by
    intro pid' t' m n ht' hphase
    refine ⟨t', ?_, hphase⟩
    unfold World.delivers
    rw [hprocs, World.procs_spawn, if_neg]
    · exact ht'
    · rintro rfl
      unfold World.delivers at ht'
      rw [h.unborn w.next le_rfl] at ht'
      cases ht'

/-- The processes, the stores and the record stay as they are. -/
theorem quiet_same (hprocs : w'.procs = w.procs) (hnow : w.now ≤ w'.now)
    (hcache : w'.cache = w.cache)
    (hlog : ∃ es, w'.log = w.log ++ es ∧ ∀ e ∈ es, e.isRecord = false) : Quiet w w' where
  now := hnow
  cache := hcache
  log := hlog
  back := by
    intro pid' t' ht' _
    unfold World.delivers at ht'
    rw [hprocs] at ht'
    exact ⟨t', ht', rfl, rfl⟩
  written := by
    intro pid' t' m n ht' hphase
    refine ⟨t', ?_, hphase⟩
    unfold World.delivers
    rw [hprocs]
    exact ht'

/-- Nothing that the duplicate stores are about is added to the record. -/
theorem log_nothing {l : List Event} : ∃ es, l = l ++ es ∧ ∀ e ∈ es, e.isRecord = false :=
  ⟨[], by simp, by simp⟩

theorem log_one {l : List Event} {x : Event} (hx : x.isRecord = false) :
    ∃ es, l ++ [x] = l ++ es ∧ ∀ e ∈ es, e.isRecord = false := by
  refine ⟨[x], rfl, ?_⟩
  intro e he
  rw [List.mem_singleton] at he
  rw [he]
  exact hx

end

/-! ## The steps that count -/

theorem World.delivers_setProc_iff (w : World) (pid : Nat) (t : Transaction) {pid' : Nat}
    {t' : Transaction} :
    (w.setProc pid (some (.deliver t))).delivers pid' t' ↔
      pid' = pid ∧ t' = t ∨ pid' ≠ pid ∧ w.delivers pid' t' := by
  unfold World.delivers
  rw [World.procs_setProc]
  by_cases heq : pid' = pid
  · rw [if_pos heq]
    constructor
    · intro ht'
      cases ht'
      exact Or.inl ⟨heq, rfl⟩
    · rintro (⟨-, rfl⟩ | ⟨hne, -⟩)
      · rfl
      · exact absurd heq hne
  · rw [if_neg heq]
    constructor
    · exact fun ht' => Or.inr ⟨heq, ht'⟩
    · rintro (⟨heq', -⟩ | ⟨-, ht'⟩)
      · exact absurd heq' heq
      · exact ht'

theorem World.delivers_inj {w : World} {pid : Nat} {t t' : Transaction} (h : w.delivers pid t)
    (h' : w.delivers pid t') : t = t' := by
  unfold World.delivers at h h'
  rw [h] at h'
  cases h'
  rfl

section

variable {env : Env} {w : World} {m : Str}

/-- The store of a mailbox is built. -/
theorem Recorded.build (h : Recorded env w) {cache : Cache} (hnone : w.cache m = none)
    (htimes : ∀ c ∈ cache, c.time ≤ w.now)
    (hle : ∀ id e, env.makeDedupSparkv.entry cache id = some e → e ≤ w.now + dedupTtl) :
    Recorded env ((w.setCache m (some cache)).emit [.built w.now m cache]) := by
  have hlog : ((w.setCache m (some cache)).emit [.built w.now m cache]).log =
      w.log ++ [.built w.now m cache] := rfl
  have hcache : ∀ m', ((w.setCache m (some cache)).emit [.built w.now m cache]).cache m' =
      if m' = m then some cache else w.cache m' := fun m' =>
    Function.update_apply w.cache m (some cache) m'
  have hstored : ∀ {n pid : Nat} {time : Int} {m' id : Str},
      (w.log ++ [.built w.now m cache])[n]? = some (.stored pid time m' id) →
      w.log[n]? = some (.stored pid time m' id) := by
    intro n pid time m' id he
    rcases getElem?_concat_eq_some.mp he with he | ⟨-, he⟩
    · exact he
    · cases he
  have hfired : ∀ {n k : Nat} {m' : Str},
      (w.log ++ [.built w.now m cache])[n]? = some (.fired m' k) →
      w.log[n]? = some (.fired m' k) := by
    intro n k m' he
    rcases getElem?_concat_eq_some.mp he with he | ⟨-, he⟩
    · exact he
    · cases he
  -- nothing of this mailbox was on record before
  have hother : ∀ {m' : Str} {cache' : Cache}, w.cache m' = some cache' → m' ≠ m := by
    rintro m' cache' hsome rfl
    rw [hnone] at hsome
    cases hsome
  constructor
  case past =>
    intro n pid time m' id he
    exact h.past (hstored he)
  case builtPast =>
    intro n time m' cache' he
    rcases getElem?_concat_eq_some.mp he with he | ⟨-, he⟩
    · exact h.builtPast he
    · cases he
      exact ⟨le_rfl, hle⟩
  case timely =>
    intro m' cache' hsome
    rw [hcache] at hsome
    split at hsome
    · cases hsome
      exact htimes
    · exact h.timely hsome
  case unbuilt =>
    intro n pid time m' id hnone' he
    rw [hcache] at hnone'
    split at hnone'
    · cases hnone'
    · exact h.unbuilt hnone' (hstored he)
  case unlogged =>
    intro n time m' cache' hnone' he
    rw [hcache] at hnone'
    split at hnone'
    · cases hnone'
    next hne =>
        rcases getElem?_concat_eq_some.mp he with he | ⟨-, he⟩
        · exact h.unlogged hnone' he
        · cases he
          exact hne rfl
  case kept =>
    intro n pid time m' id he hid
    rcases h.kept (hstored he) hid with ⟨cache', e, hsome, hentry, hlate⟩ | hpending
    · refine Or.inl ⟨cache', e, ?_, hentry, hlate⟩
      rw [hcache, if_neg (hother hsome)]
      exact hsome
    · exact Or.inr hpending
  case loaded =>
    intro n time m' cache₀ id e₀ he hentry
    rcases getElem?_concat_eq_some.mp he with he | ⟨-, he⟩
    · obtain ⟨cache', e, hsome, hentry', hlate⟩ := h.loaded he hentry
      refine ⟨cache', e, ?_, hentry', hlate⟩
      rw [hcache, if_neg (hother hsome)]
      exact hsome
    · cases he
      exact ⟨cache, e₀, by rw [hcache, if_pos rfl], hentry, le_rfl⟩
  case origin =>
    intro m' cache' id now hsome hcontains
    rw [hcache] at hsome
    rw [hlog]
    split at hsome
    next heq =>
        cases hsome
        subst heq
        exact Or.inr ⟨w.log.length, w.now, cache,
          getElem?_concat_eq_some.mpr (Or.inr ⟨rfl, rfl⟩), hcontains⟩
    next =>
        rcases h.origin hsome hcontains with ⟨n, pid, time, he⟩ | ⟨n, time, cache₀, he, hentry₀⟩
        · exact Or.inl ⟨n, pid, time, getElem?_concat_eq_some.mpr (Or.inl he)⟩
        · exact Or.inr ⟨n, time, cache₀, getElem?_concat_eq_some.mpr (Or.inl he), hentry₀⟩
  case fresh =>
    intro pid t m' ht hphase hid
    obtain ⟨cache', hsome, hnot⟩ := h.fresh ht hphase hid
    refine ⟨cache', ?_, hnot⟩
    rw [hcache, if_neg (hother hsome)]
    exact hsome
  case pending =>
    intro pid t m' n ht hphase
    obtain ⟨⟨time, he⟩, hnot⟩ := h.pending ht hphase
    exact ⟨⟨time, getElem?_concat_eq_some.mpr (Or.inl he)⟩, fun j m'' hj => hnot j m'' (hfired hj)⟩
  case fired =>
    intro j m' n he
    obtain ⟨pid, time, id, hn⟩ := h.fired (hfired he)
    exact ⟨pid, time, id, getElem?_concat_eq_some.mpr (Or.inl hn)⟩
  case once =>
    intro i j m' m'' n hi hj
    exact h.once (hfired hi) (hfired hj)
  case spaced =>
    intro i j pid pid' time time' m' id hij hi hj hid
    exact h.spaced hij (hstored hi) (hstored hj) hid
  case reloaded =>
    intro i j pid time time' m' cache' id e hi hj hid hentry
    rcases getElem?_concat_eq_some.mp hi with hi | ⟨-, hi⟩
    · exact h.reloaded hi (hstored hj) hid hentry
    · cases hi
      exact absurd (h.unbuilt hnone (hstored hj)) hid

/-- A message passes the duplicate check. -/
theorem Recorded.pass (h : Recorded env w) {pid : Nat} {t : Transaction} (hpid : w.delivers pid t)
    (hphase : t.phase = .locked m)
    (hnew : env.messageId t.raw ≠ [] →
      ∃ cache, w.cache m = some cache ∧
        env.makeDedupSparkv.containsKey cache w.now (env.messageId t.raw) = false) :
    Recorded env (w.setProc pid (some (.deliver { t with phase := .fresh m }))) := by
  have hback := @World.delivers_setProc_iff w pid { t with phase := .fresh m }
  constructor
  case past => exact h.past
  case builtPast => exact h.builtPast
  case timely => exact h.timely
  case unbuilt => exact h.unbuilt
  case unlogged => exact h.unlogged
  case kept =>
    intro n pid' time m' id he hid
    rcases h.kept he hid with hknown | ⟨t', ht', hwritten⟩
    · exact Or.inl hknown
    · refine Or.inr ⟨t', hback.mpr (Or.inr ⟨?_, ht'⟩), hwritten⟩
      rintro rfl
      rw [World.delivers_inj ht' hpid, hphase] at hwritten
      cases hwritten
  case loaded => exact h.loaded
  case origin => exact h.origin
  case fresh =>
    intro pid' t' m' ht' hphase' hid
    rcases hback.mp ht' with ⟨rfl, rfl⟩ | ⟨-, ht'⟩
    · cases hphase'
      exact hnew hid
    · exact h.fresh ht' hphase' hid
  case pending =>
    intro pid' t' m' n ht' hphase'
    rcases hback.mp ht' with ⟨rfl, rfl⟩ | ⟨-, ht'⟩
    · rcases hphase' with hphase' | hphase' <;> cases hphase'
    · exact h.pending ht' hphase'
  case fired => exact h.fired
  case once => exact h.once
  case spaced => exact h.spaced
  case reloaded => exact h.reloaded

/-- A message is on disk.  No other delivery is between its write and its insert here, so every message
that was stored before under its id is in the store, with an entry that has ended. -/
theorem Recorded.stored (h : Recorded env w) (hkeeps : env.makeDedupSparkv.Keeps) (hlocked : Locked w)
    {pid : Nat} {t : Transaction} {stem : Str} (hpid : w.delivers pid t) (hphase : t.phase = .fresh m) :
    Recorded env ((w.setProc pid
      (some (.deliver { t with phase := .written m w.log.length, id := stem }))).emit
      [.stored pid w.now m (env.messageId t.raw)]) := by
  have hback := @World.delivers_setProc_iff w pid
    { t with phase := .written m w.log.length, id := stem }
  have hevent : ∀ {n : Nat} {e : Event},
      (w.log ++ [.stored pid w.now m (env.messageId t.raw)])[n]? = some e ↔
        w.log[n]? = some e ∨ n = w.log.length ∧ .stored pid w.now m (env.messageId t.raw) = e :=
    getElem?_concat_eq_some
  have hbuilt : ∀ {n : Nat} {time : Int} {m' : Str} {cache : Cache},
      (w.log ++ [.stored pid w.now m (env.messageId t.raw)])[n]? = some (.built time m' cache) →
      w.log[n]? = some (.built time m' cache) := by
    intro n time m' cache he
    rcases hevent.mp he with he | ⟨-, he⟩
    · exact he
    · cases he
  have hfired : ∀ {n k : Nat} {m' : Str},
      (w.log ++ [.stored pid w.now m (env.messageId t.raw)])[n]? = some (.fired m' k) →
      w.log[n]? = some (.fired m' k) := by
    intro n k m' he
    rcases hevent.mp he with he | ⟨-, he⟩
    · exact he
    · cases he
  have hgrow : ∀ {n : Nat} {e : Event}, w.log[n]? = some e →
      (w.log ++ [.stored pid w.now m (env.messageId t.raw)])[n]? = some e :=
    fun he => hevent.mpr (Or.inl he)
  constructor
  case past =>
    intro n pid' time m' id he
    rcases hevent.mp he with he | ⟨-, he⟩
    · exact h.past he
    · cases he
      exact le_rfl
  case builtPast =>
    intro n time m' cache he
    exact h.builtPast (hbuilt he)
  case timely => exact h.timely
  case unbuilt =>
    intro n pid' time m' id hnone he
    rcases hevent.mp he with he | ⟨-, he⟩
    · exact h.unbuilt hnone he
    · cases he
      by_contra hid
      obtain ⟨cache, hsome, -⟩ := h.fresh hpid hphase hid
      have hnone' : w.cache m = none := hnone
      rw [hsome] at hnone'
      cases hnone'
  case unlogged =>
    intro n time m' cache hnone he
    exact h.unlogged hnone (hbuilt he)
  case kept =>
    intro n pid' time m' id he hid
    rcases hevent.mp he with he | ⟨rfl, heq⟩
    · rcases h.kept he hid with hknown | ⟨t', ht', hwritten⟩
      · exact Or.inl hknown
      · refine Or.inr ⟨t', hback.mpr (Or.inr ⟨?_, ht'⟩), hwritten⟩
        rintro rfl
        rw [World.delivers_inj ht' hpid, hphase] at hwritten
        cases hwritten
    · cases heq
      exact Or.inr ⟨_, hback.mpr (Or.inl ⟨rfl, rfl⟩), rfl⟩
  case loaded =>
    intro n time m' cache₀ id e₀ he hentry
    exact h.loaded (hbuilt he) hentry
  case origin =>
    intro m' cache id now hsome hcontains
    rcases h.origin hsome hcontains with ⟨n, pid', time, he⟩ | ⟨n, time, cache₀, he, hentry₀⟩
    · exact Or.inl ⟨n, pid', time, hgrow he⟩
    · exact Or.inr ⟨n, time, cache₀, hgrow he, hentry₀⟩
  case fresh =>
    intro pid' t' m' ht' hphase' hid
    rcases hback.mp ht' with ⟨rfl, rfl⟩ | ⟨-, ht'⟩
    · cases hphase'
    · exact h.fresh ht' hphase' hid
  case pending =>
    intro pid' t' m' n ht' hphase'
    rcases hback.mp ht' with ⟨rfl, rfl⟩ | ⟨-, ht'⟩
    · rcases hphase' with hphase' | hphase'
      · cases hphase'
        refine ⟨⟨w.now, hevent.mpr (Or.inr ⟨rfl, rfl⟩)⟩, ?_⟩
        intro j m'' hj
        -- hooks run only for messages that are on record already
        obtain ⟨pid'', time, id, hn⟩ := h.fired (hfired hj)
        rw [List.getElem?_eq_none le_rfl] at hn
        cases hn
      · cases hphase'
    · obtain ⟨⟨time, he⟩, hnot⟩ := h.pending ht' hphase'
      exact ⟨⟨time, hgrow he⟩, fun j m'' hj => hnot j m'' (hfired hj)⟩
  case fired =>
    intro j m' n he
    obtain ⟨pid', time, id, hn⟩ := h.fired (hfired he)
    exact ⟨pid', time, id, hgrow hn⟩
  case once =>
    intro i j m' m'' n hi hj
    exact h.once (hfired hi) (hfired hj)
  case spaced =>
    intro i j pid' pid'' time time' m' id hij hi hj hid
    have hlt : i < w.log.length := by
      rcases hevent.mp hj with hj' | ⟨hj', -⟩
      · have hlt' := (List.getElem?_eq_some_iff.mp hj').1
        omega
      · omega
    have hi' : w.log[i]? = some (.stored pid' time m' id) := by
      rcases hevent.mp hi with hi | ⟨rfl, -⟩
      · exact hi
      · omega
    rcases hevent.mp hj with hj | ⟨-, hj⟩
    · exact h.spaced hij hi' hj hid
    · cases hj
      rcases h.kept hi' hid with ⟨cache, e, hsome, hentry, hlate⟩ | ⟨t', ht', hwritten⟩
      · obtain ⟨cache', hsome', hnot⟩ := h.fresh hpid hphase hid
        rw [hsome] at hsome'
        cases hsome'
        exact hlate.trans (hkeeps.entry_le (h.timely hsome) hnot hentry)
      · -- two deliveries would be in one critical section
        have hheld := (World.holds_eq hpid).trans
          (Transaction.holds_of_phase (Or.inr (Or.inl hphase)))
        have hheld' := (World.holds_eq ht').trans
          (Transaction.holds_of_phase (Or.inr (Or.inr ⟨i, hwritten⟩)))
        obtain rfl := hlocked.unique hheld hheld'
        rw [World.delivers_inj ht' hpid, hphase] at hwritten
        cases hwritten
  case reloaded =>
    intro i j pid' time time' m' cache id e hi hj hid hentry
    rcases hevent.mp hj with hj | ⟨-, hj⟩
    · exact h.reloaded (hbuilt hi) hj hid hentry
    · cases hj
      obtain ⟨cache', e', hsome, hentry', hle⟩ := h.loaded (hbuilt hi) hentry
      obtain ⟨cache'', hsome', hnot⟩ := h.fresh hpid hphase hid
      rw [hsome] at hsome'
      cases hsome'
      exact hle.trans (hkeeps.entry_le (h.timely hsome) hnot hentry')

/-- The id of a message that is on disk is entered, and the lock is given back. -/
theorem Recorded.insert (h : Recorded env w) (hkeeps : env.makeDedupSparkv.Keeps) (hlocked : Locked w)
    {pid n : Nat} {t : Transaction} (hpid : w.delivers pid t) (hphase : t.phase = .written m n)
    (hroom : ∀ cache, w.cache m = some cache → env.makeDedupSparkv.HasRoom cache w.now) :
    Recorded env (((w.setCache m ((w.cache m).map fun cache =>
      env.makeDedupSparkv.enter cache w.now (env.messageId t.raw) t.id)).setHolder m none).setProc pid
        (some (.deliver { t with phase := .firing m n }))) := by
  have hback := @World.delivers_setProc_iff w pid { t with phase := .firing m n }
  have hcache : ∀ m', Function.update w.cache m ((w.cache m).map fun cache =>
      env.makeDedupSparkv.enter cache w.now (env.messageId t.raw) t.id) m' =
        if m' = m then
          (w.cache m).map fun cache => env.makeDedupSparkv.enter cache w.now (env.messageId t.raw) t.id
        else w.cache m' := fun m' => Function.update_apply w.cache m _ m'
  obtain ⟨⟨time₀, hstored⟩, hunfired⟩ := h.pending hpid (Or.inl hphase)
  have hheld := (World.holds_eq hpid).trans
    (Transaction.holds_of_phase (Or.inr (Or.inr ⟨n, hphase⟩)))
  -- a key that is known until `b` is known until `b` afterwards
  have hgrow : ∀ {m' : Str} {cache : Cache} {key : Str} {e b : Int}, w.cache m' = some cache →
      env.makeDedupSparkv.entry cache key = some e → b ≤ e → b ≤ w.now + dedupTtl →
      ∃ cache' e', Function.update w.cache m ((w.cache m).map fun cache =>
          env.makeDedupSparkv.enter cache w.now (env.messageId t.raw) t.id) m' = some cache' ∧
        env.makeDedupSparkv.entry cache' key = some e' ∧ b ≤ e' := by
    intro m' cache key e b hsome hentry hbe hb
    rw [hcache]
    by_cases hm : m' = m
    · subst hm
      rw [if_pos rfl, hsome]
      by_cases hkey : env.messageId t.raw ≠ [] ∧ key = env.messageId t.raw
      · refine ⟨_, w.now + dedupTtl, rfl, ?_, hb⟩
        rw [hkeeps.entry_enter (hroom cache hsome), if_pos hkey]
      · refine ⟨_, e, rfl, ?_, hbe⟩
        rw [hkeeps.entry_enter (hroom cache hsome), if_neg hkey]
        exact hentry
    · rw [if_neg hm]
      exact ⟨cache, e, hsome, hentry, hbe⟩
  have hnone : ∀ {m' : Str}, Function.update w.cache m ((w.cache m).map fun cache =>
      env.makeDedupSparkv.enter cache w.now (env.messageId t.raw) t.id) m' = none → w.cache m' = none := by
    intro m' hnone
    rw [hcache] at hnone
    split at hnone
    next heq =>
        rw [heq]
        exact Option.map_eq_none_iff.mp hnone
    next => exact hnone
  constructor
  case past => exact h.past
  case builtPast => exact h.builtPast
  case timely =>
    intro m' cache' hsome
    have hsome' : Function.update w.cache m _ m' = some cache' := hsome
    rw [hcache] at hsome'
    split at hsome'
    next =>
        obtain ⟨cache, hold, rfl⟩ := Option.map_eq_some_iff.mp hsome'
        rw [SparKV.enter_eq]
        split
        next => exact h.timely hold
        next => exact List.forall_mem_cons.mpr ⟨le_rfl, h.timely hold⟩
    next => exact h.timely hsome'
  case unbuilt => exact fun hnone' => h.unbuilt (hnone hnone')
  case unlogged => exact fun hnone' => h.unlogged (hnone hnone')
  case kept =>
    intro k pid' time m' id hk hid
    have he : w.log[k]? = some (.stored pid' time m' id) := hk
    have hpast := h.past he
    rcases h.kept he hid with ⟨cache, e, hsome, hentry, hlate⟩ | ⟨t', ht', hwritten⟩
    · exact Or.inl (hgrow hsome hentry hlate (by omega))
    · by_cases heq : pid' = pid
      · -- this is the message whose id is entered now
        subst heq
        obtain rfl := World.delivers_inj hpid ht'
        rw [hphase] at hwritten
        cases hwritten
        rw [hstored] at he
        cases he
        cases hsome : w.cache m with
        | none => exact absurd (h.unbuilt hsome hstored) hid
        | some cache =>
            refine Or.inl ⟨env.makeDedupSparkv.enter cache w.now (env.messageId t.raw) t.id,
              w.now + dedupTtl, ?_, ?_, by omega⟩
            · show Function.update w.cache m _ m = _
              rw [Function.update_self]
              rfl
            · rw [hkeeps.entry_enter (hroom cache hsome), if_pos ⟨hid, rfl⟩]
      · exact Or.inr ⟨t', hback.mpr (Or.inr ⟨heq, ht'⟩), hwritten⟩
  case loaded =>
    intro k time m' cache₀ id e₀ he hentry
    have hpast := h.builtPast he
    have hle := hpast.2 id e₀ hentry
    obtain ⟨cache, e, hsome, hentry', hlate⟩ := h.loaded he hentry
    exact hgrow hsome hentry' hlate (by omega)
  case origin =>
    intro m' cache' id now hsome hcontains
    have hsome' : Function.update w.cache m _ m' = some cache' := hsome
    rw [hcache] at hsome'
    split at hsome'
    next heq =>
        subst heq
        obtain ⟨cache, hold, rfl⟩ := Option.map_eq_some_iff.mp hsome'
        rw [SparKV.enter_eq] at hcontains
        split at hcontains
        next => exact h.origin hold hcontains
        next =>
            rcases env.makeDedupSparkv.call hcontains with ⟨hkey, -⟩ | hcontains
            · rw [hkey]
              exact Or.inl ⟨n, pid, time₀, hstored⟩
            · exact h.origin hold hcontains
    next => exact h.origin hsome' hcontains
  case fresh =>
    intro pid' t' m' ht' hphase' hid
    rcases hback.mp ht' with ⟨rfl, rfl⟩ | ⟨hne, hbefore⟩
    · cases hphase'
    · obtain ⟨cache, hsome, hnot⟩ := h.fresh hbefore hphase' hid
      refine ⟨cache, ?_, hnot⟩
      show Function.update w.cache m _ m' = some cache
      rw [hcache, if_neg]
      · exact hsome
      · -- the two would be in one critical section
        rintro rfl
        have hheld' := (World.holds_eq hbefore).trans
          (Transaction.holds_of_phase (Or.inr (Or.inl hphase')))
        exact hne (hlocked.unique hheld' hheld)
  case pending =>
    intro pid' t' m' k ht' hphase'
    rcases hback.mp ht' with ⟨rfl, rfl⟩ | ⟨-, ht'⟩
    · rcases hphase' with hphase' | hphase'
      · cases hphase'
      · cases hphase'
        exact ⟨⟨time₀, hstored⟩, hunfired⟩
    · exact h.pending ht' hphase'
  case fired => exact h.fired
  case once => exact h.once
  case spaced => exact h.spaced
  case reloaded => exact h.reloaded

/-- The hooks of a stored message are started. -/
theorem Recorded.fire (h : Recorded env w) {pid n : Nat} {t : Transaction} (hpid : w.delivers pid t)
    (hphase : t.phase = .firing m n) (ok : Bool) :
    Recorded env ((w.setProc pid (some (.deliver (t.finish ok)))).emit [.fired m n]) := by
  have hback := @World.delivers_setProc_iff w pid (t.finish ok)
  have hevent : ∀ {k : Nat} {e : Event}, (w.log ++ [.fired m n])[k]? = some e ↔
      w.log[k]? = some e ∨ k = w.log.length ∧ .fired m n = e := getElem?_concat_eq_some
  have hstored : ∀ {k pid' : Nat} {time : Int} {m' id : Str},
      (w.log ++ [.fired m n])[k]? = some (.stored pid' time m' id) →
      w.log[k]? = some (.stored pid' time m' id) := by
    intro k pid' time m' id he
    rcases hevent.mp he with he | ⟨-, he⟩
    · exact he
    · cases he
  have hbuilt : ∀ {k : Nat} {time : Int} {m' : Str} {cache : Cache},
      (w.log ++ [.fired m n])[k]? = some (.built time m' cache) →
      w.log[k]? = some (.built time m' cache) := by
    intro k time m' cache he
    rcases hevent.mp he with he | ⟨-, he⟩
    · exact he
    · cases he
  have hgrow : ∀ {k : Nat} {e : Event}, w.log[k]? = some e → (w.log ++ [.fired m n])[k]? = some e :=
    fun he => hevent.mpr (Or.inl he)
  obtain ⟨⟨time₀, hn⟩, hunfired⟩ := h.pending hpid (Or.inr hphase)
  constructor
  case past => exact fun he => h.past (hstored he)
  case builtPast => exact fun he => h.builtPast (hbuilt he)
  case timely => exact h.timely
  case unbuilt => exact fun hnone he => h.unbuilt hnone (hstored he)
  case unlogged => exact fun hnone he => h.unlogged hnone (hbuilt he)
  case kept =>
    intro k pid' time m' id he hid
    rcases h.kept (hstored he) hid with hknown | ⟨t', ht', hwritten⟩
    · exact Or.inl hknown
    · refine Or.inr ⟨t', hback.mpr (Or.inr ⟨?_, ht'⟩), hwritten⟩
      rintro rfl
      rw [World.delivers_inj ht' hpid, hphase] at hwritten
      cases hwritten
  case loaded => exact fun he => h.loaded (hbuilt he)
  case origin =>
    intro m' cache id now hsome hcontains
    rcases h.origin hsome hcontains with ⟨k, pid', time, he⟩ | ⟨k, time, cache₀, he, hentry₀⟩
    · exact Or.inl ⟨k, pid', time, hgrow he⟩
    · exact Or.inr ⟨k, time, cache₀, hgrow he, hentry₀⟩
  case fresh =>
    intro pid' t' m' ht' hphase' hid
    rcases hback.mp ht' with ⟨rfl, rfl⟩ | ⟨-, ht'⟩
    · cases hphase'
    · exact h.fresh ht' hphase' hid
  case pending =>
    intro pid' t' m' k ht' hphase'
    rcases hback.mp ht' with ⟨rfl, rfl⟩ | ⟨hne, ht'⟩
    · rcases hphase' with hphase' | hphase' <;> cases hphase'
    · obtain ⟨⟨time, he⟩, hnot⟩ := h.pending ht' hphase'
      refine ⟨⟨time, hgrow he⟩, ?_⟩
      intro j m'' hj
      rcases hevent.mp hj with hj | ⟨-, hj⟩
      · exact hnot j m'' hj
      · -- a `stored` event names the process that fires for it
        cases hj
        have hsame := Event.stored.inj (Option.some.inj (he.symm.trans hn))
        exact hne hsame.1
  case fired =>
    intro j m' k he
    rcases hevent.mp he with he | ⟨-, he⟩
    · obtain ⟨pid', time, id, hk⟩ := h.fired he
      exact ⟨pid', time, id, hgrow hk⟩
    · cases he
      exact ⟨pid, time₀, _, hgrow hn⟩
  case once =>
    intro i j m' m'' k hi hj
    rcases hevent.mp hi with hi' | ⟨hi', hfire⟩
    · rcases hevent.mp hj with hj' | ⟨hj', hfire⟩
      · exact h.once hi' hj'
      · cases hfire
        exact absurd hi' (hunfired i m')
    · rcases hevent.mp hj with hj' | ⟨hj', -⟩
      · cases hfire
        exact absurd hj' (hunfired j m'')
      · rw [hi', hj']
  case spaced => exact fun hij hi hj => h.spaced hij (hstored hi) (hstored hj)
  case reloaded => exact fun hi hj => h.reloaded (hbuilt hi) (hstored hj)
end

/-- **The duplicate stores and the record agree** in every step of the system. -/
theorem recorded_of_effect {env : Env} {w w' : World} {a : Move} (h : Recorded env w)
    (hkeeps : env.makeDedupSparkv.Keeps) (hlocked : Locked w) (heffect : Effect env w a w')
    (hroom : w.BelowMaximum env a) : Recorded env w' := by
  cases heffect with
  | tick d => exact h.quiet (quiet_same rfl (by show w.now ≤ w.now + d; omega) rfl log_nothing)
  | data raw rcpts =>
      refine h.quiet (quiet_spawn hlocked ?_ rfl le_rfl rfl rfl)
      intro t ht
      cases ht
      rfl
  | unrouted hpid hphase =>
      exact h.quiet (quiet_deliver hpid hphase rfl (Or.inr ⟨_, rfl, rfl⟩) rfl le_rfl rfl log_nothing)
  | routed hpid hphase =>
      exact h.quiet (quiet_deliver hpid hphase rfl (Or.inr ⟨_, rfl, rfl⟩) rfl le_rfl rfl log_nothing)
  | unready ok hpid hphase =>
      exact h.quiet (quiet_deliver hpid hphase rfl (Or.inr ⟨_, rfl, rfl⟩) rfl le_rfl rfl log_nothing)
  | ready ok hpid hphase =>
      exact h.quiet (quiet_deliver hpid hphase rfl (Or.inr ⟨_, rfl, rfl⟩) rfl le_rfl rfl log_nothing)
  | lock hpid hphase =>
      exact h.quiet (quiet_deliver hpid hphase rfl (Or.inr ⟨_, rfl, rfl⟩) rfl le_rfl rfl log_nothing)
  | unbuilt readable hpid hphase =>
      exact h.quiet (quiet_deliver hpid hphase rfl (Or.inr ⟨_, rfl, rfl⟩) rfl le_rfl rfl log_nothing)
  | build readable hpid hphase hid hnone hbuild =>
      have htimes := time_le_of_buildDedupCacheFromDisk hbuild
      exact h.build hnone htimes fun id e hentry => hkeeps.entry_le_max htimes hentry
  | skip hpid hphase =>
      exact h.quiet (quiet_deliver hpid hphase rfl (Or.inr ⟨_, rfl, rfl⟩) rfl le_rfl rfl (log_one rfl))
  | pass hpid hphase hnew => exact h.pass hpid hphase hnew
  | @write pid t m id e wr hpid hphase =>
      -- the file first, then the record of it
      have hfile : Recorded env ((w.setInbox m (w.inbox m ++ [e])).emit [w.wroteEvent m (t.epochs m)]) :=
        h.quiet (quiet_same rfl le_rfl rfl (log_one rfl))
      have hlength : ((w.setInbox m (w.inbox m ++ [e])).emit
          [w.wroteEvent m (t.epochs m)]).log.length = w.log.length + 1 := List.length_append
      have hstored := @Recorded.stored _ _ _ hfile hkeeps (hlocked.congr rfl rfl rfl) _ _ id hpid hphase
      rw [hlength] at hstored
      exact hstored
  | unwritten wr hpid hphase =>
      exact h.quiet (quiet_deliver hpid hphase rfl (Or.inr ⟨_, rfl, rfl⟩) rfl le_rfl rfl (log_one rfl))
  | insert hpid hphase =>
      exact h.insert hkeeps hlocked hpid hphase fun cache hcache => hroom hpid hphase hcache
  | @fire pid t m n ok hpid hphase =>
      cases ok with
      | true => exact h.fire hpid hphase true
      | false =>
          exact h.quiet (quiet_deliver hpid hphase rfl (Or.inr ⟨_, rfl, rfl⟩) rfl le_rfl rfl
            ⟨[], rfl, by simp⟩)
  | reply hpid hphase =>
      refine h.quiet (quiet_deliver hpid hphase rfl (Or.inl rfl) rfl le_rfl rfl ?_)
      split
      · exact ⟨[], rfl, by simp⟩
      · exact log_one rfl
  | @abandon pid t hpid =>
      have hback := @World.delivers_setProc_iff w pid
        { t with todo := if t.phase = .next then [] else t.todo.take 1, abandoned := true }
      refine h.quiet ⟨le_rfl, rfl, log_nothing, ?_, ?_⟩
      · intro pid' t' ht' _
        rcases hback.mp ht' with ⟨rfl, rfl⟩ | ⟨-, hbefore⟩
        · exact ⟨t, hpid, rfl, rfl⟩
        · exact ⟨t', hbefore, rfl, rfl⟩
      · intro pid' t' m n ht' hphase
        by_cases heq : pid' = pid
        · subst heq
          obtain rfl := World.delivers_inj hpid ht'
          exact ⟨_, hback.mpr (Or.inl ⟨rfl, rfl⟩), hphase⟩
        · exact ⟨t', hback.mpr (Or.inr ⟨heq, ht'⟩), hphase⟩
  | create => exact h.quiet (quiet_same rfl le_rfl rfl log_nothing)
  | delete force hfree =>
      refine h.quiet (quiet_spawn (hlocked.congr rfl rfl rfl) ?_ rfl le_rfl rfl rfl)
      intro t ht
      cases ht
  | wipeSent => exact h.quiet (quiet_same rfl le_rfl rfl log_nothing)
  | wipeInbox => exact h.quiet (quiet_same rfl le_rfl rfl log_nothing)
  | count _ _ hpid =>
      exact h.quiet (quiet_other hpid (by simp) (by simp) rfl le_rfl rfl log_nothing)
  | commit hpid =>
      exact h.quiet (quiet_other hpid (by simp) (by simp) rfl le_rfl rfl (log_one rfl))
  | refuse hpid =>
      exact h.quiet (quiet_other hpid (by simp) (by simp) rfl le_rfl rfl log_nothing)
  | send =>
      refine h.quiet (quiet_spawn hlocked ?_ rfl le_rfl rfl rfl)
      intro t ht
      cases ht
  | claim _ _ _ _ hpid =>
      exact h.quiet (quiet_other hpid (by simp) (by simp) rfl le_rfl rfl (log_one rfl))
  | copy _ _ hpid =>
      exact h.quiet (quiet_other hpid (by simp) (by simp) rfl le_rfl rfl (log_one rfl))
  | stop hpid => exact h.quiet (quiet_other hpid (by simp) (by simp) rfl le_rfl rfl log_nothing)
  | mark => exact h.quiet (quiet_same rfl le_rfl rfl log_nothing)

end Ingest
end Aimx
