import Aimx.Ingest.Records
import Aimx.Ingest.Recipients

/-!
# Acknowledged mail is stored

A transaction that is answered 250 has stored its message for every recipient, or found that the mailbox
holds it already.  The second is what the duplicate store says, and the store outlives the files: a
deletion with force removes them and leaves the store, which the next mailbox of the name finds.

* `holdsLetter` — the inbox holds the message, or one with its Message-Id;
* `keepsPromises` — the condition: no deletion with force removes what the store knows, or what a
  transaction that is under way counts on, and the store is built of ids of messages that are there;
* `accepted_held` — with it, every recipient of an accepted message has it;
* `recreated_lost` — a run without it.
-/

namespace Aimx
namespace Ingest

open Text Transition

/-! ## The law and its condition -/

/-- The inbox holds this message, or one with the same non-empty Message-Id. -/
def holdsLetter (env : Env) (l : List Entry) (raw : Bytes) : Bool :=
  (letters l).any fun raw' =>
    raw' == raw || (env.messageId raw != [] && env.messageId raw' == env.messageId raw)

/-- The inbox holds a message with this Message-Id. -/
def holdsMessageId (env : Env) (l : List Entry) (id : Str) : Bool :=
  (letters l).any fun raw => env.messageId raw == id

/-- The transaction has served a recipient at the mailbox, and can still be answered 250. -/
def Transaction.promised (t : Transaction) (m : Str) : Bool :=
  !t.abandoned && t.failed == 0 &&
    ((t.done.any fun rcpt => resolveRecipientMailbox t.snapshot rcpt == some m) ||
      match t.phase with
      | .firing m' _ => m' == m
      | _ => false)

/-- What stays in the inbox is all that the duplicate store and the transactions count on. -/
def World.suffices (env : Env) (w : World) (m : Str) (rest : List Entry) : Bool :=
  ((letters (w.inbox m)).all fun raw =>
    match w.cache m with
    | some cache =>
        !env.makeDedupSparkv.containsKey cache w.now (env.messageId raw) ||
          holdsMessageId env rest (env.messageId raw)
    | none => true) &&
  (List.range w.next).all fun pid =>
    match w.procs pid with
    | some (.deliver t) => !t.promised m || holdsLetter env rest t.raw
    | _ => true

/-- The condition on a step: a deletion with force takes no message away that the duplicate store still
knows or that a transaction under way counts on; and the store is built of the Message-Ids of messages
that the mailbox holds. -/
def keepsPromises (env : Env) (w : World) : Move → Bool
  | .deleting pid (.wipe false name) =>
      match w.procs pid with
      | some (.delete d) =>
          w.suffices env d.mailbox ((w.inbox d.mailbox).filter fun e => e.name != name)
      | _ => true
  | .deliver pid (.build readable) =>
      match w.procs pid with
      | some (.deliver t) =>
          match t.phase with
          | .locked m =>
              ((dirOf (w.inbox m)).filter fun e => readable e.1).all fun e =>
                match (entryContent e).bind (readFrontmatterIdPair env.chrono) with
                | some (id, _) => holdsMessageId env (w.inbox m) id
                | none => true
          | _ => true
      | _ => true
  | _ => true

/-! ## Small facts -/

theorem holdsLetter_iff {env : Env} {l : List Entry} {raw : Bytes} :
    holdsLetter env l raw = true ↔ ∃ raw' ∈ letters l, raw' = raw ∨
      env.messageId raw ≠ [] ∧ env.messageId raw' = env.messageId raw := by
  unfold holdsLetter
  simp only [List.any_eq_true, Bool.or_eq_true, beq_iff_eq, Bool.and_eq_true, bne_iff_ne, ne_eq]

theorem holdsMessageId_iff {env : Env} {l : List Entry} {id : Str} :
    holdsMessageId env l id = true ↔ ∃ raw ∈ letters l, env.messageId raw = id := by
  unfold holdsMessageId
  simp only [List.any_eq_true, beq_iff_eq]

theorem holdsLetter_of_subset {env : Env} {l l' : List Entry} {raw : Bytes}
    (hsub : letters l ⊆ letters l') (h : holdsLetter env l raw = true) :
    holdsLetter env l' raw = true := by
  obtain ⟨raw', hraw', hsame⟩ := holdsLetter_iff.mp h
  exact holdsLetter_iff.mpr ⟨raw', hsub hraw', hsame⟩

theorem holdsMessageId_of_subset {env : Env} {l l' : List Entry} {id : Str}
    (hsub : letters l ⊆ letters l') (h : holdsMessageId env l id = true) :
    holdsMessageId env l' id = true := by
  obtain ⟨raw, hraw, hid⟩ := holdsMessageId_iff.mp h
  exact holdsMessageId_iff.mpr ⟨raw, hsub hraw, hid⟩

theorem holdsMessageId_of_holdsLetter {env : Env} {l : List Entry} {raw : Bytes}
    (h : holdsLetter env l raw = true) : holdsMessageId env l (env.messageId raw) = true := by
  obtain ⟨raw', hraw', hsame⟩ := holdsLetter_iff.mp h
  refine holdsMessageId_iff.mpr ⟨raw', hraw', ?_⟩
  rcases hsame with rfl | ⟨-, hid⟩
  · rfl
  · exact hid

/-! ## A message that is on disk -/

/-- The mailbox into whose inbox the current message has been written. -/
def Phase.onDisk : Phase → Option Str
  | .written m _ => some m
  | .firing m _ => some m
  | _ => none

section

variable {env : Env} {w w' : World} {m : Str} {pid pid' : Nat} {t' : Transaction}

/-- The transaction had its message on disk before the step, or the inbox holds it now. -/
def OnDisk (w w' : World) (m : Str) (pid : Nat) (t' : Transaction) : Prop :=
  (∃ t, w.delivers pid t ∧ t.raw = t'.raw ∧ t.phase.onDisk = some m ∧
    (t'.abandoned = false → t.abandoned = false) ∧ t.failed = t'.failed ∧
    (t'.phase.isWritten = true → t.phase.isWritten = true)) ∨
      t'.raw ∈ letters (w'.inbox m)

theorem onDisk_setProc {q : Option Proc} (ht' : w'.delivers pid' t') (hphase : t'.phase.onDisk = some m)
    (hprocs : w'.procs = (w.setProc pid q).procs)
    (hq : ∀ t, q = some (.deliver t) → t.phase.onDisk = some m → OnDisk w w' m pid t) :
    OnDisk w w' m pid' t' := by
  unfold World.delivers at ht'
  rw [hprocs, World.procs_setProc] at ht'
  split at ht'
  next heq =>
      rw [heq]
      exact hq t' ht' hphase
  next => exact Or.inl ⟨t', ht', rfl, hphase, id, rfl, id⟩

/-- The transaction goes on to a phase without a message on disk. -/
theorem onDisk_leave {t : Transaction} (ht' : w'.delivers pid' t') (hphase : t'.phase.onDisk = some m)
    (hprocs : w'.procs = (w.setProc pid (some (.deliver t))).procs) (hnot : t.phase.onDisk = none) :
    OnDisk w w' m pid' t' := by
  refine onDisk_setProc ht' hphase hprocs ?_
  intro t'' heq hphase'
  cases heq
  rw [hnot] at hphase'
  cases hphase'

theorem onDisk_other {q : Option Proc} (ht' : w'.delivers pid' t') (hphase : t'.phase.onDisk = some m)
    (hprocs : w'.procs = (w.setProc pid q).procs) (hq : ∀ t, q ≠ some (.deliver t)) :
    OnDisk w w' m pid' t' := by
  refine onDisk_setProc ht' hphase hprocs ?_
  intro t'' heq
  exact absurd heq (hq t'')

theorem onDisk_same (ht' : w'.delivers pid' t') (hphase : t'.phase.onDisk = some m)
    (hprocs : w'.procs = w.procs) : OnDisk w w' m pid' t' := by
  unfold World.delivers at ht'
  rw [hprocs] at ht'
  exact Or.inl ⟨t', ht', rfl, hphase, id, rfl, id⟩

theorem onDisk_spawn {q : Proc} (ht' : w'.delivers pid' t') (hphase : t'.phase.onDisk = some m)
    (hprocs : w'.procs = (w.spawn q).procs) (hq : ∀ t, q = .deliver t → t.phase.onDisk = none) :
    OnDisk w w' m pid' t' := by
  unfold World.delivers at ht'
  rw [hprocs, World.procs_spawn] at ht'
  split at ht'
  · rw [hq t' (Option.some.inj ht')] at hphase
    cases hphase
  · exact Or.inl ⟨t', ht', rfl, hphase, id, rfl, id⟩

theorem onDisk_of_effect {a : Move} (heffect : Effect env w a w') (ht' : w'.delivers pid' t')
    (hphase' : t'.phase.onDisk = some m) : OnDisk w w' m pid' t' := by
  cases heffect with
  | tick d => exact onDisk_same ht' hphase' rfl
  | data raw rcpts =>
      refine onDisk_spawn ht' hphase' rfl ?_
      intro t heq
      cases heq
      rfl
  | unrouted hpid => exact onDisk_leave ht' hphase' rfl rfl
  | routed hpid => exact onDisk_leave ht' hphase' rfl rfl
  | unready ok hpid => exact onDisk_leave ht' hphase' rfl rfl
  | ready ok hpid => exact onDisk_leave ht' hphase' rfl rfl
  | lock hpid => exact onDisk_leave ht' hphase' rfl rfl
  | unbuilt readable hpid => exact onDisk_leave ht' hphase' rfl rfl
  | build => exact onDisk_same ht' hphase' rfl
  | skip hpid => exact onDisk_leave ht' hphase' rfl rfl
  | pass hpid => exact onDisk_leave ht' hphase' rfl rfl
  | @write pid t m₀ id₀ e wr hpid hphase hletter =>
      refine onDisk_setProc ht' hphase' rfl ?_
      intro t'' heq hsame
      cases heq
      have hm : m₀ = m := Option.some.inj hsame
      refine Or.inr ?_
      show t.raw ∈ letters (Function.update w.inbox m₀ (w.inbox m₀ ++ [e]) m)
      rw [← hm, Function.update_self, letters_append, List.mem_append]
      exact Or.inr (List.mem_filterMap.mpr ⟨e, List.mem_singleton.mpr rfl, hletter⟩)
  | unwritten wr hpid => exact onDisk_leave ht' hphase' rfl rfl
  | @insert pid t m₀ n hpid hphase =>
      refine onDisk_setProc ht' hphase' rfl ?_
      intro t'' heq hsame
      cases heq
      refine Or.inl ⟨t, hpid, rfl, ?_, id, rfl, ?_⟩
      · rw [hphase]
        exact hsame
      · intro hwritten
        cases hwritten
  | fire ok hpid => exact onDisk_leave ht' hphase' rfl rfl
  | reply => exact onDisk_other ht' hphase' rfl (by simp)
  | @abandon pid t hpid =>
      refine onDisk_setProc ht' hphase' rfl ?_
      intro t'' heq hsame
      cases heq
      exact Or.inl ⟨t, hpid, rfl, hsame, (fun hstill => by cases hstill), rfl, id⟩
  | create => exact onDisk_same ht' hphase' rfl
  | delete => exact onDisk_spawn ht' hphase' rfl (by simp)
  | wipeSent => exact onDisk_same ht' hphase' rfl
  | wipeInbox => exact onDisk_same ht' hphase' rfl
  | count => exact onDisk_other ht' hphase' rfl (by simp)
  | commit => exact onDisk_other ht' hphase' rfl (by simp)
  | refuse => exact onDisk_other ht' hphase' rfl (by simp)
  | send => exact onDisk_spawn ht' hphase' rfl (by simp)
  | claim => exact onDisk_other ht' hphase' rfl (by simp)
  | copy => exact onDisk_other ht' hphase' rfl (by simp)
  | stop => exact onDisk_other ht' hphase' rfl (by simp)
  | mark => exact onDisk_same ht' hphase' rfl

end

/-! ## The invariant -/

/-- What the duplicate stores, the deliveries and the counts of the transactions stand for is in the
inboxes. -/
structure Durable (env : Env) (w : World) : Prop where
  known : ∀ {m : Str} {cache : Cache} {id : Str}, w.cache m = some cache →
    env.makeDedupSparkv.containsKey cache w.now id = true → holdsMessageId env (w.inbox m) id = true
  onDisk : ∀ {pid : Nat} {t : Transaction} {m : Str}, w.delivers pid t → t.phase.onDisk = some m →
    t.phase.isWritten = true ∨ t.abandoned = false ∧ t.failed = 0 →
    holdsLetter env (w.inbox m) t.raw = true
  attends : Attends w fun _ raw m => holdsLetter env (w.inbox m) raw = true

theorem durable_start (env : Env) (now : Int) (config : Config) (inbox sent : Str → List Entry) :
    Durable env (World.start now config inbox sent) where
  known := by
    intro m cache id hcache
    cases hcache
  onDisk := by
    intro pid t m hpid
    cases hpid
  attends := by
    intro pid t hpid
    cases hpid

/-- What the store of a mailbox knows after a step that takes no message away. -/
theorem known_of_effect {env : Env} {w w' : World} {a : Move} (h : Durable env w)
    (heffect : Effect env w a w') (ha : a.wipesInbox = false) (hkeeps : keepsPromises env w a = true)
    {m : Str} {cache : Cache} {id : Str} (hcache : w'.cache m = some cache)
    (hcontains : env.makeDedupSparkv.containsKey cache w'.now id = true) :
    holdsMessageId env (w'.inbox m) id = true := by
  have hsub := letters_subset heffect ha m
  have hsame : w'.cache = w.cache → w.now ≤ w'.now → holdsMessageId env (w'.inbox m) id = true := by
    intro hcaches hle
    rw [hcaches] at hcache
    exact holdsMessageId_of_subset hsub (h.known hcache (env.makeDedupSparkv.later hle hcontains))
  cases heffect with
  | tick d => exact hsame rfl (by show w.now ≤ w.now + d; omega)
  | @build pid t m₀ cache₀ readable hpid hphase hid hnone hbuild =>
      have hcache' : Function.update w.cache m₀ (some cache₀) m = some cache := hcache
      rw [Function.update_apply] at hcache'
      split at hcache'
      next heq =>
          cases hcache'
          subst heq
          -- the key was read from a file, and the condition is about its id
          obtain ⟨call, hcall, rfl⟩ := List.mem_map.mp (SparKV.mem_of_containsKey hcontains)
          obtain ⟨-, entry, hmem, time, hread⟩ := mem_of_buildDedupCacheFromDisk hbuild hcall
          unfold World.delivers at hpid
          simp only [keepsPromises, hpid, hphase] at hkeeps
          have hheld := List.all_eq_true.mp hkeeps entry hmem
          rw [hread] at hheld
          exact hheld
      next => exact h.known hcache' hcontains
  | @insert pid t m₀ n hpid hphase =>
      have hcache' : Function.update w.cache m₀ ((w.cache m₀).map fun cache =>
          env.makeDedupSparkv.enter cache w.now (env.messageId t.raw) t.id) m = some cache := hcache
      rw [Function.update_apply] at hcache'
      split at hcache'
      next heq =>
          subst heq
          obtain ⟨cache₀, hcache₀, rfl⟩ := Option.map_eq_some_iff.mp hcache'
          have hentered : env.makeDedupSparkv.containsKey
              (env.makeDedupSparkv.enter cache₀ w.now (env.messageId t.raw) t.id) w.now id = true := hcontains
          rw [SparKV.enter_eq] at hentered
          split at hentered
          next => exact h.known hcache₀ hentered
          next =>
              -- the insert adds no id but that of the message that is on disk
              rcases env.makeDedupSparkv.call hentered with ⟨hkey, -⟩ | hentered
              · have hkey' : id = env.messageId t.raw := hkey
                rw [hkey']
                apply holdsMessageId_of_holdsLetter
                exact h.onDisk hpid (by rw [hphase]; rfl) (Or.inl (by rw [hphase]; rfl))
              · exact h.known hcache₀ hentered
      next => exact h.known hcache' hcontains
  | _ => exact hsame rfl le_rfl

/-- A step that takes no message away keeps the invariant. -/
theorem durable_of_keeping {env : Env} {w w' : World} {a : Move} (h : Durable env w)
    (heffect : Effect env w a w') (ha : a.wipesInbox = false) (hkeeps : keepsPromises env w a = true) :
    Durable env w' where
  known := known_of_effect h heffect ha hkeeps
  onDisk := by
    intro pid t' m ht' hphase' hcounts
    have hsub := letters_subset heffect ha m
    rcases onDisk_of_effect heffect ht' hphase' with
      ⟨t, ht, hraw, hphase, hstill, hfailed, hwritten⟩ | hletter
    · rw [← hraw]
      apply holdsLetter_of_subset hsub
      apply h.onDisk ht hphase
      rcases hcounts with hwritten' | ⟨hstill', hfailed'⟩
      · exact Or.inl (hwritten hwritten')
      · exact Or.inr ⟨hstill hstill', hfailed.trans hfailed'⟩
    · exact holdsLetter_iff.mpr ⟨t'.raw, hletter, Or.inl rfl⟩
  attends := by
    refine attends_of_effect h.attends heffect ?_ ?_ ?_
    · intro pid raw m
      exact holdsLetter_of_subset (letters_subset heffect ha m)
    · intro pid t m cache hpid hphase hid hcache hdup _
      apply holdsLetter_of_subset (letters_subset heffect ha m)
      obtain ⟨raw, hraw, hsame⟩ := holdsMessageId_iff.mp (h.known hcache hdup)
      exact holdsLetter_iff.mpr ⟨raw, hraw, Or.inr ⟨hid, hsame⟩⟩
    · intro pid t m n hpid hphase hstill hfailed
      apply holdsLetter_of_subset (letters_subset heffect ha m)
      exact h.onDisk hpid (by rw [hphase]; rfl) (Or.inr ⟨hstill, hfailed⟩)

/-- A deletion with force that takes away what nobody counts on keeps the invariant. -/
theorem durable_of_wipe {env : Env} {w : World} (h : Durable env w) (hlocked : Locked w) {pid : Nat}
    {d : Deletion} (hpid : w.procs pid = some (.delete d)) {rest : List Entry}
    (hsuffices : w.suffices env d.mailbox rest = true) : Durable env (w.setInbox d.mailbox rest) := by
  unfold World.suffices at hsuffices
  rw [Bool.and_eq_true] at hsuffices
  obtain ⟨hknown, hpromised⟩ := hsuffices
  have hinbox : ∀ m, (w.setInbox d.mailbox rest).inbox m =
      if m = d.mailbox then rest else w.inbox m := fun m =>
    Function.update_apply w.inbox d.mailbox rest m
  have hpromise : ∀ {pid' : Nat} {t : Transaction}, w.delivers pid' t →
      t.promised d.mailbox = true → holdsLetter env rest t.raw = true := by
    intro pid' t ht hprom
    have hlt : pid' < w.next := by
      by_contra hle
      unfold World.delivers at ht
      rw [hlocked.unborn pid' (by omega)] at ht
      cases ht
    have hall := List.all_eq_true.mp hpromised pid' (List.mem_range.mpr hlt)
    unfold World.delivers at ht
    simp only [ht, hprom, Bool.not_true, Bool.false_or] at hall
    exact hall
  constructor
  case known =>
    intro m cache id hcache hcontains
    have hold := h.known hcache hcontains
    rw [hinbox]
    split
    next heq =>
        subst heq
        obtain ⟨raw, hraw, rfl⟩ := holdsMessageId_iff.mp hold
        have hall := List.all_eq_true.mp hknown raw hraw
        have hcache' : w.cache d.mailbox = some cache := hcache
        have hcontains' : env.makeDedupSparkv.containsKey cache w.now (env.messageId raw) = true := hcontains
        simp only [hcache', hcontains', Bool.not_true, Bool.false_or] at hall
        exact hall
    next => exact hold
  case onDisk =>
    intro pid' t m ht hphase hcounts
    have hold := h.onDisk ht hphase hcounts
    rw [hinbox]
    split
    next heq =>
        subst heq
        cases hph : t.phase with
        | written m' n =>
            -- the delivery would share the lock with the deletion
            rw [hph] at hphase
            cases hphase
            have hheld := (World.holds_eq ht).trans
              (Transaction.holds_of_phase (Or.inr (Or.inr ⟨n, hph⟩)))
            have hheld' := World.holds_eq hpid
            obtain rfl := hlocked.unique hheld hheld'
            have ht' : w.procs pid' = some (.deliver t) := ht
            rw [hpid] at ht'
            cases ht'
        | firing m' n =>
            rw [hph] at hphase hcounts
            cases hphase
            rcases hcounts with hwritten | ⟨hstill, hfailed⟩
            · cases hwritten
            · apply hpromise ht
              simp only [Transaction.promised, hstill, hfailed, hph, beq_self_eq_true, Bool.not_false,
                Bool.and_self, Bool.or_true]
        | _ =>
            rw [hph] at hphase
            cases hphase
    next => exact hold
  case attends =>
    intro pid' t ht
    have hold := h.attends pid' t ht
    refine ⟨hold.current, ?_, hold.all⟩
    intro hstill hfailed rcpt hrcpt
    obtain ⟨m, hroute, hm⟩ := hold.served hstill hfailed rcpt hrcpt
    refine ⟨m, hroute, ?_⟩
    show holdsLetter env ((w.setInbox d.mailbox rest).inbox m) t.raw = true
    rw [hinbox]
    split
    next heq =>
        subst heq
        apply hpromise ht
        have hany : (t.done.any fun rcpt =>
            resolveRecipientMailbox t.snapshot rcpt == some d.mailbox) = true :=
          List.any_eq_true.mpr ⟨rcpt, hrcpt, by rw [hroute, beq_self_eq_true]⟩
        simp only [Transaction.promised, hstill, hfailed, hany, beq_self_eq_true, Bool.not_false,
          Bool.and_self, Bool.true_or]
    next => exact hm

theorem durable_of_effect {env : Env} {w w' : World} {a : Move} (h : Durable env w)
    (hlocked : Locked w) (heffect : Effect env w a w') (hkeeps : keepsPromises env w a = true) :
    Durable env w' := by
  by_cases ha : a.wipesInbox = false
  · exact durable_of_keeping h heffect ha hkeeps
  · cases heffect with
    | wipeInbox name hpid =>
        apply durable_of_wipe h hlocked hpid
        simp only [keepsPromises, hpid] at hkeeps
        exact hkeeps
    | _ => exact absurd rfl ha

/-! ## Over every run -/

theorem durable_of_run (env : Env) {now : Int} {config : Config} {inbox sent : Str → List Entry}
    {as : List Move} {w : World}
    (hkeeps : Allowed (step env) (fun w a => keepsPromises env w a = true)
      (World.start now config inbox sent) as)
    (hrun : run (step env) (World.start now config inbox sent) as = some w) : Durable env w := by
  have hinv : Locked w ∧ Durable env w := by
    refine run_invariant (I := fun w => Locked w ∧ Durable env w) ?_ ?_ hkeeps hrun
    · rintro w₁ a w₂ ⟨hlocked, hdurable⟩ ha hstep
      have heffect := effect_of_step hstep
      exact ⟨locked_of_effect hlocked heffect, durable_of_effect hdurable hlocked heffect ha⟩
    · exact ⟨locked_start now config inbox sent, durable_start env now config inbox sent⟩
  exact hinv.2

/-- **Acknowledged mail is stored.**  At the moment of a 250, after a run that keeps its promises, every
recipient was routed to a mailbox that holds the message, or one with its Message-Id. -/
theorem accepted_held (env : Env) {now : Int} {config : Config} {inbox sent : Str → List Entry}
    {as : List Move} {w w' : World} {pid : Nat} {t : Transaction}
    (hkeeps : Allowed (step env) (fun w a => keepsPromises env w a = true)
      (World.start now config inbox sent) as)
    (hrun : run (step env) (World.start now config inbox sent) as = some w) (hpid : w.delivers pid t)
    (hreply : step env w (.deliver pid .reply) = some w')
    (h250 : w'.log = w.log ++ [.replied pid true (env.messageId t.raw) t.routes]) :
    ∀ rcpt ∈ t.rcpts, ∃ m, resolveRecipientMailbox t.snapshot rcpt = some m ∧
      holdsLetter env (w.inbox m) t.raw = true := by
  have hattended := (durable_of_run env hkeeps hrun).attends pid t hpid
  cases effect_of_step hreply with
  | @reply _ t' hpid' hphase htodo =>
      obtain rfl := World.delivers_inj hpid hpid'
      have hlog : (if t.abandoned then [] else
          [.replied pid t.accepted (env.messageId t.raw) t.routes]) =
            [Event.replied pid true (env.messageId t.raw) t.routes] := List.append_cancel_left h250
      split at hlog
      next => cases hlog
      next hstill =>
          have hstill' : t.abandoned = false := Bool.eq_false_iff.mpr hstill
          have haccepted : t.accepted = true :=
            (Event.replied.inj (List.cons.inj hlog).1).2.1
          unfold Transaction.accepted at haccepted
          rw [Bool.and_eq_true, beq_iff_eq] at haccepted
          have hall := hattended.all hstill'
          rw [htodo, List.append_nil] at hall
          rw [← hall]
          exact hattended.served hstill' haccepted.1

/-! ## A run without the condition -/

/-- A message is delivered, its mailbox is deleted with force and created again, and the message is
sent once more, by a transaction that has not been answered yet. -/
def recreatedMailbox : List Move :=
  [.data helloRaw ["alice@example.org".toList]] ++ deliverNext 0 true ++
    [.deliver 0 .reply, .delete "alice".toList true,
      .deleting 1 (.wipe false "2025-01-01-000001-hello.md".toList),
      .deleting 1 (.count false false), .deleting 1 .commit,
      .create "alice".toList (plainMailbox "alice".toList),
      .data helloRaw ["alice@example.org".toList], .deliver 2 .route, .deliver 2 (.mkdir true),
      .deliver 2 .lock, .deliver 2 .check]

/-- The inbox has nothing of the message that the last event accepts. -/
def acceptsInVain (env : Env) (w : World) (m : Str) (raw : Bytes) : Bool :=
  (match w.log.getLast? with
    | some (.replied _ accepted _ routes) => accepted && routes == [some m]
    | _ => false) && !holdsLetter env (w.inbox m) raw

/-- The second 250 is given for a message that the mailbox does not hold: the duplicate store of the
deleted mailbox knows it. -/
theorem recreated_lost :
    ∃ w, run (step helloEnv) helloWorld (recreatedMailbox ++ [.deliver 2 .reply]) = some w ∧
      acceptsInVain helloEnv w "alice".toList helloRaw = true ∧
      "alice".toList ∈ w.config.mailboxes ∧ w.inbox "alice".toList = [] := by
  have hrun : (run (step helloEnv) helloWorld (recreatedMailbox ++ [.deliver 2 .reply])).any (fun w =>
      acceptsInVain helloEnv w "alice".toList helloRaw &&
        (decide ("alice".toList ∈ w.config.mailboxes) && (w.inbox "alice".toList).isEmpty)) = true := by
    decide +kernel
  obtain ⟨w, hw, hlaw⟩ := (Option.any_eq_true _ _).mp hrun
  rw [Bool.and_eq_true, Bool.and_eq_true, decide_eq_true_eq, List.isEmpty_iff] at hlaw
  exact ⟨w, hw, hlaw⟩

/-- A retry of an accepted message, while the mailbox stays: it is accepted as a duplicate. -/
def keptMailbox : List Move :=
  [.data helloRaw ["alice@example.org".toList]] ++ deliverNext 0 true ++
    [.deliver 0 .reply, .data helloRaw ["alice@example.org".toList], .deliver 1 .route,
      .deliver 1 (.mkdir true), .deliver 1 .lock, .deliver 1 .check]

theorem accepted_held_keptMailbox :
    ∃ w t, run (step helloEnv) helloWorld keptMailbox = some w ∧ w.delivers 1 t ∧
      t.rcpts = ["alice@example.org".toList] ∧ t.accepted = true ∧
      ∀ rcpt ∈ t.rcpts, ∃ m, resolveRecipientMailbox t.snapshot rcpt = some m ∧
        holdsLetter helloEnv (w.inbox m) t.raw = true := by
  have hrun : (run (step helloEnv) helloWorld keptMailbox).any (fun w =>
      match w.procs 1 with
      | some (.deliver t) => decide (t.rcpts = ["alice@example.org".toList] ∧ t.accepted = true ∧
          t.abandoned = false ∧ t.phase = .next ∧ t.todo = [])
      | _ => false) = true := by
    decide +kernel
  obtain ⟨w, hw, hstate⟩ := (Option.any_eq_true _ _).mp hrun
  split at hstate
  next t hpid =>
      obtain ⟨hrcpts, haccepted, hstill, hphase, htodo⟩ := of_decide_eq_true hstate
      refine ⟨w, t, hw, hpid, hrcpts, haccepted, ?_⟩
      apply @accepted_held helloEnv _ _ _ _ _ _ ((w.setProc 1 none).emit
        [.replied 1 true (helloEnv.messageId t.raw) t.routes]) _ _ (by decide +kernel) hw hpid
      · simp only [step, hpid, deliverStep, hphase, htodo, hstill, haccepted, Bool.false_eq_true,
          if_false]
      · rfl
  next => cases hstate

end Ingest
end Aimx
