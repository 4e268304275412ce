import Aimx.Ingest.Locks

/-!
# The recipients of a transaction

A transaction takes its recipients one after the other, and 250 means that none of them failed.  What
has been achieved for one recipient is a relation `R pid raw mailbox` here, so that the same argument
serves every law about acknowledged mail.

* `Attends` — every recipient that is done with, and did not fail, has been served;
* `attends_of_effect` — every step keeps that, when a recipient is served by the time it is counted;
* `letters_subset` — only a deletion with force takes messages out of an inbox.
-/

namespace Aimx
namespace Ingest

open Text

/-! ## One transaction -/

/-- The mailbox that the current recipient was routed to. -/
def Phase.mailbox : Phase → Option Str
  | .next => none
  | .routed m => some m
  | .ready m => some m
  | .locked m => some m
  | .fresh m => some m
  | .written m _ => some m
  | .firing m _ => some m

/-- The current recipient is the first that is left, and while none has failed, the others have been
served at their mailboxes. -/
structure Transaction.Attended (t : Transaction) (S : Str → Prop) : Prop where
  current : ∀ m, t.phase.mailbox = some m →
    ∃ rcpt rest, t.todo = rcpt :: rest ∧ resolveRecipientMailbox t.snapshot rcpt = some m
  served : t.abandoned = false → t.failed = 0 →
    ∀ rcpt ∈ t.done, ∃ m, resolveRecipientMailbox t.snapshot rcpt = some m ∧ S m
  /-- No recipient is forgotten. -/
  all : t.abandoned = false → t.done ++ t.todo = t.rcpts

section

variable {t : Transaction} {S S' : Str → Prop}

theorem Transaction.Attended.mono (h : t.Attended S) (hmono : ∀ m, S m → S' m) : t.Attended S' where
  current := h.current
  served := by
    intro hstill hfailed rcpt hrcpt
    obtain ⟨m, hroute, hm⟩ := h.served hstill hfailed rcpt hrcpt
    exact ⟨m, hroute, hmono m hm⟩
  all := h.all

theorem Transaction.finish_all (ok : Bool) (h : t.abandoned = false → t.done ++ t.todo = t.rcpts) :
    (t.finish ok).abandoned = false → (t.finish ok).done ++ (t.finish ok).todo = (t.finish ok).rcpts := by
  intro hstill
  show t.done ++ t.todo.take 1 ++ t.todo.tail = t.rcpts
  rw [List.append_assoc, ← List.drop_one, List.take_append_drop]
  exact h hstill

/-- A failed recipient is on the count. -/
theorem Transaction.Attended.finish_false (h : t.Attended S) : (t.finish false).Attended S where
  current := by
    intro m hm
    cases hm
  served := by
    intro _ hfailed
    have hcount : t.failed + 1 = 0 := hfailed
    omega
  all := t.finish_all false h.all

/-- A recipient that has been served joins the others. -/
theorem Transaction.Attended.finish_true (h : t.Attended S) {m : Str} (hm : t.phase.mailbox = some m)
    (hserved : t.abandoned = false → t.failed = 0 → S m) : (t.finish true).Attended S where
  current := by
    intro m' hm'
    cases hm'
  served := by
    intro hstill hfailed rcpt hrcpt
    obtain ⟨current, rest, htodo, hroute⟩ := h.current m hm
    have hdone : rcpt ∈ t.done ++ t.todo.take 1 := hrcpt
    rw [htodo, List.mem_append] at hdone
    rcases hdone with hdone | hcurrent
    · exact h.served hstill hfailed rcpt hdone
    · have heq : rcpt = current := by simpa using hcurrent
      rw [heq]
      exact ⟨m, hroute, hserved hstill hfailed⟩
  all := t.finish_all true h.all

/-- The current recipient goes on to its next phase. -/
theorem Transaction.Attended.phase (h : t.Attended S) {ph₀ : Phase} (hphase : t.phase = ph₀)
    (ph : Phase) (hph : ph.mailbox = ph₀.mailbox) :
    { t with phase := ph : Transaction }.Attended S where
  current := by
    intro m hm
    apply h.current m
    rw [hphase, ← hph]
    exact hm
  served := h.served
  all := h.all

theorem Transaction.Attended.abandon (h : t.Attended S) :
    { t with
      todo := if t.phase = .next then [] else t.todo.take 1
      abandoned := true : Transaction }.Attended S where
  current := by
    intro m hm
    obtain ⟨rcpt, rest, htodo, hroute⟩ := h.current m hm
    have hnext : t.phase ≠ .next := by
      intro heq
      have hm' : t.phase.mailbox = some m := hm
      rw [heq] at hm'
      cases hm'
    refine ⟨rcpt, [], ?_, hroute⟩
    show (if t.phase = .next then [] else t.todo.take 1) = [rcpt]
    rw [if_neg hnext, htodo]
    rfl
  served := by
    intro hstill
    cases hstill
  all := by
    intro hstill
    cases hstill

end

/-! ## All transactions -/

/-- Every transaction has served the recipients that it counts. -/
def Attends (w : World) (R : Nat → Bytes → Str → Prop) : Prop :=
  ∀ pid t, w.delivers pid t → t.Attended (R pid t.raw)

section

variable {w w' : World} {R R' : Nat → Bytes → Str → Prop} {pid : Nat}

theorem Attends.same (h : Attends w R) (hmono : ∀ pid raw m, R pid raw m → R' pid raw m)
    (hprocs : w'.procs = w.procs) : Attends w' R' := by
  intro pid' t' ht'
  unfold World.delivers at ht'
  rw [hprocs] at ht'
  exact (h pid' t' ht').mono (hmono pid' t'.raw)

theorem Attends.setProc (h : Attends w R) (hmono : ∀ pid raw m, R pid raw m → R' pid raw m)
    {q : Option Proc} (hq : ∀ t, q = some (.deliver t) → t.Attended (R' pid t.raw))
    (hprocs : w'.procs = (w.setProc pid q).procs) : Attends w' R' := by
  intro pid' t' ht'
  unfold World.delivers at ht'
  rw [hprocs, World.procs_setProc] at ht'
  split at ht'
  next heq =>
      rw [heq]
      exact hq t' ht'
  next => exact (h pid' t' ht').mono (hmono pid' t'.raw)

theorem Attends.deliver (h : Attends w R) (hmono : ∀ pid raw m, R pid raw m → R' pid raw m)
    {t : Transaction} (ht : t.Attended (R' pid t.raw))
    (hprocs : w'.procs = (w.setProc pid (some (.deliver t))).procs) : Attends w' R' := by
  apply h.setProc hmono _ hprocs
  intro t' heq
  cases heq
  exact ht

theorem Attends.spawn (h : Attends w R) (hmono : ∀ pid raw m, R pid raw m → R' pid raw m) {p : Proc}
    (hp : ∀ t, p = .deliver t → t.phase = .next ∧ t.done = [] ∧ t.todo = t.rcpts)
    (hprocs : w'.procs = (w.spawn p).procs) : Attends w' R' := by
  intro pid' t' ht'
  unfold World.delivers at ht'
  rw [hprocs, World.procs_spawn] at ht'
  split at ht'
  · obtain ⟨hphase, hdone, htodo⟩ := hp t' (Option.some.inj ht')
    constructor
    · intro m hm
      rw [hphase] at hm
      cases hm
    · intro _ _ rcpt hrcpt
      rw [hdone] at hrcpt
      cases hrcpt
    · intro _
      rw [hdone, htodo]
      rfl
  · exact (h pid' t' ht').mono (hmono pid' t'.raw)

end

/-- **Every step keeps the count honest**, when a recipient has been served by the time that it is
found to be a duplicate, and by the time that its hooks are started. -/
theorem attends_of_effect {env : Env} {w w' : World} {a : Move} {R R' : Nat → Bytes → Str → Prop}
    (h : Attends w R) (heffect : Effect env w a w')
    (hmono : ∀ pid raw m, R pid raw m → R' pid raw m)
    (hskip : ∀ {pid : Nat} {t : Transaction} {m : Str} {cache : Cache}, w.delivers pid t →
      t.phase = .locked m → env.messageId t.raw ≠ [] → w.cache m = some cache →
      env.makeDedupSparkv.containsKey cache w.now (env.messageId t.raw) = true →
      w'.log = w.log ++ [.skipped pid w.now m (env.messageId t.raw)] → R' pid t.raw m)
    (hfire : ∀ {pid : Nat} {t : Transaction} {m : Str} {n : Nat}, w.delivers pid t →
      t.phase = .firing m n → t.abandoned = false → t.failed = 0 → R' pid t.raw m) :
    Attends w' R' := by
  cases heffect with
  | tick d => exact h.same hmono rfl
  | data raw rcpts =>
      apply h.spawn hmono _ rfl
      intro t ht
      cases ht
      exact ⟨rfl, rfl, rfl⟩
  | unrouted hpid =>
      have hold := (h _ _ hpid).mono (hmono _ _)
      exact h.deliver hmono hold.finish_false rfl
  | @routed pid t rcpt rest m hpid hphase htodo hroute =>
      have hold := (h pid t hpid).mono (hmono pid t.raw)
      have hnew : { t with phase := .routed m : Transaction }.Attended (R' pid t.raw) := by
        refine ⟨?_, hold.served, hold.all⟩
        intro m' hm'
        cases hm'
        exact ⟨rcpt, rest, htodo, hroute⟩
      exact h.deliver hmono hnew rfl
  | unready ok hpid =>
      have hold := (h _ _ hpid).mono (hmono _ _)
      exact h.deliver hmono hold.finish_false rfl
  | @ready pid t m ok hpid hphase =>
      have hold := (h pid t hpid).mono (hmono pid t.raw)
      exact h.deliver hmono (hold.phase hphase (.ready m) rfl) rfl
  | @lock pid t m hpid hphase =>
      have hold := (h pid t hpid).mono (hmono pid t.raw)
      exact h.deliver hmono (hold.phase hphase (.locked m) rfl) rfl
  | unbuilt readable hpid =>
      have hold := (h _ _ hpid).mono (hmono _ _)
      exact h.deliver hmono hold.finish_false rfl
  | build => exact h.same hmono rfl
  | @skip pid t m cache hpid hphase hid hcache hdup =>
      have hold := (h pid t hpid).mono (hmono pid t.raw)
      exact h.deliver hmono
        (hold.finish_true (by rw [hphase]; rfl) fun _ _ => hskip hpid hphase hid hcache hdup rfl) rfl
  | @pass pid t m hpid hphase =>
      have hold := (h pid t hpid).mono (hmono pid t.raw)
      exact h.deliver hmono (hold.phase hphase (.fresh m) rfl) rfl
  | @write pid t m id e wr hpid hphase =>
      have hold := (h pid t hpid).mono (hmono pid t.raw)
      have hphased := hold.phase hphase (.written m (w.log.length + 1)) rfl
      have hnew : { t with phase := .written m (w.log.length + 1), id := id : Transaction }.Attended
          (R' pid t.raw) := ⟨hphased.current, hphased.served, hphased.all⟩
      exact h.deliver hmono hnew rfl
  | unwritten wr hpid =>
      have hold := (h _ _ hpid).mono (hmono _ _)
      exact h.deliver hmono hold.finish_false rfl
  | @insert pid t m n hpid hphase =>
      have hold := (h pid t hpid).mono (hmono pid t.raw)
      exact h.deliver hmono (hold.phase hphase (.firing m n) rfl) rfl
  | @fire pid t m n ok hpid hphase =>
      have hold := (h pid t hpid).mono (hmono pid t.raw)
      exact h.deliver hmono (hold.finish_true (by rw [hphase]; rfl) (hfire hpid hphase)) rfl
  | reply hpid => exact h.setProc hmono (fun t ht => by cases ht) rfl
  | @abandon pid t hpid =>
      have hold := (h pid t hpid).mono (hmono pid t.raw)
      exact h.deliver hmono hold.abandon rfl
  | create => exact h.same hmono rfl
  | delete => exact h.spawn hmono (fun t ht => by cases ht) rfl
  | wipeSent => exact h.same hmono rfl
  | wipeInbox => exact h.same hmono rfl
  | count => exact h.setProc hmono (fun t ht => by cases ht) rfl
  | commit => exact h.setProc hmono (fun t ht => by cases ht) rfl
  | refuse => exact h.setProc hmono (fun t ht => by cases ht) rfl
  | send => exact h.spawn hmono (fun t ht => by cases ht) rfl
  | claim => exact h.setProc hmono (fun t ht => by cases ht) rfl
  | copy => exact h.setProc hmono (fun t ht => by cases ht) rfl
  | stop => exact h.setProc hmono (fun t ht => by cases ht) rfl
  | mark => exact h.same hmono rfl

/-! ## The messages of an inbox -/

/-- The messages that a directory stores. -/
def letters (l : List Entry) : List Bytes := l.filterMap Entry.letter

/-- The step takes an entry out of an inbox. -/
def Move.wipesInbox : Move → Bool
  | .deleting _ (.wipe false _) => true
  | _ => false

theorem letters_append (l l' : List Entry) : letters (l ++ l') = letters l ++ letters l' :=
  List.filterMap_append

theorem letters_setInbox {w : World} {m m' : Str} {l : List Entry}
    (h : letters (w.inbox m) ⊆ letters l) :
    letters (w.inbox m') ⊆ letters ((w.setInbox m l).inbox m') := by
  show letters (w.inbox m') ⊆ letters (Function.update w.inbox m l m')
  rw [Function.update_apply]
  split
  next heq =>
      rw [heq]
      exact h
  next => exact List.Subset.refl _

/-- Rewriting a file keeps the message. -/
theorem letters_mark (l : List Entry) (name : Str) (node : Node) :
    letters (l.map fun e => if e.name = name then { e with node := node } else e) = letters l := by
  unfold letters
  rw [List.filterMap_map]
  congr 1
  funext e
  show Entry.letter (if e.name = name then { e with node := node } else e) = e.letter
  split
  · rfl
  · rfl

/-- Only a deletion with force takes messages out of an inbox. -/
theorem letters_subset {env : Env} {w w' : World} {a : Move} (heffect : Effect env w a w')
    (ha : a.wipesInbox = false) (m : Str) : letters (w.inbox m) ⊆ letters (w'.inbox m) := by
  have happend : ∀ (l l' : List Entry), letters l ⊆ letters (l ++ l') := by
    intro l l'
    rw [letters_append]
    exact List.subset_append_left _ _
  cases heffect with
  | write wr hpid => exact letters_setInbox (happend _ _)
  | unwritten wr hpid => exact letters_setInbox (happend _ _)
  | wipeInbox => cases ha
  | mark name node hfree =>
      apply letters_setInbox
      rw [letters_mark]
      exact List.Subset.refl _
  | _ => exact List.Subset.refl _

end Ingest
end Aimx
