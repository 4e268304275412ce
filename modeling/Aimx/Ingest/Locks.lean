import Aimx.Ingest.Delivery

/-!
# The mailbox locks

Every writer of a mailbox's inbox takes the lock of that mailbox first.

* `Locked` — the lock is with the one process that is in the critical section;
* `locked_of_effect` — every step keeps that.
-/

namespace Aimx
namespace Ingest

open Text

/-! ## The discipline -/

/-- The mailbox whose lock a process holds. -/
def Proc.holds : Proc → Option Str
  | .deliver t =>
      match t.phase with
      | .locked m => some m
      | .fresh m => some m
      | .written m _ => some m
      | _ => none
  | .delete d => some d.mailbox
  | .send _ => none

def World.holds (w : World) (pid : Nat) : Option Str := (w.procs pid).bind Proc.holds

/-- The lock of a mailbox is with the one process that is in its critical section. -/
structure Locked (w : World) : Prop where
  unborn : ∀ pid, w.next ≤ pid → w.procs pid = none
  holder_iff : ∀ m pid, w.holder m = some pid ↔ w.holds pid = some m

section

variable {w w' : World} {pid : Nat} {m : Str} {p q : Proc}

theorem World.procs_setProc (w : World) (pid : Nat) (q : Option Proc) (pid' : Nat) :
    (w.setProc pid q).procs pid' = if pid' = pid then q else w.procs pid' :=
  Function.update_apply w.procs pid q pid'

theorem World.procs_spawn (w : World) (p : Proc) (pid : Nat) :
    (w.spawn p).procs pid = if pid = w.next then some p else w.procs pid :=
  Function.update_apply w.procs w.next (some p) pid

theorem World.holds_eq (hpid : w.procs pid = some p) : w.holds pid = p.holds := by
  unfold World.holds
  rw [hpid]
  rfl

theorem World.holds_update (w : World) (pid : Nat) (q : Option Proc) (pid' : Nat) :
    (w.setProc pid q).holds pid' = if pid' = pid then q.bind Proc.holds else w.holds pid' := by
  unfold World.holds
  rw [World.procs_setProc]
  split
  · rfl
  · rfl

/-- Two processes are not in one critical section. -/
theorem Locked.unique (h : Locked w) {pid' : Nat} (hp : w.holds pid = some m)
    (hq : w.holds pid' = some m) : pid = pid' := by
  have hp' := (h.holder_iff m pid).mpr hp
  have hq' := (h.holder_iff m pid').mpr hq
  rw [hp'] at hq'
  exact Option.some.inj hq'

theorem Locked.congr (h : Locked w) (hnext : w'.next = w.next) (hprocs : w'.procs = w.procs)
    (hholder : w'.holder = w.holder) : Locked w' where
  unborn := by
    rw [hnext, hprocs]
    exact h.unborn
  holder_iff := by
    unfold World.holds
    rw [hholder, hprocs]
    exact h.holder_iff

theorem Locked.unborn_setProc (h : Locked w) (hpid : w.procs pid = some p) (q : Option Proc) :
    ∀ pid', w.next ≤ pid' → (w.setProc pid q).procs pid' = none := by
  intro pid' hle
  rw [World.procs_setProc, if_neg]
  · exact h.unborn pid' hle
  · intro heq
    rw [← heq, h.unborn pid' hle] at hpid
    cases hpid

/-- A process goes on and holds what it held. -/
theorem Locked.setProc (h : Locked w) (hpid : w.procs pid = some p) {q : Option Proc}
    (hsame : q.bind Proc.holds = p.holds) : Locked (w.setProc pid q) where
  unborn := h.unborn_setProc hpid q
  holder_iff := by
    intro m' pid'
    rw [World.holds_update]
    split
    next heq =>
        rw [hsame, heq, ← World.holds_eq hpid]
        exact h.holder_iff m' pid
    next => exact h.holder_iff m' pid'

/-- A process takes a free lock. -/
theorem Locked.acquire (h : Locked w) (hfree : w.holder m = none) (hpid : w.procs pid = some p)
    (hnone : p.holds = none) (hq : q.holds = some m) :
    Locked ((w.setHolder m (some pid)).setProc pid (some q)) where
  unborn := h.unborn_setProc hpid (some q)
  holder_iff := by
    intro m' pid'
    rw [World.holds_update]
    show Function.update w.holder m (some pid) m' = some pid' ↔ _
    rw [Function.update_apply]
    have hothers := h.holder_iff m' pid'
    have hpid' := World.holds_eq hpid
    by_cases hm : m' = m
    · subst hm
      rw [if_pos rfl]
      split
      next heq => simp [heq, hq]
      next hne =>
          rw [hfree] at hothers
          constructor
          · intro hpid''
            exact absurd (Option.some.inj hpid'').symm hne
          · intro hholds
            cases hothers.mpr hholds
    · rw [if_neg hm, hothers]
      split
      next heq =>
          subst heq
          rw [hpid', hnone]
          simp [hq, Ne.symm hm]
      next => exact Iff.rfl

/-- A process gives its lock back. -/
theorem Locked.release (h : Locked w) (hpid : w.procs pid = some p) (hp : p.holds = some m)
    {q : Option Proc} (hq : q.bind Proc.holds = none) :
    Locked ((w.setHolder m none).setProc pid q) where
  unborn := h.unborn_setProc hpid q
  holder_iff := by
    intro m' pid'
    rw [World.holds_update]
    show Function.update w.holder m none m' = some pid' ↔ _
    rw [Function.update_apply]
    have hothers := h.holder_iff m' pid'
    have hheld : w.holds pid = some m := (World.holds_eq hpid).trans hp
    by_cases hm : m' = m
    · subst hm
      rw [if_pos rfl]
      split
      next heq => simp [hq]
      next hne =>
          constructor
          · intro hnone
            cases hnone
          · intro hholds
            exact absurd (h.unique hholds hheld) hne
    · rw [if_neg hm, hothers]
      split
      next heq =>
          subst heq
          rw [hheld, hq]
          simp [Ne.symm hm]
      next => exact Iff.rfl

theorem World.holds_spawn (w : World) (p : Proc) (pid : Nat) :
    (w.spawn p).holds pid = if pid = w.next then p.holds else w.holds pid := by
  unfold World.holds
  rw [World.procs_spawn]
  split
  · rfl
  · rfl

theorem Locked.unborn_spawn (h : Locked w) (p : Proc) :
    ∀ pid, (w.spawn p).next ≤ pid → (w.spawn p).procs pid = none := by
  intro pid hle
  have hlt : w.next + 1 ≤ pid := hle
  rw [World.procs_spawn, if_neg (by omega)]
  exact h.unborn pid (by omega)

theorem Locked.holds_next (h : Locked w) : w.holds w.next = none := by
  unfold World.holds
  rw [h.unborn w.next le_rfl]
  rfl

/-- A new process that holds nothing. -/
theorem Locked.spawn (h : Locked w) (hp : p.holds = none) : Locked (w.spawn p) where
  unborn := h.unborn_spawn p
  holder_iff := by
    intro m' pid'
    rw [World.holds_spawn]
    have hothers := h.holder_iff m' pid'
    split
    next heq =>
        subst heq
        rw [h.holds_next] at hothers
        rw [hp]
        exact hothers
    next => exact hothers

/-- A new process that starts with a free lock. -/
theorem Locked.spawnHolding (h : Locked w) (hfree : w.holder m = none) (hp : p.holds = some m) :
    Locked ((w.setHolder m (some w.next)).spawn p) where
  unborn := h.unborn_spawn p
  holder_iff := by
    intro m' pid'
    rw [World.holds_spawn]
    show Function.update w.holder m (some w.next) m' = some pid' ↔
      (if pid' = w.next then p.holds else w.holds pid') = some m'
    rw [Function.update_apply]
    have hothers := h.holder_iff m' pid'
    by_cases hm : m' = m
    · subst hm
      rw [if_pos rfl]
      split
      next heq => simp [heq, hp]
      next hne =>
          rw [hfree] at hothers
          constructor
          · intro hpid
            exact absurd (Option.some.inj hpid).symm hne
          · intro hholds
            cases hothers.mpr hholds
    · rw [if_neg hm, hothers]
      split
      next heq =>
          subst heq
          rw [h.holds_next]
          simp [hp, Ne.symm hm]
      next => exact Iff.rfl

end

/-! ## Every step keeps it -/

theorem locked_start (now : Int) (config : Config) (inbox sent : Str → List Entry) :
    Locked (World.start now config inbox sent) where
  unborn := fun _ _ => rfl
  holder_iff := by
    intro m pid
    constructor
    · intro h
      cases h
    · intro h
      cases h

theorem Transaction.holds_of_phase {t : Transaction} {m : Str}
    (h : t.phase = .locked m ∨ t.phase = .fresh m ∨ ∃ n, t.phase = .written m n) :
    (Proc.deliver t).holds = some m := by
  unfold Proc.holds
  rcases h with h | h | ⟨n, h⟩
  · simp only [h]
  · simp only [h]
  · simp only [h]

/-- The lock discipline is kept by every step. -/
theorem locked_of_effect {env : Env} {w w' : World} {a : Move} (h : Locked w)
    (heffect : Effect env w a w') : Locked w' := by
  cases heffect with
  | tick d => exact h.congr rfl rfl rfl
  | data raw rcpts => exact h.spawn rfl
  | unrouted hpid hphase =>
      apply h.setProc hpid
      show none = Proc.holds _
      simp only [Proc.holds, hphase]
  | routed hpid hphase =>
      apply h.setProc hpid
      show none = Proc.holds _
      simp only [Proc.holds, hphase]
  | unready ok hpid hphase =>
      apply h.setProc hpid
      show none = Proc.holds _
      simp only [Proc.holds, hphase]
  | ready ok hpid hphase =>
      apply h.setProc hpid
      show none = Proc.holds _
      simp only [Proc.holds, hphase]
  | lock hpid hphase hfree =>
      apply h.acquire hfree hpid
      · simp only [Proc.holds, hphase]
      · rfl
  | unbuilt readable hpid hphase =>
      exact h.release hpid (Transaction.holds_of_phase (Or.inl hphase)) rfl
  | build => exact h.congr rfl rfl rfl
  | skip hpid hphase =>
      exact (h.release hpid (Transaction.holds_of_phase (Or.inl hphase)) rfl).congr rfl rfl rfl
  | pass hpid hphase =>
      apply h.setProc hpid
      rw [Transaction.holds_of_phase (Or.inl hphase)]
      rfl
  | @write pid t m id e wr hpid hphase =>
      have hset : Locked (w.setProc pid
          (some (.deliver { t with phase := .written m (w.log.length + 1), id := id }))) := by
        apply h.setProc hpid
        rw [Transaction.holds_of_phase (Or.inr (Or.inl hphase))]
        rfl
      exact hset.congr rfl rfl rfl
  | unwritten wr hpid hphase =>
      exact (h.release hpid (Transaction.holds_of_phase (Or.inr (Or.inl hphase))) rfl).congr
        rfl rfl rfl
  | insert hpid hphase =>
      have hheld := Transaction.holds_of_phase (Or.inr (Or.inr ⟨_, hphase⟩))
      exact (h.release hpid hheld rfl).congr rfl rfl rfl
  | fire ok hpid hphase =>
      refine (h.setProc hpid ?_).congr rfl rfl rfl
      show none = Proc.holds _
      simp only [Proc.holds, hphase]
  | reply hpid hphase =>
      refine (h.setProc hpid ?_).congr rfl rfl rfl
      show none = Proc.holds _
      simp only [Proc.holds, hphase]
  | abandon hpid => exact h.setProc hpid rfl
  | create mb hfree => exact h.congr rfl rfl rfl
  | delete force hfree => exact h.spawnHolding hfree rfl
  | wipeSent => exact h.congr rfl rfl rfl
  | wipeInbox => exact h.congr rfl rfl rfl
  | count _ _ hpid => exact h.setProc hpid rfl
  | commit hpid => exact (h.release hpid rfl rfl).congr rfl rfl rfl
  | refuse hpid => exact h.release hpid rfl rfl
  | send => exact h.spawn rfl
  | claim _ _ _ _ hpid => exact (h.setProc hpid rfl).congr rfl rfl rfl
  | copy _ _ hpid => exact (h.setProc hpid rfl).congr rfl rfl rfl
  | stop hpid => exact h.setProc hpid rfl
  | mark => exact h.congr rfl rfl rfl

end Ingest
end Aimx
