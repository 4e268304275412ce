import Aimx.Ingest.Recipients

/-!
# Writing into a deleted mailbox

A delivery routes on a configuration that it read before it took the lock of the mailbox, and does not
look again; a SEND writes its copy under another lock.  A MAILBOX-DELETE between the two leaves files
under a mailbox that is gone.

* `NoLateWrite` — every file is written into a configured mailbox, by a writer that has looked after the
  last deletion;
* `noLateWrite_of_run` — that holds in runs whose deletions wait for the writers that are under way, and
  whose writers do not look between the check and the end of a deletion;
* `deletedMailbox_written` — the runs without that condition.
-/

namespace Aimx
namespace Ingest

open Text Transition

/-! ## The law and its condition -/

/-- Every file is written into a mailbox that is configured at that moment, by a writer that looked
after the last deletion of the mailbox, and not while one is ending. -/
def NoLateWrite (w : World) : Prop :=
  ∀ (n : Nat) (m : Str) (live late : Bool),
    w.log[n]? = some (.wrote m live late) → live = true ∧ late = false

/-- A delivery has a recipient left that it routes to the mailbox, or a SEND is to leave its copy there. -/
def World.expects (w : World) (m : Str) : Bool :=
  (List.range w.next).any fun pid =>
    match w.procs pid with
    | some (.deliver t) => t.todo.any fun rcpt => resolveRecipientMailbox t.snapshot rcpt == some m
    | some (.send s) => s.mailbox == m
    | _ => false

/-- The condition on a step: a deletion passes its check only when no writer for the mailbox is under
way, and no writer reads the configuration between the check and the end of a deletion. -/
def deletesAlone (w : World) : Move → Bool
  | .deleting pid (.count _ _) =>
      match w.procs pid with
      | some (.delete d) => !w.expects d.mailbox
      | _ => true
  | .data _ rcpts =>
      rcpts.all fun rcpt =>
        match resolveRecipientMailbox w.config rcpt with
        | some m => !w.deleting m
        | none => true
  | .send m => !w.deleting m
  | _ => true

/-! ## Where the processes come from -/

/-- A deletion of the mailbox is between its check and its end. -/
def World.counted (w : World) (m : Str) : Prop :=
  ∃ pid d, w.procs pid = some (.delete d) ∧ d.counted = true ∧ d.mailbox = m

theorem deleting_iff {w : World} (h : Locked w) (m : Str) : w.deleting m = true ↔ w.counted m := by
  unfold World.deleting
  constructor
  · intro hdeleting
    split at hdeleting
    · cases hdeleting
    next pid hholder =>
        split at hdeleting
        next d hpid =>
            rw [Bool.and_eq_true, beq_iff_eq] at hdeleting
            exact ⟨pid, d, hpid, hdeleting.1, hdeleting.2⟩
        next => cases hdeleting
  · rintro ⟨pid, d, hpid, hcounted, rfl⟩
    have hholder : w.holder d.mailbox = some pid :=
      (h.holder_iff d.mailbox pid).mpr (World.holds_eq hpid)
    simp only [hholder, hpid, hcounted, beq_self_eq_true, Bool.and_self]

theorem expects_of_deliver {w : World} (h : Locked w) {pid : Nat} {t : Transaction} {m rcpt : Str}
    (hpid : w.delivers pid t) (hrcpt : rcpt ∈ t.todo)
    (hroute : resolveRecipientMailbox t.snapshot rcpt = some m) : w.expects m = true := by
  unfold World.expects
  refine List.any_eq_true.mpr ⟨pid, ?_, ?_⟩
  · rw [List.mem_range]
    by_contra hle
    have hnone := h.unborn pid (by omega)
    unfold World.delivers at hpid
    rw [hnone] at hpid
    cases hpid
  · unfold World.delivers at hpid
    rw [hpid]
    exact List.any_eq_true.mpr ⟨rcpt, hrcpt, by rw [hroute, beq_self_eq_true]⟩

theorem expects_of_send {w : World} (h : Locked w) {pid : Nat} {s : Sending}
    (hpid : w.procs pid = some (.send s)) : w.expects s.mailbox = true := by
  unfold World.expects
  refine List.any_eq_true.mpr ⟨pid, ?_, ?_⟩
  · rw [List.mem_range]
    by_contra hle
    have hnone := h.unborn pid (by omega)
    rw [hnone] at hpid
    cases hpid
  · rw [hpid]
    exact beq_self_eq_true s.mailbox

/-- Where a process after the step `a` comes from: it went on with what it had read, or it read the
configuration in this step; a deletion that is past its check was so before, or checks now. -/
def Inherited (w : World) (a : Move) (pid : Nat) : Proc → Prop
  | .deliver t' =>
      (∃ t, w.delivers pid t ∧ t'.snapshot = t.snapshot ∧ t'.epochs = t.epochs ∧ t'.todo ⊆ t.todo) ∨
        ∃ raw, a = .data raw t'.todo ∧ t'.snapshot = w.config ∧ t'.epochs = w.deletes
  | .send s' =>
      (∃ s, w.procs pid = some (.send s) ∧ s'.mailbox = s.mailbox ∧ s'.epoch = s.epoch) ∨
        a = .send s'.mailbox ∧ s'.mailbox ∈ w.config.mailboxes ∧ s'.epoch = w.deletes s'.mailbox
  | .delete d' => d'.counted = true → w.procs pid = some (.delete d') ∨
      ∃ d inboxUnreadable sentUnreadable, a = .deleting pid (.count inboxUnreadable sentUnreadable) ∧
        w.procs pid = some (.delete d) ∧ d'.mailbox = d.mailbox

section

variable {w w' : World} {a : Move} {pid pid' : Nat} {p : Proc}

theorem inherited_self (hp : w.procs pid = some p) : Inherited w a pid p := by
  cases p with
  | deliver t => exact Or.inl ⟨t, hp, rfl, rfl, List.Subset.refl _⟩
  | delete d => exact fun _ => Or.inl hp
  | send s => exact Or.inl ⟨s, hp, rfl, rfl⟩

theorem inherited_setProc {q : Option Proc} (hp : w'.procs pid' = some p)
    (hprocs : w'.procs = (w.setProc pid q).procs) (hq : ∀ p, q = some p → Inherited w a pid p) :
    Inherited w a pid' p := by
  rw [hprocs, World.procs_setProc] at hp
  split at hp
  next heq =>
      rw [heq]
      exact hq p hp
  next => exact inherited_self hp

/-- A transaction goes on with some of its recipients. -/
theorem inherited_deliver {t t' : Transaction} (hp : w'.procs pid' = some p) (hpid : w.delivers pid t)
    (hprocs : w'.procs = (w.setProc pid (some (.deliver t'))).procs)
    (hsnapshot : t'.snapshot = t.snapshot) (hepochs : t'.epochs = t.epochs) (htodo : t'.todo ⊆ t.todo) :
    Inherited w a pid' p := by
  refine inherited_setProc hp hprocs ?_
  intro p' heq
  cases heq
  exact Or.inl ⟨t, hpid, hsnapshot, hepochs, htodo⟩

theorem inherited_spawn {q : Proc} (hp : w'.procs pid' = some p) (hprocs : w'.procs = (w.spawn q).procs)
    (hq : Inherited w a w.next q) : Inherited w a pid' p := by
  rw [hprocs, World.procs_spawn] at hp
  split at hp
  next heq =>
      cases hp
      rw [heq]
      exact hq
  next => exact inherited_self hp

theorem inherited_same (hp : w'.procs pid = some p) (hprocs : w'.procs = w.procs) :
    Inherited w a pid p := by
  rw [hprocs] at hp
  exact inherited_self hp

end

theorem inherited_of_effect {env : Env} {w w' : World} {a : Move} (heffect : Effect env w a w')
    {pid' : Nat} {p : Proc} (hp : w'.procs pid' = some p) : Inherited w a pid' p := by
  have hnone : ∀ {pid : Nat} (p : Proc), none = some p → Inherited w a pid p := by
    intro pid p hp
    cases hp
  cases heffect with
  | tick d => exact inherited_same hp rfl
  | data raw rcpts => exact inherited_spawn hp rfl (Or.inr ⟨raw, rfl, rfl, rfl⟩)
  | unrouted hpid => exact inherited_deliver hp hpid rfl rfl rfl (List.tail_subset _)
  | routed hpid => exact inherited_deliver hp hpid rfl rfl rfl (List.Subset.refl _)
  | unready ok hpid => exact inherited_deliver hp hpid rfl rfl rfl (List.tail_subset _)
  | ready ok hpid => exact inherited_deliver hp hpid rfl rfl rfl (List.Subset.refl _)
  | lock hpid => exact inherited_deliver hp hpid rfl rfl rfl (List.Subset.refl _)
  | unbuilt readable hpid => exact inherited_deliver hp hpid rfl rfl rfl (List.tail_subset _)
  | build => exact inherited_same hp rfl
  | skip hpid => exact inherited_deliver hp hpid rfl rfl rfl (List.tail_subset _)
  | pass hpid => exact inherited_deliver hp hpid rfl rfl rfl (List.Subset.refl _)
  | write wr hpid => exact inherited_deliver hp hpid rfl rfl rfl (List.Subset.refl _)
  | unwritten wr hpid => exact inherited_deliver hp hpid rfl rfl rfl (List.tail_subset _)
  | insert hpid => exact inherited_deliver hp hpid rfl rfl rfl (List.Subset.refl _)
  | fire ok hpid => exact inherited_deliver hp hpid rfl rfl rfl (List.tail_subset _)
  | reply => exact inherited_setProc hp rfl hnone
  | @abandon pid t hpid =>
      refine inherited_deliver hp hpid rfl rfl rfl ?_
      show (if t.phase = .next then [] else t.todo.take 1) ⊆ t.todo
      split
      · exact List.nil_subset _
      · exact List.take_subset _ _
  | create => exact inherited_same hp rfl
  | delete => exact inherited_spawn hp rfl (fun hcounted => by cases hcounted)
  | wipeSent => exact inherited_same hp rfl
  | wipeInbox => exact inherited_same hp rfl
  | count inboxUnreadable sentUnreadable hpid =>
      refine inherited_setProc hp rfl ?_
      intro p' heq
      cases heq
      exact fun _ => Or.inr ⟨_, inboxUnreadable, sentUnreadable, rfl, hpid, rfl⟩
  | commit => exact inherited_setProc hp rfl hnone
  | refuse => exact inherited_setProc hp rfl hnone
  | send hlive => exact inherited_spawn hp rfl (Or.inr ⟨rfl, hlive, rfl⟩)
  | claim _ _ _ _ hpid =>
      refine inherited_setProc hp rfl ?_
      intro p' heq
      cases heq
      exact Or.inl ⟨_, hpid, rfl, rfl⟩
  | copy => exact inherited_setProc hp rfl hnone
  | stop => exact inherited_setProc hp rfl hnone
  | mark => exact inherited_same hp rfl

/-- A deletion that ends removes its mailbox; nothing else removes one. -/
theorem config_of_effect {env : Env} {w w' : World} {a : Move} (heffect : Effect env w a w') (m : Str)
    (hm : ¬ w.counted m) :
    (m ∈ w.config.mailboxes → m ∈ w'.config.mailboxes) ∧ w'.deletes m = w.deletes m := by
  cases heffect with
  | create mb hfree => exact ⟨fun hmem => AList.mem_insert _ |>.mpr (Or.inr hmem), rfl⟩
  | @commit pid d hpid hcounted =>
      have hne : m ≠ d.mailbox := by
        rintro rfl
        exact hm ⟨pid, d, hpid, hcounted, rfl⟩
      constructor
      · intro hmem
        exact AList.mem_erase.mpr ⟨hne, hmem⟩
      · show Function.update w.deletes d.mailbox _ m = w.deletes m
        rw [Function.update_of_ne hne]
  | _ => exact ⟨fun hmem => hmem, rfl⟩

/-! ## The invariant -/

/-- The writers that are under way to a mailbox have looked after its last deletion, it is configured,
and no deletion of it is past its check. -/
structure Current (w : World) : Prop where
  deliver : ∀ {pid : Nat} {t : Transaction} {m rcpt : Str}, w.delivers pid t → rcpt ∈ t.todo →
    resolveRecipientMailbox t.snapshot rcpt = some m →
    m ∈ w.config.mailboxes ∧ t.epochs m = w.deletes m ∧ ¬ w.counted m
  send : ∀ {pid : Nat} {s : Sending}, w.procs pid = some (.send s) →
    s.mailbox ∈ w.config.mailboxes ∧ s.epoch = w.deletes s.mailbox ∧ ¬ w.counted s.mailbox

theorem current_start (now : Int) (config : Config) (inbox sent : Str → List Entry) :
    Current (World.start now config inbox sent) where
  deliver := by
    intro pid t m rcpt hpid
    cases hpid
  send := by
    intro pid s hpid
    cases hpid

theorem current_of_effect {env : Env} {w w' : World} {a : Move} (h : Current w) (hlocked : Locked w)
    (heffect : Effect env w a w') (halone : deletesAlone w a = true) : Current w' := by
  -- a deletion that passes its check in this step is of a mailbox that nobody writes to
  have hcounted : ∀ m, ¬ w.counted m → w.expects m = true → ¬ w'.counted m := by
    rintro m hnot hexpects ⟨pid, d', hpid, hcounted, rfl⟩
    rcases inherited_of_effect heffect hpid hcounted with hold | ⟨d, i, s, rfl, hold, hsame⟩
    · exact hnot ⟨pid, d', hold, hcounted, rfl⟩
    · have hfree : (!w.expects d.mailbox) = true := by
        simp only [deletesAlone, hold] at halone
        exact halone
      rw [← hsame, hexpects] at hfree
      cases hfree
  -- a writer that reads the configuration in this step reads it as it is
  have hnew : ∀ m, ¬ w.counted m → (∀ pid a', a ≠ .deleting pid a') → ¬ w'.counted m := by
    rintro m hnot hother ⟨pid, d', hpid, hcounted, rfl⟩
    rcases inherited_of_effect heffect hpid hcounted with hold | ⟨d, i, s, rfl, -, -⟩
    · exact hnot ⟨pid, d', hold, hcounted, rfl⟩
    · exact hother pid _ rfl
  constructor
  case deliver =>
    intro pid t' m rcpt hpid hrcpt hroute
    rcases inherited_of_effect heffect hpid with ⟨t, ht, hsnapshot, hepochs, htodo⟩ |
        ⟨raw, rfl, hsnapshot, hepochs⟩
    · rw [hsnapshot] at hroute
      obtain ⟨hlive, hepoch, hnot⟩ := h.deliver ht (htodo hrcpt) hroute
      obtain ⟨hlive', hdeletes⟩ := config_of_effect heffect m hnot
      rw [hepochs, hdeletes]
      exact ⟨hlive' hlive, hepoch, hcounted m hnot
        (expects_of_deliver hlocked ht (htodo hrcpt) hroute)⟩
    · rw [hsnapshot] at hroute
      have hnot : ¬ w.counted m := by
        have hall := List.all_eq_true.mp halone rcpt hrcpt
        rw [hroute] at hall
        have hfree : (!w.deleting m) = true := hall
        intro hcounted'
        rw [(deleting_iff hlocked m).mpr hcounted'] at hfree
        cases hfree
      obtain ⟨hlive', hdeletes⟩ := config_of_effect heffect m hnot
      rw [hepochs, hdeletes]
      exact ⟨hlive' (mem_of_resolveRecipientMailbox hroute), rfl,
        hnew m hnot (fun _ _ heq => by cases heq)⟩
  case send =>
    intro pid s' hpid
    rcases inherited_of_effect heffect hpid with ⟨s, hs, hmailbox, hepoch⟩ | ⟨rfl, hlive, hepoch⟩
    · rw [hmailbox, hepoch]
      obtain ⟨hlive, hepoch', hnot⟩ := h.send hs
      obtain ⟨hlive', hdeletes⟩ := config_of_effect heffect s.mailbox hnot
      rw [hdeletes]
      exact ⟨hlive' hlive, hepoch', hcounted s.mailbox hnot (expects_of_send hlocked hs)⟩
    · have hnot : ¬ w.counted s'.mailbox := by
        intro hcounted'
        simp only [deletesAlone, (deleting_iff hlocked s'.mailbox).mpr hcounted'] at halone
        cases halone
      obtain ⟨hlive', hdeletes⟩ := config_of_effect heffect s'.mailbox hnot
      rw [hdeletes]
      exact ⟨hlive' hlive, hepoch, hnew s'.mailbox hnot (fun _ _ heq => by cases heq)⟩

/-! ## Over every run -/

theorem noLateWrite_of_effect {env : Env} {w w' : World} {a : Move} (h : NoLateWrite w)
    (hcurrent : Current w) (hlocked : Locked w) (hattends : Attends w fun _ _ _ => True)
    (heffect : Effect env w a w') : NoLateWrite w' := by
  have hevent : ∀ {m m' : Str} {live late : Bool} {epoch : Nat}, m' ∈ w.config.mailboxes →
      epoch = w.deletes m' → ¬ w.counted m' → .wrote m live late = w.wroteEvent m' epoch →
      live = true ∧ late = false := by
    intro m m' live late epoch hlive hepoch hnot heq
    obtain ⟨-, hlive', hlate⟩ := Event.wrote.inj heq
    have hdeleting : w.deleting m' = false := by
      rw [Bool.eq_false_iff]
      exact fun hdeleting => hnot ((deleting_iff hlocked m').mp hdeleting)
    rw [hlive', hlate, hdeleting]
    simp [hlive, hepoch]
  intro n m live late hn
  rcases event_of_effect heffect hn with hn | hexplained
  · exact h n m live late hn
  · rcases hexplained with ⟨pid, t, hpid, hphase, heq⟩ | ⟨pid, s, hpid, rfl, heq⟩
    · obtain ⟨rcpt, rest, htodo, hroute⟩ := (hattends pid t hpid).current m (by rw [hphase]; rfl)
      obtain ⟨hlive, hepoch, hnot⟩ := hcurrent.deliver hpid (by rw [htodo]; simp) hroute
      exact hevent hlive hepoch hnot heq
    · obtain ⟨hlive, hepoch, hnot⟩ := hcurrent.send hpid
      exact hevent hlive hepoch hnot heq

/-- **No file is written into a deleted mailbox** in a run whose deletions are alone. -/
theorem noLateWrite_of_run (env : Env) {now : Int} {config : Config} {inbox sent : Str → List Entry}
    {as : List Move} {w : World}
    (halone : Allowed (step env) (fun w a => deletesAlone w a = true)
      (World.start now config inbox sent) as)
    (hrun : run (step env) (World.start now config inbox sent) as = some w) : NoLateWrite w := by
  have hinv : Locked w ∧ (Attends w fun _ _ _ => True) ∧ Current w ∧ NoLateWrite w := by
    refine run_invariant (I := fun w => Locked w ∧ (Attends w fun _ _ _ => True) ∧ Current w ∧
      NoLateWrite w) ?_ ?_ halone hrun
    · rintro w₁ a w₂ ⟨hlocked, hattends, hcurrent, hlate⟩ ha hstep
      have heffect := effect_of_step hstep
      exact ⟨locked_of_effect hlocked heffect,
        attends_of_effect hattends heffect (fun _ _ _ _ => trivial) (fun _ _ _ _ _ _ => trivial)
          (fun _ _ _ _ => trivial),
        current_of_effect hcurrent hlocked heffect ha,
        noLateWrite_of_effect hlate hcurrent hlocked hattends heffect⟩
    · refine ⟨locked_start now config inbox sent, ?_, current_start now config inbox sent, ?_⟩
      · intro pid t hpid
        cases hpid
      · intro n m live late hn
        simp [World.start] at hn
  exact hinv.2.2.2

/-! ## Runs without the condition -/

/-- The event breaks the law. -/
def Event.isLate : Event → Bool
  | .wrote _ live late => !live || late
  | _ => false

theorem noLateWrite_iff {w : World} : NoLateWrite w ↔ w.log.any Event.isLate = false := by
  rw [List.any_eq_false]
  constructor
  · intro h e he hlate
    obtain ⟨n, hn⟩ := List.mem_iff_getElem?.mp he
    cases e with
    | wrote m live late =>
        obtain ⟨rfl, rfl⟩ := h n m live late hn
        cases hlate
    | _ => cases hlate
  · intro h n m live late hn
    have hnot := h _ (List.mem_of_getElem? hn)
    simp only [Event.isLate, Bool.not_eq_true, Bool.or_eq_false_iff, Bool.not_eq_false'] at hnot
    exact hnot

instance (w : World) : Decidable (NoLateWrite w) := decidable_of_iff _ noLateWrite_iff.symm

/-- The event is a 250. -/
def Event.isAccept : Event → Bool
  | .replied _ accepted _ _ => accepted
  | _ => false

/-- A MAILBOX-DELETE of an empty mailbox. -/
def deleteEmpty (pid : Nat) (m : Str) : List Move :=
  [.delete m false, .deleting pid (.count false false), .deleting pid .commit]

/-- The mailbox is deleted after a delivery has read the configuration. -/
def lateDelivery : List Move :=
  [.data helloRaw ["alice@example.org".toList]] ++ deleteEmpty 1 "alice".toList ++
    deliverNext 0 true ++ [.deliver 0 .reply]

/-- The mailbox is deleted after a SEND has read the configuration. -/
def lateSend : List Move :=
  [.send "alice".toList] ++ deleteEmpty 1 "alice".toList ++
    [.sending 0 (.claim ⟨2025, 1, 1, 0, 0, 1⟩ "hello".toList),
      .sending 0 (.write (utf8 "hello".toList))]

/-- The delivery is answered 250 and its message lies in the inbox of a mailbox that was deleted before,
with OK, and does not exist; so does the sent copy of the SEND. -/
theorem deletedMailbox_written :
    (∃ w, run (step helloEnv) helloWorld lateDelivery = some w ∧ ¬ NoLateWrite w ∧
      w.log.any Event.isAccept = true ∧ "alice".toList ∉ w.config.mailboxes ∧
      letters (w.inbox "alice".toList) = [helloRaw]) ∧
    ∃ w, run (step helloEnv) helloWorld lateSend = some w ∧ ¬ NoLateWrite w ∧
      "alice".toList ∉ w.config.mailboxes ∧ (w.sent "alice".toList).length = 1 := by
  constructor
  · have hrun : (run (step helloEnv) helloWorld lateDelivery).any (fun w =>
        decide (¬ NoLateWrite w ∧ w.log.any Event.isAccept = true ∧
          "alice".toList ∉ w.config.mailboxes ∧ letters (w.inbox "alice".toList) = [helloRaw])) =
        true := by decide +kernel
    obtain ⟨w, hw, hlaw⟩ := (Option.any_eq_true _ _).mp hrun
    exact ⟨w, hw, of_decide_eq_true hlaw⟩
  · have hrun : (run (step helloEnv) helloWorld lateSend).any (fun w =>
        decide (¬ NoLateWrite w ∧ "alice".toList ∉ w.config.mailboxes ∧
          (w.sent "alice".toList).length = 1)) = true := by decide +kernel
    obtain ⟨w, hw, hlaw⟩ := (Option.any_eq_true _ _).mp hrun
    exact ⟨w, hw, of_decide_eq_true hlaw⟩

/-- A delivery, then the deletion of its mailbox with force, then a new mailbox of the name and a SEND
from it. -/
def aloneDeletion : List Move :=
  [.data helloRaw ["alice@example.org".toList]] ++ deliverNext 0 true ++
    [.deliver 0 .reply, .delete "alice".toList true,
      .deleting 1 (.wipe false "2025-01-01-000001-hello.md".toList)] ++
    [.deleting 1 (.count false false), .deleting 1 .commit,
      .create "alice".toList (plainMailbox "alice".toList), .send "alice".toList,
      .sending 2 (.claim ⟨2025, 1, 1, 0, 0, 1⟩ "hello".toList),
      .sending 2 (.write (utf8 "hello".toList))]

theorem noLateWrite_aloneDeletion :
    ∃ w, run (step helloEnv) helloWorld aloneDeletion = some w ∧ NoLateWrite w := by
  have hsome : (run (step helloEnv) helloWorld aloneDeletion).isSome = true := by decide +kernel
  obtain ⟨w, hrun⟩ := Option.isSome_iff_exists.mp hsome
  exact ⟨w, hrun, noLateWrite_of_run helloEnv (by decide +kernel) hrun⟩

end Ingest
end Aimx
