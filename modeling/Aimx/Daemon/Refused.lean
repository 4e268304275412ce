import Aimx.Daemon.Wipe
import Aimx.Transition.Runs

/-!
# Refused requests

A request is carried out, or it is refused and should leave the configuration, the mailbox directories and
all messages as they were.

* `Plan.Succeeds`, `Plan.Restores`, `execute_outcome` — the calls with which a plan is carried out, and those
  behind which a refused one leaves everything as it was;
* `Round`, `serve` — one request with the calls that fail, and a sequence of them;
* `Untouched` — the law: what is as it was when the answer is an error;
* `untouched_run_iff` — exactly the sequences of requests that keep it;
* `untouched_lostMessages` — a forced deletion that is refused after the messages are gone.
-/

namespace Aimx
namespace Daemon

open Text Protocol Transition

/-! ## Plans -/

/-- The calls with which a plan is carried out. -/
def Plan.Succeeds (env : HandlerEnv) (faults : Faults) (caller : Caller) (config : Config) (disk : Disk) :
    Plan → Prop
  | .mailboxCreate name owner =>
      authorize env.users caller.uid (.mailboxCreate caller.uid) none = .ok () ∧
        CreateSucceeds env faults name owner config disk
  | .mailboxDelete name force =>
      authorizeDelete env config name caller = .ok () ∧ DeleteSucceeds env faults name force config disk
  | plan => Commits env caller config plan ∧ Writes env faults (plan.result env.sha256 config)

/-- The calls behind which a plan that is refused leaves folders and messages as they were. -/
def Plan.Restores (env : HandlerEnv) (faults : Faults) (caller : Caller) (config : Config) (disk : Disk) :
    Plan → Prop
  | .mailboxCreate name owner =>
      authorize env.users caller.uid (.mailboxCreate caller.uid) none = .ok () →
        CreateRestores env faults name owner config disk
  | .mailboxDelete name force =>
      authorizeDelete env config name caller = .ok () → DeleteRestores env faults name force config disk
  | _ => True

section Plans

variable {env : HandlerEnv} {faults : Faults} {caller : Caller} {config : Config} {disk : Disk} {plan : Plan}

/-- The write of a hook request. -/
theorem writeBack_outcome (result : Except Reject Config) :
    ((∃ next, result = .ok next ∧ Writes env faults next) ∧
      ∃ next, (writeBack env faults result disk).2 = .ok next) ∨
    ((¬ ∃ next, result = .ok next ∧ Writes env faults next) ∧
      (∃ reject, (writeBack env faults result disk).2 = .error reject) ∧
      disk.SameFolders (writeBack env faults result disk).1) := by
  unfold writeBack
  cases result with
  | error reject =>
      refine Or.inr ⟨?_, ⟨reject, rfl⟩, fun s n => rfl⟩
      rintro ⟨next, hnext, -⟩
      cases hnext
  | ok next =>
      have hwrites := @writeAtomic_ok_iff env faults disk next
      have hmessages := fun s n => @messages_writeAtomic env faults disk next s n
      dsimp only
      split
      next disk' e hwrite =>
          rw [hwrite] at hwrites hmessages
          refine Or.inr ⟨?_, ⟨_, rfl⟩, hmessages⟩
          rintro ⟨next', hnext, hall⟩
          cases hnext
          cases hwrites.mpr hall
      next disk' hwrite =>
          rw [hwrite] at hwrites
          exact Or.inl ⟨⟨next, rfl, hwrites.mp rfl⟩, next, rfl⟩

/-- The checks of the hook requests under the locks. -/
theorem hookCreateCommit_iff {mailbox : Str} {hook : Hook} {next : Config} :
    hookCreateCommit env config mailbox hook = .ok next ↔
      Commits env caller config (.hookCreate mailbox hook) ∧ next = config.pushHook mailbox hook := by
  refine ⟨hookCreateCommit_eq_ok caller, ?_⟩
  rintro ⟨hcommits, rfl⟩
  cases hcommits with
  | hookCreate hmb hvalid =>
      unfold hookCreateCommit
      rw [hmb]
      dsimp only
      rw [hvalid]

theorem hookDeleteCommit_iff {mailbox name : Str} {next : Config} :
    hookDeleteCommit env config mailbox name = .ok next ↔
      Commits env caller config (.hookDelete mailbox name) ∧
        next = config.retainHooks env.sha256 mailbox name := by
  refine ⟨hookDeleteCommit_eq_ok caller, ?_⟩
  rintro ⟨hcommits, rfl⟩
  cases hcommits with
  | hookDelete hmb hfound =>
      unfold hookDeleteCommit
      rw [hmb]
      dsimp only
      rw [if_neg hfound]

/-- A plan is carried out, or refused; and refused, it leaves folders and messages as they were exactly if
its calls let it. -/
theorem Plan.execute_outcome (env : HandlerEnv) (faults : Faults) (caller : Caller) (config : Config)
    (disk : Disk) (plan : Plan) :
    (plan.Succeeds env faults caller config disk ∧ plan.Restores env faults caller config disk ∧
      ∃ next, (plan.execute env faults caller config disk).2 = .ok next) ∨
    (¬ plan.Succeeds env faults caller config disk ∧
      (∃ reject, (plan.execute env faults caller config disk).2 = .error reject) ∧
      (disk.SameFolders (plan.execute env faults caller config disk).1 ↔
        plan.Restores env faults caller config disk)) := by
  cases plan with
  | mailboxCreate name owner =>
      unfold Plan.execute Plan.Succeeds Plan.Restores
      dsimp only
      cases authorize env.users caller.uid (.mailboxCreate caller.uid) none with
      | error e =>
          exact Or.inr ⟨fun h => (by cases h.1), ⟨_, rfl⟩, iff_of_true (fun s n => rfl) fun h => (by cases h)⟩
      | ok u =>
          dsimp only
          rcases handleCreate_outcome env faults name owner config disk with
            ⟨hall, hrest, hok⟩ | ⟨hnot, herr, hsame⟩
          · exact Or.inl ⟨⟨rfl, hall⟩, fun _ => hrest, _, hok⟩
          · exact Or.inr ⟨fun h => hnot h.2, herr, hsame.trans ⟨fun h _ => h, fun h => h rfl⟩⟩
  | mailboxDelete name force =>
      unfold Plan.execute Plan.Succeeds Plan.Restores
      dsimp only
      cases authorizeDelete env config name caller with
      | error e =>
          exact Or.inr ⟨fun h => (by cases h.1), ⟨_, rfl⟩, iff_of_true (fun s n => rfl) fun h => (by cases h)⟩
      | ok u =>
          dsimp only
          rcases handleDelete_outcome env faults name force config disk with
            ⟨hall, hrest, hok⟩ | ⟨hnot, herr, hsame⟩
          · exact Or.inl ⟨⟨rfl, hall⟩, fun _ => hrest, _, hok⟩
          · exact Or.inr ⟨fun h => hnot h.2, herr, hsame.trans ⟨fun h _ => h, fun h => h rfl⟩⟩
  | hookCreate mailbox hook =>
      have hcommit := fun next => @hookCreateCommit_iff env caller config mailbox hook next
      rcases @writeBack_outcome env faults disk (hookCreateCommit env config mailbox hook) with
        ⟨⟨next, hnext, hwrites⟩, hok⟩ | ⟨hnot, herr, hsame⟩
      · obtain ⟨hcommits, rfl⟩ := (hcommit next).mp hnext
        exact Or.inl ⟨⟨hcommits, hwrites⟩, trivial, hok⟩
      · refine Or.inr ⟨fun h => hnot ⟨_, (hcommit _).mpr ⟨h.1, rfl⟩, h.2⟩, herr, iff_of_true hsame trivial⟩
  | hookDelete mailbox name =>
      have hcommit := fun next => @hookDeleteCommit_iff env caller config mailbox name next
      rcases @writeBack_outcome env faults disk (hookDeleteCommit env config mailbox name) with
        ⟨⟨next, hnext, hwrites⟩, hok⟩ | ⟨hnot, herr, hsame⟩
      · obtain ⟨hcommits, rfl⟩ := (hcommit next).mp hnext
        exact Or.inl ⟨⟨hcommits, hwrites⟩, trivial, hok⟩
      · refine Or.inr ⟨fun h => hnot ⟨_, (hcommit _).mpr ⟨h.1, rfl⟩, h.2⟩, herr, iff_of_true hsame trivial⟩

end Plans

/-! ## Requests -/

/-- One request, with its caller and the calls that fail. -/
structure Round where
  caller : Caller
  request : ConfigRequest
  faults : Faults

/-- The daemon after one request. -/
def serve (env : HandlerEnv) (world : World) (r : Round) : Option World :=
  some (handle env r.faults world r.caller r.request).1

/-- What a refused request must leave as it was. -/
structure World.Same (before after : World) : Prop where
  memory : after.memory = before.memory
  config : after.disk.config = before.disk.config
  folders : before.disk.SameFolders after.disk

/-- The law: a request that is answered with an error changes nothing. -/
def Untouched (env : HandlerEnv) (world : World) (r : Round) : Prop :=
  ∀ reject, (handle env r.faults world r.caller r.request).2 = .err reject →
    world.Same (handle env r.faults world r.caller r.request).1

/-- The condition on a request that has passed the checks of its arrival: it is about a hook, or what it does
to folders and messages before it is refused is taken back, or nothing. -/
def RefusesCleanly (env : HandlerEnv) (world : World) (r : Round) : Prop :=
  ∀ plan, r.request.check env world.memory r.caller = .ok plan →
    plan.Restores env r.faults r.caller world.memory world.disk

section Requests

variable {env : HandlerEnv} {world : World} {r : Round}

/-- The answer to a request. -/
theorem handle_outcome (env : HandlerEnv) (world : World) (r : Round) :
    ((∃ plan, r.request.check env world.memory r.caller = .ok plan ∧
        plan.Succeeds env r.faults r.caller world.memory world.disk) ∧ RefusesCleanly env world r ∧
      (handle env r.faults world r.caller r.request).2 = .ok) ∨
    ((¬ ∃ plan, r.request.check env world.memory r.caller = .ok plan ∧
        plan.Succeeds env r.faults r.caller world.memory world.disk) ∧
      (∃ reject, (handle env r.faults world r.caller r.request).2 = .err reject) ∧
      (world.Same (handle env r.faults world r.caller r.request).1 ↔ RefusesCleanly env world r)) := by
  unfold RefusesCleanly handle
  cases hcheck : r.request.check env world.memory r.caller with
  | error reject =>
      refine Or.inr ⟨?_, ⟨reject, rfl⟩, iff_of_true ⟨rfl, rfl, fun s n => rfl⟩ fun plan h => (by cases h)⟩
      rintro ⟨plan, hplan, -⟩
      cases hplan
  | ok plan =>
      have hout := plan.execute_outcome env r.faults r.caller world.memory world.disk
      have hconfig := @Plan.execute_error env r.faults r.caller world.memory world.disk
      simp only [Except.ok.injEq, exists_eq_left', forall_eq']
      cases hexecute : plan.execute env r.faults r.caller world.memory world.disk with
      | mk disk' result =>
          rw [hexecute] at hout
          rcases hout with ⟨hall, hrest, next, hok⟩ | ⟨hnot, ⟨reject, herr⟩, hsame⟩
          · cases hok
            exact Or.inl ⟨hall, hrest, rfl⟩
          · cases herr
            refine Or.inr ⟨hnot, ⟨reject, rfl⟩, Iff.trans ?_ hsame⟩
            exact ⟨fun h => h.folders, fun h => ⟨rfl, hconfig hexecute, h⟩⟩

/-- One request. -/
theorem untouched_iff (env : HandlerEnv) (world : World) (r : Round) :
    Untouched env world r ↔ RefusesCleanly env world r := by
  unfold Untouched
  rcases handle_outcome env world r with ⟨-, hrest, hok⟩ | ⟨-, ⟨reject, herr⟩, hsame⟩
  · rw [hok]
    exact iff_of_true (fun reject h => by cases h) hrest
  · rw [← hsame, herr]
    exact ⟨fun h => h reject rfl, fun h _ _ => h⟩

/-- **In a sequence of requests each refused one leaves the configuration, the folders and the messages as
they were, exactly if no creation is refused whose folders are not taken back, and no forced deletion that
has removed something.** -/
theorem untouched_run_iff (env : HandlerEnv) (world : World) (rounds : List Round) :
    Allowed (serve env) (Untouched env) world rounds ↔
      Allowed (serve env) (RefusesCleanly env) world rounds :=
  allowed_congr (untouched_iff env) world rounds

/-- The answer is one of the two. -/
theorem exists_err_of_ne_ok {answer : AckResponse} (h : answer ≠ .ok) : ∃ reject, answer = .err reject := by
  cases answer with
  | ok => exact absurd rfl h
  | err reject => exact ⟨reject, rfl⟩

/-- A forced deletion of bob's mailbox removes the message in it, and is refused when the new configuration
cannot be put in its place: the mailbox is still there, and the message is gone. -/
theorem untouched_lostMessages :
    ∃ (world : World) (r : Round), world.disk.messages .inbox "bob".toList ≠ some [] ∧
      (handle sampleEnv r.faults world r.caller r.request).1.disk.messages .inbox "bob".toList = some [] ∧
      ¬ Allowed (serve sampleEnv) (Untouched sampleEnv) world [r] := by
  let world : World := ⟨sampleConfig [("bob", sampleMailbox "bob@example.org" "bob" [])],
    ⟨fun side name => if side = .inbox ∧ name = "bob".toList then
      some (.folder ⟨1000, 1000, 0o700, [("2026-05-04-note.md".toList, .file [0x68, 0x69])]⟩) else none,
      [], false⟩⟩
  let r : Round := ⟨sampleBob, .mailbox ⟨"bob".toList, false, none, true⟩,
    fun call => if call = .rename then some "No space left on device".toList else none⟩
  have hthere : world.disk.messages .inbox "bob".toList ≠ some [] := by decide
  have hgone : (handle sampleEnv r.faults world r.caller r.request).1.disk.messages .inbox "bob".toList =
      some [] := by
    decide +kernel
  obtain ⟨reject, herr⟩ : ∃ reject, (handle sampleEnv r.faults world r.caller r.request).2 = .err reject :=
    exists_err_of_ne_ok (by decide +kernel)
  refine ⟨world, r, hthere, hgone, ?_⟩
  rintro ⟨huntouched, -⟩
  have hfolders := (huntouched reject herr).folders .inbox "bob".toList
  rw [hgone] at hfolders
  exact hthere hfolders.symm

end Requests

end Daemon
end Aimx
