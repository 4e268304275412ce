import Aimx.Daemon.Requests

/-!
# What a request does to the configuration and its file

The part of a request under its locks either refuses and leaves the file `config.toml` alone, or puts
the printed text of exactly one change in its place.

* `Checked`, `ConfigRequest.check_eq_ok` — what a request passes before its locks;
* `Plan.update` — the change that a plan stands for;
* `Commits` — when the plan is carried out, as far as the configuration decides it;
* `Plan.execute_error`, `Plan.execute_ok` — the two outcomes;
* `Plan.lookup_result`, `Commits.mem_allHooks_result` — mailboxes and hooks afterwards.
-/

namespace Aimx
namespace Daemon

open Text Protocol

/-! ## The checks on the snapshot -/

/-- The plan that a request becomes, with everything that its checks have established on the
configuration of its arrival. -/
inductive Checked (env : HandlerEnv) (caller : Caller) (config : Config) : ConfigRequest → Plan → Prop
  | mailboxCreate {req : MailboxLifecycleRequest} {owner : Str}
      (hname : validateMailboxName req.name = .ok ()) (hcreate : req.create = true)
      (howner : resolvedOwner req caller = .ok owner) :
      Checked env caller config (.mailbox req) (.mailboxCreate req.name owner)
  | mailboxDelete {req : MailboxLifecycleRequest} (hname : validateMailboxName req.name = .ok ())
      (hcreate : req.create = false) :
      Checked env caller config (.mailbox req) (.mailboxDelete req.name req.force)
  | hookCreate {req : HookCreateRequest} {mb : MailboxConfig} {hook : Hook}
      (hmb : config.mailboxes.lookup req.mailbox = some mb) (hact : caller.MayActFor mb)
      (hcatchall : mb.isCatchall config = false) (hhook : submittedHook env req = .ok hook) :
      Checked env caller config (.hookCreate req) (.hookCreate req.mailbox hook)
  | hookDelete {req : HookDeleteRequest} {mailbox : Str} {mb : MailboxConfig}
      (hfind : findHookOwner env config req.name = some mailbox)
      (hmb : config.mailboxes.lookup mailbox = some mb) (hact : caller.MayActFor mb) :
      Checked env caller config (.hookDelete req) (.hookDelete mailbox req.name)

section Checks

variable {env : HandlerEnv} {caller : Caller} {config : Config}

theorem mailboxCheck_eq_ok {req : MailboxLifecycleRequest} {plan : Plan}
    (h : mailboxCheck env req caller = .ok plan) : Checked env caller config (.mailbox req) plan := by
  unfold mailboxCheck at h
  split at h
  next => cases h
  next hname =>
      split at h
      next hcreate =>
          cases howner : resolvedOwner req caller with
          | error reject =>
              rw [howner] at h
              cases h
          | ok owner =>
              rw [howner] at h
              cases h
              exact .mailboxCreate hname hcreate howner
      next hcreate =>
          cases h
          exact .mailboxDelete hname (eq_false_of_ne_true hcreate)

theorem hookCreateCheck_eq_ok {req : HookCreateRequest} {hook : Hook}
    (h : hookCreateCheck env config req caller = .ok hook) :
    Checked env caller config (.hookCreate req) (.hookCreate req.mailbox hook) := by
  unfold hookCreateCheck at h
  split at h
  next => cases h
  next mb hmb =>
      split at h
      next => cases h
      next henforce =>
          split at h
          next => cases h
          next hcatchall =>
              exact .hookCreate hmb (enforceMailboxOwnerOrRoot_eq_ok_iff.mp henforce)
                (eq_false_of_ne_true hcatchall) h

theorem hookDeleteCheck_eq_ok {req : HookDeleteRequest} {mailbox : Str}
    (h : hookDeleteCheck env config req caller = .ok mailbox) :
    Checked env caller config (.hookDelete req) (.hookDelete mailbox req.name) := by
  unfold hookDeleteCheck at h
  split at h
  next => cases h
  next name hfind =>
      split at h
      next => cases h
      next mb hmb =>
          split at h
          next => cases h
          next henforce =>
              cases h
              exact .hookDelete hfind hmb (enforceMailboxOwnerOrRoot_eq_ok_iff.mp henforce)

/-- What a request has passed when it waits for its locks. -/
theorem ConfigRequest.check_eq_ok {request : ConfigRequest} {plan : Plan}
    (h : request.check env config caller = .ok plan) : Checked env caller config request plan := by
  cases request with
  | mailbox req => exact mailboxCheck_eq_ok h
  | hookCreate req =>
      obtain ⟨hook, hcheck, rfl⟩ : ∃ hook, hookCreateCheck env config req caller = .ok hook ∧
          .hookCreate req.mailbox hook = plan := by
        unfold ConfigRequest.check at h
        cases hcheck : hookCreateCheck env config req caller with
        | error reject => simp [hcheck, Except.map] at h
        | ok hook => exact ⟨hook, rfl, by simpa [hcheck, Except.map] using h⟩
      exact hookCreateCheck_eq_ok hcheck
  | hookDelete req =>
      obtain ⟨mailbox, hcheck, rfl⟩ : ∃ mailbox, hookDeleteCheck env config req caller = .ok mailbox ∧
          .hookDelete mailbox req.name = plan := by
        unfold ConfigRequest.check at h
        cases hcheck : hookDeleteCheck env config req caller with
        | error reject => simp [hcheck, Except.map] at h
        | ok mailbox => exact ⟨mailbox, rfl, by simpa [hcheck, Except.map] using h⟩
      exact hookDeleteCheck_eq_ok hcheck

end Checks

/-! ## The calls and the file -/

section Calls

variable {env : HandlerEnv} {faults : Faults} {side : Side} {name : Str} {disk : Disk}

@[simp] theorem Disk.set_config (node : Option Node) : (disk.set side name node).config = disk.config :=
  rfl

@[simp] theorem Disk.chown_config (uid gid : UInt32) :
    (disk.chown side name uid gid).config = disk.config := by
  unfold Disk.chown
  split <;> rfl

@[simp] theorem Disk.chmod_config (mode : Nat) : (disk.chmod side name mode).config = disk.config := by
  unfold Disk.chmod
  split <;> rfl

@[simp] theorem createDirAll_config : (createDirAll faults side name disk).1.config = disk.config := by
  unfold createDirAll
  split
  · rfl
  · split <;> rfl

@[simp] theorem removeDir_config : (removeDir faults side name disk).config = disk.config := by
  unfold removeDir
  split
  · rfl
  · split
    · split <;> rfl
    · rfl

@[simp] theorem chownAsOwner_config {mb : MailboxConfig} {mode : Nat} :
    (chownAsOwner env faults side name mb mode disk).1.config = disk.config := by
  unfold chownAsOwner
  split
  · rfl
  · split
    · rfl
    · split
      · exact Disk.chown_config _ _
      · rw [Disk.chmod_config, Disk.chown_config]

@[simp] theorem rollbackSelfCreatedDirs_config {inboxExisted sentExisted : Bool} :
    (rollbackSelfCreatedDirs faults name inboxExisted sentExisted disk).config = disk.config := by
  unfold rollbackSelfCreatedDirs
  cases inboxExisted <;> cases sentExisted <;> simp

@[simp] theorem wipeMailboxContents_config :
    (wipeMailboxContents faults side name disk).1.config = disk.config := by
  unfold wipeMailboxContents
  split
  · rfl
  · split <;> rfl

@[simp] theorem wipeMailboxDirs_config : (wipeMailboxDirs faults name disk).1.config = disk.config := by
  unfold wipeMailboxDirs
  split
  next disk' e h =>
      have hconfig := @wipeMailboxContents_config faults .inbox name disk
      rw [h] at hconfig
      exact hconfig
  next disk' h =>
      have hconfig := @wipeMailboxContents_config faults .inbox name disk
      rw [h] at hconfig
      rw [wipeMailboxContents_config, hconfig]

/-- `write_atomic` fails and leaves folders and file alone, or replaces the file and nothing else. -/
theorem writeAtomic_cases (env : HandlerEnv) (faults : Faults) (disk : Disk) (config : Config) :
    (∃ e tmpLeft, writeAtomic env faults config disk = ({ disk with tmpLeft := tmpLeft }, .error e)) ∨
      ∃ text, env.print config = .ok text ∧
        writeAtomic env faults config disk =
          ({ disk with config := text, tmpLeft := false }, .ok ()) := by
  unfold writeAtomic
  cases hprint : env.print config with
  | error e => exact Or.inl ⟨_, disk.tmpLeft, rfl⟩
  | ok text =>
      dsimp only
      cases faults .createTmp with
      | some e => exact Or.inl ⟨e, disk.tmpLeft, rfl⟩
      | none =>
          cases faults .writeTmp with
          | some e => exact Or.inl ⟨e, true, rfl⟩
          | none =>
              cases faults .syncTmp with
              | some e => exact Or.inl ⟨e, true, rfl⟩
              | none =>
                  cases faults .rename with
                  | some e => exact Or.inl ⟨e, _, rfl⟩
                  | none => exact Or.inr ⟨text, rfl, rfl⟩

end Calls

/-! ## The two outcomes -/

/-- The change that a plan stands for. -/
def Plan.update (config : Config) : Plan → Update
  | .mailboxCreate name owner => .insertMailbox name (newMailbox config name owner)
  | .mailboxDelete name _ => .removeMailbox name
  | .hookCreate mailbox hook => .pushHook mailbox hook
  | .hookDelete mailbox name => .retainHooks mailbox name

/-- The configuration after a plan. -/
def Plan.result (sha256 : Bytes → Bytes) (plan : Plan) (config : Config) : Config :=
  (plan.update config).apply sha256 config

/-- The plan passes the checks that are made under the locks on the configuration. -/
inductive Commits (env : HandlerEnv) (caller : Caller) (config : Config) : Plan → Prop
  | mailboxCreate {name owner : Str} {ids : UInt32 × UInt32} (hnew : name ∉ config.mailboxes)
      (hids : ownerIds env.users.resolveUser owner = .ok ids) :
      Commits env caller config (.mailboxCreate name owner)
  | mailboxDelete {name : Str} {force : Bool} (hname : name ≠ "catchall".toList)
      (hmem : name ∈ config.mailboxes) (hauth : authorizeDelete env config name caller = .ok ()) :
      Commits env caller config (.mailboxDelete name force)
  | hookCreate {mailbox : Str} {hook : Hook} {mb : MailboxConfig}
      (hmb : config.mailboxes.lookup mailbox = some mb)
      (hvalid : validateHooks env.sha256 (config.pushHook mailbox hook) = .ok ()) :
      Commits env caller config (.hookCreate mailbox hook)
  | hookDelete {mailbox name : Str} {mb : MailboxConfig}
      (hmb : config.mailboxes.lookup mailbox = some mb)
      (hfound : (mb.retainHooks env.sha256 name).hooks.length ≠ mb.hooks.length) :
      Commits env caller config (.hookDelete mailbox name)

section Outcomes

variable {env : HandlerEnv} {faults : Faults} {caller : Caller} {config config' : Config}
  {disk disk' : Disk} {plan : Plan}

theorem createFolders_config {name : Str} :
    (createFolders env faults name disk).1.config = disk.config := by
  have hinbox := @createDirAll_config faults .inbox name disk
  unfold createFolders
  split
  next disk₁ e h => rw [h] at hinbox; exact hinbox
  next disk₁ h =>
      rw [h] at hinbox
      have hsent := @createDirAll_config faults .sent name disk₁
      split
      next disk₂ e h' =>
          rw [h'] at hsent
          dsimp only
          split
          · rw [← hinbox, ← hsent]
          · rw [removeDir_config, ← hinbox, ← hsent]
      next disk₂ h' => rw [h'] at hsent; rw [← hinbox, ← hsent]

/-- Claiming the folders fails and leaves the file alone, or ends in the replacement of the file. -/
theorem claimFolders_cases (env : HandlerEnv) (faults : Faults) (name : Str) (mb : MailboxConfig)
    (config : Config) (disk : Disk) :
    (∃ reject, (claimFolders env faults name mb config disk).2 = .error reject ∧
      (claimFolders env faults name mb config disk).1.config = disk.config) ∨
    ∃ text, env.print config = .ok text ∧
      (claimFolders env faults name mb config disk).2 = .ok () ∧
      (claimFolders env faults name mb config disk).1.config = text := by
  have hinbox := @chownAsOwner_config env faults .inbox name disk mb 0o700
  unfold claimFolders
  split
  next disk₁ e h => rw [h] at hinbox; exact Or.inl ⟨_, rfl, hinbox⟩
  next disk₁ h =>
      rw [h] at hinbox
      have hsent := @chownAsOwner_config env faults .sent name disk₁ mb 0o700
      split
      next disk₂ e h' => rw [h'] at hsent; exact Or.inl ⟨_, rfl, hsent.trans hinbox⟩
      next disk₂ h' =>
          rw [h'] at hsent
          rcases writeAtomic_cases env faults disk₂ config with
            ⟨e, tmpLeft, hwrite⟩ | ⟨text, hprint, hwrite⟩
          · rw [hwrite]
            exact Or.inl ⟨_, rfl, hsent.trans hinbox⟩
          · rw [hwrite]
            exact Or.inr ⟨text, hprint, rfl, rfl⟩

/-- The two outcomes of `handle_create`. -/
theorem handleCreate_cases (env : HandlerEnv) (faults : Faults) (name owner : Str) (config : Config)
    (disk : Disk) :
    (∃ reject, (handleCreate env faults name owner config disk).2 = .error reject ∧
      (handleCreate env faults name owner config disk).1.config = disk.config) ∨
    name ∉ config.mailboxes ∧ (∃ ids, ownerIds env.users.resolveUser owner = .ok ids) ∧
      ∃ text, env.print (config.insertMailbox name (newMailbox config name owner)) = .ok text ∧
        (handleCreate env faults name owner config disk).2 =
          .ok (config.insertMailbox name (newMailbox config name owner)) ∧
        (handleCreate env faults name owner config disk).1.config = text := by
  unfold handleCreate
  by_cases hmem : name ∈ config.mailboxes
  · rw [if_pos hmem]
    exact Or.inl ⟨_, rfl, rfl⟩
  rw [if_neg hmem]
  unfold resolveOwnerIds
  cases hids : ownerIds env.users.resolveUser owner with
  | error e => exact Or.inl ⟨_, rfl, rfl⟩
  | ok ids =>
      obtain ⟨uid, gid⟩ := ids
      dsimp only
      cases checkPreexistingDirs env faults name uid gid disk with
      | some reject => exact Or.inl ⟨_, rfl, rfl⟩
      | none =>
          dsimp only
          have hfolders := @createFolders_config env faults disk name
          split
          next disk₁ reject h => rw [h] at hfolders; exact Or.inl ⟨_, rfl, hfolders⟩
          next disk₁ h =>
              rw [h] at hfolders
              rcases claimFolders_cases env faults name (newMailbox config name owner)
                  (config.insertMailbox name (newMailbox config name owner)) disk₁ with
                ⟨reject, hresult, hconfig⟩ | ⟨text, hprint, hresult, hconfig⟩
              · split
                next disk₂ reject' h' =>
                    rw [h'] at hconfig
                    refine Or.inl ⟨_, rfl, ?_⟩
                    dsimp only
                    rw [rollbackSelfCreatedDirs_config]
                    exact hconfig.trans hfolders
                next disk₂ h' =>
                    rw [h'] at hresult
                    cases hresult
              · split
                next disk₂ reject' h' =>
                    rw [h'] at hresult
                    cases hresult
                next disk₂ h' =>
                    rw [h'] at hconfig
                    exact Or.inr ⟨hmem, ⟨_, rfl⟩, text, hprint, rfl, hconfig⟩

/-- The two outcomes of `handle_delete`. -/
theorem handleDelete_cases (env : HandlerEnv) (faults : Faults) (name : Str) (force : Bool)
    (config : Config) (disk : Disk) :
    (∃ reject, (handleDelete env faults name force config disk).2 = .error reject ∧
      (handleDelete env faults name force config disk).1.config = disk.config) ∨
    name ≠ "catchall".toList ∧ name ∈ config.mailboxes ∧
      ∃ text, env.print (config.removeMailbox name) = .ok text ∧
        (handleDelete env faults name force config disk).2 = .ok (config.removeMailbox name) ∧
        (handleDelete env faults name force config disk).1.config = text := by
  unfold handleDelete
  by_cases hname : name = "catchall".toList
  · rw [if_pos hname]
    exact Or.inl ⟨_, rfl, rfl⟩
  rw [if_neg hname]
  by_cases hmem : name ∈ config.mailboxes
  · rw [if_neg (not_not_intro hmem)]
    have hwipe : (if force then wipeMailboxDirs faults name disk else (disk, .ok ())).1.config =
        disk.config := by
      cases force with
      | false => rfl
      | true => exact wipeMailboxDirs_config
    split
    next disk₁ e h => rw [h] at hwipe; exact Or.inl ⟨_, rfl, hwipe⟩
    next disk₁ h =>
        rw [h] at hwipe
        dsimp only
        split
        · exact Or.inl ⟨_, rfl, hwipe⟩
        · rcases writeAtomic_cases env faults disk₁ (config.removeMailbox name) with
            ⟨e, tmpLeft, hwrite⟩ | ⟨text, hprint, hwrite⟩
          · rw [hwrite]
            exact Or.inl ⟨_, rfl, hwipe⟩
          · rw [hwrite]
            exact Or.inr ⟨hname, hmem, text, hprint, rfl, rfl⟩
  · rw [if_pos hmem]
    exact Or.inl ⟨_, rfl, rfl⟩

/-- The two outcomes of a hook request under its locks. -/
theorem writeBack_cases (env : HandlerEnv) (faults : Faults) (result : Except Reject Config)
    (disk : Disk) :
    (∃ reject, (writeBack env faults result disk).2 = .error reject ∧
      (writeBack env faults result disk).1.config = disk.config ∧
      (writeBack env faults result disk).1.nodes = disk.nodes) ∨
    ∃ c text, result = .ok c ∧ env.print c = .ok text ∧
      (writeBack env faults result disk).2 = .ok c ∧
      (writeBack env faults result disk).1.config = text := by
  cases result with
  | error reject => exact Or.inl ⟨reject, rfl, rfl, rfl⟩
  | ok c =>
      unfold writeBack
      rcases writeAtomic_cases env faults disk c with
        ⟨e, tmpLeft, hwrite⟩ | ⟨text, hprint, hwrite⟩
      · dsimp only
        rw [hwrite]
        exact Or.inl ⟨_, rfl, rfl, rfl⟩
      · dsimp only
        rw [hwrite]
        exact Or.inr ⟨c, text, rfl, hprint, rfl, rfl⟩

/-- What HOOK-CREATE passes under its locks. -/
theorem hookCreateCommit_eq_ok (caller : Caller) {mailbox : Str} {hook : Hook}
    (h : hookCreateCommit env config mailbox hook = .ok config') :
    Commits env caller config (.hookCreate mailbox hook) ∧ config' = config.pushHook mailbox hook := by
  unfold hookCreateCommit at h
  split at h
  next => cases h
  next mb hmb =>
      split at h
      next => cases h
      next hvalid =>
          cases h
          exact ⟨.hookCreate hmb hvalid, rfl⟩

/-- What HOOK-DELETE passes under its locks. -/
theorem hookDeleteCommit_eq_ok (caller : Caller) {mailbox name : Str}
    (h : hookDeleteCommit env config mailbox name = .ok config') :
    Commits env caller config (.hookDelete mailbox name) ∧
      config' = config.retainHooks env.sha256 mailbox name := by
  unfold hookDeleteCommit at h
  split at h
  next => cases h
  next mb hmb =>
      split at h
      next => cases h
      next hfound =>
          cases h
          exact ⟨.hookDelete hmb hfound, rfl⟩

/-- A plan is refused, and the file is as it was; or it commits, and the file is the printed result. -/
theorem Plan.execute_cases (env : HandlerEnv) (faults : Faults) (caller : Caller) (config : Config)
    (disk : Disk) (plan : Plan) :
    (∃ reject, (plan.execute env faults caller config disk).2 = .error reject ∧
      (plan.execute env faults caller config disk).1.config = disk.config) ∨
    Commits env caller config plan ∧
      ∃ text, env.print (plan.result env.sha256 config) = .ok text ∧
        (plan.execute env faults caller config disk).2 = .ok (plan.result env.sha256 config) ∧
        (plan.execute env faults caller config disk).1.config = text := by
  cases plan with
  | mailboxCreate name owner =>
      unfold Plan.execute
      dsimp only
      cases authorize env.users caller.uid (.mailboxCreate caller.uid) none with
      | error e => exact Or.inl ⟨_, rfl, rfl⟩
      | ok u =>
          dsimp only
          rcases handleCreate_cases env faults name owner config disk with h | ⟨hnew, ⟨ids, hids⟩, text, h⟩
          · exact Or.inl h
          · exact Or.inr ⟨.mailboxCreate hnew hids, text, h⟩
  | mailboxDelete name force =>
      unfold Plan.execute
      dsimp only
      cases hauth : authorizeDelete env config name caller with
      | error reject => exact Or.inl ⟨_, rfl, rfl⟩
      | ok u =>
          dsimp only
          rcases handleDelete_cases env faults name force config disk with h | ⟨hname, hmem, text, h⟩
          · exact Or.inl h
          · exact Or.inr ⟨.mailboxDelete hname hmem hauth, text, h⟩
  | hookCreate mailbox hook =>
      rcases writeBack_cases env faults (hookCreateCommit env config mailbox hook) disk with
        ⟨reject, hresult, hconfig, -⟩ | ⟨c, text, hcommit, hprint, hresult, hconfig⟩
      · exact Or.inl ⟨reject, hresult, hconfig⟩
      · obtain ⟨hcommits, rfl⟩ := hookCreateCommit_eq_ok caller hcommit
        exact Or.inr ⟨hcommits, text, hprint, hresult, hconfig⟩
  | hookDelete mailbox name =>
      rcases writeBack_cases env faults (hookDeleteCommit env config mailbox name) disk with
        ⟨reject, hresult, hconfig, -⟩ | ⟨c, text, hcommit, hprint, hresult, hconfig⟩
      · exact Or.inl ⟨reject, hresult, hconfig⟩
      · obtain ⟨hcommits, rfl⟩ := hookDeleteCommit_eq_ok caller hcommit
        exact Or.inr ⟨hcommits, text, hprint, hresult, hconfig⟩

/-- A refused plan leaves the file as it was. -/
theorem Plan.execute_error {reject : Reject}
    (h : plan.execute env faults caller config disk = (disk', .error reject)) :
    disk'.config = disk.config := by
  rcases plan.execute_cases env faults caller config disk with
    ⟨reject', -, hconfig⟩ | ⟨-, text, -, hresult, -⟩
  · rw [h] at hconfig
    exact hconfig
  · rw [h] at hresult
    cases hresult

/-- A plan that is carried out commits, and the file is the printed result. -/
theorem Plan.execute_ok (h : plan.execute env faults caller config disk = (disk', .ok config')) :
    Commits env caller config plan ∧ config' = plan.result env.sha256 config ∧
      env.print config' = .ok disk'.config := by
  rcases plan.execute_cases env faults caller config disk with
    ⟨reject, hresult, -⟩ | ⟨hcommits, text, hprint, hresult, hconfig⟩
  · rw [h] at hresult
    cases hresult
  · rw [h] at hresult hconfig
    cases hresult
    exact ⟨hcommits, rfl, by rw [hprint, ← hconfig]⟩

/-- A request whose plan is carried out is answered OK. -/
theorem handle_of_execute {world : World} {req : ConfigRequest}
    (hcheck : req.check env world.memory caller = .ok plan)
    (hexecute : plan.execute env faults caller world.memory world.disk = (disk', .ok config')) :
    handle env faults world caller req = (⟨config', disk'⟩, .ok) := by
  unfold handle
  rw [hcheck]
  dsimp only
  rw [hexecute]

/-- Without failing calls a configuration that can be printed is written. -/
theorem writeBack_of_print {text : Str} (hprint : env.print config = .ok text) :
    writeBack env (fun _ => none) (.ok config) disk =
      ({ disk with config := text, tmpLeft := false }, .ok config) := by
  unfold writeBack writeAtomic
  dsimp only
  rw [hprint]

/-- A request that is answered OK was checked, commits, and has written the configuration that is in
memory afterwards. -/
theorem handle_eq_ok {world world' : World} {req : ConfigRequest}
    (h : handle env faults world caller req = (world', .ok)) :
    ∃ plan, Checked env caller world.memory req plan ∧ Commits env caller world.memory plan ∧
      world'.memory = plan.result env.sha256 world.memory ∧
      env.print world'.memory = .ok world'.disk.config := by
  unfold handle at h
  split at h
  next => cases h
  next plan hcheck =>
      split at h
      next => cases h
      next disk' config' hexecute =>
          cases h
          obtain ⟨hcommits, hnext, hprint⟩ := Plan.execute_ok hexecute
          exact ⟨plan, ConfigRequest.check_eq_ok hcheck, hcommits, hnext, hprint⟩

end Outcomes

/-! ## Mailboxes and hooks afterwards -/

section Results

variable {env : HandlerEnv} {caller : Caller} {config : Config} {plan : Plan}

/-- The mailboxes after a plan: those before, with other hooks at most, and the new one. -/
theorem Plan.lookup_result {sha256 : Bytes → Bytes} {name : Str} {mb' : MailboxConfig}
    (h : (plan.result sha256 config).mailboxes.lookup name = some mb') :
    (∃ mb hooks, config.mailboxes.lookup name = some mb ∧ mb' = { mb with hooks := hooks }) ∨
      ∃ owner, plan = .mailboxCreate name owner ∧ mb' = newMailbox config name owner := by
  by_cases hname : name = (plan.update config).target
  · cases plan with
    | mailboxCreate target owner =>
        change name = target at hname
        subst hname
        change (config.mailboxes.insert name _).lookup name = _ at h
        rw [AList.lookup_insert, Option.some_inj] at h
        exact Or.inr ⟨owner, rfl, h.symm⟩
    | mailboxDelete target force =>
        change name = target at hname
        subst hname
        change (config.mailboxes.erase name).lookup name = _ at h
        rw [AList.lookup_erase] at h
        cases h
    | hookCreate target hook =>
        change name = target at hname
        change (Table.modify _ _ _).lookup name = _ at h
        rw [Table.lookup_modify, if_pos hname] at h
        obtain ⟨mb, hmb, rfl⟩ := Option.map_eq_some_iff.mp h
        exact Or.inl ⟨mb, _, hmb, rfl⟩
    | hookDelete target hook =>
        change name = target at hname
        change (Table.modify _ _ _).lookup name = _ at h
        rw [Table.lookup_modify, if_pos hname] at h
        obtain ⟨mb, hmb, rfl⟩ := Option.map_eq_some_iff.mp h
        exact Or.inl ⟨mb, _, hmb, rfl⟩
  · have hsame := (Update.sameBut_apply sha256 config (plan.update config)).mailboxes name hname
    exact Or.inl ⟨mb', mb'.hooks, hsame.symm.trans h, rfl⟩

/-- The hooks after a plan: those before, and the new one. -/
theorem Commits.mem_allHooks_result (hcommits : Commits env caller config plan) {h : Str × Hook}
    (hmem : h ∈ (plan.result env.sha256 config).allHooks) :
    h ∈ config.allHooks ∨ plan = .hookCreate h.1 h.2 := by
  cases hcommits with
  | @mailboxCreate name owner ids hnew hids =>
      change h ∈ (config.insertMailbox name (newMailbox config name owner)).allHooks at hmem
      rw [Config.allHooks_insertMailbox hnew rfl] at hmem
      exact Or.inl hmem
  | @mailboxDelete name force hname hmem' hauth =>
      change h ∈ (config.removeMailbox name).allHooks at hmem
      rw [Config.allHooks_removeMailbox] at hmem
      exact Or.inl (List.mem_of_mem_filter hmem)
  | @hookCreate mailbox hook mb hmb hvalid =>
      have hperm := (Config.allHooks_pushHook hmb hook).mem_iff.mp hmem
      rcases List.mem_cons.mp hperm with rfl | hold
      · exact Or.inr rfl
      · exact Or.inl hold
  | @hookDelete mailbox name mb hmb hfound =>
      change h ∈ (config.retainHooks env.sha256 mailbox name).allHooks at hmem
      rw [Config.allHooks_retainHooks] at hmem
      exact Or.inl (List.mem_of_mem_filter hmem)

end Results

end Daemon
end Aimx
