import Aimx.Daemon.Commit

/-!
# What a failing creation leaves behind

A creation makes two folders, changes their owner and writes the configuration, and takes back the folders
that it made when a later call fails.

* `messages_createDirAll`, `messages_removeDir`, `messages_chownAsOwner` — what the calls do to the messages;
* `TakenBack`, `takeBack_messages_iff` — when the removal of a folder restores what was there before;
* `Admits`, `Claims`, `Writes` — the conditions on the calls, one for each part of the request;
* `CreateSucceeds`, `CreateRestores` — the calls with which a creation is carried out, and those behind which
  a refused one leaves folders and messages as they were;
* `handleCreate_outcome` — both are exact.
-/

namespace Aimx
namespace Daemon

open Text Protocol

/-! ## Single calls -/

section Calls

variable {env : HandlerEnv} {faults : Faults} {side : Side} {name : Str} {disk : Disk}

/-- The entries of a node, if it is a folder. -/
def entriesOf : Option Node → Option (List (Str × Item))
  | some (.folder f) => some f.entries
  | _ => none

theorem Disk.messages_eq (s : Side) (n : Str) : disk.messages s n = entriesOf (disk.nodes s n) := by
  unfold Disk.messages entriesOf
  rcases disk.nodes s n with - | - | - <;> rfl

theorem Disk.messages_set (node : Option Node) (s : Side) (n : Str) :
    (disk.set side name node).messages s n =
      if s = side ∧ n = name then entriesOf node else disk.messages s n := by
  rw [Disk.messages_eq, Disk.messages_eq]
  show entriesOf (if s = side ∧ n = name then node else disk.nodes s n) = _
  split <;> rfl

/-- A folder that is replaced by one with the same entries. -/
theorem Disk.messages_set_folder {f g : Folder} (hnode : disk.nodes side name = some (.folder f))
    (hentries : g.entries = f.entries) (s : Side) (n : Str) :
    (disk.set side name (some (.folder g))).messages s n = disk.messages s n := by
  rw [Disk.messages_set]
  split
  next h =>
      obtain ⟨rfl, rfl⟩ := h
      rw [Disk.messages_eq, hnode]
      exact congrArg some hentries
  next => rfl

theorem Disk.messages_chown (uid gid : UInt32) (s : Side) (n : Str) :
    (disk.chown side name uid gid).messages s n = disk.messages s n := by
  unfold Disk.chown
  split
  next f hnode => exact Disk.messages_set_folder hnode (by rfl) s n
  next => rfl

theorem Disk.messages_chmod (mode : Nat) (s : Side) (n : Str) :
    (disk.chmod side name mode).messages s n = disk.messages s n := by
  unfold Disk.chmod
  split
  next f hnode => exact Disk.messages_set_folder hnode (by rfl) s n
  next => rfl

theorem messages_chownAsOwner {mb : MailboxConfig} {mode : Nat} (s : Side) (n : Str) :
    (chownAsOwner env faults side name mb mode disk).1.messages s n = disk.messages s n := by
  unfold chownAsOwner
  split
  · rfl
  · split
    · rfl
    · split
      · exact Disk.messages_chown _ _ s n
      · rw [Disk.messages_chmod, Disk.messages_chown]

theorem messages_writeAtomic {config : Config} (s : Side) (n : Str) :
    (writeAtomic env faults config disk).1.messages s n = disk.messages s n := by
  rcases writeAtomic_cases env faults disk config with ⟨e, tmpLeft, hwrite⟩ | ⟨text, hprint, hwrite⟩
  · rw [hwrite]
    rfl
  · rw [hwrite]
    rfl

/-- An empty folder appears where nothing was. -/
theorem messages_createDirAll (hmkdir : faults (.mkdir side) = none) (s : Side) (n : Str) :
    (createDirAll faults side name disk).1.messages s n =
      if s = side ∧ n = name ∧ disk.nodes side name = none then some [] else disk.messages s n := by
  unfold createDirAll
  rw [hmkdir]
  dsimp only
  cases hnode : disk.nodes side name with
  | some node => rw [if_neg fun h => by cases h.2.2]
  | none =>
      dsimp only
      rw [Disk.messages_set]
      simp only [and_true]
      rfl

theorem createDirAll_ok_iff :
    (createDirAll faults side name disk).2 = .ok () ↔ faults (.mkdir side) = none := by
  unfold createDirAll
  cases faults (.mkdir side) with
  | some e => exact iff_of_false (fun h => by cases h) (fun h => by cases h)
  | none =>
      refine iff_of_true ?_ rfl
      dsimp only
      split <;> rfl

/-- An empty folder disappears. -/
theorem messages_removeDir (s : Side) (n : Str) :
    (removeDir faults side name disk).messages s n =
      if s = side ∧ n = name ∧ faults (.rmdir side) = none ∧ disk.messages side name = some [] then none
      else disk.messages s n := by
  unfold removeDir
  cases hrmdir : faults (.rmdir side) with
  | some e => rw [if_neg fun h => by cases h.2.2.1]
  | none =>
      dsimp only
      rw [Disk.messages_eq side name]
      split
      next f hnode =>
          rw [hnode]
          by_cases hempty : f.entries = []
          · have hsome : entriesOf (some (.folder f)) = some [] := congrArg some hempty
            rw [if_pos (List.isEmpty_iff.mpr hempty), Disk.messages_set, hsome]
            simp only [and_true]
            rfl
          · rw [if_neg (fun h => hempty (List.isEmpty_iff.mp h)),
              if_neg (fun h => hempty (Option.some.inj h.2.2.2))]
      next hnode =>
          rw [if_neg]
          rintro ⟨-, -, -, hsome⟩
          cases hn : disk.nodes side name with
          | none => rw [hn] at hsome; cases hsome
          | some node =>
              cases node with
              | folder f => exact hnode f hn
              | other => rw [hn] at hsome; cases hsome

/-- The configuration can be printed, and no call of its writing fails. -/
def Writes (env : HandlerEnv) (faults : Faults) (config : Config) : Prop :=
  (∃ text, env.print config = .ok text) ∧
    ∀ call ∈ [Call.createTmp, .writeTmp, .syncTmp, .rename], faults call = none

theorem writeAtomic_ok_iff {config : Config} :
    (writeAtomic env faults config disk).2 = .ok () ↔ Writes env faults config := by
  unfold writeAtomic Writes
  cases env.print config with
  | error e =>
      refine iff_of_false (fun h => by cases h) (fun h => ?_)
      obtain ⟨⟨text, htext⟩, -⟩ := h
      cases htext
  | ok text =>
      simp only [Except.ok.injEq, exists_eq', true_and, List.mem_cons, List.not_mem_nil, or_false,
        forall_eq_or_imp, forall_eq]
      cases faults .createTmp with
      | some e => simp
      | none =>
          cases faults .writeTmp with
          | some e => simp
          | none =>
              cases faults .syncTmp with
              | some e => simp
              | none => cases faults .rename <;> simp

theorem chownAsOwner_ok_iff {mb : MailboxConfig} {mode : Nat} {ids : UInt32 × UInt32}
    (hids : ownerIds env.users.resolveUser mb.owner = .ok ids) :
    (chownAsOwner env faults side name mb mode disk).2 = .ok () ↔
      faults (.chown side) = none ∧ faults (.chmod side) = none := by
  unfold chownAsOwner
  rw [hids]
  dsimp only
  cases faults (.chown side) with
  | some e => simp
  | none => cases faults (.chmod side) <;> simp

end Calls

/-! ## A creation -/

section Creation

variable {env : HandlerEnv} {faults : Faults} {name owner : Str} {config : Config} {disk disk' : Disk}
  {ids : UInt32 × UInt32}

/-- The checks of a creation before its first change: a new name, an owner that can be resolved, and folders
that are absent or the owner's. -/
def Admits (env : HandlerEnv) (faults : Faults) (name owner : Str) (config : Config) (disk : Disk) : Prop :=
  name ∉ config.mailboxes ∧ ∃ ids, ownerIds env.users.resolveUser owner = .ok ids ∧
    checkPreexistingDirs env faults name ids.1 ids.2 disk = none

/-- No call fails between the creation of the folders and the answer. -/
def Claims (env : HandlerEnv) (faults : Faults) (name owner : Str) (config : Config) : Prop :=
  (∀ side, faults (.chown side) = none ∧ faults (.chmod side) = none) ∧
    Writes env faults (config.insertMailbox name (newMailbox config name owner))

/-- What a creation does to a folder is undone by the rollback: a folder that it made can be removed, and one
that was there is seen, cannot be removed, or is not empty. -/
def TakenBack (faults : Faults) (name : Str) (disk : Disk) (side : Side) : Prop :=
  match disk.messages side name with
  | none => faults (.rmdir side) = none
  | some entries => faults (.stat side) = none ∨ faults (.rmdir side) ≠ none ∨ entries ≠ []

/-- Where the check of the folders passes there are folders or nothing. -/
theorem nodes_of_checkPreexistingDirs {uid gid : UInt32}
    (h : checkPreexistingDirs env faults name uid gid disk = none) (side : Side) :
    disk.nodes side name = none ↔ disk.messages side name = none := by
  have hside : checkPreexistingDir env faults name uid gid disk side = none := by
    rw [checkPreexistingDirs, List.findSome?_eq_none_iff] at h
    exact h side (by cases side <;> simp)
  rw [Disk.messages_eq]
  unfold checkPreexistingDir at hside
  cases hlstat : faults (.lstat side) with
  | some e => simp [hlstat] at hside
  | none =>
      rw [hlstat] at hside
      cases hnode : disk.nodes side name with
      | none => exact iff_of_true rfl rfl
      | some node =>
          cases node with
          | folder f => exact iff_of_false (fun h => by cases h) (fun h => by cases h)
          | other => simp [hnode] at hside

/-- One folder made and taken back. -/
theorem takeBack_messages_iff {side : Side}
    (hplain : disk.nodes side name = none ↔ disk.messages side name = none)
    (hmade : disk'.messages side name = some ((disk.messages side name).getD [])) :
    (if pathExists faults side name disk then disk'
      else removeDir faults side name disk').messages side name = disk.messages side name ↔
        TakenBack faults name disk side := by
  have hexists : pathExists faults side name disk =
      ((faults (.stat side)).isNone && (disk.messages side name).isSome) := by
    rw [pathExists]
    congr 1
    rw [Bool.eq_iff_iff, Option.isSome_iff_ne_none, Option.isSome_iff_ne_none]
    exact not_congr hplain
  rw [hexists]
  unfold TakenBack
  cases hbefore : disk.messages side name with
  | none =>
      rw [hbefore] at hmade
      rw [Option.isSome_none, Bool.and_false, if_neg (by decide), messages_removeDir, hmade]
      simp
  | some entries =>
      rw [hbefore, Option.getD_some] at hmade
      cases hstat : faults (.stat side) with
      | none => simp [hmade]
      | some e =>
          rw [Option.isNone_some, Bool.false_and, if_neg (by decide), messages_removeDir, hmade]
          simp only [true_and, Option.some.injEq]
          split
          next h => simp [h.1, h.2]
          next h =>
              refine iff_of_true rfl (Or.inr ?_)
              by_cases hrmdir : faults (.rmdir side) = none
              · exact Or.inr fun hnil => h ⟨hrmdir, hnil⟩
              · exact Or.inl hrmdir

/-- A folder of another place survives it. -/
theorem takeBack_messages_other {side s : Side} {n : Str} (hother : ¬ (s = side ∧ n = name))
    (existed : Bool) :
    (if existed then disk' else removeDir faults side name disk').messages s n = disk'.messages s n := by
  split
  · rfl
  · rw [messages_removeDir, if_neg fun h => hother ⟨h.1, h.2.1⟩]

/-- The rollback of both folders. -/
theorem rollback_sameFolders_iff
    (hplain : ∀ side, disk.nodes side name = none ↔ disk.messages side name = none)
    (hmade : ∀ side, disk'.messages side name = some ((disk.messages side name).getD []))
    (hother : ∀ s n, n ≠ name → disk'.messages s n = disk.messages s n) :
    disk.SameFolders (rollbackSelfCreatedDirs faults name (pathExists faults .inbox name disk)
        (pathExists faults .sent name disk) disk') ↔
      TakenBack faults name disk .inbox ∧ TakenBack faults name disk .sent := by
  unfold rollbackSelfCreatedDirs
  dsimp only
  have hmade' : (if pathExists faults .inbox name disk then disk' else
      removeDir faults .inbox name disk').messages .sent name =
        some ((disk.messages .sent name).getD []) := by
    rw [takeBack_messages_other (by simp), hmade]
  rw [← takeBack_messages_iff (hplain .inbox) (hmade .inbox), ← takeBack_messages_iff (hplain .sent) hmade']
  constructor
  · intro hsame
    refine ⟨?_, hsame .sent name⟩
    exact (@takeBack_messages_other faults name _ .sent .inbox name (by simp) _).symm.trans
      (hsame .inbox name)
  · rintro ⟨hinbox, hsent⟩ s n
    by_cases hn : n = name
    · subst hn
      cases s with
      | inbox => rw [takeBack_messages_other (by simp), hinbox]
      | sent => exact hsent
    · rw [takeBack_messages_other (fun h => hn h.2), takeBack_messages_other (fun h => hn h.2), hother s n hn]

/-- Both folders are made. -/
theorem createFolders_made (hmkdir : ∀ side, faults (.mkdir side) = none)
    (hplain : ∀ side, disk.nodes side name = none ↔ disk.messages side name = none) :
    ∃ disk', createFolders env faults name disk = (disk', .ok ()) ∧
      (∀ side, disk'.messages side name = some ((disk.messages side name).getD [])) ∧
      ∀ s n, n ≠ name → disk'.messages s n = disk.messages s n := by
  have hinbox := @createDirAll_ok_iff faults .inbox name disk
  have hsent := @createDirAll_ok_iff faults .sent name (createDirAll faults .inbox name disk).1
  have hmessages := fun s n => @messages_createDirAll faults .inbox name disk (hmkdir .inbox) s n
  have hmessages' := fun s n => @messages_createDirAll faults .sent name
    (createDirAll faults .inbox name disk).1 (hmkdir .sent) s n
  have hnodes : (createDirAll faults .inbox name disk).1.nodes .sent name = disk.nodes .sent name := by
    unfold createDirAll
    rw [hmkdir]
    cases disk.nodes .inbox name <;> rfl
  refine ⟨(createDirAll faults .sent name (createDirAll faults .inbox name disk).1).1, ?_, fun side => ?_,
    fun s n hn => ?_⟩
  · unfold createFolders
    rw [← Prod.eta (createDirAll faults .inbox name disk), hinbox.mpr (hmkdir .inbox)]
    dsimp only
    rw [← Prod.eta (createDirAll faults .sent name _), hsent.mpr (hmkdir .sent)]
  · rw [hmessages', hmessages, hnodes]
    cases side with
    | inbox =>
        rw [if_neg (by simp)]
        simp only [true_and, hplain]
        cases disk.messages .inbox name <;> simp
    | sent =>
        rw [if_neg (fun h : Side.sent = Side.inbox ∧ _ => by cases h.1)]
        simp only [true_and, hplain]
        cases disk.messages .sent name <;> simp
  · rw [hmessages', hmessages, if_neg (fun h => hn h.2.1), if_neg (fun h => hn h.2.1)]

/-- The first folder is made, and the second is not. -/
theorem createFolders_half (hinbox : faults (.mkdir .inbox) = none) (hsent : faults (.mkdir .sent) ≠ none)
    (hplain : ∀ side, disk.nodes side name = none ↔ disk.messages side name = none) :
    ∃ disk' reject, createFolders env faults name disk = (disk', .error reject) ∧
      (disk.SameFolders disk' ↔ TakenBack faults name disk .inbox) := by
  obtain ⟨e, he⟩ := Option.ne_none_iff_exists'.mp hsent
  have hok := (@createDirAll_ok_iff faults .inbox name disk).mpr hinbox
  have hmessages := fun s n => @messages_createDirAll faults .inbox name disk hinbox s n
  have hmade : (createDirAll faults .inbox name disk).1.messages .inbox name =
      some ((disk.messages .inbox name).getD []) := by
    rw [hmessages]
    simp only [true_and, hplain]
    cases disk.messages .inbox name <;> simp
  have hfail : createDirAll faults .sent name (createDirAll faults .inbox name disk).1 =
      ((createDirAll faults .inbox name disk).1, .error e) := by
    generalize (createDirAll faults .inbox name disk).1 = disk₁
    rw [createDirAll, he]
  refine ⟨if pathExists faults .inbox name disk then (createDirAll faults .inbox name disk).1 else
    removeDir faults .inbox name (createDirAll faults .inbox name disk).1, ⟨.io, "failed to create ".toList ++
      env.folderPath .sent name ++ ": ".toList ++ e⟩, ?_, ?_⟩
  · unfold createFolders
    rw [← Prod.eta (createDirAll faults .inbox name disk), hok]
    dsimp only
    rw [hfail]
  · rw [← takeBack_messages_iff (hplain .inbox) hmade]
    constructor
    · exact fun hsame => hsame .inbox name
    · intro hback s n
      by_cases hplace : s = .inbox ∧ n = name
      · obtain ⟨rfl, rfl⟩ := hplace
        exact hback
      · rw [takeBack_messages_other hplace, hmessages, if_neg fun h => hplace ⟨h.1, h.2.1⟩]

theorem messages_claimFolders {mb : MailboxConfig} (s : Side) (n : Str) :
    (claimFolders env faults name mb config disk).1.messages s n = disk.messages s n := by
  have hinbox := fun d => @messages_chownAsOwner env faults .inbox name d mb 0o700 s n
  have hsent := fun d => @messages_chownAsOwner env faults .sent name d mb 0o700 s n
  unfold claimFolders
  split
  next disk₁ e h =>
      have hmessages := hinbox disk
      rw [h] at hmessages
      exact hmessages
  next disk₁ h =>
      have hmessages := hinbox disk
      rw [h] at hmessages
      split
      next disk₂ e h' =>
          have hmessages' := hsent disk₁
          rw [h'] at hmessages'
          exact hmessages'.trans hmessages
      next disk₂ h' =>
          have hmessages' := hsent disk₁
          rw [h'] at hmessages'
          have hwrite := @messages_writeAtomic env faults disk₂ config s n
          split
          all_goals
            next disk₃ _ hw =>
                rw [hw] at hwrite
                exact hwrite.trans (hmessages'.trans hmessages)

theorem claimFolders_ok_iff {mb : MailboxConfig} (hids : ownerIds env.users.resolveUser mb.owner = .ok ids) :
    (claimFolders env faults name mb config disk).2 = .ok () ↔
      (∀ side, faults (.chown side) = none ∧ faults (.chmod side) = none) ∧ Writes env faults config := by
  have hinbox := @chownAsOwner_ok_iff env faults .inbox name disk mb 0o700 ids hids
  have hsent := fun d => @chownAsOwner_ok_iff env faults .sent name d mb 0o700 ids hids
  unfold claimFolders
  split
  next disk₁ e h =>
      rw [h] at hinbox
      refine iff_of_false (fun hok => by cases hok) (fun hall => ?_)
      cases hinbox.mpr (hall.1 .inbox)
  next disk₁ h =>
      rw [h] at hinbox
      have hinbox' := hinbox.mp rfl
      split
      next disk₂ e h' =>
          have hsent' := hsent disk₁
          rw [h'] at hsent'
          refine iff_of_false (fun hok => by cases hok) (fun hall => ?_)
          cases hsent'.mpr (hall.1 .sent)
      next disk₂ h' =>
          have hsent' := hsent disk₁
          rw [h'] at hsent'
          have hall : ∀ side, faults (.chown side) = none ∧ faults (.chmod side) = none := by
            intro side
            cases side with
            | inbox => exact hinbox'
            | sent => exact hsent'.mp rfl
          have hwrite := @writeAtomic_ok_iff env faults disk₂ config
          split
          next disk₃ e hw =>
              rw [hw] at hwrite
              exact iff_of_false (fun hok => by cases hok) (fun hboth => by cases hwrite.mpr hboth.2)
          next disk₃ hw =>
              rw [hw] at hwrite
              exact iff_of_true rfl ⟨hall, hwrite.mp rfl⟩

/-- A creation that is not admitted has done nothing. -/
theorem handleCreate_of_not_admits (h : ¬ Admits env faults name owner config disk) :
    ∃ reject, handleCreate env faults name owner config disk = (disk, .error reject) := by
  unfold handleCreate
  by_cases hmem : name ∈ config.mailboxes
  · rw [if_pos hmem]
    exact ⟨_, rfl⟩
  rw [if_neg hmem]
  unfold resolveOwnerIds
  cases hids : ownerIds env.users.resolveUser owner with
  | error e => exact ⟨_, rfl⟩
  | ok ids =>
      obtain ⟨uid, gid⟩ := ids
      dsimp only
      cases hcheck : checkPreexistingDirs env faults name uid gid disk with
      | some reject => exact ⟨_, rfl⟩
      | none => exact absurd ⟨hmem, _, hids, hcheck⟩ h

/-- What a creation that is admitted does. -/
theorem Admits.handleCreate_eq (h : Admits env faults name owner config disk) :
    handleCreate env faults name owner config disk =
      match createFolders env faults name disk with
      | (disk', .error reject) => (disk', .error reject)
      | (disk', .ok ()) =>
          match claimFolders env faults name (newMailbox config name owner)
              (config.insertMailbox name (newMailbox config name owner)) disk' with
          | (disk'', .error reject) =>
              (rollbackSelfCreatedDirs faults name (pathExists faults .inbox name disk)
                (pathExists faults .sent name disk) disk'', .error reject)
          | (disk'', .ok ()) => (disk'', .ok (config.insertMailbox name (newMailbox config name owner))) := by
  obtain ⟨hmem, ⟨uid, gid⟩, hids, hcheck⟩ := h
  unfold handleCreate
  rw [if_neg hmem, resolveOwnerIds, hids]
  dsimp only at hcheck ⊢
  generalize checkPreexistingDirs env faults name uid gid disk = existing at hcheck ⊢
  subst hcheck
  rfl

/-- The calls behind which a refused creation leaves the folders as they were. -/
def CreateRestores (env : HandlerEnv) (faults : Faults) (name owner : Str) (config : Config) (disk : Disk) :
    Prop :=
  Admits env faults name owner config disk → faults (.mkdir .inbox) = none →
    (faults (.mkdir .sent) ≠ none → TakenBack faults name disk .inbox) ∧
    (faults (.mkdir .sent) = none → ¬ Claims env faults name owner config →
      TakenBack faults name disk .inbox ∧ TakenBack faults name disk .sent)

/-- The calls with which a creation is carried out. -/
def CreateSucceeds (env : HandlerEnv) (faults : Faults) (name owner : Str) (config : Config) (disk : Disk) :
    Prop :=
  Admits env faults name owner config disk ∧ (∀ side, faults (.mkdir side) = none) ∧
    Claims env faults name owner config

/-- A creation is carried out, or refused; and refused, it leaves the folders as they were exactly if what it
made is taken back. -/
theorem handleCreate_outcome (env : HandlerEnv) (faults : Faults) (name owner : Str) (config : Config)
    (disk : Disk) :
    (CreateSucceeds env faults name owner config disk ∧
      CreateRestores env faults name owner config disk ∧
      (handleCreate env faults name owner config disk).2 =
        .ok (config.insertMailbox name (newMailbox config name owner))) ∨
    (¬ CreateSucceeds env faults name owner config disk ∧
      (∃ reject, (handleCreate env faults name owner config disk).2 = .error reject) ∧
      (disk.SameFolders (handleCreate env faults name owner config disk).1 ↔
        CreateRestores env faults name owner config disk)) := by
  by_cases hadmits : Admits env faults name owner config disk
  swap
  · obtain ⟨reject, heq⟩ := handleCreate_of_not_admits hadmits
    rw [heq]
    exact Or.inr ⟨fun h => hadmits h.1, ⟨reject, rfl⟩,
      iff_of_true (fun s n => rfl) fun h => absurd h hadmits⟩
  have heq := hadmits.handleCreate_eq
  obtain ⟨-, ids, hids, hcheck⟩ := id hadmits
  have hplain := nodes_of_checkPreexistingDirs hcheck
  cases hinbox : faults (.mkdir .inbox) with
  | some e =>
      have hnone : ∃ reject, createFolders env faults name disk = (disk, .error reject) := by
        unfold createFolders createDirAll
        rw [hinbox]
        exact ⟨_, rfl⟩
      obtain ⟨reject, hnone⟩ := hnone
      rw [hnone] at heq
      rw [heq]
      refine Or.inr ⟨fun h => ?_, ⟨reject, rfl⟩, iff_of_true (fun s n => rfl) fun _ h => ?_⟩
      · exact absurd (hinbox.symm.trans (h.2.1 .inbox)) (by simp)
      · exact absurd (hinbox.symm.trans h) (by simp)
  | none =>
      by_cases hsent : faults (.mkdir .sent) = none
      swap
      · obtain ⟨disk', reject, hhalf, hsame⟩ := @createFolders_half env faults name disk hinbox hsent hplain
        rw [hhalf] at heq
        rw [heq]
        refine Or.inr ⟨fun h => hsent (h.2.1 .sent), ⟨reject, rfl⟩, hsame.trans ?_⟩
        exact ⟨fun hback _ _ => ⟨fun _ => hback, fun h => absurd h hsent⟩,
          fun h => (h hadmits hinbox).1 hsent⟩
      have hmkdir : ∀ side, faults (.mkdir side) = none := by
        intro side
        cases side with
        | inbox => exact hinbox
        | sent => exact hsent
      obtain ⟨disk', hmade, hmessages, hother⟩ := @createFolders_made env faults name disk hmkdir hplain
      rw [hmade] at heq
      dsimp only at heq
      have hclaims := @claimFolders_ok_iff env faults name
        (config.insertMailbox name (newMailbox config name owner)) disk' ids
        (newMailbox config name owner) hids
      have hkept := fun s n => @messages_claimFolders env faults name
        (config.insertMailbox name (newMailbox config name owner)) disk' (newMailbox config name owner) s n
      generalize hclaim : claimFolders env faults name (newMailbox config name owner)
        (config.insertMailbox name (newMailbox config name owner)) disk' = outcome at heq hclaims hkept
      obtain ⟨disk'', result⟩ := outcome
      cases result with
      | ok u =>
          have hall : Claims env faults name owner config := hclaims.mp rfl
          rw [heq]
          refine Or.inl ⟨⟨hadmits, hmkdir, hall⟩, fun _ _ => ⟨fun h => absurd hsent h, fun _ h => ?_⟩, rfl⟩
          exact absurd hall h
      | error reject =>
          have hnone : ¬ Claims env faults name owner config := fun h => (by cases hclaims.mpr h)
          rw [heq]
          have hback := @rollback_sameFolders_iff faults name disk disk'' hplain
            (fun side => (hkept side name).trans (hmessages side))
            (fun s n hn => (hkept s n).trans (hother s n hn))
          refine Or.inr ⟨fun h => hnone h.2.2, ⟨reject, rfl⟩, hback.trans ?_⟩
          exact ⟨fun h _ _ => ⟨fun h' => absurd hsent h', fun _ _ => h⟩,
            fun h => (h hadmits hinbox).2 hsent hnone⟩

end Creation

end Daemon
end Aimx
