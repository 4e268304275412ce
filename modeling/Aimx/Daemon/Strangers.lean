import Aimx.Daemon.Listings
import Aimx.Daemon.Privacy
import Aimx.Transition.Machines

/-!
# Strangers do not change what a user sees

Requests and mail of other users may create, change and delete their own mailboxes.  The listings of a user
that is not root stay the same through every sequence of them, whichever calls fail.

* `Stranger` — a caller that is neither root nor the user, under any name;
* `Spares` — what a call on one mailbox name leaves alone;
* `Apart` — no folder of another user's mailbox belongs to the user;
* `isolated_request` — one request of a stranger;
* `listings_isolated` — any sequence of requests and writes of strangers.
-/

namespace Aimx
namespace Daemon

open Text Transition

/-! ## Strangers -/

/-- A caller that is neither root nor the user: its name, if it resolves, is of another uid. -/
structure Stranger (db : UserDb) (uid : UInt32) (caller : Caller) : Prop where
  nonRoot : caller.uid ≠ 0
  apart : caller.uid ≠ uid
  name : ∀ owner ids, caller.passwdName = some owner → ownerIds db.resolveUser owner = .ok ids → ids.1 ≠ uid

/-- The inbox folder of a name, if there is one, does not belong to the user. -/
def NotHers (uid : UInt32) (name : Str) (disk : Disk) : Prop := inboxOwnerUid disk name ≠ some uid

/-- A change of the folders of one name alone, which does not give the inbox folder to the user. -/
structure Spares (uid : UInt32) (name : Str) (disk disk' : Disk) : Prop where
  others : ∀ side n, n ≠ name → disk'.nodes side n = disk.nodes side n
  notHers : NotHers uid name disk → NotHers uid name disk'

section Calls

variable {env : HandlerEnv} {faults : Faults} {uid : UInt32} {name : Str} {disk disk' : Disk}

theorem Spares.refl (uid : UInt32) (name : Str) (disk : Disk) : Spares uid name disk disk :=
  ⟨fun _ _ _ => rfl, id⟩

theorem Spares.trans {disk'' : Disk} (h : Spares uid name disk disk') (h' : Spares uid name disk' disk'') :
    Spares uid name disk disk'' :=
  ⟨fun side n hn => (h'.others side n hn).trans (h.others side n hn), fun hn => h'.notHers (h.notHers hn)⟩

/-- Where the nodes stay, everything is spared. -/
theorem Spares.of_nodes (h : disk'.nodes = disk.nodes) : Spares uid name disk disk' := by
  refine ⟨fun side n _ => by rw [h], fun hn => ?_⟩
  unfold NotHers inboxOwnerUid at hn ⊢
  rwa [h]

/-- A node replaced by one that is a folder of the user only where the folder before it was. -/
theorem Spares.set (side : Side) {node : Option Node}
    (h : side = .inbox → NotHers uid name disk → ∀ f, node = some (.folder f) → f.uid ≠ uid) :
    Spares uid name disk (disk.set side name node) := by
  refine ⟨fun s n hn => if_neg fun hsame => hn hsame.2, fun hn => ?_⟩
  unfold NotHers inboxOwnerUid at hn ⊢
  -- only the inbox folder tells whose a name is
  by_cases hside : side = .inbox
  · subst hside
    have hnode : (disk.set .inbox name node).nodes .inbox name = node := if_pos ⟨rfl, rfl⟩
    have hsafe := h rfl hn
    rw [hnode]
    cases node with
    | none => simp
    | some node =>
        cases node with
        | folder f =>
            have hne := hsafe f rfl
            simpa using hne
        | other => simp
  · have hnode : (disk.set side name node).nodes .inbox name = disk.nodes .inbox name :=
      if_neg fun hsame => hside hsame.1.symm
    rwa [hnode]

theorem spares_createDirAll (huid : uid ≠ 0) (side : Side) :
    Spares uid name disk (createDirAll faults side name disk).1 := by
  unfold createDirAll
  split
  · exact Spares.refl uid name disk
  · split
    · exact Spares.refl uid name disk
    · apply Spares.set
      intro _ _ f hf
      cases hf
      exact huid.symm

theorem spares_removeDir (side : Side) : Spares uid name disk (removeDir faults side name disk) := by
  unfold removeDir
  split
  · exact Spares.refl uid name disk
  · split
    · split
      · apply Spares.set
        intro _ _ f hf
        cases hf
      · exact Spares.refl uid name disk
    · exact Spares.refl uid name disk

theorem spares_chown (side : Side) {owner gid : UInt32} (howner : owner ≠ uid) :
    Spares uid name disk (disk.chown side name owner gid) := by
  unfold Disk.chown
  split
  · apply Spares.set
    intro _ _ g hg
    cases hg
    exact howner
  · exact Spares.refl uid name disk

/-- A change of a folder that keeps its owner. -/
theorem Spares.set_folder (side : Side) {f g : Folder} (hnode : disk.nodes side name = some (.folder f))
    (howner : g.uid = f.uid) : Spares uid name disk (disk.set side name (some (.folder g))) := by
  apply Spares.set
  rintro rfl hn g' hg'
  cases hg'
  unfold NotHers inboxOwnerUid at hn
  rw [hnode] at hn
  simpa [howner] using hn

theorem spares_chmod (side : Side) (mode : Nat) : Spares uid name disk (disk.chmod side name mode) := by
  unfold Disk.chmod
  split
  next f hnode => exact Spares.set_folder side hnode rfl
  next => exact Spares.refl uid name disk

theorem spares_chownAsOwner (side : Side) {mb : MailboxConfig} {mode : Nat}
    (howner : ∀ ids, ownerIds env.users.resolveUser mb.owner = .ok ids → ids.1 ≠ uid) :
    Spares uid name disk (chownAsOwner env faults side name mb mode disk).1 := by
  unfold chownAsOwner
  split
  next => exact Spares.refl uid name disk
  next owner gid hids =>
      have hchown : Spares uid name disk (disk.chown side name owner gid) := spares_chown side (howner _ hids)
      split
      · exact Spares.refl uid name disk
      · split
        · exact hchown
        · exact hchown.trans (spares_chmod side mode)

theorem spares_writeAtomic {config : Config} :
    Spares uid name disk (writeAtomic env faults config disk).1 := by
  rcases writeAtomic_cases env faults disk config with ⟨e, tmpLeft, hwrite⟩ | ⟨text, -, hwrite⟩
  · rw [hwrite]
    exact Spares.of_nodes rfl
  · rw [hwrite]
    exact Spares.of_nodes rfl

theorem spares_wipeMailboxContents (side : Side) :
    Spares uid name disk (wipeMailboxContents faults side name disk).1 := by
  unfold wipeMailboxContents
  split
  next => exact Spares.refl uid name disk
  next =>
      split
      next => exact Spares.refl uid name disk
      next => exact Spares.refl uid name disk
      next f hnode => exact Spares.set_folder side hnode rfl

theorem spares_wipeMailboxDirs : Spares uid name disk (wipeMailboxDirs faults name disk).1 := by
  have hinbox : Spares uid name disk (wipeMailboxContents faults .inbox name disk).1 :=
    spares_wipeMailboxContents .inbox
  unfold wipeMailboxDirs
  split
  next disk₁ e h => rwa [h] at hinbox
  next disk₁ h =>
      rw [h] at hinbox
      exact hinbox.trans (spares_wipeMailboxContents .sent)

theorem spares_rollback (inboxExisted sentExisted : Bool) :
    Spares uid name disk (rollbackSelfCreatedDirs faults name inboxExisted sentExisted disk) := by
  unfold rollbackSelfCreatedDirs
  cases inboxExisted
  · cases sentExisted
    · exact (spares_removeDir .inbox).trans (spares_removeDir .sent)
    · exact spares_removeDir .inbox
  · cases sentExisted
    · exact spares_removeDir .sent
    · exact Spares.refl uid name disk

theorem spares_createFolders (huid : uid ≠ 0) :
    Spares uid name disk (createFolders env faults name disk).1 := by
  have hinbox : Spares uid name disk (createDirAll faults .inbox name disk).1 :=
    spares_createDirAll huid .inbox
  unfold createFolders
  split
  next disk₁ e h => rwa [h] at hinbox
  next disk₁ h =>
      rw [h] at hinbox
      have hsent : Spares uid name disk₁ (createDirAll faults .sent name disk₁).1 :=
        spares_createDirAll huid .sent
      split
      next disk₂ e h' =>
          rw [h'] at hsent
          dsimp only
          split
          · exact hinbox.trans hsent
          · exact (hinbox.trans hsent).trans (spares_removeDir .inbox)
      next disk₂ h' =>
          rw [h'] at hsent
          exact hinbox.trans hsent

theorem spares_claimFolders {mb : MailboxConfig} {config : Config}
    (howner : ∀ ids, ownerIds env.users.resolveUser mb.owner = .ok ids → ids.1 ≠ uid) :
    Spares uid name disk (claimFolders env faults name mb config disk).1 := by
  have hinbox : Spares uid name disk (chownAsOwner env faults .inbox name mb 0o700 disk).1 :=
    spares_chownAsOwner .inbox howner
  unfold claimFolders
  split
  next disk₁ e h => rwa [h] at hinbox
  next disk₁ h =>
      rw [h] at hinbox
      have hsent : Spares uid name disk₁ (chownAsOwner env faults .sent name mb 0o700 disk₁).1 :=
        spares_chownAsOwner .sent howner
      split
      next disk₂ e h' =>
          rw [h'] at hsent
          exact hinbox.trans hsent
      next disk₂ h' =>
          rw [h'] at hsent
          have hwrite : Spares uid name disk₂ (writeAtomic env faults config disk₂).1 := spares_writeAtomic
          split
          next disk₃ e h'' =>
              rw [h''] at hwrite
              exact (hinbox.trans hsent).trans hwrite
          next disk₃ h'' =>
              rw [h''] at hwrite
              exact (hinbox.trans hsent).trans hwrite

/-- The creation of a mailbox for somebody else spares the other mailboxes. -/
theorem spares_handleCreate (huid : uid ≠ 0) {owner : Str} {config : Config}
    (howner : ∀ ids, ownerIds env.users.resolveUser owner = .ok ids → ids.1 ≠ uid) :
    Spares uid name disk (handleCreate env faults name owner config disk).1 := by
  unfold handleCreate
  split
  next => exact Spares.refl uid name disk
  next =>
      split
      next => exact Spares.refl uid name disk
      next =>
          split
          next => exact Spares.refl uid name disk
          next =>
              have hfolders : Spares uid name disk (createFolders env faults name disk).1 :=
                spares_createFolders huid
              split
              next disk₁ reject h => rwa [h] at hfolders
              next disk₁ h =>
                  rw [h] at hfolders
                  have hclaim : Spares uid name disk₁ (claimFolders env faults name
                      (newMailbox config name owner)
                      (config.insertMailbox name (newMailbox config name owner)) disk₁).1 :=
                    spares_claimFolders howner
                  dsimp only
                  split
                  next disk₂ reject h' =>
                      rw [h'] at hclaim
                      exact (hfolders.trans hclaim).trans (spares_rollback _ _)
                  next disk₂ h' =>
                      rw [h'] at hclaim
                      exact hfolders.trans hclaim

/-- The check of the folders refuses to take a folder of the user for somebody else. -/
theorem handleCreate_of_hers {owner : Str} {config : Config} (hers : ¬ NotHers uid name disk)
    (howner : ∀ ids, ownerIds env.users.resolveUser owner = .ok ids → ids.1 ≠ uid) :
    ∃ reject, handleCreate env faults name owner config disk = (disk, .error reject) := by
  unfold handleCreate
  split
  next => exact ⟨_, rfl⟩
  next =>
      split
      next => exact ⟨_, rfl⟩
      next owner' gid hids =>
          split
          next => exact ⟨_, rfl⟩
          next hcheck =>
              refine absurd (fun hown => ?_) hers
              have hids' : ownerIds env.users.resolveUser owner = .ok (owner', gid) := by
                unfold resolveOwnerIds at hids
                split at hids
                next ids hok => cases hids; exact hok
                next => cases hids
              have hinbox : checkPreexistingDir env faults name owner' gid disk .inbox = none := by
                rw [checkPreexistingDirs, List.findSome?_eq_none_iff] at hcheck
                exact hcheck .inbox (by simp)
              unfold checkPreexistingDir at hinbox
              unfold inboxOwnerUid at hown
              split at hown
              next f hnode =>
                  rw [hnode] at hinbox
                  obtain rfl : f.uid = uid := Option.some.inj hown
                  have hne : owner' ≠ f.uid := howner _ hids'
                  split at hinbox
                  next => cases hinbox
                  next =>
                      dsimp only at hinbox
                      rw [if_pos (Or.inl hne.symm)] at hinbox
                      cases hinbox
              next => cases hown

theorem spares_handleDelete {force : Bool} {config : Config} :
    Spares uid name disk (handleDelete env faults name force config disk).1 := by
  unfold handleDelete
  split
  next => exact Spares.refl uid name disk
  next =>
      split
      next => exact Spares.refl uid name disk
      next =>
          have hwipe : Spares uid name disk
              (if force then wipeMailboxDirs faults name disk else (disk, .ok ())).1 := by
            split
            · exact spares_wipeMailboxDirs
            · exact Spares.refl uid name disk
          split
          next disk₁ e h => rwa [h] at hwipe
          next disk₁ h =>
              rw [h] at hwipe
              dsimp only
              split
              next => exact hwipe
              next =>
                  have hwrite : Spares uid name disk₁
                      (writeAtomic env faults (config.removeMailbox name) disk₁).1 := spares_writeAtomic
                  split
                  next disk₂ e h' => rw [h'] at hwrite; exact hwipe.trans hwrite
                  next disk₂ h' => rw [h'] at hwrite; exact hwipe.trans hwrite

theorem nodes_writeBack (result : Except Reject Config) :
    (writeBack env faults result disk).1.nodes = disk.nodes := by
  unfold writeBack
  split
  next => rfl
  next config =>
      rcases writeAtomic_cases env faults disk config with ⟨e, tmpLeft, hwrite⟩ | ⟨text, -, hwrite⟩
      · rw [hwrite]
      · rw [hwrite]

end Calls

/-! ## One request -/

section Requests

variable {db : UserDb} {env : HandlerEnv} {faults : Faults} {uid : UInt32} {world world' : World} {name : Str}
  {caller : Caller}

/-- No inbox folder of a mailbox of somebody else belongs to the user. -/
def Apart (db : UserDb) (uid : UInt32) (world : World) : Prop :=
  ∀ name mb, world.memory.mailboxes.lookup name = some mb → db.ownerUid mb ≠ .ok uid →
    NotHers uid name world.disk

/-- Neither the mailbox of a name nor its inbox folder belongs to the user. -/
structure Hidden (db : UserDb) (uid : UInt32) (world : World) (name : Str) : Prop where
  notHers : NotHers uid name world.disk
  owner : ∀ mb, world.memory.mailboxes.lookup name = some mb → db.ownerUid mb ≠ .ok uid

/-- The mailbox of somebody else is hidden from the user. -/
theorem Apart.hidden (hapart : Apart db uid world) {mb : MailboxConfig}
    (hmb : world.memory.mailboxes.lookup name = some mb) (hne : db.ownerUid mb ≠ .ok uid) :
    Hidden db uid world name := by
  refine ⟨hapart name mb hmb hne, fun mb' hmb' => ?_⟩
  rw [hmb, Option.some_inj] at hmb'
  exact hmb' ▸ hne

theorem view_of_hidden (huid : uid ≠ 0) (h : Hidden db uid world name) : view db world uid name = none := by
  rw [view, if_neg]
  rintro ⟨-, hsees⟩
  rw [isVisibleTo, if_neg huid] at hsees
  split at hsees
  next hmem =>
      obtain ⟨mb, hmb⟩ := Option.isSome_iff_exists.mp (AList.lookup_isSome.mpr hmem)
      rw [callerOwns, hmb] at hsees
      dsimp only at hsees
      split at hsees
      next owner howner =>
          obtain rfl := beq_iff_eq.mp hsees
          exact h.owner mb hmb howner
      next => cases hsees
  next =>
      refine h.notHers ?_
      cases hown : inboxOwnerUid world.disk name with
      | none => simp [hown] at hsees
      | some owner =>
          rw [hown, Option.any_some, beq_iff_eq] at hsees
          rw [hsees]

/-- What a user sees of a name is decided by the entry and the folders of this name. -/
theorem view_congr (hlookup : world'.memory.mailboxes.lookup name = world.memory.mailboxes.lookup name)
    (hnodes : ∀ side, world'.disk.nodes side name = world.disk.nodes side name) :
    view db world' uid name = view db world uid name := by
  have hmem : name ∈ world'.memory.mailboxes ↔ name ∈ world.memory.mailboxes := by
    rw [← AList.lookup_isSome, ← AList.lookup_isSome, hlookup]
  have hown : inboxOwnerUid world'.disk name = inboxOwnerUid world.disk name := by
    unfold inboxOwnerUid
    rw [hnodes]
  have hentries : ∀ side, world'.disk.entries side name = world.disk.entries side name := by
    intro side
    unfold Disk.entries Disk.messages
    rw [hnodes]
  have hsees : isVisibleTo db world'.memory world'.disk name uid =
      isVisibleTo db world.memory world.disk name uid := by
    unfold isVisibleTo callerOwns
    rw [hown, hlookup]
    exact if_congr Iff.rfl rfl (if_congr hmem rfl rfl)
  unfold view
  rw [hsees, hlookup, hentries, hentries]
  refine if_congr (and_congr_left' (or_congr hmem ?_)) rfl rfl
  rw [hown]

/-- A change of one hidden name, which leaves it hidden, changes nothing that the user sees. -/
theorem isolated_of_spares (huid : uid ≠ 0) (hapart : Apart db uid world) (hhidden : Hidden db uid world name)
    (hspares : Spares uid name world.disk world'.disk)
    (hothers : ∀ n ≠ name, world'.memory.mailboxes.lookup n = world.memory.mailboxes.lookup n)
    (howner : ∀ mb, world'.memory.mailboxes.lookup name = some mb → db.ownerUid mb ≠ .ok uid) :
    Apart db uid world' ∧ ∀ n, view db world' uid n = view db world uid n := by
  have hnot : NotHers uid name world'.disk := hspares.notHers hhidden.notHers
  constructor
  · intro n mb hmb hne
    by_cases hn : n = name
    · exact hn ▸ hnot
    · rw [hothers n hn] at hmb
      have hkept := hapart n mb hmb hne
      unfold NotHers inboxOwnerUid at hkept ⊢
      rwa [hspares.others .inbox n hn]
  · intro n
    by_cases hn : n = name
    · subst hn
      rw [view_of_hidden huid hhidden, view_of_hidden huid ⟨hnot, howner⟩]
    · exact view_congr (hothers n hn) fun side => hspares.others side n hn

/-- The name under which a stranger acts for a mailbox is of another uid. -/
theorem Stranger.ownerUid_ne (h : Stranger db uid caller) {mb : MailboxConfig}
    (hname : caller.passwdName = some mb.owner) : db.ownerUid mb ≠ .ok uid := by
  unfold UserDb.ownerUid
  cases hids : ownerIds db.resolveUser mb.owner with
  | error e => intro heq; cases heq
  | ok ids =>
      have hne := h.name mb.owner ids hname hids
      intro heq
      exact hne (Except.ok.inj heq)

theorem Stranger.username (h : Stranger db uid caller) : caller.username = caller.passwdName := by
  rw [Caller.username, if_neg h.nonRoot]

theorem Stranger.passwdName_of_mayActFor (h : Stranger db uid caller) {mb : MailboxConfig}
    (hact : caller.MayActFor mb) : caller.passwdName = some mb.owner := by
  rcases hact with hroot | hname
  · exact absurd (by simpa [Caller.isRoot] using hroot) h.nonRoot
  · rwa [h.username] at hname

theorem Stranger.passwdName_of_resolvedOwner (h : Stranger db uid caller)
    {req : Protocol.MailboxLifecycleRequest} {owner : Str} (howner : resolvedOwner req caller = .ok owner) :
    caller.passwdName = some owner := by
  have hroot : ¬ caller.isRoot = true := by simpa [Caller.isRoot] using h.nonRoot
  unfold resolvedOwner at howner
  rw [if_neg hroot, Caller.peerUsername, h.username] at howner
  cases hname : caller.passwdName with
  | none => simp [hname] at howner
  | some name => simpa [hname] using howner

/-- What a stranger's plan does: nothing, or a change of the folders of one hidden name. -/
theorem hidden_execute (faults : Faults) (huid : uid ≠ 0) (hapart : Apart env.users uid world)
    (h : Stranger env.users uid caller) {req : ConfigRequest} {plan : Plan}
    (hchecked : Checked env caller world.memory req plan) :
    (∃ reject, plan.execute env faults caller world.memory world.disk = (world.disk, .error reject)) ∨
      Hidden env.users uid world plan.mailbox ∧
        Spares uid plan.mailbox world.disk (plan.execute env faults caller world.memory world.disk).1 := by
  cases hchecked with
  | @mailboxCreate req owner hname hcreate howner =>
      have hids : ∀ ids, ownerIds env.users.resolveUser owner = .ok ids → ids.1 ≠ uid :=
        fun ids => h.name owner ids (h.passwdName_of_resolvedOwner howner)
      unfold Plan.execute
      dsimp only
      split
      next => exact Or.inl ⟨_, rfl⟩
      next =>
          -- a folder of the user stops the creation before anything is written, and so does a taken name
          by_cases hers : NotHers uid req.name world.disk
          · by_cases hmem : req.name ∈ world.memory.mailboxes
            · left
              unfold handleCreate
              rw [if_pos hmem]
              exact ⟨_, rfl⟩
            · refine Or.inr ⟨⟨hers, fun mb hmb => ?_⟩, spares_handleCreate huid hids⟩
              exact absurd (AList.lookup_isSome.mp (Option.isSome_iff_exists.mpr ⟨mb, hmb⟩)) hmem
          · exact Or.inl (handleCreate_of_hers hers hids)
  | @mailboxDelete req hname hcreate =>
      unfold Plan.execute
      dsimp only
      cases hauth : authorizeDelete env world.memory req.name caller with
      | error reject => exact Or.inl ⟨reject, rfl⟩
      | ok u =>
          refine Or.inr ⟨?_, spares_handleDelete⟩
          -- a mailbox that is not hidden is the user's, and `authorizeDelete` shows it to nobody else
          by_contra hseen
          have hrefused : authorizeDelete env world.memory req.name caller =
              .error ⟨.mailbox, noSuchMailboxReason req.name⟩ := by
            refine authorizeDelete_of_not_owner h.nonRoot fun mb hmb howner => hseen (hapart.hidden hmb ?_)
            intro heq
            rw [howner] at heq
            exact h.apart (Except.ok.inj heq)
          rw [hauth] at hrefused
          cases hrefused
  | hookCreate hmb hact hcatchall hhook =>
      refine Or.inr ⟨hapart.hidden hmb (h.ownerUid_ne (h.passwdName_of_mayActFor hact)), ?_⟩
      exact Spares.of_nodes (nodes_writeBack _)
  | hookDelete hfind hmb hact =>
      refine Or.inr ⟨hapart.hidden hmb (h.ownerUid_ne (h.passwdName_of_mayActFor hact)), ?_⟩
      exact Spares.of_nodes (nodes_writeBack _)

/-- The mailbox after a stranger's plan is not the user's. -/
theorem owner_result (h : Stranger env.users uid caller) {req : ConfigRequest} {plan : Plan}
    (hchecked : Checked env caller world.memory req plan) (hhidden : Hidden env.users uid world plan.mailbox)
    {mb : MailboxConfig}
    (hmb : (plan.result env.sha256 world.memory).mailboxes.lookup plan.mailbox = some mb) :
    env.users.ownerUid mb ≠ .ok uid := by
  have hcreated : ∀ name owner, plan = .mailboxCreate name owner → caller.passwdName = some owner := by
    rintro name owner rfl
    cases hchecked with
    | mailboxCreate hname hcreate howner => exact h.passwdName_of_resolvedOwner howner
  rcases Plan.lookup_result hmb with ⟨mb', hooks, hmb', rfl⟩ | ⟨owner, hplan, rfl⟩
  · exact hhidden.owner mb' hmb'
  · apply h.ownerUid_ne
    exact hcreated _ _ hplan

/-- **One request of a stranger** changes nothing that the user sees, whichever of its calls fail. -/
theorem isolated_request (huid : uid ≠ 0) (hapart : Apart env.users uid world)
    (h : Stranger env.users uid caller) (req : ConfigRequest) :
    (Apart env.users uid (handle env faults world caller req).1 ∧
      ∀ n, view env.users (handle env faults world caller req).1 uid n = view env.users world uid n) ∧
    (handle env faults world caller req).1.memory.dataDir = world.memory.dataDir := by
  unfold handle
  cases hcheck : req.check env world.memory caller with
  | error reject => exact ⟨⟨hapart, fun _ => rfl⟩, rfl⟩
  | ok plan =>
      have hchecked := ConfigRequest.check_eq_ok hcheck
      dsimp only
      rcases hidden_execute faults huid hapart h hchecked with ⟨reject, hnothing⟩ | ⟨hhidden, hspares⟩
      · rw [hnothing]
        exact ⟨⟨hapart, fun _ => rfl⟩, rfl⟩
      · cases hexecute : plan.execute env faults caller world.memory world.disk with
        | mk disk result =>
            rw [hexecute] at hspares
            cases result with
            | error reject =>
                exact ⟨isolated_of_spares huid hapart hhidden hspares (fun _ _ => rfl) hhidden.owner, rfl⟩
            | ok config =>
                obtain ⟨-, rfl, -⟩ := Plan.execute_ok hexecute
                have hsame := Update.sameBut_apply env.sha256 world.memory (plan.update world.memory)
                have htarget : (plan.update world.memory).target = plan.mailbox := by
                  cases plan <;> rfl
                refine ⟨isolated_of_spares huid hapart hhidden hspares (fun n hn => ?_) fun mb hmb => ?_,
                  hsame.dataDir⟩
                · exact hsame.mailboxes n (htarget.symm ▸ hn)
                · exact owner_result h hchecked hhidden hmb

end Requests

/-! ## Any sequence -/

section Runs

variable {env : HandlerEnv} {uid : UInt32} {world last : World}

/-- What others do: a request, or a change of a folder by mail that arrives, is sent or is marked. -/
inductive Act
  | request (faults : Faults) (caller : Caller) (req : ConfigRequest)
  | write (side : Side) (name : Str) (node : Option Node)

/-- The daemon, with its answers to requests. -/
def actMachine (env : HandlerEnv) : Machine World Act (Option Protocol.AckResponse)
  | world, .request faults caller req =>
      let r := handle env faults world caller req
      (r.1, some r.2)
  | world, .write side name node => ({ world with disk := world.disk.set side name node }, none)

/-- An act of others than the user and root: a request of a stranger, or a change inside a mailbox that is not
the user's. -/
def Elsewhere (db : UserDb) (uid : UInt32) (world : World) : Act → Prop
  | .request _ caller _ => Stranger db uid caller
  | .write _ name node =>
      (∃ mb, world.memory.mailboxes.lookup name = some mb ∧ db.ownerUid mb ≠ .ok uid) ∧
        ∀ f, node = some (.folder f) → f.uid ≠ uid

/-- One act of others. -/
theorem isolated_act (huid : uid ≠ 0) (hapart : Apart env.users uid world) {act : Act}
    (h : Elsewhere env.users uid world act) :
    (Apart env.users uid (actMachine env world act).1 ∧
      ∀ n, view env.users (actMachine env world act).1 uid n = view env.users world uid n) ∧
    (actMachine env world act).1.memory.dataDir = world.memory.dataDir := by
  cases act with
  | request faults caller req => exact isolated_request huid hapart h req
  | write side name node =>
      obtain ⟨⟨mb, hmb, hne⟩, hnode⟩ := h
      have hhidden : Hidden env.users uid world name := hapart.hidden hmb hne
      have hspares : Spares uid name world.disk (world.disk.set side name node) :=
        Spares.set side fun _ _ => hnode
      exact ⟨isolated_of_spares huid hapart hhidden hspares (fun _ _ => rfl) hhidden.owner, rfl⟩

/-- **Others do not change the listings of a user.**  Through every sequence of requests of strangers, with
any failing calls, and of changes inside the mailboxes of others, MAILBOX-LIST and HOOK-LIST answer a user
that is not root the same. -/
theorem listings_isolated (huid : uid ≠ 0) (hapart : Apart env.users uid world) {acts : List Act}
    (hmeets : Machine.Meets (actMachine env) (Elsewhere env.users uid) world acts)
    (hlast : (Machine.replay (actMachine env) world acts).1 = last) {names names' : List Str}
    (hnames : Lists world.disk names) (hnames' : Lists last.disk names') :
    collectMailboxRows env.users last (some names') uid =
        collectMailboxRows env.users world (some names) uid ∧
      collectHookRows env.users env.sha256 last.memory uid =
        collectHookRows env.users env.sha256 world.memory uid := by
  have hinvariant : (Apart env.users uid last ∧
      ∀ n, view env.users last uid n = view env.users world uid n) ∧
        last.memory.dataDir = world.memory.dataDir := by
    rw [← hlast]
    refine Machine.replay_invariant (I := fun w => (Apart env.users uid w ∧
      ∀ n, view env.users w uid n = view env.users world uid n) ∧ w.memory.dataDir = world.memory.dataDir)
        ?_ ⟨⟨hapart, fun _ => rfl⟩, rfl⟩ hmeets
    rintro w act ⟨⟨hw, hview⟩, hdir⟩ hact
    obtain ⟨⟨hw', hview'⟩, hdir'⟩ := isolated_act huid hw hact
    exact ⟨⟨hw', fun n => (hview' n).trans (hview n)⟩, hdir'.trans hdir⟩
  exact ⟨collectMailboxRows_congr hnames hnames' hinvariant.2 hinvariant.1.2,
    collectHookRows_congr env.sha256 hinvariant.1.2⟩

end Runs

/-- The users `bob`, with a hook, and `alice`. -/
def twoOwners : World where
  memory := sampleConfig [
    ("bob", sampleMailbox "bob@example.org" "bob" [sampleHook (some "ping") "/bin/true"]),
    ("alice", sampleMailbox "alice@example.org" "alice" [])]
  disk := {
    nodes := fun _ name =>
      if name = "bob".toList then some (.folder ⟨1000, 1000, 0o700, []⟩)
      else if name = "alice".toList then some (.folder ⟨1001, 1001, 0o700, []⟩)
      else none
    config := []
    tmpLeft := false }

/-- A message to `alice`, and a hook that she creates. -/
def aliceActs : List Act := [
  .write .inbox "alice".toList (some (.folder ⟨1001, 1001, 0o700, [("note.md".toList, .file [])]⟩)),
  .request (fun _ => none) ⟨1001, some "alice".toList⟩
    (.hookCreate ⟨"alice".toList, "on_receive".toList, some "pong".toList, sampleBody⟩)]

theorem lookup_twoOwners {name : Str} {mb : MailboxConfig}
    (h : twoOwners.memory.mailboxes.lookup name = some mb) :
    name = "bob".toList ∧ mb.owner = "bob".toList ∨ name = "alice".toList ∧ mb.owner = "alice".toList := by
  have hmem := AList.mem_lookup_iff.mp h
  have hentries : twoOwners.memory.mailboxes.entries = [
      ⟨"bob".toList, sampleMailbox "bob@example.org" "bob" [sampleHook (some "ping") "/bin/true"]⟩,
      ⟨"alice".toList, sampleMailbox "alice@example.org" "alice" []⟩] := by decide
  rw [hentries, List.mem_cons, List.mem_singleton] at hmem
  rcases hmem with heq | heq
  · cases heq
    exact Or.inl ⟨rfl, rfl⟩
  · cases heq
    exact Or.inr ⟨rfl, rfl⟩

theorem inboxOwnerUid_twoOwners (name : Str) : inboxOwnerUid twoOwners.disk name =
    if name = "bob".toList then some 1000 else if name = "alice".toList then some 1001 else none := by
  unfold inboxOwnerUid twoOwners
  dsimp only
  split_ifs <;> rfl

theorem lists_twoOwners : Lists twoOwners.disk ["bob".toList, "alice".toList] := by
  intro name
  rw [inboxOwnerUid_twoOwners, List.mem_cons, List.mem_singleton]
  by_cases hbob : name = "bob".toList
  · rw [if_pos hbob]
    exact iff_of_true (Or.inl hbob) rfl
  · rw [if_neg hbob]
    by_cases halice : name = "alice".toList
    · rw [if_pos halice]
      exact iff_of_true (Or.inr halice) rfl
    · rw [if_neg halice]
      exact iff_of_false (fun h => h.elim hbob halice) Bool.false_ne_true

/-- The listings of `bob`, before and after what `alice` does. -/
theorem listings_isolated_alice :
    collectMailboxRows sampleEnv.users (Machine.replay (actMachine sampleEnv) twoOwners aliceActs).1
        (some ["bob".toList, "alice".toList]) 1000 =
      collectMailboxRows sampleEnv.users twoOwners (some ["bob".toList, "alice".toList]) 1000 ∧
    collectHookRows sampleEnv.users sampleEnv.sha256
        (Machine.replay (actMachine sampleEnv) twoOwners aliceActs).1.memory 1000 =
      collectHookRows sampleEnv.users sampleEnv.sha256 twoOwners.memory 1000 := by
  have hapart : Apart sampleEnv.users 1000 twoOwners := by
    intro name mb hmb hne
    rw [NotHers, inboxOwnerUid_twoOwners]
    rcases lookup_twoOwners hmb with ⟨rfl, howner⟩ | ⟨rfl, -⟩
    · refine absurd ?_ hne
      rw [UserDb.ownerUid, howner]
      decide
    · decide
  have hstranger : Stranger sampleEnv.users 1000 ⟨1001, some "alice".toList⟩ := by
    refine ⟨by decide, by decide, fun owner ids howner hids => ?_⟩
    obtain rfl := Option.some.inj howner
    have halice : ownerIds sampleEnv.users.resolveUser "alice".toList = .ok (1001, 1001) := by decide
    rw [halice] at hids
    obtain rfl := Except.ok.inj hids
    decide
  have hmeets : Machine.Meets (actMachine sampleEnv) (Elsewhere sampleEnv.users 1000) twoOwners
      aliceActs := by
    refine ⟨⟨⟨sampleMailbox "alice@example.org" "alice" [], by decide, by decide⟩, fun f hf => ?_⟩,
      hstranger, trivial⟩
    cases hf
    decide
  have hlists : Lists (Machine.replay (actMachine sampleEnv) twoOwners aliceActs).1.disk
      ["bob".toList, "alice".toList] := by
    intro name
    have hnodes : (Machine.replay (actMachine sampleEnv) twoOwners aliceActs).1.disk.nodes .inbox name =
        if Side.inbox = .inbox ∧ name = "alice".toList then
          some (.folder ⟨1001, 1001, 0o700, [("note.md".toList, .file [])]⟩)
        else twoOwners.disk.nodes .inbox name := rfl
    rw [inboxOwnerUid, hnodes]
    by_cases halice : name = "alice".toList
    · rw [if_pos ⟨rfl, halice⟩, List.mem_cons, List.mem_singleton]
      exact iff_of_true (Or.inr halice) rfl
    · rw [if_neg fun h => halice h.2]
      exact lists_twoOwners name
  exact listings_isolated (by decide) hapart hmeets rfl lists_twoOwners hlists

end Daemon
end Aimx
