import Aimx.Config.Update
import Aimx.Daemon.Mark
import Aimx.Text.FileTree

/-!
# Mailboxes on the command line, without the daemon

`aimx mailboxes create` and `aimx mailboxes delete` when root runs them and the daemon is down: both edit
the file and the directories themselves.

* `createMailbox`, `deleteMailbox`, `wipeMailboxContents`, `delete` — the functions of the source;
* `OnlyAsked` — what they are to leave alone;
* `Careful` — the condition, command by command;
* `onlyAsked_iff` — a command leaves it alone exactly then.
-/

namespace Aimx
namespace Cli

open Text Daemon

/-! ## The commands -/

/-- The host as far as the commands use it: the place of the data directory, the path of the
configuration file, the user database, and how a character is shown. -/
structure OfflineHost where
  root : Place
  configPath : Str
  resolveUser : Str → Option ResolvedUser
  debug : Char → Str

/-- The errors of the calls that fail.  A call that removes a tree may leave any part of it. -/
structure OfflineFaults where
  mkdir : Place → Option Str
  chown : Side → Option Str
  chmod : Side → Option Str
  cleanUp : Side → Place → Option Str
  readDir : Side → Option Str
  readEntry : Side → Str → Option Str
  isDir : Side → Str → Option Str
  wipe : Side → Place → Option Str
  save : Option Str
  existing : Side → Option Str
  remove : Side → Place → Option Str

/-- How a command ends: the files, the configuration that was written, if any, and the result. -/
structure Outcome where
  tree : FileTree
  written : Option Config
  result : Except Str Unit

/-- What `prompt` and the arguments make of a command: the owner of a new mailbox, or whether the removal
is confirmed, or the error of either. -/
inductive Command
  | create (owner : Except Str Str)
  | delete (force : Bool) (confirmed : Except Str Bool)

section Commands

variable (host : OfflineHost) (faults : OfflineFaults) (config : Config) (name : Str)

/-- The path of a folder, as it is printed. -/
def folderPath (side : Side) : Str := joinPath (joinPath config.dataDir side.dirName) name

/-- The place that `inbox_dir` or `sent_dir` leads to, for any text in place of a name. -/
def folderPlace (side : Side) (tree : FileTree) : Except FileTree.WalkError Place :=
  match components name with
  | ['/'] :: cs => tree.walk [] cs
  | cs => tree.walk (host.root ++ [side.dirName]) cs

/-- The place of a new folder, whose name has been checked. -/
def newPlace (side : Side) : Place := host.root ++ side.dirName :: components name

/-- `Config::save`. -/
def saveConfig (next : Config) (tree : FileTree) : Outcome :=
  match faults.save with
  | some e => ⟨tree, none, .error ("failed to write ".toList ++ host.configPath ++ ": ".toList ++ e)⟩
  | none => ⟨tree, some next, .ok ()⟩

/-- `chown_as_owner` on one folder. -/
def chownFolder (owner : Str) (side : Side) : Except Str Unit :=
  match ownerIds host.resolveUser owner with
  | .error e => .error ("resolve owner uid for '".toList ++ owner ++ "': ".toList ++ e.display)
  | .ok _ =>
      match faults.chown side, faults.chmod side with
      | some e, _ => .error e
      | none, some e => .error e
      | none, none => .ok ()

/-- The loop over the two folders, with the folder that fails. -/
def chownFolders (owner : Str) : Except (Side × Str) Unit :=
  match chownFolder host faults owner .inbox with
  | .error e => .error (.inbox, e)
  | .ok () =>
      match chownFolder host faults owner .sent with
      | .error e => .error (.sent, e)
      | .ok () => .ok ()

/-- The mailbox that a creation registers. -/
def newMailbox (owner : Str) : MailboxConfig where
  address := name ++ '@' :: config.domain
  owner := owner
  hooks := []
  trust := none
  trustedSenders := none
  allowRootCatchall := false

/-- `create_mailbox`, run by root. -/
def createMailbox (owner : Str) (tree : FileTree) : Outcome :=
  match validateMailboxName name with
  | .error e => ⟨tree, none, .error (e.display host.debug)⟩
  | .ok () =>
      if (config.mailboxes.lookup name).isSome then
        ⟨tree, none, .error ("Mailbox '".toList ++ name ++ "' already exists".toList)⟩
      else
        let inbox := newPlace host name .inbox
        let sent := newPlace host name .sent
        match FileTree.makeDirs faults.mkdir [] inbox tree with
        | (tree, .error e) => ⟨tree, none, .error e⟩
        | (tree, .ok ()) =>
            match FileTree.makeDirs faults.mkdir [] sent tree with
            | (tree, .error e) => ⟨(tree.removeDirAll (faults.cleanUp .inbox) inbox).1, none, .error e⟩
            | (tree, .ok ()) =>
                match chownFolders host faults owner with
                | .error (side, e) =>
                    let tree := (tree.removeDirAll (faults.cleanUp .inbox) inbox).1
                    let tree := (tree.removeDirAll (faults.cleanUp .sent) sent).1
                    ⟨tree, none, .error ("failed to chown ".toList ++ folderPath config name side ++
                      ": ".toList ++ e)⟩
                | .ok () =>
                    saveConfig host faults (config.insertMailbox name (newMailbox config name owner)) tree

/-- One folder of a deleted mailbox, and the line about what is left of it. -/
def removeFolder (side : Side) (tree : FileTree) : FileTree × Option Str :=
  match folderPlace host name side tree, faults.existing side with
  | .ok p, none =>
      if (tree.kind p).isSome then
        match tree.removeDirAll (faults.remove side) p with
        | (tree, .error e) => (tree, some ("  - ".toList ++ folderPath config name side ++ ": ".toList ++ e))
        | (tree, .ok ()) => (tree, none)
      else (tree, none)
  | _, _ => (tree, none)

/-- `delete_mailbox`. -/
def deleteMailbox (tree : FileTree) : Outcome :=
  if name = "catchall".toList then ⟨tree, none, .error "Cannot delete the catchall mailbox".toList⟩
  else if (config.mailboxes.lookup name).isNone then
    ⟨tree, none, .error ("Mailbox '".toList ++ name ++ "' does not exist".toList)⟩
  else
    match saveConfig host faults (config.removeMailbox name) tree with
    | ⟨tree, written, .error e⟩ => ⟨tree, written, .error e⟩
    | ⟨tree, written, .ok ()⟩ =>
        let (tree, inboxLeft) := removeFolder host faults config name .inbox tree
        let (tree, sentLeft) := removeFolder host faults config name .sent tree
        let leftovers := inboxLeft.toList ++ sentLeft.toList
        if leftovers.isEmpty then ⟨tree, written, .ok ()⟩
        else ⟨tree, written, .error ("mailbox '".toList ++ name ++
          "' removed from config.toml but filesystem cleanup failed:\n".toList ++
          List.intercalate ['\n'] leftovers)⟩

/-- One entry of a folder removed: an entry whose `is_dir` fails is taken for a file. -/
def wipeEntry (side : Side) (p : Place) (entry : Str) (tree : FileTree) : FileTree × Except Str Unit :=
  if tree.kind (p ++ [entry]) = some .dir ∧ (faults.isDir side entry).isNone then
    tree.removeDirAll (faults.wipe side) (p ++ [entry])
  else tree.removeFile (faults.wipe side) (p ++ [entry])

/-- The loop of `wipe_mailbox_contents`: an entry that cannot be read is skipped, and the first removal
that fails ends it. -/
def wipeEntries (side : Side) (p : Place) : List Str → FileTree → FileTree × Except Str Unit
  | [], tree => (tree, .ok ())
  | entry :: entries, tree =>
      if (faults.readEntry side entry).isSome then wipeEntries side p entries tree
      else
        match wipeEntry faults side p entry tree with
        | (tree, .error e) => (tree, .error e)
        | (tree, .ok ()) => wipeEntries side p entries tree

/-- `wipe_mailbox_contents`. -/
def wipeMailboxContents (side : Side) (tree : FileTree) : FileTree × Except Str Unit :=
  match faults.readDir side with
  | some e => (tree, .error e)
  | none =>
      match folderPlace host name side tree with
      | .error .missing => (tree, .ok ())
      | .error .notDir => (tree, .error "Not a directory (os error 20)".toList)
      | .ok p =>
          match tree.kind p with
          | none => (tree, .ok ())
          | some .file => (tree, .error "Not a directory (os error 20)".toList)
          | some .dir => wipeEntries faults side p (tree.names p) tree

/-- `delete`, run by root with the daemon down. -/
def delete (force : Bool) (confirmed : Except Str Bool) (tree : FileTree) : Outcome :=
  if force ∧ name = "catchall".toList then
    ⟨tree, none, .error "Cannot delete the catchall mailbox".toList⟩
  else
    match confirmed with
    | .error e => ⟨tree, none, .error e⟩
    | .ok false => ⟨tree, none, .ok ()⟩
    | .ok true =>
        if force then
          match wipeMailboxContents host faults name .inbox tree with
          | (tree, .error e) => ⟨tree, none, .error e⟩
          | (tree, .ok ()) =>
              match wipeMailboxContents host faults name .sent tree with
              | (tree, .error e) => ⟨tree, none, .error e⟩
              | (tree, .ok ()) => deleteMailbox host faults config name tree
        else deleteMailbox host faults config name tree

/-- A command with the daemon down. -/
def Command.run : Command → FileTree → Outcome
  | .create (.error e), tree => ⟨tree, none, .error e⟩
  | .create (.ok owner), tree => createMailbox host faults config name owner tree
  | .delete force confirmed, tree => Cli.delete host faults config name force confirmed tree

end Commands

/-! ## What is asked of a command -/

section Asked

variable (host : OfflineHost) (faults : OfflineFaults) (config : Config) (name : Str)

/-- A mailbox of the configuration. -/
def Registered : Prop := (config.mailboxes.lookup name).isSome = true

/-- A place in a folder of a registered mailbox. -/
def InRegistered (tree : FileTree) (q : Place) : Prop :=
  ∃ mailbox side p, Registered config mailbox ∧ folderPlace host mailbox side tree = .ok p ∧ p <+: q

/-- A file of a stored message: a flat file, or anything in a directory with the file of its name. -/
def InMessage (tree : FileTree) (n : Place × PlaceKind) : Prop :=
  n.2 = .file ∧ ∃ (side : Side) (mailbox stem : Str), stem ≠ [] ∧
    (n.1 = host.root ++ [side.dirName, mailbox, messageFile stem] ∨
      host.root ++ [side.dirName, mailbox, stem] <+: n.1 ∧
        (host.root ++ [side.dirName, mailbox, stem, messageFile stem], .file) ∈ tree.nodes)

/-- A command destroys only what was asked. -/
structure OnlyAsked (cmd : Command) (tree : FileTree) (out : Outcome) : Prop where
  /-- Nothing disappears outside the folders of registered mailboxes. -/
  within : ∀ n ∈ tree.nodes, n ∉ out.tree.nodes → InRegistered host config tree n.1
  /-- A creation removes nothing. -/
  created : ∀ owner, cmd = .create owner → ∀ n ∈ tree.nodes, n ∈ out.tree.nodes
  /-- An error before the configuration was replaced leaves every message. -/
  stored : (∃ e, out.result = .error e) → out.written = none →
    ∀ n ∈ tree.nodes, InMessage host tree n → n ∈ out.tree.nodes

/-! ## The condition -/

/-- Every missing directory on the way to a new folder can be made, and nothing else stands there. -/
def CanMake (side : Side) (tree : FileTree) : Prop :=
  ∀ q, q ≠ [] → q <+: newPlace host name side →
    tree.kind q = some .dir ∨ tree.kind q = none ∧ faults.mkdir q = none

/-- The owner is known, and no call on either folder fails. -/
def CanChown (owner : Str) : Prop :=
  (∃ ids, ownerIds host.resolveUser owner = .ok ids) ∧
    ∀ side, faults.chown side = none ∧ faults.chmod side = none

/-- Nothing was at a new folder, or the clean-up cannot remove what was. -/
def Spared (side : Side) (tree : FileTree) : Prop :=
  ∀ n ∈ tree.nodes, newPlace host name side <+: n.1 → tree.stays (faults.cleanUp side) n.1 = true

/-- The removal of an entry fails. -/
def entryFails (side : Side) (p : Place) (tree : FileTree) (entry : Str) : Bool :=
  if tree.kind (p ++ [entry]) = some .dir ∧ (faults.isDir side entry).isNone then
    tree.stays (faults.wipe side) (p ++ [entry])
  else !(tree.kind (p ++ [entry]) == some .file && (faults.wipe side (p ++ [entry])).isNone)

/-- What the removal of an entry removes. -/
def removesEntry (side : Side) (p : Place) (tree : FileTree) (entry : Str) (q : Place) : Bool :=
  if tree.kind (p ++ [entry]) = some .dir ∧ (faults.isDir side entry).isNone then
    tree.removesAll (faults.wipe side) (p ++ [entry]) q
  else tree.removesFile (faults.wipe side) (p ++ [entry]) q

/-- The entries that can be read, up to the first one whose removal fails. -/
def tried (side : Side) (p : Place) (tree : FileTree) : List Str → List Str
  | [] => []
  | entry :: entries =>
      if (faults.readEntry side entry).isSome then tried side p tree entries
      else if entryFails faults side p tree entry then [entry]
      else entry :: tried side p tree entries

/-- Every entry that can be read can be removed. -/
def allRemovable (side : Side) (p : Place) (tree : FileTree) (entries : List Str) : Bool :=
  entries.all fun entry => (faults.readEntry side entry).isSome || !entryFails faults side p tree entry

/-- What the removal of the entries of a folder removes. -/
def wipesEntries (side : Side) (p : Place) (tree : FileTree) (entries : List Str) (q : Place) : Bool :=
  (tried faults side p tree entries).any fun entry => removesEntry faults side p tree entry q

/-- What a wipe of one folder removes. -/
def wipes (side : Side) (tree : FileTree) (q : Place) : Bool :=
  match faults.readDir side, folderPlace host name side tree with
  | none, .ok p => tree.kind p == some .dir && wipesEntries faults side p tree (tree.names p) q
  | _, _ => false

/-- A wipe of one folder goes through. -/
def wipeDone (side : Side) (tree : FileTree) : Bool :=
  match faults.readDir side, folderPlace host name side tree with
  | none, .error .missing => true
  | none, .ok p =>
      match tree.kind p with
      | none => true
      | some .file => false
      | some .dir => allRemovable faults side p tree (tree.names p)
  | _, _ => false

/-- What is there after a wipe of one folder. -/
def afterWipe (side : Side) (tree : FileTree) : FileTree :=
  tree.keep fun q => !wipes host faults name side tree q

/-- What the wipe of both folders removes: the second folder has its turn when the first one is done. -/
def wipesBoth (tree : FileTree) (q : Place) : Bool :=
  wipes host faults name .inbox tree q ||
    (wipeDone host faults name .inbox tree &&
      wipes host faults name .sent (afterWipe host faults name .inbox tree) q)

/-- Every call up to the replacement of the configuration goes through, and there is a stanza to remove. -/
def ForceSucceeds (tree : FileTree) : Prop :=
  wipeDone host faults name .inbox tree = true ∧
    wipeDone host faults name .sent (afterWipe host faults name .inbox tree) = true ∧
    Registered config name ∧ faults.save = none

/-- When a command leaves alone what it is to leave alone.  A creation: its clean-up is not reached, or
there was nothing where it cleans up.  A forced removal: what it wipes is in folders of registered mailboxes,
and no message is among it unless every call up to the replacement of the configuration goes through. -/
def Command.Careful (tree : FileTree) : Command → Prop
  | .create (.error _) => True
  | .create (.ok owner) =>
      validateMailboxName name = .ok () → ¬Registered config name → CanMake host faults name .inbox tree →
        (¬CanMake host faults name .sent tree → Spared host faults name .inbox tree) ∧
          (CanMake host faults name .sent tree → ¬CanChown host faults owner →
            Spared host faults name .inbox tree ∧ Spared host faults name .sent tree)
  | .delete true (.ok true) =>
      name = "catchall".toList ∨ ∀ n ∈ tree.nodes, wipesBoth host faults name tree n.1 = true →
        InRegistered host config tree n.1 ∧
          (InMessage host tree n → ForceSucceeds host faults config name tree)
  | .delete _ _ => True

end Asked

/-! ## What a wipe removes -/

section Wipe

variable {host : OfflineHost} {faults : OfflineFaults} {config : Config} {name : Str} {side : Side}
  {p : Place} {tree : FileTree} {f : Place → Bool}

theorem prefix_of_removesEntry {entry : Str} {q : Place}
    (h : removesEntry faults side p tree entry q = true) : p ++ [entry] <+: q := by
  unfold removesEntry at h
  split at h
  · exact FileTree.prefix_of_removesAll h
  · unfold FileTree.removesFile at h
    simp only [Bool.and_eq_true, beq_iff_eq] at h
    rw [h.2.2]

variable (faults side tree) in
/-- One entry: what was removed before does not matter. -/
theorem wipeEntry_keep {entry : Str} (hf : ∀ q, p ++ [entry] <+: q → f q = true) :
    (wipeEntry faults side p entry (tree.keep f)).1 =
        tree.keep (fun q => f q && !removesEntry faults side p tree entry q) ∧
      ((wipeEntry faults side p entry (tree.keep f)).2 = .ok () ↔
        entryFails faults side p tree entry = false) := by
  have hkind : (tree.keep f).kind (p ++ [entry]) = tree.kind (p ++ [entry]) :=
    FileTree.kind_keep (hf _ List.prefix_rfl)
  unfold wipeEntry removesEntry entryFails
  rw [hkind]
  split
  next hdir =>
      rw [FileTree.removeDirAll_tree, FileTree.removeDirAll_ok_iff, FileTree.keep_keep,
        FileTree.removesAll_keep hf, FileTree.stays_keep hf, hkind]
      exact ⟨rfl, and_iff_right hdir.1⟩
  next =>
      have hfile : FileTree.removesFile (faults.wipe side) (tree.keep f) (p ++ [entry]) =
          FileTree.removesFile (faults.wipe side) tree (p ++ [entry]) := by
        unfold FileTree.removesFile
        rw [hkind]
      rw [FileTree.removeFile_tree, FileTree.removeFile_ok_iff, FileTree.keep_keep, hfile, hkind]
      refine ⟨rfl, ?_⟩
      simp

variable (faults side tree) in
/-- The loop over the entries. -/
theorem wipeEntries_keep {entries : List Str} (hnodup : entries.Nodup)
    (hf : ∀ entry ∈ entries, ∀ q, p ++ [entry] <+: q → f q = true) :
    (wipeEntries faults side p entries (tree.keep f)).1 =
        tree.keep (fun q => f q && !wipesEntries faults side p tree entries q) ∧
      ((wipeEntries faults side p entries (tree.keep f)).2 = .ok () ↔
        allRemovable faults side p tree entries = true) := by
  induction entries generalizing f with
  | nil => simp [wipeEntries, wipesEntries, tried, allRemovable]
  | cons entry entries ih =>
      rw [List.nodup_cons] at hnodup
      rw [List.forall_mem_cons] at hf
      rw [wipeEntries]
      by_cases hread : (faults.readEntry side entry).isSome = true
      · rw [if_pos hread]
        obtain ⟨htree, hok⟩ := ih hnodup.2 hf.2
        refine ⟨htree.trans ?_, hok.trans ?_⟩
        · simp [wipesEntries, tried, hread]
        · simp [allRemovable, hread]
      · rw [if_neg hread]
        obtain ⟨hone, honeOk⟩ := wipeEntry_keep faults side tree hf.1
        cases hresult : wipeEntry faults side p entry (tree.keep f) with
        | mk tree' result =>
            rw [hresult] at hone honeOk
            dsimp only at hone honeOk
            subst hone
            cases result with
            | error e =>
                have hfails : entryFails faults side p tree entry = true := by
                  rw [← Bool.not_eq_false, ← honeOk]
                  exact fun heq => by cases heq
                refine ⟨?_, ?_⟩
                · simp [wipesEntries, tried, hread, hfails]
                · simp [allRemovable, hread, hfails]
            | ok _ =>
                have hgoes : entryFails faults side p tree entry = false := honeOk.mp rfl
                -- the other entries are somewhere else
                have hothers : ∀ entry' ∈ entries, ∀ q, p ++ [entry'] <+: q →
                    (f q && !removesEntry faults side p tree entry q) = true := by
                  intro entry' hmem q hq
                  have hnot : ¬removesEntry faults side p tree entry q = true := by
                    intro hremoves
                    have hlen := List.prefix_of_prefix_length_le (prefix_of_removesEntry hremoves) hq
                      (by simp)
                    have heq : p ++ [entry] = p ++ [entry'] := hlen.eq_of_length (by simp)
                    rw [List.append_cancel_left_eq, List.singleton_inj] at heq
                    exact hnodup.1 (heq ▸ hmem)
                  simp [hf.2 entry' hmem q hq, hnot]
                obtain ⟨htree, hok⟩ := ih hnodup.2 hothers
                refine ⟨htree.trans ?_, hok.trans ?_⟩
                · congr 1
                  funext q
                  simp [wipesEntries, tried, hread, hgoes, Bool.and_assoc]
                · simp [allRemovable, hgoes]

/-- A wipe of one folder. -/
theorem wipeMailboxContents_eq :
    (wipeMailboxContents host faults name side tree).1 = afterWipe host faults name side tree ∧
      ((wipeMailboxContents host faults name side tree).2 = .ok () ↔
        wipeDone host faults name side tree = true) := by
  have hself : ∀ {g : Place → Bool}, (∀ q, g q = false) → tree = tree.keep fun q => !g q :=
    fun hg => (FileTree.keep_eq_self fun n _ => by simp [hg]).symm
  unfold wipeMailboxContents afterWipe wipes wipeDone
  cases hread : faults.readDir side with
  | some e => exact ⟨hself fun _ => rfl, by simp⟩
  | none =>
      cases hplace : folderPlace host name side tree with
      | error e => cases e <;> exact ⟨hself fun _ => rfl, by simp⟩
      | ok p =>
          dsimp only
          cases hkind : tree.kind p with
          | none => exact ⟨hself fun _ => rfl, by simp⟩
          | some k =>
              cases k with
              | file => exact ⟨hself fun _ => rfl, by simp⟩
              | dir =>
                  have hall : tree.keep (fun _ => true) = tree := FileTree.keep_eq_self fun _ _ => rfl
                  obtain ⟨htree, hok⟩ := @wipeEntries_keep faults side p tree
                    (fun _ => true) _ (tree.names_nodup p) fun _ _ _ _ => rfl
                  rw [hall] at htree hok
                  exact ⟨by simpa using htree, hok⟩

/-- A folder that is found was there before. -/
theorem folderPlace_of_keep {q : Place} (h : folderPlace host name side (tree.keep f) = .ok q) :
    folderPlace host name side tree = .ok q := by
  unfold folderPlace at h ⊢
  split at h <;> exact FileTree.walk_of_walk_keep h

end Wipe

/-! ## Removals -/

section Removal

/-- One folder of a deleted mailbox: nothing else is removed. -/
theorem removeFolder_keep (host : OfflineHost) (faults : OfflineFaults) (config : Config) (name : Str)
    (side : Side) (tree : FileTree) :
    ∃ f, (removeFolder host faults config name side tree).1 = tree.keep f ∧
      ∀ q, f q = false → ∃ p, folderPlace host name side tree = .ok p ∧ p <+: q := by
  have hself : ∃ f, tree = tree.keep f ∧
      ∀ q, f q = false → ∃ p, folderPlace host name side tree = .ok p ∧ p <+: q :=
    ⟨fun _ => true, (FileTree.keep_eq_self fun _ _ => rfl).symm, fun _ h => by cases h⟩
  unfold removeFolder
  split
  next p hplace hexists =>
      split
      next =>
          have htree := @FileTree.removeDirAll_tree (faults.remove side) tree p
          refine ⟨fun q => !tree.removesAll (faults.remove side) p q, ?_, ?_⟩
          · rw [← htree]
            cases tree.removeDirAll (faults.remove side) p with
            | mk tree' result => cases result <;> rfl
          · intro q hq
            exact ⟨p, hplace, FileTree.prefix_of_removesAll (by simpa using hq)⟩
      next => exact hself
  next => exact hself

/-- `delete_mailbox`: an error before the configuration is replaced leaves everything, and afterwards only
the folders of the mailbox are removed. -/
theorem deleteMailbox_cases (host : OfflineHost) (faults : OfflineFaults) (config : Config) (name : Str)
    (tree : FileTree) :
    (¬(name ≠ "catchall".toList ∧ Registered config name ∧ faults.save = none) ∧
        (∃ e, (deleteMailbox host faults config name tree).result = .error e) ∧
        (deleteMailbox host faults config name tree).written = none ∧
        (deleteMailbox host faults config name tree).tree = tree) ∨
      (Registered config name ∧ faults.save = none ∧
        (deleteMailbox host faults config name tree).written ≠ none ∧
        ∃ f, (deleteMailbox host faults config name tree).tree = tree.keep f ∧
          ∀ q, f q = false → ∃ side p, folderPlace host name side tree = .ok p ∧ p <+: q) := by
  unfold deleteMailbox Registered
  split
  next hname => exact .inl ⟨fun h => h.1 hname, ⟨_, rfl⟩, rfl, rfl⟩
  next hname =>
      split
      next hnone =>
          refine .inl ⟨fun h => ?_, ⟨_, rfl⟩, rfl, rfl⟩
          rw [Option.isNone_iff_eq_none.mp hnone] at h
          cases h.2.1
      next hsome =>
          unfold saveConfig
          cases hsave : faults.save with
          | some e => exact .inl ⟨fun h => by simp at h, ⟨_, rfl⟩, rfl, rfl⟩
          | none =>
              right
              refine ⟨by simpa [Option.isSome_iff_ne_none] using hsome, rfl, ?_⟩
              dsimp only
              obtain ⟨f, hinbox, hf⟩ := removeFolder_keep host faults config name .inbox tree
              obtain ⟨g, hsent, hg⟩ := removeFolder_keep host faults config name .sent (tree.keep f)
              rw [hinbox, hsent, FileTree.keep_keep]
              refine ⟨by split <;> simp, fun q => f q && g q, by split <;> rfl, ?_⟩
              intro q hq
              rw [Bool.and_eq_false_iff] at hq
              rcases hq with hfalse | hfalse
              · obtain ⟨p, hplace, hbelow⟩ := hf q hfalse
                exact ⟨.inbox, p, hplace, hbelow⟩
              · obtain ⟨p, hplace, hbelow⟩ := hg q hfalse
                exact ⟨.sent, p, folderPlace_of_keep hplace, hbelow⟩

variable {host : OfflineHost} {faults : OfflineFaults} {config : Config} {name : Str} {tree : FileTree}

/-- What is left after the wipe of both folders, and what is done then. -/
theorem delete_force_cases (hname : name ≠ "catchall".toList) :
    (ForceSucceeds host faults config name tree ∧
        (delete host faults config name true (.ok true) tree).written ≠ none ∧
        ∃ f : Place → Bool, (delete host faults config name true (.ok true) tree).tree =
            tree.keep (fun q => !wipesBoth host faults name tree q && f q) ∧
          ∀ q, f q = false → InRegistered host config tree q) ∨
      (¬ForceSucceeds host faults config name tree ∧
        (∃ e, (delete host faults config name true (.ok true) tree).result = .error e) ∧
        (delete host faults config name true (.ok true) tree).written = none ∧
        (delete host faults config name true (.ok true) tree).tree =
          tree.keep fun q => !wipesBoth host faults name tree q) := by
  obtain ⟨hinbox, hinboxOk⟩ := @wipeMailboxContents_eq host faults name .inbox tree
  obtain ⟨hsent, hsentOk⟩ :=
    @wipeMailboxContents_eq host faults name .sent (afterWipe host faults name .inbox tree)
  unfold delete ForceSucceeds
  rw [if_neg fun h => hname h.2]
  dsimp only
  rw [if_pos rfl]
  cases hfirst : wipeMailboxContents host faults name .inbox tree with
  | mk tree1 result =>
      rw [hfirst] at hinbox hinboxOk
      dsimp only at hinbox hinboxOk
      subst hinbox
      cases result with
      | error e =>
          -- the wipe stops in the first folder
          have hfails : ¬wipeDone host faults name .inbox tree = true := by
            rw [← hinboxOk]
            exact fun heq => by cases heq
          refine .inr ⟨fun h => hfails h.1, ⟨e, rfl⟩, rfl, ?_⟩
          show afterWipe host faults name .inbox tree = _
          unfold afterWipe wipesBoth
          simp [hfails]
      | ok _ =>
          have hdone : wipeDone host faults name .inbox tree = true := hinboxOk.mp rfl
          have hboth : afterWipe host faults name .sent (afterWipe host faults name .inbox tree) =
              tree.keep fun q => !wipesBoth host faults name tree q := by
            unfold wipesBoth
            rw [hdone]
            conv_lhs => unfold afterWipe
            rw [FileTree.keep_keep]
            simp [afterWipe]
          dsimp only
          cases hsecond : wipeMailboxContents host faults name .sent
              (afterWipe host faults name .inbox tree) with
          | mk tree2 result =>
              rw [hsecond] at hsent hsentOk
              dsimp only at hsent hsentOk
              subst hsent
              cases result with
              | error e =>
                  refine .inr ⟨fun h => ?_, ⟨e, rfl⟩, rfl, hboth⟩
                  cases hsentOk.mpr h.2.1
              | ok _ =>
                  have hdone' := hsentOk.mp rfl
                  dsimp only
                  rw [hboth]
                  rcases deleteMailbox_cases host faults config name
                      (tree.keep fun q => !wipesBoth host faults name tree q) with
                    ⟨hnot, herror, hwritten, htree⟩ | ⟨hregistered, hsave, hwritten, f, htree, hf⟩
                  · exact .inr ⟨fun h => hnot ⟨hname, h.2.2⟩, herror, hwritten, htree⟩
                  · refine .inl ⟨⟨hdone, hdone', hregistered, hsave⟩, hwritten, f, ?_, ?_⟩
                    · rw [htree, FileTree.keep_keep]
                    · intro q hq
                      obtain ⟨side, p, hplace, hbelow⟩ := hf q hq
                      exact ⟨name, side, p, hregistered, folderPlace_of_keep hplace, hbelow⟩

end Removal

/-! ## Creations -/

section Creation

variable {host : OfflineHost} {faults : OfflineFaults} {config : Config} {name : Str}
  {tree tree' : FileTree} {side : Side}

/-- The new folders are apart. -/
theorem newPlace_disjoint {side side' : Side} (hne : side ≠ side') {q : Place}
    (h : newPlace host name side <+: q) : ¬newPlace host name side' <+: q := by
  intro h'
  have hlen : (newPlace host name side).length = (newPlace host name side').length := by
    simp [newPlace]
  have heq := (List.prefix_of_prefix_length_le h h' (Nat.le_of_eq hlen)).eq_of_length hlen
  unfold newPlace at heq
  rw [List.append_cancel_left_eq, List.cons.injEq] at heq
  cases side <;> cases side' <;> first | exact hne rfl | exact absurd heq.1 (by decide)

variable (host name) in
/-- More than was there: directories on the way to the new folders, where nothing stood. -/
def Extends (tree tree' : FileTree) : Prop :=
  ∃ new, tree'.nodes = tree.nodes ++ new ∧
    ∀ n ∈ new, tree.kind n.1 = none ∧ ∃ side, n.1 <+: newPlace host name side

variable (host name) in
theorem extends_makeDirs (fault : Place → Option Str) (side : Side) (tree : FileTree) :
    Extends host name tree (FileTree.makeDirs fault [] (newPlace host name side) tree).1 := by
  obtain ⟨new, hnodes, hnew⟩ := FileTree.makeDirs_nodes fault [] (newPlace host name side) tree
  exact ⟨new, hnodes, fun n hn => ⟨(hnew n hn).2, side, (hnew n hn).1⟩⟩

theorem Extends.trans {tree'' : FileTree} (h : Extends host name tree tree')
    (h' : Extends host name tree' tree'') : Extends host name tree tree'' := by
  obtain ⟨new, hnodes, hnew⟩ := h
  obtain ⟨new', hnodes', hnew'⟩ := h'
  refine ⟨new ++ new', by rw [hnodes', hnodes, List.append_assoc], ?_⟩
  intro n hn
  rcases List.mem_append.mp hn with hn | hn
  · exact hnew n hn
  · refine ⟨?_, (hnew' n hn).2⟩
    have hnone := FileTree.kind_eq_none_iff.mp (hnew' n hn).1
    refine FileTree.kind_eq_none_iff.mpr ⟨hnone.1, fun n' hn' => hnone.2 n' ?_⟩
    rw [hnodes]
    exact List.mem_append_left _ hn'

theorem Extends.mem (h : Extends host name tree tree') {n : Place × PlaceKind} (hn : n ∈ tree.nodes) :
    n ∈ tree'.nodes := by
  obtain ⟨new, hnodes, -⟩ := h
  rw [hnodes]
  exact List.mem_append_left _ hn

/-- What was at a new folder is cleaned up unless something in it stays. -/
theorem removesAll_iff (h : Extends host name tree tree') {fault : Place → Option Str}
    (hdir : tree'.kind (newPlace host name side) = some .dir) {n : Place × PlaceKind}
    (hn : n ∈ tree.nodes) : tree'.removesAll fault (newPlace host name side) n.1 = true ↔
      newPlace host name side <+: n.1 ∧ tree.stays fault n.1 = false := by
  unfold FileTree.removesAll
  rw [hdir, beq_self_eq_true, Bool.true_and, Bool.and_eq_true, List.isPrefixOf_iff_prefix]
  refine and_congr_right fun hbelow => ?_
  obtain ⟨new, hnodes, hnew⟩ := h
  -- nothing that is new is in what was there
  have hsame : tree'.stays fault n.1 = tree.stays fault n.1 := by
    refine FileTree.stays_append hnodes fun n' hn' hle => ?_
    obtain ⟨hnone, side', hside'⟩ := hnew n' hn'
    by_cases hside : side = side'
    · subst hside
      have heq := (hle.trans hside').eq_of_length
        (Nat.le_antisymm (hle.trans hside').length_le hbelow.length_le)
      have heq' : n.1 = n'.1 := hle.eq_of_length
        (Nat.le_antisymm hle.length_le (by rw [heq]; exact hside'.length_le))
      exact (FileTree.kind_eq_none_iff.mp hnone).2 n hn heq'
    · exact newPlace_disjoint hside ((hbelow.trans hle).trans hside') List.prefix_rfl
  rw [hsame, Bool.not_eq_true']

theorem spared_iff (h : Extends host name tree tree')
    (hdir : tree'.kind (newPlace host name side) = some .dir) :
    (∀ n ∈ tree.nodes, tree'.removesAll (faults.cleanUp side) (newPlace host name side) n.1 = false) ↔
      Spared host faults name side tree := by
  unfold Spared
  refine forall_congr' fun n => imp_congr_right fun hn => ?_
  rw [← Bool.not_eq_true, removesAll_iff h hdir hn, not_and, Bool.not_eq_false]

variable (host faults name) in
theorem makeDirs_ok_iff_canMake (side : Side) (tree : FileTree) :
    (FileTree.makeDirs faults.mkdir [] (newPlace host name side) tree).2 = .ok () ↔
      CanMake host faults name side tree := by
  rw [FileTree.makeDirs_ok_iff]
  unfold CanMake
  refine forall_congr' fun q => ?_
  rw [List.nil_append]
  exact forall_prop_of_true List.nil_prefix

/-- After the inbox is made the way to the other folder is as free as before. -/
theorem canMake_sent_iff (h : CanMake host faults name .inbox tree) :
    CanMake host faults name .sent
        (FileTree.makeDirs faults.mkdir [] (newPlace host name .inbox) tree).1 ↔
      CanMake host faults name .sent tree := by
  have hok := (makeDirs_ok_iff_canMake host faults name .inbox tree).mpr h
  obtain ⟨new, hnodes, hnew⟩ :=
    FileTree.makeDirs_nodes faults.mkdir [] (newPlace host name .inbox) tree
  refine forall_congr' fun q => imp_congr_right fun hne => imp_congr_right fun _ => ?_
  by_cases hq : q <+: newPlace host name .inbox
  · have hdir := FileTree.kind_makeDirs (p := []) rfl hok List.nil_prefix hq
    exact iff_of_true (.inl hdir) (h q hne hq)
  · rw [FileTree.kind_append_of_ne hnodes fun n hn heq => hq ?_]
    rw [← heq]
    exact (hnew n hn).1

theorem chownFolders_ok_iff (owner : Str) :
    chownFolders host faults owner = .ok () ↔ CanChown host faults owner := by
  have hone : ∀ side, chownFolder host faults owner side = .ok () ↔
      (∃ ids, ownerIds host.resolveUser owner = .ok ids) ∧
        faults.chown side = none ∧ faults.chmod side = none := by
    intro side
    unfold chownFolder
    cases ownerIds host.resolveUser owner with
    | error e => simp
    | ok ids =>
        cases hchown : faults.chown side with
        | some e => simp
        | none => cases hchmod : faults.chmod side <;> simp
  have hboth : chownFolders host faults owner = .ok () ↔
      chownFolder host faults owner .inbox = .ok () ∧ chownFolder host faults owner .sent = .ok () := by
    unfold chownFolders
    cases chownFolder host faults owner .inbox with
    | error e => simp
    | ok _ => cases chownFolder host faults owner .sent <;> simp
  rw [hboth, hone, hone]
  constructor
  · rintro ⟨⟨hids, hinbox⟩, -, hsent⟩
    exact ⟨hids, fun side => by cases side <;> assumption⟩
  · rintro ⟨hids, hall⟩
    exact ⟨⟨hids, hall .inbox⟩, hids, hall .sent⟩

/-- What the clean-up of both folders leaves of what was there. -/
theorem cleanUp_keeps_iff (h : Extends host name tree tree')
    (hinbox : tree'.kind (newPlace host name .inbox) = some .dir)
    (hsent : tree'.kind (newPlace host name .sent) = some .dir) :
    (∀ n ∈ tree.nodes, n ∈ ((tree'.removeDirAll (faults.cleanUp .inbox)
        (newPlace host name .inbox)).1.removeDirAll (faults.cleanUp .sent)
          (newPlace host name .sent)).1.nodes) ↔
      Spared host faults name .inbox tree ∧ Spared host faults name .sent tree := by
  have hapart : ∀ q, newPlace host name .sent <+: q →
      (!tree'.removesAll (faults.cleanUp .inbox) (newPlace host name .inbox) q) = true := by
    intro q hq
    rw [Bool.not_eq_true', ← Bool.not_eq_true]
    intro hremoves
    exact newPlace_disjoint (by decide) hq (FileTree.prefix_of_removesAll hremoves)
  rw [FileTree.removeDirAll_tree, FileTree.removeDirAll_tree, FileTree.removesAll_keep hapart,
    ← spared_iff h hinbox, ← spared_iff h hsent, ← forall₂_and]
  refine forall_congr' fun n => forall_congr' fun hn => ?_
  simp [h.mem hn]

/-- **A creation removes nothing** exactly when its clean-up has nothing to remove but what it made. -/
theorem createMailbox_keeps_iff (owner : Str) :
    (∀ n ∈ tree.nodes, n ∈ (createMailbox host faults config name owner tree).tree.nodes) ↔
      (Command.create (.ok owner)).Careful host faults config name tree := by
  unfold createMailbox Command.Careful Registered
  cases hvalid : validateMailboxName name with
  | error e => simp
  | ok _ =>
      dsimp only
      by_cases hregistered : (config.mailboxes.lookup name).isSome = true
      · simp [hregistered]
      rw [if_neg hregistered]
      have hmade := makeDirs_ok_iff_canMake host faults name .inbox tree
      have hextends := extends_makeDirs host name faults.mkdir .inbox tree
      have hrest := @canMake_sent_iff host faults name tree
      have hdir := @FileTree.kind_makeDirs faults.mkdir tree [] (newPlace host name .inbox)
        (newPlace host name .inbox) rfl
      cases hinbox : FileTree.makeDirs faults.mkdir [] (newPlace host name .inbox) tree with
      | mk tree1 result =>
          rw [hinbox] at hmade hextends hrest hdir
          cases result with
          | error e =>
              have hnot : ¬CanMake host faults name .inbox tree := by
                rw [← hmade]
                exact fun heq => by cases heq
              exact iff_of_true (fun n hn => hextends.mem hn) fun _ _ h => absurd h hnot
          | ok _ =>
              have hcan : CanMake host faults name .inbox tree := hmade.mp rfl
              have hmade' := (makeDirs_ok_iff_canMake host faults name .sent tree1).trans (hrest hcan)
              have hextends' := hextends.trans (extends_makeDirs host name faults.mkdir .sent tree1)
              have hdir' := @FileTree.kind_makeDirs faults.mkdir tree1 [] (newPlace host name .sent)
                (newPlace host name .sent) rfl
              -- the inbox is still there after the other folder
              have hinboxDir : (FileTree.makeDirs faults.mkdir [] (newPlace host name .sent) tree1).1.kind
                  (newPlace host name .inbox) = some .dir := by
                obtain ⟨new, hnodes, -⟩ :=
                  FileTree.makeDirs_nodes faults.mkdir [] (newPlace host name .sent) tree1
                exact FileTree.kind_append hnodes (hdir rfl List.nil_prefix List.prefix_rfl)
              simp only [hregistered, hcan, forall_true_left, Bool.false_eq_true, not_false_eq_true]
              cases hsent : FileTree.makeDirs faults.mkdir [] (newPlace host name .sent) tree1 with
              | mk tree2 result =>
                  rw [hsent] at hmade' hextends' hdir' hinboxDir
                  cases result with
                  | error e =>
                      have hnot : ¬CanMake host faults name .sent tree := by
                        rw [← hmade']
                        exact fun heq => by cases heq
                      rw [and_iff_left fun h => absurd h hnot, forall_prop_of_true hnot,
                        ← spared_iff hextends' hinboxDir]
                      dsimp only
                      rw [FileTree.removeDirAll_tree]
                      refine forall_congr' fun n => forall_congr' fun hn => ?_
                      simp [hextends'.mem hn]
                  | ok _ =>
                      have hcan' : CanMake host faults name .sent tree := hmade'.mp rfl
                      have hchown := @chownFolders_ok_iff host faults owner
                      rw [and_iff_right fun h => absurd hcan' h, forall_prop_of_true hcan']
                      dsimp only
                      cases howner : chownFolders host faults owner with
                      | error e =>
                          obtain ⟨side, e⟩ := e
                          rw [howner] at hchown
                          have hnot : ¬CanChown host faults owner := by
                            rw [← hchown]
                            exact fun heq => by cases heq
                          rw [forall_prop_of_true hnot]
                          exact cleanUp_keeps_iff hextends' hinboxDir
                            (hdir' rfl List.nil_prefix List.prefix_rfl)
                      | ok _ =>
                          have hcanChown : CanChown host faults owner := hchown.mp howner
                          refine iff_of_true ?_ fun h => absurd hcanChown h
                          intro n hn
                          unfold saveConfig
                          cases faults.save <;> exact hextends'.mem hn

end Creation

/-! ## Every command -/

section Every

variable {host : OfflineHost} {faults : OfflineFaults} {config : Config} {name : Str} {tree : FileTree}

theorem onlyAsked_of_kept {cmd : Command} {out : Outcome} (h : ∀ n ∈ tree.nodes, n ∈ out.tree.nodes) :
    OnlyAsked host config cmd tree out where
  within := fun n hn hnot => absurd (h n hn) hnot
  created := fun _ _ => h
  stored := fun _ _ n hn _ => h n hn

/-- A removal without `--force` never goes wrong. -/
theorem onlyAsked_deleteMailbox (cmd : Command) (hcmd : ∀ owner, cmd ≠ .create owner) :
    OnlyAsked host config cmd tree (deleteMailbox host faults config name tree) := by
  rcases deleteMailbox_cases host faults config name tree with
    ⟨-, -, -, htree⟩ | ⟨hregistered, -, hwritten, f, htree, hf⟩
  · refine onlyAsked_of_kept fun n hn => ?_
    rw [htree]
    exact hn
  · constructor
    case within =>
      intro n hn hnot
      rw [htree, FileTree.mem_keep, not_and, Bool.not_eq_true] at hnot
      obtain ⟨side, p, hplace, hbelow⟩ := hf n.1 (hnot hn)
      exact ⟨name, side, p, hregistered, hplace, hbelow⟩
    case created => exact fun owner heq => absurd heq (hcmd owner)
    case stored => exact fun _ hnone => absurd hnone hwritten

/-- A removal with `--force`, once it is confirmed. -/
theorem onlyAsked_force_iff (hname : name ≠ "catchall".toList) :
    OnlyAsked host config (.delete true (.ok true)) tree
        (delete host faults config name true (.ok true) tree) ↔
      ∀ n ∈ tree.nodes, wipesBoth host faults name tree n.1 = true →
        InRegistered host config tree n.1 ∧
          (InMessage host tree n → ForceSucceeds host faults config name tree) := by
  rcases @delete_force_cases host faults config name tree hname with
    ⟨hsucceeds, hwritten, f, htree, hf⟩ | ⟨hfails, herror, hwritten, htree⟩
  · constructor
    · intro h n hn hwipes
      refine ⟨h.within n hn ?_, fun _ => hsucceeds⟩
      rw [htree, FileTree.mem_keep]
      simp [hwipes]
    · intro h
      constructor
      case within =>
        intro n hn hnot
        rw [htree, FileTree.mem_keep, not_and, Bool.not_eq_true, Bool.and_eq_false_iff,
          Bool.not_eq_false'] at hnot
        rcases hnot hn with hwipes | hfalse
        · exact (h n hn hwipes).1
        · exact hf n.1 hfalse
      case created => exact fun owner heq => by cases heq
      case stored => exact fun _ hnone => absurd hnone hwritten
  · have hgone : ∀ n ∈ tree.nodes, (n ∉ (delete host faults config name true (.ok true) tree).tree.nodes ↔
        wipesBoth host faults name tree n.1 = true) := by
      intro n hn
      rw [htree, FileTree.mem_keep]
      simp [hn]
    constructor
    · intro h n hn hwipes
      refine ⟨h.within n hn ((hgone n hn).mpr hwipes), fun hmessage => ?_⟩
      exact absurd (h.stored herror hwritten n hn hmessage) ((hgone n hn).mpr hwipes)
    · intro h
      constructor
      case within => exact fun n hn hnot => (h n hn ((hgone n hn).mp hnot)).1
      case created => exact fun owner heq => by cases heq
      case stored =>
        intro _ _ n hn hmessage
        by_contra hnot
        exact hfails ((h n hn ((hgone n hn).mp hnot)).2 hmessage)

end Every

/-! ## A name that is no mailbox -/

/-- A host with the data directory `/var/lib/aimx`. -/
def sampleHost : OfflineHost where
  root := ["var", "lib", "aimx"].map String.toList
  configPath := "/etc/aimx/config.toml".toList
  resolveUser := fun _ => none
  debug := fun c => ['\'', c, '\'']

/-- No call fails. -/
def noFaults : OfflineFaults :=
  ⟨fun _ => none, fun _ => none, fun _ => none, fun _ _ => none, fun _ => none, fun _ _ => none,
    fun _ _ => none, fun _ _ => none, none, fun _ => none, fun _ _ => none⟩

/-- The DKIM key and a message of `bob`, in the order in which they are listed. -/
def sampleTree : FileTree where
  nodes := [(["var"], .dir), (["var", "lib"], .dir), (["var", "lib", "aimx"], .dir),
    (["var", "lib", "aimx", "dkim"], .dir), (["var", "lib", "aimx", "dkim", "private.key"], .file),
    (["var", "lib", "aimx", "inbox"], .dir), (["var", "lib", "aimx", "inbox", "bob"], .dir),
    (["var", "lib", "aimx", "inbox", "bob", "note.md"], .file)].map fun n => (n.1.map String.toList, n.2)
  nodup := by decide

end Cli
end Aimx
