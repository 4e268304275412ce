import Aimx.Daemon.Disk
import Aimx.Protocol.Response

/-!
# Requests on mailboxes and hooks

`handle_mailbox_crud`, `handle_hook_create`, `handle_hook_delete` and the first half of `handle_mark`.
Each request runs in two parts: the checks that are made on a snapshot before any lock is taken, whose
outcome is a `Plan`, and the part under the mailbox lock and the configuration lock, which works on the
configuration it finds then, changes the disk, and ends in the store of a new configuration.

* `hookCreateCheck`, `hookDeleteCheck`, `mailboxCheck` — the checks on the snapshot;
* `hookCreateCommit`, `hookDeleteCommit`, `handleCreate`, `handleDelete` — the parts under the locks;
* `Plan.execute`, `handle` — one request from its arrival to its answer;
* `sampleConfig`, `sampleEnv` — a small installation.
-/

namespace Aimx
namespace Daemon

open Text Protocol

/-! ## Texts -/

/-- `no_such_mailbox_reason`. -/
def noSuchMailboxReason (name : Str) : Str := "mailbox '".toList ++ name ++ "' does not exist".toList

/-- `not_authorized_wire_reason`. -/
def notAuthorizedWireReason : Str := "not authorized".toList

/-- The text for a hook that is not there, or not the caller's. -/
def hookNotFound (name : Str) : Str := "hook '".toList ++ name ++ "' not found".toList

/-! ## HOOK-CREATE -/

section Hooks

variable (env : HandlerEnv)

/-- The hook that a HOOK-CREATE request submits, after all checks on the request alone. -/
def submittedHook (req : HookCreateRequest) : Except Reject Hook :=
  match parseEvent req.event with
  | .error reason => .error ⟨.validation, reason⟩
  | .ok event =>
      match req.name.filter fun name => !isValidHookName name with
      | some name => .error ⟨.validation, "invalid hook name '".toList ++ name ++
          "': must match [a-zA-Z0-9_][a-zA-Z0-9_.-]\x7b0,127\x7d".toList⟩
      | none =>
          match rejectLegacyBodyFields (env.parseJson req.body) with
          | .error reason => .error ⟨.protocol, reason⟩
          | .ok () =>
              match (env.parseJson req.body).bind HookCreateBody.ofJson with
              | none => .error ⟨.protocol,
                  "invalid HOOK-CREATE body: ".toList ++ env.bodyError req.body⟩
              | some body =>
                  match validateSingleHook (body.toHook req.name event) with
                  | .error reason => .error ⟨.validation, reason⟩
                  | .ok () => .ok (body.toHook req.name event)

/-- `handle_hook_create` up to the locks. -/
def hookCreateCheck (config : Config) (req : HookCreateRequest) (caller : Caller) :
    Except Reject Hook :=
  match config.mailboxes.lookup req.mailbox with
  | none => .error ⟨.enoent, noSuchMailboxReason req.mailbox⟩
  | some mailbox =>
      match enforceMailboxOwnerOrRoot caller req.mailbox mailbox with
      | .error reject => .error reject
      | .ok () =>
          if mailbox.isCatchall config then
            .error ⟨.mailbox, "mailbox '".toList ++ req.mailbox ++
              "' is the catchall; hooks on the catchall are forbidden".toList⟩
          else submittedHook env req

/-- `handle_hook_create` under the locks, up to the write. -/
def hookCreateCommit (config : Config) (mailbox : Str) (hook : Hook) : Except Reject Config :=
  match config.mailboxes.lookup mailbox with
  | none => .error ⟨.enoent, "mailbox '".toList ++ mailbox ++
      "' does not exist (race with concurrent MAILBOX-DELETE)".toList⟩
  | some _ =>
      match validateHooks env.sha256 (config.pushHook mailbox hook) with
      | .error reason => .error ⟨.validation, reason⟩
      | .ok () => .ok (config.pushHook mailbox hook)

/-! ## HOOK-DELETE -/

/-- `find_hook_owner`. -/
def findHookOwner (config : Config) (name : Str) : Option Str :=
  (config.allHooks.find? fun h => effectiveHookName env.sha256 h.2 == name).map Prod.fst

/-- `handle_hook_delete` up to the locks: the mailbox that the hook is on. -/
def hookDeleteCheck (config : Config) (req : HookDeleteRequest) (caller : Caller) :
    Except Reject Str :=
  match findHookOwner env config req.name with
  | none => .error ⟨.enoent, hookNotFound req.name⟩
  | some name =>
      match config.mailboxes.lookup name with
      | none => .error ⟨.enoent, hookNotFound req.name⟩
      | some mailbox =>
          match enforceMailboxOwnerOrRoot caller name mailbox with
          | .error _ => .error ⟨.enoent, hookNotFound req.name⟩
          | .ok () => .ok name

/-- `handle_hook_delete` under the locks, up to the write. -/
def hookDeleteCommit (config : Config) (mailbox name : Str) : Except Reject Config :=
  match config.mailboxes.lookup mailbox with
  | none => .error ⟨.enoent, hookNotFound name⟩
  | some mb =>
      if (mb.retainHooks env.sha256 name).hooks.length = mb.hooks.length then
        .error ⟨.enoent, hookNotFound name⟩
      else .ok (config.retainHooks env.sha256 mailbox name)

end Hooks

/-! ## MAILBOX-CREATE and MAILBOX-DELETE -/

section Mailboxes

variable (env : HandlerEnv)

/-- The owner of a new mailbox: named by root, and the caller itself for everybody else. -/
def resolvedOwner (req : MailboxLifecycleRequest) (caller : Caller) : Except Reject Str :=
  if caller.isRoot then
    match req.owner with
    | some owner => .ok owner
    | none => .error ⟨.validation, "MAILBOX-CREATE requires an Owner: header".toList⟩
  else
    match caller.peerUsername with
    | .ok name => .ok name
    | .error reason => .error ⟨.validation, reason⟩

/-- `resolve_owner_ids`. -/
def resolveOwnerIds (owner : Str) : Except Str (UInt32 × UInt32) :=
  match ownerIds env.users.resolveUser owner with
  | .ok ids => .ok ids
  | .error _ => .error ("unknown owner '".toList ++ owner ++ "'".toList)

/-- The stanza of a new mailbox. -/
def newMailbox (config : Config) (name owner : Str) : MailboxConfig where
  address := name ++ '@' :: config.domain
  owner := owner
  hooks := []
  trust := none
  trustedSenders := none
  allowRootCatchall := false

/-- The part of `check_preexisting_dirs` about one folder. -/
def checkPreexistingDir (faults : Faults) (name : Str) (uid gid : UInt32) (disk : Disk)
    (side : Side) : Option Reject :=
  let path := env.folderPath side name
  match faults (.lstat side) with
  | some e => some ⟨.io, "stat ".toList ++ path ++ " failed: ".toList ++ e⟩
  | none =>
      match disk.nodes side name with
      | none => none
      | some .other => some ⟨.conflict, path ++
          " exists but is not a directory; remove it before creating the mailbox".toList⟩
      | some (.folder f) =>
          if f.uid ≠ uid ∨ f.gid ≠ gid then
            some ⟨.conflict, path ++ " already exists with owner ".toList ++ decimal f.uid.toNat ++
              ":".toList ++ decimal f.gid.toNat ++ ", expected ".toList ++ decimal uid.toNat ++
              ":".toList ++ decimal gid.toNat ++ "; run `chown -R ".toList ++ decimal uid.toNat ++
              ":".toList ++ decimal gid.toNat ++ " ".toList ++ path ++
              "` (and the matching sibling) and retry".toList⟩
          else none

/-- `check_preexisting_dirs`. -/
def checkPreexistingDirs (faults : Faults) (name : Str) (uid gid : UInt32) (disk : Disk) :
    Option Reject :=
  [Side.inbox, Side.sent].findSome? (checkPreexistingDir env faults name uid gid disk)

/-- The creation of both folders in `handle_create`: a failure at the second removes the first. -/
def createFolders (faults : Faults) (name : Str) (disk : Disk) : Disk × Except Reject Unit :=
  match createDirAll faults .inbox name disk with
  | (disk', .error e) => (disk', .error ⟨.io,
      "failed to create ".toList ++ env.folderPath .inbox name ++ ": ".toList ++ e⟩)
  | (disk', .ok ()) =>
      match createDirAll faults .sent name disk' with
      | (disk'', .error e) =>
          (if pathExists faults .inbox name disk then disk'' else removeDir faults .inbox name disk'',
            .error ⟨.io,
              "failed to create ".toList ++ env.folderPath .sent name ++ ": ".toList ++ e⟩)
      | (disk'', .ok ()) => (disk'', .ok ())

/-- The steps of `handle_create` behind the creation of the folders, each of which is rolled back by
`rollback_self_created_dirs`. -/
def claimFolders (faults : Faults) (name : Str) (mb : MailboxConfig) (config : Config)
    (disk : Disk) : Disk × Except Reject Unit :=
  match chownAsOwner env faults .inbox name mb 0o700 disk with
  | (disk, .error e) => (disk, .error ⟨.io,
      "failed to chown ".toList ++ env.folderPath .inbox name ++ ": ".toList ++ e⟩)
  | (disk, .ok ()) =>
      match chownAsOwner env faults .sent name mb 0o700 disk with
      | (disk, .error e) => (disk, .error ⟨.io,
          "failed to chown ".toList ++ env.folderPath .sent name ++ ": ".toList ++ e⟩)
      | (disk, .ok ()) =>
          match writeAtomic env faults config disk with
          | (disk, .error e) => (disk, .error ⟨.io,
              "failed to write ".toList ++ env.configPath ++ ": ".toList ++ e⟩)
          | (disk, .ok ()) => (disk, .ok ())

/-- `handle_create` up to the store. -/
def handleCreate (faults : Faults) (name owner : Str) (config : Config) (disk : Disk) :
    Disk × Except Reject Config :=
  if name ∈ config.mailboxes then
    (disk, .error ⟨.mailbox, "mailbox '".toList ++ name ++ "' already exists".toList⟩)
  else
    match resolveOwnerIds env owner with
    | .error reason => (disk, .error ⟨.validation, reason⟩)
    | .ok (uid, gid) =>
        match checkPreexistingDirs env faults name uid gid disk with
        | some reject => (disk, .error reject)
        | none =>
            match createFolders env faults name disk with
            | (disk', .error reject) => (disk', .error reject)
            | (disk', .ok ()) =>
                let mb := newMailbox config name owner
                match claimFolders env faults name mb (config.insertMailbox name mb) disk' with
                | (disk'', .error reject) =>
                    (rollbackSelfCreatedDirs faults name (pathExists faults .inbox name disk)
                      (pathExists faults .sent name disk) disk'', .error reject)
                | (disk'', .ok ()) => (disk'', .ok (config.insertMailbox name mb))

/-- `handle_delete` up to the store. -/
def handleDelete (faults : Faults) (name : Str) (force : Bool) (config : Config) (disk : Disk) :
    Disk × Except Reject Config :=
  if name = "catchall".toList then
    (disk, .error ⟨.mailbox, "cannot delete the catchall mailbox".toList⟩)
  else if name ∉ config.mailboxes then (disk, .error ⟨.mailbox, noSuchMailboxReason name⟩)
  else
    match if force then wipeMailboxDirs faults name disk else (disk, .ok ()) with
    | (disk, .error e) => (disk, .error ⟨.io,
        "failed to wipe mailbox '".toList ++ name ++ "': ".toList ++ e⟩)
    | (disk, .ok ()) =>
        let inboxFiles := countFilesIfExists faults .inbox name disk
        let sentFiles := countFilesIfExists faults .sent name disk
        if inboxFiles + sentFiles > 0 then
          (disk, .error ⟨.nonEmpty, "mailbox '".toList ++ name ++ "' has ".toList ++
            decimal (inboxFiles + sentFiles) ++ " files (".toList ++ decimal inboxFiles ++
            " in inbox, ".toList ++ decimal sentFiles ++
            " in sent); archive or remove them first".toList⟩)
        else
          match writeAtomic env faults (config.removeMailbox name) disk with
          | (disk, .error e) => (disk, .error ⟨.io,
              "failed to write ".toList ++ env.configPath ++ ": ".toList ++ e⟩)
          | (disk, .ok ()) => (disk, .ok (config.removeMailbox name))

/-- The owner check of MAILBOX-DELETE, made under the locks. -/
def authorizeDelete (config : Config) (name : Str) (caller : Caller) : Except Reject Unit :=
  match authorize env.users caller.uid (.mailboxDelete name) (config.mailboxes.lookup name) with
  | .ok () => .ok ()
  | .error (.notOwner _) => .error ⟨.mailbox, noSuchMailboxReason name⟩
  | .error .noSuchMailbox => .error ⟨.mailbox, noSuchMailboxReason name⟩
  | .error (.ownerMismatch _) => .error ⟨.mailbox, notAuthorizedWireReason⟩
  | .error .notRoot => .error ⟨.mailbox, notAuthorizedWireReason⟩

end Mailboxes

/-! ## Whole requests -/

/-- A request that changes the configuration. -/
inductive ConfigRequest
  | mailbox (req : MailboxLifecycleRequest)
  | hookCreate (req : HookCreateRequest)
  | hookDelete (req : HookDeleteRequest)
  deriving DecidableEq

/-- A request that has passed the checks made before its locks are taken. -/
inductive Plan
  | mailboxCreate (name owner : Str)
  | mailboxDelete (name : Str) (force : Bool)
  | hookCreate (mailbox : Str) (hook : Hook)
  | hookDelete (mailbox name : Str)
  deriving DecidableEq

/-- The mailbox whose lock the request takes. -/
def Plan.mailbox : Plan → Str
  | .mailboxCreate name _ => name
  | .mailboxDelete name _ => name
  | .hookCreate mailbox _ => mailbox
  | .hookDelete mailbox _ => mailbox

section Requests

variable (env : HandlerEnv)

/-- `handle_mailbox_crud` up to the locks. -/
def mailboxCheck (req : MailboxLifecycleRequest) (caller : Caller) : Except Reject Plan :=
  match validateMailboxName req.name with
  | .error e => .error ⟨.validation, e.display env.debug⟩
  | .ok () =>
      if req.create then (resolvedOwner req caller).map fun owner => .mailboxCreate req.name owner
      else .ok (.mailboxDelete req.name req.force)

/-- The checks that a request passes on the snapshot of its arrival. -/
def ConfigRequest.check (config : Config) (caller : Caller) : ConfigRequest → Except Reject Plan
  | .mailbox req => mailboxCheck env req caller
  | .hookCreate req => (hookCreateCheck env config req caller).map fun hook =>
      .hookCreate req.mailbox hook
  | .hookDelete req => (hookDeleteCheck env config req caller).map fun mailbox =>
      .hookDelete mailbox req.name

/-- The write at the end of the hook requests. -/
def writeBack (faults : Faults) (result : Except Reject Config) (disk : Disk) :
    Disk × Except Reject Config :=
  match result with
  | .error reject => (disk, .error reject)
  | .ok config =>
      match writeAtomic env faults config disk with
      | (disk, .error e) => (disk, .error ⟨.io,
          "failed to write ".toList ++ env.configPath ++ ": ".toList ++ e⟩)
      | (disk, .ok ()) => (disk, .ok config)

/-- The part of a request under its locks, up to the store of the new configuration. -/
def Plan.execute (faults : Faults) (caller : Caller) (config : Config) (disk : Disk) :
    Plan → Disk × Except Reject Config
  | .mailboxCreate name owner =>
      match authorize env.users caller.uid (.mailboxCreate caller.uid) none with
      | .error _ => (disk, .error ⟨.eaccess, notAuthorizedWireReason⟩)
      | .ok () => handleCreate env faults name owner config disk
  | .mailboxDelete name force =>
      match authorizeDelete env config name caller with
      | .error reject => (disk, .error reject)
      | .ok () => handleDelete env faults name force config disk
  | .hookCreate mailbox hook => writeBack env faults (hookCreateCommit env config mailbox hook) disk
  | .hookDelete mailbox name => writeBack env faults (hookDeleteCommit env config mailbox name) disk

/-- The daemon between two requests: the configuration in memory and the disk. -/
structure World where
  memory : Config
  disk : Disk

/-- One request, from its arrival to its answer, when no other request is under way. -/
def handle (faults : Faults) (world : World) (caller : Caller) (req : ConfigRequest) :
    World × AckResponse :=
  match req.check env world.memory caller with
  | .error reject => (world, .err reject)
  | .ok plan =>
      match plan.execute env faults caller world.memory world.disk with
      | (disk, .error reject) => ({ world with disk := disk }, .err reject)
      | (disk, .ok config) => (⟨config, disk⟩, .ok)

end Requests

/-! ## A small installation -/

/-- A mailbox of a user. -/
def sampleMailbox (address owner : String) (hooks : List Hook) : MailboxConfig where
  address := address.toList
  owner := owner.toList
  hooks := hooks
  trust := none
  trustedSenders := none
  allowRootCatchall := false

/-- A configuration with some mailboxes. -/
def sampleConfig (mailboxes : List (String × MailboxConfig)) : Config where
  domain := "example.org".toList
  dataDir := "/var/lib/aimx".toList
  dkimSelector := "aimx".toList
  trust := "none".toList
  trustedSenders := []
  mailboxes := (mailboxes.map fun m => (⟨m.1.toList, m.2⟩ : Sigma fun _ : Str => MailboxConfig)).toAList
  verifyHost := none
  enableIpv6 := false
  signature := none
  upgrade := none

/-- A hook that runs a program. -/
def sampleHook (name : Option String) (program : String) : Hook where
  name := name.map String.toList
  event := .onReceive
  type := "cmd".toList
  cmd := [program.toList]
  fireOnUntrusted := false
  timeoutSecs := 60

/-- The user `bob` on a connection. -/
def sampleBob : Caller := ⟨1000, some "bob".toList⟩

/-- The user `root` on a connection. -/
def sampleRoot : Caller := ⟨0, some "root".toList⟩

/-- The body of a HOOK-CREATE request for one program. -/
def sampleBody : Bytes := utf8 "\x7b\"cmd\":[\"/bin/true\"]\x7d".toList

/-- Surroundings with the users `bob` and `alice`, in which that body is parsed, and a configuration is
printed as the names of its mailboxes. -/
def sampleEnv : HandlerEnv where
  users := passwd [("root", 0), ("bob", 1000), ("alice", 1001), ("aimx-catchall", 990)]
  sha256 := id
  debug := fun c => "'".toList ++ [c] ++ "'".toList
  parseJson := fun b =>
    if b = sampleBody then
      some (.object [("cmd".toList, .array [.string "/bin/true".toList])])
    else none
  bodyError := fun _ => "expected value at line 1 column 1".toList
  print := fun c => .ok (c.mailboxes.keys.flatMap fun name => name ++ ['\n'])
  dataDir := "/var/lib/aimx".toList
  configPath := "/etc/aimx/config.toml".toList

end Daemon
end Aimx
