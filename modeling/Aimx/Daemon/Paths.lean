import Aimx.Daemon.Mark
import Aimx.Mcp.Reply
import Aimx.Text.LinkCalls
import Mathlib.Data.List.DropRight

/-!
# Requests and their paths

The requests that work on the folders of one mailbox, call by call, on a file system in which the owner of
the mailbox may have put links, directories and special files.

* `resolveEmailPathStrict` — the file of a message;
* `markPath`, `emailRead`, `emailReply` — the requests that read it, and the one that replaces it;
* `createMailboxPaths`, `deleteMailboxPaths` — `handle_create` and `handle_delete`.
-/

namespace Aimx
namespace Daemon

open Text LinkTree Protocol Ingest Mcp

/-! ## The requests -/

/-- What the requests take from their surroundings: the handlers' own, the TOML library, the time, the
process id, the data directory and the configuration file, and the owner and group that a directory has. -/
structure PathEnv where
  handlers : HandlerEnv
  toml : Toml
  tomlError : Str → Str
  now : Str
  pid : Str
  dataDir : List Str
  configPath : List Str
  ids : List Str → UInt32 × UInt32

/-- The text of a path. -/
def pathText (path : List Str) : Str := path.flatMap fun c => '/' :: c

/-- `Path::parent`. -/
def parentPath (path : List Str) : List Str := path.dropLast.rdropWhile fun c => c == ".".toList

/-- The temporary file beside a file. -/
def tempPath (pid default : Str) (path : List Str) : List Str :=
  parentPath path ++ ['.' :: path.getLast?.getD default ++ ".tmp.".toList ++ pid]

section Requests

variable (env : PathEnv)

/-- The path of a mailbox folder. -/
def PathEnv.folder (side : Side) (name : Str) : List Str := env.dataDir ++ [side.dirName, name]

/-- The temporary file of the configuration file. -/
def PathEnv.configTemp : List Str := tempPath env.pid "config.toml".toList env.configPath

/-- `resolve_email_path_strict`. -/
def resolveEmailPathStrict (mailboxDir : List Str) (id : Str) : Calls (Option (List Str)) := do
  match ← canonicalize mailboxDir with
  | .error _ => return none
  | .ok mailboxCanon =>
      let flat := mailboxDir ++ [messageFile id]
      match ← lstat flat with
      | .ok (.file _) =>
          match ← canonicalize flat with
          | .error _ => return none
          | .ok candidate => return if mailboxCanon.isPrefixOf candidate then some flat else none
      | .ok _ => return none
      | .error .missing =>
          let bundleDir := mailboxDir ++ [id]
          match ← lstat bundleDir with
          | .ok .dir =>
              let bundleMd := bundleDir ++ [messageFile id]
              match ← lstat bundleMd with
              | .ok (.file _) =>
                  match ← canonicalize bundleMd with
                  | .error _ => return none
                  | .ok candidate =>
                      return if mailboxCanon.isPrefixOf candidate then some bundleMd else none
              | .ok _ => return none
              | .error _ => return none
          | .ok _ => return none
          | .error _ => return none
      | .error _ => return none

/-- `std::fs::read_to_string`. -/
def readToString (path : List Str) : Calls (Except IoError Str) := do
  match ← readFile path with
  | .error e => return .error e
  | .ok bytes =>
      match fromUtf8 bytes with
      | none => return .error (.other "stream did not contain valid UTF-8".toList)
      | some content => return .ok content

/-- `chown_as_owner`. -/
def chownPath (path : List Str) (mb : MailboxConfig) : Calls (Except IoError Unit) := do
  match ownerIds env.handlers.users.resolveUser mb.owner with
  | .error e => return .error (.other ("resolve owner uid for '".toList ++ mb.owner ++ "': ".toList ++
      e.display))
  | .ok _ =>
      match ← changeOwner path with
      | .error e => return .error e
      | .ok () => changeOwner path

/-- The end of `handle_mark`: the new text goes to a temporary file, which is put in place. -/
def replaceFile (mb : MailboxConfig) (path : List Str) (text : Str) : Calls AckResponse := do
  let tmp := tempPath env.pid "mark".toList path
  match ← writeFile tmp (utf8 text) with
  | .error e => return .err ⟨.io, "failed to write ".toList ++ pathText tmp ++ ": ".toList ++ e.display⟩
  | .ok () =>
      -- a failure is logged
      let _ ← chownPath env tmp mb
      match ← renameFile tmp path with
      | .ok () => return .ok
      | .error e =>
          let _ ← removeFile tmp
          return .err ⟨.io, "failed to rename ".toList ++ pathText tmp ++ " -> ".toList ++
            pathText path ++ ": ".toList ++ e.display⟩

/-- `handle_mark` under the lock. -/
def markPath (req : MarkRequest) (mb : MailboxConfig) : Calls AckResponse := do
  match ← resolveEmailPathStrict (env.folder .inbox req.mailbox) req.id with
  | none => return .err ⟨.notFound, "email '".toList ++ req.id ++ "' not found in inbox/".toList ++
      req.mailbox⟩
  | some path =>
      match ← readToString path with
      | .error e => return .err ⟨.io, "failed to read ".toList ++ pathText path ++ ": ".toList ++ e.display⟩
      | .ok content =>
          match markContent env.toml req.read env.now content with
          | .error .malformed => return .err ⟨.io, "malformed frontmatter in ".toList ++ pathText path⟩
          | .error .parse => return .err ⟨.io, "failed to parse frontmatter in ".toList ++
              pathText path ++ ": ".toList ++ env.tomlError content⟩
          | .ok text => replaceFile env mb path text

/-- `handle_mark`. -/
def handleMarkPath (config : Config) (caller : Caller) (req : MarkRequest) : Calls AckResponse :=
  match markCheck config req caller, config.mailboxes.lookup req.mailbox with
  | .error reject, _ => return .err reject
  | .ok (), none => return .err ⟨.enoent, noSuchMailboxReason req.mailbox⟩
  | .ok (), some mb => markPath env req mb

/-- A row of the daemon's list of mailboxes; its paths are those of the folders. -/
structure MailboxRow where
  name : Str
  address : Option Str

/-- `EmailReadParams`. -/
structure EmailReadParams where
  mailbox : Str
  id : Str
  folder : Option Str

/-- `validate_email_id`. -/
def validateEmailId (id : Str) : Except Str Unit :=
  if id = [] then .error "Email ID cannot be empty.".toList
  else if (id.dropInfix? "..".toList).isSome ∨ '/' ∈ id ∨ '\\' ∈ id ∨ Char.ofNat 0 ∈ id then
    .error "Email ID contains invalid characters.".toList
  else .ok ()

/-- `resolve_folder`. -/
def resolveFolder : Option Str → Except Str Side
  | none => .ok .inbox
  | some raw =>
      if raw = "inbox".toList then .ok .inbox
      else if raw = "sent".toList then .ok .sent
      else .error ("Invalid folder '".toList ++ raw ++ "': expected \"inbox\" or \"sent\".".toList)

/-- `lookup_mailbox_row`. -/
def lookupMailboxRow (rows : Except Str (List MailboxRow)) (name : Str) : Except Str MailboxRow :=
  match rows with
  | .error e => .error e
  | .ok rows =>
      match rows.find? fun r => r.name == name with
      | some row => .ok row
      | none => .error ("Mailbox '".toList ++ name ++ "' does not exist.".toList)

/-- The reading of a message by the two tools. -/
def readMessage (side : Side) (mailbox : Str) (row : MailboxRow) (id : Str) : Calls (Except Str Str) := do
  match ← resolveEmailPathStrict (env.folder side row.name) id with
  | none => return .error ("Email '".toList ++ id ++ "' not found in mailbox '".toList ++ mailbox ++
      "'.".toList)
  | some path =>
      match ← readToString path with
      | .error e => return .error ("Failed to read email: ".toList ++ e.display)
      | .ok content => return .ok content

/-- `email_read`. -/
def emailRead (rows : Except Str (List MailboxRow)) (params : EmailReadParams) :
    Calls (Except Str Str) :=
  match validateEmailId params.id, lookupMailboxRow rows params.mailbox, resolveFolder params.folder with
  | .error e, _, _ => return .error e
  | .ok (), .error e, _ => return .error e
  | .ok (), .ok _, .error e => return .error e
  | .ok (), .ok row, .ok side => readMessage env side params.mailbox row params.id

/-- `validate_text_only_html_body_exclusion`. -/
def validateTextOnlyHtmlBodyExclusion (textOnly : Bool) (htmlBody : Option Str) : Except Str Unit :=
  if textOnly ∧ htmlBody.isSome then
    .error "AIMX/1 SEND: --text-only and --html-body are mutually exclusive".toList
  else .ok ()

/-- `email_reply` up to the request that it sends to the daemon; `none` is a panic. -/
def emailReply (rows : Except Str (List MailboxRow)) (params : EmailReplyParams) (id : Str) :
    Calls (Option (Except Str SendArgs)) :=
  match validateTextOnlyHtmlBodyExclusion (params.textOnly.getD false) params.htmlBody,
      validateEmailId id, lookupMailboxRow rows params.mailbox with
  | .error e, _, _ => return some (.error e)
  | .ok (), .error e, _ => return some (.error e)
  | .ok (), .ok (), .error e => return some (.error e)
  | .ok (), .ok (), .ok row => do
      match ← readMessage env .inbox params.mailbox row id with
      | .error e => return some (.error e)
      | .ok content =>
          match parseFrontmatter env.toml content with
          | none => return some (.error "Failed to parse email frontmatter.".toList)
          | some m => return emailReplyArgs row.address params m

/-- `write_atomic`. -/
def writeConfig (config : Config) : Calls (Except IoError Unit) := do
  match env.handlers.print config with
  | .error e => return .error (.other ("toml serialize: ".toList ++ e))
  | .ok text =>
      match ← writeFile env.configTemp (utf8 text) with
      | .error e => return .error e
      | .ok () =>
          -- `sync_all`
          match ← ask fun _ => .ok () with
          | .error e => return .error e
          | .ok () =>
              match ← renameFile env.configTemp env.configPath with
              | .ok () => return .ok ()
              | .error e =>
                  let _ ← removeFile env.configTemp
                  return .error e

/-- The part of `check_preexisting_dirs` about one folder. -/
def checkPreexistingPath (uid gid : UInt32) (path : List Str) : Calls (Option Reject) := do
  match ← lstat path with
  | .ok .dir =>
      if (env.ids path).1 ≠ uid ∨ (env.ids path).2 ≠ gid then
        return some ⟨.conflict, pathText path ++ " already exists with owner ".toList ++
          decimal (env.ids path).1.toNat ++ ":".toList ++ decimal (env.ids path).2.toNat ++
          ", expected ".toList ++ decimal uid.toNat ++ ":".toList ++ decimal gid.toNat ++
          "; run `chown -R ".toList ++ decimal uid.toNat ++ ":".toList ++ decimal gid.toNat ++
          " ".toList ++ pathText path ++ "` (and the matching sibling) and retry".toList⟩
      else return none
  | .ok _ => return some ⟨.conflict, pathText path ++
      " exists but is not a directory; remove it before creating the mailbox".toList⟩
  | .error .missing => return none
  | .error e => return some ⟨.io, "stat ".toList ++ pathText path ++ " failed: ".toList ++ e.display⟩

/-- `check_preexisting_dirs`. -/
def checkPreexistingPaths (uid gid : UInt32) (inbox sent : List Str) : Calls (Option Reject) := do
  match ← checkPreexistingPath env uid gid inbox with
  | some reject => return some reject
  | none => checkPreexistingPath env uid gid sent

/-- `remove_dir` with its result dropped, unless the directory was there before. -/
def removeUnless (existed : Bool) (path : List Str) : Calls Unit := do
  if existed then return () else
    let _ ← LinkTree.removeDir path
    return ()

/-- `rollback_self_created_dirs`. -/
def rollbackPaths (inbox : List Str) (inboxExisted : Bool) (sent : List Str) (sentExisted : Bool) :
    Calls Unit := do
  removeUnless inboxExisted inbox
  removeUnless sentExisted sent

/-- The creation of both folders in `handle_create`. -/
def createPaths (inbox : List Str) (inboxExisted : Bool) (sent : List Str) :
    Calls (Except Reject Unit) := do
  match ← LinkTree.createDirAll inbox with
  | .error e => return .error ⟨.io, "failed to create ".toList ++ pathText inbox ++ ": ".toList ++ e.display⟩
  | .ok () =>
      match ← LinkTree.createDirAll sent with
      | .error e =>
          removeUnless inboxExisted inbox
          return .error ⟨.io, "failed to create ".toList ++ pathText sent ++ ": ".toList ++ e.display⟩
      | .ok () => return .ok ()

/-- The steps of `handle_create` behind the creation of the folders, before the store. -/
def claimPaths (inbox sent : List Str) (mb : MailboxConfig) (config : Config) :
    Calls (Except Reject Unit) := do
  match ← chownPath env inbox mb with
  | .error e => return .error ⟨.io, "failed to chown ".toList ++ pathText inbox ++ ": ".toList ++ e.display⟩
  | .ok () =>
      match ← chownPath env sent mb with
      | .error e => return .error ⟨.io, "failed to chown ".toList ++ pathText sent ++ ": ".toList ++
          e.display⟩
      | .ok () =>
          match ← writeConfig env config with
          | .error e => return .error ⟨.io, "failed to write ".toList ++ pathText env.configPath ++
              ": ".toList ++ e.display⟩
          | .ok () => return .ok ()

/-- `handle_create` up to the store. -/
def createMailboxPaths (name owner : Str) (config : Config) : Calls (Except Reject Config) := do
  if name ∈ config.mailboxes then
    return .error ⟨.mailbox, "mailbox '".toList ++ name ++ "' already exists".toList⟩
  else
    match resolveOwnerIds env.handlers owner with
    | .error reason => return .error ⟨.validation, reason⟩
    | .ok (uid, gid) =>
        let inbox := env.folder .inbox name
        let sent := env.folder .sent name
        let inboxExisted ← LinkTree.pathExists inbox
        let sentExisted ← LinkTree.pathExists sent
        match ← checkPreexistingPaths env uid gid inbox sent with
        | some reject => return .error reject
        | none =>
            match ← createPaths inbox inboxExisted sent with
            | .error reject => return .error reject
            | .ok () =>
                let mb := newMailbox config name owner
                match ← claimPaths env inbox sent mb (config.insertMailbox name mb) with
                | .error reject =>
                    rollbackPaths inbox inboxExisted sent sentExisted
                    return .error reject
                | .ok () => return .ok (config.insertMailbox name mb)

/-- The loop of `wipe_mailbox_contents`: an entry that cannot be read is skipped. -/
def wipePaths (dir : List Str) : List Str → Calls (Except IoError Unit)
  | [] => return .ok ()
  | c :: rest => do
      match ← ask fun _ => .ok () with
      | .error _ => wipePaths dir rest
      | .ok () =>
          let path := dir ++ [c]
          match ← (do if ← isDir path then removeDirAll path else removeFile path) with
          | .error e => return .error e
          | .ok () => wipePaths dir rest

/-- `wipe_mailbox_contents`. -/
def wipeContents (dir : List Str) : Calls (Except IoError Unit) := do
  match ← readDir dir with
  | .ok names => wipePaths dir names
  | .error .missing => return .ok ()
  | .error e => return .error e

/-- The entries of a directory that can be read. -/
def countEntries : List Str → Calls Nat
  | [] => return 0
  | _ :: rest => do
      let readable ← ask fun _ => .ok ()
      let n ← countEntries rest
      return if readable.isOk then n + 1 else n

/-- `count_files_if_exists`. -/
def countPaths (dir : List Str) : Calls Nat := do
  match ← readDir dir with
  | .ok names => countEntries names
  | .error _ => return 0

/-- `handle_delete` up to the store. -/
def deleteMailboxPaths (name : Str) (force : Bool) (config : Config) : Calls (Except Reject Config) := do
  if name = "catchall".toList then
    return .error ⟨.mailbox, "cannot delete the catchall mailbox".toList⟩
  else if name ∉ config.mailboxes then return .error ⟨.mailbox, noSuchMailboxReason name⟩
  else
    let inbox := env.folder .inbox name
    let sent := env.folder .sent name
    match ← wipeBoth force inbox sent with
    | .error e => return .error ⟨.io, "failed to wipe mailbox '".toList ++ name ++ "': ".toList ++
        e.display⟩
    | .ok () =>
        let inboxFiles ← countPaths inbox
        let sentFiles ← countPaths sent
        if inboxFiles + sentFiles > 0 then
          return .error ⟨.nonEmpty, "mailbox '".toList ++ name ++ "' has ".toList ++
            decimal (inboxFiles + sentFiles) ++ " files (".toList ++ decimal inboxFiles ++
            " in inbox, ".toList ++ decimal sentFiles ++
            " in sent); archive or remove them first".toList⟩
        else
          match ← writeConfig env (config.removeMailbox name) with
          | .error e => return .error ⟨.io, "failed to write ".toList ++ pathText env.configPath ++
              ": ".toList ++ e.display⟩
          | .ok () => return .ok (config.removeMailbox name)
where
  /-- `wipe_mailbox_dirs`, when it is asked for. -/
  wipeBoth (force : Bool) (inbox sent : List Str) : Calls (Except IoError Unit) := do
    if force then
      match ← wipeContents inbox with
      | .error e => return .error e
      | .ok () => wipeContents sent
    else return .ok ()

/-- `handle_mailbox_crud` up to the store. -/
def handleMailboxCrud (config : Config) (caller : Caller) (req : MailboxLifecycleRequest) :
    Calls (Except Reject Config) :=
  match validateMailboxName req.name with
  | .error e => return .error ⟨.validation, e.display env.handlers.debug⟩
  | .ok () =>
      if req.create then
        match resolvedOwner req caller,
            authorize env.handlers.users caller.uid (.mailboxCreate caller.uid) none with
        | .error reject, _ => return .error reject
        | .ok _, .error _ => return .error ⟨.eaccess, notAuthorizedWireReason⟩
        | .ok owner, .ok () => createMailboxPaths env req.name owner config
      else
        match authorizeDelete env.handlers config req.name caller with
        | .error reject => return .error reject
        | .ok () => deleteMailboxPaths env req.name req.force config

end Requests

end Daemon
end Aimx
