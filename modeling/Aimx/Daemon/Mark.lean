import Aimx.Daemon.Requests
import Aimx.Ingest.Frontmatter

/-!
# MARK requests

`handle_mark`: the id, the mailbox and its owner are checked on a snapshot, and under the lock of the
mailbox the file of the message is found, rewritten and put in place.

* `validateId`, `markCheck` — the checks on the snapshot;
* `findMessage`, `replaceMessage` — the file of a message in its folder;
* `markFile` — the part under the lock, and `handleMark` the whole request.
-/

namespace Aimx
namespace Daemon

open Text Protocol Ingest

/-! ## The checks -/

/-- `validate_id`. -/
def validateId (id : Str) : Except Reject Unit :=
  if id = [] ∨ (id.dropInfix? "..".toList).isSome ∨ '/' ∈ id ∨ '\\' ∈ id ∨ Char.ofNat 0 ∈ id then
    .error ⟨.notFound, "email id '".toList ++ id ++ "' contains invalid characters".toList⟩
  else .ok ()

/-- `handle_mark` up to the lock. -/
def markCheck (config : Config) (req : MarkRequest) (caller : Caller) : Except Reject Unit :=
  match validateId req.id with
  | .error reject => .error reject
  | .ok () =>
      match config.mailboxes.lookup req.mailbox with
      | none => .error ⟨.enoent, noSuchMailboxReason req.mailbox⟩
      | some mailbox => enforceMailboxOwnerOrRoot caller req.mailbox mailbox

/-! ## The file of a message -/

/-- The entry of a name. -/
def findEntry {α : Type} (entries : List (Str × α)) (name : Str) : Option α :=
  (entries.find? fun e => e.1 == name).map Prod.snd

/-- The name of the file of a message. -/
def messageFile (id : Str) : Str := id ++ ".md".toList

/-- `resolve_email_path_strict` among the entries of a folder: whether the message has a directory of its
own, and the content of its file.  There is no such directory where a flat file exists. -/
def findMessage (entries : List (Str × Item)) (id : Str) : Option (Bool × Bytes) :=
  match findEntry entries (messageFile id) with
  | some (.file content) => some (false, content)
  | some (.bundle _) => none
  | none =>
      match findEntry entries id with
      | some (.bundle files) => (findEntry files (messageFile id)).map fun content => (true, content)
      | _ => none

/-- The content of the entries of a name replaced. -/
def replaceEntry {α : Type} (entries : List (Str × α)) (name : Str) (f : α → α) : List (Str × α) :=
  entries.map fun e => if e.1 = name then (e.1, f e.2) else e

/-- The file of a message with new content. -/
def replaceMessage (entries : List (Str × Item)) (id : Str) (content : Bytes) :
    List (Str × Item) :=
  match findEntry entries (messageFile id) with
  | some _ => replaceEntry entries (messageFile id) fun _ => .file content
  | none => replaceEntry entries id fun
      | .file c => .file c
      | .bundle files => .bundle (replaceEntry files (messageFile id) fun _ => content)

/-- What a MARK request takes from its surroundings beyond the handlers' own: the TOML library and the
texts of its errors, the time, the process id, and the errors of the calls that fail. -/
structure MarkEnv where
  toml : Toml
  tomlError : Str → Str
  now : Str
  pid : Str
  readFault : Option Str
  writeFault : Option Str
  renameFault : Option Str

/-- `handle_mark` under the lock. -/
def markFile (env : HandlerEnv) (mark : MarkEnv) (req : MarkRequest) (disk : Disk) :
    Disk × AckResponse :=
  let dir := env.folderPath .inbox req.mailbox
  let notFound : Reject := ⟨.notFound, "email '".toList ++ req.id ++ "' not found in inbox/".toList ++
    req.mailbox⟩
  match disk.nodes .inbox req.mailbox with
  | some (.folder f) =>
      match findMessage f.entries req.id with
      | none => (disk, .err notFound)
      | some (bundled, bytes) =>
          let parent := if bundled then joinPath dir req.id else dir
          let path := joinPath parent (messageFile req.id)
          let tmp := joinPath parent ('.' :: messageFile req.id ++ ".tmp.".toList ++ mark.pid)
          match mark.readFault, fromUtf8 bytes with
          | some e, _ => (disk, .err ⟨.io, "failed to read ".toList ++ path ++ ": ".toList ++ e⟩)
          | none, none => (disk, .err ⟨.io, "failed to read ".toList ++ path ++ ": ".toList ++
              "stream did not contain valid UTF-8".toList⟩)
          | none, some content =>
              match markContent mark.toml req.read mark.now content with
              | .error .malformed =>
                  (disk, .err ⟨.io, "malformed frontmatter in ".toList ++ path⟩)
              | .error .parse => (disk, .err ⟨.io, "failed to parse frontmatter in ".toList ++ path ++
                  ": ".toList ++ mark.tomlError content⟩)
              | .ok text =>
                  match mark.writeFault, mark.renameFault with
                  | some e, _ =>
                      (disk, .err ⟨.io, "failed to write ".toList ++ tmp ++ ": ".toList ++ e⟩)
                  | none, some e => (disk, .err ⟨.io, "failed to rename ".toList ++ tmp ++
                      " -> ".toList ++ path ++ ": ".toList ++ e⟩)
                  | none, none =>
                      (disk.set .inbox req.mailbox (some (.folder
                        { f with entries := replaceMessage f.entries req.id (utf8 text) })), .ok)
  | _ => (disk, .err notFound)

/-- `handle_mark`. -/
def handleMark (env : HandlerEnv) (mark : MarkEnv) (world : World) (caller : Caller)
    (req : MarkRequest) : World × AckResponse :=
  match markCheck world.memory req caller with
  | .error reject => (world, .err reject)
  | .ok () =>
      let (disk, response) := markFile env mark req world.disk
      ({ world with disk := disk }, response)

end Daemon
end Aimx
