import Aimx.Config.Update
import Aimx.Daemon.Authorize
import Aimx.Daemon.HookBody

/-!
# The disk under the daemon

The mailbox folders below the daemon's data directory and the file `config.toml`, with the file-system
calls that the mailbox and hook requests make.  Which calls fail, and with which error, is decided from
outside by `Faults`.

* `Disk`, `Call`, `Faults` — folders, calls and their failures;
* `createDirAll`, `removeDir`, `chownAsOwner` — the calls of a creation;
* `wipeMailboxContents`, `countFilesIfExists` — the calls of a deletion;
* `writeAtomic` — the replacement of the configuration file;
* `Disk.SameFolders` — the same mailbox directories with the same messages in them.
-/

namespace Aimx

open Text

/-- The text of `ConfigError`. -/
def ConfigError.display : ConfigError → Str
  | .invalidUsername name => "invalid username '".toList ++ name ++
      "': must match [a-z_][a-z0-9_-]*[$]?".toList
  | .orphanUser name => "user '".toList ++ name ++
      "' does not exist on this host (getpwnam miss)".toList

namespace Daemon

/-! ## Folders and calls -/

/-- The two folders of a mailbox. -/
inductive Side
  | inbox
  | sent
  deriving DecidableEq

/-- The directory that holds the folders of one side. -/
def Side.dirName : Side → Str
  | .inbox => "inbox".toList
  | .sent => "sent".toList

/-- An entry of a folder: a message, or the directory of a message with attachments. -/
inductive Item
  | file (content : Bytes)
  | bundle (files : List (Str × Bytes))
  deriving DecidableEq

/-- A mailbox directory. -/
structure Folder where
  uid : UInt32
  gid : UInt32
  mode : Nat
  entries : List (Str × Item)
  deriving DecidableEq

/-- What a path names: a directory, or anything else. -/
inductive Node
  | folder (f : Folder)
  | other
  deriving DecidableEq

/-- The file system as far as the daemon changes it: the nodes at `<data_dir>/<side>/<name>`, the text
of `config.toml`, and whether a temporary file was left beside it. -/
structure Disk where
  nodes : Side → Str → Option Node
  config : Str
  tmpLeft : Bool

/-- A pass over the entries of a folder. -/
inductive Pass
  | wipe
  | count
  deriving DecidableEq

/-- The file-system calls of one request. -/
inductive Call
  | stat (side : Side)
  | lstat (side : Side)
  | mkdir (side : Side)
  | chown (side : Side)
  | chmod (side : Side)
  | rmdir (side : Side)
  | readDir (side : Side) (pass : Pass)
  | readEntry (side : Side) (pass : Pass) (entry : Str)
  | statEntry (side : Side) (entry : Str)
  | unlink (side : Side) (entry : Str)
  | unlinkInner (side : Side) (entry file : Str)
  | rmdirEntry (side : Side) (entry : Str)
  | createTmp
  | writeTmp
  | syncTmp
  | rename
  | unlinkTmp
  deriving DecidableEq

/-- The error of every call that fails. -/
abbrev Faults := Call → Option Str

/-- The node at a place replaced. -/
def Disk.set (disk : Disk) (side : Side) (name : Str) (node : Option Node) : Disk :=
  { disk with nodes := fun s n => if s = side ∧ n = name then node else disk.nodes s n }

/-- The messages in a folder, if there is one. -/
def Disk.messages (disk : Disk) (side : Side) (name : Str) : Option (List (Str × Item)) :=
  match disk.nodes side name with
  | some (.folder f) => some f.entries
  | _ => none

/-- What the handlers take from their surroundings: the user database, the hash function, the
formatting of characters, the parser of `serde_json` and the texts of its errors, the `toml` crate's
printer, the data directory of the request context and the path of the configuration file. -/
structure HandlerEnv where
  users : UserDb
  sha256 : Bytes → Bytes
  debug : Char → Str
  parseJson : Bytes → Option JsonValue
  bodyError : Bytes → Str
  print : Config → Except Str Str
  dataDir : Str
  configPath : Str

/-- The path of a mailbox folder. -/
def HandlerEnv.folderPath (env : HandlerEnv) (side : Side) (name : Str) : Str :=
  joinPath (joinPath env.dataDir side.dirName) name

/-! ## The calls of a creation -/

section Creation

variable (env : HandlerEnv) (faults : Faults)

/-- `Path::exists`, for which a failing call is a missing path. -/
def pathExists (side : Side) (name : Str) (disk : Disk) : Bool :=
  (faults (.stat side)).isNone && (disk.nodes side name).isSome

/-- `std::fs::create_dir_all` under the daemon's umask. -/
def createDirAll (side : Side) (name : Str) (disk : Disk) : Disk × Except Str Unit :=
  match faults (.mkdir side) with
  | some e => (disk, .error e)
  | none =>
      match disk.nodes side name with
      | some _ => (disk, .ok ())
      | none => (disk.set side name (some (.folder ⟨0, 0, 0o700, []⟩)), .ok ())

/-- `std::fs::remove_dir` with its result dropped: only an empty directory is removed. -/
def removeDir (side : Side) (name : Str) (disk : Disk) : Disk :=
  match faults (.rmdir side) with
  | some _ => disk
  | none =>
      match disk.nodes side name with
      | some (.folder f) => if f.entries.isEmpty then disk.set side name none else disk
      | _ => disk

/-- The ids of a folder changed. -/
def Disk.chown (disk : Disk) (side : Side) (name : Str) (uid gid : UInt32) : Disk :=
  match disk.nodes side name with
  | some (.folder f) => disk.set side name (some (.folder { f with uid := uid, gid := gid }))
  | _ => disk

/-- The mode of a folder changed. -/
def Disk.chmod (disk : Disk) (side : Side) (name : Str) (mode : Nat) : Disk :=
  match disk.nodes side name with
  | some (.folder f) => disk.set side name (some (.folder { f with mode := mode }))
  | _ => disk

/-- `chown_as_owner` on a folder. -/
def chownAsOwner (side : Side) (name : Str) (mb : MailboxConfig) (mode : Nat) (disk : Disk) :
    Disk × Except Str Unit :=
  match ownerIds env.users.resolveUser mb.owner with
  | .error e => (disk, .error ("resolve owner uid for '".toList ++ mb.owner ++ "': ".toList ++
      e.display))
  | .ok (uid, gid) =>
      match faults (.chown side) with
      | some e => (disk, .error e)
      | none =>
          match faults (.chmod side) with
          | some e => (disk.chown side name uid gid, .error e)
          | none => ((disk.chown side name uid gid).chmod side name mode, .ok ())

/-- `rollback_self_created_dirs`. -/
def rollbackSelfCreatedDirs (name : Str) (inboxExisted sentExisted : Bool) (disk : Disk) : Disk :=
  let disk := if inboxExisted then disk else removeDir faults .inbox name disk
  if sentExisted then disk else removeDir faults .sent name disk

/-- `write_atomic`, which `write_config_atomic` calls. -/
def writeAtomic (config : Config) (disk : Disk) : Disk × Except Str Unit :=
  match env.print config with
  | .error e => (disk, .error ("toml serialize: ".toList ++ e))
  | .ok text =>
      match faults .createTmp with
      | some e => (disk, .error e)
      | none =>
          let open_ : Disk := { disk with tmpLeft := true }
          match faults .writeTmp, faults .syncTmp with
          | some e, _ => (open_, .error e)
          | none, some e => (open_, .error e)
          | none, none =>
              match faults .rename with
              | some e => ({ disk with tmpLeft := (faults .unlinkTmp).isSome }, .error e)
              | none => ({ disk with config := text, tmpLeft := false }, .ok ())

end Creation

/-! ## The calls of a deletion -/

section Deletion

variable (faults : Faults) (side : Side)

/-- The removal of the files of a bundle, up to the first one that fails. -/
def removeFiles (entry : Str) : List (Str × Bytes) → List (Str × Bytes) × Except Str Unit
  | [] => ([], .ok ())
  | file :: files =>
      match faults (.unlinkInner side entry file.1) with
      | some e => (file :: files, .error e)
      | none => removeFiles entry files

/-- `remove_dir_all` or `remove_file` on one entry, and what is left of it.  An entry whose `is_dir`
fails is taken for a file. -/
def removeEntry (entry : Str) (item : Item) : Option Item × Except Str Unit :=
  match item with
  | .file content =>
      match faults (.unlink side entry) with
      | some e => (some (.file content), .error e)
      | none => (none, .ok ())
  | .bundle files =>
      match faults (.statEntry side entry) with
      | some _ => (some (.bundle files),
          .error ((faults (.unlink side entry)).getD "Is a directory (os error 21)".toList))
      | none =>
          match removeFiles faults side entry files with
          | (left, .error e) => (some (.bundle left), .error e)
          | (_, .ok ()) =>
              match faults (.rmdirEntry side entry) with
              | some e => (some (.bundle []), .error e)
              | none => (none, .ok ())

/-- The loop of `wipe_mailbox_contents` over the entries of a folder: an entry that cannot be read is
skipped, and the first removal that fails ends it. -/
def wipeEntries : List (Str × Item) → List (Str × Item) × Except Str Unit
  | [] => ([], .ok ())
  | (entry, item) :: rest =>
      if (faults (.readEntry side .wipe entry)).isSome then
        let (left, result) := wipeEntries rest
        ((entry, item) :: left, result)
      else
        match removeEntry faults side entry item with
        | (left, .error e) => ((left.map fun item => (entry, item)).toList ++ rest, .error e)
        | (_, .ok ()) => wipeEntries rest

/-- `wipe_mailbox_contents`. -/
def wipeMailboxContents (name : Str) (disk : Disk) : Disk × Except Str Unit :=
  match faults (.readDir side .wipe) with
  | some e => (disk, .error e)
  | none =>
      match disk.nodes side name with
      | none => (disk, .ok ())
      | some .other => (disk, .error "Not a directory (os error 20)".toList)
      | some (.folder f) =>
          let (left, result) := wipeEntries faults side f.entries
          (disk.set side name (some (.folder { f with entries := left })), result)

/-- `count_files_if_exists`. -/
def countFilesIfExists (name : Str) (disk : Disk) : Nat :=
  match faults (.readDir side .count), disk.nodes side name with
  | none, some (.folder f) =>
      (f.entries.filter fun e => (faults (.readEntry side .count e.1)).isNone).length
  | _, _ => 0

end Deletion

/-- `wipe_mailbox_dirs`. -/
def wipeMailboxDirs (faults : Faults) (name : Str) (disk : Disk) : Disk × Except Str Unit :=
  match wipeMailboxContents faults .inbox name disk with
  | (disk, .error e) => (disk, .error e)
  | (disk, .ok ()) => wipeMailboxContents faults .sent name disk

/-! ## What the calls leave alone -/

/-- The same mailbox directories, with the same messages in them. -/
def Disk.SameFolders (disk disk' : Disk) : Prop :=
  ∀ side name, disk'.messages side name = disk.messages side name

end Daemon
end Aimx
