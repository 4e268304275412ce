import Aimx.Config.Toml
import Aimx.Config.Update
import Aimx.Daemon.Disk
import Aimx.Setup.Prompts
import Aimx.Text.Dirs

/-!
# The setup

`aimx setup`: the checks on port 25, the domain and the DKIM key, the certificate, the trust policy, and
the installation: `config.toml`, the directories of the mailboxes, the user of the catchall and the
service.  A call that fails ends the run; no call fails here for another reason than the state it finds.
The network, the commands that are run and the `toml` crate are parameters.

* `SetupHost` — what a run reads and changes;
* `settleConfig`, `ensureMailboxDirs`, `finalizeSetup` — the parts of `finalize_setup`;
* `ensureCatchallUser`, `installAndVerifyService` — the user and the service;
* `runSetup` — the wizard.
-/

namespace Aimx
namespace Setup

open Text

/-! ## The host -/

/-- The host as far as a setup reads or changes it: the user database, the text of `config.toml`, the
directories, the files of the DKIM key, whether there is a certificate, the data directory that the
installed service is started with, whether the service is running, and the readme files. -/
structure SetupHost where
  users : Str → Option ResolvedUser
  config : Option Str
  dirs : Dirs
  privateKey : Option Bytes
  publicKey : Option Bytes
  cert : Bool
  service : Option Str
  running : Bool
  readmes : List Str → Option Str

/-- `Port25Status`. -/
inductive Port25Status
  | free
  | aimx
  | otherProcess (name : Str)
  deriving DecidableEq

/-- The surroundings: the printer and the parser of the `toml` crate with the texts of its errors, the hash
function, the invoking user, the checks on port 25, the address of the server, a new DKIM key, the DNS
value of a public key, the number of times that the DNS records are found incomplete, `AIMX_NONINTERACTIVE`,
the path of the configuration file, the user that `useradd` makes, the text of the readme file, and
whether the started service answers. -/
structure SetupEnv where
  print : Config → Except Str Str
  parseToml : Str → Except Str TomlValue
  tomlError : TomlValue → Str
  sha256 : Bytes → Bytes
  isRoot : Bool
  port25 : SetupHost → Except Str Port25Status
  preflight : Port25Status → Except Str Unit
  serverIpv4 : Except Str (Option Str)
  newKeypair : Bytes × Bytes
  publicKeySpkiBase64 : Bytes → Except Str Str
  missingRecords : Nat
  noninteractive : Bool
  configPath : Str
  newUser : ResolvedUser
  readme : Str
  serviceReady : Bool

/-- The arguments of the command. -/
structure SetupArgs where
  domain : Option Str
  dataDir : Option Str

/-- What the operator types: the lines of senders, and all other lines. -/
structure Answers where
  senders : List Str
  lines : List Str

/-- A run ends with a host, and if a call fails also with a text. -/
abbrev Run (α : Type) := Except (SetupHost × Str) α

/-- The error of a call that changes nothing. -/
def orFail {α : Type} (host : SetupHost) : Except Str α → Run α
  | .ok a => .ok a
  | .error e => .error (host, e)

/-- The surroundings of a load. -/
def SetupEnv.load (env : SetupEnv) (host : SetupHost) : LoadEnv where
  parseToml := env.parseToml
  deserialize := deserializeConfig env.tomlError
  resolveUser := host.users
  sha256 := env.sha256

/-! ## The configuration -/

/-- The address of a mailbox under another domain. -/
def readdress (oldDomain domain : Str) (mb : MailboxConfig) : MailboxConfig :=
  match stripSuffix ('@' :: oldDomain) mb.address with
  | some localPart => { mb with address := localPart ++ '@' :: domain }
  | none => mb

/-- The change of domain in `finalize_setup`. -/
def withDomain (domain : Str) (config : Config) : Config :=
  { config with
    domain := domain
    mailboxes := Table.mapValues (fun _ => readdress config.domain domain) config.mailboxes }

/-- The stanza that `finalize_setup` makes for the catchall. -/
def catchallMailbox (domain : Str) : MailboxConfig :=
  ⟨"*@".toList ++ domain, reservedRunAsCatchall, [], none, none, false⟩

/-- The configuration of a fresh installation. -/
def freshConfig (dataDir domain selector trust : Str) (senders : List Str) : Config where
  domain := domain
  dataDir := dataDir
  dkimSelector := selector
  trust := trust
  trustedSenders := senders
  mailboxes := (∅ : Mailboxes).insert "catchall".toList (catchallMailbox domain)
  verifyHost := none
  enableIpv6 := false
  signature := none
  upgrade := none

/-- `install_config_file`. -/
def installConfigFile (env : SetupEnv) (config : Config) (host : SetupHost) : Run SetupHost := do
  let text ← orFail host (env.print config)
  return { host with config := some text }

/-- The first half of `finalize_setup`: the configuration, brought up to date or made. -/
def settleConfig (env : SetupEnv) (dataDir domain selector : Str)
    (trustDefaults : Option (Str × List Str)) (host : SetupHost) : Run (SetupHost × Config) :=
  match host.config with
  | some text => do
      let (config, _) ← orFail host (Aimx.load (env.load host) text)
      let moved := if config.domain = domain then config else withDomain domain config
      let host ← if config.domain = domain then pure host else installConfigFile env moved host
      if "catchall".toList ∈ moved.mailboxes then return (host, moved)
      let config := moved.insertMailbox "catchall".toList (catchallMailbox domain)
      let host ← installConfigFile env config host
      return (host, config)
  | none => do
      let (trust, senders) := trustDefaults.getD ("none".toList, [])
      let config := freshConfig dataDir domain selector trust senders
      let host ← installConfigFile env config host
      return (host, config)

/-! ## The directories -/

/-- The two directories of a mailbox below a data directory. -/
def mailboxPaths (dataDir name : Str) : List Str :=
  [joinPath (joinPath dataDir "inbox".toList) name, joinPath (joinPath dataDir "sent".toList) name]

/-- One round of `ensure_mailbox_dirs`. -/
def ensureMailboxDir (env : SetupEnv) (dataDir : Str) (host : SetupHost)
    (e : Sigma fun _ : Str => MailboxConfig) : Run SetupHost :=
  match ownerIds host.users e.2.owner with
  | .error fault =>
      .error (host, "error: mailbox owner '".toList ++ e.2.owner ++ "' for mailbox '".toList ++ e.1 ++
        "' does not exist on this system (resolver: ".toList ++ fault.display ++
        "); create it with `useradd --system --no-create-home --shell /usr/sbin/nologin ".toList ++
        e.2.owner ++ "` or edit `".toList ++ env.configPath ++ "` and re-run setup".toList)
  | .ok (uid, gid) =>
      .ok { host with
        dirs := makeAll ((mailboxPaths dataDir e.1).map fun path => (path, ⟨uid, gid, 0o700⟩))
          host.dirs }

/-- `ensure_mailbox_dirs`. -/
def ensureMailboxDirs (env : SetupEnv) (dataDir : Str) (config : Config) (host : SetupHost) :
    Run SetupHost :=
  config.mailboxes.entries.foldlM (ensureMailboxDir env dataDir) host

/-! ## Keys, user and service -/

/-- `dkim::generate_keypair` without `force`: neither file is written over. -/
def generateKeypair (env : SetupEnv) (host : SetupHost) : Run SetupHost :=
  if host.privateKey.isSome then
    .error (host, "DKIM keys already exist. Use --force to overwrite.".toList)
  else
    let host := { host with privateKey := some env.newKeypair.1 }
    if host.publicKey.isSome then .error (host, "File exists (os error 17)".toList)
    else .ok { host with publicKey := some env.newKeypair.2 }

/-- `dkim::dns_record_value`. -/
def dnsRecordValue (env : SetupEnv) (host : SetupHost) : Run Str :=
  match host.publicKey with
  | none => .error (host, "DKIM public key not found. Run `aimx dkim-keygen` first.".toList)
  | some pem => do
      let value ← orFail host (env.publicKeySpkiBase64 pem)
      return "v=DKIM1; k=rsa; p=".toList ++ value

/-- `finalize_setup`. -/
def finalizeSetup (env : SetupEnv) (dataDir domain selector : Str)
    (trustDefaults : Option (Str × List Str)) (host : SetupHost) : Run SetupHost := do
  let host := { host with dirs := createDirAll dataDir host.dirs }
  let (host, config) ← settleConfig env dataDir domain selector trustDefaults host
  let host ← ensureMailboxDirs env dataDir config host
  if host.privateKey.isSome then return host else generateKeypair env host

/-- `config_has_catchall`. -/
def configHasCatchall (env : SetupEnv) (host : SetupHost) : Bool :=
  match host.config with
  | none => false
  | some text =>
      match Aimx.load (env.load host) text with
      | .error _ => false
      | .ok (config, _) => config.mailboxes.entries.any fun e => e.2.isCatchall config

/-- `CATCHALL_SERVICE_USER` and `CATCHALL_HOME_DIR`. -/
def catchallServiceUser : Str := "aimx-catchall".toList
def catchallHomeDir : Str := "/var/lib/aimx-catchall".toList

/-- `ensure_catchall_user`. -/
def ensureCatchallUser (env : SetupEnv) (host : SetupHost) : SetupHost :=
  let user := (host.users catchallServiceUser).getD env.newUser
  { host with
    users := Function.update host.users catchallServiceUser (some user)
    dirs := ownedDir catchallHomeDir ⟨user.uid, user.gid, 0o700⟩ host.dirs }

/-- `datadir_readme::write`. -/
def writeReadme (env : SetupEnv) (dataDir : Str) (host : SetupHost) : SetupHost :=
  { host with readmes := Function.update host.readmes (components dataDir) (some env.readme) }

/-- `install_and_verify_service`. -/
def installAndVerifyService (env : SetupEnv) (dataDir : Str) (host : SetupHost) : Run SetupHost :=
  let host := { host with service := some dataDir }
  if env.serviceReady then .ok { host with running := true }
  else
    .error (host, ("aimx.service did not bind port 25 within the readiness window.\n" ++
      "Check `sudo journalctl -u aimx` for errors, then run `sudo aimx setup` again.").toList)

/-! ## The wizard -/

/-- `is_already_configured`. -/
def isAlreadyConfigured (host : SetupHost) : Bool :=
  host.running && host.cert && host.privateKey.isSome

/-- The domain of a run: the argument, or the answer to the prompt. -/
def chosenDomain (args : SetupArgs) (answers : Answers) : Except Str (Str × List Str) :=
  match args.domain with
  | some domain => (validateDomain domain).map fun _ => (domain, answers.lines)
  | none => promptDomain .ask answers.lines

/-- The trust policy of a run that finds no configuration. -/
def chosenTrust (env : SetupEnv) (answers : Answers) (lines : List Str) : Except Str (Str × List Str) :=
  if env.noninteractive then .ok ("none".toList, [])
  else promptTrustedSenders 0 answers.senders lines

/-- The selector of a run. -/
def chosenSelector (env : SetupEnv) (host : SetupHost) : Str :=
  match host.config with
  | none => "aimx".toList
  | some text =>
      match Aimx.load (env.load host) text with
      | .ok (config, _) => config.dkimSelector
      | .error _ => "aimx".toList

/-- The data directory of a run. -/
def SetupArgs.root (args : SetupArgs) : Str := args.dataDir.getD "/var/lib/aimx".toList

/-- `run_setup`. -/
def runSetup (env : SetupEnv) (args : SetupArgs) (answers : Answers) (host : SetupHost) :
    Run SetupHost := do
  if !env.isRoot then
    throw (host, ("`aimx setup` requires root. To set up the AIMX server, run with: `sudo aimx setup`." ++
      "\n\nIf you already have aimx running and you're trying to wire it into an AI agent, " ++
      "you want `aimx agents setup` (no root needed).").toList)
  let status ← orFail host (env.port25 host)
  if let .otherProcess name := status then
    throw (host, "Port 25 is occupied by ".toList ++ name ++
      ". Stop the process and run `aimx setup` again.".toList)
  orFail host (env.preflight status)
  let (domain, lines) ← orFail host (chosenDomain args answers)
  let host := { host with dirs := createDirAll args.root host.dirs }
  let selector := chosenSelector env host
  let alreadyConfigured := isAlreadyConfigured host
  let ipv4 ← orFail host env.serverIpv4
  if ipv4.isNone then
    throw (host, "Could not determine server IPv4 address".toList)
  let host ← if host.privateKey.isNone then generateKeypair env host else pure host
  let _ ← dnsRecordValue env host
  let lines := verifyRecords env.missingRecords lines
  -- step 3: the certificate, which a configured host has
  let host := if alreadyConfigured then host else { host with cert := true }
  -- step 4: an existing policy is kept
  let trustDefaults ← if host.config.isSome then pure none
    else (orFail host (chosenTrust env answers lines)).map some
  -- step 5
  let host ← finalizeSetup env args.root domain selector trustDefaults host
  let host := if configHasCatchall env host then ensureCatchallUser env host else host
  let host := writeReadme env args.root host
  if alreadyConfigured then return host else installAndVerifyService env args.root host

end Setup
end Aimx
