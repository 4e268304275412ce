import Aimx.Text.Path
import Aimx.Text.Utf8
import Mathlib.Data.List.AList

/-!
# The configuration

The records of `config.rs` and `hook.rs` that `config.toml` is parsed into, and the accessors the
rest of the daemon reads them through.  The mailbox table is a hash map in the source; here it is an
association list with distinct keys, whose entry order stands for the map's unspecified iteration
order.

* `Hook`, `MailboxConfig`, `Config` — the schema;
* `MailboxConfig.isCatchall`, `effectiveTrust`, `effectiveTrustedSenders` — inherited settings;
* `resolveRecipientMailbox` — the inbound routing decision shared by RCPT and ingest;
-/

namespace Aimx

open Text

/-- Supported hook events. -/
inductive HookEvent
  | onReceive
  | afterSend
  deriving DecidableEq

/-- `HookEvent::as_str`. -/
def HookEvent.asStr : HookEvent → Str
  | .onReceive => "on_receive".toList
  | .afterSend => "after_send".toList

/-- One configured hook. -/
structure Hook where
  name : Option Str
  event : HookEvent
  type : Str
  cmd : List Str
  fireOnUntrusted : Bool
  timeoutSecs : UInt32
  deriving DecidableEq

/-- One mailbox stanza. -/
structure MailboxConfig where
  address : Str
  owner : Str
  hooks : List Hook
  trust : Option Str
  trustedSenders : Option (List Str)
  allowRootCatchall : Bool
  deriving DecidableEq

/-- Operator overrides for `aimx upgrade`. -/
structure UpgradeConfig where
  releaseManifestUrl : Option Str
  deriving DecidableEq

/-- The mailbox table: mailbox names are distinct. -/
abbrev Mailboxes := AList fun _ : Str => MailboxConfig

/-- The parsed `config.toml`. -/
structure Config where
  domain : Str
  dataDir : Str
  dkimSelector : Str
  trust : Str
  trustedSenders : List Str
  mailboxes : Mailboxes
  verifyHost : Option Str
  enableIpv6 : Bool
  signature : Option Str
  upgrade : Option UpgradeConfig
  deriving DecidableEq

/-- `MailboxConfig::is_catchall`: the address is the wildcard of the configured domain. -/
def MailboxConfig.isCatchall (mb : MailboxConfig) (config : Config) : Bool :=
  eqIgnoreAsciiCase mb.address ("*@".toList ++ config.domain)

/-- `MailboxConfig::on_receive_hooks`. -/
def MailboxConfig.onReceiveHooks (mb : MailboxConfig) : List Hook :=
  mb.hooks.filter fun h => h.event = .onReceive

/-- `MailboxConfig::effective_trust`: the mailbox value, else the global one. -/
def MailboxConfig.effectiveTrust (mb : MailboxConfig) (config : Config) : Str :=
  mb.trust.getD config.trust

/-- `MailboxConfig::effective_trusted_senders`: a mailbox list replaces the global one. -/
def MailboxConfig.effectiveTrustedSenders (mb : MailboxConfig) (config : Config) : List Str :=
  mb.trustedSenders.getD config.trustedSenders

/-- `MailboxConfig::after_send_hooks`. -/
def MailboxConfig.afterSendHooks (mb : MailboxConfig) : List Hook :=
  mb.hooks.filter fun h => h.event = .afterSend

/-- `Config::inbox_dir`. -/
def Config.inboxDir (config : Config) (name : Str) : Str :=
  joinPath (joinPath config.dataDir "inbox".toList) name

/-- `Config::sent_dir`. -/
def Config.sentDir (config : Config) (name : Str) : Str :=
  joinPath (joinPath config.dataDir "sent".toList) name

/-- `extract_local_part`: the text before the first `@`, or all of it. -/
def extractLocalPart (rcpt : Str) : Str :=
  match splitOnce '@' rcpt with
  | some (local_, _) => local_
  | none => rcpt

/-- `resolve_recipient_mailbox`: the mailbox named like the local part, else the catchall. -/
def resolveRecipientMailbox (config : Config) (rcpt : Str) : Option Str :=
  let localPart := extractLocalPart rcpt
  if localPart ∈ config.mailboxes then some localPart
  else if "catchall".toList ∈ config.mailboxes then some "catchall".toList
  else none

/-- Routing only ever names a configured mailbox. -/
theorem mem_of_resolveRecipientMailbox {config : Config} {rcpt name : Str}
    (h : resolveRecipientMailbox config rcpt = some name) : name ∈ config.mailboxes := by
  unfold resolveRecipientMailbox at h
  dsimp only at h
  split at h
  next hlocal =>
      cases h
      exact hlocal
  next =>
      split at h
      next hcatchall =>
          cases h
          exact hcatchall
      next => cases h

end Aimx
