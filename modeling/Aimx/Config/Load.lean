import Aimx.Config.Names
import Aimx.Config.Schema
import Aimx.Text.Decimal

/-!
# Loading the configuration

`Config::load` on the text of `config.toml`: the legacy check on the lines of the file, the check for
the removed `stdin` key on the parsed table, and the checks on the parsed configuration.  The `toml`
crate, the user database and the hash function are parameters.

* `HookFault`, `Hook.fault` — what is wrong with one hook, shared by `validate_single_hook` and
  `validate_hooks`;
* `validateRunAs`, `ownerWarnings` — owners;
* `load` — the whole load;
* `Accepted`, `validateConfig_isOk_iff` — exactly the configurations that pass.
-/

namespace Aimx

open Text

/-! ## Users -/

/-- A resolved system user. -/
structure ResolvedUser where
  name : Str
  uid : UInt32
  gid : UInt32
  deriving DecidableEq

/-- `RESERVED_RUN_AS_ROOT` and `RESERVED_RUN_AS_CATCHALL`. -/
def reservedRunAsRoot : Str := "root".toList
def reservedRunAsCatchall : Str := "aimx-catchall".toList

/-- `RunAsKind`. -/
inductive RunAsKind
  | reserved (name : Str)
  | user (u : ResolvedUser)
  deriving DecidableEq

/-- `ConfigError`. -/
inductive ConfigError
  | invalidUsername (name : Str)
  | orphanUser (name : Str)
  deriving DecidableEq

/-- `validate_run_as` over the user database. -/
def validateRunAs (resolveUser : Str → Option ResolvedUser) (name : Str) :
    Except ConfigError RunAsKind :=
  if name = reservedRunAsRoot then .ok (.reserved reservedRunAsRoot)
  else if name = reservedRunAsCatchall then .ok (.reserved reservedRunAsCatchall)
  else if !isValidSystemUsername name then .error (.invalidUsername name)
  else
    match resolveUser name with
    | some u => .ok (.user u)
    | none => .error (.orphanUser name)

/-- `MailboxConfig::owner_uid` and `owner_gid`, which differ only in the field they read. -/
def ownerIds (resolveUser : Str → Option ResolvedUser) (owner : Str) :
    Except ConfigError (UInt32 × UInt32) :=
  match validateRunAs resolveUser owner with
  | .error e => .error e
  | .ok (.user u) => .ok (u.uid, u.gid)
  | .ok (.reserved name) =>
      if name = reservedRunAsRoot then .ok (0, 0)
      else
        match resolveUser owner with
        | some u => .ok (u.uid, u.gid)
        | none => .error (.orphanUser owner)

/-! ## Hooks -/

/-- `MAX_HOOK_TIMEOUT_SECS`. -/
def maxHookTimeoutSecs : UInt32 := 600

/-- What is wrong with one hook. -/
inductive HookFault
  | invalidName (name : Str)
  | emptyCmd
  | blankProgram
  | relativeProgram (program : Str)
  | unsupportedType (type : Str)
  | untrustedOffReceive (event : HookEvent)
  | zeroTimeout
  | longTimeout (secs : UInt32)
  deriving DecidableEq

/-- The checks on one hook, in the order of `validate_single_hook` and `validate_hooks`. -/
def Hook.fault (hook : Hook) : Option HookFault :=
  match hook.name.filter fun name => !isValidHookName name with
  | some name => some (.invalidName name)
  | none =>
      match hook.cmd with
      | [] => some .emptyCmd
      | program :: _ =>
          if (trim program).isEmpty then some .blankProgram
          else if !isAbsolute program then some (.relativeProgram program)
          else if hook.type ≠ "cmd".toList then some (.unsupportedType hook.type)
          else if hook.fireOnUntrusted ∧ hook.event ≠ .onReceive then
            some (.untrustedOffReceive hook.event)
          else if hook.timeoutSecs = 0 then some .zeroTimeout
          else if hook.timeoutSecs > maxHookTimeoutSecs then some (.longTimeout hook.timeoutSecs)
          else none

/-- The texts of `validate_single_hook`. -/
def HookFault.single : HookFault → Str
  | .invalidName name => "invalid hook name '".toList ++ name ++
      "': must match [a-zA-Z0-9_][a-zA-Z0-9_.-]\x7b0,127\x7d".toList
  | .emptyCmd => ("hook has empty `cmd`: must be a non-empty argv array, " ++
      "e.g. `[\"/bin/echo\", \"hi\"]`").toList
  | .blankProgram => "hook has blank `cmd[0]`".toList
  | .relativeProgram program => "hook has non-absolute `cmd[0]` '".toList ++ program ++
      ("': hooks fire from /var/lib/aimx/... so PATH " ++
        "lookup is brittle; use an absolute path").toList
  | .unsupportedType type =>
      "hook has unsupported type '".toList ++ type ++ "': only `cmd` is supported".toList
  | .untrustedOffReceive _ => "`fire_on_untrusted = true` is `on_receive` only".toList
  | .zeroTimeout => "`timeout_secs = 0`: must be > 0".toList
  | .longTimeout secs => "`timeout_secs = ".toList ++ decimal secs.toNat ++
      "` exceeds the max of 600".toList

/-- The texts of `validate_hooks`, which name the hook and its mailbox. -/
def HookFault.located (hook : Hook) (mailbox : Str) (fault : HookFault) : Str :=
  let label := hook.name.getD "<anonymous>".toList
  let head := "hook '".toList ++ label ++ "' on mailbox '".toList ++ mailbox
  match fault with
  | .invalidName name => "invalid hook name '".toList ++ name ++ "' on mailbox '".toList ++ mailbox ++
      "': must match [a-zA-Z0-9_][a-zA-Z0-9_.-]\x7b0,127\x7d".toList
  | .emptyCmd => head ++ ("' has empty `cmd`: `cmd` must be a non-empty argv array, " ++
      "e.g. `cmd = [\"/bin/echo\", \"hi\"]`").toList
  | .blankProgram => head ++ "' has blank `cmd[0]`".toList
  | .relativeProgram program => head ++ "' has non-absolute `cmd[0]` '".toList ++ program ++
      ("': hooks fire from /var/lib/aimx/... so PATH lookup is brittle; " ++
        "use an absolute path (e.g. `/bin/echo` instead of `echo`)").toList
  | .unsupportedType type => head ++ "' has unsupported type '".toList ++ type ++
      "': only `cmd` is supported".toList
  | .untrustedOffReceive event => head ++ "' sets `fire_on_untrusted = true` on event '".toList ++
      event.asStr ++ "': this flag is `on_receive` only".toList
  | .zeroTimeout => head ++ "' has `timeout_secs = 0`: must be > 0".toList
  | .longTimeout secs => head ++ "' has `timeout_secs = ".toList ++ decimal secs.toNat ++
      "` which exceeds the max of 600".toList

/-- `validate_single_hook`. -/
def validateSingleHook (hook : Hook) : Except Str Unit :=
  match hook.fault with
  | some fault => .error fault.single
  | none => .ok ()

/-- Two lower-case hexadecimal digits. -/
def hexByte (b : UInt8) : Str := [Nat.digitChar (b.toNat / 16), Nat.digitChar (b.toNat % 16)]

/-- `DERIVED_HOOK_NAME_LEN`. -/
def derivedHookNameLen : Nat := 12

/-- `derive_hook_name`. -/
def deriveHookName (sha256 : Bytes → Bytes) (event : HookEvent) (cmd : List Str)
    (fireOnUntrusted : Bool) : Str :=
  let digest := sha256 <| utf8 event.asStr ++ [0x1F] ++ [0x1F].intercalate (cmd.map utf8) ++ [0x1F] ++
    [if fireOnUntrusted then 1 else 0]
  (digest.take ((derivedHookNameLen + 1) / 2)).flatMap hexByte

/-- `effective_hook_name`. -/
def effectiveHookName (sha256 : Bytes → Bytes) (hook : Hook) : Str :=
  match hook.name with
  | some name => name
  | none => deriveHookName sha256 hook.event hook.cmd hook.fireOnUntrusted

/-- The text for two hooks with one effective name. -/
def duplicateHook (effective priorMailbox mailbox : Str) (priorExplicit explicit : Bool) : Str :=
  match priorExplicit, explicit with
  | true, true => "duplicate hook name '".toList ++ effective ++ "' on mailboxes '".toList ++
      priorMailbox ++ "' and '".toList ++ mailbox ++
      "': hook names must be globally unique".toList
  | false, false => "anonymous hooks on mailboxes '".toList ++ priorMailbox ++ "' and '".toList ++
      mailbox ++ "' have identical event/cmd and derive the same name '".toList ++ effective ++
      "': set an explicit `name` on at least one to disambiguate".toList
  | _, _ => "explicit hook name '".toList ++ effective ++
      ("' on one mailbox collides with the derived name of an anonymous hook " ++
        "on another (mailboxes '").toList ++
      priorMailbox ++ "' and '".toList ++ mailbox ++
      ("'): rename the explicit hook or set " ++
        "an explicit `name` on the anonymous one").toList

/-- The walk of `validate_hooks`: each hook on its own, then its effective name against the names that
came before. -/
def checkHooks (sha256 : Bytes → Bytes) :
    List (Str × Str × Bool) → List (Str × Hook) → Except Str Unit
  | _, [] => .ok ()
  | seen, (mailbox, hook) :: rest =>
      match hook.fault with
      | some fault => .error (fault.located hook mailbox)
      | none =>
          let effective := effectiveHookName sha256 hook
          match seen.find? fun entry => entry.1 == effective with
          | some (_, priorMailbox, priorExplicit) =>
              .error (duplicateHook effective priorMailbox mailbox priorExplicit hook.name.isSome)
          | none => checkHooks sha256 ((effective, mailbox, hook.name.isSome) :: seen) rest

/-- All hooks of a configuration, with the names of their mailboxes. -/
def Config.allHooks (config : Config) : List (Str × Hook) :=
  config.mailboxes.entries.flatMap fun e => e.2.hooks.map fun hook => (e.1, hook)

/-- `validate_hooks`. -/
def validateHooks (sha256 : Bytes → Bytes) (config : Config) : Except Str Unit :=
  checkHooks sha256 [] config.allHooks

/-! ## The other checks -/

/-- Run a check on every mailbox, stopping at the first refusal. -/
def checkMailboxes (config : Config) (check : Str → MailboxConfig → Option Str) : Except Str Unit :=
  match config.mailboxes.entries.findSome? fun e => check e.1 e.2 with
  | some error => .error error
  | none => .ok ()

/-- `VALID_TRUST_VALUES`. -/
def validTrustValues : List Str := ["none".toList, "verified".toList]

/-- `validate_trust_values`. -/
def validateTrustValues (config : Config) : Except Str Unit :=
  if !validTrustValues.contains config.trust then
    .error ("invalid top-level trust value '".toList ++ config.trust ++
      "': expected one of [\"none\", \"verified\"]".toList)
  else
    checkMailboxes config fun name mb =>
      (mb.trust.filter fun t => !validTrustValues.contains t).map fun t =>
        "invalid trust value '".toList ++ t ++ "' on mailbox '".toList ++ name ++
          "': expected one of [\"none\", \"verified\"]".toList

/-- The check on the presence of an owner in `Config::load`. -/
def checkOwnersPresent (config : Config) : Except Str Unit :=
  checkMailboxes config fun name mb =>
    if (trim mb.owner).isEmpty then
      some ("mailbox '".toList ++ name ++
        ("' is missing required field 'owner'; " ++
          "re-run 'sudo aimx setup' or hand-edit config.toml").toList)
    else none

/-- `reject_post_parse_legacy`. -/
def rejectPostParseLegacy (config : Config) : Except Str Unit :=
  checkMailboxes config fun name mb =>
    if mb.isCatchall config ∧ !mb.hooks.isEmpty then
      some ("mailbox '".toList ++ name ++
        "' is the catchall but has hooks attached; catchall does not support hooks".toList)
    else
      (mb.hooks.find? fun hook => hook.fireOnUntrusted ∧ hook.event ≠ .onReceive).map fun hook =>
        "hook '".toList ++ hook.name.getD "<anonymous>".toList ++ "' on mailbox '".toList ++ name ++
          "' sets `fire_on_untrusted = true` on event '".toList ++ hook.event.asStr ++
          "': fire_on_untrusted is on_receive only".toList

/-- `LoadWarning`. -/
inductive LoadWarning
  | orphanMailboxOwner (mailbox owner : Str)
  | rootCatchallAccepted (mailbox : Str)
  deriving DecidableEq

/-- One round of `validate_mailbox_owners`. -/
def ownerWarnings (resolveUser : Str → Option ResolvedUser) (config : Config) (name : Str)
    (mb : MailboxConfig) : Except Str (List LoadWarning) :=
  let isCatchall := mb.isCatchall config
  let ownerIsRoot : Bool := mb.owner = reservedRunAsRoot
  let orphan :=
    match validateRunAs resolveUser mb.owner with
    | .error (.orphanUser _) => [LoadWarning.orphanMailboxOwner name mb.owner]
    | _ => []
  match validateRunAs resolveUser mb.owner with
  | .error (.invalidUsername _) =>
      .error ("mailbox '".toList ++ name ++ "' has invalid owner '".toList ++ mb.owner ++
        ("': must be 'root', 'aimx-catchall', or a valid Linux username " ++
          "matching [a-z_][a-z0-9_-]*[$]?").toList)
  | _ =>
      if mb.allowRootCatchall ∧ !isCatchall then
        .error ("mailbox '".toList ++ name ++
          "' sets allow_root_catchall=true but is not a catchall (*@".toList ++ config.domain ++
          "); remove the flag or change the address".toList)
      else if ownerIsRoot ∧ !isCatchall then
        .error ("mailbox '".toList ++ name ++
          ("' cannot be owned by root; use a regular Linux user or set " ++
            "'allow_root_catchall = true' on a catchall mailbox").toList)
      else if isCatchall ∧ ownerIsRoot then
        if !mb.allowRootCatchall then
          .error ("catchall mailbox '".toList ++ name ++
            ("' has owner='root' but allow_root_catchall=false; set allow_root_catchall=true " ++
              "to opt into the root-catchall escape hatch, or change " ++
              "owner to 'aimx-catchall' (the default)").toList)
        else .ok (orphan ++ [.rootCatchallAccepted name])
      else .ok orphan

/-- `validate_mailbox_owners`. -/
def validateMailboxOwners (resolveUser : Str → Option ResolvedUser) (config : Config) :
    Except Str (List LoadWarning) :=
  (config.mailboxes.entries.mapM fun e => ownerWarnings resolveUser config e.1 e.2).map List.flatten

/-! ## The legacy checks -/

/-- One line of `reject_legacy_schema`: whether the walk is now inside a `hooks` table, or the
refusal. -/
def legacyLine (inHook : Bool) (line : Str) : Except Str Bool :=
  let trimmed := trim line
  match (stripPrefix "[[".toList trimmed).bind (stripSuffix "]]".toList) with
  | some inner =>
      if inner = "hook_template".toList ∨ "hook_template.".toList.isPrefixOf inner then
        .error ("[[hook_template]] blocks are not supported; template hooks " ++
          "were removed. See book/hooks.md for the supported raw-cmd schema").toList
      else
        match stripPrefix "mailboxes.".toList inner with
        | none => .ok false
        | some rest =>
            match stripSuffix ".on_receive".toList rest with
            | some name => .error ("mailbox '".toList ++ name ++
                "' uses the legacy `on_receive` schema; migrate to `[[mailboxes.".toList ++ name ++
                ".hooks]]` with `event = \"on_receive\"`".toList)
            | none => .ok (".hooks".toList.isSuffixOf rest)
  | none =>
      match (stripPrefix "[".toList trimmed).bind (stripSuffix "]".toList) with
      | some inner =>
          match ((stripPrefix "mailboxes.".toList inner).bind (stripSuffix ".match".toList)).bind
              (stripSuffix ".on_receive".toList) with
          | some name => .error ("mailbox '".toList ++ name ++
              "' uses the legacy `on_receive.match` schema; migrate to `[[mailboxes.".toList ++
              name ++ ".hooks]]` with `event = \"on_receive\"`".toList)
          | none => .ok false
      | none =>
          if !inHook then .ok false
          else
            match splitOnce '=' trimmed with
            | none => .ok true
            | some (key, _) =>
                let key := trim key
                if key = "run_as".toList then
                  .error ("hook sets `run_as`; the field was removed — hooks now run " ++
                    "as the mailbox's `owner`").toList
                else if key = "origin".toList then
                  .error "hook sets `origin`; the field was removed".toList
                else if key = "dangerously_support_untrusted".toList then
                  .error ("hook sets `dangerously_support_untrusted`; the field was " ++
                    "renamed to `fire_on_untrusted`").toList
                else if key = "template".toList ∨ key = "params".toList then
                  .error ("hook sets `".toList ++ key ++
                    ("`; template hooks were removed. " ++
                      "See book/hooks.md for the supported raw-cmd schema").toList)
                else .ok true

/-- `reject_legacy_schema`. -/
def rejectLegacySchema (content : Str) : Except Str Unit :=
  (lines content).foldlM legacyLine false |>.map fun _ => ()

/-- A parsed TOML value, with its floating-point numbers and dates left out. -/
inductive TomlValue
  | string (s : Str)
  | integer (n : Int)
  | boolean (b : Bool)
  | array (items : List TomlValue)
  | table (fields : List (Str × TomlValue))
  | other

/-- `Value::get` with a key. -/
def TomlValue.get (key : Str) : TomlValue → Option TomlValue
  | .table fields => (fields.find? fun f => f.1 == key).map Prod.snd
  | _ => none

/-- `Value::as_table`, as the list of its fields. -/
def TomlValue.asTable : TomlValue → Option (List (Str × TomlValue))
  | .table fields => some fields
  | _ => none

/-- `Value::as_array`. -/
def TomlValue.asArray : TomlValue → Option (List TomlValue)
  | .array items => some items
  | _ => none

/-- `Value::as_str`. -/
def TomlValue.asStr : TomlValue → Option Str
  | .string s => some s
  | _ => none

/-- `Value::as_bool`. -/
def TomlValue.asBool : TomlValue → Option Bool
  | .boolean b => some b
  | _ => none

/-- `derive_hook_name_from_toml`. -/
def deriveHookNameFromToml (sha256 : Bytes → Bytes) (hook : TomlValue) : Str :=
  let event := if (hook.get "event".toList).bind TomlValue.asStr = some "after_send".toList then
    HookEvent.afterSend else .onReceive
  let cmd := (((hook.get "cmd".toList).bind TomlValue.asArray).getD []).filterMap TomlValue.asStr
  let fire := ((hook.get "fire_on_untrusted".toList).bind TomlValue.asBool).getD false
  deriveHookName sha256 event cmd fire

/-- The hook tables of a parsed file. -/
def TomlValue.hookTables (parsed : TomlValue) : List TomlValue :=
  (((parsed.get "mailboxes".toList).bind TomlValue.asTable).getD []).flatMap fun mailbox =>
    ((mailbox.2.get "hooks".toList).bind TomlValue.asArray).getD []

/-- `reject_removed_stdin_field`. -/
def rejectRemovedStdinField (sha256 : Bytes → Bytes) (parsed : TomlValue) : Except Str Unit :=
  match parsed.hookTables.find? fun hook => (hook.get "stdin".toList).isSome with
  | none => .ok ()
  | some hook =>
      let name := match (hook.get "name".toList).bind TomlValue.asStr with
        | some name => name
        | none => deriveHookNameFromToml sha256 hook
      .error ("hook '".toList ++ name ++
        ("' carries removed field 'stdin' — remove this line and " ++
          "restart aimx serve; the email is always piped to hooks").toList)

/-! ## The load -/

/-- What a load takes from its surroundings: the `toml` crate's parser and the deserializer derived
for `Config`, the user database, and the hash function. -/
structure LoadEnv where
  parseToml : Str → Except Str TomlValue
  deserialize : TomlValue → Except Str Config
  resolveUser : Str → Option ResolvedUser
  sha256 : Bytes → Bytes

/-- The checks of `Config::load` on the deserialized configuration. -/
def validateConfig (env : LoadEnv) (config : Config) : Except Str (List LoadWarning) := do
  checkOwnersPresent config
  validateTrustValues config
  rejectPostParseLegacy config
  let warnings ← validateMailboxOwners env.resolveUser config
  validateHooks env.sha256 config
  return warnings

/-- `Config::load` on the text of the file. -/
def load (env : LoadEnv) (content : Str) : Except Str (Config × List LoadWarning) := do
  rejectLegacySchema content
  let value ← env.parseToml content
  rejectRemovedStdinField env.sha256 value
  let config ← env.deserialize value
  let warnings ← validateConfig env config
  return (config, warnings)

/-! ## What a load accepts -/

/-- The owner rules of one mailbox: a name the system could have, and root only on a catchall that
says so. -/
structure MailboxConfig.OwnerOk (mb : MailboxConfig) (config : Config) : Prop where
  present : (trim mb.owner).isEmpty = false
  valid : mb.owner = reservedRunAsRoot ∨ mb.owner = reservedRunAsCatchall ∨
    isValidSystemUsername mb.owner = true
  flag : mb.allowRootCatchall = true → mb.isCatchall config = true
  root : mb.owner = reservedRunAsRoot → mb.isCatchall config = true ∧ mb.allowRootCatchall = true

/-- A configuration that passes every check of `Config::load`. -/
structure Accepted (sha256 : Bytes → Bytes) (config : Config) : Prop where
  trust : config.trust ∈ validTrustValues
  mailboxTrust : ∀ e ∈ config.mailboxes.entries, ∀ t ∈ e.2.trust, t ∈ validTrustValues
  catchallHooks : ∀ e ∈ config.mailboxes.entries, e.2.isCatchall config = true → e.2.hooks = []
  owners : ∀ e ∈ config.mailboxes.entries, e.2.OwnerOk config
  hooks : ∀ h ∈ config.allHooks, h.2.fault = none
  hookNames : (config.allHooks.map fun h => effectiveHookName sha256 h.2).Nodup

theorem checkMailboxes_eq_ok_iff {config : Config} {check : Str → MailboxConfig → Option Str} :
    checkMailboxes config check = .ok () ↔
      ∀ e ∈ config.mailboxes.entries, check e.1 e.2 = none := by
  unfold checkMailboxes
  cases hfind : config.mailboxes.entries.findSome? fun e => check e.1 e.2 with
  | some error =>
      obtain ⟨e, he, hcheck⟩ := List.exists_of_findSome?_eq_some hfind
      constructor
      · intro h
        cases h
      · intro h
        rw [h e he] at hcheck
        cases hcheck
  | none => simpa using List.findSome?_eq_none_iff.mp hfind

/-- `validate_run_as` hard-rejects exactly the names no user can have. -/
theorem validateRunAs_invalid_iff {resolveUser : Str → Option ResolvedUser} {name : Str} :
    (∃ n, validateRunAs resolveUser name = .error (.invalidUsername n)) ↔
      ¬ (name = reservedRunAsRoot ∨ name = reservedRunAsCatchall ∨
        isValidSystemUsername name = true) := by
  unfold validateRunAs
  by_cases hroot : name = reservedRunAsRoot
  · simp [hroot]
  · by_cases hcatchall : name = reservedRunAsCatchall
    · have hne : reservedRunAsCatchall ≠ reservedRunAsRoot := by decide
      simp [hcatchall, hne]
    · by_cases hvalid : isValidSystemUsername name = true
      · cases resolveUser name <;> simp [hroot, hcatchall, hvalid]
      · simp [hroot, hcatchall, hvalid]

/-- One round of `validate_mailbox_owners` passes exactly under the owner rules. -/
theorem ownerWarnings_isOk_iff {resolveUser : Str → Option ResolvedUser} {config : Config}
    {name : Str} {mb : MailboxConfig} (hpresent : (trim mb.owner).isEmpty = false) :
    (∃ w, ownerWarnings resolveUser config name mb = .ok w) ↔ mb.OwnerOk config := by
  have hinvalid := @validateRunAs_invalid_iff resolveUser mb.owner
  have hok : mb.OwnerOk config ↔
      (mb.owner = reservedRunAsRoot ∨ mb.owner = reservedRunAsCatchall ∨
        isValidSystemUsername mb.owner = true) ∧
      (mb.allowRootCatchall = true → mb.isCatchall config = true) ∧
      (mb.owner = reservedRunAsRoot → mb.isCatchall config = true ∧ mb.allowRootCatchall = true) :=
    ⟨fun h => ⟨h.valid, h.flag, h.root⟩, fun h => ⟨hpresent, h.1, h.2.1, h.2.2⟩⟩
  rw [hok]
  -- A name that no user can have is refused before the flags are looked at.
  by_cases hvalid : mb.owner = reservedRunAsRoot ∨ mb.owner = reservedRunAsCatchall ∨
      isValidSystemUsername mb.owner = true
  · have hnot : ∀ n, validateRunAs resolveUser mb.owner ≠ .error (.invalidUsername n) :=
      fun n hn => hinvalid.mp ⟨n, hn⟩ hvalid
    unfold ownerWarnings
    have hflags : ∀ orphan : List LoadWarning, ∀ e₁ e₂ e₃ : Str, ∀ root catchall flag : Bool,
        (∃ w, (if flag ∧ !catchall then Except.error e₁
          else if root ∧ !catchall then .error e₂
          else if catchall ∧ root then
            if !flag then .error e₃ else .ok (orphan ++ [.rootCatchallAccepted name])
          else .ok orphan) = .ok w) ↔
        (flag = true → catchall = true) ∧ (root = true → catchall = true ∧ flag = true) := by
      intro orphan e₁ e₂ e₃ root catchall flag
      cases root <;> cases catchall <;> cases flag <;> simp
    cases hrun : validateRunAs resolveUser mb.owner with
    | ok kind =>
        dsimp only
        rw [hflags, decide_eq_true_eq]
        exact ⟨fun h => ⟨hvalid, h⟩, fun h => h.2⟩
    | error e =>
        cases e with
        | invalidUsername n => exact absurd hrun (hnot n)
        | orphanUser n =>
            dsimp only
            rw [hflags, decide_eq_true_eq]
            exact ⟨fun h => ⟨hvalid, h⟩, fun h => h.2⟩
  · obtain ⟨n, hn⟩ := hinvalid.mpr hvalid
    unfold ownerWarnings
    rw [hn]
    constructor
    · rintro ⟨w, hw⟩
      cases hw
    · rintro ⟨hnot, -⟩
      exact absurd hnot hvalid

/-- The walk of `validate_hooks` passes exactly when no hook is at fault and no effective name comes
twice. -/
theorem checkHooks_eq_ok_iff {sha256 : Bytes → Bytes} {hooks : List (Str × Hook)} :
    ∀ {seen : List (Str × Str × Bool)},
    checkHooks sha256 seen hooks = .ok () ↔
      (∀ h ∈ hooks, h.2.fault = none) ∧
      (hooks.map fun h => effectiveHookName sha256 h.2).Nodup ∧
      ∀ h ∈ hooks, ∀ entry ∈ seen, entry.1 ≠ effectiveHookName sha256 h.2 := by
  induction hooks with
  | nil => simp [checkHooks]
  | cons head rest ih =>
      intro seen
      obtain ⟨mailbox, hook⟩ := head
      unfold checkHooks
      cases hfault : hook.fault with
      | some fault => simp [hfault]
      | none =>
          dsimp only
          cases hfind : seen.find? fun entry => entry.1 == effectiveHookName sha256 hook with
          | some entry =>
              have hmem := List.mem_of_find?_eq_some hfind
              have heq := List.find?_some hfind
              rw [beq_iff_eq] at heq
              constructor
              · intro h
                cases h
              · rintro ⟨-, -, hseen⟩
                exact absurd heq (hseen _ List.mem_cons_self entry hmem)
          | none =>
              have hfresh : ∀ entry ∈ seen, entry.1 ≠ effectiveHookName sha256 hook := by
                intro entry hentry heq
                have hnone := List.find?_eq_none.mp hfind entry hentry
                exact hnone (beq_iff_eq.mpr heq)
              rw [ih]
              simp only [List.forall_mem_cons, List.map_cons, List.nodup_cons, List.mem_map]
              constructor
              · rintro ⟨hfaults, hnodup, hseen⟩
                refine ⟨⟨hfault, hfaults⟩, ⟨?_, hnodup⟩, hfresh, fun h hh => (hseen h hh).2⟩
                rintro ⟨h, hh, heq⟩
                exact (hseen h hh).1 heq.symm
              · rintro ⟨⟨-, hfaults⟩, ⟨hnew, hnodup⟩, -, hseen⟩
                refine ⟨hfaults, hnodup, fun h hh => ⟨fun heq => hnew ⟨h, hh, heq.symm⟩, hseen h hh⟩⟩

theorem checkOwnersPresent_eq_ok_iff {config : Config} : checkOwnersPresent config = .ok () ↔
    ∀ e ∈ config.mailboxes.entries, (trim e.2.owner).isEmpty = false := by
  rw [checkOwnersPresent, checkMailboxes_eq_ok_iff]
  apply forall₂_congr
  intro e _
  cases (trim e.2.owner).isEmpty <;> simp

theorem validateTrustValues_eq_ok_iff {config : Config} : validateTrustValues config = .ok () ↔
    config.trust ∈ validTrustValues ∧
      ∀ e ∈ config.mailboxes.entries, ∀ t ∈ e.2.trust, t ∈ validTrustValues := by
  unfold validateTrustValues
  by_cases htop : config.trust ∈ validTrustValues
  · have hmb : ∀ mb : MailboxConfig,
        (∀ t ∈ mb.trust, t ∈ validTrustValues) ↔
          (mb.trust.filter fun t => !validTrustValues.contains t) = none := by
      intro mb
      cases mb.trust <;> simp
    have hcontains : (!validTrustValues.contains config.trust) = false := by simpa using htop
    rw [hcontains, if_neg Bool.false_ne_true, checkMailboxes_eq_ok_iff]
    simp only [htop, true_and, Option.map_eq_none_iff, hmb]
  · simp [htop]

theorem rejectPostParseLegacy_eq_ok_iff {config : Config} : rejectPostParseLegacy config = .ok () ↔
    ∀ e ∈ config.mailboxes.entries, (e.2.isCatchall config = true → e.2.hooks = []) ∧
      ∀ hook ∈ e.2.hooks, hook.fireOnUntrusted = true → hook.event = .onReceive := by
  rw [rejectPostParseLegacy, checkMailboxes_eq_ok_iff]
  apply forall₂_congr
  intro e _
  by_cases hcatchall : e.2.isCatchall config = true ∧ (!e.2.hooks.isEmpty) = true
  · rw [if_pos hcatchall]
    have hne : e.2.hooks ≠ [] := by simpa using hcatchall.2
    simp [hcatchall.1, hne]
  · rw [if_neg hcatchall, Option.map_eq_none_iff, List.find?_eq_none]
    have hempty : e.2.isCatchall config = true → e.2.hooks = [] := by
      simpa using hcatchall
    simpa using fun _ => hempty

/-- A hook without a fault fires on untrusted mail only on receipt. -/
theorem Hook.onReceive_of_fault_eq_none {hook : Hook} (h : hook.fault = none)
    (hfire : hook.fireOnUntrusted = true) : hook.event = .onReceive := by
  by_contra hevent
  unfold Hook.fault at h
  split at h
  next => cases h
  next =>
      split at h
      next => cases h
      next program rest hcmd =>
          have hoff : hook.fireOnUntrusted = true ∧ hook.event ≠ .onReceive := ⟨hfire, hevent⟩
          rw [if_pos hoff] at h
          repeat' split at h
          all_goals cases h

theorem mapM_except_isOk_iff {α β ε : Type} {f : α → Except ε β} {l : List α} :
    (∃ r, l.mapM f = .ok r) ↔ ∀ a ∈ l, ∃ b, f a = .ok b := by
  induction l with
  | nil => simp [pure, Except.pure]
  | cons a l ih =>
      rw [List.forall_mem_cons, ← ih, List.mapM_cons]
      cases f a with
      | error e => simp [bind, Except.bind]
      | ok b =>
          cases l.mapM f with
          | error e => simp [bind, Except.bind]
          | ok r => simp [bind, Except.bind, pure, Except.pure]

theorem validateMailboxOwners_isOk_iff {resolveUser : Str → Option ResolvedUser} {config : Config}
    (hpresent : ∀ e ∈ config.mailboxes.entries, (trim e.2.owner).isEmpty = false) :
    (∃ w, validateMailboxOwners resolveUser config = .ok w) ↔
      ∀ e ∈ config.mailboxes.entries, e.2.OwnerOk config := by
  have hrounds : (∀ e ∈ config.mailboxes.entries,
      ∃ w, ownerWarnings resolveUser config e.1 e.2 = .ok w) ↔
        ∀ e ∈ config.mailboxes.entries, e.2.OwnerOk config :=
    forall₂_congr fun e he => ownerWarnings_isOk_iff (hpresent e he)
  rw [← hrounds, ← mapM_except_isOk_iff, validateMailboxOwners]
  cases config.mailboxes.entries.mapM fun e => ownerWarnings resolveUser config e.1 e.2 <;>
    simp [Except.map]

/-- The checks of a load pass exactly on the accepted configurations; the user database only decides
the warnings. -/
theorem validateConfig_isOk_iff {env : LoadEnv} {config : Config} :
    (∃ w, validateConfig env config = .ok w) ↔ Accepted env.sha256 config := by
  have howners := @checkOwnersPresent_eq_ok_iff config
  have htrust := @validateTrustValues_eq_ok_iff config
  have hlegacy := @rejectPostParseLegacy_eq_ok_iff config
  have hhooks := @checkHooks_eq_ok_iff env.sha256 config.allHooks []
  have hhook : ∀ e ∈ config.mailboxes.entries, ∀ hook ∈ e.2.hooks, (e.1, hook) ∈ config.allHooks :=
    fun e he hook hmem =>
      List.mem_flatMap.mpr ⟨e, he, List.mem_map_of_mem hmem⟩
  constructor
  · rintro ⟨w, h⟩
    unfold validateConfig at h
    cases h₁ : checkOwnersPresent config with
    | error e => simp [h₁, bind, Except.bind] at h
    | ok u₁ =>
    cases h₂ : validateTrustValues config with
    | error e => simp [h₁, h₂, bind, Except.bind] at h
    | ok u₂ =>
    cases h₃ : rejectPostParseLegacy config with
    | error e => simp [h₁, h₂, h₃, bind, Except.bind] at h
    | ok u₃ =>
    cases h₄ : validateMailboxOwners env.resolveUser config with
    | error e => simp [h₁, h₂, h₃, h₄, bind, Except.bind] at h
    | ok warnings =>
    cases h₅ : validateHooks env.sha256 config with
    | error e => simp [h₁, h₂, h₃, h₄, h₅, bind, Except.bind] at h
    | ok u₅ =>
    have hpresent := howners.mp h₁
    exact {
      trust := (htrust.mp h₂).1
      mailboxTrust := (htrust.mp h₂).2
      catchallHooks := fun e he => (hlegacy.mp h₃ e he).1
      owners := (validateMailboxOwners_isOk_iff hpresent).mp ⟨warnings, h₄⟩
      hooks := (hhooks.mp h₅).1
      hookNames := (hhooks.mp h₅).2.1 }
  · intro h
    have hpresent : ∀ e ∈ config.mailboxes.entries, (trim e.2.owner).isEmpty = false :=
      fun e he => (h.owners e he).present
    obtain ⟨warnings, hwarnings⟩ :=
      (@validateMailboxOwners_isOk_iff env.resolveUser config hpresent).mpr h.owners
    have h₃ : rejectPostParseLegacy config = .ok () := by
      apply hlegacy.mpr
      intro e he
      refine ⟨h.catchallHooks e he, fun hook hmem hfire => ?_⟩
      exact Hook.onReceive_of_fault_eq_none (h.hooks _ (hhook e he hook hmem)) hfire
    have h₅ : validateHooks env.sha256 config = .ok () :=
      hhooks.mpr ⟨h.hooks, h.hookNames, by simp⟩
    refine ⟨warnings, ?_⟩
    simp [validateConfig, howners.mpr hpresent, htrust.mpr ⟨h.trust, h.mailboxTrust⟩, h₃, hwarnings,
      h₅, bind, Except.bind, pure, Except.pure]

end Aimx
