import Aimx.Daemon.Dispatch
import Aimx.Daemon.HookSet

/-!
# Hooks on the command line

`aimx hooks create` and `aimx hooks delete`.  Each command is checked on the configuration that the
command line has loaded and becomes a submission.  With the daemon running its request is written to the
daemon's socket; without, root edits the file.

* `submission` — the checks up to the request, shared by both paths;
* `applyCreateDirect`, `applyDeleteDirect` — the edit of the file;
* `online` — what the daemon makes of the bytes of the request;
* `Agree`, `Submission.Fits` — what the two paths are to have in common, and when they do;
* `offline_agrees_iff` — exactly then;
* `offline_accepts_catchall` — a hook that only the edit of the file accepts.
-/

namespace Aimx
namespace Cli

open Text Protocol Daemon
open scoped Literal

/-! ## Surroundings and texts -/

/-- What the command line takes from its surroundings besides those of the daemon, which include how the
standard library shows a text in an error: the parser and the printer of `serde_json`. -/
structure CliEnv where
  server : ServerEnv
  debug : Str → Str
  parseArgv : Str → Except Str (List Str)
  printJson : JsonValue → Bytes

/-- `AuthErrorContext`. -/
structure AuthErrorContext where
  surface : Option Str
  verb : Option Str
  resource : Option Str
  mailboxName : Option Str

/-- `format_auth_error`. -/
def formatAuthError (ctx : AuthErrorContext) : AuthError → Str
  | .notRoot =>
      match ctx.surface, ctx.verb with
      | some surface, some verb => "not authorized: ".toList ++ surface ++ " ".toList ++ verb ++
          " requires root (run with sudo)".toList
      | _, _ => "not authorized: requires root".toList
  | .notOwner mailbox =>
      "not authorized: caller does not own mailbox '".toList ++ mailbox ++ "'".toList
  | .ownerMismatch _ => "not authorized: cannot ".toList ++ ctx.verb.getD "perform".toList ++
      " a ".toList ++ ctx.resource.getD "mailbox".toList ++ " owned by another user".toList
  | .noSuchMailbox =>
      match ctx.mailboxName with
      | some name => "not authorized: mailbox '".toList ++ name ++ "' not found".toList
      | none => "not authorized: no such mailbox".toList

/-- `hooks_ctx`. -/
def hooksCtx (verb : String) : AuthErrorContext :=
  ⟨some "aimx hooks".toList, some verb.toList, some "resource".toList, none⟩

/-! ## Submissions -/

/-- The arguments of `aimx hooks create`. -/
structure HookCreateArgs where
  mailbox : Str
  event : Str
  cmd : Str
  name : Option Str
  timeoutSecs : Option UInt32
  fireOnUntrusted : Bool

/-- The commands that change hooks. -/
inductive HookCommand
  | create (args : HookCreateArgs)
  | delete (name : Str) (yes : Bool)

/-- A command that has passed its checks: what goes to the daemon, and what is written without it. -/
inductive Submission
  | create (request : HookCreateRequest) (hook : Hook)
  | delete (request : HookDeleteRequest)
  deriving DecidableEq

/-- The bytes that are written to the daemon. -/
def Submission.written : Submission → Bytes
  | .create request _ => writeHookCreateRequest request
  | .delete request => writeHookDeleteRequest request

/-- `parse_event` of the command line. -/
def parseEventArg (s : Str) : Except Str HookEvent :=
  if s = "on_receive".toList then .ok .onReceive
  else if s = "after_send".toList then .ok .afterSend
  else .error ("Invalid event '".toList ++ s ++ "': expected 'on_receive' or 'after_send'".toList)

/-- The JSON body that `build_hook_create_body` serializes; its keys are sorted. -/
def hookCreateBody (cmd : List Str) (fireOnUntrusted : Bool) (timeoutSecs : UInt32) : JsonValue :=
  .object <|
    [("cmd".toList, .array (cmd.map .string)), ("fire_on_untrusted".toList, .boolean fireOnUntrusted)] ++
    (if timeoutSecs ≠ defaultHookTimeoutSecs then
      [("timeout_secs".toList, .integer timeoutSecs.toNat)] else []) ++
    [("type".toList, .string "cmd".toList)]

section Submissions

variable (env : CliEnv) (euid : UInt32) (config : Config)

/-- `parse_cmd_argv`. -/
def parseCmdArgv (raw : Str) : Except Str (List Str) :=
  let usage := ("--cmd must be a JSON array of strings, e.g. --cmd " ++
    "'[\"/bin/echo\", \"hello\"]'; ").toList
  if !"[".toList.isPrefixOf (trimStart raw) then .error (usage ++ "got: ".toList ++ raw)
  else
    match env.parseArgv raw with
    | .error e => .error (usage ++ "parse error: ".toList ++ e)
    | .ok argv =>
        if argv.isEmpty then .error "--cmd must be a non-empty JSON array of strings".toList
        else .ok argv

/-- `create` up to the submission. -/
def createSubmission (args : HookCreateArgs) : Except Str Submission :=
  match args.name.filter fun name => !isValidHookName name with
  | some name => .error ("invalid hook name '".toList ++ name ++
      "': must match [a-zA-Z0-9_][a-zA-Z0-9_.-]\x7b0,127\x7d".toList)
  | none =>
      match config.mailboxes.lookup args.mailbox with
      | none => .error ("Mailbox '".toList ++ args.mailbox ++ "' does not exist".toList)
      | some mb =>
          match authorize env.server.handlers.users euid (.hookCrud args.mailbox) (some mb) with
          | .error e => .error (formatAuthError (hooksCtx "create") e)
          | .ok () =>
              match parseEventArg args.event with
              | .error e => .error e
              | .ok event =>
                  if event = .afterSend ∧ args.fireOnUntrusted then
                    .error "--fire-on-untrusted is only valid on --event on_receive".toList
                  else if (trim args.cmd).isEmpty then .error "--cmd must not be empty".toList
                  else
                    match parseCmdArgv env args.cmd with
                    | .error e => .error e
                    | .ok cmd =>
                        let timeoutSecs := args.timeoutSecs.getD defaultHookTimeoutSecs
                        .ok <| .create
                          { mailbox := args.mailbox
                            event := args.event
                            name := args.name
                            body := env.printJson
                              (hookCreateBody cmd args.fireOnUntrusted timeoutSecs) }
                          { name := args.name
                            event := event
                            type := "cmd".toList
                            cmd := cmd
                            fireOnUntrusted := args.fireOnUntrusted
                            timeoutSecs := timeoutSecs }

/-- `find_hook_by_effective_name`. -/
def findHookByEffectiveName (name : Str) : Option (Str × Hook) :=
  config.allHooks.find? fun h => effectiveHookName env.server.handlers.sha256 h.2 == name

/-- `delete_with_config` up to the submission, with the operator's answer to the prompt; nothing is
submitted if the answer is not `y`. -/
def deleteSubmission (name : Str) (yes : Bool) (answer : Str) : Except Str (Option Submission) :=
  match findHookByEffectiveName env config name with
  | none => .error ("Hook '".toList ++ name ++ "' not found".toList)
  | some (mailbox, _) =>
      if !yes && !eqIgnoreAsciiCase (trim answer) "y".toList then .ok none
      else
        match authorize env.server.handlers.users euid (.hookCrud mailbox)
            (config.mailboxes.lookup mailbox) with
        | .error e => .error (formatAuthError (hooksCtx "delete") e)
        | .ok () => .ok (some (.delete ⟨name⟩))

/-- A command up to its submission. -/
def submission (answer : Str) : HookCommand → Except Str (Option Submission)
  | .create args => (createSubmission env euid config args).map some
  | .delete name yes => deleteSubmission env euid config name yes answer

end Submissions

/-! ## The edit of the file -/

section Direct

variable (env : HandlerEnv) (config : Config)

/-- `Config::save`. -/
def save (faults : Faults) (result : Except Str Config) (disk : Disk) : Disk × Except Str Config :=
  match result with
  | .error e => (disk, .error e)
  | .ok config =>
      match writeAtomic env faults config disk with
      | (disk, .error e) =>
          (disk, .error ("failed to write ".toList ++ env.configPath ++ ": ".toList ++ e))
      | (disk, .ok ()) => (disk, .ok config)

/-- `apply_create_direct` up to the save. -/
def directCreate (mailbox : Str) (hook : Hook) : Except Str Config :=
  match config.mailboxes.lookup mailbox with
  | none => .error ("Mailbox '".toList ++ mailbox ++ "' does not exist".toList)
  | some _ =>
      match validateHooks env.sha256 (config.pushHook mailbox hook) with
      | .error e => .error e
      | .ok () => .ok (config.pushHook mailbox hook)

/-- The configuration without the hooks of a name, on whatever mailbox they are. -/
def retainHooksEverywhere (name : Str) : Config :=
  { config with
    mailboxes := Table.mapValues (fun _ mb => mb.retainHooks env.sha256 name) config.mailboxes }

/-- `apply_delete_direct` up to the save. -/
def directDelete (name : Str) : Except Str Config :=
  if config.mailboxes.entries.any fun e =>
      (e.2.retainHooks env.sha256 name).hooks.length ≠ e.2.hooks.length then
    .ok (retainHooksEverywhere env config name)
  else .error ("Hook '".toList ++ name ++ "' not found".toList)

/-- `apply_create_direct`. -/
def applyCreateDirect (faults : Faults) (mailbox : Str) (hook : Hook) (disk : Disk) :
    Disk × Except Str Config :=
  save env faults (directCreate env config mailbox hook) disk

/-- `apply_delete_direct`. -/
def applyDeleteDirect (faults : Faults) (name : Str) (disk : Disk) : Disk × Except Str Config :=
  save env faults (directDelete env config name) disk

/-- The edit of the file for a submission. -/
def Submission.applyDirect (faults : Faults) (disk : Disk) : Submission → Disk × Except Str Config
  | .create request hook => applyCreateDirect env config faults request.mailbox hook disk
  | .delete request => applyDeleteDirect env config faults request.name disk

end Direct

/-! ## The two paths -/

/-- The two paths agree: both refuse, or both accept with one configuration, and the file of the edit is
one that the daemon starts on. -/
def Agree (env : ServerEnv) (offline : Disk × Except Str Config) (online : Option (World × AckResponse)) :
    Prop :=
  match offline.2 with
  | .error _ => ∀ world, online ≠ some (world, .ok)
  | .ok config => ∃ world, online = some (world, .ok) ∧ world.memory = config ∧
      ∃ r, Aimx.load env.load offline.1.config = .ok r

/-- What the daemon, with the configuration in its memory, makes of the bytes of a submission of root. -/
def online (cli : CliEnv) (config : Config) (disk : Disk) (sub : Submission) :
    Option (World × AckResponse) :=
  dispatchHook cli.server.handlers cli.debug (fun _ => none) ⟨config, disk⟩
    (cli.server.handlers.users.caller 0) sub.written

/-- The answer of its handlers to a request of root. -/
def handled (env : HandlerEnv) (config : Config) (disk : Disk) (request : ConfigRequest) :
    World × AckResponse :=
  handle env (fun _ => none) ⟨config, disk⟩ (env.users.caller 0) request

/-- The legacy check lets the printed configuration pass. -/
def PrintsPlainly (env : HandlerEnv) (config : Config) : Prop :=
  ∀ text, env.print config = .ok text → rejectLegacySchema text = .ok ()

/-- The mailbox and the body of a request survive the wire: the name is its own cleaned, non-empty form, and
its header line and the body are within the limits. -/
structure Travels (request : HookCreateRequest) : Prop where
  clean : cleanField request.mailbox = request.mailbox
  nonempty : request.mailbox ≠ []
  line : byteLen (headerText (.mailbox, request.mailbox)) ≤ maxHeaderLine
  body : request.body.length ≤ defaultMaxBodySize

/-- A hook that all hooks together allow is not for the catchall, the legacy check lets the printed
configuration pass, and the request survives the wire. -/
def Submission.Fits (env : HandlerEnv) (config : Config) : Submission → Prop
  | .create request hook =>
      validateHooks env.sha256 (config.pushHook request.mailbox hook) = .ok () →
        (∀ mb, config.mailboxes.lookup request.mailbox = some mb → mb.isCatchall config = false) ∧
          PrintsPlainly env (config.pushHook request.mailbox hook) ∧ Travels request
  | .delete request => PrintsPlainly env (retainHooksEverywhere env config request.name)

/-- The `toml` crate prints the configuration with a hook that is to be created. -/
def Submission.Prints (env : HandlerEnv) (config : Config) : Submission → Prop
  | .create request hook => ∃ text, env.print (config.pushHook request.mailbox hook) = .ok text
  | .delete _ => True

/-- `serde_json` reads the body of a submission as what was printed. -/
def Submission.BodyReadBack (env : CliEnv) : Submission → Prop
  | .create request hook => env.server.handlers.parseJson request.body =
      some (hookCreateBody hook.cmd hook.fireOnUntrusted hook.timeoutSecs)
  | .delete _ => True

theorem agree_error {env : ServerEnv} {disk : Disk} {e : Str} {online : Option (World × AckResponse)} :
    Agree env (disk, .error e) online ↔ ∀ world, online ≠ some (world, .ok) :=
  Iff.rfl

theorem agree_ok {env : ServerEnv} {disk : Disk} {config : Config}
    {online : Option (World × AckResponse)} :
    Agree env (disk, .ok config) online ↔ ∃ world, online = some (world, .ok) ∧ world.memory = config ∧
      ∃ r, Aimx.load env.load disk.config = .ok r :=
  Iff.rfl

section Paths

variable {env : HandlerEnv} {config : Config}

/-- A save without failing calls succeeds exactly if the configuration can be printed. -/
theorem save_ok (env : HandlerEnv) (config : Config) (disk : Disk) :
    (∃ e e', env.print config = .error e ∧ save env (fun _ => none) (.ok config) disk = (disk, .error e')) ∨
      ∃ text, env.print config = .ok text ∧ save env (fun _ => none) (.ok config) disk =
        ({ disk with config := text, tmpLeft := false }, .ok config) := by
  unfold save writeAtomic
  dsimp only
  cases hprint : env.print config with
  | error e => exact Or.inl ⟨e, _, rfl, rfl⟩
  | ok text => exact Or.inr ⟨text, rfl, rfl⟩

theorem asStrings_array (cmd : List Str) :
    JsonValue.asStrings (.array (cmd.map .string)) = some cmd :=
  @mapM_map_of_decode _ _ JsonValue.asString JsonValue.string (fun _ => rfl) cmd

theorem asOptionU32_integer (n : UInt32) :
    JsonValue.asOptionU32 (.integer n.toNat) = some (some n) := by
  have hn := n.toNat_lt_size
  have hrange : 0 ≤ (n.toNat : Int) ∧ (n.toNat : Int) < UInt32.size := by omega
  rw [JsonValue.asOptionU32, if_pos hrange, Int.toNat_natCast, UInt32.ofNat_toNat]

/-- The body of the command line with the default timeout left out, or with its timeout. -/
theorem hookCreateBody_cases (cmd : List Str) (fireOnUntrusted : Bool) (timeoutSecs : UInt32) :
    (timeoutSecs = defaultHookTimeoutSecs ∧ hookCreateBody cmd fireOnUntrusted timeoutSecs =
      .object [("cmd".toList, .array (cmd.map .string)),
        ("fire_on_untrusted".toList, .boolean fireOnUntrusted),
        ("type".toList, .string "cmd".toList)]) ∨
    hookCreateBody cmd fireOnUntrusted timeoutSecs =
      .object [("cmd".toList, .array (cmd.map .string)),
        ("fire_on_untrusted".toList, .boolean fireOnUntrusted),
        ("timeout_secs".toList, .integer timeoutSecs.toNat),
        ("type".toList, .string "cmd".toList)] := by
  by_cases h : timeoutSecs = defaultHookTimeoutSecs
  · refine Or.inl ⟨h, ?_⟩
    rw [hookCreateBody, if_neg (not_not_intro h)]
    exact rfl
  · refine Or.inr ?_
    rw [hookCreateBody, if_pos h]
    exact rfl

theorem ofFields_eq_some {fields : List (Str × JsonValue)} {body : HookCreateBody}
    (hcmd : (JsonValue.field fields "cmd".toList).bind JsonValue.asStrings = some body.cmd)
    (hfire : JsonValue.fieldOr fields "fire_on_untrusted".toList false JsonValue.asBool =
      some body.fireOnUntrusted)
    (htype : JsonValue.fieldOr fields "type".toList "cmd".toList JsonValue.asString = some body.type)
    (htimeout : JsonValue.fieldOr fields "timeout_secs".toList none JsonValue.asOptionU32 =
      some body.timeoutSecs) : HookCreateBody.ofFields fields = some body := by
  unfold HookCreateBody.ofFields
  rw [hcmd, hfire, htype, htimeout]
  exact rfl

/-- That body is decoded to what it was made from. -/
theorem ofJson_hookCreateBody (cmd : List Str) (fireOnUntrusted : Bool) (timeoutSecs : UInt32) :
    rejectLegacyBodyFields (some (hookCreateBody cmd fireOnUntrusted timeoutSecs)) = .ok () ∧
      ∃ t : Option UInt32, t.getD defaultHookTimeoutSecs = timeoutSecs ∧
        HookCreateBody.ofJson (hookCreateBody cmd fireOnUntrusted timeoutSecs) =
          some ⟨cmd, fireOnUntrusted, "cmd".toList, t⟩ := by
  rcases hookCreateBody_cases cmd fireOnUntrusted timeoutSecs with ⟨hdefault, hbody⟩ | hbody
  · have hkeys : ["cmd".toList, "fire_on_untrusted".toList, "type".toList].Nodup := by decide
    rw [hbody, HookCreateBody.ofJson, if_pos ⟨rfl, hkeys⟩]
    exact ⟨rfl, none, hdefault.symm, ofFields_eq_some (asStrings_array cmd) rfl rfl rfl⟩
  · have hkeys : ["cmd".toList, "fire_on_untrusted".toList, "timeout_secs".toList,
        "type".toList].Nodup := by decide
    rw [hbody, HookCreateBody.ofJson, if_pos ⟨rfl, hkeys⟩]
    exact ⟨rfl, some timeoutSecs, rfl,
      ofFields_eq_some (asStrings_array cmd) rfl rfl (asOptionU32_integer timeoutSecs)⟩

/-- Both event parsers accept the same names. -/
theorem parseEvent_of_parseEventArg {s : Str} {event : HookEvent} (h : parseEventArg s = .ok event) :
    parseEvent s = .ok event := by
  unfold parseEventArg at h
  unfold parseEvent
  split at h
  next hreceive => rw [if_pos hreceive, h]
  next hreceive =>
      rw [if_neg hreceive]
      split at h
      next hsend => rw [if_pos hsend, h]
      next => cases h

/-- What a submission of a hook has passed: its mailbox is there, and the request stands for the hook. -/
structure Submitted (config : Config) (request : HookCreateRequest) (hook : Hook) : Prop where
  mailbox : request.mailbox ∈ config.mailboxes
  event : parseEvent request.event = .ok hook.event
  name : request.name = hook.name
  validName : (request.name.filter fun name => !isValidHookName name) = none
  type : hook.type = "cmd".toList

theorem createSubmission_eq_ok {cli : CliEnv} {euid : UInt32} {args : HookCreateArgs}
    {sub : Submission} (h : createSubmission cli euid config args = .ok sub) :
    ∃ request hook, sub = .create request hook ∧ Submitted config request hook := by
  unfold createSubmission at h
  split at h
  next => cases h
  next hname =>
      split at h
      next => cases h
      next mb hmb =>
          split at h
          next => cases h
          next =>
              split at h
              next => cases h
              next event hevent =>
                  split at h
                  next => cases h
                  next =>
                      split at h
                      next => cases h
                      next =>
                          split at h
                          next => cases h
                          next cmd hcmd =>
                              cases h
                              exact ⟨_, _, rfl,
                                { mailbox := AList.lookup_isSome.mp (by rw [hmb]; rfl)
                                  event := parseEvent_of_parseEventArg hevent
                                  name := rfl
                                  validName := hname
                                  type := rfl }⟩

/-- The daemon submits the hook of the command line, if it is valid on its own, and no other. -/
theorem Submitted.submittedHook_eq_ok_iff {request : HookCreateRequest} {hook hook' : Hook}
    (h : Submitted config request hook) (hbody : env.parseJson request.body =
      some (hookCreateBody hook.cmd hook.fireOnUntrusted hook.timeoutSecs)) :
    submittedHook env request = .ok hook' ↔ hook.fault = none ∧ hook' = hook := by
  obtain ⟨hlegacy, t, ht, hjson⟩ :=
    ofJson_hookCreateBody hook.cmd hook.fireOnUntrusted hook.timeoutSecs
  have hhook : HookCreateBody.toHook ⟨hook.cmd, hook.fireOnUntrusted, "cmd".toList, t⟩ request.name
      hook.event = hook := by
    rw [HookCreateBody.toHook, h.name, ← h.type, ht]
  unfold submittedHook
  rw [h.event, h.validName, hbody, hlegacy]
  dsimp only
  rw [Option.bind_some, hjson]
  dsimp only
  rw [hhook, validateSingleHook]
  cases hook.fault with
  | none => simp [eq_comm]
  | some fault => simp

/-- The names of the events are plain. -/
theorem plainName_of_parseEvent {s : Str} {event : HookEvent} (h : parseEvent s = .ok event) :
    PlainName s := by
  unfold parseEvent at h
  split at h
  next hreceive =>
      rw [hreceive]
      exact ⟨by decide, by decide, by decide +kernel⟩
  next =>
      split at h
      next hsend =>
          rw [hsend]
          exact ⟨by decide, by decide, by decide +kernel⟩
      next => cases h

theorem Submitted.plainName {request : HookCreateRequest} {hook : Hook}
    (h : Submitted config request hook) : ∀ name ∈ request.name, PlainName name := by
  intro name hname
  have hvalid := h.validName
  rw [Option.mem_def.mp hname] at hvalid
  refine plainName_of_isValidHookName ?_
  by_contra hinvalid
  rw [Bool.not_eq_true] at hinvalid
  simp [Option.filter, hinvalid] at hvalid

/-- The daemon sees the request of a submission with the mailbox cleaned, and the rest as it is. -/
theorem Submitted.cleaned {request : HookCreateRequest} {hook : Hook}
    (h : Submitted config request hook) :
    (⟨cleanField request.mailbox, cleanField request.event, request.name.map cleanField,
      request.body⟩ : HookCreateRequest) = { request with mailbox := cleanField request.mailbox } := by
  have hevent := (plainName_of_parseEvent h.event).clean
  have hname : request.name.map cleanField = request.name := by
    cases hreq : request.name with
    | none => rfl
    | some name => rw [Option.map_some, (h.plainName name hreq).clean]
  rw [hevent, hname]

/-- The protocol carries the request of a submission exactly if it carries the mailbox and the body. -/
theorem Submitted.carried_iff {request : HookCreateRequest} {hook : Hook}
    (h : Submitted config request hook) :
    ((Request.hookCreate request).LinesFit ∧ request.body.length ≤ defaultMaxBodySize ∧
        (Request.hookCreate request).Admissible) ↔
      cleanField request.mailbox ≠ [] ∧
        byteLen (headerText (.mailbox, sanitizeInline request.mailbox)) ≤ maxHeaderLine ∧
        request.body.length ≤ defaultMaxBodySize := by
  have hevent := plainName_of_parseEvent h.event
  constructor
  · rintro ⟨hlines, hbody, hmailbox, -, -⟩
    refine ⟨hmailbox, hlines _ ?_, hbody⟩
    show _ ∈ hookCreateHeaders request
    unfold hookCreateHeaders
    simp
  · rintro ⟨hmailbox, hline, hbody⟩
    refine ⟨hookCreate_linesFit hline hevent h.plainName hbody, hbody, hmailbox, ?_, ?_⟩
    · rw [hevent.clean]
      exact hevent.nonempty
    · intro name hname
      rw [(h.plainName name hname).clean]
      exact (h.plainName name hname).nonempty

/-- Whether all hooks together allow one more does not depend on its mailbox. -/
theorem validateHooks_pushHook_iff {sha256 : Bytes → Bytes} {mailbox mailbox' : Str}
    (hmem : mailbox ∈ config.mailboxes) (hmem' : mailbox' ∈ config.mailboxes) (hook : Hook) :
    validateHooks sha256 (config.pushHook mailbox hook) = .ok () ↔
      validateHooks sha256 (config.pushHook mailbox' hook) = .ok () := by
  have hiff : ∀ {name : Str}, name ∈ config.mailboxes →
      (validateHooks sha256 (config.pushHook name hook) = .ok () ↔
        (hook.fault = none ∧ ∀ h ∈ config.allHooks, h.2.fault = none) ∧
          (effectiveHookName sha256 hook ::
            config.allHooks.map fun h => effectiveHookName sha256 h.2).Nodup) := by
    intro name hname
    obtain ⟨mb, hmb⟩ := Option.isSome_iff_exists.mp (AList.lookup_isSome.mpr hname)
    have hperm := Config.allHooks_pushHook hmb hook
    have hnames := hperm.map fun h : Str × Hook => effectiveHookName sha256 h.2
    unfold validateHooks
    rw [checkHooks_eq_ok_iff, hnames.nodup_iff]
    simp only [hperm.mem_iff, List.forall_mem_cons, List.map_cons, List.not_mem_nil, IsEmpty.forall_iff,
      implies_true, and_true]
  rw [hiff hmem, hiff hmem']

end Paths

section Agreement

variable {env : ServerEnv} {config : Config} {disk : Disk}

/-- What the daemon has found when it answers OK. -/
theorem handled_eq_ok {request : ConfigRequest}
    (h : (handled env.handlers config disk request).2 = .ok) :
    ∃ plan, Checked env.handlers (env.handlers.users.caller 0) config request plan ∧
      Commits env.handlers (env.handlers.users.caller 0) config plan ∧
      (handled env.handlers config disk request).1.memory = plan.result env.handlers.sha256 config ∧
      ∃ text, env.handlers.print (plan.result env.handlers.sha256 config) = .ok text := by
  have hpair : handle env.handlers (fun _ => none) ⟨config, disk⟩ (env.handlers.users.caller 0) request =
      ((handled env.handlers config disk request).1, .ok) := Prod.ext rfl h
  obtain ⟨plan, hchecked, hcommits, hmemory, hprint⟩ := handle_eq_ok hpair
  rw [hmemory] at hprint
  exact ⟨plan, hchecked, hcommits, hmemory, _, hprint⟩

/-- Root may act for every mailbox. -/
theorem enforce_root (env : HandlerEnv) (name : Str) (mb : MailboxConfig) :
    enforceMailboxOwnerOrRoot (env.users.caller 0) name mb = .ok () :=
  enforceMailboxOwnerOrRoot_eq_ok_iff.mpr (Or.inl rfl)

/-- The daemon accepts a valid hook for a mailbox that is not the catchall. -/
theorem handled_hookCreate {request : HookCreateRequest} {hook : Hook} {mb : MailboxConfig} {text : Str}
    (hmb : config.mailboxes.lookup request.mailbox = some mb)
    (hcatchall : mb.isCatchall config = false)
    (hhook : submittedHook env.handlers request = .ok hook)
    (hvalid : validateHooks env.handlers.sha256 (config.pushHook request.mailbox hook) = .ok ())
    (hprint : env.handlers.print (config.pushHook request.mailbox hook) = .ok text) :
    handled env.handlers config disk (.hookCreate request) =
      (⟨config.pushHook request.mailbox hook, { disk with config := text, tmpLeft := false }⟩, .ok) := by
  have hcheck : hookCreateCheck env.handlers config request (env.handlers.users.caller 0) = .ok hook := by
    rw [hookCreateCheck, hmb]
    dsimp only
    rw [enforce_root, hcatchall]
    exact hhook
  have hcommit : hookCreateCommit env.handlers config request.mailbox hook =
      .ok (config.pushHook request.mailbox hook) := by
    rw [hookCreateCommit, hmb]
    dsimp only
    rw [hvalid]
  have hplan : (ConfigRequest.hookCreate request).check env.handlers config
      (env.handlers.users.caller 0) = .ok (.hookCreate request.mailbox hook) := by
    rw [ConfigRequest.check, hcheck, Except.map]
  have hexecute : (Plan.hookCreate request.mailbox hook).execute env.handlers (fun _ => none)
      (env.handlers.users.caller 0) config disk =
      ({ disk with config := text, tmpLeft := false },
        .ok (config.pushHook request.mailbox hook)) := by
    rw [Plan.execute, hcommit, writeBack_of_print hprint]
  exact @handle_of_execute env.handlers _ _ _ _ _ ⟨config, disk⟩ _ hplan hexecute

/-- What the daemon has found when it accepts the request of a submission under some mailbox. -/
theorem Submitted.handled_eq_ok {request : HookCreateRequest} {hook : Hook} {mailbox : Str}
    (h : Submitted config request hook)
    (hbody : env.handlers.parseJson request.body =
      some (hookCreateBody hook.cmd hook.fireOnUntrusted hook.timeoutSecs))
    (hok : (handled env.handlers config disk
      (.hookCreate { request with mailbox := mailbox })).2 = .ok) :
    (∃ mb, config.mailboxes.lookup mailbox = some mb ∧ mb.isCatchall config = false) ∧
      validateHooks env.handlers.sha256 (config.pushHook mailbox hook) = .ok () ∧
      (handled env.handlers config disk (.hookCreate { request with mailbox := mailbox })).1.memory =
        config.pushHook mailbox hook := by
  obtain ⟨plan, hchecked, hcommits, hmemory, -⟩ := Cli.handled_eq_ok hok
  cases hchecked with
  | @hookCreate _ mb hook' hmb hact hcatchall hhook =>
      have h' : Submitted config { request with mailbox := mailbox } hook :=
        { mailbox := AList.lookup_isSome.mp (by rw [hmb]; rfl)
          event := h.event
          name := h.name
          validName := h.validName
          type := h.type }
      obtain ⟨-, rfl⟩ := (h'.submittedHook_eq_ok_iff hbody).mp hhook
      cases hcommits with
      | hookCreate hmb' hvalid => exact ⟨⟨mb, hmb, hcatchall⟩, hvalid, hmemory⟩

/-- A hook that is pushed on two mailboxes makes two configurations. -/
theorem pushHook_mailbox_injective {mailbox mailbox' : Str} {hook : Hook}
    (hmem : mailbox ∈ config.mailboxes)
    (h : config.pushHook mailbox' hook = config.pushHook mailbox hook) : mailbox' = mailbox := by
  by_contra hne
  obtain ⟨mb, hmb⟩ := Option.isSome_iff_exists.mp (AList.lookup_isSome.mpr hmem)
  have hlookup := congrArg (fun config : Config => config.mailboxes.lookup mailbox) h
  change (Table.modify _ _ _).lookup mailbox = (Table.modify _ _ _).lookup mailbox at hlookup
  rw [Table.lookup_modify, Table.lookup_modify, if_neg (fun heq => hne heq.symm), if_pos rfl, hmb,
    Option.map_some, Option.some.injEq] at hlookup
  have hlen := congrArg (fun mb : MailboxConfig => mb.hooks.length) hlookup
  simp [MailboxConfig.pushHook] at hlen

variable {cli : CliEnv}

/-- The daemon refuses the request of a submission, or handles it with the mailbox cleaned. -/
theorem Submitted.online_cases {request : HookCreateRequest} {hook : Hook}
    (h : Submitted config request hook) :
    (∃ reject, online cli config disk (.create request hook) = some (⟨config, disk⟩, .err reject)) ∨
      (cleanField request.mailbox ≠ [] ∧
        byteLen (headerText (.mailbox, sanitizeInline request.mailbox)) ≤ maxHeaderLine ∧
        request.body.length ≤ defaultMaxBodySize) ∧
      online cli config disk (.create request hook) = some (handled cli.server.handlers config disk
        (.hookCreate { request with mailbox := cleanField request.mailbox })) := by
  by_cases hcarried : (Request.hookCreate request).LinesFit ∧
      request.body.length ≤ defaultMaxBodySize ∧ (Request.hookCreate request).Admissible
  · right
    refine ⟨h.carried_iff.mp hcarried, ?_⟩
    obtain ⟨hlines, hbody, hok⟩ := hcarried
    rw [← h.cleaned]
    exact dispatchHook_create hlines hbody hok
  · left
    exact dispatchHook_create_refused hcarried

/-- On a submitted hook the paths agree exactly if it fits. -/
theorem create_agrees_iff (hround : cli.server.RoundTrips)
    (haccepted : Accepted cli.server.handlers.sha256 config)
    {request : HookCreateRequest} {hook : Hook} (h : Submitted config request hook)
    (hbody : cli.server.handlers.parseJson request.body =
      some (hookCreateBody hook.cmd hook.fireOnUntrusted hook.timeoutSecs))
    (hprints : (Submission.create request hook).Prints cli.server.handlers config) :
    Agree cli.server
        ((Submission.create request hook).applyDirect cli.server.handlers config (fun _ => none) disk)
        (online cli config disk (.create request hook)) ↔
      (Submission.create request hook).Fits cli.server.handlers config := by
  obtain ⟨mb, hmb⟩ := Option.isSome_iff_exists.mp (AList.lookup_isSome.mpr h.mailbox)
  -- The request that the daemon accepts has the mailbox cleaned, and the hook is this one.
  have honline : ∀ world, online cli config disk (.create request hook) = some (world, .ok) →
      (cleanField request.mailbox ≠ [] ∧
        byteLen (headerText (.mailbox, sanitizeInline request.mailbox)) ≤ maxHeaderLine ∧
        request.body.length ≤ defaultMaxBodySize) ∧
      (∃ mb, config.mailboxes.lookup (cleanField request.mailbox) = some mb ∧
        mb.isCatchall config = false) ∧
      validateHooks cli.server.handlers.sha256
        (config.pushHook (cleanField request.mailbox) hook) = .ok () ∧
      world.memory = config.pushHook (cleanField request.mailbox) hook := by
    intro world hok
    rcases @Submitted.online_cases _ disk cli _ _ h with ⟨reject, herr⟩ | ⟨hcarried, hhandled⟩
    · rw [herr] at hok
      cases hok
    · rw [hhandled, Option.some.injEq] at hok
      have hfound := h.handled_eq_ok hbody (congrArg Prod.snd hok)
      rw [hok] at hfound
      exact ⟨hcarried, hfound⟩
  change Agree cli.server (save cli.server.handlers _
    (directCreate cli.server.handlers config request.mailbox hook) disk) _ ↔ _
  rw [directCreate, hmb]
  dsimp only
  cases hvalid : validateHooks cli.server.handlers.sha256 (config.pushHook request.mailbox hook) with
  | error e =>
      -- The hook is refused on both paths, under whatever mailbox.
      dsimp only [save]
      rw [agree_error]
      refine iff_of_true (fun world hok => ?_) (fun hok => ?_)
      · obtain ⟨-, ⟨mb', hmb', -⟩, hvalid', -⟩ := honline world hok
        have hmem : cleanField request.mailbox ∈ config.mailboxes :=
          AList.lookup_isSome.mp (by rw [hmb']; rfl)
        rw [validateHooks_pushHook_iff hmem h.mailbox, hvalid] at hvalid'
        cases hvalid'
      · rw [hvalid] at hok
        cases hok
  | ok u =>
      obtain ⟨text, hprint⟩ := hprints
      have hsave := save_ok cli.server.handlers (config.pushHook request.mailbox hook) disk
      rw [hprint] at hsave
      obtain ⟨text', htext', hsave⟩ := hsave.resolve_left (by rintro ⟨e, -, he, -⟩; cases he)
      cases htext'
      dsimp only
      rw [hsave, agree_ok]
      have hloaded := hround.load_iff hprint
      constructor
      · rintro ⟨world, hok, hmemory, hload⟩ -
        obtain ⟨⟨hne, hline, hcap⟩, ⟨mb', hmb', hcatchall⟩, -, hmemory'⟩ := honline world hok
        have hclean : cleanField request.mailbox = request.mailbox :=
          pushHook_mailbox_injective h.mailbox (hmemory'.symm.trans hmemory)
        refine ⟨fun mb'' hmb'' => ?_, fun text'' htext'' => ?_, hclean, hclean ▸ hne, ?_, hcap⟩
        · rw [hclean] at hmb'
          cases hmb'.symm.trans hmb''
          exact hcatchall
        · cases hprint.symm.trans htext''
          exact (hloaded.mp hload).1
        · rw [sanitizeInline_of_clean hclean] at hline
          exact hline
      · intro hfits
        obtain ⟨hplainly, hlegacy, htravels⟩ := hfits hvalid
        have hcatchall := hplainly mb hmb
        have hcarried : cleanField request.mailbox ≠ [] ∧
            byteLen (headerText (.mailbox, sanitizeInline request.mailbox)) ≤ maxHeaderLine ∧
            request.body.length ≤ defaultMaxBodySize := by
          rw [sanitizeInline_of_clean htravels.clean, htravels.clean]
          exact ⟨htravels.nonempty, htravels.line, htravels.body⟩
        have hfault : hook.fault = none :=
          (checkHooks_eq_ok_iff.mp hvalid).1 (request.mailbox, hook)
            ((Config.allHooks_pushHook hmb hook).mem_iff.mpr (by simp))
        have hhook : submittedHook cli.server.handlers request = .ok hook :=
          (h.submittedHook_eq_ok_iff hbody).mpr ⟨hfault, rfl⟩
        have hresult : Accepted cli.server.handlers.sha256 (config.pushHook request.mailbox hook) :=
          (Commits.accepted_result_iff
            (.hookCreate hmb hvalid : Commits cli.server.handlers
              (cli.server.handlers.users.caller 0) config (.hookCreate request.mailbox hook)) haccepted
            (fun mb' hmb' => by cases hmb.symm.trans hmb'; exact hcatchall)).mpr trivial
        obtain ⟨hlines, hcap, hok⟩ := h.carried_iff.mpr hcarried
        have honce : online cli config disk (.create request hook) =
            some (handled cli.server.handlers config disk (.hookCreate request)) := by
          have hdispatch := @dispatchHook_create cli.server.handlers cli.debug (fun _ => none)
            ⟨config, disk⟩ (cli.server.handlers.users.caller 0) _ hlines hcap hok
          rw [h.cleaned, htravels.clean] at hdispatch
          exact hdispatch
        rw [honce, handled_hookCreate hmb hcatchall hhook hvalid hprint]
        exact ⟨_, rfl, rfl, hloaded.mpr ⟨hlegacy text hprint, hresult⟩⟩

/-- Where names are distinct, a name is removed everywhere by removing it from the mailbox it is on. -/
theorem retainHooksEverywhere_eq {henv : HandlerEnv} (hnames : config.HookNamesDistinct henv.sha256)
    {mailbox : Str} {hook : Hook} (hmem : (mailbox, hook) ∈ config.allHooks) :
    retainHooksEverywhere henv config (effectiveHookName henv.sha256 hook) =
      config.retainHooks henv.sha256 mailbox (effectiveHookName henv.sha256 hook) := by
  have hother : ∀ k ≠ mailbox, ∀ mb, config.mailboxes.lookup k = some mb →
      mb.retainHooks henv.sha256 (effectiveHookName henv.sha256 hook) = mb := by
    intro k hk mb hmb
    have hall : mb.hooks.filter (fun h =>
        effectiveHookName henv.sha256 h ≠ effectiveHookName henv.sha256 hook) = mb.hooks := by
      rw [List.filter_eq_self]
      intro h hh
      rw [decide_eq_true_eq]
      intro heq
      cases hnames.unique (Config.mem_allHooks.mpr ⟨mb, hmb, hh⟩) hmem heq
      exact hk rfl
    rw [MailboxConfig.retainHooks, hall]
  unfold retainHooksEverywhere Config.retainHooks Config.modifyMailbox
  rw [Table.mapValues_eq_modify hother]

/-- The removal of the name of a hook makes the list shorter. -/
theorem length_retainHooks_ne {sha256 : Bytes → Bytes} {mb : MailboxConfig} {hook : Hook}
    (h : hook ∈ mb.hooks) :
    (mb.retainHooks sha256 (effectiveHookName sha256 hook)).hooks.length ≠ mb.hooks.length := by
  apply Nat.ne_of_lt
  rw [MailboxConfig.retainHooks, List.length_filter_lt_length_iff_exists]
  exact ⟨hook, h, by simp⟩

/-- The daemon removes a hook that the command line has found. -/
theorem handled_hookDelete {name mailbox : Str} {hook : Hook} {text : Str}
    (hfind : config.allHooks.find? (fun h => effectiveHookName env.handlers.sha256 h.2 == name) =
      some (mailbox, hook))
    (hprint : env.handlers.print (config.retainHooks env.handlers.sha256 mailbox name) = .ok text) :
    handled env.handlers config disk (.hookDelete ⟨name⟩) =
      (⟨config.retainHooks env.handlers.sha256 mailbox name,
        { disk with config := text, tmpLeft := false }⟩, .ok) := by
  obtain ⟨mb, hmb, hhook⟩ := Config.mem_allHooks.mp (List.mem_of_find?_eq_some hfind)
  obtain rfl : effectiveHookName env.handlers.sha256 hook = name := by
    simpa using List.find?_some hfind
  have hcheck : hookDeleteCheck env.handlers config
      ⟨effectiveHookName env.handlers.sha256 hook⟩ (env.handlers.users.caller 0) = .ok mailbox := by
    unfold hookDeleteCheck findHookOwner
    dsimp only
    rw [hfind, Option.map_some]
    dsimp only
    rw [hmb]
    dsimp only
    rw [enforce_root]
  have hcommit : hookDeleteCommit env.handlers config mailbox
      (effectiveHookName env.handlers.sha256 hook) =
      .ok (config.retainHooks env.handlers.sha256 mailbox
        (effectiveHookName env.handlers.sha256 hook)) := by
    rw [hookDeleteCommit, hmb]
    dsimp only
    rw [if_neg (length_retainHooks_ne hhook)]
  have hplan : (ConfigRequest.hookDelete ⟨effectiveHookName env.handlers.sha256 hook⟩).check
      env.handlers config (env.handlers.users.caller 0) =
      .ok (.hookDelete mailbox (effectiveHookName env.handlers.sha256 hook)) := by
    rw [ConfigRequest.check, hcheck, Except.map]
  have hexecute : (Plan.hookDelete mailbox (effectiveHookName env.handlers.sha256 hook)).execute
      env.handlers (fun _ => none) (env.handlers.users.caller 0) config disk =
      ({ disk with config := text, tmpLeft := false }, .ok (config.retainHooks env.handlers.sha256
        mailbox (effectiveHookName env.handlers.sha256 hook))) := by
    rw [Plan.execute, hcommit, writeBack_of_print hprint]
  exact @handle_of_execute env.handlers _ _ _ _ _ ⟨config, disk⟩ _ hplan hexecute

/-- The daemon refuses, where the configuration without the hook cannot be printed. -/
theorem handled_hookDelete_ne_ok {name mailbox : Str} {hook : Hook} {e : Str}
    (hfind : config.allHooks.find? (fun h => effectiveHookName env.handlers.sha256 h.2 == name) =
      some (mailbox, hook))
    (hprint : env.handlers.print (config.retainHooks env.handlers.sha256 mailbox name) = .error e) :
    (handled env.handlers config disk (.hookDelete ⟨name⟩)).2 ≠ .ok := by
  intro hok
  obtain ⟨plan, hchecked, -, -, text, htext⟩ := handled_eq_ok hok
  cases hchecked with
  | @hookDelete _ mailbox' mb' hfind' hmb' hact =>
      have hfound : findHookOwner env.handlers config name = some mailbox := by
        rw [findHookOwner, hfind, Option.map_some]
      cases hfound.symm.trans hfind'
      have hprinted : env.handlers.print (config.retainHooks env.handlers.sha256 mailbox name) = .ok text :=
        htext
      rw [hprint] at hprinted
      cases hprinted

/-- A configuration that is accepted still is without one of its hooks. -/
theorem accepted_retainHooks {mailbox : Str} {mb : MailboxConfig} {hook : Hook}
    (haccepted : Accepted env.handlers.sha256 config) (hmb : mb ∈ config.mailboxes.lookup mailbox)
    (hhook : hook ∈ mb.hooks) :
    Accepted env.handlers.sha256 (config.retainHooks env.handlers.sha256 mailbox
      (effectiveHookName env.handlers.sha256 hook)) := by
  have hcommits : Commits env.handlers (env.handlers.users.caller 0) config
      (.hookDelete mailbox (effectiveHookName env.handlers.sha256 hook)) :=
    .hookDelete hmb (length_retainHooks_ne hhook)
  exact (hcommits.accepted_result_iff haccepted trivial).mpr trivial

/-- On a hook that is found the paths agree exactly if it fits. -/
theorem delete_agrees_iff (hround : cli.server.RoundTrips)
    (hsha : ∀ bytes ≠ [], cli.server.handlers.sha256 bytes ≠ [])
    (haccepted : Accepted cli.server.handlers.sha256 config) {name mailbox : Str} {hook : Hook}
    (hfind : config.allHooks.find? (fun h =>
      effectiveHookName cli.server.handlers.sha256 h.2 == name) = some (mailbox, hook)) :
    Agree cli.server
        ((Submission.delete ⟨name⟩).applyDirect cli.server.handlers config (fun _ => none) disk)
        (online cli config disk (.delete ⟨name⟩)) ↔
      (Submission.delete ⟨name⟩).Fits cli.server.handlers config := by
  have hmem := List.mem_of_find?_eq_some hfind
  obtain ⟨mb, hmb, hhook⟩ := Config.mem_allHooks.mp hmem
  have hname : effectiveHookName cli.server.handlers.sha256 hook = name := by
    simpa using List.find?_some hfind
  -- the daemon reads the name as it was written, as it is that of a valid hook
  have hplain : PlainName name := by
    rw [← hname]
    exact plainName_effectiveHookName hsha (haccepted.hooks _ hmem)
  have honline : online cli config disk (.delete ⟨name⟩) =
      some (handled cli.server.handlers config disk (.hookDelete ⟨name⟩)) := dispatchHook_delete hplain
  -- the edit removes the name from every mailbox, and only one has it
  have hsame : retainHooksEverywhere cli.server.handlers config name =
      config.retainHooks cli.server.handlers.sha256 mailbox name := by
    rw [← hname]
    exact retainHooksEverywhere_eq haccepted.hookNames hmem
  have hdirect : directDelete cli.server.handlers config name =
      .ok (config.retainHooks cli.server.handlers.sha256 mailbox name) := by
    rw [directDelete, if_pos, hsame]
    rw [List.any_eq_true]
    refine ⟨⟨mailbox, mb⟩, AList.mem_lookup_iff.mp hmb, ?_⟩
    rw [← hname, decide_eq_true_eq]
    exact length_retainHooks_ne hhook
  change Agree cli.server
      (save cli.server.handlers _ (directDelete cli.server.handlers config name) disk) _ ↔
    PrintsPlainly cli.server.handlers (retainHooksEverywhere cli.server.handlers config name)
  rw [hdirect, hsame, honline]
  rcases save_ok cli.server.handlers (config.retainHooks cli.server.handlers.sha256 mailbox name) disk
    with ⟨e, e', hprint, hsave⟩ | ⟨text, hprint, hsave⟩
  · rw [hsave, agree_error]
    refine iff_of_true (fun world hok => ?_) (fun text htext => ?_)
    · rw [Option.some.injEq] at hok
      exact handled_hookDelete_ne_ok hfind hprint (congrArg Prod.snd hok)
    · rw [hprint] at htext
      cases htext
  · rw [hsave, agree_ok, handled_hookDelete hfind hprint]
    have hresult := accepted_retainHooks haccepted hmb hhook
    rw [hname] at hresult
    have hloaded := hround.load_iff hprint
    constructor
    · rintro ⟨world, -, -, hload⟩ text' htext
      cases hprint.symm.trans htext
      exact (hloaded.mp hload).1
    · intro hplain
      exact ⟨_, rfl, rfl, hloaded.mpr ⟨hplain text hprint, hresult⟩⟩

/-- **The edit of the file and the daemon agree on a submission of root exactly if a submitted hook is
not for the catchall, its mailbox and body survive the wire, and the legacy check lets the new file
pass.**  A digest is not empty. -/
theorem offline_agrees_iff {content : Str} {warnings : List LoadWarning} {answer : Str}
    {command : HookCommand} {sub : Submission} (hround : cli.server.RoundTrips)
    (hsha : ∀ bytes ≠ [], cli.server.handlers.sha256 bytes ≠ [])
    (hload : Aimx.load cli.server.load content = .ok (config, warnings))
    (hsubmit : submission cli 0 config answer command = .ok (some sub))
    (hbody : sub.BodyReadBack cli) (hprints : sub.Prints cli.server.handlers config) :
    Agree cli.server (sub.applyDirect cli.server.handlers config (fun _ => none) disk)
        (online cli config disk sub) ↔
      sub.Fits cli.server.handlers config := by
  obtain ⟨-, haccepted, -⟩ := load_eq_ok hload
  cases command with
  | create args =>
      unfold submission at hsubmit
      cases hcreate : createSubmission cli 0 config args with
      | error e => simp [hcreate, Except.map] at hsubmit
      | ok sub' =>
          obtain ⟨request, hook, rfl, hsubmitted⟩ := createSubmission_eq_ok hcreate
          obtain rfl : Submission.create request hook = sub := by
            simpa [hcreate, Except.map] using hsubmit
          exact create_agrees_iff hround haccepted hsubmitted hbody hprints
  | delete name yes =>
      unfold submission deleteSubmission at hsubmit
      dsimp only at hsubmit
      split at hsubmit
      next => cases hsubmit
      next mailbox hook hfind =>
          split at hsubmit
          next => cases hsubmit
          next =>
              split at hsubmit
              next => cases hsubmit
              next =>
                  cases hsubmit
                  exact delete_agrees_iff hround hsha haccepted hfind

end Agreement

/-! ## A hook for the catchall -/

/-- The body that the command line sends for one program. -/
def sampleCliBody : Bytes :=
  utf8 ("\x7b\"cmd\":[\"/bin/true\"],\"fire_on_untrusted\":false,\"type\":\"cmd\"\x7d").toList

/-- A configuration with one mailbox, without and with a hook. -/
def sampleConfigs (name address owner : String) : List Config :=
  [sampleConfig [(name, sampleMailbox address owner [])],
    sampleConfig [(name, sampleMailbox address owner [sampleHook (some "h") "/bin/true"])]]

/-- Surroundings of a daemon and a command line with such files, in which that body is printed and
parsed. -/
def sampleCli (name address owner : String) : CliEnv where
  server :=
    { sampleServer (sampleConfigs name address owner) with
      handlers :=
        { (sampleServer (sampleConfigs name address owner)).handlers with
          parseJson := fun b =>
            if b = sampleCliBody then some (hookCreateBody ["/bin/true".toList] false 60) else none } }
  debug := fun s => '"' :: s ++ ['"']
  parseArgv := fun raw =>
    if raw = "[\"/bin/true\"]".toList then .ok ["/bin/true".toList] else .error "expected value".toList
  printJson := fun _ => sampleCliBody

/-- The files are parsed to what was printed, if they differ. -/
theorem sampleCli_roundTrips {name address owner : String}
    (h : ((sampleConfigs name address owner).map sampleFile).Nodup) :
    (sampleCli name address owner).server.RoundTrips :=
  fun config text hprint => sampleServer_roundTrips h config text hprint

/-- `aimx hooks create` for that program. -/
def sampleCommand (mailbox : String) : HookCommand :=
  .create ⟨mailbox.toList, "on_receive".toList, "[\"/bin/true\"]".toList, some "h".toList, none, false⟩

/-- The request of the command, and what it submits. -/
def sampleCreate (mailbox : String) : HookCreateRequest :=
  ⟨mailbox.toList, "on_receive".toList, some "h".toList, sampleCliBody⟩

def sampleSubmission (mailbox : String) : Submission :=
  .create (sampleCreate mailbox) (sampleHook (some "h") "/bin/true")

/-- A command line with a mailbox of `bob`, and one with the catchall. -/
def bobCli : CliEnv := sampleCli "bob" "bob@example.org" "bob"
def catchallCli : CliEnv := sampleCli "catchall" "*@example.org" "aimx-catchall"

/-- The configuration with the catchall. -/
def withCatchall : Config :=
  sampleConfig [("catchall", sampleMailbox "*@example.org" "aimx-catchall" [])]

/-- The hook for a mailbox of `bob` fits. -/
theorem sampleSubmission_fits :
    (sampleSubmission "bob").Fits bobCli.server.handlers (bobOwns "bob" []) := by
  intro hvalid
  refine ⟨fun mb hmb => ?_, fun text htext => ?_, ?_⟩
  · have hplain : ((bobOwns "bob" []).mailboxes.lookup "bob".toList).all
        (fun mb => !mb.isCatchall (bobOwns "bob" [])) = true := by decide +kernel
    rw [show (sampleCreate "bob").mailbox = "bob".toList from rfl] at hmb
    rw [hmb] at hplain
    simpa using hplain
  · have hlater : bobCli.server.handlers.print
        ((bobOwns "bob" []).pushHook "bob".toList (sampleHook (some "h") "/bin/true")) =
        .ok (sampleFile (bobOwns "bob" [sampleHook (some "h") "/bin/true"])) := by decide +kernel
    cases hlater.symm.trans htext
    decide +kernel
  · exact ⟨by decide +kernel, by decide +kernel, by decide +kernel, by decide +kernel⟩

/-- On it the two paths agree. -/
theorem offline_agrees_bob :
    Agree bobCli.server
      ((sampleSubmission "bob").applyDirect bobCli.server.handlers (bobOwns "bob" []) (fun _ => none)
        (sampleDisk (bobOwns "bob" [])))
      (online bobCli (bobOwns "bob" []) (sampleDisk (bobOwns "bob" [])) (sampleSubmission "bob")) := by
  have hround : bobCli.server.RoundTrips := sampleCli_roundTrips (by decide +kernel)
  have hprint : bobCli.server.handlers.print (bobOwns "bob" []) =
      .ok (sampleFile (bobOwns "bob" [])) := by decide +kernel
  have hlegacy : rejectLegacySchema (sampleFile (bobOwns "bob" [])) = .ok () := by decide +kernel
  have haccepted : Accepted id (bobOwns "bob" []) :=
    (@validateConfig_isOk_iff bobCli.server.load _).mp ⟨[], by decide +kernel⟩
  obtain ⟨warnings, hload⟩ := hround.exists_load hprint hlegacy haccepted
  have hsubmit : submission bobCli 0 (bobOwns "bob" []) [] (sampleCommand "bob") =
      .ok (some (sampleSubmission "bob")) := by decide +kernel
  have hbody : (sampleSubmission "bob").BodyReadBack bobCli := by
    change (if sampleCliBody = sampleCliBody then _ else none) = _
    exact if_pos rfl
  have hprints : (sampleSubmission "bob").Prints bobCli.server.handlers (bobOwns "bob" []) :=
    ⟨sampleFile (bobOwns "bob" [sampleHook (some "h") "/bin/true"]), by decide +kernel⟩
  have hiff := @offline_agrees_iff _ (sampleDisk (bobOwns "bob" [])) _ _ _ _ _ _ hround
    (fun _ hne => hne) hload hsubmit hbody hprints
  exact hiff.mpr sampleSubmission_fits

/-- The bytes of the request for the catchall are read as that request. -/
theorem online_catchall :
    online catchallCli withCatchall (sampleDisk withCatchall) (sampleSubmission "catchall") =
      some (handled catchallCli.server.handlers withCatchall (sampleDisk withCatchall)
        (.hookCreate (sampleCreate "catchall"))) := by
  have hclean : (⟨cleanField (sampleCreate "catchall").mailbox,
      cleanField (sampleCreate "catchall").event, (sampleCreate "catchall").name.map cleanField,
      (sampleCreate "catchall").body⟩ : HookCreateRequest) = sampleCreate "catchall" := by
    decide +kernel
  have hdispatch := @dispatchHook_create catchallCli.server.handlers catchallCli.debug (fun _ => none)
    ⟨withCatchall, sampleDisk withCatchall⟩ (catchallCli.server.handlers.users.caller 0)
    (sampleCreate "catchall") (by unfold Request.LinesFit; decide +kernel) (by decide +kernel)
    (show _ ∧ _ ∧ _ by decide +kernel)
  rw [hclean] at hdispatch
  exact hdispatch

/-- On an accepted configuration the edit of the file accepts a hook for the catchall, which the daemon
refuses, and leaves a file that the daemon does not start on. -/
theorem offline_accepts_catchall :
    (∃ warnings, Aimx.load catchallCli.server.load (sampleFile withCatchall) =
        .ok (withCatchall, warnings)) ∧
      submission catchallCli 0 withCatchall [] (sampleCommand "catchall") =
        .ok (some (sampleSubmission "catchall")) ∧
      ((sampleSubmission "catchall").applyDirect catchallCli.server.handlers withCatchall
        (fun _ => none) (sampleDisk withCatchall)).2.isOk = true ∧
      (online catchallCli withCatchall (sampleDisk withCatchall)
          (sampleSubmission "catchall")).map Prod.snd =
        some (.err ⟨.mailbox, ("mailbox 'catchall' is the catchall; " ++
          "hooks on the catchall are forbidden").toList⟩) ∧
      (Aimx.load catchallCli.server.load ((sampleSubmission "catchall").applyDirect
        catchallCli.server.handlers withCatchall (fun _ => none)
        (sampleDisk withCatchall)).1.config).isOk = false := by
  have hround : catchallCli.server.RoundTrips := sampleCli_roundTrips (by decide +kernel)
  have hprint : catchallCli.server.handlers.print withCatchall = .ok (sampleFile withCatchall) := by
    decide +kernel
  have hlegacy : rejectLegacySchema (sampleFile withCatchall) = .ok () := by decide +kernel
  have haccepted : Accepted id withCatchall :=
    (@validateConfig_isOk_iff catchallCli.server.load _).mp ⟨[], by decide +kernel⟩
  have hload := hround.exists_load hprint hlegacy haccepted
  refine ⟨hload, by decide +kernel, by decide +kernel, ?_, by decide +kernel⟩
  rw [online_catchall, Option.map_some, Option.some.injEq]
  decide +kernel

end Cli
end Aimx
