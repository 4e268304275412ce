import Aimx.Config.Load
import Aimx.Ingest.Trust
import Aimx.Text.Expand

/-!
# Running hooks

How the daemon runs a hook: the environment that `execute_on_receive` and `execute_after_send` make from
the mail, the command that `spawn_sandboxed` makes from the hook, and the arguments the program is
executed with in the end.  On the systemd path those are what `systemd-run` makes of its own arguments.

* `hookEnv` — the variables of a hook;
* `spawnSandboxed` — the command that is started, on both paths;
* `ChildCommand.executed` — the arguments of the program itself;
* `executedArgv_eq_of_settled` — when those are the arguments of the hook;
* `argvFixed_iff` — exactly when they depend on no mail.
-/

namespace Aimx
namespace Sandbox

open Text Ingest

/-! ## The environment of a hook -/

/-- `SendStatus`. -/
inductive SendStatus
  | delivered
  | failed
  | deferred
  deriving DecidableEq

/-- `SendStatus::as_str`. -/
def SendStatus.asStr : SendStatus → Str
  | .delivered => "delivered".toList
  | .failed => "failed".toList
  | .deferred => "deferred".toList

/-- `AfterSendContext`. -/
structure AfterSendContext where
  mailbox : Str
  from_ : Str
  to_ : Str
  subject : Str
  filepath : Str
  messageId : Str
  sendStatus : SendStatus
  deriving DecidableEq

/-- The mail that a hook runs for: a stored message, or a sent one with the time of the run. -/
inductive Mail
  | received (filepath : Str) (metadata : InboundFrontmatter)
  | sent (ctx : AfterSendContext) (now : Str)
  deriving DecidableEq

/-- The variables that `execute_on_receive` and `execute_after_send` set. -/
def hookEnv (hookName : Str) : Mail → List (Str × Str)
  | .received filepath m =>
      [("AIMX_HOOK_NAME".toList, hookName), ("AIMX_FROM".toList, m.from_),
        ("AIMX_SUBJECT".toList, m.subject), ("AIMX_TO".toList, m.to_),
        ("AIMX_MAILBOX".toList, m.mailbox), ("AIMX_FILEPATH".toList, filepath),
        ("AIMX_MESSAGE_ID".toList, m.messageId), ("AIMX_EVENT".toList, HookEvent.onReceive.asStr),
        ("AIMX_ID".toList, m.id), ("AIMX_DATE".toList, m.date)]
  | .sent ctx now =>
      [("AIMX_HOOK_NAME".toList, hookName), ("AIMX_FROM".toList, ctx.from_),
        ("AIMX_TO".toList, ctx.to_), ("AIMX_SUBJECT".toList, ctx.subject),
        ("AIMX_MAILBOX".toList, ctx.mailbox), ("AIMX_FILEPATH".toList, ctx.filepath),
        ("AIMX_SEND_STATUS".toList, ctx.sendStatus.asStr),
        ("AIMX_MESSAGE_ID".toList, ctx.messageId), ("AIMX_EVENT".toList, HookEvent.afterSend.asStr),
        ("AIMX_ID".toList, fileStem ctx.filepath), ("AIMX_DATE".toList, now)]

/-- The value of a variable in a list of assignments. -/
def lookupVar (envs : List (Str × Str)) (name : Str) : Option Str :=
  (envs.find? fun e => e.1 == name).map Prod.snd

/-! ## The host and the command -/

/-- `InitSystem`. -/
inductive InitSystem
  | systemd
  | openRC
  | unknown
  deriving DecidableEq

/-- What a run takes from the host: the init system, the override variable, whether the daemon is
root, the user database, the variables the daemon itself passes on, and the variables that a unit of
the service manager has before any assignment. -/
structure Host where
  init : InitSystem
  forceFallback : Bool
  isRoot : Bool
  lookupUser : Str → Option (UInt32 × UInt32)
  path : Option Str
  home : Option Str
  unitEnv : Str → Option Str

/-- `SandboxError`, as far as it is decided before the start. -/
inductive SandboxError
  | userNotFound (name : Str)
  deriving DecidableEq

/-- What the daemon starts: the program itself, with its environment and the user to switch to, or
`systemd-run` with its arguments. -/
inductive ChildCommand
  | setuid (argv : List Str) (envs : List (Str × Str)) (user : Option (UInt32 × UInt32))
  | systemdRun (args : List Str)
  deriving DecidableEq

/-- `spawn_via_fork_setuid`. -/
def spawnViaForkSetuid (host : Host) (argv : List Str) (runAs : Str) (envs : List (Str × Str)) :
    Except SandboxError ChildCommand :=
  let inherited := (host.path.map fun p => ("PATH".toList, p)).toList ++
    (host.home.map fun h => ("HOME".toList, h)).toList
  if runAs = "root".toList then .ok (.setuid argv (inherited ++ envs) none)
  else
    match host.lookupUser runAs with
    | some ids => .ok (.setuid argv (inherited ++ envs) (some ids))
    | none =>
        if !host.isRoot then .ok (.setuid argv (inherited ++ envs) none)
        else .error (.userNotFound runAs)

/-- `DEFAULT_MEMORY_MAX`. -/
def defaultMemoryMax : Str := "256M".toList

/-- The options that `systemd-run` is given in front of the command. -/
def systemdOptions (runAs : Str) (timeout : UInt32) (envs : List (Str × Str)) : List Str :=
  ["--quiet".toList, "--pipe".toList, "--wait".toList, "--collect".toList] ++
    (if runAs = "root".toList then []
      else ["--uid=".toList ++ runAs, "--gid=".toList ++ runAs]) ++
    ["--property=ProtectSystem=strict".toList, "--property=PrivateDevices=yes".toList,
      "--property=NoNewPrivileges=yes".toList,
      "--property=MemoryMax=".toList ++ defaultMemoryMax,
      "--property=RuntimeMaxSec=".toList ++ decimal timeout.toNat] ++
    envs.map fun e => "--setenv=".toList ++ e.1 ++ '=' :: e.2

/-- `spawn_via_systemd_run`: a user that does not exist is refused by root, and anybody else falls back
to the other path. -/
def spawnViaSystemdRun (host : Host) (argv : List Str) (runAs : Str) (timeout : UInt32)
    (envs : List (Str × Str)) : Except SandboxError ChildCommand :=
  if runAs ≠ "root".toList ∧ host.lookupUser runAs = none then
    if !host.isRoot then spawnViaForkSetuid host argv runAs envs
    else .error (.userNotFound runAs)
  else .ok (.systemdRun (systemdOptions runAs timeout envs ++ "--".toList :: argv))

/-- `spawn_sandboxed` up to the start of the child. -/
def spawnSandboxed (host : Host) (argv : List Str) (runAs : Str) (timeout : UInt32)
    (envs : List (Str × Str)) : Except SandboxError ChildCommand :=
  match host.init, host.forceFallback with
  | .systemd, false => spawnViaSystemdRun host argv runAs timeout envs
  | _, _ => spawnViaForkSetuid host argv runAs envs

/-- `Hook::resolve_argv`; `none` stands for its errors. -/
def resolveArgv (hook : Hook) : Option (List Str) :=
  match hook.cmd with
  | [] => none
  | program :: _ =>
      if (trim program).isEmpty then none
      else if !isAbsolute program then none
      else some hook.cmd

/-! ## What is executed -/

/-- The assignments among the options of `systemd-run`. -/
def setenvOptions (options : List Str) : List (Str × Str) :=
  options.filterMap fun o => (stripPrefix "--setenv=".toList o).bind (splitOnce '=')

/-- What `systemd-run` executes: the command behind `--`, with the references in its arguments replaced
from the environment of the unit unless that is turned off.  An unset variable is empty. -/
def systemdRunArgv (unitEnv : Str → Option Str) (args : List Str) : List Str :=
  let options := args.takeWhile (· ≠ "--".toList)
  let command := (args.dropWhile (· ≠ "--".toList)).drop 1
  if options.contains "--expand-environment=no".toList then command
  else
    command.map <| expandVars fun name =>
      ((lookupVar (setenvOptions options) name).or (unitEnv name)).getD []

/-- The arguments that the program of a hook is executed with. -/
def ChildCommand.executed (unitEnv : Str → Option Str) : ChildCommand → List Str
  | .setuid argv _ _ => argv
  | .systemdRun args => systemdRunArgv unitEnv args

/-- `run_and_log`, up to the arguments that the program is executed with; `none` where nothing is
started. -/
def executedArgv (sha256 : Bytes → Bytes) (host : Host) (mb : MailboxConfig) (hook : Hook)
    (mail : Mail) : Option (List Str) :=
  match resolveArgv hook with
  | none => none
  | some argv =>
      match spawnSandboxed host argv mb.owner hook.timeoutSecs
          (hookEnv (effectiveHookName sha256 hook) mail) with
      | .error _ => none
      | .ok command => some (command.executed host.unitEnv)

/-! ## The mail a hook runs for -/

/-- The two layouts of a stored message. -/
def storedPaths (dir id : Str) : List Str :=
  [joinPath dir (id ++ ".md".toList), joinPath (joinPath dir id) (id ++ ".md".toList)]

/-- `execute_after_send`: the hooks it runs, in order. -/
def executeAfterSend (config : Config) (mb : MailboxConfig) : List Hook :=
  if mb.isCatchall config && !mb.hooks.isEmpty then []
  else mb.afterSendHooks

/-- The hook is run for this mail of the mailbox. -/
def RunsFor (config : Config) (name : Str) (mb : MailboxConfig) (hook : Hook) : Mail → Prop
  | .received filepath m =>
      m.mailbox = name ∧ filepath ∈ storedPaths (config.inboxDir name) m.id ∧
        hook ∈ executeOnReceive config mb m
  | .sent ctx _ =>
      ctx.mailbox = name ∧
        (ctx.filepath = [] ∨
          ∃ id, ctx.filepath = joinPath (config.sentDir name) (id ++ ".md".toList)) ∧
        hook ∈ executeAfterSend config mb

/-- The arguments a hook is executed with are the same for any two mails, and are its own. -/
def ArgvFixed (sha256 : Bytes → Bytes) (config : Config) (host : Host) (name : Str)
    (mb : MailboxConfig) (hook : Hook) : Prop :=
  ∀ mail₁ mail₂ argv₁ argv₂, RunsFor config name mb hook mail₁ → RunsFor config name mb hook mail₂ →
    executedArgv sha256 host mb hook mail₁ = some argv₁ →
    executedArgv sha256 host mb hook mail₂ = some argv₂ →
    argv₁ = argv₂ ∧ argv₁ = hook.cmd

/-! ## The command line of systemd-run -/

theorem takeWhile_append_cons {α : Type} {p : α → Bool} {l r : List α} {x : α}
    (hl : ∀ a ∈ l, p a = true) (hx : p x = false) :
    (l ++ x :: r).takeWhile p = l ∧ (l ++ x :: r).dropWhile p = x :: r := by
  induction l with
  | nil => simp [hx]
  | cons a l ih =>
      have ha := hl a List.mem_cons_self
      have hrest := ih fun b hb => hl b (List.mem_cons_of_mem _ hb)
      simp [ha, hrest.1, hrest.2]

/-- An option whose first letter is not `e`, and is `s` only in an assignment. -/
def IsOption (o : Str) : Prop := ∃ c rest, o = '-' :: '-' :: c :: rest ∧ c ≠ 'e' ∧ c ≠ 's'

/-- The options without the assignments. -/
def fixedOptions (runAs : Str) (timeout : UInt32) : List Str := systemdOptions runAs timeout []

theorem systemdOptions_eq (runAs : Str) (timeout : UInt32) (envs : List (Str × Str)) :
    systemdOptions runAs timeout envs =
      fixedOptions runAs timeout ++ envs.map fun e => "--setenv=".toList ++ e.1 ++ '=' :: e.2 := by
  simp only [fixedOptions, systemdOptions, List.map_nil, List.append_nil]

theorem isOption_of_mem_fixedOptions {runAs o : Str} {timeout : UInt32}
    (h : o ∈ fixedOptions runAs timeout) : IsOption o := by
  unfold fixedOptions systemdOptions at h
  simp only [List.map_nil, List.append_nil, List.mem_append, List.mem_cons, List.not_mem_nil,
    or_false] at h
  rcases h with ((rfl | rfl | rfl | rfl) | huser) | (rfl | rfl | rfl | rfl | rfl)
  · exact ⟨'q', _, rfl, by decide, by decide⟩
  · exact ⟨'p', _, rfl, by decide, by decide⟩
  · exact ⟨'w', _, rfl, by decide, by decide⟩
  · exact ⟨'c', _, rfl, by decide, by decide⟩
  · split at huser
    · cases huser
    · simp only [List.mem_cons, List.not_mem_nil, or_false] at huser
      rcases huser with rfl | rfl
      · exact ⟨'u', _, rfl, by decide, by decide⟩
      · exact ⟨'g', _, rfl, by decide, by decide⟩
  · exact ⟨'p', _, rfl, by decide, by decide⟩
  · exact ⟨'p', _, rfl, by decide, by decide⟩
  · exact ⟨'p', _, rfl, by decide, by decide⟩
  · exact ⟨'p', _, rfl, by decide, by decide⟩
  · exact ⟨'p', _, rfl, by decide, by decide⟩

/-- The assignments are read back as they were given. -/
theorem setenvOptions_systemdOptions {runAs : Str} {timeout : UInt32} {envs : List (Str × Str)}
    (hkeys : ∀ e ∈ envs, '=' ∉ e.1) : setenvOptions (systemdOptions runAs timeout envs) = envs := by
  rw [systemdOptions_eq, setenvOptions, List.filterMap_append]
  have hfixed : ((fixedOptions runAs timeout).filterMap fun o =>
      (stripPrefix "--setenv=".toList o).bind (splitOnce '=')) = [] := by
    rw [List.filterMap_eq_nil_iff]
    intro o ho
    obtain ⟨c, rest, rfl, -, hs⟩ := isOption_of_mem_fixedOptions ho
    cases hstrip : stripPrefix "--setenv=".toList ('-' :: '-' :: c :: rest) with
    | none => rfl
    | some tail =>
        have hcons := stripPrefix_eq_some_iff.mp hstrip
        have hc : c = 's' := by
          injection hcons with _ hcons
          injection hcons with _ hcons
          injection hcons with hc _
        exact absurd hc hs
  have hpair : ∀ e ∈ envs, ((fun o => (stripPrefix "--setenv=".toList o).bind (splitOnce '=')) ∘
      fun e : Str × Str => "--setenv=".toList ++ e.1 ++ '=' :: e.2) e = some e := by
    intro e he
    rw [Function.comp_apply, List.append_assoc, stripPrefix_append, Option.bind_some]
    exact splitOnce_eq_some_iff.mpr ⟨rfl, hkeys e he⟩
  rw [hfixed, List.nil_append, List.filterMap_map, List.filterMap_congr hpair]
  exact List.filterMap_some

/-- No option ends the options or turns the replacement off. -/
theorem ne_of_mem_systemdOptions {runAs o : Str} {timeout : UInt32} {envs : List (Str × Str)}
    (h : o ∈ systemdOptions runAs timeout envs) :
    o ≠ "--".toList ∧ o ≠ "--expand-environment=no".toList := by
  rw [systemdOptions_eq, List.mem_append, List.mem_map] at h
  have hletter : ∃ c rest, o = '-' :: '-' :: c :: rest ∧ c ≠ 'e' := by
    rcases h with hfixed | ⟨e, -, rfl⟩
    · obtain ⟨c, rest, rfl, he, -⟩ := isOption_of_mem_fixedOptions hfixed
      exact ⟨c, rest, rfl, he⟩
    · exact ⟨'s', _, rfl, by decide⟩
  obtain ⟨c, rest, rfl, he⟩ := hletter
  constructor
  · intro heq
    injection heq with _ heq
    injection heq with _ heq
    cases heq
  · intro heq
    injection heq with _ heq
    injection heq with _ heq
    injection heq with hc _
    exact he hc

/-- The value of a name in a unit that is started with these assignments. -/
def unitValue (unitEnv : Str → Option Str) (envs : List (Str × Str)) (name : Str) : Str :=
  ((lookupVar envs name).or (unitEnv name)).getD []

/-- On the systemd path every argument has its references replaced. -/
theorem systemdRunArgv_systemdOptions {unitEnv : Str → Option Str} {runAs : Str} {timeout : UInt32}
    {envs : List (Str × Str)} {argv : List Str} (hkeys : ∀ e ∈ envs, '=' ∉ e.1) :
    systemdRunArgv unitEnv (systemdOptions runAs timeout envs ++ "--".toList :: argv) =
      argv.map (expandVars (unitValue unitEnv envs)) := by
  have hends : ∀ o ∈ systemdOptions runAs timeout envs, decide (o ≠ "--".toList) = true :=
    fun o ho => decide_eq_true (ne_of_mem_systemdOptions ho).1
  obtain ⟨htake, hdrop⟩ := takeWhile_append_cons (r := argv) hends
    (x := "--".toList) (decide_eq_false (not_not_intro rfl))
  have hon : ¬ (systemdOptions runAs timeout envs).contains "--expand-environment=no".toList = true := by
    rw [List.contains_iff_mem]
    intro hmem
    exact (ne_of_mem_systemdOptions hmem).2 rfl
  unfold systemdRunArgv
  dsimp only
  rw [htake, hdrop, if_neg hon, setenvOptions_systemdOptions hkeys]
  rfl

/-! ## The two paths -/

/-- The hook of this owner is started through `systemd-run`. -/
def Host.usesSystemdRun (host : Host) (owner : Str) : Bool :=
  host.init = .systemd && !host.forceFallback &&
    (owner = "root".toList || (host.lookupUser owner).isSome)

theorem executed_spawnViaForkSetuid {host : Host} {argv : List Str} {runAs : Str}
    {envs : List (Str × Str)} {command : ChildCommand}
    (h : spawnViaForkSetuid host argv runAs envs = .ok command) :
    command.executed host.unitEnv = argv := by
  unfold spawnViaForkSetuid at h
  dsimp only at h
  split at h
  · cases h
    rfl
  · split at h
    · cases h
      rfl
    · split at h
      · cases h
        rfl
      · cases h

/-- Away from `systemd-run` the program is executed with the arguments of the hook. -/
theorem executed_spawnSandboxed_of_not_systemd {host : Host} {argv : List Str} {runAs : Str}
    {timeout : UInt32} {envs : List (Str × Str)} {command : ChildCommand}
    (hpath : host.usesSystemdRun runAs = false)
    (h : spawnSandboxed host argv runAs timeout envs = .ok command) :
    command.executed host.unitEnv = argv := by
  unfold spawnSandboxed at h
  split at h
  next hinit hforce =>
      unfold spawnViaSystemdRun at h
      split at h
      next =>
          split at h
          · exact executed_spawnViaForkSetuid h
          · cases h
      next hknown =>
          rw [not_and_or, not_not, ← ne_eq, Option.ne_none_iff_isSome] at hknown
          simp [Host.usesSystemdRun, hinit, hforce] at hpath
          rcases hknown with hroot | hsome
          · exact absurd hroot hpath.1
          · rw [hpath.2] at hsome
            cases hsome
  next => exact executed_spawnViaForkSetuid h

/-- On the systemd path the child is `systemd-run`. -/
theorem spawnSandboxed_of_systemd {host : Host} {argv : List Str} {runAs : Str} {timeout : UInt32}
    {envs : List (Str × Str)} (hpath : host.usesSystemdRun runAs = true) :
    spawnSandboxed host argv runAs timeout envs =
      .ok (.systemdRun (systemdOptions runAs timeout envs ++ "--".toList :: argv)) := by
  unfold Host.usesSystemdRun at hpath
  simp only [Bool.and_eq_true, decide_eq_true_eq, Bool.not_eq_true', Bool.or_eq_true] at hpath
  obtain ⟨⟨hinit, hforce⟩, hknown⟩ := hpath
  unfold spawnSandboxed
  rw [hinit, hforce]
  dsimp only
  unfold spawnViaSystemdRun
  rw [if_neg]
  rintro ⟨hroot, hnone⟩
  rcases hknown with rfl | hsome
  · exact hroot rfl
  · rw [hnone] at hsome
    cases hsome

/-- A hook that the load accepts has arguments to run. -/
theorem resolveArgv_of_fault_eq_none {hook : Hook} (h : hook.fault = none) :
    resolveArgv hook = some hook.cmd := by
  unfold Hook.fault at h
  unfold resolveArgv
  split at h
  next => cases h
  next =>
      cases hcmd : hook.cmd with
      | nil => simp only [hcmd] at h; cases h
      | cons program rest =>
          simp only [hcmd] at h ⊢
          split at h
          next => cases h
          next hblank =>
              split at h
              next => cases h
              next habsolute => rw [if_neg hblank, if_neg habsolute]

/-! ## Which variables the mail decides -/

/-- The event of a mail, and its mailbox. -/
def Mail.event : Mail → HookEvent
  | .received _ _ => .onReceive
  | .sent _ _ => .afterSend
def Mail.mailbox : Mail → Str
  | .received _ m => m.mailbox
  | .sent ctx _ => ctx.mailbox

/-- The variables of a hook that the mail decides. -/
def mailVariables (event : HookEvent) : List Str :=
  ["AIMX_FROM".toList, "AIMX_SUBJECT".toList, "AIMX_TO".toList, "AIMX_FILEPATH".toList,
    "AIMX_MESSAGE_ID".toList, "AIMX_ID".toList, "AIMX_DATE".toList] ++
    if event = .afterSend then ["AIMX_SEND_STATUS".toList] else []

/-- The variables of a hook that are the same for every mail. -/
def fixedEnv (hookName mailbox : Str) (event : HookEvent) : List (Str × Str) :=
  [("AIMX_HOOK_NAME".toList, hookName), ("AIMX_MAILBOX".toList, mailbox),
    ("AIMX_EVENT".toList, event.asStr)]

/-- The names of a hook's variables. -/
def hookVariables : HookEvent → List Str
  | .onReceive => ["AIMX_HOOK_NAME".toList, "AIMX_FROM".toList, "AIMX_SUBJECT".toList,
      "AIMX_TO".toList, "AIMX_MAILBOX".toList, "AIMX_FILEPATH".toList, "AIMX_MESSAGE_ID".toList,
      "AIMX_EVENT".toList, "AIMX_ID".toList, "AIMX_DATE".toList]
  | .afterSend => ["AIMX_HOOK_NAME".toList, "AIMX_FROM".toList, "AIMX_TO".toList,
      "AIMX_SUBJECT".toList, "AIMX_MAILBOX".toList, "AIMX_FILEPATH".toList,
      "AIMX_SEND_STATUS".toList, "AIMX_MESSAGE_ID".toList, "AIMX_EVENT".toList, "AIMX_ID".toList,
      "AIMX_DATE".toList]

theorem map_fst_hookEnv (hookName : Str) (mail : Mail) :
    (hookEnv hookName mail).map Prod.fst = hookVariables mail.event := by
  cases mail with
  | received filepath m => rfl
  | sent ctx now => rfl

theorem mem_hookVariables_of_mem_mailVariables {event : HookEvent} :
    ∀ n ∈ mailVariables event, n ∈ hookVariables event := by
  cases event with
  | onReceive => decide
  | afterSend => decide

theorem equals_notMem_hookEnv {hookName : Str} {mail : Mail} :
    ∀ e ∈ hookEnv hookName mail, '=' ∉ e.1 := by
  intro e he
  have hvars : ∀ event, ∀ k ∈ hookVariables event, '=' ∉ k := by
    intro event
    cases event <;> decide
  apply hvars mail.event
  rw [← map_fst_hookEnv hookName mail]
  exact List.mem_map_of_mem he

theorem lookupVar_filter {envs : List (Str × Str)} {p : Str → Bool} {name : Str}
    (h : p name = true) : lookupVar (envs.filter fun e => p e.1) name = lookupVar envs name := by
  unfold lookupVar
  rw [List.find?_filter]
  congr 2
  funext e
  by_cases he : e.1 = name
  · simp [he, h]
  · simp [he]

/-- A variable that the mail does not decide has the same value for every mail. -/
theorem lookupVar_hookEnv {hookName name : Str} {mail : Mail}
    (h : name ∉ mailVariables mail.event) :
    lookupVar (hookEnv hookName mail) name =
      lookupVar (fixedEnv hookName mail.mailbox mail.event) name := by
  have hp : (!(mailVariables mail.event).contains name) = true := by simpa using h
  rw [← lookupVar_filter (p := fun k => !(mailVariables mail.event).contains k) hp]
  cases mail with
  | received filepath m => rfl
  | sent ctx now => rfl

/-! ## Two mails of one hook -/

/-- Assignments that agree in their names, where the second has values at least as long, and longer
ones for the variables that the mail decides. -/
def Longer (event : HookEvent) (e e' : Str × Str) : Prop :=
  e.1 = e'.1 ∧ e.2.length ≤ e'.2.length ∧
    (e.1 ∈ mailVariables event → e.2.length < e'.2.length)

theorem Longer.fixed {event : HookEvent} {key : Str} (value : Str) (h : key ∉ mailVariables event) :
    Longer event (key, value) (key, value) :=
  ⟨rfl, le_rfl, fun hkey => absurd hkey h⟩

theorem Longer.mail {event : HookEvent} {key : Str} (value value' : Str)
    (h : value.length < value'.length) : Longer event (key, value) (key, value') :=
  ⟨rfl, h.le, fun _ => h⟩

theorem lookupVar_longer {event : HookEvent} {envs envs' : List (Str × Str)}
    (h : List.Forall₂ (Longer event) envs envs') (name : Str) :
    (lookupVar envs name = none ∧ lookupVar envs' name = none ∧ name ∉ envs.map Prod.fst) ∨
      ∃ v v', lookupVar envs name = some v ∧ lookupVar envs' name = some v' ∧
        v.length ≤ v'.length ∧ (name ∈ mailVariables event → v.length < v'.length) := by
  induction h with
  | nil => exact Or.inl ⟨rfl, rfl, List.not_mem_nil⟩
  | @cons e e' envs envs' hhead htail ih =>
      obtain ⟨hkey, hle, hlt⟩ := hhead
      by_cases he : e.1 = name
      · refine Or.inr ⟨e.2, e'.2, ?_, ?_, hle, fun hname => hlt (he ▸ hname)⟩
        · simp [lookupVar, he]
        · simp [lookupVar, ← hkey, he]
      · have he' : e'.1 ≠ name := fun h => he (hkey.trans h)
        have hskip : lookupVar (e :: envs) name = lookupVar envs name := by
          simp [lookupVar, he]
        have hskip' : lookupVar (e' :: envs') name = lookupVar envs' name := by
          simp [lookupVar, he']
        rw [hskip, hskip']
        rcases ih with ⟨hnone, hnone', hmem⟩ | hsome
        · refine Or.inl ⟨hnone, hnone', ?_⟩
          rw [List.map_cons, List.mem_cons, not_or]
          exact ⟨fun h => he h.symm, hmem⟩
        · exact Or.inr hsome

/-- The values of a unit grow with its assignments. -/
theorem unitValue_longer {event : HookEvent} {unitEnv : Str → Option Str}
    {envs envs' : List (Str × Str)} (h : List.Forall₂ (Longer event) envs envs')
    (hkeys : envs.map Prod.fst = hookVariables event) (name : Str) :
    (unitValue unitEnv envs name).length ≤ (unitValue unitEnv envs' name).length ∧
      (name ∈ mailVariables event →
        (unitValue unitEnv envs name).length < (unitValue unitEnv envs' name).length) := by
  unfold unitValue
  rcases lookupVar_longer h name with ⟨hnone, hnone', hmem⟩ | ⟨v, v', hv, hv', hle, hlt⟩
  · rw [hnone, hnone']
    refine ⟨le_rfl, fun hmail => ?_⟩
    rw [hkeys] at hmem
    exact absurd (mem_hookVariables_of_mem_mailVariables name hmail) hmem
  · rw [hv, hv']
    exact ⟨hle, hlt⟩

/-- A mail of the hook with short values. -/
def shortMail (config : Config) (name : Str) : HookEvent → Mail
  | .onReceive => .received (joinPath (config.inboxDir name) "2026-01-01-000000-a.md".toList)
      { sampleMeta [] with
        id := "2026-01-01-000000-a".toList, from_ := [], to_ := [], messageId := [],
        date := "2026-01-01T00:00:00Z".toList, trusted := "true".toList, mailbox := name }
  | .afterSend => .sent ⟨name, [], [], [], [], [], .failed⟩ "2026-01-01T00:00:00+00:00".toList

/-- A mail of the hook with longer values. -/
def longMail (config : Config) (name : Str) : HookEvent → Mail
  | .onReceive => .received (joinPath (config.inboxDir name) "2026-01-01-000000-ab.md".toList)
      { sampleMeta "b".toList with
        id := "2026-01-01-000000-ab".toList, from_ := "b".toList, to_ := "b".toList,
        messageId := "b".toList, date := "2026-01-01T00:00:00+00:00".toList,
        trusted := "true".toList, mailbox := name }
  | .afterSend =>
      .sent ⟨name, "b".toList, "b".toList, "b".toList,
        joinPath (config.sentDir name) "2026-01-01-000000-b.md".toList, "b".toList, .delivered⟩
        "2026-01-01T00:00:00.123+00:00".toList

theorem longer_hookEnv (config : Config) (hookName name : Str) (event : HookEvent) :
    List.Forall₂ (Longer event) (hookEnv hookName (shortMail config name event))
      (hookEnv hookName (longMail config name event)) := by
  cases event with
  | onReceive =>
      have hpath : (joinPath (config.inboxDir name) "2026-01-01-000000-a.md".toList).length <
          (joinPath (config.inboxDir name) "2026-01-01-000000-ab.md".toList).length :=
        length_joinPath_lt _ (by decide) (by decide) (by decide)
      refine .cons (.fixed _ (by decide)) ?_
      refine .cons (.mail [] "b".toList (by decide)) ?_
      refine .cons (.mail [] "b".toList (by decide)) ?_
      refine .cons (.mail [] "b".toList (by decide)) ?_
      refine .cons (.fixed _ (by decide)) ?_
      refine .cons (.mail _ _ hpath) ?_
      refine .cons (.mail [] "b".toList (by decide)) ?_
      refine .cons (.fixed _ (by decide)) ?_
      refine .cons (.mail "2026-01-01-000000-a".toList "2026-01-01-000000-ab".toList (by decide)) ?_
      exact .cons (.mail "2026-01-01T00:00:00Z".toList "2026-01-01T00:00:00+00:00".toList
        (by decide)) .nil
  | afterSend =>
      have hpath : ([] : Str).length <
          (joinPath (config.sentDir name) "2026-01-01-000000-b.md".toList).length := by
        have hlonger := length_joinPath_lt (config.sentDir name) (p := [])
          (q := "2026-01-01-000000-b.md".toList) (by decide) (by decide) (by decide)
        simp only [List.length_nil]
        omega
      have hstem : fileStem (joinPath (config.sentDir name) "2026-01-01-000000-b.md".toList) =
          "2026-01-01-000000-b".toList :=
        (fileStem_joinPath (by decide) (by decide)).trans (by decide)
      have hid : (fileStem []).length <
          (fileStem (joinPath (config.sentDir name) "2026-01-01-000000-b.md".toList)).length := by
        rw [hstem]
        decide
      refine .cons (.fixed _ (by decide)) ?_
      refine .cons (.mail [] "b".toList (by decide)) ?_
      refine .cons (.mail [] "b".toList (by decide)) ?_
      refine .cons (.mail [] "b".toList (by decide)) ?_
      refine .cons (.fixed _ (by decide)) ?_
      refine .cons (.mail _ _ hpath) ?_
      refine .cons (.mail "failed".toList "delivered".toList (by decide)) ?_
      refine .cons (.mail [] "b".toList (by decide)) ?_
      refine .cons (.fixed _ (by decide)) ?_
      refine .cons (.mail _ _ hid) ?_
      exact .cons (.mail "2026-01-01T00:00:00+00:00".toList "2026-01-01T00:00:00.123+00:00".toList
        (by decide)) .nil

/-- Every hook of an accepted mailbox runs for such mails. -/
theorem runsFor_samples {sha256 : Bytes → Bytes} {config : Config} {name : Str} {mb : MailboxConfig}
    {hook : Hook} (haccepted : Accepted sha256 config)
    (hmb : config.mailboxes.lookup name = some mb) (hhook : hook ∈ mb.hooks) :
    RunsFor config name mb hook (shortMail config name hook.event) ∧
      RunsFor config name mb hook (longMail config name hook.event) := by
  have hentry : (⟨name, mb⟩ : (_ : Str) × MailboxConfig) ∈ config.mailboxes.entries :=
    AList.mem_lookup_iff.mp hmb
  have hcatchall : mb.isCatchall config = false := by
    by_contra hcatchall
    have hnone := haccepted.catchallHooks _ hentry (by simpa using hcatchall)
    rw [hnone] at hhook
    cases hhook
  have hguard : ¬ (mb.isCatchall config && !mb.hooks.isEmpty) = true := by simp [hcatchall]
  cases hevent : hook.event with
  | onReceive =>
      have hmem : hook ∈ mb.onReceiveHooks := by simp [MailboxConfig.onReceiveHooks, hhook, hevent]
      have hruns : ∀ m : InboundFrontmatter, m.trusted = "true".toList →
          hook ∈ executeOnReceive config mb m := by
        intro m hm
        have htrusted : parseTrusted m.trusted = .true := if_pos hm
        unfold executeOnReceive
        dsimp only
        rw [if_neg hguard, List.mem_filter, htrusted]
        exact ⟨hmem, by simp [shouldFireOnReceive]⟩
      exact ⟨⟨rfl, List.mem_cons_self, hruns _ rfl⟩, ⟨rfl, List.mem_cons_self, hruns _ rfl⟩⟩
  | afterSend =>
      have hruns : hook ∈ executeAfterSend config mb := by
        unfold executeAfterSend
        rw [if_neg hguard]
        simp [MailboxConfig.afterSendHooks, hhook, hevent]
      exact ⟨⟨rfl, Or.inl rfl, hruns⟩, ⟨rfl, Or.inr ⟨"2026-01-01-000000-b".toList, rfl⟩, hruns⟩⟩

/-! ## When the arguments do not depend on the mail -/

/-- The arguments of a hook refer to no variable that the mail decides, and replacing what they refer to
otherwise gives them back. -/
def ArgsSettled (unitEnv : Str → Option Str) (hookName mailbox : Str) (hook : Hook) : Prop :=
  ∀ arg ∈ hook.cmd, (∀ n ∈ references arg, n ∉ mailVariables hook.event) ∧
    expandVars (unitValue unitEnv (fixedEnv hookName mailbox hook.event)) arg = arg

/-- The event of a mail that a hook runs for is the hook's. -/
theorem RunsFor.event_eq {config : Config} {name : Str} {mb : MailboxConfig} {hook : Hook}
    {mail : Mail} (h : RunsFor config name mb hook mail) :
    mail.event = hook.event ∧ mail.mailbox = name := by
  cases mail with
  | received filepath m =>
      obtain ⟨hname, -, hruns⟩ := h
      unfold executeOnReceive at hruns
      dsimp only at hruns
      split at hruns
      · cases hruns
      · have hevent := (List.mem_filter.mp (List.mem_filter.mp hruns).1).2
        rw [decide_eq_true_eq] at hevent
        exact ⟨hevent.symm, hname⟩
  | sent ctx now =>
      obtain ⟨hname, -, hruns⟩ := h
      unfold executeAfterSend at hruns
      split at hruns
      · cases hruns
      · have hevent := (List.mem_filter.mp hruns).2
        rw [decide_eq_true_eq] at hevent
        exact ⟨hevent.symm, hname⟩

/-- What is executed for one mail on the systemd path. -/
theorem executedArgv_of_systemd {sha256 : Bytes → Bytes} {host : Host} {mb : MailboxConfig}
    {hook : Hook} (mail : Mail) (hfault : hook.fault = none)
    (hpath : host.usesSystemdRun mb.owner = true) :
    executedArgv sha256 host mb hook mail =
      some (hook.cmd.map (expandVars (unitValue host.unitEnv
        (hookEnv (effectiveHookName sha256 hook) mail)))) := by
  unfold executedArgv
  rw [resolveArgv_of_fault_eq_none hfault]
  dsimp only
  rw [spawnSandboxed_of_systemd hpath]
  exact congrArg some (systemdRunArgv_systemdOptions equals_notMem_hookEnv)

/-- An argument without references to the mail is expanded alike for every mail. -/
theorem expandVars_hookEnv {unitEnv : Str → Option Str} {config : Config} {hookName name arg : Str}
    {mb : MailboxConfig} {hook : Hook} {mail : Mail} (hruns : RunsFor config name mb hook mail)
    (hrefs : ∀ n ∈ references arg, n ∉ mailVariables hook.event) :
    expandVars (unitValue unitEnv (hookEnv hookName mail)) arg =
      expandVars (unitValue unitEnv (fixedEnv hookName name hook.event)) arg := by
  obtain ⟨hevent, hname⟩ := hruns.event_eq
  apply expandVars_congr
  intro n hn
  have hvar := hrefs n hn
  rw [← hevent] at hvar
  unfold unitValue
  rw [lookupVar_hookEnv hvar, hevent, hname]

/-- The hook is executed with its own arguments where they are settled. -/
theorem executedArgv_eq_of_settled {sha256 : Bytes → Bytes} {config : Config} {host : Host}
    {name : Str} {mb : MailboxConfig} {hook : Hook} {mail : Mail} {argv : List Str}
    (hfault : hook.fault = none)
    (hsettled : host.usesSystemdRun mb.owner = false ∨
      ArgsSettled host.unitEnv (effectiveHookName sha256 hook) name hook)
    (hruns : RunsFor config name mb hook mail)
    (h : executedArgv sha256 host mb hook mail = some argv) : argv = hook.cmd := by
  cases hpath : host.usesSystemdRun mb.owner with
  | false =>
      unfold executedArgv at h
      rw [resolveArgv_of_fault_eq_none hfault] at h
      dsimp only at h
      split at h
      next => cases h
      next command hcommand =>
          cases h
          exact executed_spawnSandboxed_of_not_systemd hpath hcommand
  | true =>
      rcases hsettled with hnot | hargs
      · rw [hpath] at hnot
        cases hnot
      · rw [executedArgv_of_systemd mail hfault hpath, Option.some.injEq] at h
        rw [← h]
        refine (List.map_congr_left fun arg harg => ?_).trans (List.map_id _)
        obtain ⟨hrefs, hself⟩ := hargs arg harg
        exact (expandVars_hookEnv hruns hrefs).trans hself

/-- **The arguments of a hook depend on no mail** exactly when the hook does not run through
`systemd-run`, or when its arguments refer to no variable that the mail decides and come back unchanged
from the replacement of the others. -/
theorem argvFixed_iff {sha256 : Bytes → Bytes} {config : Config} {host : Host} {name : Str}
    {mb : MailboxConfig} {hook : Hook} (haccepted : Accepted sha256 config)
    (hmb : config.mailboxes.lookup name = some mb) (hhook : hook ∈ mb.hooks) :
    ArgvFixed sha256 config host name mb hook ↔
      host.usesSystemdRun mb.owner = false ∨
        ArgsSettled host.unitEnv (effectiveHookName sha256 hook) name hook := by
  have hentry : (⟨name, mb⟩ : (_ : Str) × MailboxConfig) ∈ config.mailboxes.entries :=
    AList.mem_lookup_iff.mp hmb
  have hfault : hook.fault = none := by
    apply haccepted.hooks (name, hook)
    exact List.mem_flatMap.mpr ⟨_, hentry, List.mem_map_of_mem hhook⟩
  constructor
  · intro hfixed
    cases hpath : host.usesSystemdRun mb.owner with
    | false => exact Or.inl rfl
    | true =>
        right
        obtain ⟨hshort, hlong⟩ := runsFor_samples haccepted hmb hhook
        obtain ⟨hsame, hown⟩ := hfixed _ _ _ _ hshort hlong (executedArgv_of_systemd _ hfault hpath)
          (executedArgv_of_systemd _ hfault hpath)
        have heach : ∀ arg ∈ hook.cmd,
            expandVars (unitValue host.unitEnv (hookEnv (effectiveHookName sha256 hook)
              (shortMail config name hook.event))) arg = arg ∧
            expandVars (unitValue host.unitEnv (hookEnv (effectiveHookName sha256 hook)
              (longMail config name hook.event))) arg = arg := by
          intro arg harg
          have hshort' := List.map_inj_left.mp (hown.trans (List.map_id _).symm) arg harg
          have hlong' := List.map_inj_left.mp
            ((hsame.symm.trans hown).trans (List.map_id _).symm) arg harg
          exact ⟨hshort', hlong'⟩
        have hlonger := longer_hookEnv config (effectiveHookName sha256 hook) name hook.event
        obtain ⟨hevent, -⟩ := hshort.event_eq
        have hkeys := map_fst_hookEnv (effectiveHookName sha256 hook)
          (shortMail config name hook.event)
        rw [hevent] at hkeys
        intro arg harg
        obtain ⟨hshort', hlong'⟩ := heach arg harg
        -- a reference to a variable of the mail would make the second expansion longer
        have hrefs : ∀ n ∈ references arg, n ∉ mailVariables hook.event := by
          intro n hn hmail
          have hlt : (expandVars (unitValue host.unitEnv (hookEnv (effectiveHookName sha256 hook)
              (shortMail config name hook.event))) arg).length <
            (expandVars (unitValue host.unitEnv (hookEnv (effectiveHookName sha256 hook)
              (longMail config name hook.event))) arg).length := by
            have hvalue := @unitValue_longer hook.event host.unitEnv _ _ hlonger hkeys
            exact length_expandVars_lt (fun m => (hvalue m).1) hn ((hvalue n).2 hmail)
          rw [hshort', hlong'] at hlt
          exact lt_irrefl _ hlt
        exact ⟨hrefs, (expandVars_hookEnv hshort hrefs).symm.trans hshort'⟩
  · intro hsettled mail₁ mail₂ argv₁ argv₂ hruns₁ hruns₂ h₁ h₂
    have hown₁ := executedArgv_eq_of_settled hfault hsettled hruns₁ h₁
    have hown₂ := executedArgv_eq_of_settled hfault hsettled hruns₂ h₂
    exact ⟨hown₁.trans hown₂.symm, hown₁⟩

/-! ## Names without a dollar sign -/

/-- No effective hook name of an accepted hook contains a dollar sign. -/
theorem dollar_notMem_effectiveHookName (sha256 : Bytes → Bytes) {hook : Hook}
    (hfault : hook.fault = none) : '$' ∉ effectiveHookName sha256 hook := by
  unfold effectiveHookName
  cases hname : hook.name with
  | some name =>
      have hvalid : isValidHookName name = true := by
        by_contra hinvalid
        have hfilter : (hook.name.filter fun name => !isValidHookName name) = some name := by
          simp [hname, Option.filter, hinvalid]
        unfold Hook.fault at hfault
        rw [hfilter] at hfault
        cases hfault
      intro hmem
      have hbyte : (0x24 : UInt8) ∈ utf8 name := by
        refine List.mem_flatMap.mpr ⟨'$', hmem, ?_⟩
        decide
      unfold isValidHookName at hvalid
      cases hbytes : utf8 name with
      | nil =>
          rw [hbytes] at hbyte
          cases hbyte
      | cons first rest =>
          rw [hbytes] at hvalid hbyte
          simp only [Bool.and_eq_true, List.all_eq_true] at hvalid
          rcases List.mem_cons.mp hbyte with hfirst | hrest
          · rw [← hfirst] at hvalid
            exact absurd hvalid.1.2 (by decide)
          · exact absurd (hvalid.2 _ hrest) (by decide)
  | none =>
      intro hmem
      obtain ⟨b, -, hb⟩ := List.mem_flatMap.mp hmem
      have hdigits : ∀ n < 16, Nat.digitChar n ≠ '$' := by decide
      have hlow := hdigits (b.toNat % 16) (Nat.mod_lt _ (by omega))
      have hhigh := hdigits (b.toNat / 16) (by
        have hlt := b.toNat_lt
        omega)
      simp only [hexByte, List.mem_cons, List.not_mem_nil, or_false] at hb
      rcases hb with hb | hb
      · exact hhigh hb.symm
      · exact hlow hb.symm

/-- For a mailbox name and a unit environment without dollar signs, the arguments are settled exactly
when they contain no reference at all. -/
theorem argsSettled_iff_references {sha256 : Bytes → Bytes} {unitEnv : Str → Option Str} {name : Str}
    {hook : Hook} (hfault : hook.fault = none) (hname : '$' ∉ name)
    (hunit : ∀ n, ∀ v ∈ unitEnv n, '$' ∉ v) :
    ArgsSettled unitEnv (effectiveHookName sha256 hook) name hook ↔
      ∀ arg ∈ hook.cmd, references arg = [] := by
  have hvalue : ∀ n, '$' ∉ unitValue unitEnv
      (fixedEnv (effectiveHookName sha256 hook) name hook.event) n := by
    intro n
    have hfixed : ∀ e ∈ fixedEnv (effectiveHookName sha256 hook) name hook.event, '$' ∉ e.2 := by
      intro e he
      simp only [fixedEnv, List.mem_cons, List.not_mem_nil, or_false] at he
      rcases he with rfl | rfl | rfl
      · exact dollar_notMem_effectiveHookName sha256 hfault
      · exact hname
      · cases hook.event with
        | onReceive => decide
        | afterSend => decide
    unfold unitValue lookupVar
    cases hfind : (fixedEnv (effectiveHookName sha256 hook) name hook.event).find? fun e =>
        e.1 == n with
    | some e => exact hfixed e (List.mem_of_find?_eq_some hfind)
    | none =>
        cases hget : unitEnv n with
        | none => exact List.not_mem_nil
        | some v => exact hunit n v hget
  unfold ArgsSettled
  constructor
  · intro h arg harg
    exact (expandVars_eq_self_iff fun n _ => hvalue n).mp (h arg harg).2
  · intro h arg harg
    rw [h arg harg]
    exact ⟨fun n hn => absurd hn List.not_mem_nil, expandVars_of_references_eq_nil (h arg harg)⟩

/-! ## Two hooks on a systemd host -/

/-- A systemd host with one user. -/
def systemdHost : Host where
  init := .systemd
  forceFallback := false
  isRoot := true
  lookupUser := fun name => if name = "alice".toList then some (1001, 1001) else none
  path := none
  home := none
  unitEnv := fun _ => none

/-- A hook with the given arguments. -/
def aliceHook (cmd : List Str) : Hook where
  name := some "notify".toList
  event := .onReceive
  type := "cmd".toList
  cmd := cmd
  fireOnUntrusted := true
  timeoutSecs := 60

/-- A mailbox with that hook. -/
def hookMailbox (cmd : List Str) : MailboxConfig where
  address := "alice@example.org".toList
  owner := "alice".toList
  hooks := [aliceHook cmd]
  trust := none
  trustedSenders := none
  allowRootCatchall := false

/-- A configuration with that mailbox. -/
def hookConfig (cmd : List Str) : Config where
  domain := "example.org".toList
  dataDir := "/var/lib/aimx".toList
  dkimSelector := "aimx".toList
  trust := "none".toList
  trustedSenders := []
  mailboxes := AList.singleton "alice".toList (hookMailbox cmd)
  verifyHost := none
  enableIpv6 := false
  signature := none
  upgrade := none

/-- Surroundings in which the owner exists. -/
def hookLoadEnv : LoadEnv where
  parseToml := fun _ => .error []
  deserialize := fun _ => .error []
  resolveUser := fun name => if name = "alice".toList then some ⟨name, 1001, 1001⟩ else none
  sha256 := id

/-- Arguments without references, and an argument that refers to the subject. -/
def plainCmd : List Str := ["/usr/bin/logger".toList, "new mail".toList]
def subjectCmd : List Str := ["/usr/bin/logger".toList, "$\x7bAIMX_SUBJECT\x7d".toList]

/-- The plain hook is executed with its own arguments for every mail. -/
theorem argvFixed_plainCmd :
    ArgvFixed id (hookConfig plainCmd) systemdHost "alice".toList (hookMailbox plainCmd)
      (aliceHook plainCmd) := by
  have haccepted : Accepted id (hookConfig plainCmd) :=
    (@validateConfig_isOk_iff hookLoadEnv _).mp ⟨[], by decide +kernel⟩
  apply (argvFixed_iff haccepted (by decide +kernel) (by decide +kernel)).mpr
  right
  apply (argsSettled_iff_references (by decide +kernel) (by decide) fun n v hv => by cases hv).mpr
  decide +kernel

/-- A stored message with the given subject. -/
def subjectMail (subject : Str) : Mail :=
  .received "/var/lib/aimx/inbox/alice/2025-01-01-000000-note.md".toList
    { sampleMeta subject with mailbox := "alice".toList }

/-- The other hook is accepted by the load, and the subject of the mail becomes an argument of its
program: two mails are executed with different arguments, neither with those of the hook. -/
theorem subjectCmd_injects :
    validateConfig hookLoadEnv (hookConfig subjectCmd) = .ok [] ∧
      RunsFor (hookConfig subjectCmd) "alice".toList (hookMailbox subjectCmd) (aliceHook subjectCmd)
        (subjectMail "--file=/etc/passwd".toList) ∧
      RunsFor (hookConfig subjectCmd) "alice".toList (hookMailbox subjectCmd) (aliceHook subjectCmd)
        (subjectMail "hi".toList) ∧
      executedArgv id systemdHost (hookMailbox subjectCmd) (aliceHook subjectCmd)
          (subjectMail "--file=/etc/passwd".toList) =
        some ["/usr/bin/logger".toList, "--file=/etc/passwd".toList] ∧
      executedArgv id systemdHost (hookMailbox subjectCmd) (aliceHook subjectCmd)
          (subjectMail "hi".toList) =
        some ["/usr/bin/logger".toList, "hi".toList] ∧
      (aliceHook subjectCmd).cmd = ["/usr/bin/logger".toList, "$\x7bAIMX_SUBJECT\x7d".toList] := by
  refine ⟨by decide +kernel, ⟨rfl, by decide +kernel, by decide +kernel⟩,
    ⟨rfl, by decide +kernel, by decide +kernel⟩, by decide +kernel, by decide +kernel, rfl⟩

end Sandbox
end Aimx
