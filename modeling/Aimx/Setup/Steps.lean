import Aimx.Setup.Run

/-!
# The steps of a setup

What each part of a run does when no check and no command fails.

* `NothingFails` — the surroundings of such a run;
* `keysStep_ok_iff` — the key files: both are there, or neither;
* `settled`, `settleConfig_kept`, `settleConfig_fresh` — the configuration that a run aims at;
* `mailboxDirs`, `ensureMailboxDirs_ok_iff` — the directories, when every owner can be resolved;
* `Aims` — the configuration that a run aims at, and the text that it leaves in the file;
* `prepared`, `installed`, `finished`, `runSetup_ok_iff` — exactly when a run goes through, and its end.
-/

namespace Aimx
namespace Setup

open Text

/-- No check and no command fails, the `toml` crate reads back what it prints, and the started service
answers. -/
structure NothingFails (env : SetupEnv) : Prop where
  root : env.isRoot = true
  port25 : ∀ host, ∃ status, env.port25 host = .ok status ∧ (∀ name, status ≠ .otherProcess name) ∧
    env.preflight status = .ok ()
  ipv4 : ∃ ip, env.serverIpv4 = .ok (some ip)
  readsBack : ∀ config text, env.print config = .ok text → env.parseToml text = .ok config.toToml
  key : ∃ value, env.publicKeySpkiBase64 env.newKeypair.2 = .ok value
  service : env.serviceReady = true

/-! ## The key files -/

section Keys

variable {env : SetupEnv} {host host' : SetupHost}

/-- The second step, from the look for the private key to the value of the record. -/
def keysStep (env : SetupEnv) (host : SetupHost) : Run SetupHost := do
  let host ← if host.privateKey.isNone then generateKeypair env host else pure host
  let _ ← dnsRecordValue env host
  return host

/-- The host after it. -/
def withKeys (env : SetupEnv) (host : SetupHost) : SetupHost :=
  if host.privateKey.isNone then
    { host with privateKey := some env.newKeypair.1, publicKey := some env.newKeypair.2 }
  else host

/-- A key file that is there holds a key. -/
def KeyReadable (env : SetupEnv) (host : SetupHost) : Prop :=
  ∀ pem, host.publicKey = some pem → ∃ value, env.publicKeySpkiBase64 pem = .ok value

theorem keysStep_ok_iff (hfails : NothingFails env) (hkey : KeyReadable env host) :
    keysStep env host = .ok host' ↔
      host.privateKey.isSome = host.publicKey.isSome ∧ host' = withKeys env host := by
  obtain ⟨value, hvalue⟩ := hfails.key
  unfold keysStep withKeys generateKeypair dnsRecordValue
  cases hprivate : host.privateKey with
  | none =>
      cases hpublic : host.publicKey with
      | none => simp [bind, Except.bind, pure, Except.pure, orFail, hvalue, eq_comm]
      | some pem => simp [bind, Except.bind]
  | some key =>
      cases hpublic : host.publicKey with
      | none => simp [bind, Except.bind, pure, Except.pure, hpublic]
      | some pem =>
          obtain ⟨value', hvalue'⟩ := hkey pem hpublic
          simp [bind, Except.bind, pure, Except.pure, orFail, hpublic, hvalue', eq_comm]

@[simp] theorem withKeys_users : (withKeys env host).users = host.users := by
  unfold withKeys
  split <;> rfl

@[simp] theorem withKeys_config : (withKeys env host).config = host.config := by
  unfold withKeys
  split <;> rfl

@[simp] theorem withKeys_dirs : (withKeys env host).dirs = host.dirs := by
  unfold withKeys
  split <;> rfl

@[simp] theorem withKeys_cert : (withKeys env host).cert = host.cert := by
  unfold withKeys
  split <;> rfl

@[simp] theorem withKeys_running : (withKeys env host).running = host.running := by
  unfold withKeys
  split <;> rfl

theorem withKeys_of_isSome (hkey : host.privateKey.isSome = true) : withKeys env host = host := by
  unfold withKeys
  cases hprivate : host.privateKey with
  | none =>
      rw [hprivate] at hkey
      cases hkey
  | some key => rfl

theorem withKeys_isSome (hsame : host.privateKey.isSome = host.publicKey.isSome) :
    (withKeys env host).privateKey.isSome = true ∧ (withKeys env host).publicKey.isSome = true := by
  unfold withKeys
  cases hprivate : host.privateKey with
  | none => exact ⟨rfl, rfl⟩
  | some key =>
      rw [hprivate] at hsame
      simp [hprivate, ← hsame]

end Keys

/-! ## The configuration -/

section Settle

variable {env : SetupEnv} {dataDir domain selector : Str} {trustDefaults : Option (Str × List Str)}
  {host : SetupHost} {config : Config}

/-- An existing configuration under the domain of the run. -/
def moved (domain : Str) (config : Config) : Config :=
  if config.domain = domain then config else withDomain domain config

/-- The configuration that `finalize_setup` makes of an existing one. -/
def settled (domain : Str) (config : Config) : Config :=
  if "catchall".toList ∈ (moved domain config).mailboxes then moved domain config
  else (moved domain config).insertMailbox "catchall".toList (catchallMailbox domain)

/-- The text in the file afterwards: the old one where nothing is to be changed, and else the printed
configuration. -/
def SettledText (env : SetupEnv) (text : Str) (config aimed : Config) (text' : Str) : Prop :=
  aimed = config ∧ text' = text ∨ aimed ≠ config ∧ env.print aimed = .ok text'

theorem moved_domain : (moved domain config).domain = domain := by
  unfold moved
  split
  next h => exact h
  next => rfl

theorem settled_domain : (settled domain config).domain = domain := by
  unfold settled
  split
  · exact moved_domain
  · exact moved_domain

theorem mem_moved {name : Str} (domain : Str) :
    name ∈ (moved domain config).mailboxes ↔ name ∈ config.mailboxes := by
  unfold moved
  split
  · exact Iff.rfl
  · exact Table.mem_mapValues

theorem mem_insertMailbox (name : Str) (mb : MailboxConfig) :
    name ∈ (config.insertMailbox name mb).mailboxes :=
  (AList.mem_insert _).mpr (.inl rfl)

theorem catchall_mem_settled : "catchall".toList ∈ (settled domain config).mailboxes := by
  unfold settled
  split
  next h => exact h
  next => exact mem_insertMailbox _ _

/-- Settling once more changes nothing. -/
theorem settled_of_mem (hdomain : config.domain = domain) (hmem : "catchall".toList ∈ config.mailboxes) :
    settled domain config = config := by
  have hmoved : moved domain config = config := if_pos hdomain
  unfold settled
  rw [hmoved, if_pos hmem]

/-- What is written of a configuration that is kept can be printed. -/
structure Printable (env : SetupEnv) (domain : Str) (config : Config) : Prop where
  moved : config.domain ≠ domain → ∃ text, env.print (withDomain domain config) = .ok text
  settled : settled domain config ≠ config → ∃ text, env.print (settled domain config) = .ok text

theorem installConfigFile_eq {text : Str} (hprint : env.print config = .ok text) :
    installConfigFile env config host = .ok { host with config := some text } := by
  unfold installConfigFile
  rw [hprint]
  rfl

/-- The file after the change of domain. -/
theorem exists_movedText {text : Str} (hconfig : host.config = some text)
    (hprint : config.domain ≠ domain → ∃ text', env.print (withDomain domain config) = .ok text') :
    ∃ text', SettledText env text config (moved domain config) text' ∧
      (if config.domain = domain then pure host else installConfigFile env (moved domain config) host) =
        .ok { host with config := some text' } := by
  unfold moved
  by_cases hdomain : config.domain = domain
  · rw [if_pos hdomain, if_pos hdomain]
    refine ⟨text, .inl ⟨rfl, rfl⟩, ?_⟩
    rw [← hconfig]
    rfl
  · rw [if_neg hdomain, if_neg hdomain]
    obtain ⟨text', htext⟩ := hprint hdomain
    refine ⟨text', .inr ⟨fun heq => hdomain ?_, htext⟩, installConfigFile_eq htext⟩
    rw [← heq]
    rfl

theorem settleConfig_kept {text : Str} {warnings : List LoadWarning} (hconfig : host.config = some text)
    (hload : Aimx.load (env.load host) text = .ok (config, warnings)) (hprint : Printable env domain config) :
    ∃ text', SettledText env text config (settled domain config) text' ∧
      settleConfig env dataDir domain selector trustDefaults host =
        .ok ({ host with config := some text' }, settled domain config) := by
  obtain ⟨text₁, htext₁, hmoved⟩ := @exists_movedText env domain host config text hconfig
    hprint.moved
  have hrun : settleConfig env dataDir domain selector trustDefaults host =
      if "catchall".toList ∈ (moved domain config).mailboxes then
        .ok ({ host with config := some text₁ }, moved domain config)
      else
        installConfigFile env ((moved domain config).insertMailbox "catchall".toList (catchallMailbox domain))
          { host with config := some text₁ } >>= fun host =>
            .ok (host, (moved domain config).insertMailbox "catchall".toList (catchallMailbox domain)) := by
    unfold settleConfig moved
    unfold moved at hmoved
    rw [hconfig]
    simp only [hload, orFail, bind, Except.bind]
    split
    next hdomain =>
        rw [if_pos hdomain] at hmoved
        rw [hmoved]
        rfl
    next hdomain =>
        rw [if_neg hdomain, if_neg hdomain] at hmoved
        rw [hmoved]
        rfl
  rw [hrun]
  unfold settled
  by_cases hmem : "catchall".toList ∈ (moved domain config).mailboxes
  · rw [if_pos hmem, if_pos hmem]
    exact ⟨text₁, htext₁, rfl⟩
  · rw [if_neg hmem, if_neg hmem]
    have hchanged : (moved domain config).insertMailbox "catchall".toList (catchallMailbox domain) ≠
        config := by
      intro heq
      have hinserted := @mem_insertMailbox (moved domain config) "catchall".toList (catchallMailbox domain)
      rw [heq] at hinserted
      exact hmem ((mem_moved domain).mpr hinserted)
    have hsettled : settled domain config =
        (moved domain config).insertMailbox "catchall".toList (catchallMailbox domain) := if_neg hmem
    obtain ⟨text', htext⟩ := hprint.settled (hsettled ▸ hchanged)
    rw [hsettled] at htext
    refine ⟨text', .inr ⟨hchanged, htext⟩, ?_⟩
    rw [installConfigFile_eq htext]
    rfl

theorem settleConfig_fresh (hconfig : host.config = none) {trust text' : Str} {senders : List Str}
    (hprint : env.print (freshConfig dataDir domain selector trust senders) = .ok text') :
    settleConfig env dataDir domain selector (some (trust, senders)) host =
      .ok ({ host with config := some text' }, freshConfig dataDir domain selector trust senders) := by
  unfold settleConfig
  rw [hconfig]
  simp only [Option.getD_some]
  rw [installConfigFile_eq hprint]
  rfl

end Settle

/-! ## The directories of the mailboxes -/

section Folders

variable {env : SetupEnv} {dataDir : Str} {host : SetupHost} {config : Config}

/-- The directories that the owners of the mailboxes get, in the order in which they are made. -/
def mailboxDirs (users : Str → Option ResolvedUser) (dataDir : Str) (config : Config) : List (Str × Dir) :=
  config.mailboxes.entries.flatMap fun e =>
    match ownerIds users e.2.owner with
    | .error _ => []
    | .ok (uid, gid) => (mailboxPaths dataDir e.1).map fun path => (path, ⟨uid, gid, 0o700⟩)

/-- Every owner can be resolved. -/
def OwnersResolve (users : Str → Option ResolvedUser) (config : Config) : Prop :=
  ∀ e ∈ config.mailboxes.entries, ∃ ids, ownerIds users e.2.owner = .ok ids

theorem ensureMailboxDirs_ok_iff {host' : SetupHost} :
    ensureMailboxDirs env dataDir config host = .ok host' ↔
      OwnersResolve host.users config ∧
        host' = { host with dirs := makeAll (mailboxDirs host.users dataDir config) host.dirs } := by
  unfold ensureMailboxDirs mailboxDirs OwnersResolve
  generalize config.mailboxes.entries = entries
  induction entries generalizing host with
  | nil => simp [pure, Except.pure, makeAll_nil, eq_comm]
  | cons e entries ih =>
      rw [List.foldlM_cons, List.forall_mem_cons, List.flatMap_cons]
      unfold ensureMailboxDir
      cases hids : ownerIds host.users e.2.owner with
      | error fault =>
          refine iff_of_false (fun h => by cases h) ?_
          rintro ⟨⟨⟨ids, h⟩, -⟩, -⟩
          cases h
      | ok ids =>
          obtain ⟨uid, gid⟩ := ids
          simp only [makeAll_append]
          refine Iff.trans ih ?_
          simp

end Folders

/-! ## The run -/

section Run

variable {env : SetupEnv} {args : SetupArgs} {answers : Answers} {host host' : SetupHost}

/-- The fourth step. -/
def trustStep (env : SetupEnv) (answers : Answers) (lines : List Str) (host : SetupHost) :
    Run (Option (Str × List Str)) :=
  if host.config.isSome then pure none
  else (orFail host (chosenTrust env answers (verifyRecords env.missingRecords lines))).map some

/-- The fifth step. -/
def installStep (env : SetupEnv) (args : SetupArgs) (domain selector : Str)
    (trustDefaults : Option (Str × List Str)) (alreadyConfigured : Bool) (host : SetupHost) :
    Run SetupHost := do
  let host ← finalizeSetup env args.root domain selector trustDefaults host
  let host := if configHasCatchall env host then ensureCatchallUser env host else host
  let host := writeReadme env args.root host
  if alreadyConfigured then return host else installAndVerifyService env args.root host

/-- The run behind the look for the keys. -/
def afterKeys (env : SetupEnv) (args : SetupArgs) (answers : Answers) (domain : Str) (lines : List Str)
    (selector : Str) (alreadyConfigured : Bool) (host : SetupHost) : Run SetupHost := do
  let lines := verifyRecords env.missingRecords lines
  let host := if alreadyConfigured then host else { host with cert := true }
  let trustDefaults ← if host.config.isSome then pure none
    else (orFail host (chosenTrust env answers lines)).map some
  installStep env args domain selector trustDefaults alreadyConfigured host

theorem afterKeys_eq {domain selector : Str} {lines : List Str} {alreadyConfigured : Bool} :
    afterKeys env args answers domain lines selector alreadyConfigured host =
      trustStep env answers lines (if alreadyConfigured then host else { host with cert := true }) >>=
        fun trustDefaults => installStep env args domain selector trustDefaults alreadyConfigured
          (if alreadyConfigured then host else { host with cert := true }) := by
  unfold afterKeys trustStep
  dsimp only
  generalize (if alreadyConfigured then host else { host with cert := true }) = certified
  cases certified.config.isSome <;> rfl

theorem runSetup_eq (hfails : NothingFails env) {domain : Str} {lines : List Str}
    (hdomain : chosenDomain args answers = .ok (domain, lines)) :
    runSetup env args answers host =
      keysStep env { host with dirs := createDirAll args.root host.dirs } >>=
        afterKeys env args answers domain lines (chosenSelector env host) (isAlreadyConfigured host) := by
  obtain ⟨status, hport, hother, hpreflight⟩ := hfails.port25 host
  obtain ⟨ip, hip⟩ := hfails.ipv4
  have hselector : chosenSelector env { host with dirs := createDirAll args.root host.dirs } =
      chosenSelector env host := rfl
  have halready : isAlreadyConfigured { host with dirs := createDirAll args.root host.dirs } =
      isAlreadyConfigured host := rfl
  unfold runSetup keysStep
  simp only [hfails.root, hport, hip, hpreflight, hdomain, orFail, bind, Except.bind, pure, Except.pure,
    Bool.not_true, Bool.false_eq_true, if_false, Option.isNone_some, hselector, halready]
  cases status with
  | otherProcess name => exact absurd rfl (hother name)
  | free =>
      split
      · cases generateKeypair env { host with dirs := createDirAll args.root host.dirs } with
        | error e => rfl
        | ok v =>
            dsimp only
            cases dnsRecordValue env v <;> rfl
      · cases dnsRecordValue env { host with dirs := createDirAll args.root host.dirs } <;> rfl
  | aimx =>
      split
      · cases generateKeypair env { host with dirs := createDirAll args.root host.dirs } with
        | error e => rfl
        | ok v =>
            dsimp only
            cases dnsRecordValue env v <;> rfl
      · cases dnsRecordValue env { host with dirs := createDirAll args.root host.dirs } <;> rfl

/-- A bind that goes through. -/
theorem bind_ok_iff {α β : Type} {x : Run α} {f : α → Run β} {b : β} :
    x >>= f = .ok b ↔ ∃ a, x = .ok a ∧ f a = .ok b := by
  cases x with
  | error e => exact iff_of_false (fun h => by cases h) (fun ⟨a, h, _⟩ => by cases h)
  | ok a => exact ⟨fun h => ⟨a, rfl, h⟩, fun ⟨a', h, h'⟩ => by cases h; exact h'⟩

/-- The host behind the directories of the mailboxes. -/
def installed (args : SetupArgs) (host : SetupHost) (config : Config) (text : Str) : SetupHost :=
  { host with
    config := some text
    dirs := makeAll (mailboxDirs host.users args.root config) (createDirAll args.root host.dirs) }

/-- The host at the end. -/
def finished (env : SetupEnv) (args : SetupArgs) (alreadyConfigured : Bool) (host : SetupHost) : SetupHost :=
  let populated := writeReadme env args.root
    (if configHasCatchall env host then ensureCatchallUser env host else host)
  if alreadyConfigured then populated else { populated with service := some args.root, running := true }

/-- The fifth step goes through when every owner can be resolved. -/
theorem installStep_ok_iff (hfails : NothingFails env) {domain selector text : Str} {config : Config}
    {trustDefaults : Option (Str × List Str)} {alreadyConfigured : Bool}
    (hkeys : host.privateKey.isSome = true)
    (hsettle : settleConfig env args.root domain selector trustDefaults
      { host with dirs := createDirAll args.root host.dirs } =
        .ok ({ host with config := some text, dirs := createDirAll args.root host.dirs }, config)) :
    installStep env args domain selector trustDefaults alreadyConfigured host = .ok host' ↔
      OwnersResolve host.users config ∧
        host' = finished env args alreadyConfigured (installed args host config text) := by
  have hfinalize : ∀ host₁, finalizeSetup env args.root domain selector trustDefaults host = .ok host₁ ↔
      OwnersResolve host.users config ∧ host₁ = installed args host config text := by
    intro host₁
    unfold finalizeSetup
    rw [bind_ok_iff]
    constructor
    · rintro ⟨⟨host₂, config'⟩, hsettle', hrest⟩
      cases hsettle.symm.trans hsettle'
      obtain ⟨host₃, hdirs, hlast⟩ := bind_ok_iff.mp hrest
      obtain ⟨howners, rfl⟩ := ensureMailboxDirs_ok_iff.mp hdirs
      rw [if_pos hkeys] at hlast
      cases hlast
      exact ⟨howners, rfl⟩
    · rintro ⟨howners, rfl⟩
      refine ⟨_, hsettle, bind_ok_iff.mpr ⟨_, ensureMailboxDirs_ok_iff.mpr ⟨howners, rfl⟩, ?_⟩⟩
      rw [if_pos hkeys]
      rfl
  have hservice : ∀ populated : SetupHost,
      (if alreadyConfigured then (pure populated : Run SetupHost)
        else installAndVerifyService env args.root populated) =
      .ok (if alreadyConfigured then populated
        else { populated with service := some args.root, running := true }) := by
    intro populated
    cases alreadyConfigured with
    | true => rfl
    | false =>
        unfold installAndVerifyService
        rw [hfails.service]
        rfl
  unfold installStep
  rw [bind_ok_iff]
  constructor
  · rintro ⟨host₁, hfirst, hrest⟩
    obtain ⟨howners, rfl⟩ := (hfinalize host₁).mp hfirst
    rw [hservice] at hrest
    cases hrest
    exact ⟨howners, rfl⟩
  · rintro ⟨howners, rfl⟩
    refine ⟨_, (hfinalize _).mpr ⟨howners, rfl⟩, ?_⟩
    rw [hservice]
    rfl

/-- The host behind the third step. -/
def prepared (env : SetupEnv) (args : SetupArgs) (host : SetupHost) : SetupHost :=
  { withKeys env { host with dirs := createDirAll args.root host.dirs } with cert := true }

/-- The configuration that a run aims at, and the text that it leaves in the file. -/
inductive Aims (env : SetupEnv) (args : SetupArgs) (answers : Answers) (host : SetupHost) :
    Config → Str → Prop
  | fresh {domain trust text : Str} {lines senders : List Str} (hconfig : host.config = none)
      (hdomain : chosenDomain args answers = .ok (domain, lines))
      (htrust : chosenTrust env answers (verifyRecords env.missingRecords lines) = .ok (trust, senders))
      (hprint : env.print (freshConfig args.root domain "aimx".toList trust senders) = .ok text) :
      Aims env args answers host (freshConfig args.root domain "aimx".toList trust senders) text
  | kept {domain text text' : Str} {lines : List Str} {old : Config} {warnings : List LoadWarning}
      (hconfig : host.config = some text) (hload : Aimx.load (env.load host) text = .ok (old, warnings))
      (hdomain : chosenDomain args answers = .ok (domain, lines))
      (htext : SettledText env text old (settled domain old) text') :
      Aims env args answers host (settled domain old) text'

/-- The `toml` crate prints every configuration that the run writes. -/
structure Prints (env : SetupEnv) (args : SetupArgs) (answers : Answers) (host : SetupHost) : Prop where
  fresh : ∀ {domain trust : Str} {lines senders : List Str}, host.config = none →
    chosenDomain args answers = .ok (domain, lines) →
    chosenTrust env answers (verifyRecords env.missingRecords lines) = .ok (trust, senders) →
      ∃ text, env.print (freshConfig args.root domain "aimx".toList trust senders) = .ok text
  kept : ∀ {domain text : Str} {lines : List Str} {old : Config} {warnings : List LoadWarning},
    host.config = some text → Aimx.load (env.load host) text = .ok (old, warnings) →
    chosenDomain args answers = .ok (domain, lines) → Printable env domain old

theorem SettledText.unique {text text₁ text₂ : Str} {config aimed : Config}
    (h₁ : SettledText env text config aimed text₁) (h₂ : SettledText env text config aimed text₂) :
    text₁ = text₂ := by
  rcases h₁ with ⟨hsame, rfl⟩ | ⟨hother, hprint₁⟩
  · rcases h₂ with ⟨-, rfl⟩ | ⟨hother, -⟩
    · rfl
    · exact absurd hsame hother
  · rcases h₂ with ⟨hsame, -⟩ | ⟨-, hprint₂⟩
    · exact absurd hsame hother
    · exact Except.ok.inj (hprint₁.symm.trans hprint₂)

/-- The run from the look for the keys on goes through when there are both or neither. -/
theorem runSetup_ok_iff_afterKeys (hfails : NothingFails env) (hkey : KeyReadable env host) {domain : Str}
    {lines : List Str} (hdomain : chosenDomain args answers = .ok (domain, lines)) :
    runSetup env args answers host = .ok host' ↔ host.privateKey.isSome = host.publicKey.isSome ∧
      afterKeys env args answers domain lines (chosenSelector env host) (isAlreadyConfigured host)
        (withKeys env { host with dirs := createDirAll args.root host.dirs }) = .ok host' := by
  have hkeys := fun keyed => @keysStep_ok_iff env { host with dirs := createDirAll args.root host.dirs } keyed
    hfails hkey
  rw [runSetup_eq hfails hdomain, bind_ok_iff]
  constructor
  · rintro ⟨keyed, hkeyed, hrest⟩
    obtain ⟨hsame, rfl⟩ := (hkeys keyed).mp hkeyed
    exact ⟨hsame, hrest⟩
  · rintro ⟨hsame, hrest⟩
    exact ⟨_, (hkeys _).mpr ⟨hsame, rfl⟩, hrest⟩

/-- A host that was configured has a certificate. -/
theorem certified_eq (keyed : SetupHost) (hcert : keyed.cert = host.cert) :
    (if isAlreadyConfigured host then keyed else { keyed with cert := true }) =
      { keyed with cert := true } := by
  cases halready : isAlreadyConfigured host with
  | false => rfl
  | true =>
      unfold isAlreadyConfigured at halready
      rw [Bool.and_eq_true, Bool.and_eq_true, ← hcert] at halready
      rw [if_pos rfl, ← halready.1.2]

theorem prepared_config : (prepared env args host).config = host.config := withKeys_config

theorem prepared_users : (prepared env args host).users = host.users := withKeys_users

theorem prepared_dirs :
    createDirAll args.root (prepared env args host).dirs = (prepared env args host).dirs := by
  show createDirAll args.root (withKeys env _).dirs = (withKeys env _).dirs
  rw [withKeys_dirs]
  exact createDirAll_of_covers (covers_createDirAll _ _)

/-- The last step of a run whose configuration is settled. -/
theorem installStep_prepared_iff (hfails : NothingFails env) {domain selector text : Str} {config : Config}
    {trustDefaults : Option (Str × List Str)} (hsame : host.privateKey.isSome = host.publicKey.isSome)
    (hsettle : settleConfig env args.root domain selector trustDefaults (prepared env args host) =
      .ok ({ prepared env args host with config := some text }, config)) :
    installStep env args domain selector trustDefaults (isAlreadyConfigured host) (prepared env args host) =
        .ok host' ↔
      OwnersResolve host.users config ∧ host' = finished env args (isAlreadyConfigured host)
        (installed args (prepared env args host) config text) := by
  have hkeys : (prepared env args host).privateKey.isSome = true :=
    (@withKeys_isSome env { host with dirs := createDirAll args.root host.dirs } hsame).1
  rw [← @prepared_users env args host]
  refine installStep_ok_iff hfails hkeys ?_
  rw [prepared_dirs]
  exact hsettle

/-- The fourth and the fifth step where no configuration is found. -/
theorem afterTrust_fresh_iff (hfails : NothingFails env) {domain : Str} {lines : List Str}
    (hdomain : chosenDomain args answers = .ok (domain, lines)) (hconfig : host.config = none)
    (hprints : Prints env args answers host) (hsame : host.privateKey.isSome = host.publicKey.isSome) :
    (trustStep env answers lines (prepared env args host) >>= fun trustDefaults => installStep env args domain
        (chosenSelector env host) trustDefaults (isAlreadyConfigured host) (prepared env args host)) =
        .ok host' ↔
      ∃ config text, Aims env args answers host config text ∧ OwnersResolve host.users config ∧
        host' = finished env args (isAlreadyConfigured host)
          (installed args (prepared env args host) config text) := by
  have hprepared : (prepared env args host).config = none := prepared_config.trans hconfig
  have hselector : chosenSelector env host = "aimx".toList := by
    unfold chosenSelector
    rw [hconfig]
  have htrust : trustStep env answers lines (prepared env args host) =
      (orFail (prepared env args host)
        (chosenTrust env answers (verifyRecords env.missingRecords lines))).map some := by
    unfold trustStep
    rw [hprepared]
    rfl
  have hfresh := fun trust text' senders => @settleConfig_fresh env args.root domain "aimx".toList
    (prepared env args host) hprepared trust text' senders
  rw [htrust, hselector, bind_ok_iff]
  constructor
  · rintro ⟨trustDefaults, hchosen, hrest⟩
    cases htrusted : chosenTrust env answers (verifyRecords env.missingRecords lines) with
    | error e =>
        rw [htrusted] at hchosen
        cases hchosen
    | ok policy =>
        obtain ⟨trust, senders⟩ := policy
        rw [htrusted] at hchosen
        cases hchosen
        obtain ⟨text, hprint⟩ := hprints.fresh hconfig hdomain htrusted
        obtain ⟨howners, hhost⟩ :=
          (installStep_prepared_iff hfails hsame (hfresh trust text senders hprint)).mp hrest
        exact ⟨_, text, .fresh hconfig hdomain htrusted hprint, howners, hhost⟩
  · rintro ⟨config, text, haims, howners, hhost⟩
    cases haims with
    | kept hconfig' => cases hconfig.symm.trans hconfig'
    | @fresh domain' trust _ lines' senders hconfig' hdomain' htrusted hprint =>
        cases hdomain.symm.trans hdomain'
        refine ⟨some (trust, senders), ?_, (installStep_prepared_iff hfails hsame
          (hfresh trust text senders hprint)).mpr ⟨howners, hhost⟩⟩
        rw [htrusted]
        rfl

/-- The fourth and the fifth step where a configuration is kept. -/
theorem afterTrust_kept_iff (hfails : NothingFails env) {domain text : Str} {lines : List Str} {old : Config}
    {warnings : List LoadWarning} (hdomain : chosenDomain args answers = .ok (domain, lines))
    (hconfig : host.config = some text) (hload : Aimx.load (env.load host) text = .ok (old, warnings))
    (hprints : Prints env args answers host) (hsame : host.privateKey.isSome = host.publicKey.isSome) :
    (trustStep env answers lines (prepared env args host) >>= fun trustDefaults => installStep env args domain
        (chosenSelector env host) trustDefaults (isAlreadyConfigured host) (prepared env args host)) =
        .ok host' ↔
      ∃ config text, Aims env args answers host config text ∧ OwnersResolve host.users config ∧
        host' = finished env args (isAlreadyConfigured host)
          (installed args (prepared env args host) config text) := by
  have hprepared : (prepared env args host).config = some text := prepared_config.trans hconfig
  have hload' : Aimx.load (env.load (prepared env args host)) text = .ok (old, warnings) := by
    rw [← hload]
    unfold SetupEnv.load
    rw [prepared_users]
  have htrust : trustStep env answers lines (prepared env args host) = .ok none := by
    unfold trustStep
    rw [hprepared]
    rfl
  obtain ⟨text', htext, hsettle⟩ := @settleConfig_kept env args.root domain (chosenSelector env host) none
    (prepared env args host) old text warnings hprepared hload' (hprints.kept hconfig hload hdomain)
  rw [htrust, bind_ok_iff]
  constructor
  · rintro ⟨trustDefaults, hchosen, hrest⟩
    cases hchosen
    obtain ⟨howners, hhost⟩ := (installStep_prepared_iff hfails hsame hsettle).mp hrest
    exact ⟨_, text', .kept hconfig hload hdomain htext, howners, hhost⟩
  · rintro ⟨config, text'', haims, howners, hhost⟩
    cases haims with
    | fresh hconfig' => cases hconfig.symm.trans hconfig'
    | kept hconfig' hload'' hdomain' htext' =>
        cases hconfig.symm.trans hconfig'
        cases hload.symm.trans hload''
        cases hdomain.symm.trans hdomain'
        obtain rfl := htext'.unique htext
        exact ⟨none, rfl, (installStep_prepared_iff hfails hsame hsettle).mpr ⟨howners, hhost⟩⟩

/-- A run without a valid domain ends there. -/
theorem runSetup_ne_ok (hfails : NothingFails env) {e : Str}
    (hdomain : chosenDomain args answers = .error e) :
    runSetup env args answers host ≠ .ok host' := by
  intro h
  obtain ⟨status, hport, hother, hpreflight⟩ := hfails.port25 host
  unfold runSetup at h
  simp only [hfails.root, hport, hpreflight, hdomain, orFail, bind, Except.bind, Bool.not_true,
    Bool.false_eq_true, if_false] at h
  cases status with
  | otherProcess name => exact hother name rfl
  | free => cases h
  | aimx => cases h

/-- **Exactly when a run goes through, and what it leaves.** -/
theorem runSetup_ok_iff (hfails : NothingFails env) (hkey : KeyReadable env host)
    (hprints : Prints env args answers host)
    (hloads : ∀ text, host.config = some text → ∃ r, Aimx.load (env.load host) text = .ok r) :
    runSetup env args answers host = .ok host' ↔ host.privateKey.isSome = host.publicKey.isSome ∧
      ∃ config text, Aims env args answers host config text ∧ OwnersResolve host.users config ∧
        host' = finished env args (isAlreadyConfigured host)
          (installed args (prepared env args host) config text) := by
  cases hdomain : chosenDomain args answers with
  | error e =>
      refine iff_of_false (runSetup_ne_ok hfails hdomain) ?_
      rintro ⟨-, config, text, haims, -⟩
      cases haims with
      | fresh hconfig hdomain' => cases hdomain.symm.trans hdomain'
      | kept hconfig hload hdomain' => cases hdomain.symm.trans hdomain'
  | ok chosen =>
      obtain ⟨domain, lines⟩ := chosen
      rw [runSetup_ok_iff_afterKeys hfails hkey hdomain, afterKeys_eq,
        certified_eq (withKeys env _) (by rw [withKeys_cert])]
      refine and_congr_right fun hsame => ?_
      rcases Option.eq_none_or_eq_some host.config with hconfig | ⟨text, hconfig⟩
      · exact afterTrust_fresh_iff hfails hdomain hconfig hprints hsame
      · obtain ⟨⟨old, warnings⟩, hload⟩ := hloads text hconfig
        exact afterTrust_kept_iff hfails hdomain hconfig hload hprints hsame

end Run

end Setup
end Aimx
