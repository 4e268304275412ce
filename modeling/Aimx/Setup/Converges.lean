import Aimx.Daemon.Schedule
import Aimx.Setup.Reload

/-!
# What a setup leaves

A run should end well from every state in which an earlier one has stopped, leave an installation that works,
keep what was configured, and change nothing when it is made again.

* `Leaves`, `Converges` — the law;
* `Ready` — the condition, on the state of the host and on the arguments;
* `final`, `runSetup_final` — the host at the end, and that a second run leaves it as it is;
* `leaves_iff`, `converges_iff` — the hosts on which the law holds;
* `fresh_notConverges` — it does not on one on which nothing was ever installed.
-/

namespace Aimx
namespace Setup

open Text

/-! ## The law and the condition -/

/-- What a run must leave: a configuration that is loaded, the user of the catchall, the directories of every
mailbox with its owner and mode below the configuration's own data directory, both key files, and everything
that was configured before. -/
structure Leaves (env : SetupEnv) (host host' : SetupHost) : Prop where
  accepted : ∃ text config, host'.config = some text ∧ Loads env host' text config
  user : (host'.users catchallServiceUser).isSome = true
  dirs : ∀ text config, host'.config = some text → Loads env host' text config →
    ∀ e ∈ config.mailboxes.entries, ∀ path ∈ mailboxPaths config.dataDir e.1,
      ∃ ids dir, ownerIds host'.users e.2.owner = .ok ids ∧ host'.dirs (components path) = some dir ∧
        dir.uid = ids.1 ∧ dir.mode = 0o700
  keys : host'.privateKey.isSome = true ∧ host'.publicKey.isSome = true
  preserved : ∀ oldText old, host.config = some oldText → Loads env host oldText old →
    ∀ text config, host'.config = some text → Loads env host' text config → Preserves old config

/-- The law: the run ends well, leaves all this, and changes nothing when it is made again. -/
def Converges (env : SetupEnv) (args : SetupArgs) (answers : Answers) (host : SetupHost) : Prop :=
  ∃ host', runSetup env args answers host = .ok host' ∧ Leaves env host host' ∧
    runSetup env args answers host' = .ok host'

/-- The configuration has a catchall. -/
def HasCatchall (config : Config) : Prop := ∃ e ∈ config.mailboxes.entries, e.2.isCatchall config = true

instance HasCatchall.decidable (config : Config) : Decidable (HasCatchall config) :=
  inferInstanceAs (Decidable (∃ e ∈ config.mailboxes.entries, e.2.isCatchall config = true))

/-- The user that runs the catchall, found or made. -/
def catchallUser (env : SetupEnv) (host : SetupHost) : ResolvedUser :=
  (host.users catchallServiceUser).getD env.newUser

/-- The directories that a run gives to somebody: those of the mailboxes below the data directory of the
command, and the home of the user of the catchall. -/
def givenDirs (env : SetupEnv) (args : SetupArgs) (host : SetupHost) (config : Config) : List (Str × Dir) :=
  mailboxDirs host.users args.root config ++
    if HasCatchall config then
      [(catchallHomeDir, ⟨(catchallUser env host).uid, (catchallUser env host).gid, 0o700⟩)]
    else []

/-- The condition, on the host and on the configuration that the run aims at. -/
structure Ready (env : SetupEnv) (args : SetupArgs) (host : SetupHost) (config : Config) (text : Str) :
    Prop where
  reloadable : Reloadable env host config text
  owners : OwnersResolve host.users config
  user : (host.users catchallServiceUser).isSome = true ∨ HasCatchall config
  keys : host.privateKey.isSome = host.publicKey.isSome
  dirs : ∀ e ∈ config.mailboxes.entries, ∀ path ∈ mailboxPaths config.dataDir e.1,
    ∃ ids dir, ownerIds host.users e.2.owner = .ok ids ∧
      (lastOwned (givenDirs env args host config) (components path)).or (host.dirs (components path)) =
        some dir ∧
      dir.uid = ids.1 ∧ dir.mode = 0o700

section Given

variable {env : SetupEnv} {args : SetupArgs} {host : SetupHost} {config : Config}

theorem mem_mailboxDirs {users : Str → Option ResolvedUser} {dataDir : Str} {m : Str × Dir} :
    m ∈ mailboxDirs users dataDir config ↔ ∃ e ∈ config.mailboxes.entries, ∃ ids,
      ownerIds users e.2.owner = .ok ids ∧ ∃ path ∈ mailboxPaths dataDir e.1,
        m = (path, ⟨ids.1, ids.2, 0o700⟩) := by
  unfold mailboxDirs
  rw [List.mem_flatMap]
  refine exists_congr fun e => and_congr_right fun _ => ?_
  cases hids : ownerIds users e.2.owner with
  | error fault => exact iff_of_false List.not_mem_nil (fun ⟨ids, h, _⟩ => by cases h)
  | ok ids =>
      simp only [List.mem_map, Except.ok.injEq, exists_eq_left', eq_comm]

/-- The directories are right when the command has the data directory of the configuration, and no two
mailboxes of different owners and not the home of the catchall's user share one. -/
theorem Ready.dirs_of_root (hroot : config.dataDir = args.root) (howners : OwnersResolve host.users config)
    (hapart : ∀ e ∈ config.mailboxes.entries, ∀ e' ∈ config.mailboxes.entries,
      ∀ path ∈ mailboxPaths config.dataDir e.1, ∀ path' ∈ mailboxPaths config.dataDir e'.1,
        components path' = components path → e'.2.owner = e.2.owner)
    (hhome : ∀ e ∈ config.mailboxes.entries, ∀ path ∈ mailboxPaths config.dataDir e.1,
      components catchallHomeDir ≠ components path) :
    ∀ e ∈ config.mailboxes.entries, ∀ path ∈ mailboxPaths config.dataDir e.1,
      ∃ ids dir, ownerIds host.users e.2.owner = .ok ids ∧
        (lastOwned (givenDirs env args host config) (components path)).or (host.dirs (components path)) =
          some dir ∧
        dir.uid = ids.1 ∧ dir.mode = 0o700 := by
  intro e he path hpath
  obtain ⟨ids, hids⟩ := howners e he
  have hmem : (path, Dir.mk ids.1 ids.2 0o700) ∈ givenDirs env args host config := by
    refine List.mem_append_left _ (mem_mailboxDirs.mpr ⟨e, he, ids, hids, path, ?_, rfl⟩)
    rw [← hroot]
    exact hpath
  obtain ⟨dir, hdir⟩ := Option.isSome_iff_exists.mp (lastOwned_isSome hmem)
  refine ⟨ids, dir, hids, ?_, ?_⟩
  · rw [hdir, Option.some_or]
  · obtain ⟨m, hgiven, hcomponents, rfl⟩ := exists_of_lastOwned hdir
    rcases List.mem_append.mp hgiven with hmailbox | hcatchall
    · obtain ⟨e', he', ids', hids', path', hpath', rfl⟩ := mem_mailboxDirs.mp hmailbox
      rw [← hroot] at hpath'
      rw [hapart e he e' he' path hpath path' hpath' hcomponents] at hids'
      cases hids.symm.trans hids'
      exact ⟨rfl, rfl⟩
    · split at hcatchall
      · obtain rfl := List.mem_singleton.mp hcatchall
        exact absurd hcomponents (hhome e he path hpath)
      · cases hcatchall

end Given

/-! ## The host at the end -/

section End

variable {env : SetupEnv} {args : SetupArgs} {answers : Answers} {host host' : SetupHost}
  {config old : Config} {text : Str} {alreadyConfigured : Bool}

theorem configHasCatchall_eq (hconfig : host.config = some text) (h : Loads env host text config) :
    configHasCatchall env host = decide (HasCatchall config) := by
  obtain ⟨warnings, hload⟩ := h
  unfold configHasCatchall
  rw [hconfig]
  dsimp only
  rw [hload]
  dsimp only
  rw [Bool.eq_iff_iff, decide_eq_true_eq, List.any_eq_true]
  exact Iff.rfl

/-- The host at the end of a run, when the configuration is loaded again. -/
theorem finished_eq (h : Loads env host text config) :
    finished env args alreadyConfigured (installed args host config text) =
      { host with
        users := if HasCatchall config then
          Function.update host.users catchallServiceUser (some (catchallUser env host)) else host.users
        config := some text
        dirs := makeAll (givenDirs env args host config) (createDirAll args.root host.dirs)
        service := if alreadyConfigured then host.service else some args.root
        running := if alreadyConfigured then host.running else true
        readmes := Function.update host.readmes (components args.root) (some env.readme) } := by
  have hcatchall := @configHasCatchall_eq env (installed args host config text) config text rfl h.congr
  have hpopulated : (if configHasCatchall env (installed args host config text) then
        ensureCatchallUser env (installed args host config text) else installed args host config text) =
      { host with
        users := if HasCatchall config then
          Function.update host.users catchallServiceUser (some (catchallUser env host)) else host.users
        config := some text
        dirs := makeAll (givenDirs env args host config) (createDirAll args.root host.dirs) } := by
    rw [hcatchall]
    unfold givenDirs
    by_cases hhas : HasCatchall config
    · rw [decide_eq_true hhas, if_pos rfl, if_pos hhas, if_pos hhas, makeAll_append]
      rfl
    · rw [decide_eq_false hhas, if_neg Bool.false_ne_true, if_neg hhas, if_neg hhas, List.append_nil]
      rfl
  unfold finished
  rw [hpopulated]
  cases alreadyConfigured <;> rfl

theorem finished_config : (finished env args alreadyConfigured host).config = host.config := by
  unfold finished
  dsimp only
  split <;> split <;> rfl

theorem finished_keys : (finished env args alreadyConfigured host).privateKey = host.privateKey ∧
    (finished env args alreadyConfigured host).publicKey = host.publicKey := by
  unfold finished
  dsimp only
  split <;> split <;> exact ⟨rfl, rfl⟩

/-- Making the user of the catchall does not change who an owner is. -/
theorem ownerIds_update {users : Str → Option ResolvedUser} {owner : Str} {ids : UInt32 × UInt32}
    {user : ResolvedUser} (huser : ∀ u, users catchallServiceUser = some u → user = u)
    (h : ownerIds users owner = .ok ids) :
    ownerIds (Function.update users catchallServiceUser (some user)) owner = .ok ids := by
  by_cases howner : owner = catchallServiceUser
  · subst howner
    cases hlookup : users catchallServiceUser with
    | none =>
        have hmissing : ownerIds users catchallServiceUser = .error (.orphanUser catchallServiceUser) := by
          simp only [ownerIds, validateRunAs, hlookup]
          rfl
        cases hmissing.symm.trans h
    | some u =>
        have hsame : Function.update users catchallServiceUser (some user) = users := by
          rw [huser u hlookup, ← hlookup]
          exact Function.update_eq_self _ _
        rw [hsame]
        exact h
  · have hsame : Function.update users catchallServiceUser (some user) owner = users owner :=
      Function.update_of_ne howner _ _
    unfold ownerIds validateRunAs at h ⊢
    rw [hsame]
    exact h

/-- The users at the end. -/
def finalUsers (env : SetupEnv) (host : SetupHost) (config : Config) : Str → Option ResolvedUser :=
  if HasCatchall config then
    Function.update host.users catchallServiceUser (some (catchallUser env host))
  else host.users

theorem ownerIds_finalUsers {owner : Str} {ids : UInt32 × UInt32} (h : ownerIds host.users owner = .ok ids) :
    ownerIds (finalUsers env host config) owner = .ok ids := by
  unfold finalUsers
  split
  next =>
      refine ownerIds_update (fun u hu => ?_) h
      unfold catchallUser
      rw [hu, Option.getD_some]
  next => exact h

/-- The directories that are given away when the run is made again. -/
theorem givenDirs_again (howners : OwnersResolve host.users config)
    (husers : host'.users = finalUsers env host config) :
    givenDirs env args host' config = givenDirs env args host config := by
  have hdirs : mailboxDirs host'.users args.root config = mailboxDirs host.users args.root config := by
    unfold mailboxDirs
    refine List.flatMap_congr fun e he => ?_
    obtain ⟨ids, hids⟩ := howners e he
    rw [husers, hids, ownerIds_finalUsers hids]
  unfold givenDirs
  rw [hdirs]
  by_cases hhas : HasCatchall config
  · have huser : catchallUser env host' = catchallUser env host := by
      show (host'.users catchallServiceUser).getD env.newUser = _
      rw [husers, finalUsers, if_pos hhas, Function.update_self, Option.getD_some]
    rw [huser]
  · rw [if_neg hhas, if_neg hhas]

/-- The host that a run leaves. -/
def final (env : SetupEnv) (args : SetupArgs) (host : SetupHost) (config : Config) (text : Str) : SetupHost :=
  finished env args (isAlreadyConfigured host) (installed args (prepared env args host) config text)

theorem final_eq (h : Loads env host text config) :
    final env args host config text =
      { prepared env args host with
        users := finalUsers env host config
        config := some text
        dirs := makeAll (givenDirs env args host config) (createDirAll args.root host.dirs)
        service := if isAlreadyConfigured host then (prepared env args host).service else some args.root
        running := if isAlreadyConfigured host then (prepared env args host).running else true
        readmes := Function.update (prepared env args host).readmes (components args.root)
          (some env.readme) } := by
  have hload : Loads env (prepared env args host) text config := h.congr
  have hgiven : givenDirs env args (prepared env args host) config = givenDirs env args host config := by
    unfold givenDirs catchallUser
    rw [prepared_users]
  have hdirs : (prepared env args host).dirs = createDirAll args.root host.dirs := withKeys_dirs
  unfold final finalUsers catchallUser
  rw [finished_eq hload, hgiven, prepared_dirs, hdirs]
  unfold catchallUser
  rw [prepared_users]

theorem final_keys (hsame : host.privateKey.isSome = host.publicKey.isSome) :
    (final env args host config text).privateKey.isSome = true ∧
      (final env args host config text).publicKey.isSome = true := by
  unfold final
  rw [finished_keys.1, finished_keys.2]
  exact @withKeys_isSome env { host with dirs := createDirAll args.root host.dirs } hsame

/-- A run leaves a configured host. -/
theorem final_alreadyConfigured (hsame : host.privateKey.isSome = host.publicKey.isSome)
    (h : Loads env host text config) :
    isAlreadyConfigured (final env args host config text) = true := by
  have hkey := (@final_keys env args host config text hsame).1
  unfold isAlreadyConfigured
  rw [hkey, Bool.and_true, Bool.and_eq_true]
  rw [final_eq h]
  refine ⟨?_, rfl⟩
  show (if isAlreadyConfigured host then (prepared env args host).running else true) = true
  split
  next halready =>
      unfold isAlreadyConfigured at halready
      rw [Bool.and_eq_true, Bool.and_eq_true] at halready
      show (withKeys env _).running = true
      rw [withKeys_running]
      exact halready.1.1
  next => rfl

theorem prepared_of_isSome (hkey : host.privateKey.isSome = true) :
    prepared env args host = { host with dirs := createDirAll args.root host.dirs, cert := true } := by
  have hsame := @withKeys_of_isSome env { host with dirs := createDirAll args.root host.dirs } hkey
  unfold prepared
  rw [hsame]

/-- What a second run makes of the host that the first one has left. -/
theorem final_again (hsame : host.privateKey.isSome = host.publicKey.isSome)
    (h : Loads env host text config) (howners : OwnersResolve host.users config) :
    final env args (final env args host config text) config text = final env args host config text := by
  have hkey := (@final_keys env args host config text hsame).1
  have halready := @final_alreadyConfigured env args host config text hsame h
  have hload : Loads env (final env args host config text) text config := h.congr
  have hfinal := @final_eq env args host config text h
  have husers : (final env args host config text).users = finalUsers env host config := by rw [hfinal]
  have hconfig : (final env args host config text).config = some text := by rw [hfinal]
  have hcert : (final env args host config text).cert = true := by
    rw [hfinal]
    rfl
  have hreadmes : Function.update (final env args host config text).readmes (components args.root)
      (some env.readme) = (final env args host config text).readmes := by
    rw [hfinal]
    exact Function.update_idem _ _ _
  have hdirs : makeAll (givenDirs env args (final env args host config text) config)
      (createDirAll args.root (final env args host config text).dirs) =
        (final env args host config text).dirs := by
    have heq : (final env args host config text).dirs =
        makeAll (givenDirs env args host config) (createDirAll args.root host.dirs) := by rw [hfinal]
    have hcovers := (covers_createDirAll args.root host.dirs).makeAll (givenDirs env args host config)
    rw [givenDirs_again howners husers, heq, createDirAll_of_covers hcovers, makeAll_makeAll]
  have husers' : finalUsers env (final env args host config text) config =
      (final env args host config text).users := by
    unfold finalUsers catchallUser
    rw [husers]
    unfold finalUsers
    by_cases hhas : HasCatchall config
    · rw [if_pos hhas, if_pos hhas, Function.update_self, Option.getD_some, Function.update_idem]
    · rw [if_neg hhas, if_neg hhas]
  rw [final_eq hload, hdirs, husers', prepared_of_isSome hkey, halready, if_pos rfl, if_pos rfl, hreadmes]
  generalize final env args host config text = again at hconfig hcert
  cases again
  cases hconfig
  cases hcert
  rfl

theorem freshConfig_mem {dataDir domain selector trust : Str} {senders : List Str} :
    "catchall".toList ∈ (freshConfig dataDir domain selector trust senders).mailboxes :=
  (AList.mem_insert _).mpr (.inl rfl)

/-- The configuration that a run aims at is for the domain of the run, and has the stanza of the catchall. -/
theorem Aims.settled (haims : Aims env args answers host config text) :
    ∃ domain lines, chosenDomain args answers = .ok (domain, lines) ∧ config.domain = domain ∧
      "catchall".toList ∈ config.mailboxes := by
  cases haims with
  | @fresh domain _ _ lines _ _ hdomain => exact ⟨domain, lines, hdomain, rfl, freshConfig_mem⟩
  | @kept domain _ _ lines _ _ _ _ hdomain =>
      exact ⟨domain, lines, hdomain, settled_domain, catchall_mem_settled⟩

/-- **The second run goes through, and changes nothing.** -/
theorem runSetup_final (hfails : NothingFails env) (hkey : KeyReadable env host)
    (hsame : host.privateKey.isSome = host.publicKey.isSome) (haims : Aims env args answers host config text)
    (h : Loads env host text config) (howners : OwnersResolve host.users config) :
    runSetup env args answers (final env args host config text) =
      .ok (final env args host config text) := by
  obtain ⟨domain, lines, hdomain, hconfigDomain, hmem⟩ := haims.settled
  have hload : ∃ warnings,
      Aimx.load (env.load (final env args host config text)) text = .ok (config, warnings) := h.congr
  obtain ⟨warnings, hload⟩ := hload
  have hfinal := @final_eq env args host config text h
  have hconfig : (final env args host config text).config = some text := by rw [hfinal]
  have hkeys := @final_keys env args host config text hsame
  have hsettled : Setup.settled domain config = config := settled_of_mem hconfigDomain hmem
  have hkey' : KeyReadable env (final env args host config text) := by
    intro pem hpem
    unfold final at hpem
    rw [finished_keys.2] at hpem
    change (withKeys env { host with dirs := createDirAll args.root host.dirs }).publicKey = some pem at hpem
    unfold withKeys at hpem
    split at hpem
    · cases hpem
      exact hfails.key
    · exact hkey pem hpem
  have hprints : Prints env args answers (final env args host config text) := by
    refine ⟨fun hnone => ?_, fun hsome hload' hdomain' => ?_⟩
    · cases hconfig.symm.trans hnone
    · cases hconfig.symm.trans hsome
      cases hload.symm.trans hload'
      cases hdomain.symm.trans hdomain'
      exact ⟨fun hne => absurd hconfigDomain hne, fun hne => absurd hsettled hne⟩
  have hloads : ∀ text', (final env args host config text).config = some text' →
      ∃ r, Aimx.load (env.load (final env args host config text)) text' = .ok r := by
    intro text' htext'
    cases hconfig.symm.trans htext'
    exact ⟨_, hload⟩
  have haims' : Aims env args answers (final env args host config text) config text := by
    have hkept := Aims.kept hconfig hload hdomain (.inl ⟨hsettled, rfl⟩)
    rwa [hsettled] at hkept
  have howners' : OwnersResolve (final env args host config text).users config := by
    intro e he
    obtain ⟨ids, hids⟩ := howners e he
    refine ⟨ids, ?_⟩
    rw [hfinal]
    exact ownerIds_finalUsers hids
  refine (runSetup_ok_iff hfails hkey' hprints hloads).mpr ⟨hkeys.1.trans hkeys.2.symm, config, text, haims',
    howners', ?_⟩
  exact (final_again hsame h howners).symm

/-- What was configured is still there. -/
theorem Aims.preserved (haims : Aims env args answers host config text) {oldText : Str}
    (hconfig : host.config = some oldText) (hold : Loads env host oldText old) : Preserves old config := by
  cases haims with
  | fresh hnone => cases hconfig.symm.trans hnone
  | kept hsome hload =>
      cases hconfig.symm.trans hsome
      obtain rfl := hold.unique (⟨_, hload⟩ : Loads env host _ _)
      exact preserves_settled

theorem finalUsers_isSome : (finalUsers env host config catchallServiceUser).isSome = true ↔
    (host.users catchallServiceUser).isSome = true ∨ HasCatchall config := by
  unfold finalUsers
  by_cases hhas : HasCatchall config
  · rw [if_pos hhas, Function.update_self]
    exact iff_of_true rfl (.inr hhas)
  · rw [if_neg hhas, or_iff_left hhas]

/-- **What the run leaves is what it should leave exactly if the host was ready for it.** -/
theorem leaves_iff (hfails : NothingFails env) (haims : Aims env args answers host config text)
    (hsame : host.privateKey.isSome = host.publicKey.isSome) (howners : OwnersResolve host.users config) :
    Leaves env host (final env args host config text) ↔ Ready env args host config text := by
  have hconfig : (final env args host config text).config = some text := finished_config
  have hmode : ∀ {ids : UInt32 × UInt32} {dir : Dir}, dir.uid = ids.1 → dir.mode = 0o700 → dir ≠ madeDir := by
    rintro ids dir - hmode rfl
    cases hmode
  have howner : ∀ {e ids ids'}, e ∈ config.mailboxes.entries → ownerIds host.users e.2.owner = .ok ids →
      ownerIds (finalUsers env host config) e.2.owner = .ok ids' → ids' = ids := by
    intro e ids ids' _ hids hids'
    exact Except.ok.inj (hids'.symm.trans (ownerIds_finalUsers hids))
  constructor
  · intro hleaves
    obtain ⟨text', config', htext', hload'⟩ := hleaves.accepted
    cases hconfig.symm.trans htext'
    obtain rfl := aims_unique hfails haims hload'
    have hload : Loads env host text config' := hload'.congr
    have hfinal := @final_eq env args host config' text hload
    refine
      { reloadable := (loads_iff hfails haims).mp hload
        owners := howners
        user := ?_
        keys := hsame
        dirs := fun e he path hpath => ?_ }
    · have huser := hleaves.user
      rw [hfinal] at huser
      exact finalUsers_isSome.mp huser
    · obtain ⟨ids, dir, hids, hdir, huid, hmode'⟩ := hleaves.dirs text config' hconfig hload' e he path hpath
      obtain ⟨ids', hids'⟩ := howners e he
      rw [hfinal] at hids hdir
      obtain rfl := howner he hids' hids
      exact ⟨ids, dir, hids', (makeAll_createDirAll_iff (hmode huid hmode')).mp hdir, huid, hmode'⟩
  · intro hready
    have hload := (loads_iff hfails haims).mpr hready.reloadable
    have hload' : Loads env (final env args host config text) text config := hload.congr
    have hfinal := @final_eq env args host config text hload
    refine
      { accepted := ⟨text, config, hconfig, hload'⟩
        user := ?_
        dirs := fun text' config' htext' hloads e he path hpath => ?_
        keys := final_keys hsame
        preserved := fun oldText old hold hloads text' config' htext' hloads' => ?_ }
    · rw [hfinal]
      exact finalUsers_isSome.mpr hready.user
    · cases hconfig.symm.trans htext'
      obtain rfl := hloads.unique hload'
      obtain ⟨ids, dir, hids, hdir, huid, hmode'⟩ := hready.dirs e he path hpath
      rw [hfinal]
      exact ⟨ids, dir, ownerIds_finalUsers hids,
        (makeAll_createDirAll_iff (hmode huid hmode')).mpr hdir, huid, hmode'⟩
    · cases hconfig.symm.trans htext'
      obtain rfl := hloads'.unique hload'
      exact haims.preserved hold hloads

/-- **The hosts on which a run does what it should.** -/
theorem converges_iff (env : SetupEnv) (args : SetupArgs) (answers : Answers) (host : SetupHost)
    (hfails : NothingFails env) (hkey : KeyReadable env host) (hprints : Prints env args answers host)
    (hloads : ∀ text, host.config = some text → ∃ r, Aimx.load (env.load host) text = .ok r) :
    Converges env args answers host ↔
      ∃ config text, Aims env args answers host config text ∧ Ready env args host config text := by
  have hrun := fun host' => @runSetup_ok_iff env args answers host host' hfails hkey hprints hloads
  constructor
  · rintro ⟨host', hfirst, hleaves, -⟩
    obtain ⟨hsame, config, text, haims, howners, rfl⟩ := (hrun host').mp hfirst
    exact ⟨config, text, haims, (leaves_iff hfails haims hsame howners).mp hleaves⟩
  · rintro ⟨config, text, haims, hready⟩
    have hload := (loads_iff hfails haims).mpr hready.reloadable
    refine ⟨final env args host config text, ?_, ?_, ?_⟩
    · exact (hrun _).mpr ⟨hready.keys, config, text, haims, hready.owners, rfl⟩
    · exact (leaves_iff hfails haims hready.keys hready.owners).mpr hready
    · exact runSetup_final hfails hkey hready.keys haims hload hready.owners

end End

/-! ## A fresh host -/

/-- The configuration of a fresh installation, without questions. -/
def freshInstallation : Config :=
  freshConfig "/var/lib/aimx".toList "example.org".toList "aimx".toList "none".toList []

/-- Surroundings in which nothing fails and nothing is asked. -/
def sampleSetup : SetupEnv where
  print := (Daemon.sampleServer [freshInstallation]).handlers.print
  parseToml := (Daemon.sampleServer [freshInstallation]).parseToml
  tomlError := fun _ => "missing field".toList
  sha256 := fun _ => []
  isRoot := true
  port25 := fun host => .ok (if host.running then .aimx else .free)
  preflight := fun _ => .ok ()
  serverIpv4 := .ok (some "192.0.2.1".toList)
  newKeypair := ([1], [2])
  publicKeySpkiBase64 := fun _ => .ok "Ag==".toList
  missingRecords := 0
  noninteractive := true
  configPath := "/etc/aimx/config.toml".toList
  newUser := ⟨catchallServiceUser, 999, 999⟩
  readme := "aimx".toList
  serviceReady := true

theorem sampleSetup_nothingFails : NothingFails sampleSetup where
  root := rfl
  port25 := fun host => by
    refine ⟨_, rfl, fun name h => ?_, rfl⟩
    cases hrunning : host.running <;> rw [hrunning] at h <;> cases h
  ipv4 := ⟨_, rfl⟩
  readsBack := Daemon.sampleServer_roundTrips (by decide +kernel)
  key := ⟨_, rfl⟩
  service := rfl

/-- `aimx setup --domain example.org`. -/
def sampleArgs : SetupArgs := ⟨some "example.org".toList, none⟩

/-- A host with no trace of an installation, and with some users. -/
def freshHost (users : Str → Option ResolvedUser) : SetupHost where
  users := users
  config := none
  dirs := fun _ => none
  privateKey := none
  publicKey := none
  cert := false
  service := none
  running := false
  readmes := fun _ => none

/-- Only the catchall's user. -/
def onlyCatchall (name : Str) : Option ResolvedUser :=
  if name = catchallServiceUser then some ⟨catchallServiceUser, 999, 999⟩ else none

theorem sampleSetup_print :
    sampleSetup.print freshInstallation = .ok (Daemon.sampleFile freshInstallation) := by
  rfl

theorem sampleSetup_prints (users : Str → Option ResolvedUser) :
    Prints sampleSetup sampleArgs ⟨[], []⟩ (freshHost users) where
  fresh := fun _ hdomain htrust => by
    cases hdomain
    cases htrust
    exact ⟨_, sampleSetup_print⟩
  kept := fun hconfig => by cases hconfig

/-- With the user, a run does everything. -/
theorem converges_onlyCatchall :
    NothingFails sampleSetup ∧ Converges sampleSetup sampleArgs ⟨[], []⟩ (freshHost onlyCatchall) := by
  refine ⟨sampleSetup_nothingFails, ?_⟩
  refine (converges_iff sampleSetup sampleArgs ⟨[], []⟩ (freshHost onlyCatchall) sampleSetup_nothingFails
    (fun pem hpem => by cases hpem) (sampleSetup_prints _) (fun text htext => by cases htext)).mpr ?_
  have hentries : freshInstallation.mailboxes.entries =
      [⟨"catchall".toList, catchallMailbox "example.org".toList⟩] := rfl
  have howner : ownerIds onlyCatchall reservedRunAsCatchall = .ok (999, 999) := by rfl
  have howners : OwnersResolve onlyCatchall freshInstallation := by
    intro e he
    rw [hentries] at he
    obtain rfl := List.mem_singleton.mp he
    exact ⟨_, howner⟩
  refine ⟨freshInstallation, Daemon.sampleFile freshInstallation, .fresh rfl rfl rfl sampleSetup_print, ?_⟩
  refine
    { reloadable := ⟨fun _ _ hold => (by cases hold), fun _ => by decide +kernel⟩
      owners := howners
      user := .inl rfl
      keys := rfl
      dirs := Ready.dirs_of_root rfl howners ?_ ?_ }
  · intro e he e' he' _ _ _ _ _
    rw [hentries] at he he'
    obtain rfl := List.mem_singleton.mp he
    obtain rfl := List.mem_singleton.mp he'
    rfl
  · intro e he
    rw [hentries] at he
    obtain rfl := List.mem_singleton.mp he
    decide +kernel

/-- **Without it, a run stops at the directories of the catchall, before the user is made.** -/
theorem fresh_notConverges :
    NothingFails sampleSetup ∧ KeyReadable sampleSetup (freshHost fun _ => none) ∧
      Prints sampleSetup sampleArgs ⟨[], []⟩ (freshHost fun _ => none) ∧
      ¬ Converges sampleSetup sampleArgs ⟨[], []⟩ (freshHost fun _ => none) := by
  refine ⟨sampleSetup_nothingFails, fun pem hpem => (by cases hpem), sampleSetup_prints _, ?_⟩
  rintro ⟨host', hrun, -⟩
  have hfails : (runSetup sampleSetup sampleArgs ⟨[], []⟩ (freshHost fun _ => none)).toOption.isSome =
      false := by
    decide +kernel
  rw [hrun] at hfails
  cases hfails

end Setup
end Aimx
