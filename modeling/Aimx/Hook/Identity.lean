import Aimx.Hook.Spawn

/-!
# Who a hook runs as

The same hook is started by `systemd-run` on one host and by a forked child that switches its ids on
another.  What `systemd-run` does with the names it is given is a parameter, `SystemdRun`, with what its
manual says of them.

* `Credentials` — the user, the group and the supplementary groups of a process;
* `preExec` — the calls of the forked child, whatever they return;
* `runIdentity` — who the program of a hook runs as, on either path;
* `RunsAlike` — the owners for which both paths come to the same;
* `sameUser_iff` — for all others they do not.
-/

namespace Aimx
namespace Sandbox

open Text

/-! ## Processes -/

/-- Who a process is. -/
structure Credentials where
  uid : UInt32
  gid : UInt32
  groups : List UInt32
  deriving DecidableEq

/-- A process of a user and a group that is in no other group. -/
structure Credentials.Is (c : Credentials) (uid gid : UInt32) : Prop where
  user : c.uid = uid
  group : c.gid = gid
  noOther : ∀ g ∈ c.groups, g = gid

/-- The group database: the group of a name, and the supplementary groups that a process of a user and a
group is given from it. -/
structure GroupDb where
  lookupGroup : Str → Option UInt32
  supplementary : Str → UInt32 → List UInt32

/-! ## The forked child -/

/-- What a system call returns. -/
inductive CallResult
  | ok
  | eperm
  | other
  deriving DecidableEq

/-- What the calls of the forked child return. -/
structure PreExec where
  setsid : CallResult
  setgroups : CallResult
  setgid : CallResult
  setuid : CallResult

/-- A call whose `EPERM` is ignored; any other error ends the child. -/
def attempt (result : CallResult) (changed unchanged : Credentials) : Option Credentials :=
  match result with
  | .ok => some changed
  | .eperm => some unchanged
  | .other => none

/-- The two `pre_exec` closures of `spawn_via_fork_setuid`. -/
def preExec (calls : PreExec) (daemon : Credentials) (user : Option (UInt32 × UInt32)) :
    Option Credentials :=
  if calls.setsid ≠ .ok then none
  else
    match user with
    | none => some daemon
    | some (uid, gid) => do
        let c ← attempt calls.setgroups { daemon with groups := [] } daemon
        let c ← attempt calls.setgid { c with gid := gid } c
        attempt calls.setuid { c with uid := uid } c

/-! ## The service manager -/

/-- The value of an option in front of the command. -/
def optionValue (option : Str) (args : List Str) : Option Str :=
  (args.takeWhile (· ≠ "--".toList)).findSome? (stripPrefix option)

/-- A process of a named user and a named group, with the groups of the user; none where one of the names
is unknown. -/
def unitCredentials (host : Host) (db : GroupDb) (user group : Str) : Option Credentials :=
  match host.lookupUser user, db.lookupGroup group with
  | some (uid, _), some gid => some ⟨uid, gid, db.supplementary user gid⟩
  | _, _ => none

/-- `systemd-run`: who the command of its arguments runs as, if it is run. -/
structure SystemdRun (host : Host) (db : GroupDb) where
  start : List Str → Option Credentials
  /-- Without a user the command runs as root. -/
  asRoot : ∀ args, optionValue "--uid=".toList args = none → optionValue "--gid=".toList args = none →
    start args = some ⟨0, 0, []⟩
  /-- The names of a user and a group are looked up. -/
  asUser : ∀ args user group, optionValue "--uid=".toList args = some user →
    optionValue "--gid=".toList args = some group → isValidSystemUsername user = true →
    isValidSystemUsername group = true → start args = unitCredentials host db user group

/-! ## The two paths -/

/-- Who the program of a hook runs as, where it is run. -/
def runIdentity {host : Host} {db : GroupDb} (manager : SystemdRun host db) (daemon : Credentials)
    (calls : PreExec) : Except SandboxError ChildCommand → Option Credentials
  | .error _ => none
  | .ok (.setuid _ _ user) => preExec calls daemon user
  | .ok (.systemdRun args) => manager.start args

/-- The user database behind `lookup_user`, as the configuration reads it. -/
def Host.resolveUser (host : Host) (name : Str) : Option ResolvedUser :=
  (host.lookupUser name).map fun ids => ⟨name, ids.1, ids.2⟩

/-- Both paths refuse, or both run as the owner with nothing else; and nobody but an owner who is root runs
as root. -/
structure SameUser (ids : Except ConfigError (UInt32 × UInt32)) (systemd fork : Option Credentials) :
    Prop where
  agree : systemd = none ∧ fork = none ∨
    ∃ uid gid, ids = .ok (uid, gid) ∧ (∃ c, systemd = some c ∧ c.Is uid gid) ∧
      ∃ c, fork = some c ∧ c.Is uid gid
  neverRoot : (∀ gid, ids ≠ .ok (0, gid)) → ∀ c, systemd = some c ∨ fork = some c → c.uid ≠ 0

/-- Some call of the child ends it. -/
def PreExec.Refuses (calls : PreExec) : Prop :=
  calls.setsid ≠ .ok ∨ calls.setgroups = .other ∨ calls.setgid = .other ∨ calls.setuid = .other

/-- No call ends the child, and those that are not permitted were not needed. -/
def PreExec.Switches (calls : PreExec) (daemon : Credentials) (uid gid : UInt32) : Prop :=
  calls.setsid = .ok ∧
    (calls.setgroups = .ok ∨ calls.setgroups = .eperm ∧ ∀ g ∈ daemon.groups, g = gid) ∧
    (calls.setgid = .ok ∨ calls.setgid = .eperm ∧ daemon.gid = gid) ∧
    (calls.setuid = .ok ∨ calls.setuid = .eperm ∧ daemon.uid = uid)

/-- The owners that both paths treat alike. -/
def RunsAlike (host : Host) (db : GroupDb) (daemon : Credentials) (calls : PreExec) (owner : Str) : Prop :=
  if owner = "root".toList then calls.setsid = .ok ∧ daemon.Is 0 0
  else
    ∀ uid gid, host.lookupUser owner = some (uid, gid) →
      db.lookupGroup owner = none ∧ calls.Refuses ∨
        db.lookupGroup owner = some gid ∧ (∀ g ∈ db.supplementary owner gid, g = gid) ∧
          calls.Switches daemon uid gid

/-! ## The names on the command line -/

/-- An option that begins with another letter. -/
theorem stripPrefix_option {c d : Char} {pre o : Str} (h : c ≠ d) :
    stripPrefix ('-' :: '-' :: c :: pre) ('-' :: '-' :: d :: o) = none := by
  cases hstrip : stripPrefix ('-' :: '-' :: c :: pre) ('-' :: '-' :: d :: o) with
  | none => rfl
  | some rest =>
      have hcons := stripPrefix_eq_some_iff.mp hstrip
      injection hcons with _ hcons
      injection hcons with _ hcons
      injection hcons with hdc _
      exact absurd hdc.symm h

/-- The options around the user and the group. -/
theorem findSome?_systemdOptions {c : Char} {pre runAs : Str} {timeout : UInt32} {envs : List (Str × Str)}
    (hc : c ∉ "qpwcs".toList) :
    (systemdOptions runAs timeout envs).findSome? (stripPrefix ('-' :: '-' :: c :: pre)) =
      (if runAs = "root".toList then []
        else ["--uid=".toList ++ runAs, "--gid=".toList ++ runAs]).findSome?
          (stripPrefix ('-' :: '-' :: c :: pre)) := by
  have hskip : ∀ l : List Str, (∀ o ∈ l, ∃ d r, o = '-' :: '-' :: d :: r ∧ d ∈ "qpwcs".toList) →
      l.findSome? (stripPrefix ('-' :: '-' :: c :: pre)) = none := by
    intro l hl
    rw [List.findSome?_eq_none_iff]
    intro o ho
    obtain ⟨d, r, rfl, hd⟩ := hl o ho
    exact stripPrefix_option fun hcd => hc (hcd ▸ hd)
  have hfront := hskip ["--quiet".toList, "--pipe".toList, "--wait".toList, "--collect".toList]
    (List.forall_mem_cons.mpr ⟨⟨'q', _, rfl, by decide⟩, List.forall_mem_cons.mpr ⟨⟨'p', _, rfl, by decide⟩,
      List.forall_mem_cons.mpr ⟨⟨'w', _, rfl, by decide⟩,
        List.forall_mem_singleton.mpr ⟨'c', _, rfl, by decide⟩⟩⟩⟩)
  have hproperty : ∀ l : List Str, (∀ o ∈ l, ∃ r, o = '-' :: '-' :: 'p' :: r) →
      l.findSome? (stripPrefix ('-' :: '-' :: c :: pre)) = none := by
    refine fun l hl => hskip l fun o ho => ?_
    obtain ⟨r, hr⟩ := hl o ho
    exact ⟨'p', r, hr, by decide⟩
  have hproperties := hproperty ["--property=ProtectSystem=strict".toList,
      "--property=PrivateDevices=yes".toList, "--property=NoNewPrivileges=yes".toList,
      "--property=MemoryMax=".toList ++ defaultMemoryMax,
      "--property=RuntimeMaxSec=".toList ++ decimal timeout.toNat]
    (List.forall_mem_cons.mpr ⟨⟨_, rfl⟩, List.forall_mem_cons.mpr ⟨⟨_, rfl⟩,
      List.forall_mem_cons.mpr ⟨⟨_, rfl⟩, List.forall_mem_cons.mpr ⟨⟨_, rfl⟩,
      List.forall_mem_singleton.mpr ⟨_, rfl⟩⟩⟩⟩⟩)
  have hassignments := hskip (envs.map fun e => "--setenv=".toList ++ e.1 ++ '=' :: e.2) (by
    intro o ho
    obtain ⟨e, -, rfl⟩ := List.mem_map.mp ho
    exact ⟨'s', _, rfl, by decide⟩)
  unfold systemdOptions
  rw [List.findSome?_append, List.findSome?_append, List.findSome?_append, hfront, hproperties,
    hassignments, Option.none_or, Option.or_none, Option.or_none]

/-- An option is read from those for the user and the group. -/
theorem optionValue_systemdOptions {c : Char} {pre runAs : Str} {timeout : UInt32} {envs : List (Str × Str)}
    (argv : List Str) (hc : c ∉ "qpwcs".toList) :
    optionValue ('-' :: '-' :: c :: pre) (systemdOptions runAs timeout envs ++ "--".toList :: argv) =
      (if runAs = "root".toList then []
        else ["--uid=".toList ++ runAs, "--gid=".toList ++ runAs]).findSome?
          (stripPrefix ('-' :: '-' :: c :: pre)) := by
  have hends : ∀ o ∈ systemdOptions runAs timeout envs, decide (o ≠ "--".toList) = true :=
    fun o ho => decide_eq_true (ne_of_mem_systemdOptions ho).1
  obtain ⟨htake, -⟩ := takeWhile_append_cons (r := argv) hends
    (x := "--".toList) (decide_eq_false (not_not_intro rfl))
  unfold optionValue
  rw [htake, findSome?_systemdOptions hc]

theorem uidOption_eq : "--uid=".toList = '-' :: '-' :: 'u' :: "id=".toList := rfl

theorem gidOption_eq : "--gid=".toList = '-' :: '-' :: 'g' :: "id=".toList := rfl

/-- For root neither a user nor a group is given. -/
theorem optionValue_root (timeout : UInt32) (envs : List (Str × Str)) (argv : List Str) :
    let args := systemdOptions "root".toList timeout envs ++ "--".toList :: argv
    optionValue "--uid=".toList args = none ∧ optionValue "--gid=".toList args = none := by
  intro args
  rw [uidOption_eq, gidOption_eq, optionValue_systemdOptions argv (by decide),
    optionValue_systemdOptions argv (by decide), if_pos rfl]
  exact ⟨rfl, rfl⟩

/-- For anybody else the user and the group are both the name of the owner. -/
theorem optionValue_user {runAs : Str} (h : runAs ≠ "root".toList) (timeout : UInt32)
    (envs : List (Str × Str)) (argv : List Str) :
    let args := systemdOptions runAs timeout envs ++ "--".toList :: argv
    optionValue "--uid=".toList args = some runAs ∧ optionValue "--gid=".toList args = some runAs := by
  intro args
  have hother : stripPrefix ('-' :: '-' :: 'g' :: "id=".toList) ("--uid=".toList ++ runAs) = none :=
    stripPrefix_option (by decide)
  constructor
  · rw [uidOption_eq, optionValue_systemdOptions argv (by decide), if_neg h, ← uidOption_eq,
      List.findSome?_cons, stripPrefix_append]
  · rw [gidOption_eq, optionValue_systemdOptions argv (by decide), if_neg h, List.findSome?_cons, hother,
      ← gidOption_eq, List.findSome?_cons, stripPrefix_append]

/-! ## The calls of the child -/

/-- A value after a call: the new one, or the old one where the call was not permitted. -/
def Chosen {α : Type} (r : CallResult) (x new old : α) : Prop := r = .ok ∧ x = new ∨ r = .eperm ∧ x = old

section Chosen

variable {α β : Type} {r : CallResult} {x new old : α}

theorem Chosen.map (f : α → β) (h : Chosen r x new old) : Chosen r (f x) (f new) (f old) := by
  rcases h with ⟨hr, rfl⟩ | ⟨hr, rfl⟩
  · exact .inl ⟨hr, rfl⟩
  · exact .inr ⟨hr, rfl⟩

/-- A call that changes nothing. -/
theorem Chosen.unchanged (h : Chosen r x old old) : x = old := by
  rcases h with ⟨-, rfl⟩ | ⟨-, rfl⟩ <;> rfl

theorem Chosen.ne_other (h : Chosen r x new old) : r ≠ .other := by
  rcases h with ⟨rfl, -⟩ | ⟨rfl, -⟩ <;> decide

theorem exists_chosen (h : r ≠ .other) (new old : α) : ∃ x, Chosen r x new old := by
  cases r with
  | ok => exact ⟨new, .inl ⟨rfl, rfl⟩⟩
  | eperm => exact ⟨old, .inr ⟨rfl, rfl⟩⟩
  | other => exact absurd rfl h

end Chosen

theorem attempt_eq_some_iff {r : CallResult} {a b c : Credentials} :
    attempt r a b = some c ↔ Chosen r c a b := by
  cases r <;> simp [attempt, Chosen, eq_comm]

/-- A child that is not ended has each of its ids from the call for it. -/
theorem preExec_eq_some_iff {calls : PreExec} {daemon c : Credentials} {uid gid : UInt32} :
    preExec calls daemon (some (uid, gid)) = some c ↔ calls.setsid = .ok ∧
      Chosen calls.setgroups c.groups [] daemon.groups ∧ Chosen calls.setgid c.gid gid daemon.gid ∧
      Chosen calls.setuid c.uid uid daemon.uid := by
  unfold preExec
  by_cases hsid : calls.setsid = .ok
  swap
  · rw [if_pos hsid]
    exact ⟨(fun h => nomatch h), fun h => absurd h.1 hsid⟩
  rw [if_neg (not_not_intro hsid)]
  simp only [Option.bind_eq_bind, Option.bind_eq_some_iff, attempt_eq_some_iff]
  constructor
  · rintro ⟨c₁, hgroups, c₂, hgid, huid⟩
    have hgroups₂ : c₂.groups = c₁.groups := (hgid.map Credentials.groups).unchanged
    have hgroups₃ : c.groups = c₂.groups := (huid.map Credentials.groups).unchanged
    have hgid₁ : c₁.gid = daemon.gid := (hgroups.map Credentials.gid).unchanged
    have hgid₃ : c.gid = c₂.gid := (huid.map Credentials.gid).unchanged
    have huid₁ : c₁.uid = daemon.uid := (hgroups.map Credentials.uid).unchanged
    have huid₂ : c₂.uid = c₁.uid := (hgid.map Credentials.uid).unchanged
    rw [hgroups₃, hgroups₂, hgid₃, ← hgid₁, ← huid₁, ← huid₂]
    exact ⟨hsid, hgroups.map Credentials.groups, hgid.map Credentials.gid, huid.map Credentials.uid⟩
  · rintro ⟨-, hgroups, hgid, huid⟩
    exact ⟨_, hgroups.map fun x => { daemon with groups := x },
      _, hgid.map fun x => { daemon with groups := c.groups, gid := x },
      huid.map fun x => { c with uid := x }⟩

/-- The child becomes the user exactly when its calls switch to it. -/
theorem exists_preExec_iff {calls : PreExec} {daemon : Credentials} {uid gid : UInt32} :
    (∃ c, preExec calls daemon (some (uid, gid)) = some c ∧ c.Is uid gid) ↔
      calls.Switches daemon uid gid := by
  simp only [preExec_eq_some_iff]
  constructor
  · rintro ⟨c, ⟨hsid, hgroups, hgid, huid⟩, ⟨hu, hg, hno⟩⟩
    refine ⟨hsid, ?_, ?_, ?_⟩
    · rcases hgroups with ⟨h, -⟩ | ⟨h, hold⟩
      · exact .inl h
      · exact .inr ⟨h, hold ▸ hno⟩
    · rcases hgid with ⟨h, -⟩ | ⟨h, hold⟩
      · exact .inl h
      · exact .inr ⟨h, hold.symm.trans hg⟩
    · rcases huid with ⟨h, -⟩ | ⟨h, hold⟩
      · exact .inl h
      · exact .inr ⟨h, hold.symm.trans hu⟩
  · rintro ⟨hsid, hgroups, hgid, huid⟩
    have hchosen : ∀ {r : CallResult} {new old : UInt32}, r = .ok ∨ r = .eperm ∧ old = new →
        Chosen r new new old := by
      rintro r new old (h | ⟨h, rfl⟩)
      · exact .inl ⟨h, rfl⟩
      · exact .inr ⟨h, rfl⟩
    rcases hgroups with hgroups | ⟨hgroups, hno⟩
    · exact ⟨⟨uid, gid, []⟩, ⟨hsid, .inl ⟨hgroups, rfl⟩, hchosen hgid, hchosen huid⟩, rfl, rfl, by simp⟩
    · exact ⟨⟨uid, gid, daemon.groups⟩, ⟨hsid, .inr ⟨hgroups, rfl⟩, hchosen hgid, hchosen huid⟩, rfl, rfl,
        hno⟩

/-- The child is ended exactly when one of its calls ends it. -/
theorem preExec_eq_none_iff {calls : PreExec} {daemon : Credentials} {uid gid : UInt32} :
    preExec calls daemon (some (uid, gid)) = none ↔ calls.Refuses := by
  unfold PreExec.Refuses
  constructor
  · intro hnone
    by_contra hno
    simp only [not_or, ne_eq, not_not] at hno
    obtain ⟨hsid, hgroups, hgid, huid⟩ := hno
    obtain ⟨groups, hgroups⟩ := exists_chosen hgroups [] daemon.groups
    obtain ⟨g, hgid⟩ := exists_chosen hgid gid daemon.gid
    obtain ⟨u, huid⟩ := exists_chosen huid uid daemon.uid
    have hsome := preExec_eq_some_iff (c := ⟨u, g, groups⟩).mpr ⟨hsid, hgroups, hgid, huid⟩
    rw [hnone] at hsome
    cases hsome
  · intro h
    cases hsome : preExec calls daemon (some (uid, gid)) with
    | none => rfl
    | some c =>
        obtain ⟨hsid, hgroups, hgid, huid⟩ := preExec_eq_some_iff.mp hsome
        rcases h with h | h | h | h
        · exact absurd hsid h
        · exact absurd h hgroups.ne_other
        · exact absurd h hgid.ne_other
        · exact absurd h huid.ne_other

/-! ## The owner -/

section Owner

variable {host : Host} {db : GroupDb} {manager : SystemdRun host db} {daemon : Credentials} {calls : PreExec}
  {owner : Str}

theorem ownerIds_root : ownerIds host.resolveUser "root".toList = .ok (0, 0) := rfl

theorem ownerIds_user {ids : UInt32 × UInt32} (hne : owner ≠ "root".toList)
    (hvalid : isValidSystemUsername owner = true) (hids : host.lookupUser owner = some ids) :
    ownerIds host.resolveUser owner = .ok ids := by
  have hresolve : host.resolveUser owner = some ⟨owner, ids.1, ids.2⟩ := by
    rw [Host.resolveUser, hids]
    rfl
  unfold ownerIds validateRunAs
  rw [if_neg (show owner ≠ reservedRunAsRoot from hne)]
  by_cases hcatchall : owner = reservedRunAsCatchall
  · rw [if_pos hcatchall]
    simp only [hresolve]
    rw [if_neg (by decide)]
  · rw [if_neg hcatchall, hvalid]
    simp only [hresolve]
    rfl

/-- The hook of a known user, on the systemd path. -/
theorem runIdentity_systemd {ids : UInt32 × UInt32} (argv : List Str) (timeout : UInt32)
    (envs : List (Str × Str)) (hne : owner ≠ "root".toList) (hvalid : isValidSystemUsername owner = true)
    (hids : host.lookupUser owner = some ids) :
    runIdentity manager daemon calls (spawnViaSystemdRun host argv owner timeout envs) =
      (db.lookupGroup owner).map fun gid => ⟨ids.1, gid, db.supplementary owner gid⟩ := by
  obtain ⟨huid, hgid⟩ := optionValue_user hne timeout envs argv
  unfold spawnViaSystemdRun
  rw [if_neg (by rw [hids]; simp)]
  show manager.start _ = _
  rw [manager.asUser _ owner owner huid hgid hvalid hvalid, unitCredentials, hids]
  cases db.lookupGroup owner <;> rfl

/-- The hook of a known user, on the other path. -/
theorem runIdentity_fork {ids : UInt32 × UInt32} (argv : List Str) (envs : List (Str × Str))
    (hne : owner ≠ "root".toList) (hids : host.lookupUser owner = some ids) :
    runIdentity manager daemon calls (spawnViaForkSetuid host argv owner envs) =
      preExec calls daemon (some ids) := by
  unfold spawnViaForkSetuid
  dsimp only
  rw [if_neg hne, hids]
  rfl

/-- A known user is treated alike when the group of that name is its primary group and the child switches to
it, or when neither path goes through. -/
theorem sameUser_user {uid gid : UInt32} {group : Option UInt32} {groupsOf : UInt32 → List UInt32} :
    SameUser (.ok (uid, gid)) (group.map fun g => ⟨uid, g, groupsOf g⟩)
        (preExec calls daemon (some (uid, gid))) ↔
      group = none ∧ calls.Refuses ∨
        group = some gid ∧ (∀ g ∈ groupsOf gid, g = gid) ∧ calls.Switches daemon uid gid := by
  constructor
  · rintro ⟨⟨hnone, hfork⟩ | ⟨uid', gid', hids, ⟨c, hc, his⟩, hfork⟩, -⟩
    · exact .inl ⟨Option.map_eq_none_iff.mp hnone, preExec_eq_none_iff.mp hfork⟩
    · cases hids
      obtain ⟨g, rfl, rfl⟩ := Option.map_eq_some_iff.mp hc
      obtain ⟨-, rfl, hno⟩ := his
      exact .inr ⟨rfl, hno, exists_preExec_iff.mp hfork⟩
  · rintro (⟨rfl, hrefuses⟩ | ⟨rfl, hno, hswitches⟩)
    · have hfork : preExec calls daemon (some (uid, gid)) = none := preExec_eq_none_iff.mpr hrefuses
      refine ⟨.inl ⟨rfl, hfork⟩, fun _ c hc => ?_⟩
      rcases hc with hc | hc
      · cases hc
      · rw [hfork] at hc
        cases hc
    · obtain ⟨c, hfork, his⟩ := exists_preExec_iff.mpr hswitches
      refine ⟨.inr ⟨uid, gid, rfl, ⟨_, rfl, rfl, rfl, hno⟩, c, hfork, his⟩, fun hroot c' hc' => ?_⟩
      have huid : c'.uid = uid := by
        rcases hc' with hc' | hc'
        · cases hc'
          rfl
        · rw [hfork] at hc'
          cases hc'
          exact his.user
      rw [huid]
      rintro rfl
      exact hroot gid rfl

/-- A root daemon runs the hooks of root alike where it has no group but that of root. -/
theorem sameUser_root {fork : Option Credentials}
    (hfork : fork = if calls.setsid ≠ .ok then none else some daemon) :
    SameUser (.ok (0, 0)) (some ⟨0, 0, []⟩) fork ↔ calls.setsid = .ok ∧ daemon.Is 0 0 := by
  constructor
  · rintro ⟨⟨hnone, -⟩ | ⟨uid, gid, hids, -, c, hc, his⟩, -⟩
    · cases hnone
    · cases hids
      rw [hfork] at hc
      split at hc
      next => cases hc
      next hsid =>
          cases hc
          exact ⟨not_not.mp hsid, his⟩
  · rintro ⟨hsid, his⟩
    rw [if_neg (not_not_intro hsid)] at hfork
    exact ⟨.inr ⟨0, 0, rfl, ⟨_, rfl, rfl, rfl, by simp⟩, daemon, hfork, his⟩, fun h => absurd rfl (h 0)⟩

end Owner

/-- For a root daemon, the two sandbox paths run a hook as the same user exactly for the owners that they
treat alike. -/
theorem sameUser_iff {host : Host} {db : GroupDb} (manager : SystemdRun host db) {daemon : Credentials}
    (calls : PreExec) {owner : Str} (argv : List Str) (timeout : UInt32) (envs : List (Str × Str))
    (hroot : host.isRoot = true) (hvalid : isValidSystemUsername owner = true) :
    SameUser (ownerIds host.resolveUser owner)
        (runIdentity manager daemon calls (spawnViaSystemdRun host argv owner timeout envs))
        (runIdentity manager daemon calls (spawnViaForkSetuid host argv owner envs)) ↔
      RunsAlike host db daemon calls owner := by
  by_cases hne : owner = "root".toList
  · subst hne
    obtain ⟨huid, hgid⟩ := optionValue_root timeout envs argv
    have hsystemd : runIdentity manager daemon calls
        (spawnViaSystemdRun host argv "root".toList timeout envs) = some ⟨0, 0, []⟩ := by
      unfold spawnViaSystemdRun
      rw [if_neg fun h => h.1 rfl]
      exact manager.asRoot _ huid hgid
    rw [ownerIds_root, hsystemd, RunsAlike, if_pos rfl]
    exact sameUser_root rfl
  cases hids : host.lookupUser owner with
  | none =>
      -- root refuses an unknown owner on both paths
      have hsystemd : spawnViaSystemdRun host argv owner timeout envs = .error (.userNotFound owner) := by
        unfold spawnViaSystemdRun
        rw [if_pos ⟨hne, hids⟩, hroot]
        rfl
      have hfork : spawnViaForkSetuid host argv owner envs = .error (.userNotFound owner) := by
        unfold spawnViaForkSetuid
        dsimp only
        rw [if_neg hne, hids, hroot]
        rfl
      rw [hsystemd, hfork, RunsAlike, if_neg hne, hids]
      refine ⟨fun _ uid gid h => (nomatch h), fun _ => ⟨.inl ⟨rfl, rfl⟩, fun _ c hc => ?_⟩⟩
      rcases hc with hc | hc <;> cases hc
  | some ids =>
      rw [ownerIds_user hne hvalid hids, runIdentity_systemd argv timeout envs hne hvalid hids,
        runIdentity_fork argv envs hne hids, RunsAlike, if_neg hne, sameUser_user, hids]
      constructor
      · rintro h uid gid hsome
        cases hsome
        exact h
      · exact fun h => h _ _ rfl

/-! ### Two databases -/

/-- A `systemd-run` that does what the manual says, and refuses one name without the other. -/
def SystemdRun.manual (host : Host) (db : GroupDb) : SystemdRun host db where
  start args :=
    match optionValue "--uid=".toList args, optionValue "--gid=".toList args with
    | some user, some group => unitCredentials host db user group
    | none, none => some ⟨0, 0, []⟩
    | _, _ => none
  asRoot := by
    intro args huid hgid
    rw [huid, hgid]
  asUser := by
    intro args user group huid hgid _ _
    rw [huid, hgid]

/-- A host with one user, whose primary group is 100. -/
def aliceHost : Host where
  init := .systemd
  forceFallback := false
  isRoot := true
  lookupUser name := if name = "alice".toList then some (1000, 100) else none
  path := none
  home := none
  unitEnv _ := none

/-- A group database in which group 100 has this name. -/
def groupNamed (group : Str) : GroupDb where
  lookupGroup name := if name = group then some 100 else none
  supplementary _ _ := []

/-- Calls that all succeed. -/
def allCallsOk : PreExec := ⟨.ok, .ok, .ok, .ok⟩

/-- A user with a group of its own name is treated alike, and both paths run as it. -/
theorem sameUser_ownGroup :
    SameUser (ownerIds aliceHost.resolveUser "alice".toList)
        (runIdentity (.manual aliceHost (groupNamed "alice".toList)) ⟨0, 0, []⟩ allCallsOk
          (spawnViaSystemdRun aliceHost ["/bin/true".toList] "alice".toList 60 []))
        (runIdentity (.manual aliceHost (groupNamed "alice".toList)) ⟨0, 0, []⟩ allCallsOk
          (spawnViaForkSetuid aliceHost ["/bin/true".toList] "alice".toList [])) := by
  refine (sameUser_iff (.manual aliceHost (groupNamed "alice".toList)) allCallsOk ["/bin/true".toList] 60 []
    rfl (by decide +kernel)).mpr ?_
  have hne : "alice".toList ≠ "root".toList := by decide
  rw [RunsAlike, if_neg hne]
  intro uid gid hids
  have huser : aliceHost.lookupUser "alice".toList = some (1000, 100) := rfl
  obtain ⟨rfl, rfl⟩ := Prod.mk.inj (Option.some.inj (huser.symm.trans hids))
  exact .inr ⟨by decide, fun g hg => (by cases hg), rfl, .inl rfl, .inl rfl, .inl rfl⟩

/-- A user whose primary group has another name: `systemd-run` does not find the group, the forked child
runs. -/
theorem sameUser_otherGroup :
    ¬ SameUser (ownerIds aliceHost.resolveUser "alice".toList)
      (runIdentity (.manual aliceHost (groupNamed "users".toList)) ⟨0, 0, []⟩ allCallsOk
        (spawnViaSystemdRun aliceHost ["/bin/true".toList] "alice".toList 60 []))
      (runIdentity (.manual aliceHost (groupNamed "users".toList)) ⟨0, 0, []⟩ allCallsOk
        (spawnViaForkSetuid aliceHost ["/bin/true".toList] "alice".toList [])) := by
  have hne : "alice".toList ≠ "root".toList := by decide
  have hvalid : isValidSystemUsername "alice".toList = true := by decide +kernel
  have hids : aliceHost.lookupUser "alice".toList = some (1000, 100) := rfl
  have hgroup : (groupNamed "users".toList).lookupGroup "alice".toList = none := by decide
  rw [ownerIds_user hne hvalid hids, runIdentity_systemd _ _ _ hne hvalid hids,
    runIdentity_fork _ _ hne hids, sameUser_user, hgroup]
  rintro (⟨-, hrefuses⟩ | ⟨hsome, -⟩)
  · revert hrefuses
    simp [PreExec.Refuses, allCallsOk]
  · cases hsome

end Sandbox
end Aimx
