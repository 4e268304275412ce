import Aimx.Daemon.StorageRoot

/-!
# What a request changes in the file

Each request rewrites the whole file from the configuration in memory.  The two may differ: an override
of the data directory is applied in memory only, and the file may have been edited since it was loaded.

* `TouchesOnly` — two configurations that differ in the target of a plan only;
* `AgreesOutside` — two configurations that agree outside the target of a plan;
* `rename_touchesOnly_run_iff` — exactly the runs whose requests change their targets and nothing else;
* `FileFollows`, `fileFollows_step` — how the file and the configuration in memory are related in a run
  of requests alone;
* `rename_touchesOnly_iff` — which of these requests change their target and nothing else;
* `override_written` — the first request after a start with an override.
-/

namespace Aimx
namespace Daemon

open Text Transition

/-- The configurations differ in the mailbox of the plan only, and for a plan about a hook in that hook
only. -/
def TouchesOnly (sha256 : Bytes → Bytes) (plan : Plan) (before after : Config) : Prop :=
  before.SameBut plan.mailbox after ∧
    match plan with
    | .mailboxCreate _ _ => True
    | .mailboxDelete _ _ => True
    | .hookCreate mailbox hook => after.mailboxes.lookup mailbox =
        (before.mailboxes.lookup mailbox).map fun mb => mb.pushHook hook
    | .hookDelete mailbox name => after.mailboxes.lookup mailbox =
        (before.mailboxes.lookup mailbox).map fun mb => mb.retainHooks sha256 name

/-- The configurations agree outside the target of a plan: outside its mailbox, and for a plan about a hook
also in that mailbox, but for the hooks that the plan removes. -/
def AgreesOutside (sha256 : Bytes → Bytes) (plan : Plan) (before current : Config) : Prop :=
  before.SameBut plan.mailbox current ∧
    match plan with
    | .mailboxCreate _ _ => True
    | .mailboxDelete _ _ => True
    | .hookCreate mailbox _ => before.mailboxes.lookup mailbox = current.mailboxes.lookup mailbox
    | .hookDelete mailbox name =>
        (before.mailboxes.lookup mailbox).map (fun mb => mb.retainHooks sha256 name) =
          (current.mailboxes.lookup mailbox).map fun mb => mb.retainHooks sha256 name

/-- Something is asked of a move if it is the rename of a request: of the states before and after it, the
request, and the configuration that the request loaded when it took its locks. -/
def OfRename (env : ServerEnv) (P : Server → Server → Pending → Config → Prop) (s : Server) (m : Move) :
    Prop :=
  ∀ faults s' p current next, m = .execute faults → step env s m = some s' →
    s'.inside = some (.renamed p current next) → P s s' p current

/-- The law: the file after the rename, read back, differs from the file before it in the target only. -/
def RenameTouchesOnly (env : ServerEnv) : Server → Move → Prop :=
  OfRename env fun s s' p _ => ∃ before after, env.fileConfig s.disk = .ok before ∧
    env.fileConfig s'.disk = .ok after ∧ TouchesOnly env.handlers.sha256 p.plan before after

/-- The file before the rename, read back, agrees with the configuration that the request loaded. -/
def RenameAgrees (env : ServerEnv) : Server → Move → Prop :=
  OfRename env fun s _ p current => ∃ before, env.fileConfig s.disk = .ok before ∧
    AgreesOutside env.handlers.sha256 p.plan before current

/-- The moves of requests: neither a reload nor an edit of the file. -/
def Move.IsRequest : Move → Prop
  | .readFile => False
  | .storeReload => False
  | .edit _ => False
  | _ => True

/-- The file as long as no request is between its rename and its store: it is what the daemon was started
on, and differs from the configuration in memory in the data directory only; or a request has rewritten
it, and it is the configuration in memory. -/
def Follows (initial : Config) (dataDir : Str) (s : Server) (file : Config) : Prop :=
  (s.answered = [] ∧ file = initial ∧ s.memory = { initial with dataDir := dataDir }) ∨
    s.answered ≠ [] ∧ file = s.memory

/-- How the file follows the configuration in memory. -/
def FileFollows (env : ServerEnv) (initial : Config) (dataDir : Str) (s : Server) : Prop :=
  match s.inside with
  | none => ∃ file, env.fileConfig s.disk = .ok file ∧ Follows initial dataDir s file
  | some (.entered _ current) =>
      current = s.memory ∧ ∃ file, env.fileConfig s.disk = .ok file ∧ Follows initial dataDir s file
  | some (.renamed _ _ next) => env.fileConfig s.disk = .ok next

section Frame

variable {env : ServerEnv} {s s' : Server} {m : Move} {initial : Config} {dataDir : Str}

/-- The rewriting of a message does not touch the configuration file. -/
theorem markFile_config {henv : HandlerEnv} {mark : MarkEnv} {req : Protocol.MarkRequest}
    {disk : Disk} : (markFile henv mark req disk).1.config = disk.config := by
  unfold markFile
  dsimp only
  repeat' split
  all_goals rfl

/-- The result of a plan differs from the configuration it is made from in its target only. -/
theorem touchesOnly_result (sha256 : Bytes → Bytes) (plan : Plan) (config : Config) :
    TouchesOnly sha256 plan config (plan.result sha256 config) := by
  have hsame := Update.sameBut_apply sha256 config (plan.update config)
  cases plan with
  | mailboxCreate name owner => exact ⟨hsame, trivial⟩
  | mailboxDelete name force => exact ⟨hsame, trivial⟩
  | hookCreate mailbox hook =>
      refine ⟨hsame, ?_⟩
      change (Table.modify _ _ _).lookup mailbox = _
      rw [Table.lookup_modify, if_pos rfl]
  | hookDelete mailbox name =>
      refine ⟨hsame, ?_⟩
      change (Table.modify _ _ _).lookup mailbox = _
      rw [Table.lookup_modify, if_pos rfl]

theorem MailboxConfig.pushHook_injective (hook : Hook) :
    Function.Injective fun mb : MailboxConfig => mb.pushHook hook := by
  intro mb mb' h
  have hhooks : mb.hooks = mb'.hooks := List.append_cancel_right (congrArg MailboxConfig.hooks h)
  cases mb
  cases mb'
  simp only [MailboxConfig.pushHook, MailboxConfig.mk.injEq] at h hhooks ⊢
  exact ⟨h.1, h.2.1, hhooks, h.2.2.2⟩

/-- What a plan makes of one configuration differs from another in its target only if the two agree outside
the target. -/
theorem touchesOnly_iff_agrees {sha256 : Bytes → Bytes} {plan : Plan} {before current : Config} :
    TouchesOnly sha256 plan before (plan.result sha256 current) ↔
      AgreesOutside sha256 plan before current := by
  obtain ⟨hsame, htarget⟩ := touchesOnly_result sha256 plan current
  have hframe : before.SameBut plan.mailbox (plan.result sha256 current) ↔
      before.SameBut plan.mailbox current :=
    ⟨fun h => h.trans hsame.symm, fun h => h.trans hsame⟩
  refine and_congr hframe ?_
  cases plan with
  | mailboxCreate name owner => exact Iff.rfl
  | mailboxDelete name force => exact Iff.rfl
  | hookCreate mailbox hook =>
      dsimp only at htarget ⊢
      rw [htarget]
      exact (Option.map_injective (MailboxConfig.pushHook_injective hook)).eq_iff.trans eq_comm
  | hookDelete mailbox name =>
      dsimp only at htarget ⊢
      rw [htarget]
      exact eq_comm

/-- **A rename**: the file before it agrees with what the request loaded exactly if only the target
changes. -/
theorem renameTouchesOnly_iff (hround : env.RoundTrips) (s : Server) (m : Move) :
    RenameTouchesOnly env s m ↔ RenameAgrees env s m := by
  have hsha : (env.at s.stateDataDir).sha256 = env.handlers.sha256 := rfl
  refine forall_congr' fun faults => forall_congr' fun s' => forall_congr' fun p =>
    forall_congr' fun current => forall_congr' fun next => forall_congr' fun hm =>
      forall_congr' fun hstep => forall_congr' fun hrenamed => ?_
  subst hm
  cases step_effect hstep with
  | fail hinside hexecute => cases hrenamed
  | @rename faults p' current' next' disk' hinside hexecute =>
      cases hrenamed
      obtain ⟨-, hnext, hprint⟩ := Plan.execute_ok hexecute
      have hafter : env.fileConfig disk' = .ok next := hround.readBack hprint
      rw [hsha] at hnext
      constructor
      · rintro ⟨before, after, hbefore, hafter', htouches⟩
        cases hafter.symm.trans hafter'
        rw [hnext] at htouches
        exact ⟨before, hbefore, touchesOnly_iff_agrees.mp htouches⟩
      · rintro ⟨before, hbefore, hagrees⟩
        refine ⟨before, next, hbefore, hafter, ?_⟩
        rw [hnext]
        exact touchesOnly_iff_agrees.mpr hagrees

/-- **The requests of a run change their targets in the file and nothing else exactly if, before each
rename, the file agrees outside the target with the configuration that the request loaded**, from whatever
state and in whatever order of requests, reloads, edits and marks. -/
theorem rename_touchesOnly_run_iff (hround : env.RoundTrips) (s₀ : Server) (moves : List Move) :
    Allowed (step env) (RenameTouchesOnly env) s₀ moves ↔
      Allowed (step env) (RenameAgrees env) s₀ moves :=
  allowed_congr (fun s m => renameTouchesOnly_iff hround s m) s₀ moves

/-! ### Runs of requests alone -/

/-- Made from a configuration with another data directory, the result differs in that as well. -/
theorem touchesOnly_result_override {sha256 : Bytes → Bytes} {plan : Plan} :
    TouchesOnly sha256 plan initial
        (plan.result sha256 { initial with dataDir := dataDir }) ↔
      dataDir = initial.dataDir := by
  constructor
  · rintro ⟨hsame, -⟩
    rw [← hsame.dataDir, Plan.result_dataDir]
  · rintro rfl
    exact touchesOnly_result sha256 plan initial

/-- A step of a request keeps the relation of file and memory. -/
theorem fileFollows_step (hround : env.RoundTrips) (h : FileFollows env initial dataDir s)
    (hm : m.IsRequest) (hstep : step env s m = some s') : FileFollows env initial dataDir s' := by
  cases step_effect hstep with
  | refuse => exact h
  | arrive => exact h
  | enter hinside hp =>
      rw [FileFollows, hinside] at h
      exact ⟨rfl, h⟩
  | @fail faults p current disk reject hinside hexecute =>
      rw [FileFollows, hinside] at h
      obtain ⟨-, file, hfile, hfollows⟩ := h
      refine ⟨file, ?_, hfollows⟩
      rw [ServerEnv.fileConfig, Plan.execute_error hexecute]
      exact hfile
  | @rename faults p current next disk hinside hexecute =>
      obtain ⟨-, -, hprint⟩ := Plan.execute_ok hexecute
      exact hround.readBack hprint
  | @store p current next hinside =>
      rw [FileFollows, hinside] at h
      exact ⟨next, h, Or.inr ⟨List.cons_ne_nil p s.answered, rfl⟩⟩
  | keepConfig => exact absurd hm id
  | readFile => exact absurd hm id
  | storeReload => exact absurd hm id
  | edit => exact absurd hm id
  | refuseMark => exact h
  | arriveMark => exact h
  | @mark k mark p hp hlock =>
      have hconfig : (markFile (env.at s.stateDataDir) mark p.request s.disk).1.config =
          s.disk.config := markFile_config
      unfold FileFollows ServerEnv.fileConfig at h ⊢
      dsimp only
      rw [hconfig]
      exact h

/-- At the start the file differs from the memory in the data directory at most. -/
theorem fileFollows_start {dataDirOverride : Option Str} {disk : Disk}
    (h : start env dataDirOverride disk = some s) :
    ∃ initial, env.fileConfig disk = .ok initial ∧
      FileFollows env initial (dataDirOverride.getD initial.dataDir) s := by
  obtain ⟨config, warnings, hload, rfl⟩ := start_eq_some h
  obtain ⟨hread, -, -⟩ := load_eq_ok hload
  exact ⟨config, hread, config, hread, Or.inl ⟨rfl, rfl, rfl⟩⟩

/-- In a run of requests alone, from a start without another data directory, the file agrees with the
configuration in memory. -/
theorem renameAgrees_of_requests {dataDirOverride : Option Str} {disk : Disk} {s₀ : Server}
    {moves : List Move} (hround : env.RoundTrips) (hstart : start env dataDirOverride disk = some s₀)
    (hdir : ∀ initial, env.fileConfig disk = .ok initial →
      ∀ dir ∈ dataDirOverride, dir = initial.dataDir)
    (hmoves : ∀ m ∈ moves, m.IsRequest) : Allowed (step env) (RenameAgrees env) s₀ moves := by
  obtain ⟨initial, hinitial, hfollows₀⟩ := fileFollows_start hstart
  have hsame : dataDirOverride.getD initial.dataDir = initial.dataDir := by
    cases dataDirOverride with
    | none => rfl
    | some dir => exact hdir initial hinitial dir rfl
  rw [hsame] at hfollows₀
  refine allowed_of_invariant (fun s m s' hs hm hstep => fileFollows_step hround hs hm hstep) ?_
    hfollows₀ hmoves
  rintro s m hs - faults s' p current next rfl hstep hrenamed
  cases step_effect hstep with
  | fail hinside hexecute => cases hrenamed
  | @rename faults p' current' next' disk' hinside hexecute =>
      cases hrenamed
      rw [FileFollows, hinside] at hs
      obtain ⟨hcurrent, before, hbefore, hfollows⟩ := hs
      have hmemory : before = current := by
        rcases hfollows with ⟨-, rfl, hmemory⟩ | ⟨-, rfl⟩
        · rw [hcurrent, hmemory]
        · exact hcurrent.symm
      subst hmemory
      exact ⟨before, hbefore, touchesOnly_iff_agrees.mp (touchesOnly_result _ _ _)⟩

/-- In a run of requests alone a request changes its target in the file and nothing else, exactly if the
daemon was started without an override of the data directory or with the one in the file, or if an earlier
request has rewritten the file. -/
theorem rename_touchesOnly_iff {dataDirOverride : Option Str} {disk : Disk} {s₀ : Server}
    {moves : List Move} {faults : Faults} {p : Pending} {current next : Config}
    (hround : env.RoundTrips) (hstart : start env dataDirOverride disk = some s₀)
    (hmoves : ∀ m ∈ moves, m.IsRequest) (hrun : run (step env) s₀ moves = some s)
    (hstep : step env s (.execute faults) = some s')
    (hrenamed : s'.inside = some (.renamed p current next)) :
    ∃ initial before after, env.fileConfig disk = .ok initial ∧
      env.fileConfig s.disk = .ok before ∧ env.fileConfig s'.disk = .ok after ∧
      (TouchesOnly env.handlers.sha256 p.plan before after ↔
        (∀ dir ∈ dataDirOverride, dir = initial.dataDir) ∨ s.answered ≠ []) := by
  obtain ⟨initial, hinitial, hfollows₀⟩ := fileFollows_start hstart
  have hfollows : FileFollows env initial (dataDirOverride.getD initial.dataDir) s :=
    run_invariant (fun s m s' hs hm hstep => fileFollows_step hround hs hm hstep) hfollows₀
      (allowed_of_forall hmoves s₀) hrun
  have hafter := fileFollows_step hround hfollows (m := .execute faults) trivial hstep
  rw [FileFollows, hrenamed] at hafter
  cases step_effect hstep with
  | fail hinside hexecute => cases hrenamed
  | @rename faults p' current' next' disk' hinside hexecute =>
      cases hrenamed
      rw [FileFollows, hinside] at hfollows
      obtain ⟨hcurrent, before, hbefore, hcase⟩ := hfollows
      obtain ⟨-, hnext, -⟩ := Plan.execute_ok hexecute
      refine ⟨initial, before, next, hinitial, hbefore, hafter, ?_⟩
      have hsha : (env.at s.stateDataDir).sha256 = env.handlers.sha256 := rfl
      rw [hnext, hsha, hcurrent]
      rcases hcase with ⟨hfirst, rfl, hmemory⟩ | ⟨hlater, rfl⟩
      · have hoverride : dataDirOverride.getD before.dataDir = before.dataDir ↔
            ∀ dir ∈ dataDirOverride, dir = before.dataDir := by
          cases dataDirOverride <;> simp
        have hnotLater : ¬ s.answered ≠ [] := fun hne => hne hfirst
        rw [hmemory, touchesOnly_result_override, hoverride, or_iff_left hnotLater]
      · exact iff_of_true (touchesOnly_result _ _ _) (Or.inr hlater)

end Frame

/-! ## The first request after an override -/

/-- A configuration with a mailbox of `bob`. -/
def withBob (dataDir : String) : Config :=
  (sampleConfigAt dataDir).insertMailbox "bob".toList
    (newMailbox (sampleConfigAt dataDir) "bob".toList "bob".toList)

/-- Surroundings with the files before and after the request of `bob`. -/
def bobServer : ServerEnv :=
  sampleServer [sampleConfigAt "/var/lib/aimx", withBob "/var/lib/aimx", withBob "/mnt/aimx"]

/-- `bob` asks for a mailbox of his own. -/
def bobCreates : Move := .arrive sampleBob (.mailbox ⟨"bob".toList, true, none, false⟩)

/-- His request from its arrival to its answer. -/
def bobRun : List Move := [bobCreates, .enter 0, .execute (fun _ => none), .store]

theorem bobServer_roundTrips : bobServer.RoundTrips := sampleServer_roundTrips (by decide +kernel)

/-- Without an override the request changes his mailbox only, and with one it does not. -/
theorem rename_touchesOnly_run_bob :
    (∃ s₀ s, start bobServer none (sampleDisk (sampleConfigAt "/var/lib/aimx")) = some s₀ ∧
      run (step bobServer) s₀ bobRun = some s ∧ s.answered.length = 1 ∧
      Allowed (step bobServer) (RenameTouchesOnly bobServer) s₀ bobRun) ∧
    ∃ s₀, start bobServer (some "/mnt/aimx".toList) (sampleDisk (sampleConfigAt "/var/lib/aimx")) =
        some s₀ ∧
      ¬Allowed (step bobServer) (RenameTouchesOnly bobServer) s₀ bobRun := by
  constructor
  · obtain ⟨s₀, s, hstart, hrun, hanswered⟩ := exists_run bobServer none
      (sampleDisk (sampleConfigAt "/var/lib/aimx")) bobRun (fun s => s.answered.length = 1)
      (by decide +kernel)
    refine ⟨s₀, s, hstart, hrun, hanswered,
      (rename_touchesOnly_run_iff bobServer_roundTrips s₀ bobRun).mpr ?_⟩
    exact renameAgrees_of_requests bobServer_roundTrips hstart (by simp)
      (by simp [bobRun, bobCreates, Move.IsRequest])
  · obtain ⟨s₀, s, hstart, hrun, hfirst, hrenamed⟩ := exists_run bobServer (some "/mnt/aimx".toList)
      (sampleDisk (sampleConfigAt "/var/lib/aimx")) [bobCreates, .enter 0]
      (fun s => s.answered.length = 0 ∧ (step bobServer s (.execute fun _ => none)).any
        (fun s' => s'.inside.any Inside.isRenamed) = true) (by decide +kernel)
    obtain ⟨s', p, current, next, hstep, hinside⟩ := exists_renamed hrenamed
    refine ⟨s₀, hstart, fun hallowed => ?_⟩
    have hallowed' : Allowed (step bobServer) (RenameTouchesOnly bobServer) s₀
        ([bobCreates, .enter 0] ++ .execute (fun _ => none) :: [.store]) := hallowed
    obtain ⟨before, after, hbefore, hafter, htouches⟩ :=
      hallowed'.at hrun _ _ _ _ _ rfl hstep hinside
    -- no request has rewritten the file, which names another data directory
    obtain ⟨initial, before', after', hinitial, hbefore', hafter', hiff⟩ :=
      rename_touchesOnly_iff bobServer_roundTrips hstart (by simp [bobCreates, Move.IsRequest]) hrun hstep
        hinside
    cases hbefore.symm.trans hbefore'
    cases hafter.symm.trans hafter'
    rcases hiff.mp htouches with hdir | hlater
    · have hname : (bobServer.fileConfig (sampleDisk (sampleConfigAt "/var/lib/aimx"))).toOption.map
          Config.dataDir = some "/var/lib/aimx".toList := by decide +kernel
      rw [hinitial] at hname
      have hsame := hdir _ rfl
      rw [Option.some.inj hname] at hsame
      exact absurd hsame (by decide)
    · exact hlater (List.length_eq_zero_iff.mp hfirst)

/-- With an override his request writes the overridden data directory to the file. -/
theorem override_written : ∃ s₀ s,
    start bobServer (some "/mnt/aimx".toList) (sampleDisk (sampleConfigAt "/var/lib/aimx")) =
        some s₀ ∧
      run (step bobServer) s₀ bobRun = some s ∧
      s.answered.length = 1 ∧
      (bobServer.fileConfig (sampleDisk (sampleConfigAt "/var/lib/aimx"))).toOption.map
        Config.dataDir = some "/var/lib/aimx".toList ∧
      (bobServer.fileConfig s.disk).toOption.map Config.dataDir = some "/mnt/aimx".toList :=
  exists_run _ _ _ _ (fun s => s.answered.length = 1 ∧
    (bobServer.fileConfig (sampleDisk (sampleConfigAt "/var/lib/aimx"))).toOption.map
      Config.dataDir = some "/var/lib/aimx".toList ∧
    (bobServer.fileConfig s.disk).toOption.map Config.dataDir = some "/mnt/aimx".toList)
    (by decide +kernel)

end Daemon
end Aimx
