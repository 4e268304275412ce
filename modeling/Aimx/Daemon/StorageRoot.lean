import Aimx.Daemon.Schedule

/-!
# One storage root

The request context and the send context copy the data directory once, at the start; ingest and the
listings read it from the configuration in memory, which reloads replace.

* `OneRoot` — the copies are the data directory of the configuration in memory;
* `RootKept`, `rootKept_step` — the invariant and its step lemma;
* `storage_root_is_one` — the copies agree in every run whose reloads read the data directory that the
  daemon started with;
* `reload_moves_root` — a reload of an edited file, after which they do not.
-/

namespace Aimx
namespace Daemon

open Text Transition

/-- The data directory of both contexts is that of the configuration in memory. -/
structure OneRoot (s : Server) : Prop where
  state : s.stateDataDir = s.memory.dataDir
  send : s.sendDataDir = s.memory.dataDir

/-- A reload that is accepted reads the data directory that the contexts have. -/
def Move.ReadsOwnRoot (env : ServerEnv) (s : Server) : Move → Prop
  | .readFile => ∀ r ∈ (load env.load s.disk.config).toOption, r.1.dataDir = s.stateDataDir
  | _ => True

instance (env : ServerEnv) (s : Server) (m : Move) : Decidable (m.ReadsOwnRoot env s) :=
  match m with
  | .readFile => inferInstanceAs (Decidable (∀ r ∈ (load env.load s.disk.config).toOption,
      r.1.dataDir = s.stateDataDir))
  | .arrive _ _ | .enter _ | .execute _ | .store | .storeReload | .edit _ | .arriveMark _ _
  | .mark _ _ => isTrue trivial

/-- The invariant: the configurations under way have the data directory of the contexts, too. -/
structure RootKept (s : Server) : Prop extends OneRoot s where
  entered : ∀ p current, s.inside = some (.entered p current) → current.dataDir = s.stateDataDir
  renamed : ∀ p current next, s.inside = some (.renamed p current next) →
    next.dataDir = s.stateDataDir
  reloading : ∀ config, s.reloading = some config → config.dataDir = s.stateDataDir

section Root

variable {env : ServerEnv} {s s' : Server} {m : Move}

/-- A plan does not touch the data directory. -/
theorem Plan.result_dataDir (sha256 : Bytes → Bytes) (plan : Plan) (config : Config) :
    (plan.result sha256 config).dataDir = config.dataDir :=
  (Update.sameBut_apply sha256 config (plan.update config)).dataDir

/-- Every step that meets the condition keeps the invariant. -/
theorem rootKept_step (h : RootKept s) (hm : m.ReadsOwnRoot env s) (hstep : step env s m = some s') :
    RootKept s' := by
  cases step_effect hstep with
  | refuse => exact h
  | arrive => exact { h with }
  | @enter k p hinside hp =>
      exact
        { state := h.state
          send := h.send
          entered := fun p' current heq => by
            cases heq
            exact h.state.symm
          renamed := fun p' current next heq => by cases heq
          reloading := h.reloading }
  | fail hinside hexecute =>
      exact
        { state := h.state
          send := h.send
          entered := fun p' current heq => by cases heq
          renamed := fun p' current next heq => by cases heq
          reloading := h.reloading }
  | @rename faults p current next disk hinside hexecute =>
      obtain ⟨-, hnext, -⟩ := Plan.execute_ok hexecute
      exact
        { state := h.state
          send := h.send
          entered := fun p' current heq => by cases heq
          renamed := fun p' current' next' heq => by
            cases heq
            rw [hnext, Plan.result_dataDir]
            exact h.entered p current hinside
          reloading := h.reloading }
  | @store p current next hinside =>
      have hnext := h.renamed p current next hinside
      exact
        { state := hnext.symm
          send := h.send.trans (h.state.symm.trans hnext.symm)
          entered := fun p' current heq => by cases heq
          renamed := fun p' current next heq => by cases heq
          reloading := h.reloading }
  | keepConfig => exact h
  | @readFile config warnings hreloading hload =>
      exact
        { state := h.state
          send := h.send
          entered := h.entered
          renamed := h.renamed
          reloading := fun config' heq => by
            cases heq
            refine hm (config, warnings) ?_
            rw [hload]
            exact rfl }
  | @storeReload config hreloading =>
      have hconfig := h.reloading config hreloading
      exact
        { state := hconfig.symm
          send := h.send.trans (h.state.symm.trans hconfig.symm)
          entered := h.entered
          renamed := h.renamed
          reloading := fun config' heq => by cases heq }
  | edit => exact { h with }
  | refuseMark => exact h
  | arriveMark => exact { h with }
  | mark => exact { h with }

/-- The daemon starts with one root, whether or not its data directory is overridden. -/
theorem rootKept_start {dataDirOverride : Option Str} {disk : Disk}
    (h : start env dataDirOverride disk = some s) : RootKept s := by
  obtain ⟨config, warnings, -, rfl⟩ := start_eq_some h
  exact
    { state := rfl
      send := rfl
      entered := fun p current heq => by cases heq
      renamed := fun p current next heq => by cases heq
      reloading := fun config heq => by cases heq }

/-- **In every run whose reloads read the data directory that the daemon started with, all parts of the
daemon work on one storage root.** -/
theorem storage_root_is_one {dataDirOverride : Option Str} {disk : Disk} {s₀ : Server}
    {moves : List Move} (hstart : start env dataDirOverride disk = some s₀)
    (hallowed : Allowed (step env) (fun s m => m.ReadsOwnRoot env s) s₀ moves)
    (hrun : run (step env) s₀ moves = some s) :
    s.stateDataDir = s.memory.dataDir ∧ s.sendDataDir = s.memory.dataDir ∧
      ∀ name, (env.at s.stateDataDir).folderPath .inbox name = s.memory.inboxDir name ∧
        (env.at s.stateDataDir).folderPath .sent name = s.memory.sentDir name ∧
        joinPath (joinPath s.sendDataDir "sent".toList) name = s.memory.sentDir name := by
  have h : RootKept s := run_invariant (fun s m s' hs hm hstep => rootKept_step hs hm hstep)
    (rootKept_start hstart) hallowed hrun
  refine ⟨h.state, h.send, fun name => ⟨?_, ?_, ?_⟩⟩
  · change joinPath (joinPath s.stateDataDir "inbox".toList) name = _
    rw [h.state]
    rfl
  · change joinPath (joinPath s.stateDataDir "sent".toList) name = _
    rw [h.state]
    rfl
  · rw [h.send]
    rfl

end Root

/-! ## A reload that moves the root -/

/-- Surroundings with a file for each of two data directories. -/
def twoRoots : ServerEnv :=
  sampleServer [sampleConfigAt "/var/lib/aimx", sampleConfigAt "/srv/mail"]

/-- A reload of the file that the daemon started with. -/
def quietMoves : List Move := [.readFile, .storeReload]

/-- In this run the root stays what it was. -/
theorem storage_root_is_one_quiet : ∃ s₀ s,
    start twoRoots none (sampleDisk (sampleConfigAt "/var/lib/aimx")) = some s₀ ∧
      run (step twoRoots) s₀ quietMoves = some s ∧
      s.stateDataDir = s.memory.dataDir ∧ s.sendDataDir = s.memory.dataDir := by
  obtain ⟨s₀, s, hstart, hrun, -⟩ := exists_run twoRoots none
    (sampleDisk (sampleConfigAt "/var/lib/aimx")) quietMoves (fun s => s.reloading.isNone)
    (by decide +kernel)
  have hallowed : (start twoRoots none (sampleDisk (sampleConfigAt "/var/lib/aimx"))).all
      (fun s₀ => Allowed (step twoRoots) (fun s m => m.ReadsOwnRoot twoRoots s) s₀ quietMoves) =
        true := by decide +kernel
  rw [hstart, Option.all_some, decide_eq_true_eq] at hallowed
  obtain ⟨hstate, hsend, -⟩ := storage_root_is_one hstart hallowed hrun
  exact ⟨s₀, s, hstart, hrun, hstate, hsend⟩

/-- The operator changes `data_dir` and sends SIGHUP; or the daemon was started with an override and
gets a SIGHUP. -/
theorem reload_moves_root :
    (∃ s₀ s, start twoRoots none (sampleDisk (sampleConfigAt "/var/lib/aimx")) = some s₀ ∧
      run (step twoRoots) s₀
        [.edit (sampleFile (sampleConfigAt "/srv/mail")), .readFile, .storeReload] = some s ∧
      s.stateDataDir = "/var/lib/aimx".toList ∧ s.memory.dataDir = "/srv/mail".toList) ∧
    ∃ s₀ s, start twoRoots (some "/mnt/aimx".toList)
        (sampleDisk (sampleConfigAt "/var/lib/aimx")) = some s₀ ∧
      run (step twoRoots) s₀ [.readFile, .storeReload] = some s ∧
      s.stateDataDir = "/mnt/aimx".toList ∧ s.memory.dataDir = "/var/lib/aimx".toList :=
  ⟨exists_run _ _ _ _ _ (by decide +kernel), exists_run _ _ _ _ _ (by decide +kernel)⟩

end Daemon
end Aimx
