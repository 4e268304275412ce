import Aimx.Upgrade.Run

/-!
# What an upgrade leaves behind

A run that is rolled back should leave the binary it found, with the service started on it.  The rollback
routine looks at nothing but whether a `.prev` file exists, and starts a service that may still be running.

* `firstFailure`, `backup`, `slot` — where the swap stops, and the two files it stops with;
* `keeps_attemptRollback_iff` — the way back, from any two files;
* `swap_cases`, `keeps_swap_iff` — the swap as its first failure and the way back from there;
* `runUpgrade_keeps_iff` — the runs that keep the promise.
-/

namespace Aimx
namespace Upgrade

open Text

section Rollback

variable (env : UpgradeEnv) (faults : Faults)

/-! ## The promise -/

/-- The binary that an upgrade is about to install. -/
def newBinary (args : UpgradeArgs) : Option Bytes :=
  match prepare env faults args with
  | .ok (.staged _ _ content) => some content
  | _ => none

/-- The promise of an upgrade to the binary `new` that found the host `before`. -/
def Keeps (new : Option Bytes) (before : Host) : Host × Except UpgradeError UpgradeReport → Prop
  | (after, .error (.rolledBack _ _ _)) =>
      after.install = before.install ∧ after.lastStarted = before.install
  | (_, .error (.rollbackFailed _ _ _ _)) => True
  | (after, .error _) => after.install = before.install ∧ after.prev = before.prev
  | (after, .ok report) =>
      if report.outcome = some .upgraded then
        new.isSome = true ∧ after.install = new ∧ after.prev = before.install
      else after.install = before.install ∧ after.prev = before.prev

instance (new : Option Bytes) (before : Host) (run : Host × Except UpgradeError UpgradeReport) :
    Decidable (Keeps new before run) :=
  match run with
  | (_, .error (.rolledBack _ _ _)) => inferInstanceAs (Decidable (_ ∧ _))
  | (_, .error (.rollbackFailed _ _ _ _)) => inferInstanceAs (Decidable True)
  | (_, .error .notRoot) => inferInstanceAs (Decidable (_ ∧ _))
  | (_, .error (.release _)) => inferInstanceAs (Decidable (_ ∧ _))
  | (_, .error (.preSwap _ _)) => inferInstanceAs (Decidable (_ ∧ _))
  | (_, .ok report) =>
      inferInstanceAs (Decidable (if report.outcome = some .upgraded then _ ∧ _ ∧ _ else _ ∧ _))

/-! ## The way back -/

/-- The file that the way back leaves at the install path, from the files at `.prev` and there. -/
def restored (prev install : Option Bytes) : Option Bytes :=
  if seen faults .statPrevBack prev then prev else install

/-- Some call of the way back fails. -/
def RollbackFails (prev install : Option Bytes) : Prop :=
  (seen faults .statPrevBack prev = true ∧
    ((seen faults .statInstallBack install = true ∧ (faults .removeBack).isSome = true) ∨
      (faults .renameBack).isSome = true)) ∨
  (faults .startBack).isSome = true

/-- The old binary is put back unless a call fails. -/
theorem restorePrevious_cases (installPath : Str) (host : Host) :
    (∃ after e, RollbackFails faults host.prev host.install ∧
      restorePrevious faults installPath host = (after, .error e)) ∨
    (∃ prev, ((faults .startBack).isSome = true ↔ RollbackFails faults host.prev host.install) ∧
      restorePrevious faults installPath host =
        ({ host with install := restored faults host.prev host.install, prev := prev }, .ok ())) := by
  unfold restorePrevious RollbackFails restored
  by_cases hprev : seen faults .statPrevBack host.prev = true
  · rw [if_neg (by simp [hprev]), if_pos hprev]
    by_cases hinstall : seen faults .statInstallBack host.install = true
    · rw [if_pos hinstall]
      cases hremove : faults .removeBack with
      | some e => exact .inl ⟨host, _, by simp [hprev, hinstall], rfl⟩
      | none =>
          cases hrename : faults .renameBack with
          | some e => exact .inl ⟨_, _, by simp [hprev], rfl⟩
          | none => exact .inr ⟨none, by simp, rfl⟩
    · rw [if_neg hinstall]
      cases hrename : faults .renameBack with
      | some e => exact .inl ⟨_, _, by simp [hprev], rfl⟩
      | none => exact .inr ⟨none, by simp [hinstall], rfl⟩
  · rw [if_pos (by simp [hprev]), if_neg hprev]
    exact .inr ⟨host.prev, by simp [hprev], rfl⟩

/-- The way back keeps the promise when it fails, or when it puts back the binary that was there and the
service ends up on it. -/
theorem keeps_attemptRollback_iff (new : Option Bytes) (before : Host) (installPath : Str)
    (failedStep : UpgradeStep) (cause previousTag : Str) (host : Host) :
    Keeps new before (attemptRollback faults installPath failedStep cause previousTag host) ↔
      RollbackFails faults host.prev host.install ∨
        (restored faults host.prev host.install = before.install ∧
          (host.running.isSome = true → host.lastStarted = before.install)) := by
  unfold attemptRollback
  obtain ⟨after, e, hfails, heq⟩ | ⟨prev, hstart, heq⟩ := restorePrevious_cases faults installPath host
  · rw [heq]
    exact iff_of_true trivial (.inl hfails)
  · rw [heq, ← hstart]
    unfold startService
    cases hfault : faults .startBack with
    | some e => exact iff_of_true trivial (.inl rfl)
    | none =>
        dsimp only
        by_cases hrunning : host.running.isSome = true
        · rw [if_pos hrunning]
          simp [Keeps, hrunning]
        · rw [if_neg hrunning]
          simp [Keeps, hrunning]

/-! ## The swap -/

/-- The old binary is moved to `.prev`. -/
def moved (host : Host) : Bool := seen faults .statInstall host.install && (faults .preserve).isNone

/-- The first step behind the stop that goes wrong. -/
def firstFailure (installPath : Str) (host : Host) : Option UpgradeStep :=
  if seen faults .statInstall host.install && (faults .preserve).isSome then some .preserveOldBinary
  else if (parentDir installPath).isNone || (faults .copy).isSome || (faults .chmod).isSome ||
      (faults .install).isSome then some .installNewBinary
  else if (faults .start).isSome then some .startService
  else if !env.ready then some .waitForReady
  else none

/-- The file at `.prev` when a step behind the stop goes wrong. -/
def backup (host : Host) : Option Bytes := if moved faults host then host.install else host.prev

/-- The file at the install path when a step behind the stop goes wrong. -/
def slot (content : Bytes) (host : Host) (step : UpgradeStep) : Option Bytes :=
  if step = .startService ∨ step = .waitForReady then some content
  else if moved faults host then none
  else host.install

/-- What is left of the host when a step behind the stop goes wrong. -/
def stopped (content : Bytes) (host : Host) (step : UpgradeStep) : Host where
  install := slot faults content host step
  prev := backup faults host
  running := if step = .waitForReady ∧ env.exitsUnready = false then some content else none
  lastStarted := if step = .waitForReady then some content else host.lastStarted

/-- Keeping the old binary fails exactly as `firstFailure` says, and leaves it alone. -/
theorem preservePreviousBinary_cases (installPath : Str) (host : Host) :
    ((seen faults .statInstall host.install && (faults .preserve).isSome) = true ∧
      moved faults host = false ∧
      ∃ e, preservePreviousBinary faults installPath host = (host, .error e)) ∨
    ((seen faults .statInstall host.install && (faults .preserve).isSome) = false ∧
      preservePreviousBinary faults installPath host =
        ({ host with
            install := if moved faults host then none else host.install
            prev := backup faults host }, .ok ())) := by
  unfold preservePreviousBinary backup moved
  by_cases hseen : seen faults .statInstall host.install = true
  · rw [if_neg (by simp [hseen])]
    cases hpreserve : faults .preserve with
    | some e => exact .inl ⟨by simp [hseen], by simp, _, rfl⟩
    | none => exact .inr ⟨by simp, by simp [hseen]⟩
  · rw [if_pos (by simp [hseen])]
    exact .inr ⟨by simp [hseen], by simp [hseen]⟩

/-- Installing the new binary fails exactly as `firstFailure` says, and then changes nothing. -/
theorem installBinary_cases (installPath : Str) (content : Bytes) (host : Host) :
    (((parentDir installPath).isNone || (faults .copy).isSome || (faults .chmod).isSome ||
        (faults .install).isSome) = true ∧
      ∃ e, installBinary faults installPath content host = (host, .error e)) ∨
    (((parentDir installPath).isNone || (faults .copy).isSome || (faults .chmod).isSome ||
        (faults .install).isSome) = false ∧
      installBinary faults installPath content host =
        ({ host with install := some content }, .ok ())) := by
  unfold installBinary
  cases parentDir installPath with
  | none => exact .inl ⟨rfl, _, rfl⟩
  | some parent =>
      cases faults .copy with
      | some e => exact .inl ⟨by simp, _, rfl⟩
      | none =>
          cases faults .chmod with
          | some e => exact .inl ⟨by simp, _, rfl⟩
          | none =>
              cases faults .install with
              | some e => exact .inl ⟨by simp, _, rfl⟩
              | none => exact .inr ⟨by simp, rfl⟩

/-- A swap goes back from the step that fails first, or completes. -/
theorem swap_cases (report : UpgradeReport) (installPath : Str) (content : Bytes) (host : Host)
    (hrunning : host.running = none) :
    (∃ step cause, firstFailure env faults installPath host = some step ∧
      swap env faults report installPath content host =
        attemptRollback faults installPath step cause report.currentTag
          (stopped env faults content host step)) ∨
    (firstFailure env faults installPath host = none ∧
      ∃ after report', swap env faults report installPath content host = (after, .ok report') ∧
        report'.outcome = some .upgraded ∧ after.install = some content ∧
        after.prev = backup faults host) := by
  unfold swap firstFailure
  obtain ⟨hfail, hmoved, e, heq⟩ | ⟨hfail, heq⟩ := preservePreviousBinary_cases faults installPath host
  · rw [heq, if_pos hfail]
    refine .inl ⟨_, e, rfl, ?_⟩
    have hhost : stopped env faults content host .preserveOldBinary = host := by
      simp [stopped, slot, backup, hmoved, ← hrunning]
    rw [hhost]
  · rw [heq, if_neg (by simp [hfail])]
    dsimp only
    obtain ⟨hfail, e, heq⟩ | ⟨hfail, heq⟩ := installBinary_cases faults installPath content
      { host with
        install := if moved faults host then none else host.install
        prev := backup faults host }
    · rw [heq, if_pos hfail]
      refine .inl ⟨_, e, rfl, ?_⟩
      simp [stopped, slot, hrunning]
    · rw [heq, if_neg (by simp [hfail])]
      dsimp only [startService]
      cases hstart : faults .start with
      | some e =>
          refine .inl ⟨.startService, e, by simp, ?_⟩
          simp [stopped, slot, hrunning]
      | none =>
          simp only [hrunning, Option.isSome_none, Bool.false_eq_true, if_false]
          cases hready : env.ready with
          | true => exact .inr ⟨rfl, _, _, rfl, rfl, rfl, rfl⟩
          | false =>
              refine .inl ⟨.waitForReady, "service did not reach ready state within timeout".toList, rfl, ?_⟩
              cases hexit : env.exitsUnready <;> simp [stopped, slot, hexit]

/-! ## The runs that keep the promise -/

/-- The swap keeps the promise: it completes with the old binary at `.prev`, or the way back fails, or the
file that the way back picks has the old content and the service is not left running on another. -/
def SwapKeeps (installPath : Str) (content : Bytes) (host : Host) : Prop :=
  match firstFailure env faults installPath host with
  | none => moved faults host = true ∨ host.prev = host.install
  | some step =>
      RollbackFails faults (backup faults host) (slot faults content host step) ∨
        (restored faults (backup faults host) (slot faults content host step) = host.install ∧
          (step = .waitForReady → env.exitsUnready = true ∨ some content = host.install))

theorem keeps_swap_iff (report : UpgradeReport) (installPath : Str) (content : Bytes) (host : Host) :
    Keeps (some content) host
        (swap env faults report installPath content { host with running := none }) ↔
      SwapKeeps env faults installPath content host := by
  unfold SwapKeeps
  obtain ⟨step, cause, hfirst, heq⟩ | ⟨hfirst, after, report', heq, hout, hinstall, hprev⟩ :=
    swap_cases env faults report installPath content { host with running := none } rfl
  · rw [heq, keeps_attemptRollback_iff]
    have hfirst' : firstFailure env faults installPath host = some step := hfirst
    rw [hfirst']
    refine or_congr Iff.rfl (and_congr Iff.rfl ?_)
    by_cases hwait : step = .waitForReady
    · cases hexit : env.exitsUnready <;> simp [stopped, hwait, hexit]
    · simp [stopped, hwait]
  · have hfirst' : firstFailure env faults installPath host = none := hfirst
    rw [heq, hfirst']
    have hbackup : after.prev = host.install ↔ moved faults host = true ∨ host.prev = host.install := by
      rw [hprev]
      show (if moved faults host = true then host.install else host.prev) = host.install ↔ _
      by_cases hmoved : moved faults host = true <;> simp [hmoved]
    simp [Keeps, hout, hinstall, hbackup]

/-- The path of the running binary is looked up before the swap. -/
theorem resolveInstallPath_eq_error {env : UpgradeEnv} {e : UpgradeError}
    (h : resolveInstallPath env = .error e) : ∃ cause, e = .preSwap .resolveManifest cause := by
  unfold resolveInstallPath at h
  split at h
  · cases h
    exact ⟨_, rfl⟩
  · cases h

/-- Up to the stop of the service an upgrade keeps the promise by doing nothing. -/
theorem keeps_of_prepare (args : UpgradeArgs) (new : Option Bytes) (host : Host) :
    (∀ e, prepare env faults args = .error e → Keeps new host (host, .error e)) ∧
      ∀ report, prepare env faults args = .ok (.done report) → Keeps new host (host, .ok report) := by
  fun_cases prepare env faults args
  all_goals refine ⟨fun e h => ?_, fun report h => ?_⟩ <;> cases h
  case case4 hpath =>
    -- the only error that comes from a call of its own
    obtain ⟨cause, rfl⟩ := resolveInstallPath_eq_error hpath
    exact ⟨rfl, rfl⟩
  all_goals exact ⟨rfl, rfl⟩

/-- An upgrade completes or leaves the old version running, for exactly the hosts and failures for which
its swap does. -/
theorem runUpgrade_keeps_iff (args : UpgradeArgs) (host : Host) :
    Keeps (newBinary env faults args) host (runUpgrade env faults args host) ↔
      ∀ report installPath content,
        prepare env faults args = .ok (.staged report installPath content) → faults .stop = none →
          SwapKeeps env faults installPath content host := by
  unfold runUpgrade newBinary
  cases hprepare : prepare env faults args with
  | error e =>
      refine iff_of_true ?_ (fun _ _ _ h => nomatch h)
      exact (keeps_of_prepare env faults args none host).1 e hprepare
  | ok prepared =>
      cases prepared with
      | done report =>
          refine iff_of_true ?_ (fun _ _ _ h => nomatch h)
          exact (keeps_of_prepare env faults args none host).2 report hprepare
      | staged report installPath content =>
          cases hstop : faults .stop with
          | some e => exact iff_of_true ⟨rfl, rfl⟩ (fun _ _ _ _ h => nomatch h)
          | none =>
              dsimp only
              rw [keeps_swap_iff]
              constructor
              · rintro h _ _ _ heq -
                cases heq
                exact h
              · exact fun h => h _ _ _ rfl rfl

end Rollback

/-! ## Two runs that break it -/

/-- A release with one archive, and a host on which every lookup succeeds. -/
def sampleUpgradeEnv (ready : Bool) : UpgradeEnv where
  isRoot := true
  releaseTag := "1.0.0".toList
  targetTriple := "x86_64-unknown-linux-gnu".toList
  releaseByTag := fun name => .error (.assetNotFound name)
  latestRelease := .ok ⟨"1.1.0".toList,
    [("aimx-1.1.0-x86_64-linux-gnu.tar.gz".toList, "https://host/aimx.tar.gz".toList)]⟩
  fetchAsset := fun _ => .ok [0]
  binaryPath := .ok "/usr/local/bin/aimx".toList
  canonicalize := some
  tempDir := "/tmp/x".toList
  unpack := fun _ => .ok fun path =>
    if path = "aimx-1.1.0-x86_64-linux-gnu/aimx".toList then some (.file [3]) else none
  ready := ready
  exitsUnready := false

/-- A host with a binary in use and the one before it still at `.prev`. -/
def sampleHost : Host := ⟨some [2], some [1], some [2], some [2]⟩

/-- The rename to `.prev` fails and no other call does. -/
def sampleFaults : Faults := fun call => if call = .preserve then some "EACCES".toList else none

/-- When the old binary cannot be moved, the rollback puts an older one in its place; and when the new
service does not answer but still runs, the rollback leaves it running. -/
theorem rollback_of_leftover :
    ¬ Keeps (newBinary (sampleUpgradeEnv true) sampleFaults ⟨false, none, false⟩) sampleHost
        (runUpgrade (sampleUpgradeEnv true) sampleFaults ⟨false, none, false⟩ sampleHost) ∧
      (runUpgrade (sampleUpgradeEnv true) sampleFaults ⟨false, none, false⟩ sampleHost).1.install =
        some [1] ∧
      ¬ Keeps (newBinary (sampleUpgradeEnv false) (fun _ => none) ⟨false, none, false⟩) sampleHost
        (runUpgrade (sampleUpgradeEnv false) (fun _ => none) ⟨false, none, false⟩ sampleHost) := by
  decide +kernel

end Upgrade
end Aimx
