import Aimx.Text.Path
import Aimx.Text.Utf8

/-!
# The upgrade

`aimx upgrade`: the release is looked up, fetched and unpacked, the service is stopped, the binary is
replaced with the old one kept at `.prev`, and the service is started.  A failure behind the stop goes to
one rollback routine, which puts `.prev` back if there is one and starts the service.  The network, the
archive format and the failures of the single calls are parameters.

* `prepare` — everything before the service is stopped;
* `swap`, `attemptRollback` — everything after, and the way back;
* `runUpgrade` — the whole command.
-/

namespace Aimx
namespace Upgrade

open Text

/-! ## Steps and outcomes -/

/-- `UpgradeStep`. -/
inductive UpgradeStep
  | resolveManifest
  | compareTag
  | fetchTarball
  | extractTarball
  | stopService
  | preserveOldBinary
  | installNewBinary
  | startService
  | waitForReady
  deriving DecidableEq

/-- `Outcome`. -/
inductive Outcome
  | upToDate
  | dryRun
  | upgraded
  deriving DecidableEq

/-- `UpgradeReport`. -/
structure UpgradeReport where
  steps : List UpgradeStep
  currentTag : Str
  targetTag : Str
  tarballUrl : Option Str
  installPath : Option Str
  outcome : Option Outcome
  deriving DecidableEq

/-- `UpgradeReport::record`. -/
def UpgradeReport.record (report : UpgradeReport) (step : UpgradeStep) : UpgradeReport :=
  { report with steps := report.steps ++ [step] }

/-- `ReleaseError`, with the variants of the network collapsed into their text. -/
inductive ReleaseError
  | assetNotFound (name : Str)
  | other (text : Str)
  deriving DecidableEq

/-- `UpgradeError`. -/
inductive UpgradeError
  | notRoot
  | release (e : ReleaseError)
  | preSwap (step : UpgradeStep) (cause : Str)
  | rolledBack (failedStep : UpgradeStep) (cause previousTag : Str)
  | rollbackFailed (originalStep : UpgradeStep) (originalCause : Str) (rollbackStep : UpgradeStep)
      (rollbackCause : Str)
  deriving DecidableEq

/-! ## The host -/

/-- The host as far as an upgrade changes it: the files at the install path and at `.prev`, the binary
that the running service was started from, and the binary of the last start. -/
structure Host where
  install : Option Bytes
  prev : Option Bytes
  running : Option Bytes
  lastStarted : Option Bytes
  deriving DecidableEq

/-- The calls of an upgrade that can fail; those that also occur in the rollback have a call of their own
there. -/
inductive Call
  | tempdir
  | statStaged
  | stop
  | statInstall
  | preserve
  | copy
  | chmod
  | install
  | start
  | statPrevBack
  | statInstallBack
  | removeBack
  | renameBack
  | startBack
  deriving DecidableEq

/-- The error of every call that fails. -/
abbrev Faults := Call → Option Str

/-- What the archive has at a path. -/
inductive Unpacked
  | file (content : Bytes)
  | other
  deriving DecidableEq

/-- `ReleaseManifest`, as far as an upgrade reads it. -/
structure ReleaseManifest where
  tag : Str
  assetUrls : List (Str × Str)
  deriving DecidableEq

/-- `UpgradeArgs`. -/
structure UpgradeArgs where
  dryRun : Bool
  version : Option Str
  force : Bool

/-- The surroundings: the invoking user, the version of the running binary, the release server, the path
of the running binary, the temporary directory and the unpacked archive, whether the service answers on
its port after the start, and whether it has exited if it does not. -/
structure UpgradeEnv where
  isRoot : Bool
  releaseTag : Str
  targetTriple : Str
  releaseByTag : Str → Except ReleaseError ReleaseManifest
  latestRelease : Except ReleaseError ReleaseManifest
  fetchAsset : Str → Except ReleaseError Bytes
  binaryPath : Except Str Str
  canonicalize : Str → Option Str
  tempDir : Str
  unpack : Bytes → Except Str (Str → Option Unpacked)
  ready : Bool
  exitsUnready : Bool

/-- `canonical_version_tag`. -/
def canonicalVersionTag (tag : Str) : Str :=
  match tag with
  | 'v' :: c :: rest => if c.isDigit then c :: rest else tag
  | _ => tag

/-- `ReleaseManifest::asset_url`. -/
def ReleaseManifest.assetUrl (manifest : ReleaseManifest) (name : Str) : Except ReleaseError Str :=
  match manifest.assetUrls.find? fun asset => asset.1 == name with
  | some asset => .ok asset.2
  | none => .error (.assetNotFound name)

/-- `artifact_target`. -/
def artifactTarget (target : Str) : Str :=
  match target.dropInfix? "-unknown-".toList with
  | some (before, after) => before ++ "-".toList ++ after
  | none => target

/-- `tarball_inner_dir`. -/
def tarballInnerDir (tag target : Str) : Str :=
  "aimx-".toList ++ (stripPrefix "v".toList tag).getD tag ++ "-".toList ++ artifactTarget target

/-- `tarball_filename`. -/
def tarballFilename (tag target : Str) : Str := tarballInnerDir tag target ++ ".tar.gz".toList

/-- `prev_path`. -/
def prevPath (installPath : Str) : Str := installPath ++ ".prev".toList

/-! ## Before the stop -/

section Before

variable (env : UpgradeEnv) (faults : Faults)

/-- `resolve_install_path`. -/
def resolveInstallPath : Except UpgradeError Str :=
  match env.binaryPath with
  | .error e => .error (.preSwap .resolveManifest ("resolve current executable: ".toList ++ e))
  | .ok raw => .ok ((env.canonicalize raw).getD raw)

/-- `extract_tarball`, up to the content of the staged binary. -/
def extractTarball (bytes : Bytes) (tag target : Str) : Except Str Bytes :=
  match env.unpack bytes with
  | .error e => .error ("tar extract: ".toList ++ e)
  | .ok files =>
      let inner := tarballInnerDir tag target
      match files (joinPath inner "aimx".toList) with
      | none => .error ("tarball missing executable at ".toList ++ joinPath env.tempDir inner ++
          "/aimx".toList)
      | some staged =>
          match faults .statStaged with
          | some e => .error ("stat staged binary: ".toList ++ e)
          | none =>
              match staged with
              | .file content =>
                  if content = [] then
                    .error "staged binary is empty or not a regular file".toList
                  else .ok content
              | .other => .error "staged binary is empty or not a regular file".toList

/-- How far an upgrade gets without touching the service. -/
inductive Prepared
  | done (report : UpgradeReport)
  | staged (report : UpgradeReport) (installPath : Str) (content : Bytes)

/-- `run_upgrade` up to the stop of the service. -/
def prepare (args : UpgradeArgs) : Except UpgradeError Prepared :=
  let report : UpgradeReport := ⟨[], env.releaseTag, [], none, none, none⟩
  if !env.isRoot then .error .notRoot
  else
    let report := report.record .resolveManifest
    match (match args.version.map canonicalVersionTag with
      | some tag => env.releaseByTag tag
      | none => env.latestRelease) with
    | .error e => .error (.release e)
    | .ok manifest =>
        let report := { report with targetTag := manifest.tag }.record .compareTag
        if !args.force && manifest.tag == report.currentTag then
          .ok (.done { report with outcome := some .upToDate })
        else
          match resolveInstallPath env with
          | .error e => .error e
          | .ok installPath =>
              let report := { report with installPath := some installPath }
              match manifest.assetUrl (tarballFilename manifest.tag env.targetTriple) with
              | .error e => .error (.release e)
              | .ok url =>
                  let report := { report with tarballUrl := some url }.record .fetchTarball
                  match env.fetchAsset url with
                  | .error e => .error (.release e)
                  | .ok bytes =>
                      if args.dryRun then .ok (.done { report with outcome := some .dryRun })
                      else
                        let report := report.record .extractTarball
                        match faults .tempdir with
                        | some e => .error (.preSwap .extractTarball ("create tempdir: ".toList ++ e))
                        | none =>
                            match extractTarball env faults bytes manifest.tag env.targetTriple with
                            | .error cause => .error (.preSwap .extractTarball cause)
                            | .ok content =>
                                .ok (.staged (report.record .stopService) installPath content)

end Before

/-! ## After the stop -/

section After

variable (env : UpgradeEnv) (faults : Faults)

/-- `Path::exists`, for which a failing call is a missing path. -/
def seen (call : Call) (file : Option Bytes) : Bool := (faults call).isNone && file.isSome

/-- `preserve_previous_binary`. -/
def preservePreviousBinary (installPath : Str) (host : Host) : Host × Except Str Unit :=
  if !seen faults .statInstall host.install then (host, .ok ())
  else
    match faults .preserve with
    | some e => (host, .error ("rename ".toList ++ installPath ++ " → ".toList ++
        prevPath installPath ++ ": ".toList ++ e))
    | none => ({ host with install := none, prev := host.install }, .ok ())

/-- The file beside the binary that `install_binary` writes first. -/
def upgradeTmp (parent : Str) : Str :=
  if parent.isEmpty then ".aimx.upgrade.tmp".toList else joinPath parent ".aimx.upgrade.tmp".toList

/-- `install_binary`. -/
def installBinary (installPath : Str) (content : Bytes) (host : Host) : Host × Except Str Unit :=
  match parentDir installPath with
  | none => (host, .error ("install path ".toList ++ installPath ++ " has no parent directory".toList))
  | some parent =>
      match faults .copy with
      | some e => (host, .error ("copy staged → ".toList ++ upgradeTmp parent ++ ": ".toList ++ e))
      | none =>
          match faults .chmod with
          | some e => (host, .error ("chmod 0755 ".toList ++ upgradeTmp parent ++ ": ".toList ++ e))
          | none =>
              match faults .install with
              | some e => (host, .error ("rename ".toList ++ upgradeTmp parent ++ " → ".toList ++
                  installPath ++ ": ".toList ++ e))
              | none => ({ host with install := some content }, .ok ())

/-- `start_service`; the start of a running service does nothing. -/
def startService (call : Call) (host : Host) : Host × Except Str Unit :=
  match faults call with
  | some e => (host, .error e)
  | none =>
      if host.running.isSome then (host, .ok ())
      else ({ host with running := host.install, lastStarted := host.install }, .ok ())

/-- The part of `attempt_rollback` that puts the old binary back. -/
def restorePrevious (installPath : Str) (host : Host) : Host × Except Str Unit :=
  if !seen faults .statPrevBack host.prev then (host, .ok ())
  else
    match if seen faults .statInstallBack host.install then faults .removeBack else none with
    | some e => (host, .error ("remove ".toList ++ installPath ++ ": ".toList ++ e))
    | none =>
        match faults .renameBack with
        | some e =>
            ({ host with install := if seen faults .statInstallBack host.install then none
                else host.install },
              .error ("rename ".toList ++ prevPath installPath ++ " → ".toList ++ installPath ++
                ": ".toList ++ e))
        | none => ({ host with install := host.prev, prev := none }, .ok ())

/-- `attempt_rollback`. -/
def attemptRollback (installPath : Str) (failedStep : UpgradeStep) (cause previousTag : Str)
    (host : Host) : Host × Except UpgradeError UpgradeReport :=
  match restorePrevious faults installPath host with
  | (host, .error e) => (host, .error (.rollbackFailed failedStep cause .preserveOldBinary e))
  | (host, .ok ()) =>
      match startService faults .startBack host with
      | (host, .error e) => (host, .error (.rollbackFailed failedStep cause .startService e))
      | (host, .ok ()) => (host, .error (.rolledBack failedStep cause previousTag))

/-- `run_upgrade` behind the stop of the service. -/
def swap (report : UpgradeReport) (installPath : Str) (content : Bytes) (host : Host) :
    Host × Except UpgradeError UpgradeReport :=
  match preservePreviousBinary faults installPath host with
  | (host, .error e) =>
      attemptRollback faults installPath .preserveOldBinary e report.currentTag host
  | (host, .ok ()) =>
      match installBinary faults installPath content host with
      | (host, .error e) =>
          attemptRollback faults installPath .installNewBinary e report.currentTag host
      | (host, .ok ()) =>
          match startService faults .start host with
          | (host, .error e) =>
              attemptRollback faults installPath .startService e report.currentTag host
          | (host, .ok ()) =>
              if !env.ready then
                attemptRollback faults installPath .waitForReady
                  "service did not reach ready state within timeout".toList report.currentTag
                  { host with running := if env.exitsUnready then none else host.running }
              else
                (host, .ok
                  { report with
                    steps := report.steps ++ [.preserveOldBinary, .installNewBinary, .startService,
                      .waitForReady]
                    outcome := some .upgraded })

/-- `run_upgrade`. -/
def runUpgrade (args : UpgradeArgs) (host : Host) : Host × Except UpgradeError UpgradeReport :=
  match prepare env faults args with
  | .error e => (host, .error e)
  | .ok (.done report) => (host, .ok report)
  | .ok (.staged report installPath content) =>
      match faults .stop with
      | some e => (host, .error (.preSwap .stopService e))
      | none => swap env faults report installPath content { host with running := none }

end After

end Upgrade
end Aimx
