import Aimx.Daemon.Accept
import Aimx.Daemon.Refused
import Aimx.Daemon.Schedule

/-!
# Restarts after requests

The handlers check some rules when a request comes in, and the loader checks others when the daemon starts:
the owners of the mailboxes, and a scan of the lines of the file for keys of older versions, which does not
know where a text of several lines begins and ends.

* `LoadsBack` — the law: the file is loaded, and gives back the configuration in memory;
* `KeepsLoadable` — the condition on a request;
* `loadsBack_run_iff` — the sequences of requests after each of which the daemon could start again;
* `loadsBack_rootOwner` — a request after which it could not.
-/

namespace Aimx
namespace Daemon

open Text Protocol Transition

/-- The law: the file is accepted by a load, which gives back the configuration in memory. -/
def LoadsBack (env : ServerEnv) (world : World) : Prop :=
  ∃ warnings, load env.load world.disk.config = .ok (world.memory, warnings)

/-- The law for the file behind a request. -/
def LoadsBackAfter (env : ServerEnv) (world : World) (r : Round) : Prop :=
  LoadsBack env (handle env.handlers r.faults world r.caller r.request).1

/-- The condition on a request: if it is carried out, it does not give a new mailbox to root, and the scan for
keys of older versions finds none in the lines that are printed of the new configuration. -/
def KeepsLoadable (env : ServerEnv) (world : World) (r : Round) : Prop :=
  ∀ plan, r.request.check env.handlers world.memory r.caller = .ok plan →
    plan.Succeeds env.handlers r.faults r.caller world.memory world.disk →
      plan.SparesRoot ∧ ∀ text, env.handlers.print (plan.result env.handlers.sha256 world.memory) = .ok text →
        rejectLegacySchema text = .ok ()

section Runs

variable {env : ServerEnv} {world : World}

/-- A request that is refused changes neither the configuration nor the file. -/
theorem handle_err {faults : Faults} {caller : Caller} {req : ConfigRequest} {reject : Reject}
    (h : (handle env.handlers faults world caller req).2 = .err reject) :
    (handle env.handlers faults world caller req).1.memory = world.memory ∧
      (handle env.handlers faults world caller req).1.disk.config = world.disk.config := by
  unfold handle at h ⊢
  split
  next => exact ⟨rfl, rfl⟩
  next plan hcheck =>
      rw [hcheck] at h
      dsimp only at h ⊢
      split
      next disk reject' hexecute => exact ⟨rfl, Plan.execute_error hexecute⟩
      next disk config hexecute =>
          rw [hexecute] at h
          cases h

/-- A request that is answered OK has written the configuration that is in memory afterwards. -/
theorem handle_ok {faults : Faults} {caller : Caller} {req : ConfigRequest}
    (h : (handle env.handlers faults world caller req).2 = .ok) :
    ∃ plan, req.check env.handlers world.memory caller = .ok plan ∧
      Commits env.handlers caller world.memory plan ∧
      (handle env.handlers faults world caller req).1.memory =
        plan.result env.handlers.sha256 world.memory ∧
      env.handlers.print (handle env.handlers faults world caller req).1.memory =
        .ok (handle env.handlers faults world caller req).1.disk.config := by
  unfold handle at h ⊢
  cases hcheck : req.check env.handlers world.memory caller with
  | error reject =>
      rw [hcheck] at h
      cases h
  | ok plan =>
      rw [hcheck] at h
      dsimp only at h ⊢
      split
      next disk reject hexecute =>
          rw [hexecute] at h
          cases h
      next disk config hexecute =>
          obtain ⟨hcommits, hnext, hprint⟩ := Plan.execute_ok hexecute
          exact ⟨plan, rfl, hcommits, hnext, hprint⟩

/-- A printed configuration is loaded as itself if it is loaded at all. -/
theorem loadsBack_iff_of_print (hround : env.RoundTrips)
    (hprint : env.handlers.print world.memory = .ok world.disk.config) :
    LoadsBack env world ↔
      rejectLegacySchema world.disk.config = .ok () ∧ Accepted env.handlers.sha256 world.memory := by
  constructor
  · rintro ⟨warnings, hload⟩
    exact (hround.load_iff hprint).mp ⟨_, hload⟩
  · rintro ⟨hlegacy, haccepted⟩
    exact hround.exists_load hprint hlegacy haccepted

/-- One request. -/
theorem loadsBackAfter_iff (hround : env.RoundTrips) (h : LoadsBack env world) (r : Round) :
    LoadsBackAfter env world r ↔ KeepsLoadable env world r := by
  obtain ⟨warnings, hload⟩ := h
  obtain ⟨-, haccepted, -⟩ := load_eq_ok hload
  unfold LoadsBackAfter KeepsLoadable
  rcases handle_outcome env.handlers world r with ⟨⟨plan, hcheck, hall⟩, -, hok⟩ | ⟨hnot, ⟨reject, herr⟩, -⟩
  · obtain ⟨plan', hcheck', hcommits, hmemory, hprint⟩ := handle_ok hok
    cases hcheck.symm.trans hcheck'
    have hfits := (ConfigRequest.check_eq_ok hcheck).fits
    rw [loadsBack_iff_of_print hround hprint, hmemory, hcommits.accepted_result_iff haccepted hfits]
    rw [hmemory] at hprint
    constructor
    · rintro ⟨hlegacy, hspares⟩ plan' hcheck' -
      cases hcheck.symm.trans hcheck'
      refine ⟨hspares, fun text htext => ?_⟩
      cases hprint.symm.trans htext
      exact hlegacy
    · intro hkeeps
      obtain ⟨hspares, hlegacy⟩ := hkeeps plan hcheck hall
      exact ⟨hlegacy _ hprint, hspares⟩
  · obtain ⟨hmemory, hconfig⟩ := handle_err herr
    unfold LoadsBack
    rw [hmemory, hconfig]
    exact iff_of_true ⟨warnings, hload⟩ fun plan hcheck hall => absurd ⟨plan, hcheck, hall⟩ hnot

/-- **After each request of a sequence the daemon can start again with the configuration it has in memory,
exactly if no request that is carried out gives a new mailbox to root or makes a line that looks like a key
of an older version.** -/
theorem loadsBack_run_iff (hround : env.RoundTrips) (h : LoadsBack env world) (rounds : List Round) :
    Allowed (serve env.handlers) (LoadsBackAfter env) world rounds ↔
      Allowed (serve env.handlers) (KeepsLoadable env) world rounds := by
  induction rounds generalizing world with
  | nil => exact Iff.rfl
  | cons r rounds ih =>
      rw [Allowed, Allowed]
      show _ ∧ Allowed _ _ (handle env.handlers r.faults world r.caller r.request).1 rounds ↔
        _ ∧ Allowed _ _ (handle env.handlers r.faults world r.caller r.request).1 rounds
      constructor
      · rintro ⟨hafter, hrest⟩
        exact ⟨(loadsBackAfter_iff hround h r).mp hafter, (ih hafter).mp hrest⟩
      · rintro ⟨hkeeps, hrest⟩
        have hafter := (loadsBackAfter_iff hround h r).mpr hkeeps
        exact ⟨hafter, (ih hafter).mpr hrest⟩

end Runs

/-! ## Two requests -/

/-- The law, evaluated. -/
theorem loadsBack_of_any {env : ServerEnv} {world : World}
    (h : ((load env.load world.disk.config).toOption.any fun r => sameConfig r.1 world.memory) = true) :
    LoadsBack env world := by
  obtain ⟨⟨config, warnings⟩, hload, hsame⟩ := (Option.any_eq_true _ _).mp h
  obtain rfl := sameConfig_iff.mp hsame
  cases hresult : load env.load world.disk.config with
  | error e =>
      rw [hresult] at hload
      cases hload
  | ok r =>
      rw [hresult] at hload
      cases hload
      exact ⟨warnings, hresult⟩

theorem sampleServer_print {configs : List Config} {config : Config}
    (h : configs.any (sameConfig config) = true) :
    (sampleServer configs).handlers.print config = .ok (sampleFile config) :=
  if_pos h

/-- A configuration without mailboxes, and what it becomes when a mailbox is made. -/
def beforeAndAfter (name owner : String) : List Config :=
  [sampleConfig [], (sampleConfig []).insertMailbox name.toList
    (newMailbox (sampleConfig []) name.toList owner.toList)]

/-- A daemon that has just been started on it. -/
def freshWorld : World := ⟨sampleConfig [], sampleDisk (sampleConfig [])⟩

/-- Bob makes a mailbox for himself, and the daemon can start again. -/
theorem loadsBack_run_bob :
    Allowed (serve (sampleServer (beforeAndAfter "notes" "bob")).handlers)
      (LoadsBackAfter (sampleServer (beforeAndAfter "notes" "bob"))) freshWorld
      [⟨sampleBob, .mailbox ⟨"notes".toList, true, none, false⟩, fun _ => none⟩] := by
  have hround : (sampleServer (beforeAndAfter "notes" "bob")).RoundTrips :=
    sampleServer_roundTrips (by decide +kernel)
  have hfresh : LoadsBack (sampleServer (beforeAndAfter "notes" "bob")) freshWorld :=
    loadsBack_of_any (by decide +kernel)
  refine (loadsBack_run_iff hround hfresh _).mpr ⟨fun plan hcheck _ => ?_, trivial⟩
  have hplan : plan = .mailboxCreate "notes".toList "bob".toList := by
    have hbob : ConfigRequest.check (sampleServer (beforeAndAfter "notes" "bob")).handlers freshWorld.memory
        sampleBob (.mailbox ⟨"notes".toList, true, none, false⟩) =
          .ok (.mailboxCreate "notes".toList "bob".toList) := by
      rfl
    cases hcheck.symm.trans hbob
    rfl
  subst hplan
  refine ⟨show "bob".toList ≠ reservedRunAsRoot by decide, fun text htext => ?_⟩
  have hsome : (beforeAndAfter "notes" "bob").any (sameConfig ((sampleConfig []).insertMailbox "notes".toList
      (newMailbox (sampleConfig []) "notes".toList "bob".toList))) = true := by
    decide +kernel
  have hprint := sampleServer_print hsome
  cases hprint.symm.trans htext
  decide +kernel

/-- Root makes a mailbox for itself, which the daemon allows; and the daemon would not start with it. -/
theorem loadsBack_rootOwner :
    (sampleServer (beforeAndAfter "ops" "root")).RoundTrips ∧
      LoadsBack (sampleServer (beforeAndAfter "ops" "root")) freshWorld ∧
      ¬ Allowed (serve (sampleServer (beforeAndAfter "ops" "root")).handlers)
        (LoadsBackAfter (sampleServer (beforeAndAfter "ops" "root"))) freshWorld
        [⟨sampleRoot, .mailbox ⟨"ops".toList, true, some "root".toList, false⟩, fun _ => none⟩] := by
  refine ⟨sampleServer_roundTrips (by decide +kernel), loadsBack_of_any (by decide +kernel), ?_⟩
  rintro ⟨⟨warnings, hload⟩, -⟩
  have hnone : (load (sampleServer (beforeAndAfter "ops" "root")).load (handle
      (sampleServer (beforeAndAfter "ops" "root")).handlers (fun _ => none) freshWorld sampleRoot
      (.mailbox ⟨"ops".toList, true, some "root".toList, false⟩)).1.disk.config).toOption.isNone = true := by
    decide +kernel
  rw [hload] at hnone
  cases hnone

end Daemon
end Aimx
