import Aimx.Daemon.Schedule

/-!
# The owner of a mailbox at the moment of an effect

A request on a hook and a mark are authorized on the configuration of their arrival, and take effect on the
one that they find under their locks.  In between the mailbox may be deleted and made again for somebody
else, or a reload may give it to somebody else.

* `Operation`, `TakesEffect` — the steps at which a hook is stored or removed and a message is rewritten;
* `Operation.Authorized`, `Operation.OwnerKept` — the law, and its condition;
* `CheckedOnArrival`, `checkedOnArrival_step` — what holds of the requests that wait, kept by every step;
* `authorized_run_iff` — the runs that obey the law;
* `authorized_givenAway` — a hook on a mailbox that was given to somebody else.
-/

namespace Aimx
namespace Daemon

open Text Protocol Transition

/-! ## The law and its condition -/

/-- What a request does to a mailbox: who does it, on which configuration it was checked, and on which one
it takes effect. -/
structure Operation where
  caller : Caller
  mailbox : Str
  snapshot : Config
  config : Config

/-- The owner of a mailbox. -/
def ownerIn (config : Config) (mailbox : Str) : Option Str :=
  (config.mailboxes.lookup mailbox).map MailboxConfig.owner

/-- It is done by root, or by the user that the mailbox belongs to in the configuration that it takes effect
on. -/
def Operation.Authorized (op : Operation) : Prop :=
  op.caller.isRoot = true ∨ ∃ owner, ownerIn op.config op.mailbox = some owner ∧
    op.caller.username = some owner

/-- It is done by root, or the mailbox belongs to whom it belonged to when the request was checked. -/
def Operation.OwnerKept (op : Operation) : Prop :=
  op.caller.isRoot = true ∨ ownerIn op.config op.mailbox = ownerIn op.snapshot op.mailbox

/-- The mailbox whose hooks a plan changes. -/
def Plan.hookMailbox : Plan → Option Str
  | .mailboxCreate _ _ => none
  | .mailboxDelete _ _ => none
  | .hookCreate mailbox _ => some mailbox
  | .hookDelete mailbox _ => some mailbox

/-- The steps at which a hook is stored or removed, and those at which a message is rewritten. -/
inductive TakesEffect (env : ServerEnv) (s : Server) : Move → Operation → Prop
  | hook {p : Pending} {current next : Config} {mailbox : Str}
      (hinside : s.inside = some (.renamed p current next)) (hplan : p.plan.hookMailbox = some mailbox) :
      TakesEffect env s .store ⟨p.caller, mailbox, p.snapshot, current⟩
  | mark {k : Nat} {mark : MarkEnv} {p : PendingMark} (hp : s.marking[k]? = some p)
      (hrewritten : (markFile (env.at s.stateDataDir) mark p.request s.disk).2 = .ok) :
      TakesEffect env s (.mark k mark) ⟨p.caller, p.request.mailbox, p.snapshot, s.memory⟩

/-- The law for one step. -/
def Lawful (env : ServerEnv) (s : Server) (m : Move) : Prop :=
  ∀ op, TakesEffect env s m op → op.Authorized

/-- The condition on one step. -/
def KeepsOwner (env : ServerEnv) (s : Server) (m : Move) : Prop :=
  ∀ op, TakesEffect env s m op → op.OwnerKept

/-! ## What waits has been checked -/

/-- A request on a hook was authorized on its snapshot. -/
def Pending.OwnedThen (p : Pending) : Prop :=
  ∀ mailbox, p.plan.hookMailbox = some mailbox →
    ∃ mb, p.snapshot.mailboxes.lookup mailbox = some mb ∧ p.caller.MayActFor mb

/-- A mark was authorized on its snapshot. -/
def PendingMark.OwnedThen (p : PendingMark) : Prop :=
  ∃ mb, p.snapshot.mailboxes.lookup p.request.mailbox = some mb ∧ p.caller.MayActFor mb

/-- Everything that is under way was authorized on its snapshot. -/
structure CheckedOnArrival (s : Server) : Prop where
  waiting : ∀ p ∈ s.waiting, p.OwnedThen
  inside : ∀ i, s.inside = some i → i.pending.OwnedThen
  marking : ∀ p ∈ s.marking, p.OwnedThen

section Checks

variable {env : ServerEnv} {s s' : Server}

/-- What passes the checks on a snapshot. -/
theorem ownedThen_of_check {caller : Caller} {request : ConfigRequest} {plan : Plan} {config : Config}
    (h : request.check env.handlers config caller = .ok plan) :
    (⟨caller, request, config, plan⟩ : Pending).OwnedThen := by
  intro mailbox hplan
  cases ConfigRequest.check_eq_ok h with
  | mailboxCreate hname hcreate howner => cases hplan
  | mailboxDelete hname hcreate => cases hplan
  | hookCreate hmb hact hcatchall hhook =>
      cases hplan
      exact ⟨_, hmb, hact⟩
  | hookDelete hfind hmb hact =>
      cases hplan
      exact ⟨_, hmb, hact⟩

theorem ownedThen_of_markCheck {caller : Caller} {request : MarkRequest} {config : Config}
    (h : markCheck config request caller = .ok ()) :
    (⟨caller, request, config⟩ : PendingMark).OwnedThen := by
  unfold markCheck at h
  split at h
  next => cases h
  next =>
      split at h
      next => cases h
      next mb hmb => exact ⟨mb, hmb, enforceMailboxOwnerOrRoot_eq_ok_iff.mp h⟩

/-- One step. -/
theorem checkedOnArrival_step {m : Move} (h : CheckedOnArrival s) (hstep : step env s m = some s') :
    CheckedOnArrival s' := by
  cases step_effect hstep with
  | refuse => exact h
  | @arrive caller request plan hcheck =>
      refine ⟨?_, h.inside, h.marking⟩
      intro p hp
      rcases List.mem_append.mp hp with hp | hp
      · exact h.waiting p hp
      · obtain rfl := List.mem_singleton.mp hp
        exact ownedThen_of_check hcheck
  | @enter k p hinside hp =>
      refine ⟨fun q hq => h.waiting q (List.mem_of_mem_eraseIdx hq), ?_, h.marking⟩
      intro i hi
      cases hi
      exact h.waiting p (List.mem_of_getElem? hp)
  | fail hinside hexecute => exact ⟨h.waiting, fun i hi => (by cases hi), h.marking⟩
  | @rename faults p current next disk hinside hexecute =>
      refine ⟨h.waiting, ?_, h.marking⟩
      intro i hi
      cases hi
      exact h.inside (.entered p current) hinside
  | store hinside => exact ⟨h.waiting, fun i hi => (by cases hi), h.marking⟩
  | keepConfig => exact h
  | readFile => exact ⟨h.waiting, h.inside, h.marking⟩
  | storeReload => exact ⟨h.waiting, h.inside, h.marking⟩
  | edit => exact ⟨h.waiting, h.inside, h.marking⟩
  | refuseMark => exact h
  | @arriveMark caller request hcheck =>
      refine ⟨h.waiting, h.inside, ?_⟩
      intro p hp
      rcases List.mem_append.mp hp with hp | hp
      · exact h.marking p hp
      · obtain rfl := List.mem_singleton.mp hp
        exact ownedThen_of_markCheck hcheck
  | mark hp hlock => exact ⟨h.waiting, h.inside, fun q hq => h.marking q (List.mem_of_mem_eraseIdx hq)⟩

theorem checkedOnArrival_start {dataDirOverride : Option Str} {disk : Disk}
    (h : start env dataDirOverride disk = some s) : CheckedOnArrival s := by
  obtain ⟨config, warnings, hload, rfl⟩ := start_eq_some h
  exact ⟨fun p hp => (by cases hp), fun i hi => (by cases hi), fun p hp => (by cases hp)⟩

/-- Who was authorized on the snapshot is authorized on another configuration exactly if the owner is the
same there. -/
theorem authorized_iff_ownerKept {op : Operation} {mb : MailboxConfig}
    (hmb : op.snapshot.mailboxes.lookup op.mailbox = some mb) (hact : op.caller.MayActFor mb) :
    op.Authorized ↔ op.OwnerKept := by
  have hsnapshot : ownerIn op.snapshot op.mailbox = some mb.owner := by
    unfold ownerIn
    rw [hmb, Option.map_some]
  unfold Operation.Authorized Operation.OwnerKept
  by_cases hroot : op.caller.isRoot = true
  · exact iff_of_true (.inl hroot) (.inl hroot)
  · have huser : op.caller.username = some mb.owner := hact.resolve_left hroot
    rw [or_iff_right hroot, or_iff_right hroot, hsnapshot, huser]
    constructor
    · rintro ⟨owner, howner, hsame⟩
      rw [howner, hsame]
    · intro h
      exact ⟨mb.owner, h, rfl⟩

/-- The law and the condition agree on what takes effect. -/
theorem lawful_iff (h : CheckedOnArrival s) (m : Move) : Lawful env s m ↔ KeepsOwner env s m := by
  have hop : ∀ op, TakesEffect env s m op → (op.Authorized ↔ op.OwnerKept) := by
    intro op heffect
    cases heffect with
    | @hook p current next mailbox hinside hplan =>
        obtain ⟨mb, hmb, hact⟩ := h.inside _ hinside mailbox hplan
        exact authorized_iff_ownerKept hmb hact
    | @mark k mark p hp hrewritten =>
        obtain ⟨mb, hmb, hact⟩ := h.marking p (List.mem_of_getElem? hp)
        exact authorized_iff_ownerKept hmb hact
  constructor
  · exact fun hlawful op heffect => (hop op heffect).mp (hlawful op heffect)
  · exact fun hkeeps op heffect => (hop op heffect).mpr (hkeeps op heffect)

/-- The same over a run. -/
theorem allowed_lawful_iff (h : CheckedOnArrival s) (moves : List Move) :
    Allowed (step env) (Lawful env) s moves ↔ Allowed (step env) (KeepsOwner env) s moves := by
  induction moves generalizing s with
  | nil => exact Iff.rfl
  | cons m moves ih =>
      rw [Allowed, Allowed, lawful_iff h m]
      cases hstep : step env s m with
      | none => exact Iff.rfl
      | some s' => exact and_congr_right fun _ => ih (checkedOnArrival_step h hstep)

end Checks

/-- **Every hook that is stored or removed and every message that is rewritten, in any run of the daemon, is
so by root or by the owner at that moment, exactly if none of these requests by somebody else than root meets
another owner than it was checked against.** -/
theorem authorized_run_iff {env : ServerEnv} {dataDirOverride : Option Str} {disk : Disk} {s : Server}
    (hstart : start env dataDirOverride disk = some s) (moves : List Move) :
    Allowed (step env) (Lawful env) s moves ↔ Allowed (step env) (KeepsOwner env) s moves :=
  allowed_lawful_iff (checkedOnArrival_start hstart) moves

/-! ## A mailbox that is given to somebody else -/

/-- A configuration with one mailbox of the owner. -/
def sharedConfig (owner : String) (hooks : List Hook) : Config :=
  sampleConfig [("shared", sampleMailbox "shared@example.org" owner hooks)]

/-- The hook that `bob` submits. -/
def bobHook : Hook := sampleHook (some "h") "/bin/true"

/-- Surroundings with the files of `bob` and of `alice`, with the hook and without it. -/
def sharedServer : ServerEnv :=
  sampleServer [sharedConfig "bob" [], sharedConfig "alice" [], sharedConfig "bob" [bobHook],
    sharedConfig "alice" [bobHook]]

/-- `bob` submits the hook for the mailbox. -/
def bobHooksShared : Move :=
  .arrive sampleBob (.hookCreate ⟨"shared".toList, "on_receive".toList, some "h".toList, sampleBody⟩)

/-- While his request waits, the operator gives the mailbox to `alice` and reloads. -/
def givenAway : List Move :=
  [bobHooksShared, .edit (sampleFile (sharedConfig "alice" [])), .readFile, .storeReload, .enter 0,
    .execute (fun _ => none)]

/-- The request inside has not replaced the file, or has done so on behalf of root or of the owner. -/
def Inside.owned : Inside → Bool
  | .entered _ _ => true
  | .renamed p current _ => p.plan.hookMailbox.all fun mailbox =>
      p.caller.isRoot || p.caller.username.any fun owner => ownerIn current mailbox == some owner

/-- What is stored is lawful if it is done for root or for the owner. -/
theorem lawful_store_iff {env : ServerEnv} {s : Server} :
    Lawful env s .store ↔ s.inside.all Inside.owned = true := by
  constructor
  · intro hlawful
    apply (Option.all_eq_true _ _).mpr
    intro i hi
    cases i with
    | entered p current => rfl
    | renamed p current next =>
        apply (Option.all_eq_true _ _).mpr
        intro mailbox hplan
        rw [Bool.or_eq_true]
        rcases hlawful _ (.hook hi hplan) with hroot | ⟨owner, howner, huser⟩
        · exact .inl hroot
        · exact .inr ((Option.any_eq_true _ _).mpr ⟨owner, huser, beq_iff_eq.mpr howner⟩)
  · intro howned op heffect
    cases heffect with
    | hook hinside hplan =>
        have hplace := (Option.all_eq_true _ _).mp ((Option.all_eq_true _ _).mp howned _ hinside) _ hplan
        rcases Bool.or_eq_true _ _ |>.mp hplace with hroot | huser
        · exact .inl hroot
        · obtain ⟨owner, huser, howner⟩ := (Option.any_eq_true _ _).mp huser
          exact .inr ⟨owner, beq_iff_eq.mp howner, huser⟩

/-- A step at which only what is owned takes effect. -/
def Server.settled (s : Server) : Move → Bool
  | .store => s.inside.all Inside.owned
  | .mark _ _ => false
  | _ => true

theorem lawful_of_settled {env : ServerEnv} {s : Server} {m : Move} (h : s.settled m = true) :
    Lawful env s m := by
  intro op heffect
  cases heffect with
  | hook hinside hplan =>
      have hlawful : Lawful env s .store := lawful_store_iff.mpr h
      exact hlawful _ (.hook hinside hplan)
  | mark hp hrewritten => cases h

/-- The requests of a run in which `bob` keeps the mailbox and his hook is stored. -/
def bobKeepsShared : List Move := [bobHooksShared, .enter 0, .execute (fun _ => none), .store]

/-- That run obeys the law, and so no request meets another owner. -/
theorem authorized_run_bob : ∃ s₀ s,
    start sharedServer none (sampleDisk (sharedConfig "bob" [])) = some s₀ ∧
      run (step sharedServer) s₀ bobKeepsShared = some s ∧
      s.memory.allHooks = [("shared".toList, bobHook)] ∧
      Allowed (step sharedServer) (Lawful sharedServer) s₀ bobKeepsShared ∧
      Allowed (step sharedServer) (KeepsOwner sharedServer) s₀ bobKeepsShared := by
  obtain ⟨s₀, s, hstart, hrun, hhooks⟩ := exists_run sharedServer none (sampleDisk (sharedConfig "bob" []))
    bobKeepsShared (fun s => s.memory.allHooks = [("shared".toList, bobHook)]) (by decide +kernel)
  have hsettled : (start sharedServer none (sampleDisk (sharedConfig "bob" []))).all (fun s =>
      decide (Allowed (step sharedServer) (fun s m => s.settled m = true) s bobKeepsShared)) = true := by
    decide +kernel
  have hlawful : Allowed (step sharedServer) (Lawful sharedServer) s₀ bobKeepsShared :=
    (of_decide_eq_true ((Option.all_eq_true _ _).mp hsettled s₀ hstart)).mono fun _ _ => lawful_of_settled
  exact ⟨s₀, s, hstart, hrun, hhooks, hlawful, (authorized_run_iff hstart _).mp hlawful⟩

/-- **The hook of `bob` is stored on the mailbox of `alice`**, and runs as `alice` from then on. -/
theorem authorized_givenAway : ∃ s₀ s,
    start sharedServer none (sampleDisk (sharedConfig "bob" [])) = some s₀ ∧
      run (step sharedServer) s₀ givenAway = some s ∧ ¬Lawful sharedServer s .store ∧
      (step sharedServer s .store).map (fun s' => (ownerIn s'.memory "shared".toList, s'.memory.allHooks)) =
        some (some "alice".toList, [("shared".toList, bobHook)]) := by
  obtain ⟨s₀, s, hstart, hrun, hforeign, hstored⟩ := exists_run sharedServer none
    (sampleDisk (sharedConfig "bob" [])) givenAway
    (fun s => s.inside.all Inside.owned = false ∧
      (step sharedServer s .store).map (fun s' => (ownerIn s'.memory "shared".toList, s'.memory.allHooks)) =
        some (some "alice".toList, [("shared".toList, bobHook)])) (by decide +kernel)
  refine ⟨s₀, s, hstart, hrun, fun hlawful => ?_, hstored⟩
  rw [lawful_store_iff.mp hlawful] at hforeign
  cases hforeign

end Daemon
end Aimx
