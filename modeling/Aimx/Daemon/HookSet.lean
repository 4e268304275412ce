import Aimx.Daemon.Accept
import Aimx.Daemon.Targets

/-!
# The set of hooks

What requests on hooks and mailboxes keep true of all hooks in memory.  No hook may be on the catchall,
which the configuration knows by its address and the delivery by its key; the two are one mailbox only
if the one with the key has the address.

* `Exempt`, `HooksSound` — the mailboxes without hooks, and the invariant of the configuration;
* `hooksSound_result` — what a plan keeps that is not about the key;
* `HookSet`, `hookSet_step` — the invariant of the daemon and its step lemma;
* `hook_set_kept` — the hooks in every run without a HOOK-CREATE on a misnamed catchall;
* `catchall_hooked` — such a HOOK-CREATE.
-/

namespace Aimx
namespace Daemon

open Text Protocol Transition

/-! ## Configurations -/

/-- The mailbox must not have hooks: it is the catchall by its key or by its address. -/
def Exempt (config : Config) (name : Str) (mb : MailboxConfig) : Prop :=
  name = "catchall".toList ∨ mb.isCatchall config = true

/-- The hooks of a configuration: each is valid, their names are distinct, and none is on the catchall. -/
structure HooksSound (sha256 : Bytes → Bytes) (config : Config) : Prop where
  valid : ∀ h ∈ config.allHooks, h.2.fault = none
  names : config.HookNamesDistinct sha256
  exempt : ∀ name mb, config.mailboxes.lookup name = some mb → Exempt config name mb → mb.hooks = []

/-- The mailbox that the recipients without a mailbox of their own are routed to. -/
def ReceivesCatchall (config : Config) (name : Str) : Prop :=
  ∃ rcpt, extractLocalPart rcpt ∉ config.mailboxes ∧ resolveRecipientMailbox config rcpt = some name

/-- That mailbox is the one with the key. -/
theorem ReceivesCatchall.eq {config : Config} {name : Str} (h : ReceivesCatchall config name) :
    name = "catchall".toList := by
  obtain ⟨rcpt, hother, hroute⟩ := h
  unfold resolveRecipientMailbox at hroute
  dsimp only at hroute
  rw [if_neg hother] at hroute
  split at hroute
  next => cases hroute; rfl
  next => cases hroute

/-- The plan puts no hook on the mailbox with the key. -/
def Plan.SparesKey : Plan → Prop
  | .hookCreate mailbox _ => mailbox ≠ "catchall".toList
  | _ => True

/-- A plan that fits, spares the key and commits keeps the hooks sound. -/
theorem hooksSound_result {env : HandlerEnv} {caller : Caller} {config : Config} {plan : Plan}
    (h : HooksSound env.sha256 config) (hfits : Fits config plan) (hkey : plan.SparesKey)
    (hcommits : Commits env caller config plan) :
    HooksSound env.sha256 (plan.result env.sha256 config) := by
  obtain ⟨hvalid, hnames⟩ := hcommits.hooks_result h.valid h.names
  refine ⟨hvalid, hnames, fun name mb' hmb' hexempt => ?_⟩
  rw [List.eq_nil_iff_forall_not_mem]
  intro hook hhook
  rcases hcommits.mem_allHooks_result (Config.mem_allHooks.mpr ⟨mb', hmb', hhook⟩) with hold | rfl
  · obtain ⟨mb₀, hmb₀, hhook₀⟩ := Config.mem_allHooks.mp hold
    rcases Plan.lookup_result hmb' with ⟨mb, hooks, hmb, rfl⟩ | ⟨owner, -, rfl⟩
    · cases hmb₀.symm.trans hmb
      rw [Exempt, isCatchall_result] at hexempt
      rw [h.exempt name mb₀ hmb₀ hexempt] at hhook₀
      cases hhook₀
    · cases hhook
  · rcases hexempt with rfl | hcatchall
    · exact hkey rfl
    · rcases Plan.lookup_result hmb' with ⟨mb, hooks, hmb, rfl⟩ | ⟨owner, hother, -⟩
      · rw [isCatchall_result, hfits mb hmb] at hcatchall
        cases hcatchall
      · cases hother

/-- An accepted configuration has sound hooks if none is on the mailbox with the key. -/
theorem Accepted.hooksSound {sha256 : Bytes → Bytes} {config : Config} (h : Accepted sha256 config)
    (hslot : ∀ mb, config.mailboxes.lookup "catchall".toList = some mb → mb.hooks = []) :
    HooksSound sha256 config where
  valid := h.hooks
  names := h.hookNames
  exempt := by
    rintro name mb hmb (rfl | hcatchall)
    · exact hslot mb hmb
    · exact h.catchallHooks ⟨name, mb⟩ (AList.mem_lookup_iff.mp hmb) hcatchall

/-! ## Runs -/

/-- A HOOK-CREATE that names the mailbox with the key finds it with the address of the catchall. -/
def Move.SparesSlot (s : Server) : Move → Prop
  | .arrive _ (.hookCreate req) => req.mailbox = "catchall".toList →
      ∀ mb, s.memory.mailboxes.lookup req.mailbox = some mb → mb.isCatchall s.memory = true
  | _ => True

/-- What a request under way has passed, and what it promises on the configuration in memory. -/
structure PlanKept (env : ServerEnv) (memory : Config) (p : Pending) : Prop where
  checked : Checked env.handlers p.caller p.snapshot p.request p.plan
  fits : Fits memory p.plan
  key : p.plan.SparesKey

/-- The request inside works on the configuration in memory. -/
def InsideKept (env : ServerEnv) (memory : Config) : Inside → Prop
  | .entered p current => current = memory ∧ PlanKept env memory p
  | .renamed p current next => current = memory ∧ PlanKept env memory p ∧
      (∃ dir, Commits (env.at dir) p.caller memory p.plan) ∧
      next = p.plan.result env.handlers.sha256 memory

/-- The invariant. -/
structure HookSet (env : ServerEnv) (s : Server) : Prop where
  sound : HooksSound env.handlers.sha256 s.memory
  waiting : ∀ p ∈ s.waiting, PlanKept env s.memory p
  inside : ∀ i ∈ s.inside, InsideKept env s.memory i

section Runs

variable {env : ServerEnv} {s s' : Server} {m : Move}

/-- A checked request puts no hook on the mailbox with the key. -/
theorem sparesKey_of_checked {caller : Caller} {request : ConfigRequest} {plan : Plan}
    (hm : (Move.arrive caller request).SparesSlot s)
    (h : Checked env.handlers caller s.memory request plan) : plan.SparesKey := by
  cases h with
  | mailboxCreate hname hcreate howner => trivial
  | mailboxDelete hname hcreate => trivial
  | @hookCreate req mb hook hmb hact hcatchall hhook =>
      intro hkey
      rw [hm hkey mb hmb] at hcatchall
      cases hcatchall
  | hookDelete hfind hmb hact => trivial

/-- Every step of a request that spares the slot keeps the invariant. -/
theorem hookSet_step (h : HookSet env s) (hm : m.IsRequest ∧ m.SparesSlot s)
    (hstep : step env s m = some s') : HookSet env s' := by
  obtain ⟨hrequest, hspares⟩ := hm
  cases step_effect hstep with
  | refuse => exact h
  | @arrive caller request plan hcheck =>
      have hchecked := ConfigRequest.check_eq_ok hcheck
      refine ⟨h.sound, fun p hp => ?_, h.inside⟩
      rcases List.mem_append.mp hp with hp | hp
      · exact h.waiting p hp
      · cases List.mem_singleton.mp hp
        exact ⟨hchecked, hchecked.fits, sparesKey_of_checked hspares hchecked⟩
  | @enter k p hinside hp =>
      refine ⟨h.sound, fun p' hp' => h.waiting p' (List.mem_of_mem_eraseIdx hp'), fun i hi => ?_⟩
      cases hi
      exact ⟨rfl, h.waiting p (List.mem_of_getElem? hp)⟩
  | fail hinside hexecute => exact ⟨h.sound, h.waiting, fun i hi => by cases hi⟩
  | @rename faults p current next disk hinside hexecute =>
      obtain ⟨rfl, hkept⟩ := h.inside _ hinside
      obtain ⟨hcommits, hnext, -⟩ := Plan.execute_ok hexecute
      refine ⟨h.sound, h.waiting, fun i hi => ?_⟩
      cases hi
      exact ⟨rfl, hkept, ⟨_, hcommits⟩, hnext⟩
  | @store p current next hinside =>
      obtain ⟨rfl, hkept, ⟨dir, hcommits⟩, rfl⟩ := h.inside _ hinside
      exact
        { sound := @hooksSound_result (env.at dir) _ _ _ h.sound hkept.fits hkept.key hcommits
          waiting := fun p' hp' =>
            { checked := (h.waiting p' hp').checked
              fits := hkept.fits.result (h.waiting p' hp').fits
              key := (h.waiting p' hp').key }
          inside := fun i hi => by cases hi }
  | keepConfig => exact absurd hrequest id
  | readFile => exact absurd hrequest id
  | storeReload => exact absurd hrequest id
  | edit => exact absurd hrequest id
  | refuseMark => exact h
  | arriveMark => exact ⟨h.sound, h.waiting, h.inside⟩
  | mark => exact ⟨h.sound, h.waiting, h.inside⟩

/-- The daemon starts with sound hooks, if none is on the mailbox with the key. -/
theorem hookSet_start {dataDirOverride : Option Str} {disk : Disk}
    (h : start env dataDirOverride disk = some s)
    (hslot : ∀ mb, s.memory.mailboxes.lookup "catchall".toList = some mb → mb.hooks = []) :
    HookSet env s := by
  obtain ⟨config, warnings, hload, rfl⟩ := start_eq_some h
  obtain ⟨-, haccepted, -⟩ := load_eq_ok hload
  have hsound : HooksSound env.handlers.sha256 config := Accepted.hooksSound haccepted hslot
  exact
    { sound := ⟨hsound.valid, hsound.names, hsound.exempt⟩
      waiting := fun p hp => by cases hp
      inside := fun i hi => by cases hi }

/-- What a request about a hook that is answered OK does to the hooks: the submitted one is added, or
the one with the name is removed, and nothing else changes. -/
def ChangesOneHook (env : ServerEnv) (before after : Config) : ConfigRequest → Prop
  | .mailbox _ => True
  | .hookCreate req => ∃ hook, submittedHook env.handlers req = .ok hook ∧
      after = before.pushHook req.mailbox hook ∧
      after.allHooks.Perm ((req.mailbox, hook) :: before.allHooks)
  | .hookDelete req => ∃ mailbox hook, effectiveHookName env.handlers.sha256 hook = req.name ∧
      after = before.retainHooks env.handlers.sha256 mailbox req.name ∧
      before.allHooks.Perm ((mailbox, hook) :: after.allHooks)

/-- A checked plan that commits changes one hook. -/
theorem changesOneHook_result {dir : Str} {caller : Caller} {snapshot config : Config}
    {request : ConfigRequest} {plan : Plan} (h : HooksSound env.handlers.sha256 config)
    (hchecked : Checked env.handlers caller snapshot request plan)
    (hcommits : Commits (env.at dir) caller config plan) :
    ChangesOneHook env config (plan.result env.handlers.sha256 config) request := by
  cases hchecked with
  | mailboxCreate hname hcreate howner => trivial
  | mailboxDelete hname hcreate => trivial
  | @hookCreate req mb hook hmb hact hcatchall hhook =>
      cases hcommits with
      | hookCreate hmb' hvalid => exact ⟨hook, hhook, rfl, Config.allHooks_pushHook hmb' hook⟩
  | @hookDelete req mailbox mb hfind hmb hact =>
      cases hcommits with
      | @hookDelete _ _ mb' hmb' hfound =>
          obtain ⟨hook, hhook, hname⟩ : ∃ hook ∈ mb'.hooks,
              effectiveHookName env.handlers.sha256 hook = req.name := by
            by_contra hnone
            push Not at hnone
            have hall : mb'.hooks.filter (fun hook =>
                effectiveHookName env.handlers.sha256 hook ≠ req.name) = mb'.hooks := by
              rw [List.filter_eq_self]
              intro hook hhook
              simpa using hnone hook hhook
            exact hfound (congrArg List.length hall)
          refine ⟨mailbox, hook, hname, rfl, ?_⟩
          have hperm := Config.allHooks_perm_retainHooks h.names
            (Config.mem_allHooks.mpr ⟨mb', hmb', hhook⟩)
          rw [hname] at hperm
          exact hperm

/-- A hook passes the check of the handler exactly if it passes the check of the load as the only one. -/
theorem validateSingleHook_iff_alone {sha256 : Bytes → Bytes} {mailbox : Str} {hook : Hook}
    {alone : Config} (h : alone.allHooks = [(mailbox, hook)]) :
    validateSingleHook hook = .ok () ↔ validateHooks sha256 alone = .ok () := by
  rw [validateHooks, h, checkHooks_eq_ok_iff]
  unfold validateSingleHook
  cases hfault : hook.fault with
  | none => simp [hfault]
  | some fault => simp [hfault]

/-- What is to hold of the hooks in memory, and of the request that is about to be answered. -/
structure HookLaws (env : ServerEnv) (s : Server) : Prop where
  names : s.memory.HookNamesDistinct env.handlers.sha256
  catchall : ∀ name mb, ReceivesCatchall s.memory name →
    s.memory.mailboxes.lookup name = some mb → mb.hooks = []
  untrusted : ∀ h ∈ s.memory.allHooks, h.2.fireOnUntrusted = true → h.2.event = .onReceive
  alone : ∀ hook mailbox config, config.allHooks = [(mailbox, hook)] →
    (validateSingleHook hook = .ok () ↔ validateHooks env.handlers.sha256 config = .ok ())
  answer : ∀ s' p, step env s .store = some s' → s'.answered = p :: s.answered →
    ChangesOneHook env s.memory s'.memory p.request

/-- The laws follow from the invariant. -/
theorem HookSet.hookLaws (h : HookSet env s) : HookLaws env s where
  names := h.sound.names
  catchall := fun name mb hreceives hmb => h.sound.exempt name mb hmb (Or.inl hreceives.eq)
  untrusted := fun x hx => Hook.onReceive_of_fault_eq_none (h.sound.valid x hx)
  alone := fun hook mailbox config hconfig => validateSingleHook_iff_alone hconfig
  answer := by
    intro s' p hstep hanswered
    cases step_effect hstep with
    | @store p' current next hinside =>
        obtain ⟨rfl, hkept, ⟨dir, hcommits⟩, rfl⟩ := h.inside _ hinside
        have hp : p' = p := List.head_eq_of_cons_eq hanswered
        rw [← hp]
        exact changesOneHook_result h.sound hkept.checked hcommits

/-- **In every run of requests that starts without a hook on the mailbox keyed `catchall`, and in which
no HOOK-CREATE names it while its address is not the wildcard, the hooks in memory keep the laws.** -/
theorem hook_set_kept {dataDirOverride : Option Str} {disk : Disk} {s₀ : Server} {moves : List Move}
    (hstart : start env dataDirOverride disk = some s₀)
    (hslot : ∀ mb, s₀.memory.mailboxes.lookup "catchall".toList = some mb → mb.hooks = [])
    (hallowed : Allowed (step env) (fun s m => m.IsRequest ∧ m.SparesSlot s) s₀ moves)
    (hrun : run (step env) s₀ moves = some s) : HookLaws env s :=
  (run_invariant (I := HookSet env) (fun _ _ _ hs hm hstep => hookSet_step hs hm hstep)
    (hookSet_start hstart hslot) hallowed hrun).hookLaws

end Runs

/-! ## A hook on the mailbox that gets all other mail -/

/-- A configuration with one mailbox of `bob`. -/
def bobOwns (name : String) (hooks : List Hook) : Config :=
  sampleConfig [(name, sampleMailbox (name ++ "@example.org") "bob" hooks)]

/-- `bob` submits a hook for it. -/
def bobHooks (name : String) : Move :=
  .arrive sampleBob (.hookCreate ⟨name.toList, "on_receive".toList, some "h".toList, sampleBody⟩)

/-- Surroundings with the files before and after. -/
def hookServer (name : String) : ServerEnv :=
  sampleServer [bobOwns name [], bobOwns name [sampleHook (some "h") "/bin/true"]]

/-- The whole request. -/
def hookMoves (name : String) : List Move :=
  [bobHooks name, .enter 0, .execute (fun _ => none), .store]

/-- On a mailbox under another key the laws hold. -/
theorem hook_set_kept_bob : ∃ s₀ s,
    start (hookServer "bob") none (sampleDisk (bobOwns "bob" [])) = some s₀ ∧
      run (step (hookServer "bob")) s₀ (hookMoves "bob") = some s ∧
      s.memory.allHooks.length = 1 ∧ HookLaws (hookServer "bob") s := by
  obtain ⟨s₀, hstart, hslot⟩ : ∃ s₀,
      start (hookServer "bob") none (sampleDisk (bobOwns "bob" [])) = some s₀ ∧
        s₀.memory.mailboxes.lookup "catchall".toList = none := by
    obtain ⟨s₀, s, hstart, hrun, hnone⟩ := exists_run (hookServer "bob") none
      (sampleDisk (bobOwns "bob" [])) []
      (fun s => s.memory.mailboxes.lookup "catchall".toList = none) (by decide +kernel)
    cases hrun
    exact ⟨s₀, hstart, hnone⟩
  obtain ⟨s₀', s, hstart', hrun, hone⟩ := exists_run (hookServer "bob") none
    (sampleDisk (bobOwns "bob" [])) (hookMoves "bob") (fun s => s.memory.allHooks.length = 1)
    (by decide +kernel)
  cases hstart.symm.trans hstart'
  refine ⟨s₀, s, hstart, hrun, hone, hook_set_kept hstart (fun mb hmb => ?_) ?_ hrun⟩
  · rw [hslot] at hmb
    cases hmb
  · refine allowed_of_forall_state (fun m hm s => ?_) s₀
    have hother : "bob".toList ≠ "catchall".toList := by decide
    simp only [hookMoves, List.mem_cons, List.not_mem_nil, or_false] at hm
    rcases hm with rfl | rfl | rfl | rfl
    · exact ⟨trivial, fun hslot => absurd hslot hother⟩
    · exact ⟨trivial, trivial⟩
    · exact ⟨trivial, trivial⟩
    · exact ⟨trivial, trivial⟩

/-- A file with a mailbox keyed `catchall` that has an address of its own is accepted, and so is the hook
that its owner submits for it: it runs on the mail to all unknown recipients. -/
theorem catchall_hooked : ∃ s₀ s,
    start (hookServer "catchall") none (sampleDisk (bobOwns "catchall" [])) = some s₀ ∧
      run (step (hookServer "catchall")) s₀ (hookMoves "catchall") = some s ∧
      (extractLocalPart "nobody@example.org".toList ∉ s.memory.mailboxes ∧
        resolveRecipientMailbox s.memory "nobody@example.org".toList = some "catchall".toList) ∧
      s.memory.allHooks = [("catchall".toList, sampleHook (some "h") "/bin/true")] :=
  exists_run _ _ _ _ (fun s =>
    (extractLocalPart "nobody@example.org".toList ∉ s.memory.mailboxes ∧
      resolveRecipientMailbox s.memory "nobody@example.org".toList = some "catchall".toList) ∧
    s.memory.allHooks = [("catchall".toList, sampleHook (some "h") "/bin/true")])
    (by decide +kernel)

end Daemon
end Aimx
