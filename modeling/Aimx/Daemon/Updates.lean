import Aimx.Daemon.Targets

/-!
# Updates under concurrent requests and reloads

The requests are serialized by the configuration lock.  A reload takes no lock: it may read the file before a
request replaces it, and store what it has read after the request was answered.

* `Plan.Present`, `Plan.Undoes` — the effect of a request, and the requests that undo it;
* `present_result`, `present_kept` — a request that commits brings its effect, and keeps those of others;
* `KeepsUpdates` — the law;
* `ReloadsCurrent` — the condition on the store of a reload;
* `updates_kept` — the law after every run whose reloads meet the condition;
* `updates_lost` — a reload that takes a mailbox away that was just made.
-/

namespace Aimx
namespace Daemon

open Text Protocol Transition

/-! ## Effects -/

section Effects

variable (sha256 : Bytes → Bytes)

/-- The effect of a request, as it is seen in a configuration. -/
def Plan.Present (config : Config) : Plan → Prop
  | .mailboxCreate name owner =>
      ∃ hooks, config.mailboxes.lookup name = some { newMailbox config name owner with hooks := hooks }
  | .mailboxDelete name _ => config.mailboxes.lookup name = none
  | .hookCreate mailbox hook => ∃ mb, config.mailboxes.lookup mailbox = some mb ∧ hook ∈ mb.hooks
  | .hookDelete mailbox name => ∀ mb, config.mailboxes.lookup mailbox = some mb →
      ∀ hook ∈ mb.hooks, effectiveHookName sha256 hook ≠ name

/-- The first request, made later, undoes the second one. -/
def Plan.Undoes : Plan → Plan → Prop
  | .mailboxDelete name _, .mailboxCreate name' _ => name = name'
  | .mailboxCreate name _, .mailboxDelete name' _ => name = name'
  | .mailboxDelete name _, .hookCreate mailbox _ => name = mailbox
  | .hookDelete mailbox name, .hookCreate mailbox' hook =>
      mailbox = mailbox' ∧ effectiveHookName sha256 hook = name
  | .hookCreate mailbox hook, .hookDelete mailbox' name =>
      mailbox = mailbox' ∧ effectiveHookName sha256 hook = name
  | _, _ => False

/-- What a plan makes of the mailbox that it is about. -/
def Plan.target (config : Config) : Plan → Option MailboxConfig → Option MailboxConfig
  | .mailboxCreate name owner, _ => some (newMailbox config name owner)
  | .mailboxDelete _ _, _ => none
  | .hookCreate _ hook, mb => mb.map fun mb => mb.pushHook hook
  | .hookDelete _ name, mb => mb.map fun mb => mb.retainHooks sha256 name

theorem Plan.lookup_target (plan : Plan) (config : Config) :
    (plan.result sha256 config).mailboxes.lookup plan.mailbox =
      plan.target sha256 config (config.mailboxes.lookup plan.mailbox) := by
  cases plan with
  | mailboxCreate name owner => exact AList.lookup_insert _
  | mailboxDelete name force => exact AList.lookup_erase _ _
  | hookCreate mailbox hook => exact (Table.lookup_modify _ _ _ _).trans (if_pos rfl)
  | hookDelete mailbox name => exact (Table.lookup_modify _ _ _ _).trans (if_pos rfl)

theorem Plan.lookup_other {plan : Plan} {config : Config} {name : Str} (hname : name ≠ plan.mailbox) :
    (plan.result sha256 config).mailboxes.lookup name = config.mailboxes.lookup name := by
  refine (Update.sameBut_apply sha256 config (plan.update config)).mailboxes name ?_
  cases plan <;> exact hname

theorem newMailbox_result {plan : Plan} {config : Config} {name owner : Str} :
    newMailbox (plan.result sha256 config) name owner = newMailbox config name owner := by
  have hdomain := (Update.sameBut_apply sha256 config (plan.update config)).domain
  unfold newMailbox
  show MailboxConfig.mk (name ++ '@' :: (Update.apply sha256 config (plan.update config)).domain) _ _ _ _ _ =
    _
  rw [hdomain]

variable {sha256} {env : HandlerEnv} {caller : Caller} {config : Config} {plan later : Plan}

/-- A plan that commits brings its effect. -/
theorem present_result (hcommits : Commits env caller config plan) :
    plan.Present sha256 (plan.result sha256 config) := by
  have htarget := plan.lookup_target sha256 config
  cases hcommits with
  | @mailboxCreate name owner ids hnew hids =>
      refine ⟨[], ?_⟩
      rw [newMailbox_result]
      exact htarget
  | mailboxDelete hname hmem hauth => exact htarget
  | @hookCreate mailbox hook mb hmb hvalid =>
      simp only [Plan.mailbox, Plan.target, hmb, Option.map_some] at htarget
      exact ⟨_, htarget, List.mem_append_right _ (List.mem_singleton_self hook)⟩
  | @hookDelete mailbox name mb hmb hfound =>
      simp only [Plan.mailbox, Plan.target, hmb, Option.map_some] at htarget
      intro mb' hmb' hook hhook
      cases hmb'.symm.trans htarget
      have hkept := (List.mem_filter.mp hhook).2
      simpa using hkept

/-- A plan that commits keeps the effects that it does not undo. -/
theorem present_kept (hcommits : Commits env caller config later) (h : plan.Present sha256 config)
    (hnot : ¬ later.Undoes sha256 plan) : plan.Present sha256 (later.result sha256 config) := by
  by_cases hsame : plan.mailbox = later.mailbox
  swap
  · -- The plans are about two mailboxes.
    have hlookup := @Plan.lookup_other sha256 later config plan.mailbox hsame
    cases plan with
    | mailboxCreate name owner =>
        obtain ⟨hooks, hmb⟩ := h
        refine ⟨hooks, ?_⟩
        rw [newMailbox_result]
        exact hlookup.trans hmb
    | mailboxDelete name force => exact hlookup.trans h
    | hookCreate mailbox hook =>
        obtain ⟨mb, hmb, hhook⟩ := h
        exact ⟨mb, hlookup.trans hmb, hhook⟩
    | hookDelete mailbox name => exact fun mb hmb => h mb (hlookup.symm.trans hmb)
  have htarget := later.lookup_target sha256 config
  rw [← hsame] at htarget
  cases plan with
  | mailboxCreate name owner =>
      obtain ⟨hooks, hmb⟩ := h
      simp only [Plan.mailbox] at htarget hsame
      rw [hmb] at htarget
      show ∃ hooks, _ = some { newMailbox (later.result sha256 config) name owner with hooks := hooks }
      rw [newMailbox_result]
      cases hcommits with
      | mailboxCreate hnew hids =>
          have hnone := AList.lookup_eq_none.mpr hnew
          dsimp only at hsame
          rw [← hsame, hmb] at hnone
          cases hnone
      | mailboxDelete hname hmem hauth => exact absurd hsame.symm hnot
      | hookCreate hmb' hvalid => exact ⟨_, htarget⟩
      | hookDelete hmb' hfound => exact ⟨_, htarget⟩
  | mailboxDelete name force =>
      have hmb : config.mailboxes.lookup name = none := h
      simp only [Plan.mailbox] at htarget hsame
      rw [hmb] at htarget
      cases hcommits with
      | mailboxCreate hnew hids => exact absurd hsame.symm hnot
      | mailboxDelete hname hmem hauth => exact htarget
      | hookCreate hmb' hvalid => exact htarget
      | hookDelete hmb' hfound => exact htarget
  | hookCreate mailbox hook =>
      obtain ⟨mb, hmb, hhook⟩ := h
      simp only [Plan.mailbox] at htarget hsame
      rw [hmb] at htarget
      cases hcommits with
      | mailboxCreate hnew hids =>
          have hnone := AList.lookup_eq_none.mpr hnew
          dsimp only at hsame
          rw [← hsame, hmb] at hnone
          cases hnone
      | mailboxDelete hname hmem hauth => exact absurd hsame.symm hnot
      | hookCreate hmb' hvalid => exact ⟨_, htarget, List.mem_append_left _ hhook⟩
      | hookDelete hmb' hfound =>
          refine ⟨_, htarget, List.mem_filter.mpr ⟨hhook, ?_⟩⟩
          have hother := fun heq => hnot ⟨hsame.symm, heq⟩
          simpa using hother
  | hookDelete mailbox name =>
      intro mb' hmb' hook hhook
      simp only [Plan.mailbox] at htarget hsame
      rw [htarget] at hmb'
      cases hcommits with
      | mailboxCreate hnew hids =>
          cases hmb'
          cases hhook
      | mailboxDelete hname hmem hauth => cases hmb'
      | @hookCreate mailbox' hook' mb₀ hmb₀ hvalid =>
          obtain ⟨mb, hmb, rfl⟩ := Option.map_eq_some_iff.mp hmb'
          rcases List.mem_append.mp hhook with hold | hnew
          · exact h mb hmb hook hold
          · obtain rfl := List.mem_singleton.mp hnew
            exact fun heq => hnot ⟨hsame.symm, heq⟩
      | @hookDelete mailbox' name' mb₀ hmb₀ hfound =>
          obtain ⟨mb, hmb, rfl⟩ := Option.map_eq_some_iff.mp hmb'
          exact h mb hmb hook (List.mem_filter.mp hhook).1

end Effects

/-! ## The law and the condition -/

/-- The law: the effect of every request that was answered OK, and that no later request has undone, is in the
configuration in memory and in the file; and the two are equal when nothing is in progress. -/
structure KeepsUpdates (env : ServerEnv) (s : Server) : Prop where
  present : ∀ plan, Standing (Plan.Undoes env.handlers.sha256) (s.answered.map Pending.plan) plan →
    (∀ i, s.inside = some i → i.isRenamed = true → ¬ i.pending.plan.Undoes env.handlers.sha256 plan) →
      plan.Present env.handlers.sha256 s.memory ∧
        ∃ file, env.fileConfig s.disk = .ok file ∧ plan.Present env.handlers.sha256 file
  quiet : s.inside = none → s.reloading = none → env.fileConfig s.disk = .ok s.memory

/-- The condition on a move: nobody edits the file, and a reload stores what is in memory or in the file. -/
def ReloadsCurrent (env : ServerEnv) (s : Server) : Move → Prop
  | .storeReload => ∀ config, s.reloading = some config →
      config = s.memory ∨ env.fileConfig s.disk = .ok config
  | .edit _ => False
  | _ => True

/-! ## The invariant -/

/-- The configuration that the next request will find: the one in memory, or the one that the request inside
has found. -/
def Server.committed (s : Server) : Config :=
  match s.inside with
  | some (.renamed _ current _) => current
  | _ => s.memory

/-- The file and the memory beside the request inside. -/
def InStep (env : ServerEnv) (s : Server) : Prop :=
  match s.inside with
  | none => env.fileConfig s.disk = .ok s.memory
  | some (.entered _ current) => current = s.memory ∧ env.fileConfig s.disk = .ok s.memory
  | some (.renamed p current next) => env.fileConfig s.disk = .ok next ∧
      (s.memory = current ∨ s.memory = next) ∧
      next = p.plan.result env.handlers.sha256 current ∧
      ∃ henv, Commits henv p.caller current p.plan

/-- The invariant of the runs. -/
structure Serial (env : ServerEnv) (s : Server) : Prop where
  standing : ∀ plan, Standing (Plan.Undoes env.handlers.sha256) (s.answered.map Pending.plan) plan →
    plan.Present env.handlers.sha256 s.committed
  inStep : InStep env s

section Runs

variable {env : ServerEnv} {s s' : Server} {m : Move}

/-- The state outside the memory, the file and the request inside does not matter. -/
theorem Serial.congr (h : Serial env s) (hmemory : s'.memory = s.memory) (hinside : s'.inside = s.inside)
    (hfile : s'.disk.config = s.disk.config) (hanswered : s'.answered = s.answered) : Serial env s' where
  standing := by
    unfold Server.committed
    rw [hanswered, hmemory, hinside]
    exact h.standing
  inStep := by
    have hfileConfig : env.fileConfig s'.disk = env.fileConfig s.disk := by
      rw [ServerEnv.fileConfig, ServerEnv.fileConfig, hfile]
    unfold InStep
    rw [hinside, hmemory, hfileConfig]
    exact h.inStep

/-- Every move that meets the condition keeps the invariant. -/
theorem serial_step (hround : env.RoundTrips) (h : Serial env s) (hm : ReloadsCurrent env s m)
    (hstep : step env s m = some s') : Serial env s' := by
  cases step_effect hstep with
  | refuse => exact h
  | arrive hcheck => exact h.congr rfl rfl rfl rfl
  | enter hinside hp =>
      obtain ⟨hstanding, hin⟩ := h
      unfold InStep at hin
      unfold Server.committed at hstanding
      rw [hinside] at hin hstanding
      exact ⟨hstanding, rfl, hin⟩
  | @fail faults p current disk reject hinside hexecute =>
      obtain ⟨hstanding, hin⟩ := h
      unfold InStep at hin
      unfold Server.committed at hstanding
      rw [hinside] at hin hstanding
      refine ⟨hstanding, ?_⟩
      show env.fileConfig disk = .ok s.memory
      rw [ServerEnv.fileConfig, Plan.execute_error hexecute]
      exact hin.2
  | @rename faults p current next disk hinside hexecute =>
      obtain ⟨hstanding, hin⟩ := h
      unfold InStep at hin
      unfold Server.committed at hstanding
      rw [hinside] at hin hstanding
      obtain ⟨hcommits, hnext, hprint⟩ := Plan.execute_ok hexecute
      obtain ⟨rfl, -⟩ := hin
      exact ⟨hstanding, hround.readBack hprint, .inl rfl, hnext, _, hcommits⟩
  | @store p current next hinside =>
      obtain ⟨hstanding, hin⟩ := h
      unfold InStep at hin
      unfold Server.committed at hstanding
      rw [hinside] at hin hstanding
      obtain ⟨hfile, -, rfl, henv, hcommits⟩ := hin
      refine ⟨?_, hfile⟩
      exact @standing_cons Config Plan (Plan.Undoes env.handlers.sha256)
        (fun plan config => plan.Present env.handlers.sha256 config) _ _ _ _ hstanding
        (present_result hcommits) fun plan hpresent hnot => present_kept hcommits hpresent hnot
  | keepConfig => exact h
  | readFile hreloading hload => exact h.congr rfl rfl rfl rfl
  | @storeReload config hreloading =>
      have hcurrent := hm config hreloading
      cases hinside : s.inside with
      | none =>
          have hin := h.inStep
          unfold InStep at hin
          rw [hinside] at hin
          have hsame : config = s.memory := by
            rcases hcurrent with heq | hfile
            · exact heq
            · exact Except.ok.inj (hfile.symm.trans hin)
          exact h.congr hsame hinside.symm rfl rfl
      | some i =>
          cases i with
          | entered p current =>
              have hin := h.inStep
              unfold InStep at hin
              rw [hinside] at hin
              have hsame : config = s.memory := by
                rcases hcurrent with heq | hfile
                · exact heq
                · exact Except.ok.inj (hfile.symm.trans hin.2)
              exact h.congr hsame hinside.symm rfl rfl
          | renamed p current next =>
              obtain ⟨hstanding, hin⟩ := h
              unfold InStep at hin
              unfold Server.committed at hstanding
              rw [hinside] at hin hstanding
              obtain ⟨hfile, hmemory, hrest⟩ := hin
              refine ⟨hstanding, hfile, ?_, hrest⟩
              rcases hcurrent with heq | hfile'
              · rcases hmemory with h' | h'
                · exact .inl (heq.trans h')
                · exact .inr (heq.trans h')
              · exact .inr (Except.ok.inj (hfile'.symm.trans hfile))
  | edit text => exact absurd hm id
  | refuseMark => exact h
  | arriveMark hcheck => exact h.congr rfl rfl rfl rfl
  | mark hp hlock => exact h.congr rfl rfl markFile_config rfl

/-- It holds at the start. -/
theorem serial_start {disk : Disk} (h : start env none disk = some s) : Serial env s := by
  obtain ⟨config, warnings, hload, rfl⟩ := start_eq_some h
  obtain ⟨hread, -, -⟩ := load_eq_ok hload
  exact ⟨fun plan hstanding => absurd hstanding id, hread⟩

/-- The law follows from it. -/
theorem Serial.keepsUpdates (h : Serial env s) : KeepsUpdates env s := by
  obtain ⟨hstanding, hin⟩ := h
  unfold InStep at hin
  unfold Server.committed at hstanding
  cases hinside : s.inside with
  | none =>
      rw [hinside] at hin hstanding
      exact ⟨fun plan hplan _ => ⟨hstanding plan hplan, _, hin, hstanding plan hplan⟩, fun _ _ => hin⟩
  | some i =>
      refine ⟨fun plan hplan hnot => ?_, fun hnone => (by cases hinside.symm.trans hnone)⟩
      cases i with
      | entered p current =>
          rw [hinside] at hin hstanding
          exact ⟨hstanding plan hplan, _, hin.2, hstanding plan hplan⟩
      | renamed p current next =>
          rw [hinside] at hin hstanding
          obtain ⟨hfile, hmemory, rfl, henv, hcommits⟩ := hin
          have hbefore := hstanding plan hplan
          have hafter := present_kept hcommits hbefore (hnot _ hinside rfl)
          refine ⟨?_, _, hfile, hafter⟩
          rcases hmemory with h' | h'
          · rw [h']
            exact hbefore
          · rw [h']
            exact hafter

/-- **No update is lost in a run in which no reload stores a configuration that has left both the memory and
the file since it was read.** -/
theorem updates_kept {disk : Disk} {s₀ : Server} {moves : List Move} (hround : env.RoundTrips)
    (hstart : start env none disk = some s₀) (hallowed : Allowed (step env) (ReloadsCurrent env) s₀ moves)
    (hrun : run (step env) s₀ moves = some s) : KeepsUpdates env s := by
  have hserial : Serial env s :=
    run_invariant (fun s m s' hs hm hstep => serial_step hround hs hm hstep) (serial_start hstart)
      hallowed hrun
  exact hserial.keepsUpdates

end Runs

/-! ## A request beside a reload -/

/-- The condition can be evaluated. -/
theorem reloadsCurrent_iff {env : ServerEnv} {s : Server} :
    (s.reloading.all fun config => sameConfig config s.memory ||
        (env.fileConfig s.disk).toOption.any (sameConfig config)) = true ↔
      ReloadsCurrent env s .storeReload := by
  unfold ReloadsCurrent
  cases s.reloading with
  | none => simp
  | some config =>
      simp only [Option.all_some, Bool.or_eq_true, sameConfig_iff, Option.some.injEq, forall_eq']
      refine or_congr Iff.rfl ?_
      cases env.fileConfig s.disk with
      | error e => exact iff_of_false (fun h => by cases h) (fun h => by cases h)
      | ok file =>
          show sameConfig config file = true ↔ _
          rw [sameConfig_iff, Except.ok.injEq]
          exact eq_comm

instance ReloadsCurrent.decidable (env : ServerEnv) (s : Server) :
    (m : Move) → Decidable (ReloadsCurrent env s m)
  | .storeReload => decidable_of_iff _ reloadsCurrent_iff
  | .edit _ => isFalse id
  | .arrive _ _ => isTrue trivial
  | .enter _ => isTrue trivial
  | .execute _ => isTrue trivial
  | .store => isTrue trivial
  | .readFile => isTrue trivial
  | .arriveMark _ _ => isTrue trivial
  | .mark _ _ => isTrue trivial

/-- The mailbox of `bob` is made, and a reload that started earlier ends. -/
def reloadAround (early : Bool) : List Move :=
  if early then [bobCreates, .readFile, .enter 0, .execute (fun _ => none), .store, .storeReload]
  else [bobCreates, .enter 0, .execute (fun _ => none), .readFile, .store, .storeReload]

/-- The request of `bob` was answered OK, and nothing is in progress. -/
def Server.bobAnswered (s : Server) : Bool :=
  decide (s.answered.map Pending.plan = [.mailboxCreate "bob".toList "bob".toList]) && s.inside.isNone

/-- A reload that reads the file behind the request's rename stores what the request has stored. -/
theorem updates_kept_bob : ∃ s₀ s,
    start bobServer none (sampleDisk (sampleConfigAt "/var/lib/aimx")) = some s₀ ∧
      run (step bobServer) s₀ (reloadAround false) = some s ∧ s.bobAnswered = true ∧
      KeepsUpdates bobServer s := by
  have hround : bobServer.RoundTrips := sampleServer_roundTrips (by decide +kernel)
  obtain ⟨s₀, hstart, hboth⟩ := (Option.any_eq_true
    (fun s₀ => decide (Allowed (step bobServer) (ReloadsCurrent bobServer) s₀ (reloadAround false)) &&
      (run (step bobServer) s₀ (reloadAround false)).any Server.bobAnswered)
    (start bobServer none (sampleDisk (sampleConfigAt "/var/lib/aimx")))).mp (by decide +kernel)
  rw [Bool.and_eq_true, decide_eq_true_eq] at hboth
  obtain ⟨s, hrun, hanswered⟩ := (Option.any_eq_true _ _).mp hboth.2
  exact ⟨s₀, s, hstart, hrun, hanswered, updates_kept hround hstart hboth.1 hrun⟩

/-- **A reload that has read the file before takes the mailbox away again**, from the memory but not from the
file. -/
theorem updates_lost : bobServer.RoundTrips ∧ ∃ s₀ s,
    start bobServer none (sampleDisk (sampleConfigAt "/var/lib/aimx")) = some s₀ ∧
      run (step bobServer) s₀ (reloadAround true) = some s ∧ s.bobAnswered = true ∧
      s.reloading.isNone = true ∧ s.memory.mailboxes.lookup "bob".toList = none ∧
      ¬ KeepsUpdates bobServer s := by
  obtain ⟨s₀, s, hstart, hrun, hanswered, hreloading, hlost⟩ := exists_run bobServer none
    (sampleDisk (sampleConfigAt "/var/lib/aimx")) (reloadAround true)
    (fun s => s.bobAnswered = true ∧ s.reloading.isNone = true ∧
      s.memory.mailboxes.lookup "bob".toList = none) (by decide +kernel)
  refine ⟨sampleServer_roundTrips (by decide +kernel), s₀, s, hstart, hrun, hanswered, hreloading, hlost, ?_⟩
  intro hlaw
  rw [Server.bobAnswered, Bool.and_eq_true, decide_eq_true_eq, Option.isNone_iff_eq_none] at hanswered
  obtain ⟨hplans, hinside⟩ := hanswered
  have hstanding : Standing (Plan.Undoes bobServer.handlers.sha256) (s.answered.map Pending.plan)
      (.mailboxCreate "bob".toList "bob".toList) := by
    rw [hplans]
    exact Or.inl rfl
  obtain ⟨⟨hooks, hmb⟩, -⟩ := hlaw.present _ hstanding fun i hi => by cases hinside.symm.trans hi
  cases hlost.symm.trans hmb

end Daemon
end Aimx
