import Aimx.Transition.Runs

/-!
# The timeout of a hook

`run_child_with_timeout` of the forked path, in discrete time: the processes of a hook do what they like
between the polls of the runner, and the clock stands still while the runner is due.  Time is counted in
milliseconds from the start of the child; a signal takes effect at once, and a poll takes no time.

* `Proc`, `State` — the processes of a hook, and the runner with its clock;
* `step` — what a process, the clock and the runner can do, with the body of the loop in `poll`;
* `HardTimeout` — what is asked of every state of a run;
* `tick_or_runner` — no state stops the clock for good;
* `LeavesNobody` — the condition on the polls that leave the loop or kill;
* `hardTimeout_of_leavesNobody` — with it, the timeout is hard.
-/

namespace Aimx
namespace Sandbox

open Transition

namespace Timeout

/-! ## The hook and its runner -/

/-- A process of a hook: whether it is in the session and in the process group of the child, and the pipes
of the runner that it holds. -/
structure Proc where
  pid : Nat
  inSession : Bool
  inGroup : Bool
  stdin : Bool
  stdout : Bool
  stderr : Bool
  deriving DecidableEq

/-- The pause between two polls. -/
def pollInterval : Nat := 50

/-- `SIGKILL_GRACE`. -/
def sigkillGrace : Nat := 5000

/-- The variables of the loop, and the time of its next round. -/
structure PollLoop where
  nextPoll : Nat
  sigtermSent : Bool
  sigkillDeadline : Option Nat
  timedOut : Bool
  deriving DecidableEq

/-- Where the runner is: in its loop, joining the threads of the pipes, or back with an outcome, which is
none for a wait that failed. -/
inductive Runner
  | polling (l : PollLoop)
  | joining (timedOut : Option Bool)
  | returned (timedOut : Option Bool)
  deriving DecidableEq

/-- The child, its descendants, whether stdin is written, the runner, and the time at which the last
process left the session. -/
structure State where
  now : Nat
  child : Option Proc
  others : List Proc
  fed : Bool
  runner : Runner
  endedAt : Option Nat
  deriving DecidableEq

def State.procs (s : State) : List Proc := s.child.toList ++ s.others

/-- A process keeps a thread of the runner from its end. -/
def State.blocks (s : State) (p : Proc) : Bool := (p.stdin && !s.fed) || p.stdout || p.stderr

/-- The hook has ended. -/
def State.Ended (s : State) : Prop := ∀ p ∈ s.procs, p.inSession = false

instance (s : State) : Decidable s.Ended := by unfold State.Ended; infer_instance

/-- Every thread of the runner can end. -/
def State.Drained (s : State) : Prop := ∀ p ∈ s.procs, s.blocks p = false

instance (s : State) : Decidable s.Drained := by unfold State.Drained; infer_instance

/-- Note the time at which the hook has ended. -/
def State.stamp (s : State) : State :=
  if s.endedAt = none ∧ s.Ended then { s with endedAt := some s.now } else s

/-- Right after the start. -/
def spawned : State where
  now := 0
  child := some ⟨0, true, true, true, true, true⟩
  others := []
  fed := false
  runner := .polling ⟨0, false, none, false⟩
  endedAt := none

/-! ## Steps -/

/-- What a process may become: it can leave the session and its group, and close pipes. -/
def Proc.Becomes (p p' : Proc) : Prop :=
  p'.pid = p.pid ∧ (p'.inSession → p.inSession) ∧ (p'.inGroup → p'.inSession) ∧
    (p'.stdin → p.stdin) ∧ (p'.stdout → p.stdout) ∧ (p'.stderr → p.stderr)

instance (p p' : Proc) : Decidable (p.Becomes p') := by unfold Proc.Becomes; infer_instance

/-- The actions of the processes, of the clock and of the runner.  A poll comes with whether waiting fails
and which processes outlive the first signal. -/
inductive Action
  | fork (parent : Proc) (pid : Nat)
  | change (p p' : Proc)
  | changeChild (stdin stdout stderr : Bool)
  | exit (p : Proc)
  | exitChild
  | feed
  | tick
  | poll (waitFails childSurvives : Bool) (survives : Proc → Bool)
  | join

/-- The loop is to send the second signal. -/
def PollLoop.killDue (l : PollLoop) (now : Nat) : Bool := l.sigkillDeadline.any (· ≤ now)

/-- One round of the loop of `run_child_with_timeout`. -/
def poll (timeout : Nat) (waitFails childSurvives : Bool) (survives : Proc → Bool) (s : State)
    (l : PollLoop) : State :=
  if waitFails then { s with runner := .joining none }
  else
    match s.child with
    | none => { s with runner := .joining (some l.timedOut) }
    | some child =>
        if !l.sigtermSent && timeout ≤ s.now then
          -- the first signal goes to the process group of the child
          { s with
            child := if childSurvives then some child else none
            others := s.others.filter fun p => !p.inGroup || survives p
            runner := .polling ⟨s.now + pollInterval, true, some (s.now + sigkillGrace), true⟩ }.stamp
        else if l.killDue s.now then
          { s with
            child := none
            others := s.others.filter fun p => !p.inGroup
            runner := .polling { l with nextPoll := s.now + pollInterval, sigkillDeadline := none } }.stamp
        else { s with runner := .polling { l with nextPoll := s.now + pollInterval } }

/-- The runner is due: its next poll, or a join that can go on. -/
def State.Due (s : State) : Prop :=
  match s.runner with
  | .polling l => s.now = l.nextPoll
  | .joining _ => s.Drained
  | .returned _ => False

instance (s : State) : Decidable s.Due := by unfold State.Due; split <;> infer_instance

/-- What the processes of the hook can do. -/
def act (s : State) : Action → Option State
  | .fork parent pid =>
      if parent ∈ s.procs then some { s with others := { parent with pid := pid } :: s.others } else none
  | .change p p' =>
      if p ∈ s.others ∧ p.Becomes p' then some { s with others := p' :: s.others.erase p } else none
  | .changeChild stdin stdout stderr =>
      s.child.map fun c =>
        { s with child := some { c with
            stdin := c.stdin && stdin, stdout := c.stdout && stdout, stderr := c.stderr && stderr } }
  | .exit p => if p ∈ s.others then some { s with others := s.others.erase p } else none
  | .exitChild => s.child.map fun _ => { s with child := none }
  | .feed => some { s with fed := true }
  | _ => none

/-- One action, where it is possible. -/
def step (timeout : Nat) (s : State) : Action → Option State
  | .tick => if s.Due then none else some { s with now := s.now + 1 }
  | .poll waitFails childSurvives survives =>
      match s.runner with
      | .polling l =>
          if s.now = l.nextPoll then some (poll timeout waitFails childSurvives survives s l) else none
      | _ => none
  | .join =>
      match s.runner with
      | .joining timedOut => if s.Drained then some { s with runner := .returned timedOut } else none
      | _ => none
  | a => (act s a).map State.stamp

/-! ## The law -/

/-- Later than the timeout, the grace period and one poll after the start the hook has ended and the runner
is back; and a timeout is reported when the hook ended after the deadline, not when it ended before.  At
the very time of the deadline either may come first. -/
structure HardTimeout (timeout : Nat) (s : State) : Prop where
  overdue : timeout + sigkillGrace + pollInterval < s.now → s.Ended ∧ ∃ o, s.runner = .returned o
  reported : ∀ timedOut, s.runner = .returned (some timedOut) →
    ∃ e, s.endedAt = some e ∧ (timedOut = true → timeout ≤ e) ∧ (timedOut = false → e ≤ timeout)

/-- The condition on a run: a poll that leaves the loop leaves no process in the session and none that holds
a pipe, and a poll that kills reaches all of them. -/
def LeavesNobody (s : State) : Action → Prop
  | .poll waitFails _ _ =>
      match s.runner with
      | .polling l =>
          (waitFails = true ∨ s.child = none → s.Ended ∧ s.Drained) ∧
            (l.killDue s.now = true →
              ∀ p ∈ s.others, p.inSession = true ∨ s.blocks p = true → p.inGroup = true)
      | _ => True
  | _ => True

/-- In every state the clock or the runner can move. -/
theorem tick_or_runner (timeout : Nat) (s : State) :
    (step timeout s .tick).isSome ∨ (∀ survives, (step timeout s (.poll false true survives)).isSome) ∨
      (step timeout s .join).isSome := by
  by_cases hdue : s.Due
  swap
  · exact .inl (by rw [step, if_neg hdue]; rfl)
  unfold State.Due at hdue
  cases hrunner : s.runner with
  | polling l =>
      simp only [hrunner] at hdue
      exact .inr (.inl fun survives => by simp [step, hrunner, hdue])
  | joining o =>
      simp only [hrunner] at hdue
      exact .inr (.inr (by simp [step, hrunner, hdue]))
  | returned o => simp only [hrunner] at hdue

/-! ## Noting the end -/

section Stamp

variable (s : State)

@[simp] theorem stamp_now : s.stamp.now = s.now := by unfold State.stamp; split <;> rfl
@[simp] theorem stamp_child : s.stamp.child = s.child := by unfold State.stamp; split <;> rfl
@[simp] theorem stamp_others : s.stamp.others = s.others := by unfold State.stamp; split <;> rfl
@[simp] theorem stamp_fed : s.stamp.fed = s.fed := by unfold State.stamp; split <;> rfl
@[simp] theorem stamp_runner : s.stamp.runner = s.runner := by unfold State.stamp; split <;> rfl

@[simp] theorem stamp_procs : s.stamp.procs = s.procs := by simp [State.procs]

@[simp] theorem stamp_blocks : s.stamp.blocks = s.blocks := by
  funext p
  simp [State.blocks]

@[simp] theorem stamp_ended : s.stamp.Ended ↔ s.Ended := by simp [State.Ended]

@[simp] theorem stamp_drained : s.stamp.Drained ↔ s.Drained := by simp [State.Drained]

/-- An end that was noted stays, and a new one is now. -/
theorem stamp_endedAt : s.stamp.endedAt = if s.endedAt = none ∧ s.Ended then some s.now else s.endedAt := by
  unfold State.stamp
  split <;> rfl

end Stamp

/-! ## Every run -/

/-- The child is in its session and its group, and the end is noted when it comes. -/
structure Sound (s : State) : Prop where
  child : ∀ c, s.child = some c → c.inSession = true ∧ c.inGroup = true
  noted : s.endedAt ≠ none ↔ s.Ended
  past : ∀ e, s.endedAt = some e → e ≤ s.now

/-- The processes of a state are what became of those of another. -/
structure Descends (s t : State) : Prop where
  child : ∀ c', t.child = some c' →
    ∃ c, s.child = some c ∧ c'.inSession = c.inSession ∧ c'.inGroup = c.inGroup
  procs : ∀ p' ∈ t.procs, ∃ p ∈ s.procs, (p'.inSession → p.inSession) ∧ (t.blocks p' → s.blocks p)

section Descends

variable {s t : State}

theorem Descends.ended (h : Descends s t) (hs : s.Ended) : t.Ended := by
  intro p' hp'
  obtain ⟨p, hp, hsession, -⟩ := h.procs p' hp'
  refine Bool.eq_false_iff.mpr fun hin => ?_
  exact Bool.false_ne_true ((hs p hp).symm.trans (hsession hin))

theorem Descends.drained (h : Descends s t) (hs : s.Drained) : t.Drained := by
  intro p' hp'
  obtain ⟨p, hp, -, hblocks⟩ := h.procs p' hp'
  refine Bool.eq_false_iff.mpr fun hin => ?_
  exact Bool.false_ne_true ((hs p hp).symm.trans (hblocks hin))

/-- A state whose processes descend from those of a sound one is sound once its end is noted. -/
theorem Sound.stamp (hs : Sound s) (h : Descends s t) (hnow : t.now = s.now) (hat : t.endedAt = s.endedAt) :
    Sound t.stamp where
  child c hc := by
    rw [stamp_child] at hc
    obtain ⟨c', hc', hsession, hgroup⟩ := h.child c hc
    rw [hsession, hgroup]
    exact hs.child c' hc'
  noted := by
    rw [stamp_ended, stamp_endedAt]
    split
    next hend => exact ⟨fun _ => hend.2, fun _ => by simp⟩
    next hend =>
        rw [hat] at hend ⊢
        exact ⟨fun hne => h.ended (hs.noted.mp hne), fun hended hnone => hend ⟨hnone, hended⟩⟩
  past e he := by
    rw [stamp_endedAt] at he
    rw [stamp_now, hnow]
    split at he
    next =>
        rw [Option.some.injEq] at he
        omega
    next => exact hs.past e (hat ▸ he)

/-- The processes of a state are among those of another, and stdin is as it was. -/
theorem Descends.of_subset (hchild : ∀ c, t.child = some c → s.child = some c)
    (hothers : ∀ p ∈ t.others, p ∈ s.others) (hfed : t.fed = s.fed) : Descends s t where
  child c hc := ⟨c, hchild c hc, rfl, rfl⟩
  procs p hp := by
    refine ⟨p, ?_, id, by simp [State.blocks, hfed]⟩
    unfold State.procs at hp ⊢
    rw [List.mem_append, Option.mem_toList] at hp ⊢
    exact hp.imp (hchild p) (hothers p)

end Descends

/-- What the processes do moves neither the clock nor the runner. -/
theorem act_eq_some {s t : State} {a : Action} (h : act s a = some t) :
    Descends s t ∧ t.now = s.now ∧ t.runner = s.runner ∧ t.endedAt = s.endedAt := by
  have hself : ∀ p ∈ s.procs, ∃ q ∈ s.procs, (p.inSession → q.inSession) ∧ (s.blocks p → s.blocks q) :=
    fun p hp => ⟨p, hp, id, id⟩
  cases a with
  | fork parent pid =>
      rw [act] at h
      split at h
      next hparent =>
          cases h
          refine ⟨⟨fun c hc => ⟨c, hc, rfl, rfl⟩, fun p hp => ?_⟩, rfl, rfl, rfl⟩
          rcases List.mem_append.mp hp with hp | hp
          · exact hself p (List.mem_append_left _ hp)
          · rcases List.mem_cons.mp hp with rfl | hp
            · exact ⟨parent, hparent, id, id⟩
            · exact hself p (List.mem_append_right _ hp)
      next => cases h
  | change p p' =>
      rw [act] at h
      split at h
      next hchange =>
          cases h
          obtain ⟨hp, -, hsession, -, hin, hout, herr⟩ := hchange
          refine ⟨⟨fun c hc => ⟨c, hc, rfl, rfl⟩, fun q hq => ?_⟩, rfl, rfl, rfl⟩
          rcases List.mem_append.mp hq with hq | hq
          · exact hself q (List.mem_append_left _ hq)
          · rcases List.mem_cons.mp hq with rfl | hq
            · refine ⟨p, List.mem_append_right _ hp, hsession, ?_⟩
              simp only [State.blocks, Bool.or_eq_true, Bool.and_eq_true]
              tauto
            · exact hself q (List.mem_append_right _ (List.mem_of_mem_erase hq))
      next => cases h
  | changeChild stdin stdout stderr =>
      obtain ⟨c, hc, rfl⟩ := Option.map_eq_some_iff.mp h
      refine ⟨⟨fun c' hc' => ?_, fun q hq => ?_⟩, rfl, rfl, rfl⟩
      · cases hc'
        exact ⟨c, hc, rfl, rfl⟩
      · rcases List.mem_append.mp hq with hq | hq
        · cases Option.mem_toList.mp hq
          refine ⟨c, List.mem_append_left _ (Option.mem_toList.mpr hc), id, ?_⟩
          simp only [State.blocks, Bool.or_eq_true, Bool.and_eq_true]
          tauto
        · exact hself q (List.mem_append_right _ hq)
  | exit p =>
      rw [act] at h
      split at h
      next =>
          cases h
          exact ⟨.of_subset (fun c hc => hc) (fun q hq => List.mem_of_mem_erase hq) rfl, rfl, rfl, rfl⟩
      next => cases h
  | exitChild =>
      obtain ⟨c, hc, rfl⟩ := Option.map_eq_some_iff.mp h
      exact ⟨.of_subset (fun c hc => nomatch hc) (fun q hq => hq) rfl, rfl, rfl, rfl⟩
  | feed =>
      cases h
      refine ⟨⟨fun c hc => ⟨c, hc, rfl, rfl⟩, fun p hp => ⟨p, hp, id, ?_⟩⟩, rfl, rfl, rfl⟩
      simp only [State.blocks, Bool.or_eq_true, Bool.and_eq_true]
      tauto
  | tick => cases h
  | poll waitFails childSurvives survives => cases h
  | join => cases h

/-- Only the runner differs. -/
theorem Sound.of_runner {s : State} (hs : Sound s) (r : Runner) : Sound { s with runner := r } :=
  ⟨hs.child, hs.noted, hs.past⟩

theorem Sound.poll {s : State} (hs : Sound s) (timeout : Nat) (waitFails childSurvives : Bool)
    (survives : Proc → Bool) (l : PollLoop) : Sound (poll timeout waitFails childSurvives survives s l) := by
  unfold Timeout.poll
  split
  · exact hs.of_runner _
  split
  next => exact hs.of_runner _
  next child hchild =>
      split
      · refine hs.stamp (.of_subset (fun c hc => ?_) (fun p hp => List.mem_of_mem_filter hp) rfl) rfl rfl
        cases childSurvives
        · cases hc
        · exact hchild.trans hc
      split
      · refine hs.stamp (.of_subset (fun c hc => ?_) (fun p hp => List.mem_of_mem_filter hp) rfl) rfl rfl
        cases hc
      · exact hs.of_runner _

/-- Every action keeps a state sound. -/
theorem Sound.step {timeout : Nat} {s t : State} {a : Action} (hs : Sound s) (h : step timeout s a = some t) :
    Sound t := by
  have hact : ∀ a, (act s a).map State.stamp = some t → Sound t := by
    intro a ha
    obtain ⟨u, hu, rfl⟩ := Option.map_eq_some_iff.mp ha
    obtain ⟨hdesc, hnow, -, hat⟩ := act_eq_some hu
    exact hs.stamp hdesc hnow hat
  cases a with
  | tick =>
      rw [Timeout.step] at h
      split at h
      next => cases h
      next =>
          cases h
          exact ⟨hs.child, hs.noted, fun e he => Nat.le_succ_of_le (hs.past e he)⟩
  | poll waitFails childSurvives survives =>
      rw [Timeout.step] at h
      split at h
      next =>
          split at h
          next => cases h; exact hs.poll ..
          next => cases h
      next => cases h
  | join =>
      rw [Timeout.step] at h
      split at h
      next =>
          split at h
          next => cases h; exact hs.of_runner _
          next => cases h
      next => cases h
  | fork parent pid => exact hact (.fork parent pid) h
  | change p p' => exact hact (.change p p') h
  | changeChild stdin stdout stderr => exact hact (.changeChild stdin stdout stderr) h
  | exit p => exact hact (.exit p) h
  | exitChild => exact hact .exitChild h
  | feed => exact hact .feed h

/-! ## Runs whose polls leave nobody -/

/-- What a reported timeout says of the end of the hook. -/
def Reported (timeout : Nat) (s : State) : Option Bool → Prop
  | some true => ∀ e, s.endedAt = some e → timeout ≤ e
  | some false => ∀ e, s.endedAt = some e → e ≤ timeout
  | none => True

/-- The phases of the loop: before the first signal, between the two, and after the second. -/
inductive Phase (timeout : Nat) (s : State) : PollLoop → Prop
  | waiting {next : Nat} (hnext : next ≤ timeout) : Phase timeout s ⟨next, false, none, false⟩
  | terminated {next : Nat} (hnow : timeout ≤ s.now) (hnext : next ≤ timeout + sigkillGrace)
      (hreported : Reported timeout s (some true)) :
      Phase timeout s ⟨next, true, some (timeout + sigkillGrace), true⟩
  | killed (hchild : s.child = none) (hended : s.Ended) (hdrained : s.Drained)
      (hreported : Reported timeout s (some true)) :
      Phase timeout s ⟨timeout + sigkillGrace + pollInterval, true, none, true⟩

/-- The runner is on time. -/
def OnTime (timeout : Nat) (s : State) : Prop :=
  match s.runner with
  | .polling l => s.now ≤ l.nextPoll ∧ pollInterval ∣ l.nextPoll ∧ Phase timeout s l
  | .joining o =>
      s.now ≤ timeout + sigkillGrace + pollInterval ∧ s.Ended ∧ s.Drained ∧ Reported timeout s o
  | .returned o => s.Ended ∧ Reported timeout s o

theorem Phase.nextPoll_le {timeout : Nat} {s : State} {l : PollLoop} (h : Phase timeout s l) :
    l.nextPoll ≤ timeout + sigkillGrace + pollInterval := by
  cases h with
  | @waiting next hnext =>
      show next ≤ _
      omega
  | @terminated next hnow hnext =>
      show next ≤ _
      omega
  | killed => exact Nat.le_refl _

/-- A hook that has ended in a sound state has its end noted, and nothing changes it. -/
theorem stamp_endedAt_of_ended {s t : State} (hs : Sound s) (hended : s.Ended) (hat : t.endedAt = s.endedAt) :
    t.stamp.endedAt = s.endedAt := by
  rw [stamp_endedAt, hat, if_neg fun h => hs.noted.mpr hended h.1]

/-- An end that is noted after the deadline is later than the deadline. -/
theorem reported_stamp {timeout : Nat} {t : State} (hnow : timeout ≤ t.now)
    (hreported : Reported timeout t (some true)) : Reported timeout t.stamp (some true) := by
  intro e he
  rw [stamp_endedAt] at he
  split at he
  next =>
      rw [Option.some.injEq] at he
      omega
  next => exact hreported e he

theorem reported_congr {timeout : Nat} {s t : State} (hat : t.endedAt = s.endedAt) {o : Option Bool}
    (h : Reported timeout s o) : Reported timeout t o := by
  match o with
  | none => trivial
  | some true => exact fun e he => h e (hat ▸ he)
  | some false => exact fun e he => h e (hat ▸ he)

/-- What the processes do keeps the runner on time. -/
theorem OnTime.act {timeout : Nat} {s t : State} {a : Action} (hs : Sound s) (hon : OnTime timeout s)
    (h : act s a = some t) : OnTime timeout t.stamp := by
  obtain ⟨hdesc, hnow, hrunner, hat⟩ := act_eq_some h
  unfold OnTime at hon ⊢
  rw [stamp_runner, stamp_now, hrunner, hnow]
  split
  next l hl =>
      rw [hl] at hon
      obtain ⟨hle, hdvd, hphase⟩ := hon
      refine ⟨hle, hdvd, ?_⟩
      cases hphase with
      | waiting hnext => exact .waiting hnext
      | terminated hpast hnext hreported =>
          have hpast' : timeout ≤ t.now := hnow ▸ hpast
          exact .terminated (by rw [stamp_now]; exact hpast') hnext
            (reported_stamp hpast' (reported_congr hat hreported))
      | killed hchild hended hdrained hreported =>
          refine .killed ?_ ?_ ?_ (reported_congr (stamp_endedAt_of_ended hs hended hat) hreported)
          · rw [stamp_child]
            cases hc : t.child with
            | none => rfl
            | some c =>
                obtain ⟨c', hc', -⟩ := hdesc.child c hc
                rw [hchild] at hc'
                cases hc'
          · exact (stamp_ended t).mpr (hdesc.ended hended)
          · exact (stamp_drained t).mpr (hdesc.drained hdrained)
  next o ho =>
      rw [ho] at hon
      obtain ⟨hle, hended, hdrained, hreported⟩ := hon
      exact ⟨hle, (stamp_ended t).mpr (hdesc.ended hended), (stamp_drained t).mpr (hdesc.drained hdrained),
        reported_congr (stamp_endedAt_of_ended hs hended hat) hreported⟩
  next o ho =>
      rw [ho] at hon
      obtain ⟨hended, hreported⟩ := hon
      exact ⟨(stamp_ended t).mpr (hdesc.ended hended),
        reported_congr (stamp_endedAt_of_ended hs hended hat) hreported⟩

/-- The next round after one that only waits comes no later than a deadline that is not over. -/
theorem next_le {now deadline : Nat} (hnow : pollInterval ∣ now) (hdeadline : pollInterval ∣ deadline)
    (h : now < deadline) : now + pollInterval ≤ deadline := by
  obtain ⟨a, rfl⟩ := hnow
  obtain ⟨b, rfl⟩ := hdeadline
  have hab : a < b := Nat.lt_of_mul_lt_mul_left h
  calc pollInterval * a + pollInterval = pollInterval * (a + 1) := by rw [Nat.mul_succ]
    _ ≤ pollInterval * b := Nat.mul_le_mul_left _ hab

theorem sigkillGrace_dvd : pollInterval ∣ sigkillGrace := by decide

theorem onTime_polling {timeout : Nat} {t : State} {l : PollLoop} (hrunner : t.runner = .polling l)
    (hnow : t.now ≤ l.nextPoll) (hdvd : pollInterval ∣ l.nextPoll) (hphase : Phase timeout t l) :
    OnTime timeout t := by
  unfold OnTime
  rw [hrunner]
  exact ⟨hnow, hdvd, hphase⟩

/-- A poll that leaves nobody keeps the runner on time. -/
theorem OnTime.poll {timeout : Nat} {s : State} {l : PollLoop} {waitFails childSurvives : Bool}
    {survives : Proc → Bool} (hdvd : pollInterval ∣ timeout) (hs : Sound s) (hrunner : s.runner = .polling l)
    (hon : OnTime timeout s) (hdue : s.now = l.nextPoll)
    (hnobody : LeavesNobody s (.poll waitFails childSurvives survives)) :
    OnTime timeout (poll timeout waitFails childSurvives survives s l) := by
  unfold OnTime at hon
  rw [hrunner] at hon
  obtain ⟨-, hpoll, hphase⟩ := hon
  unfold LeavesNobody at hnobody
  rw [hrunner] at hnobody
  obtain ⟨hleave, hkill⟩ := hnobody
  have hbound : s.now ≤ timeout + sigkillGrace + pollInterval := hdue ▸ hphase.nextPoll_le
  have hnow : pollInterval ∣ s.now := hdue ▸ hpoll
  unfold Timeout.poll
  split
  next hfails =>
      obtain ⟨hended, hdrained⟩ := hleave (.inl hfails)
      exact ⟨hbound, hended, hdrained, trivial⟩
  split
  next hchild =>
      obtain ⟨hended, hdrained⟩ := hleave (.inr hchild)
      refine ⟨hbound, hended, hdrained, ?_⟩
      cases hphase with
      | @waiting next hnext => exact fun e he => Nat.le_trans (hs.past e he) (hdue ▸ hnext)
      | terminated hpast hnext hreported => exact hreported
      | killed hchild' hended' hdrained' hreported => exact hreported
  next child hchild =>
      -- while the child runs no end is noted
      have hnone : s.endedAt = none := by
        by_contra hne
        have hout := hs.noted.mp hne child (List.mem_append_left _ (Option.mem_toList.mpr hchild))
        rw [(hs.child child hchild).1] at hout
        cases hout
      have hreported : ∀ {t : State}, timeout ≤ t.now → t.endedAt = s.endedAt →
          Reported timeout t.stamp (some true) :=
        fun hpast hat => reported_stamp hpast fun e he => by rw [hat, hnone] at he; cases he
      have hnext : pollInterval ∣ s.now + pollInterval := Nat.dvd_add hnow (Nat.dvd_refl _)
      have hgrace : pollInterval ∣ timeout + sigkillGrace := Nat.dvd_add hdvd sigkillGrace_dvd
      cases hphase with
      | @waiting next hle =>
          have hdue' : s.now = next := hdue
          by_cases hpast : timeout ≤ s.now
          · -- the first signal, at the deadline
            have hat : s.now = timeout := by omega
            rw [if_pos (by simp [hpast])]
            refine onTime_polling (stamp_runner _) ?_ hnext ?_
            · rw [stamp_now]
              exact Nat.le_add_right _ _
            · rw [hat]
              refine .terminated ?_ ?_ (hreported (Nat.le_refl _) rfl)
              · exact Nat.le_of_eq (by rw [stamp_now])
              · exact Nat.add_le_add_left (by decide) _
          · rw [if_neg (by simp [hpast]), if_neg (by simp [PollLoop.killDue])]
            exact onTime_polling rfl (Nat.le_add_right _ _) hnext (.waiting (next_le hnow hdvd (by omega)))
      | @terminated next hpast hle hend =>
          have hdue' : s.now = next := hdue
          rw [if_neg (by simp)]
          by_cases hkilldue : timeout + sigkillGrace ≤ s.now
          · -- the second signal reaches everybody who is left
            have hat : s.now = timeout + sigkillGrace := by omega
            have hdueKill :
                (PollLoop.mk next true (some (timeout + sigkillGrace)) true).killDue s.now = true := by
              simp [PollLoop.killDue, hkilldue]
            have hgone : ∀ p ∈ s.others.filter (fun p => !p.inGroup),
                p.inSession = false ∧ s.blocks p = false := by
              intro p hp
              obtain ⟨hmem, hout⟩ := List.mem_filter.mp hp
              have hreach := hkill hdueKill p hmem
              simp only [Bool.not_eq_true'] at hout
              rw [hout] at hreach
              constructor
              · exact Bool.eq_false_iff.mpr fun h => Bool.false_ne_true (hreach (.inl h))
              · exact Bool.eq_false_iff.mpr fun h => Bool.false_ne_true (hreach (.inr h))
            rw [if_pos hdueKill]
            refine onTime_polling (stamp_runner _) ?_ hnext ?_
            · rw [stamp_now]
              exact Nat.le_add_right _ _
            · rw [hat]
              refine .killed (stamp_child _) ?_ ?_ (hreported (Nat.le_add_right _ _) rfl)
              · exact (stamp_ended _).mpr fun p hp => (hgone p hp).1
              · exact (stamp_drained _).mpr fun p hp => (hgone p hp).2
          · rw [if_neg (by simp [PollLoop.killDue]; omega)]
            refine onTime_polling rfl (Nat.le_add_right _ _) hnext (.terminated hpast ?_ hend)
            exact next_le hnow hgrace (by omega)
      | killed hchild' =>
          rw [hchild'] at hchild
          cases hchild

/-- A step that leaves nobody keeps the runner on time. -/
theorem OnTime.step {timeout : Nat} {s t : State} {a : Action} (hdvd : pollInterval ∣ timeout) (hs : Sound s)
    (hon : OnTime timeout s) (hnobody : LeavesNobody s a) (h : step timeout s a = some t) :
    OnTime timeout t := by
  have hact : ∀ a, (Timeout.act s a).map State.stamp = some t → OnTime timeout t := by
    intro a ha
    obtain ⟨u, hu, rfl⟩ := Option.map_eq_some_iff.mp ha
    exact hon.act hs hu
  cases a with
  | tick =>
      rw [Timeout.step] at h
      split at h
      next => cases h
      next hdue =>
          cases h
          unfold OnTime State.Due at *
          cases hrunner : s.runner with
          | polling l =>
              simp only [hrunner] at hon hdue ⊢
              obtain ⟨hle, hpoll, hphase⟩ := hon
              refine ⟨by omega, hpoll, ?_⟩
              cases hphase with
              | waiting hnext => exact .waiting hnext
              | terminated hpast hnext hend => exact .terminated (Nat.le_succ_of_le hpast) hnext hend
              | killed hchild hended hdrained hend => exact .killed hchild hended hdrained hend
          | joining o =>
              simp only [hrunner] at hon hdue
              exact absurd hon.2.2.1 hdue
          | returned o =>
              simp only [hrunner] at hon ⊢
              exact hon
  | poll waitFails childSurvives survives =>
      rw [Timeout.step] at h
      split at h
      next l hrunner =>
          split at h
          next hdue =>
              cases h
              exact hon.poll hdvd hs hrunner hdue hnobody
          next => cases h
      next => cases h
  | join =>
      rw [Timeout.step] at h
      split at h
      next o hrunner =>
          split at h
          next =>
              cases h
              unfold OnTime at hon
              rw [hrunner] at hon
              exact ⟨hon.2.1, hon.2.2.2⟩
          next => cases h
      next => cases h
  | fork parent pid => exact hact (.fork parent pid) h
  | change p p' => exact hact (.change p p') h
  | changeChild stdin stdout stderr => exact hact (.changeChild stdin stdout stderr) h
  | exit p => exact hact (.exit p) h
  | exitChild => exact hact .exitChild h
  | feed => exact hact .feed h

/-- A runner on time has a hard timeout. -/
theorem OnTime.hardTimeout {timeout : Nat} {s : State} (hs : Sound s) (hon : OnTime timeout s) :
    HardTimeout timeout s := by
  unfold OnTime at hon
  constructor
  · intro hlate
    cases hrunner : s.runner with
    | polling l =>
        rw [hrunner] at hon
        have hle := Nat.le_trans hon.1 hon.2.2.nextPoll_le
        omega
    | joining o =>
        rw [hrunner] at hon
        have hle := hon.1
        omega
    | returned o =>
        rw [hrunner] at hon
        exact ⟨hon.1, o, rfl⟩
  · intro timedOut hreturned
    rw [hreturned] at hon
    obtain ⟨hended, hreported⟩ := hon
    obtain ⟨e, he⟩ := Option.ne_none_iff_exists'.mp (hs.noted.mpr hended)
    refine ⟨e, he, ?_, ?_⟩
    · rintro rfl
      exact hreported e he
    · rintro rfl
      exact hreported e he

/-- A child that was just started. -/
theorem sound_spawned : Sound spawned where
  child c hc := by
    cases hc
    exact ⟨rfl, rfl⟩
  noted := by decide
  past e he := nomatch he

theorem onTime_spawned (timeout : Nat) : OnTime timeout spawned :=
  ⟨Nat.le_refl 0, Nat.dvd_zero _, .waiting (Nat.zero_le _)⟩

/-- The timeout of a hook, which is in seconds, is hard in every state of a run whose polls leave nobody. -/
theorem hardTimeout_of_leavesNobody {timeoutSecs : UInt32} {actions : List Action} {s : State}
    (hnobody : Allowed (step (1000 * timeoutSecs.toNat)) LeavesNobody spawned actions)
    (hrun : run (step (1000 * timeoutSecs.toNat)) spawned actions = some s) :
    HardTimeout (1000 * timeoutSecs.toNat) s := by
  have hdvd : pollInterval ∣ 1000 * timeoutSecs.toNat :=
    Nat.dvd_trans (by decide : pollInterval ∣ 1000) (Nat.dvd_mul_right _ _)
  have hinv : Sound s ∧ OnTime (1000 * timeoutSecs.toNat) s :=
    run_invariant (I := fun s => Sound s ∧ OnTime (1000 * timeoutSecs.toNat) s)
      (fun s a s' hs ha hstep => ⟨hs.1.step hstep, hs.2.step hdvd hs.1 ha hstep⟩)
      ⟨sound_spawned, onTime_spawned _⟩ hnobody hrun
  exact hinv.2.hardTimeout hinv.1

/-! ### Two hooks -/

/-- The law for a hook that ends at once. -/
theorem hardTimeout_exit :
    HardTimeout (1000 * (1 : UInt32).toNat)
      { spawned with child := none, runner := .returned (some false), endedAt := some 0 } :=
  have hnobody : Allowed (step (1000 * (1 : UInt32).toNat)) LeavesNobody spawned
      [.exitChild, .poll false true fun _ => true, .join] :=
    ⟨trivial, ⟨fun _ => ⟨by decide, by decide⟩, fun h => nomatch h⟩, trivial, trivial⟩
  hardTimeout_of_leavesNobody hnobody rfl

/-- A descendant of a child that has ended, while the runner waits for its pipes. -/
def orphaned (now : Nat) : State where
  now := now
  child := none
  others := [⟨1, true, true, true, true, true⟩]
  fed := false
  runner := .joining (some false)
  endedAt := none

/-- Nothing but the clock moves. -/
theorem run_ticks (timeout now n : Nat) :
    run (step timeout) (orphaned now) (List.replicate n .tick) = some (orphaned (now + n)) := by
  induction n generalizing now with
  | zero => rfl
  | succ n ih =>
      have hstep : step timeout (orphaned now) .tick = some (orphaned (now + 1)) := rfl
      rw [List.replicate_succ, run, hstep]
      show run (step timeout) (orphaned (now + 1)) _ = _
      rw [ih, Nat.add_assoc, Nat.add_comm 1 n]

/-- The child forks once and ends, and the runner sees it. -/
def orphaning (n : Nat) : List Action :=
  .fork ⟨0, true, true, true, true, true⟩ 1 :: .exitChild :: .poll false true (fun _ => true) ::
    List.replicate n .tick

theorem run_orphaning (timeout n : Nat) : run (step timeout) spawned (orphaning n) = some (orphaned n) := by
  show run (step timeout) (orphaned 0) (List.replicate n .tick) = _
  rw [run_ticks, Nat.zero_add]

/-- A child that leaves a descendant behind: neither signal is sent, and the runner waits for it. -/
theorem hardTimeout_orphan :
    ∃ actions s, run (step (1000 * (1 : UInt32).toNat)) spawned actions = some s ∧
      ¬ HardTimeout (1000 * (1 : UInt32).toNat) s := by
  refine ⟨orphaning 6051, orphaned 6051, run_orphaning _ 6051, fun hhard => ?_⟩
  have hlate : 1000 * (1 : UInt32).toNat + sigkillGrace + pollInterval < (orphaned 6051).now := by decide
  obtain ⟨-, o, hreturned⟩ := hhard.overdue hlate
  cases hreturned

end Timeout
end Sandbox
end Aimx
