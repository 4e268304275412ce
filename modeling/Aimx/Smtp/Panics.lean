import Aimx.Ingest.MailFrom
import Aimx.Mcp.Reply
import Aimx.Smtp.Content

/-!
# Slices of the mail path

The commands of a session, the SPF check of a message and the reply to a stored message all cut an address
out of a text between its first `<` and its first `>`.  The cut panics where the `>` comes first.

* `commandStep_panics_iff` — the rounds of the command loop that panic;
* `runSession_panics_iff` — the sessions that do;
* `noPanic_iff` — the sessions, messages and senders for which nothing panics.
-/

namespace Aimx
namespace Smtp

open Text Ingest Mcp

/-! ## One round -/

/-- The brackets behind a keyword are the wrong way round. -/
def PathReversed (keyword args : Str) : Prop :=
  keyword <+: toUppercase args ∧ ClosesFirst '<' '>' (trim (args.drop keyword.length))

theorem extractAngleAddr_eq_none_iff (s : Str) :
    extractAngleAddr s = none ↔ ClosesFirst '<' '>' (trim s) := by
  rw [← between_eq_none_iff (by decide)]
  unfold extractAngleAddr between
  cases splitOnce '<' (trim s) with
  | none => simp
  | some front =>
      cases splitOnce '>' (trim s) with
      | none => simp
      | some stop =>
          by_cases hlen : stop.1.length ≤ front.1.length
          · simp [hlen]
          · simp [hlen]

/-- `handle_mail_from` panics on a reversed path, where it looks at the path at all. -/
theorem handleMailFrom_eq_none_iff (args : Str) (s : SessionState) :
    handleMailFrom args s = none ↔
      s.state ≠ .connected ∧ s.state ≠ .mailFrom ∧ s.state ≠ .rcptTo ∧ PathReversed "FROM:".toList args := by
  have hplain : Plain foreignUppercase "FROM:".toList := plain_of_isPlain (by decide)
  unfold handleMailFrom PathReversed
  by_cases hconnected : s.state = .connected
  · simp [hconnected]
  · by_cases hgiven : s.state = .mailFrom ∨ s.state = .rcptTo
    · rw [if_neg hconnected, if_pos hgiven]
      rcases hgiven with hgiven | hgiven <;> simp [hgiven]
    · rw [if_neg hconnected, if_neg hgiven]
      rw [not_or] at hgiven
      by_cases hkey : "FROM:".toList <+: toUppercase args
      · have hslice : sliceFrom 5 args = some (args.drop 5) := sliceFrom_of_toUppercase hplain hkey
        have hlead : "FROM:".toList.isPrefixOf (toUppercase args) = true :=
          List.isPrefixOf_iff_prefix.mpr hkey
        rw [hlead, hslice, Bool.not_true, if_neg Bool.false_ne_true, Option.bind_some,
          Option.map_eq_none_iff, extractAngleAddr_eq_none_iff]
        exact ⟨fun h => ⟨hconnected, hgiven.1, hgiven.2, hkey, h⟩, fun h => h.2.2.2.2⟩
      · have hlead : "FROM:".toList.isPrefixOf (toUppercase args) = false := by
          rwa [← Bool.not_eq_true, List.isPrefixOf_iff_prefix]
        rw [hlead, Bool.not_false, if_pos rfl]
        exact iff_of_false (by simp) fun h => hkey h.2.2.2.1

/-- `handle_rcpt_to` panics on a reversed path, where it looks at the path at all. -/
theorem handleRcptTo_eq_none_iff (config : Config) (args : Str) (s : SessionState) :
    handleRcptTo config args s = none ↔
      s.state ≠ .connected ∧ s.state ≠ .greeted ∧ PathReversed "TO:".toList args := by
  have hplain : Plain foreignUppercase "TO:".toList := plain_of_isPlain (by decide)
  unfold handleRcptTo PathReversed
  by_cases hearly : s.state = .connected ∨ s.state = .greeted
  · rw [if_pos hearly]
    rcases hearly with hearly | hearly <;> simp [hearly]
  · rw [if_neg hearly]
    rw [not_or] at hearly
    by_cases hkey : "TO:".toList <+: toUppercase args
    · have hslice : sliceFrom 3 args = some (args.drop 3) := sliceFrom_of_toUppercase hplain hkey
      have hlead : "TO:".toList.isPrefixOf (toUppercase args) = true :=
        List.isPrefixOf_iff_prefix.mpr hkey
      rw [hlead, hslice, Bool.not_true, if_neg Bool.false_ne_true, Option.bind_some,
        Option.map_eq_none_iff, extractAngleAddr_eq_none_iff]
      exact ⟨fun h => ⟨hearly.1, hearly.2, hkey, h⟩, fun h => h.2.2.2⟩
    · have hlead : "TO:".toList.isPrefixOf (toUppercase args) = false := by
        rwa [← Bool.not_eq_true, List.isPrefixOf_iff_prefix]
      rw [hlead, Bool.not_false, if_pos rfl]
      exact iff_of_false (by simp) fun h => hkey h.2.2.1

/-- A command with a reversed path, in a state in which its handler looks at the path. -/
def CommandReversed (state : State) (cmd args : Str) : Prop :=
  match Command.ofStr cmd with
  | .mail => state ≠ .connected ∧ state ≠ .mailFrom ∧ state ≠ .rcptTo ∧ PathReversed "FROM:".toList args
  | .rcpt => state ≠ .connected ∧ state ≠ .greeted ∧ PathReversed "TO:".toList args
  | _ => False

/-- How a round ends the session, if it does. -/
def Step.exit : Step → Option Exit
  | .more _ _ _ => none
  | .stop exit _ _ _ => some exit

@[simp] theorem Step.exit_more (s : SessionState) (r : Reader) (trace : List Event) :
    (Step.more s r trace).exit = none := rfl

@[simp] theorem Step.exit_stop (exit : Exit) (s : SessionState) (r : Reader) (trace : List Event) :
    (Step.stop exit s r trace).exit = some exit := rfl

@[simp] theorem respond_exit (ok : Bool) (s : SessionState) (r : Reader) (trace : List Event) (text : Str) :
    (respond ok s r trace text).exit = if ok then none else some .done := by
  cases ok <;> rfl

theorem respond_not_panicked (ok : Bool) (s : SessionState) (r : Reader) (trace : List Event)
    (text : Str) : (respond ok s r trace text).exit ≠ some .panicked := by
  cases ok <;> simp

theorem dataStep_not_panicked (p : SessionParams) (env : Round) (s : SessionState) (r : Reader)
    (trace : List Event) : (dataStep p env s r trace).exit ≠ some .panicked := by
  unfold dataStep
  dsimp only
  split
  · simp
  · cases receiveData p.maxMessageSize [] r with
    | mk exit r' =>
        cases exit with
        | failed e => simp
        | cancelled => simp
        | reply text => exact respond_not_panicked _ _ _ _ _
        | message data =>
            dsimp only
            split
            · simp
            · exact respond_not_panicked _ _ _ _ _

theorem dispatch_panics_iff (p : SessionParams) (env : Round) (s : SessionState) (r : Reader)
    (trace : List Event) (cmd args : Str) :
    (dispatch p env s r trace cmd args).exit = some .panicked ↔ CommandReversed s.state cmd args := by
  unfold dispatch CommandReversed
  dsimp only
  cases Command.ofStr cmd with
  | mail =>
      rw [← handleMailFrom_eq_none_iff]
      cases handleMailFrom args s with
      | none => simp
      | some handled => exact iff_of_false (respond_not_panicked _ _ _ _ _) (by simp)
  | rcpt =>
      rw [← handleRcptTo_eq_none_iff env.config]
      cases handleRcptTo env.config args s with
      | none => simp
      | some handled => exact iff_of_false (respond_not_panicked _ _ _ _ _) (by simp)
  | data =>
      cases handleDataPrecheck s with
      | none => exact iff_of_false (dataStep_not_panicked _ _ _ _ _) id
      | some text => exact iff_of_false (respond_not_panicked _ _ _ _ _) id
  | starttls =>
      by_cases hacceptor : p.tlsAcceptor <;> by_cases hactive : s.tlsActive <;> simp [hacceptor, hactive]
  | quit => simp
  | ehlo => exact iff_of_false (respond_not_panicked _ _ _ _ _) id
  | helo => exact iff_of_false (respond_not_panicked _ _ _ _ _) id
  | rset => exact iff_of_false (respond_not_panicked _ _ _ _ _) id
  | noop => exact iff_of_false (respond_not_panicked _ _ _ _ _) id
  | unrecognized => exact iff_of_false (respond_not_panicked _ _ _ _ _) id

/-- The next line of the connection is a command with a reversed path, and it is dispatched. -/
structure HandsReversed (p : SessionParams) (s : SessionState) (r : Reader) : Prop where
  read : (boundedReadLine maxCommandLineLength r).outcome = .ready .ok
  visible : trimEnd (boundedReadLine maxCommandLineLength r).buf ≠ []
  admitted : ¬ (s.state ≠ .data ∧ s.commandCount + 1 > p.maxCommandsBeforeData)
  reversed : CommandReversed s.state
    (parseCommand (trimEnd (boundedReadLine maxCommandLineLength r).buf)).1
    (parseCommand (trimEnd (boundedReadLine maxCommandLineLength r).buf)).2

/-- **The rounds that panic.** -/
theorem commandStep_panics_iff (p : SessionParams) (env : Round) (s : SessionState) (r : Reader) :
    (commandStep p env s r).exit = some .panicked ↔ HandsReversed p s r := by
  have hnot : (boundedReadLine maxCommandLineLength r).outcome ≠ .ready .ok → ¬ HandsReversed p s r :=
    fun h hands => h hands.read
  unfold commandStep
  dsimp only
  split
  case h_1 hread => exact iff_of_false (by simp) (hnot (by simp [hread]))
  case h_2 hread => exact iff_of_false (by simp) (hnot (by simp [hread]))
  case h_3 hread => exact iff_of_false (respond_not_panicked _ _ _ _ _) (hnot (by simp [hread]))
  case h_4 hread => exact iff_of_false (by simp) (hnot (by simp [hread]))
  case h_5 hread => exact iff_of_false (by simp) (hnot (by simp [hread]))
  case h_6 hread =>
      split
      next hblank => exact iff_of_false (by simp) fun hands => hands.visible (List.isEmpty_iff.mp hblank)
      next hvisible =>
          split
          next hmany => exact iff_of_false (by simp) fun hands => hands.admitted hmany
          next hfew =>
              rw [dispatch_panics_iff]
              have hline : trimEnd (boundedReadLine maxCommandLineLength r).buf ≠ [] := fun h =>
                hvisible (List.isEmpty_iff.mpr h)
              exact ⟨fun hreversed => ⟨hread, hline, hfew, hreversed⟩, fun hands => hands.reversed⟩

/-! ## Runs -/

/-- The rounds of a command loop that begins with a round. -/
inductive Visits (p : SessionParams) (env : Env) :
    Nat → SessionState → Reader → Nat → SessionState → Reader → Prop
  | here (clock : Nat) (s : SessionState) (r : Reader) : Visits p env clock s r clock s r
  | next {clock clock' : Nat} {s s' s'' : SessionState} {r r' r'' : Reader} {trace : List Event}
      (step : commandStep p (env.round clock) s r = .more s' r' trace)
      (rest : Visits p env (clock + 1) s' r' clock' s'' r'') : Visits p env clock s r clock' s'' r''

/-- A command loop ends in the round that stops it. -/
theorem Visits.stop {p : SessionParams} {env : Env} {clock clock' : Nat} {s s' s'' : SessionState}
    {r r' r'' : Reader} {exit : Exit} {trace : List Event} (h : Visits p env clock s r clock' s' r')
    (hstop : commandStep p (env.round clock') s' r' = .stop exit s'' r'' trace) :
    (commandLoop p env clock s r).exit = exit ∧ (commandLoop p env clock s r).state = s'' ∧
      (commandLoop p env clock s r).reader = r'' ∧ (commandLoop p env clock s r).clock = clock' + 1 := by
  induction h with
  | here clock s r =>
      rw [commandLoop]
      split
      next heq =>
          rw [hstop] at heq
          cases heq
          exact ⟨rfl, rfl, rfl, rfl⟩
      next heq =>
          rw [hstop] at heq
          cases heq
  | next step _ ih =>
      rw [commandLoop]
      split
      next heq =>
          rw [step] at heq
          cases heq
      next heq =>
          rw [step] at heq
          cases heq
          exact ih hstop

/-- Every command loop ends in one of its rounds. -/
theorem exists_stop (p : SessionParams) (env : Env) (clock : Nat) (s : SessionState) (r : Reader) :
    ∃ clock' s' r' exit s'' r'' trace, Visits p env clock s r clock' s' r' ∧
      commandStep p (env.round clock') s' r' = .stop exit s'' r'' trace := by
  induction hn : r.weight using Nat.strong_induction_on generalizing clock s r with
  | _ n ih =>
      cases hstep : commandStep p (env.round clock) s r with
      | stop exit s' r' trace => exact ⟨clock, s, r, exit, s', r', trace, .here clock s r, hstep⟩
      | more s' r' trace =>
          have hlt := (commandStep_more hstep).1
          obtain ⟨clock'', s'', r'', exit, send, rend, trace', hvisits, hstop⟩ :=
            ih r'.weight (hn ▸ hlt) (clock + 1) s' r' rfl
          exact ⟨clock'', s'', r'', exit, send, rend, trace', .next hstep hvisits, hstop⟩

theorem commandLoop_panics_iff (p : SessionParams) (env : Env) (clock : Nat) (s : SessionState) (r : Reader) :
    (commandLoop p env clock s r).exit = .panicked ↔
      ∃ clock' s' r', Visits p env clock s r clock' s' r' ∧ HandsReversed p s' r' := by
  constructor
  · intro h
    obtain ⟨clock', s', r', exit, s'', r'', trace, hvisits, hstop⟩ := exists_stop p env clock s r
    obtain rfl : exit = .panicked := (hvisits.stop hstop).1.symm.trans h
    refine ⟨clock', s', r', hvisits, (commandStep_panics_iff p (env.round clock') s' r').mp ?_⟩
    rw [hstop, Step.exit_stop]
  · rintro ⟨clock', s', r', hvisits, hands⟩
    have hexit := (commandStep_panics_iff p (env.round clock') s' r').mpr hands
    cases hstep : commandStep p (env.round clock') s' r' with
    | more s'' r'' trace =>
        rw [hstep, Step.exit_more] at hexit
        cases hexit
    | stop exit s'' r'' trace =>
        rw [hstep, Step.exit_stop, Option.some.injEq] at hexit
        rw [(hvisits.stop hstep).1, hexit]

/-- The rounds of a session: those of the plain-text loop, and those behind the TLS handshake. -/
inductive SessionVisits (p : SessionParams) (env : Env) (stream : Stream) :
    Nat → SessionState → Reader → Prop
  | plain {clock : Nat} {s : SessionState} {r : Reader} (banner : (env.round 0).writeOk 0 = true)
      (loop : Visits p env 1 SessionState.new ⟨[], stream⟩ clock s r) : SessionVisits p env stream clock s r
  | tls {clock clock' : Nat} {s s' s'' : SessionState} {r r' r'' : Reader} {trace : List Event}
      {tlsStream : Stream} (banner : (env.round 0).writeOk 0 = true)
      (loop : Visits p env 1 SessionState.new ⟨[], stream⟩ clock s r)
      (upgrade : commandStep p (env.round clock) s r = .stop .starttlsUpgrade s' r' trace)
      (handshake : env.accept r'.inner = some tlsStream)
      (secure : Visits p env (clock + 1) s'.upgraded ⟨[], tlsStream⟩ clock' s'' r'') :
      SessionVisits p env stream clock' s'' r''

/-- **The sessions that panic.** -/
theorem runSession_panics_iff (p : SessionParams) (env : Env) (stream : Stream) :
    (runSession p env stream).exit = .panicked ↔
      ∃ clock s r, SessionVisits p env stream clock s r ∧ HandsReversed p s r := by
  by_cases hbanner : (env.round 0).writeOk 0 = true
  · have hsession : runSession p env stream =
        if (commandLoop p env 1 SessionState.new ⟨[], stream⟩).exit = .starttlsUpgrade then
          ⟨(handleTlsUpgrade p env (commandLoop p env 1 SessionState.new ⟨[], stream⟩).clock
              (commandLoop p env 1 SessionState.new ⟨[], stream⟩).reader.inner
              (commandLoop p env 1 SessionState.new ⟨[], stream⟩).state).exit,
            .reply (banner p) :: ((commandLoop p env 1 SessionState.new ⟨[], stream⟩).trace ++
              (handleTlsUpgrade p env (commandLoop p env 1 SessionState.new ⟨[], stream⟩).clock
                (commandLoop p env 1 SessionState.new ⟨[], stream⟩).reader.inner
                (commandLoop p env 1 SessionState.new ⟨[], stream⟩).state).trace)⟩
        else ⟨(commandLoop p env 1 SessionState.new ⟨[], stream⟩).exit,
          .reply (banner p) :: (commandLoop p env 1 SessionState.new ⟨[], stream⟩).trace⟩ := by
      unfold runSession
      rw [hbanner, Bool.not_true, if_neg Bool.false_ne_true]
    obtain ⟨clock₀, s₀, r₀, exit, s₁, r₁, trace, hvisits, hstop⟩ :=
      exists_stop p env 1 SessionState.new ⟨[], stream⟩
    obtain ⟨hexit, hstate, hreader, hclock⟩ := hvisits.stop hstop
    by_cases hupgrade : exit = .starttlsUpgrade
    · subst hupgrade
      rw [hsession, if_pos hexit, hstate, hreader, hclock]
      constructor
      · intro h
        unfold handleTlsUpgrade at h
        cases haccept : env.accept r₁.inner with
        | none =>
            rw [haccept] at h
            cases h
        | some tlsStream =>
            rw [haccept] at h
            have hloop : (commandLoop p env (clock₀ + 1) s₁.upgraded ⟨[], tlsStream⟩).exit = .panicked := by
              dsimp only at h
              split at h
              · cases h
              · exact h
            obtain ⟨clock', s', r', hsecure, hands⟩ := (commandLoop_panics_iff _ _ _ _ _).mp hloop
            exact ⟨clock', s', r', .tls hbanner hvisits hstop haccept hsecure, hands⟩
      · rintro ⟨clock', s', r', hvisit, hands⟩
        cases hvisit with
        | plain _ loop =>
            have hpanic := (commandLoop_panics_iff p env 1 SessionState.new ⟨[], stream⟩).mpr
              ⟨clock', s', r', loop, hands⟩
            rw [hexit] at hpanic
            cases hpanic
        | tls _ loop upgrade handshake secure =>
            obtain ⟨-, hs, hr, hc⟩ := loop.stop upgrade
            rw [hs] at hstate
            rw [hr] at hreader
            rw [hc] at hclock
            subst hstate hreader
            obtain rfl := Nat.succ_injective hclock
            have hpanic := (commandLoop_panics_iff p env _ _ _).mpr ⟨clock', s', r', secure, hands⟩
            unfold handleTlsUpgrade
            rw [handshake]
            dsimp only
            rw [hpanic, if_neg (by simp)]
    · rw [hsession, if_neg (by rwa [hexit])]
      constructor
      · intro h
        obtain ⟨clock', s', r', loop, hands⟩ := (commandLoop_panics_iff _ _ _ _ _).mp h
        exact ⟨clock', s', r', .plain hbanner loop, hands⟩
      · rintro ⟨clock', s', r', hvisit, hands⟩
        cases hvisit with
        | plain _ loop => exact (commandLoop_panics_iff _ _ _ _ _).mpr ⟨clock', s', r', loop, hands⟩
        | tls _ loop upgrade handshake secure =>
            exact absurd (hexit.symm.trans (loop.stop upgrade).1) hupgrade
  · have hsession : (runSession p env stream).exit = .failed "write failed".toList := by
      unfold runSession
      rw [Bool.not_eq_true] at hbanner
      rw [hbanner, Bool.not_false, if_pos rfl]
    refine iff_of_false (by rw [hsession]; simp) ?_
    rintro ⟨clock', s', r', hvisit, -⟩
    cases hvisit with
    | plain banner _ => exact hbanner banner
    | tls banner _ _ _ _ => exact hbanner banner

/-! ## The mail path -/

/-- No slice panics: in a session, in the SPF check of a message, or in the reply to a stored one. -/
structure NoPanic (p : SessionParams) (env : Env) (stream : Stream) (raw : Bytes)
    (envelopeMailFrom : Option Str) (m : InboundFrontmatter) : Prop where
  session : (runSession p env stream).exit ≠ .panicked
  spf : selectMailFrom raw envelopeMailFrom ≠ none
  reply : extractEmailAddress m.from_ ≠ none

/-- **When nothing panics.**  In every session whose MAIL and RCPT lines have their brackets in order, for
every message that has an envelope sender or a `From` line with its brackets in order, and for every
stored sender with its brackets in order. -/
theorem noPanic_iff (p : SessionParams) (env : Env) (stream : Stream) (raw : Bytes)
    (envelopeMailFrom : Option Str) (e : SenderMatch) (config : Config) (rcpt mailbox : Str)
    (message : Message) (a : Arrival) :
    NoPanic p env stream raw envelopeMailFrom (inboundMeta e config rcpt mailbox raw message a) ↔
      (∀ clock s r, SessionVisits p env stream clock s r → ¬ HandsReversed p s r) ∧
      (envelopeMailFrom.getD [] = [] →
        ∀ line, fromLine raw = some line → ¬ ClosesFirst '<' '>' (trim (line.drop 5))) ∧
      ¬ ClosesFirst '<' '>' (displayFirst message.from_) := by
  have hsession : (runSession p env stream).exit ≠ .panicked ↔
      ∀ clock s r, SessionVisits p env stream clock s r → ¬ HandsReversed p s r := by
    rw [ne_eq, runSession_panics_iff]
    simp only [not_exists, not_and]
  have hspf : selectMailFrom raw envelopeMailFrom ≠ none ↔
      (envelopeMailFrom.getD [] = [] →
        ∀ line, fromLine raw = some line → ¬ ClosesFirst '<' '>' (trim (line.drop 5))) := by
    rw [ne_eq, selectMailFrom_eq_none_iff]
    simp only [not_exists, not_and]
  have hreply : extractEmailAddress (inboundMeta e config rcpt mailbox raw message a).from_ ≠ none ↔
      ¬ ClosesFirst '<' '>' (displayFirst message.from_) :=
    not_congr (between_eq_none_iff (by decide))
  constructor
  · intro h
    exact ⟨hsession.mp h.session, hspf.mp h.spf, hreply.mp h.reply⟩
  · rintro ⟨h, h', h''⟩
    exact ⟨hsession.mpr h, hspf.mpr h', hreply.mpr h''⟩

/-- A sender with the brackets the wrong way round. -/
def reversedSender : Addr := ⟨some "a>b".toList, some "eve@evil.example".toList⟩

/-- One command line ends a session, one header line ends a delivery, and one display name ends every
reply to the message. -/
theorem not_noPanic_reversed :
    (runSession plainParams plainEnv (Stream.ofText "EHLO a\r\nMAIL FROM:>a<\r\n")).exit = .panicked ∧
      selectMailFrom (utf8 "From: >a<\r\n\r\nHi\r\n".toList) none = none ∧
      extractEmailAddress (displayFirst (some [reversedSender])) = none ∧
      ¬ NoPanic plainParams plainEnv (Stream.ofText "EHLO a\r\nMAIL FROM:>a<\r\n")
        (utf8 "From: >a<\r\n\r\nHi\r\n".toList) none forgedMeta := by
  have hsession : (runSession plainParams plainEnv
      (Stream.ofText "EHLO a\r\nMAIL FROM:>a<\r\n")).exit = .panicked := by
    decide +kernel
  exact ⟨hsession, by decide +kernel, by decide +kernel, fun h => h.session hsession⟩

end Smtp
end Aimx
