import Aimx.Smtp.Content

/-!
# Transactions over whole sessions

What SMTP promises about deliveries can be read off the dialogue alone: commands, replies and `ingest`
calls.  A `Ledger` is the reader's notebook.  It records the greeting, the reverse path of the accepted
MAIL and the recipients accepted since, forgets them at every reset, and refuses any `ingest` call that
is not the next accepted recipient of the transaction that DATA ends.

* `Ledger.step` — one event of the dialogue, refused if it is not allowed;
* `ServesTransactions` — a dialogue in which every event is allowed and no delivery stays incomplete;
* `Tracks` — the session record agrees with the ledger; kept by every round (`commandStep_serves`);
* `runSession_transactions` — every session keeps the ledger, up to a delivery that the connection's
  deadline cuts off, and behind STARTTLS depends on nothing that went before.
-/

namespace Aimx
namespace Smtp

open Text

/-- The reader's notebook of a dialogue: the greeting, the accepted MAIL and RCPT commands since the
last reset, the command that waits for its answer, and the `ingest` calls made since the 354. -/
structure Ledger where
  greeted : Bool
  sender : Option Str
  rcpts : List Str
  command : Option (Command × Str)
  calls : Nat
  deriving DecidableEq

/-- The notebook at the start of a connection, and again behind the TLS handshake. -/
def Ledger.start : Ledger :=
  { greeted := false, sender := none, rcpts := [], command := none, calls := 0 }

/-- The address that a MAIL or RCPT command names behind its `n` characters of keyword. -/
def namedAddr (n : Nat) (args : Str) : Option Str := (sliceFrom n args).bind extractAngleAddr

/-- The replies to a DATA that ends without a message. -/
def refusals : List Str :=
  ["421 Timeout during DATA\r\n".toList, "451 Client disconnected during DATA\r\n".toList,
    "500 Bare LF not allowed (RFC 5321)\r\n".toList, "552 Message exceeds maximum size\r\n".toList]

/-- What the answer to a command means.  The final answer to DATA ends the transaction; by then every
accepted recipient has been called, or none if the message was refused. -/
def Ledger.answered (l : Ledger) (command : Command) (args text : Str) : Option Ledger :=
  let l := { l with command := none }
  match command with
  | .ehlo | .helo =>
      some (if "250".toList.isPrefixOf text then
        { l with greeted := true, sender := none, rcpts := [] } else l)
  | .mail =>
      some (if text = okReply then { l with sender := namedAddr 5 args, rcpts := [] } else l)
  | .rcpt =>
      some (if text = okReply then { l with rcpts := l.rcpts ++ (namedAddr 3 args).toList } else l)
  | .rset => some (if text = okReply then { l with sender := none, rcpts := [] } else l)
  | .data =>
      if "354".toList.isPrefixOf text then some { l with command := some (.data, args) }
      else if "503".toList.isPrefixOf text then some l
      else if l.calls = if text ∈ refusals then 0 else l.rcpts.length then
        some { l with sender := none, rcpts := [], calls := 0 }
      else none
  | .noop | .quit | .starttls | .unrecognized => some l

/-- One event of the dialogue; `none` if it is not allowed.  An `ingest` call is allowed only while a
greeted client waits for the answer to DATA, for the next of the accepted recipients, with the reverse
path of the accepted MAIL. -/
def Ledger.step (l : Ledger) : Event → Option Ledger
  | .line _ _ cmd args => some { l with command := some (Command.ofStr cmd, args) }
  | .reply text =>
      match l.command with
      | none => some l
      | some (command, args) => l.answered command args text
  | .ingest rcpt envelope _ =>
      if l.greeted = true ∧ l.command.map Prod.fst = some .data ∧
          l.sender.map envelopeOf = some envelope ∧ l.rcpts[l.calls]? = some rcpt then
        some { l with calls := l.calls + 1 }
      else none
  | .handshake => some .start
  | .data _ _ => some l
  | .resumed _ _ => some l

/-- A dialogue, event by event. -/
def Ledger.run (l : Ledger) (trace : List Event) : Option Ledger := trace.foldlM Ledger.step l

/-- No delivery has been left half-way. -/
def Ledger.Complete (l : Ledger) : Prop := l.calls = 0 ∨ l.calls = l.rcpts.length

instance (l : Ledger) : Decidable l.Complete := inferInstanceAs (Decidable (_ ∨ _))

/-- Every event of a dialogue is allowed, and no delivery stays incomplete. -/
def ServesTransactions (trace : List Event) : Prop :=
  ∃ l, Ledger.start.run trace = some l ∧ l.Complete

@[simp] theorem Ledger.run_nil (l : Ledger) : l.run [] = some l := rfl

@[simp] theorem Ledger.run_cons (l : Ledger) (e : Event) (trace : List Event) :
    l.run (e :: trace) = (l.step e).bind fun l' => l'.run trace := rfl

@[simp] theorem Ledger.run_append (l : Ledger) (trace trace' : List Event) :
    l.run (trace ++ trace') = (l.run trace).bind fun l' => l'.run trace' := by
  simp [Ledger.run, List.foldlM_append]

/-! ## The session record and the ledger -/

/-- The ledger agrees with the session record between two rounds. -/
structure Tracks (l : Ledger) (s : SessionState) : Prop where
  command : l.command = none
  calls : l.calls = 0
  rcpts : l.rcpts = s.forwardPaths
  notData : s.state ≠ .data
  greeted : s.state ≠ .connected → l.greeted = true
  sender : s.state = .mailFrom ∨ s.state = .rcptTo → l.sender = some s.reversePath
  fresh : s.state ≠ .rcptTo → s.forwardPaths = []
  served : s.state = .rcptTo → s.forwardPaths ≠ []

theorem tracks_start : Tracks .start .new :=
  ⟨rfl, rfl, rfl, by simp [SessionState.new], by simp [SessionState.new],
    by simp [SessionState.new], fun _ => rfl, by simp [SessionState.new]⟩

theorem tracks_upgraded (s : SessionState) : Tracks .start s.upgraded :=
  ⟨rfl, rfl, rfl, by simp [SessionState.upgraded, SessionState.resetTransaction],
    by simp [SessionState.upgraded, SessionState.resetTransaction],
    by simp [SessionState.upgraded, SessionState.resetTransaction], fun _ => rfl,
    by simp [SessionState.upgraded, SessionState.resetTransaction]⟩

/-- Whatever the session record knows besides the transaction does not matter to the ledger. -/
theorem Tracks.congr {l : Ledger} {s s' : SessionState} (h : Tracks l s)
    (hstate : s'.state = s.state) (hreverse : s'.reversePath = s.reversePath)
    (hforward : s'.forwardPaths = s.forwardPaths) : Tracks l s' := by
  obtain ⟨h1, h2, h3, h4, h5, h6, h7, h8⟩ := h
  exact ⟨h1, h2, hforward ▸ h3, hstate ▸ h4, hstate ▸ h5, by rw [hstate, hreverse]; exact h6,
    by rw [hstate, hforward]; exact h7, by rw [hstate, hforward]; exact h8⟩

/-- A reset of both: the greeting stays as it was. -/
theorem tracks_reset {l : Ledger} {s : SessionState}
    (hgreeted : s.state ≠ .connected → l.greeted = true) (hcommand : l.command = none)
    (hcalls : l.calls = 0) (hrcpts : l.rcpts = []) : Tracks l s.resetTransaction := by
  refine ⟨hcommand, hcalls, hrcpts, ?_, ?_, ?_, fun _ => rfl, ?_⟩
  all_goals
    unfold SessionState.resetTransaction
    by_cases h : s.state = .connected <;> simp [h]
  exact hgreeted h

section Handlers

variable {l : Ledger} {s s' : SessionState} {args text : Str}

/-- The answer to EHLO or HELO, a refusal without an argument and a greeting with one, keeps the ledger in
step. -/
theorem tracks_greeting {command : Command} (h : Tracks l s) (hcommand : command = .ehlo ∨ command = .helo)
    (args : Str) {refusal reply : Str} {greeted : SessionState}
    (hrefusal : "250".toList.isPrefixOf refusal = false) (hreply : "250".toList.isPrefixOf reply = true) :
    ∃ l', l.answered command args
        (if args.isEmpty then (refusal, s) else (reply, greeted.resetTransaction)).1 = some l' ∧
      Tracks l' (if args.isEmpty then (refusal, s) else (reply, greeted.resetTransaction)).2 := by
  have hanswered : ∀ text, l.answered command args text =
      some (if "250".toList.isPrefixOf text then
        { l with command := none, greeted := true, sender := none, rcpts := [] }
      else { l with command := none }) := by
    intro text
    rcases hcommand with rfl | rfl <;> rfl
  by_cases hargs : args.isEmpty = true
  · rw [if_pos hargs, hanswered, hrefusal]
    exact ⟨_, rfl, ⟨rfl, h.calls, h.rcpts, h.notData, h.greeted, h.sender, h.fresh, h.served⟩⟩
  · rw [if_neg hargs, hanswered, hreply]
    exact ⟨_, rfl, tracks_reset (fun _ => rfl) rfl h.calls rfl⟩

theorem handleEhlo_tracks (p : SessionParams) (h : Tracks l s) (args : Str) :
    ∃ l', l.answered .ehlo args (handleEhlo p args s).1 = some l' ∧
      Tracks l' (handleEhlo p args s).2 :=
  tracks_greeting h (.inl rfl) args (by decide) rfl

theorem handleHelo_tracks (p : SessionParams) (h : Tracks l s) (args : Str) :
    ∃ l', l.answered .helo args (handleHelo p args s).1 = some l' ∧
      Tracks l' (handleHelo p args s).2 :=
  tracks_greeting h (.inr rfl) args (by decide) rfl

/-- An answer that accepts nothing leaves both as they are. -/
theorem tracks_unanswered (h : Tracks l s) : Tracks { l with command := none } s :=
  ⟨rfl, h.calls, h.rcpts, h.notData, h.greeted, h.sender, h.fresh, h.served⟩

/-- The answer to MAIL keeps the ledger in step. -/
theorem handleMailFrom_tracks (h : Tracks l s) (hmail : handleMailFrom args s = some (text, s')) :
    ∃ l', l.answered .mail args text = some l' ∧ Tracks l' s' := by
  rcases handleMailFrom_cases hmail with ⟨hne, rfl⟩ | ⟨rfl, hconnected, hrcpt, addr, haddr, rfl⟩
  · exact ⟨_, by simp [Ledger.answered, hne], tracks_unanswered h⟩
  · have hforward := h.fresh hrcpt
    refine ⟨{ l with command := none, sender := some addr, rcpts := [] },
      by simp [Ledger.answered, namedAddr, haddr], ?_⟩
    exact ⟨rfl, h.calls, hforward.symm, by simp, fun _ => h.greeted hconnected, fun _ => rfl,
      fun _ => hforward, by simp⟩

/-- The answer to RCPT keeps the ledger in step. -/
theorem handleRcptTo_tracks {config : Config} (h : Tracks l s)
    (hrcpt : handleRcptTo config args s = some (text, s')) :
    ∃ l', l.answered .rcpt args text = some l' ∧ Tracks l' s' := by
  rcases handleRcptTo_cases hrcpt with ⟨hne, rfl⟩ | ⟨rfl, hconnected, hgreeted, addr, haddr, -, -, rfl⟩
  · exact ⟨_, by simp [Ledger.answered, hne], tracks_unanswered h⟩
  · have hsender : l.sender = some s.reversePath := by
      refine h.sender ?_
      have hdata := h.notData
      cases hstate : s.state <;> simp_all
    refine ⟨{ l with command := none, rcpts := l.rcpts ++ [addr] },
      by simp [Ledger.answered, namedAddr, haddr], ?_⟩
    exact ⟨rfl, h.calls, by simp [h.rcpts], by simp, fun _ => h.greeted hconnected,
      fun _ => hsender, by simp, by simp⟩

/-- The answer to RSET keeps the ledger in step. -/
theorem handleRset_tracks (h : Tracks l s) (args : Str) :
    ∃ l', l.answered .rset args (handleRset s).1 = some l' ∧ Tracks l' (handleRset s).2 :=
  ⟨{ l with command := none, sender := none, rcpts := [] }, by simp [Ledger.answered, handleRset],
    tracks_reset h.greeted rfl h.calls rfl⟩

end Handlers

/-! ## Deliveries -/

/-- The `ingest` calls of one delivery are the next accepted recipients: all of them, or the first few
when the deadline passes during one. -/
theorem run_ingestAll {l : Ledger} {path : Str} (done todo : List Str)
    (results : Nat → IngestResult) (data : Bytes) (hgreeted : l.greeted = true)
    (hcommand : l.command.map Prod.fst = some .data) (hsender : l.sender = some path)
    (hrcpts : l.rcpts = done ++ todo) (hcalls : l.calls = done.length) :
    ∃ n, l.run (ingestAll results (envelopeOf path) data done.length todo).1 =
        some { l with calls := n } ∧
      (∀ counts, (ingestAll results (envelopeOf path) data done.length todo).2 = some counts →
        n = l.rcpts.length) := by
  induction todo generalizing l done with
  | nil =>
      refine ⟨l.calls, by simp [ingestAll], fun counts _ => ?_⟩
      rw [hcalls, hrcpts, List.append_nil]
  | cons rcpt todo ih =>
      have hcall : l.step (.ingest rcpt (envelopeOf path) data) =
          some { l with calls := l.calls + 1 } := by
        refine if_pos ⟨hgreeted, hcommand, by rw [hsender]; rfl, ?_⟩
        rw [hrcpts, hcalls, List.getElem?_append_right le_rfl]
        simp
      obtain ⟨n, hrun, hall⟩ := ih (l := { l with calls := l.calls + 1 }) (done ++ [rcpt])
        hgreeted hcommand hsender (by simp [hrcpts]) (by simp [hcalls])
      rw [List.length_append, List.length_singleton] at hrun hall
      rw [ingestAll]
      cases hresult : results done.length with
      | stored =>
          refine ⟨n, by simpa [hcall] using hrun, fun counts hcounts => ?_⟩
          simp only [Option.map_eq_some_iff] at hcounts
          obtain ⟨counts', hcounts', -⟩ := hcounts
          exact hall counts' hcounts'
      | failed =>
          refine ⟨n, by simpa [hcall] using hrun, fun counts hcounts => ?_⟩
          simp only [Option.map_eq_some_iff] at hcounts
          obtain ⟨counts', hcounts', -⟩ := hcounts
          exact hall counts' hcounts'
      | deadline => exact ⟨l.calls + 1, by simp [hcall], by simp⟩

/-- The replies of `receive_data` are refusals. -/
theorem receiveData_reply {maxMessageSize : Nat} {data : Bytes} {r r' : Reader} {text : Str}
    (h : receiveData maxMessageSize data r = (.reply text, r')) : text ∈ refusals := by
  have hdrain : ∀ limit q, drainOversize limit q = (.reply text, r') → text ∈ refusals := by
    intro limit q hq
    unfold drainOversize at hq
    cases hd : drainData limit q with
    | none => simp [hd] at hq
    | some q' =>
        simp only [hd, Prod.mk.injEq, DataExit.reply.injEq] at hq
        simp [← hq.1, refusals]
  induction hn : r.weight using Nat.strong_induction_on generalizing r data with
  | _ n ih =>
      rw [receiveData] at h
      split at h
      case h_1 =>
          simp only [Prod.mk.injEq, DataExit.reply.injEq] at h
          simp [← h.1, refusals]
      case h_2 => exact hdrain _ _ h
      case h_3 =>
          simp only [Prod.mk.injEq, DataExit.reply.injEq] at h
          simp [← h.1, refusals]
      case h_4 => simp at h
      case h_5 hok =>
          have hlt := boundedReadLine_weight (maxMessageSize + 1024) r (by simp [hok])
          split at h
          · simp only [Prod.mk.injEq, DataExit.reply.injEq] at h
            simp [← h.1, refusals]
          · split at h
            · simp at h
            · split at h
              · exact hdrain _ _ h
              · exact ih _ (hn ▸ hlt) h rfl

/-- The replies of `deliver_message` are not. -/
theorem deliverMessage_reply {env : Round} {data : Bytes} {s s' : SessionState}
    {text : Str} (h : (deliverMessage env data s).2 = some (text, s')) :
    text ∉ refusals ∧ "354".toList.isPrefixOf text = false ∧ "503".toList.isPrefixOf text = false ∧
      ∃ counts, (ingestAll (env.ingest) (envelopeOf s.reversePath) data 0
        s.forwardPaths).2 = some counts := by
  simp only [deliverMessage, Option.map_eq_some_iff] at h
  obtain ⟨⟨succeeded, failed⟩, hcounts, h⟩ := h
  dsimp only at h
  split at h
  · cases h
    exact ⟨by decide, by decide, by decide, _, hcounts⟩
  · split at h
    · cases h
      exact ⟨by decide, by decide, by decide, _, hcounts⟩
    · cases h
      exact ⟨by decide, by decide, by decide, _, hcounts⟩

/-! ## Rounds and runs -/

/-- What a round leaves behind: the ledger allows everything it did; if the loop goes on, or hands over
to TLS, the records agree again, and otherwise no delivery is left half-way unless the deadline cut it
off. -/
def Step.Serves (l : Ledger) (step : Step) : Prop :=
  ∃ l', l.run step.trace = some l' ∧
    match step with
    | .more s' _ _ => Tracks l' s'
    | .stop exit _ _ _ => l'.Complete ∨ exit = .cancelled

/-- An answered command. -/
theorem serves_respond {l l' : Ledger} {s' : SessionState} {tls : Bool} {before : Bytes}
    {cmd args text : Str} (ok : Bool) (r : Reader)
    (hanswered : l.answered (Command.ofStr cmd) args text = some l') (htracks : Tracks l' s') :
    (respond ok s' r [.line tls before cmd args] text).Serves l := by
  refine ⟨l', ?_, ?_⟩
  · rw [respond_trace]
    simp only [List.singleton_append, Ledger.run_cons, Ledger.step, Option.bind_some]
    change (l.answered (Command.ofStr cmd) args text).bind _ = some l'
    rw [hanswered]
    rfl
  · cases ok with
    | true => exact htracks
    | false => exact Or.inl (Or.inl htracks.calls)

/-- The ledger during DATA: the command waits for its final answer. -/
theorem run_data_front (l : Ledger) (tls : Bool) (before : Bytes) {cmd : Str} (args : Str)
    (hcmd : Command.ofStr cmd = .data) (content : Stream) :
    l.run [.line tls before cmd args,
        .reply "354 Start mail input; end with <CRLF>.<CRLF>\r\n".toList, .data tls content] =
      some { l with command := some (.data, args) } := by
  simp [Ledger.step, hcmd, Ledger.answered]

/-- The final answer to DATA. -/
theorem answered_data {l : Ledger} {args text : Str} (h354 : "354".toList.isPrefixOf text = false)
    (h503 : "503".toList.isPrefixOf text = false)
    (hcalls : l.calls = if text ∈ refusals then 0 else l.rcpts.length) :
    l.answered .data args text =
      some { l with command := none, sender := none, rcpts := [], calls := 0 } := by
  simp only [Ledger.answered, h354, h503, Bool.false_eq_true, if_false]
  exact if_pos hcalls

/-- A refusal is neither an invitation nor a rejected precheck. -/
theorem refusals_prefix {text : Str} (h : text ∈ refusals) :
    "354".toList.isPrefixOf text = false ∧ "503".toList.isPrefixOf text = false := by
  simp only [refusals, List.mem_cons, List.not_mem_nil, or_false] at h
  rcases h with rfl | rfl | rfl | rfl <;> decide

/-- The final answer to DATA, behind the calls it stands for. -/
theorem serves_final {l l₂ : Ledger} {front : List Event} {args text : Str} {content left : Bytes}
    (ok : Bool) (s : SessionState) (r : Reader) (hfront : l.run front = some l₂)
    (hcommand : l₂.command = some (.data, args)) (hgreeted : l₂.greeted = true)
    (h354 : "354".toList.isPrefixOf text = false) (h503 : "503".toList.isPrefixOf text = false)
    (hcalls : l₂.calls = if text ∈ refusals then 0 else l₂.rcpts.length) :
    (respond ok s.resetTransaction r (front ++ [.resumed content left]) text).Serves l := by
  refine ⟨{ l₂ with command := none, sender := none, rcpts := [], calls := 0 }, ?_, ?_⟩
  · rw [respond_trace, List.append_assoc, Ledger.run_append, hfront, Option.bind_some]
    have hstep : l₂.step (.reply text) = l₂.answered .data args text := by
      rw [Ledger.step, hcommand]
    have hresumed : l₂.step (.resumed content left) = some l₂ := rfl
    simp only [List.singleton_append, Ledger.run_cons, Ledger.run_nil, hresumed, hstep,
      Option.bind_some, answered_data h354 h503 hcalls]
  · cases ok with
    | true => exact tracks_reset (fun _ => hgreeted) rfl rfl rfl
    | false => exact Or.inl (Or.inl rfl)

/-- **DATA serves exactly the accepted recipients**, or none when it refuses the message. -/
theorem dataStep_serves {l : Ledger} {s : SessionState} (p : SessionParams) (env : Round)
    (r : Reader) {before : Bytes} {cmd args : Str} (htracks : Tracks l s)
    (hcmd : Command.ofStr cmd = .data) (hstate : s.state = .rcptTo) :
    (dataStep p env s r [.line s.tlsActive before cmd args]).Serves l := by
  have hgreeted : l.greeted = true := htracks.greeted (by simp [hstate])
  have hsender := htracks.sender (Or.inr hstate)
  have hfront := run_data_front l s.tlsActive before args hcmd r.toStream
  unfold dataStep
  dsimp only
  split
  · refine ⟨{ l with command := some (.data, args) }, ?_, Or.inl (Or.inl htracks.calls)⟩
    simp [Ledger.step, hcmd, Ledger.answered]
  · cases hdata : receiveData p.maxMessageSize [] r with
    | mk exit r' =>
        cases exit with
        | failed e => exact ⟨_, hfront, Or.inl (Or.inl htracks.calls)⟩
        | cancelled => exact ⟨_, hfront, Or.inr rfl⟩
        | reply text =>
            have hrefusal := receiveData_reply hdata
            obtain ⟨h354, h503⟩ := refusals_prefix hrefusal
            exact serves_final _ _ _ hfront rfl hgreeted h354 h503
              (by simp [hrefusal, htracks.calls])
        | message data =>
            obtain ⟨n, hrun, hall⟩ := run_ingestAll (l := { l with command := some (.data, args) })
              [] s.forwardPaths env.ingest data hgreeted rfl hsender
              htracks.rcpts htracks.calls
            have hcalls : l.run ([.line s.tlsActive before cmd args,
                .reply "354 Start mail input; end with <CRLF>.<CRLF>\r\n".toList,
                .data s.tlsActive r.toStream] ++
                  (deliverMessage env data { s with state := .data }).1) =
                some { l with command := some (.data, args), calls := n } := by
              rw [Ledger.run_append, hfront, Option.bind_some]
              exact hrun
            dsimp only
            cases hdeliver : (deliverMessage env data { s with state := .data }).2 with
            | none => exact ⟨_, hcalls, Or.inr rfl⟩
            | some answer =>
                obtain ⟨text, s'⟩ := answer
                obtain ⟨hnot, h354, h503, counts, hcounts⟩ := deliverMessage_reply hdeliver
                exact serves_final _ _ _ hcalls rfl hgreeted h354 h503
                  (by rw [if_neg hnot]; exact hall counts hcounts)

/-- Every command serves the ledger. -/
theorem dispatch_serves {l : Ledger} {s : SessionState} (p : SessionParams) (env : Round)
    (r : Reader) (before : Bytes) (cmd args : Str) (htracks : Tracks l s) :
    (dispatch p env s r [.line s.tlsActive before cmd args] cmd args).Serves l := by
  have hcalls : l.Complete := Or.inl htracks.calls
  have hplain : ∀ {command : Command} {text : Str},
      (command = .noop ∨ command = .quit ∨ command = .starttls ∨ command = .unrecognized) →
      l.answered command args text = some { l with command := none } := by
    rintro command text (rfl | rfl | rfl | rfl) <;> rfl
  have hkeep : ∀ text, (Command.ofStr cmd = .noop ∨ Command.ofStr cmd = .quit ∨
      Command.ofStr cmd = .starttls ∨ Command.ofStr cmd = .unrecognized) →
      (respond (env.writeOk 1) s r [.line s.tlsActive before cmd args] text).Serves l :=
    fun text hcmd => serves_respond _ r (hplain hcmd) (tracks_unanswered htracks)
  have hleave : ∀ exit text, (Command.ofStr cmd = .noop ∨ Command.ofStr cmd = .quit ∨
      Command.ofStr cmd = .starttls ∨ Command.ofStr cmd = .unrecognized) →
      (Step.stop exit s r ([.line s.tlsActive before cmd args] ++ [.reply text])).Serves l := by
    intro exit text hcmd
    refine ⟨{ l with command := none }, ?_, Or.inl hcalls⟩
    simp only [Step.trace_stop, List.singleton_append, Ledger.run_cons, Ledger.step,
      Option.bind_some, Ledger.run_nil]
    change (l.answered (Command.ofStr cmd) args text).bind _ = _
    rw [hplain hcmd]
    rfl
  have hpanic : (Step.stop .panicked s r [.line s.tlsActive before cmd args]).Serves l :=
    ⟨_, rfl, Or.inl hcalls⟩
  unfold dispatch
  dsimp only
  cases hcmd : Command.ofStr cmd with
  | ehlo =>
      obtain ⟨l', hanswered, htracks'⟩ := handleEhlo_tracks p htracks args
      exact serves_respond _ r (hcmd ▸ hanswered) htracks'
  | helo =>
      obtain ⟨l', hanswered, htracks'⟩ := handleHelo_tracks p htracks args
      exact serves_respond _ r (hcmd ▸ hanswered) htracks'
  | mail =>
      dsimp only
      cases hmail : handleMailFrom args s with
      | none => exact hpanic
      | some handled =>
          obtain ⟨l', hanswered, htracks'⟩ := handleMailFrom_tracks htracks hmail
          exact serves_respond _ r (hcmd ▸ hanswered) htracks'
  | rcpt =>
      dsimp only
      cases hrcpt : handleRcptTo (env.config) args s with
      | none => exact hpanic
      | some handled =>
          obtain ⟨l', hanswered, htracks'⟩ := handleRcptTo_tracks htracks hrcpt
          exact serves_respond _ r (hcmd ▸ hanswered) htracks'
  | data =>
      dsimp only
      unfold handleDataPrecheck
      by_cases hstate : s.state = .rcptTo
      · rw [if_neg (by simpa using hstate)]
        exact dataStep_serves p env r htracks hcmd hstate
      · rw [if_pos hstate]
        have hanswered : l.answered (Command.ofStr cmd) args "503 Send RCPT TO first\r\n".toList =
            some { l with command := none } := by
          rw [hcmd]
          simp [Ledger.answered]
        exact serves_respond _ r hanswered (tracks_unanswered htracks)
  | rset =>
      obtain ⟨l', hanswered, htracks'⟩ := handleRset_tracks htracks args
      rw [← hcmd] at hanswered
      exact serves_respond _ r hanswered htracks'
  | noop => exact hkeep _ (Or.inl hcmd)
  | quit => exact hleave _ _ (Or.inr (Or.inl hcmd))
  | starttls =>
      dsimp only
      split
      · exact hkeep _ (Or.inr (Or.inr (Or.inl hcmd)))
      · split
        · exact hkeep _ (Or.inr (Or.inr (Or.inl hcmd)))
        · exact hleave _ _ (Or.inr (Or.inr (Or.inl hcmd)))
  | unrecognized => exact hkeep _ (Or.inr (Or.inr (Or.inr hcmd)))

/-- **Every round serves the ledger.** -/
theorem commandStep_serves {l : Ledger} {s : SessionState} (p : SessionParams) (env : Round)
    (r : Reader) (htracks : Tracks l s) : (commandStep p env s r).Serves l := by
  have hcalls : l.Complete := Or.inl htracks.calls
  have hreply : ∀ text, l.step (.reply text) = some l := by
    intro text
    rw [Ledger.step, htracks.command]
  unfold commandStep
  dsimp only
  split
  case h_1 => exact ⟨l, by simp [hreply], Or.inl hcalls⟩
  case h_2 => exact ⟨l, by simp [hreply], Or.inl hcalls⟩
  case h_3 =>
      refine ⟨l, by simp [hreply], ?_⟩
      cases env.writeOk 0 with
      | true => exact htracks
      | false => exact Or.inl hcalls
  case h_4 => exact ⟨l, rfl, Or.inl hcalls⟩
  case h_5 => exact ⟨l, rfl, Or.inl hcalls⟩
  case h_6 =>
      split
      · exact ⟨l, rfl, htracks⟩
      · split
        · exact ⟨l, by simp [hreply], Or.inl hcalls⟩
        · exact dispatch_serves p env _ r.bytes _ _ (htracks.congr rfl rfl rfl)

/-- **The command loop serves the ledger**, by induction on what the connection still holds. -/
theorem commandLoop_serves {l : Ledger} {s : SessionState} (p : SessionParams) (env : Env)
    (clock : Nat) (r : Reader) (htracks : Tracks l s) :
    ∃ l', l.run (commandLoop p env clock s r).trace = some l' ∧
      (l'.Complete ∨ (commandLoop p env clock s r).exit = .cancelled) := by
  induction hn : r.weight using Nat.strong_induction_on generalizing r s l clock with
  | _ n ih =>
      have hstep := commandStep_serves p (env.round clock) r htracks
      rw [commandLoop]
      split
      case h_1 exit s' r' trace heq =>
          rw [heq] at hstep
          exact hstep
      case h_2 s' r' trace heq =>
          have hlt := (commandStep_more heq).1
          rw [heq] at hstep
          obtain ⟨l', hrun, htracks'⟩ := hstep
          obtain ⟨l'', hrest, hend⟩ := ih r'.weight (hn ▸ hlt) (clock + 1) r' htracks' rfl
          refine ⟨l'', ?_, hend⟩
          dsimp only
          rw [Ledger.run_append]
          rw [show l.run trace = some l' from hrun, Option.bind_some, hrest]

/-- **Every session serves the ledger**: the plain loop from the start, the TLS loop from the start
again. -/
theorem runSession_serves (p : SessionParams) (env : Env) (stream : Stream) :
    ∃ l, Ledger.start.run (runSession p env stream).trace = some l ∧
      (l.Complete ∨ (runSession p env stream).exit = .cancelled) := by
  have hbanner : ∀ text, Ledger.start.step (.reply text) = some .start := fun _ => rfl
  obtain ⟨l, hrun, hend⟩ := commandLoop_serves p env 1 ⟨[], stream⟩ tracks_start
  unfold runSession
  split
  · exact ⟨.start, by simp [hbanner], Or.inl (Or.inl rfl)⟩
  · dsimp only
    split
    next hexit =>
        unfold handleTlsUpgrade
        cases haccept :
            env.accept (commandLoop p env 1 SessionState.new ⟨[], stream⟩).reader.inner with
        | none =>
            refine ⟨l, by simp [hbanner, hrun], Or.inl ?_⟩
            rcases hend with hend | hend
            · exact hend
            · rw [hexit] at hend
              cases hend
        | some tlsStream =>
            obtain ⟨l', hrun', hend'⟩ := commandLoop_serves p env
              (commandLoop p env 1 SessionState.new ⟨[], stream⟩).clock ⟨[], tlsStream⟩
              (tracks_upgraded (commandLoop p env 1 SessionState.new ⟨[], stream⟩).state)
            have hhandshake : l.step .handshake = some .start := rfl
            refine ⟨l', by simp [hbanner, hrun, hhandshake, hrun'], hend'.imp id fun h => ?_⟩
            dsimp only
            rw [h]
            rfl
    next => exact ⟨l, by simp [hbanner, hrun], hend⟩

/-! ## Behind STARTTLS -/

/-- Two session records agree on everything that can reach a reply or a delivery: all but the client's
name and the byte and message counters. -/
structure SessionState.Agrees (s s' : SessionState) : Prop where
  state : s.state = s'.state
  reversePath : s.reversePath = s'.reversePath
  forwardPaths : s.forwardPaths = s'.forwardPaths
  tlsActive : s.tlsActive = s'.tlsActive
  commandCount : s.commandCount = s'.commandCount

/-- Two answers give the same reply and leave records that agree. -/
structure AnswerAgrees (handled handled' : Str × SessionState) : Prop where
  text : handled.1 = handled'.1
  state : handled.2.Agrees handled'.2

/-- Two rounds do the same and leave records that agree. -/
inductive Step.Agrees : Step → Step → Prop
  | more {s s' : SessionState} {r : Reader} {trace : List Event} (h : s.Agrees s') :
      Step.Agrees (.more s r trace) (.more s' r trace)
  | stop {exit : Exit} {s s' : SessionState} {r : Reader} {trace : List Event} (h : s.Agrees s') :
      Step.Agrees (.stop exit s r trace) (.stop exit s' r trace)

theorem respond_agrees (handled handled' : Str × SessionState) (ok : Bool) (r : Reader)
    (trace : List Event) (h : AnswerAgrees handled handled') :
    (respond ok handled.2 r trace handled.1).Agrees
      (respond ok handled'.2 r trace handled'.1) := by
  rw [h.text]
  cases ok with
  | true => exact .more h.state
  | false => exact .stop h.state

section Agrees

variable {p : SessionParams} {env : Round} {args : Str} {s s' : SessionState} (h : s.Agrees s')

include h

theorem resetTransaction_agrees : s.resetTransaction.Agrees s'.resetTransaction := by
  refine ⟨?_, rfl, rfl, h.tlsActive, h.commandCount⟩
  simp only [SessionState.resetTransaction, h.state]

theorem handleEhlo_agrees : AnswerAgrees (handleEhlo p args s) (handleEhlo p args s') := by
  unfold handleEhlo
  by_cases hargs : args.isEmpty = true
  · rw [if_pos hargs, if_pos hargs]
    exact ⟨rfl, h⟩
  · rw [if_neg hargs, if_neg hargs]
    obtain ⟨st, rp, fp, tls, eh, cc, tb, mc⟩ := s
    obtain ⟨st', rp', fp', tls', eh', cc', tb', mc'⟩ := s'
    obtain ⟨rfl, rfl, rfl, rfl, rfl⟩ := h
    exact ⟨rfl, rfl, rfl, rfl, rfl, rfl⟩

theorem handleHelo_agrees : AnswerAgrees (handleHelo p args s) (handleHelo p args s') := by
  unfold handleHelo
  by_cases hargs : args.isEmpty = true
  · rw [if_pos hargs, if_pos hargs]
    exact ⟨rfl, h⟩
  · rw [if_neg hargs, if_neg hargs]
    exact ⟨rfl, rfl, rfl, rfl, h.tlsActive, h.commandCount⟩

theorem handleMailFrom_agrees :
    Option.Rel AnswerAgrees (handleMailFrom args s) (handleMailFrom args s') := by
  unfold handleMailFrom
  rw [h.state]
  split
  · exact .some ⟨rfl, h⟩
  · split
    · exact .some ⟨rfl, h⟩
    · split
      · exact .some ⟨rfl, h⟩
      · cases sliceFrom 5 args with
        | none => exact .none
        | some rest =>
            rw [Option.bind_some, Option.bind_some]
            cases extractAngleAddr rest with
            | none => exact .none
            | some addr => exact .some ⟨rfl, rfl, rfl, h.forwardPaths, h.tlsActive, h.commandCount⟩

theorem handleRcptTo_agrees (config : Config) :
    Option.Rel AnswerAgrees (handleRcptTo config args s) (handleRcptTo config args s') := by
  unfold handleRcptTo
  rw [h.state]
  split
  · exact .some ⟨rfl, h⟩
  · split
    · exact .some ⟨rfl, h⟩
    · cases sliceFrom 3 args with
      | none => exact .none
      | some rest =>
          rw [Option.bind_some, Option.bind_some]
          cases extractAngleAddr rest with
          | none => exact .none
          | some addr =>
              refine .some ?_
              dsimp only
              split
              · exact ⟨rfl, h⟩
              · split
                · exact ⟨rfl, h⟩
                · split
                  · exact ⟨rfl, h⟩
                  · refine ⟨rfl, rfl, h.reversePath, ?_, h.tlsActive, h.commandCount⟩
                    simp only [h.forwardPaths]

theorem deliverMessage_agrees (env : Round) (data : Bytes) :
    (deliverMessage env data s).1 = (deliverMessage env data s').1 ∧
      Option.Rel AnswerAgrees (deliverMessage env data s).2 (deliverMessage env data s').2 := by
  obtain ⟨st, rp, fp, tls, eh, cc, tb, mc⟩ := s
  obtain ⟨st', rp', fp', tls', eh', cc', tb', mc'⟩ := s'
  obtain ⟨rfl, rfl, rfl, rfl, rfl⟩ := h
  refine ⟨rfl, ?_⟩
  unfold deliverMessage
  dsimp only
  cases (ingestAll env.ingest (envelopeOf rp) data 0 fp).2 with
  | none => exact .none
  | some counts =>
      refine .some ?_
      dsimp only
      split
      · exact ⟨rfl, rfl, rfl, rfl, rfl, rfl⟩
      · split
        · exact ⟨rfl, rfl, rfl, rfl, rfl, rfl⟩
        · exact ⟨rfl, rfl, rfl, rfl, rfl, rfl⟩

theorem dataStep_agrees (r : Reader) (trace : List Event) :
    (dataStep p env s r trace).Agrees (dataStep p env s' r trace) := by
  obtain ⟨st, rp, fp, tls, eh, cc, tb, mc⟩ := s
  obtain ⟨st', rp', fp', tls', eh', cc', tb', mc'⟩ := s'
  obtain ⟨rfl, rfl, rfl, rfl, rfl⟩ := h
  have hdata : SessionState.Agrees ⟨.data, rp, fp, tls, eh, cc, tb, mc⟩
      ⟨.data, rp, fp, tls, eh', cc, tb', mc'⟩ := ⟨rfl, rfl, rfl, rfl, rfl⟩
  unfold dataStep
  dsimp only
  split
  · exact .stop ⟨rfl, rfl, rfl, rfl, rfl⟩
  · cases receiveData p.maxMessageSize [] r with
    | mk exit r' =>
        cases exit with
        | failed e => exact .stop hdata
        | cancelled => exact .stop hdata
        | reply text =>
            exact respond_agrees (text, _) (text, _) _ _ _
              ⟨rfl, resetTransaction_agrees hdata⟩
        | message data =>
            obtain ⟨hcalls, hanswer⟩ := deliverMessage_agrees hdata env data
            dsimp only
            rw [hcalls]
            cases hleft : (deliverMessage env data ⟨.data, rp, fp, tls, eh, cc, tb, mc⟩).2 with
            | none =>
                rw [hleft] at hanswer
                cases hright : (deliverMessage env data ⟨.data, rp, fp, tls, eh', cc, tb', mc'⟩).2 with
                | none => exact .stop hdata
                | some answer' =>
                    rw [hright] at hanswer
                    cases hanswer
            | some answer =>
                rw [hleft] at hanswer
                cases hright : (deliverMessage env data ⟨.data, rp, fp, tls, eh', cc, tb', mc'⟩).2 with
                | none =>
                    rw [hright] at hanswer
                    cases hanswer
                | some answer' =>
                    rw [hright] at hanswer
                    cases hanswer with
                    | some hsame =>
                        exact respond_agrees (_, _) (_, _) _ _ _
                          ⟨hsame.text, resetTransaction_agrees hsame.state⟩

theorem dispatch_agrees (r : Reader) (trace : List Event) (cmd args : Str) :
    (dispatch p env s r trace cmd args).Agrees (dispatch p env s' r trace cmd args) := by
  have hsame : ∀ text, (respond (env.writeOk 1) s r trace text).Agrees
      (respond (env.writeOk 1) s' r trace text) :=
    fun text => respond_agrees (text, s) (text, s') _ _ _ ⟨rfl, h⟩
  unfold dispatch
  dsimp only
  cases Command.ofStr cmd with
  | ehlo => exact respond_agrees _ _ _ r trace (handleEhlo_agrees h)
  | helo => exact respond_agrees _ _ _ r trace (handleHelo_agrees h)
  | mail =>
      dsimp only
      have hmail : Option.Rel AnswerAgrees (handleMailFrom args s) (handleMailFrom args s') :=
        handleMailFrom_agrees h
      revert hmail
      cases handleMailFrom args s with
      | none =>
          cases handleMailFrom args s' with
          | none => exact fun _ => .stop h
          | some handled' => exact fun hmail => nomatch hmail
      | some handled =>
          cases handleMailFrom args s' with
          | none => exact fun hmail => nomatch hmail
          | some handled' =>
              intro hanswers
              cases hanswers with
              | some hanswer => exact respond_agrees _ _ _ r trace hanswer
  | rcpt =>
      dsimp only
      have hrcpt : Option.Rel AnswerAgrees (handleRcptTo env.config args s)
          (handleRcptTo env.config args s') :=
        handleRcptTo_agrees h env.config
      revert hrcpt
      cases handleRcptTo env.config args s with
      | none =>
          cases handleRcptTo env.config args s' with
          | none => exact fun _ => .stop h
          | some handled' => exact fun hrcpt => nomatch hrcpt
      | some handled =>
          cases handleRcptTo env.config args s' with
          | none => exact fun hrcpt => nomatch hrcpt
          | some handled' =>
              intro hanswers
              cases hanswers with
              | some hanswer => exact respond_agrees _ _ _ r trace hanswer
  | data =>
      dsimp only
      unfold handleDataPrecheck
      rw [h.state]
      split
      · exact hsame _
      · exact dataStep_agrees h r trace
  | rset =>
      exact respond_agrees (handleRset s) (handleRset s') _ r trace
        ⟨rfl, resetTransaction_agrees h⟩
  | noop => exact hsame _
  | quit => exact .stop h
  | starttls =>
      dsimp only
      rw [h.tlsActive]
      split
      · exact hsame _
      · split
        · exact hsame _
        · exact .stop h
  | unrecognized => exact hsame _

/-- **A round depends on the session record only through what agreeing records share.** -/
theorem commandStep_agrees (r : Reader) :
    (commandStep p env s r).Agrees (commandStep p env s' r) := by
  obtain ⟨st, rp, fp, tls, eh, cc, tb, mc⟩ := s
  obtain ⟨st', rp', fp', tls', eh', cc', tb', mc'⟩ := s'
  obtain ⟨rfl, rfl, rfl, rfl, rfl⟩ := h
  have hsame : SessionState.Agrees ⟨st, rp, fp, tls, eh, cc, tb, mc⟩
      ⟨st, rp, fp, tls, eh', cc, tb', mc'⟩ := ⟨rfl, rfl, rfl, rfl, rfl⟩
  have hcount : SessionState.Agrees ⟨st, rp, fp, tls, eh, cc + 1, tb, mc⟩
      ⟨st, rp, fp, tls, eh', cc + 1, tb', mc'⟩ := ⟨rfl, rfl, rfl, rfl, rfl⟩
  unfold commandStep
  dsimp only
  split
  case h_1 => exact .stop hsame
  case h_2 => exact .stop hsame
  case h_3 => exact respond_agrees (_, _) (_, _) _ _ _ ⟨rfl, hsame⟩
  case h_4 => exact .stop hsame
  case h_5 => exact .stop hsame
  case h_6 =>
      split
      · exact .more hsame
      · split
        · exact .stop hcount
        · exact dispatch_agrees hcount _ _ _ _

end Agrees

/-- **The command loop depends on the session record only through what agreeing records share**, and
on the environment only through the rounds to come. -/
theorem commandLoop_agrees {p : SessionParams} {env env' : Env} {clock clock' : Nat}
    {s s' : SessionState} (r : Reader) (h : s.Agrees s')
    (henv : ∀ n, env.round (clock + n) = env'.round (clock' + n)) :
    (commandLoop p env clock s r).exit = (commandLoop p env' clock' s' r).exit ∧
      (commandLoop p env clock s r).trace = (commandLoop p env' clock' s' r).trace := by
  induction hn : r.weight using Nat.strong_induction_on generalizing r s s' clock clock' with
  | _ n ih =>
      have hstep : (commandStep p (env.round clock) s r).Agrees
          (commandStep p (env.round clock) s' r) :=
        commandStep_agrees h r
      have hround : env'.round clock' = env.round clock := (henv 0).symm
      rw [commandLoop, commandLoop, hround]
      generalize hleft : commandStep p (env.round clock) s r = left at hstep
      generalize hright : commandStep p (env.round clock) s' r = right at hstep
      cases hstep with
      | stop hs => exact ⟨rfl, rfl⟩
      | more hs =>
          have hlt := (commandStep_more hleft).1
          have hnext : ∀ n, env.round (clock + 1 + n) = env'.round (clock' + 1 + n) := by
            intro n
            rw [Nat.add_assoc, Nat.add_assoc]
            exact henv (1 + n)
          obtain ⟨hexit, htrace⟩ := ih _ (hn ▸ hlt) _ hs hnext rfl
          dsimp only
          exact ⟨hexit, by rw [htrace]⟩

/-- The plain-text loop of a session. -/
abbrev plainLoop (p : SessionParams) (env : Env) (stream : Stream) : LoopEnd :=
  commandLoop p env 1 SessionState.new ⟨[], stream⟩

/-- A session reaches the TLS handshake and goes on with `tlsStream`. -/
structure UpgradesTo (p : SessionParams) (env : Env) (stream tlsStream : Stream) : Prop where
  greets : (env.round 0).writeOk 0 = true
  leaves : (plainLoop p env stream).exit = .starttlsUpgrade
  accepts : env.accept (plainLoop p env stream).reader.inner = some tlsStream

/-- The trace of a session that upgrades. -/
theorem UpgradesTo.trace {p : SessionParams} {env : Env} {stream tlsStream : Stream}
    (h : UpgradesTo p env stream tlsStream) :
    (runSession p env stream).trace = .reply (banner p) :: ((plainLoop p env stream).trace ++
      .handshake :: (commandLoop p env (plainLoop p env stream).clock
        (plainLoop p env stream).state.upgraded ⟨[], tlsStream⟩).trace) := by
  unfold runSession
  rw [if_neg (by simp [h.greets])]
  dsimp only
  rw [if_pos h.leaves, handleTlsUpgrade, h.accepts]

/-- **Transactions over whole sessions.**  Everything a session does is allowed by the ledger, and no
delivery is left half-way unless the deadline of the connection ends the session during it.  Behind the
TLS handshake nothing matters of what went before but the number of commands: two sessions that go on
with the same TLS stream and the same command count, in the same surroundings, do the same. -/
theorem runSession_transactions (p : SessionParams) (env : Env) (stream : Stream) :
    (∃ l, Ledger.start.run (runSession p env stream).trace = some l ∧
      (l.Complete ∨ (runSession p env stream).exit = .cancelled)) ∧
    ∀ (env' : Env) (stream' tlsStream : Stream),
      UpgradesTo p env stream tlsStream → UpgradesTo p env' stream' tlsStream →
      (plainLoop p env stream).state.commandCount = (plainLoop p env' stream').state.commandCount →
      (∀ n, env.round ((plainLoop p env stream).clock + n) =
        env'.round ((plainLoop p env' stream').clock + n)) →
      ∃ secure,
        (runSession p env stream).trace =
          .reply (banner p) :: ((plainLoop p env stream).trace ++ .handshake :: secure) ∧
        (runSession p env' stream').trace =
          .reply (banner p) :: ((plainLoop p env' stream').trace ++ .handshake :: secure) := by
  refine ⟨runSession_serves p env stream, ?_⟩
  intro env' stream' tlsStream hup hup' hcount henv
  have hagrees : (plainLoop p env stream).state.upgraded.Agrees
      (plainLoop p env' stream').state.upgraded := ⟨rfl, rfl, rfl, rfl, hcount⟩
  obtain ⟨-, htrace⟩ := commandLoop_agrees (p := p) ⟨[], tlsStream⟩ hagrees henv
  exact ⟨_, hup.trace, htrace ▸ hup'.trace⟩

/-- A server with STARTTLS. -/
def tlsParams : SessionParams := { plainParams with tlsAcceptor := true }

/-- A client that sends one message behind the handshake. -/
def tlsStream : Stream := Stream.ofText (envelopeText ++ "Hi\r\n.\r\n")

/-- Its environment. -/
def tlsEnv : Env := { plainEnv with accept := fun _ => some tlsStream }

/-- A sender announced in plain text, and a command pipelined behind STARTTLS, change nothing behind
the handshake. -/
theorem runSession_transactions_starttls :
    ∃ secure,
      (runSession tlsParams tlsEnv (Stream.ofText
          "EHLO a\r\nMAIL FROM:<x@y>\r\nSTARTTLS\r\nRSET\r\n")).trace =
        .reply (banner tlsParams) :: ((plainLoop tlsParams tlsEnv (Stream.ofText
          "EHLO a\r\nMAIL FROM:<x@y>\r\nSTARTTLS\r\nRSET\r\n")).trace ++ .handshake :: secure) ∧
      (runSession tlsParams tlsEnv (Stream.ofText "NOOP\r\nEHLO b\r\nSTARTTLS\r\n")).trace =
        .reply (banner tlsParams) :: ((plainLoop tlsParams tlsEnv (Stream.ofText
          "NOOP\r\nEHLO b\r\nSTARTTLS\r\n")).trace ++ .handshake :: secure) :=
  (runSession_transactions tlsParams tlsEnv _).2 tlsEnv _ tlsStream
    ⟨rfl, by decide +kernel, by decide +kernel⟩ ⟨rfl, by decide +kernel, by decide +kernel⟩
    (by decide +kernel) (fun _ => rfl)

/-- The deadline of the connection passes while the first of two recipients is being served: the
second accepted recipient is never called, and no reply is sent. -/
theorem deadline_cuts_delivery :
    ¬ ServesTransactions (runSession plainParams
      { plainEnv with round := fun n => { plainEnv.round n with ingest := fun _ => .deadline } }
      (Stream.ofText ("EHLO a\r\nMAIL FROM:<a@a>\r\nRCPT TO:<b@example.org>\r\n" ++
        "RCPT TO:<c@example.org>\r\nDATA\r\nHi\r\n.\r\n"))).trace := by
  rintro ⟨l, hrun, hcomplete⟩
  have hcut : Ledger.start.run (runSession plainParams
      { plainEnv with round := fun n => { plainEnv.round n with ingest := fun _ => .deadline } }
      (Stream.ofText ("EHLO a\r\nMAIL FROM:<a@a>\r\nRCPT TO:<b@example.org>\r\n" ++
        "RCPT TO:<c@example.org>\r\nDATA\r\nHi\r\n.\r\n"))).trace =
      some { greeted := true, sender := some "a@a".toList,
             rcpts := ["b@example.org".toList, "c@example.org".toList],
             command := some (.data, []), calls := 1 } := by
    decide +kernel
  rw [hcut, Option.some.injEq] at hrun
  subst hrun
  revert hcomplete
  decide

end Smtp
end Aimx
