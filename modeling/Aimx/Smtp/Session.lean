import Aimx.Config.Schema
import Aimx.Smtp.Stream

/-!
# The SMTP session

The session of `smtp/session.rs`, from the banner to the close of the connection: the session record,
the command handlers, `receive_data` with its drains, `deliver_message`, the command loop and the
STARTTLS upgrade.

What the session cannot decide itself is an environment `Env`: for each round of the command loop the
configuration that the handle holds, whether a write succeeds and what becomes of each `ingest` call,
and what the TLS handshake makes of the connection.  What it does is recorded as a trace of
`Event`s.

One round of the loop is `commandStep`; `commandLoop` repeats it, which terminates because every round
consumes something of the connection (`commandStep_weight`).
-/

namespace Aimx
namespace Smtp

open Text

/-- `MAX_COMMAND_LINE_LENGTH`. -/
def maxCommandLineLength : Nat := 1024

/-- The protocol state of a session. -/
inductive State
  | connected
  | greeted
  | mailFrom
  | rcptTo
  | data
  deriving DecidableEq

/-- The parameters of a session that its decisions depend on. -/
structure SessionParams where
  tlsAcceptor : Bool
  hostname : Str
  maxMessageSize : Nat
  maxCommandsBeforeData : Nat

/-- The mutable record of a session. -/
structure SessionState where
  state : State
  reversePath : Str
  forwardPaths : List Str
  tlsActive : Bool
  ehloHostname : Str
  commandCount : Nat
  totalBytes : Nat
  messageCount : Nat
  deriving DecidableEq

/-- `SessionState::new`. -/
def SessionState.new : SessionState :=
  { state := .connected, reversePath := [], forwardPaths := [], tlsActive := false,
    ehloHostname := [], commandCount := 0, totalBytes := 0, messageCount := 0 }

/-- `SessionState::reset_transaction`: the greeting survives, the transaction does not. -/
def SessionState.resetTransaction (s : SessionState) : SessionState :=
  { s with
    reversePath := []
    forwardPaths := []
    state := if s.state = .connected then .connected else .greeted }

/-- What becomes of one `ingest_email` call: it succeeds, it fails or panics, or the connection's
deadline passes while the session waits for it. -/
inductive IngestResult
  | stored
  | failed
  | deadline
  deriving DecidableEq

/-- Everything outside the session during one round of the command loop. -/
structure Round where
  /-- The configuration that the handle holds. -/
  config : Config
  /-- Whether the `k`-th write succeeds. -/
  writeOk : Nat → Bool
  /-- What becomes of the `k`-th `ingest_email` call. -/
  ingest : Nat → IngestResult

/-- Everything outside the session: its rounds, and what the TLS handshake turns the connection
into. -/
structure Env where
  round : Nat → Round
  accept : Stream → Option Stream

/-- What a session does, as far as the outside can see it. -/
inductive Event
  /-- A line is handed to `parse_command`, read where the connection still held `before`. -/
  | line (tls : Bool) (before : Bytes) (cmd args : Str)
  /-- A reply is written. -/
  | reply (text : Str)
  /-- DATA has been answered 354, and `content` is what the connection holds. -/
  | data (tls : Bool) (content : Stream)
  /-- `receive_data`, begun on `content`, has given its reply and leaves `left`. -/
  | resumed (content left : Bytes)
  /-- `ingest_email` is called. -/
  | ingest (rcpt : Str) (envelope : Option Str) (message : Bytes)
  /-- The TLS handshake has succeeded. -/
  | handshake
  deriving DecidableEq

/-! ## Parsing of commands and addresses -/

/-- `parse_command`. -/
def parseCommand (line : Str) : Str × Str :=
  match splitOnce ' ' (trim line) with
  | some (cmd, args) => (toUppercase cmd, trim args)
  | none => (toUppercase (trim line), [])

/-- The commands the loop dispatches on. -/
inductive Command
  | ehlo
  | helo
  | mail
  | rcpt
  | data
  | rset
  | noop
  | quit
  | starttls
  | unrecognized
  deriving DecidableEq

/-- The dispatch of the command loop. -/
def Command.ofStr (cmd : Str) : Command :=
  if cmd = "EHLO".toList then .ehlo
  else if cmd = "HELO".toList then .helo
  else if cmd = "MAIL".toList then .mail
  else if cmd = "RCPT".toList then .rcpt
  else if cmd = "DATA".toList then .data
  else if cmd = "RSET".toList then .rset
  else if cmd = "NOOP".toList then .noop
  else if cmd = "QUIT".toList then .quit
  else if cmd = "STARTTLS".toList then .starttls
  else .unrecognized

/-- `extract_angle_addr`; `none` where the closing bracket comes first and the slice panics. -/
def extractAngleAddr (s : Str) : Option Str :=
  match splitOnce '<' (trim s), splitOnce '>' (trim s) with
  | some (start, _), some (stop, _) =>
      if stop.length ≤ start.length then none else some (trim (stop.drop (start.length + 1)))
  | _, _ => some (trim s)

/-- `recipient_domain_matches`. -/
def recipientDomainMatches (addr configuredDomain : Str) : Bool :=
  match rsplitOnce '@' addr with
  | none => false
  | some (_, domain) => !domain.isEmpty && eqIgnoreAsciiCase domain configuredDomain

/-! ## Command handlers -/

/-- `handle_ehlo`. -/
def handleEhlo (p : SessionParams) (args : Str) (s : SessionState) : Str × SessionState :=
  if args.isEmpty then ("501 EHLO requires domain argument\r\n".toList, s)
  else
    let s := { s with ehloHostname := args, state := .greeted }.resetTransaction
    ("250-".toList ++ p.hostname ++ " Hello ".toList ++ args ++ "\r\n".toList ++
      "250-SIZE ".toList ++ (toString p.maxMessageSize).toList ++ "\r\n".toList ++
      "250-8BITMIME\r\n".toList ++ "250-PIPELINING\r\n".toList ++
      (if p.tlsAcceptor && !s.tlsActive then "250-STARTTLS\r\n".toList else []) ++
      "250 SMTPUTF8\r\n".toList, s)

/-- `handle_helo`. -/
def handleHelo (p : SessionParams) (args : Str) (s : SessionState) : Str × SessionState :=
  if args.isEmpty then ("501 HELO requires domain argument\r\n".toList, s)
  else
    ("250 ".toList ++ p.hostname ++ " Hello ".toList ++ args ++ "\r\n".toList,
      { s with ehloHostname := args, state := .greeted }.resetTransaction)

/-- The reply to every accepted MAIL, RCPT, RSET and NOOP. -/
def okReply : Str := "250 OK\r\n".toList

/-- `handle_mail_from`; `none` is a panic. -/
def handleMailFrom (args : Str) (s : SessionState) : Option (Str × SessionState) :=
  if s.state = .connected then some ("503 Send EHLO/HELO first\r\n".toList, s)
  else if s.state = .mailFrom ∨ s.state = .rcptTo then
    some ("503 MAIL FROM already given\r\n".toList, s)
  else if !("FROM:".toList.isPrefixOf (toUppercase args)) then
    some ("501 Syntax: MAIL FROM:<address>\r\n".toList, s)
  else
    (sliceFrom 5 args).bind fun rest =>
      (extractAngleAddr rest).map fun addr =>
        (okReply, { s with reversePath := addr, state := .mailFrom })

/-- `handle_rcpt_to`; `none` is a panic. -/
def handleRcptTo (config : Config) (args : Str) (s : SessionState) : Option (Str × SessionState) :=
  if s.state = .connected ∨ s.state = .greeted then some ("503 Send MAIL FROM first\r\n".toList, s)
  else if !("TO:".toList.isPrefixOf (toUppercase args)) then
    some ("501 Syntax: RCPT TO:<address>\r\n".toList, s)
  else
    (sliceFrom 3 args).bind fun rest =>
      (extractAngleAddr rest).map fun addr =>
        if addr.isEmpty then ("501 Syntax: RCPT TO:<address>\r\n".toList, s)
        else if !recipientDomainMatches addr config.domain then
          ("550 5.7.1 relay not permitted\r\n".toList, s)
        else if (resolveRecipientMailbox config addr).isNone then
          ("550 5.1.1 <".toList ++ addr ++
            ">: Recipient address rejected: User unknown\r\n".toList, s)
        else (okReply, { s with forwardPaths := s.forwardPaths ++ [addr], state := .rcptTo })

/-- `handle_data_precheck`. -/
def handleDataPrecheck (s : SessionState) : Option Str :=
  if s.state ≠ .rcptTo then some "503 Send RCPT TO first\r\n".toList else none

/-- `handle_rset`. -/
def handleRset (s : SessionState) : Str × SessionState := (okReply, s.resetTransaction)

section Answers

variable {args text : Str} {s s' : SessionState}

/-- A reply with a permanent error code accepts nothing. -/
theorem ne_okReply (h : text.head? = some '5') : text ≠ okReply := by
  rintro rfl
  revert h
  decide

/-- MAIL either changes nothing, or is accepted from a greeted client without a transaction. -/
theorem handleMailFrom_cases (h : handleMailFrom args s = some (text, s')) :
    text ≠ okReply ∧ s' = s ∨
      text = okReply ∧ s.state ≠ .connected ∧ s.state ≠ .rcptTo ∧
        ∃ addr, (sliceFrom 5 args).bind extractAngleAddr = some addr ∧
          s' = { s with reversePath := addr, state := .mailFrom } := by
  unfold handleMailFrom at h
  split at h
  next =>
      cases h
      exact Or.inl ⟨ne_okReply rfl, rfl⟩
  next hconnected =>
      split at h
      next =>
          cases h
          exact Or.inl ⟨ne_okReply rfl, rfl⟩
      next hgiven =>
          split at h
          next =>
              cases h
              exact Or.inl ⟨ne_okReply rfl, rfl⟩
          next =>
              simp only [Option.bind_eq_some_iff, Option.map_eq_some_iff, Prod.mk.injEq] at h
              obtain ⟨rest, hrest, addr, haddr, rfl, rfl⟩ := h
              refine Or.inr ⟨rfl, hconnected, fun h => hgiven (Or.inr h), addr, ?_, rfl⟩
              rw [hrest, Option.bind_some, haddr]

/-- RCPT either changes nothing, or adds one recipient of the domain, with a mailbox, to a transaction. -/
theorem handleRcptTo_cases {config : Config} (h : handleRcptTo config args s = some (text, s')) :
    text ≠ okReply ∧ s' = s ∨
      text = okReply ∧ s.state ≠ .connected ∧ s.state ≠ .greeted ∧
        ∃ addr, (sliceFrom 3 args).bind extractAngleAddr = some addr ∧
          recipientDomainMatches addr config.domain = true ∧
          (resolveRecipientMailbox config addr).isSome = true ∧
          s' = { s with forwardPaths := s.forwardPaths ++ [addr], state := .rcptTo } := by
  unfold handleRcptTo at h
  split at h
  next =>
      cases h
      exact Or.inl ⟨ne_okReply rfl, rfl⟩
  next hstate =>
      split at h
      next =>
          cases h
          exact Or.inl ⟨ne_okReply rfl, rfl⟩
      next =>
          simp only [Option.bind_eq_some_iff, Option.map_eq_some_iff] at h
          obtain ⟨rest, hrest, addr, haddr, h⟩ := h
          split at h
          next =>
              cases h
              exact Or.inl ⟨ne_okReply rfl, rfl⟩
          next =>
              split at h
              next =>
                  cases h
                  exact Or.inl ⟨ne_okReply rfl, rfl⟩
              next hdomain =>
                  split at h
                  next =>
                      cases h
                      exact Or.inl ⟨ne_okReply rfl, rfl⟩
                  next hroute =>
                      cases h
                      refine Or.inr ⟨rfl, fun h => hstate (Or.inl h), fun h => hstate (Or.inr h), addr,
                        ?_, by simpa using hdomain, ?_, rfl⟩
                      · rw [hrest, Option.bind_some, haddr]
                      · rw [Option.isSome_iff_ne_none]
                        simpa using hroute

end Answers

/-! ## Receiving the message -/

/-- How `receive_data` ends before any delivery: with a complete message, with a reply, with a read
error, or dropped by the connection's deadline. -/
inductive DataExit
  | message (data : Bytes)
  | reply (text : Str)
  | failed (error : Str)
  | cancelled

/-- The drain after an oversize message, up to a dot line, the end of the stream or the idle timeout;
`none` when the connection's deadline passes first, which this loop does not watch. -/
def drainData (limit : Nat) (r : Reader) : Option Reader :=
  match _h : (boundedReadLine limit r).outcome with
  | .ready .eof => some (boundedReadLine limit r).reader
  | .elapsed .idle => some (boundedReadLine limit r).reader
  | .elapsed .total => none
  | .ready .ok =>
      if trimEnd (boundedReadLine limit r).buf = ['.'] then some (boundedReadLine limit r).reader
      else drainData limit (boundedReadLine limit r).reader
  | .ready .tooLong => drainData limit (boundedReadLine limit r).reader
  | .ready (.err _) => drainData limit (boundedReadLine limit r).reader
termination_by r.weight
decreasing_by all_goals exact boundedReadLine_weight limit r (by simp [_h])

/-- Drain an oversize message and reply. -/
def drainOversize (limit : Nat) (r : Reader) : DataExit × Reader :=
  match drainData limit r with
  | some r' => (.reply "552 Message exceeds maximum size\r\n".toList, r')
  | none => (.cancelled, r)

/-- The bytes of one content line, a stuffed dot removed. -/
def unstuff (line : Str) : Bytes :=
  if "..".toList.isPrefixOf line then (utf8 line).drop 1 else utf8 line

/-- `receive_data`, with the message received so far. -/
def receiveData (maxMessageSize : Nat) (data : Bytes) (r : Reader) : DataExit × Reader :=
  let limit := maxMessageSize + 1024
  let read := boundedReadLine limit r
  match _h : read.outcome with
  | .elapsed _ => (.reply "421 Timeout during DATA\r\n".toList, read.reader)
  | .ready .tooLong => drainOversize limit read.reader
  | .ready .eof => (.reply "451 Client disconnected during DATA\r\n".toList, read.reader)
  | .ready (.err e) => (.failed ("Read error during DATA: ".toList ++ e), read.reader)
  | .ready .ok =>
      if "\n".toList.isSuffixOf read.buf && !("\r\n".toList.isSuffixOf read.buf) then
        (.reply "500 Bare LF not allowed (RFC 5321)\r\n".toList, read.reader)
      else if trimEnd read.buf = ['.'] then (.message data, read.reader)
      else if (data ++ unstuff read.buf).length > maxMessageSize then
        drainOversize limit read.reader
      else receiveData maxMessageSize (data ++ unstuff read.buf) read.reader
termination_by r.weight
decreasing_by exact boundedReadLine_weight limit r (by simp [read, limit, _h])

/-! ## Delivery -/

/-- The reverse path as `ingest_email` receives it. -/
def envelopeOf (reversePath : Str) : Option Str :=
  if reversePath.isEmpty then none else some reversePath

/-- The `ingest_email` calls of one message, from the `k`-th recipient on, and how many of them
succeeded and failed; no counts when the deadline passes during one of them. -/
def ingestAll (results : Nat → IngestResult) (envelope : Option Str) (data : Bytes) (k : Nat) :
    List Str → List Event × Option (Nat × Nat)
  | [] => ([], some (0, 0))
  | rcpt :: rcpts =>
      let rest := ingestAll results envelope data (k + 1) rcpts
      match results k with
      | .stored => (.ingest rcpt envelope data :: rest.1, rest.2.map fun n => (n.1 + 1, n.2))
      | .failed => (.ingest rcpt envelope data :: rest.1, rest.2.map fun n => (n.1, n.2 + 1))
      | .deadline => ([.ingest rcpt envelope data], none)

/-- The reply to a message that reached every recipient. -/
def acceptedReply : Str := "250 OK message accepted\r\n".toList

/-- `deliver_message`: the calls it makes, and its reply unless the deadline drops the session. -/
def deliverMessage (env : Round) (data : Bytes) (s : SessionState) :
    List Event × Option (Str × SessionState) :=
  let calls := ingestAll (env.ingest) (envelopeOf s.reversePath) data 0 s.forwardPaths
  (calls.1, calls.2.map fun (succeeded, failed) =>
    if failed = 0 ∧ succeeded > 0 then
      (acceptedReply, { s with
        messageCount := s.messageCount + 1, totalBytes := s.totalBytes + data.length })
    else if succeeded > 0 then
      ("451 4.3.0 Temporary failure on partial accept; please retry\r\n".toList, { s with
        messageCount := s.messageCount + 1, totalBytes := s.totalBytes + data.length })
    else ("451 Temporary failure, please retry\r\n".toList, s))

/-! ## The command loop -/

/-- Why a session ends: the loop is left, TLS takes over, an error, the deadline, or a panic. -/
inductive Exit
  | done
  | starttlsUpgrade
  | failed (error : Str)
  | cancelled
  | panicked
  deriving DecidableEq

/-- One round of the command loop: it goes on, or the session ends. -/
inductive Step
  | more (s : SessionState) (r : Reader) (trace : List Event)
  | stop (exit : Exit) (s : SessionState) (r : Reader) (trace : List Event)

/-- Write a response; the session ends if that fails. -/
def respond (ok : Bool) (s : SessionState) (r : Reader) (trace : List Event) (text : Str) : Step :=
  if ok then .more s r (trace ++ [.reply text]) else .stop .done s r (trace ++ [.reply text])

/-- The DATA command after its precheck: 354, `receive_data`, delivery and the reset. -/
def dataStep (p : SessionParams) (env : Round) (s : SessionState) (r : Reader)
    (trace : List Event) : Step :=
  let trace := trace ++ [.reply "354 Start mail input; end with <CRLF>.<CRLF>\r\n".toList]
  if !env.writeOk 0 then .stop .done s r trace
  else
    let s := { s with state := .data }
    let trace := trace ++ [.data s.tlsActive r.toStream]
    match receiveData p.maxMessageSize [] r with
    | (.failed e, r') => .stop (.failed e) s r' trace
    | (.cancelled, r') => .stop .cancelled s r' trace
    | (.reply text, r') =>
        respond (env.writeOk 1) s.resetTransaction r' (trace ++ [.resumed r.bytes r'.bytes])
          text
    | (.message data, r') =>
        let delivery := deliverMessage env data s
        match delivery.2 with
        | none => .stop .cancelled s r' (trace ++ delivery.1)
        | some (text, s') =>
            respond (env.writeOk 1) s'.resetTransaction r'
              (trace ++ delivery.1 ++ [.resumed r.bytes r'.bytes]) text

/-- The dispatch of one command. -/
def dispatch (p : SessionParams) (env : Round) (s : SessionState) (r : Reader)
    (trace : List Event) (cmd args : Str) : Step :=
  let answer (handled : Str × SessionState) : Step :=
    respond (env.writeOk 1) handled.2 r trace handled.1
  match Command.ofStr cmd with
  | .ehlo => answer (handleEhlo p args s)
  | .helo => answer (handleHelo p args s)
  | .mail =>
      match handleMailFrom args s with
      | some handled => answer handled
      | none => .stop .panicked s r trace
  | .rcpt =>
      match handleRcptTo (env.config) args s with
      | some handled => answer handled
      | none => .stop .panicked s r trace
  | .data =>
      match handleDataPrecheck s with
      | some text => answer (text, s)
      | none => dataStep p env s r trace
  | .rset => answer (handleRset s)
  | .noop => answer (okReply, s)
  | .quit => .stop .done s r (trace ++ [.reply "221 Bye\r\n".toList])
  | .starttls =>
      if !p.tlsAcceptor then answer ("502 STARTTLS not available\r\n".toList, s)
      else if s.tlsActive then answer ("503 TLS already active\r\n".toList, s)
      else .stop .starttlsUpgrade s r (trace ++ [.reply "220 Ready to start TLS\r\n".toList])
  | .unrecognized => answer ("500 Unrecognized command\r\n".toList, s)

/-- One round of `command_loop`. -/
def commandStep (p : SessionParams) (env : Round) (s : SessionState) (r : Reader) :
    Step :=
  let read := boundedReadLine maxCommandLineLength r
  match read.outcome with
  | .elapsed .total => .stop .done s read.reader [.reply "421 Connection timed out\r\n".toList]
  | .elapsed .idle => .stop .done s read.reader [.reply "421 Idle timeout exceeded\r\n".toList]
  | .ready .tooLong =>
      respond (env.writeOk 0) s read.reader [] "500 Line too long\r\n".toList
  | .ready .eof => .stop .done s read.reader []
  | .ready (.err e) => .stop (.failed ("Read error: ".toList ++ e)) s read.reader []
  | .ready .ok =>
      let line := trimEnd read.buf
      if line.isEmpty then .more s read.reader []
      else
        let s := { s with commandCount := s.commandCount + 1 }
        if s.state ≠ .data ∧ s.commandCount > p.maxCommandsBeforeData then
          .stop .done s read.reader [.reply "421 Too many commands\r\n".toList]
        else
          let parsed := parseCommand line
          dispatch p env s read.reader [.line s.tlsActive r.bytes parsed.1 parsed.2]
            parsed.1 parsed.2

/-! ## Reading only moves forward -/

/-- One reader stands behind another on the same connection: it holds no more, and what it holds is the
end of what the other held. -/
structure Reader.Follows (r' r : Reader) : Prop where
  weight : r'.weight ≤ r.weight
  bytes : r'.bytes <:+ r.bytes

theorem Reader.Follows.refl (r : Reader) : r.Follows r := ⟨le_rfl, List.suffix_rfl⟩

theorem Reader.Follows.trans {r r' r'' : Reader} (h : r''.Follows r') (h' : r'.Follows r) :
    r''.Follows r :=
  ⟨h.weight.trans h'.weight, h.bytes.trans h'.bytes⟩

/-- A read never moves backwards. -/
theorem boundedReadLine_follows (maxLen : Nat) (r : Reader) :
    (boundedReadLine maxLen r).reader.Follows r := by
  refine ⟨?_, boundedReadLine_bytes maxLen r⟩
  by_cases h : (boundedReadLine maxLen r).outcome = .ready .eof
  · cases hcut : r.toStream.cutLine with
    | line pieces rest =>
        rcases boundedReadLine_of_line maxLen hcut with ⟨hread, -⟩ | ⟨⟨buf, hread⟩, -⟩
        · simp [hread] at h
        · simp [hread] at h
    | closed =>
        obtain ⟨result, buf, -, hread, -⟩ := boundedReadLine_of_closed maxLen hcut
        rw [hread]
        exact Nat.zero_le _
    | interrupted t rest =>
        obtain ⟨buf, hread⟩ := boundedReadLine_of_interrupted maxLen hcut
        simp [hread] at h
  · exact (boundedReadLine_weight maxLen r h).le

/-- The drain never moves backwards. -/
theorem drainData_follows {limit : Nat} {r r' : Reader} (h : drainData limit r = some r') :
    r'.Follows r := by
  induction hn : r.weight using Nat.strong_induction_on generalizing r with
  | _ n ih =>
      have hfirst := boundedReadLine_follows limit r
      rw [drainData] at h
      split at h
      case h_1 =>
          cases h
          exact hfirst
      case h_2 =>
          cases h
          exact hfirst
      case h_3 => cases h
      case h_4 hok =>
          have hlt := boundedReadLine_weight limit r (by simp [hok])
          split at h
          · cases h
            exact hfirst
          · exact (ih _ (hn ▸ hlt) h rfl).trans hfirst
      case h_5 hlong =>
          have hlt := boundedReadLine_weight limit r (by simp [hlong])
          exact (ih _ (hn ▸ hlt) h rfl).trans hfirst
      case h_6 e herr =>
          have hlt := boundedReadLine_weight limit r (by simp [herr])
          exact (ih _ (hn ▸ hlt) h rfl).trans hfirst

theorem drainOversize_follows (limit : Nat) (r : Reader) :
    (drainOversize limit r).2.Follows r := by
  unfold drainOversize
  cases hdrain : drainData limit r with
  | none => exact Reader.Follows.refl r
  | some r' => exact drainData_follows hdrain

/-- `receive_data` never moves backwards. -/
theorem receiveData_follows (maxMessageSize : Nat) (data : Bytes) (r : Reader) :
    (receiveData maxMessageSize data r).2.Follows r := by
  induction hn : r.weight using Nat.strong_induction_on generalizing r data with
  | _ n ih =>
      have hfirst := boundedReadLine_follows (maxMessageSize + 1024) r
      rw [receiveData]
      split
      case h_1 => exact hfirst
      case h_2 => exact (drainOversize_follows _ _).trans hfirst
      case h_3 => exact hfirst
      case h_4 => exact hfirst
      case h_5 hok =>
          have hlt := boundedReadLine_weight (maxMessageSize + 1024) r (by simp [hok])
          split
          · exact hfirst
          · split
            · exact hfirst
            · split
              · exact (drainOversize_follows _ _).trans hfirst
              · exact (ih _ (hn ▸ hlt) _ _ rfl).trans hfirst

/-- Delivery makes `ingest` calls and nothing else. -/
theorem mem_ingestAll {results : Nat → IngestResult} {envelope : Option Str} {data : Bytes} {k : Nat}
    {rcpts : List Str} {e : Event} (h : e ∈ (ingestAll results envelope data k rcpts).1) :
    ∃ rcpt, e = .ingest rcpt envelope data := by
  induction rcpts generalizing k with
  | nil => simp [ingestAll] at h
  | cons rcpt rcpts ih =>
      rw [ingestAll] at h
      cases hk : results k with
      | stored =>
          simp only [hk, List.mem_cons] at h
          rcases h with rfl | h
          · exact ⟨rcpt, rfl⟩
          · exact ih h
      | failed =>
          simp only [hk, List.mem_cons] at h
          rcases h with rfl | h
          · exact ⟨rcpt, rfl⟩
          · exact ih h
      | deadline =>
          simp only [hk, List.mem_singleton] at h
          exact ⟨rcpt, h⟩

/-- The reader a round ends with. -/
def Step.reader : Step → Reader
  | .more _ r _ => r
  | .stop _ _ r _ => r

/-- What a round did. -/
def Step.trace : Step → List Event
  | .more _ _ trace => trace
  | .stop _ _ _ trace => trace

/-- The session record a round ends with. -/
def Step.state : Step → SessionState
  | .more s _ _ => s
  | .stop _ s _ _ => s

@[simp] theorem Step.reader_more (s : SessionState) (r : Reader) (trace : List Event) :
    (Step.more s r trace).reader = r := rfl

@[simp] theorem Step.reader_stop (exit : Exit) (s : SessionState) (r : Reader)
    (trace : List Event) : (Step.stop exit s r trace).reader = r := rfl

@[simp] theorem Step.trace_more (s : SessionState) (r : Reader) (trace : List Event) :
    (Step.more s r trace).trace = trace := rfl

@[simp] theorem Step.trace_stop (exit : Exit) (s : SessionState) (r : Reader)
    (trace : List Event) : (Step.stop exit s r trace).trace = trace := rfl

@[simp] theorem Step.state_more (s : SessionState) (r : Reader) (trace : List Event) :
    (Step.more s r trace).state = s := rfl

@[simp] theorem Step.state_stop (exit : Exit) (s : SessionState) (r : Reader)
    (trace : List Event) : (Step.stop exit s r trace).state = s := rfl

@[simp] theorem respond_reader (ok : Bool) (s : SessionState) (r : Reader) (trace : List Event)
    (text : Str) : (respond ok s r trace text).reader = r := by
  cases ok <;> rfl

@[simp] theorem respond_trace (ok : Bool) (s : SessionState) (r : Reader) (trace : List Event)
    (text : Str) : (respond ok s r trace text).trace = trace ++ [.reply text] := by
  cases ok <;> rfl

@[simp] theorem respond_state (ok : Bool) (s : SessionState) (r : Reader) (trace : List Event)
    (text : Str) : (respond ok s r trace text).state = s := by
  cases ok <;> rfl

theorem dataStep_follows (p : SessionParams) (env : Round) (s : SessionState)
    (r : Reader) (trace : List Event) : (dataStep p env s r trace).reader.Follows r := by
  have hreceive := receiveData_follows p.maxMessageSize [] r
  unfold dataStep
  dsimp only
  split
  · exact Reader.Follows.refl r
  · cases hdata : receiveData p.maxMessageSize [] r with
    | mk exit r' =>
        rw [hdata] at hreceive
        cases exit with
        | failed e => exact hreceive
        | cancelled => exact hreceive
        | reply text => simpa using hreceive
        | message data =>
            dsimp only
            split
            · exact hreceive
            · simpa using hreceive

theorem dispatch_follows (p : SessionParams) (env : Round) (s : SessionState)
    (r : Reader) (trace : List Event) (cmd args : Str) :
    (dispatch p env s r trace cmd args).reader.Follows r := by
  have hrefl := Reader.Follows.refl r
  have hdata := dataStep_follows p env s r trace
  unfold dispatch
  dsimp only
  cases Command.ofStr cmd with
  | mail => cases handleMailFrom args s <;> simpa using hrefl
  | rcpt => cases handleRcptTo (env.config) args s <;> simpa using hrefl
  | data => cases handleDataPrecheck s <;> simp [hrefl, hdata]
  | starttls =>
      by_cases hacceptor : p.tlsAcceptor <;> by_cases hactive : s.tlsActive <;>
        simp [hacceptor, hactive, hrefl]
  | _ => simpa using hrefl

/-- **Every round that goes on has consumed something**, and never moves backwards. -/
theorem commandStep_more {p : SessionParams} {env : Round} {s s' : SessionState}
    {r r' : Reader} {trace : List Event} (h : commandStep p env s r = .more s' r' trace) :
    r'.weight < r.weight ∧ r'.bytes <:+ r.bytes := by
  have hfirst := boundedReadLine_bytes maxCommandLineLength r
  have hweight := boundedReadLine_weight maxCommandLineLength r
  unfold commandStep at h
  dsimp only at h
  split at h
  case h_1 => cases h
  case h_2 => cases h
  case h_3 hlong =>
      have hreader := congrArg Step.reader h
      rw [respond_reader] at hreader
      change _ = r' at hreader
      subst hreader
      exact ⟨hweight (by simp [hlong]), hfirst⟩
  case h_4 => cases h
  case h_5 => cases h
  case h_6 hok =>
      have hlt := hweight (by simp [hok])
      split at h
      · cases h
        exact ⟨hlt, hfirst⟩
      · split at h
        · cases h
        · have hfollows := dispatch_follows p env
            { s with commandCount := s.commandCount + 1 }
            (boundedReadLine maxCommandLineLength r).reader
            [.line s.tlsActive r.bytes
              (parseCommand (trimEnd (boundedReadLine maxCommandLineLength r).buf)).1
              (parseCommand (trimEnd (boundedReadLine maxCommandLineLength r).buf)).2]
            (parseCommand (trimEnd (boundedReadLine maxCommandLineLength r).buf)).1
            (parseCommand (trimEnd (boundedReadLine maxCommandLineLength r).buf)).2
          rw [h] at hfollows
          exact ⟨lt_of_le_of_lt hfollows.weight hlt, hfollows.bytes.trans hfirst⟩

/-- Where and how the command loop is left, and what it did. -/
structure LoopEnd where
  exit : Exit
  state : SessionState
  reader : Reader
  clock : Nat
  trace : List Event

/-- `command_loop`. -/
def commandLoop (p : SessionParams) (env : Env) (clock : Nat) (s : SessionState) (r : Reader) :
    LoopEnd :=
  match _h : commandStep p (env.round clock) s r with
  | .stop exit s' r' trace => ⟨exit, s', r', clock + 1, trace⟩
  | .more s' r' trace =>
      let rest := commandLoop p env (clock + 1) s' r'
      { rest with trace := trace ++ rest.trace }
termination_by r.weight
decreasing_by exact (commandStep_more _h).1

/-- How a connection ends, and everything it did. -/
structure SessionEnd where
  exit : Exit
  trace : List Event

/-- The session record behind the TLS handshake. -/
def SessionState.upgraded (s : SessionState) : SessionState :=
  { s with tlsActive := true, state := .connected }.resetTransaction

/-- `handle_tls_upgrade`. -/
def handleTlsUpgrade (p : SessionParams) (env : Env) (clock : Nat) (stream : Stream)
    (s : SessionState) : SessionEnd :=
  match env.accept stream with
  | none => ⟨.failed "TLS handshake failed".toList, []⟩
  | some tlsStream =>
      let loop := commandLoop p env clock s.upgraded ⟨[], tlsStream⟩
      ⟨if loop.exit = .starttlsUpgrade then .done else loop.exit, .handshake :: loop.trace⟩

/-- The greeting of the server. -/
def banner (p : SessionParams) : Str :=
  "220 ".toList ++ p.hostname ++ " ESMTP aimx\r\n".toList

/-- `run_session`: the banner, the plain-text loop, and the loop behind TLS, which starts on the
connection behind the buffered reader. -/
def runSession (p : SessionParams) (env : Env) (stream : Stream) : SessionEnd :=
  if !(env.round 0).writeOk 0 then ⟨.failed "write failed".toList, [.reply (banner p)]⟩
  else
    let loop := commandLoop p env 1 SessionState.new ⟨[], stream⟩
    if loop.exit = .starttlsUpgrade then
      let upgraded := handleTlsUpgrade p env loop.clock loop.reader.inner loop.state
      ⟨upgraded.exit, .reply (banner p) :: (loop.trace ++ upgraded.trace)⟩
    else ⟨loop.exit, .reply (banner p) :: loop.trace⟩

/-- The trace of a session: the banner, the plain-text loop unless the banner could not be written,
and the loop behind TLS when that loop was left for it and the handshake succeeded. -/
theorem runSession_trace (p : SessionParams) (env : Env) (stream : Stream) :
    let loop := commandLoop p env 1 SessionState.new ⟨[], stream⟩
    (runSession p env stream).trace = [.reply (banner p)] ∨
      (runSession p env stream).trace = .reply (banner p) :: loop.trace ∨
      ∃ tlsStream, loop.exit = .starttlsUpgrade ∧ env.accept loop.reader.inner = some tlsStream ∧
        (runSession p env stream).trace = .reply (banner p) :: (loop.trace ++ .handshake ::
          (commandLoop p env loop.clock loop.state.upgraded ⟨[], tlsStream⟩).trace) := by
  dsimp only
  unfold runSession
  by_cases hwrite : (!(env.round 0).writeOk 0) = true
  · exact Or.inl (by rw [if_pos hwrite])
  · rw [if_neg hwrite]
    dsimp only
    by_cases hexit : (commandLoop p env 1 SessionState.new ⟨[], stream⟩).exit = .starttlsUpgrade
    · rw [if_pos hexit]
      unfold handleTlsUpgrade
      cases haccept : env.accept (commandLoop p env 1 SessionState.new ⟨[], stream⟩).reader.inner with
      | none => exact Or.inr (Or.inl (by simp))
      | some tlsStream => exact Or.inr (Or.inr ⟨tlsStream, hexit, rfl, rfl⟩)
    · exact Or.inr (Or.inl (by rw [if_neg hexit]))

end Smtp
end Aimx
