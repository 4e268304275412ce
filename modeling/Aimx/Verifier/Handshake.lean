import Aimx.Smtp.Segments
import Aimx.Text.Decimal
import Aimx.Verifier.Probe

/-!
# The probe of an aimx server

The verifier probes the SMTP server of its caller, which is this program too.  Both sides are run against each
other: the session reads what the verifier writes, and the verifier reads what the session replies.

* `ehloCommand`, `quitCommand` — the two commands of a probe;
* `replyLines` — what `read_line` gives of the replies of a session;
* `runSession_probe` — the session that a probe meets, however TCP cuts its commands;
* `smtpEhloHandshake_session`, `probe_session` — the probe takes the server for reachable.
-/

namespace Aimx
namespace Verifier

open Text Net Smtp

/-! ## The two sides -/

/-- What the verifier writes in a probe. -/
def ehloCommand : Str := "EHLO check.aimx.email\r\n".toList
def quitCommand : Str := "QUIT\r\n".toList

/-- A text in lines, each with its line feed, as `read_line` gives them. -/
def inclusiveLines : Str → List Str
  | [] => []
  | c :: s =>
      if c = '\n' then [c] :: inclusiveLines s
      else
        match inclusiveLines s with
        | [] => [[c]]
        | line :: rest => (c :: line) :: rest

/-- The text of all replies of a session. -/
def repliesText (trace : List Event) : Str :=
  trace.flatMap fun e =>
    match e with
    | .reply text => text
    | _ => []

/-- What `read_line` gives the verifier, one time after the other: the lines of the replies. -/
def replyLines (trace : List Event) : List (Option Str) := (inclusiveLines (repliesText trace)).map some

/-- The server at the other end of a session whose replies are these. -/
def remoteOf (trace : List Event) : Remote where
  accepts := true
  lines := replyLines trace
  ehloSent := true
  quitSent := true
  inTime := true

/-! ## Lines -/

theorem inclusiveLines_line {line : Str} (h : '\n' ∉ line) (rest : Str) :
    inclusiveLines (line ++ '\n' :: rest) = (line ++ ['\n']) :: inclusiveLines rest := by
  induction line with
  | nil => rfl
  | cons c line ih =>
      rw [List.mem_cons, not_or] at h
      rw [List.cons_append, inclusiveLines, if_neg (Ne.symm h.1), ih h.2]
      rfl

/-- The first line of a text that begins with one. -/
theorem inclusiveLines_crlf {line : Str} (h : '\n' ∉ line) (rest : Str) :
    inclusiveLines (line ++ ("\r\n".toList ++ rest)) = (line ++ ['\r', '\n']) :: inclusiveLines rest := by
  have hline : '\n' ∉ line ++ ['\r'] := by
    rw [List.mem_append, not_or]
    exact ⟨h, by decide⟩
  have hsplit : line ++ ("\r\n".toList ++ rest) = (line ++ ['\r']) ++ '\n' :: rest := by
    rw [List.append_assoc]
    rfl
  rw [hsplit, inclusiveLines_line hline, List.append_assoc]
  rfl

/-- A line of a reply that goes on is passed over. -/
theorem readEhloReply_continued {line : Str} (h : '\n' ∉ line) (rest : Str) :
    readEhloReply ((inclusiveLines ("250-".toList ++ (line ++ ("\r\n".toList ++ rest)))).map some) =
      readEhloReply ((inclusiveLines rest).map some) := by
  have hnew : '\n' ∉ "250-".toList ++ line := by
    rw [List.mem_append, not_or]
    exact ⟨by decide, h⟩
  rw [← List.append_assoc, inclusiveLines_crlf hnew, List.map_cons]
  rfl

/-- The last line of a reply ends it. -/
theorem readEhloReply_last {line : Str} (h : '\n' ∉ line) (rest : Str) :
    readEhloReply ((inclusiveLines ("250 ".toList ++ (line ++ ("\r\n".toList ++ rest)))).map some) =
      true := by
  have hnew : '\n' ∉ "250 ".toList ++ line := by
    rw [List.mem_append, not_or]
    exact ⟨by decide, h⟩
  rw [← List.append_assoc, inclusiveLines_crlf hnew, List.map_cons]
  rfl

theorem newline_notMem_decimal (n : Nat) : '\n' ∉ (toString n).toList := by
  have hdecimal : (toString n).toList = decimal n := by
    simp [decimal, Nat.repr]
  rw [hdecimal]
  intro h
  have hdigit := isDigit_of_mem_decimal h
  revert hdigit
  decide

/-! ## The session -/

section Session

variable {p : SessionParams} {env : Env}

/-- One command of ASCII text in a connection, whatever its chunks. -/
theorem boundedReadLine_ascii {r : Reader} {chunks : List Bytes} {body more : Bytes}
    (hr : r.toStream = Stream.ofChunks .eof chunks) (h : chunks.flatten = body ++ lf :: more)
    (hbody : lf ∉ body) (hascii : body.all (fun b => b < 0x80) = true)
    (hshort : body.length + 1 ≤ maxCommandLineLength) :
    ∃ rest chunks', boundedReadLine maxCommandLineLength r =
        ⟨.ready .ok, (body ++ [lf]).map asciiChar, rest⟩ ∧
      rest.toStream = Stream.ofChunks .eof chunks' ∧ chunks'.flatten = more := by
  obtain ⟨pieces, rest, chunks', hcut, hpieces, hstream, hmore⟩ := cutLine_ofChunks .eof hbody h
  have hall : ∀ b ∈ pieces.flatten, b < 0x80 := by
    rw [hpieces]
    intro b hb
    rcases List.mem_append.mp hb with hb | hb
    · simpa using List.all_eq_true.mp hascii b hb
    · rw [List.mem_singleton.mp hb]
      decide
  have hlen : 0 + pieces.flatten.length ≤ maxCommandLineLength := by
    rw [hpieces, List.length_append, List.length_singleton]
    omega
  rw [← hr] at hcut
  rcases boundedReadLine_of_line maxCommandLineLength hcut with ⟨hread, -⟩ | ⟨-, hlong⟩
  · rw [decodePieces_ascii hall, hpieces] at hread
    exact ⟨rest, chunks', hread, hstream, hmore⟩
  · rw [overlong_ascii hall hlen] at hlong
    cases hlong

theorem commandLoop_of_more {clock : Nat} {s s' : SessionState} {r r' : Reader} {trace : List Event}
    (h : commandStep p (env.round clock) s r = .more s' r' trace) :
    (commandLoop p env clock s r).exit = (commandLoop p env (clock + 1) s' r').exit ∧
      (commandLoop p env clock s r).trace = trace ++ (commandLoop p env (clock + 1) s' r').trace := by
  rw [commandLoop]
  split
  next hstop =>
      rw [h] at hstop
      cases hstop
  next hmore =>
      rw [h] at hmore
      cases hmore
      exact ⟨rfl, rfl⟩

theorem commandLoop_of_stop {clock : Nat} {s s' : SessionState} {r r' : Reader} {trace : List Event}
    {exit : Exit}
    (h : commandStep p (env.round clock) s r = .stop exit s' r' trace) :
    (commandLoop p env clock s r).exit = exit ∧ (commandLoop p env clock s r).trace = trace := by
  rw [commandLoop]
  split
  next hstop =>
      rw [h] at hstop
      cases hstop
      exact ⟨rfl, rfl⟩
  next hmore =>
      rw [h] at hmore
      cases hmore

/-- A round that reads a command. -/
theorem commandStep_of_read {r rest : Reader} {round : Round} {s : SessionState} {buf : Str}
    (hread : boundedReadLine maxCommandLineLength r = ⟨.ready .ok, buf, rest⟩) (hline : trimEnd buf ≠ [])
    (hcount : s.commandCount + 1 ≤ p.maxCommandsBeforeData) :
    commandStep p round s r = dispatch p round { s with commandCount := s.commandCount + 1 } rest
      [.line s.tlsActive r.bytes (parseCommand (trimEnd buf)).1 (parseCommand (trimEnd buf)).2]
      (parseCommand (trimEnd buf)).1 (parseCommand (trimEnd buf)).2 := by
  unfold commandStep
  rw [hread]
  dsimp only
  rw [if_neg (by simpa using hline), if_neg]
  intro h
  exact absurd h.2 (by omega)

/-- The argument of the verifier's EHLO. -/
def checkHost : Str := "check.aimx.email".toList

/-- The round in which the server answers EHLO. -/
theorem commandStep_ehlo {r rest : Reader} {round : Round} (hwrite : round.writeOk 1 = true)
    (hlimit : 1 ≤ p.maxCommandsBeforeData)
    (hread : boundedReadLine maxCommandLineLength r = ⟨.ready .ok, ehloCommand, rest⟩) :
    commandStep p round SessionState.new r =
      .more (handleEhlo p checkHost { SessionState.new with commandCount := 1 }).2 rest
        [.line false r.bytes "EHLO".toList checkHost,
          .reply (handleEhlo p checkHost { SessionState.new with commandCount := 1 }).1] := by
  have hparse : parseCommand (trimEnd ehloCommand) = ("EHLO".toList, checkHost) := by decide
  have hcommand : Command.ofStr "EHLO".toList = .ehlo := by decide
  have hcount : SessionState.new.commandCount + 1 ≤ p.maxCommandsBeforeData := hlimit
  rw [commandStep_of_read hread (by decide) hcount, hparse]
  unfold dispatch
  rw [hcommand, hwrite]
  rfl

/-- The round in which the server answers QUIT. -/
theorem commandStep_quit {r rest : Reader} {round : Round} {s : SessionState}
    (hcount : s.commandCount + 1 ≤ p.maxCommandsBeforeData)
    (hread : boundedReadLine maxCommandLineLength r = ⟨.ready .ok, quitCommand, rest⟩) :
    commandStep p round s r = .stop .done { s with commandCount := s.commandCount + 1 } rest
      [.line s.tlsActive r.bytes "QUIT".toList [], .reply "221 Bye\r\n".toList] := by
  have hparse : parseCommand (trimEnd quitCommand) = ("QUIT".toList, []) := by decide
  have hcommand : Command.ofStr "QUIT".toList = .quit := by decide
  rw [commandStep_of_read hread (by decide) hcount, hparse]
  unfold dispatch
  rw [hcommand]
  rfl

/-- The answer to EHLO counts no command. -/
theorem handleEhlo_commandCount (s : SessionState) :
    (handleEhlo p checkHost s).2.commandCount = s.commandCount := by
  unfold handleEhlo
  rw [if_neg (by decide)]
  rfl

/-- **The session that a probe meets**: the banner, the answer to EHLO and the answer to QUIT, however TCP
cuts the two commands. -/
theorem runSession_probe (hwrites : ∀ n k, (env.round n).writeOk k = true)
    (hlimit : 2 ≤ p.maxCommandsBeforeData) {chunks : List Bytes}
    (hchunks : chunks.flatten = utf8 (ehloCommand ++ quitCommand)) :
    (runSession p env (Stream.ofChunks .eof chunks)).exit = .done ∧
      repliesText (runSession p env (Stream.ofChunks .eof chunks)).trace =
        banner p ++ ((handleEhlo p checkHost { SessionState.new with commandCount := 1 }).1 ++
          "221 Bye\r\n".toList) := by
  have hbytes : utf8 (ehloCommand ++ quitCommand) =
      utf8 "EHLO check.aimx.email\r".toList ++ lf :: (utf8 "QUIT\r".toList ++ lf :: []) := by decide
  have hstart : (⟨[], Stream.ofChunks .eof chunks⟩ : Reader).toStream = Stream.ofChunks .eof chunks := rfl
  obtain ⟨rest, chunks', hread, hrest, hmore⟩ :=
    boundedReadLine_ascii hstart (hchunks.trans hbytes) (by decide) (by decide) (by decide)
  obtain ⟨rest', chunks'', hread', -, -⟩ :=
    boundedReadLine_ascii hrest hmore (by decide) (by decide) (by decide)
  -- both commands are ASCII, so the cuts inside them leave no trace in what is read
  have hehlo : (utf8 "EHLO check.aimx.email\r".toList ++ [lf]).map asciiChar = ehloCommand := by decide
  have hquit : (utf8 "QUIT\r".toList ++ [lf]).map asciiChar = quitCommand := by decide
  rw [hehlo] at hread
  rw [hquit] at hread'
  have hfirst := commandStep_ehlo (hwrites 1 1) (Nat.le_of_succ_le hlimit) hread
  have hcount : (handleEhlo p checkHost { SessionState.new with commandCount := 1 }).2.commandCount + 1 ≤
      p.maxCommandsBeforeData := by
    rw [handleEhlo_commandCount]
    exact hlimit
  have hsecond := @commandStep_quit p rest rest' (env.round 2) _ hcount hread'
  obtain ⟨hexit, hloop⟩ := commandLoop_of_more hfirst
  obtain ⟨hexit', hloop'⟩ := commandLoop_of_stop hsecond
  have hdone : (commandLoop p env 1 SessionState.new ⟨[], Stream.ofChunks .eof chunks⟩).exit = .done :=
    hexit.trans hexit'
  unfold runSession
  rw [hwrites, if_neg (by decide)]
  dsimp only
  rw [hdone, if_neg (by decide), hloop, hloop']
  exact ⟨rfl, rfl⟩

/-- The verifier finds the end of the answer to its EHLO. -/
theorem readEhloReply_handleEhlo (hhost : '\n' ∉ p.hostname) (s : SessionState) (rest : Str) :
    readEhloReply ((inclusiveLines ((handleEhlo p checkHost s).1 ++ rest)).map some) = true := by
  -- the reply as its lines, of which the one for STARTTLS may be missing
  have hreply : ∃ tls : Str, (tls = [] ∨ tls = "250-STARTTLS\r\n".toList) ∧
      (handleEhlo p checkHost s).1 ++ rest =
        "250-".toList ++ ((p.hostname ++ " Hello check.aimx.email".toList) ++ ("\r\n".toList ++
          ("250-".toList ++ (("SIZE ".toList ++ (toString p.maxMessageSize).toList) ++ ("\r\n".toList ++
            ("250-".toList ++ ("8BITMIME".toList ++ ("\r\n".toList ++
              ("250-".toList ++ ("PIPELINING".toList ++ ("\r\n".toList ++
                (tls ++ ("250 ".toList ++ ("SMTPUTF8".toList ++ ("\r\n".toList ++ rest))))))))))))))) := by
    refine ⟨if p.tlsAcceptor && !s.tlsActive then "250-STARTTLS\r\n".toList else [], ?_, ?_⟩
    · split
      · exact Or.inr rfl
      · exact Or.inl rfl
    · have hsize : "250-SIZE ".toList = "250-".toList ++ "SIZE ".toList := by decide
      have hmime : "250-8BITMIME\r\n".toList = "250-".toList ++ ("8BITMIME".toList ++ "\r\n".toList) := by
        decide
      have hpipe : "250-PIPELINING\r\n".toList = "250-".toList ++ ("PIPELINING".toList ++ "\r\n".toList) := by
        decide
      have hutf : "250 SMTPUTF8\r\n".toList = "250 ".toList ++ ("SMTPUTF8".toList ++ "\r\n".toList) := by
        decide
      have hhello : " Hello check.aimx.email".toList = " Hello ".toList ++ checkHost := by decide
      unfold handleEhlo
      rw [if_neg (by decide)]
      dsimp only
      rw [hsize, hmime, hpipe, hutf, hhello]
      simp only [List.append_assoc]
      rfl
  obtain ⟨tls, htls, hreply⟩ := hreply
  rw [hreply, readEhloReply_continued, readEhloReply_continued, readEhloReply_continued (by decide),
    readEhloReply_continued (by decide)]
  · rcases htls with rfl | rfl
    · exact readEhloReply_last (by decide) rest
    · have hstart : "250-STARTTLS\r\n".toList =
          "250-".toList ++ ("STARTTLS".toList ++ ("\r\n".toList ++ [])) := by decide
      rw [hstart, List.append_assoc, List.append_assoc, List.append_assoc,
        readEhloReply_continued (by decide)]
      exact readEhloReply_last (by decide) rest
  · rw [List.mem_append, not_or]
    exact ⟨by decide, newline_notMem_decimal _⟩
  · rw [List.mem_append, not_or]
    exact ⟨hhost, by decide⟩

/-- The verifier takes the server for reachable. -/
theorem smtpEhloHandshake_session (hwrites : ∀ n k, (env.round n).writeOk k = true)
    (hlimit : 2 ≤ p.maxCommandsBeforeData) (hhost : '\n' ∉ p.hostname) {chunks : List Bytes}
    (hchunks : chunks.flatten = utf8 (ehloCommand ++ quitCommand)) :
    smtpEhloHandshake (remoteOf (runSession p env (Stream.ofChunks .eof chunks)).trace) = true := by
  have hbanner : banner p =
      ("220".toList ++ (' ' :: p.hostname ++ " ESMTP aimx".toList)) ++ "\r\n".toList := by
    have hopen : "220 ".toList = "220".toList ++ [' '] := by decide
    have hclose : " ESMTP aimx\r\n".toList = " ESMTP aimx".toList ++ "\r\n".toList := by decide
    rw [banner, hopen, hclose]
    simp only [List.append_assoc, List.cons_append, List.nil_append]
  have hfirst : '\n' ∉ "220".toList ++ (' ' :: p.hostname ++ " ESMTP aimx".toList) := by
    simp only [List.mem_append, List.mem_cons, not_or]
    exact ⟨by decide, ⟨by decide, hhost⟩, by decide⟩
  have htext := (runSession_probe hwrites hlimit hchunks).2
  have hlines : replyLines (runSession p env (Stream.ofChunks .eof chunks)).trace =
      some (("220".toList ++ (' ' :: p.hostname ++ " ESMTP aimx".toList)) ++ ['\r', '\n']) ::
        (inclusiveLines ((handleEhlo p checkHost { SessionState.new with commandCount := 1 }).1 ++
          "221 Bye\r\n".toList)).map some := by
    rw [replyLines, htext, hbanner, List.append_assoc, inclusiveLines_crlf hfirst]
    rfl
  unfold smtpEhloHandshake remoteOf
  rw [hlines]
  dsimp only
  rw [readEhloReply_handleEhlo hhost]
  rfl

/-- **A probe reaches an aimx server** on port 25 of a caller that is not internal, with TLS or without, and
however TCP cuts the commands of the verifier. -/
theorem probe_session (hwrites : ∀ n k, (env.round n).writeOk k = true)
    (hlimit : 2 ≤ p.maxCommandsBeforeData) (hhost : '\n' ∉ p.hostname) {chunks : List Bytes}
    (hchunks : chunks.flatten = utf8 (ehloCommand ++ quitCommand)) {network : SocketAddr → Remote}
    {peer : SocketAddr} {headers : HeaderMap} {ip : IpAddr} (hip : Caller peer headers ip)
    (hpublic : ¬ ip.Internal)
    (hserver : network (SocketAddr.new (canonicalizeIp ip) 25) =
      remoteOf (runSession p env (Stream.ofChunks .eof chunks)).trace) :
    (probe network peer headers).response = .ok ⟨true, canonicalizeIp ip⟩ := by
  have hresolve : resolveClientIp peer headers = some (canonicalizeIp ip) :=
    resolveClientIp_eq_some_iff.mpr ⟨ip, hip, fun _ => hpublic, rfl⟩
  have hopen : ¬ isBlockedTarget (canonicalizeIp ip) = true := by
    rwa [isBlockedTarget_iff, internal_canonicalizeIp]
  have hreached : (checkPort25Ehlo network (canonicalizeIp ip)).2 = true := by
    unfold checkPort25Ehlo
    dsimp only
    rw [hserver, smtpEhloHandshake_session hwrites hlimit hhost hchunks]
    rfl
  unfold probe
  rw [hresolve]
  dsimp only
  rw [if_neg hopen, hreached]

/-- A server at a public address, whose connection delivers the two commands in three pieces. -/
theorem probe_session_plain :
    (probe (fun _ => remoteOf (runSession plainParams plainEnv (Stream.ofChunks .eof
        [utf8 "EHLO check".toList, utf8 ".aimx.email\r".toList, utf8 "\nQUIT\r\n".toList])).trace)
      (.v4 ⟨8, 8, 8, 8⟩ 50000) ⟨fun _ => none⟩).response = .ok ⟨true, .v4 ⟨8, 8, 8, 8⟩⟩ := by
  have hpublic : ¬ (IpAddr.v4 ⟨8, 8, 8, 8⟩).Internal := by
    rw [← isBlockedTarget_iff]
    decide
  have hcaller : Caller (.v4 ⟨8, 8, 8, 8⟩ 50000) ⟨fun _ => none⟩ (.v4 ⟨8, 8, 8, 8⟩) := by
    have hpeer : (SocketAddr.v4 ⟨8, 8, 8, 8⟩ 50000).ip = .v4 ⟨8, 8, 8, 8⟩ := rfl
    rw [Caller, hpeer, if_neg fun hloop => hpublic ⟨_, hloop⟩]
  have hwrites : ∀ n k, (plainEnv.round n).writeOk k = true := fun _ _ => rfl
  have hlimit : 2 ≤ plainParams.maxCommandsBeforeData := by decide
  exact probe_session hwrites hlimit (by decide) (by decide) hcaller hpublic rfl

end Session

end Verifier
end Aimx
