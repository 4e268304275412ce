import Aimx.Daemon.Authz
import Aimx.Send.Wire

/-!
# The SEND handler

`handle_send_with_signer`: the sender is read from the header block and authorized, a `Message-ID` is
supplied where there is none, and the message is assembled, signed and handed to the transport.  The
signer and the transport are parameters, as in the source.

* `prepareSend` — everything up to the assembled message, with its exact meaning in
  `prepareSend_eq_ok`;
* `handleSend` — the whole request, with the calls it makes;
* `prepareSend_text` — how the text that is assembled relates to the text that was authorized;
* `prepareSend_sameBoundary_iff` — when both have the same header block.
-/

namespace Aimx
namespace Send

open Text Daemon

/-! ## Requests and effects -/

/-- A decoded SEND request. -/
structure SendRequest where
  body : Bytes
  textOnly : Bool
  htmlBody : Option Bytes
  deriving DecidableEq

/-- `DEFAULT_SIGNATURE`. -/
def defaultSignature : Str := "Sent from AIMX.  \nhttps://aimx.email".toList

/-- `Config::effective_signature`. -/
def effectiveSignature (config : Config) : Str := config.signature.getD defaultSignature

/-- Why a delivery failed. -/
inductive TransportError
  | temp (message : Str)
  | permanent (message : Str)
  deriving DecidableEq

/-- What one request takes from its surroundings: the random values, the MIME half of the assembly,
the signer and the transport. -/
structure SendEnv where
  messageUuid : Uuid
  outer : Uuid
  inner : Uuid
  mime : Mime
  signer : Bytes → Str → Except Str Bytes
  transport : Str → Str → Bytes → Except TransportError Str

/-- A request that is ready to be signed. -/
structure Prepared where
  fromHeader : Str
  fromMailbox : Str
  toHeader : Str
  recipient : Str
  messageId : Str
  bodyWithId : Bytes
  wire : Bytes
  deriving DecidableEq

/-- The answer to a SEND request. -/
inductive SendResponse
  | ok (messageId : Str)
  | err (reject : Reject)
  deriving DecidableEq

/-- A run of the handler: what the signer was given, the sender, recipient and bytes that the
transport was given, and the answer. -/
structure SendRun where
  signed : Option Bytes
  sent : Option (Str × Str × Bytes)
  response : SendResponse
  deriving DecidableEq

/-! ## The handler -/

/-- The field names of the request. -/
def fromName : Str := "From".toList
def toName : Str := "To".toList
def messageIdName : Str := "Message-ID".toList

/-- The message id of a request and its body with that id in it. -/
def withMessageId (env : SendEnv) (config : Config) (body : Bytes) : Str × Bytes :=
  match scanHeaders body messageIdName with
  | some v => (v, body)
  | none =>
      let synthetic := '<' :: env.messageUuid.hyphenated ++ '@' :: config.domain ++ ['>']
      (synthetic, injectMessageIdHeader body synthetic)

/-- The wire shape of a request. -/
def wireShape (config : Config) (req : SendRequest) : WireShape where
  signature := effectiveSignature config
  textOnly := req.textOnly
  htmlBody := req.htmlBody

/-- The sender half of `handle_send_with_signer`: the `From` value and the mailbox that the caller is
authorized for. -/
def authorizeSender (config : Config) (body : Bytes) (caller : Caller) : Except Reject (Str × Str) :=
  match scanHeaders body fromName with
  | none => .error ⟨.malformed, "missing required header: From".toList⟩
  | some fromHeader =>
      match extractBareAddress fromHeader with
      | none => .error ⟨.malformed,
          "could not extract sender address from From: ".toList ++ fromHeader⟩
      | some bareFrom =>
          match rsplitOnce '@' bareFrom with
          | none => .error ⟨.malformed, "could not extract domain from From: ".toList ++ fromHeader⟩
          | some (_, senderDomain) =>
              if eqIgnoreAsciiCase senderDomain config.domain = false then
                .error ⟨.domain, "sender domain '".toList ++ senderDomain ++
                  "' does not match aimx domain '".toList ++ config.domain ++ "'".toList⟩
              else
                match resolveConcreteMailbox config.mailboxes bareFrom with
                | none => .error ⟨.mailbox, "no mailbox matches From: ".toList ++ bareFrom ++
                    " (run `aimx mailboxes create <name>` to register one; catchall is inbound-only)".toList⟩
                | some fromMailbox =>
                    match config.mailboxes.lookup fromMailbox with
                    | none => .error ⟨.mailbox, "mailbox '".toList ++ fromMailbox ++
                        ("' resolved but not found in config " ++
                          "(race with concurrent MAILBOX-DELETE)").toList⟩
                    | some mailboxCfg =>
                        match enforceMailboxOwnerOrRoot caller fromMailbox mailboxCfg with
                        | .error reject => .error reject
                        | .ok () => .ok (fromHeader, fromMailbox)

/-- `handle_send_with_signer` up to the assembled message. -/
def prepareSend (env : SendEnv) (config : Config) (req : SendRequest) (caller : Caller) :
    Except Reject Prepared :=
  match authorizeSender config req.body caller with
  | .error reject => .error reject
  | .ok (fromHeader, fromMailbox) =>
      match scanHeaders req.body toName with
      | none => .error ⟨.malformed, "missing required header: To".toList⟩
      | some toHeader =>
          match extractBareAddress toHeader with
          | none => .error ⟨.malformed,
              "could not extract recipient address from To: ".toList ++ toHeader⟩
          | some recipient =>
              let (messageId, bodyWithId) := withMessageId env config req.body
              match assembleWireMessage env.mime env.outer env.inner bodyWithId
                  (wireShape config req) with
              | .error e => .error
                  ⟨if e = .bodyTooLarge then .bodyTooLarge else .malformed, e.display⟩
              | .ok wire => .ok
                  { fromHeader := fromHeader
                    fromMailbox := fromMailbox
                    toHeader := toHeader
                    recipient := recipient
                    messageId := messageId
                    bodyWithId := bodyWithId
                    wire := wire }

/-- `handle_send_with_signer`. -/
def handleSend (env : SendEnv) (config : Config) (req : SendRequest) (caller : Caller) : SendRun :=
  match prepareSend env config req caller with
  | .error reject => ⟨none, none, .err reject⟩
  | .ok p =>
      match env.signer p.wire config.domain with
      | .error e => ⟨some p.wire, none, .err ⟨.sign, e⟩⟩
      | .ok signed =>
          let response := match env.transport p.fromHeader p.recipient signed with
            | .ok _ => .ok p.messageId
            | .error (.temp message) => .err ⟨.temp, message⟩
            | .error (.permanent message) => .err ⟨.delivery, message⟩
          ⟨some p.wire, some (p.fromHeader, p.recipient, signed), response⟩

/-! ## What an accepted request has passed -/

/-- The facts about an authorized sender. -/
structure SenderAuthorized (config : Config) (body : Bytes) (caller : Caller)
    (fromHeader fromMailbox bareFrom localPart senderDomain : Str) (mailboxCfg : MailboxConfig) :
    Prop where
  header : scanHeaders body fromName = some fromHeader
  bare : extractBareAddress fromHeader = some bareFrom
  split : rsplitOnce '@' bareFrom = some (localPart, senderDomain)
  domain : eqIgnoreAsciiCase senderDomain config.domain = true
  resolved : resolveConcreteMailbox config.mailboxes bareFrom = some fromMailbox
  configured : config.mailboxes.lookup fromMailbox = some mailboxCfg
  owned : caller.MayActFor mailboxCfg

/-- An authorized sender has passed every check. -/
theorem authorizeSender_eq_ok {config : Config} {body : Bytes} {caller : Caller}
    {fromHeader fromMailbox : Str}
    (h : authorizeSender config body caller = .ok (fromHeader, fromMailbox)) :
    ∃ bareFrom localPart senderDomain mailboxCfg, SenderAuthorized config body caller fromHeader
      fromMailbox bareFrom localPart senderDomain mailboxCfg := by
  unfold authorizeSender at h
  split at h
  next => cases h
  next fromHeader' hheader =>
      split at h
      next => cases h
      next bareFrom hbare =>
          split at h
          next => cases h
          next localPart senderDomain hsplit =>
              split at h
              next => cases h
              next hdomain =>
                  split at h
                  next => cases h
                  next fromMailbox' hresolved =>
                      split at h
                      next => cases h
                      next mailboxCfg hconfigured =>
                          split at h
                          next => cases h
                          next howned =>
                              cases h
                              exact ⟨bareFrom, localPart, senderDomain, mailboxCfg,
                                ⟨hheader, hbare, hsplit, by simpa using hdomain, hresolved,
                                  hconfigured, enforceMailboxOwnerOrRoot_eq_ok_iff.mp howned⟩⟩

/-- A prepared request was authorized, and its message was assembled from the body with the id. -/
theorem prepareSend_eq_ok {env : SendEnv} {config : Config} {req : SendRequest} {caller : Caller}
    {p : Prepared} (h : prepareSend env config req caller = .ok p) :
    authorizeSender config req.body caller = .ok (p.fromHeader, p.fromMailbox) ∧
      withMessageId env config req.body = (p.messageId, p.bodyWithId) ∧
      assembleWireMessage env.mime env.outer env.inner p.bodyWithId (wireShape config req) =
        .ok p.wire := by
  unfold prepareSend at h
  split at h
  next => cases h
  next fromHeader fromMailbox hauth =>
      split at h
      next => cases h
      next =>
          split at h
          next => cases h
          next =>
              dsimp only at h
              split at h
              next => cases h
              next wire hwire =>
                  cases h
                  exact ⟨hauth, rfl, hwire⟩

/-- Nothing is signed or sent but a prepared message. -/
theorem handleSend_signed {env : SendEnv} {config : Config} {req : SendRequest} {caller : Caller}
    {wire : Bytes} (h : (handleSend env config req caller).signed = some wire) :
    ∃ p, prepareSend env config req caller = .ok p ∧ p.wire = wire ∧
      ∀ sender recipient message,
        (handleSend env config req caller).sent = some (sender, recipient, message) →
          sender = p.fromHeader := by
  unfold handleSend at h ⊢
  split at h
  next => cases h
  next p hp =>
      split at h
      next e he =>
          cases h
          refine ⟨p, hp, rfl, fun sender recipient message hsent => ?_⟩
          simp at hsent
      next signed hsigned =>
          cases h
          refine ⟨p, hp, rfl, fun sender recipient message hsent => ?_⟩
          simp only [Option.some.injEq, Prod.mk.injEq] at hsent
          exact hsent.1.symm

/-! ## The assembled text and the authorized text -/

/-- The domain of an authorized sender has no line feed, since the header line has none. -/
theorem SenderAuthorized.newline_notMem_domain {config : Config} {body : Bytes} {caller : Caller}
    {fromHeader fromMailbox bareFrom localPart senderDomain : Str} {mailboxCfg : MailboxConfig}
    (h : SenderAuthorized config body caller fromHeader fromMailbox bareFrom localPart senderDomain
      mailboxCfg) : '\n' ∉ config.domain := by
  obtain ⟨s, -, -, hvalue⟩ := scanHeaders_eq_some h.header
  have hbare : '\n' ∉ bareFrom := fun hmem => hvalue (mem_of_mem_extractBareAddress h.bare hmem)
  have hsender : '\n' ∉ senderDomain := by
    obtain ⟨rfl, -⟩ := rsplitOnce_eq_some_iff.mp h.split
    intro hmem
    exact hbare (by simp [hmem])
  intro hmem
  have hcase := eqIgnoreAsciiCase_iff.mp h.domain
  have hlower : '\n' ∈ toAsciiLowercase config.domain :=
    List.mem_map.mpr ⟨'\n', hmem, by decide⟩
  rw [← hcase] at hlower
  obtain ⟨c, hc, hcn⟩ := List.mem_map.mp hlower
  exact hsender (eq_of_toLower_eq (by decide) hcn ▸ hc)

/-- The lines that are put in front of the request. -/
def injectedLines (body : Bytes) (messageId : Str) : List Str :=
  match scanHeaders body messageIdName with
  | some _ => []
  | none => ["Message-ID: ".toList ++ messageId]

/-- How the assembled text relates to the authorized one: nothing or one line is put in front of it,
and the separator is the same. -/
structure TextInjected (s t : Str) (ls : List Str) : Prop where
  lines_eq : lines t = ls ++ lines s
  nonempty : [] ∉ ls
  field : ∀ l ∈ ls, ∃ v, splitOnce ':' l = some (messageIdName, v)
  cut : ∀ headers term rest, cutSeparator t = some (headers, term, rest) →
    ∃ headers', cutSeparator s = some (headers', term, rest) ∧
      lines (headers ++ term) = ls ++ lines (headers' ++ term)

/-- A request that has a `Message-ID` is assembled as it is. -/
theorem TextInjected.refl (s : Str) : TextInjected s s [] where
  lines_eq := rfl
  nonempty := by simp
  field := by simp
  cut := fun headers _ _ h => ⟨headers, h, rfl⟩

/-- A new field goes in front of a text that does not begin with an empty line. -/
theorem TextInjected.messageId {s id term : Str} (hterm : IsTerminator term) (hid : '\n' ∉ id)
    (hlast : id.getLast? = some '>') (hs : (lines s).head? ≠ some []) :
    TextInjected s ("Message-ID: ".toList ++ id ++ term ++ s) ["Message-ID: ".toList ++ id] := by
  have hline : '\n' ∉ "Message-ID: ".toList ++ id := by
    rw [List.mem_append, not_or]
    exact ⟨by decide, hid⟩
  have hgetLast : ("Message-ID: ".toList ++ id).getLast? ≠ some '\r' := by
    rw [List.getLast?_append, hlast]
    simp
  have hlines : ∀ x, lines ("Message-ID: ".toList ++ id ++ term ++ x) =
      ("Message-ID: ".toList ++ id) :: lines x := by
    intro x
    rw [List.append_assoc ("Message-ID: ".toList ++ id)]
    rcases hterm with rfl | rfl
    · exact lines_crlf_cons hline x
    · exact lines_lf_cons hline hgetLast x
  -- the line with all of its terminator but the line feed
  obtain ⟨w, hw, hshape⟩ : ∃ w, '\n' ∉ w ∧
      ∀ x : Str, "Message-ID: ".toList ++ id ++ term ++ x = w ++ '\n' :: x := by
    rcases hterm with rfl | rfl
    · refine ⟨"Message-ID: ".toList ++ id ++ ['\r'], ?_, fun x => by simp⟩
      rw [List.mem_append, not_or]
      exact ⟨hline, by decide⟩
    · exact ⟨"Message-ID: ".toList ++ id, hline, fun x => by simp⟩
  constructor
  · exact hlines s
  · simp
  · intro l hl
    have hfront : "Message-ID: ".toList = messageIdName ++ [':', ' '] := by decide
    obtain rfl := List.mem_singleton.mp hl
    rw [hfront, List.append_assoc]
    exact ⟨' ' :: id, splitOnce_eq_some_iff.mpr ⟨rfl, by decide⟩⟩
  · intro headers term' rest hcut
    rw [hshape, cutSeparator_line_append hw hs] at hcut
    obtain ⟨⟨headers', term'', rest'⟩, hcut', heq⟩ := Option.map_eq_some_iff.mp hcut
    simp only [Prod.mk.injEq] at heq
    obtain ⟨rfl, rfl, rfl⟩ := heq
    refine ⟨headers', hcut', ?_⟩
    have hcons : w ++ '\n' :: headers' ++ term'' = w ++ '\n' :: (headers' ++ term'') := by simp
    rw [hcons, ← hshape, hlines]
    rfl

/-- The body of a prepared request is a text, and what is assembled is that text with the injected
lines in front. -/
theorem prepareSend_text {env : SendEnv} {config : Config} {req : SendRequest} {caller : Caller}
    {p : Prepared} (h : prepareSend env config req caller = .ok p) :
    ∃ s t, req.body = utf8 s ∧ p.bodyWithId = utf8 t ∧
      TextInjected s t (injectedLines req.body p.messageId) := by
  obtain ⟨hauth, hid, -⟩ := prepareSend_eq_ok h
  obtain ⟨bareFrom, localPart, senderDomain, mailboxCfg, hsender⟩ := authorizeSender_eq_ok hauth
  obtain ⟨s, hbody, hhead, -⟩ := scanHeaders_eq_some hsender.header
  unfold withMessageId at hid
  unfold injectedLines
  split at hid
  next =>
      rw [← (Prod.mk.inj hid).2]
      exact ⟨s, s, hbody, hbody, .refl s⟩
  next =>
      rw [← (Prod.mk.inj hid).1, ← (Prod.mk.inj hid).2]
      have hidNl : '\n' ∉ '<' :: env.messageUuid.hyphenated ++ '@' :: config.domain ++ ['>'] := by
        have hdomain := hsender.newline_notMem_domain
        have huuid := newline_notMem_hyphenated env.messageUuid
        simp [hdomain, huuid]
      have hidLast : ('<' :: env.messageUuid.hyphenated ++ '@' :: config.domain ++ ['>']).getLast? =
          some '>' := List.getLast?_concat
      generalize '<' :: env.messageUuid.hyphenated ++ '@' :: config.domain ++ ['>'] = id
        at hidNl hidLast ⊢
      unfold injectMessageIdHeader
      dsimp only
      generalize hterm : (if utf8 "\r\n".toList <:+: req.body.take 1025 then "\r\n".toList
        else "\n".toList) = term
      have hterm' : IsTerminator term := by
        rw [← hterm]
        split
        · exact Or.inl rfl
        · exact Or.inr rfl
      refine ⟨s, "Message-ID: ".toList ++ id ++ term ++ s, hbody, ?_,
        .messageId hterm' hidNl hidLast hhead⟩
      rw [hbody, utf8_append _ s]

/-! ## One header block -/

/-- The boundary at which the walk over a request stops is the one at which its message is split: the
same text follows, and the header text has the lines that were walked, up to white space at their
ends. -/
def SameBoundary (body bodyWithId : Bytes) (injected : List Str) : Prop :=
  ∃ walk ∈ (fromUtf8 body).bind (cutBlank true),
    ∃ split ∈ (splitHeadersBody bodyWithId).toOption,
      split.2 = utf8 walk.2 ∧
        (lines split.1).map trimEnd = (injected ++ lines walk.1).map trimEnd

instance (body bodyWithId : Bytes) (injected : List Str) :
    Decidable (SameBoundary body bodyWithId injected) :=
  inferInstanceAs (Decidable (∃ _ ∈ _, ∃ _ ∈ _, _))

/-- No line is empty before the first CRLFCRLF of a request or, where it has none, before the first
LFLF. -/
def NoEarlyBlank (body : Bytes) : Prop :=
  ∀ cut ∈ (fromUtf8 body).bind cutSeparator, [] ∉ lines (cut.1 ++ cut.2.1)

instance (body : Bytes) : Decidable (NoEarlyBlank body) :=
  inferInstanceAs (Decidable (∀ _ ∈ _, _))

/-- **One header block.**  For a request that is accepted, the walk that authorizes the sender and the
split that builds the message have the same boundary exactly when no line before the separator is
empty. -/
theorem prepareSend_sameBoundary_iff {env : SendEnv} {config : Config} {req : SendRequest}
    {caller : Caller} {p : Prepared} (h : prepareSend env config req caller = .ok p) :
    SameBoundary req.body p.bodyWithId (injectedLines req.body p.messageId) ↔
      NoEarlyBlank req.body := by
  obtain ⟨s, t, hs, ht, hinj⟩ := prepareSend_text h
  obtain ⟨-, -, hwire⟩ := prepareSend_eq_ok h
  have hdecode : fromUtf8 req.body = some s := fromUtf8_eq_some_iff.mpr hs
  obtain ⟨headers, body, hsplit⟩ := exists_split_of_assembleWireMessage hwire
  have hsplit' := hsplit
  rw [ht] at hsplit'
  obtain ⟨term, rest, hcut, rfl⟩ := splitHeadersBody_utf8 hsplit'
  obtain ⟨headers', hcut', hlines⟩ := hinj.cut headers term rest hcut
  have hcases := cutBlank_of_cutSeparator hcut'
  unfold SameBoundary NoEarlyBlank
  rw [hdecode, hsplit, Option.bind_some, Option.bind_some, hcut']
  simp only [Option.mem_some_iff, forall_eq', Except.toOption, exists_eq_left']
  by_cases hblank : [] ∈ lines (headers' ++ term)
  · -- the walk stopped earlier, and more text follows its boundary
    obtain ⟨head, rest', hstop, hlonger⟩ := hcases.2 hblank
    rw [hstop]
    constructor
    · rintro ⟨walk, hwalk, hbody, -⟩
      rw [Option.mem_some_iff] at hwalk
      subst hwalk
      have hrest : fromUtf8 (utf8 rest) = some rest' := fromUtf8_eq_some_iff.mpr hbody
      rw [fromUtf8_eq_some_iff.mpr rfl, Option.some.injEq] at hrest
      subst hrest
      exact absurd hlonger (lt_irrefl _)
    · intro hne
      exact absurd hblank hne
  · have hne : [] ∉ lines (headers ++ term) := by
      rw [hlines, List.mem_append, not_or]
      exact ⟨hinj.nonempty, hblank⟩
    have hheaders := map_trimEnd_lines_append_terminator (cutSeparator_eq_some hcut).1 hne
    rw [hlines] at hheaders
    refine ⟨fun _ => hblank, fun _ => ⟨(headers' ++ term, rest), ?_, rfl, hheaders⟩⟩
    exact hcases.1 hblank

/-! ## An accepted request with two boundaries -/

/-- A sender's mailbox. -/
def bobMailbox : MailboxConfig where
  address := "bob@example.org".toList
  owner := "bob".toList
  hooks := []
  trust := none
  trustedSenders := none
  allowRootCatchall := false

/-- Another user's mailbox. -/
def aliceMailbox : MailboxConfig :=
  { bobMailbox with address := "alice@example.org".toList, owner := "alice".toList }

/-- A configuration with the mailboxes of two users. -/
def twoUserConfig : Config where
  domain := "example.org".toList
  dataDir := "/var/lib/aimx".toList
  dkimSelector := "aimx".toList
  trust := "none".toList
  trustedSenders := []
  mailboxes := (AList.singleton "bob".toList bobMailbox).insert "alice".toList aliceMailbox
  verifyHost := none
  enableIpv6 := false
  signature := some []
  upgrade := none

/-- The first user. -/
def bob : Caller where
  uid := 1000
  passwdName := some "bob".toList

/-- Surroundings in which the body is passed on as it is, and everything is signed and delivered. -/
def echoEnv : SendEnv where
  messageUuid := Uuid.repeated 0
  outer := Uuid.repeated 0
  inner := Uuid.repeated 15
  mime := fun _ body _ _ _ => .ok { noAttachments := true, encoding := .sevenBit, body := body }
  signer := fun message _ => .ok message
  transport := fun _ _ _ => .ok "mx.example.net".toList

/-- A plain-text request. -/
def textRequest (text : Str) : SendRequest where
  body := utf8 text
  textOnly := true
  htmlBody := none

/-- The premise of `prepareSend_sameBoundary_iff` as it can be evaluated. -/
theorem exists_prepared (env : SendEnv) (config : Config) (req : SendRequest) (caller : Caller)
    (h : (prepareSend env config req caller).toOption.isSome = true) :
    ∃ p, prepareSend env config req caller = .ok p := by
  cases hp : prepareSend env config req caller with
  | error reject =>
      rw [hp] at h
      cases h
  | ok p => exact ⟨p, rfl⟩

/-- A request that separates its parts by CRLF alone. -/
def crlfRequest : SendRequest :=
  textRequest "From: bob@example.org\r\nTo: x@example.net\r\n\r\nHi".toList

/-- Such a request has one header block. -/
theorem prepareSend_sameBoundary_crlf : ∃ p,
    prepareSend echoEnv twoUserConfig crlfRequest bob = .ok p ∧
      SameBoundary crlfRequest.body p.bodyWithId (injectedLines crlfRequest.body p.messageId) := by
  obtain ⟨p, hp⟩ := exists_prepared echoEnv twoUserConfig crlfRequest bob (by decide +kernel)
  exact ⟨p, hp, (prepareSend_sameBoundary_iff hp).mpr (by decide +kernel)⟩

/-- A request whose body, after an LF header block, contains a CRLF blank line. -/
def mixedRequest : SendRequest :=
  textRequest ("From: bob@example.org\nTo: x@example.net\nMessage-ID: <1@example.org>\n\n".toList ++
    "X: y\r\n\r\nHi".toList)

/-- It is accepted, and its message is split behind the blank line at which the walk stopped. -/
theorem mixedRequest_splits : ∃ p,
    prepareSend echoEnv twoUserConfig mixedRequest bob = .ok p ∧
      ¬ SameBoundary mixedRequest.body p.bodyWithId (injectedLines mixedRequest.body p.messageId) := by
  obtain ⟨p, hp⟩ := exists_prepared echoEnv twoUserConfig mixedRequest bob (by decide +kernel)
  refine ⟨p, hp, ?_⟩
  have hid := (prepareSend_eq_ok hp).2.1
  have hsame : withMessageId echoEnv twoUserConfig mixedRequest.body =
      ("<1@example.org>".toList, mixedRequest.body) := by decide +kernel
  rw [hsame] at hid
  rw [← (Prod.mk.inj hid).1, ← (Prod.mk.inj hid).2]
  decide +kernel

end Send
end Aimx
