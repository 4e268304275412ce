import Aimx.Send.Handler

/-!
# Senders of an outgoing message

Three readers see the sender of a SEND request: the authorization reads the first address of the
first `From` field, the transport takes the envelope sender from the text behind the last `<`, and a
recipient reads every address of every `From` field of the message.

* `addressList` — the addresses of a field value as a recipient reads them;
* `envelopeSender` — the address that the transport derives;
* `fromValues_wire` — the `From` fields of the message are those of the request;
* `handleSend_senderGenuine_iff` — when all of them belong to the mailbox that was authorized.
-/

namespace Aimx
namespace Send

open Text Daemon

/-! ## Reading an address list -/

/-- Where a reader of an address list is: in plain text, a quoted string, a comment, an angle-bracket
address, or a quoted string in one. -/
inductive Lex
  | text
  | quoted
  | comment (depth : Nat)
  | angle
  | angleQuoted

/-- The address of a list member: the text in angle brackets if there is one, else the plain text. -/
def finishMember (plain : Str) (angle : Option Str) : List Str :=
  let addr := trim (angle.getD plain)
  if '@' ∈ addr then [addr] else []

/-- Read the rest of an address list, with the plain and the angle-bracket text of the member under
construction.  Commas separate members outside of quoted strings, comments and angle brackets; a
group is the list of its members. -/
def addressesFrom : Lex → Str → Option Str → Str → List Str
  | _, plain, angle, [] => finishMember plain angle
  | .quoted, plain, angle, '\\' :: c :: s => addressesFrom .quoted (plain ++ ['\\', c]) angle s
  | .quoted, plain, angle, c :: s =>
      addressesFrom (if c = '"' then .text else .quoted) (plain ++ [c]) angle s
  | .comment depth, plain, angle, '\\' :: _ :: s => addressesFrom (.comment depth) plain angle s
  | .comment depth, plain, angle, c :: s =>
      if c = '(' then addressesFrom (.comment (depth + 1)) plain angle s
      else if c = ')' ∧ depth = 0 then addressesFrom .text plain angle s
      else if c = ')' then addressesFrom (.comment (depth - 1)) plain angle s
      else addressesFrom (.comment depth) plain angle s
  | .angleQuoted, plain, angle, '\\' :: c :: s =>
      addressesFrom .angleQuoted plain (angle.map fun a => a ++ ['\\', c]) s
  | .angleQuoted, plain, angle, c :: s =>
      addressesFrom (if c = '"' then .angle else .angleQuoted) plain (angle.map fun a => a ++ [c]) s
  | .angle, plain, angle, c :: s =>
      if c = '>' then addressesFrom .text plain angle s
      else addressesFrom (if c = '"' then .angleQuoted else .angle) plain
        (angle.map fun a => a ++ [c]) s
  | .text, plain, angle, c :: s =>
      if c = ',' ∨ c = ';' then finishMember plain angle ++ addressesFrom .text [] none s
      else if c = ':' then addressesFrom .text [] none s
      else if c = '"' then addressesFrom .quoted (plain ++ [c]) angle s
      else if c = '(' then addressesFrom (.comment 0) plain angle s
      else if c = '<' then addressesFrom .angle plain (some []) s
      else addressesFrom .text (plain ++ [c]) angle s

/-- The addresses of a field value. -/
def addressList (value : Str) : List Str := addressesFrom .text [] none value

example : addressList "\"Doe, <J>\" <j@a.example> (x, y), k@b.example".toList =
    ["j@a.example".toList, "k@b.example".toList] := by decide +kernel

/-! ## The envelope sender -/

/-- `sender.rsplit('<').next()` without the `>` at its end. -/
def envelopeText (sender : Str) : Str :=
  (match rsplitOnce '<' sender with
    | some (_, tail) => tail
    | none => sender).rdropWhile (· = '>')

/-- The envelope sender that `LettreTransport::send` derives, with the address parser of the mail
library; nothing is sent without one. -/
def envelopeSender (parse : Str → Option Str) (sender : Str) : Option Str :=
  if '@' ∈ envelopeText sender then parse (envelopeText sender) else none

/-! ## The `From` fields -/

/-- The values of the `From` fields. -/
def fromValues (fields : List (Str × Str)) : List Str :=
  (fields.filter fun f => f.1 = toAsciiLowercase fromName).map Prod.snd

/-- The header fields of a message, as bytes. -/
def messageFields (message : Bytes) : List (Str × Str) := scanFields (fromUtf8Lossy message)

/-- The header that the authorization reads is the first one. -/
theorem scanHeaders_from {body : Bytes} {s : Str} (h : fromUtf8 body = some s) :
    scanHeaders body fromName = (fromValues (scanFields s)).head? := by
  unfold scanHeaders fromValues
  rw [h, List.head?_map, List.head?_filter]

/-- Fields that describe the content are no `From` fields. -/
theorem fromValues_filter_notContent (fields : List (Str × Str)) :
    fromValues (fields.filter notContent) = fromValues fields := by
  have hname : toAsciiLowercase fromName ∉ contentFieldNames := by decide
  unfold fromValues
  rw [List.filter_filter]
  congr 1
  refine List.filter_congr fun f _ => ?_
  by_cases hf : f.1 = toAsciiLowercase fromName
  · simp [hf, notContent, hname]
  · simp [hf]

/-- The injected line is no `From` field. -/
theorem TextInjected.fromValues_eq {s t : Str} {ls : List Str} (h : TextInjected s t ls) :
    fromValues (scanFields t) = fromValues (scanFields s) := by
  have hname : toAsciiLowercase (trim messageIdName) ≠ toAsciiLowercase fromName := by decide
  have hcons : ∀ (l v : Str) (rest : List Str), splitOnce ':' l = some (messageIdName, v) →
      fromValues (fieldsOfLines (l :: rest)) = fromValues (fieldsOfLines rest) := by
    intro l v rest hcut
    obtain ⟨hl, -⟩ := splitOnce_eq_some_iff.mp hcut
    have hstart : l.head? = some 'M' := by
      rw [hl, List.head?_append_of_ne_nil _ (by decide)]
      decide
    have hne : l ≠ [] := by
      rintro rfl
      cases hstart
    have hcont : isContinuation l = false := by
      unfold isContinuation
      rw [hstart]
      decide
    obtain ⟨ext, hext⟩ := unfoldLines_some l rest
    have hfield := headerField_append hcut ext
    unfold fieldsOfLines fromValues
    rw [unfoldLines_cons _ _ hne, hcont, if_neg (by simp), Option.toList_none, List.nil_append, hext,
      List.filterMap_cons, hfield]
    simp [hname]
  unfold scanFields
  rw [h.lines_eq]
  have hfield := h.field
  clear h
  induction ls with
  | nil => rfl
  | cons l ls ih =>
      obtain ⟨v, hcut⟩ := hfield l List.mem_cons_self
      rw [List.cons_append, hcons l v _ hcut, ih fun x hx => hfield x (List.mem_cons_of_mem _ hx)]

/-- The `From` fields of an assembled message are those of the request. -/
theorem fromValues_wire {env : SendEnv} {config : Config} {req : SendRequest} {caller : Caller}
    {p : Prepared} (h : prepareSend env config req caller = .ok p) :
    ∃ s, fromUtf8 req.body = some s ∧
      fromValues (messageFields p.wire) = fromValues (scanFields s) := by
  obtain ⟨s, t, hs, ht, hinj⟩ := prepareSend_text h
  obtain ⟨-, -, hwire⟩ := prepareSend_eq_ok h
  rw [ht] at hwire
  refine ⟨s, fromUtf8_eq_some_iff.mpr hs, ?_⟩
  calc fromValues (messageFields p.wire)
      = fromValues ((messageFields p.wire).filter notContent) :=
        (fromValues_filter_notContent _).symm
    _ = fromValues ((scanFields t).filter notContent) := by
        unfold messageFields
        rw [wireFields_eq hwire]
    _ = fromValues (scanFields t) := fromValues_filter_notContent _
    _ = fromValues (scanFields s) := hinj.fromValues_eq

/-! ## Genuine senders -/

/-- The mailbox that an address resolves to. -/
def mailboxOf (config : Config) (addr : Str) : Option Str :=
  resolveConcreteMailbox config.mailboxes addr

/-- All senders of a run belong to the mailbox that was authorized, and the caller owns it: every
address of every `From` field of the message that is signed, and the envelope sender derived from the
value that the transport is given. -/
def SenderGenuine (parse : Str → Option Str) (config : Config) (body : Bytes) (caller : Caller)
    (run : SendRun) : Prop :=
  ∃ fromHeader mailbox mb,
    authorizeSender config body caller = .ok (fromHeader, mailbox) ∧
      config.mailboxes.lookup mailbox = some mb ∧ caller.username = some mb.owner ∧
      (∀ wire ∈ run.signed, ∀ value ∈ fromValues (messageFields wire), ∀ addr ∈ addressList value,
        mailboxOf config addr = some mailbox) ∧
      (∀ sent ∈ run.sent, sent.1 = fromHeader) ∧
      ∀ addr ∈ envelopeSender parse fromHeader, mailboxOf config addr = some mailbox

/-- The sender addresses of a request that the authorization does not read: the other addresses of
the first `From` field, the envelope sender, and all addresses of the further `From` fields. -/
def skippedSenders (parse : Str → Option Str) : List Str → List Str
  | [] => []
  | value :: rest =>
      (addressList value ++ (envelopeSender parse value).toList).filter
        (fun addr => some addr ≠ extractBareAddress value) ++
      rest.flatMap addressList

/-- The sender addresses that the authorization does not read resolve to the same mailbox as the one
that it reads. -/
def SkippedSendersAgree (parse : Str → Option Str) (config : Config) (body : Bytes) : Prop :=
  ∀ s ∈ fromUtf8 body, ∀ value ∈ (fromValues (scanFields s)).head?,
    ∀ addr ∈ skippedSenders parse (fromValues (scanFields s)),
      mailboxOf config addr = (extractBareAddress value).bind (mailboxOf config)

/-- **No impersonation through SEND.**  When a message of an ordinary user is handed to the signer,
all its senders belong to the mailbox that was authorized exactly when those that the authorization
does not read agree with the one that it reads. -/
theorem handleSend_senderGenuine_iff (parse : Str → Option Str) {env : SendEnv} {config : Config}
    {req : SendRequest} {caller : Caller} {wire : Bytes} (hroot : caller.isRoot = false)
    (h : (handleSend env config req caller).signed = some wire) :
    SenderGenuine parse config req.body caller (handleSend env config req caller) ↔
      SkippedSendersAgree parse config req.body := by
  obtain ⟨p, hp, rfl, hsent⟩ := handleSend_signed h
  obtain ⟨hauth, -, -⟩ := prepareSend_eq_ok hp
  obtain ⟨bareFrom, localPart, senderDomain, mb, hsender⟩ := authorizeSender_eq_ok hauth
  obtain ⟨s, hs, hvalues⟩ := fromValues_wire hp
  have hfirst : (fromValues (scanFields s)).head? = some p.fromHeader := by
    rw [← scanHeaders_from hs]
    exact hsender.header
  obtain ⟨rest, hrest⟩ := List.head?_eq_some_iff.mp hfirst
  have hmailbox : (extractBareAddress p.fromHeader).bind (mailboxOf config) =
      some p.fromMailbox := by
    rw [hsender.bare]
    exact hsender.resolved
  have howner : caller.username = some mb.owner :=
    hsender.owned.resolve_left (by rw [hroot]; simp)
  -- both sides speak about the `From` values of the request
  have hagree : SkippedSendersAgree parse config req.body ↔
      ∀ addr ∈ skippedSenders parse (p.fromHeader :: rest),
        mailboxOf config addr = some p.fromMailbox := by
    unfold SkippedSendersAgree
    rw [hs]
    simp only [Option.mem_some_iff, forall_eq', hrest, List.head?_cons, hmailbox]
  rw [hagree]
  unfold SenderGenuine
  constructor
  · rintro ⟨fromHeader, mailbox, mb', hauth', -, -, hfields, -, henvelope⟩ addr haddr
    rw [hauth, Except.ok.injEq, Prod.mk.injEq] at hauth'
    obtain ⟨rfl, rfl⟩ := hauth'
    have hfields' := hfields p.wire (Option.mem_def.mpr h)
    rw [hvalues, hrest] at hfields'
    unfold skippedSenders at haddr
    rcases List.mem_append.mp haddr with haddr | haddr
    · rcases List.mem_append.mp (List.mem_of_mem_filter haddr) with haddr | haddr
      · exact hfields' p.fromHeader List.mem_cons_self addr haddr
      · exact henvelope addr (Option.mem_toList.mp haddr)
    · obtain ⟨value, hvalue, haddr⟩ := List.mem_flatMap.mp haddr
      exact hfields' value (List.mem_cons_of_mem _ hvalue) addr haddr
  · intro hskipped
    -- an address of the first field is the one that was read, or is skipped
    have hread : ∀ addr, addr ∈ addressList p.fromHeader ++
        (envelopeSender parse p.fromHeader).toList → mailboxOf config addr = some p.fromMailbox := by
      intro addr haddr
      by_cases hbare : some addr = extractBareAddress p.fromHeader
      · rw [← hmailbox, ← hbare]
        rfl
      · refine hskipped addr (List.mem_append_left _ ?_)
        exact List.mem_filter.mpr ⟨haddr, by simpa using hbare⟩
    refine ⟨p.fromHeader, p.fromMailbox, mb, hauth, hsender.configured, howner, ?_, ?_, ?_⟩
    · intro wire hwire value hvalue addr haddr
      rw [h, Option.mem_some_iff] at hwire
      subst hwire
      rw [hvalues, hrest] at hvalue
      rcases List.mem_cons.mp hvalue with rfl | hvalue
      · exact hread addr (List.mem_append_left _ haddr)
      · refine hskipped addr (List.mem_append_right _ ?_)
        exact List.mem_flatMap.mpr ⟨value, hvalue, haddr⟩
    · rintro ⟨sender, recipient, message⟩ hrun
      exact hsent sender recipient message hrun
    · intro addr haddr
      exact hread addr (List.mem_append_right _ (Option.mem_toList.mpr haddr))

/-! ## A request with two senders -/

/-- The address parser of the mail library, on addresses of one local part and one domain. -/
def parsePlain (text : Str) : Option Str :=
  match splitOnce '@' text with
  | some (user, domain) =>
      if user.all Char.isAlphanum && domain.all (fun c => c.isAlphanum || c == '.') then some text
      else none
  | none => none

/-- An ordinary request has one genuine sender. -/
theorem handleSend_senderGenuine_plain :
    SenderGenuine parsePlain twoUserConfig crlfRequest.body bob
      (handleSend echoEnv twoUserConfig crlfRequest bob) := by
  obtain ⟨wire, hwire⟩ := Option.isSome_iff_exists.mp
    (show (handleSend echoEnv twoUserConfig crlfRequest bob).signed.isSome = true by decide +kernel)
  refine (handleSend_senderGenuine_iff parsePlain (by decide) hwire).mpr ?_
  unfold SkippedSendersAgree
  decide +kernel

/-- A request with a second `From` field that names another user. -/
def twoFromRequest : SendRequest :=
  textRequest ("From: bob@example.org\r\nFrom: alice@example.org\r\nTo: x@example.net\r\n\r\n".toList ++
    "Hi".toList)

/-- The message of that request is signed and sent with both senders. -/
theorem twoFromRequest_impersonates :
    (∃ wire, (handleSend echoEnv twoUserConfig twoFromRequest bob).signed = some wire ∧
      fromValues (messageFields wire) =
        ["bob@example.org".toList, "alice@example.org".toList]) ∧
      bob.isRoot = false ∧
      ¬ SenderGenuine parsePlain twoUserConfig twoFromRequest.body bob
        (handleSend echoEnv twoUserConfig twoFromRequest bob) := by
  obtain ⟨wire, hwire⟩ := Option.isSome_iff_exists.mp
    (show (handleSend echoEnv twoUserConfig twoFromRequest bob).signed.isSome = true by decide +kernel)
  have hvalues : fromValues (messageFields wire) =
      ["bob@example.org".toList, "alice@example.org".toList] := by
    obtain ⟨p, hp, rfl, -⟩ := handleSend_signed hwire
    obtain ⟨s, hs, hfields⟩ := fromValues_wire hp
    have hrequest : (fromUtf8 twoFromRequest.body).map (fun s => fromValues (scanFields s)) =
        some ["bob@example.org".toList, "alice@example.org".toList] := by decide +kernel
    rw [hs, Option.map_some, Option.some.injEq] at hrequest
    rw [hfields, hrequest]
  refine ⟨⟨wire, hwire, hvalues⟩, by decide, ?_⟩
  rintro ⟨fromHeader, mailbox, mb, -, -, -, hfields, -⟩
  have hboth := hfields wire hwire
  rw [hvalues] at hboth
  have hbob := hboth _ List.mem_cons_self "bob@example.org".toList (by decide +kernel)
  have halice := hboth _ (List.mem_cons_of_mem _ List.mem_cons_self) "alice@example.org".toList
    (by decide +kernel)
  have hdifferent : mailboxOf twoUserConfig "bob@example.org".toList ≠
      mailboxOf twoUserConfig "alice@example.org".toList := by decide +kernel
  exact hdifferent (hbob.trans halice.symm)

end Send
end Aimx
