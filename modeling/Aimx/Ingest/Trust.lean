import Aimx.Config.Schema
import Aimx.Ingest.Frontmatter

/-!
# Trust evaluation and the hook gate

The sender's way through an inbound delivery: the verdicts of the DKIM signatures are summarised to
one word, the `From` address is formatted for display, `evaluateTrust` reads the bare address back
and compares it with the allowlist, the outcome is stored in the front matter, and the `on_receive`
hooks that do not ask for untrusted mail are gated on the stored word.

* `inboundMeta` — the front matter an ingested message is stored with;
* `executeOnReceive` — the hooks that run for it;
* `trusted_iff` — when the stored word is `"true"`;
* `inbound_trust_iff` — when it is, and which hooks run, in terms of the message and its verdicts.
-/

namespace Aimx
namespace Ingest

open Text

/-! ## Authentication results -/

/-- The result of one DKIM signature, as the verifying library reports it. -/
inductive DkimResult
  | pass
  | neutral
  | fail
  | permError
  | tempError
  | none
  deriving DecidableEq

/-- One verified signature: the `d=` domain and the result. -/
structure DkimOutput where
  domain : Str
  result : DkimResult
  deriving DecidableEq

/-- The three words of `AuthResults`. -/
structure AuthResults where
  dkim : Str
  spf : Str
  dmarc : Str
  deriving DecidableEq

/-- `AuthResults::default`. -/
def AuthResults.default : AuthResults where
  dkim := "none".toList
  spf := "none".toList
  dmarc := "none".toList

/-- `dkim_output_to_string`: one passing signature is enough. -/
def dkimOutputToString (results : List DkimOutput) (parsed : Bool) : Str :=
  if !parsed then "none".toList
  else if results.isEmpty then "none".toList
  else if results.any fun o => o.result = .pass then "pass".toList
  else "fail".toList

/-- What the resolver reports about one message: the verdict on each signature, unless the message
cannot be parsed for authentication, and the SPF and DMARC words. -/
structure AuthReport where
  dkim : Option (List DkimOutput)
  spf : Str
  dmarc : Str

/-- `verify_auth`; there is no report when the runtime or the resolver cannot be set up. -/
def verifyAuth : Option AuthReport → AuthResults
  | none => .default
  | some r =>
      { dkim := dkimOutputToString (r.dkim.getD []) r.dkim.isSome
        spf := r.spf
        dmarc := r.dmarc }

/-- The signatures that a report says passed. -/
def passedSignatures : Option AuthReport → List DkimOutput
  | none => []
  | some r => (r.dkim.getD []).filter fun o => o.result = .pass

/-- The summary is `pass` exactly when some signature passed. -/
theorem dkim_verifyAuth_iff (report : Option AuthReport) :
    (verifyAuth report).dkim = "pass".toList ↔ ∃ o, o ∈ passedSignatures report := by
  cases report with
  | none => simp [verifyAuth, AuthResults.default, passedSignatures]
  | some r =>
      obtain ⟨dkim, spf, dmarc⟩ := r
      cases dkim with
      | none => simp [verifyAuth, dkimOutputToString, passedSignatures]
      | some results =>
          show dkimOutputToString results true = "pass".toList ↔
            ∃ o, o ∈ results.filter fun o => o.result = .pass
          simp only [List.mem_filter, decide_eq_true_eq]
          unfold dkimOutputToString
          by_cases hany : results.any fun o => o.result = .pass
          · have hne : results.isEmpty = false := by
              cases results with
              | nil => simp at hany
              | cons o os => rfl
            have hex : ∃ o ∈ results, o.result = .pass := by simpa using hany
            simp [hne, hany, hex]
          · have hnot : ¬ ∃ o ∈ results, o.result = .pass := by simpa using hany
            cases hempty : results.isEmpty <;> simp [hany, hnot]

/-! ## The sender -/

/-- An address of a parsed header field. -/
structure Addr where
  name : Option Str
  address : Option Str
  deriving DecidableEq

/-- An address as it is shown: `name <address>`, or the bare address; nothing without an address. -/
def displayAddr (a : Addr) : Str :=
  match a.address with
  | none => []
  | some addr =>
      match a.name with
      | some name => name ++ " <".toList ++ addr ++ ['>']
      | none => addr

/-- The first address of a field, as it is shown. -/
def displayFirst (field : Option (List Addr)) : Str :=
  match field.bind List.head? with
  | none => []
  | some a => displayAddr a

/-- All addresses of a field, as they are shown; a field without any counts as absent. -/
def displayAll (field : Option (List Addr)) : Option Str :=
  match field with
  | none => none
  | some addrs =>
      match (addrs.filter fun a => a.address.isSome).map displayAddr with
      | [] => none
      | part :: parts => some ((", ".toList).intercalate (part :: parts))

/-- The two library functions that the comparison of senders uses: `str::to_lowercase` and
`glob_match` of a pattern and a text. -/
structure SenderMatch where
  toLowercase : Str → Str
  globMatch : Str → Str → Bool

/-- `extract_email_for_match`: the text between the last `<` and the first `>` behind it, else the
whole text, in lower case. -/
def extractEmailForMatch (e : SenderMatch) (from_ : Str) : Str :=
  match rsplitOnce '<' from_ with
  | none => e.toLowercase from_
  | some (_, tail) =>
      match splitOnce '>' tail with
      | none => e.toLowercase from_
      | some (addr, _) => e.toLowercase addr

/-- `is_sender_in_trusted_senders`. -/
def isSenderInTrustedSenders (e : SenderMatch) (senders : List Str) (from_ : Str) : Bool :=
  senders.any fun pattern => e.globMatch pattern (extractEmailForMatch e from_)

/-- The display form is undone: an address without angle brackets is what the allowlist sees,
whatever the display name is. -/
theorem extractEmailForMatch_displayAddr (e : SenderMatch) {a : Addr} {addr : Str}
    (ha : a.address = some addr) (hopen : '<' ∉ addr) (hclose : '>' ∉ addr) :
    extractEmailForMatch e (displayAddr a) = e.toLowercase addr := by
  unfold extractEmailForMatch displayAddr
  rw [ha]
  cases a.name with
  | none =>
      dsimp only
      have hnone : rsplitOnce '<' addr = none := by
        unfold rsplitOnce
        rw [splitOnce_eq_none_iff.mpr (by simpa using hopen)]
        rfl
      rw [hnone]
  | some name =>
      dsimp only
      have hcut : rsplitOnce '<' (name ++ " <".toList ++ addr ++ ['>']) =
          some (name ++ [' '], addr ++ ['>']) := by
        rw [rsplitOnce_eq_some_iff]
        exact ⟨by simp, by simp [hopen]⟩
      have hend : splitOnce '>' (addr ++ ['>']) = some (addr, []) :=
        splitOnce_eq_some_iff.mpr ⟨rfl, hclose⟩
      rw [hcut]
      dsimp only
      rw [hend]

/-! ## The trust policy -/

/-- The outcome of the evaluation. -/
inductive TrustedValue
  | none
  | true
  | false
  deriving DecidableEq

/-- `TrustedValue::as_str`. -/
def TrustedValue.asStr : TrustedValue → Str
  | .none => "none".toList
  | .true => "true".toList
  | .false => "false".toList

/-- `evaluate_trust`. -/
def evaluateTrust (e : SenderMatch) (config : Config) (mb : MailboxConfig) (auth : AuthResults)
    (from_ : Str) : TrustedValue :=
  let trust := mb.effectiveTrust config
  if trust = "none".toList then .none
  else if trust = "verified".toList then
    let senders := mb.effectiveTrustedSenders config
    let senderAllowlisted := isSenderInTrustedSenders e senders from_
    let dkimPassed := auth.dkim = "pass".toList
    if senderAllowlisted ∧ dkimPassed then .true else .false
  else .false

/-- The policy says `true` exactly on a `verified` mailbox, for an allowlisted sender and a passing
summary. -/
theorem evaluateTrust_eq_true_iff (e : SenderMatch) (config : Config) (mb : MailboxConfig)
    (auth : AuthResults) (from_ : Str) :
    evaluateTrust e config mb auth from_ = .true ↔
      mb.effectiveTrust config = "verified".toList ∧
        isSenderInTrustedSenders e (mb.effectiveTrustedSenders config) from_ = true ∧
        auth.dkim = "pass".toList := by
  unfold evaluateTrust
  dsimp only
  by_cases hnone : mb.effectiveTrust config = "none".toList
  · have hverified : mb.effectiveTrust config ≠ "verified".toList := by
      rw [hnone]
      decide
    rw [if_pos hnone]
    simp only [hverified, false_and, reduceCtorEq]
  rw [if_neg hnone]
  by_cases hverified : mb.effectiveTrust config = "verified".toList
  · rw [if_pos hverified]
    simp only [hverified, true_and]
    split
    next hboth => simp only [hboth, and_self]
    next hnot => simp only [hnot, reduceCtorEq]
  · rw [if_neg hverified]
    simp only [hverified, false_and, reduceCtorEq]

/-! ## The stored record -/

/-- What the MIME parser gives of a message, as far as it is stored. -/
structure Message where
  from_ : Option (List Addr)
  to_ : Option (List Addr)
  cc : Option (List Addr)
  replyTo : Option (List Addr)
  subject : Option Str
  date : Option Str
  messageId : Option Str
  inReplyTo : Option Str
  references : Option Str
  listId : Option Str
  autoSubmitted : Option Str
  body : Str
  deriving DecidableEq

/-- What one ingest call takes from its surroundings: the clock, the allocated file stem, the thread
id, the peer address, the written attachments and the authentication report. -/
structure Arrival where
  now : Str
  id : Str
  threadId : Str
  receivedFromIp : Option Str
  attachments : List AttachmentMeta
  auth : Option AuthReport

/-- An absent field and an empty one are the same to the record. -/
def nonEmpty (field : Option Str) : Option Str :=
  match field with
  | some [] => none
  | other => other

/-- `extract_header_value`, on the raw text of the field. -/
def extractHeaderValue (raw : Option Str) : Option Str :=
  nonEmpty (raw.map trim)

/-- The trust outcome that `ingest_email` computes for a routed message. -/
def inboundTrust (e : SenderMatch) (config : Config) (mailbox : Str) (auth : AuthResults)
    (from_ : Str) : TrustedValue :=
  match config.mailboxes.lookup mailbox with
  | some mb => evaluateTrust e config mb auth from_
  | none => .none

/-- The front matter that `ingest_email` writes for a message routed to `mailbox`. -/
def inboundMeta (e : SenderMatch) (config : Config) (rcpt mailbox : Str) (raw : Bytes)
    (message : Message) (a : Arrival) : InboundFrontmatter :=
  let from_ := displayFirst message.from_
  let auth := verifyAuth a.auth
  { id := a.id
    messageId := message.messageId.getD []
    threadId := a.threadId
    from_ := from_
    to_ := displayFirst message.to_
    cc := displayAll message.cc
    replyTo := displayAll message.replyTo
    deliveredTo := rcpt
    subject := message.subject.getD "(no subject)".toList
    date := message.date.getD a.now
    receivedAt := a.now
    receivedFromIp := a.receivedFromIp
    sizeBytes := raw.length
    attachments := a.attachments
    inReplyTo := nonEmpty message.inReplyTo
    references := nonEmpty message.references
    listId := extractHeaderValue message.listId
    autoSubmitted := extractHeaderValue message.autoSubmitted
    dkim := auth.dkim
    spf := auth.spf
    dmarc := auth.dmarc
    trusted := (inboundTrust e config mailbox auth from_).asStr
    mailbox := mailbox
    read := false
    readAt := none
    labels := [] }

/-! ## The hook gate -/

/-- `parse_trusted`. -/
def parseTrusted (s : Str) : TrustedValue :=
  if s = "true".toList then .true
  else if s = "false".toList then .false
  else .none

/-- `should_fire_on_receive`. -/
def shouldFireOnReceive (hook : Hook) (emailTrusted : TrustedValue) : Bool :=
  hook.fireOnUntrusted || emailTrusted = .true

/-- `execute_on_receive`: the hooks it runs, in order.  A catchall mailbox runs none. -/
def executeOnReceive (config : Config) (mb : MailboxConfig) (m : InboundFrontmatter) : List Hook :=
  let emailTrusted := parseTrusted m.trusted
  if mb.isCatchall config && !mb.hooks.isEmpty then []
  else mb.onReceiveHooks.filter fun hook => shouldFireOnReceive hook emailTrusted

/-- The hooks that run for a message stored in `mailbox`. -/
def firedHooks (config : Config) (mailbox : Str) (m : InboundFrontmatter) : List Hook :=
  match config.mailboxes.lookup mailbox with
  | some mb => executeOnReceive config mb m
  | none => []

/-- Storing `"true"` and deciding `true` are the same. -/
theorem asStr_eq_true_iff (v : TrustedValue) : v.asStr = "true".toList ↔ v = .true := by
  cases v <;> decide

/-- A hook runs exactly when it belongs to a mailbox that is no catchall, waits for incoming mail,
and either asks for untrusted mail or the stored word is `"true"`. -/
theorem mem_executeOnReceive_iff (config : Config) (mb : MailboxConfig) (m : InboundFrontmatter)
    (hook : Hook) :
    hook ∈ executeOnReceive config mb m ↔
      (hook ∈ mb.onReceiveHooks ∧ mb.isCatchall config = false) ∧
        (hook.fireOnUntrusted = true ∨ m.trusted = "true".toList) := by
  have hword : parseTrusted m.trusted = .true ↔ m.trusted = "true".toList := by
    unfold parseTrusted
    by_cases htrue : m.trusted = "true".toList
    · simp only [htrue, if_true]
    · rw [if_neg htrue]
      simp only [htrue, iff_false]
      split <;> simp only [reduceCtorEq, not_false_eq_true]
  unfold executeOnReceive
  dsimp only
  by_cases hcatchall : mb.isCatchall config = true
  · cases hhooks : mb.hooks with
    | nil => simp [MailboxConfig.onReceiveHooks, hhooks]
    | cons h hs => simp [hcatchall]
  · have hcatchall' : mb.isCatchall config = false := by simpa using hcatchall
    simp [hcatchall', List.mem_filter, shouldFireOnReceive, hword]

/-! ## What trust rests on -/

section Inbound

variable (e : SenderMatch) (config : Config) (rcpt mailbox : Str) (raw : Bytes) (message : Message)
  (a : Arrival)

/-- What a delivery has to show for a `verified` mailbox to trust it: the displayed sender is
allowlisted, and some signature, by whichever domain, passed. -/
def Vouched (mb : MailboxConfig) : Prop :=
  (∃ pattern ∈ mb.effectiveTrustedSenders config,
      e.globMatch pattern (extractEmailForMatch e (displayFirst message.from_)) = true) ∧
    ∃ o, o ∈ passedSignatures a.auth

/-- The stored word is `"true"` exactly for a vouched message to a `verified` mailbox. -/
theorem trusted_iff :
    (inboundMeta e config rcpt mailbox raw message a).trusted = "true".toList ↔
      ∃ mb, config.mailboxes.lookup mailbox = some mb ∧
        mb.effectiveTrust config = "verified".toList ∧ Vouched e config message a mb := by
  show (inboundTrust e config mailbox (verifyAuth a.auth) (displayFirst message.from_)).asStr =
    "true".toList ↔ _
  rw [asStr_eq_true_iff]
  unfold inboundTrust Vouched
  cases config.mailboxes.lookup mailbox with
  | none => simp
  | some mb =>
      dsimp only
      rw [evaluateTrust_eq_true_iff, dkim_verifyAuth_iff]
      simp [isSenderInTrustedSenders]

/-- **Trust of a stored message.**  The stored word is `"true"` exactly when the mailbox is
`verified`, the displayed sender is allowlisted and some signature passed; and a hook runs exactly
when its mailbox is no catchall and it asks for untrusted mail or the same holds. -/
theorem inbound_trust_iff :
    ((inboundMeta e config rcpt mailbox raw message a).trusted = "true".toList ↔
      ∃ mb, config.mailboxes.lookup mailbox = some mb ∧
        mb.effectiveTrust config = "verified".toList ∧ Vouched e config message a mb) ∧
    ∀ hook, hook ∈ firedHooks config mailbox (inboundMeta e config rcpt mailbox raw message a) ↔
      ∃ mb, config.mailboxes.lookup mailbox = some mb ∧
        (hook ∈ mb.onReceiveHooks ∧ mb.isCatchall config = false) ∧
        (hook.fireOnUntrusted = true ∨
          mb.effectiveTrust config = "verified".toList ∧ Vouched e config message a mb) := by
  have htrusted := trusted_iff e config rcpt mailbox raw message a
  refine ⟨htrusted, fun hook => ?_⟩
  unfold firedHooks
  cases hlookup : config.mailboxes.lookup mailbox with
  | none => simp
  | some mb =>
      dsimp only
      rw [mem_executeOnReceive_iff, htrusted, hlookup]
      simp

end Inbound

/-! ## Alignment -/

/-- The domain of an address: the text behind its last `@`. -/
def domainOf (addr : Str) : Str :=
  match rsplitOnce '@' addr with
  | some (_, domain) => domain
  | none => []

/-- A domain is equal to or a parent of another one. -/
def CoversDomain (parent domain : Str) : Prop :=
  parent = domain ∨ ('.' :: parent) <:+ domain

instance (parent domain : Str) : Decidable (CoversDomain parent domain) :=
  inferInstanceAs (Decidable (_ ∨ _))

/-- The comparison of senders on plain lower-case texts. -/
def plainMatch : SenderMatch where
  toLowercase := toAsciiLowercase
  globMatch := fun pattern text => pattern == text

/-- A hook that runs on trusted mail only. -/
def gatedHook : Hook where
  name := some "notify".toList
  event := .onReceive
  type := "cmd".toList
  cmd := ["/bin/true".toList]
  fireOnUntrusted := false
  timeoutSecs := 60

/-- A mailbox that trusts one sender. -/
def verifiedMailbox : MailboxConfig where
  address := "b@example.org".toList
  owner := "bob".toList
  hooks := [gatedHook]
  trust := some "verified".toList
  trustedSenders := some ["boss@corp.example".toList]
  allowRootCatchall := false

/-- A configuration with that mailbox. -/
def verifiedConfig : Config where
  domain := "example.org".toList
  dataDir := "/var/lib/aimx".toList
  dkimSelector := "aimx".toList
  trust := "none".toList
  trustedSenders := []
  mailboxes := AList.singleton "b".toList verifiedMailbox
  verifyHost := none
  enableIpv6 := false
  signature := none
  upgrade := none

/-- A message that claims to come from the trusted sender. -/
def forgedMessage : Message where
  from_ := some [{ name := none, address := some "boss@corp.example".toList }]
  to_ := none
  cc := none
  replyTo := none
  subject := some "pay".toList
  date := none
  messageId := some "m1@attacker.example".toList
  inReplyTo := none
  references := none
  listId := none
  autoSubmitted := none
  body := "now".toList

/-- Its only signature passes, for the attacker's own domain. -/
def forgedArrival : Arrival where
  now := "2025-01-01T00:00:01+00:00".toList
  id := "2025-01-01-000000-pay".toList
  threadId := "0123456789abcdef".toList
  receivedFromIp := none
  attachments := []
  auth := some { dkim := some [{ domain := "attacker.example".toList, result := .pass }],
                 spf := "none".toList, dmarc := "fail".toList }

/-- The record that the message is stored with. -/
def forgedMeta : InboundFrontmatter :=
  inboundMeta plainMatch verifiedConfig "b@example.org".toList "b".toList [] forgedMessage
    forgedArrival

/-- A forged sender is trusted and runs the gated hook, although no passing signature covers the
domain of the sender. -/
theorem foreignSignature_trusted :
    forgedMeta.trusted = "true".toList ∧
      firedHooks verifiedConfig "b".toList forgedMeta = [gatedHook] ∧
      gatedHook.fireOnUntrusted = false ∧
      extractEmailForMatch plainMatch forgedMeta.from_ = "boss@corp.example".toList ∧
      ¬ ∃ o ∈ passedSignatures forgedArrival.auth,
        CoversDomain o.domain (domainOf (extractEmailForMatch plainMatch forgedMeta.from_)) := by
  decide +kernel

end Ingest
end Aimx
