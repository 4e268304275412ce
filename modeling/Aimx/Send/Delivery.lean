import Aimx.Hook.Spawn
import Aimx.Ingest.Store
import Aimx.Ingest.Thread
import Aimx.Send.Transport

/-!
# What a SEND request leaves behind

Behind the transport `handle_send_with_signer` stores a copy of the message in the sent directory of the
sender's mailbox and runs the hooks of that mailbox.  The TOML library, the digest and the clock are
parameters, and so is which call of `persist_sent_file` to the file system fails.

* `persistSentFile`, `fireAfterSendHooks` — the functions of the source;
* `runSend` — a whole request with the hosts it tried, the sent directories and the hooks it ran;
* `runSend_response` — its answer is that of `handleSend`;
* `Untouched`, `Keeps`, `Attempted` — what a request may leave behind;
* `runSend_truthful` — every request leaves that.
-/

namespace Aimx
namespace Send

open Text Daemon Ingest

/-! ## The record of a sent message -/

/-- `DeliveryStatus`. -/
inductive DeliveryStatus
  | delivered
  | deferred
  | failed
  | pending
  deriving DecidableEq

/-- `DeliveryStatus::as_str`, as it is serialized. -/
def DeliveryStatus.asStr : DeliveryStatus → Str
  | .delivered => "delivered".toList
  | .deferred => "deferred".toList
  | .failed => "failed".toList
  | .pending => "pending".toList

/-- The front matter of a sent message. -/
structure OutboundFrontmatter where
  id : Str
  messageId : Str
  threadId : Str
  from_ : Str
  to_ : Str
  cc : Option Str
  replyTo : Option Str
  deliveredTo : Str
  subject : Str
  date : Str
  receivedAt : Str
  receivedFromIp : Option Str
  sizeBytes : Nat
  attachments : List AttachmentMeta
  inReplyTo : Option Str
  references : Option Str
  listId : Option Str
  autoSubmitted : Option Str
  dkim : Str
  spf : Str
  dmarc : Str
  trusted : Str
  mailbox : Str
  read : Bool
  labels : List Str
  outbound : Bool
  outboundFormat : Str
  deliveryStatus : DeliveryStatus
  bcc : Option (List Str)
  deliveredAt : Option Str
  deliveryDetails : Option Str
  deriving DecidableEq

/-- `format_outbound_frontmatter`, over the serializer of the TOML library. -/
def formatOutboundFrontmatter (toml : OutboundFrontmatter → Str) (m : OutboundFrontmatter)
    (body : Str) : Str :=
  "+++\n".toList ++ toml m ++ "+++\n\n".toList ++ withFinalNewline body

/-- The calls of `persist_sent_file` to the file system that fail: the creation of the directories and of
the file, and the write with the number of bytes that got through. -/
structure PersistFaults where
  sentDir : Bool
  parentDir : Bool
  createNew : Bool
  write : Option Nat
  deriving DecidableEq

/-- No call fails. -/
def PersistFaults.none : PersistFaults := ⟨false, false, false, .none⟩

/-- What one request takes from its surroundings: that of the handler with its data directory, the mail
exchangers, the clock, the sent directories of the mailboxes and the faults of the file system. -/
structure DeliveryEnv where
  handler : SendEnv
  dataDir : Str
  net : MxNet
  unicode : Unicode
  sha256 : Bytes → Bytes
  toml : OutboundFrontmatter → Str
  timestamp : Timestamp
  now : Str
  deliveredAt : Str
  sent : Str → MailDir
  faults : PersistFaults

/-- The surroundings of the handler, with the transport of the daemon. -/
def DeliveryEnv.sendEnv (env : DeliveryEnv) : SendEnv :=
  { env.handler with transport := fun sender recipient _ => (lettreSend env.net sender recipient).result }

/-- The optional field names of the request. -/
def subjectName : Str := "Subject".toList
def inReplyToName : Str := "In-Reply-To".toList
def referencesName : Str := "References".toList
def dateName : Str := "Date".toList

/-- The `outbound_format` of a request. -/
def outboundFormat (req : SendRequest) : Str :=
  if req.textOnly then "text".toList
  else if req.htmlBody.isSome then "html".toList
  else "markdown".toList

/-- The subject of a request, or the empty one. -/
def sentSubject (req : SendRequest) : Str := (scanHeaders req.body subjectName).getD []

/-- The record that `persist_sent_file` makes of an attempt. -/
def sentRecord (env : DeliveryEnv) (req : SendRequest) (p : Prepared) (signed : Bytes)
    (status : DeliveryStatus) (deliveredAt details : Option Str) (id : Str) : OutboundFrontmatter where
  id := id
  messageId := p.messageId
  threadId := computeThreadId env.sha256
    ⟨p.messageId, scanHeaders req.body inReplyToName, scanHeaders req.body referencesName⟩
  from_ := p.fromHeader
  to_ := p.toHeader
  cc := none
  replyTo := none
  deliveredTo := p.toHeader
  subject := sentSubject req
  date := (scanHeaders req.body dateName).getD env.now
  receivedAt := []
  receivedFromIp := none
  sizeBytes := signed.length
  attachments := []
  inReplyTo := scanHeaders req.body inReplyToName
  references := scanHeaders req.body referencesName
  listId := none
  autoSubmitted := none
  dkim := "pass".toList
  spf := "none".toList
  dmarc := "none".toList
  trusted := "none".toList
  mailbox := p.fromMailbox
  read := false
  labels := []
  outbound := true
  outboundFormat := outboundFormat req
  deliveryStatus := status
  bcc := none
  deliveredAt := deliveredAt
  deliveryDetails := details

/-- The file of a record. -/
def sentContent (env : DeliveryEnv) (signed : Bytes) (record : OutboundFrontmatter) : Bytes :=
  utf8 (formatOutboundFrontmatter env.toml record (fromUtf8Lossy signed))

/-- `persist_sent_file`: the sent directory afterwards, and the name of the file where it is complete.
The owner and the mode of the file are not part of the model. -/
def persistSentFile (env : DeliveryEnv) (req : SendRequest) (p : Prepared) (signed : Bytes)
    (status : DeliveryStatus) (deliveredAt details : Option Str) : MailDir × Option Str :=
  let sentDir := env.sent p.fromMailbox
  if env.faults.sentDir then (sentDir, none)
  else
    match allocateFilename sentDir env.timestamp (slugify env.unicode (sentSubject req)) false with
    | none => (sentDir, none)
    | some mdPath =>
        if env.faults.parentDir then (sentDir, none)
        else if env.faults.createNew then (sentDir, none)
        else
          let record := sentRecord env req p signed status deliveredAt details mdPath.id
          let content := sentContent env signed record
          match env.faults.write with
          | some written => (sentDir ++ [(mdName mdPath.stem, .file (content.take written))], none)
          | none => (sentDir ++ [(mdName mdPath.stem, .file content)], some (mdName mdPath.stem))

/-! ## The hooks -/

/-- `fire_after_send_hooks`: the hooks that are run, in their order, and what they are told. -/
def fireAfterSendHooks (env : DeliveryEnv) (config : Config) (req : SendRequest) (p : Prepared)
    (persisted : Option Str) (status : Sandbox.SendStatus) : List (Hook × Sandbox.AfterSendContext) :=
  match config.mailboxes.lookup p.fromMailbox with
  | none => []
  | some mailboxConfig =>
      if mailboxConfig.afterSendHooks = [] then []
      else
        let ctx : Sandbox.AfterSendContext :=
          { mailbox := p.fromMailbox
            from_ := p.fromHeader
            to_ := p.toHeader
            subject := sentSubject req
            filepath := match persisted with
              | some name => joinPath (joinPath (joinPath env.dataDir "sent".toList) p.fromMailbox) name
              | none => []
            messageId := p.messageId
            sendStatus := status }
        (Sandbox.executeAfterSend config mailboxConfig).map fun hook => (hook, ctx)

/-! ## A whole request -/

/-- A run of the handler: the hosts that were tried, the sent directories afterwards, the hooks that were
run, and the answer. -/
structure DeliveryRun where
  tried : List Str
  sent : Str → MailDir
  fired : List (Hook × Sandbox.AfterSendContext)
  response : SendResponse

/-- The part of `handle_send_with_signer` behind the transport. -/
def concluded (env : DeliveryEnv) (config : Config) (req : SendRequest) (p : Prepared) (signed : Bytes)
    (run : MxRun) : DeliveryRun :=
  match run.result with
  | .ok _ =>
      let (dir, path) := persistSentFile env req p signed .delivered (some env.deliveredAt) none
      ⟨run.tried, Function.update env.sent p.fromMailbox dir,
        fireAfterSendHooks env config req p path .delivered, .ok p.messageId⟩
  | .error (.temp msg) =>
      ⟨run.tried, env.sent, fireAfterSendHooks env config req p none .deferred, .err ⟨.temp, msg⟩⟩
  | .error (.permanent msg) =>
      let (dir, path) := persistSentFile env req p signed .failed none (some msg)
      ⟨run.tried, Function.update env.sent p.fromMailbox dir,
        fireAfterSendHooks env config req p path .failed, .err ⟨.delivery, msg⟩⟩

/-- `handle_send_with_signer` with the transport of the daemon. -/
def runSend (env : DeliveryEnv) (config : Config) (req : SendRequest) (caller : Caller) : DeliveryRun :=
  match prepareSend env.handler config req caller with
  | .error reject => ⟨[], env.sent, [], .err reject⟩
  | .ok p =>
      match env.handler.signer p.wire config.domain with
      | .error e => ⟨[], env.sent, [], .err ⟨.sign, e⟩⟩
      | .ok signed => concluded env config req p signed (lettreSend env.net p.fromHeader p.recipient)

/-! ## What a request may leave behind -/

section Law

variable {env : DeliveryEnv} {config : Config} {req : SendRequest} {caller : Caller} {p : Prepared}
  {signed : Bytes} {status : DeliveryStatus} {deliveredAt details : Option Str}

/-- A request that ends before the transport. -/
structure Untouched (env : DeliveryEnv) (run : DeliveryRun) : Prop where
  tried : run.tried = []
  sent : run.sent = env.sent
  fired : run.fired = []
  response : ∃ reject, run.response = .err reject ∧ reject.code ≠ .temp ∧ reject.code ≠ .delivery

/-- The sender's mailbox has one more record, of this status and under a free name, and the hooks are told
its place. -/
def Stores (env : DeliveryEnv) (config : Config) (req : SendRequest) (p : Prepared) (signed : Bytes)
    (status : DeliveryStatus) (hookStatus : Sandbox.SendStatus) (run : DeliveryRun) : Prop :=
  ∃ stem deliveredAt details, IsStem stem ∧ (env.sent p.fromMailbox).has (mdName stem) = false ∧
    run.sent = Function.update env.sent p.fromMailbox (env.sent p.fromMailbox ++
      [(mdName stem, .file (sentContent env signed
        (sentRecord env req p signed status deliveredAt details stem)))]) ∧
    run.fired = fireAfterSendHooks env config req p (some (mdName stem)) hookStatus

/-- No record is stored: nothing changes, or there is a file of which the end is missing.  The hooks are
told no place. -/
def StoresNothing (env : DeliveryEnv) (config : Config) (req : SendRequest) (p : Prepared) (signed : Bytes)
    (status : DeliveryStatus) (hookStatus : Sandbox.SendStatus) (run : DeliveryRun) : Prop :=
  (run.sent = env.sent ∨ ∃ stem deliveredAt details written,
    (env.sent p.fromMailbox).has (mdName stem) = false ∧
    run.sent = Function.update env.sent p.fromMailbox (env.sent p.fromMailbox ++
      [(mdName stem, .file ((sentContent env signed
        (sentRecord env req p signed status deliveredAt details stem)).take written))])) ∧
  run.fired = fireAfterSendHooks env config req p none hookStatus

/-- One record of this status is stored, unless a call to the file system fails. -/
structure Keeps (env : DeliveryEnv) (config : Config) (req : SendRequest) (p : Prepared) (signed : Bytes)
    (status : DeliveryStatus) (hookStatus : Sandbox.SendStatus) (run : DeliveryRun) : Prop where
  stored : env.faults = .none → Stores env config req p signed status hookStatus run
  failed : env.faults ≠ .none → StoresNothing env config req p signed status hookStatus run

/-- What a transport without a list of mail exchangers leaves: an error of its own. -/
structure Unresolved (env : DeliveryEnv) (config : Config) (req : SendRequest) (p : Prepared)
    (signed : Bytes) (error : TransportError) (run : DeliveryRun) : Prop where
  tried : run.tried = []
  temp : ∀ msg, error = .temp msg → run.response = .err ⟨.temp, msg⟩ ∧ run.sent = env.sent ∧
    run.fired = fireAfterSendHooks env config req p none .deferred
  permanent : ∀ msg, error = .permanent msg → run.response = .err ⟨.delivery, msg⟩ ∧
    Keeps env config req p signed .failed .failed run

/-- What an attempt at a list of mail exchangers leaves. -/
structure Attempted (env : DeliveryEnv) (config : Config) (req : SendRequest) (p : Prepared)
    (signed : Bytes) (hosts : List Str) (run : DeliveryRun) : Prop where
  /-- The hosts are tried in order, and none after the first that accepts. -/
  triedFirst : ∀ i, AcceptsAt env.net.deliver hosts i → (∀ j < i, ¬ AcceptsAt env.net.deliver hosts j) →
    run.tried = hosts.take (i + 1)
  triedAll : (∀ i, ¬ AcceptsAt env.net.deliver hosts i) → run.tried = hosts
  ok : (∃ id, run.response = .ok id) ↔ ∃ i, AcceptsAt env.net.deliver hosts i
  temp : (∃ msg, run.response = .err ⟨.temp, msg⟩) ↔
    (∀ i, ¬ AcceptsAt env.net.deliver hosts i) ∧ ∀ i, ¬ RefusesAt env.net.deliver hosts i
  delivery : (∃ msg, run.response = .err ⟨.delivery, msg⟩) ↔
    (∀ i, ¬ AcceptsAt env.net.deliver hosts i) ∧ ∃ i, RefusesAt env.net.deliver hosts i
  onOk : ∀ id, run.response = .ok id → id = p.messageId ∧
    Keeps env config req p signed .delivered .delivered run
  onTemp : ∀ msg, run.response = .err ⟨.temp, msg⟩ → run.sent = env.sent ∧
    run.fired = fireAfterSendHooks env config req p none .deferred
  onDelivery : ∀ msg, run.response = .err ⟨.delivery, msg⟩ →
    Keeps env config req p signed .failed .failed run

/-- What a request may leave behind. -/
def Truthful (env : DeliveryEnv) (config : Config) (req : SendRequest) (caller : Caller)
    (run : DeliveryRun) : Prop :=
  match prepareSend env.handler config req caller with
  | .error _ => Untouched env run
  | .ok p =>
      match env.handler.signer p.wire config.domain with
      | .error _ => Untouched env run
      | .ok signed =>
          match mxHosts env.net p.fromHeader p.recipient with
          | .error error => Unresolved env config req p signed error run
          | .ok (_, hosts) => Attempted env config req p signed hosts run

/-! ## Storing -/

/-- The name of a sent file is free. -/
theorem exists_allocated_flat (u : Unicode) (d : MailDir) (ts : Timestamp) (subject : Str) :
    ∃ stem, IsStem stem ∧ d.has (mdName stem) = false ∧ (MdPath.flat stem).id = stem ∧
      allocateFilename d ts (slugify u subject) false = some (.flat stem) := by
  have hslug := isStem_slugify u subject
  obtain ⟨path, hpath⟩ := allocateFilename_isSome d ts hslug false
  obtain ⟨k, rfl, hfree, -⟩ := allocateFilename_eq_some hpath
  have hstem : IsStem (numberedStem (baseStem ts (slugify u subject)) k) := isStem_numberedStem hslug k
  have hid : (MdPath.flat (numberedStem (baseStem ts (slugify u subject)) k)).id = _ := MdPath.id_eq hstem
  exact ⟨_, hstem, (Bool.or_eq_false_iff.mp hfree).1, hid, hpath⟩

section Persist

variable (req : SendRequest) (p : Prepared) (signed : Bytes) (status : DeliveryStatus)
  (deliveredAt details : Option Str)

/-- Without a fault the record is stored under a name that was free. -/
theorem persistSentFile_none (hfaults : env.faults = .none) : ∃ stem, IsStem stem ∧
    (env.sent p.fromMailbox).has (mdName stem) = false ∧
    persistSentFile env req p signed status deliveredAt details =
      (env.sent p.fromMailbox ++ [(mdName stem, .file (sentContent env signed
        (sentRecord env req p signed status deliveredAt details stem)))], some (mdName stem)) := by
  obtain ⟨stem, hstem, hfree, hid, hpath⟩ := exists_allocated_flat env.unicode (env.sent p.fromMailbox)
    env.timestamp (sentSubject req)
  refine ⟨stem, hstem, hfree, ?_⟩
  unfold persistSentFile
  dsimp only
  rw [hfaults, hpath]
  dsimp only [PersistFaults.none]
  rw [hid]
  rfl

/-- With a fault no complete record is stored. -/
theorem persistSentFile_faulty (hfaults : env.faults ≠ .none) :
    (persistSentFile env req p signed status deliveredAt details).2 = none ∧
    ((persistSentFile env req p signed status deliveredAt details).1 = env.sent p.fromMailbox ∨
      ∃ stem written, (env.sent p.fromMailbox).has (mdName stem) = false ∧
        (persistSentFile env req p signed status deliveredAt details).1 =
          env.sent p.fromMailbox ++ [(mdName stem, .file ((sentContent env signed
            (sentRecord env req p signed status deliveredAt details stem)).take written))]) := by
  obtain ⟨stem, -, hfree, hid, hpath⟩ := exists_allocated_flat env.unicode (env.sent p.fromMailbox)
    env.timestamp (sentSubject req)
  unfold persistSentFile
  dsimp only
  rw [hpath]
  dsimp only
  rw [hid]
  split
  next => exact ⟨rfl, .inl rfl⟩
  next hsent =>
      split
      next => exact ⟨rfl, .inl rfl⟩
      next hparent =>
          split
          next => exact ⟨rfl, .inl rfl⟩
          next hcreate =>
              cases hwrite : env.faults.write with
              | some written => exact ⟨rfl, .inr ⟨stem, written, hfree, rfl⟩⟩
              | none =>
                  rw [Bool.not_eq_true] at hsent hparent hcreate
                  refine absurd ?_ hfaults
                  calc env.faults = ⟨env.faults.sentDir, env.faults.parentDir, env.faults.createNew,
                        env.faults.write⟩ := rfl
                    _ = .none := by rw [hsent, hparent, hcreate, hwrite]; rfl

end Persist

/-- What is stored after an answer with a record. -/
theorem keeps_persistSentFile {hookStatus : Sandbox.SendStatus} {tried : List Str} {response : SendResponse} :
    Keeps env config req p signed status hookStatus
      ⟨tried, Function.update env.sent p.fromMailbox
          (persistSentFile env req p signed status deliveredAt details).1,
        fireAfterSendHooks env config req p
          (persistSentFile env req p signed status deliveredAt details).2 hookStatus, response⟩ where
  stored := by
    intro hfaults
    obtain ⟨stem, hstem, hfree, hstored⟩ :=
      persistSentFile_none req p signed status deliveredAt details hfaults
    refine ⟨stem, deliveredAt, details, hstem, hfree, ?_, ?_⟩ <;> rw [hstored]
  failed := by
    intro hfaults
    obtain ⟨hpath, hdir⟩ :=
      persistSentFile_faulty req p signed status deliveredAt details hfaults
    refine ⟨?_, by rw [hpath]⟩
    rcases hdir with hdir | ⟨stem, written, hfree, hdir⟩
    · exact .inl (by rw [hdir, Function.update_eq_self])
    · exact .inr ⟨stem, deliveredAt, details, written, hfree, by rw [hdir]⟩

/-! ## Every request -/

/-- The handler refuses a caller with one code. -/
theorem enforceMailboxOwnerOrRoot_code {name : Str} {mb : MailboxConfig} {reject : Reject}
    (h : enforceMailboxOwnerOrRoot caller name mb = .error reject) : reject.code = .eaccess := by
  unfold enforceMailboxOwnerOrRoot requireMailboxOwnerOrRoot at h
  by_cases hroot : caller.isRoot = true
  · rw [if_pos hroot] at h
    cases h
  · rw [if_neg hroot] at h
    cases huser : caller.username with
    | none =>
        rw [huser] at h
        cases h
        rfl
    | some callerName =>
        rw [huser] at h
        dsimp only at h
        by_cases howner : callerName = mb.owner
        · rw [if_pos howner] at h
          cases h
        · rw [if_neg howner] at h
          cases h
          rfl

theorem not_transport (code : ErrCode) (reason : Str) (h : code ≠ .temp ∧ code ≠ .delivery) :
    (Reject.mk code reason).code ≠ .temp ∧ (Reject.mk code reason).code ≠ .delivery := h

/-- No refusal of a sender has a code of the transport. -/
theorem authorizeSender_code {body : Bytes} {reject : Reject}
    (h : authorizeSender config body caller = .error reject) :
    reject.code ≠ .temp ∧ reject.code ≠ .delivery := by
  unfold authorizeSender at h
  split at h
  next => cases h; exact not_transport .malformed _ (by decide)
  next =>
      split at h
      next => cases h; exact not_transport .malformed _ (by decide)
      next =>
          split at h
          next => cases h; exact not_transport .malformed _ (by decide)
          next =>
              split at h
              next => cases h; exact not_transport .domain _ (by decide)
              next =>
                  split at h
                  next => cases h; exact not_transport .mailbox _ (by decide)
                  next =>
                      split at h
                      next => cases h; exact not_transport .mailbox _ (by decide)
                      next =>
                          split at h
                          next hrefused =>
                              cases h
                              rw [enforceMailboxOwnerOrRoot_code hrefused]
                              exact ⟨by decide, by decide⟩
                          next => cases h

/-- No refusal of a request has a code of the transport. -/
theorem prepareSend_code {env : SendEnv} {reject : Reject}
    (h : prepareSend env config req caller = .error reject) :
    reject.code ≠ .temp ∧ reject.code ≠ .delivery := by
  unfold prepareSend at h
  split at h
  next hrefused =>
      cases h
      exact authorizeSender_code hrefused
  next =>
      split at h
      next => cases h; exact not_transport .malformed _ (by decide)
      next =>
          split at h
          next => cases h; exact not_transport .malformed _ (by decide)
          next =>
              dsimp only at h
              split at h
              next e he =>
                  cases h
                  dsimp only
                  split <;> exact ⟨by decide, by decide⟩
              next => cases h

/-- The answer is the one that the handler gives over this transport. -/
theorem runSend_response (env : DeliveryEnv) (config : Config) (req : SendRequest) (caller : Caller) :
    (runSend env config req caller).response = (handleSend env.sendEnv config req caller).response := by
  have hprepare : prepareSend env.sendEnv config req caller = prepareSend env.handler config req caller :=
    rfl
  unfold runSend handleSend
  rw [hprepare]
  cases prepareSend env.handler config req caller with
  | error reject => rfl
  | ok p =>
      dsimp only [DeliveryEnv.sendEnv]
      cases env.handler.signer p.wire config.domain with
      | error e => rfl
      | ok signed =>
          dsimp only [concluded]
          cases (lettreSend env.net p.fromHeader p.recipient).result with
          | ok server => rfl
          | error error => cases error <;> rfl

/-! ## Behind the transport -/

section Concluded

variable {run : MxRun} {hosts : List Str}

section Result

variable (env config req p signed)

/-- The transport succeeded. -/
theorem concluded_ok (h : ∃ server, run.result = .ok server) :
    (concluded env config req p signed run).response = .ok p.messageId ∧
      Keeps env config req p signed .delivered .delivered (concluded env config req p signed run) := by
  obtain ⟨server, hresult⟩ := h
  unfold concluded
  rw [hresult]
  exact ⟨rfl, keeps_persistSentFile⟩

/-- The transport failed for now. -/
theorem concluded_temp {msg : Str} (h : run.result = .error (.temp msg)) :
    concluded env config req p signed run =
      ⟨run.tried, env.sent, fireAfterSendHooks env config req p none .deferred, .err ⟨.temp, msg⟩⟩ := by
  unfold concluded
  rw [h]

/-- The transport failed for good. -/
theorem concluded_permanent {msg : Str} (h : run.result = .error (.permanent msg)) :
    (concluded env config req p signed run).response = .err ⟨.delivery, msg⟩ ∧
      Keeps env config req p signed .failed .failed (concluded env config req p signed run) := by
  unfold concluded
  rw [h]
  exact ⟨rfl, keeps_persistSentFile⟩

end Result

@[simp] theorem concluded_tried : (concluded env config req p signed run).tried = run.tried := by
  unfold concluded
  split <;> rfl

/-- The first host that accepts is the only one that is the first. -/
theorem EndsAt.unique {deliver : Nat → Str → Except TransportError Str} {i j : Nat}
    (h : EndsAt deliver hosts run i) (hj : AcceptsAt deliver hosts j)
    (hfirst : ∀ k < j, ¬ AcceptsAt deliver hosts k) : j = i := by
  rcases Nat.lt_trichotomy j i with hlt | heq | hgt
  · exact absurd hj (h.first j hlt)
  · exact heq
  · exact absurd h.accepts (hfirst i hgt)

/-- An attempt at which a host accepts. -/
theorem attempted_of_endsAt {i : Nat} (h : EndsAt env.net.deliver hosts run i) :
    Attempted env config req p signed hosts (concluded env config req p signed run) := by
  obtain ⟨hresponse, hkeeps⟩ := concluded_ok env config req p signed h.result
  have haccepts : ∃ i, AcceptsAt env.net.deliver hosts i := ⟨i, h.accepts⟩
  constructor
  case triedFirst =>
    intro j hj hfirst
    rw [h.unique hj hfirst, concluded_tried, h.tried]
  case triedAll => exact fun hnone => absurd h.accepts (hnone i)
  case ok => exact ⟨fun _ => haccepts, fun _ => ⟨p.messageId, hresponse⟩⟩
  case temp =>
    refine ⟨fun ⟨msg, hmsg⟩ => ?_, fun ⟨hnone, _⟩ => absurd h.accepts (hnone i)⟩
    rw [hresponse] at hmsg
    cases hmsg
  case delivery =>
    refine ⟨fun ⟨msg, hmsg⟩ => ?_, fun ⟨hnone, _⟩ => absurd h.accepts (hnone i)⟩
    rw [hresponse] at hmsg
    cases hmsg
  case onOk =>
    intro id hid
    rw [hresponse] at hid
    cases hid
    exact ⟨rfl, hkeeps⟩
  case onTemp =>
    intro msg hmsg
    rw [hresponse] at hmsg
    cases hmsg
  case onDelivery =>
    intro msg hmsg
    rw [hresponse] at hmsg
    cases hmsg

/-- An attempt at which no host accepts. -/
theorem attempted_of_exhausts (h : Exhausts env.net.deliver hosts run) :
    Attempted env config req p signed hosts (concluded env config req p signed run) := by
  have hnot : ¬ ∃ i, AcceptsAt env.net.deliver hosts i := fun ⟨i, hi⟩ => h.none i hi
  rcases h.result with ⟨hrefuses, e, hresult⟩ | ⟨hnever, e, hresult⟩
  · obtain ⟨hresponse, hkeeps⟩ := concluded_permanent env config req p signed hresult
    constructor
    case triedFirst => exact fun j hj => absurd hj (h.none j)
    case triedAll =>
      intro _
      rw [concluded_tried, h.tried]
    case ok =>
      refine ⟨fun ⟨id, hid⟩ => ?_, fun haccepts => absurd haccepts hnot⟩
      rw [hresponse] at hid
      cases hid
    case temp =>
      refine ⟨fun ⟨msg, hmsg⟩ => ?_, fun ⟨_, hnever⟩ => ?_⟩
      · rw [hresponse] at hmsg
        cases hmsg
      · obtain ⟨i, hi⟩ := hrefuses
        exact absurd hi (hnever i)
    case delivery => exact ⟨fun _ => ⟨h.none, hrefuses⟩, fun _ => ⟨e, hresponse⟩⟩
    case onOk =>
      intro id hid
      rw [hresponse] at hid
      cases hid
    case onTemp =>
      intro msg hmsg
      rw [hresponse] at hmsg
      cases hmsg
    case onDelivery => exact fun _ _ => hkeeps
  · have hrun := concluded_temp env config req p signed hresult
    constructor
    case triedFirst => exact fun j hj => absurd hj (h.none j)
    case triedAll =>
      intro _
      rw [concluded_tried, h.tried]
    case ok =>
      refine ⟨fun ⟨id, hid⟩ => ?_, fun haccepts => absurd haccepts hnot⟩
      rw [hrun] at hid
      cases hid
    case temp =>
      refine ⟨fun _ => ⟨h.none, hnever⟩, fun _ => ⟨e, ?_⟩⟩
      rw [hrun]
    case delivery =>
      refine ⟨fun ⟨msg, hmsg⟩ => ?_, fun ⟨_, i, hi⟩ => absurd hi (hnever i)⟩
      rw [hrun] at hmsg
      cases hmsg
    case onOk =>
      intro id hid
      rw [hrun] at hid
      cases hid
    case onTemp =>
      intro _ _
      rw [hrun]
      exact ⟨rfl, rfl⟩
    case onDelivery =>
      intro msg hmsg
      rw [hrun] at hmsg
      cases hmsg

end Concluded

/-- **Truthful delivery.**  A request that is refused before the transport has contacted no host, stored
nothing and run no hook.  Otherwise the exchangers are tried in order, none after the first that accepts;
the answer is OK exactly when one accepts, TEMP exactly when all fail and none for good, and DELIVERY
exactly when all fail and one for good.  OK and DELIVERY come with one record, of status `delivered` or
`failed`, unless a call of `persist_sent_file` fails, and then with none; TEMP comes with none. -/
theorem runSend_truthful (env : DeliveryEnv) (config : Config) (req : SendRequest) (caller : Caller) :
    Truthful env config req caller (runSend env config req caller) := by
  unfold Truthful runSend
  cases hp : prepareSend env.handler config req caller with
  | error reject => exact ⟨rfl, rfl, rfl, reject, rfl, prepareSend_code hp⟩
  | ok p =>
      dsimp only
      cases env.handler.signer p.wire config.domain with
      | error e => exact ⟨rfl, rfl, rfl, _, rfl, not_transport .sign e (by decide)⟩
      | ok signed =>
          dsimp only
          unfold lettreSend
          cases mxHosts env.net p.fromHeader p.recipient with
          | error error =>
              refine ⟨concluded_tried, ?_, ?_⟩
              · rintro msg rfl
                exact ⟨rfl, rfl, rfl⟩
              · rintro msg rfl
                exact concluded_permanent env config req p signed rfl
          | ok exchangers =>
              obtain ⟨domain, hosts⟩ := exchangers
              dsimp only
              rcases deliverAcrossMx_ends domain hosts env.net.deliver with ⟨i, hends⟩ | hexhausts
              · exact attempted_of_endsAt hends
              · exact attempted_of_exhausts hexhausts

end Law

/-! ## A message that is sent and not recorded -/

/-- A network on which the one exchanger of a domain accepts everything. -/
def acceptingNet : MxNet where
  resolveMx := fun _ => .ok ["mx.example.net".toList]
  parseAddress := fun _ => .ok ()
  newEnvelope := fun _ _ => .ok ()
  deliver := fun _ host => .ok host

/-- Surroundings in which the sent directory cannot be created. -/
def noSentDirEnv : DeliveryEnv where
  handler := echoEnv
  dataDir := twoUserConfig.dataDir
  net := acceptingNet
  unicode := asciiUnicode
  sha256 := sampleSha256
  toml := fun _ => []
  timestamp := (sampleDelivery [] []).timestamp
  now := "2026-01-01T12:00:00+00:00".toList
  deliveredAt := "2026-01-01T12:00:01+00:00".toList
  sent := fun _ => []
  faults := { PersistFaults.none with sentDir := true }

/-- The exchanger accepts and the answer is OK, and there is no record. -/
theorem runSend_unrecorded : ∃ p domain hosts,
    prepareSend noSentDirEnv.handler twoUserConfig crlfRequest bob = .ok p ∧
    mxHosts noSentDirEnv.net p.fromHeader p.recipient = .ok (domain, hosts) ∧
    AcceptsAt noSentDirEnv.net.deliver hosts 0 ∧
    (runSend noSentDirEnv twoUserConfig crlfRequest bob).response = .ok p.messageId ∧
    (runSend noSentDirEnv twoUserConfig crlfRequest bob).sent = noSentDirEnv.sent := by
  obtain ⟨p, hp⟩ := exists_prepared echoEnv twoUserConfig crlfRequest bob (by decide +kernel)
  have haddr : (prepareSend echoEnv twoUserConfig crlfRequest bob).toOption.map
      (fun p => (p.fromHeader, p.recipient)) =
        some ("bob@example.org".toList, "x@example.net".toList) := by decide +kernel
  rw [hp] at haddr
  obtain ⟨hfrom, hrecipient⟩ := Prod.mk.inj (Option.some.inj haddr)
  have hhosts : mxHosts acceptingNet p.fromHeader p.recipient =
      .ok ("example.net".toList, ["mx.example.net".toList]) := by
    rw [hfrom, hrecipient]
    decide +kernel
  have hrun : runSend noSentDirEnv twoUserConfig crlfRequest bob =
      concluded noSentDirEnv twoUserConfig crlfRequest p p.wire
        (lettreSend acceptingNet p.fromHeader p.recipient) := by
    unfold runSend
    rw [show noSentDirEnv.handler = echoEnv from rfl, hp]
    rfl
  have hsent : lettreSend acceptingNet p.fromHeader p.recipient =
      ⟨["mx.example.net".toList], .ok "mx.example.net".toList⟩ := by
    unfold lettreSend
    rw [hhosts]
    rfl
  refine ⟨p, _, _, hp, hhosts, ⟨_, _, rfl, rfl⟩, ?_, ?_⟩
  · rw [hrun, hsent]
    rfl
  · rw [hrun, hsent]
    show Function.update noSentDirEnv.sent p.fromMailbox (noSentDirEnv.sent p.fromMailbox) = _
    exact Function.update_eq_self _ _

end Send
end Aimx
