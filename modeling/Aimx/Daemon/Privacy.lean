import Aimx.Daemon.Mark

/-!
# What replies tell about other users' mailboxes

Two configurations that differ only in a mailbox of somebody else, which one has and the other lacks,
and the replies that a user gets to requests that name this mailbox.

* `NamingRequest`, `NamingRequest.Names` — the requests and the mailbox they name;
* `OwnedBySomebodyElse`, `Without` — the caller and the two configurations;
* `hookDelete_hidden`, `mailboxDelete_hidden` — the two verbs whose replies are always the same;
* `reply_eq_iff` — exactly the requests whose replies are the same.
-/

namespace Aimx
namespace Daemon

open Text Protocol Send

/-! ## Requests and replies -/

/-- A request that names a mailbox, or a hook on one. -/
inductive NamingRequest
  | mark (req : MarkRequest)
  | hookCreate (req : HookCreateRequest)
  | hookDelete (req : HookDeleteRequest)
  | mailboxDelete (name : Str) (force : Bool)
  | send (req : SendRequest)

/-- A reply, in the shape of its verb. -/
inductive Reply
  | ack (response : AckResponse)
  | send (response : SendResponse)
  deriving DecidableEq

/-- What the replies depend on beside the request: the handlers' surroundings, those of MARK and SEND,
and the file-system calls that fail. -/
structure ReplyEnv where
  handlers : HandlerEnv
  mark : MarkEnv
  send : SendEnv
  faults : Faults

/-- The reply of the daemon to a request. -/
def reply (env : ReplyEnv) (world : World) (caller : Caller) : NamingRequest → Reply
  | .mark req => .ack (handleMark env.handlers env.mark world caller req).2
  | .hookCreate req => .ack (handle env.handlers env.faults world caller (.hookCreate req)).2
  | .hookDelete req => .ack (handle env.handlers env.faults world caller (.hookDelete req)).2
  | .mailboxDelete name force =>
      .ack (handle env.handlers env.faults world caller (.mailbox ⟨name, false, none, force⟩)).2
  | .send req => .send (handleSend env.send world.memory req caller).response

/-- The address in the `From` field of a message. -/
def senderAddress (body : Bytes) : Option Str :=
  (scanHeaders body fromName).bind extractBareAddress

/-- The mailbox that a message is sent from. -/
def senderMailbox (config : Config) (body : Bytes) : Option Str :=
  (senderAddress body).bind fun bareFrom => resolveConcreteMailbox config.mailboxes bareFrom

/-- The sender address is of the configured domain. -/
def SenderDomainMatches (config : Config) (body : Bytes) : Prop :=
  ∃ domain ∈ ((senderAddress body).bind (rsplitOnce '@')).map Prod.snd,
    eqIgnoreAsciiCase domain config.domain = true

/-- The request names the mailbox: by its name, by a hook on it, or by its address. -/
def NamingRequest.Names (env : ReplyEnv) (config : Config) (name : Str) : NamingRequest → Prop
  | .mark req => req.mailbox = name
  | .hookCreate req => req.mailbox = name
  | .hookDelete req => findHookOwner env.handlers config req.name = some name
  | .mailboxDelete n _ => n = name
  | .send req => senderMailbox config req.body = some name

/-- The mailbox belongs to another user: neither is its owner called like the caller, nor is the owner's
uid the caller's, nor is the caller root. -/
structure OwnedBySomebodyElse (users : UserDb) (caller : Caller) (mb : MailboxConfig) : Prop where
  nonRoot : caller.uid ≠ 0
  name : caller.passwdName ≠ some mb.owner
  uid : users.ownerUid mb ≠ .ok caller.uid

/-- `config'` is `config` without the mailbox. -/
structure Without (config config' : Config) (name : Str) (mb : MailboxConfig) : Prop where
  present : config.mailboxes.lookup name = some mb
  absent : config'.mailboxes.lookup name = none
  same : config.SameBut name config'

/-- The requests that are answered alike: a MARK with a malformed id, every deletion, and a message
whose sender is of another domain or resolves to a second mailbox of somebody else. -/
def NamingRequest.AnsweredAlike (config' : Config) (caller : Caller) : NamingRequest → Prop
  | .mark req => validateId req.id ≠ .ok ()
  | .hookCreate _ => False
  | .hookDelete _ => True
  | .mailboxDelete _ _ => True
  | .send req => SenderDomainMatches config' req.body →
      ∃ other mb', senderMailbox config' req.body = some other ∧
        config'.mailboxes.lookup other = some mb' ∧ ¬ caller.MayActFor mb'

section Privacy

variable {env : ReplyEnv} {config config' : Config} {disk : Disk} {caller : Caller} {name : Str}
  {mb : MailboxConfig}

/-- Nobody but the owner by name passes the check of the handlers. -/
theorem OwnedBySomebodyElse.not_mayActFor {users : UserDb}
    (h : OwnedBySomebodyElse users caller mb) : ¬ caller.MayActFor mb := by
  rintro (hroot | hname)
  · exact h.nonRoot (by simpa [Caller.isRoot] using hroot)
  · rw [Caller.username, if_neg h.nonRoot] at hname
    exact h.name hname

/-- The check of the handlers refuses in one way only. -/
theorem enforceMailboxOwnerOrRoot_of_not_mayActFor (h : ¬ caller.MayActFor mb) :
    enforceMailboxOwnerOrRoot caller name mb = .error ⟨.eaccess, notAuthorizedWireReason⟩ := by
  have hne : enforceMailboxOwnerOrRoot caller name mb ≠ .ok () :=
    fun hok => h (enforceMailboxOwnerOrRoot_eq_ok_iff.mp hok)
  unfold enforceMailboxOwnerOrRoot requireMailboxOwnerOrRoot at hne ⊢
  by_cases hroot : caller.isRoot = true
  · rw [if_pos hroot] at hne
    exact absurd rfl hne
  · rw [if_neg hroot] at hne ⊢
    cases huser : caller.username with
    | none => rfl
    | some callerName =>
        rw [huser] at hne
        dsimp only at hne ⊢
        by_cases howner : callerName = mb.owner
        · rw [if_pos howner] at hne
          exact absurd rfl hne
        · rw [if_neg howner]
          rfl

/-! ### The deletions -/

/-- A hook on the mailbox of somebody else is answered as one that does not exist. -/
theorem hookDeleteCheck_of_not_mayActFor {henv : HandlerEnv} {req : HookDeleteRequest}
    (hfind : findHookOwner henv config req.name = some name)
    (hmb : config.mailboxes.lookup name = some mb) (hact : ¬ caller.MayActFor mb) :
    hookDeleteCheck henv config req caller = .error ⟨.enoent, hookNotFound req.name⟩ := by
  unfold hookDeleteCheck
  rw [hfind]
  dsimp only
  rw [hmb]
  dsimp only
  rw [enforceMailboxOwnerOrRoot_of_not_mayActFor hact]

/-- Without the mailbox its hook is nowhere, since no other mailbox has a hook of this name. -/
theorem Without.findHookOwner_eq_none {henv : HandlerEnv} (h : Without config config' name mb)
    (hdistinct : config.HookNamesDistinct henv.sha256) {hookName : Str}
    (hfind : findHookOwner henv config hookName = some name) :
    findHookOwner henv config' hookName = none := by
  obtain ⟨⟨mailbox, hook⟩, hsome, rfl⟩ := Option.map_eq_some_iff.mp hfind
  have hmem := List.mem_of_find?_eq_some hsome
  have hname := List.find?_some hsome
  rw [beq_iff_eq] at hname
  rw [findHookOwner, Option.map_eq_none_iff, List.find?_eq_none]
  rintro ⟨mailbox', hook'⟩ hmem' hname'
  rw [beq_iff_eq] at hname'
  obtain ⟨mb', hlookup', hhook'⟩ := Config.mem_allHooks.mp hmem'
  have hne : mailbox' ≠ mailbox := by
    rintro rfl
    rw [h.absent] at hlookup'
    cases hlookup'
  have hother : (mailbox', hook') ∈ config.allHooks := by
    rw [h.same.mailboxes mailbox' hne] at hlookup'
    exact Config.mem_allHooks.mpr ⟨mb', hlookup', hhook'⟩
  have hsame := hdistinct.unique hother hmem (hname'.trans hname.symm)
  exact hne (congrArg Prod.fst hsame)

/-- The two replies to HOOK-DELETE are one. -/
theorem hookDelete_hidden {req : HookDeleteRequest} (h : Without config config' name mb)
    (hdistinct : config.HookNamesDistinct env.handlers.sha256) (hact : ¬ caller.MayActFor mb)
    (hfind : findHookOwner env.handlers config req.name = some name) :
    reply env ⟨config, disk⟩ caller (.hookDelete req) =
      reply env ⟨config', disk⟩ caller (.hookDelete req) := by
  have hleft := hookDeleteCheck_of_not_mayActFor hfind h.present hact
  have hright : hookDeleteCheck env.handlers config' req caller =
      .error ⟨.enoent, hookNotFound req.name⟩ := by
    rw [hookDeleteCheck, h.findHookOwner_eq_none hdistinct hfind]
  simp only [reply, handle, ConfigRequest.check, hleft, hright, Except.map]

/-- Whom MAILBOX-DELETE refuses gets the answer for a mailbox that does not exist. -/
theorem authorizeDelete_of_not_owner {henv : HandlerEnv} (hroot : caller.uid ≠ 0)
    (h : ∀ mb, config.mailboxes.lookup name = some mb → henv.users.ownerUid mb ≠ .ok caller.uid) :
    authorizeDelete henv config name caller = .error ⟨.mailbox, noSuchMailboxReason name⟩ := by
  have hgated : (Action.mailboxDelete name).ownerGated = some name := rfl
  unfold authorizeDelete
  rw [authorize_ownerGated hroot hgated]
  cases hlookup : config.mailboxes.lookup name with
  | none => rfl
  | some mb =>
      have hne := h mb hlookup
      unfold authorizeOwner
      dsimp only
      cases howner : henv.users.ownerUid mb with
      | error e => rfl
      | ok uid =>
          have huid : uid ≠ caller.uid := fun heq => hne (heq ▸ howner)
          simp only [if_neg huid]

/-- The two replies to MAILBOX-DELETE are one. -/
theorem mailboxDelete_hidden {force : Bool} (h : Without config config' name mb)
    (hother : OwnedBySomebodyElse env.handlers.users caller mb) :
    reply env ⟨config, disk⟩ caller (.mailboxDelete name force) =
      reply env ⟨config', disk⟩ caller (.mailboxDelete name force) := by
  have hleft : authorizeDelete env.handlers config name caller =
      .error ⟨.mailbox, noSuchMailboxReason name⟩ := by
    apply authorizeDelete_of_not_owner hother.nonRoot
    intro mb' hmb'
    rw [h.present, Option.some.injEq] at hmb'
    exact hmb' ▸ hother.uid
  have hright : authorizeDelete env.handlers config' name caller =
      .error ⟨.mailbox, noSuchMailboxReason name⟩ := by
    apply authorizeDelete_of_not_owner hother.nonRoot
    intro mb' hmb'
    rw [h.absent] at hmb'
    cases hmb'
  simp only [reply, handle, ConfigRequest.check, mailboxCheck]
  cases validateMailboxName name with
  | error e => rfl
  | ok u => simp only [Bool.false_eq_true, if_false, Plan.execute, hleft, hright]

/-! ### MARK and HOOK-CREATE -/

/-- The two replies to MARK are one exactly if the id is refused before the mailbox is looked up. -/
theorem mark_eq_iff {req : MarkRequest} (h : Without config config' req.mailbox mb)
    (hact : ¬ caller.MayActFor mb) :
    reply env ⟨config, disk⟩ caller (.mark req) = reply env ⟨config', disk⟩ caller (.mark req) ↔
      validateId req.id ≠ .ok () := by
  cases hid : validateId req.id with
  | error reject => simp [reply, handleMark, markCheck, hid]
  | ok u =>
      have hleft : markCheck config req caller = .error ⟨.eaccess, notAuthorizedWireReason⟩ := by
        simp only [markCheck, hid, h.present, enforceMailboxOwnerOrRoot_of_not_mayActFor hact]
      have hright : markCheck config' req caller =
          .error ⟨.enoent, noSuchMailboxReason req.mailbox⟩ := by
        simp only [markCheck, hid, h.absent]
      simp [reply, handleMark, hleft, hright]

/-- The two replies to HOOK-CREATE never are. -/
theorem hookCreate_ne {req : HookCreateRequest} (h : Without config config' req.mailbox mb)
    (hact : ¬ caller.MayActFor mb) :
    reply env ⟨config, disk⟩ caller (.hookCreate req) ≠
      reply env ⟨config', disk⟩ caller (.hookCreate req) := by
  have hleft : hookCreateCheck env.handlers config req caller =
      .error ⟨.eaccess, notAuthorizedWireReason⟩ := by
    simp only [hookCreateCheck, h.present, enforceMailboxOwnerOrRoot_of_not_mayActFor hact]
  have hright : hookCreateCheck env.handlers config' req caller =
      .error ⟨.enoent, noSuchMailboxReason req.mailbox⟩ := by
    simp only [hookCreateCheck, h.absent]
  simp [reply, handle, ConfigRequest.check, hleft, hright, Except.map]

/-! ### SEND -/

/-- A sender address comes from a `From` field, and has a domain. -/
theorem senderAddress_eq_some {body : Bytes} {bareFrom : Str}
    (h : senderAddress body = some bareFrom) :
    ∃ fromHeader user domain, scanHeaders body fromName = some fromHeader ∧
      extractBareAddress fromHeader = some bareFrom ∧
      rsplitOnce '@' bareFrom = some (user, domain) := by
  obtain ⟨fromHeader, hscan, hbare⟩ := Option.bind_eq_some_iff.mp h
  have hat : '@' ∈ bareFrom := by
    have hbare' := hbare
    unfold extractBareAddress at hbare'
    dsimp only at hbare'
    split at hbare'
    next => cases hbare'
    next =>
        split at hbare'
        next => cases hbare'
        next hok =>
            cases hbare'
            by_contra hmissing
            exact hok (Or.inr hmissing)
  cases hsplit : rsplitOnce '@' bareFrom with
  | none =>
      rw [rsplitOnce, Option.map_eq_none_iff, splitOnce_eq_none_iff, List.mem_reverse] at hsplit
      exact absurd hat hsplit
  | some p => exact ⟨fromHeader, p.1, p.2, hscan, hbare, rfl⟩

/-- The mailbox of a sender, once its domain matches, and whether the caller may act for it decide the
check of the sender. -/
theorem authorizeSender_of_domain (caller : Caller) {body : Bytes} {bareFrom : Str}
    (haddress : senderAddress body = some bareFrom) (hdomain : SenderDomainMatches config body) :
    (senderMailbox config body = none → ∃ reason,
      authorizeSender config body caller = .error ⟨.mailbox, reason⟩) ∧
    ∀ other mb', senderMailbox config body = some other →
      config.mailboxes.lookup other = some mb' →
      (caller.MayActFor mb' → ∃ p, authorizeSender config body caller = .ok p) ∧
      (¬ caller.MayActFor mb' →
        authorizeSender config body caller = .error ⟨.eaccess, notAuthorizedWireReason⟩) := by
  obtain ⟨fromHeader, user, domain, hscan, hbare, hsplit⟩ := senderAddress_eq_some haddress
  have hmailbox : senderMailbox config body = resolveConcreteMailbox config.mailboxes bareFrom := by
    rw [senderMailbox, haddress, Option.bind_some]
  have hmatches : eqIgnoreAsciiCase domain config.domain = true := by
    obtain ⟨domain', hmem, heq⟩ := hdomain
    rw [haddress, Option.bind_some, hsplit] at hmem
    cases hmem
    exact heq
  have hnot : ¬ eqIgnoreAsciiCase domain config.domain = false := by simp [hmatches]
  rw [hmailbox]
  unfold authorizeSender
  simp only [hscan, hbare, hsplit, if_neg hnot]
  refine ⟨fun hnone => ⟨_, by rw [hnone]⟩, fun other mb' hsome hlookup => ⟨fun hact => ?_, fun hact => ?_⟩⟩
  · have hpass : enforceMailboxOwnerOrRoot caller other mb' = .ok () :=
      enforceMailboxOwnerOrRoot_eq_ok_iff.mpr hact
    simp only [hsome, hlookup, hpass]
    exact ⟨_, rfl⟩
  · simp only [hsome, hlookup, enforceMailboxOwnerOrRoot_of_not_mayActFor hact]

/-- A sender of another domain is refused for its domain. -/
theorem authorizeSender_of_not_domain (caller : Caller) {body : Bytes} {bareFrom : Str}
    (haddress : senderAddress body = some bareFrom) (hdomain : ¬ SenderDomainMatches config body)
    (h : config'.domain = config.domain) :
    ∃ reject, authorizeSender config body caller = .error reject ∧
      authorizeSender config' body caller = .error reject := by
  obtain ⟨fromHeader, user, domain, hscan, hbare, hsplit⟩ := senderAddress_eq_some haddress
  have hmismatch : eqIgnoreAsciiCase domain config.domain = false := by
    by_contra hne
    apply hdomain
    refine ⟨domain, ?_, by simpa using hne⟩
    rw [haddress, Option.bind_some, hsplit]
    exact rfl
  unfold authorizeSender
  simp only [hscan, hbare, hsplit, h, hmismatch, if_true]
  exact ⟨_, rfl, rfl⟩

/-- A refused sender is the reply. -/
theorem handleSend_of_error {senv : SendEnv} {req : SendRequest} {reject : Reject}
    (h : authorizeSender config req.body caller = .error reject) :
    (handleSend senv config req caller).response = .err reject := by
  simp only [handleSend, prepareSend, h]

/-- Behind the check of the sender nothing is refused for lack of authority. -/
theorem handleSend_ne_eaccess {senv : SendEnv} {req : SendRequest} {p : Str × Str} {reason : Str}
    (h : authorizeSender config req.body caller = .ok p) :
    (handleSend senv config req caller).response ≠ .err ⟨.eaccess, reason⟩ := by
  obtain ⟨fromHeader, fromMailbox⟩ := p
  unfold handleSend prepareSend
  simp only [h]
  cases scanHeaders req.body toName with
  | none => simp
  | some toHeader =>
      dsimp only
      cases extractBareAddress toHeader with
      | none => simp
      | some recipient =>
          dsimp only
          cases assembleWireMessage senv.mime senv.outer senv.inner
            (withMessageId senv config req.body).2 (wireShape config req) with
          | error e =>
              dsimp only
              split <;> simp
          | ok wire =>
              dsimp only
              cases senv.signer wire config.domain with
              | error e => simp
              | ok signed =>
                  dsimp only
                  cases senv.transport fromHeader recipient signed with
                  | ok _ => simp
                  | error e => cases e <;> simp

/-- The two replies to SEND are one exactly if the sender's domain is refused, or if the address also
resolves to a second mailbox of somebody else. -/
theorem send_eq_iff {req : SendRequest} (h : Without config config' name mb)
    (hact : ¬ caller.MayActFor mb) (hnames : senderMailbox config req.body = some name) :
    reply env ⟨config, disk⟩ caller (.send req) = reply env ⟨config', disk⟩ caller (.send req) ↔
      NamingRequest.AnsweredAlike config' caller (.send req) := by
  obtain ⟨bareFrom, haddress, -⟩ := Option.bind_eq_some_iff.mp hnames
  by_cases hdomain : SenderDomainMatches config' req.body
  · have hdomain' : SenderDomainMatches config req.body := by
      obtain ⟨domain, hmem, heq⟩ := hdomain
      exact ⟨domain, hmem, h.same.domain ▸ heq⟩
    have hleft : (handleSend env.send config req caller).response =
        .err ⟨.eaccess, notAuthorizedWireReason⟩ :=
      handleSend_of_error
        (((authorizeSender_of_domain caller haddress hdomain').2 name mb hnames h.present).2 hact)
    obtain ⟨hnone, hsome⟩ := authorizeSender_of_domain caller haddress hdomain
    simp only [reply, hleft, Reply.send.injEq, NamingRequest.AnsweredAlike]
    constructor
    · intro heq _
      cases hmailbox : senderMailbox config' req.body with
      | none =>
          obtain ⟨reason, hreject⟩ := hnone hmailbox
          rw [handleSend_of_error hreject] at heq
          cases heq
      | some other =>
          obtain ⟨bare, -, hresolve⟩ := Option.bind_eq_some_iff.mp hmailbox
          obtain ⟨mb', hlookup⟩ := Option.isSome_iff_exists.mp
            (AList.lookup_isSome.mpr (mem_of_resolveConcreteMailbox hresolve))
          refine ⟨other, mb', rfl, hlookup, fun hmay => ?_⟩
          obtain ⟨p, hok⟩ := (hsome other mb' hmailbox hlookup).1 hmay
          exact handleSend_ne_eaccess hok heq.symm
    · intro hcond
      obtain ⟨other, mb', hmailbox, hlookup, hnot⟩ := hcond hdomain
      rw [handleSend_of_error ((hsome other mb' hmailbox hlookup).2 hnot)]
  · obtain ⟨reject, hright, hleft⟩ :=
      authorizeSender_of_not_domain caller haddress hdomain h.same.domain.symm
    simp only [reply, handleSend_of_error hleft, handleSend_of_error hright,
      NamingRequest.AnsweredAlike, true_iff]
    exact fun hd => absurd hd hdomain

/-! ### All verbs -/

/-- **The requests that do not tell whether another user's mailbox exists are exactly those that are
answered alike.** -/
theorem reply_eq_iff {req : NamingRequest} (h : Without config config' name mb)
    (hdistinct : config.HookNamesDistinct env.handlers.sha256)
    (hother : OwnedBySomebodyElse env.handlers.users caller mb) (hnames : req.Names env config name) :
    reply env ⟨config, disk⟩ caller req = reply env ⟨config', disk⟩ caller req ↔
      req.AnsweredAlike config' caller := by
  have hact := hother.not_mayActFor
  cases req with
  | mark req =>
      cases hnames
      exact mark_eq_iff h hact
  | hookCreate req =>
      cases hnames
      exact iff_of_false (hookCreate_ne h hact) id
  | hookDelete req => exact iff_of_true (hookDelete_hidden h hdistinct hact hnames) trivial
  | mailboxDelete n force =>
      cases hnames
      exact iff_of_true (mailboxDelete_hidden h hother) trivial
  | send req => exact send_eq_iff h hact hnames

end Privacy

/-- The two configurations of the witnesses: `alice` has a mailbox in the first. -/
def withAlice : Config := sampleConfig [("alice", sampleMailbox "alice@example.org" "alice" [])]
def withoutAlice : Config := sampleConfig []

/-- Surroundings in which every call succeeds. -/
def sampleReplyEnv : ReplyEnv where
  handlers := sampleEnv
  mark := ⟨⟨fun _ => [], fun _ => none, fun _ => none⟩, fun _ => [], [], [], none, none, none⟩
  send := echoEnv
  faults := fun _ => none

/-- A disk without folders. -/
def emptyDisk : Disk := ⟨fun _ _ => none, [], false⟩

theorem without_alice : Without withAlice withoutAlice "alice".toList
    (sampleMailbox "alice@example.org" "alice" []) where
  present := by decide
  absent := by decide
  same := @Config.sameBut_mailboxes withAlice _ _ fun name hname => by
    have habsent : name ∉ withAlice.mailboxes := by
      rw [AList.mem_keys]
      have hkeys : withAlice.mailboxes.keys = ["alice".toList] := by decide
      rw [hkeys]
      simpa using hname
    rw [AList.lookup_eq_none.mpr habsent]
    exact AList.lookup_eq_none.mpr (AList.notMem_empty name)

/-- `bob` is told the same about `alice` by MAILBOX-DELETE, whether or not she has a mailbox. -/
theorem reply_eq_mailboxDelete_alice :
    reply sampleReplyEnv ⟨withAlice, emptyDisk⟩ sampleBob (.mailboxDelete "alice".toList true) =
      reply sampleReplyEnv ⟨withoutAlice, emptyDisk⟩ sampleBob
        (.mailboxDelete "alice".toList true) :=
  (@reply_eq_iff sampleReplyEnv _ _ emptyDisk sampleBob _ _ (.mailboxDelete "alice".toList true)
    without_alice (by unfold Config.HookNamesDistinct; decide) ⟨by decide, by decide, by decide⟩
    rfl).mpr trivial

/-- MARK-READ and HOOK-CREATE tell `bob` whether `alice` has a mailbox. -/
theorem replies_reveal_alice :
    (reply sampleReplyEnv ⟨withAlice, emptyDisk⟩ sampleBob
        (.mark ⟨"alice".toList, "1".toList, true⟩) =
        .ack (.err ⟨.eaccess, "not authorized".toList⟩) ∧
      reply sampleReplyEnv ⟨withoutAlice, emptyDisk⟩ sampleBob
        (.mark ⟨"alice".toList, "1".toList, true⟩) =
        .ack (.err ⟨.enoent, "mailbox 'alice' does not exist".toList⟩)) ∧
    (reply sampleReplyEnv ⟨withAlice, emptyDisk⟩ sampleBob
        (.hookCreate ⟨"alice".toList, "on_receive".toList, none, sampleBody⟩) =
        .ack (.err ⟨.eaccess, "not authorized".toList⟩) ∧
      reply sampleReplyEnv ⟨withoutAlice, emptyDisk⟩ sampleBob
        (.hookCreate ⟨"alice".toList, "on_receive".toList, none, sampleBody⟩) =
        .ack (.err ⟨.enoent, "mailbox 'alice' does not exist".toList⟩)) ∧
    OwnedBySomebodyElse sampleEnv.users sampleBob (sampleMailbox "alice@example.org" "alice" []) ∧
    Without withAlice withoutAlice "alice".toList
      (sampleMailbox "alice@example.org" "alice" []) := by
  refine ⟨⟨by decide, by decide⟩, ⟨by decide, by decide⟩, ⟨by decide, by decide, by decide⟩,
    without_alice⟩

end Daemon
end Aimx
