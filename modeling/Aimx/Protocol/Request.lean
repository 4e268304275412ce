import Aimx.Protocol.Frame
import Aimx.Config.Names

/-!
# Requests

The requests of the protocol, the writers that clients use and the parser that the daemon uses.

* `writeRequest`, `writeMarkRequest`, … — one writer per family of verbs, and `Request.write`;
* `parseRequestWithLimit` — the dispatcher, with one header parser per family of verbs;
* `Request.clean` — a request as the daemon is meant to see it;
* `parseRequest_write` — what the parser makes of a request that was written.
-/

namespace Aimx
namespace Protocol

open Text Send

/-! ## Requests -/

/-- `DEFAULT_MAX_BODY_SIZE`. -/
def defaultMaxBodySize : Nat := 25 * 1024 * 1024

/-- A decoded MARK-READ or MARK-UNREAD request. -/
structure MarkRequest where
  mailbox : Str
  id : Str
  read : Bool
  deriving DecidableEq

/-- A decoded MAILBOX-CREATE or MAILBOX-DELETE request. -/
structure MailboxLifecycleRequest where
  name : Str
  create : Bool
  owner : Option Str
  force : Bool
  deriving DecidableEq

/-- A decoded HOOK-CREATE request. -/
structure HookCreateRequest where
  mailbox : Str
  event : Str
  name : Option Str
  body : Bytes
  deriving DecidableEq

/-- A decoded HOOK-DELETE request. -/
structure HookDeleteRequest where
  name : Str
  deriving DecidableEq

/-- One decoded request, tagged by verb. -/
inductive Request
  | send (req : SendRequest)
  | mark (req : MarkRequest)
  | mailboxLifecycle (req : MailboxLifecycleRequest)
  | mailboxList
  | hookCreate (req : HookCreateRequest)
  | hookDelete (req : HookDeleteRequest)
  | hookList
  | version
  deriving DecidableEq

/-- Why no request is decoded. -/
inductive ParseError
  | closedBeforeRequest
  | malformed (reason : Malformed)
  | unknownVerb (verb : Str)
  deriving DecidableEq

/-- The texts of `ParseError`. -/
def ParseError.display (debug : Str → Str) : ParseError → Str
  | .closedBeforeRequest => "connection closed before request".toList
  | .malformed reason => "malformed request: ".toList ++ reason.display debug
  | .unknownVerb verb => "unknown verb '".toList ++ verb ++ "'".toList

/-! ## Parsers -/

/-- The state of the header loop of SEND. -/
structure SendHeaders where
  contentLength : Option Nat
  htmlBodyLength : Option Nat
  textOnly : Bool
  textOnlySeen : Bool

/-- One header of SEND. -/
def onSendHeader (maxBody : Nat) (st : SendHeaders) :
    Option HeaderName → Str → Except Malformed SendHeaders
  | some .contentLength, value =>
      (onceLength .contentLength (withinCap .contentLength maxBody) st.contentLength value).map
        fun n => { st with contentLength := n }
  | some .textOnly, value =>
      (onceFlag .textOnly st.textOnlySeen value).map
        fun b => { st with textOnly := b, textOnlySeen := true }
  | some .htmlBodyLength, value =>
      (onceLength .htmlBodyLength (withinCap .htmlBodyLength maxBody) st.htmlBodyLength value).map
        fun n => { st with htmlBodyLength := n }
  | _, _ => .ok st

/-- `parse_send_headers_and_body`. -/
def parseSendHeadersAndBody (maxBody : Nat) (input : Bytes) :
    Except Malformed (SendRequest × Bytes) :=
  match readHeaders (onSendHeader maxBody) ⟨none, none, false, false⟩ input with
  | .error e => .error e
  | .ok (st, rest) =>
      match st.contentLength with
      | none => .error (.missing .contentLength)
      | some n =>
          if st.textOnly && st.htmlBodyLength.isSome then .error .mutuallyExclusive
          else
            match readExact n rest with
            | none => .error (.bodyTruncated n)
            | some (body, rest) =>
                match st.htmlBodyLength with
                | none => .ok (⟨body, st.textOnly, none⟩, rest)
                | some m =>
                    match readExact m rest with
                    | none => .error (.htmlBodyTruncated m)
                    | some (html, rest) => .ok (⟨body, st.textOnly, some html⟩, rest)

/-- The state of the header loop of the MARK verbs. -/
structure MarkHeaders where
  mailbox : Option Str
  id : Option Str
  contentLength : Option Nat

/-- One header of a MARK verb. -/
def onMarkHeader (st : MarkHeaders) : Option HeaderName → Str → Except Malformed MarkHeaders
  | some .mailbox, value =>
      (onceValue .mailbox st.mailbox value).map fun v => { st with mailbox := v }
  | some .id, value => (onceValue .id st.id value).map fun v => { st with id := v }
  | some .folder, _ => .error .folderNotAllowed
  | some .contentLength, value =>
      (onceLength .contentLength (mustBeZero "MARK verb".toList) st.contentLength value).map
        fun n => { st with contentLength := n }
  | _, _ => .ok st

/-- `parse_mark_headers`. -/
def parseMarkHeaders (read : Bool) (input : Bytes) : Except Malformed (MarkRequest × Bytes) :=
  match readHeaders onMarkHeader ⟨none, none, none⟩ input with
  | .error e => .error e
  | .ok (st, rest) =>
      match st.mailbox, st.id with
      | none, _ => .error (.missing .mailbox)
      | some _, none => .error (.missing .id)
      | some mailbox, some id => .ok (⟨mailbox, id, read⟩, rest)

/-- The state of the header loop of the MAILBOX-CREATE and MAILBOX-DELETE verbs. -/
structure MailboxHeaders where
  name : Option Str
  owner : Option Str
  force : Bool
  forceSeen : Bool
  contentLength : Option Nat

/-- One header of MAILBOX-CREATE or MAILBOX-DELETE. -/
def onMailboxHeader (create : Bool) (st : MailboxHeaders) :
    Option HeaderName → Str → Except Malformed MailboxHeaders
  | some .name, value => (onceValue .name st.name value).map fun v => { st with name := v }
  | some .owner, value =>
      match onceValue .owner st.owner value with
      | .error e => .error e
      | .ok v =>
          if isValidSystemUsername value then .ok { st with owner := v }
          else .error (.invalidOwner value)
  | some .force, value =>
      if create then .error .forceOnCreate
      else
        (onceFlag .force st.forceSeen value).map
          fun b => { st with force := b, forceSeen := true }
  | some .contentLength, value =>
      (onceLength .contentLength (mustBeZero "MAILBOX verb".toList) st.contentLength value).map
        fun n => { st with contentLength := n }
  | _, _ => .ok st

/-- `parse_mailbox_crud_headers`. -/
def parseMailboxCrudHeaders (create : Bool) (input : Bytes) :
    Except Malformed (MailboxLifecycleRequest × Bytes) :=
  match readHeaders (onMailboxHeader create) ⟨none, none, false, false, none⟩ input with
  | .error e => .error e
  | .ok (st, rest) =>
      match st.name with
      | none => .error (.missing .name)
      | some name => .ok (⟨name, create, st.owner, st.force⟩, rest)

/-- The parser of a verb without headers: `parse_mailbox_list_headers`, `parse_hook_list_headers`
and `parse_version_headers`. -/
def parseNoHeaders (verb : Verb) (input : Bytes) : Except Malformed Bytes :=
  match readLine input with
  | .error e => .error e
  | .ok none => .error .eofInHeaders
  | .ok (some (line, rest)) =>
      let line := trimEndCr line
      if line = [] then .ok rest else .error (.takesNoHeaders verb line)

/-- `parse_mailbox_list_headers`. -/
def parseMailboxListHeaders (input : Bytes) : Except Malformed Bytes :=
  parseNoHeaders .mailboxList input

/-- `parse_hook_list_headers`. -/
def parseHookListHeaders (input : Bytes) : Except Malformed Bytes := parseNoHeaders .hookList input

/-- `parse_version_headers`. -/
def parseVersionHeaders (input : Bytes) : Except Malformed Bytes := parseNoHeaders .version input

/-- The state of the header loop of HOOK-CREATE. -/
structure HookCreateHeaders where
  mailbox : Option Str
  event : Option Str
  name : Option Str
  contentLength : Option Nat

/-- One header of HOOK-CREATE. -/
def onHookCreateHeader (maxBody : Nat) (st : HookCreateHeaders) :
    Option HeaderName → Str → Except Malformed HookCreateHeaders
  | some .mailbox, value =>
      (onceValue .mailbox st.mailbox value).map fun v => { st with mailbox := v }
  | some .event, value => (onceValue .event st.event value).map fun v => { st with event := v }
  | some .name, value => (onceValue .name st.name value).map fun v => { st with name := v }
  | some .contentLength, value =>
      (onceLength .contentLength (withinCap .contentLength maxBody) st.contentLength value).map
        fun n => { st with contentLength := n }
  | _, _ => .ok st

/-- `parse_hook_create_headers_and_body`. -/
def parseHookCreateHeadersAndBody (maxBody : Nat) (input : Bytes) :
    Except Malformed (HookCreateRequest × Bytes) :=
  match readHeaders (onHookCreateHeader maxBody) ⟨none, none, none, none⟩ input with
  | .error e => .error e
  | .ok (st, rest) =>
      match st.mailbox, st.event, st.contentLength with
      | none, _, _ => .error (.missing .mailbox)
      | some _, none, _ => .error (.missing .event)
      | some _, some _, none => .error (.missing .contentLength)
      | some mailbox, some event, some n =>
          match readExact n rest with
          | none => .error (.bodyTruncated n)
          | some (body, rest) => .ok (⟨mailbox, event, st.name, body⟩, rest)

/-- The state of the header loop of HOOK-DELETE. -/
structure HookDeleteHeaders where
  name : Option Str
  contentLength : Option Nat

/-- One header of HOOK-DELETE. -/
def onHookDeleteHeader (st : HookDeleteHeaders) :
    Option HeaderName → Str → Except Malformed HookDeleteHeaders
  | some .hookName, value =>
      (onceValue .hookName st.name value).map fun v => { st with name := v }
  | some .contentLength, value =>
      (onceLength .contentLength (mustBeZero "HOOK-DELETE".toList) st.contentLength value).map
        fun n => { st with contentLength := n }
  | _, _ => .ok st

/-- `parse_hook_delete_headers`. -/
def parseHookDeleteHeaders (input : Bytes) : Except Malformed (HookDeleteRequest × Bytes) :=
  match readHeaders onHookDeleteHeader ⟨none, none⟩ input with
  | .error e => .error e
  | .ok (st, rest) =>
      match st.name with
      | none => .error (.missing .hookName)
      | some name => .ok (⟨name⟩, rest)

/-- The part of the dispatcher behind the request line. -/
def parseVerb (maxBody : Nat) (rest : Bytes) : Verb → Except Malformed (Request × Bytes)
  | .send => (parseSendHeadersAndBody maxBody rest).map fun p => (.send p.1, p.2)
  | .markRead => (parseMarkHeaders true rest).map fun p => (.mark p.1, p.2)
  | .markUnread => (parseMarkHeaders false rest).map fun p => (.mark p.1, p.2)
  | .mailboxCreate =>
      (parseMailboxCrudHeaders true rest).map fun p => (.mailboxLifecycle p.1, p.2)
  | .mailboxDelete =>
      (parseMailboxCrudHeaders false rest).map fun p => (.mailboxLifecycle p.1, p.2)
  | .mailboxList => (parseMailboxListHeaders rest).map fun r => (.mailboxList, r)
  | .hookCreate => (parseHookCreateHeadersAndBody maxBody rest).map fun p => (.hookCreate p.1, p.2)
  | .hookDelete => (parseHookDeleteHeaders rest).map fun p => (.hookDelete p.1, p.2)
  | .hookList => (parseHookListHeaders rest).map fun r => (.hookList, r)
  | .version => (parseVersionHeaders rest).map fun r => (.version, r)

/-- `parse_request_with_limit`: the request, and the bytes that follow it. -/
def parseRequestWithLimit (maxBody : Nat) (input : Bytes) : Except ParseError (Request × Bytes) :=
  match readLine input with
  | .error e => .error (.malformed e)
  | .ok none => .error .closedBeforeRequest
  | .ok (some (requestLine, rest)) =>
      let line := trimEndCr requestLine
      match stripPrefix "AIMX/1 ".toList line with
      | none => .error (.malformed (.requestLine line))
      | some verb =>
          match Verb.ofStr verb with
          | none => .error (.unknownVerb verb)
          | some v =>
              match parseVerb maxBody rest v with
              | .error e => .error (.malformed e)
              | .ok result => .ok result

/-- `parse_request`. -/
def parseRequest (input : Bytes) : Except ParseError (Request × Bytes) :=
  parseRequestWithLimit defaultMaxBodySize input

/-! ## Writers -/

/-- The headers that `write_request` writes. -/
def sendHeaders (req : SendRequest) : List (HeaderName × Str) :=
  (if req.textOnly then [(.textOnly, "true".toList)] else []) ++
    [(.contentLength, decimal req.body.length)] ++
    (match req.htmlBody with
    | some html => [(.htmlBodyLength, decimal html.length)]
    | none => [])

/-- `write_request`. -/
def writeRequest (req : SendRequest) : Bytes :=
  utf8 (requestHead .send (sendHeaders req)) ++ req.body ++ req.htmlBody.getD []

/-- The headers that `write_mark_request` writes. -/
def markHeaders (req : MarkRequest) : List (HeaderName × Str) :=
  [(.mailbox, sanitizeInline req.mailbox), (.id, sanitizeInline req.id),
    (.contentLength, "0".toList)]

/-- `write_mark_request`. -/
def writeMarkRequest (req : MarkRequest) : Bytes :=
  utf8 (requestHead (if req.read then .markRead else .markUnread) (markHeaders req))

/-- The headers that `write_mailbox_crud_request` writes. -/
def mailboxCrudHeaders (req : MailboxLifecycleRequest) : List (HeaderName × Str) :=
  [(.name, sanitizeInline req.name)] ++
    (match req.owner with
    | some owner => [(.owner, sanitizeInline owner)]
    | none => []) ++
    (if !req.create && req.force then [(.force, "true".toList)] else []) ++
    [(.contentLength, "0".toList)]

/-- `write_mailbox_crud_request`. -/
def writeMailboxCrudRequest (req : MailboxLifecycleRequest) : Bytes :=
  utf8 (requestHead (if req.create then .mailboxCreate else .mailboxDelete)
    (mailboxCrudHeaders req))

/-- `write_mailbox_list_request`. -/
def writeMailboxListRequest : Bytes := utf8 (requestHead .mailboxList [])

/-- `write_hook_list_request`. -/
def writeHookListRequest : Bytes := utf8 (requestHead .hookList [])

/-- `write_version_request`. -/
def writeVersionRequest : Bytes := utf8 (requestHead .version [])

/-- The headers that `write_hook_create_request` writes. -/
def hookCreateHeaders (req : HookCreateRequest) : List (HeaderName × Str) :=
  [(.mailbox, sanitizeInline req.mailbox), (.event, sanitizeInline req.event)] ++
    (match req.name with
    | some name => [(.name, sanitizeInline name)]
    | none => []) ++
    [(.contentLength, decimal req.body.length)]

/-- `write_hook_create_request`. -/
def writeHookCreateRequest (req : HookCreateRequest) : Bytes :=
  utf8 (requestHead .hookCreate (hookCreateHeaders req)) ++ req.body

/-- The headers that `write_hook_delete_request` writes. -/
def hookDeleteHeaders (req : HookDeleteRequest) : List (HeaderName × Str) :=
  [(.hookName, sanitizeInline req.name), (.contentLength, "0".toList)]

/-- `write_hook_delete_request`. -/
def writeHookDeleteRequest (req : HookDeleteRequest) : Bytes :=
  utf8 (requestHead .hookDelete (hookDeleteHeaders req))

/-- A request as the writer of its verb writes it. -/
def Request.write : Request → Bytes
  | .send req => writeRequest req
  | .mark req => writeMarkRequest req
  | .mailboxLifecycle req => writeMailboxCrudRequest req
  | .mailboxList => writeMailboxListRequest
  | .hookCreate req => writeHookCreateRequest req
  | .hookDelete req => writeHookDeleteRequest req
  | .hookList => writeHookListRequest
  | .version => writeVersionRequest

/-! ## Requests on the wire -/

/-- A field as the daemon sees it: without line breaks, and trimmed. -/
def cleanField (s : Str) : Str := trim (sanitizeInline s)

/-- A request as the daemon is meant to see it.  The force flag belongs to MAILBOX-DELETE. -/
def Request.clean : Request → Request
  | .send req => .send req
  | .mark req => .mark ⟨cleanField req.mailbox, cleanField req.id, req.read⟩
  | .mailboxLifecycle req =>
      .mailboxLifecycle
        ⟨cleanField req.name, req.create, req.owner.map cleanField, !req.create && req.force⟩
  | .mailboxList => .mailboxList
  | .hookCreate req =>
      .hookCreate
        ⟨cleanField req.mailbox, cleanField req.event, req.name.map cleanField, req.body⟩
  | .hookDelete req => .hookDelete ⟨cleanField req.name⟩
  | .hookList => .hookList
  | .version => .version

/-- A request that the protocol can carry: no field is empty, the owner is a user name, and at most
one of the two escape hatches of SEND is used. -/
def Request.Admissible : Request → Prop
  | .send req => ¬ (req.textOnly = true ∧ req.htmlBody.isSome = true)
  | .mark req => cleanField req.mailbox ≠ [] ∧ cleanField req.id ≠ []
  | .mailboxLifecycle req =>
      cleanField req.name ≠ [] ∧
        ∀ owner ∈ req.owner, isValidSystemUsername (cleanField owner) = true
  | .mailboxList => True
  | .hookCreate req =>
      cleanField req.mailbox ≠ [] ∧ cleanField req.event ≠ [] ∧
        ∀ name ∈ req.name, cleanField name ≠ []
  | .hookDelete req => cleanField req.name ≠ []
  | .hookList => True
  | .version => True

/-- The headers of a request. -/
def Request.headers : Request → List (HeaderName × Str)
  | .send req => sendHeaders req
  | .mark req => markHeaders req
  | .mailboxLifecycle req => mailboxCrudHeaders req
  | .hookCreate req => hookCreateHeaders req
  | .hookDelete req => hookDeleteHeaders req
  | .mailboxList | .hookList | .version => []

/-- Every header line of a request is within the line limit. -/
def Request.LinesFit (req : Request) : Prop :=
  ∀ h ∈ req.headers, byteLen (headerText h) ≤ maxHeaderLine

/-- Every body of a request is within the cap. -/
def Request.BodiesFit (cap : Nat) : Request → Prop
  | .send req => req.body.length ≤ cap ∧ ∀ html ∈ req.htmlBody, html.length ≤ cap
  | .hookCreate req => req.body.length ≤ cap
  | _ => True

/-! ### Values as the parsers see them -/

theorem trim_decimal (n : Nat) : trim (decimal n) = decimal n :=
  trim_eq_self fun _ hc => isWhitespace_of_isDigit (isDigit_of_mem_decimal hc)

/-- A length that was written is read. -/
theorem onceLength_decimal {header : HeaderName} {check : Nat → Except Malformed Unit} {n : Nat}
    (hn : n < 2 ^ 64) (hcheck : check n = .ok ()) :
    onceLength header check none (trim (decimal n)) = .ok (some n) := by
  simp [onceLength, trim_decimal, parseUsize_decimal hn, hcheck, Except.map]

/-- The length of an empty body is read. -/
theorem onceLength_zero (header : HeaderName) (verb : Str) :
    onceLength header (mustBeZero verb) none (trim "0".toList) = .ok (some 0) :=
  onceLength_decimal (n := 0) (by omega) rfl

/-- A truth value that was written is read. -/
theorem onceFlag_true (header : HeaderName) :
    onceFlag header false (trim "true".toList) = .ok true := by
  have hlower : toAsciiLowercase (trim "true".toList) = "true".toList := by decide +kernel
  rw [onceFlag, if_neg Bool.false_ne_true, if_pos hlower]

theorem withinCap_ok {header : HeaderName} {cap n : Nat} (h : n ≤ cap) :
    withinCap header cap n = .ok () := if_neg (by omega)

/-! ### The verbs -/

/-- Every header of a request is on one line. -/
theorem Request.headerFits {req : Request} (hlines : req.LinesFit) :
    ∀ h ∈ req.headers, HeaderFits h := by
  intro h hmem
  refine ⟨?_, hlines h hmem⟩
  have hzero : OneLine "0".toList := decimal_oneLine 0
  have htrue : OneLine "true".toList := by decide +kernel
  cases req with
  | send req =>
      simp only [Request.headers, sendHeaders] at hmem
      grind [decimal_oneLine]
  | mark req =>
      simp only [Request.headers, markHeaders] at hmem
      grind [sanitizeInline_oneLine]
  | mailboxLifecycle req =>
      simp only [Request.headers, mailboxCrudHeaders] at hmem
      grind [sanitizeInline_oneLine]
  | hookCreate req =>
      simp only [Request.headers, hookCreateHeaders] at hmem
      grind [sanitizeInline_oneLine, decimal_oneLine]
  | hookDelete req =>
      simp only [Request.headers, hookDeleteHeaders] at hmem
      grind [sanitizeInline_oneLine]
  | mailboxList | hookList | version => cases hmem

/-- A field that was written is read as it is cleaned. -/
theorem onceValue_cleanField (header : HeaderName) (s : Str) :
    onceValue header none (trim (sanitizeInline s)) =
      if cleanField s = [] then .error (.emptyValue header) else .ok (some (cleanField s)) := rfl

/-- MARK: the two fields, or the first of them that is empty. -/
theorem parseMarkHeaders_write {req : MarkRequest} (hfits : ∀ h ∈ markHeaders req, HeaderFits h)
    (rest : Bytes) :
    parseMarkHeaders req.read (utf8 (headerBlock (markHeaders req)) ++ rest) =
      if cleanField req.mailbox = [] then .error (.emptyValue .mailbox)
      else if cleanField req.id = [] then .error (.emptyValue .id)
      else .ok (⟨cleanField req.mailbox, cleanField req.id, req.read⟩, rest) := by
  unfold parseMarkHeaders
  rw [readHeaders_headerBlock hfits]
  simp only [markHeaders, List.foldlM_cons, List.foldlM_nil, onMarkHeader, onceValue_cleanField,
    bind, Except.bind, pure, Except.pure]
  by_cases hmailbox : cleanField req.mailbox = []
  · simp only [hmailbox, ↓reduceIte, Except.map]
  · by_cases hid : cleanField req.id = []
    · simp only [hmailbox, hid, ↓reduceIte, Except.map, onceValue_cleanField]
    · simp only [hmailbox, hid, ↓reduceIte, Except.map, onceValue_cleanField, onceLength_zero]

/-- HOOK-DELETE: the name, or the error that it is empty. -/
theorem parseHookDeleteHeaders_write {req : HookDeleteRequest}
    (hfits : ∀ h ∈ hookDeleteHeaders req, HeaderFits h) (rest : Bytes) :
    parseHookDeleteHeaders (utf8 (headerBlock (hookDeleteHeaders req)) ++ rest) =
      if cleanField req.name = [] then .error (.emptyValue .hookName)
      else .ok (⟨cleanField req.name⟩, rest) := by
  unfold parseHookDeleteHeaders
  rw [readHeaders_headerBlock hfits]
  simp only [hookDeleteHeaders, List.foldlM_cons, List.foldlM_nil, onHookDeleteHeader,
    onceValue_cleanField, bind, Except.bind, pure, Except.pure]
  by_cases hname : cleanField req.name = []
  · simp only [hname, ↓reduceIte, Except.map]
  · simp only [hname, ↓reduceIte, Except.map, onceLength_zero]

/-- The owner header: the owner, or the error of a name that is empty or no user name. -/
theorem onMailboxHeader_owner {create : Bool} {st : MailboxHeaders} (hslot : st.owner = none)
    (owner : Str) :
    onMailboxHeader create st (some .owner) (trim (sanitizeInline owner)) =
      if cleanField owner = [] then .error (.emptyValue .owner)
      else if isValidSystemUsername (cleanField owner) = true then
        .ok { st with owner := some (cleanField owner) }
      else .error (.invalidOwner (cleanField owner)) := by
  simp only [onMailboxHeader, hslot, onceValue_cleanField]
  by_cases hempty : cleanField owner = []
  · simp only [hempty, ↓reduceIte]
  · simp only [hempty, ↓reduceIte]
    rfl

/-- The headers of MAILBOX-CREATE and MAILBOX-DELETE behind the owner: the force flag is written on
MAILBOX-DELETE only, where it is accepted. -/
theorem foldlM_onMailboxHeader_tail (create force : Bool) (name owner : Option Str) :
    ((if !create && force then [(HeaderName.force, "true".toList)] else []) ++
        [(HeaderName.contentLength, "0".toList)]).foldlM
          (fun st h => onMailboxHeader create st (some h.1) (trim h.2))
          ⟨name, owner, false, false, none⟩ =
      .ok ⟨name, owner, !create && force, !create && force, some 0⟩ := by
  by_cases hflag : (!create && force) = true
  · obtain ⟨rfl, rfl⟩ : create = false ∧ force = true := by simpa using hflag
    rw [if_pos hflag]
    simp only [List.cons_append, List.nil_append, List.foldlM_cons, List.foldlM_nil,
      onMailboxHeader, onceFlag_true, onceLength_zero, Except.map, bind, Except.bind, pure,
      Except.pure, Bool.false_eq_true, ↓reduceIte, Bool.not_false, Bool.and_self]
  · rw [if_neg hflag, Bool.eq_false_iff.mpr hflag]
    simp only [List.nil_append, List.foldlM_cons, List.foldlM_nil, onMailboxHeader,
      onceLength_zero, Except.map, bind, Except.bind, pure, Except.pure]

/-- MAILBOX-CREATE and MAILBOX-DELETE: the fields, or the error of the name or of the owner. -/
theorem parseMailboxCrudHeaders_write {req : MailboxLifecycleRequest}
    (hfits : ∀ h ∈ mailboxCrudHeaders req, HeaderFits h) (rest : Bytes) :
    parseMailboxCrudHeaders req.create (utf8 (headerBlock (mailboxCrudHeaders req)) ++ rest) =
      if cleanField req.name = [] then .error (.emptyValue .name)
      else
        match req.owner with
        | none => .ok (⟨cleanField req.name, req.create, none, !req.create && req.force⟩, rest)
        | some owner =>
            if cleanField owner = [] then .error (.emptyValue .owner)
            else if isValidSystemUsername (cleanField owner) = true then
              .ok (⟨cleanField req.name, req.create, some (cleanField owner),
                !req.create && req.force⟩, rest)
            else .error (.invalidOwner (cleanField owner)) := by
  unfold parseMailboxCrudHeaders
  rw [readHeaders_headerBlock hfits]
  obtain ⟨name, create, owner, force⟩ := req
  have hname : ∀ st : MailboxHeaders, st.name = none →
      onMailboxHeader create st (some .name) (trim (sanitizeInline name)) =
        if cleanField name = [] then .error (.emptyValue .name)
        else .ok { st with name := some (cleanField name) } := by
    intro st hslot
    simp only [onMailboxHeader, hslot, onceValue_cleanField]
    by_cases hempty : cleanField name = []
    · simp only [hempty, ↓reduceIte, Except.map]
    · simp only [hempty, ↓reduceIte, Except.map]
  simp only [mailboxCrudHeaders, List.append_assoc, List.cons_append, List.nil_append,
    List.foldlM_cons]
  rw [hname _ rfl]
  by_cases hempty : cleanField name = []
  · simp only [hempty, ↓reduceIte, bind, Except.bind, Except.map]
  · cases owner with
    | none =>
        simp only [hempty, ↓reduceIte, bind, Except.bind, Except.map, List.nil_append,
          foldlM_onMailboxHeader_tail]
    | some owner =>
        simp only [hempty, ↓reduceIte, bind, Except.bind, List.cons_append, List.nil_append,
          List.foldlM_cons]
        rw [onMailboxHeader_owner rfl owner]
        by_cases hownerEmpty : cleanField owner = []
        · simp only [hownerEmpty, ↓reduceIte, Except.map]
        · by_cases hvalid : isValidSystemUsername (cleanField owner) = true
          · simp only [hownerEmpty, hvalid, ↓reduceIte, Except.map, foldlM_onMailboxHeader_tail]
          · simp only [hownerEmpty, hvalid, Bool.false_eq_true, ↓reduceIte, Except.map]

/-- HOOK-CREATE: the fields and the body, or the error of the first field that is empty. -/
theorem parseHookCreate_write {req : HookCreateRequest} {cap : Nat} (hcap : cap < 2 ^ 64)
    (hfits : ∀ h ∈ hookCreateHeaders req, HeaderFits h) (hbody : req.body.length ≤ cap)
    (rest : Bytes) :
    parseHookCreateHeadersAndBody cap
        (utf8 (headerBlock (hookCreateHeaders req)) ++ (req.body ++ rest)) =
      if cleanField req.mailbox = [] then .error (.emptyValue .mailbox)
      else if cleanField req.event = [] then .error (.emptyValue .event)
      else
        match req.name with
        | none => .ok (⟨cleanField req.mailbox, cleanField req.event, none, req.body⟩, rest)
        | some name =>
            if cleanField name = [] then .error (.emptyValue .name)
            else
              .ok (⟨cleanField req.mailbox, cleanField req.event, some (cleanField name), req.body⟩,
                rest) := by
  unfold parseHookCreateHeadersAndBody
  rw [readHeaders_headerBlock hfits]
  obtain ⟨mailbox, event, name, body⟩ := req
  have hlen : onceLength .contentLength (withinCap .contentLength cap) none
      (trim (decimal body.length)) = .ok (some body.length) :=
    onceLength_decimal (lt_of_le_of_lt hbody hcap) (withinCap_ok hbody)
  simp only [hookCreateHeaders, List.cons_append, List.nil_append, List.foldlM_cons,
    onHookCreateHeader, onceValue_cleanField, bind, Except.bind]
  by_cases hmailbox : cleanField mailbox = []
  · simp only [hmailbox, ↓reduceIte, Except.map]
  · by_cases hevent : cleanField event = []
    · simp only [hmailbox, hevent, ↓reduceIte, Except.map, onceValue_cleanField]
    · cases name with
      | none =>
          simp only [hmailbox, hevent, ↓reduceIte, Except.map, onceValue_cleanField,
            List.nil_append, List.foldlM_cons, List.foldlM_nil, hlen, bind, Except.bind, pure,
            Except.pure, readExact_append]
      | some name =>
          simp only [hmailbox, hevent, ↓reduceIte, Except.map, onceValue_cleanField,
            List.cons_append, List.nil_append, List.foldlM_cons, List.foldlM_nil, bind,
            Except.bind, pure, Except.pure]
          by_cases hname : cleanField name = []
          · simp only [hname, ↓reduceIte]
          · simp only [hname, ↓reduceIte, hlen, readExact_append]

/-- SEND: the request, or the error of its two escape hatches. -/
theorem parseSend_write {req : SendRequest} {cap : Nat} (hcap : cap < 2 ^ 64)
    (hfits : ∀ h ∈ sendHeaders req, HeaderFits h) (hbody : req.body.length ≤ cap)
    (hhtml : ∀ html ∈ req.htmlBody, html.length ≤ cap) (rest : Bytes) :
    parseSendHeadersAndBody cap
        (utf8 (headerBlock (sendHeaders req)) ++ (req.body ++ (req.htmlBody.getD [] ++ rest))) =
      if req.textOnly = true ∧ req.htmlBody.isSome = true then .error .mutuallyExclusive
      else .ok (req, rest) := by
  unfold parseSendHeadersAndBody
  rw [readHeaders_headerBlock hfits]
  obtain ⟨body, textOnly, htmlBody⟩ := req
  have hlen : onceLength .contentLength (withinCap .contentLength cap) none
      (trim (decimal body.length)) = .ok (some body.length) :=
    onceLength_decimal (lt_of_le_of_lt hbody hcap) (withinCap_ok hbody)
  have hhtmlLen : ∀ html ∈ htmlBody, onceLength .htmlBodyLength (withinCap .htmlBodyLength cap) none
      (trim (decimal html.length)) = .ok (some html.length) := fun html hmem =>
    onceLength_decimal (lt_of_le_of_lt (hhtml html hmem) hcap) (withinCap_ok (hhtml html hmem))
  cases textOnly <;> cases htmlBody
  case false.none =>
    simp [sendHeaders, onSendHeader, hlen, Except.map, bind, Except.bind, pure, Except.pure]
  case false.some html =>
    simp [sendHeaders, onSendHeader, hlen, hhtmlLen, Except.map, bind, Except.bind, pure,
      Except.pure]
  case true.none =>
    simp only [sendHeaders, ↓reduceIte, List.cons_append, List.nil_append, List.append_nil,
      List.foldlM_cons, List.foldlM_nil, onSendHeader, onceFlag_true, hlen, Except.map, bind,
      Except.bind, pure, Except.pure]
    simp
  case true.some html =>
    simp only [sendHeaders, ↓reduceIte, List.cons_append, List.nil_append,
      List.foldlM_cons, List.foldlM_nil, onSendHeader, onceFlag_true, hlen, hhtmlLen html rfl,
      Except.map, bind, Except.bind, pure, Except.pure]
    simp

/-- A verb without headers. -/
theorem parseNoHeaders_write (verb : Verb) (rest : Bytes) :
    parseNoHeaders verb (utf8 (headerBlock []) ++ rest) = .ok rest := by
  have hline : readLine (utf8 (headerBlock []) ++ rest) = .ok (some ([], rest)) :=
    @readLine_utf8 [] (by simp) (by simp) [] rest
  unfold parseNoHeaders
  rw [hline]
  rfl

/-! ## The round trip -/

theorem Verb.asStr_oneLine (v : Verb) : OneLine v.asStr := by
  cases v <;> decide +kernel

theorem Verb.byteLen_asStr_le (v : Verb) : byteLen v.asStr ≤ 14 := by
  cases v <;> decide +kernel

/-- The request line that was written selects the parser of its verb. -/
theorem parseRequestWithLimit_requestHead (cap : Nat) (v : Verb) (hs : List (HeaderName × Str))
    (rest : Bytes) :
    parseRequestWithLimit cap (utf8 (requestHead v hs) ++ rest) =
      (match parseVerb cap (utf8 (headerBlock hs) ++ rest) v with
      | .error e => .error (.malformed e)
      | .ok result => .ok result) := by
  obtain ⟨hlf, hcr⟩ : OneLine ("AIMX/1 ".toList ++ v.asStr) :=
    OneLine.append (by simp [OneLine]) v.asStr_oneLine
  have hlen : byteLen ("AIMX/1 ".toList ++ v.asStr) ≤ maxHeaderLine := by
    have hhead : byteLen "AIMX/1 ".toList = 7 := by decide +kernel
    have hverb := v.byteLen_asStr_le
    rw [byteLen_append, hhead]
    unfold maxHeaderLine
    omega
  unfold parseRequestWithLimit requestHead
  rw [readLine_utf8 hlf hlen]
  dsimp only
  rw [trimEndCr_eq_self hcr, stripPrefix_append]
  dsimp only
  rw [Verb.ofStr_asStr]

/-- A declared length beyond the cap is refused. -/
theorem onceLength_exceeds {header : HeaderName} {cap n : Nat} (h : cap < n) (slot : Option Nat) :
    ∃ e, onceLength header (withinCap header cap) slot (trim (decimal n)) = .error e := by
  unfold onceLength
  split
  · exact ⟨_, rfl⟩
  · rw [trim_decimal, parseUsize_decimal_eq]
    by_cases hword : n < 2 ^ 64
    · rw [if_pos hword]
      exact ⟨.exceedsCap header n cap, by simp only [withinCap, if_pos h, Except.map]⟩
    · rw [if_neg hword]
      exact ⟨_, rfl⟩

/-- A fold that fails at its last element fails. -/
theorem exists_foldlM_error {ε σ β : Type} {f : σ → β → Except ε σ} {b : β}
    (h : ∀ st, ∃ e, f st b = .error e) (l : List β) (st : σ) :
    ∃ e, (l ++ [b]).foldlM f st = .error e := by
  induction l generalizing st with
  | nil =>
      obtain ⟨e, he⟩ := h st
      exact ⟨e, by rw [List.nil_append, List.foldlM_cons, he]; rfl⟩
  | cons a l ih =>
      rw [List.cons_append, List.foldlM_cons]
      cases f st a with
      | error e => exact ⟨e, rfl⟩
      | ok st' => exact ih st'

/-- HOOK-CREATE with a header line beyond the line limit, or a body beyond the cap, is refused. -/
theorem parseRequestWithLimit_hookCreate_refused {cap : Nat} {req : HookCreateRequest} (rest : Bytes)
    (hbig : ¬((Request.hookCreate req).LinesFit ∧ req.body.length ≤ cap)) :
    ∃ reason, parseRequestWithLimit cap (writeHookCreateRequest req ++ rest) =
      .error (.malformed reason) := by
  have hlines : ∀ h ∈ hookCreateHeaders req, OneLine h.2 := by
    intro h hmem
    unfold hookCreateHeaders at hmem
    grind [sanitizeInline_oneLine, decimal_oneLine]
  have hheaders : ∃ e, readHeaders (onHookCreateHeader cap) ⟨none, none, none, none⟩
      (utf8 (headerBlock (hookCreateHeaders req)) ++ (req.body ++ rest)) = .error e := by
    by_cases hfit : (Request.hookCreate req).LinesFit
    · -- the lines are read, and the last of them declares the length of the body
      have hbody : cap < req.body.length := Nat.lt_of_not_le fun hle => hbig ⟨hfit, hle⟩
      have hfits : ∀ h ∈ hookCreateHeaders req, HeaderFits h := Request.headerFits hfit
      have hlast : ∀ st : HookCreateHeaders, ∃ e, onHookCreateHeader cap st (some .contentLength)
          (trim (decimal req.body.length)) = .error e := by
        intro st
        obtain ⟨e, he⟩ := @onceLength_exceeds .contentLength cap req.body.length hbody st.contentLength
        exact ⟨e, by simp only [onHookCreateHeader, he, Except.map]⟩
      obtain ⟨e, he⟩ := @exists_foldlM_error _ _ (HeaderName × Str)
        (fun st h => onHookCreateHeader cap st (some h.1) (trim h.2))
        (.contentLength, decimal req.body.length) hlast _ ⟨none, none, none, none⟩
      refine ⟨e, ?_⟩
      rw [readHeaders_headerBlock hfits, hookCreateHeaders, he]
      rfl
    · unfold Request.LinesFit at hfit
      push Not at hfit
      obtain ⟨h, hmem, hlong⟩ := hfit
      exact readHeaders_tooLong hlines hmem hlong _ _
  obtain ⟨e, he⟩ := hheaders
  refine ⟨e, ?_⟩
  rw [writeHookCreateRequest, List.append_assoc, parseRequestWithLimit_requestHead]
  simp only [parseVerb, parseHookCreateHeadersAndBody, he, Except.map]

/-- The dispatcher on a request that was written: the request as it is cleaned exactly when the
protocol can carry it. -/
theorem parseRequestWithLimit_write {cap : Nat} (hcap : cap < 2 ^ 64) {req : Request}
    (hlines : req.LinesFit) (hbodies : req.BodiesFit cap) (rest : Bytes) :
    (req.Admissible → parseRequestWithLimit cap (req.write ++ rest) = .ok (req.clean, rest)) ∧
      (¬ req.Admissible →
        ∃ reason, parseRequestWithLimit cap (req.write ++ rest) = .error (.malformed reason)) := by
  have hfits := Request.headerFits hlines
  cases req with
  | send req =>
      have hparse := parseSend_write hcap hfits hbodies.1 hbodies.2 rest
      have hwrite : (Request.send req).write ++ rest = utf8 (requestHead .send (sendHeaders req)) ++
          (req.body ++ (req.htmlBody.getD [] ++ rest)) := by
        simp only [Request.write, writeRequest, List.append_assoc]
      rw [hwrite, parseRequestWithLimit_requestHead]
      simp only [parseVerb, hparse]
      constructor
      · intro hok
        rw [if_neg hok]
        rfl
      · intro hbad
        rw [if_pos (not_not.mp hbad)]
        exact ⟨_, rfl⟩
  | mark req =>
      have hparse := parseMarkHeaders_write hfits rest
      have hverb : parseVerb cap (utf8 (headerBlock (markHeaders req)) ++ rest)
          (if req.read then .markRead else .markUnread) =
          (parseMarkHeaders req.read (utf8 (headerBlock (markHeaders req)) ++ rest)).map
            fun p => (.mark p.1, p.2) := by
        cases req.read <;> rfl
      simp only [Request.write, writeMarkRequest, parseRequestWithLimit_requestHead]
      rw [hverb, hparse]
      constructor
      · rintro ⟨hmailbox, hid⟩
        rw [if_neg hmailbox, if_neg hid]
        rfl
      · intro hbad
        by_cases hmailbox : cleanField req.mailbox = []
        · rw [if_pos hmailbox]
          exact ⟨_, rfl⟩
        · rw [if_neg hmailbox, if_pos (not_not.mp fun hid => hbad ⟨hmailbox, hid⟩)]
          exact ⟨_, rfl⟩
  | mailboxLifecycle req =>
      have hparse := parseMailboxCrudHeaders_write hfits rest
      have hverb : parseVerb cap (utf8 (headerBlock (mailboxCrudHeaders req)) ++ rest)
          (if req.create then .mailboxCreate else .mailboxDelete) =
          (parseMailboxCrudHeaders req.create
            (utf8 (headerBlock (mailboxCrudHeaders req)) ++ rest)).map
              fun p => (.mailboxLifecycle p.1, p.2) := by
        cases req.create <;> rfl
      simp only [Request.write, writeMailboxCrudRequest, parseRequestWithLimit_requestHead]
      rw [hverb, hparse]
      obtain ⟨name, create, owner, force⟩ := req
      constructor
      · rintro ⟨hname, howner⟩
        rw [if_neg hname]
        cases owner with
        | none => rfl
        | some owner =>
            have hvalid := howner owner rfl
            have hne := isValidSystemUsername_ne_nil hvalid
            simp only [hne, hvalid, ↓reduceIte]
            rfl
      · intro hbad
        by_cases hname : cleanField name = []
        · rw [if_pos hname]
          exact ⟨_, rfl⟩
        · rw [if_neg hname]
          cases owner with
          | none => exact absurd ⟨hname, by simp⟩ hbad
          | some owner =>
              have hinvalid : ¬ isValidSystemUsername (cleanField owner) = true := fun hvalid =>
                hbad ⟨hname, fun o ho => by
                  cases ho
                  exact hvalid⟩
              by_cases hempty : cleanField owner = []
              · simp only [hempty, ↓reduceIte]
                exact ⟨_, rfl⟩
              · simp only [hempty, hinvalid, Bool.false_eq_true, ↓reduceIte]
                exact ⟨_, rfl⟩
  | hookCreate req =>
      have hparse := parseHookCreate_write hcap hfits hbodies rest
      have hwrite : (Request.hookCreate req).write ++ rest =
          utf8 (requestHead .hookCreate (hookCreateHeaders req)) ++ (req.body ++ rest) := by
        simp only [Request.write, writeHookCreateRequest, List.append_assoc]
      rw [hwrite, parseRequestWithLimit_requestHead]
      simp only [parseVerb, hparse]
      obtain ⟨mailbox, event, name, body⟩ := req
      constructor
      · rintro ⟨hmailbox, hevent, hname⟩
        rw [if_neg hmailbox, if_neg hevent]
        cases name with
        | none => rfl
        | some name =>
            have hne := hname name rfl
            simp only [hne, ↓reduceIte]
            rfl
      · intro hbad
        by_cases hmailbox : cleanField mailbox = []
        · rw [if_pos hmailbox]
          exact ⟨_, rfl⟩
        · rw [if_neg hmailbox]
          by_cases hevent : cleanField event = []
          · rw [if_pos hevent]
            exact ⟨_, rfl⟩
          · rw [if_neg hevent]
            cases name with
            | none => exact absurd ⟨hmailbox, hevent, by simp⟩ hbad
            | some name =>
                have hempty : cleanField name = [] := by
                  by_contra hne
                  refine hbad ⟨hmailbox, hevent, fun n hn => ?_⟩
                  cases hn
                  exact hne
                simp only [hempty, ↓reduceIte]
                exact ⟨_, rfl⟩
  | hookDelete req =>
      have hparse := parseHookDeleteHeaders_write hfits rest
      simp only [Request.write, writeHookDeleteRequest, parseRequestWithLimit_requestHead,
        parseVerb, hparse]
      constructor
      · intro hname
        rw [if_neg hname]
        rfl
      · intro hbad
        rw [if_pos (not_not.mp hbad)]
        exact ⟨_, rfl⟩
  | mailboxList | hookList | version =>
      refine ⟨fun _ => ?_, fun hbad => absurd trivial hbad⟩
      simp only [Request.write, writeMailboxListRequest, writeHookListRequest, writeVersionRequest,
        parseRequestWithLimit_requestHead, parseVerb, parseMailboxListHeaders,
        parseHookListHeaders, parseVersionHeaders, parseNoHeaders_write]
      rfl

/-- **Requests survive the wire.**  What the daemon parses from the bytes that a client wrote is the
same verb with the same fields, up to removed line breaks and trimmed white space, and with the same
bodies, and exactly the written bytes are consumed; or it is an error, and that exactly when a field
is empty after cleaning, the owner is no user name or both escape hatches of SEND are used. -/
theorem parseRequest_write (req : Request) (rest : Bytes) (hlines : req.LinesFit)
    (hbodies : req.BodiesFit defaultMaxBodySize) :
    (req.Admissible → parseRequest (req.write ++ rest) = .ok (req.clean, rest)) ∧
      (¬ req.Admissible →
        ∃ reason, parseRequest (req.write ++ rest) = .error (.malformed reason)) :=
  parseRequestWithLimit_write (by decide) hlines hbodies rest

/-- The theorem at a request whose event has a line break that is dropped. -/
theorem parseRequest_write_hookCreate :
    parseRequest ((Request.hookCreate
        ⟨"bob".toList, "on_\nreceive ".toList, none, utf8 "\x7b\"cmd\":[]\x7d\n\n".toList⟩).write ++
          utf8 "AIMX/1 ".toList) =
      .ok (.hookCreate ⟨"bob".toList, "on_receive".toList, none, utf8 "\x7b\"cmd\":[]\x7d\n\n".toList⟩,
        utf8 "AIMX/1 ".toList) :=
  (parseRequest_write (.hookCreate
      ⟨"bob".toList, "on_\nreceive ".toList, none, utf8 "\x7b\"cmd\":[]\x7d\n\n".toList⟩)
    (utf8 "AIMX/1 ".toList) (by unfold Request.LinesFit; decide +kernel)
    (show _ ≤ _ by decide +kernel)).1
    (show _ ∧ _ ∧ _ by decide +kernel)

end Protocol
end Aimx
