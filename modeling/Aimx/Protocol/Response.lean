import Aimx.Protocol.Request

/-!
# Responses

The responses of the daemon, their four writers, and the four decoders of the clients.  The JSON
serializer of the version data is a parameter.

* `writeResponse`, `writeAckResponse`, `writeJsonAckResponse`, `writeVersionResponse` — the writers;
* `parseResponseLine`, `parseAckResponse`, `decodeMailboxListResponse`, `readVersionResponse` — the
  decoders;
* `decode_write` — what every decoder makes of what its writer wrote.
-/

namespace Aimx
namespace Protocol

open Text Send Daemon

/-! ## Error codes -/

/-- `ErrCode::as_str`. -/
def errCodeStr : ErrCode → Str
  | .mailbox => "MAILBOX".toList
  | .domain => "DOMAIN".toList
  | .sign => "SIGN".toList
  | .delivery => "DELIVERY".toList
  | .temp => "TEMP".toList
  | .malformed => "MALFORMED".toList
  | .protocol => "PROTOCOL".toList
  | .notFound => "NOTFOUND".toList
  | .io => "IO".toList
  | .validation => "VALIDATION".toList
  | .nonEmpty => "NONEMPTY".toList
  | .conflict => "ECONFLICT".toList
  | .eaccess => "EACCES".toList
  | .enoent => "ENOENT".toList
  | .bodyTooLarge => "BODY_TOO_LARGE".toList

/-- The error codes. -/
def errCodes : List ErrCode :=
  [.mailbox, .domain, .sign, .delivery, .temp, .malformed, .protocol, .notFound, .io, .validation,
    .nonEmpty, .conflict, .eaccess, .enoent, .bodyTooLarge]

/-- `ErrCode::from_str`. -/
def errCodeOfStr (s : Str) : Option ErrCode := errCodes.find? fun c => errCodeStr c == s

/-! ## Responses and writers -/

/-- The answer to a verb without a result. -/
inductive AckResponse
  | ok
  | err (reject : Reject)
  deriving DecidableEq

/-- The answer to a verb with a JSON result. -/
inductive JsonAckResponse
  | ok (body : Bytes)
  | err (reject : Reject)
  deriving DecidableEq

/-- The build metadata of the daemon. -/
structure VersionResponse where
  tag : Str
  gitHash : Str
  target : Str
  buildDate : Str
  deriving DecidableEq

/-- The JSON serializer and parser, at the version data. -/
structure Json where
  toVec : VersionResponse → Bytes
  fromSlice : Bytes → Option VersionResponse

/-- The frame of an error, the same for all writers. -/
def errFrame (reject : Reject) : Str :=
  "AIMX/1 ERR ".toList ++ errCodeStr reject.code ++ " ".toList ++ sanitizeInline reject.reason ++
    "\n".toList ++ "Code: ".toList ++ errCodeStr reject.code ++ "\n".toList ++ "\n".toList

/-- The head of a response with a body. -/
def okHead (n : Nat) : Str :=
  "AIMX/1 OK".toList ++ "\n".toList ++ "Content-Length: ".toList ++ decimal n ++ "\n".toList ++
    "\n".toList

/-- `write_response`. -/
def writeResponse : SendResponse → Bytes
  | .ok messageId => utf8 ("AIMX/1 OK ".toList ++ sanitizeInline messageId ++ "\n".toList)
  | .err reject => utf8 (errFrame reject)

/-- `write_ack_response`. -/
def writeAckResponse : AckResponse → Bytes
  | .ok => utf8 ("AIMX/1 OK".toList ++ "\n".toList)
  | .err reject => utf8 (errFrame reject)

/-- `write_json_ack_response`. -/
def writeJsonAckResponse : JsonAckResponse → Bytes
  | .ok body => utf8 (okHead body.length) ++ body
  | .err reject => utf8 (errFrame reject)

/-- `write_version_response`. -/
def writeVersionResponse (json : Json) (response : VersionResponse) : Bytes :=
  utf8 (okHead (json.toVec response).length) ++ json.toVec response

/-! ## Decoders -/

/-- Why a response is not a frame. -/
inductive Unexpected
  | notUtf8
  | empty
  | unexpectedLine (line : Str)
  | payloadAfterOk (line : Str)
  | unknownCode (code : Str)
  deriving DecidableEq

/-- The texts; a string is quoted as the standard library's `Debug` quotes it. -/
def Unexpected.display (debug : Str → Str) : Unexpected → Str
  | .notUtf8 => "response is not UTF-8".toList
  | .empty => "empty response from daemon".toList
  | .unexpectedLine line => "unexpected response: ".toList ++ debug line
  | .payloadAfterOk line => "unexpected payload after OK: ".toList ++ debug line
  | .unknownCode code => "unknown ERR code ".toList ++ debug code ++ " in response".toList

/-- The outcome of SEND at the client. -/
inductive SubmitOutcome
  | ok (messageId : Str)
  | err (reject : Reject)
  | malformed (reason : Unexpected)
  deriving DecidableEq

/-- The outcome of a verb without a result at the client. -/
inductive MarkOutcome
  | ok
  | err (reject : Reject)
  | malformed (reason : Unexpected)
  deriving DecidableEq

/-- The loop of `header_code` over the lines behind the first. -/
def codeOfLines : List Str → Option ErrCode
  | [] => none
  | rawLine :: rest =>
      let line := trimEndCr rawLine
      if line = [] then none
      else
        match stripPrefix "Code: ".toList line with
        | some v => errCodeOfStr (trim v)
        | none =>
            match stripPrefix "Code:".toList line with
            | some v => errCodeOfStr (trim v)
            | none => codeOfLines rest

/-- `header_code`. -/
def headerCode (text : Str) : Option ErrCode := codeOfLines ((lines text).drop 1)

/-- `parse_ack_code_header`. -/
def parseAckCodeHeader (text : Str) : Option ErrCode := headerCode text

/-- The code token and the reason of an error line. -/
def splitErrBody (errBody : Str) : Str × Str := (splitOnce ' ' errBody).getD (errBody, [])

/-- The error that a status line and the header below it report. -/
def decodeErr (header : Option ErrCode) (errBody : Str) : Except Unexpected Reject :=
  let (codeStr, reason) := splitErrBody errBody
  match header, errCodeOfStr codeStr with
  | some h, _ => .ok ⟨h, trim reason⟩
  | none, some inline => .ok ⟨inline, trim reason⟩
  | none, none => .error (.unknownCode codeStr)

/-- The text of a response and its status line. -/
def statusLine (buf : Bytes) : Except Unexpected (Str × Str) :=
  match fromUtf8 buf with
  | none => .error .notUtf8
  | some text =>
      let line := trimEndCr ((lines text).head?.getD [])
      if line = [] then .error .empty else .ok (text, line)

/-- `parse_response_line`. -/
def parseResponseLine (buf : Bytes) : SubmitOutcome :=
  match statusLine buf with
  | .error e => .malformed e
  | .ok (text, line) =>
      match stripPrefix "AIMX/1 ".toList line with
      | none => .malformed (.unexpectedLine line)
      | some rest =>
          match stripPrefix "OK ".toList rest with
          | some messageId => .ok (trim messageId)
          | none =>
              match stripPrefix "ERR ".toList rest with
              | none => .malformed (.unexpectedLine line)
              | some errBody =>
                  match decodeErr (headerCode text) errBody with
                  | .error e => .malformed e
                  | .ok reject => .err reject

/-- `parse_ack_response`. -/
def parseAckResponse (buf : Bytes) : MarkOutcome :=
  match statusLine buf with
  | .error e => .malformed e
  | .ok (text, line) =>
      match stripPrefix "AIMX/1 ".toList line with
      | none => .malformed (.unexpectedLine line)
      | some rest =>
          if rest = "OK".toList then .ok
          else if (stripPrefix "OK ".toList rest).isSome then .malformed (.payloadAfterOk line)
          else
            match stripPrefix "ERR ".toList rest with
            | none => .malformed (.unexpectedLine line)
            | some errBody =>
                match decodeErr (parseAckCodeHeader text) errBody with
                | .error e => .malformed e
                | .ok reject => .err reject

/-- Why a mailbox listing is not delivered: what the daemon reported, or a frame that is none. -/
inductive ListError
  | daemon (code reason : Str)
  | notUtf8
  | noHeaderTerminator (text : Str)
  | empty
  | unexpectedLine (line : Str)
  | invalidLength (line : Str)
  | missingLength
  | truncated (n actual : Nat)
  | bodyNotUtf8
  deriving DecidableEq

/-- The texts that `decode_mailbox_list_response` returns. -/
def ListError.display (debug : Str → Str) : ListError → Str
  | .daemon code reason => "[".toList ++ code ++ "] ".toList ++ reason
  | .notUtf8 => "response is not UTF-8".toList
  | .noHeaderTerminator text => "malformed response (no header terminator): ".toList ++ debug text
  | .empty => "empty response from daemon".toList
  | .unexpectedLine line => "unexpected response: ".toList ++ debug line
  | .invalidLength line => "invalid Content-Length: ".toList ++ debug line
  | .missingLength => "missing Content-Length on OK response".toList
  | .truncated n actual =>
      "truncated body: expected ".toList ++ decimal n ++ " bytes, got ".toList ++ decimal actual
  | .bodyNotUtf8 => "JSON body is not UTF-8".toList

/-- The header block and the length of the separator behind it. -/
def headerEnd (text : Str) : Option (Str × Nat) :=
  match text.dropInfix? "\n\n".toList with
  | some (block, _) => some (block, 2)
  | none => (text.dropInfix? "\r\n\r\n".toList).map fun p => (p.1, 4)

/-- The last `Content-Length` of the header lines. -/
def listContentLength (slot : Option Nat) : List Str → Except ListError (Option Nat)
  | [] => .ok slot
  | rawLine :: rest =>
      let line := trimEndCr rawLine
      match stripPrefix "Content-Length:".toList line with
      | none => listContentLength slot rest
      | some v =>
          match parseUsize (trim v) with
          | none => .error (.invalidLength line)
          | some n => listContentLength (some n) rest

/-- `decode_mailbox_list_response`. -/
def decodeMailboxListResponse (buf : Bytes) : Except ListError Str :=
  match fromUtf8 buf with
  | none => .error .notUtf8
  | some text =>
      match headerEnd text with
      | none => .error (.noHeaderTerminator text)
      | some (block, sepLen) =>
          match lines block with
          | [] => .error .empty
          | rawStatus :: headers =>
              let status := trimEndCr rawStatus
              match stripPrefix "AIMX/1 ".toList status with
              | none => .error (.unexpectedLine status)
              | some rest =>
                  if rest = "OK".toList then
                    match listContentLength none headers with
                    | .error e => .error e
                    | .ok none => .error .missingLength
                    | .ok (some n) =>
                        let bodyBytes := buf.drop (byteLen block + sepLen)
                        if bodyBytes.length < n then .error (.truncated n bodyBytes.length)
                        else
                          match fromUtf8 (bodyBytes.take n) with
                          | none => .error .bodyNotUtf8
                          | some json => .ok json
                  else
                    match stripPrefix "ERR ".toList rest with
                    | none => .error (.unexpectedLine status)
                    | some errBody =>
                        let (codeStr, reason) := splitErrBody errBody
                        let code := ((errCodeOfStr codeStr).map errCodeStr).getD codeStr
                        .error (.daemon code (trim reason))

/-- Why no version is read. -/
inductive VersionError
  | frame (reason : Malformed)
  | eofOnStatus
  | status (line : Str)
  | nonIntegerLength (value : Str)
  | missingLength
  | invalidJson
  deriving DecidableEq

/-- The header loop of `read_version_response`. -/
def readVersionHeaders (slot : Option Nat) (input : Bytes) :
    Except VersionError (Option Nat × Bytes) :=
  match _hline : readLine input with
  | .error e => .error (.frame e)
  | .ok none => .error (.frame .eofInHeaders)
  | .ok (some (rawLine, rest)) =>
      let line := trimEndCr rawLine
      if line = [] then .ok (slot, rest)
      else
        match splitOnce ':' line with
        | none => .error (.frame (.headerLine line))
        | some (n, v) =>
            if eqIgnoreAsciiCase (trim n) "content-length".toList then
              match parseUsize (trim v) with
              | none => .error (.nonIntegerLength (trim v))
              | some len => readVersionHeaders (some len) rest
            else readVersionHeaders slot rest
termination_by input.length
decreasing_by all_goals exact readLine_length (by assumption)

/-- `read_version_response`. -/
def readVersionResponse (json : Json) (input : Bytes) : Except VersionError VersionResponse :=
  match readLine input with
  | .error e => .error (.frame e)
  | .ok none => .error .eofOnStatus
  | .ok (some (rawStatus, rest)) =>
      let status := trimEndCr rawStatus
      match stripPrefix "AIMX/1 OK".toList status with
      | none => .error (.status status)
      | some _ =>
          match readVersionHeaders none rest with
          | .error e => .error e
          | .ok (none, _) => .error .missingLength
          | .ok (some n, rest) =>
              match readExact n rest with
              | none => .error (.frame (.bodyTruncated n))
              | some (body, _) =>
                  match json.fromSlice body with
                  | none => .error .invalidJson
                  | some response => .ok response

/-! ## Round trips -/

@[simp] theorem errCodeOfStr_errCodeStr (c : ErrCode) : errCodeOfStr (errCodeStr c) = some c := by
  cases c <;> decide +kernel

theorem errCodeStr_clean (c : ErrCode) :
    OneLine (errCodeStr c) ∧ ' ' ∉ errCodeStr c ∧ trim (errCodeStr c) = errCodeStr c := by
  unfold OneLine
  cases c <;> decide +kernel

/-- The first line of a text that begins with a line that was written. -/
theorem lines_oneLine {line : Str} (h : OneLine line) (rest : Str) :
    lines (line ++ "\n".toList ++ rest) = line :: lines rest := by
  have hcr : line.getLast? ≠ some '\r' := fun hlast => h.2 (List.mem_of_getLast? hlast)
  rw [List.append_assoc]
  exact lines_lf_cons h.1 hcr rest

/-- The status line of a response. -/
theorem statusLine_utf8 {line : Str} (h : OneLine line) (hne : line ≠ []) (rest : Str) :
    statusLine (utf8 (line ++ "\n".toList ++ rest)) = .ok (line ++ "\n".toList ++ rest, line) := by
  unfold statusLine
  rw [fromUtf8_eq_some_iff.mpr rfl]
  dsimp only
  rw [lines_oneLine h, List.head?_cons, Option.getD_some, trimEndCr_eq_self h.2, if_neg hne]

/-- The status line of an error, behind the protocol name. -/
def errStatus (reject : Reject) : Str :=
  "ERR ".toList ++ (errCodeStr reject.code ++ " ".toList ++ sanitizeInline reject.reason)

/-- The `Code:` header of an error. -/
def codeLine (reject : Reject) : Str := "Code: ".toList ++ errCodeStr reject.code

theorem errFrame_eq (reject : Reject) :
    errFrame reject =
      "AIMX/1 ".toList ++ errStatus reject ++ "\n".toList ++
        (codeLine reject ++ "\n".toList ++ "\n".toList) := by
  have hhead : "AIMX/1 ERR ".toList = "AIMX/1 ".toList ++ "ERR ".toList := by simp
  unfold errFrame errStatus codeLine
  rw [hhead]
  simp only [List.append_assoc]

theorem errLine_oneLine (reject : Reject) : OneLine ("AIMX/1 ".toList ++ errStatus reject) := by
  obtain ⟨hcode, -, -⟩ := errCodeStr_clean reject.code
  have hbody := (hcode.append (t := " ".toList) (by simp [OneLine])).append
    (sanitizeInline_oneLine reject.reason)
  exact OneLine.append (by simp [OneLine]) (OneLine.append (by simp [OneLine]) hbody)

theorem codeLine_oneLine (reject : Reject) : OneLine (codeLine reject) :=
  OneLine.append (by simp [OneLine]) (errCodeStr_clean reject.code).1

theorem append_literal_ne_nil {a b : Str} (h : a ≠ []) : a ++ b ≠ [] :=
  List.append_ne_nil_of_left_ne_nil h b

/-- A `Code:` line that is whole is the one the scan stops at. -/
theorem codeOfLines_code {line v : Str} (rest : List Str) (htrim : trimEndCr line = line)
    (hne : line ≠ []) (hcode : stripPrefix "Code: ".toList line = some v) :
    codeOfLines (line :: rest) = errCodeOfStr (trim v) := by
  unfold codeOfLines
  dsimp only
  rw [htrim, if_neg hne, hcode]

/-- The `Code:` header of an error frame is found. -/
theorem headerCode_errFrame (reject : Reject) : headerCode (errFrame reject) = some reject.code := by
  obtain ⟨-, -, htrim⟩ := errCodeStr_clean reject.code
  have hne : codeLine reject ≠ [] := append_literal_ne_nil (by simp)
  unfold headerCode
  rw [errFrame_eq, lines_oneLine (errLine_oneLine reject), List.drop_one, List.tail_cons,
    lines_oneLine (codeLine_oneLine reject),
    codeOfLines_code _ (trimEndCr_eq_self (codeLine_oneLine reject).2) hne (stripPrefix_append _ _),
    htrim, errCodeOfStr_errCodeStr]

/-- The token and the reason of the status line of an error. -/
theorem splitErrBody_errLine (reject : Reject) :
    splitErrBody (errCodeStr reject.code ++ " ".toList ++ sanitizeInline reject.reason) =
      (errCodeStr reject.code, sanitizeInline reject.reason) := by
  obtain ⟨-, hspace, -⟩ := errCodeStr_clean reject.code
  have hsplit : splitOnce ' ' (errCodeStr reject.code ++ " ".toList ++
      sanitizeInline reject.reason) =
        some (errCodeStr reject.code, sanitizeInline reject.reason) := by
    apply splitOnce_eq_some_iff.mpr
    exact ⟨List.append_assoc _ _ _, hspace⟩
  unfold splitErrBody
  rw [hsplit]
  rfl

/-- The error of an error frame. -/
theorem decodeErr_errFrame (reject : Reject) :
    decodeErr (headerCode (errFrame reject))
        (errCodeStr reject.code ++ " ".toList ++ sanitizeInline reject.reason) =
      .ok ⟨reject.code, cleanField reject.reason⟩ := by
  unfold decodeErr
  rw [splitErrBody_errLine, headerCode_errFrame]
  rfl

theorem statusLine_errFrame (reject : Reject) :
    statusLine (utf8 (errFrame reject)) =
      .ok (errFrame reject, "AIMX/1 ".toList ++ errStatus reject) := by
  have hne : "AIMX/1 ".toList ++ errStatus reject ≠ [] := append_literal_ne_nil (by simp)
  rw [errFrame_eq]
  exact statusLine_utf8 (errLine_oneLine reject) hne _

/-- An error line is no success. -/
theorem stripPrefix_ok_errStatus (reject : Reject) :
    stripPrefix "OK ".toList (errStatus reject) = none := by
  have hok : ∀ s : Str, ("OK ".toList ++ s).head? = some 'O' := fun s => rfl
  rw [Option.eq_none_iff_forall_ne_some]
  intro rest h
  have hsame := congrArg List.head? (stripPrefix_eq_some_iff.mp h)
  rw [hok] at hsame
  cases hsame

/-- An error line is no bare success. -/
theorem errStatus_ne_ok (reject : Reject) : errStatus reject ≠ "OK".toList := by
  intro h
  have herr : (errStatus reject).head? = some 'E' := rfl
  rw [h] at herr
  cases herr

/-- SEND: the message id or the error. -/
theorem parseResponseLine_writeResponse (response : SendResponse) :
    parseResponseLine (writeResponse response) =
      match response with
      | .ok messageId => .ok (cleanField messageId)
      | .err reject => .err ⟨reject.code, cleanField reject.reason⟩ := by
  cases response with
  | ok messageId =>
      have hline : OneLine ("AIMX/1 ".toList ++ ("OK ".toList ++ sanitizeInline messageId)) :=
        OneLine.append (by simp [OneLine])
          (OneLine.append (by simp [OneLine]) (sanitizeInline_oneLine messageId))
      have hframe : "AIMX/1 OK ".toList ++ sanitizeInline messageId ++ "\n".toList =
          "AIMX/1 ".toList ++ ("OK ".toList ++ sanitizeInline messageId) ++ "\n".toList ++ [] := by
        have hhead : "AIMX/1 OK ".toList = "AIMX/1 ".toList ++ "OK ".toList := by simp
        rw [hhead]
        simp only [List.append_assoc, List.append_nil]
      unfold parseResponseLine writeResponse
      dsimp only
      rw [hframe, statusLine_utf8 hline (append_literal_ne_nil (by simp))]
      dsimp only
      rw [stripPrefix_append]
      dsimp only
      rw [stripPrefix_append]
      rfl
  | err reject =>
      unfold parseResponseLine writeResponse
      dsimp only
      rw [statusLine_errFrame]
      dsimp only
      rw [stripPrefix_append]
      dsimp only
      rw [stripPrefix_ok_errStatus]
      dsimp only
      rw [errStatus, stripPrefix_append]
      dsimp only
      rw [decodeErr_errFrame]

/-- The verbs without a result: success or the error. -/
theorem parseAckResponse_writeAckResponse (response : AckResponse) :
    parseAckResponse (writeAckResponse response) =
      match response with
      | .ok => .ok
      | .err reject => .err ⟨reject.code, cleanField reject.reason⟩ := by
  cases response with
  | ok => decide +kernel
  | err reject =>
      unfold parseAckResponse writeAckResponse
      dsimp only
      rw [statusLine_errFrame]
      dsimp only
      rw [stripPrefix_append]
      dsimp only
      rw [if_neg (errStatus_ne_ok reject), stripPrefix_ok_errStatus, Option.isSome_none,
        if_neg Bool.false_ne_true, errStatus, stripPrefix_append]
      dsimp only
      rw [parseAckCodeHeader, decodeErr_errFrame]

/-- A separator makes an empty line. -/
theorem mem_lines_of_separator {s : Str} (h : "\n\n".toList <:+: s) : [] ∈ lines s := by
  obtain ⟨p, q, rfl⟩ := h
  have hs : p ++ "\n\n".toList ++ q = p ++ '\n' :: ('\n' :: q) := by
    rw [List.append_assoc]
    rfl
  rw [hs, lines_append_newline, List.mem_append]
  right
  rw [lines]
  exact List.mem_cons_self

/-- Two lines and a blank line behind them: the header block ends at the blank line. -/
theorem headerEnd_two_lines {l₁ l₂ : Str} (h₁ : OneLine l₁) (h₂ : OneLine l₂) (hne₁ : l₁ ≠ [])
    (hne₂ : l₂ ≠ []) (rest : Str) :
    headerEnd (l₁ ++ "\n".toList ++ (l₂ ++ "\n".toList ++ "\n".toList) ++ rest) =
      some (l₁ ++ "\n".toList ++ l₂, 2) := by
  have hsplit : l₁ ++ "\n".toList ++ (l₂ ++ "\n".toList ++ "\n".toList) ++ rest =
      l₁ ++ "\n".toList ++ l₂ ++ "\n\n".toList ++ rest := by
    have hnl : "\n\n".toList = "\n".toList ++ "\n".toList := by simp
    rw [hnl]
    simp only [List.append_assoc]
  have hlines : lines (l₁ ++ "\n".toList ++ l₂ ++ "\n\n".toList.dropLast) = [l₁, l₂] := by
    have hdrop : "\n\n".toList.dropLast = "\n".toList := by simp
    have htail := lines_oneLine h₂ []
    rw [List.append_nil] at htail
    rw [hdrop, List.append_assoc, lines_oneLine h₁, htail]
    rfl
  have hfound : (l₁ ++ "\n".toList ++ l₂ ++ "\n\n".toList ++ rest).dropInfix? "\n\n".toList =
      some (l₁ ++ "\n".toList ++ l₂, rest) := by
    apply (dropInfix?_append_iff (by simp)).mpr
    intro hinfix
    have hmem := mem_lines_of_separator hinfix
    rw [hlines] at hmem
    simp only [List.mem_cons, List.not_mem_nil, or_false] at hmem
    rcases hmem with h | h
    · exact hne₁ h.symm
    · exact hne₂ h.symm
  unfold headerEnd
  rw [hsplit, hfound]

/-- The lines of such a header block. -/
theorem lines_two_lines {l₁ l₂ : Str} (h₁ : OneLine l₁) (h₂ : OneLine l₂) (hne₂ : l₂ ≠ []) :
    lines (l₁ ++ "\n".toList ++ l₂) = [l₁, l₂] := by
  rw [lines_oneLine h₁, lines_single h₂.1 hne₂]

/-- The header of a response with a body. -/
def lengthLine (n : Nat) : Str := "Content-Length:".toList ++ (" ".toList ++ decimal n)

theorem okHead_eq (n : Nat) :
    okHead n =
      "AIMX/1 OK".toList ++ "\n".toList ++ (lengthLine n ++ "\n".toList ++ "\n".toList) := by
  have hname : "Content-Length: ".toList = "Content-Length:".toList ++ " ".toList := by
    simp
  unfold okHead lengthLine
  rw [hname]
  simp only [List.append_assoc]

theorem lengthLine_oneLine (n : Nat) : OneLine (lengthLine n) :=
  OneLine.append (by simp [OneLine]) (OneLine.append (by simp [OneLine]) (decimal_oneLine n))

theorem trim_space_decimal (n : Nat) : trim (" ".toList ++ decimal n) = decimal n := by
  show trim (' ' :: decimal n) = decimal n
  rw [trim_space_cons, trim_decimal]

/-- The length that was written is read. -/
theorem listContentLength_lengthLine {n : Nat} (h : n < 2 ^ 64) :
    listContentLength none [lengthLine n] = .ok (some n) := by
  have hstrip : stripPrefix "Content-Length:".toList (lengthLine n) =
      some (" ".toList ++ decimal n) := stripPrefix_append _ _
  have hparse : parseUsize (trim (" ".toList ++ decimal n)) = some n := by
    rw [trim_space_decimal, parseUsize_decimal h]
  unfold listContentLength
  rw [trimEndCr_eq_self (lengthLine_oneLine n).2]
  dsimp only
  rw [hstrip]
  dsimp only
  rw [hparse]
  dsimp only
  unfold listContentLength
  rfl

/-- The JSON listing: the body byte for byte. -/
theorem decodeMailboxListResponse_ok {text : Str} (hsize : byteLen text < 2 ^ 64) :
    decodeMailboxListResponse (writeJsonAckResponse (.ok (utf8 text))) = .ok text := by
  have hbuf : fromUtf8 (utf8 (okHead (byteLen text)) ++ utf8 text) =
      some (okHead (byteLen text) ++ text) := by
    apply fromUtf8_eq_some_iff.mpr
    rw [utf8_append]
  have hstatus : OneLine "AIMX/1 OK".toList := by simp [OneLine]
  have hne : lengthLine (byteLen text) ≠ [] := append_literal_ne_nil (by simp)
  have hhead : byteLen (okHead (byteLen text)) =
      byteLen ("AIMX/1 OK".toList ++ "\n".toList ++ lengthLine (byteLen text)) + 2 := by
    have hnl : byteLen "\n".toList = 1 := rfl
    rw [okHead_eq]
    simp only [byteLen_append, hnl]
    omega
  have hdrop : (utf8 (okHead (byteLen text)) ++ utf8 text).drop
      (byteLen ("AIMX/1 OK".toList ++ "\n".toList ++ lengthLine (byteLen text)) + 2) =
        utf8 text := by
    rw [← hhead]
    exact List.drop_left
  have hcl := listContentLength_lengthLine hsize
  have hstrip : stripPrefix "AIMX/1 ".toList (trimEndCr "AIMX/1 OK".toList) =
      some "OK".toList := rfl
  have hwrite : writeJsonAckResponse (.ok (utf8 text)) =
      utf8 (okHead (byteLen text)) ++ utf8 text := rfl
  unfold decodeMailboxListResponse
  rw [hwrite, hbuf]
  dsimp only
  rw [okHead_eq, headerEnd_two_lines hstatus (lengthLine_oneLine _) (by simp) hne]
  dsimp only
  rw [lines_two_lines hstatus (lengthLine_oneLine _) hne]
  dsimp only
  rw [hstrip]
  dsimp only
  rw [if_pos rfl, hcl]
  dsimp only
  rw [← okHead_eq, hdrop, byteLen, if_neg (lt_irrefl _), List.take_length,
    fromUtf8_eq_some_iff.mpr rfl]

/-- The JSON listing: the error. -/
theorem decodeMailboxListResponse_err (reject : Reject) :
    decodeMailboxListResponse (writeJsonAckResponse (.err reject)) =
      .error (.daemon (errCodeStr reject.code) (cleanField reject.reason)) := by
  have hne : "AIMX/1 ".toList ++ errStatus reject ≠ [] := append_literal_ne_nil (by simp)
  have hneCode : codeLine reject ≠ [] := append_literal_ne_nil (by simp)
  have hend := headerEnd_two_lines (errLine_oneLine reject) (codeLine_oneLine reject) hne hneCode []
  rw [List.append_nil, ← errFrame_eq] at hend
  unfold decodeMailboxListResponse writeJsonAckResponse
  dsimp only
  rw [fromUtf8_eq_some_iff.mpr rfl]
  dsimp only
  rw [hend]
  dsimp only
  rw [lines_two_lines (errLine_oneLine reject) (codeLine_oneLine reject) hneCode]
  dsimp only
  rw [trimEndCr_eq_self (errLine_oneLine reject).2, stripPrefix_append]
  dsimp only
  rw [if_neg (errStatus_ne_ok reject), errStatus, stripPrefix_append]
  dsimp only
  rw [splitErrBody_errLine]
  dsimp only
  rw [errCodeOfStr_errCodeStr]
  rfl

/-- The header loop of the version reader on the head of a response. -/
theorem readVersionHeaders_okHead {n : Nat} (h : n < 2 ^ 64)
    (hfits : byteLen (lengthLine n) ≤ maxHeaderLine) (rest : Bytes) :
    readVersionHeaders none
        (utf8 (lengthLine n ++ "\n".toList ++ "\n".toList) ++ rest) = .ok (some n, rest) := by
  have hne : lengthLine n ≠ [] := append_literal_ne_nil (by simp)
  have hblank : readLine (utf8 "\n".toList ++ rest) = .ok (some ([], rest)) :=
    @readLine_utf8 [] (by simp) (by simp) [] rest
  have hsplit : splitOnce ':' (lengthLine n) =
      some ("Content-Length".toList, " ".toList ++ decimal n) := by
    apply splitOnce_eq_some_iff.mpr
    constructor
    · have hname : "Content-Length:".toList = "Content-Length".toList ++ [':'] := by simp
      unfold lengthLine
      rw [hname, List.append_assoc]
      rfl
    · simp
  have hmatch : eqIgnoreAsciiCase (trim "Content-Length".toList) "content-length".toList = true := by
    rfl
  have hparse : parseUsize (trim (" ".toList ++ decimal n)) = some n := by
    rw [trim_space_decimal, parseUsize_decimal h]
  have hread := readLine_utf8 (lengthLine_oneLine n).1 hfits "\n".toList rest
  have hend : readVersionHeaders (some n) (utf8 "\n".toList ++ rest) = .ok (some n, rest) := by
    rw [readVersionHeaders]
    split
    next heq =>
        rw [hblank] at heq
        cases heq
    next heq =>
        rw [hblank] at heq
        cases heq
    next heq =>
        rw [hblank] at heq
        cases heq
        rfl
  rw [readVersionHeaders]
  split
  next heq =>
      rw [hread] at heq
      cases heq
  next heq =>
      rw [hread] at heq
      cases heq
  next heq =>
      rw [hread] at heq
      cases heq
      dsimp only
      rw [trimEndCr_eq_self (lengthLine_oneLine n).2, if_neg hne, hsplit]
      dsimp only
      rw [if_pos hmatch, hparse]
      exact hend

/-- A number of a machine word has few digits. -/
theorem decimal_length_le {n : Nat} (h : n < 2 ^ 64) : (decimal n).length ≤ 20 := by
  apply (Nat.length_toDigits_le_iff (by omega) (by omega)).mpr
  omega

/-- Digits are encoded by one byte each. -/
theorem byteLen_decimal (n : Nat) : byteLen (decimal n) = (decimal n).length := by
  have hall : ∀ s : Str, (∀ c ∈ s, c.isDigit = true) → byteLen s = s.length := by
    intro s
    induction s with
    | nil => intro _; rfl
    | cons c s ih =>
        intro hs
        have hc : c.toNat < 0x80 := by
          have hdigit := hs c List.mem_cons_self
          simp only [Char.isDigit, Bool.and_eq_true, decide_eq_true_eq] at hdigit
          have hhigh : c.toNat ≤ 57 := UInt32.le_iff_toNat_le.mp hdigit.2
          omega
        have hrest := ih fun d hd => hs d (List.mem_cons_of_mem c hd)
        unfold byteLen at hrest ⊢
        rw [utf8_cons, utf8EncodeChar_ascii hc, List.length_append, hrest]
        simp only [List.length_nil, List.length_cons]
        omega
  exact hall _ fun c hc => isDigit_of_mem_decimal hc

/-- The version data: the same record. -/
theorem readVersionResponse_write {json : Json} {version : VersionResponse}
    (hjson : json.fromSlice (json.toVec version) = some version)
    (hsize : (json.toVec version).length < 2 ^ 64) :
    readVersionResponse json (writeVersionResponse json version) = .ok version := by
  have hfits : byteLen (lengthLine (json.toVec version).length) ≤ maxHeaderLine := by
    have hname : byteLen "Content-Length:".toList = 15 := rfl
    have hspace : byteLen " ".toList = 1 := rfl
    have hdigits := decimal_length_le hsize
    unfold lengthLine maxHeaderLine
    rw [byteLen_append, byteLen_append, hname, hspace, byteLen_decimal]
    omega
  have hstatus := @readLine_utf8 "AIMX/1 OK".toList (by simp) (by decide)
    (lengthLine (json.toVec version).length ++ "\n".toList ++ "\n".toList) (json.toVec version)
  have hstrip : stripPrefix "AIMX/1 OK".toList (trimEndCr "AIMX/1 OK".toList) = some [] := by
    rfl
  have hexact : readExact (json.toVec version).length (json.toVec version) =
      some (json.toVec version, []) := by
    have happend := readExact_append (json.toVec version) []
    rwa [List.append_nil] at happend
  unfold readVersionResponse writeVersionResponse
  rw [okHead_eq, hstatus]
  dsimp only
  rw [hstrip]
  dsimp only
  rw [readVersionHeaders_okHead hsize hfits]
  dsimp only
  rw [hexact]
  dsimp only
  rw [hjson]

/-- **Responses survive the wire.**  Every decoder returns the variant that was written: the message
id or the reason without line breaks and trimmed, the error code, the JSON body byte for byte, the
version data.  A byte vector is shorter than a machine word, and the JSON parser undoes the
serializer. -/
theorem decode_write {json : Json} {version : VersionResponse} {text : Str}
    (send : SendResponse) (ack : AckResponse) (listReject : Reject)
    (hjson : json.fromSlice (json.toVec version) = some version)
    (hversion : (json.toVec version).length < 2 ^ 64) (htext : byteLen text < 2 ^ 64) :
    (parseResponseLine (writeResponse send) =
      match send with
      | .ok messageId => .ok (cleanField messageId)
      | .err reject => .err ⟨reject.code, cleanField reject.reason⟩) ∧
    (parseAckResponse (writeAckResponse ack) =
      match ack with
      | .ok => .ok
      | .err reject => .err ⟨reject.code, cleanField reject.reason⟩) ∧
    decodeMailboxListResponse (writeJsonAckResponse (.ok (utf8 text))) = .ok text ∧
    decodeMailboxListResponse (writeJsonAckResponse (.err listReject)) =
      .error (.daemon (errCodeStr listReject.code) (cleanField listReject.reason)) ∧
    readVersionResponse json (writeVersionResponse json version) = .ok version :=
  ⟨parseResponseLine_writeResponse send, parseAckResponse_writeAckResponse ack,
    decodeMailboxListResponse_ok htext, decodeMailboxListResponse_err listReject,
    readVersionResponse_write hjson hversion⟩

/-- The build metadata of one build. -/
def sampleVersion : VersionResponse :=
  ⟨"v1.0".toList, "abc".toList, "x86_64".toList, "2026".toList⟩

/-- The serializer at data without characters that JSON escapes, and the parser at one text. -/
def sampleJson : Json where
  toVec v := utf8 ("\x7b\"tag\":\"".toList ++ v.tag ++ "\",\"git_hash\":\"".toList ++ v.gitHash ++
    "\",\"target\":\"".toList ++ v.target ++ "\",\"build_date\":\"".toList ++ v.buildDate ++
    "\"\x7d".toList)
  fromSlice b :=
    if b = utf8 ("\x7b\"tag\":\"v1.0\",\"git_hash\":\"abc\",\"target\":\"x86_64\"," ++
      "\"build_date\":\"2026\"\x7d").toList then some sampleVersion else none

/-- The theorem at an error whose reason looks like a header and a listing with a blank line. -/
theorem decode_write_lookalike :
    parseResponseLine (writeResponse (.err ⟨.mailbox, "no\nCode: IO ".toList⟩)) =
        .err ⟨.mailbox, "noCode: IO".toList⟩ ∧
      parseAckResponse (writeAckResponse .ok) = .ok ∧
      decodeMailboxListResponse (writeJsonAckResponse (.ok (utf8 "\n\n[]".toList))) =
        .ok "\n\n[]".toList ∧
      decodeMailboxListResponse (writeJsonAckResponse (.err ⟨.io, []⟩)) =
        .error (.daemon "IO".toList []) ∧
      readVersionResponse sampleJson (writeVersionResponse sampleJson sampleVersion) =
        .ok sampleVersion := by
  have h := @decode_write sampleJson sampleVersion "\n\n[]".toList
    (.err ⟨.mailbox, "no\nCode: IO ".toList⟩) .ok ⟨.io, []⟩ (by decide +kernel) (by decide +kernel)
    (by decide +kernel)
  refine ⟨h.1.trans (by decide +kernel), h.2.1, h.2.2.1, h.2.2.2.1.trans (by decide +kernel),
    h.2.2.2.2⟩

end Protocol
end Aimx
