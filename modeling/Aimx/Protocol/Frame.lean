import Aimx.Send.Handler
import Aimx.Text.Decimal

/-!
# Frames of the AIMX/1 protocol

The framing that all requests and some responses share: lines read one byte at a time, header lines
with a name and a value up to the blank line, and bodies of a declared length.

* `readLine` — one line, with `readLine_utf8` for a line that was written;
* `readHeaders` — the header loop, generic in what a header does to the state of the parser;
* `readHeaders_headerBlock` — a block that was written is read header by header, and nothing behind
  it is touched;
* `readExact` — a body.
-/

namespace Aimx
namespace Protocol

open Text

/-! ## Names -/

/-- The verbs. -/
inductive Verb
  | send
  | markRead
  | markUnread
  | mailboxCreate
  | mailboxDelete
  | mailboxList
  | hookCreate
  | hookDelete
  | hookList
  | version
  deriving DecidableEq

/-- A verb on the wire. -/
def Verb.asStr : Verb → Str
  | .send => "SEND".toList
  | .markRead => "MARK-READ".toList
  | .markUnread => "MARK-UNREAD".toList
  | .mailboxCreate => "MAILBOX-CREATE".toList
  | .mailboxDelete => "MAILBOX-DELETE".toList
  | .mailboxList => "MAILBOX-LIST".toList
  | .hookCreate => "HOOK-CREATE".toList
  | .hookDelete => "HOOK-DELETE".toList
  | .hookList => "HOOK-LIST".toList
  | .version => "VERSION".toList

/-- The verbs, in the order in which the dispatcher tries them. -/
def Verb.all : List Verb :=
  [.send, .markRead, .markUnread, .mailboxCreate, .mailboxDelete, .mailboxList, .hookCreate,
    .hookDelete, .hookList, .version]

/-- The verb that a token of the request line names. -/
def Verb.ofStr (s : Str) : Option Verb := Verb.all.find? fun v => v.asStr == s

/-- The headers that some parser knows. -/
inductive HeaderName
  | contentLength
  | textOnly
  | htmlBodyLength
  | mailbox
  | id
  | folder
  | name
  | owner
  | force
  | event
  | hookName
  deriving DecidableEq

/-- A header name as it is written, and as errors spell it. -/
def HeaderName.asStr : HeaderName → Str
  | .contentLength => "Content-Length".toList
  | .textOnly => "Text-Only".toList
  | .htmlBodyLength => "Html-Body-Length".toList
  | .mailbox => "Mailbox".toList
  | .id => "Id".toList
  | .folder => "Folder".toList
  | .name => "Name".toList
  | .owner => "Owner".toList
  | .force => "Force".toList
  | .event => "Event".toList
  | .hookName => "Hook-Name".toList

/-- The known header names. -/
def HeaderName.all : List HeaderName :=
  [.contentLength, .textOnly, .htmlBodyLength, .mailbox, .id, .folder, .name, .owner, .force,
    .event, .hookName]

/-- The header that a normalized name names. -/
def HeaderName.ofStr (nameNorm : Str) : Option HeaderName :=
  HeaderName.all.find? fun h => toAsciiLowercase h.asStr == nameNorm

/-! ## Errors -/

/-- Why a frame is malformed. -/
inductive Malformed
  | requestLine (line : Str)
  | eofInHeaders
  | eofMidLine
  | lineTooLong
  | invalidUtf8
  | headerLine (line : Str)
  | nonAsciiName (name : Str)
  | duplicate (header : HeaderName)
  | emptyValue (header : HeaderName)
  | missing (header : HeaderName)
  | nonInteger (header : HeaderName) (value : Str)
  | exceedsCap (header : HeaderName) (n cap : Nat)
  | bodyNotAllowed (verb : Str) (n : Nat)
  | invalidFlag (header : HeaderName) (value : Str)
  | folderNotAllowed
  | forceOnCreate
  | invalidOwner (value : Str)
  | takesNoHeaders (verb : Verb) (line : Str)
  | mutuallyExclusive
  | bodyTruncated (n : Nat)
  | htmlBodyTruncated (n : Nat)
  deriving DecidableEq

/-- `MAX_HEADER_LINE`. -/
def maxHeaderLine : Nat := 8 * 1024

/-- The texts of the errors; a string is quoted as the standard library's `Debug` quotes it. -/
def Malformed.display (debug : Str → Str) : Malformed → Str
  | .requestLine line => "expected 'AIMX/1 <verb>', got ".toList ++ debug line
  | .eofInHeaders => "unexpected EOF in headers".toList
  | .eofMidLine => "unexpected EOF mid-line (no terminator)".toList
  | .lineTooLong => "header line exceeds ".toList ++ decimal maxHeaderLine ++ " bytes".toList
  | .invalidUtf8 => "header line contains invalid UTF-8".toList
  | .headerLine line => "invalid header line: ".toList ++ debug line
  | .nonAsciiName name => "non-ascii header name: ".toList ++ debug name
  | .duplicate header => "duplicate ".toList ++ header.asStr ++ " header".toList
  | .emptyValue header => "empty ".toList ++ header.asStr ++ " value".toList
  | .missing header => "missing required header: ".toList ++ header.asStr
  | .nonInteger header value => "non-integer ".toList ++ header.asStr ++ ": ".toList ++ debug value
  | .exceedsCap header n cap =>
      header.asStr ++ " ".toList ++ decimal n ++ " exceeds cap ".toList ++ decimal cap
  | .bodyNotAllowed verb n => verb ++ " must have Content-Length: 0, got ".toList ++ decimal n
  | .invalidFlag header value =>
      "invalid ".toList ++ header.asStr ++ " value: ".toList ++ debug value ++
        " (expected 'true' or 'false')".toList
  | .folderNotAllowed =>
      ("Folder header is not allowed on MARK verbs (sent-mail mark removed; inbox is the only " ++
        "target)").toList
  | .forceOnCreate => "Force header is only valid on MAILBOX-DELETE".toList
  | .invalidOwner value =>
      "invalid Owner value: ".toList ++ debug value ++ " (must match [a-z_][a-z0-9_-]*[$]?)".toList
  | .takesNoHeaders verb line => verb.asStr ++ " takes no headers, got ".toList ++ debug line
  | .mutuallyExclusive =>
      "AIMX/1 SEND: --text-only and --html-body are mutually exclusive".toList
  | .bodyTruncated n => "body truncated: expected ".toList ++ decimal n ++ " bytes".toList
  | .htmlBodyTruncated n =>
      "html body truncated: expected ".toList ++ decimal n ++ " bytes after main body".toList

/-! ## Readers -/

/-- The loop of `read_line`, with the bytes read so far. -/
def readLineLoop (buf : Bytes) : Bytes → Except Malformed (Option (Bytes × Bytes))
  | [] => if buf = [] then .ok none else .error .eofMidLine
  | b :: rest =>
      if b = 0x0A then .ok (some (buf, rest))
      else if maxHeaderLine < buf.length + 1 then .error .lineTooLong
      else readLineLoop (buf ++ [b]) rest

/-- `read_line`: a line without its terminator, and what follows it; `none` at the end of the
stream. -/
def readLine (input : Bytes) : Except Malformed (Option (Str × Bytes)) :=
  match readLineLoop [] input with
  | .error e => .error e
  | .ok none => .ok none
  | .ok (some (buf, rest)) =>
      match fromUtf8 buf with
      | none => .error .invalidUtf8
      | some line => .ok (some (line, rest))

/-- `str::trim_end_matches('\r')`. -/
def trimEndCr (s : Str) : Str := s.rdropWhile fun c => c == '\r'

/-- The name and the value of a header line, as every header loop takes them apart. -/
def splitHeader (line : Str) : Except Malformed (Option HeaderName × Str) :=
  match splitOnce ':' line with
  | none => .error (.headerLine line)
  | some (name, value) =>
      if name.all fun c => c.toNat < 0x80 then
        .ok (HeaderName.ofStr (toAsciiLowercase (trim name)), trim value)
      else .error (.nonAsciiName name)

/-- What `read_line` leaves is shorter than what it was given. -/
theorem readLineLoop_length {buf input line rest : Bytes}
    (h : readLineLoop buf input = .ok (some (line, rest))) : rest.length < input.length := by
  induction input generalizing buf with
  | nil =>
      unfold readLineLoop at h
      split at h <;> cases h
  | cons b input ih =>
      unfold readLineLoop at h
      split at h
      next =>
          cases h
          exact Nat.lt_succ_self _
      next =>
          split at h
          next => cases h
          next => exact Nat.lt_succ_of_lt (ih h)

theorem readLine_length {input rest : Bytes} {line : Str}
    (h : readLine input = .ok (some (line, rest))) : rest.length < input.length := by
  unfold readLine at h
  split at h
  next => cases h
  next => cases h
  next buf rest' hloop =>
      split at h
      next => cases h
      next =>
          cases h
          exact readLineLoop_length hloop

/-- The header loop of a parser with state `σ`: every header is handed to `onHeader`, up to the
blank line. -/
def readHeaders {σ : Type} (onHeader : σ → Option HeaderName → Str → Except Malformed σ) (st : σ)
    (input : Bytes) : Except Malformed (σ × Bytes) :=
  match _hline : readLine input with
  | .error e => .error e
  | .ok none => .error .eofInHeaders
  | .ok (some (rawLine, rest)) =>
      let line := trimEndCr rawLine
      if line = [] then .ok (st, rest)
      else
        match splitHeader line with
        | .error e => .error e
        | .ok (header, value) =>
            match onHeader st header value with
            | .error e => .error e
            | .ok st' => readHeaders onHeader st' rest
termination_by input.length
decreasing_by exact readLine_length (by assumption)

/-- `read_exact` into a buffer of `n` bytes: the bytes and what follows them. -/
def readExact (n : Nat) (input : Bytes) : Option (Bytes × Bytes) :=
  if n ≤ input.length then some (input.take n, input.drop n) else none

@[simp] theorem readExact_append (body rest : Bytes) :
    readExact body.length (body ++ rest) = some (body, rest) := by
  simp [readExact]

/-! ## Headers that occur at most once -/

/-- A header with a text: at most once, and not empty. -/
def onceValue (header : HeaderName) (slot : Option Str) (value : Str) :
    Except Malformed (Option Str) :=
  if slot.isSome then .error (.duplicate header)
  else if value = [] then .error (.emptyValue header)
  else .ok (some value)

/-- A header with a number: at most once, and accepted by `check`. -/
def onceLength (header : HeaderName) (check : Nat → Except Malformed Unit) (slot : Option Nat)
    (value : Str) : Except Malformed (Option Nat) :=
  if slot.isSome then .error (.duplicate header)
  else
    match parseUsize value with
    | none => .error (.nonInteger header value)
    | some n => (check n).map fun _ => some n

/-- A header with a truth value: at most once. -/
def onceFlag (header : HeaderName) (seen : Bool) (value : Str) : Except Malformed Bool :=
  if seen then .error (.duplicate header)
  else if toAsciiLowercase value = "true".toList then .ok true
  else if toAsciiLowercase value = "false".toList then .ok false
  else .error (.invalidFlag header value)

/-- The bound on the declared length of a body. -/
def withinCap (header : HeaderName) (cap n : Nat) : Except Malformed Unit :=
  if cap < n then .error (.exceedsCap header n cap) else .ok ()

/-- The declared length of a frame without a body. -/
def mustBeZero (verb : Str) (n : Nat) : Except Malformed Unit :=
  if n ≠ 0 then .error (.bodyNotAllowed verb n) else .ok ()

/-! ## Writing -/

/-- `sanitize_inline`. -/
def sanitizeInline (s : Str) : Str := s.filter fun c => c ≠ '\n' ∧ c ≠ '\r'

/-- A header and its value, on the wire. -/
def headerText (h : HeaderName × Str) : Str := h.1.asStr ++ ": ".toList ++ h.2

/-- A block of headers, up to the blank line. -/
def headerBlock (hs : List (HeaderName × Str)) : Str :=
  hs.flatMap (fun h => headerText h ++ "\n".toList) ++ "\n".toList

/-- The request line and the headers of a request. -/
def requestHead (verb : Verb) (hs : List (HeaderName × Str)) : Str :=
  "AIMX/1 ".toList ++ verb.asStr ++ "\n".toList ++ headerBlock hs

/-! ## What was written is read -/

@[simp] theorem HeaderName.ofStr_asStr (h : HeaderName) :
    HeaderName.ofStr (toAsciiLowercase (trim h.asStr)) = some h := by
  cases h <;> decide +kernel

@[simp] theorem Verb.ofStr_asStr (v : Verb) : Verb.ofStr v.asStr = some v := by
  cases v <;> decide +kernel

/-- A line feed byte encodes a line feed. -/
theorem lineFeed_notMem_utf8 {s : Str} (h : '\n' ∉ s) : (0x0A : UInt8) ∉ utf8 s := by
  intro hmem
  obtain ⟨c, hc, hb⟩ := List.mem_flatMap.mp hmem
  have hone : utf8 [c] = utf8 ['\n'] := by
    rw [utf8_cons, utf8EncodeChar_eq_of_mem_ascii hb (by decide)]
    rfl
  have hsame : [c] = ['\n'] := by
    have hdec := congrArg fromUtf8Lossy hone
    rwa [fromUtf8Lossy_utf8, fromUtf8Lossy_utf8] at hdec
  cases hsame
  exact h hc

/-- The loop runs up to the first line feed. -/
theorem readLineLoop_append {buf line : Bytes} (hlf : (0x0A : UInt8) ∉ line)
    (hlen : buf.length + line.length ≤ maxHeaderLine) (rest : Bytes) :
    readLineLoop buf (line ++ 0x0A :: rest) = .ok (some (buf ++ line, rest)) := by
  induction line generalizing buf with
  | nil => simp [readLineLoop]
  | cons b line ih =>
      rw [List.mem_cons, not_or] at hlf
      rw [List.length_cons] at hlen
      rw [List.cons_append, readLineLoop, if_neg (fun h => hlf.1 h.symm), if_neg (by omega),
        ih hlf.2 (by rw [List.length_append, List.length_singleton]; omega), List.append_assoc]
      rfl

/-- A line that was written is read, and the stream stands right behind it. -/
theorem readLine_utf8 {line : Str} (hlf : '\n' ∉ line) (hlen : byteLen line ≤ maxHeaderLine)
    (text : Str) (rest : Bytes) :
    readLine (utf8 (line ++ "\n".toList ++ text) ++ rest) = .ok (some (line, utf8 text ++ rest)) := by
  have hbytes : utf8 (line ++ "\n".toList ++ text) ++ rest =
      utf8 line ++ 0x0A :: (utf8 text ++ rest) := by
    rw [utf8_append, utf8_append, List.append_assoc, List.append_assoc]
    rfl
  have hloop : readLineLoop [] (utf8 line ++ 0x0A :: (utf8 text ++ rest)) =
      .ok (some (utf8 line, utf8 text ++ rest)) := by
    apply readLineLoop_append (lineFeed_notMem_utf8 hlf)
    rw [List.length_nil, Nat.zero_add]
    exact hlen
  unfold readLine
  rw [hbytes, hloop]
  dsimp only
  rw [fromUtf8_eq_some_iff.mpr rfl]

/-- The loop gives up behind the line limit. -/
theorem readLineLoop_tooLong {buf line rest : Bytes} (hlf : (0x0A : UInt8) ∉ line)
    (hbuf : buf.length ≤ maxHeaderLine) (hlen : maxHeaderLine < buf.length + line.length) :
    readLineLoop buf (line ++ rest) = .error .lineTooLong := by
  induction line generalizing buf with
  | nil =>
      simp only [List.length_nil] at hlen
      omega
  | cons b line ih =>
      rw [List.mem_cons, not_or] at hlf
      rw [List.length_cons] at hlen
      rw [List.cons_append, readLineLoop, if_neg (fun h => hlf.1 h.symm)]
      split
      next => rfl
      next hfits => apply ih hlf.2 <;> rw [List.length_append, List.length_singleton] <;> omega

/-- A line that was written is refused beyond the line limit. -/
theorem readLine_tooLong {line : Str} (hlf : '\n' ∉ line) (hlen : maxHeaderLine < byteLen line)
    (text : Str) (rest : Bytes) :
    readLine (utf8 (line ++ "\n".toList ++ text) ++ rest) = .error .lineTooLong := by
  have hlong : maxHeaderLine < ([] : Bytes).length + (utf8 line).length := by
    rw [List.length_nil, Nat.zero_add]
    exact hlen
  unfold readLine
  rw [utf8_append, utf8_append, List.append_assoc, List.append_assoc,
    readLineLoop_tooLong (lineFeed_notMem_utf8 hlf) (Nat.zero_le _) hlong]

/-- A line without a carriage return at its end stays whole. -/
theorem trimEndCr_eq_self {s : Str} (h : '\r' ∉ s) : trimEndCr s = s := by
  unfold trimEndCr
  cases s using List.reverseRecOn with
  | nil => rfl
  | append_singleton s c =>
      have hc : c ≠ '\r' := by
        rintro rfl
        exact h (List.mem_append_right s (List.mem_singleton_self _))
      apply List.rdropWhile_concat_neg
      simpa using hc

/-- White space in front does not matter to `trim`. -/
theorem trim_space_cons (s : Str) : trim (' ' :: s) = trim s := by
  simp [trim, trimStart, isWhitespace]

/-- A value that can be written on one line. -/
def OneLine (s : Str) : Prop := '\n' ∉ s ∧ '\r' ∉ s

instance (s : Str) : Decidable (OneLine s) := inferInstanceAs (Decidable (_ ∧ _))

theorem OneLine.append {s t : Str} (hs : OneLine s) (ht : OneLine t) : OneLine (s ++ t) :=
  ⟨fun h => (List.mem_append.mp h).elim hs.1 ht.1, fun h => (List.mem_append.mp h).elim hs.2 ht.2⟩

theorem sanitizeInline_oneLine (s : Str) : OneLine (sanitizeInline s) := by
  simp [OneLine, sanitizeInline]

theorem decimal_oneLine (n : Nat) : OneLine (decimal n) := by
  constructor
  · intro h
    have := isDigit_of_mem_decimal h
    simp [Char.isDigit] at this
  · intro h
    have := isDigit_of_mem_decimal h
    simp [Char.isDigit] at this

/-- A header whose value is on one line and that fits the line limit. -/
structure HeaderFits (h : HeaderName × Str) : Prop where
  oneLine : OneLine h.2
  length : byteLen (headerText h) ≤ maxHeaderLine

theorem HeaderName.asStr_clean (h : HeaderName) :
    OneLine h.asStr ∧ ':' ∉ h.asStr ∧ (h.asStr.all fun c => c.toNat < 0x80) = true := by
  cases h <;> decide +kernel

/-- A header line is taken apart into the name and the trimmed value that it was made of. -/
theorem splitHeader_headerText (h : HeaderName × Str) :
    splitHeader (headerText h) = .ok (some h.1, trim h.2) := by
  obtain ⟨-, hcolon, hascii⟩ := h.1.asStr_clean
  have hsplit : splitOnce ':' (headerText h) = some (h.1.asStr, ' ' :: h.2) := by
    apply splitOnce_eq_some_iff.mpr
    exact ⟨by simp [headerText], hcolon⟩
  unfold splitHeader
  rw [hsplit]
  dsimp only
  rw [if_pos hascii, HeaderName.ofStr_asStr, trim_space_cons]

/-- One step of the header loop on a header that was written. -/
theorem readHeaders_headerText {σ : Type}
    {onHeader : σ → Option HeaderName → Str → Except Malformed σ} {st : σ} {h : HeaderName × Str}
    (hfits : HeaderFits h) (text : Str) (rest : Bytes) :
    readHeaders onHeader st (utf8 (headerText h ++ "\n".toList ++ text) ++ rest) =
      (match onHeader st (some h.1) (trim h.2) with
      | .error e => .error e
      | .ok st' => readHeaders onHeader st' (utf8 text ++ rest)) := by
  obtain ⟨hname, -, -⟩ := h.1.asStr_clean
  obtain ⟨hlf, hcr⟩ : OneLine (headerText h) :=
    (hname.append (by decide +kernel)).append hfits.oneLine
  have hne : headerText h ≠ [] := by simp [headerText]
  rw [readHeaders]
  split
  next heq =>
      rw [readLine_utf8 hlf hfits.length] at heq
      cases heq
  next heq =>
      rw [readLine_utf8 hlf hfits.length] at heq
      cases heq
  next heq =>
      rw [readLine_utf8 hlf hfits.length] at heq
      cases heq
      dsimp only
      rw [trimEndCr_eq_self hcr, if_neg hne, splitHeader_headerText]

/-- The header loop ends at the blank line. -/
theorem readHeaders_blank {σ : Type}
    {onHeader : σ → Option HeaderName → Str → Except Malformed σ} {st : σ} (rest : Bytes) :
    readHeaders onHeader st (utf8 "\n".toList ++ rest) = .ok (st, rest) := by
  have hline : readLine (utf8 "\n".toList ++ rest) = .ok (some ([], rest)) :=
    @readLine_utf8 [] (by simp) (by simp) [] rest
  rw [readHeaders]
  split
  next heq =>
      rw [hline] at heq
      cases heq
  next heq =>
      rw [hline] at heq
      cases heq
  next heq =>
      rw [hline] at heq
      cases heq
      rfl

/-- **A block of headers that was written is read header by header.**  Each header reaches the
parser once, in order, with its value trimmed, and the stream stands right behind the blank line. -/
theorem readHeaders_headerBlock {σ : Type}
    {onHeader : σ → Option HeaderName → Str → Except Malformed σ} {hs : List (HeaderName × Str)}
    (hfits : ∀ h ∈ hs, HeaderFits h) (st : σ) (rest : Bytes) :
    readHeaders onHeader st (utf8 (headerBlock hs) ++ rest) =
      (hs.foldlM (fun st h => onHeader st (some h.1) (trim h.2)) st).map fun st' => (st', rest) := by
  induction hs generalizing st with
  | nil => exact readHeaders_blank rest
  | cons h hs ih =>
      have hblock : headerBlock (h :: hs) = headerText h ++ "\n".toList ++ headerBlock hs := by
        simp [headerBlock]
      rw [hblock, readHeaders_headerText (hfits h List.mem_cons_self), List.foldlM_cons]
      cases onHeader st (some h.1) (trim h.2) with
      | error e => rfl
      | ok st' => exact ih (fun g hg => hfits g (List.mem_cons_of_mem h hg)) st'

/-- A block with a header line beyond the line limit is refused. -/
theorem readHeaders_tooLong {σ : Type}
    {onHeader : σ → Option HeaderName → Str → Except Malformed σ} {hs : List (HeaderName × Str)}
    (hlines : ∀ h ∈ hs, OneLine h.2) {h : HeaderName × Str} (hmem : h ∈ hs)
    (hlong : maxHeaderLine < byteLen (headerText h)) (st : σ) (rest : Bytes) :
    ∃ e, readHeaders onHeader st (utf8 (headerBlock hs) ++ rest) = .error e := by
  induction hs generalizing st with
  | nil => cases hmem
  | cons g hs ih =>
      have hblock : headerBlock (g :: hs) = headerText g ++ "\n".toList ++ headerBlock hs := by
        simp [headerBlock]
      rw [List.forall_mem_cons] at hlines
      rw [hblock]
      by_cases hfits : byteLen (headerText g) ≤ maxHeaderLine
      · rw [readHeaders_headerText ⟨hlines.1, hfits⟩]
        cases onHeader st (some g.1) (trim g.2) with
        | error e => exact ⟨e, rfl⟩
        | ok st' =>
            have hlater : h ∈ hs := by
              rcases List.mem_cons.mp hmem with rfl | hlater
              · omega
              · exact hlater
            exact ih hlines.2 hlater st'
      · obtain ⟨hname, -, -⟩ := g.1.asStr_clean
        obtain ⟨hlf, -⟩ : OneLine (headerText g) :=
          (hname.append (by decide +kernel)).append hlines.1
        have hline := readLine_tooLong hlf (Nat.lt_of_not_le hfits) (headerBlock hs) rest
        refine ⟨.lineTooLong, ?_⟩
        rw [readHeaders]
        split
        next heq =>
            rw [hline] at heq
            cases heq
            rfl
        next heq =>
            rw [hline] at heq
            cases heq
        next heq =>
            rw [hline] at heq
            cases heq

end Protocol
end Aimx
