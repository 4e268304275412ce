import Aimx.Config.Load
import Mathlib.Data.List.Forall2

/-!
# Thread ids

`compute_thread_id` on the threading headers of a message, and the headers that a reply carries.  The
hash function is a parameter.

* `computeThreadId` — the first eight bytes of a hash, in hexadecimal;
* `IsReply` — the headers of a message that answers another;
* `emailReply_isReply` — what `email_reply` writes makes its message such an answer;
* `computeThreadId_reply` — an answer is filed under the id of the message it answers;
* `threadId_eq_root_iff` — when all messages of a reply chain are filed under its root.
-/

namespace Aimx
namespace Ingest

open Text

/-! ## Thread ids -/

/-- The threading headers of a message, as texts. -/
structure Threading where
  messageId : Str
  inReplyTo : Option Str
  references : Option Str
  deriving DecidableEq

/-- `strip_angle_brackets`. -/
def stripAngleBrackets (s : Str) : Str := ((stripPrefix ['<'] s).bind (stripSuffix ['>'])).getD s

/-- `extract_first_message_id`. -/
def extractFirstMessageId (headerValue : Str) : Str :=
  let trimmed := trim headerValue
  if trimmed = [] then []
  else
    match splitOnce '<' trimmed with
    | none => trimmed
    | some (_, after) =>
        match splitOnce '>' after with
        | none => trimmed
        | some (id, _) => '<' :: id ++ ['>']

/-- `resolve_thread_root`. -/
def resolveThreadRoot (m : Threading) : Str :=
  let fromReferences :=
    let extracted := extractFirstMessageId (m.references.getD [])
    if extracted ≠ [] then extracted
    else
      let own := extractFirstMessageId m.messageId
      if own = [] then m.messageId else own
  let extracted := extractFirstMessageId (m.inReplyTo.getD [])
  if extracted ≠ [] then extracted else fromReferences

/-- `hex_encode`. -/
def hexEncode (bytes : Bytes) : Str := bytes.flatMap hexByte

/-- `compute_thread_id`. -/
def computeThreadId (sha256 : Bytes → Bytes) (m : Threading) : Str :=
  hexEncode ((sha256 (utf8 (stripAngleBrackets (resolveThreadRoot m)))).take 8)

/-! ## Replies -/

/-- `normalize_message_id`. -/
def normalizeMessageId (id : Str) : Str :=
  let trimmed := trim id
  if trimmed.head? = some '<' ∧ trimmed.getLast? = some '>' then trimmed
  else '<' :: trimmed ++ ['>']

/-- `build_references`. -/
def buildReferences (originalReferences : Option Str) (originalMessageId : Str) : Str :=
  let mid := normalizeMessageId originalMessageId
  match originalReferences with
  | some refs => if trim refs ≠ [] then trim refs ++ ' ' :: mid else mid
  | none => mid

/-- `sanitize_header_value`. -/
def sanitizeHeaderValue (value : Str) : Str := value.filter fun c => c ≠ '\r' ∧ c ≠ '\n'

/-- The threading headers that `write_common_headers` writes. -/
def writeThreading (messageId : Str) (replyTo references : Option Str) : Threading :=
  match replyTo with
  | none => ⟨messageId, none, none⟩
  | some replyTo =>
      let replyId := normalizeMessageId (sanitizeHeaderValue replyTo)
      let refs :=
        match references with
        | some r => if trim r ≠ [] then sanitizeHeaderValue r else replyId
        | none => replyId
      ⟨messageId, some replyId, some refs⟩

/-- The threading headers of the message that `email_reply` sends in answer to a stored one. -/
def emailReply (messageId : Str) (stored : Threading) : Threading :=
  if stored.messageId = [] then writeThreading messageId none none
  else
    writeThreading messageId (some stored.messageId)
      (some (buildReferences stored.references stored.messageId))

/-! ## Ids in header values -/

/-- A message id without its angle brackets. -/
def IsId (id : Str) : Prop :=
  id ≠ [] ∧ '<' ∉ id ∧ '>' ∉ id ∧ ∀ c ∈ id, isWhitespace c = false

instance (id : Str) : Decidable (IsId id) :=
  haveI : Decidable (∀ c ∈ id, isWhitespace c = false) := List.decidableBAll _ _
  inferInstanceAs (Decidable (_ ∧ _))

/-- A header value that consists of one id, with or without angle brackets. -/
def Names (id value : Str) : Prop :=
  IsId id ∧ (trim value = id ∨ trim value = '<' :: id ++ ['>'])

instance (id value : Str) : Decidable (Names id value) := inferInstanceAs (Decidable (_ ∧ _))

/-- Two header values that name one id. -/
def SameId (a b : Str) : Prop := ∃ id, Names id a ∧ Names id b

/-- The words of a header value. -/
def words (s : Str) : List Str := (s.splitOnP isWhitespace).filter fun w => w ≠ []

/-- A message that answers another: it names its parent in `In-Reply-To`, and in `References` behind
what the parent has there. -/
structure IsReply (parent m : Threading) : Prop where
  inReplyTo : ∃ value, m.inReplyTo = some value ∧ SameId value parent.messageId
  references : ∃ value, m.references = some value ∧
    List.Forall₂ SameId (words value) (words (parent.references.getD []) ++ [parent.messageId])

section Ids

variable {id value : Str}

theorem isWhitespace_of_mem_bracketed (h : IsId id) :
    ∀ c ∈ '<' :: id ++ ['>'], isWhitespace c = false := by
  intro c hc
  simp only [List.cons_append, List.mem_cons, List.mem_append, List.not_mem_nil, or_false] at hc
  rcases hc with rfl | hc | rfl
  · decide
  · exact h.2.2.2 c hc
  · decide

theorem stripAngleBrackets_bracketed (id : Str) : stripAngleBrackets ('<' :: id ++ ['>']) = id := by
  have hopen : stripPrefix ['<'] ('<' :: id ++ ['>']) = some (id ++ ['>']) :=
    stripPrefix_append ['<'] (id ++ ['>'])
  have hclose : stripSuffix ['>'] (id ++ ['>']) = some id := stripSuffix_eq_some_iff.mpr rfl
  rw [stripAngleBrackets, hopen, Option.bind_some, hclose, Option.getD_some]

theorem stripAngleBrackets_bare (h : IsId id) : stripAngleBrackets id = id := by
  have hopen : stripPrefix ['<'] id = none := by
    rw [Option.eq_none_iff_forall_not_mem]
    intro rest hrest
    exact h.2.1 (stripPrefix_eq_some_iff.mp hrest ▸ List.mem_cons_self)
  rw [stripAngleBrackets, hopen, Option.bind_none, Option.getD_none]

/-- The first id of a value that names one is that id. -/
theorem extractFirstMessageId_of_names (h : Names id value) :
    extractFirstMessageId value = trim value ∧ trim value ≠ [] ∧
      stripAngleBrackets (trim value) = id := by
  obtain ⟨hid, hbare | hbracketed⟩ := h
  · have hcut : splitOnce '<' id = none := splitOnce_eq_none_iff.mpr hid.2.1
    unfold extractFirstMessageId
    dsimp only
    rw [hbare, if_neg hid.1, hcut]
    exact ⟨rfl, hid.1, stripAngleBrackets_bare hid⟩
  · have hopen : splitOnce '<' ('<' :: id ++ ['>']) = some ([], id ++ ['>']) :=
      splitOnce_eq_some_iff.mpr ⟨rfl, List.not_mem_nil⟩
    have hclose : splitOnce '>' (id ++ ['>']) = some (id, []) :=
      splitOnce_eq_some_iff.mpr ⟨rfl, hid.2.2.1⟩
    have hne : '<' :: id ++ ['>'] ≠ [] := List.cons_ne_nil _ _
    unfold extractFirstMessageId
    dsimp only
    rw [hbracketed, if_neg hne, hopen]
    dsimp only
    rw [hclose]
    exact ⟨rfl, hne, stripAngleBrackets_bracketed id⟩

/-- `normalize_message_id` keeps the id. -/
theorem normalizeMessageId_of_names (h : Names id value) :
    normalizeMessageId value = '<' :: id ++ ['>'] := by
  obtain ⟨hid, hbare | hbracketed⟩ := h
  · unfold normalizeMessageId
    dsimp only
    rw [hbare, if_neg]
    rintro ⟨hhead, -⟩
    exact hid.2.1 (List.mem_of_mem_head? hhead)
  · unfold normalizeMessageId
    dsimp only
    rw [hbracketed, if_pos]
    refine ⟨rfl, ?_⟩
    rw [List.getLast?_concat]

theorem names_bracketed (h : IsId id) : Names id ('<' :: id ++ ['>']) :=
  ⟨h, Or.inr (trim_eq_self (isWhitespace_of_mem_bracketed h))⟩

end Ids

/-! ## Words -/

theorem words_append_cons (s t : Str) {c : Char} (h : isWhitespace c = true) :
    words (s ++ c :: t) = words s ++ words t := by
  unfold words
  rw [List.splitOnP_append_cons _ _ h, List.filter_append]

@[simp] theorem words_nil : words [] = [] := rfl

/-- A text without white space is one word. -/
theorem words_single {s : Str} (hne : s ≠ []) (h : ∀ c ∈ s, isWhitespace c = false) :
    words s = [s] := by
  unfold words
  rw [List.splitOnP_eq_singleton h]
  simp [hne]

theorem words_trimStart (s : Str) : words (trimStart s) = words s := by
  unfold trimStart
  induction s with
  | nil => rfl
  | cons c s ih =>
      by_cases hc : isWhitespace c = true
      · have hfirst := words_append_cons [] s hc
        rw [List.nil_append, words_nil, List.nil_append] at hfirst
        rw [List.dropWhile_cons_of_pos hc, ih, hfirst]
      · rw [List.dropWhile_cons_of_neg hc]

theorem words_trimEnd (s : Str) : words (trimEnd s) = words s := by
  induction s using List.reverseRecOn with
  | nil => rfl
  | append_singleton s c ih =>
      by_cases hc : isWhitespace c = true
      · rw [trimEnd_concat_whitespace s hc, ih, words_append_cons s [] hc, words_nil,
          List.append_nil]
      · rw [trimEnd_concat_visible s (Bool.not_eq_true _ ▸ hc)]

theorem words_trim (s : Str) : words (trim s) = words s :=
  (words_trimEnd _).trans (words_trimStart s)

/-- The words of `build_references` are those of the references before, and the id. -/
theorem words_buildReferences {id : Str} {m : Threading} (h : Names id m.messageId) :
    words (buildReferences m.references m.messageId) =
      words (m.references.getD []) ++ ['<' :: id ++ ['>']] := by
  have hmid := normalizeMessageId_of_names h
  have hword : words ('<' :: id ++ ['>']) = ['<' :: id ++ ['>']] :=
    words_single (List.cons_ne_nil _ _) (isWhitespace_of_mem_bracketed h.1)
  unfold buildReferences
  dsimp only
  rw [hmid]
  cases m.references with
  | none => exact hword
  | some refs =>
      dsimp only
      rw [Option.getD_some]
      split
      next => rw [words_append_cons _ _ (by decide), words_trim, hword]
      next hblank =>
          rw [not_not] at hblank
          rw [hword, ← words_trim refs, hblank, words_nil, List.nil_append]

theorem sanitizeHeaderValue_eq_self {value : Str} (h : ∀ c ∈ value, c ≠ '\r' ∧ c ≠ '\n') :
    sanitizeHeaderValue value = value := by
  unfold sanitizeHeaderValue
  rw [List.filter_eq_self]
  exact fun c hc => by simpa using h c hc

/-- **What `email_reply` sends is a reply.**  The stored message has an id, and its `References` are
ids. -/
theorem emailReply_isReply {stored : Threading} (messageId : Str) (hid : ∃ id, Names id stored.messageId)
    (hreferences : ∀ w ∈ words (stored.references.getD []), ∃ id, Names id w)
    (hmessageIdLine : ∀ c ∈ stored.messageId, c ≠ '\r' ∧ c ≠ '\n')
    (hreferencesLine : ∀ c ∈ buildReferences stored.references stored.messageId,
      c ≠ '\r' ∧ c ≠ '\n') :
    IsReply stored (emailReply messageId stored) := by
  obtain ⟨id, hnames⟩ := hid
  have hne : stored.messageId ≠ [] := by
    intro hnil
    have hempty := (extractFirstMessageId_of_names hnames).2.1
    rw [hnil] at hempty
    exact hempty rfl
  have hwords := words_buildReferences hnames
  have hblank : trim (buildReferences stored.references stored.messageId) ≠ [] := by
    intro hnil
    rw [← words_trim, hnil, words_nil] at hwords
    exact List.concat_ne_nil _ _ hwords.symm
  unfold emailReply writeThreading
  rw [if_neg hne]
  dsimp only
  rw [sanitizeHeaderValue_eq_self hmessageIdLine, normalizeMessageId_of_names hnames, if_pos hblank,
    sanitizeHeaderValue_eq_self hreferencesLine]
  constructor
  · exact ⟨_, rfl, id, names_bracketed hnames.1, hnames⟩
  · refine ⟨_, rfl, ?_⟩
    rw [hwords]
    refine List.rel_append ?_ (List.Forall₂.cons ⟨id, names_bracketed hnames.1, hnames⟩ .nil)
    rw [List.forall₂_same]
    intro w hw
    obtain ⟨wid, hwid⟩ := hreferences w hw
    exact ⟨wid, hwid, hwid⟩

/-! ## Chains -/

/-- The first eight bytes of the hash of the id that a header value names. -/
def idDigest (sha256 : Bytes → Bytes) (value : Str) : Bytes :=
  (sha256 (utf8 (stripAngleBrackets (trim value)))).take 8

/-- A message that opens a conversation. -/
structure IsRoot (m : Threading) : Prop where
  id : ∃ id, Names id m.messageId
  inReplyTo : m.inReplyTo = none
  references : m.references = none

/-- A message that opens a conversation is filed under its own id. -/
theorem computeThreadId_root (sha256 : Bytes → Bytes) {m : Threading} (h : IsRoot m) :
    computeThreadId sha256 m = hexEncode (idDigest sha256 m.messageId) := by
  obtain ⟨⟨id, hid⟩, hreply, hrefs⟩ := h
  obtain ⟨hextract, hne, -⟩ := extractFirstMessageId_of_names hid
  have hnone : extractFirstMessageId [] = [] := rfl
  have hroot : resolveThreadRoot m = trim m.messageId := by
    unfold resolveThreadRoot
    dsimp only
    rw [hreply, hrefs, Option.getD_none, hnone, hextract, if_neg hne]
    simp only [ne_eq, not_true_eq_false, if_false]
  rw [computeThreadId, hroot, idDigest]

/-- **An answer is filed under the id of the message it answers**, whatever its `References` say. -/
theorem computeThreadId_reply (sha256 : Bytes → Bytes) {parent m : Threading} (h : IsReply parent m) :
    computeThreadId sha256 m = hexEncode (idDigest sha256 parent.messageId) := by
  obtain ⟨value, hvalue, id, hid, hparent⟩ := h.inReplyTo
  obtain ⟨hextract, hne, hbare⟩ := extractFirstMessageId_of_names hid
  have hroot : resolveThreadRoot m = trim value := by
    unfold resolveThreadRoot
    dsimp only
    rw [hvalue, Option.getD_some, hextract, if_pos hne]
  rw [computeThreadId, hroot, hbare, idDigest, (extractFirstMessageId_of_names hparent).2.2]

/-- The hexadecimal digits determine the bytes. -/
theorem hexEncode_injective : Function.Injective hexEncode := by
  have hdigit : ∀ a < 16, ∀ b < 16, Nat.digitChar a = Nat.digitChar b → a = b := by decide
  intro bytes
  induction bytes with
  | nil =>
      intro bytes' h
      cases bytes' with
      | nil => rfl
      | cons b' bytes' => exact absurd h (by simp [hexEncode, hexByte])
  | cons b bytes ih =>
      intro bytes' h
      cases bytes' with
      | nil => exact absurd h (by simp [hexEncode, hexByte])
      | cons b' bytes' =>
          have hstep : ∀ (x : UInt8) (xs : Bytes), hexEncode (x :: xs) =
              Nat.digitChar (x.toNat / 16) :: Nat.digitChar (x.toNat % 16) :: hexEncode xs :=
            fun x xs => rfl
          rw [hstep, hstep, List.cons.injEq, List.cons.injEq] at h
          obtain ⟨hhigh, hlow, hrest⟩ := h
          have hb := b.toNat_lt
          have hb' := b'.toNat_lt
          have hh := hdigit _ (by omega) _ (by omega) hhigh
          have hl := hdigit _ (by omega) _ (by omega) hlow
          have heq : b = b' := UInt8.toNat_inj.mp (by omega)
          rw [heq, ih hrest]

/-- The answers along a chain are filed under the ids of the messages they answer. -/
theorem forall_threadId_iff (sha256 : Bytes → Bytes) (thread : Str) {first : Threading}
    {replies : List Threading} (h : List.IsChain IsReply (first :: replies)) :
    (∀ m ∈ replies, computeThreadId sha256 m = thread) ↔
      ∀ parent ∈ (first :: replies).dropLast,
        hexEncode (idDigest sha256 parent.messageId) = thread := by
  induction replies generalizing first with
  | nil => simp
  | cons m replies ih =>
      obtain ⟨hreply, hchain⟩ := List.isChain_cons_cons.mp h
      rw [List.dropLast_cons_cons, List.forall_mem_cons, List.forall_mem_cons, ← ih hchain,
        computeThreadId_reply sha256 hreply]

/-- **A reply chain is one thread exactly when no reply is answered**, except by a reply whose id has
the digest of the root's. -/
theorem threadId_eq_root_iff (sha256 : Bytes → Bytes) {root : Threading} {replies : List Threading}
    (hroot : IsRoot root) (hchain : List.IsChain IsReply (root :: replies)) :
    (∀ m ∈ replies, computeThreadId sha256 m = computeThreadId sha256 root) ↔
      ∀ answered ∈ replies.dropLast,
        idDigest sha256 answered.messageId = idDigest sha256 root.messageId := by
  rw [forall_threadId_iff sha256 _ hchain, computeThreadId_root sha256 hroot]
  cases replies with
  | nil => simp
  | cons m replies =>
      rw [List.dropLast_cons_cons, List.forall_mem_cons, and_iff_right rfl]
      constructor
      · exact fun h answered hm => hexEncode_injective (h answered hm)
      · exact fun h answered hm => congrArg hexEncode (h answered hm)

/-- The hashes of two ids. -/
def sampleSha256 (bytes : Bytes) : Bytes :=
  if bytes = utf8 "a@x".toList then
    [0xBD, 0x39, 0xE6, 0xFE, 0xAF, 0xD8, 0x37, 0x01, 0x1C, 0x64, 0xE8, 0xA2, 0x9C, 0x3F, 0xDF, 0xFE,
      0x59, 0xF4, 0x1E, 0x1A, 0x07, 0x1B, 0x93, 0x6B, 0xBD, 0x66, 0xB7, 0xC3, 0x1F, 0xB3, 0x90, 0xD4]
  else
    [0x68, 0xC7, 0x91, 0x03, 0x85, 0xB4, 0x5F, 0xA8, 0x44, 0xF6, 0x6C, 0x26, 0x3C, 0x41, 0xF5, 0xB3,
      0x73, 0x43, 0xA1, 0xC1, 0xD9, 0x87, 0x54, 0xBD, 0x06, 0x98, 0x3C, 0x84, 0xAA, 0x0B, 0x06, 0x1B]

/-- A question, an answer, and an answer to the answer. -/
def question : Threading := ⟨"<a@x>".toList, none, none⟩
def answer : Threading := emailReply "<b@x>".toList question
def secondAnswer : Threading := emailReply "<c@x>".toList answer

/-- A value without line ends, by running through it. -/
theorem noLineEnd_of_all {value : Str} (h : value.all (fun c => c ≠ '\r' ∧ c ≠ '\n') = true) :
    ∀ c ∈ value, c ≠ '\r' ∧ c ≠ '\n' := by
  simpa using h

theorem question_isRoot : IsRoot question :=
  ⟨⟨"a@x".toList, by decide⟩, rfl, rfl⟩

theorem answer_isReply : IsReply question answer :=
  emailReply_isReply _ ⟨"a@x".toList, by decide⟩ (fun w hw => absurd hw List.not_mem_nil)
    (noLineEnd_of_all (by decide)) (noLineEnd_of_all (by decide))

theorem secondAnswer_isReply : IsReply answer secondAnswer := by
  refine emailReply_isReply _ ⟨"b@x".toList, by decide⟩ ?_ (noLineEnd_of_all (by decide))
    (noLineEnd_of_all (by decide))
  intro w hw
  refine ⟨"a@x".toList, ?_⟩
  have hword : w = "<a@x>".toList := by simpa using (show w ∈ ["<a@x>".toList] from hw)
  rw [hword]
  decide

/-- A chain of two messages is one thread. -/
theorem threadId_eq_root_two :
    computeThreadId sampleSha256 answer = computeThreadId sampleSha256 question :=
  (threadId_eq_root_iff sampleSha256 question_isRoot
    (List.isChain_cons_cons.mpr ⟨answer_isReply, List.IsChain.singleton _⟩)).mpr (by simp) answer
    (List.mem_singleton_self answer)

/-- A chain of three messages is two threads. -/
theorem conversation_split :
    IsRoot question ∧ List.IsChain IsReply [question, answer, secondAnswer] ∧
      computeThreadId sampleSha256 secondAnswer ≠ computeThreadId sampleSha256 question := by
  refine ⟨question_isRoot, ?_, by decide +kernel⟩
  exact List.isChain_cons_cons.mpr ⟨answer_isReply,
    List.isChain_cons_cons.mpr ⟨secondAnswer_isReply, List.IsChain.singleton _⟩⟩

end Ingest
end Aimx
