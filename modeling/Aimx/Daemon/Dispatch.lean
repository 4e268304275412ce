import Aimx.Daemon.Requests
import Aimx.Protocol.Request

/-!
# Hook requests on the wire

What the daemon makes of the bytes of a hook request as a client has written them.

* `dispatchHook` — the part of the dispatcher that a hook request reaches;
* `dispatchHook_create`, `dispatchHook_create_refused` — a HOOK-CREATE is handled as it is cleaned, or
  refused;
* `dispatchHook_delete` — a HOOK-DELETE of a plain name is handled as it was written;
* `plainName_effectiveHookName` — the names of hooks are plain;
* `hookCreate_linesFit` — the header lines of a HOOK-CREATE with plain fields.
-/

namespace Aimx
namespace Daemon

open Text Protocol

/-! ## The dispatcher -/

section Dispatch

variable (env : HandlerEnv) (debug : Str → Str) (faults : Faults) (world : World) (caller : Caller)

/-- `handle_uds_connection` on the bytes of a client, as far as hook requests and broken frames go: the
requests of other verbs are answered elsewhere, and an empty stream gets no answer. -/
def dispatchHook (input : Bytes) : Option (World × AckResponse) :=
  match parseRequest input with
  | .ok (.hookCreate req, _) => some (handle env faults world caller (.hookCreate req))
  | .ok (.hookDelete req, _) => some (handle env faults world caller (.hookDelete req))
  | .ok (_, _) => none
  | .error .closedBeforeRequest => none
  | .error (.unknownVerb verb) =>
      some (world, .err ⟨.protocol, "unknown verb '".toList ++ verb ++ "'".toList⟩)
  | .error (.malformed reason) =>
      some (world, .err ⟨.malformed, (ParseError.malformed reason).display debug⟩)

end Dispatch

section Written

variable {env : HandlerEnv} {debug : Str → Str} {faults : Faults} {world : World} {caller : Caller}

/-- A HOOK-CREATE that the protocol can carry is handled as it is cleaned. -/
theorem dispatchHook_create {req : HookCreateRequest} (hlines : (Request.hookCreate req).LinesFit)
    (hbody : req.body.length ≤ defaultMaxBodySize) (hok : (Request.hookCreate req).Admissible) :
    dispatchHook env debug faults world caller (writeHookCreateRequest req) =
      some (handle env faults world caller (.hookCreate
        ⟨cleanField req.mailbox, cleanField req.event, req.name.map cleanField, req.body⟩)) := by
  have hparse := (@parseRequestWithLimit_write defaultMaxBodySize (by decide) _ hlines hbody []).1 hok
  rw [List.append_nil] at hparse
  have hread : parseRequest (writeHookCreateRequest req) = .ok (.hookCreate
      ⟨cleanField req.mailbox, cleanField req.event, req.name.map cleanField, req.body⟩, []) := hparse
  unfold dispatchHook
  rw [hread]

/-- Any other HOOK-CREATE is refused. -/
theorem dispatchHook_create_refused {req : HookCreateRequest}
    (hbad : ¬((Request.hookCreate req).LinesFit ∧ req.body.length ≤ defaultMaxBodySize ∧
      (Request.hookCreate req).Admissible)) :
    ∃ reject, dispatchHook env debug faults world caller (writeHookCreateRequest req) =
      some (world, .err reject) := by
  have hread : ∃ reason, parseRequest (writeHookCreateRequest req) = .error (.malformed reason) := by
    by_cases hfits : (Request.hookCreate req).LinesFit ∧ req.body.length ≤ defaultMaxBodySize
    · have hno : ¬(Request.hookCreate req).Admissible := fun hok => hbad ⟨hfits.1, hfits.2, hok⟩
      obtain ⟨reason, hparse⟩ :=
        (@parseRequestWithLimit_write defaultMaxBodySize (by decide) _ hfits.1 hfits.2 []).2 hno
      rw [List.append_nil] at hparse
      exact ⟨reason, hparse⟩
    · obtain ⟨reason, hparse⟩ := parseRequestWithLimit_hookCreate_refused [] hfits
      rw [List.append_nil] at hparse
      exact ⟨reason, hparse⟩
  obtain ⟨reason, hreason⟩ := hread
  unfold dispatchHook
  rw [hreason]
  exact ⟨_, rfl⟩

end Written

/-! ## Fields that stay as they are -/

section Fields

variable {s : Str}

/-- A text without white space is its own cleaned form. -/
theorem cleanField_eq_self (h : ∀ c ∈ s, isWhitespace c = false) : cleanField s = s := by
  have hfilter : sanitizeInline s = s := by
    unfold sanitizeInline
    rw [List.filter_eq_self]
    intro c hc
    rw [decide_eq_true_eq]
    constructor
    · rintro rfl
      exact absurd (h _ hc) (by decide)
    · rintro rfl
      exact absurd (h _ hc) (by decide)
  rw [cleanField, hfilter, trim_eq_self h]

/-- A text that is its own cleaned form is written as it is. -/
theorem sanitizeInline_of_clean (h : cleanField s = s) : sanitizeInline s = s := by
  have hsub : (sanitizeInline s).length ≤ s.length := List.length_filter_le _ s
  have htrim : (trim (sanitizeInline s)).length ≤ (sanitizeInline s).length :=
    ((List.rdropWhile_prefix _ _).isInfix.trans (List.dropWhile_suffix _).isInfix).length_le
  have hlen : s.length ≤ (sanitizeInline s).length := by
    have hwhole := congrArg List.length h
    rw [cleanField] at hwhole
    omega
  exact (List.filter_sublist (l := s)).eq_of_length_le hlen

/-- A short field fits on a header line. -/
theorem headerText_fits {header : HeaderName} (h : byteLen s ≤ hookNameMaxLen) :
    byteLen (headerText (header, s)) ≤ maxHeaderLine := by
  have hname : byteLen header.asStr ≤ 16 := by cases header <;> decide +kernel
  have hcolon : byteLen ": ".toList = 2 := by decide +kernel
  simp only [headerText, byteLen_append, hcolon]
  unfold hookNameMaxLen at h
  unfold maxHeaderLine
  omega

/-- A declared length within the cap fits on its line. -/
theorem contentLength_fits {n : Nat} (h : n ≤ defaultMaxBodySize) :
    byteLen (headerText (.contentLength, decimal n)) ≤ maxHeaderLine := by
  apply headerText_fits
  have hdigits : (decimal n).length ≤ 8 := by
    rw [decimal, Nat.length_toDigits_le_iff (by omega) (by omega)]
    exact lt_of_le_of_lt h (by decide)
  have hbytes := byteLen_le (decimal n)
  unfold hookNameMaxLen
  omega

end Fields

/-! ## Names of hooks -/

/-- A name that the wire carries as it is. -/
structure PlainName (name : Str) : Prop where
  visible : ∀ c ∈ name, isWhitespace c = false
  nonempty : name ≠ []
  short : byteLen name ≤ hookNameMaxLen

section Names

variable {name : Str}

theorem PlainName.clean (h : PlainName name) : cleanField name = name := cleanField_eq_self h.visible

theorem PlainName.sanitize (h : PlainName name) : sanitizeInline name = name :=
  sanitizeInline_of_clean h.clean

theorem plainName_of_isValidHookName (h : isValidHookName name = true) : PlainName name :=
  ⟨visible_of_isValidHookName h, (isValidHookName_bytes h).1, (isValidHookName_bytes h).2.1⟩

/-- A derived name is a few hexadecimal digits, where the digest is not empty. -/
theorem plainName_deriveHookName {sha256 : Bytes → Bytes} (hsha : ∀ bytes ≠ [], sha256 bytes ≠ [])
    (event : HookEvent) (cmd : List Str) (fireOnUntrusted : Bool) :
    PlainName (deriveHookName sha256 event cmd fireOnUntrusted) := by
  have hdigits : ∀ d < 16, isWhitespace (Nat.digitChar d) = false := by decide
  unfold deriveHookName
  dsimp only
  generalize hinput : utf8 event.asStr ++ [0x1F] ++ [0x1F].intercalate (cmd.map utf8) ++ [0x1F] ++
    [if fireOnUntrusted then 1 else 0] = input
  have hdigest : sha256 input ≠ [] := by
    refine hsha input ?_
    rw [← hinput]
    simp
  -- two digits for a byte of the digest, of as many bytes as the name has room for
  refine ⟨?_, ?_, ?_⟩
  · intro c hc
    obtain ⟨b, -, hb⟩ := List.mem_flatMap.mp hc
    have hlt := b.toNat_lt
    simp only [hexByte, List.mem_cons, List.not_mem_nil, or_false] at hb
    rcases hb with rfl | rfl
    · exact hdigits _ (by omega)
    · exact hdigits _ (by omega)
  · obtain ⟨b, bytes, hbytes⟩ := List.exists_cons_of_ne_nil hdigest
    rw [hbytes]
    simp [derivedHookNameLen, hexByte]
  · have hlen : ∀ bytes : Bytes, (bytes.flatMap hexByte).length = 2 * bytes.length := by
      intro bytes
      induction bytes with
      | nil => rfl
      | cons b bytes ih =>
          rw [List.flatMap_cons, List.length_append, ih, List.length_cons, hexByte]
          simp only [List.length_cons, List.length_nil]
          omega
    have htake := List.length_take_le ((derivedHookNameLen + 1) / 2) (sha256 input)
    have hbytes := byteLen_le (((sha256 input).take ((derivedHookNameLen + 1) / 2)).flatMap hexByte)
    rw [hlen] at hbytes
    unfold derivedHookNameLen at htake hbytes ⊢
    unfold hookNameMaxLen
    omega

/-- The effective name of a valid hook is plain. -/
theorem plainName_effectiveHookName {sha256 : Bytes → Bytes} (hsha : ∀ bytes ≠ [], sha256 bytes ≠ [])
    {hook : Hook} (h : hook.fault = none) : PlainName (effectiveHookName sha256 hook) := by
  unfold effectiveHookName
  cases hname : hook.name with
  | none => exact plainName_deriveHookName hsha _ _ _
  | some name =>
      refine plainName_of_isValidHookName ?_
      by_contra hinvalid
      rw [Bool.not_eq_true] at hinvalid
      unfold Hook.fault at h
      simp [hname, hinvalid, Option.filter] at h

end Names

/-! ## Plain requests -/

section Plain

variable {env : HandlerEnv} {debug : Str → Str} {faults : Faults} {world : World} {caller : Caller}

/-- A HOOK-DELETE of a plain name is handled as it was written. -/
theorem dispatchHook_delete {name : Str} (h : PlainName name) :
    dispatchHook env debug faults world caller (writeHookDeleteRequest ⟨name⟩) =
      some (handle env faults world caller (.hookDelete ⟨name⟩)) := by
  have hlines : (Request.hookDelete ⟨name⟩).LinesFit := by
    show ∀ header ∈ hookDeleteHeaders ⟨name⟩, byteLen (headerText header) ≤ maxHeaderLine
    unfold hookDeleteHeaders
    rw [List.forall_mem_cons, List.forall_mem_singleton, h.sanitize]
    exact ⟨headerText_fits h.short, by decide +kernel⟩
  have hok : (Request.hookDelete ⟨name⟩).Admissible := by
    show cleanField name ≠ []
    rw [h.clean]
    exact h.nonempty
  have hparse := (@parseRequestWithLimit_write defaultMaxBodySize (by decide) _ hlines trivial []).1 hok
  rw [List.append_nil] at hparse
  have hread : parseRequest (writeHookDeleteRequest ⟨name⟩) =
      .ok (.hookDelete ⟨cleanField name⟩, []) := hparse
  unfold dispatchHook
  rw [hread, h.clean]

/-- With a plain event and a plain name, the header lines of a HOOK-CREATE fit if the one with the mailbox
does and the body is within the cap. -/
theorem hookCreate_linesFit {req : HookCreateRequest}
    (hmailbox : byteLen (headerText (.mailbox, sanitizeInline req.mailbox)) ≤ maxHeaderLine)
    (hevent : PlainName req.event) (hname : ∀ name ∈ req.name, PlainName name)
    (hbody : req.body.length ≤ defaultMaxBodySize) : (Request.hookCreate req).LinesFit := by
  show ∀ header ∈ hookCreateHeaders req, byteLen (headerText header) ≤ maxHeaderLine
  unfold hookCreateHeaders
  rw [List.forall_mem_append, List.forall_mem_append, List.forall_mem_cons, List.forall_mem_singleton,
    List.forall_mem_singleton, hevent.sanitize]
  refine ⟨⟨⟨hmailbox, headerText_fits hevent.short⟩, ?_⟩, contentLength_fits hbody⟩
  cases hreq : req.name with
  | none => exact fun _ hmem => absurd hmem List.not_mem_nil
  | some name =>
      have hplain := hname name hreq
      dsimp only
      rw [List.forall_mem_singleton, hplain.sanitize]
      exact headerText_fits hplain.short

end Plain

end Daemon
end Aimx
