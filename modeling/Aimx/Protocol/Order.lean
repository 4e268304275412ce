import Aimx.Protocol.Request
import Aimx.Transition.Once

/-!
# The order of the header lines

AIMX/1 leaves the order of the header lines open.

* `frame`, `IsHeaderLine` — a request line, header lines and what follows, as bytes;
* `headerOf`, `Verb.Knows` — what a header line says, and which headers a verb knows;
* `readHeaders_block`, `exists_lines_of_readHeaders` — the header loop is a run over the lines;
* `parseRequestWithLimit_order` — what is accepted does not depend on the order, and its limits.
-/

namespace Aimx
namespace Protocol

open Text Send Transition

/-! ## Frames as lines -/

/-- A line that does not end the header block. -/
def IsHeaderLine (line : Bytes) : Prop := 0x0A ∉ line ∧ ∃ b ∈ line, b ≠ 0x0D

/-- A line that ends it. -/
def IsBlankLine (line : Bytes) : Prop := ∀ b ∈ line, b = 0x0D

/-- Lines with their terminators. -/
def block (lines : List Bytes) : Bytes := lines.flatMap fun line => line ++ [0x0A]

/-- A request line, header lines, and anything behind them. -/
def frame (requestLine : Bytes) (lines : List Bytes) (rest : Bytes) : Bytes :=
  requestLine ++ 0x0A :: (block lines ++ rest)

/-- A line as `read_line` gives it to the parsers. -/
def rawText (line : Bytes) : Option Str := if maxHeaderLine < line.length then none else fromUtf8 line

/-- A line as the parsers look at it. -/
def lineText (line : Bytes) : Option Str := (rawText line).map trimEndCr

/-- What a header line says: a header, if one of them, and its value. -/
def headerOf (line : Bytes) : Option (Option HeaderName × Str) :=
  (lineText line).bind fun text => (splitHeader text).toOption

/-- The verb that a request line names. -/
def verbOf (line : Bytes) : Option Verb :=
  ((lineText line).bind (stripPrefix "AIMX/1 ".toList)).bind Verb.ofStr

/-- The headers that a verb knows. -/
def Verb.headers : Verb → List HeaderName
  | .send => [.contentLength, .textOnly, .htmlBodyLength]
  | .markRead | .markUnread => [.mailbox, .id, .folder, .contentLength]
  | .mailboxCreate | .mailboxDelete => [.name, .owner, .force, .contentLength]
  | .hookCreate => [.mailbox, .event, .name, .contentLength]
  | .hookDelete => [.hookName, .contentLength]
  | .mailboxList | .hookList | .version => []

/-- A header that the verb knows. -/
def Verb.Knows (verb : Verb) (header : Option HeaderName) : Prop := ∃ h ∈ verb.headers, header = some h

/-- A header line that declares a length. -/
def Declares (lines : List Bytes) (header : HeaderName) (n : Nat) : Prop :=
  ∃ line ∈ lines, ∃ value, headerOf line = some (some header, value) ∧ parseUsize value = some n

/-! ## The header loop as a run -/

section Loop

variable {σ : Type} {onHeader : σ → Option HeaderName → Str → Except Malformed σ}

/-- A handler without the texts of its errors. -/
def stepOf (onHeader : σ → Option HeaderName → Str → Except Malformed σ) (st : σ)
    (header : Option HeaderName) (value : Str) : Option σ :=
  (onHeader st header value).toOption

/-- A line read from a stream that holds it. -/
theorem readLine_append {line : Bytes} (hlf : (0x0A : UInt8) ∉ line) (rest : Bytes) :
    (readLine (line ++ 0x0A :: rest)).toOption = (rawText line).map fun text => some (text, rest) := by
  unfold readLine rawText
  by_cases hlen : maxHeaderLine < line.length
  · rw [readLineLoop_tooLong hlf (Nat.zero_le _) (by simpa using hlen), if_pos hlen]
    rfl
  · have hfits : ([] : Bytes).length + line.length ≤ maxHeaderLine := by simpa using hlen
    rw [readLineLoop_append hlf hfits, if_neg hlen, List.nil_append]
    dsimp only
    cases fromUtf8 line <;> rfl

/-- A header line is not blank. -/
theorem trimEndCr_ne_nil {line : Bytes} {text : Str} (hline : IsHeaderLine line)
    (htext : rawText line = some text) : trimEndCr text ≠ [] := by
  intro hnil
  rw [rawText] at htext
  split at htext
  next => cases htext
  next =>
    obtain ⟨b, hb, hcr⟩ := hline.2
    rw [fromUtf8_eq_some_iff.mp htext] at hb
    obtain ⟨c, hc, hbc⟩ := List.mem_flatMap.mp hb
    have hall := List.rdropWhile_eq_nil_iff.mp hnil c hc
    rw [beq_iff_eq.mp hall] at hbc
    exact hcr (by simpa [String.utf8EncodeChar] using hbc)

/-- One round of the loop on a header line. -/
theorem readHeaders_line {line : Bytes} (hline : IsHeaderLine line) (st : σ) (rest : Bytes) :
    (readHeaders onHeader st (line ++ 0x0A :: rest)).toOption =
      (decoded headerOf (stepOf onHeader) st line).bind fun st =>
        (readHeaders onHeader st rest).toOption := by
  have hread := readLine_append hline.1 rest
  cases hraw : rawText line with
  | none =>
    cases hline : readLine (line ++ 0x0A :: rest) with
    | ok _ => simp [hline, hraw, Except.toOption] at hread
    | error e =>
      rw [readHeaders, hline, decoded, headerOf, lineText, hraw]
      rfl
  | some text =>
    cases hok : readLine (line ++ 0x0A :: rest) with
    | error _ => simp [hok, hraw, Except.toOption] at hread
    | ok result =>
      have hresult : result = some (text, rest) := by simpa [hok, hraw, Except.toOption] using hread
      rw [readHeaders, hok, hresult, decoded, headerOf, lineText, hraw]
      dsimp only
      rw [if_neg (trimEndCr_ne_nil hline hraw)]
      simp only [Option.map_some, Option.bind_some]
      cases splitHeader (trimEndCr text) with
      | error e => rfl
      | ok header =>
        simp only [Except.toOption, Option.bind_some, stepOf]
        cases onHeader st header.1 header.2 <;> rfl

/-- The header loop over lines in front of anything is a run over the lines. -/
theorem readHeaders_block {lines : List Bytes} (hlines : ∀ line ∈ lines, IsHeaderLine line) (st : σ)
    (rest : Bytes) : (readHeaders onHeader st (block lines ++ rest)).toOption =
      (lines.foldlM (decoded headerOf (stepOf onHeader)) st).bind fun st =>
        (readHeaders onHeader st rest).toOption := by
  induction lines generalizing st with
  | nil => rfl
  | cons line lines ih =>
    have hblock : block (line :: lines) ++ rest = line ++ 0x0A :: (block lines ++ rest) := by
      simp [block]
    rw [hblock, readHeaders_line (hlines line List.mem_cons_self), List.foldlM_cons]
    cases decoded headerOf (stepOf onHeader) st line with
    | none => rfl
    | some st' => exact ih (fun l hl => hlines l (List.mem_cons_of_mem _ hl)) st'

theorem exists_line_of_readLineLoop {buf buf' input rest : Bytes} (hbuf : buf.length ≤ maxHeaderLine)
    (h : readLineLoop buf input = .ok (some (buf', rest))) :
    ∃ line, input = line ++ 0x0A :: rest ∧ buf' = buf ++ line ∧ (0x0A : UInt8) ∉ line ∧
      buf'.length ≤ maxHeaderLine := by
  induction input generalizing buf with
  | nil =>
    rw [readLineLoop] at h
    split at h <;> cases h
  | cons b input ih =>
    rw [readLineLoop] at h
    split at h
    next hlf =>
      cases h
      exact ⟨[], by rw [hlf]; rfl, by simp, List.not_mem_nil, hbuf⟩
    next hlf =>
      split at h
      next => cases h
      next hfits =>
        obtain ⟨line, rfl, rfl, hmem, hlen⟩ := ih (by rw [List.length_append]; simpa using hfits) h
        refine ⟨b :: line, rfl, by simp, ?_, hlen⟩
        rw [List.mem_cons, not_or]
        exact ⟨fun hb => hlf hb.symm, hmem⟩

/-- What is left of a line is what follows its terminator. -/
theorem exists_line_of_readLine {input rest : Bytes} {text : Str}
    (h : readLine input = .ok (some (text, rest))) :
    ∃ line, input = line ++ 0x0A :: rest ∧ (0x0A : UInt8) ∉ line ∧ rawText line = some text := by
  unfold readLine at h
  split at h
  next => cases h
  next => cases h
  next buf rest' hloop =>
    split at h
    next => cases h
    next text' htext =>
      cases h
      obtain ⟨line, hinput, hbuf, hlf, hlen⟩ := exists_line_of_readLineLoop (Nat.zero_le _) hloop
      rw [List.nil_append] at hbuf
      subst hbuf
      exact ⟨buf, hinput, hlf, by rw [rawText, if_neg (by omega), htext]⟩

theorem isBlankLine_of_trimEndCr {line : Bytes} {text : Str} (htext : rawText line = some text)
    (hnil : trimEndCr text = []) : IsBlankLine line := by
  intro b hb
  rw [rawText] at htext
  split at htext
  next => cases htext
  next =>
    rw [fromUtf8_eq_some_iff.mp htext] at hb
    obtain ⟨c, hc, hbc⟩ := List.mem_flatMap.mp hb
    have hcr := List.rdropWhile_eq_nil_iff.mp hnil c hc
    rw [beq_iff_eq.mp hcr] at hbc
    simpa [String.utf8EncodeChar] using hbc

theorem trimEndCr_of_isBlankLine {line : Bytes} {text : Str} (hline : IsBlankLine line)
    (htext : rawText line = some text) : trimEndCr text = [] := by
  have hutf8 : line = utf8 (line.map fun _ => '\r') := by
    clear htext
    induction line with
    | nil => rfl
    | cons b line ih =>
      rw [List.map_cons, utf8_cons, ← ih fun b' hb' => hline b' (List.mem_cons_of_mem b hb'),
        hline b List.mem_cons_self]
      rfl
  rw [rawText] at htext
  split at htext
  next => cases htext
  next =>
    rw [fromUtf8_eq_some_iff.mpr hutf8] at htext
    cases htext
    exact List.rdropWhile_eq_nil_iff.mpr (by simp)

/-- A loop that comes to its end has read header lines and a blank line. -/
theorem exists_lines_of_readHeaders {st st' : σ} {input rest : Bytes}
    (h : readHeaders onHeader st input = .ok (st', rest)) :
    ∃ lines blank, input = block lines ++ (blank ++ 0x0A :: rest) ∧ (∀ line ∈ lines, IsHeaderLine line) ∧
      IsBlankLine blank ∧ lines.foldlM (decoded headerOf (stepOf onHeader)) st = some st' := by
  induction hn : input.length using Nat.strongRecOn generalizing st input with
  | _ n ih =>
    have hloop := h
    rw [readHeaders] at hloop
    split at hloop
    next => cases hloop
    next => cases hloop
    next text rest' hread =>
      obtain ⟨line, rfl, hlf, htext⟩ := exists_line_of_readLine hread
      by_cases hblank : trimEndCr text = []
      · dsimp only at hloop
        rw [if_pos hblank] at hloop
        cases hloop
        exact ⟨[], line, rfl, by simp, isBlankLine_of_trimEndCr htext hblank, rfl⟩
      · have hline : IsHeaderLine line := by
          refine ⟨hlf, ?_⟩
          by_contra hall
          apply hblank
          apply trimEndCr_of_isBlankLine _ htext
          intro b hb
          by_contra hne
          exact hall ⟨b, hb, hne⟩
        have hstep := @readHeaders_line σ onHeader line hline st rest'
        rw [h] at hstep
        obtain ⟨next, hnext, hrest⟩ := Option.bind_eq_some_iff.mp hstep.symm
        cases hok : readHeaders onHeader next rest' with
        | error e => rw [hok] at hrest; cases hrest
        | ok result =>
          rw [hok] at hrest
          cases hrest
          obtain ⟨lines, blank, rfl, hlines, hend, hrun⟩ :=
            ih rest'.length (by simp [← hn]; omega) hok rfl
          refine ⟨line :: lines, blank, by simp [block], ?_, hend, ?_⟩
          · exact List.forall_mem_cons.mpr ⟨hline, hlines⟩
          · rw [List.foldlM_cons, hnext]
            exact hrun

end Loop

/-! ## The five parsers -/

theorem onceValue_toOption (header : HeaderName) (slot : Option Str) (value : Str) :
    (onceValue header slot value).toOption =
      if slot.isSome = false ∧ value ≠ [] then some (some value) else none := by
  cases slot with
  | some old => simp [onceValue, Except.toOption]
  | none =>
    by_cases hv : value = []
    · simp [onceValue, Except.toOption, hv]
    · simp [onceValue, Except.toOption, hv]

/-- A value that `onceLength` takes. -/
def lengthOk (check : Nat → Except Malformed Unit) (value : Str) : Bool :=
  (parseUsize value).any fun n => (check n).toOption.isSome

theorem isSome_of_lengthOk {check : Nat → Except Malformed Unit} {value : Str}
    (h : lengthOk check value = true) : (parseUsize value).isSome = true := by
  obtain ⟨n, hn, -⟩ := (Option.any_eq_true ..).mp h
  rw [hn]
  rfl

theorem onceLength_toOption (header : HeaderName) (check : Nat → Except Malformed Unit) (slot : Option Nat)
    (value : Str) : (onceLength header check slot value).toOption =
      if slot.isSome = false ∧ lengthOk check value = true then some (parseUsize value) else none := by
  cases slot with
  | some old => simp [onceLength, Except.toOption]
  | none =>
    cases hv : parseUsize value with
    | none => simp [onceLength, lengthOk, Except.toOption, hv]
    | some n =>
      cases hc : check n <;> simp [onceLength, lengthOk, Except.toOption, Except.map, hv, hc]

/-- A value that `onceFlag` takes. -/
def flagOk (value : Str) : Bool :=
  toAsciiLowercase value == "true".toList || toAsciiLowercase value == "false".toList

theorem onceFlag_toOption (header : HeaderName) (seen : Bool) (value : Str) :
    (onceFlag header seen value).toOption =
      if seen = false ∧ flagOk value = true then some (toAsciiLowercase value == "true".toList)
      else none := by
  cases seen with
  | true => rfl
  | false =>
    unfold onceFlag flagOk
    generalize "true".toList = t
    generalize "false".toList = f
    by_cases ht : toAsciiLowercase value = t
    · simp [Except.toOption, ht]
    · by_cases hf : toAsciiLowercase value = f
      · have hne : ¬ f = t := hf ▸ ht
        simp [Except.toOption, hf, hne]
      · simp [Except.toOption, ht, hf]

theorem Except.toOption_map {ε α β : Type} (f : α → β) (r : Except ε α) :
    (r.map f).toOption = r.toOption.map f := by
  cases r <;> rfl

/-- SEND takes its headers once. -/
def sendOnce (cap : Nat) : OnceStep (stepOf (onSendHeader cap)) Verb.send.Knows where
  seen st
    | some .contentLength => st.contentLength.isSome
    | some .textOnly => st.textOnlySeen
    | some .htmlBodyLength => st.htmlBodyLength.isSome
    | _ => false
  accepts
    | some .contentLength, v => lengthOk (withinCap .contentLength cap) v
    | some .textOnly, v => flagOk v
    | some .htmlBodyLength, v => lengthOk (withinCap .htmlBodyLength cap) v
    | _, _ => false
  put st
    | some .contentLength, v => { st with contentLength := parseUsize v }
    | some .textOnly, v => { st with textOnly := toAsciiLowercase v == "true".toList, textOnlySeen := true }
    | some .htmlBodyLength, v => { st with htmlBodyLength := parseUsize v }
    | _, _ => st
  step_unknown := by
    intro k hk st v
    rcases k with _ | k
    · rfl
    · cases k <;> first | rfl | exact absurd ⟨_, by decide, rfl⟩ hk
  step_known := by
    rintro k ⟨h, hmem, rfl⟩ st v
    simp only [Verb.headers, List.mem_cons, List.not_mem_nil, or_false] at hmem
    rcases hmem with rfl | rfl | rfl
    all_goals
      simp only [stepOf, onSendHeader, Except.toOption_map, onceLength_toOption, onceFlag_toOption]
      split <;> rfl
  seen_put := by
    rintro k v ⟨h, hmem, rfl⟩ haccept st k'
    simp only [Verb.headers, List.mem_cons, List.not_mem_nil, or_false] at hmem
    rcases hmem with rfl | rfl | rfl
    · cases k' with
      | none => simp
      | some k' => cases k' <;> simp [isSome_of_lengthOk haccept]
    · cases k' with
      | none => simp
      | some k' => cases k' <;> simp
    · cases k' with
      | none => simp
      | some k' => cases k' <;> simp [isSome_of_lengthOk haccept]
  put_comm := by
    intro k k' hne st v v'
    rcases k with _ | k <;> rcases k' with _ | k'
    · rfl
    · cases k' <;> rfl
    · cases k <;> rfl
    · cases k <;> cases k' <;> first | rfl | exact absurd rfl hne

/-- The MARK verbs take their headers once, and `Folder` never. -/
def markOnce : OnceStep (stepOf onMarkHeader) Verb.markRead.Knows where
  seen st
    | some .mailbox => st.mailbox.isSome
    | some .id => st.id.isSome
    | some .contentLength => st.contentLength.isSome
    | _ => false
  accepts
    | some .mailbox, v => v ≠ []
    | some .id, v => v ≠ []
    | some .contentLength, v => lengthOk (mustBeZero "MARK verb".toList) v
    | _, _ => false
  put st
    | some .mailbox, v => { st with mailbox := some v }
    | some .id, v => { st with id := some v }
    | some .contentLength, v => { st with contentLength := parseUsize v }
    | _, _ => st
  step_unknown := by
    intro k hk st v
    rcases k with _ | k
    · rfl
    · cases k <;> first | rfl | exact absurd ⟨_, by decide, rfl⟩ hk
  step_known := by
    rintro k ⟨h, hmem, rfl⟩ st v
    simp only [Verb.headers, List.mem_cons, List.not_mem_nil, or_false] at hmem
    rcases hmem with rfl | rfl | rfl | rfl
    all_goals
      simp only [stepOf, onMarkHeader, Except.toOption_map, onceLength_toOption, onceValue_toOption,
        decide_eq_true_eq]
      first | rfl | (split <;> rfl)
  seen_put := by
    rintro k v ⟨h, hmem, rfl⟩ haccept st k'
    simp only [Verb.headers, List.mem_cons, List.not_mem_nil, or_false] at hmem
    rcases hmem with rfl | rfl | rfl | rfl
    · cases k' with
      | none => simp
      | some k' => cases k' <;> simp
    · cases k' with
      | none => simp
      | some k' => cases k' <;> simp
    · cases haccept
    · cases k' with
      | none => simp
      | some k' => cases k' <;> simp [isSome_of_lengthOk haccept]
  put_comm := by
    intro k k' hne st v v'
    rcases k with _ | k <;> rcases k' with _ | k'
    · rfl
    · cases k' <;> rfl
    · cases k <;> rfl
    · cases k <;> cases k' <;> first | rfl | exact absurd rfl hne

/-- So do MAILBOX-CREATE, which never takes `Force`, and MAILBOX-DELETE. -/
def mailboxOnce (create : Bool) : OnceStep (stepOf (onMailboxHeader create)) Verb.mailboxDelete.Knows where
  seen st
    | some .name => st.name.isSome
    | some .owner => st.owner.isSome
    | some .force => st.forceSeen
    | some .contentLength => st.contentLength.isSome
    | _ => false
  accepts
    | some .name, v => v ≠ []
    | some .owner, v => v ≠ [] ∧ isValidSystemUsername v = true
    | some .force, v => !create && flagOk v
    | some .contentLength, v => lengthOk (mustBeZero "MAILBOX verb".toList) v
    | _, _ => false
  put st
    | some .name, v => { st with name := some v }
    | some .owner, v => { st with owner := some v }
    | some .force, v => { st with force := toAsciiLowercase v == "true".toList, forceSeen := true }
    | some .contentLength, v => { st with contentLength := parseUsize v }
    | _, _ => st
  step_unknown := by
    intro k hk st v
    rcases k with _ | k
    · rfl
    · cases k <;> first | rfl | exact absurd ⟨_, by decide, rfl⟩ hk
  step_known := by
    rintro k ⟨h, hmem, rfl⟩ st v
    simp only [Verb.headers, List.mem_cons, List.not_mem_nil, or_false] at hmem
    rcases hmem with rfl | rfl | rfl | rfl
    · simp only [stepOf, onMailboxHeader, Except.toOption_map, onceValue_toOption, decide_eq_true_eq]
      split <;> rfl
    · have howner := onceValue_toOption .owner st.owner v
      simp only [stepOf, onMailboxHeader, decide_eq_true_eq]
      cases hv : onceValue .owner st.owner v with
      | error e =>
        rw [hv] at howner
        rw [if_neg]
        · rfl
        · rintro ⟨hseen, hne, -⟩
          rw [if_pos ⟨hseen, hne⟩] at howner
          cases howner
      | ok v' =>
        rw [hv] at howner
        split at howner
        next hfree =>
          cases howner
          dsimp only
          by_cases hname : isValidSystemUsername v = true
          · rw [if_pos hname, if_pos ⟨hfree.1, hfree.2, hname⟩]
            rfl
          · rw [if_neg hname, if_neg (fun h => hname h.2.2)]
            rfl
        next => cases howner
    · cases create with
      | true => simp [stepOf, onMailboxHeader, Except.toOption]
      | false =>
        simp only [stepOf, onMailboxHeader, Except.toOption_map, onceFlag_toOption, Bool.false_eq_true,
          if_false, Bool.not_false, Bool.true_and]
        split <;> rfl
    · simp only [stepOf, onMailboxHeader, Except.toOption_map, onceLength_toOption]
      split <;> rfl
  seen_put := by
    rintro k v ⟨h, hmem, rfl⟩ haccept st k'
    simp only [Verb.headers, List.mem_cons, List.not_mem_nil, or_false] at hmem
    rcases hmem with rfl | rfl | rfl | rfl
    · cases k' with
      | none => simp
      | some k' => cases k' <;> simp
    · cases k' with
      | none => simp
      | some k' => cases k' <;> simp
    · cases k' with
      | none => simp
      | some k' => cases k' <;> simp
    · cases k' with
      | none => simp
      | some k' => cases k' <;> simp [isSome_of_lengthOk haccept]
  put_comm := by
    intro k k' hne st v v'
    rcases k with _ | k <;> rcases k' with _ | k'
    · rfl
    · cases k' <;> rfl
    · cases k <;> rfl
    · cases k <;> cases k' <;> first | rfl | exact absurd rfl hne

/-- So does HOOK-CREATE. -/
def hookCreateOnce (cap : Nat) : OnceStep (stepOf (onHookCreateHeader cap)) Verb.hookCreate.Knows where
  seen st
    | some .mailbox => st.mailbox.isSome
    | some .event => st.event.isSome
    | some .name => st.name.isSome
    | some .contentLength => st.contentLength.isSome
    | _ => false
  accepts
    | some .mailbox, v => v ≠ []
    | some .event, v => v ≠ []
    | some .name, v => v ≠ []
    | some .contentLength, v => lengthOk (withinCap .contentLength cap) v
    | _, _ => false
  put st
    | some .mailbox, v => { st with mailbox := some v }
    | some .event, v => { st with event := some v }
    | some .name, v => { st with name := some v }
    | some .contentLength, v => { st with contentLength := parseUsize v }
    | _, _ => st
  step_unknown := by
    intro k hk st v
    rcases k with _ | k
    · rfl
    · cases k <;> first | rfl | exact absurd ⟨_, by decide, rfl⟩ hk
  step_known := by
    rintro k ⟨h, hmem, rfl⟩ st v
    simp only [Verb.headers, List.mem_cons, List.not_mem_nil, or_false] at hmem
    rcases hmem with rfl | rfl | rfl | rfl
    all_goals
      simp only [stepOf, onHookCreateHeader, Except.toOption_map, onceLength_toOption, onceValue_toOption,
        decide_eq_true_eq]
      split <;> rfl
  seen_put := by
    rintro k v ⟨h, hmem, rfl⟩ haccept st k'
    simp only [Verb.headers, List.mem_cons, List.not_mem_nil, or_false] at hmem
    rcases hmem with rfl | rfl | rfl | rfl
    · cases k' with
      | none => simp
      | some k' => cases k' <;> simp
    · cases k' with
      | none => simp
      | some k' => cases k' <;> simp
    · cases k' with
      | none => simp
      | some k' => cases k' <;> simp
    · cases k' with
      | none => simp
      | some k' => cases k' <;> simp [isSome_of_lengthOk haccept]
  put_comm := by
    intro k k' hne st v v'
    rcases k with _ | k <;> rcases k' with _ | k'
    · rfl
    · cases k' <;> rfl
    · cases k <;> rfl
    · cases k <;> cases k' <;> first | rfl | exact absurd rfl hne

/-- And HOOK-DELETE. -/
def hookDeleteOnce : OnceStep (stepOf onHookDeleteHeader) Verb.hookDelete.Knows where
  seen st
    | some .hookName => st.name.isSome
    | some .contentLength => st.contentLength.isSome
    | _ => false
  accepts
    | some .hookName, v => v ≠ []
    | some .contentLength, v => lengthOk (mustBeZero "HOOK-DELETE".toList) v
    | _, _ => false
  put st
    | some .hookName, v => { st with name := some v }
    | some .contentLength, v => { st with contentLength := parseUsize v }
    | _, _ => st
  step_unknown := by
    intro k hk st v
    rcases k with _ | k
    · rfl
    · cases k <;> first | rfl | exact absurd ⟨_, by decide, rfl⟩ hk
  step_known := by
    rintro k ⟨h, hmem, rfl⟩ st v
    simp only [Verb.headers, List.mem_cons, List.not_mem_nil, or_false] at hmem
    rcases hmem with rfl | rfl
    all_goals
      simp only [stepOf, onHookDeleteHeader, Except.toOption_map, onceLength_toOption, onceValue_toOption,
        decide_eq_true_eq]
      split <;> rfl
  seen_put := by
    rintro k v ⟨h, hmem, rfl⟩ haccept st k'
    simp only [Verb.headers, List.mem_cons, List.not_mem_nil, or_false] at hmem
    rcases hmem with rfl | rfl
    · cases k' with
      | none => simp
      | some k' => cases k' <;> simp
    · cases k' with
      | none => simp
      | some k' => cases k' <;> simp [isSome_of_lengthOk haccept]
  put_comm := by
    intro k k' hne st v v'
    rcases k with _ | k <;> rcases k' with _ | k'
    · rfl
    · cases k' <;> rfl
    · cases k <;> rfl
    · cases k <;> cases k' <;> first | rfl | exact absurd rfl hne

/-! ## Order -/

section Order

variable {lines lines' : List Bytes}

/-- A header loop gives the same state for every order of the lines. -/
theorem readHeaders_perm {σ : Type} {onHeader : σ → Option HeaderName → Str → Except Malformed σ}
    {known : Option HeaderName → Prop} (once : OnceStep (stepOf onHeader) known)
    (hlines : ∀ line ∈ lines, IsHeaderLine line) (hperm : lines.Perm lines') (st : σ) (rest : Bytes) :
    (readHeaders onHeader st (block lines ++ rest)).toOption =
      (readHeaders onHeader st (block lines' ++ rest)).toOption := by
  rw [readHeaders_block hlines, readHeaders_block fun line hl => hlines line (hperm.mem_iff.mpr hl),
    foldlM_perm (decoded_comm once) hperm]

/-- A verb without headers reads no header line. -/
theorem parseNoHeaders_headerLine {line : Bytes} (hline : IsHeaderLine line) (verb : Verb) (rest : Bytes) :
    (parseNoHeaders verb (line ++ 0x0A :: rest)).toOption = none := by
  have hread := readLine_append hline.1 rest
  unfold parseNoHeaders
  cases hraw : rawText line with
  | none =>
    cases hok : readLine (line ++ 0x0A :: rest) with
    | ok _ => simp [hok, hraw, Except.toOption] at hread
    | error e => rfl
  | some text =>
    cases hok : readLine (line ++ 0x0A :: rest) with
    | error _ => rfl
    | ok result =>
      have hresult : result = some (text, rest) := by simpa [hok, hraw, Except.toOption] using hread
      subst hresult
      dsimp only
      rw [if_neg (trimEndCr_ne_nil hline hraw)]
      rfl

theorem parseNoHeaders_perm (verb : Verb) (hlines : ∀ line ∈ lines, IsHeaderLine line)
    (hperm : lines.Perm lines') (rest : Bytes) :
    (parseNoHeaders verb (block lines ++ rest)).toOption =
      (parseNoHeaders verb (block lines' ++ rest)).toOption := by
  cases hl : lines with
  | nil =>
    rw [hl] at hperm
    rw [List.nil_perm.mp hperm]
  | cons line tail =>
    cases hl' : lines' with
    | nil => simp [hl, hl'] at hperm
    | cons line' tail' =>
      have hblock : ∀ (l : Bytes) (ls : List Bytes),
          block (l :: ls) ++ rest = l ++ 0x0A :: (block ls ++ rest) := by
        simp [block]
      have hhead := hlines line (hl ▸ List.mem_cons_self)
      have hhead' := hlines line' (hperm.mem_iff.mpr (hl' ▸ List.mem_cons_self))
      rw [hblock, hblock, parseNoHeaders_headerLine hhead, parseNoHeaders_headerLine hhead']

/-- Two results that agree where they are no errors. -/
theorem cases_of_toOption_eq {ε β : Type} {r r' : Except ε β} (h : r.toOption = r'.toOption) :
    (∃ e e', r = .error e ∧ r' = .error e') ∨ ∃ b, r = .ok b ∧ r' = .ok b := by
  cases r with
  | error e =>
    cases r' with
    | error e' => exact .inl ⟨e, e', rfl, rfl⟩
    | ok b => cases h
  | ok b =>
    cases r' with
    | error e' => cases h
    | ok b' =>
      cases h
      exact .inr ⟨b, rfl, rfl⟩

theorem parseVerb_perm (cap : Nat) (verb : Verb) (hlines : ∀ line ∈ lines, IsHeaderLine line)
    (hperm : lines.Perm lines') (rest : Bytes) :
    (parseVerb cap (block lines ++ rest) verb).toOption =
      (parseVerb cap (block lines' ++ rest) verb).toOption := by
  have hmark : ∀ read, (parseMarkHeaders read (block lines ++ rest)).toOption =
      (parseMarkHeaders read (block lines' ++ rest)).toOption := by
    intro read
    rcases cases_of_toOption_eq (readHeaders_perm markOnce hlines hperm ⟨none, none, none⟩ rest) with
      ⟨e, e', h, h'⟩ | ⟨b, h, h'⟩
    · rw [parseMarkHeaders, parseMarkHeaders, h, h']
      rfl
    · rw [parseMarkHeaders, parseMarkHeaders, h, h']
  have hmailbox : ∀ create, (parseMailboxCrudHeaders create (block lines ++ rest)).toOption =
      (parseMailboxCrudHeaders create (block lines' ++ rest)).toOption := by
    intro create
    rcases cases_of_toOption_eq (readHeaders_perm (mailboxOnce create) hlines hperm
        ⟨none, none, false, false, none⟩ rest) with ⟨e, e', h, h'⟩ | ⟨b, h, h'⟩
    · rw [parseMailboxCrudHeaders, parseMailboxCrudHeaders, h, h']
      rfl
    · rw [parseMailboxCrudHeaders, parseMailboxCrudHeaders, h, h']
  have hsend : (parseSendHeadersAndBody cap (block lines ++ rest)).toOption =
      (parseSendHeadersAndBody cap (block lines' ++ rest)).toOption := by
    rcases cases_of_toOption_eq (readHeaders_perm (sendOnce cap) hlines hperm
        ⟨none, none, false, false⟩ rest) with ⟨e, e', h, h'⟩ | ⟨b, h, h'⟩
    · rw [parseSendHeadersAndBody, parseSendHeadersAndBody, h, h']
      rfl
    · rw [parseSendHeadersAndBody, parseSendHeadersAndBody, h, h']
  have hcreate : (parseHookCreateHeadersAndBody cap (block lines ++ rest)).toOption =
      (parseHookCreateHeadersAndBody cap (block lines' ++ rest)).toOption := by
    rcases cases_of_toOption_eq (readHeaders_perm (hookCreateOnce cap) hlines hperm
        ⟨none, none, none, none⟩ rest) with ⟨e, e', h, h'⟩ | ⟨b, h, h'⟩
    · rw [parseHookCreateHeadersAndBody, parseHookCreateHeadersAndBody, h, h']
      rfl
    · rw [parseHookCreateHeadersAndBody, parseHookCreateHeadersAndBody, h, h']
  have hdelete : (parseHookDeleteHeaders (block lines ++ rest)).toOption =
      (parseHookDeleteHeaders (block lines' ++ rest)).toOption := by
    rcases cases_of_toOption_eq (readHeaders_perm hookDeleteOnce hlines hperm ⟨none, none⟩ rest) with
      ⟨e, e', h, h'⟩ | ⟨b, h, h'⟩
    · rw [parseHookDeleteHeaders, parseHookDeleteHeaders, h, h']
      rfl
    · rw [parseHookDeleteHeaders, parseHookDeleteHeaders, h, h']
  cases verb <;> simp only [parseVerb, Except.toOption_map]
  case send => rw [hsend]
  case markRead => rw [hmark]
  case markUnread => rw [hmark]
  case mailboxCreate => rw [hmailbox]
  case mailboxDelete => rw [hmailbox]
  case hookCreate => rw [hcreate]
  case hookDelete => rw [hdelete]
  all_goals exact congrArg _ (parseNoHeaders_perm _ hlines hperm rest)

/-! ## The dispatcher -/

/-- The dispatcher on a frame: the verb of the request line, and its parser on what follows. -/
theorem parseRequestWithLimit_frame {requestLine : Bytes} (hlf : (0x0A : UInt8) ∉ requestLine) (cap : Nat)
    (lines : List Bytes) (rest : Bytes) :
    (parseRequestWithLimit cap (frame requestLine lines rest)).toOption =
      (verbOf requestLine).bind fun verb => (parseVerb cap (block lines ++ rest) verb).toOption := by
  have hread := readLine_append hlf (block lines ++ rest)
  unfold parseRequestWithLimit frame verbOf lineText
  cases hraw : rawText requestLine with
  | none =>
    cases hok : readLine (requestLine ++ 0x0A :: (block lines ++ rest)) with
    | ok _ => simp [hok, hraw, Except.toOption] at hread
    | error e => rfl
  | some text =>
    cases hok : readLine (requestLine ++ 0x0A :: (block lines ++ rest)) with
    | error _ => simp [hok, hraw, Except.toOption] at hread
    | ok result =>
      have hresult : result = some (text, block lines ++ rest) := by
        simpa [hok, hraw, Except.toOption] using hread
      subst hresult
      simp only [Option.map_some, Option.bind_some]
      cases stripPrefix "AIMX/1 ".toList (trimEndCr text) with
      | none => rfl
      | some token =>
        simp only [Option.bind_some]
        cases Verb.ofStr token with
        | none => rfl
        | some verb =>
          simp only [Option.bind_some]
          cases parseVerb cap (block lines ++ rest) verb <;> rfl

/-- An accepted request has the verb of its request line. -/
theorem exists_requestLine {cap : Nat} {input rest : Bytes} {req : Request}
    (h : parseRequestWithLimit cap input = .ok (req, rest)) :
    ∃ requestLine input' verb, input = requestLine ++ 0x0A :: input' ∧ (0x0A : UInt8) ∉ requestLine ∧
      parseVerb cap input' verb = .ok (req, rest) := by
  unfold parseRequestWithLimit at h
  split at h
  next => cases h
  next => cases h
  next text input' hread =>
    obtain ⟨line, hinput, hlf, -⟩ := exists_line_of_readLine hread
    dsimp only at h
    split at h
    next => cases h
    next token _ =>
      split at h
      next => cases h
      next verb _ =>
        split at h
        next => cases h
        next result hverb =>
          cases h
          exact ⟨line, input', verb, hinput, hlf, hverb⟩

theorem exists_of_map_eq_ok {ε α β : Type} {r : Except ε α} {f : α → β} {b : β} (h : r.map f = .ok b) :
    ∃ a, r = .ok a ∧ f a = b := by
  cases r with
  | error e => cases h
  | ok a =>
    cases h
    exact ⟨a, rfl, rfl⟩

/-! ## Repeated headers -/

theorem readHeaders_repeated {σ : Type} {onHeader : σ → Option HeaderName → Str → Except Malformed σ}
    {known : Option HeaderName → Prop} (once : OnceStep (stepOf onHeader) known) {k : Option HeaderName}
    (hk : known k) {a b : Bytes} {v v' : Str} (ha : headerOf a = some (k, v)) (hb : headerOf b = some (k, v'))
    (l₁ l₂ l₃ : List Bytes) (hlines : ∀ line ∈ l₁ ++ a :: (l₂ ++ b :: l₃), IsHeaderLine line) (st : σ)
    (rest : Bytes) :
    ∃ e, readHeaders onHeader st (block (l₁ ++ a :: (l₂ ++ b :: l₃)) ++ rest) = .error e := by
  have hnone := @readHeaders_block σ onHeader _ hlines st rest
  rw [foldlM_repeated once hk ha hb] at hnone
  cases hread : readHeaders onHeader st (block (l₁ ++ a :: (l₂ ++ b :: l₃)) ++ rest) with
  | error e => exact ⟨e, rfl⟩
  | ok result => rw [hread] at hnone; cases hnone

theorem parseVerb_repeated (cap : Nat) {verb : Verb} {h : HeaderName} (hk : h ∈ verb.headers) {a b : Bytes}
    {v v' : Str} (ha : headerOf a = some (some h, v)) (hb : headerOf b = some (some h, v'))
    (l₁ l₂ l₃ : List Bytes) (hlines : ∀ line ∈ l₁ ++ a :: (l₂ ++ b :: l₃), IsHeaderLine line) (rest : Bytes) :
    (parseVerb cap (block (l₁ ++ a :: (l₂ ++ b :: l₃)) ++ rest) verb).toOption = none := by
  have hknown : verb.Knows (some h) := ⟨h, hk, rfl⟩
  have hmark : Verb.markRead.Knows (some h) → ∀ read,
      (parseMarkHeaders read (block (l₁ ++ a :: (l₂ ++ b :: l₃)) ++ rest)).toOption = none := by
    intro hknown read
    obtain ⟨e, he⟩ := readHeaders_repeated markOnce hknown ha hb l₁ l₂ l₃ hlines ⟨none, none, none⟩ rest
    rw [parseMarkHeaders, he]
    rfl
  have hmailbox : Verb.mailboxDelete.Knows (some h) → ∀ create,
      (parseMailboxCrudHeaders create (block (l₁ ++ a :: (l₂ ++ b :: l₃)) ++ rest)).toOption = none := by
    intro hknown create
    obtain ⟨e, he⟩ := readHeaders_repeated (mailboxOnce create) hknown ha hb l₁ l₂ l₃ hlines
      ⟨none, none, false, false, none⟩ rest
    rw [parseMailboxCrudHeaders, he]
    rfl
  cases verb <;> simp only [parseVerb, Except.toOption_map, Option.map_eq_none_iff]
  case send =>
    obtain ⟨e, he⟩ := readHeaders_repeated (sendOnce cap) hknown ha hb l₁ l₂ l₃ hlines
      ⟨none, none, false, false⟩ rest
    rw [parseSendHeadersAndBody, he]
    rfl
  case markRead => exact hmark hknown true
  case markUnread => exact hmark hknown false
  case mailboxCreate => exact hmailbox hknown true
  case mailboxDelete => exact hmailbox hknown false
  case hookCreate =>
    obtain ⟨e, he⟩ := readHeaders_repeated (hookCreateOnce cap) hknown ha hb l₁ l₂ l₃ hlines
      ⟨none, none, none, none⟩ rest
    rw [parseHookCreateHeadersAndBody, he]
    rfl
  case hookDelete =>
    obtain ⟨e, he⟩ := readHeaders_repeated hookDeleteOnce hknown ha hb l₁ l₂ l₃ hlines ⟨none, none⟩ rest
    rw [parseHookDeleteHeaders, he]
    rfl
  all_goals exact absurd hk List.not_mem_nil

/-! ## Declared lengths -/

/-- A length that a run has taken is declared by one of its lines and within the cap. -/
theorem declares_of_foldlM {σ : Type} {onHeader : σ → Option HeaderName → Str → Except Malformed σ}
    {known : Option HeaderName → Prop} (once : OnceStep (stepOf onHeader) known) (slot : σ → Option Nat)
    {header : HeaderName} {cap : Nat}
    (hself : ∀ st v, slot (once.put st (some header) v) = parseUsize v)
    (hother : ∀ st k v, k ≠ some header → slot (once.put st k v) = slot st)
    (haccept : ∀ v, once.accepts (some header) v = true → lengthOk (withinCap header cap) v = true)
    {st st' : σ} {n : Nat} (hrun : lines.foldlM (decoded headerOf (stepOf onHeader)) st = some st')
    (hstart : slot st = none) (hn : slot st' = some n) : Declares lines header n ∧ n ≤ cap := by
  -- either the slot was filled before the run, or one of its lines fills it
  suffices hgeneral : slot st = some n ∨ Declares lines header n ∧ n ≤ cap by
    rcases hgeneral with h | h
    · rw [hstart] at h
      cases h
    · exact h
  clear hstart
  induction lines generalizing st with
  | nil =>
    cases hrun
    exact .inl hn
  | cons line lines ih =>
    rw [List.foldlM_cons] at hrun
    obtain ⟨next, hnext, hrest⟩ := Option.bind_eq_some_iff.mp hrun
    rcases ih hrest with hslot | ⟨⟨line', hmem, hline'⟩, hle⟩
    swap
    · exact .inr ⟨⟨line', List.mem_cons_of_mem _ hmem, hline'⟩, hle⟩
    obtain ⟨⟨k, v⟩, hheader, hstep⟩ := Option.bind_eq_some_iff.mp hnext
    dsimp only at hstep
    classical
    by_cases hk : known k
    swap
    · rw [once.step_unknown hk] at hstep
      cases hstep
      exact .inl hslot
    rw [once.step_known hk] at hstep
    split at hstep
    next hok =>
      cases hstep
      by_cases hkh : k = some header
      · subst hkh
        rw [hself] at hslot
        refine .inr ⟨⟨line, List.mem_cons_self, v, hheader, hslot⟩, ?_⟩
        have hlen := haccept v hok.2
        rw [lengthOk, hslot] at hlen
        by_contra hlt
        simp [withinCap, Nat.lt_of_not_le hlt, Except.toOption] at hlen
      · rw [hother st k v hkh] at hslot
        exact .inl hslot
    next => cases hstep

theorem readExact_eq_some {n : Nat} {input body rest : Bytes} (h : readExact n input = some (body, rest)) :
    input = body ++ rest ∧ body.length = n := by
  unfold readExact at h
  split at h
  next hle =>
    cases h
    exact ⟨(List.take_append_drop n input).symm, by rw [List.length_take]; omega⟩
  next => cases h

/-- An accepted SEND: one of the two shapes, and bodies of the declared lengths behind the blank line. -/
theorem parseSendHeadersAndBody_ok {cap : Nat} {input rest : Bytes} {req : SendRequest}
    (h : parseSendHeadersAndBody cap input = .ok (req, rest)) :
    ¬ (req.textOnly = true ∧ req.htmlBody.isSome = true) ∧
    ∃ lines blank, (∀ line ∈ lines, IsHeaderLine line) ∧ IsBlankLine blank ∧
      input = block lines ++ (blank ++ 0x0A :: (req.body ++ (req.htmlBody.getD [] ++ rest))) ∧
      (Declares lines .contentLength req.body.length ∧ req.body.length ≤ cap) ∧
      ∀ html ∈ req.htmlBody, Declares lines .htmlBodyLength html.length ∧ html.length ≤ cap := by
  unfold parseSendHeadersAndBody at h
  split at h
  next => cases h
  next st body hloop =>
    obtain ⟨lines, blank, rfl, hlines, hblank, hrun⟩ := exists_lines_of_readHeaders hloop
    have hcontent : ∀ n, st.contentLength = some n → Declares lines .contentLength n ∧ n ≤ cap := by
      intro n hn
      refine declares_of_foldlM (sendOnce cap) SendHeaders.contentLength (fun _ _ => rfl) ?_ ?_ hrun rfl hn
      swap
      · exact fun _ hv => hv
      · rintro st (_ | k) v hne
        · rfl
        · cases k <;> first | rfl | exact absurd rfl hne
    have hhtml : ∀ n, st.htmlBodyLength = some n → Declares lines .htmlBodyLength n ∧ n ≤ cap := by
      intro n hn
      refine declares_of_foldlM (sendOnce cap) SendHeaders.htmlBodyLength (fun _ _ => rfl) ?_ ?_ hrun rfl hn
      swap
      · exact fun _ hv => hv
      · rintro st (_ | k) v hne
        · rfl
        · cases k <;> first | rfl | exact absurd rfl hne
    split at h
    next => cases h
    next n hn =>
      split at h
      next => cases h
      next hexclusive =>
        split at h
        next => cases h
        next main after hmain =>
          obtain ⟨rfl, rfl⟩ := readExact_eq_some hmain
          split at h
          next hnone =>
            cases h
            exact ⟨by simp, lines, blank, hlines, hblank, rfl, hcontent _ hn, by simp⟩
          next m hm =>
            split at h
            next => cases h
            next html after' hread =>
              cases h
              obtain ⟨rfl, rfl⟩ := readExact_eq_some hread
              refine ⟨fun hboth => ?_, lines, blank, hlines, hblank, rfl, hcontent _ hn, ?_⟩
              · have htext : st.textOnly = true := hboth.1
                simp [htext, hm] at hexclusive
              · rintro _ ⟨⟩
                exact hhtml _ hm

theorem parseHookCreateHeadersAndBody_ok {cap : Nat} {input rest : Bytes} {req : HookCreateRequest}
    (h : parseHookCreateHeadersAndBody cap input = .ok (req, rest)) :
    ∃ lines blank, (∀ line ∈ lines, IsHeaderLine line) ∧ IsBlankLine blank ∧
      input = block lines ++ (blank ++ 0x0A :: (req.body ++ rest)) ∧
      Declares lines .contentLength req.body.length ∧ req.body.length ≤ cap := by
  unfold parseHookCreateHeadersAndBody at h
  split at h
  next => cases h
  next st body hloop =>
    obtain ⟨lines, blank, rfl, hlines, hblank, hrun⟩ := exists_lines_of_readHeaders hloop
    have hcontent : ∀ n, st.contentLength = some n → Declares lines .contentLength n ∧ n ≤ cap := by
      intro n hn
      refine declares_of_foldlM (hookCreateOnce cap) HookCreateHeaders.contentLength
        (fun _ _ => rfl) ?_ ?_ hrun rfl hn
      swap
      · exact fun _ hv => hv
      · rintro st (_ | k) v hne
        · rfl
        · cases k <;> first | rfl | exact absurd rfl hne
    split at h
    next => cases h
    next => cases h
    next => cases h
    next mailbox event n _ _ hn =>
      split at h
      next => cases h
      next main after hmain =>
        cases h
        obtain ⟨rfl, rfl⟩ := readExact_eq_some hmain
        exact ⟨lines, blank, hlines, hblank, rfl, hcontent _ hn⟩

end Order

/-- Frames are accepted in every order of their header lines, with the same request; a repeated known
header is refused; an accepted SEND asks for one shape; and bodies have the declared lengths, within the
cap. -/
theorem parseRequestWithLimit_order (cap : Nat) :
    (∀ requestLine lines lines' rest, 0x0A ∉ requestLine → (∀ line ∈ lines, IsHeaderLine line) →
      lines.Perm lines' → (parseRequestWithLimit cap (frame requestLine lines rest)).toOption =
        (parseRequestWithLimit cap (frame requestLine lines' rest)).toOption) ∧
    (∀ requestLine l₁ l₂ l₃ a b rest verb h v v', 0x0A ∉ requestLine →
      (∀ line ∈ l₁ ++ a :: (l₂ ++ b :: l₃), IsHeaderLine line) → verbOf requestLine = some verb →
      h ∈ verb.headers → headerOf a = some (some h, v) → headerOf b = some (some h, v') →
      (parseRequestWithLimit cap (frame requestLine (l₁ ++ a :: (l₂ ++ b :: l₃)) rest)).toOption = none) ∧
    (∀ input req rest, parseRequestWithLimit cap input = .ok (.send req, rest) →
      ¬ (req.textOnly = true ∧ req.htmlBody.isSome = true) ∧
      ∃ requestLine lines blank, 0x0A ∉ requestLine ∧ (∀ line ∈ lines, IsHeaderLine line) ∧
        IsBlankLine blank ∧
        input = frame requestLine lines (blank ++ 0x0A :: (req.body ++ (req.htmlBody.getD [] ++ rest))) ∧
        (Declares lines .contentLength req.body.length ∧ req.body.length ≤ cap) ∧
        ∀ html ∈ req.htmlBody, Declares lines .htmlBodyLength html.length ∧ html.length ≤ cap) ∧
    ∀ input req rest, parseRequestWithLimit cap input = .ok (.hookCreate req, rest) →
      ∃ requestLine lines blank, 0x0A ∉ requestLine ∧ (∀ line ∈ lines, IsHeaderLine line) ∧
        IsBlankLine blank ∧ input = frame requestLine lines (blank ++ 0x0A :: (req.body ++ rest)) ∧
        Declares lines .contentLength req.body.length ∧ req.body.length ≤ cap := by
  refine ⟨?_, ?_, ?_, ?_⟩
  · intro requestLine lines lines' rest hlf hlines hperm
    rw [parseRequestWithLimit_frame hlf, parseRequestWithLimit_frame hlf]
    exact congrArg _ (funext fun verb => parseVerb_perm cap verb hlines hperm rest)
  · intro requestLine l₁ l₂ l₃ a b rest verb h v v' hlf hlines hverb hknown ha hb
    rw [parseRequestWithLimit_frame hlf, hverb, Option.bind_some]
    exact parseVerb_repeated cap hknown ha hb l₁ l₂ l₃ hlines rest
  · intro input req rest h
    obtain ⟨requestLine, input', verb, rfl, hlf, hverb⟩ := exists_requestLine h
    have hsend : parseSendHeadersAndBody cap input' = .ok (req, rest) := by
      cases verb
      case send =>
        obtain ⟨p, hp, heq⟩ := exists_of_map_eq_ok hverb
        cases heq
        exact hp
      all_goals
        obtain ⟨p, -, heq⟩ := exists_of_map_eq_ok hverb
        cases heq
    obtain ⟨hshape, lines, blank, hlines, hblank, rfl, hlengths⟩ := parseSendHeadersAndBody_ok hsend
    exact ⟨hshape, requestLine, lines, blank, hlf, hlines, hblank, rfl, hlengths⟩
  · intro input req rest h
    obtain ⟨requestLine, input', verb, rfl, hlf, hverb⟩ := exists_requestLine h
    have hcreate : parseHookCreateHeadersAndBody cap input' = .ok (req, rest) := by
      cases verb
      case hookCreate =>
        obtain ⟨p, hp, heq⟩ := exists_of_map_eq_ok hverb
        cases heq
        exact hp
      all_goals
        obtain ⟨p, -, heq⟩ := exists_of_map_eq_ok hverb
        cases heq
    obtain ⟨lines, blank, hlines, hblank, rfl, hlength⟩ := parseHookCreateHeadersAndBody_ok hcreate
    exact ⟨requestLine, lines, blank, hlf, hlines, hblank, rfl, hlength⟩

/-- The header lines of a SEND and of a HOOK-CREATE. -/
def noteLines : List Bytes := ["Content-Length: 2".toList, "Text-Only: true".toList].map utf8
def hookLines : List Bytes :=
  ["Mailbox: bob".toList, "Event: on_receive".toList, "Content-Length: 2".toList].map utf8

/-- The two lines of a SEND in both orders, one of them twice, and the body of a SEND and of a HOOK-CREATE. -/
theorem parseRequestWithLimit_note :
    (parseRequestWithLimit 10 (frame (utf8 "AIMX/1 SEND".toList) noteLines (utf8 "\nHi".toList))).toOption =
        (parseRequestWithLimit 10
          (frame (utf8 "AIMX/1 SEND".toList) noteLines.reverse (utf8 "\nHi".toList))).toOption ∧
      (parseRequestWithLimit 10 (frame (utf8 "AIMX/1 SEND".toList)
        ([] ++ utf8 "Text-Only: true".toList :: (noteLines.take 1 ++ utf8 "Text-Only: true".toList :: []))
        (utf8 "\nHi".toList))).toOption = none ∧
      (∃ req rest, parseRequestWithLimit 10
          (frame (utf8 "AIMX/1 SEND".toList) noteLines (utf8 "\nHi".toList)) = .ok (.send req, rest) ∧
        req.body.length ≤ 10 ∧ ∃ lines, Declares lines .contentLength req.body.length) ∧
      ∃ req rest, parseRequestWithLimit 10
          (frame (utf8 "AIMX/1 HOOK-CREATE".toList) hookLines (utf8 "\n{}".toList)) =
            .ok (.hookCreate req, rest) ∧
        req.body.length ≤ 10 ∧ ∃ lines, Declares lines .contentLength req.body.length := by
  obtain ⟨horder, hrepeated, hsend, hcreate⟩ := parseRequestWithLimit_order 10
  have hline : ∀ line ∈
      utf8 "Text-Only: true".toList :: (noteLines.take 1 ++ [utf8 "Text-Only: true".toList]),
      0x0A ∉ line ∧ ∃ b ∈ line, b ≠ 0x0D := by decide +kernel
  have hnote : ∀ line ∈ noteLines, 0x0A ∉ line ∧ ∃ b ∈ line, b ≠ 0x0D := by decide +kernel
  have hflag : headerOf (utf8 "Text-Only: true".toList) = some (some .textOnly, "true".toList) := by
    decide +kernel
  refine ⟨horder _ _ _ _ (by decide +kernel) hnote (List.reverse_perm _).symm, ?_, ?_, ?_⟩
  · exact hrepeated _ _ _ _ _ _ _ .send .textOnly "true".toList "true".toList (by decide +kernel) hline
      (by decide +kernel) (by decide) hflag hflag
  · have hparse : parseRequestWithLimit 10
        (frame (utf8 "AIMX/1 SEND".toList) noteLines (utf8 "\nHi".toList)) =
          .ok (.send ⟨utf8 "Hi".toList, true, none⟩, []) := by decide +kernel
    obtain ⟨-, -, lines, -, -, -, -, -, ⟨hdeclares, hcap⟩, -⟩ := hsend _ _ _ hparse
    exact ⟨_, _, hparse, hcap, lines, hdeclares⟩
  · have hparse : parseRequestWithLimit 10
        (frame (utf8 "AIMX/1 HOOK-CREATE".toList) hookLines (utf8 "\n{}".toList)) =
          .ok (.hookCreate ⟨"bob".toList, "on_receive".toList, none, utf8 "{}".toList⟩, []) := by
      decide +kernel
    obtain ⟨-, lines, -, -, -, -, -, hdeclares, hcap⟩ := hcreate _ _ _ hparse
    exact ⟨_, _, hparse, hcap, lines, hdeclares⟩

end Protocol
end Aimx
