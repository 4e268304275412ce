import Aimx.Smtp.Session
import Aimx.Text.Search

/-!
# Message content is never executed

After the 354 reply the client sends message content, which ends at the first `<CRLF>.<CRLF>`; the 354
line itself ends in CRLF, so a dot line may come first.  `afterDotLine` is what stands behind that
terminator, computed from the bytes alone.

* `Delimited` — the streams on which `receive_data` stops where the content does: no timer fires
  before the terminator, every line up to it ends in CRLF unless the message is already oversize, and
  no earlier line trims to a single dot;
* `receiveData_exact` — on every other stream the reply of `receive_data` leaves the reader elsewhere;
* `NoSmuggling` — the property of a whole session;
* `runSession_noSmuggling` — it holds of every session in which each 354 meets a `Delimited` stream.
-/

namespace Aimx
namespace Smtp

open Text

/-- `<CRLF>.<CRLF>`. -/
def dotTerminator : Bytes := [cr, lf, 0x2E, cr, lf]

/-- The line that ends the content, as it arrives. -/
def dotLine : Bytes := [0x2E, cr, lf]

/-- What follows the first terminator, nothing if there is none; with `fresh`, the content starts
right behind a CRLF. -/
def afterDotLineFrom (fresh : Bool) (content : Bytes) : Bytes :=
  match ((if fresh then [cr, lf] else []) ++ content).dropInfix? dotTerminator with
  | some (_, rest) => rest
  | none => []

/-- What follows the terminator of the content sent after a 354 reply. -/
def afterDotLine (content : Bytes) : Bytes := afterDotLineFrom true content

/-! ## The terminator, line by line -/

theorem afterDotLineFrom_dotLine (rest : Bytes) : afterDotLineFrom true (dotLine ++ rest) = rest := by
  have h := dropInfix?_self_append dotTerminator rest
  simp only [afterDotLineFrom, if_true]
  change (match (dotTerminator ++ rest).dropInfix? dotTerminator with
    | some (_, rest) => rest
    | none => []) = rest
  rw [h]

/-- The search for the terminator moves on where it is not at the front. -/
theorem afterDotLineFrom_false_cons {b : UInt8} {content : Bytes}
    (h : ¬ dotTerminator <+: b :: content) :
    afterDotLineFrom false (b :: content) = afterDotLineFrom false content := by
  simp only [afterDotLineFrom, Bool.false_eq_true, if_false, List.nil_append]
  rw [dropInfix?_cons h]
  cases content.dropInfix? dotTerminator <;> rfl

/-- A line that begins behind anything but a CRLF is content; the next one begins behind a CRLF
exactly if this one ends in CRLF. -/
theorem afterDotLineFrom_false_line {body : Bytes} (hbody : lf ∉ body) (rest : Bytes) :
    afterDotLineFrom false (body ++ [lf] ++ rest) =
      afterDotLineFrom ([cr, lf].isSuffixOf (body ++ [lf])) rest := by
  induction body with
  | nil =>
      have hskip : ¬ dotTerminator <+: lf :: rest := by
        rintro ⟨t, ht⟩
        simp [dotTerminator, cr, lf] at ht
      exact afterDotLineFrom_false_cons hskip
  | cons b body ih =>
      rw [List.mem_cons, not_or] at hbody
      obtain ⟨hb, hbody⟩ := hbody
      cases body with
      | nil =>
          by_cases hcr : b = cr
          · subst hcr
            rfl
          · have hskip : ¬ dotTerminator <+: b :: lf :: rest := by
              rintro ⟨t, ht⟩
              simp only [dotTerminator, List.cons_append, List.cons.injEq] at ht
              exact hcr ht.1.symm
            have hne : cr ≠ b := fun h => hcr h.symm
            have hend : [cr, lf].isSuffixOf ([b] ++ [lf]) = false := by
              simp [List.isSuffixOf, List.isPrefixOf, hne]
            rw [hend]
            have hnil := ih (by simp)
            simp only [List.nil_append] at hnil
            exact (afterDotLineFrom_false_cons hskip).trans hnil
      | cons c body =>
          have hc : c ≠ lf := fun h => hbody (by simp [h])
          have hskip : ¬ dotTerminator <+: b :: (c :: body ++ [lf] ++ rest) := by
            rintro ⟨t, ht⟩
            simp only [dotTerminator, List.cons_append, List.cons.injEq] at ht
            exact hc ht.2.1.symm
          have hend : [cr, lf].isSuffixOf (b :: (c :: body) ++ [lf]) =
              [cr, lf].isSuffixOf (c :: body ++ [lf]) := by
            rw [Bool.eq_iff_iff, List.isSuffixOf_iff_suffix, List.isSuffixOf_iff_suffix,
              List.cons_append, List.suffix_cons_iff]
            constructor
            · rintro (h | h)
              · have hlen := congrArg List.length h
                simp at hlen
              · exact h
            · exact Or.inr
          rw [hend, ← ih hbody]
          exact afterDotLineFrom_false_cons hskip

/-- A line other than the dot line behind a CRLF is content. -/
theorem afterDotLineFrom_line (fresh : Bool) {body : Bytes} (hbody : lf ∉ body) (rest : Bytes)
    (hdot : fresh = true → body ++ [lf] ≠ dotLine) :
    afterDotLineFrom fresh (body ++ [lf] ++ rest) =
      afterDotLineFrom ([cr, lf].isSuffixOf (body ++ [lf])) rest := by
  cases fresh with
  | false => exact afterDotLineFrom_false_line hbody rest
  | true =>
      rw [← afterDotLineFrom_false_line hbody rest]
      have hskip : ¬ dotTerminator <+: cr :: lf :: (body ++ [lf] ++ rest) := by
        rintro ⟨t, ht⟩
        simp only [dotTerminator, List.cons_append, List.cons.injEq, List.nil_append,
          true_and] at ht
        -- the line before the first line feed of both sides is the same
        have hcut : splitOnce lf (body ++ lf :: rest) = some (body, rest) :=
          splitOnce_eq_some_iff.mpr ⟨rfl, hbody⟩
        have hcut' : splitOnce lf ([0x2E, cr] ++ lf :: t) = some ([0x2E, cr], t) :=
          splitOnce_eq_some_iff.mpr ⟨rfl, by decide⟩
        have hsame : body ++ lf :: rest = [0x2E, cr] ++ lf :: t := by
          simpa using ht.symm
        rw [hsame, hcut', Option.some.injEq, Prod.mk.injEq] at hcut
        exact hdot rfl (by rw [← hcut.1]; rfl)
      have hskip' : ¬ dotTerminator <+: lf :: (body ++ [lf] ++ rest) := by
        rintro ⟨t, ht⟩
        simp [dotTerminator, cr, lf] at ht
      calc afterDotLineFrom true (body ++ [lf] ++ rest)
          = afterDotLineFrom false (cr :: lf :: (body ++ [lf] ++ rest)) := rfl
        _ = afterDotLineFrom false (lf :: (body ++ [lf] ++ rest)) :=
            afterDotLineFrom_false_cons hskip
        _ = afterDotLineFrom false (body ++ [lf] ++ rest) := afterDotLineFrom_false_cons hskip'

/-- A terminator that is completed behind `pre` leaves less than all of the rest. -/
theorem dotTerminator_length_lt {front pre rest p q : Bytes} (hfront : front.length ≤ 2)
    (hpre : lf ∉ pre) (h : front ++ (pre ++ rest) = p ++ dotTerminator ++ q) :
    q.length < rest.length := by
  have hsplit : (front ++ pre) ++ rest = (p ++ [cr, lf, 0x2E, cr]) ++ lf :: q := by
    simpa [dotTerminator] using h
  rcases List.append_eq_append_iff.mp hsplit with ⟨a, -, hrest⟩ | ⟨c, hfrontpre, hrest⟩
  · rw [hrest]
    simp only [List.length_append, List.length_cons]
    omega
  · cases c with
    | nil =>
        rw [List.nil_append] at hrest
        rw [← hrest]
        simp
    | cons x c =>
        rw [List.cons_append, List.cons.injEq] at hrest
        obtain ⟨rfl, -⟩ := hrest
        rcases List.append_eq_append_iff.mp hfrontpre with ⟨a, -, hpre'⟩ | ⟨a, hfront', -⟩
        · exact absurd (by simp [hpre']) hpre
        · have hlen := congrArg List.length hfront'
          simp only [List.length_append, List.length_cons, List.length_nil] at hlen
          omega

/-- Where `pre` has no line feed, what follows the terminator is a proper end of the rest. -/
theorem eq_afterDotLineFrom_iff (fresh : Bool) {pre : Bytes} (hpre : lf ∉ pre) (rest : Bytes) :
    rest = afterDotLineFrom fresh (pre ++ rest) ↔ rest = [] := by
  unfold afterDotLineFrom
  cases hfound : ((if fresh then [cr, lf] else []) ++ (pre ++ rest)).dropInfix? dotTerminator with
  | none => exact Iff.rfl
  | some r =>
      obtain ⟨p, q⟩ := r
      obtain ⟨hsplit, -⟩ := dropInfix?_eq_some_iff'.mp hfound
      have hlt : q.length < rest.length :=
        dotTerminator_length_lt (by cases fresh <;> simp) hpre hsplit
      constructor
      · intro heq
        change rest = q at heq
        rw [heq] at hlt
        exact absurd hlt (lt_irrefl _)
      · rintro rfl
        exact absurd hlt (Nat.not_lt_zero _)

/-- Content without a line feed holds no terminator. -/
theorem afterDotLineFrom_of_not_mem {fresh : Bool} {content : Bytes} (h : lf ∉ content) :
    afterDotLineFrom fresh content = [] := by
  have hnil := (eq_afterDotLineFrom_iff fresh h []).mpr rfl
  rw [List.append_nil] at hnil
  exact hnil.symm

/-! ## Content that the session reads to its end -/

/-- Where `receive_data` is: it collects the message, or drains what is already oversize. -/
inductive Phase
  | collecting (received : Nat)
  | draining

/-- The phase after one content line. -/
def Phase.next (maxMessageSize : Nat) (pieces : List Bytes) : Phase → Phase
  | .draining => .draining
  | .collecting received =>
      let received := received + (unstuff (decodePieces pieces)).length
      if overlong (maxMessageSize + 1024) 0 pieces then .draining
      else if received > maxMessageSize then .draining
      else .collecting received

/-- The streams on which `receive_data` stops where the content does.  Up to the dot line behind a
CRLF no timer fires, no line that fits trims to a single dot, and every line that is still collected
ends in CRLF; or the connection delivers nothing more. -/
inductive Delimited (maxMessageSize : Nat) : Phase → Bool → Stream → Prop
  /-- The dot line. -/
  | dot {phase : Phase} {s : Stream} {pieces : List Bytes} {rest : Reader}
      (hcut : s.cutLine = .line pieces rest) (hdot : pieces.flatten = dotLine) :
      Delimited maxMessageSize phase true s
  /-- A content line. -/
  | line {phase : Phase} {fresh : Bool} {s : Stream} {pieces : List Bytes} {rest : Reader}
      (hcut : s.cutLine = .line pieces rest)
      (hdot : overlong (maxMessageSize + 1024) 0 pieces = true ∨
        trimEnd (decodePieces pieces) ≠ ['.'])
      (hcrlf : phase = .draining ∨ overlong (maxMessageSize + 1024) 0 pieces = true ∨
        ['\r', '\n'].isSuffixOf (decodePieces pieces) = true)
      (hrest : Delimited maxMessageSize (phase.next maxMessageSize pieces)
        ([cr, lf].isSuffixOf pieces.flatten) rest.toStream) :
      Delimited maxMessageSize phase fresh s
  /-- The connection closes. -/
  | closed {phase : Phase} {fresh : Bool} {s : Stream} (hcut : s.cutLine = .closed) :
      Delimited maxMessageSize phase fresh s
  /-- The deadline of the connection ends the session during a drain. -/
  | deadline {fresh : Bool} {s rest : Stream} (hcut : s.cutLine = .interrupted .total rest) :
      Delimited maxMessageSize .draining fresh s
  /-- Nothing is delivered behind the line. -/
  | lastLine {phase : Phase} {fresh : Bool} {s : Stream} {pieces : List Bytes} {rest : Reader}
      (hcut : s.cutLine = .line pieces rest) (hempty : rest.bytes = []) :
      Delimited maxMessageSize phase fresh s
  /-- Nothing is delivered after the timer. -/
  | lastTimer {phase : Phase} {fresh : Bool} {s rest : Stream} {t : Timer}
      (hcut : s.cutLine = .interrupted t rest) (hempty : rest.bytes = []) :
      Delimited maxMessageSize phase fresh s

section Delimited

variable {maxMessageSize : Nat} {phase : Phase} {fresh : Bool}

/-- What a `Delimited` stream may start with, when it starts with a line. -/
theorem delimited_line_iff {s : Stream} {pieces : List Bytes} {rest : Reader}
    (h : s.cutLine = .line pieces rest) :
    Delimited maxMessageSize phase fresh s ↔
      (fresh = true ∧ pieces.flatten = dotLine) ∨ rest.bytes = [] ∨
      ((overlong (maxMessageSize + 1024) 0 pieces = true ∨ trimEnd (decodePieces pieces) ≠ ['.']) ∧
        (phase = .draining ∨ overlong (maxMessageSize + 1024) 0 pieces = true ∨
          ['\r', '\n'].isSuffixOf (decodePieces pieces) = true) ∧
        Delimited maxMessageSize (phase.next maxMessageSize pieces)
          ([cr, lf].isSuffixOf pieces.flatten) rest.toStream) := by
  constructor
  · intro hdelimited
    cases hdelimited with
    | dot hcut hdot =>
        rw [h, LineCut.line.injEq] at hcut
        exact Or.inl ⟨rfl, hcut.1 ▸ hdot⟩
    | line hcut hdot hcrlf hrest =>
        rw [h, LineCut.line.injEq] at hcut
        obtain ⟨rfl, rfl⟩ := hcut
        exact Or.inr (Or.inr ⟨hdot, hcrlf, hrest⟩)
    | closed hcut => rw [h] at hcut; cases hcut
    | deadline hcut => rw [h] at hcut; cases hcut
    | lastLine hcut hempty =>
        rw [h, LineCut.line.injEq] at hcut
        exact Or.inr (Or.inl (hcut.2 ▸ hempty))
    | lastTimer hcut hempty => rw [h] at hcut; cases hcut
  · rintro (⟨rfl, hdot⟩ | hempty | ⟨hdot, hcrlf, hrest⟩)
    · exact .dot h hdot
    · exact .lastLine h hempty
    · exact .line h hdot hcrlf hrest

/-- What a `Delimited` stream may start with, when a timer interrupts its first line. -/
theorem delimited_interrupted_iff {s rest : Stream} {t : Timer}
    (h : s.cutLine = .interrupted t rest) :
    Delimited maxMessageSize phase fresh s ↔
      (phase = .draining ∧ t = .total) ∨ rest.bytes = [] := by
  constructor
  · intro hdelimited
    cases hdelimited with
    | dot hcut hdot => rw [h] at hcut; cases hcut
    | line hcut hdot hcrlf hrest => rw [h] at hcut; cases hcut
    | closed hcut => rw [h] at hcut; cases hcut
    | deadline hcut =>
        rw [h, LineCut.interrupted.injEq] at hcut
        exact Or.inl ⟨rfl, hcut.1⟩
    | lastLine hcut hempty => rw [h] at hcut; cases hcut
    | lastTimer hcut hempty =>
        rw [h, LineCut.interrupted.injEq] at hcut
        exact Or.inr (hcut.2 ▸ hempty)
  · rintro (⟨rfl, rfl⟩ | hempty)
    · exact .deadline h
    · exact .lastTimer h hempty

/-- A stream that delivers nothing more is `Delimited`. -/
theorem delimited_of_bytes_eq_nil {s : Stream} (h : s.bytes = []) :
    Delimited maxMessageSize phase fresh s := by
  cases hcut : s.cutLine with
  | closed => exact .closed hcut
  | line pieces rest =>
      obtain ⟨hbytes, ⟨body, hbody, -⟩, -⟩ := Stream.cutLine_line hcut
      rw [h, hbody] at hbytes
      simp at hbytes
  | interrupted t rest =>
      obtain ⟨⟨pre, -, hbytes⟩, -⟩ := Stream.cutLine_interrupted hcut
      rw [h] at hbytes
      exact .lastTimer hcut (List.append_eq_nil_iff.mp hbytes.symm).2

/-- A reader that stops behind one line stops where the content does exactly when that line is the
terminator, or nothing follows. -/
theorem stops_iff {r rest : Reader} {pieces : List Bytes}
    (h : r.toStream.cutLine = .line pieces rest) :
    rest.bytes = afterDotLineFrom fresh r.bytes ↔
      (fresh = true ∧ pieces.flatten = dotLine) ∨ rest.bytes = [] := by
  obtain ⟨hbytes, ⟨body, hbody, hmem⟩, -⟩ := Stream.cutLine_line h
  rw [Reader.toStream_bytes] at hbytes
  rw [hbytes]
  by_cases hdot : fresh = true ∧ pieces.flatten = dotLine
  · obtain ⟨rfl, hdot⟩ := hdot
    rw [hdot, afterDotLineFrom_dotLine]
    simp
  · have hline := afterDotLineFrom_line fresh hmem rest.bytes
      fun hfresh heq => hdot ⟨hfresh, hbody.trans heq⟩
    rw [hbody, hline]
    have hiff := eq_afterDotLineFrom_iff ([cr, lf].isSuffixOf (body ++ [lf]))
      (List.not_mem_nil (a := lf)) rest.bytes
    rw [List.nil_append] at hiff
    rw [hiff, ← hbody]
    simp [hdot]

/-- A line that is not the terminator does not change what follows the terminator. -/
theorem goes_on (fresh : Bool) {r rest : Reader} {pieces : List Bytes}
    (h : r.toStream.cutLine = .line pieces rest)
    (hdot : ¬ (fresh = true ∧ pieces.flatten = dotLine)) :
    afterDotLineFrom fresh r.bytes =
      afterDotLineFrom ([cr, lf].isSuffixOf pieces.flatten) rest.bytes := by
  obtain ⟨hbytes, ⟨body, hbody, hmem⟩, -⟩ := Stream.cutLine_line h
  rw [Reader.toStream_bytes] at hbytes
  rw [hbytes, hbody]
  exact afterDotLineFrom_line fresh hmem rest.bytes fun hfresh heq => hdot ⟨hfresh, hbody.trans heq⟩

/-- The dot line fits every limit and trims to a dot. -/
theorem dotLine_text (maxMessageSize : Nat) {pieces : List Bytes} (h : pieces.flatten = dotLine) :
    overlong (maxMessageSize + 1024) 0 pieces = false ∧ trimEnd (decodePieces pieces) = ['.'] ∧
      ['\r', '\n'].isSuffixOf (decodePieces pieces) = true := by
  have hascii : ∀ b ∈ pieces.flatten, b < 0x80 := by
    intro b hb
    rw [h] at hb
    simp only [dotLine, List.mem_cons, List.not_mem_nil, or_false] at hb
    rcases hb with rfl | rfl | rfl <;> decide
  refine ⟨overlong_ascii hascii ?_, ?_, ?_⟩
  · rw [h]
    simp only [dotLine, List.length_cons, List.length_nil]
    omega
  · rw [decodePieces_ascii hascii, h]
    decide
  · rw [decodePieces_ascii hascii, h]
    decide

/-- Whether an outcome of `receive_data`, begun at `r`, is right: a reader that the session goes on
with stands just behind the terminator if and only if the stream is `Delimited`; when the session ends
instead, the stream is. -/
def StopsExactly (maxMessageSize : Nat) (phase : Phase) (fresh : Bool) (r : Reader) :
    DataExit × Reader → Prop
  | (.failed _, _) => Delimited maxMessageSize phase fresh r.toStream
  | (.cancelled, _) => Delimited maxMessageSize phase fresh r.toStream
  | (.reply _, r') =>
      r'.bytes = afterDotLineFrom fresh r.bytes ↔ Delimited maxMessageSize phase fresh r.toStream
  | (.message _, r') =>
      r'.bytes = afterDotLineFrom fresh r.bytes ↔ Delimited maxMessageSize phase fresh r.toStream

/-- A content line that is passed over leaves the question as it was for what follows it. -/
theorem stopsExactly_of_line {r rest : Reader} {pieces : List Bytes} {outcome : DataExit × Reader}
    (h : r.toStream.cutLine = .line pieces rest)
    (hdot : overlong (maxMessageSize + 1024) 0 pieces = true ∨
      trimEnd (decodePieces pieces) ≠ ['.'])
    (hcrlf : phase = .draining ∨ overlong (maxMessageSize + 1024) 0 pieces = true ∨
      ['\r', '\n'].isSuffixOf (decodePieces pieces) = true)
    (hrest : StopsExactly maxMessageSize (phase.next maxMessageSize pieces)
      ([cr, lf].isSuffixOf pieces.flatten) rest outcome) :
    StopsExactly maxMessageSize phase fresh r outcome := by
  have hnot : pieces.flatten ≠ dotLine := by
    intro heq
    obtain ⟨hfits, htrim, -⟩ := dotLine_text maxMessageSize heq
    rcases hdot with hdot | hdot
    · rw [hfits] at hdot
      cases hdot
    · exact hdot htrim
  have hdelimited : Delimited maxMessageSize phase fresh r.toStream ↔
      Delimited maxMessageSize (phase.next maxMessageSize pieces)
        ([cr, lf].isSuffixOf pieces.flatten) rest.toStream := by
    rw [delimited_line_iff h]
    constructor
    · rintro (⟨-, heq⟩ | hempty | ⟨-, -, hd⟩)
      · exact absurd heq hnot
      · exact delimited_of_bytes_eq_nil (by rw [Reader.toStream_bytes, hempty])
      · exact hd
    · exact fun hd => Or.inr (Or.inr ⟨hdot, hcrlf, hd⟩)
  have hafter := goes_on fresh h fun hd => hnot hd.2
  obtain ⟨exit, r'⟩ := outcome
  cases exit <;> simpa only [StopsExactly, hdelimited, hafter] using hrest

/-- A line at which the session goes on settles the question. -/
theorem stopsExactly_at_line {r rest : Reader} {pieces : List Bytes}
    (h : r.toStream.cutLine = .line pieces rest)
    (hfits : overlong (maxMessageSize + 1024) 0 pieces = false)
    (hstop : trimEnd (decodePieces pieces) = ['.'] ∨
      phase ≠ .draining ∧ ['\r', '\n'].isSuffixOf (decodePieces pieces) = false) :
    rest.bytes = afterDotLineFrom fresh r.bytes ↔
      Delimited maxMessageSize phase fresh r.toStream := by
  rw [stops_iff h, delimited_line_iff h]
  constructor
  · rintro (hdot | hempty)
    · exact Or.inl hdot
    · exact Or.inr (Or.inl hempty)
  · rintro (hdot | hempty | ⟨hdot, hcrlf, -⟩)
    · exact Or.inl hdot
    · exact Or.inr hempty
    · simp only [hfits, Bool.false_eq_true, false_or] at hdot hcrlf
      rcases hstop with htrim | ⟨hphase, hbare⟩
      · exact absurd htrim hdot
      · rcases hcrlf with hdraining | hend
        · exact absurd hdraining hphase
        · rw [hbare] at hend
          cases hend

/-- A closed connection ends every drain at once. -/
theorem drainData_eof (limit : Nat) : drainData limit ⟨[], .eof⟩ = some ⟨[], .eof⟩ := by
  rw [drainData]
  rfl

/-- Once the connection has closed, nothing is left of the content. -/
theorem closed_iff {r : Reader} (h : r.toStream.cutLine = .closed) :
    ([] : Bytes) = afterDotLineFrom fresh r.bytes ↔
      Delimited maxMessageSize phase fresh r.toStream := by
  have hmem := Stream.cutLine_closed h
  rw [Reader.toStream_bytes] at hmem
  rw [afterDotLineFrom_of_not_mem hmem]
  exact ⟨fun _ => .closed h, fun _ => rfl⟩

/-- A timer at which the session goes on settles the question. -/
theorem interrupted_iff {r : Reader} {rest : Stream} {t : Timer}
    (h : r.toStream.cutLine = .interrupted t rest) (hgoes : ¬ (phase = .draining ∧ t = .total)) :
    rest.bytes = afterDotLineFrom fresh r.bytes ↔
      Delimited maxMessageSize phase fresh r.toStream := by
  obtain ⟨⟨pre, hpre, hbytes⟩, -⟩ := Stream.cutLine_interrupted h
  rw [Reader.toStream_bytes] at hbytes
  rw [hbytes, eq_afterDotLineFrom_iff fresh hpre, delimited_interrupted_iff h]
  simp [hgoes]

/-- **The drain of an oversize message stops where the content does exactly on the `Delimited`
streams.** -/
theorem drainOversize_exact (fresh : Bool) (r : Reader) :
    StopsExactly maxMessageSize .draining fresh r (drainOversize (maxMessageSize + 1024) r) := by
  induction hn : r.weight using Nat.strong_induction_on generalizing r fresh with
  | _ n ih =>
      cases hcut : r.toStream.cutLine with
      | line pieces rest =>
          have hweight := (Stream.cutLine_line hcut).2.2
          rw [Reader.toStream_weight, hn] at hweight
          have hih := ih rest.weight hweight ([cr, lf].isSuffixOf pieces.flatten) rest rfl
          -- a line that the drain passes over
          have hpass (hdot : overlong (maxMessageSize + 1024) 0 pieces = true ∨
              trimEnd (decodePieces pieces) ≠ ['.'])
              (heq : drainData (maxMessageSize + 1024) r = drainData (maxMessageSize + 1024) rest) :
              StopsExactly maxMessageSize .draining fresh r
                (drainOversize (maxMessageSize + 1024) r) := by
            have hline : StopsExactly maxMessageSize .draining fresh r
                (drainOversize (maxMessageSize + 1024) rest) :=
              stopsExactly_of_line hcut hdot (Or.inl rfl) hih
            unfold drainOversize at hline ⊢
            rw [heq]
            cases hdrain : drainData (maxMessageSize + 1024) rest with
            | none =>
                rw [hdrain] at hline
                exact hline
            | some r' =>
                rw [hdrain] at hline
                exact hline
          rcases boundedReadLine_of_line (maxMessageSize + 1024) hcut with
            ⟨hread, hfits⟩ | ⟨⟨buf, hread⟩, hlong⟩
          · by_cases hdot : trimEnd (decodePieces pieces) = ['.']
            · have hdrain : drainData (maxMessageSize + 1024) r = some rest := by
                rw [drainData, hread]
                exact if_pos hdot
              rw [drainOversize, hdrain]
              exact stopsExactly_at_line hcut hfits (Or.inl hdot)
            · refine hpass (Or.inr hdot) ?_
              rw [drainData, hread]
              exact if_neg hdot
          · refine hpass (Or.inl hlong) ?_
            rw [drainData, hread]
      | closed =>
          obtain ⟨result, buf, hok, hread, -⟩ :=
            boundedReadLine_of_closed (maxMessageSize + 1024) hcut
          have hdrain : drainData (maxMessageSize + 1024) r = some ⟨[], .eof⟩ := by
            rw [drainData, hread]
            cases result with
            | ok => exact absurd rfl hok
            | eof => rfl
            | tooLong => exact drainData_eof _
            | err e => exact drainData_eof _
          rw [drainOversize, hdrain]
          exact closed_iff hcut
      | interrupted t rest =>
          obtain ⟨buf, hread⟩ := boundedReadLine_of_interrupted (maxMessageSize + 1024) hcut
          cases t with
          | idle =>
              rw [drainOversize, drainData, hread]
              exact interrupted_iff hcut (by simp)
          | total =>
              rw [drainOversize, drainData, hread]
              exact .deadline hcut

/-- The text of a line ends in a line feed. -/
theorem decodePieces_lf {r rest : Reader} {pieces : List Bytes}
    (h : r.toStream.cutLine = .line pieces rest) :
    "\n".toList.isSuffixOf (decodePieces pieces) = true := by
  obtain ⟨-, ⟨body, hbody, -⟩, -⟩ := Stream.cutLine_line h
  obtain ⟨init, -, hdecode⟩ := decodePieces_concat (b := lf) (by decide) hbody
  rw [hdecode, List.isSuffixOf_iff_suffix]
  exact List.suffix_append ..

/-- **`receive_data` stops where the content does exactly on the `Delimited` streams.** -/
theorem receiveData_exact (maxMessageSize : Nat) (data : Bytes) (fresh : Bool) (r : Reader) :
    StopsExactly maxMessageSize (.collecting data.length) fresh r
      (receiveData maxMessageSize data r) := by
  induction hn : r.weight using Nat.strong_induction_on generalizing r fresh data with
  | _ n ih =>
      cases hcut : r.toStream.cutLine with
      | line pieces rest =>
          have hweight := (Stream.cutLine_line hcut).2.2
          rw [Reader.toStream_weight, hn] at hweight
          rcases boundedReadLine_of_line (maxMessageSize + 1024) hcut with
            ⟨hread, hfits⟩ | ⟨⟨buf, hread⟩, hlong⟩
          · rw [receiveData, hread]
            dsimp only
            rw [decodePieces_lf hcut, Bool.true_and]
            by_cases hcrlf : "\r\n".toList.isSuffixOf (decodePieces pieces) = true
            · rw [hcrlf]
              by_cases hdot : trimEnd (decodePieces pieces) = ['.']
              · simp only [Bool.not_true, Bool.false_eq_true, if_false, hdot, if_true]
                exact stopsExactly_at_line hcut hfits (Or.inl hdot)
              · simp only [Bool.not_true, Bool.false_eq_true, if_false, hdot]
                refine stopsExactly_of_line hcut (Or.inr hdot) (Or.inr (Or.inr hcrlf)) ?_
                simp only [Phase.next, hfits, Bool.false_eq_true, if_false, List.length_append]
                split
                · exact drainOversize_exact _ rest
                · have hih := ih rest.weight hweight (data ++ unstuff (decodePieces pieces))
                    ([cr, lf].isSuffixOf pieces.flatten) rest rfl
                  rw [List.length_append] at hih
                  exact hih
            · rw [Bool.not_eq_true] at hcrlf
              rw [hcrlf]
              simp only [Bool.not_false, if_true]
              exact stopsExactly_at_line hcut hfits (Or.inr ⟨by simp, hcrlf⟩)
          · rw [receiveData, hread]
            refine stopsExactly_of_line hcut (Or.inl hlong) (Or.inr (Or.inl hlong)) ?_
            simp only [Phase.next, hlong, if_true]
            exact drainOversize_exact _ rest
      | closed =>
          obtain ⟨result, buf, hok, hread, -⟩ :=
            boundedReadLine_of_closed (maxMessageSize + 1024) hcut
          rw [receiveData, hread]
          cases result with
          | ok => exact absurd rfl hok
          | eof => exact closed_iff hcut
          | err e => exact .closed hcut
          | tooLong =>
              dsimp only
              rw [drainOversize, drainData_eof]
              exact closed_iff hcut
      | interrupted t rest =>
          obtain ⟨buf, hread⟩ := boundedReadLine_of_interrupted (maxMessageSize + 1024) hcut
          rw [receiveData, hread]
          exact interrupted_iff hcut (by simp)

end Delimited

/-! ## Whole sessions -/

/-- **No message content is executed.**  Whenever `receive_data` gives a reply, the reader stands just
behind the terminator of the content; and every line that is later handed to `parse_command` on the
same connection was read behind that terminator. -/
def NoSmuggling (trace : List Event) : Prop :=
  (∀ content left, Event.resumed content left ∈ trace → left = afterDotLine content) ∧
  trace.Pairwise fun e e' => ∀ tls content before cmd args,
    e = .data tls content → e' = .line tls before cmd args → before <:+ afterDotLine content.bytes

/-- Every 354 of a trace meets content that the session reads to its end. -/
def EveryContentDelimited (maxMessageSize : Nat) (trace : List Event) : Prop :=
  ∀ tls content, Event.data tls content ∈ trace →
    Delimited maxMessageSize (.collecting 0) true content

/-- An event that neither starts nor ends content nor hands over a line. -/
def Event.Quiet : Event → Prop
  | .reply _ => True
  | .ingest _ _ _ => True
  | .handshake => True
  | _ => False

theorem EveryContentDelimited.mono {maxMessageSize : Nat} {trace trace' : List Event}
    (h : EveryContentDelimited maxMessageSize trace') (hsub : trace ⊆ trace') :
    EveryContentDelimited maxMessageSize trace :=
  fun tls content hmem => h tls content (hsub hmem)

/-- What the two halves of a trace need from each other: lines of the second half stand behind the
content of the first. -/
theorem noSmuggling_append {t t' : List Event} (h : NoSmuggling t) (h' : NoSmuggling t')
    (hcross : ∀ tls content before cmd args, Event.data tls content ∈ t →
      Event.line tls before cmd args ∈ t' → before <:+ afterDotLine content.bytes) :
    NoSmuggling (t ++ t') := by
  refine ⟨fun content left hmem => ?_, List.pairwise_append.mpr ⟨h.2, h'.2, ?_⟩⟩
  · rcases List.mem_append.mp hmem with hmem | hmem
    · exact h.1 content left hmem
    · exact h'.1 content left hmem
  · rintro e he e' he' tls content before cmd args rfl rfl
    exact hcross tls content before cmd args he he'

/-- Without content there is nothing to smuggle. -/
theorem noSmuggling_of_no_data {t : List Event}
    (h : ∀ e ∈ t, e.Quiet ∨ ∃ tls before cmd args, e = .line tls before cmd args) :
    NoSmuggling t := by
  refine ⟨fun content left hmem => ?_, List.pairwise_of_forall_mem_list ?_⟩
  · rcases h _ hmem with hq | ⟨_, _, _, _, heq⟩
    · exact hq.elim
    · cases heq
  · rintro e he e' - tls content before cmd args rfl -
    rcases h _ he with hq | ⟨_, _, _, _, heq⟩
    · exact hq.elim
    · cases heq

/-- Without lines there is nothing smuggled. -/
theorem noSmuggling_of_no_line {t : List Event}
    (hline : ∀ tls before cmd args, Event.line tls before cmd args ∉ t)
    (hresumed : ∀ content left, Event.resumed content left ∈ t → left = afterDotLine content) :
    NoSmuggling t := by
  refine ⟨hresumed, List.pairwise_of_forall_mem_list ?_⟩
  rintro e - e' he' tls content before cmd args - rfl
  exact absurd he' (hline tls before cmd args)

/-- What one round of the loop contributes: its lines are read on this connection from where the round
began, it smuggles nothing, and if the loop goes on it does so behind the content of the round. -/
structure Step.Orderly (maxMessageSize : Nat) (tls : Bool) (bytes : Bytes) (step : Step) : Prop where
  line : ∀ tls' before cmd args, Event.line tls' before cmd args ∈ step.trace →
    tls' = tls ∧ before <:+ bytes
  data : ∀ tls' content, Event.data tls' content ∈ step.trace → tls' = tls
  state : step.state.tlsActive = tls
  noSmuggling : EveryContentDelimited maxMessageSize step.trace → NoSmuggling step.trace
  goesOn : EveryContentDelimited maxMessageSize step.trace → ∀ s' r' trace,
    step = .more s' r' trace → ∀ tls' content, Event.data tls' content ∈ trace →
      r'.bytes = afterDotLine content.bytes

/-- A round without content is orderly. -/
theorem orderly_of_no_data {maxMessageSize : Nat} {tls : Bool} {bytes : Bytes} {step : Step}
    (hstate : step.state.tlsActive = tls)
    (h : ∀ e ∈ step.trace, e.Quiet ∨ ∃ cmd args, e = .line tls bytes cmd args) :
    step.Orderly maxMessageSize tls bytes := by
  have hdata : ∀ tls' content, Event.data tls' content ∉ step.trace := by
    intro tls' content hmem
    rcases h _ hmem with hq | ⟨_, _, heq⟩
    · exact hq.elim
    · cases heq
  constructor
  · intro tls' before cmd args hmem
    rcases h _ hmem with hq | ⟨_, _, heq⟩
    · exact hq.elim
    · cases heq
      exact ⟨rfl, List.suffix_rfl⟩
  · exact fun tls' content hmem => absurd hmem (hdata tls' content)
  · exact hstate
  · exact fun _ => noSmuggling_of_no_data fun e he =>
      (h e he).imp id fun ⟨cmd, args, heq⟩ => ⟨tls, bytes, cmd, args, heq⟩
  · rintro - s' r' trace rfl tls' content hmem
    exact absurd hmem (hdata tls' content)

/-- A response behind a line that was handed over. -/
theorem orderly_respond {maxMessageSize : Nat} {tls : Bool} {bytes : Bytes} {cmd args : Str}
    (ok : Bool) {s : SessionState} (hs : s.tlsActive = tls) (r : Reader) (text : Str) :
    (respond ok s r [.line tls bytes cmd args] text).Orderly maxMessageSize tls bytes := by
  refine orderly_of_no_data (by simpa using hs) ?_
  simp [Event.Quiet]

section Handlers

/-! The command handlers leave the TLS flag alone. -/

@[simp] theorem resetTransaction_tlsActive (s : SessionState) :
    s.resetTransaction.tlsActive = s.tlsActive := rfl

@[simp] theorem handleEhlo_tlsActive (p : SessionParams) (args : Str) (s : SessionState) :
    (handleEhlo p args s).2.tlsActive = s.tlsActive := by
  unfold handleEhlo
  split <;> rfl

@[simp] theorem handleHelo_tlsActive (p : SessionParams) (args : Str) (s : SessionState) :
    (handleHelo p args s).2.tlsActive = s.tlsActive := by
  unfold handleHelo
  split <;> rfl

theorem handleMailFrom_tlsActive {args text : Str} {s s' : SessionState}
    (h : handleMailFrom args s = some (text, s')) : s'.tlsActive = s.tlsActive := by
  rcases handleMailFrom_cases h with ⟨-, rfl⟩ | ⟨-, -, -, addr, -, rfl⟩
  · rfl
  · rfl

theorem handleRcptTo_tlsActive {config : Config} {args text : Str} {s s' : SessionState}
    (h : handleRcptTo config args s = some (text, s')) : s'.tlsActive = s.tlsActive := by
  rcases handleRcptTo_cases h with ⟨-, rfl⟩ | ⟨-, -, -, addr, -, -, -, rfl⟩
  · rfl
  · rfl

theorem deliverMessage_tlsActive {env : Round} {data : Bytes} {s s' : SessionState}
    {text : Str} (h : (deliverMessage env data s).2 = some (text, s')) :
    s'.tlsActive = s.tlsActive := by
  simp only [deliverMessage, Option.map_eq_some_iff] at h
  obtain ⟨⟨succeeded, failed⟩, -, h⟩ := h
  dsimp only at h
  split at h
  · cases h; rfl
  · split at h
    · cases h; rfl
    · cases h; rfl

end Handlers

/-- The DATA command is orderly: its content is read to the terminator whenever it is `Delimited`. -/
theorem dataStep_orderly (p : SessionParams) (env : Round) (s : SessionState)
    (r : Reader) (bytes : Bytes) (cmd args : Str) :
    (dataStep p env s r [.line s.tlsActive bytes cmd args]).Orderly p.maxMessageSize
      s.tlsActive bytes := by
  have hexact := receiveData_exact p.maxMessageSize [] true r
  -- the front of the trace, up to the 354 and the content
  have hfront : ∀ (step : Step) (tail : List Event),
      step.trace = [.line s.tlsActive bytes cmd args,
        .reply "354 Start mail input; end with <CRLF>.<CRLF>\r\n".toList,
        .data s.tlsActive r.toStream] ++ tail →
      (∀ e ∈ tail, e.Quiet ∨ ∃ left, e = .resumed r.bytes left ∧
        (Delimited p.maxMessageSize (.collecting 0) true r.toStream →
          left = afterDotLine r.bytes)) →
      step.state.tlsActive = s.tlsActive →
      (∀ s' r' trace, step = .more s' r' trace →
        Delimited p.maxMessageSize (.collecting 0) true r.toStream →
          r'.bytes = afterDotLine r.bytes) →
      step.Orderly p.maxMessageSize s.tlsActive bytes := by
    intro step tail htrace htail hstate hgoes
    have hline : ∀ tls before cmd args, Event.line tls before cmd args ∉ tail := by
      intro tls before cmd args hmem
      rcases htail _ hmem with hq | ⟨_, heq, -⟩
      · exact hq.elim
      · cases heq
    have hdata : ∀ tls content, Event.data tls content ∈ step.trace →
        tls = s.tlsActive ∧ content = r.toStream := by
      intro tls content hmem
      rw [htrace] at hmem
      simp only [List.cons_append, List.nil_append, List.mem_cons, reduceCtorEq, false_or,
        Event.data.injEq] at hmem
      rcases hmem with ⟨htls, hcontent⟩ | hmem
      · exact ⟨htls, hcontent⟩
      · rcases htail _ hmem with hq | ⟨_, heq, -⟩
        · exact hq.elim
        · cases heq
    have hdelimited : EveryContentDelimited p.maxMessageSize step.trace →
        Delimited p.maxMessageSize (.collecting 0) true r.toStream := by
      intro hall
      refine hall s.tlsActive r.toStream ?_
      rw [htrace]
      simp
    constructor
    · intro tls before cmd' args' hmem
      rw [htrace] at hmem
      simp only [List.cons_append, List.nil_append, List.mem_cons, reduceCtorEq, false_or,
        Event.line.injEq] at hmem
      rcases hmem with ⟨rfl, rfl, -, -⟩ | hmem
      · exact ⟨rfl, List.suffix_rfl⟩
      · exact absurd hmem (hline _ _ _ _)
    · exact fun tls content hmem => (hdata tls content hmem).1
    · exact hstate
    · intro hall
      rw [htrace, List.cons_append]
      refine noSmuggling_append (t := [_]) (noSmuggling_of_no_data ?_)
        (noSmuggling_of_no_line ?_ ?_) ?_
      · simp
      · simpa using hline
      · intro content left hmem
        change Event.resumed content left ∈ _ :: _ :: tail at hmem
        simp only [List.mem_cons, reduceCtorEq, false_or] at hmem
        rcases htail _ hmem with hq | ⟨left', heq, hleft⟩
        · exact hq.elim
        · cases heq
          exact hleft (hdelimited hall)
      · simp
    · rintro hall s' r' trace rfl tls content hmem
      obtain ⟨-, rfl⟩ := hdata tls content hmem
      rw [Reader.toStream_bytes]
      exact hgoes s' r' trace rfl (hdelimited hall)
  unfold dataStep
  dsimp only
  split
  · exact orderly_of_no_data rfl (by simp [Event.Quiet])
  · cases hdata : receiveData p.maxMessageSize [] r with
    | mk exit r' =>
        rw [hdata] at hexact
        cases exit with
        | failed e => exact hfront _ [] (by simp) (by simp) rfl (by simp)
        | cancelled => exact hfront _ [] (by simp) (by simp) rfl (by simp)
        | reply text =>
            have hleft : Delimited p.maxMessageSize (.collecting 0) true r.toStream →
                r'.bytes = afterDotLine r.bytes := hexact.mpr
            refine hfront _ [.resumed r.bytes r'.bytes, .reply text] (by simp) ?_ (by simp) ?_
            · simpa [Event.Quiet] using hleft
            · intro s'' r'' trace hmore hdelimited
              have hreader := congrArg Step.reader hmore
              simp only [respond_reader, Step.reader_more] at hreader
              exact hreader ▸ hleft hdelimited
        | message data =>
            have hleft : Delimited p.maxMessageSize (.collecting 0) true r.toStream →
                r'.bytes = afterDotLine r.bytes := hexact.mpr
            have hcalls : ∀ e ∈ (deliverMessage env data { s with state := .data }).1,
                e.Quiet := by
              intro e he
              obtain ⟨rcpt, rfl⟩ := mem_ingestAll he
              trivial
            dsimp only
            cases hdeliver : (deliverMessage env data { s with state := .data }).2 with
            | none =>
                refine hfront _ (deliverMessage env data { s with state := .data }).1
                  (by simp) (fun e he => Or.inl (hcalls e he)) rfl (by simp)
            | some answer =>
                obtain ⟨text, s'⟩ := answer
                refine hfront _ ((deliverMessage env data { s with state := .data }).1 ++
                  [.resumed r.bytes r'.bytes, .reply text]) (by simp) ?_ ?_ ?_
                · intro e he
                  rcases List.mem_append.mp he with he | he
                  · exact Or.inl (hcalls e he)
                  · simp only [List.mem_cons, List.not_mem_nil, or_false] at he
                    rcases he with rfl | rfl
                    · exact Or.inr ⟨_, rfl, hleft⟩
                    · exact Or.inl trivial
                · simpa using deliverMessage_tlsActive hdeliver
                · intro s'' r'' trace hmore hdelimited
                  have hreader := congrArg Step.reader hmore
                  simp only [respond_reader, Step.reader_more] at hreader
                  exact hreader ▸ hleft hdelimited

/-- Every command is orderly. -/
theorem dispatch_orderly (p : SessionParams) (env : Round) (s : SessionState)
    (r : Reader) (bytes : Bytes) (cmd args : Str) :
    (dispatch p env s r [.line s.tlsActive bytes cmd args] cmd args).Orderly
      p.maxMessageSize s.tlsActive bytes := by
  have hpanic : ∀ exit, (Step.stop exit s r [.line s.tlsActive bytes cmd args]).Orderly
      p.maxMessageSize s.tlsActive bytes :=
    fun exit => orderly_of_no_data rfl (by simp)
  have hstop : ∀ exit text,
      (Step.stop exit s r ([.line s.tlsActive bytes cmd args] ++ [.reply text])).Orderly
        p.maxMessageSize s.tlsActive bytes :=
    fun exit text => orderly_of_no_data rfl (by simp [Event.Quiet])
  unfold dispatch
  dsimp only
  cases Command.ofStr cmd with
  | ehlo => exact orderly_respond _ (handleEhlo_tlsActive p args s) r _
  | helo => exact orderly_respond _ (handleHelo_tlsActive p args s) r _
  | mail =>
      dsimp only
      cases hmail : handleMailFrom args s with
      | none => exact hpanic .panicked
      | some handled => exact orderly_respond _ (handleMailFrom_tlsActive hmail) r _
  | rcpt =>
      dsimp only
      cases hrcpt : handleRcptTo (env.config) args s with
      | none => exact hpanic .panicked
      | some handled => exact orderly_respond _ (handleRcptTo_tlsActive hrcpt) r _
  | data =>
      dsimp only
      cases handleDataPrecheck s with
      | none => exact dataStep_orderly p env s r bytes cmd args
      | some text => exact orderly_respond _ rfl r _
  | rset => exact orderly_respond (s := (handleRset s).2) _ rfl r _
  | noop => exact orderly_respond _ rfl r _
  | quit => exact hstop .done _
  | starttls =>
      dsimp only
      split
      · exact orderly_respond _ rfl r _
      · split
        · exact orderly_respond _ rfl r _
        · exact hstop .starttlsUpgrade _
  | unrecognized => exact orderly_respond _ rfl r _

/-- **Every round of the command loop is orderly.** -/
theorem commandStep_orderly (p : SessionParams) (env : Round) (s : SessionState)
    (r : Reader) : (commandStep p env s r).Orderly p.maxMessageSize s.tlsActive r.bytes := by
  unfold commandStep
  dsimp only
  split
  case h_1 => exact orderly_of_no_data rfl (by simp [Event.Quiet])
  case h_2 => exact orderly_of_no_data rfl (by simp [Event.Quiet])
  case h_3 => exact orderly_of_no_data (by simp) (by simp [Event.Quiet])
  case h_4 => exact orderly_of_no_data rfl (by simp)
  case h_5 => exact orderly_of_no_data rfl (by simp)
  case h_6 =>
      split
      · exact orderly_of_no_data rfl (by simp)
      · split
        · exact orderly_of_no_data rfl (by simp [Event.Quiet])
        · exact dispatch_orderly p env { s with commandCount := s.commandCount + 1 } _ r.bytes
            _ _

/-- What a whole loop contributes. -/
structure LoopOrderly (maxMessageSize : Nat) (tls : Bool) (bytes : Bytes) (trace : List Event) :
    Prop where
  line : ∀ tls' before cmd args, Event.line tls' before cmd args ∈ trace →
    tls' = tls ∧ before <:+ bytes
  data : ∀ tls' content, Event.data tls' content ∈ trace → tls' = tls
  noSmuggling : EveryContentDelimited maxMessageSize trace → NoSmuggling trace

/-- **The command loop smuggles nothing.**  By induction on what the connection still holds: the rest
of the loop reads behind the content of its first round. -/
theorem commandLoop_orderly (p : SessionParams) (env : Env) (clock : Nat) (s : SessionState)
    (r : Reader) :
    LoopOrderly p.maxMessageSize s.tlsActive r.bytes (commandLoop p env clock s r).trace := by
  induction hn : r.weight using Nat.strong_induction_on generalizing r s clock with
  | _ n ih =>
      have hstep := commandStep_orderly p (env.round clock) s r
      rw [commandLoop]
      split
      case h_1 exit s' r' trace heq =>
          rw [heq] at hstep
          exact ⟨hstep.line, hstep.data, hstep.noSmuggling⟩
      case h_2 s' r' trace heq =>
          obtain ⟨hlt, hsuffix⟩ := commandStep_more heq
          rw [heq] at hstep
          have htls : s'.tlsActive = s.tlsActive := hstep.state
          have hrest := ih r'.weight (hn ▸ hlt) (clock + 1) s' r' rfl
          rw [htls] at hrest
          dsimp only
          constructor
          · intro tls' before cmd args hmem
            rcases List.mem_append.mp hmem with hmem | hmem
            · exact hstep.line _ _ _ _ hmem
            · obtain ⟨htls', hbefore⟩ := hrest.line _ _ _ _ hmem
              exact ⟨htls', hbefore.trans hsuffix⟩
          · intro tls' content hmem
            rcases List.mem_append.mp hmem with hmem | hmem
            · exact hstep.data _ _ hmem
            · exact hrest.data _ _ hmem
          · intro hall
            have hfirst := hall.mono (List.subset_append_left trace _)
            have hsecond := hall.mono (List.subset_append_right trace _)
            refine noSmuggling_append (hstep.noSmuggling hfirst) (hrest.noSmuggling hsecond) ?_
            intro tls' content before cmd args hdata hline
            have hleft := hstep.goesOn hfirst s' r' trace rfl tls' content hdata
            exact hleft ▸ (hrest.line _ _ _ _ hline).2

/-- **No message content is ever executed as SMTP commands** in a session whose every 354 meets
content that can be read to its end: no timer fires before the terminator, every content line that is
collected ends in CRLF, and no line but the terminator trims to a single dot. -/
theorem runSession_noSmuggling (p : SessionParams) (env : Env) (stream : Stream)
    (h : EveryContentDelimited p.maxMessageSize (runSession p env stream).trace) :
    NoSmuggling (runSession p env stream).trace := by
  have hplain := commandLoop_orderly p env 1 SessionState.new ⟨[], stream⟩
  have hquiet : ∀ e : Event, e.Quiet → NoSmuggling [e] :=
    fun e he => noSmuggling_of_no_data (by simpa using Or.inl he)
  rcases runSession_trace p env stream with htrace | htrace | ⟨tlsStream, -, -, htrace⟩
  · rw [htrace]
    exact hquiet _ trivial
  · rw [htrace] at h ⊢
    have hloop := hplain.noSmuggling (h.mono (List.subset_cons_self _ _))
    exact noSmuggling_append (t := [_]) (hquiet _ trivial) hloop (by simp)
  · rw [htrace] at h ⊢
    have hall := h.mono (List.subset_cons_self _ _)
    have htail := hall.mono (List.subset_append_right _ _)
    have hloop := hplain.noSmuggling (hall.mono (List.subset_append_left _ _))
    have hsecure := commandLoop_orderly p env
      (commandLoop p env 1 SessionState.new ⟨[], stream⟩).clock
      (commandLoop p env 1 SessionState.new ⟨[], stream⟩).state.upgraded ⟨[], tlsStream⟩
    have htls := noSmuggling_append (t := [_]) (hquiet .handshake trivial)
      (hsecure.noSmuggling (htail.mono (List.subset_cons_self _ _))) (by simp)
    refine noSmuggling_append (t := [_]) (hquiet _ trivial)
      (noSmuggling_append hloop htls ?_) (by simp)
    intro tls content before cmd args hdata hline
    -- content of the plain connection and a line of the TLS connection
    have hfalse := hplain.data _ _ hdata
    simp only [List.mem_cons, reduceCtorEq, false_or] at hline
    have htrue := (hsecure.line _ _ _ _ hline).1
    rw [hfalse] at htrue
    cases htrue

/-! ## A well-formed message, and a smuggled command -/

/-- A plain-text server with one mailbox for every local part. -/
def catchallConfig : Config :=
  { domain := "example.org".toList, dataDir := "/var/lib/aimx".toList,
    dkimSelector := "aimx".toList, trust := "none".toList, trustedSenders := [],
    mailboxes := AList.singleton "catchall".toList
      { address := "*@example.org".toList, owner := "aimx-catchall".toList, hooks := [],
        trust := none, trustedSenders := none, allowRootCatchall := false },
    verifyHost := none, enableIpv6 := false, signature := none, upgrade := none }

/-- Its session parameters. -/
def plainParams : SessionParams :=
  { tlsAcceptor := false, hostname := "mx".toList, maxMessageSize := 1000,
    maxCommandsBeforeData := 50 }

/-- Its environment: nothing fails. -/
def plainEnv : Env :=
  { round := fun _ =>
      { config := catchallConfig, writeOk := fun _ => true, ingest := fun _ => .stored }
    accept := fun _ => none }

/-- A transaction up to and including DATA. -/
def envelopeText : String :=
  "EHLO client\r\nMAIL FROM:<a@client>\r\nRCPT TO:<b@example.org>\r\nDATA\r\n"

/-- A message of CRLF lines is read to its terminator, and the session goes on behind it. -/
theorem runSession_noSmuggling_crlf :
    NoSmuggling (runSession plainParams plainEnv
      (Stream.ofText (envelopeText ++ "Hi\r\n.\r\nQUIT\r\n"))).trace := by
  refine runSession_noSmuggling plainParams plainEnv _ ?_
  have hcontents : ((runSession plainParams plainEnv
      (Stream.ofText (envelopeText ++ "Hi\r\n.\r\nQUIT\r\n"))).trace.filterMap fun
        | .data _ content => some content
        | _ => none) = [Stream.ofText "Hi\r\n.\r\nQUIT\r\n"] := by
    decide +kernel
  intro tls content hmem
  have hcontent : content ∈ [Stream.ofText "Hi\r\n.\r\nQUIT\r\n"] := by
    rw [← hcontents]
    exact List.mem_filterMap.mpr ⟨_, hmem, rfl⟩
  rw [List.mem_singleton] at hcontent
  subst hcontent
  have hfirst : (Stream.ofText "Hi\r\n.\r\nQUIT\r\n").cutLine =
      .line [utf8 "Hi\r\n".toList] ⟨utf8 ".\r\nQUIT\r\n".toList, .eof⟩ := by
    decide +kernel
  refine .line hfirst (Or.inr (by decide +kernel)) (Or.inr (Or.inr (by decide +kernel))) ?_
  have hsecond : (Reader.mk (utf8 ".\r\nQUIT\r\n".toList) .eof).toStream.cutLine =
      .line [dotLine] ⟨utf8 "QUIT\r\n".toList, .eof⟩ := by
    decide +kernel
  exact .dot hsecond rfl

/-- A content line that ends in a bare LF is answered 500, and the content behind it is executed: here
a MAIL command that the client sent as message text. -/
theorem bareLf_smuggles :
    ¬ NoSmuggling (runSession plainParams plainEnv
      (Stream.ofText (envelopeText ++ "Hi\nMAIL FROM:<x@y>\r\n.\r\n"))).trace := by
  intro h
  have hsub : [Event.data false (Stream.ofText "Hi\nMAIL FROM:<x@y>\r\n.\r\n"),
      Event.line false (utf8 "MAIL FROM:<x@y>\r\n.\r\n".toList) "MAIL".toList
        "FROM:<x@y>".toList].Sublist
      (runSession plainParams plainEnv
        (Stream.ofText (envelopeText ++ "Hi\nMAIL FROM:<x@y>\r\n.\r\n"))).trace := by
    decide +kernel
  have hpair := h.2.sublist hsub
  rw [List.pairwise_cons] at hpair
  have hbehind := hpair.1 _ (List.mem_singleton_self _) _ _ _ _ _ rfl rfl
  revert hbehind
  decide +kernel

end Smtp
end Aimx
