import Aimx.Text.Utf8

/-!
# The connection and its line reader

What an SMTP session can read is a `Stream`: any chunking of any bytes, ended by end of file or by a
transport error, with timers that may fire wherever the reader waits for the next chunk.  `Reader` is
the buffered reader over it, and `boundedReadLine` the session's only way to read.

* `boundedReadLine` — `bounded_read_line`, which decodes each chunk lossily and drops the rest of a
  line that grows too long;
* `Stream.cutLine` — the next line of a stream as the pieces the chunks cut it into, with no length
  limit and no decoding;
* `boundedReadLine_of_line`, `boundedReadLine_of_closed`, `boundedReadLine_of_interrupted` — what one
  read does, in terms of `cutLine`: it consumes exactly one line, whatever the limit says;
* `boundedReadLine_weight` — every read that is not an end of file consumes something.
-/

namespace Aimx
namespace Smtp

open Text

/-- The line feed byte. -/
def lf : UInt8 := 0x0A

/-- The carriage return byte. -/
def cr : UInt8 := 0x0D

/-- The timers that run while a session waits: the idle timeout of one read, and the deadline of the
whole connection. -/
inductive Timer
  | idle
  | total
  deriving DecidableEq

/-- What a connection still delivers.  A chunk is never empty, and a transport that failed delivers
nothing more. -/
inductive Stream
  | eof
  | reset (error : Str)
  | data (b : UInt8) (bs : Bytes) (rest : Stream)
  | timeout (timer : Timer) (rest : Stream)
  deriving DecidableEq

/-- The bytes a stream still delivers. -/
def Stream.bytes : Stream → Bytes
  | .eof => []
  | .reset _ => []
  | .data b bs rest => b :: bs ++ rest.bytes
  | .timeout _ rest => rest.bytes

/-- The number of bytes and events a stream still holds. -/
def Stream.weight : Stream → Nat
  | .eof => 0
  | .reset _ => 1
  | .data _ bs rest => bs.length + 1 + rest.weight
  | .timeout _ rest => rest.weight + 1

/-- A text that arrives in one chunk before the connection closes. -/
def Stream.ofText (text : String) : Stream :=
  match utf8 text.toList with
  | [] => .eof
  | b :: bs => .data b bs .eof

/-- `BufReader`: bytes already fetched, and the connection behind them. -/
structure Reader where
  buffer : Bytes
  inner : Stream
  deriving DecidableEq

/-- The reader as one stream: `fill_buf` hands out a nonempty buffer before it reads again. -/
def Reader.toStream (r : Reader) : Stream :=
  match r.buffer with
  | [] => r.inner
  | b :: bs => .data b bs r.inner

/-- The bytes a reader still delivers. -/
def Reader.bytes (r : Reader) : Bytes := r.buffer ++ r.inner.bytes

/-- The number of bytes and events a reader still holds. -/
def Reader.weight (r : Reader) : Nat := r.buffer.length + r.inner.weight

@[simp] theorem Reader.toStream_bytes (r : Reader) : r.toStream.bytes = r.bytes := by
  obtain ⟨buffer, inner⟩ := r
  cases buffer <;> rfl

@[simp] theorem Reader.toStream_weight (r : Reader) : r.toStream.weight = r.weight := by
  obtain ⟨buffer, inner⟩ := r
  cases buffer with
  | nil => simp [toStream, weight]
  | cons b bs => simp [toStream, weight, Stream.weight]

/-! ## Reading one line -/

/-- The result of `bounded_read_line`. -/
inductive ReadLineResult
  | ok
  | tooLong
  | eof
  | err (error : Str)
  deriving DecidableEq

/-- A read under the two timers: it finishes, or a timer fires first. -/
inductive ReadOutcome
  | ready (result : ReadLineResult)
  | elapsed (timer : Timer)
  deriving DecidableEq

/-- What a read leaves behind: its outcome, the line buffer and the reader. -/
structure LineRead where
  outcome : ReadOutcome
  buf : Str
  reader : Reader

/-- The drain of `bounded_read_line` after a line has grown too long. -/
def skipLine (buf : Str) : Stream → LineRead
  | .eof => ⟨.ready .tooLong, buf, ⟨[], .eof⟩⟩
  | .reset _ => ⟨.ready .tooLong, buf, ⟨[], .eof⟩⟩
  | .timeout timer rest => ⟨.elapsed timer, buf, ⟨[], rest⟩⟩
  | .data b bs rest =>
      match splitOnce lf (b :: bs) with
      | some (_, after) => ⟨.ready .tooLong, buf, ⟨after, rest⟩⟩
      | none => skipLine buf rest

/-- The loop of `bounded_read_line`, with the line buffer read so far. -/
def readLineLoop (maxLen : Nat) (buf : Str) : Stream → LineRead
  | .eof => ⟨.ready .eof, buf, ⟨[], .eof⟩⟩
  | .reset error => ⟨.ready (.err error), buf, ⟨[], .eof⟩⟩
  | .timeout timer rest => ⟨.elapsed timer, buf, ⟨[], rest⟩⟩
  | .data b bs rest =>
      match splitOnce lf (b :: bs) with
      | some (line, after) =>
          if byteLen buf + line.length + 1 > maxLen then ⟨.ready .tooLong, buf, ⟨after, rest⟩⟩
          else ⟨.ready .ok, buf ++ fromUtf8Lossy (line ++ [lf]), ⟨after, rest⟩⟩
      | none =>
          if byteLen buf + (b :: bs).length > maxLen then skipLine buf rest
          else readLineLoop maxLen (buf ++ fromUtf8Lossy (b :: bs)) rest

/-- `bounded_read_line` into a cleared line buffer. -/
def boundedReadLine (maxLen : Nat) (r : Reader) : LineRead := readLineLoop maxLen [] r.toStream

/-! ## The line a stream holds next -/

/-- How the next line of a stream ends. -/
inductive LineCut
  /-- The pieces of a line, its line feed included, and what follows it. -/
  | line (pieces : List Bytes) (rest : Reader)
  /-- The stream ends, or fails, before a line feed. -/
  | closed
  /-- A timer fires before a line feed. -/
  | interrupted (timer : Timer) (rest : Stream)
  deriving DecidableEq

/-- The next line of a stream, in the pieces its chunks cut it into. -/
def Stream.cutLine : Stream → LineCut
  | .eof => .closed
  | .reset _ => .closed
  | .timeout timer rest => .interrupted timer rest
  | .data b bs rest =>
      match splitOnce lf (b :: bs) with
      | some (line, after) => .line [line ++ [lf]] ⟨after, rest⟩
      | none =>
          match rest.cutLine with
          | .line pieces r => .line ((b :: bs) :: pieces) r
          | cut => cut

/-- The text of a line, each piece decoded on its own. -/
def decodePieces (pieces : List Bytes) : Str := pieces.flatMap fromUtf8Lossy

/-- The length check of `bounded_read_line` over the pieces of a line, after `n` decoded bytes. -/
def overlong (maxLen : Nat) (n : Nat) : List Bytes → Bool
  | [] => false
  | piece :: pieces =>
      n + piece.length > maxLen || overlong maxLen (n + byteLen (fromUtf8Lossy piece)) pieces

/-- A cut line is nonempty, ends in its only line feed, and is what the stream delivers first. -/
theorem Stream.cutLine_line {s : Stream} {pieces : List Bytes} {r : Reader}
    (h : s.cutLine = .line pieces r) :
    s.bytes = pieces.flatten ++ r.bytes ∧
      (∃ body, pieces.flatten = body ++ [lf] ∧ lf ∉ body) ∧ r.weight < s.weight := by
  induction s generalizing pieces with
  | eof => simp [cutLine] at h
  | reset e => simp [cutLine] at h
  | timeout t rest => simp [cutLine] at h
  | data b bs rest ih =>
      rw [cutLine] at h
      cases hsplit : splitOnce lf (b :: bs) with
      | some p =>
          obtain ⟨body, after⟩ := p
          obtain ⟨hbs, hmem⟩ := splitOnce_eq_some_iff.mp hsplit
          have hlen := splitOnce_length hsplit
          simp only [hsplit, LineCut.line.injEq] at h
          obtain ⟨rfl, rfl⟩ := h
          refine ⟨?_, ⟨body, by simp, hmem⟩, ?_⟩
          · change b :: bs ++ rest.bytes = _
            rw [hbs]
            simp [Reader.bytes]
          · simp only [List.length_cons] at hlen
            simp only [Reader.weight, weight]
            omega
      | none =>
          have hnot := splitOnce_eq_none_iff.mp hsplit
          simp only [hsplit] at h
          cases hrest : rest.cutLine with
          | closed => simp [hrest] at h
          | interrupted t s => simp [hrest] at h
          | line ps q =>
              simp only [hrest, LineCut.line.injEq] at h
              obtain ⟨rfl, rfl⟩ := h
              obtain ⟨hbytes, ⟨body, hbody, hmem⟩, hweight⟩ := ih hrest
              refine ⟨?_, ⟨b :: bs ++ body, ?_, ?_⟩, ?_⟩
              · rw [bytes, hbytes]
                simp
              · rw [List.flatten_cons, hbody]
                simp
              · rw [List.mem_append, not_or]
                exact ⟨hnot, hmem⟩
              · simp only [weight]
                omega

/-- A timer that interrupts a line fires before its line feed, and leaves strictly less of the
stream. -/
theorem Stream.cutLine_interrupted {s rest : Stream} {t : Timer}
    (h : s.cutLine = .interrupted t rest) :
    (∃ pre, lf ∉ pre ∧ s.bytes = pre ++ rest.bytes) ∧ rest.weight < s.weight := by
  induction s with
  | eof => simp [cutLine] at h
  | reset e => simp [cutLine] at h
  | timeout t' rest' =>
      simp only [cutLine, LineCut.interrupted.injEq] at h
      obtain ⟨rfl, rfl⟩ := h
      exact ⟨⟨[], by simp, rfl⟩, by simp [weight]⟩
  | data b bs rest' ih =>
      rw [cutLine] at h
      cases hsplit : splitOnce lf (b :: bs) with
      | some p => simp [hsplit] at h
      | none =>
          have hnot := splitOnce_eq_none_iff.mp hsplit
          simp only [hsplit] at h
          cases hrest : rest'.cutLine with
          | closed => simp [hrest] at h
          | line ps q => simp [hrest] at h
          | interrupted t' s' =>
              simp only [hrest, LineCut.interrupted.injEq] at h
              obtain ⟨rfl, rfl⟩ := h
              obtain ⟨⟨pre, hpre, hbytes⟩, hweight⟩ := ih hrest
              refine ⟨⟨b :: bs ++ pre, ?_, ?_⟩, ?_⟩
              · rw [List.mem_append, not_or]
                exact ⟨hnot, hpre⟩
              · rw [bytes, hbytes, List.append_assoc]
              · simp only [weight]
                omega

/-- A stream that closes before a line feed holds none. -/
theorem Stream.cutLine_closed {s : Stream} (h : s.cutLine = .closed) : lf ∉ s.bytes := by
  induction s with
  | eof => simp [bytes]
  | reset e => simp [bytes]
  | timeout t rest => simp [cutLine] at h
  | data b bs rest ih =>
      rw [cutLine] at h
      cases hsplit : splitOnce lf (b :: bs) with
      | some p => simp [hsplit] at h
      | none =>
          simp only [hsplit] at h
          cases hrest : rest.cutLine with
          | line ps q => simp [hrest] at h
          | interrupted t s => simp [hrest] at h
          | closed =>
              rw [bytes, List.mem_append, not_or]
              exact ⟨splitOnce_eq_none_iff.mp hsplit, ih hrest⟩

/-! ## What one read does -/

/-- The drain consumes the rest of the line. -/
theorem skipLine_spec (buf : Str) (s : Stream) :
    match s.cutLine with
    | .line _ r => skipLine buf s = ⟨.ready .tooLong, buf, r⟩
    | .closed => skipLine buf s = ⟨.ready .tooLong, buf, ⟨[], .eof⟩⟩
    | .interrupted t rest => skipLine buf s = ⟨.elapsed t, buf, ⟨[], rest⟩⟩ := by
  induction s with
  | eof => rfl
  | reset e => rfl
  | timeout t rest => rfl
  | data b bs rest ih =>
      rw [Stream.cutLine, skipLine]
      cases hsplit : splitOnce lf (b :: bs) with
      | some p => rfl
      | none =>
          dsimp only
          cases hrest : rest.cutLine with
          | closed => simpa only [hrest] using ih
          | line ps r => simpa only [hrest] using ih
          | interrupted t s => simpa only [hrest] using ih

/-- The loop of `bounded_read_line` consumes exactly the next line, and reports it as too long exactly
when the length check fails at one of its pieces. -/
theorem readLineLoop_of_line (maxLen : Nat) (buf : Str) {s : Stream} {pieces : List Bytes}
    {r : Reader} (h : s.cutLine = .line pieces r) :
    readLineLoop maxLen buf s =
        ⟨.ready .ok, buf ++ decodePieces pieces, r⟩ ∧ overlong maxLen (byteLen buf) pieces = false ∨
      (∃ buf', readLineLoop maxLen buf s = ⟨.ready .tooLong, buf', r⟩) ∧
        overlong maxLen (byteLen buf) pieces = true := by
  induction s generalizing buf pieces with
  | eof => simp [Stream.cutLine] at h
  | reset e => simp [Stream.cutLine] at h
  | timeout t rest => simp [Stream.cutLine] at h
  | data b bs rest ih =>
      rw [Stream.cutLine] at h
      rw [readLineLoop]
      cases hsplit : splitOnce lf (b :: bs) with
      | some p =>
          obtain ⟨line, after⟩ := p
          simp only [hsplit, LineCut.line.injEq] at h
          obtain ⟨rfl, rfl⟩ := h
          by_cases hlong : byteLen buf + line.length + 1 > maxLen
          · right
            simp only [if_pos hlong]
            refine ⟨⟨buf, rfl⟩, ?_⟩
            simp only [overlong, List.length_append, List.length_cons, List.length_nil]
            rw [decide_eq_true (by omega), Bool.true_or]
          · left
            simp only [if_neg hlong]
            refine ⟨by simp [decodePieces], ?_⟩
            simp only [overlong, List.length_append, List.length_cons, List.length_nil]
            rw [decide_eq_false (by omega), Bool.false_or]
      | none =>
          simp only [hsplit] at h
          cases hrest : rest.cutLine with
          | closed => simp [hrest] at h
          | interrupted t s => simp [hrest] at h
          | line ps q =>
              simp only [hrest, LineCut.line.injEq] at h
              obtain ⟨rfl, rfl⟩ := h
              by_cases hlong : byteLen buf + (b :: bs).length > maxLen
              · right
                simp only [if_pos hlong]
                have hskip := skipLine_spec buf rest
                simp only [hrest] at hskip
                refine ⟨⟨buf, hskip⟩, ?_⟩
                rw [overlong, decide_eq_true hlong, Bool.true_or]
              · simp only [if_neg hlong]
                have hstep : overlong maxLen (byteLen buf) ((b :: bs) :: ps) =
                    overlong maxLen (byteLen (buf ++ fromUtf8Lossy (b :: bs))) ps := by
                  rw [overlong, decide_eq_false hlong, Bool.false_or, byteLen_append]
                rw [hstep]
                have hdecode : buf ++ decodePieces ((b :: bs) :: ps) =
                    buf ++ fromUtf8Lossy (b :: bs) ++ decodePieces ps := by
                  simp [decodePieces]
                rw [hdecode]
                exact ih _ hrest

/-- Where the stream closes before a line feed, no line is read and nothing is left. -/
theorem readLineLoop_of_closed (maxLen : Nat) (buf : Str) {s : Stream} (h : s.cutLine = .closed) :
    ∃ result buf', result ≠ .ok ∧
      readLineLoop maxLen buf s = ⟨.ready result, buf', ⟨[], .eof⟩⟩ ∧
      (result ≠ .eof → 0 < s.weight) := by
  induction s generalizing buf with
  | eof => exact ⟨.eof, buf, by simp, rfl, by simp⟩
  | reset e => exact ⟨.err e, buf, by simp, rfl, by simp [Stream.weight]⟩
  | timeout t rest => simp [Stream.cutLine] at h
  | data b bs rest ih =>
      rw [Stream.cutLine] at h
      rw [readLineLoop]
      cases hsplit : splitOnce lf (b :: bs) with
      | some p => simp [hsplit] at h
      | none =>
          simp only [hsplit] at h
          cases hrest : rest.cutLine with
          | line ps q => simp [hrest] at h
          | interrupted t s => simp [hrest] at h
          | closed =>
              have hpos : 0 < (Stream.data b bs rest).weight := by
                simp only [Stream.weight]
                omega
              by_cases hlong : byteLen buf + (b :: bs).length > maxLen
              · have hskip := skipLine_spec buf rest
                simp only [hrest] at hskip
                simp only [if_pos hlong]
                exact ⟨.tooLong, buf, by simp, hskip, fun _ => hpos⟩
              · simp only [if_neg hlong]
                obtain ⟨result, buf', hne, hread, -⟩ := ih (buf ++ fromUtf8Lossy (b :: bs)) hrest
                exact ⟨result, buf', hne, hread, fun _ => hpos⟩

/-- A timer that fires before the line feed ends the read, and the bytes read so far are lost. -/
theorem readLineLoop_of_interrupted (maxLen : Nat) (buf : Str) {s rest : Stream} {t : Timer}
    (h : s.cutLine = .interrupted t rest) :
    ∃ buf', readLineLoop maxLen buf s = ⟨.elapsed t, buf', ⟨[], rest⟩⟩ := by
  induction s generalizing buf with
  | eof => simp [Stream.cutLine] at h
  | reset e => simp [Stream.cutLine] at h
  | timeout t' rest' =>
      simp only [Stream.cutLine, LineCut.interrupted.injEq] at h
      obtain ⟨rfl, rfl⟩ := h
      exact ⟨buf, rfl⟩
  | data b bs rest' ih =>
      rw [Stream.cutLine] at h
      rw [readLineLoop]
      cases hsplit : splitOnce lf (b :: bs) with
      | some p => simp [hsplit] at h
      | none =>
          simp only [hsplit] at h
          cases hrest : rest'.cutLine with
          | line ps q => simp [hrest] at h
          | closed => simp [hrest] at h
          | interrupted t' s' =>
              simp only [hrest, LineCut.interrupted.injEq] at h
              obtain ⟨rfl, rfl⟩ := h
              by_cases hlong : byteLen buf + (b :: bs).length > maxLen
              · have hskip := skipLine_spec buf rest'
                simp only [hrest] at hskip
                simp only [if_pos hlong]
                exact ⟨buf, hskip⟩
              · simp only [if_neg hlong]
                exact ih _ hrest

/-- A read of a terminated line: it is consumed whole, and too long exactly when the length check
fails at one of its pieces. -/
theorem boundedReadLine_of_line {r rest : Reader} {pieces : List Bytes} (maxLen : Nat)
    (h : r.toStream.cutLine = .line pieces rest) :
    boundedReadLine maxLen r = ⟨.ready .ok, decodePieces pieces, rest⟩ ∧
        overlong maxLen 0 pieces = false ∨
      (∃ buf, boundedReadLine maxLen r = ⟨.ready .tooLong, buf, rest⟩) ∧
        overlong maxLen 0 pieces = true := by
  have hread := readLineLoop_of_line maxLen [] h
  simpa only [List.nil_append, byteLen_nil, boundedReadLine] using hread

/-- A read of a stream that closes before a line feed reads no line and leaves nothing. -/
theorem boundedReadLine_of_closed {r : Reader} (maxLen : Nat) (h : r.toStream.cutLine = .closed) :
    ∃ result buf, result ≠ .ok ∧
      boundedReadLine maxLen r = ⟨.ready result, buf, ⟨[], .eof⟩⟩ ∧
      (result ≠ .eof → 0 < r.weight) := by
  obtain ⟨result, buf, hne, hread, hpos⟩ := readLineLoop_of_closed maxLen [] h
  exact ⟨result, buf, hne, hread, by simpa using hpos⟩

/-- A read that a timer interrupts loses what it has read of the line. -/
theorem boundedReadLine_of_interrupted {r : Reader} {rest : Stream} {t : Timer} (maxLen : Nat)
    (h : r.toStream.cutLine = .interrupted t rest) :
    ∃ buf, boundedReadLine maxLen r = ⟨.elapsed t, buf, ⟨[], rest⟩⟩ :=
  readLineLoop_of_interrupted maxLen [] h

/-- A read only moves forward in the bytes the connection delivers. -/
theorem boundedReadLine_bytes (maxLen : Nat) (r : Reader) :
    (boundedReadLine maxLen r).reader.bytes <:+ r.bytes := by
  rw [← Reader.toStream_bytes r]
  cases hcut : r.toStream.cutLine with
  | line pieces rest =>
      obtain ⟨hbytes, -, -⟩ := Stream.cutLine_line hcut
      have hsuffix : rest.bytes <:+ r.toStream.bytes := ⟨pieces.flatten, hbytes.symm⟩
      rcases boundedReadLine_of_line maxLen hcut with ⟨hread, -⟩ | ⟨⟨buf, hread⟩, -⟩
      · rw [hread]
        exact hsuffix
      · rw [hread]
        exact hsuffix
  | closed =>
      obtain ⟨result, buf, -, hread, -⟩ := boundedReadLine_of_closed maxLen hcut
      rw [hread]
      exact List.nil_suffix
  | interrupted t rest =>
      obtain ⟨buf, hread⟩ := boundedReadLine_of_interrupted maxLen hcut
      obtain ⟨⟨pre, -, hbytes⟩, -⟩ := Stream.cutLine_interrupted hcut
      rw [hread]
      exact ⟨pre, hbytes.symm⟩

/-- Every read that is not an end of file consumes something. -/
theorem boundedReadLine_weight (maxLen : Nat) (r : Reader)
    (h : (boundedReadLine maxLen r).outcome ≠ .ready .eof) :
    (boundedReadLine maxLen r).reader.weight < r.weight := by
  cases hcut : r.toStream.cutLine with
  | line pieces rest =>
      obtain ⟨-, -, hweight⟩ := Stream.cutLine_line hcut
      rw [Reader.toStream_weight] at hweight
      rcases boundedReadLine_of_line maxLen hcut with ⟨hread, -⟩ | ⟨⟨buf, hread⟩, -⟩
      · rw [hread]
        exact hweight
      · rw [hread]
        exact hweight
  | closed =>
      obtain ⟨result, buf, -, hread, hpos⟩ := boundedReadLine_of_closed maxLen hcut
      rw [hread] at h ⊢
      exact hpos fun heof => h (by rw [heof])
  | interrupted t rest =>
      obtain ⟨buf, hread⟩ := boundedReadLine_of_interrupted maxLen hcut
      have hweight := (Stream.cutLine_interrupted hcut).2
      rw [Reader.toStream_weight] at hweight
      rw [hread]
      simpa [Reader.weight] using hweight

/-! ## The last bytes of a line -/

/-- An ASCII byte at the end of a line is decoded as a character of its own, whatever piece of the
line it arrives in. -/
theorem decodePieces_concat {pieces : List Bytes} {body : Bytes} {b : UInt8} (hb : b < 0x80)
    (h : pieces.flatten = body ++ [b]) :
    ∃ init : List Bytes, init.flatten = body ∧
      decodePieces pieces = decodePieces init ++ [asciiChar b] := by
  induction pieces using List.reverseRecOn generalizing body with
  | nil => simp at h
  | append_singleton front last ih =>
      rw [List.flatten_concat] at h
      rcases List.eq_nil_or_concat last with rfl | ⟨last', b', rfl⟩
      · rw [List.append_nil] at h
        obtain ⟨init, hinit, hdecode⟩ := ih h
        refine ⟨init, hinit, ?_⟩
        rw [← hdecode]
        simp [decodePieces]
      · rw [List.concat_eq_append, ← List.append_assoc] at h
        obtain ⟨hbody, hlast⟩ := List.append_inj' h rfl
        simp only [List.cons.injEq, and_true] at hlast
        subst hlast
        refine ⟨front ++ [last'], by rw [List.flatten_concat, hbody], ?_⟩
        simp [decodePieces, fromUtf8Lossy_concat_ascii hb]

/-- A line that ends in CRLF ends in CRLF as text. -/
theorem decodePieces_crlf {pieces : List Bytes} {body : Bytes}
    (h : pieces.flatten = body ++ [cr, lf]) :
    ∃ text, decodePieces pieces = text ++ ['\r', '\n'] := by
  have hlf : pieces.flatten = body ++ [cr] ++ [lf] := by simp [h]
  obtain ⟨init, hinit, hdecode⟩ := decodePieces_concat (by decide) hlf
  obtain ⟨init', -, hdecode'⟩ := decodePieces_concat (b := cr) (by decide) hinit
  refine ⟨decodePieces init', ?_⟩
  rw [hdecode, hdecode', List.append_assoc]
  rfl

/-- A line of ASCII bytes has one text, whatever its pieces. -/
theorem decodePieces_ascii {pieces : List Bytes} (h : ∀ b ∈ pieces.flatten, b < 0x80) :
    decodePieces pieces = pieces.flatten.map asciiChar := by
  induction pieces with
  | nil => rfl
  | cons piece pieces ih =>
      rw [List.flatten_cons] at h
      have hpiece : ∀ b ∈ piece, b < 0x80 := fun b hb => h b (List.mem_append_left _ hb)
      have hrest := ih fun b hb => h b (List.mem_append_right _ hb)
      rw [List.flatten_cons, List.map_append, ← hrest, ← fromUtf8Lossy_ascii hpiece]
      rfl

/-- A short line of ASCII bytes passes the length check, whatever its pieces. -/
theorem overlong_ascii {maxLen n : Nat} {pieces : List Bytes} (h : ∀ b ∈ pieces.flatten, b < 0x80)
    (hlen : n + pieces.flatten.length ≤ maxLen) : overlong maxLen n pieces = false := by
  induction pieces generalizing n with
  | nil => rfl
  | cons piece pieces ih =>
      rw [List.flatten_cons] at h hlen
      rw [List.length_append] at hlen
      have hpiece : ∀ b ∈ piece, b < 0x80 := fun b hb => h b (List.mem_append_left _ hb)
      have hsize : byteLen (fromUtf8Lossy piece) = piece.length := by
        rw [fromUtf8Lossy_ascii hpiece, byteLen_map_asciiChar hpiece]
      rw [overlong, decide_eq_false (by omega), Bool.false_or, hsize]
      exact ih (fun b hb => h b (List.mem_append_right _ hb)) (by omega)

end Smtp
end Aimx
