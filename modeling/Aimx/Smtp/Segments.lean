import Aimx.Smtp.Transaction
import Aimx.Smtp.Transfer
import Aimx.Text.Lossy

/-!
# A connection in other segments

The reader decodes each chunk on its own, and its length limit adds decoded to raw lengths.  So what a
session reads may depend on how the network cuts the stream into chunks.

* `readLines` — the results of all reads of a connection;
* `LineSteady`, `TailSteady` — the lines for which the cuts make no difference;
* `readLines_iff` — the results are the same for all cuts exactly for these;
* `segmentation_iff` — and then the session does the same.
-/

namespace Aimx
namespace Smtp

open Text

/-! ## All reads of a connection -/

/-- The results of repeated calls of `bounded_read_line`, each with the line that was read. -/
def readLines (maxLen : Nat) (r : Reader) : List (ReadOutcome × Str) :=
  match _h : (boundedReadLine maxLen r).outcome with
  | .ready .ok => (.ready .ok, (boundedReadLine maxLen r).buf) ::
      readLines maxLen (boundedReadLine maxLen r).reader
  | .ready .tooLong => (.ready .tooLong, []) :: readLines maxLen (boundedReadLine maxLen r).reader
  | outcome => [(outcome, [])]
termination_by r.weight
decreasing_by all_goals exact boundedReadLine_weight maxLen r (by simp [_h])

/-- The lines of a byte string with their line feeds, and what follows the last one. -/
def byteLines : Bytes → List Bytes × Bytes
  | [] => ([], [])
  | b :: bs =>
      if b = lf then ([lf] :: (byteLines bs).1, (byteLines bs).2)
      else
        match (byteLines bs).1 with
        | [] => ([], b :: (byteLines bs).2)
        | line :: lines => ((b :: line) :: lines, (byteLines bs).2)

/-- The cuts make no difference to a line: it is too long as it is, or each of its bytes is decoded on
its own and the decoded line is not too long. -/
def LineSteady (maxLen : Nat) (line : Bytes) : Prop :=
  maxLen < line.length ∨
    (fromUtf8Lossy line).length = line.length ∧ byteLen (fromUtf8Lossy line) ≤ maxLen

/-- The cuts make no difference to what follows the last line: it is too long as it is, or it is not too
long when all but the last of its bytes are decoded each on its own. -/
def TailSteady (maxLen : Nat) (tail : Bytes) : Prop :=
  ∀ init b, tail = init ++ [b] → maxLen < tail.length ∨ spread init + 1 ≤ maxLen

/-- The cuts make no difference to a byte string. -/
structure Steady (maxLen : Nat) (bytes : Bytes) : Prop where
  lines : ∀ line ∈ (byteLines bytes).1, LineSteady maxLen line
  tail : TailSteady maxLen (byteLines bytes).2

/-! ## Lines of a byte string -/

theorem byteLines_line {body : Bytes} (more : Bytes) (h : lf ∉ body) :
    byteLines (body ++ lf :: more) = ((body ++ [lf]) :: (byteLines more).1, (byteLines more).2) := by
  induction body with
  | nil => rfl
  | cons b body ih =>
      have hb : b ≠ lf := fun heq => h (heq ▸ List.mem_cons_self)
      rw [List.cons_append, byteLines, if_neg hb, ih fun hmem => h (List.mem_cons_of_mem _ hmem)]
      rfl

theorem byteLines_tail {tail : Bytes} (h : lf ∉ tail) : byteLines tail = ([], tail) := by
  induction tail with
  | nil => rfl
  | cons b tail ih =>
      have hb : b ≠ lf := fun heq => h (heq ▸ List.mem_cons_self)
      rw [byteLines, if_neg hb, ih fun hmem => h (List.mem_cons_of_mem _ hmem)]

/-- The first line decides with the rest. -/
theorem steady_line_iff {maxLen : Nat} {body more : Bytes} (h : lf ∉ body) :
    Steady maxLen (body ++ lf :: more) ↔ LineSteady maxLen (body ++ [lf]) ∧ Steady maxLen more := by
  constructor
  · rintro ⟨hlines, htail⟩
    rw [byteLines_line more h] at hlines htail
    exact ⟨hlines _ List.mem_cons_self, fun line hline => hlines line (List.mem_cons_of_mem _ hline), htail⟩
  · rintro ⟨hline, hlines, htail⟩
    constructor
    · rw [byteLines_line more h]
      intro line hmem
      rcases List.mem_cons.mp hmem with rfl | hmem
      · exact hline
      · exact hlines line hmem
    · rw [byteLines_line more h]
      exact htail

theorem steady_tail_iff {maxLen : Nat} {tail : Bytes} (h : lf ∉ tail) :
    Steady maxLen tail ↔ TailSteady maxLen tail := by
  constructor
  · rintro ⟨-, htail⟩
    rwa [byteLines_tail h] at htail
  · intro htail
    constructor
    · rw [byteLines_tail h]
      simp
    · rwa [byteLines_tail h]

/-! ## The length check -/

/-- What is too long as it is, is too long in all pieces. -/
theorem overlong_of_length {maxLen raw n : Nat} {pieces : List Bytes} (hraw : raw ≤ n)
    (hle : raw ≤ maxLen) (hlong : maxLen < raw + pieces.flatten.length) :
    overlong maxLen n pieces = true := by
  induction pieces generalizing raw n with
  | nil =>
      simp only [List.flatten_nil, List.length_nil] at hlong
      omega
  | cons piece pieces ih =>
      rw [List.flatten_cons, List.length_append] at hlong
      rw [overlong, Bool.or_eq_true, decide_eq_true_eq]
      by_cases hpiece : n + piece.length > maxLen
      · exact Or.inl hpiece
      · have hgrow := length_le_byteLen_fromUtf8Lossy piece
        exact Or.inr (ih (show raw + piece.length ≤ n + byteLen (fromUtf8Lossy piece) by omega) (by omega)
          (by omega))

/-- What is short when all but its last byte are decoded on their own is short in all pieces. -/
theorem overlong_of_spread {maxLen n : Nat} {pieces : List Bytes} {init : Bytes} {b : UInt8}
    (hne : ∀ piece ∈ pieces, piece ≠ []) (h : pieces.flatten = init ++ [b])
    (hshort : n + spread init + 1 ≤ maxLen) : overlong maxLen n pieces = false := by
  induction pieces generalizing n init with
  | nil => simp at h
  | cons piece pieces ih =>
      have hrest : ∀ piece ∈ pieces, piece ≠ [] := fun p hp => hne p (List.mem_cons_of_mem _ hp)
      rw [List.flatten_cons] at h
      rw [overlong]
      rcases List.eq_nil_or_concat pieces.flatten with hnil | ⟨init', b', hlast⟩
      · -- the last piece
        have hpieces : pieces = [] := by
          cases pieces with
          | nil => rfl
          | cons p ps =>
              rw [List.flatten_cons, List.append_eq_nil_iff] at hnil
              exact absurd hnil.1 (hrest p List.mem_cons_self)
        rw [hnil, List.append_nil] at h
        have hlen := length_le_spread init
        rw [hpieces, overlong, Bool.or_false, h, List.length_append, List.length_singleton]
        exact decide_eq_false (by omega)
      · rw [List.concat_eq_append] at hlast
        rw [hlast, ← List.append_assoc] at h
        obtain ⟨rfl, hb⟩ := List.append_inj' h rfl
        rw [spread_append] at hshort
        have hlen := length_le_spread piece
        have hdecoded := byteLen_fromUtf8Lossy_le piece
        have hnot : ¬n + piece.length > maxLen := by omega
        rw [decide_eq_false hnot, Bool.false_or]
        exact ih hrest (by rw [hlast, hb]) (by omega)

/-- The pieces of one byte each. -/
def bytewise (l : Bytes) : List Bytes := l.map fun b => [b]

theorem flatten_bytewise (l : Bytes) : (bytewise l).flatten = l := by
  induction l with
  | nil => rfl
  | cons b l ih => rw [bytewise, List.map_cons, List.flatten_cons, ← bytewise, ih, List.singleton_append]

theorem decodePieces_bytewise (l : Bytes) : decodePieces (bytewise l) = l.map alone := by
  induction l with
  | nil => rfl
  | cons b l ih =>
      rw [decodePieces, bytewise, List.map_cons, List.flatMap_cons, fromUtf8Lossy_singleton, ← bytewise,
        ← decodePieces, ih]
      rfl

/-- Byte by byte the length check adds the lengths of the bytes decoded on their own. -/
theorem spread_of_not_overlong {maxLen n : Nat} {init : Bytes} {b : UInt8}
    (h : overlong maxLen n (bytewise (init ++ [b])) = false) : n + spread init + 1 ≤ maxLen := by
  induction init generalizing n with
  | nil =>
      rw [bytewise, List.nil_append, List.map_cons, overlong, Bool.or_eq_false_iff] at h
      have hshort := of_decide_eq_false h.1
      simp only [List.length_singleton] at hshort
      show n + 0 + 1 ≤ maxLen
      omega
  | cons x init ih =>
      rw [bytewise, List.cons_append, List.map_cons, overlong, Bool.or_eq_false_iff, ← bytewise,
        fromUtf8Lossy_singleton, byteLen_alone] at h
      have hrest := ih h.2
      rw [spread_cons]
      omega

/-! ## One read -/

/-- The result of reading a line in pieces. -/
def lineResult (maxLen : Nat) (pieces : List Bytes) : ReadOutcome × Str :=
  if overlong maxLen 0 pieces then (.ready .tooLong, []) else (.ready .ok, decodePieces pieces)

/-- The results of reading what follows the last line. -/
def tailResults (maxLen : Nat) (pieces : List Bytes) : List (ReadOutcome × Str) :=
  if overlong maxLen 0 pieces then [(.ready .tooLong, []), (.ready .eof, [])] else [(.ready .eof, [])]

theorem boundedReadLine_congr {maxLen : Nat} {r r' : Reader} (h : r.toStream = r'.toStream) :
    boundedReadLine maxLen r = boundedReadLine maxLen r' := by
  unfold boundedReadLine
  rw [h]

theorem readLines_congr {maxLen : Nat} {r r' : Reader} (h : r.toStream = r'.toStream) :
    readLines maxLen r = readLines maxLen r' := by
  rw [readLines.eq_def maxLen r, readLines.eq_def maxLen r', boundedReadLine_congr h]

theorem readLines_ok {maxLen : Nat} {r : Reader} {read : LineRead} (h : boundedReadLine maxLen r = read)
    (hok : read.outcome = .ready .ok) :
    readLines maxLen r = (.ready .ok, read.buf) :: readLines maxLen read.reader := by
  subst h
  rw [readLines]
  split <;> simp_all

theorem readLines_tooLong {maxLen : Nat} {r : Reader} {read : LineRead}
    (h : boundedReadLine maxLen r = read) (hlong : read.outcome = .ready .tooLong) :
    readLines maxLen r = (.ready .tooLong, []) :: readLines maxLen read.reader := by
  subst h
  rw [readLines]
  split <;> simp_all

theorem readLines_eof {maxLen : Nat} {r : Reader} (h : (boundedReadLine maxLen r).outcome = .ready .eof) :
    readLines maxLen r = [(.ready .eof, [])] := by
  rw [readLines]
  split <;> simp_all

theorem readLines_line {maxLen : Nat} {r rest : Reader} {pieces : List Bytes}
    (h : r.toStream.cutLine = .line pieces rest) :
    readLines maxLen r = lineResult maxLen pieces :: readLines maxLen rest := by
  unfold lineResult
  rcases boundedReadLine_of_line maxLen h with ⟨hread, hover⟩ | ⟨⟨buf, hread⟩, hover⟩
  · rw [readLines_ok hread rfl, hover, if_neg Bool.false_ne_true]
  · rw [readLines_tooLong hread rfl, hover, if_pos rfl]

/-- The pieces of a line are not empty. -/
theorem cutLine_ne_nil {s : Stream} {pieces : List Bytes} {rest : Reader}
    (h : s.cutLine = .line pieces rest) : ∀ piece ∈ pieces, piece ≠ [] := by
  induction s generalizing pieces rest with
  | eof => cases h
  | reset e => cases h
  | timeout t s => cases h
  | data b bs s ih =>
      rw [Stream.cutLine] at h
      cases hsplit : splitOnce lf (b :: bs) with
      | some p =>
          simp only [hsplit, LineCut.line.injEq] at h
          rw [← h.1]
          simp
      | none =>
          simp only [hsplit] at h
          cases hrest : s.cutLine with
          | closed => simp [hrest] at h
          | interrupted t s' => simp [hrest] at h
          | line ps q =>
              simp only [hrest, LineCut.line.injEq] at h
              rw [← h.1]
              intro piece hmem
              rcases List.mem_cons.mp hmem with rfl | hmem
              · exact List.cons_ne_nil _ _
              · exact ih hrest piece hmem

/-- A line that arrives in given pieces. -/
theorem cutLine_pieces (tail : Stream) {front : List Bytes} {last : Bytes} (chunks : List Bytes)
    (hfront : ∀ piece ∈ front, piece ≠ [] ∧ lf ∉ piece) (hlast : lf ∉ last) :
    (Stream.ofChunks tail (front ++ (last ++ [lf]) :: chunks)).cutLine =
      .line (front ++ [last ++ [lf]]) ⟨[], Stream.ofChunks tail chunks⟩ := by
  induction front with
  | nil =>
      have hsplit : splitOnce lf (last ++ [lf]) = some (last, []) :=
        splitOnce_eq_some_iff.mpr ⟨rfl, hlast⟩
      cases hchunk : last ++ [lf] with
      | nil => simp at hchunk
      | cons b bs =>
          rw [hchunk] at hsplit
          rw [List.nil_append, Stream.ofChunks, Stream.cutLine, hsplit]
          dsimp only
          rw [← hchunk, List.nil_append]
  | cons piece front ih =>
      obtain ⟨hne, hnot⟩ := hfront piece List.mem_cons_self
      have hrest := ih fun p hp => hfront p (List.mem_cons_of_mem _ hp)
      cases piece with
      | nil => exact absurd rfl hne
      | cons b bs =>
          rw [List.cons_append, Stream.ofChunks, Stream.cutLine, splitOnce_eq_none_iff.mpr hnot]
          dsimp only
          rw [hrest]
          rfl

theorem cutLine_eq_closed {chunks : List Bytes} (h : lf ∉ chunks.flatten) :
    (Stream.ofChunks .eof chunks).cutLine = .closed := by
  induction chunks with
  | nil => rfl
  | cons chunk chunks ih =>
      rw [List.flatten_cons, List.mem_append, not_or] at h
      cases chunk with
      | nil => exact ih h.2
      | cons b bs =>
          rw [Stream.ofChunks, Stream.cutLine, splitOnce_eq_none_iff.mpr h.1]
          dsimp only
          rw [ih h.2]

/-- What follows the last line is read to the end of the stream. -/
theorem readLineLoop_tail {maxLen : Nat} {chunks : List Bytes} (buf : Str) (h : lf ∉ chunks.flatten) :
    (readLineLoop maxLen buf (Stream.ofChunks .eof chunks)).outcome =
        (if overlong maxLen (byteLen buf) (chunks.filter fun chunk => !chunk.isEmpty) then
          .ready .tooLong else .ready .eof) ∧
      (readLineLoop maxLen buf (Stream.ofChunks .eof chunks)).reader = ⟨[], .eof⟩ := by
  induction chunks generalizing buf with
  | nil => exact ⟨rfl, rfl⟩
  | cons chunk chunks ih =>
      rw [List.flatten_cons, List.mem_append, not_or] at h
      cases chunk with
      | nil => exact ih buf h.2
      | cons b bs =>
          rw [Stream.ofChunks, readLineLoop, splitOnce_eq_none_iff.mpr h.1]
          dsimp only
          rw [List.filter_cons_of_pos (by simp), overlong]
          by_cases hlong : byteLen buf + (b :: bs).length > maxLen
          · -- the rest is skipped
            have hskip := skipLine_spec buf (Stream.ofChunks .eof chunks)
            rw [cutLine_eq_closed h.2] at hskip
            dsimp only at hskip
            rw [if_pos hlong, hskip, decide_eq_true hlong, Bool.true_or]
            exact ⟨rfl, rfl⟩
          · rw [if_neg hlong, decide_eq_false hlong, Bool.false_or, ← byteLen_append]
            exact ih _ h.2

theorem readLines_tail {maxLen : Nat} {r : Reader} {chunks : List Bytes}
    (hr : r.toStream = Stream.ofChunks .eof chunks) (h : lf ∉ chunks.flatten) :
    readLines maxLen r = tailResults maxLen (chunks.filter fun chunk => !chunk.isEmpty) := by
  obtain ⟨houtcome, hreader⟩ := @readLineLoop_tail maxLen chunks [] h
  rw [← hr] at houtcome hreader
  change (boundedReadLine maxLen r).outcome = _ at houtcome
  change (boundedReadLine maxLen r).reader = _ at hreader
  rw [byteLen_nil] at houtcome
  unfold tailResults
  split at houtcome
  next hover =>
      have hend : readLines maxLen ⟨[], .eof⟩ = [(.ready .eof, [])] := readLines_eof rfl
      rw [if_pos hover, readLines_tooLong rfl houtcome, hreader, hend]
  next hover => rw [if_neg hover, readLines_eof houtcome]

/-! ## Lines for which the cuts make no difference -/

/-- What is decoded byte by byte is as long as its spread. -/
theorem byteLen_of_alone {line : Bytes} (h : (fromUtf8Lossy line).length = line.length) :
    byteLen (fromUtf8Lossy line) = spread line := by
  rw [(fromUtf8Lossy_eq_alone_iff line).mp h, byteLen_map_alone]

theorem spread_concat_lf (body : Bytes) : spread (body ++ [lf]) = spread body + 1 := by
  rw [spread_append]
  rfl

/-- A steady line gives one result, whatever its pieces. -/
theorem lineResult_of_steady {maxLen : Nat} {body : Bytes} {pieces : List Bytes}
    (h : LineSteady maxLen (body ++ [lf])) (hne : ∀ piece ∈ pieces, piece ≠ [])
    (hflat : pieces.flatten = body ++ [lf]) :
    lineResult maxLen pieces =
      if maxLen < (body ++ [lf]).length then (.ready .tooLong, [])
      else (.ready .ok, (body ++ [lf]).map alone) := by
  unfold lineResult
  by_cases hlong : maxLen < (body ++ [lf]).length
  · have hover : overlong maxLen 0 pieces = true :=
      overlong_of_length (Nat.le_refl 0) (Nat.zero_le _) (by rw [hflat, Nat.zero_add]; exact hlong)
    rw [if_pos hlong, if_pos hover]
  · obtain ⟨halone, hshort⟩ := h.resolve_left hlong
    rw [byteLen_of_alone halone, spread_concat_lf] at hshort
    have hover : overlong maxLen 0 pieces = false := overlong_of_spread hne hflat (by omega)
    have htext : decodePieces pieces = (body ++ [lf]).map alone := by
      rw [decodePieces, decode_flatMap (by rw [hflat]; exact halone), hflat]
    rw [if_neg hlong, hover, if_neg Bool.false_ne_true, htext]

/-- A steady tail is too long, or not, whatever its pieces. -/
theorem overlong_of_tailSteady {maxLen : Nat} {pieces : List Bytes}
    (h : TailSteady maxLen pieces.flatten) (hne : ∀ piece ∈ pieces, piece ≠ []) :
    overlong maxLen 0 pieces = decide (maxLen < pieces.flatten.length) := by
  by_cases hlong : maxLen < pieces.flatten.length
  · rw [decide_eq_true hlong]
    exact overlong_of_length (Nat.le_refl 0) (Nat.zero_le _) (by omega)
  · rw [decide_eq_false hlong]
    rcases List.eq_nil_or_concat pieces.flatten with hnil | ⟨init, b, hlast⟩
    · cases pieces with
      | nil => rfl
      | cons piece pieces =>
          rw [List.flatten_cons, List.append_eq_nil_iff] at hnil
          exact absurd hnil.1 (hne piece List.mem_cons_self)
    · rw [List.concat_eq_append] at hlast
      have hshort := (h init b hlast).resolve_left hlong
      exact overlong_of_spread hne hlast (by omega)

/-- Two ways of cutting a line give one result only if it is steady: all of it, and byte by byte. -/
theorem lineSteady_of_same {maxLen : Nat} {body : Bytes}
    (h : lineResult maxLen [body ++ [lf]] = lineResult maxLen (bytewise (body ++ [lf]))) :
    LineSteady maxLen (body ++ [lf]) := by
  by_cases hlong : maxLen < (body ++ [lf]).length
  · exact Or.inl hlong
  right
  have hwhole : overlong maxLen 0 [body ++ [lf]] = false := by
    rw [overlong, overlong, Bool.or_false]
    exact decide_eq_false (by omega)
  unfold lineResult at h
  rw [hwhole, if_neg Bool.false_ne_true] at h
  cases hover : overlong maxLen 0 (bytewise (body ++ [lf])) with
  | true =>
      rw [hover, if_pos rfl, Prod.mk.injEq] at h
      exact absurd h.1 (by simp)
  | false =>
      rw [hover, if_neg Bool.false_ne_true, Prod.mk.injEq, decodePieces_bytewise] at h
      have htext : fromUtf8Lossy (body ++ [lf]) = (body ++ [lf]).map alone := by
        simpa [decodePieces] using h.2
      have hshort := spread_of_not_overlong hover
      rw [htext, List.length_map, byteLen_map_alone, spread_concat_lf]
      exact ⟨rfl, by omega⟩

theorem tailSteady_of_same {maxLen : Nat} {tail : Bytes} (hne : tail ≠ [])
    (h : tailResults maxLen [tail] = tailResults maxLen (bytewise tail)) : TailSteady maxLen tail := by
  rintro init b rfl
  by_cases hlong : maxLen < (init ++ [b]).length
  · exact Or.inl hlong
  right
  have hwhole : overlong maxLen 0 [init ++ [b]] = false := by
    rw [overlong, overlong, Bool.or_false]
    exact decide_eq_false (by omega)
  unfold tailResults at h
  rw [hwhole, if_neg Bool.false_ne_true] at h
  cases hover : overlong maxLen 0 (bytewise (init ++ [b])) with
  | true =>
      rw [hover, if_pos rfl] at h
      cases h
  | false =>
      have hshort := spread_of_not_overlong hover
      omega

/-! ## All reads -/

/-- A connection that delivers these chunks and is closed. -/
def connection (chunks : List Bytes) : Reader := ⟨[], .ofChunks .eof chunks⟩

theorem toStream_connection (chunks : List Bytes) :
    (connection chunks).toStream = Stream.ofChunks .eof chunks := rfl

theorem filter_ne_nil {chunks : List Bytes} :
    ∀ piece ∈ chunks.filter (fun chunk => !chunk.isEmpty), piece ≠ [] := by
  intro piece hmem
  have hsome := (List.mem_filter.mp hmem).2
  rintro rfl
  cases hsome

theorem flatten_filter (chunks : List Bytes) :
    (chunks.filter fun chunk => !chunk.isEmpty).flatten = chunks.flatten := by
  induction chunks with
  | nil => rfl
  | cons chunk chunks ih =>
      cases chunk with
      | nil => exact ih
      | cons b bs =>
          rw [List.filter_cons_of_pos (by simp), List.flatten_cons, List.flatten_cons, ih]

theorem filter_bytewise (l : Bytes) : (bytewise l).filter (fun chunk => !chunk.isEmpty) = bytewise l := by
  refine List.filter_eq_self.mpr ?_
  intro piece hmem
  obtain ⟨b, -, rfl⟩ := List.mem_map.mp hmem
  rfl

/-- The reads of a steady byte string, however it is cut. -/
theorem readLines_of_steady {maxLen : Nat} {chunks chunks' : List Bytes}
    (hflat : chunks.flatten = chunks'.flatten) (h : Steady maxLen chunks.flatten) :
    readLines maxLen (connection chunks) = readLines maxLen (connection chunks') := by
  induction hn : chunks.flatten.length using Nat.strong_induction_on generalizing chunks chunks' with
  | _ n ih =>
      subst hn
      cases hsplit : splitOnce lf chunks.flatten with
      | none =>
          have hnot := splitOnce_eq_none_iff.mp hsplit
          rw [steady_tail_iff hnot] at h
          rw [readLines_tail (toStream_connection chunks) hnot,
            readLines_tail (toStream_connection chunks') (hflat ▸ hnot)]
          unfold tailResults
          rw [overlong_of_tailSteady (by rwa [flatten_filter]) filter_ne_nil,
            overlong_of_tailSteady (by rwa [flatten_filter, ← hflat]) filter_ne_nil, flatten_filter,
            flatten_filter, hflat]
      | some p =>
          obtain ⟨body, more⟩ := p
          obtain ⟨hbytes, hbody⟩ := splitOnce_eq_some_iff.mp hsplit
          rw [hbytes, steady_line_iff hbody] at h
          obtain ⟨pieces, rest, next, hcut, hpieces, hrest, hnext⟩ :=
            cutLine_ofChunks .eof hbody hbytes
          obtain ⟨pieces', rest', next', hcut', hpieces', hrest', hnext'⟩ :=
            cutLine_ofChunks .eof hbody (hflat ▸ hbytes)
          have hlt : next.flatten.length < chunks.flatten.length := by
            rw [hnext, hbytes]
            simp only [List.length_append, List.length_cons]
            omega
          rw [readLines_line (r := connection chunks) hcut, readLines_line (r := connection chunks') hcut',
            lineResult_of_steady h.1 (cutLine_ne_nil hcut) hpieces,
            lineResult_of_steady h.1 (cutLine_ne_nil hcut') hpieces',
            readLines_congr (hrest.trans (toStream_connection next).symm),
            readLines_congr (hrest'.trans (toStream_connection next').symm)]
          rw [ih _ hlt (hnext.trans hnext'.symm) (hnext.symm ▸ h.2) rfl]

/-- The first line in given pieces, and then the rest. -/
theorem readLines_pieces {maxLen : Nat} {front : List Bytes} {last : Bytes} (chunks : List Bytes)
    (hfront : ∀ piece ∈ front, piece ≠ [] ∧ lf ∉ piece) (hlast : lf ∉ last) :
    readLines maxLen (connection (front ++ (last ++ [lf]) :: chunks)) =
      lineResult maxLen (front ++ [last ++ [lf]]) :: readLines maxLen (connection chunks) :=
  readLines_line (cutLine_pieces .eof chunks hfront hlast)

/-- **The results of all reads** do not depend on the cuts exactly for a steady byte string. -/
theorem readLines_iff (maxLen : Nat) (bytes : Bytes) :
    (∀ chunks chunks', chunks.flatten = bytes → chunks'.flatten = bytes →
        readLines maxLen (connection chunks) = readLines maxLen (connection chunks')) ↔
      Steady maxLen bytes := by
  refine ⟨?_, fun h chunks chunks' hflat hflat' =>
    readLines_of_steady (hflat.trans hflat'.symm) (hflat.symm ▸ h)⟩
  intro h
  induction hn : bytes.length using Nat.strong_induction_on generalizing bytes with
  | _ n ih =>
      subst hn
      cases hsplit : splitOnce lf bytes with
      | none =>
          have hnot := splitOnce_eq_none_iff.mp hsplit
          rw [steady_tail_iff hnot]
          by_cases hne : bytes = []
          · rintro init b heq
            simp [hne] at heq
          · have hsame := h [bytes] (bytewise bytes) (by simp) (flatten_bytewise bytes)
            rw [readLines_tail (toStream_connection _) (by simpa using hnot),
              readLines_tail (toStream_connection _) (by rwa [flatten_bytewise]),
              filter_bytewise, List.filter_cons_of_pos (by simpa using hne), List.filter_nil] at hsame
            exact tailSteady_of_same hne hsame
      | some p =>
          obtain ⟨body, more⟩ := p
          obtain ⟨rfl, hbody⟩ := splitOnce_eq_some_iff.mp hsplit
          rw [steady_line_iff hbody]
          have hbytewise : ∀ piece ∈ bytewise body, piece ≠ [] ∧ lf ∉ piece := by
            intro piece hmem
            obtain ⟨b, hb, rfl⟩ := List.mem_map.mp hmem
            refine ⟨List.cons_ne_nil _ _, fun hin => hbody ?_⟩
            rw [List.mem_singleton.mp hin]
            exact hb
          constructor
          · -- the line at once, and byte by byte
            have hsame := h ([] ++ (body ++ [lf]) :: [more]) (bytewise body ++ ([] ++ [lf]) :: [more])
              (by simp) (by simp [flatten_bytewise])
            rw [readLines_pieces [more] (by simp) hbody,
              readLines_pieces [more] hbytewise List.not_mem_nil, List.cons.injEq] at hsame
            refine lineSteady_of_same ?_
            have hpieces : bytewise (body ++ [lf]) = bytewise body ++ [[] ++ [lf]] := by
              simp [bytewise]
            rw [hpieces]
            exact hsame.1
          · refine ih more.length (by simp; omega) more ?_ rfl
            intro chunks chunks' hflat hflat'
            have hsame := h ([] ++ (body ++ [lf]) :: chunks) ([] ++ (body ++ [lf]) :: chunks')
              (by simp [hflat]) (by simp [hflat'])
            rw [readLines_pieces chunks (by simp) hbody, readLines_pieces chunks' (by simp) hbody,
              List.cons.injEq] at hsame
            exact hsame.2

/-! ## Sessions -/

/-- A length limit that a session reads with. -/
def SessionParams.Limit (p : SessionParams) (maxLen : Nat) : Prop :=
  maxLen = maxCommandLineLength ∨ maxLen = p.maxMessageSize + 1024

/-- Two readers deliver the same bytes, which are steady, and then the end of the stream. -/
def Reader.Alike (p : SessionParams) (r r' : Reader) : Prop :=
  ∃ chunks chunks', r.toStream = .ofChunks .eof chunks ∧ r'.toStream = .ofChunks .eof chunks' ∧
    chunks.flatten = chunks'.flatten ∧ ∀ maxLen, p.Limit maxLen → Steady maxLen chunks.flatten

/-- Two events are the same, but for the cuts of the stream that content is read from. -/
def Event.Alike : Event → Event → Prop
  | .data tls content, .data tls' content' => tls = tls' ∧ content.bytes = content'.bytes
  | e, e' => e = e'

theorem Event.Alike.refl (e : Event) : e.Alike e := by
  cases e <;> first | exact ⟨rfl, rfl⟩ | exact rfl

theorem alike_refl (trace : List Event) : List.Forall₂ Event.Alike trace trace :=
  List.forall₂_same.mpr fun e _ => Event.Alike.refl e

theorem steady_nil (maxLen : Nat) : Steady maxLen [] := by
  rw [steady_tail_iff List.not_mem_nil]
  rintro init b heq
  simp at heq

theorem lineRead_ext {read : LineRead} {outcome : ReadOutcome} {buf : Str} {reader : Reader}
    (houtcome : read.outcome = outcome) (hbuf : read.buf = buf) (hreader : read.reader = reader) :
    read = ⟨outcome, buf, reader⟩ := by
  subst houtcome hbuf hreader
  rfl

section Session

variable {p : SessionParams} {r r' : Reader}

theorem Reader.Alike.bytes (h : r.Alike p r') : r.bytes = r'.bytes := by
  obtain ⟨chunks, chunks', hr, hr', hflat, -⟩ := h
  rw [← Reader.toStream_bytes, ← Reader.toStream_bytes r', hr, hr', Stream.bytes_ofChunks,
    Stream.bytes_ofChunks, hflat]

theorem alike_done : Reader.Alike p ⟨[], .eof⟩ ⟨[], .eof⟩ :=
  ⟨[], [], rfl, rfl, rfl, fun maxLen _ => steady_nil maxLen⟩

/-- **One read** of two readers that are alike. -/
theorem boundedReadLine_alike {maxLen : Nat} (hlimit : p.Limit maxLen) (h : r.Alike p r') :
    (∃ text rest rest', boundedReadLine maxLen r = ⟨.ready .ok, text, rest⟩ ∧
        boundedReadLine maxLen r' = ⟨.ready .ok, text, rest'⟩ ∧ rest.Alike p rest') ∨
      ∃ result buf buf' rest rest', (result = .tooLong ∨ result = .eof) ∧
        boundedReadLine maxLen r = ⟨.ready result, buf, rest⟩ ∧
        boundedReadLine maxLen r' = ⟨.ready result, buf', rest'⟩ ∧ rest.Alike p rest' := by
  obtain ⟨chunks, chunks', hr, hr', hflat, hsteady⟩ := h
  cases hsplit : splitOnce lf chunks.flatten with
  | none =>
      have hnot := splitOnce_eq_none_iff.mp hsplit
      have htail := (steady_tail_iff hnot).mp (hsteady maxLen hlimit)
      have hread := @readLineLoop_tail maxLen chunks [] hnot
      have hread' := @readLineLoop_tail maxLen chunks' [] (hflat ▸ hnot)
      rw [← hr, byteLen_nil, overlong_of_tailSteady (by rwa [flatten_filter]) filter_ne_nil,
        flatten_filter] at hread
      rw [← hr', byteLen_nil, overlong_of_tailSteady (by rwa [flatten_filter, ← hflat]) filter_ne_nil,
        flatten_filter, ← hflat] at hread'
      refine Or.inr ⟨if maxLen < chunks.flatten.length then .tooLong else .eof,
        (boundedReadLine maxLen r).buf, (boundedReadLine maxLen r').buf, _, _, ?_, ?_, ?_, alike_done⟩
      · split
        · exact Or.inl rfl
        · exact Or.inr rfl
      · exact lineRead_ext (by rw [boundedReadLine, hread.1]; split <;> simp_all) rfl hread.2
      · exact lineRead_ext (by rw [boundedReadLine, hread'.1]; split <;> simp_all) rfl hread'.2
  | some q =>
      obtain ⟨body, more⟩ := q
      obtain ⟨hbytes, hbody⟩ := splitOnce_eq_some_iff.mp hsplit
      obtain ⟨pieces, rest, next, hcut, hpieces, hrest, hnext⟩ := cutLine_ofChunks .eof hbody hbytes
      obtain ⟨pieces', rest', next', hcut', hpieces', hrest', hnext'⟩ :=
        cutLine_ofChunks .eof hbody (hflat ▸ hbytes)
      have hline := fun l hl => (steady_line_iff hbody).mp (hbytes ▸ hsteady l hl)
      have hsame : lineResult maxLen pieces = lineResult maxLen pieces' := by
        rw [lineResult_of_steady (hline maxLen hlimit).1 (cutLine_ne_nil hcut) hpieces,
          lineResult_of_steady (hline maxLen hlimit).1 (cutLine_ne_nil hcut') hpieces']
      have halike : rest.Alike p rest' :=
        ⟨next, next', hrest, hrest', hnext.trans hnext'.symm, fun l hl => hnext.symm ▸ (hline l hl).2⟩
      unfold lineResult at hsame
      rw [← hr] at hcut
      rw [← hr'] at hcut'
      rcases boundedReadLine_of_line maxLen hcut with ⟨hread, hover⟩ | ⟨⟨buf, hread⟩, hover⟩ <;>
        rcases boundedReadLine_of_line maxLen hcut' with ⟨hread', hover'⟩ | ⟨⟨buf', hread'⟩, hover'⟩ <;>
        rw [hover, hover'] at hsame
      · rw [if_neg Bool.false_ne_true, if_neg Bool.false_ne_true, Prod.mk.injEq] at hsame
        exact Or.inl ⟨_, _, _, hread, hsame.2 ▸ hread', halike⟩
      · simp at hsame
      · simp at hsame
      · exact Or.inr ⟨_, _, _, _, _, Or.inl rfl, hread, hread', halike⟩

theorem drainData_of_ok {limit : Nat} {r rest : Reader} {buf : Str}
    (h : boundedReadLine limit r = ⟨.ready .ok, buf, rest⟩) :
    drainData limit r = if trimEnd buf = ['.'] then some rest else drainData limit rest := by
  rw [drainData]
  split <;> simp_all

theorem drainData_of_tooLong {limit : Nat} {r rest : Reader} {buf : Str}
    (h : boundedReadLine limit r = ⟨.ready .tooLong, buf, rest⟩) :
    drainData limit r = drainData limit rest := by
  rw [drainData]
  split <;> simp_all

theorem drainData_of_eof {limit : Nat} {r rest : Reader} {buf : Str}
    (h : boundedReadLine limit r = ⟨.ready .eof, buf, rest⟩) : drainData limit r = some rest := by
  rw [drainData]
  split <;> simp_all

/-- What is left after a drain. -/
theorem drainData_alike {limit : Nat} (hlimit : p.Limit limit) (h : r.Alike p r') :
    ∃ rest rest', drainData limit r = some rest ∧ drainData limit r' = some rest' ∧
      rest.Alike p rest' := by
  induction hn : r.weight using Nat.strong_induction_on generalizing r r' with
  | _ n ih =>
      subst hn
      rcases boundedReadLine_alike hlimit h with
        ⟨text, rest, rest', hread, hread', halike⟩ |
        ⟨result, buf, buf', rest, rest', hresult, hread, hread', halike⟩
      · have hlt := boundedReadLine_weight limit r (by simp [hread])
        rw [hread] at hlt
        rw [drainData_of_ok hread, drainData_of_ok hread']
        split
        · exact ⟨rest, rest', rfl, rfl, halike⟩
        · exact ih _ hlt halike rfl
      · rcases hresult with rfl | rfl
        · have hlt := boundedReadLine_weight limit r (by simp [hread])
          rw [hread] at hlt
          rw [drainData_of_tooLong hread, drainData_of_tooLong hread']
          exact ih _ hlt halike rfl
        · exact ⟨rest, rest', drainData_of_eof hread, drainData_of_eof hread', halike⟩

theorem drainOversize_alike {limit : Nat} (hlimit : p.Limit limit) (h : r.Alike p r') :
    (drainOversize limit r).1 = (drainOversize limit r').1 ∧
      (drainOversize limit r).2.Alike p (drainOversize limit r').2 := by
  obtain ⟨rest, rest', hdrain, hdrain', halike⟩ := drainData_alike hlimit h
  unfold drainOversize
  rw [hdrain, hdrain']
  exact ⟨rfl, halike⟩

theorem receiveData_of_ok {maxMessageSize : Nat} {data : Bytes} {r rest : Reader} {buf : Str}
    (h : boundedReadLine (maxMessageSize + 1024) r = ⟨.ready .ok, buf, rest⟩) :
    receiveData maxMessageSize data r =
      if "\n".toList.isSuffixOf buf && !("\r\n".toList.isSuffixOf buf) then
        (.reply "500 Bare LF not allowed (RFC 5321)\r\n".toList, rest)
      else if trimEnd buf = ['.'] then (.message data, rest)
      else if (data ++ unstuff buf).length > maxMessageSize then
        drainOversize (maxMessageSize + 1024) rest
      else receiveData maxMessageSize (data ++ unstuff buf) rest := by
  rw [receiveData]
  split
  case h_5 => simp only [h]
  all_goals
    rename_i heq
    rw [h] at heq
    cases heq

theorem receiveData_of_tooLong {maxMessageSize : Nat} {data : Bytes} {r rest : Reader} {buf : Str}
    (h : boundedReadLine (maxMessageSize + 1024) r = ⟨.ready .tooLong, buf, rest⟩) :
    receiveData maxMessageSize data r = drainOversize (maxMessageSize + 1024) rest := by
  rw [receiveData]
  split <;> simp_all

theorem receiveData_of_eof {maxMessageSize : Nat} {data : Bytes} {r rest : Reader} {buf : Str}
    (h : boundedReadLine (maxMessageSize + 1024) r = ⟨.ready .eof, buf, rest⟩) :
    receiveData maxMessageSize data r =
      (.reply "451 Client disconnected during DATA\r\n".toList, rest) := by
  rw [receiveData]
  split <;> simp_all

/-- The message that is received. -/
theorem receiveData_alike (data : Bytes) (h : r.Alike p r') :
    (receiveData p.maxMessageSize data r).1 = (receiveData p.maxMessageSize data r').1 ∧
      (receiveData p.maxMessageSize data r).2.Alike p (receiveData p.maxMessageSize data r').2 := by
  have hlimit : p.Limit (p.maxMessageSize + 1024) := Or.inr rfl
  induction hn : r.weight using Nat.strong_induction_on generalizing r r' data with
  | _ n ih =>
      subst hn
      rcases boundedReadLine_alike hlimit h with
        ⟨text, rest, rest', hread, hread', halike⟩ |
        ⟨result, buf, buf', rest, rest', hresult, hread, hread', halike⟩
      · have hlt := boundedReadLine_weight (p.maxMessageSize + 1024) r (by simp [hread])
        rw [hread] at hlt
        rw [receiveData_of_ok hread, receiveData_of_ok hread']
        split
        · exact ⟨rfl, halike⟩
        · split
          · exact ⟨rfl, halike⟩
          · split
            · exact drainOversize_alike hlimit halike
            · exact ih _ hlt _ halike rfl
      · rcases hresult with rfl | rfl
        · rw [receiveData_of_tooLong hread, receiveData_of_tooLong hread']
          exact drainOversize_alike hlimit halike
        · rw [receiveData_of_eof hread, receiveData_of_eof hread']
          exact ⟨rfl, halike⟩

/-- Two rounds do the same, but for the cuts of what is still to be read. -/
inductive Step.Alike (p : SessionParams) : Step → Step → Prop
  | more {s : SessionState} {r r' : Reader} {trace trace' : List Event} (hr : r.Alike p r')
      (htrace : List.Forall₂ Event.Alike trace trace') :
      Step.Alike p (.more s r trace) (.more s r' trace')
  | stop {exit : Exit} {s : SessionState} {r r' : Reader} {trace trace' : List Event}
      (htrace : List.Forall₂ Event.Alike trace trace') :
      Step.Alike p (.stop exit s r trace) (.stop exit s r' trace')

theorem alike_append {trace trace' : List Event} (htrace : List.Forall₂ Event.Alike trace trace')
    (more : List Event) : List.Forall₂ Event.Alike (trace ++ more) (trace' ++ more) :=
  List.rel_append htrace (alike_refl more)

theorem respond_alike (ok : Bool) (s : SessionState) {trace trace' : List Event} (text : Str)
    (h : r.Alike p r') (htrace : List.Forall₂ Event.Alike trace trace') :
    (respond ok s r trace text).Alike p (respond ok s r' trace' text) := by
  unfold respond
  cases ok with
  | true => exact .more h (alike_append htrace _)
  | false => exact .stop (alike_append htrace _)

variable {env : Round} {s : SessionState} {trace trace' : List Event}

theorem dataStep_alike (h : r.Alike p r') (htrace : List.Forall₂ Event.Alike trace trace') :
    (dataStep p env s r trace).Alike p (dataStep p env s r' trace') := by
  obtain ⟨hexit, hrest⟩ := receiveData_alike [] h
  unfold dataStep
  dsimp only
  split
  · exact .stop (alike_append htrace _)
  · have hdata : List.Forall₂ Event.Alike
        (trace ++ [.reply "354 Start mail input; end with <CRLF>.<CRLF>\r\n".toList] ++
          [.data s.tlsActive r.toStream])
        (trace' ++ [.reply "354 Start mail input; end with <CRLF>.<CRLF>\r\n".toList] ++
          [.data s.tlsActive r'.toStream]) := by
      refine List.rel_append (alike_append htrace _) (.cons ⟨rfl, ?_⟩ .nil)
      rw [Reader.toStream_bytes, Reader.toStream_bytes, h.bytes]
    generalize receiveData p.maxMessageSize [] r = received at hexit hrest ⊢
    generalize receiveData p.maxMessageSize [] r' = received' at hexit hrest ⊢
    obtain ⟨exit, rest⟩ := received
    obtain ⟨exit', rest'⟩ := received'
    dsimp only at hexit hrest
    subst hexit
    cases exit with
    | failed e => exact .stop hdata
    | cancelled => exact .stop hdata
    | reply text =>
        dsimp only
        rw [← h.bytes, ← hrest.bytes]
        exact respond_alike _ _ _ hrest (alike_append hdata _)
    | message data =>
        dsimp only
        rw [← h.bytes, ← hrest.bytes]
        split
        · exact .stop (alike_append hdata _)
        · exact respond_alike _ _ _ hrest (alike_append (alike_append hdata _) _)

theorem dispatch_alike (cmd args : Str) (h : r.Alike p r')
    (htrace : List.Forall₂ Event.Alike trace trace') :
    (dispatch p env s r trace cmd args).Alike p (dispatch p env s r' trace' cmd args) := by
  unfold dispatch
  dsimp only
  cases Command.ofStr cmd with
  | ehlo => exact respond_alike _ _ _ h htrace
  | helo => exact respond_alike _ _ _ h htrace
  | mail =>
      cases handleMailFrom args s with
      | none => exact .stop htrace
      | some handled => exact respond_alike _ _ _ h htrace
  | rcpt =>
      cases handleRcptTo env.config args s with
      | none => exact .stop htrace
      | some handled => exact respond_alike _ _ _ h htrace
  | data =>
      cases handleDataPrecheck s with
      | none => exact dataStep_alike h htrace
      | some text => exact respond_alike _ _ _ h htrace
  | rset => exact respond_alike _ _ _ h htrace
  | noop => exact respond_alike _ _ _ h htrace
  | quit => exact .stop (alike_append htrace _)
  | starttls =>
      dsimp only
      split
      · exact respond_alike _ _ _ h htrace
      · split
        · exact respond_alike _ _ _ h htrace
        · exact .stop (alike_append htrace _)
  | unrecognized => exact respond_alike _ _ _ h htrace

/-- **One round** does the same. -/
theorem commandStep_alike (h : r.Alike p r') :
    (commandStep p env s r).Alike p (commandStep p env s r') := by
  have hlimit : p.Limit maxCommandLineLength := Or.inl rfl
  rw [commandStep, commandStep]
  rcases boundedReadLine_alike hlimit h with
    ⟨text, rest, rest', hread, hread', halike⟩ |
    ⟨result, buf, buf', rest, rest', hresult, hread, hread', halike⟩
  · rw [hread, hread', h.bytes]
    dsimp only
    split
    · exact .more halike .nil
    · split
      · exact .stop (alike_refl _)
      · exact dispatch_alike _ _ halike (alike_refl _)
  · rw [hread, hread']
    rcases hresult with rfl | rfl
    · exact respond_alike _ _ _ halike .nil
    · exact .stop .nil

/-- **The command loop** does the same. -/
theorem commandLoop_alike (env : Env) (clock : Nat) (s : SessionState) (h : r.Alike p r') :
    (commandLoop p env clock s r).exit = (commandLoop p env clock s r').exit ∧
      (commandLoop p env clock s r).state = (commandLoop p env clock s r').state ∧
      List.Forall₂ Event.Alike (commandLoop p env clock s r).trace
        (commandLoop p env clock s r').trace := by
  induction hn : r.weight using Nat.strong_induction_on generalizing r r' s clock with
  | _ n ih =>
      subst hn
      have hstep : (commandStep p (env.round clock) s r).Alike p
          (commandStep p (env.round clock) s r') := commandStep_alike h
      rw [commandLoop, commandLoop]
      generalize hleft : commandStep p (env.round clock) s r = left at hstep
      generalize hright : commandStep p (env.round clock) s r' = right at hstep
      cases hstep with
      | stop htrace => exact ⟨rfl, rfl, htrace⟩
      | more hr htrace =>
          obtain ⟨hexit, hstate, hrest⟩ := ih _ (commandStep_more hleft).1 (clock + 1) _ hr rfl
          exact ⟨hexit, hstate, List.rel_append htrace hrest⟩

end Session

/-- Two ways of cutting a stream make no difference: the reads give the same lines, and the session does
the same. -/
structure SameOutcome (p : SessionParams) (env : Env) (clock : Nat) (s : SessionState)
    (chunks chunks' : List Bytes) : Prop where
  lines : ∀ maxLen, p.Limit maxLen →
    readLines maxLen (connection chunks) = readLines maxLen (connection chunks')
  exit : (commandLoop p env clock s (connection chunks)).exit =
    (commandLoop p env clock s (connection chunks')).exit
  state : (commandLoop p env clock s (connection chunks)).state =
    (commandLoop p env clock s (connection chunks')).state
  trace : List.Forall₂ Event.Alike (commandLoop p env clock s (connection chunks)).trace
    (commandLoop p env clock s (connection chunks')).trace

/-- **The cuts of a stream make no difference** exactly where every line of it is steady. -/
theorem segmentation_iff (p : SessionParams) (env : Env) (clock : Nat) (s : SessionState)
    (bytes : Bytes) :
    (∀ chunks chunks', chunks.flatten = bytes → chunks'.flatten = bytes →
        SameOutcome p env clock s chunks chunks') ↔
      ∀ maxLen, p.Limit maxLen → Steady maxLen bytes := by
  constructor
  · intro h maxLen hlimit
    refine (readLines_iff maxLen bytes).mp ?_
    intro chunks chunks' hflat hflat'
    exact (h chunks chunks' hflat hflat').lines maxLen hlimit
  · intro h chunks chunks' hflat hflat'
    have halike : (connection chunks).Alike p (connection chunks') :=
      ⟨chunks, chunks', rfl, rfl, hflat.trans hflat'.symm, fun l hl => hflat.symm ▸ h l hl⟩
    obtain ⟨hexit, hstate, htrace⟩ := commandLoop_alike env clock s halike
    refine ⟨?_, hexit, hstate, htrace⟩
    intro maxLen hlimit
    exact (readLines_iff maxLen bytes).mpr (h maxLen hlimit) chunks chunks' hflat hflat'

/-- A message with an `é` in it, as a client sends it. -/
def cafeBytes : Bytes := utf8 (envelopeText ++ "caf\u00e9\r\n.\r\n").toList

/-- The chunks of a cut within the `é`. -/
def cafeChunks : List Bytes :=
  [cafeBytes.take (cafeBytes.length - 6), cafeBytes.drop (cafeBytes.length - 6)]

/-- The messages that were handed over. -/
def handedOver (trace : List Event) : List Bytes :=
  trace.filterMap fun e =>
    match e with
    | .ingest _ _ message => some message
    | _ => none

/-- A cut within the `é` changes the message. -/
theorem cafe_cut :
    handedOver (commandLoop plainParams plainEnv 1 SessionState.new (connection [cafeBytes])).trace =
        [utf8 "caf\u00e9\r\n".toList] ∧
      handedOver (commandLoop plainParams plainEnv 1 SessionState.new
          (connection cafeChunks)).trace =
        [utf8 "caf\ufffd\ufffd\r\n".toList] ∧
      ¬∀ chunks chunks', chunks.flatten = cafeBytes → chunks'.flatten = cafeBytes →
        SameOutcome plainParams plainEnv 1 SessionState.new chunks chunks' := by
  have hlines : readLines maxCommandLineLength (connection [cafeBytes]) ≠
      readLines maxCommandLineLength (connection cafeChunks) := by
    decide +kernel
  refine ⟨by decide +kernel, by decide +kernel, ?_⟩
  intro h
  have hsame := h [cafeBytes] cafeChunks (by simp) (by simp [cafeChunks])
  exact hlines (hsame.lines maxCommandLineLength (Or.inl rfl))

end Smtp
end Aimx
