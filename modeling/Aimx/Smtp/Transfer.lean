import Aimx.Smtp.Content

/-!
# Transfer of a message

A message of CRLF-terminated lines, sent with its leading dots doubled and closed by the dot line, as
`receive_data` gets it over a connection that delivers it in any chunks.

* `stuff`, `message`, `wire` — a message and its transmission;
* `Stream.ofChunks`, `cutLine_ofChunks` — a connection by its chunks, and the next line of it;
* `decodePieces_length`, `utf8_decodePieces_eq_iff` — lossy decoding of a line piece by piece keeps the
  bytes exactly when every piece is UTF-8;
* `receiveData_faithful_iff` — a message arrives unchanged exactly when the chunks cut its lines into
  pieces that are UTF-8.
-/

namespace Aimx
namespace Smtp

open Text

/-! ## Sending -/

/-- The full stop. -/
def dot : UInt8 := 0x2E

/-- A line as it is sent: a leading dot is doubled. -/
def stuff (line : Bytes) : Bytes := if line.head? = some dot then dot :: line else line

/-- The lines of a message, each with its CRLF. -/
def message (lines : List Bytes) : Bytes := lines.flatMap fun line => line ++ [cr, lf]

/-- A message as it is sent. -/
def wire (lines : List Bytes) : Bytes := message (lines.map stuff) ++ dotLine

@[simp] theorem message_nil : message [] = [] := rfl

@[simp] theorem message_cons (line : Bytes) (lines : List Bytes) :
    message (line :: lines) = line ++ [cr, lf] ++ message lines := rfl

@[simp] theorem wire_nil : wire [] = dotLine := rfl

@[simp] theorem wire_cons (line : Bytes) (lines : List Bytes) :
    wire (line :: lines) = stuff line ++ [cr, lf] ++ wire lines := by
  simp [wire]

/-- Stuffing adds no line feed. -/
theorem lf_notMem_stuff {line : Bytes} (h : lf ∉ line) : lf ∉ stuff line ++ [cr] := by
  have hdot : lf ≠ dot := by decide
  have hcr : lf ≠ cr := by decide
  unfold stuff
  split <;> simp [h, hdot, hcr]

/-! ## Connections by their chunks -/

/-- A connection that delivers chunks, and then whatever `tail` delivers. -/
def Stream.ofChunks (tail : Stream) : List Bytes → Stream
  | [] => tail
  | [] :: chunks => ofChunks tail chunks
  | (b :: bs) :: chunks => .data b bs (ofChunks tail chunks)

theorem Stream.bytes_ofChunks (tail : Stream) (chunks : List Bytes) :
    (Stream.ofChunks tail chunks).bytes = chunks.flatten ++ tail.bytes := by
  induction chunks with
  | nil => rfl
  | cons chunk chunks ih =>
      cases chunk with
      | nil => exact ih
      | cons b bs => simp [ofChunks, bytes, ih]

/-- What is left of a chunk comes first again. -/
theorem Reader.toStream_ofChunks (buffer : Bytes) (tail : Stream) (chunks : List Bytes) :
    (Reader.mk buffer (Stream.ofChunks tail chunks)).toStream =
      Stream.ofChunks tail (buffer :: chunks) := by
  cases buffer <;> rfl

/-- The next line of a connection that delivers one in its chunks. -/
theorem cutLine_ofChunks (tail : Stream) {chunks : List Bytes} {body more : Bytes}
    (hbody : lf ∉ body) (h : chunks.flatten = body ++ lf :: more) :
    ∃ pieces rest chunks', (Stream.ofChunks tail chunks).cutLine = .line pieces rest ∧
      pieces.flatten = body ++ [lf] ∧ rest.toStream = Stream.ofChunks tail chunks' ∧
      chunks'.flatten = more := by
  induction chunks generalizing body with
  | nil => simp at h
  | cons chunk chunks ih =>
      cases chunk with
      | nil => exact ih hbody h
      | cons b bs =>
          rw [List.flatten_cons] at h
          rw [Stream.ofChunks, Stream.cutLine]
          cases hsplit : splitOnce lf (b :: bs) with
          | some p =>
              -- the line feed lies in the first chunk
              obtain ⟨line, after⟩ := p
              obtain ⟨hchunk, hline⟩ := splitOnce_eq_some_iff.mp hsplit
              rw [hchunk, List.append_assoc, List.cons_append] at h
              have hfirst : splitOnce lf (line ++ lf :: (after ++ chunks.flatten)) =
                  splitOnce lf (body ++ lf :: more) := by rw [h]
              rw [splitOnce_eq_some_iff.mpr ⟨rfl, hline⟩, splitOnce_eq_some_iff.mpr ⟨rfl, hbody⟩,
                Option.some.injEq, Prod.mk.injEq] at hfirst
              obtain ⟨rfl, rfl⟩ := hfirst
              exact ⟨_, _, after :: chunks, rfl, by simp, Reader.toStream_ofChunks _ _ _, by simp⟩
          | none =>
              have hnot := splitOnce_eq_none_iff.mp hsplit
              -- the first chunk is the beginning of the line
              obtain ⟨body', rfl, hrest⟩ : ∃ body', body = b :: bs ++ body' ∧
                  chunks.flatten = body' ++ lf :: more := by
                rcases List.append_eq_append_iff.mp h with ⟨body', hb, hr⟩ | ⟨front, hb, hr⟩
                · exact ⟨body', hb, hr⟩
                · cases front with
                  | nil => exact ⟨[], by simpa using hb.symm, by simpa using hr.symm⟩
                  | cons x front =>
                      rw [List.cons_append, List.cons.injEq] at hr
                      exact absurd (hb ▸ by simp [hr.1]) hnot
              have hbody' : lf ∉ body' := fun hm => hbody (List.mem_append_right _ hm)
              obtain ⟨pieces, rest, chunks', hcut, hpieces, hstream, hmore⟩ := ih hbody' hrest
              refine ⟨(b :: bs) :: pieces, rest, chunks', ?_, ?_, hstream, hmore⟩
              · rw [hcut]
              · rw [List.flatten_cons, hpieces, List.append_assoc]

/-- The pieces that the chunks cut the next lines of a reader into. -/
def Reader.linePieces : Nat → Reader → List Bytes
  | 0, _ => []
  | n + 1, r =>
      match r.toStream.cutLine with
      | .line pieces rest => pieces ++ linePieces n rest
      | _ => []

/-- A piece that is UTF-8. -/
def IsUtf8 (piece : Bytes) : Prop := (fromUtf8 piece).isSome = true

instance (piece : Bytes) : Decidable (IsUtf8 piece) := inferInstanceAs (Decidable (_ = true))

/-! ## Decoding piece by piece -/

theorem decodePieces_cons (piece : Bytes) (pieces : List Bytes) :
    decodePieces (piece :: pieces) = fromUtf8Lossy piece ++ decodePieces pieces := rfl

theorem decodePieces_nil_cons (pieces : List Bytes) :
    decodePieces ([] :: pieces) = decodePieces pieces := by
  rw [decodePieces_cons, fromUtf8Lossy_nil, List.nil_append]

/-- Decoding a line never shortens it. -/
theorem decodePieces_length (pieces : List Bytes) :
    pieces.flatten.length ≤ byteLen (decodePieces pieces) := by
  induction pieces with
  | nil => simp
  | cons piece pieces ih =>
      have hpiece := length_le_byteLen_fromUtf8Lossy piece
      rw [decodePieces_cons, byteLen_append, List.flatten_cons, List.length_append]
      omega

/-- Two texts that are joined, each at least as long as its counterpart, agree only piecewise. -/
theorem append_eq_append_of_length_le {a b a' b' : Bytes} (ha : a.length ≤ a'.length)
    (hb : b.length ≤ b'.length) (h : a' ++ b' = a ++ b) : a' = a ∧ b' = b := by
  have hlen := congrArg List.length h
  rw [List.length_append, List.length_append] at hlen
  exact List.append_inj h (by omega)

/-- **Decoding keeps the bytes of a line exactly when all its pieces are UTF-8.** -/
theorem utf8_decodePieces_eq_iff {pieces : List Bytes} :
    utf8 (decodePieces pieces) = pieces.flatten ↔ ∀ piece ∈ pieces, IsUtf8 piece := by
  induction pieces with
  | nil => simp [decodePieces]
  | cons piece pieces ih =>
      rw [decodePieces_cons, utf8_append, List.flatten_cons, List.forall_mem_cons, ← ih, IsUtf8,
        ← utf8_fromUtf8Lossy_eq_iff]
      constructor
      · intro h
        exact append_eq_append_of_length_le (length_le_byteLen_fromUtf8Lossy piece)
          (decodePieces_length pieces) h
      · rintro ⟨hpiece, hpieces⟩
        rw [hpiece, hpieces]

/-- A dot in front is a character of its own, and it does not matter to what follows. -/
theorem decodePieces_dot {pieces : List Bytes} {rest : Bytes} (h : pieces.flatten = dot :: rest) :
    ∃ pieces', pieces'.flatten = rest ∧ decodePieces pieces = '.' :: decodePieces pieces' ∧
      ((∀ piece ∈ pieces, IsUtf8 piece) ↔ ∀ piece ∈ pieces', IsUtf8 piece) := by
  induction pieces with
  | nil => simp at h
  | cons piece pieces ih =>
      cases piece with
      | nil =>
          obtain ⟨pieces', hrest, hdecode, hiff⟩ := ih h
          refine ⟨pieces', hrest, (decodePieces_nil_cons pieces).trans hdecode, ?_⟩
          have hnil : IsUtf8 [] := by simp [IsUtf8]
          rw [List.forall_mem_cons, ← hiff]
          exact and_iff_right hnil
      | cons b bs =>
          rw [List.flatten_cons, List.cons_append, List.cons.injEq] at h
          obtain ⟨rfl, rfl⟩ := h
          refine ⟨bs :: pieces, rfl, ?_, ?_⟩
          · rw [decodePieces_cons, fromUtf8Lossy_cons_ascii (by decide)]
            rfl
          · have hfirst : IsUtf8 (dot :: bs) ↔ IsUtf8 bs := by
              have hcons := fromUtf8_encode_append '.' bs
              have henc : String.utf8EncodeChar '.' = [dot] := by decide
              rw [henc, List.singleton_append] at hcons
              rw [IsUtf8, hcons, Option.isSome_map]
              rfl
            rw [List.forall_mem_cons, List.forall_mem_cons, hfirst]

/-- A line that is read with a dot in front has one. -/
theorem head_of_decodePieces_dot {pieces : List Bytes} {text : Str}
    (h : decodePieces pieces = '.' :: text) : pieces.flatten.head? = some dot := by
  induction pieces with
  | nil => simp [decodePieces] at h
  | cons piece pieces ih =>
      cases piece with
      | nil => exact ih ((decodePieces_nil_cons pieces).symm.trans h)
      | cons b bs =>
          rw [decodePieces_cons, fromUtf8Lossy] at h
          cases hfirst : decodeFirst (b :: bs) with
          | none =>
              rw [hfirst] at h
              simp only [List.cons_append, List.cons.injEq] at h
              exact absurd h.1 (by decide)
          | some c =>
              rw [hfirst] at h
              simp only [List.cons_append, List.cons.injEq] at h
              obtain ⟨rfl, -⟩ := h
              obtain ⟨rest, hrest⟩ := decodeFirst_eq_some_iff.mp hfirst
              have henc : String.utf8EncodeChar '.' = [dot] := by decide
              rw [henc, List.singleton_append, List.cons.injEq] at hrest
              rw [hrest.1]
              rfl

/-- What trims to a dot is a dot in front of white space. -/
theorem trimEnd_eq_dot {text : Str} (h : trimEnd text = ['.']) :
    ∃ blank, text = '.' :: blank ∧ ∀ c ∈ blank, isWhitespace c = true := by
  have hsplit : trimEnd text ++ text.rtakeWhile isWhitespace = text :=
    List.rdropWhile_append_rtakeWhile ..
  rw [h] at hsplit
  exact ⟨_, hsplit.symm, fun c hc => List.mem_rtakeWhile_imp hc⟩

/-! ## One line -/

/-- What a line of a message looks like to `receive_data`, whatever its pieces. -/
structure LineText (line : Bytes) (pieces : List Bytes) : Prop where
  crlf : ['\r', '\n'].isSuffixOf (decodePieces pieces) = true
  goesOn : trimEnd (decodePieces pieces) ≠ ['.']
  length : (line ++ [cr, lf]).length ≤ (unstuff (decodePieces pieces)).length
  kept : unstuff (decodePieces pieces) = line ++ [cr, lf] ↔ ∀ piece ∈ pieces, IsUtf8 piece

/-- The text of a stuffed line ends in CRLF, is no terminator, and yields the line without the stuffed
dot exactly when its pieces are UTF-8. -/
theorem lineText_of_stuff {line : Bytes} {pieces : List Bytes}
    (h : pieces.flatten = stuff line ++ [cr, lf]) : LineText line pieces := by
  obtain ⟨text, htext⟩ := decodePieces_crlf h
  have hcrlf : ['\r', '\n'].isSuffixOf (decodePieces pieces) = true := by
    rw [htext, List.isSuffixOf_iff_suffix]
    exact List.suffix_append ..
  by_cases hdot : line.head? = some dot
  · -- the line starts with a dot, and its text with two
    rw [stuff, if_pos hdot, List.cons_append] at h
    obtain ⟨pieces', hline, hdecode, hiff⟩ := decodePieces_dot h
    obtain ⟨tail, rfl⟩ := List.head?_eq_some_iff.mp hdot
    obtain ⟨pieces'', -, hdecode', -⟩ := decodePieces_dot (List.cons_append.symm ▸ hline)
    have hunstuff : unstuff (decodePieces pieces) = utf8 (decodePieces pieces') := by
      rw [unstuff, if_pos (by rw [hdecode, hdecode']; rfl), hdecode, utf8_cons]
      have henc : String.utf8EncodeChar '.' = [dot] := by decide
      rw [henc]
      rfl
    refine ⟨hcrlf, ?_, ?_, ?_⟩
    · intro htrim
      obtain ⟨blank, hblank, hwhite⟩ := trimEnd_eq_dot htrim
      rw [hdecode, hdecode', List.cons.injEq] at hblank
      have := hwhite '.' (by rw [← hblank.2]; exact List.mem_cons_self)
      exact absurd this (by decide)
    · rw [hunstuff, ← hline]
      exact decodePieces_length pieces'
    · rw [hunstuff, ← hline, utf8_decodePieces_eq_iff, hiff]
  · -- the line is sent as it is
    rw [stuff, if_neg hdot] at h
    have hfirst : ∀ text, decodePieces pieces ≠ '.' :: text := by
      intro text htext
      have hhead := head_of_decodePieces_dot htext
      rw [h] at hhead
      cases line with
      | nil => exact absurd hhead (by decide)
      | cons b line => exact hdot hhead
    have hunstuff : unstuff (decodePieces pieces) = utf8 (decodePieces pieces) := by
      rw [unstuff, if_neg]
      intro hprefix
      obtain ⟨rest, hrest⟩ := List.isPrefixOf_iff_prefix.mp hprefix
      exact hfirst _ hrest.symm
    refine ⟨hcrlf, ?_, ?_, ?_⟩
    · intro htrim
      obtain ⟨blank, hblank, -⟩ := trimEnd_eq_dot htrim
      exact hfirst blank hblank
    · rw [hunstuff, ← h]
      exact decodePieces_length pieces
    · rw [hunstuff, ← h, utf8_decodePieces_eq_iff]

/-- A short line of UTF-8 pieces passes the length check. -/
theorem overlong_utf8 {maxLen n : Nat} {pieces : List Bytes} (h : ∀ piece ∈ pieces, IsUtf8 piece)
    (hlen : n + pieces.flatten.length ≤ maxLen) : overlong maxLen n pieces = false := by
  induction pieces generalizing n with
  | nil => rfl
  | cons piece pieces ih =>
      rw [List.forall_mem_cons] at h
      rw [List.flatten_cons, List.length_append] at hlen
      have hsize : byteLen (fromUtf8Lossy piece) = piece.length := by
        rw [byteLen, utf8_fromUtf8Lossy_eq_iff.mpr h.1]
      rw [overlong, decide_eq_false (by omega), Bool.false_or, hsize]
      exact ih h.2 (by omega)

/-! ## The whole message -/

section Transfer

variable {maxMessageSize : Nat} {lines : List Bytes} {data after : Bytes} {r : Reader}
  {tail : Stream} {chunks : List Bytes}

/-- A drain never ends with a message. -/
theorem drainOversize_ne_message {limit : Nat} {r r' : Reader} {d : Bytes} :
    drainOversize limit r ≠ (.message d, r') := by
  unfold drainOversize
  split <;> simp

/-- One round of `receive_data` over a line of the message. -/
theorem receiveData_line {line : Bytes} {pieces : List Bytes} {rest : Reader}
    (hcut : r.toStream.cutLine = .line pieces rest) (htext : LineText line pieces) :
    receiveData maxMessageSize data r =
      if overlong (maxMessageSize + 1024) 0 pieces = true ∨
          (data ++ unstuff (decodePieces pieces)).length > maxMessageSize then
        drainOversize (maxMessageSize + 1024) rest
      else receiveData maxMessageSize (data ++ unstuff (decodePieces pieces)) rest := by
  rw [receiveData]
  rcases boundedReadLine_of_line (maxMessageSize + 1024) hcut with
    ⟨hread, hshort⟩ | ⟨⟨buf, hread⟩, hlong⟩
  · have hbare : ("\n".toList.isSuffixOf (decodePieces pieces) &&
        !("\r\n".toList.isSuffixOf (decodePieces pieces))) = false := by
      have hcrlf : "\r\n".toList.isSuffixOf (decodePieces pieces) = true := htext.crlf
      rw [hcrlf, Bool.not_true, Bool.and_false]
    rw [hread]
    dsimp only
    rw [hbare, if_neg Bool.false_ne_true, if_neg htext.goesOn, hshort]
    simp only [Bool.false_eq_true, false_or]
  · rw [hread, if_pos (Or.inl hlong)]

/-- The dot line ends the message. -/
theorem receiveData_dotLine (hr : r.toStream = Stream.ofChunks tail chunks)
    (hwire : chunks.flatten = dotLine ++ after) :
    ∃ r', receiveData maxMessageSize data r = (.message data, r') ∧
      r'.bytes = after ++ tail.bytes := by
  have hbody : lf ∉ [dot, cr] := by decide
  obtain ⟨pieces, rest, chunks', hcut, hpieces, hstream, hmore⟩ :=
    @cutLine_ofChunks tail chunks _ after hbody hwire
  rw [← hr] at hcut
  obtain ⟨hshort, htrim, hcrlf⟩ := dotLine_text maxMessageSize hpieces
  rcases boundedReadLine_of_line (maxMessageSize + 1024) hcut with
    ⟨hread, -⟩ | ⟨-, hlong⟩
  · refine ⟨rest, ?_, ?_⟩
    · have hcrlf' : "\r\n".toList.isSuffixOf (decodePieces pieces) = true := hcrlf
      rw [receiveData, hread]
      dsimp only
      rw [hcrlf', Bool.not_true, Bool.and_false, if_neg Bool.false_ne_true, if_pos htrim]
    · rw [← Reader.toStream_bytes, hstream, Stream.bytes_ofChunks, hmore]
  · exact absurd hlong (by simp [hshort])

/-- The first line of a transmission, with what the rest of it looks like. -/
theorem exists_line_of_wire {line : Bytes} {lines : List Bytes} (hline : lf ∉ line)
    (hr : r.toStream = Stream.ofChunks tail chunks)
    (hwire : chunks.flatten = wire (line :: lines) ++ after) :
    ∃ pieces rest chunks', r.toStream.cutLine = .line pieces rest ∧
      pieces.flatten = stuff line ++ [cr, lf] ∧ rest.toStream = Stream.ofChunks tail chunks' ∧
      chunks'.flatten = wire lines ++ after := by
  have hfirst : chunks.flatten = stuff line ++ [cr] ++ lf :: (wire lines ++ after) := by
    rw [hwire, wire_cons]
    simp
  obtain ⟨pieces, rest, chunks', hcut, hpieces, hstream, hmore⟩ :=
    cutLine_ofChunks tail (lf_notMem_stuff hline) hfirst
  exact ⟨pieces, rest, chunks', hr ▸ hcut, by rw [hpieces]; simp, hstream, hmore⟩

/-- A message whose pieces are UTF-8 arrives unchanged, and the reader stops behind it. -/
theorem receiveData_of_utf8 (hlines : ∀ line ∈ lines, lf ∉ line)
    (hfits : data.length + (message lines).length ≤ maxMessageSize)
    (hr : r.toStream = Stream.ofChunks tail chunks) (hwire : chunks.flatten = wire lines ++ after)
    (hutf8 : ∀ piece ∈ r.linePieces lines.length, IsUtf8 piece) :
    ∃ r', receiveData maxMessageSize data r = (.message (data ++ message lines), r') ∧
      r'.bytes = after ++ tail.bytes := by
  induction lines generalizing data r chunks with
  | nil =>
      rw [message_nil, List.append_nil]
      exact receiveData_dotLine hr hwire
  | cons line lines ih =>
      rw [List.forall_mem_cons] at hlines
      obtain ⟨pieces, rest, chunks', hcut, hpieces, hstream, hmore⟩ :=
        exists_line_of_wire hlines.1 hr hwire
      rw [List.length_cons, Reader.linePieces, hcut] at hutf8
      have htext := lineText_of_stuff hpieces
      have hpiece : ∀ piece ∈ pieces, IsUtf8 piece :=
        fun p hp => hutf8 p (List.mem_append_left _ hp)
      have hkept := htext.kept.mpr hpiece
      have hsize : pieces.flatten.length ≤ (line ++ [cr, lf]).length + 1 := by
        rw [hpieces, stuff]
        split <;> simp
      rw [message_cons, List.length_append] at hfits
      rw [receiveData_line hcut htext, hkept, if_neg]
      · have hrest : (data ++ (line ++ [cr, lf])).length + (message lines).length ≤
            maxMessageSize := by
          rw [List.length_append]
          omega
        have hih := ih hlines.2 hrest hstream hmore
          fun p hp => hutf8 p (List.mem_append_right _ hp)
        rw [List.append_assoc data] at hih
        rwa [message_cons]
      · have hshort : overlong (maxMessageSize + 1024) 0 pieces = false :=
          overlong_utf8 hpiece (by omega)
        rw [hshort, List.length_append]
        simp only [Bool.false_eq_true, false_or]
        omega

/-- Whatever message arrives is no shorter than the one that was sent, and it is that one only if the
pieces of its lines are UTF-8. -/
theorem receiveData_got {d : Bytes} {r' : Reader} (hlines : ∀ line ∈ lines, lf ∉ line)
    (hr : r.toStream = Stream.ofChunks tail chunks) (hwire : chunks.flatten = wire lines ++ after)
    (h : receiveData maxMessageSize data r = (.message d, r')) :
    ∃ got, d = data ++ got ∧ (message lines).length ≤ got.length ∧
      (got = message lines → ∀ piece ∈ r.linePieces lines.length, IsUtf8 piece) := by
  induction lines generalizing data r chunks with
  | nil =>
      obtain ⟨r'', hend, -⟩ : ∃ r', receiveData maxMessageSize data r = (.message data, r') ∧
          r'.bytes = after ++ tail.bytes := receiveData_dotLine hr hwire
      rw [hend, Prod.mk.injEq, DataExit.message.injEq] at h
      exact ⟨[], by rw [List.append_nil, h.1], le_rfl, fun _ p hp => absurd hp List.not_mem_nil⟩
  | cons line lines ih =>
      rw [List.forall_mem_cons] at hlines
      obtain ⟨pieces, rest, chunks', hcut, hpieces, hstream, hmore⟩ :=
        exists_line_of_wire hlines.1 hr hwire
      have htext := lineText_of_stuff hpieces
      rw [receiveData_line hcut htext] at h
      split at h
      next => exact absurd h drainOversize_ne_message
      next =>
          obtain ⟨got, hd, hlen, hgot⟩ := ih hlines.2 hstream hmore h
          refine ⟨unstuff (decodePieces pieces) ++ got, ?_, ?_, ?_⟩
          · rw [hd, List.append_assoc]
          · have hline := htext.length
            rw [message_cons, List.length_append, @List.length_append _ (unstuff _)]
            omega
          · intro heq
            rw [message_cons] at heq
            obtain ⟨hfirst, hothers⟩ := append_eq_append_of_length_le htext.length hlen heq
            rw [List.length_cons, Reader.linePieces, hcut]
            intro p hp
            rcases List.mem_append.mp hp with hp | hp
            · exact htext.kept.mp hfirst p hp
            · exact hgot hothers p hp

/-- **Transfer is faithful exactly for UTF-8.**  A message that fits the limit is sent with its dots
stuffed, in any chunks.  `receive_data` delivers it unchanged and stops behind the dot line if and only
if every piece that the chunks cut its lines into is UTF-8. -/
theorem receiveData_faithful_iff (hlines : ∀ line ∈ lines, lf ∉ line)
    (hfits : (message lines).length ≤ maxMessageSize)
    (hr : r.toStream = Stream.ofChunks tail chunks)
    (hwire : chunks.flatten = wire lines ++ after) :
    (∃ r', receiveData maxMessageSize [] r = (.message (message lines), r') ∧
        r'.bytes = after ++ tail.bytes) ↔
      ∀ piece ∈ r.linePieces lines.length, IsUtf8 piece := by
  constructor
  · rintro ⟨r', h, -⟩
    obtain ⟨got, hd, -, hgot⟩ := receiveData_got hlines hr hwire h
    exact hgot hd.symm
  · intro hutf8
    have hsize : ([] : Bytes).length + (message lines).length ≤ maxMessageSize := by
      rw [List.length_nil]
      omega
    exact receiveData_of_utf8 hlines hsize hr hwire hutf8

end Transfer

/-- `café` in UTF-8, and behind it a line that is a dot. -/
def cafeLines : List Bytes := [[0x63, 0x61, 0x66, 0xC3, 0xA9], [dot]]

/-- Delivered in one chunk, the message arrives unchanged. -/
theorem receiveData_faithful_cafe :
    ∃ r', receiveData 100 [] ⟨[], Stream.ofChunks .eof [wire cafeLines]⟩ =
        (.message (message cafeLines), r') ∧ r'.bytes = [] := by
  have hlines : ∀ line ∈ cafeLines, lf ∉ line := by decide
  have hwire : [wire cafeLines].flatten = wire cafeLines ++ [] := by simp
  have hr : (Reader.mk [] (Stream.ofChunks .eof [wire cafeLines])).toStream =
      Stream.ofChunks .eof [wire cafeLines] := rfl
  exact (receiveData_faithful_iff hlines (by decide) hr hwire).mpr (by decide +kernel)

/-- The same word in Latin-1, and the word in UTF-8 in two chunks that part the `é`: neither message
arrives. -/
theorem receiveData_loses_bytes :
    (¬ ∃ r', receiveData 100 [] ⟨[], Stream.ofChunks .eof [wire [[0x63, 0x61, 0x66, 0xE9]]]⟩ =
        (.message (message [[0x63, 0x61, 0x66, 0xE9]]), r')) ∧
    ¬ ∃ r', receiveData 100 [] ⟨[], Stream.ofChunks .eof
          [[0x63, 0x61, 0x66, 0xC3], [0xA9, cr, lf] ++ wire [[dot]]]⟩ =
        (.message (message cafeLines), r') := by
  constructor
  · rintro ⟨r', h⟩
    have hlines : ∀ line ∈ [[(0x63 : UInt8), 0x61, 0x66, 0xE9]], lf ∉ line := by decide
    have hwire : [wire [[0x63, 0x61, 0x66, 0xE9]]].flatten =
        wire [[0x63, 0x61, 0x66, 0xE9]] ++ [] := by decide
    obtain ⟨got, hd, -, hgot⟩ := receiveData_got hlines rfl hwire h
    exact absurd (hgot hd.symm) (by decide +kernel)
  · rintro ⟨r', h⟩
    have hlines : ∀ line ∈ cafeLines, lf ∉ line := by decide
    have hwire : [[0x63, 0x61, 0x66, 0xC3], [0xA9, cr, lf] ++ wire [[dot]]].flatten =
        wire cafeLines ++ [] := by decide
    obtain ⟨got, hd, -, hgot⟩ := receiveData_got hlines rfl hwire h
    exact absurd (hgot hd.symm) (by decide +kernel)

end Smtp
end Aimx
