import Aimx.Ingest.Dedup

/-!
# What the small reader finds

The reader that rebuilds the duplicate store looks at the first 16 KiB of a file, and understands one line of
TOML: a key, and a string in double quotes without escapes.  Here it meets what `format_frontmatter` writes.

* `TomlString` — the ways in which TOML writes a string on a line;
* `Toml.Lists` — what is used of the TOML library: the record is lines, one of them with the Message-Id;
* `IsPlain` — a string that stands in double quotes as it is;
* `readFrontmatterIdPair_formatFrontmatter_iff` — the stored messages that the reader finds.
-/

namespace Aimx
namespace Ingest

open Text
open scoped Literal

/-! ## The printed record -/

/-- Complete lines. -/
def unlines (ls : List Str) : Str := ls.flatMap fun l => l ++ ['\n']

/-- What TOML writes between double quotes for a text: characters other than the quote and the backslash as
they are, and sequences behind a backslash for any. -/
inductive Escaped : Str → Str → Prop
  | nil : Escaped [] []
  | char {c : Char} {written s : Str} (hquote : c ≠ '"') (hescape : c ≠ '\\') (h : Escaped written s) :
      Escaped (c :: written) (c :: s)
  | quote {written s : Str} (h : Escaped written s) : Escaped ('\\' :: '"' :: written) ('"' :: s)
  | escape {seq written s : Str} (c : Char) (hseq : '"' ∉ seq) (h : Escaped written s) :
      Escaped ('\\' :: (seq ++ written)) (c :: s)

/-- A string of TOML on a line: in double quotes with escapes, in single quotes without, or in three
quotes. -/
inductive TomlString (s : Str) : Str → Prop
  | basic {written : Str} (h : Escaped written s) : TomlString s ('"' :: (written ++ ['"']))
  | literal : TomlString s ('\'' :: (s ++ ['\'']))
  | multilineBasic {written : Str} :
      TomlString s ("\"\"\"".toList ++ (written ++ "\"\"\"".toList))
  | multilineLiteral : TomlString s ("\'\'\'".toList ++ (s ++ "\'\'\'".toList))

/-- The string stands in double quotes as it is. -/
def IsPlain (s written : Str) : Prop := written = '"' :: (s ++ ['"']) ∧ '"' ∉ s

/-- A line with a key and what is written for its value. -/
def fieldLine (key written : Str) : Str := key ++ (" = ".toList ++ written)

/-- The line of the time of arrival. -/
def timeLine (receivedAt : Str) : Str := fieldLine "received_at".toList ('"' :: (receivedAt ++ ['"']))

/-- What is used of the TOML library at one record: it prints lines, one for the Message-Id, and behind it one
for the time of arrival; the others are of other keys, and the last one is not empty. -/
structure Toml.Lists (t : Toml) (m : InboundFrontmatter) (front : List Str) (idWritten : Str)
    (middle after : List Str) : Prop where
  layout : t.toString m = unlines (front ++ fieldLine "message_id".toList idWritten ::
    (middle ++ timeLine m.receivedAt :: after))
  id : TomlString m.messageId idWritten
  line : ∀ l ∈ front ++ fieldLine "message_id".toList idWritten ::
      (middle ++ timeLine m.receivedAt :: after), '\n' ∉ l ∧ '\r' ∉ l ∧ ¬ "+++".toList <+: l
  last : after.getLast? ≠ some []
  other : ∀ l ∈ front ++ middle ++ after,
    ¬ "message_id".toList <+: trimStart l ∧ ¬ "received_at".toList <+: trimStart l

/-! ## The lines -/

theorem unlines_cons (l : Str) (ls : List Str) : unlines (l :: ls) = l ++ '\n' :: unlines ls := by
  simp [unlines]

theorem unlines_concat (ls : List Str) (l : Str) : unlines (ls ++ [l]) = unlines ls ++ (l ++ ['\n']) := by
  simp [unlines]

theorem getLast?_ne_of_notMem {s : Str} {c : Char} (h : c ∉ s) : s.getLast? ≠ some c :=
  fun hlast => h (List.mem_of_getLast? hlast)

/-- The lines of a text that does not end the last of them. -/
theorem lines_unlines {ls : List Str} {last : Str} (hls : ∀ l ∈ ls, '\n' ∉ l ∧ '\r' ∉ l)
    (hlast : '\n' ∉ last) (hne : last ≠ []) : lines (unlines ls ++ last) = ls ++ [last] := by
  induction ls with
  | nil => exact lines_single hlast hne
  | cons l ls ih =>
      obtain ⟨hfirst, hrest⟩ := List.forall_mem_cons.mp hls
      rw [unlines_cons, List.append_assoc, List.cons_append,
        lines_lf_cons hfirst.1 (getLast?_ne_of_notMem hfirst.2), ih hrest, List.cons_append]

/-- A line of another key has no value. -/
theorem keyValue_eq_none {key l : Str} (h : ¬ key <+: trimStart l) : keyValue key l = none := by
  have hnone : stripPrefix key (trimStart l) = none := by
    by_contra hsome
    obtain ⟨rest, hrest⟩ := Option.ne_none_iff_exists'.mp hsome
    exact h ⟨rest, (stripPrefix_eq_some_iff.mp hrest).symm⟩
  rw [keyValue, hnone]
  rfl

/-- Behind the lines of other keys, nothing more has been found. -/
theorem foldl_scanLine_other {ls : List Str} (h : ∀ l ∈ ls, ¬ "message_id".toList <+: trimStart l ∧
    ¬ "received_at".toList <+: trimStart l) (found : Option Str × Option Str) :
    ls.foldl scanLine found = found := by
  induction ls with
  | nil => rfl
  | cons l ls ih =>
      obtain ⟨⟨hid, htime⟩, hrest⟩ := List.forall_mem_cons.mp h
      have hstep : scanLine found l = found := by
        unfold scanLine
        rw [keyValue_eq_none hid, keyValue_eq_none htime]
        cases found.1 <;> cases found.2 <;> rfl
      rw [List.foldl_cons, hstep]
      exact ih hrest

/-- What stands between two double quotes at the start of a text. -/
def quotedStart (written : Str) : Option Str :=
  (stripPrefix ['"'] written).bind fun rest => (splitOnce '"' rest).map Prod.fst

theorem quotedStart_quote (rest : Str) : quotedStart ('"' :: rest) = (splitOnce '"' rest).map Prod.fst := by
  have hstrip := stripPrefix_append ['"'] rest
  rw [List.singleton_append] at hstrip
  rw [quotedStart, hstrip, Option.bind_some]

/-- The value of a line that is written in the form of a field. -/
theorem keyValue_fieldLine {key written : Str} (hkey : ∀ rest, trimStart (key ++ rest) = key ++ rest)
    (hwritten : trimStart written = written) :
    keyValue key (fieldLine key written) = quotedStart written := by
  have hblank : ∀ (rest : Str), trimStart (' ' :: rest) = trimStart rest := fun rest =>
    List.dropWhile_cons_of_pos (by decide)
  have hequals : ∀ rest : Str, trimStart ('=' :: rest) = '=' :: rest := fun rest =>
    List.dropWhile_cons_of_neg (by decide)
  have hstrip := stripPrefix_append ['='] (' ' :: written)
  rw [List.singleton_append] at hstrip
  rw [keyValue, fieldLine, hkey, stripPrefix_append, Option.bind_some]
  show parseTomlStringValue (' ' :: '=' :: ' ' :: written) = _
  unfold parseTomlStringValue quotedStart
  rw [hblank, hequals, hstrip, Option.bind_eq_bind, Option.bind_some, hblank, hwritten]
  cases stripPrefix ['"'] written with
  | none => rfl
  | some rest =>
      simp only [Option.bind_some]
      cases splitOnce '"' rest <;> rfl

theorem trimStart_key {key : Str} (h : key.head?.any (fun c => !isWhitespace c) = true) (rest : Str) :
    trimStart (key ++ rest) = key ++ rest := by
  cases key with
  | nil => cases h
  | cons c key =>
      have hc : ¬ isWhitespace c = true := by simpa using h
      exact List.dropWhile_cons_of_neg hc

/-- A quote between double quotes is the quote of the text. -/
theorem Escaped.mem_quote {written s : Str} (h : Escaped written s) (hmem : '"' ∈ written) : '"' ∈ s := by
  induction h with
  | nil => cases hmem
  | char hquote _ _ ih =>
      rcases List.mem_cons.mp hmem with heq | hmem
      · exact absurd heq.symm hquote
      · exact List.mem_cons_of_mem _ (ih hmem)
  | quote => exact List.mem_cons_self
  | escape c hseq _ ih =>
      rcases List.mem_cons.mp hmem with heq | hmem
      · cases heq
      · rcases List.mem_append.mp hmem with hmem | hmem
        · exact absurd hmem hseq
        · exact List.mem_cons_of_mem _ (ih hmem)

theorem IsPlain.quotedStart {s written : Str} (h : IsPlain s written) : quotedStart written = some s := by
  obtain ⟨rfl, hquote⟩ := h
  rw [quotedStart_quote, splitOnce_eq_some_iff.mpr ⟨rfl, hquote⟩]
  rfl

/-- **The reader of a string** gives the text exactly where it stands in double quotes as it is. -/
theorem TomlString.quotedStart_iff {s written : Str} (h : TomlString s written) (hs : s ≠ []) :
    quotedStart written = some s ↔ IsPlain s written := by
  constructor
  · intro hread
    cases h with
    | @basic inner h =>
        rw [quotedStart_quote] at hread
        obtain ⟨⟨found, rest⟩, hsplit, rfl⟩ := Option.map_eq_some_iff.mp hread
        obtain ⟨htext, hquote⟩ := splitOnce_eq_some_iff.mp hsplit
        -- the first quote is the closing one: another one would be a quote of the text
        have hinner : '"' ∉ inner := fun hmem => hquote (h.mem_quote hmem)
        have hsame := splitOnce_eq_some_iff.mpr (⟨rfl, hinner⟩ :
          inner ++ ['"'] = inner ++ '"' :: [] ∧ '"' ∉ inner)
        rw [hsplit] at hsame
        cases hsame
        exact ⟨rfl, hquote⟩
    | literal => cases hread
    | multilineBasic => exact absurd (Option.some.inj hread).symm hs
    | multilineLiteral => cases hread
  · exact IsPlain.quotedStart

/-- The reader takes nothing for the text where the text is empty. -/
theorem TomlString.quotedStart_nil {written s : Str} (h : TomlString [] written)
    (hread : quotedStart written = some s) : s = [] := by
  cases h with
  | basic h =>
      cases h
      exact (Option.some.inj hread).symm
  | literal => cases hread
  | multilineBasic => exact (Option.some.inj hread).symm
  | multilineLiteral => cases hread

theorem TomlString.trimStart {s written : Str} (h : TomlString s written) : trimStart written = written := by
  cases h with
  | basic => exact List.dropWhile_cons_of_neg (by decide)
  | literal => exact List.dropWhile_cons_of_neg (by decide)
  | multilineBasic => exact List.dropWhile_cons_of_neg (by decide)
  | multilineLiteral => exact List.dropWhile_cons_of_neg (by decide)

/-- The line of the time is read, if the time has no quotes. -/
theorem keyValue_timeLine {receivedAt : Str} (h : '"' ∉ receivedAt) :
    keyValue "message_id".toList (timeLine receivedAt) = none ∧
      keyValue "received_at".toList (timeLine receivedAt) = some receivedAt := by
  constructor
  · apply keyValue_eq_none
    rw [timeLine, fieldLine, trimStart_key (by decide)]
    intro hprefix
    have hshort := List.prefix_of_prefix_length_le hprefix (List.prefix_append _ _) (by decide)
    exact absurd hshort (by decide)
  · rw [timeLine, keyValue_fieldLine (trimStart_key (by decide)) (List.dropWhile_cons_of_neg (by decide)),
      quotedStart_quote, splitOnce_eq_some_iff.mpr ⟨rfl, h⟩]
    rfl

/-- The line of the Message-Id gives what is read of it, and no time. -/
theorem keyValue_idLine {s written : Str} (h : TomlString s written) :
    keyValue "message_id".toList (fieldLine "message_id".toList written) = quotedStart written ∧
      keyValue "received_at".toList (fieldLine "message_id".toList written) = none := by
  refine ⟨keyValue_fieldLine (trimStart_key (by decide)) h.trimStart, keyValue_eq_none ?_⟩
  rw [fieldLine, trimStart_key (by decide)]
  intro hprefix
  cases hprefix
  next rest hrest => exact absurd (List.cons.inj hrest).1 (by decide)

/-! ## The mark behind the record -/

/-- A line feed that is followed by the mark is the one behind the line, or a later one. -/
theorem infix_newline_iff {mark l rest : Str} (h : '\n' ∉ l) :
    '\n' :: mark <:+: l ++ '\n' :: rest ↔ mark <+: rest ∨ '\n' :: mark <:+: rest := by
  induction l with
  | nil => rw [List.nil_append, List.infix_cons_iff, List.cons_prefix_cons, and_iff_right rfl]
  | cons c l ih =>
      rw [List.mem_cons, not_or] at h
      rw [List.cons_append, List.infix_cons_iff, List.cons_prefix_cons, ih h.2]
      exact ⟨fun hcases => hcases.resolve_left fun hfirst => h.1 hfirst.1, Or.inr⟩

/-- A mark without line feeds at the start of a text stands in its first line. -/
theorem prefix_of_prefix_line {mark l rest : Str} (hmark : '\n' ∉ mark) (h : mark <+: l ++ '\n' :: rest) :
    mark <+: l := by
  obtain ⟨more, hmore⟩ := h
  rcases List.append_eq_append_iff.mp hmore with ⟨back, rfl, -⟩ | ⟨back, hfront, hback⟩
  · exact List.prefix_append _ _
  · cases back with
    | nil =>
        rw [List.append_nil] at hfront
        rw [hfront]
    | cons c back =>
        obtain rfl := (List.cons.inj hback).1
        exact absurd (by rw [hfront]; simp) hmark

/-- No line of a record begins with the mark. -/
theorem no_mark_unlines {ls : List Str} {tail : Str} (hls : ∀ l ∈ ls, '\n' ∉ l ∧ ¬ "+++".toList <+: l)
    (htail : '\n' ∉ tail) (hmark : ¬ "+++".toList <+: tail) :
    ¬ "\n+++".toList <:+: unlines ls ++ tail ∧ ¬ "+++".toList <+: unlines ls ++ tail := by
  have hcons : "\n+++".toList = '\n' :: "+++".toList := by decide
  have hplus : '\n' ∉ "+++".toList := by decide
  rw [hcons]
  induction ls with
  | nil => exact ⟨fun hin => htail (hin.subset List.mem_cons_self), hmark⟩
  | cons l ls ih =>
      obtain ⟨⟨hnewline, hopen⟩, hrest⟩ := List.forall_mem_cons.mp hls
      obtain ⟨hin, hpre⟩ := ih hrest
      rw [unlines_cons, List.append_assoc, List.cons_append, infix_newline_iff hnewline, not_or]
      exact ⟨⟨hpre, hin⟩, fun hfirst => hopen (prefix_of_prefix_line hplus hfirst)⟩

/-! ## The window -/

/-- The bytes that are read end between two characters. -/
def WindowWhole (text : Str) : Prop := ∃ front, front <+: text ∧ byteLen front = min headSize (byteLen text)

theorem windowWhole_of_length {text : Str} (h : 4 * text.length ≤ headSize) : WindowWhole text :=
  ⟨text, List.prefix_rfl, (Nat.min_eq_right ((byteLen_le text).trans h)).symm⟩

/-- The bytes that are read are a text, or they end inside a character. -/
theorem fromUtf8_window (text : Str) :
    (∃ front, fromUtf8 ((utf8 text).take headSize) = some front ∧ front <+: text ∧
        byteLen front = min headSize (byteLen text)) ∨
      fromUtf8 ((utf8 text).take headSize) = none ∧ ¬ WindowWhole text := by
  cases hhead : fromUtf8 ((utf8 text).take headSize) with
  | some front =>
      have htake := fromUtf8_eq_some_iff.mp hhead
      have hsplit : utf8 text = utf8 front ++ (utf8 text).drop headSize := by
        rw [← htake, List.take_append_drop]
      obtain ⟨back, hback, -⟩ := eq_append_of_utf8_eq hsplit
      exact Or.inl ⟨front, rfl, ⟨back, hback.symm⟩, by rw [byteLen, ← htake, List.length_take]; rfl⟩
  | none =>
      refine Or.inr ⟨rfl, ?_⟩
      rintro ⟨front, ⟨back, rfl⟩, hlen⟩
      have hfront : utf8 front <+: utf8 (front ++ back) := by
        rw [utf8_append]
        exact List.prefix_append _ _
      have htake : (utf8 (front ++ back)).take headSize = utf8 front := by
        rw [List.prefix_iff_eq_take.mp hfront, List.take_eq_take_iff]
        unfold byteLen at hlen
        omega
      rw [htake, fromUtf8_eq_some_iff.mpr rfl] at hhead
      cases hhead

/-- Of two beginnings of a text the one with fewer bytes is a beginning of the other. -/
theorem prefix_of_byteLen_le {a b text : Str} (ha : a <+: text) (hb : b <+: text)
    (h : byteLen a ≤ byteLen b) : a <+: b := by
  rcases List.prefix_or_prefix_of_prefix ha hb with hab | ⟨more, rfl⟩
  · exact hab
  · cases more with
    | nil => rw [List.append_nil]
    | cons c more =>
        have hpos := c.utf8Size_pos
        rw [byteLen_append, byteLen_cons] at h
        omega

section Read

variable {t : Toml} {m : InboundFrontmatter} {c : Chrono} {front middle after : List Str} {idWritten : Str}

/-- The record is its lines but the last one, and the last one. -/
theorem Toml.Lists.lines (h : t.Lists m front idWritten middle after) :
    ∃ ls last, front ++ fieldLine "message_id".toList idWritten ::
        (middle ++ timeLine m.receivedAt :: after) = ls ++ [last] ∧
      t.toString m = unlines ls ++ last ++ ['\n'] ∧ last ≠ [] := by
  obtain ⟨ls, last, hsplit, hlast⟩ :
      ∃ ls last, timeLine m.receivedAt :: after = ls ++ [last] ∧ last ≠ [] := by
    refine ⟨_, _, (List.dropLast_append_getLast (List.cons_ne_nil _ _)).symm, ?_⟩
    cases hafter : after with
    | nil => exact fun hnil => by cases hnil
    | cons l rest =>
        rw [List.getLast_cons (List.cons_ne_nil _ _)]
        intro hnil
        apply h.last
        rw [hafter, List.getLast?_eq_some_getLast (List.cons_ne_nil _ _), hnil]
  refine ⟨front ++ fieldLine "message_id".toList idWritten :: (middle ++ ls), last, ?_, ?_, hlast⟩
  · rw [hsplit]
    simp only [List.append_assoc, List.cons_append]
  · rw [h.layout, hsplit, ← List.append_assoc middle, ← List.cons_append, ← List.append_assoc front,
      unlines_concat, List.append_assoc]

/-- What is found in the lines of a record: what is read of the Message-Id, and the time. -/
theorem Toml.Lists.scan (h : t.Lists m front idWritten middle after) (htime : '"' ∉ m.receivedAt) :
    (front ++ fieldLine "message_id".toList idWritten ::
        (middle ++ timeLine m.receivedAt :: after)).foldl scanLine (none, none) =
      (quotedStart idWritten, some m.receivedAt) := by
  have hother := h.other
  rw [List.append_assoc] at hother
  obtain ⟨hfront, hrest⟩ := List.forall_mem_append.mp hother
  obtain ⟨hmiddle, hafter⟩ := List.forall_mem_append.mp hrest
  obtain ⟨hnoId, htimeValue⟩ := keyValue_timeLine htime
  obtain ⟨hidValue, hnoTime⟩ := keyValue_idLine h.id
  have hid : scanLine (none, none) (fieldLine "message_id".toList idWritten) =
      (quotedStart idWritten, none) := by
    unfold scanLine
    rw [hidValue, hnoTime]
    cases quotedStart idWritten <;> rfl
  have hlast : ∀ found : Option Str, scanLine (found, none) (timeLine m.receivedAt) =
      (found, some m.receivedAt) := by
    intro found
    unfold scanLine
    rw [hnoId, htimeValue]
    cases found <;> rfl
  rw [List.foldl_append, foldl_scanLine_other hfront, List.foldl_cons, hid, List.foldl_append,
    foldl_scanLine_other hmiddle, List.foldl_cons, hlast, foldl_scanLine_other hafter]

/-- No line feed in a record is followed by the mark, also not with two characters of the mark behind it. -/
theorem Toml.Lists.no_mark (h : t.Lists m front idWritten middle after) :
    ¬ "\n+++".toList <:+: t.toString m ++ "++".toList := by
  rw [h.layout]
  exact (no_mark_unlines (fun l hl => ⟨(h.line l hl).1, (h.line l hl).2.2⟩) (by decide) (by decide)).1

/-- A window that ends before the mark behind the record gives nothing. -/
theorem read_of_short (h : t.Lists m front idWritten middle after) {content : Bytes} {head : Str}
    (hhead : fromUtf8 (content.take headSize) = some head)
    (hpre : head <+: "+++\n".toList ++ (t.toString m ++ "++".toList)) :
    readFrontmatterIdPair c content = none := by
  have hopen : "+++\n".toList = ['+', '+', '+', '\n'] := by decide
  have hcarriage : "+++\r\n".toList = ['+', '+', '+', '\r', '\n'] := by decide
  have hmark : "\r\n+++".toList = '\r' :: "\n+++".toList := by decide
  have hother : stripPrefix "+++\r\n".toList head = none := by
    by_contra hsome
    obtain ⟨rest, hrest⟩ := Option.ne_none_iff_exists'.mp hsome
    rw [stripPrefix_eq_some_iff.mp hrest, hcarriage, hopen] at hpre
    simp only [List.cons_append, List.cons_prefix_cons] at hpre
    exact absurd hpre.2.2.2.1 (by decide)
  unfold readFrontmatterIdPair
  simp only [hhead, Option.bind_eq_bind, Option.bind_some, hother, Option.or_none]
  cases hstrip : stripPrefix "+++\n".toList head with
  | none => rfl
  | some body =>
      rw [stripPrefix_eq_some_iff.mp hstrip, List.prefix_append_right_inj] at hpre
      have hfirst : body.dropInfix? "\n+++".toList = none :=
        dropInfix?_eq_none_iff.mpr fun hin => h.no_mark (hin.trans hpre.isInfix)
      have hsecond : body.dropInfix? "\r\n+++".toList = none := by
        rw [dropInfix?_eq_none_iff, hmark]
        exact fun hin => h.no_mark (((List.suffix_cons _ _).isInfix.trans hin).trans hpre.isInfix)
      rw [Option.bind_some, hfirst, hsecond]
      rfl

/-- A window that holds the record and the mark behind it gives what its lines hold. -/
theorem read_of_whole (h : t.Lists m front idWritten middle after) (htime : '"' ∉ m.receivedAt)
    {content : Bytes} {more : Str} (hhead : fromUtf8 (content.take headSize) =
      some ("+++\n".toList ++ (t.toString m ++ ("+++".toList ++ more)))) :
    readFrontmatterIdPair c content =
      (quotedStart idWritten).bind fun messageId =>
        if messageId = [] then none
        else (c.parseRfc3339 m.receivedAt).bind fun time => some (messageId, time) := by
  obtain ⟨ls, last, hsplit, htext, hne⟩ := h.lines
  have hall : ∀ l ∈ ls ++ [last], '\n' ∉ l ∧ '\r' ∉ l ∧ ¬ "+++".toList <+: l := by
    rw [← hsplit]
    exact h.line
  obtain ⟨hls, hlast⟩ := List.forall_mem_append.mp hall
  have hone := hlast last (List.mem_singleton_self last)
  have hcons : "\n+++".toList = '\n' :: "+++".toList := by decide
  -- the first line feed with a mark behind it is the one that ends the record
  have hcut : (t.toString m ++ ("+++".toList ++ more)).dropInfix? "\n+++".toList =
      some (unlines ls ++ last, more) := by
    have hshape : t.toString m ++ ("+++".toList ++ more) =
        unlines ls ++ last ++ "\n+++".toList ++ more := by
      rw [htext, hcons]
      simp only [List.append_assoc, List.cons_append, List.nil_append]
    have hshort : unlines ls ++ last ++ "\n+++".toList.dropLast = t.toString m ++ "++".toList := by
      have hdrop : "\n+++".toList.dropLast = '\n' :: "++".toList := by decide
      rw [htext, hdrop]
      simp only [List.append_assoc, List.cons_append, List.nil_append]
    rw [hshape, dropInfix?_append_iff (by decide), hshort]
    exact h.no_mark
  have hlines : lines (unlines ls ++ last) = front ++ fieldLine "message_id".toList idWritten ::
      (middle ++ timeLine m.receivedAt :: after) := by
    rw [lines_unlines (fun l hl => ⟨(hls l hl).1, (hls l hl).2.1⟩) hone.1 hne, hsplit]
  unfold readFrontmatterIdPair
  simp only [hhead, Option.bind_eq_bind, Option.bind_some, stripPrefix_append, Option.some_or, hcut, hlines,
    h.scan htime]
  rfl

/-- The file of a message begins with its record and the mark behind it. -/
theorem formatFrontmatter_front (t : Toml) (m : InboundFrontmatter) (body : Str) :
    ∃ rest, formatFrontmatter t m body = "+++\n".toList ++ (t.toString m ++ ("+++".toList ++ rest)) ∧
      byteLen (formatFrontmatter t m body) = byteLen (t.toString m) + 7 + byteLen rest := by
  have hmark : "+++\n\n".toList = "+++".toList ++ "\n\n".toList := by decide
  have hopenLen : byteLen "+++\n".toList = 4 := by decide
  have hmarkLen : byteLen "+++".toList = 3 := by decide
  have hfile : formatFrontmatter t m body = "+++\n".toList ++
      (t.toString m ++ ("+++".toList ++ ("\n\n".toList ++ withFinalNewline body))) := by
    simp only [formatFrontmatter, hmark, List.append_assoc]
  refine ⟨_, hfile, ?_⟩
  rw [hfile, byteLen_append, byteLen_append, byteLen_append, hopenLen, hmarkLen]
  omega

/-- **A record within the window** is read: its Message-Id as far as it is understood, and its time. -/
theorem read_within (h : t.Lists m front idWritten middle after) (htime : '"' ∉ m.receivedAt) {body : Str}
    (hfits : byteLen (t.toString m) + 7 ≤ headSize) (hwhole : WindowWhole (formatFrontmatter t m body)) :
    readFrontmatterIdPair c (utf8 (formatFrontmatter t m body)) =
      (quotedStart idWritten).bind fun messageId =>
        if messageId = [] then none
        else (c.parseRfc3339 m.receivedAt).bind fun time => some (messageId, time) := by
  obtain ⟨rest, hrest, htotal⟩ := formatFrontmatter_front t m body
  have hopenLen : byteLen "+++\n".toList = 4 := by decide
  have hmarkLen : byteLen "+++".toList = 3 := by decide
  rcases fromUtf8_window (formatFrontmatter t m body) with ⟨head, hhead, hpre, hlen⟩ | ⟨-, hcut⟩
  · -- the window holds the mark behind the record
    have hrecord : "+++\n".toList ++ (t.toString m ++ "+++".toList) <+: head := by
      refine prefix_of_byteLen_le ⟨rest, by rw [hrest]; simp only [List.append_assoc]⟩ hpre ?_
      rw [byteLen_append, byteLen_append, hopenLen, hmarkLen, hlen, htotal]
      omega
    obtain ⟨more, rfl⟩ := hrecord
    rw [List.append_assoc, List.append_assoc] at hhead
    exact read_of_whole h htime hhead
  · exact absurd hwhole hcut

/-- A record that ends behind the window is not read, nor one with a window that cuts a character. -/
theorem read_beyond (h : t.Lists m front idWritten middle after) {body : Str}
    (hnot : ¬ (byteLen (t.toString m) + 7 ≤ headSize ∧ WindowWhole (formatFrontmatter t m body))) :
    readFrontmatterIdPair c (utf8 (formatFrontmatter t m body)) = none := by
  obtain ⟨rest, hrest, htotal⟩ := formatFrontmatter_front t m body
  rcases fromUtf8_window (formatFrontmatter t m body) with ⟨head, hhead, hpre, hlen⟩ | ⟨hnone, -⟩
  · have hlong : ¬ byteLen (t.toString m) + 7 ≤ headSize := fun hfits => hnot ⟨hfits, head, hpre, hlen⟩
    have hback : "+++".toList = "++".toList ++ "+".toList := by decide
    have hopenLen : byteLen "+++\n".toList = 4 := by decide
    have hbackLen : byteLen "++".toList = 2 := by decide
    refine read_of_short h hhead (prefix_of_byteLen_le hpre ⟨"+".toList ++ rest, ?_⟩ ?_)
    · rw [hrest, hback]
      simp only [List.append_assoc]
    · rw [byteLen_append, byteLen_append, hopenLen, hbackLen, hlen]
      omega
  · rw [readFrontmatterIdPair, hnone]
    rfl

/-- Nothing is read of a record without a Message-Id. -/
theorem read_nameless (h : t.Lists m front idWritten middle after) (htime : '"' ∉ m.receivedAt)
    (hid : m.messageId = []) (body : Str) :
    readFrontmatterIdPair c (utf8 (formatFrontmatter t m body)) = none := by
  by_cases hwindow : byteLen (t.toString m) + 7 ≤ headSize ∧ WindowWhole (formatFrontmatter t m body)
  · rw [read_within h htime hwindow.1 hwindow.2]
    cases hread : quotedStart idWritten with
    | none => rfl
    | some s =>
        obtain rfl := (hid ▸ h.id).quotedStart_nil hread
        rfl
  · exact read_beyond h hwindow

/-- **The stored messages that the small reader finds**: those whose Message-Id TOML writes in double quotes
as it is, and whose record ends within the first 16 KiB, if these end between two characters. -/
theorem readFrontmatterIdPair_formatFrontmatter_iff (h : t.Lists m front idWritten middle after)
    (hid : m.messageId ≠ []) (htime : '"' ∉ m.receivedAt) {received : Int}
    (hparse : c.parseRfc3339 m.receivedAt = some received) (body : Str) :
    readFrontmatterIdPair c (utf8 (formatFrontmatter t m body)) = some (m.messageId, received) ↔
      IsPlain m.messageId idWritten ∧ byteLen (t.toString m) + 7 ≤ headSize ∧
        WindowWhole (formatFrontmatter t m body) := by
  -- inside the window all hangs on the line of the Message-Id, beyond it nothing is read
  by_cases hwindow : byteLen (t.toString m) + 7 ≤ headSize ∧ WindowWhole (formatFrontmatter t m body)
  · rw [read_within h htime hwindow.1 hwindow.2, hparse, and_iff_left hwindow, ← h.id.quotedStart_iff hid]
    cases quotedStart idWritten with
    | none => simp
    | some messageId =>
        rw [Option.bind_some, Option.bind_some, Option.some.injEq]
        split
        next hempty => exact ⟨fun hnone => (by cases hnone), fun hsame => absurd (hsame ▸ hempty) hid⟩
        next => rw [Option.some.injEq, Prod.mk.injEq, and_iff_left rfl]
  · rw [read_beyond h hwindow]
    exact ⟨fun hnone => (by cases hnone), fun hall => absurd hall.2 hwindow⟩

end Read

/-- A message with an attachment. -/
def helloMeta : InboundFrontmatter :=
  { sampleMeta "hello".toList with
    attachments := [⟨"plan.pdf".toList, "application/pdf".toList, 1024, "plan.pdf".toList⟩] }

/-- A text with its quotes and backslashes behind backslashes is a string of TOML. -/
theorem tomlString_basicString (s : Str) : TomlString s (basicString s) := by
  refine .basic ?_
  induction s with
  | nil => exact .nil
  | cons c s ih =>
      rw [List.flatMap_cons]
      by_cases hc : c = '"' ∨ c = '\\'
      · rw [if_pos hc]
        rcases hc with rfl | rfl
        · exact .quote ih
        · exact @Escaped.escape ['\\'] _ _ '\\' (by decide) ih
      · rw [if_neg hc]
        exact .char (fun h => hc (Or.inl h)) (fun h => hc (Or.inr h)) ih

/-- The lines of a record before and behind those of the Message-Id and the time of arrival. -/
def frontLines (m : InboundFrontmatter) : List Str := (lines (lineToml.toString m)).take 1

def middleLines (m : InboundFrontmatter) : List Str :=
  ((lines (lineToml.toString m)).drop 2).takeWhile fun l => decide (l ≠ timeLine m.receivedAt)

def afterLines (m : InboundFrontmatter) : List Str :=
  (((lines (lineToml.toString m)).drop 2).dropWhile fun l => decide (l ≠ timeLine m.receivedAt)).tail

def allLines (m : InboundFrontmatter) : List Str :=
  frontLines m ++ fieldLine "message_id".toList (basicString m.messageId) ::
    (middleLines m ++ timeLine m.receivedAt :: afterLines m)

/-- A record that `lineToml` prints for the reader. -/
def Laid (m : InboundFrontmatter) : Prop :=
  lineToml.toString m = unlines (allLines m) ∧
    (∀ l ∈ allLines m, '\n' ∉ l ∧ '\r' ∉ l ∧ ¬ "+++".toList <+: l) ∧
    (afterLines m).getLast? ≠ some [] ∧
    ∀ l ∈ frontLines m ++ middleLines m ++ afterLines m,
      ¬ "message_id".toList <+: trimStart l ∧ ¬ "received_at".toList <+: trimStart l

instance : DecidablePred Laid := fun _ => inferInstanceAs (Decidable (_ ∧ _ ∧ _ ∧ _))

theorem Laid.lists {m : InboundFrontmatter} (h : Laid m) :
    lineToml.Lists m (frontLines m) (basicString m.messageId) (middleLines m) (afterLines m) where
  layout := h.1
  id := tomlString_basicString m.messageId
  line := h.2.1
  last := h.2.2.1
  other := h.2.2.2

/-- The record and a short text are found. -/
theorem readFrontmatterIdPair_helloMeta :
    readFrontmatterIdPair newYear (utf8 (formatFrontmatter lineToml helloMeta "Hello\r\n".toList)) =
      some (helloMeta.messageId, 1735689601 * nanosPerSec) := by
  have hshort : 4 * (formatFrontmatter lineToml helloMeta "Hello\r\n".toList).length ≤ headSize := by
    decide +kernel
  have hbytes := (byteLen_le (formatFrontmatter lineToml helloMeta "Hello\r\n".toList)).trans hshort
  obtain ⟨rest, -, htotal⟩ := formatFrontmatter_front lineToml helloMeta "Hello\r\n".toList
  exact (readFrontmatterIdPair_formatFrontmatter_iff (Laid.lists (by decide +kernel)) (by decide) (by decide)
    (by decide +kernel) _).mpr ⟨⟨by decide, by decide⟩, by omega, windowWhole_of_length hshort⟩

end Ingest
end Aimx
