import Aimx.Text.Base64
import Aimx.Text.Multipart
import Aimx.Text.Quoted
import Aimx.Text.Utf8

/-!
# Reading MIME messages

A reader of RFC 5322 headers and of the bodies of RFC 2045 and RFC 2046.  A message is read as a tree: a leaf
has the bytes of its decoded body, and a node has the parts of a multipart body.

* `readEntity` — the fields of an entity, unfolded, and its body;
* `paramValue` — a parameter of a structured field;
* `read` — the tree of an entity, down to a depth;
* `Tree.plainTexts`, `Tree.files` — what a reader shows of it;
* `read_leaf`, `read_node` — the tree of a written entity.
-/

namespace Aimx
namespace Text
namespace Mime

open Rfc2045
open scoped Literal

abbrev Fields := List (Str × Str)

/-! ## The header -/

/-- Lines with those that continue them. -/
def unfold : List Bytes → List Bytes
  | [] => []
  | line :: rest =>
      match unfold rest with
      | [] => [line]
      | next :: more => if next.head?.any isBlank then (line ++ next) :: more else line :: next :: more

def readField (line : Bytes) : Option (Str × Str) :=
  (fromUtf8 line).bind fun text => (splitOnce ':' text).map fun cut => (cut.1, trim cut.2)

/-- The fields in front of the first empty line, and what is behind it. -/
def readEntity (bytes : Bytes) : Option (Fields × Bytes) :=
  match (breakLines bytes).dropWhile (· ≠ []) with
  | [] => none
  | _ :: body =>
      ((unfold ((breakLines bytes).takeWhile (· ≠ []))).mapM readField).map fun fields =>
        (fields, joinLines body)

/-- The value of the first field of a name. -/
def fieldValue (fields : Fields) (name : Str) : Option Str :=
  (fields.find? fun f => eqIgnoreAsciiCase f.1 name).map Prod.snd

/-- The text of a quoted string, behind its opening quote. -/
def unquote : Str → Option Str
  | [] => none
  | ['\\'] => none
  | '\\' :: c :: rest => (unquote rest).map (c :: ·)
  | '"' :: _ => some []
  | c :: rest => (unquote rest).map (c :: ·)

/-- The value of a parameter in a piece between semicolons, if the piece has the name. -/
def pieceValue (name piece : Str) : Option Str :=
  (splitOnce '=' piece).bind fun cut =>
    if eqIgnoreAsciiCase (trim cut.1) name then
      match trim cut.2 with
      | '"' :: quoted => unquote quoted
      | token => some token
    else none

/-- The value of a parameter. -/
def paramValue (value name : Str) : Option Str :=
  (splitOutside ';' .outside value).tail.findSome? (pieceValue name)

/-- The boundary of a multipart entity. -/
def boundaryOf (fields : Fields) : Option Str :=
  (fieldValue fields "Content-Type".toList).bind fun value =>
    if "multipart/".toList <+: toAsciiLowercase value then paramValue value "boundary".toList else none

/-! ## The body -/

/-- The encodings of RFC 2045; other characters than those of the alphabet are ignored in base64. -/
def decodeBody (fields : Fields) (content : Bytes) : Option Bytes :=
  match (fieldValue fields "Content-Transfer-Encoding".toList).map toAsciiLowercase with
  | some encoding =>
      if encoding = "base64".toList then
        (fromUtf8 content).bind fun text => Base64.decode (text.filter fun c => Base64.IsSextetOrPad c)
      else if encoding = "quoted-printable".toList then some (Rfc2045.decode content)
      else if encoding = "7bit".toList ∨ encoding = "8bit".toList ∨ encoding = "binary".toList then
        some content
      else none
  | none => some content

/-- What a message is read as. -/
inductive Tree
  | leaf (fields : Fields) (data : Bytes)
  | node (fields : Fields) (parts : List Tree)

/-- The tree of an entity, down to a depth. -/
def read : Nat → Bytes → Option Tree
  | 0, _ => none
  | depth + 1, bytes =>
      (readEntity bytes).bind fun entity =>
        match boundaryOf entity.1 with
        | some boundary =>
            (Multipart.read (utf8 ("--".toList ++ boundary)) entity.2).bind fun parts =>
              (parts.mapM (read depth)).map (.node entity.1)
        | none => (decodeBody entity.1 entity.2).map (.leaf entity.1)

/-! ## What a reader shows -/

mutual

/-- The leaves of a tree, in order. -/
def Tree.leaves : Tree → List (Fields × Bytes)
  | .leaf fields data => [(fields, data)]
  | .node _ parts => Tree.leavesOf parts

def Tree.leavesOf : List Tree → List (Fields × Bytes)
  | [] => []
  | part :: parts => part.leaves ++ Tree.leavesOf parts

end

/-- The value of a structured field, in front of its parameters. -/
def primaryOf (value : Str) : Str := toAsciiLowercase (trim ((splitOutside ';' .outside value).headD []))

/-- The disposition of RFC 2183 for a part that is a file. -/
def isAttachment (fields : Fields) : Bool :=
  (fieldValue fields "Content-Disposition".toList).any fun value => primaryOf value == "attachment".toList

def isPlainText (fields : Fields) : Bool :=
  !isAttachment fields &&
    (fieldValue fields "Content-Type".toList).any fun value => primaryOf value == "text/plain".toList

/-- The name of a file. -/
def fileName (fields : Fields) : Option Str :=
  (fieldValue fields "Content-Disposition".toList).bind fun value => paramValue value "filename".toList

/-- The plain texts of a message. -/
def Tree.plainTexts (tree : Tree) : List Bytes :=
  (tree.leaves.filter fun leaf => isPlainText leaf.1).map Prod.snd

/-- The files of a message, under their names. -/
def Tree.files (tree : Tree) : List (Option Str × Bytes) :=
  (tree.leaves.filter fun leaf => isAttachment leaf.1).map fun leaf => (fileName leaf.1, leaf.2)

theorem Tree.leavesOf_eq (parts : List Tree) : Tree.leavesOf parts = parts.flatMap Tree.leaves := by
  induction parts with
  | nil => rfl
  | cons part parts ih => rw [Tree.leavesOf, ih, List.flatMap_cons]

theorem Tree.plainTexts_leaf (fields : Fields) (data : Bytes) :
    (Tree.leaf fields data).plainTexts = if isPlainText fields then [data] else [] := by
  unfold Tree.plainTexts Tree.leaves
  cases h : isPlainText fields <;> simp [h]

theorem Tree.files_leaf (fields : Fields) (data : Bytes) :
    (Tree.leaf fields data).files = if isAttachment fields then [(fileName fields, data)] else [] := by
  unfold Tree.files Tree.leaves
  cases h : isAttachment fields <;> simp [h]

/-- The texts and the files of the parts are those of the whole. -/
theorem Tree.plainTexts_node (fields : Fields) (parts : List Tree) :
    (Tree.node fields parts).plainTexts = parts.flatMap Tree.plainTexts := by
  unfold Tree.plainTexts
  rw [Tree.leaves, Tree.leavesOf_eq, List.filter_flatMap, List.map_flatMap]

theorem Tree.files_node (fields : Fields) (parts : List Tree) :
    (Tree.node fields parts).files = parts.flatMap Tree.files := by
  unfold Tree.files
  rw [Tree.leaves, Tree.leavesOf_eq, List.filter_flatMap, List.map_flatMap]

theorem primaryOf_append {primary : Str} (h : ∀ c ∈ primary, c ≠ '"' ∧ c ≠ ';') (rest : Str) :
    primaryOf (primary ++ ';' :: rest) = toAsciiLowercase (trim primary) := by
  rw [primaryOf, splitOutside_cons (Segment.plain h), List.headD_cons]

/-! ## Written headers -/

/-- A field that can be written on one line. -/
structure IsField (f : Str × Str) : Prop where
  name_ne_nil : f.1 ≠ []
  name : ∀ c ∈ f.1, c ≠ ':' ∧ isWhitespace c = false
  value : ∀ c ∈ f.2, c ≠ '\r' ∧ c ≠ '\n'

def fieldLine (f : Str × Str) : Str := f.1 ++ ':' :: ' ' :: f.2

/-- Fields, each on a line of its own. -/
def header (fields : Fields) : Str := fields.flatMap fun f => fieldLine f ++ ['\r', '\n']

/-- An entity: its fields, an empty line and its body. -/
def entity (fields : Fields) (content : Bytes) : Bytes :=
  utf8 (header fields) ++ (Multipart.crlf ++ content)

variable {fields : Fields}

theorem IsField.oneLine {f : Str × Str} (h : IsField f) : ∀ c ∈ fieldLine f, c ≠ '\r' ∧ c ≠ '\n' := by
  unfold fieldLine
  refine List.forall_mem_append.mpr ⟨fun c hc => ?_, ?_⟩
  · have hvisible := (h.name c hc).2
    refine ⟨?_, ?_⟩ <;> rintro rfl <;> exact absurd hvisible (by decide)
  · simp only [List.forall_mem_cons]
    exact ⟨by decide, by decide, h.value⟩

theorem IsField.noBreak {f : Str × Str} (h : IsField f) : (0x0D : UInt8) ∉ utf8 (fieldLine f) := by
  intro hmem
  obtain ⟨c, hc, hbyte⟩ := List.mem_flatMap.mp hmem
  have hone := utf8EncodeChar_eq_of_mem_ascii hbyte (by decide)
  have hbytes : String.utf8EncodeChar c ++ [] = String.utf8EncodeChar '\r' ++ [] := by
    rw [hone]
    rfl
  exact (h.oneLine c hc).1 (utf8EncodeChar_append_inj hbytes).1

theorem IsField.readField {f : Str × Str} (h : IsField f) :
    readField (utf8 (fieldLine f)) = some (f.1, trim f.2) := by
  have hsplit : splitOnce ':' (fieldLine f) = some (f.1, ' ' :: f.2) :=
    splitOnce_eq_some_iff.mpr ⟨rfl, fun hmem => (h.name _ hmem).1 rfl⟩
  rw [Mime.readField, fromUtf8_eq_some_iff.mpr rfl, Option.bind_some, hsplit]
  rfl

/-- A field does not begin with a blank. -/
theorem IsField.notBlank {f : Str × Str} (h : IsField f) :
    (utf8 (fieldLine f)).head?.any isBlank = false := by
  obtain ⟨c, name, hname⟩ := List.exists_cons_of_ne_nil h.name_ne_nil
  have hvisible := (h.name c (hname ▸ List.mem_cons_self)).2
  unfold fieldLine
  rw [hname, List.cons_append, utf8_cons]
  cases hencode : String.utf8EncodeChar c with
  | nil => exact absurd hencode String.utf8EncodeChar_ne_nil
  | cons b bs =>
      have hchar : ∀ d : Char, String.utf8EncodeChar d = [b] → b < 0x80 → isWhitespace d = true → False := by
        intro d hd hascii hblank
        have hone := utf8EncodeChar_eq_of_mem_ascii (hencode ▸ List.mem_cons_self) hascii
        have hbytes : String.utf8EncodeChar c ++ [] = String.utf8EncodeChar d ++ [] := by rw [hone, hd]
        rw [(utf8EncodeChar_append_inj hbytes).1, hblank] at hvisible
        cases hvisible
      show (b == 0x20 || b == 0x09) = false
      rw [Bool.or_eq_false_iff, beq_eq_false_iff_ne, beq_eq_false_iff_ne]
      refine ⟨?_, ?_⟩
      · rintro rfl
        exact hchar ' ' rfl (by decide) rfl
      · rintro rfl
        exact hchar '\t' rfl (by decide) rfl

/-- No field is folded. -/
theorem unfold_fields (h : ∀ f ∈ fields, IsField f) :
    unfold (fields.map fun f => utf8 (fieldLine f)) = fields.map fun f => utf8 (fieldLine f) := by
  induction fields with
  | nil => rfl
  | cons f fields ih =>
      rw [List.forall_mem_cons] at h
      rw [List.map_cons, unfold, ih h.2]
      cases fields with
      | nil => rfl
      | cons g fields =>
          rw [List.map_cons]
          dsimp only
          rw [(h.2 g (by simp)).notBlank, if_neg Bool.false_ne_true]

/-- The lines of an entity. -/
theorem breakLines_entity (h : ∀ f ∈ fields, IsField f) (content : Bytes) :
    breakLines (entity fields content) =
      (fields.map fun f => utf8 (fieldLine f)) ++ [] :: breakLines content := by
  unfold entity
  induction fields with
  | nil => exact Multipart.breakLines_append_crlf [] content
  | cons f fields ih =>
      rw [List.forall_mem_cons] at h
      have hsplit : utf8 (header (f :: fields)) ++ (Multipart.crlf ++ content) =
          utf8 (fieldLine f) ++ Multipart.crlf ++ (utf8 (header fields) ++ (Multipart.crlf ++ content)) := by
        have hcrlf : utf8 ['\r', '\n'] = Multipart.crlf := rfl
        simp only [header, List.flatMap_cons, utf8_append, hcrlf, List.append_assoc]
      rw [hsplit, Multipart.breakLines_append_crlf, ih h.2, breakLines_of_notMem h.1.noBreak]
      rfl

theorem utf8_fieldLine_ne_nil (f : Str × Str) : utf8 (fieldLine f) ≠ [] := by
  have hcolon : utf8 (fieldLine f) = utf8 f.1 ++ 0x3A :: utf8 (' ' :: f.2) := by
    rw [fieldLine, utf8_append]
    rfl
  rw [hcolon]
  simp

/-- **What is read of a written entity.** -/
theorem readEntity_entity (h : ∀ f ∈ fields, IsField f) (content : Bytes) :
    readEntity (entity fields content) = some (fields.map fun f => (f.1, trim f.2), content) := by
  have hfull : ∀ line ∈ fields.map fun f => utf8 (fieldLine f), (decide (line ≠ []) : Bool) = true := by
    intro line hline
    obtain ⟨f, -, rfl⟩ := List.mem_map.mp hline
    exact decide_eq_true (utf8_fieldLine_ne_nil f)
  have hread : (fields.map fun f => utf8 (fieldLine f)).mapM readField =
      some (fields.map fun f => (f.1, trim f.2)) := by
    clear hfull
    induction fields with
    | nil => rfl
    | cons f fields ih =>
        rw [List.forall_mem_cons] at h
        rw [List.map_cons, List.mapM_cons, h.1.readField, ih h.2]
        rfl
  unfold readEntity
  rw [breakLines_entity h, List.dropWhile_append_of_pos hfull, List.takeWhile_append_of_pos hfull,
    List.dropWhile_cons_of_neg (by simp), List.takeWhile_cons_of_neg (by simp), List.append_nil,
    unfold_fields h, hread]
  dsimp only
  rw [Option.map_some, Multipart.joinLines_breakLines]

/-- No line of an entity begins with a delimiter, if none of its body does. -/
theorem fresh_entity (h : ∀ f ∈ fields, IsField f) {delimiter : Bytes} (hne : delimiter ≠ [])
    (hfields : ∀ f ∈ fields, ¬ delimiter <+: utf8 (fieldLine f)) {content : Bytes}
    (hcontent : Multipart.Fresh delimiter content) : Multipart.Fresh delimiter (entity fields content) := by
  intro line hline
  rw [breakLines_entity h] at hline
  rcases List.mem_append.mp hline with hline | hline
  · obtain ⟨f, hf, rfl⟩ := List.mem_map.mp hline
    exact hfields f hf
  · rcases List.mem_cons.mp hline with rfl | hline
    · exact fun hpre => hne (List.prefix_nil.mp hpre)
    · exact hcontent line hline

/-! ## Written parameters -/

theorem unquote_quotedBody {raw text : Str} (h : QuotedBody raw text) (rest : Str) :
    unquote (raw ++ '"' :: rest) = some text := by
  induction h with
  | nil => rfl
  | @char c raw text hslash hquote _ ih =>
      rw [List.cons_append, unquote, ih]
      · rfl
      all_goals intros; simp_all
  | pair _ ih =>
      rw [List.cons_append, List.cons_append, unquote, ih]
      rfl

/-- A text that begins and ends with a quote is not trimmed. -/
theorem trim_quoted (raw : Str) : trim ('"' :: (raw ++ ['"'])) = '"' :: (raw ++ ['"']) := by
  have hquote : isWhitespace '"' = false := by decide
  have hstart : trimStart ('"' :: (raw ++ ['"'])) = ('"' :: raw) ++ ['"'] :=
    List.dropWhile_cons_of_neg (by simp [hquote])
  rw [trim, hstart, trimEnd_concat_visible _ hquote, List.cons_append]

/-- **What is read of a quoted parameter.** -/
theorem paramValue_quoted {primary name raw text : Str} (hprimary : ∀ c ∈ primary, c ≠ '"' ∧ c ≠ ';')
    (hname : ∀ c ∈ name, c ≠ '=' ∧ c ≠ ';' ∧ c ≠ '"' ∧ isWhitespace c = false)
    (h : QuotedBody raw text) (asked : Str) :
    paramValue (primary ++ ';' :: ' ' :: (name ++ '=' :: '"' :: (raw ++ ['"']))) asked =
      if eqIgnoreAsciiCase name asked then some text else none := by
  have hpiece : Segment ';' (' ' :: (name ++ '=' :: '"' :: (raw ++ ['"']))) := by
    have hfront : Segment ';' (' ' :: (name ++ ['='])) := by
      refine Segment.plain (List.forall_mem_cons.mpr ⟨by decide, List.forall_mem_append.mpr ⟨?_, by decide⟩⟩)
      exact fun c hc => ⟨(hname c hc).2.2.1, (hname c hc).2.1⟩
    have hwhole := hfront.append (h.segment (by decide))
    simpa using hwhole
  have hsplit : splitOnce '=' (' ' :: (name ++ '=' :: '"' :: (raw ++ ['"']))) =
      some (' ' :: name, '"' :: (raw ++ ['"'])) := by
    refine splitOnce_eq_some_iff.mpr ⟨rfl, ?_⟩
    rw [List.mem_cons, not_or]
    exact ⟨by decide, fun hmem => (hname _ hmem).1 rfl⟩
  have htrim : trim (' ' :: name) = name := by
    show trim name = name
    exact trim_eq_self fun c hc => (hname c hc).2.2.2
  have hvalue : pieceValue asked (' ' :: (name ++ '=' :: '"' :: (raw ++ ['"']))) =
      if eqIgnoreAsciiCase name asked then some text else none := by
    rw [pieceValue, hsplit, Option.bind_some, htrim, trim_quoted]
    show (if eqIgnoreAsciiCase name asked then unquote (raw ++ ['"']) else none) = _
    rw [unquote_quotedBody h []]
  unfold paramValue
  rw [splitOutside_cons (Segment.plain hprimary), hpiece.whole, List.tail_cons, List.findSome?_cons, hvalue]
  cases eqIgnoreAsciiCase name asked <;> rfl

/-! ## Written trees -/

/-- The fields as they are read. -/
def trimmed (fields : Fields) : Fields := fields.map fun f => (f.1, trim f.2)

/-- **The tree of an entity without parts.** -/
theorem read_leaf (h : ∀ f ∈ fields, IsField f) (hboundary : boundaryOf (trimmed fields) = none)
    {content data : Bytes} (hdata : decodeBody (trimmed fields) content = some data) (depth : Nat) :
    read (depth + 1) (entity fields content) = some (.leaf (trimmed fields) data) := by
  have hentity : readEntity (entity fields content) = some (trimmed fields, content) :=
    readEntity_entity h content
  rw [read, hentity, Option.bind_some]
  dsimp only
  rw [hboundary, hdata]
  rfl

/-- **The tree of an entity with parts**, each of which is read as a tree. -/
theorem read_node (h : ∀ f ∈ fields, IsField f) {boundary : Str}
    (hboundary : boundaryOf (trimmed fields) = some boundary)
    (hdelimiter : Multipart.IsDelimiter (utf8 ("--".toList ++ boundary))) {parts : List Bytes}
    (hne : parts ≠ []) (hfresh : ∀ part ∈ parts, Multipart.Fresh (utf8 ("--".toList ++ boundary)) part)
    {depth : Nat} {trees : List Tree} (htrees : parts.map (read depth) = trees.map some) :
    read (depth + 1) (entity fields (Multipart.write (utf8 ("--".toList ++ boundary)) parts)) =
      some (.node (trimmed fields) trees) := by
  have hmapM : ∀ (parts : List Bytes) (trees : List Tree), parts.map (read depth) = trees.map some →
      parts.mapM (read depth) = some trees := by
    intro parts
    induction parts with
    | nil =>
        intro trees htrees
        cases trees with
        | nil => rfl
        | cons tree trees => cases htrees
    | cons part parts ih =>
        intro trees htrees
        cases trees with
        | nil => cases htrees
        | cons tree trees =>
            obtain ⟨hpart, hparts⟩ := List.cons.inj htrees
            rw [List.mapM_cons, hpart, ih trees hparts]
            rfl
  have hentity : readEntity (entity fields (Multipart.write (utf8 ("--".toList ++ boundary)) parts)) =
      some (trimmed fields, Multipart.write (utf8 ("--".toList ++ boundary)) parts) := readEntity_entity h _
  rw [read, hentity, Option.bind_some]
  dsimp only
  rw [hboundary]
  dsimp only
  rw [Multipart.read_write hdelimiter hne hfresh, Option.bind_some, hmapM parts trees htrees]
  rfl

end Mime
end Text
end Aimx
