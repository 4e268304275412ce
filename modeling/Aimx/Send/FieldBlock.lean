import Aimx.Send.Parts

/-!
# Blocks of header fields

Messages and parts begin with header fields, one line each, and an empty line.  The scanners of the daemon
find the end of such a block, and the fields in it.

* `headerBlock` — the text in front of the empty line;
* `cutSeparator_headerText`, `headerValue_headerBlock` — where the block ends, and what is read of it;
* `parseRawPart_trimmed` — a part whose trailing line terminators are taken off.
-/

namespace Aimx
namespace Send

open Text
open scoped Literal

/-- A field on one line, under a name without colons and white space. -/
structure IsField (f : Str × Str) : Prop where
  oneLine : OneLine (fieldLine f)
  name_ne_nil : f.1 ≠ []
  name : ∀ c ∈ f.1, c ≠ ':' ∧ isWhitespace c = false

/-- Fields with line terminators between them. -/
def headerBlock : List (Str × Str) → Str
  | [] => []
  | [f] => fieldLine f
  | f :: g :: fields => fieldLine f ++ (crlf ++ headerBlock (g :: fields))

theorem headerText_eq_headerBlock {fields : List (Str × Str)} (hne : fields ≠ []) :
    headerText fields = headerBlock fields ++ crlf := by
  induction fields using headerBlock.induct with
  | case1 => exact absurd rfl hne
  | case2 f => simp [headerText, headerBlock]
  | case3 f g fields ih =>
      have hcons : headerText (f :: g :: fields) = fieldLine f ++ crlf ++ headerText (g :: fields) := rfl
      rw [hcons, ih (by simp), headerBlock]
      simp only [List.append_assoc]

/-! ## Reading a block -/

variable {fields : List (Str × Str)}

theorem lines_headerBlock (h : ∀ f ∈ fields, IsField f) :
    lines (headerBlock fields) = fields.map fieldLine := by
  induction fields using headerBlock.induct with
  | case1 => rfl
  | case2 f =>
      have hline : '\n' ∉ fieldLine f := fun hmem => ((h f (by simp)).oneLine _ hmem).2 rfl
      rw [headerBlock, lines_single hline (fieldLine_ne_nil f)]
      rfl
  | case3 f g fields ih =>
      rw [List.forall_mem_cons] at h
      have hline : '\n' ∉ fieldLine f := fun hmem => (h.1.oneLine _ hmem).2 rfl
      show lines (fieldLine f ++ '\r' :: '\n' :: headerBlock (g :: fields)) = _
      rw [lines_crlf_cons hline, ih h.2]
      rfl

theorem IsField.isContinuation {f : Str × Str} (h : IsField f) : isContinuation (fieldLine f) = false := by
  obtain ⟨c, name, hname⟩ := List.exists_cons_of_ne_nil h.name_ne_nil
  have hc := (h.name c (hname ▸ List.mem_cons_self)).2
  have hspace : c ≠ ' ' := by
    rintro rfl
    exact absurd hc (by decide)
  have htab : c ≠ '\t' := by
    rintro rfl
    exact absurd hc (by decide)
  unfold fieldLine
  rw [hname]
  simp [Send.isContinuation, hspace, htab]

/-- The value of a field, looked up by its name. -/
theorem IsField.valueOf {f : Str × Str} (h : IsField f) (name : Str) :
    valueOf (toAsciiLowercase name) (fieldLine f) =
      if eqIgnoreAsciiCase f.1 name then some (trim f.2) else none := by
  have hsplit : splitOnce ':' (fieldLine f) = some (f.1, ' ' :: f.2) :=
    splitOnce_eq_some_iff.mpr ⟨rfl, fun hmem => (h.name _ hmem).1 rfl⟩
  have hname : trim f.1 = f.1 := trim_eq_self fun c hc => (h.name c hc).2
  have hvalue : trim (' ' :: f.2) = trim f.2 := rfl
  rw [Send.valueOf, hsplit]
  dsimp only
  rw [hname, hvalue, eqIgnoreAsciiCase_toAsciiLowercase]

/-- The loop of `header_value` over the lines of some fields. -/
theorem headerValueFrom_fields (h : ∀ f ∈ fields, IsField f) (name : Str) (current : Option (Str × Str))
    (hcurrent : ∀ f ∈ current, IsField f) :
    headerValueFrom (toAsciiLowercase name) (current.map fieldLine) (fields.map fieldLine) =
      ((current.toList ++ fields).find? fun f => eqIgnoreAsciiCase f.1 name).map fun f => trim f.2 := by
  have hstep : ∀ current : Option (Str × Str), (∀ f ∈ current, IsField f) →
      (current.map fieldLine).bind (valueOf (toAsciiLowercase name)) =
        (current.toList.find? fun f => eqIgnoreAsciiCase f.1 name).map fun f => trim f.2 := by
    intro current hcurrent
    cases current with
    | none => rfl
    | some f =>
        rw [Option.map_some, Option.bind_some, (hcurrent f rfl).valueOf]
        cases hname : eqIgnoreAsciiCase f.1 name <;> simp [hname]
  induction fields generalizing current with
  | nil =>
      rw [List.map_nil, headerValueFrom, hstep current hcurrent, List.append_nil]
  | cons f fields ih =>
      rw [List.forall_mem_cons] at h
      have hrest := ih h.2 (some f) (by rintro _ ⟨⟩; exact h.1)
      rw [List.map_cons, headerValueFrom, h.1.isContinuation, if_neg Bool.false_ne_true,
        hstep current hcurrent, List.find?_append]
      rw [Option.map_some, Option.toList_some, List.singleton_append] at hrest
      cases current.toList.find? fun f => eqIgnoreAsciiCase f.1 name with
      | none => exact hrest
      | some g => rfl

/-- **What `header_value` finds in a block**: the first field of the name. -/
theorem headerValue_headerBlock (h : ∀ f ∈ fields, IsField f) (name : Str) :
    headerValue (headerBlock fields) name =
      (fields.find? fun f => eqIgnoreAsciiCase f.1 name).map fun f => trim f.2 := by
  rw [headerValue, lines_headerBlock h]
  exact headerValueFrom_fields h name none (by simp)

/-! ## The end of a block -/

/-- The separator behind one line. -/
theorem cutSeparator_line {line : Str} (h : '\r' ∉ line) (rest : Str) :
    cutSeparator (line ++ (crlf ++ (crlf ++ rest))) = some (line, crlf, rest) := by
  have hfound : (line ++ (crlf ++ (crlf ++ rest))).dropInfix? "\r\n\r\n".toList = some (line, rest) := by
    refine dropInfix?_eq_some_iff'.mpr ⟨by simp [crlf], fun p s hps => ?_⟩
    by_contra hlt
    have hwhole : p ++ ['\r'] <+: line ++ (crlf ++ (crlf ++ rest)) := by
      rw [hps]
      exact ⟨'\n' :: '\r' :: '\n' :: s, by simp⟩
    have hlength : (p ++ ['\r']).length ≤ line.length := by
      rw [List.length_append, List.length_singleton]
      omega
    have hpre := List.prefix_of_prefix_length_le hwhole (List.prefix_append _ _) hlength
    exact h (hpre.subset (by simp))
  unfold cutSeparator
  rw [hfound]
  rfl

/-- **Where a block ends**: at the first empty line. -/
theorem cutSeparator_headerText (hne : fields ≠ []) (h : ∀ f ∈ fields, IsField f) (rest : Str) :
    cutSeparator (headerText fields ++ (crlf ++ rest)) = some (headerBlock fields, crlf, rest) := by
  rw [headerText_eq_headerBlock hne, List.append_assoc]
  induction fields using headerBlock.induct with
  | case1 => exact absurd rfl hne
  | case2 f =>
      have hline := (h f (by simp)).oneLine
      exact cutSeparator_line (fun hmem => (hline _ hmem).1 rfl) rest
  | case3 f g fields ih =>
      rw [List.forall_mem_cons] at h
      have hline : '\n' ∉ fieldLine f ++ ['\r'] := by
        rw [List.mem_append, not_or]
        exact ⟨fun hmem => (h.1.oneLine _ hmem).2 rfl, by decide⟩
      have hnext : (lines (headerBlock (g :: fields) ++ (crlf ++ (crlf ++ rest)))).head? ≠ some [] := by
        have hshape : headerBlock (g :: fields) ++ (crlf ++ (crlf ++ rest)) =
            headerText (g :: fields) ++ (crlf ++ rest) := by
          rw [headerText_eq_headerBlock (by simp), List.append_assoc]
        rw [hshape, lines_headerText fun f hf => (h.2 f hf).oneLine]
        intro heq
        exact fieldLine_ne_nil g (Option.some.inj heq)
      have hcut : headerBlock (f :: g :: fields) ++ (crlf ++ (crlf ++ rest)) =
          (fieldLine f ++ ['\r']) ++ '\n' :: (headerBlock (g :: fields) ++ (crlf ++ (crlf ++ rest))) := by
        simp [headerBlock, crlf]
      rw [hcut, cutSeparator_line_append hline hnext, ih (by simp) h.2]
      simp [headerBlock, crlf]

/-- There is no empty line in a block. -/
theorem cutSeparator_headerBlock (h : ∀ f ∈ fields, IsField f) :
    cutSeparator (headerBlock fields) = none := by
  cases hcut : cutSeparator (headerBlock fields) with
  | none => rfl
  | some p =>
      obtain ⟨headers, term, rest⟩ := p
      have hlines := lines_eq_of_cutSeparator hcut
      rw [lines_headerBlock h] at hlines
      have hempty : [] ∈ fields.map fieldLine := by
        rw [hlines]
        simp
      obtain ⟨f, -, hf⟩ := List.mem_map.mp hempty
      exact absurd hf (fieldLine_ne_nil f)

/-! ## Parts -/

def isLineEnd (c : Char) : Bool := c == '\n' || c == '\r'

theorem trimTrailingCrlf_utf8 (s : Str) : trimTrailingCrlf (utf8 s) = utf8 (s.rdropWhile isLineEnd) := by
  unfold trimTrailingCrlf
  induction s using List.reverseRecOn with
  | nil => rfl
  | append_singleton s c ih =>
      rw [utf8_append, utf8_cons, utf8_nil, List.append_nil]
      cases hc : isLineEnd c with
      | true =>
          have hbyte : ∃ b : UInt8, String.utf8EncodeChar c = [b] ∧ (b == 0x0A || b == 0x0D) = true := by
            rw [isLineEnd, Bool.or_eq_true, beq_iff_eq, beq_iff_eq] at hc
            rcases hc with rfl | rfl
            · exact ⟨0x0A, rfl, rfl⟩
            · exact ⟨0x0D, rfl, rfl⟩
          obtain ⟨b, hencode, hb⟩ := hbyte
          rw [hencode, List.rdropWhile_concat_pos (fun b => b == 0x0A || b == 0x0D) _ _ hb, ih,
            List.rdropWhile_concat_pos _ _ _ hc]
      | false =>
          obtain ⟨front, b, hencode⟩ := List.eq_nil_or_concat (String.utf8EncodeChar c) |>.resolve_left
            String.utf8EncodeChar_ne_nil
          rw [List.concat_eq_append] at hencode
          have hb : (b == 0x0A || b == 0x0D) = false := by
            rw [Bool.or_eq_false_iff, beq_eq_false_iff_ne, beq_eq_false_iff_ne]
            -- a character with such a byte is a line terminator
            have hchar : ∀ d : Char, String.utf8EncodeChar d = [b] → b < 0x80 → isLineEnd d ≠ true := by
              intro d hd hascii hend
              have hmem : b ∈ String.utf8EncodeChar c := by
                rw [hencode]
                simp
              have hbytes : String.utf8EncodeChar c ++ [] = String.utf8EncodeChar d ++ [] := by
                rw [utf8EncodeChar_eq_of_mem_ascii hmem hascii, hd]
              rw [(utf8EncodeChar_append_inj hbytes).1, hend] at hc
              cases hc
            refine ⟨?_, ?_⟩
            · rintro rfl
              exact hchar '\n' rfl (by decide) rfl
            · rintro rfl
              exact hchar '\r' rfl (by decide) rfl
          have hneg : ¬ isLineEnd c = true := by
            rw [hc]
            exact Bool.false_ne_true
          have hstop : ¬ (b == 0x0A || b == 0x0D) = true := by
            rw [hb]
            exact Bool.false_ne_true
          rw [hencode, ← List.append_assoc,
            List.rdropWhile_concat_neg (fun b => b == 0x0A || b == 0x0D) _ _ hstop,
            List.rdropWhile_concat_neg _ _ _ hneg, utf8_append, utf8_cons, utf8_nil, List.append_nil, hencode,
            List.append_assoc]

/-- Line terminators behind a text are taken off with those at its end. -/
theorem rdropWhile_append_text (front s : Str) :
    (front ++ s).rdropWhile isLineEnd =
      if s.rdropWhile isLineEnd = [] then front.rdropWhile isLineEnd
      else front ++ s.rdropWhile isLineEnd := by
  induction s using List.reverseRecOn with
  | nil => simp
  | append_singleton s c ih =>
      rw [← List.append_assoc]
      by_cases hc : isLineEnd c = true
      · rw [List.rdropWhile_concat_pos _ _ _ hc, List.rdropWhile_concat_pos _ _ _ hc, ih]
      · rw [List.rdropWhile_concat_neg _ _ _ hc, List.rdropWhile_concat_neg _ _ _ hc, if_neg (by simp),
          List.append_assoc]

/-- A block has no line terminator at its end. -/
theorem rdropWhile_headerBlock (h : ∀ f ∈ fields, IsField f) :
    (headerBlock fields).rdropWhile isLineEnd = headerBlock fields := by
  have hline : ∀ f : Str × Str, IsField f → ∀ front : Str,
      (front ++ fieldLine f).rdropWhile isLineEnd = front ++ fieldLine f := by
    intro f hf front
    have hself : (fieldLine f).rdropWhile isLineEnd = fieldLine f := by
      rw [List.rdropWhile_eq_self_iff]
      intro hne hend
      obtain ⟨hcr, hlf⟩ := hf.oneLine _ (List.getLast_mem hne)
      rw [isLineEnd, Bool.or_eq_true, beq_iff_eq, beq_iff_eq] at hend
      exact hend.elim hlf hcr
    rw [rdropWhile_append_text, hself, if_neg (fieldLine_ne_nil f)]
  induction fields using headerBlock.induct with
  | case1 => rfl
  | case2 f => exact hline f (h f (by simp)) []
  | case3 f g fields ih =>
      rw [List.forall_mem_cons] at h
      have hrest := ih h.2
      have hne : headerBlock (g :: fields) ≠ [] := by
        cases fields with
        | nil => exact fieldLine_ne_nil g
        | cons => exact List.append_ne_nil_of_left_ne_nil (fieldLine_ne_nil g) _
      rw [headerBlock, ← List.append_assoc, rdropWhile_append_text, hrest, if_neg hne]

theorem parseRawPart_headerText (hne : fields ≠ []) (h : ∀ f ∈ fields, IsField f) (content : Str) :
    parseRawPart (utf8 (headerText fields ++ (crlf ++ content))) =
      some ⟨headerBlock fields, utf8 content⟩ := by
  have hcut := cutSeparator_headerText hne h content
  have hwhole : utf8 (headerText fields ++ (crlf ++ content)) =
      utf8 (headerBlock fields) ++ (utf8 (crlf ++ crlf) ++ utf8 content) := by
    rw [headerText_eq_headerBlock hne]
    simp only [utf8_append, List.append_assoc]
  have hdecode : fromUtf8 (utf8 (headerBlock fields)) = some (headerBlock fields) :=
    fromUtf8_eq_some_iff.mpr rfl
  unfold parseRawPart
  rw [findHeaderSeparator_utf8, hcut, Option.map_some]
  dsimp only
  rw [hwhole, List.take_left, hdecode, ← List.append_assoc, ← List.length_append, List.drop_left]
  rfl

theorem parseRawPart_headerBlock (h : ∀ f ∈ fields, IsField f) :
    parseRawPart (utf8 (headerBlock fields)) = none := by
  unfold parseRawPart
  rw [findHeaderSeparator_utf8, cutSeparator_headerBlock h]
  rfl

/-- **A part without the line terminators at its end**: there is nothing to parse when it has no other
content. -/
theorem parseRawPart_trimmed (hne : fields ≠ []) (h : ∀ f ∈ fields, IsField f) (content : Str) :
    parseRawPart (trimTrailingCrlf (utf8 (headerText fields ++ (crlf ++ content)))) =
      if content.rdropWhile isLineEnd = [] then none
      else some ⟨headerBlock fields, utf8 (content.rdropWhile isLineEnd)⟩ := by
  have hfront : (headerText fields ++ crlf).rdropWhile isLineEnd = headerBlock fields := by
    rw [headerText_eq_headerBlock hne, List.append_assoc, rdropWhile_append_text, if_pos (by decide),
      rdropWhile_headerBlock h]
  rw [trimTrailingCrlf_utf8, ← List.append_assoc, rdropWhile_append_text, hfront]
  split
  · exact parseRawPart_headerBlock h
  · rw [List.append_assoc]
    exact parseRawPart_headerText hne h _

end Send
end Aimx
