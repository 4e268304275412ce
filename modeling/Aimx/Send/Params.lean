import Aimx.Text.Quoted

/-!
# Parameters of a header value

The sender writes a file name as a quoted parameter, and SEND reads the parameters of the parts that it
gets.

* `escapeFilename`, `extractQuotedParam`, `splitParamsQuoteAware`, `decodeQuotedValue` — the functions of
  the source;
* `Param` — a parameter as it may be written, and `extractQuotedParam_headerText`: what a lookup finds among
  such parameters;
* `Present` — a parameter of the name anywhere in a text;
* `extractQuotedParam_escapeFilename` — a file name comes back, and nothing comes for an absent name.
-/

namespace Aimx
namespace Send

open Text
open scoped Literal

/-! ## Writing -/

/-- `str::replace` of one character. -/
def replaceChar (c : Char) (sub s : Str) : Str := s.flatMap fun d => if d = c then sub else [d]

/-- `escape_filename` of `wire_assembly.rs`. -/
def escapeFilename (name : Str) : Str :=
  replaceChar '\n' " ".toList (replaceChar '\r' [] (replaceChar '"' "\\\"".toList
    (replaceChar '\\' "\\\\".toList name)))

/-- `escape_filename` of `send.rs`. -/
def Compose.escapeFilename (name : Str) : Str :=
  replaceChar '\n' " ".toList (replaceChar '\r' [] (replaceChar '"' "\\\"".toList
    (replaceChar '\\' "\\\\".toList name)))

/-! ## Reading -/

/-- The loop of `split_params_quote_aware` from a character on, with its two flags. -/
def splitParamsFrom : Bool → Bool → Str → List Str
  | _, _, [] => [[]]
  | inQuote, escapeNext, c :: s =>
    if escapeNext then (splitParamsFrom inQuote false s).modifyHead (c :: ·)
    else if inQuote then
      if c = '\\' then (splitParamsFrom true true s).modifyHead (c :: ·)
      else if c = '"' then (splitParamsFrom false false s).modifyHead (c :: ·)
      else (splitParamsFrom true false s).modifyHead (c :: ·)
    else if c = '"' then (splitParamsFrom true false s).modifyHead (c :: ·)
    else if c = ';' then [] :: splitParamsFrom false false s
    else (splitParamsFrom false false s).modifyHead (c :: ·)

def splitParamsQuoteAware (s : Str) : List Str := splitParamsFrom false false s

def decodeQuotedValue : Str → Option Str
  | [] => none
  | '\\' :: [] => none
  | '\\' :: next :: chars => (decodeQuotedValue chars).map (next :: ·)
  | '"' :: _ => some []
  | other :: chars => (decodeQuotedValue chars).map (other :: ·)

/-- The value behind the equals sign of a parameter, quoted or not. -/
def readValue (value : Str) : Option Str :=
  match stripPrefix ['"'] value with
  | some stripped => decodeQuotedValue stripped
  | none =>
    let token := value.takeWhile fun c => !(c == ';' || isWhitespace c)
    if token = [] then none else some token

/-- The loop of `extract_quoted_param` over the segments behind the primary value. -/
def extractFrom (lowerName : Str) : List Str → Option Str
  | [] => none
  | segment :: segments =>
    match splitOnce '=' (trim segment) with
    | none => extractFrom lowerName segments
    | some (rawName, rawValue) =>
      if !eqIgnoreAsciiCase (trim rawName) lowerName then extractFrom lowerName segments
      else readValue (trimStart rawValue)

def extractQuotedParam (s name : Str) : Option Str :=
  extractFrom (toAsciiLowercase name) (splitParamsQuoteAware s).tail

/-! ## Parameters -/

/-- What may stand for the name of a parameter. -/
structure IsParamName (name : Str) : Prop where
  ne_nil : name ≠ []
  plain : ∀ c ∈ name, c ≠ '=' ∧ c ≠ ';' ∧ c ≠ '"' ∧ isWhitespace c = false

/-- A value as it is written, a token or a quoted string, and the value. -/
inductive HasValue : Str → Str → Prop
  | token {t : Str} (hne : t ≠ []) (h : ∀ c ∈ t, c ≠ ';' ∧ c ≠ '"' ∧ isWhitespace c = false) : HasValue t t
  | quoted {raw text : Str} (h : QuotedBody raw text) : HasValue ('"' :: (raw ++ ['"'])) text

/-- A parameter behind its semicolon, with the blanks that may stand around its parts. -/
structure Param where
  lead : Str
  name : Str
  nameEnd : Str
  valueStart : Str
  written : Str
  trail : Str
  value : Str
  isParamName : IsParamName name
  hasValue : HasValue written value
  blank : ∀ c ∈ lead ++ nameEnd ++ valueStart ++ trail, isWhitespace c = true

def Param.text (p : Param) : Str :=
  p.lead ++ (p.name ++ p.nameEnd ++ '=' :: (p.valueStart ++ p.written)) ++ p.trail

/-- Parameters one behind the other. -/
def paramsText (params : List Param) : Str := params.flatMap fun p => ';' :: p.text

/-- A primary value: a media type or a disposition. -/
def IsPrimary (primary : Str) : Prop := ∀ c ∈ primary, c ≠ '"' ∧ c ≠ ';'

/-- A parameter of the name anywhere in a text: behind a semicolon outside of the quoted strings. -/
def Present (s name : Str) : Prop :=
  ∃ pre rawName rest, s = pre ++ ';' :: (rawName ++ '=' :: rest) ∧
    QuoteState.outside.after pre = .outside ∧ eqIgnoreAsciiCase (trim rawName) name = true

/-! ## The scanners in step -/

/-- The two flags of the loop stand for the three places of a scan. -/
theorem splitParamsFrom_eq (s : Str) :
    splitParamsFrom false false s = splitOutside ';' .outside s ∧
    splitParamsFrom true false s = splitOutside ';' .inside s ∧
    splitParamsFrom true true s = splitOutside ';' .escaped s := by
  induction s with
  | nil => exact ⟨rfl, rfl, rfl⟩
  | cons c s ih =>
    obtain ⟨hout, hin, hesc⟩ := ih
    refine ⟨?_, ?_, ?_⟩
    · by_cases hquote : c = '"'
      · simp [splitParamsFrom, splitOutside, QuoteState.next, hquote, hin]
      · by_cases hsep : c = ';'
        · simp [splitParamsFrom, splitOutside, hsep, hout]
        · simp [splitParamsFrom, splitOutside, QuoteState.next, hquote, hsep, hout]
    · by_cases hslash : c = '\\'
      · simp [splitParamsFrom, splitOutside, QuoteState.next, hslash, hesc]
      · by_cases hquote : c = '"'
        · simp [splitParamsFrom, splitOutside, QuoteState.next, hquote, hout]
        · simp [splitParamsFrom, splitOutside, QuoteState.next, hslash, hquote, hin]
    · simp [splitParamsFrom, splitOutside, QuoteState.next, hin]

theorem splitParamsQuoteAware_eq (s : Str) : splitParamsQuoteAware s = splitOutside ';' .outside s :=
  (splitParamsFrom_eq s).1

/-- The contents of a quoted string are decoded up to the quote that ends it. -/
theorem decodeQuotedValue_quotedBody {raw text : Str} (h : QuotedBody raw text) (rest : Str) :
    decodeQuotedValue (raw ++ '"' :: rest) = some text := by
  induction h with
  | nil => rfl
  | @char c raw text hslash hquote _ ih =>
    rw [List.cons_append, decodeQuotedValue, ih]
    · rfl
    all_goals intros; simp_all
  | pair _ ih =>
    rw [List.cons_append, List.cons_append, decodeQuotedValue, ih]
    rfl

theorem escapeFilename_cons (c : Char) (f : Str) :
    escapeFilename (c :: f) = escapeFilename [c] ++ escapeFilename f := by
  simp [escapeFilename, replaceChar]

/-- A file name is escaped into the contents of a quoted string. -/
theorem quotedBody_escapeFilename {f : Str} (hcr : '\r' ∉ f) (hlf : '\n' ∉ f) :
    QuotedBody (escapeFilename f) f := by
  induction f with
  | nil => exact .nil
  | cons c f ih =>
    rw [List.mem_cons, not_or] at hcr hlf
    rw [escapeFilename_cons]
    have hc : QuotedBody (escapeFilename [c]) [c] := by
      by_cases hslash : c = '\\'
      · subst hslash
        exact .pair .nil
      · by_cases hquote : c = '"'
        · subst hquote
          exact .pair .nil
        · have hplain : escapeFilename [c] = [c] := by
            simp [escapeFilename, replaceChar, hslash, hquote, Ne.symm hcr.1, Ne.symm hlf.1]
          rw [hplain]
          exact .char hslash hquote .nil
    exact hc.append (ih hcr.2 hlf.2)

/-- Blanks around a text are trimmed away, down to its own first and last character. -/
theorem trim_pad {a b x : Str} (ha : ∀ c ∈ a, isWhitespace c = true) (hb : ∀ c ∈ b, isWhitespace c = true)
    (hfirst : ∀ c ∈ x.head?, isWhitespace c = false) (hlast : ∀ c ∈ x.getLast?, isWhitespace c = false)
    (hne : x ≠ []) : trim (a ++ x ++ b) = x := by
  obtain ⟨c, x, rfl⟩ := List.exists_cons_of_ne_nil hne
  have hstart : trimStart (a ++ (c :: x) ++ b) = (c :: x) ++ b := by
    rw [trimStart, List.append_assoc, List.dropWhile_append_of_pos ha, List.cons_append,
      List.dropWhile_cons_of_neg]
    simp [hfirst c rfl]
  rw [trim, hstart, trimEnd, List.rdropWhile, List.reverse_append,
    List.dropWhile_append_of_pos (by simpa using hb)]
  refine List.rdropWhile_eq_self_iff.mpr fun hl => ?_
  rw [Bool.not_eq_true]
  exact hlast _ (List.getLast?_eq_getLast_of_ne_nil hl)

theorem toLower_idem (c : Char) : c.toLower.toLower = c.toLower := by
  by_cases h : c.val ≥ 'A'.val ∧ c.val ≤ 'Z'.val
  · have hlow : 65 ≤ c.val.toNat := UInt32.le_iff_toNat_le.mp h.1
    have hhigh : c.val.toNat ≤ 90 := UInt32.le_iff_toNat_le.mp h.2
    have hval : c.toLower.val.toNat = c.val.toNat + 32 := by
      have hlower : c.toLower.val = c.val + 32 := congrArg Char.val (dif_pos h)
      rw [hlower]
      show (c.val.toNat + 32) % 4294967296 = _
      omega
    refine dif_neg ?_
    rintro ⟨-, hcap⟩
    have hcap' : c.toLower.val.toNat ≤ 90 := UInt32.le_iff_toNat_le.mp hcap
    omega
  · have hself : c.toLower = c := dif_neg h
    rw [hself, hself]

theorem eqIgnoreAsciiCase_toAsciiLowercase (a b : Str) :
    eqIgnoreAsciiCase a (toAsciiLowercase b) = eqIgnoreAsciiCase a b := by
  have hcomp : Char.toLower ∘ Char.toLower = Char.toLower := funext toLower_idem
  rw [eqIgnoreAsciiCase, eqIgnoreAsciiCase, toAsciiLowercase, List.map_map, hcomp]

/-! ## Looking a parameter up -/

variable {asked : Str}

theorem Param.blank_parts (p : Param) : (∀ c ∈ p.lead, isWhitespace c = true) ∧
    (∀ c ∈ p.nameEnd, isWhitespace c = true) ∧ (∀ c ∈ p.valueStart, isWhitespace c = true) ∧
    ∀ c ∈ p.trail, isWhitespace c = true := by
  refine ⟨?_, ?_, ?_, ?_⟩ <;> exact fun c hc => p.blank c (by simp [hc])

/-- The first and the last character of a written value are visible. -/
theorem HasValue.ends {written value : Str} (h : HasValue written value) : written ≠ [] ∧
    (∀ c ∈ written.head?, isWhitespace c = false) ∧ ∀ c ∈ written.getLast?, isWhitespace c = false := by
  have hquote : isWhitespace '"' = false := by decide
  cases h with
  | token hne h =>
    exact ⟨hne, fun c hc => (h c (List.mem_of_mem_head? hc)).2.2,
      fun c hc => (h c (List.mem_of_mem_getLast? hc)).2.2⟩
  | quoted h =>
    refine ⟨List.cons_ne_nil _ _, ?_, ?_⟩
    · rintro c ⟨⟩
      exact hquote
    · intro c hc
      rw [← List.cons_append, List.getLast?_concat] at hc
      cases hc
      exact hquote

/-- What is read of a written value. -/
theorem readValue_eq {written value : Str} (h : HasValue written value) :
    readValue written = some value := by
  cases h with
  | token hne h =>
    have hstrip : stripPrefix ['"'] written = none := by
      rw [Option.eq_none_iff_forall_not_mem]
      intro rest hrest
      have hquote : '"' ∈ written := by
        rw [stripPrefix_eq_some_iff.mp hrest]
        exact List.mem_cons_self
      exact (h _ hquote).2.1 rfl
    have htoken : written.takeWhile (fun c => !(c == ';' || isWhitespace c)) = written := by
      rw [List.takeWhile_eq_self_iff]
      intro c hc
      simp [(h c hc).1, (h c hc).2.2]
    simp only [readValue, hstrip, htoken]
    exact if_neg hne
  | quoted h =>
    have hstrip : ∀ s, stripPrefix ['"'] ('"' :: s) = some s := fun s => stripPrefix_append ['"'] s
    simp only [readValue, hstrip]
    exact decodeQuotedValue_quotedBody h []

/-- A written parameter is a segment of its header value. -/
theorem Param.segment (p : Param) : Segment ';' p.text := by
  obtain ⟨hlead, hnameEnd, hvalueStart, htrail⟩ := p.blank_parts
  have hblank : ∀ s : Str, (∀ c ∈ s, isWhitespace c = true) → Segment ';' s := by
    intro s hs
    refine Segment.plain fun c hc => ?_
    have hc := hs c hc
    constructor <;> (rintro rfl; revert hc; decide)
  have hname : Segment ';' p.name := Segment.plain fun c hc =>
    ⟨(p.isParamName.plain c hc).2.2.1, (p.isParamName.plain c hc).2.1⟩
  have hwritten : ∀ {written value}, HasValue written value → Segment ';' written := by
    intro written value h
    cases h with
    | token _ h => exact Segment.plain fun c hc => ⟨(h c hc).2.1, (h c hc).1⟩
    | quoted h => exact h.segment (by decide)
  have hequals : Segment ';' ['='] := Segment.plain (by simp)
  exact ((hblank _ hlead).append ((hname.append (hblank _ hnameEnd)).append
    (hequals.append ((hblank _ hvalueStart).append (hwritten p.hasValue))))).append (hblank _ htrail)

/-- What the loop makes of a written parameter. -/
theorem extractFrom_param (p : Param) (segments : List Str) :
    extractFrom (toAsciiLowercase asked) (p.text :: segments) =
      if eqIgnoreAsciiCase p.name asked then some p.value
      else extractFrom (toAsciiLowercase asked) segments := by
  obtain ⟨hlead, hnameEnd, hvalueStart, htrail⟩ := p.blank_parts
  obtain ⟨hne, hfirst, hlast⟩ := p.hasValue.ends
  have htrim : trim p.text = p.name ++ p.nameEnd ++ '=' :: (p.valueStart ++ p.written) := by
    apply trim_pad hlead htrail
    · intro c hc
      obtain ⟨d, name, hname⟩ := List.exists_cons_of_ne_nil p.isParamName.ne_nil
      rw [hname] at hc
      cases hc
      exact (p.isParamName.plain c (hname ▸ List.mem_cons_self)).2.2.2
    · intro c hc
      rw [← List.cons_append, ← List.append_assoc, List.getLast?_append_of_ne_nil _ hne] at hc
      exact hlast c hc
    · simp
  have hsplit : splitOnce '=' (p.name ++ p.nameEnd ++ '=' :: (p.valueStart ++ p.written)) =
      some (p.name ++ p.nameEnd, p.valueStart ++ p.written) := by
    refine splitOnce_eq_some_iff.mpr ⟨rfl, fun hequals => ?_⟩
    rcases List.mem_append.mp hequals with h | h
    · exact (p.isParamName.plain _ h).1 rfl
    · exact absurd (hnameEnd _ h) (by decide)
  have hname : trim (p.name ++ p.nameEnd) = p.name :=
    trim_pad (a := []) (by simp) hnameEnd
      (fun c hc => (p.isParamName.plain c (List.mem_of_mem_head? hc)).2.2.2)
      (fun c hc => (p.isParamName.plain c (List.mem_of_mem_getLast? hc)).2.2.2) p.isParamName.ne_nil
  have hvalue : trimStart (p.valueStart ++ p.written) = p.written := by
    obtain ⟨c, written, hwritten⟩ := List.exists_cons_of_ne_nil hne
    rw [trimStart, List.dropWhile_append_of_pos hvalueStart, hwritten, List.dropWhile_cons_of_neg]
    simp [hfirst c (by rw [hwritten]; rfl)]
  rw [extractFrom, htrim, hsplit]
  simp only [hname, eqIgnoreAsciiCase_toAsciiLowercase, hvalue]
  by_cases hasked : eqIgnoreAsciiCase p.name asked = true
  · simp only [hasked, Bool.not_true, Bool.false_eq_true, if_false, if_true]
    exact readValue_eq p.hasValue
  · simp [hasked]

/-- What a lookup finds among written parameters: the first of the name. -/
theorem extractFrom_params (params : List Param) :
    extractFrom (toAsciiLowercase asked) (params.map Param.text) =
      (params.find? fun p => eqIgnoreAsciiCase p.name asked).map Param.value := by
  induction params with
  | nil => rfl
  | cons p params ih =>
    rw [List.map_cons, extractFrom_param, List.find?_cons, ih]
    cases eqIgnoreAsciiCase p.name asked <;> rfl

theorem splitOutside_paramsText {s : Str} (hs : Segment ';' s) (params : List Param) :
    splitOutside ';' .outside (s ++ paramsText params) = s :: params.map Param.text := by
  induction params generalizing s with
  | nil => simpa [paramsText] using hs.whole
  | cons p params ih =>
    have htext : s ++ paramsText (p :: params) = s ++ ';' :: (p.text ++ paramsText params) := rfl
    rw [htext, splitOutside_cons hs, ih p.segment, List.map_cons]

theorem extractQuotedParam_headerText {primary : Str} (hprimary : IsPrimary primary)
    (params : List Param) : extractQuotedParam (primary ++ paramsText params) asked =
      (params.find? fun p => eqIgnoreAsciiCase p.name asked).map Param.value := by
  rw [extractQuotedParam, splitParamsQuoteAware_eq, splitOutside_paramsText (Segment.plain hprimary),
    List.tail_cons, extractFrom_params]

/-- The parameter that the sender writes for a file name. -/
def fileParam {name f : Str} (hname : IsParamName name) (hcr : '\r' ∉ f) (hlf : '\n' ∉ f) : Param where
  lead := " ".toList
  name := name
  nameEnd := []
  valueStart := []
  written := '"' :: (escapeFilename f ++ ['"'])
  trail := []
  value := f
  isParamName := hname
  hasValue := .quoted (quotedBody_escapeFilename hcr hlf)
  blank := by
    intro c hc
    obtain rfl : c = ' ' := by simpa using hc
    rfl

/-- A value is only read from a segment with the name. -/
theorem exists_segment_of_extractFrom {segments : List Str} {v : Str}
    (h : extractFrom (toAsciiLowercase asked) segments = some v) :
    ∃ segment ∈ segments, ∃ rawName rawValue, trim segment = rawName ++ '=' :: rawValue ∧
      eqIgnoreAsciiCase (trim rawName) asked = true := by
  induction segments with
  | nil => cases h
  | cons segment segments ih =>
    rw [extractFrom] at h
    split at h
    next =>
      obtain ⟨segment', hmem, hrest⟩ := ih h
      exact ⟨segment', List.mem_cons_of_mem _ hmem, hrest⟩
    next rawName rawValue hsplit =>
      by_cases hname : eqIgnoreAsciiCase (trim rawName) asked = true
      · exact ⟨segment, List.mem_cons_self, rawName, rawValue, (splitOnce_eq_some_iff.mp hsplit).1, hname⟩
      · rw [eqIgnoreAsciiCase_toAsciiLowercase, if_pos (by simp [hname])] at h
        obtain ⟨segment', hmem, hrest⟩ := ih h
        exact ⟨segment', List.mem_cons_of_mem _ hmem, hrest⟩

/-- A value is only found for a name that is present. -/
theorem present_of_extractQuotedParam {s v : Str} (h : extractQuotedParam s asked = some v) :
    Present s asked := by
  rw [extractQuotedParam, splitParamsQuoteAware_eq] at h
  obtain ⟨segment, hmem, rawName, rawValue, htrim, hname⟩ := exists_segment_of_extractFrom h
  obtain ⟨pre, post, rfl, hpre⟩ := mem_tail_splitOutside (by decide) hmem
  obtain ⟨rest, hrest⟩ : trim segment <+: trimStart segment := List.rdropWhile_prefix isWhitespace _
  have hsegment : segment = segment.takeWhile isWhitespace ++ (rawName ++ '=' :: rawValue) ++ rest := by
    rw [List.append_assoc, ← htrim, hrest]
    exact List.takeWhile_append_dropWhile.symm
  refine ⟨pre, segment.takeWhile isWhitespace ++ rawName, rawValue ++ rest ++ post, ?_, hpre, ?_⟩
  · conv_lhs => rw [hsegment]
    simp
  · have hblank : trimStart (segment.takeWhile isWhitespace ++ rawName) = trimStart rawName :=
      List.dropWhile_append_of_pos fun c hc => List.mem_takeWhile_imp hc
    rw [trim, hblank]
    exact hname

/-- A file name comes back from among any other parameters, and nothing comes for a name that is not
present. -/
theorem extractQuotedParam_escapeFilename (asked : Str) :
    (∀ escape ∈ [escapeFilename, Compose.escapeFilename], ∀ primary name f before after,
      IsPrimary primary → IsParamName name → eqIgnoreAsciiCase name asked = true → '\r' ∉ f → '\n' ∉ f →
      (∀ p ∈ before, eqIgnoreAsciiCase p.name asked = false) →
      extractQuotedParam (primary ++ paramsText before ++ "; ".toList ++ name ++
        '=' :: '"' :: (escape f ++ '"' :: paramsText after)) asked = some f) ∧
    (∀ primary params, IsPrimary primary → (∀ p ∈ params, eqIgnoreAsciiCase p.name asked = false) →
      extractQuotedParam (primary ++ paramsText params) asked = none) ∧
    ∀ s v, extractQuotedParam s asked = some v → Present s asked := by
  refine ⟨?_, fun primary params hprimary hother => ?_, fun s v => present_of_extractQuotedParam⟩
  swap
  · rw [extractQuotedParam_headerText hprimary, List.find?_eq_none.mpr (by simpa using hother)]
    rfl
  intro escape hescape primary name f before after hprimary hname hasked hcr hlf hbefore
  have hescape' : escape = escapeFilename := by
    simp only [List.mem_cons, List.not_mem_nil, or_false] at hescape
    rcases hescape with rfl | rfl <;> rfl
  have htext : primary ++ paramsText before ++ "; ".toList ++ name ++
      '=' :: '"' :: (escape f ++ '"' :: paramsText after) =
        primary ++ paramsText (before ++ fileParam hname hcr hlf :: after) := by
    rw [hescape']
    simp [paramsText, Param.text, fileParam]
  rw [htext, extractQuotedParam_headerText hprimary, List.find?_append,
    List.find?_eq_none.mpr (by simpa using hbefore), List.find?_cons_of_pos]
  · rfl
  · exact hasked

/-- A parameter that is no file name. -/
def sizeParam : Param where
  lead := " ".toList
  name := "size".toList
  nameEnd := []
  valueStart := []
  written := "1".toList
  trail := []
  value := "1".toList
  isParamName := ⟨by decide, by decide⟩
  hasValue := .token (by decide) (by decide)
  blank := by decide

/-- A file name with a quote and a semicolon in it comes back from behind that parameter, and nothing comes
where it is alone. -/
theorem extractQuotedParam_report :
    extractQuotedParam "attachment; size=1; filename=\"a\\\";b.pdf\"".toList "filename".toList =
        some "a\";b.pdf".toList ∧
      extractQuotedParam "attachment; size=1".toList "filename".toList = none ∧
      Present "attachment; size=1; filename=\"a\\\";b.pdf\"".toList "filename".toList := by
  obtain ⟨hback, hnone, hpresent⟩ := extractQuotedParam_escapeFilename "filename".toList
  have hplain : IsPrimary "attachment".toList := by
    unfold IsPrimary
    decide
  have hother : ∀ p ∈ [sizeParam], eqIgnoreAsciiCase p.name "filename".toList = false :=
    List.forall_mem_singleton.mpr (by decide)
  have hreport := hback escapeFilename List.mem_cons_self "attachment".toList "filename".toList
    "a\";b.pdf".toList [sizeParam] [] hplain ⟨by decide, by decide⟩ (by decide) (by decide) (by decide) hother
  exact ⟨hreport, hnone _ [sizeParam] hplain hother, hpresent _ _ hreport⟩

end Send
end Aimx
